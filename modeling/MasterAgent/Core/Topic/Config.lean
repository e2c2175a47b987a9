/-
  MasterAgent.Core.Topic.Config

  The topic configuration records (`ma/core/topic/config.py`) that a compiled
  topic carries into the service, and the biz_params model that
  `ma/core/topic/compiler.py` compiles from a topic's schema.
-/

import MasterAgent.Python.Value
import MasterAgent.Lib.Dict

namespace MasterAgent

/-- `HistoryPolicy`, with the bounds its fields declare. -/
structure HistoryPolicy where
  maxTurns : Nat
  one_le_maxTurns : 1 ≤ maxTurns
  maxTurns_le : maxTurns ≤ 200

/-- `RetryPolicy`, with the bounds its fields declare. -/
structure RetryPolicy where
  maxAttempts : Nat
  backoffMs : Nat
  one_le_maxAttempts : 1 ≤ maxAttempts
  maxAttempts_le : maxAttempts ≤ 5
  backoffMs_le : backoffMs ≤ 30000

/-- `max_attempts = retry.max_attempts if retry else 1`. -/
def maxAttempts : Option RetryPolicy → Nat
  | some p => p.maxAttempts
  | none => 1

/-- `backoff_ms = retry.backoff_ms if retry else 0`. -/
def backoffMs : Option RetryPolicy → Nat
  | some p => p.backoffMs
  | none => 0

theorem one_le_maxAttempts (retry : Option RetryPolicy) : 1 ≤ maxAttempts retry := by
  cases retry with
  | none => exact Nat.le_refl 1
  | some p => exact p.one_le_maxAttempts

/-- A `ConditionalEdge`.  Its other fields admit one value each. -/
structure ConditionalEdge where
  mapping : Dict PyStr PyStr

-- ============================================================================
-- The biz_params model
-- ============================================================================

/-- The pydantic model compiled from a schema: one field a property, required
    (`(str, ...)`) or optional (`(str | None, None)`), and no extra keys. -/
structure BizParamsModel where
  fields : Dict PyStr Bool

/-- A value that a field accepts. -/
def BizParamsModel.valueOk (required : Bool) : Json → Bool
  | .str _ => true
  | .null => !required
  | _ => false

/-- `model_validate` succeeds. -/
def BizParamsModel.accepts (m : BizParamsModel) : Json → Bool
  | .obj kvs =>
      kvs.all (fun kv => match m.fields.get? kv.1 with
        | some required => valueOk required kv.2
        | none => false) &&
      m.fields.entries.all (fun f => !f.2 || decide (f.1 ∈ kvs.map Prod.fst))
  | _ => false

theorem Json.field_mem {k : PyStr} {v : Json} {fields : List (PyStr × Json)}
    (h : Json.field k fields = some v) : (k, v) ∈ fields := by
  induction fields with
  | nil => simp [Json.field] at h
  | cons e rest ih =>
      by_cases hk : e.1 = k
      · simp only [Json.field, if_pos hk, Option.some.injEq] at h
        subst hk h
        exact List.mem_cons_self
      · simp only [Json.field, if_neg hk] at h
        exact List.mem_cons_of_mem _ (ih h)

/-- Accepted biz_params are an object whose values are strings and null. -/
theorem BizParamsModel.accepts_obj {m : BizParamsModel} {v : Json} (h : m.accepts v = true) :
    ∃ kvs, v = .obj kvs ∧ ∀ k x, Json.field k kvs = some x → x = .null ∨ ∃ s, x = .str s := by
  cases v with
  | obj kvs =>
      refine ⟨kvs, rfl, fun k x hx => ?_⟩
      simp only [accepts, Bool.and_eq_true, List.all_eq_true] at h
      have hkv := h.1 (k, x) (Json.field_mem hx)
      cases hf : m.fields.get? k with
      | none => simp [hf] at hkv
      | some required =>
          simp only [hf] at hkv
          cases x <;> simp [valueOk] at hkv ⊢
  | _ => simp [accepts] at h

end MasterAgent
