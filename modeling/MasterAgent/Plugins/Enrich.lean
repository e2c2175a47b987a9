/-
  MasterAgent.Plugins.Enrich

  `GenericEnrich` (`ma/plugins/enrich/generic_enrich.py`): the question gets a
  prefix of the fields it is configured with, each taken from biz_params or else
  from user_ctx.
-/

import MasterAgent.Core.Plugin.Base
import MasterAgent.Python.Text

namespace MasterAgent

namespace GenericEnrich

/-- The value of a field: `biz_params` goes first. -/
def lookup (bizParams userCtx : Json) (field : PyStr) : Except Exn (Option Json) := do
  if ← bizParams.contains field then
    let value ← bizParams.getItem field
    return some value
  else if ← userCtx.contains field then
    let value ← userCtx.getItem field
    return some value
  else return none

/-- The loop over the fields: those it finds, with their values. -/
def found (bizParams userCtx : Json) : List PyStr → Except Exn (List (PyStr × Json))
  | [] => .ok []
  | field :: fields => do
      let value ← lookup bizParams userCtx field
      let rest ← found bizParams userCtx fields
      return (value.map fun v => (field, v)).toList ++ rest

/-- `"[" + " ".join(prefix_parts) + "] "`, or nothing. -/
def prefixText (str : Json → PyStr) (injected : List (PyStr × Json)) : PyStr :=
  if injected.isEmpty then []
  else py "[" ++
    List.intercalate (py " ") (injected.map fun e => e.1 ++ py "=" ++ e.2.text str) ++ py "] "

/-- `GenericEnrich.enrich`. -/
def enrich (str : Json → PyStr) (fields : List PyStr) (state : GraphState) :
    Except Exn EnrichResult := do
  let injected ← found state.bizParams (state.userCtx.getD (.obj [])) fields
  match state.question with
  | .str question =>
      return {
        enrichedQuestion := prefixText str injected ++ question
        enrichMeta := .obj [(py "injected", .arr (injected.map fun e => .str e.1))] }
  -- a string is added to a value of another type
  | _ => .error .typeError

def plugin (str : Json → PyStr) (fields : List PyStr) : EnrichPlugin where
  enrich := enrich str fields

-- ============================================================================
-- What it reads of user_ctx
-- ============================================================================

section Reads

variable {bizParams : Json} {ctx ctx' : List (PyStr × Json)}

theorem lookup_congr {field : PyStr} (h : Json.field field ctx = Json.field field ctx') :
    lookup bizParams (.obj ctx) field = lookup bizParams (.obj ctx') field := by
  have hkey : field ∈ ctx.map Prod.fst ↔ field ∈ ctx'.map Prod.fst := by
    rw [← not_iff_not, ← Json.field_eq_none, ← Json.field_eq_none, h]
  have hcontains : (Json.obj ctx).contains field = (Json.obj ctx').contains field := by
    simp only [Json.contains, hkey]
  have hitem : (Json.obj ctx).getItem field = (Json.obj ctx').getItem field := by
    simp only [Json.getItem, h]
  simp only [lookup, hcontains, hitem]

/-- Of user_ctx the loop reads the configured fields only. -/
theorem found_congr {fields : List PyStr}
    (h : ∀ k ∈ fields, Json.field k ctx = Json.field k ctx') :
    found bizParams (.obj ctx) fields = found bizParams (.obj ctx') fields := by
  induction fields with
  | nil => rfl
  | cons field fields ih =>
      have hfirst := @lookup_congr bizParams _ _ field (h field List.mem_cons_self)
      have hrest := ih fun k hk => h k (List.mem_cons_of_mem _ hk)
      simp only [found, hfirst, hrest]

end Reads

end GenericEnrich

end MasterAgent
