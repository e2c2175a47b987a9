/-
  MasterAgent.Core.Graph.IntentReference

  The attempt loop of the intent node against its reference: the first attempt
  that returns decides the route, and without one the default route does.  An
  attempt that raises costs a call and nothing else (`intentTrace_raised`).
-/

import MasterAgent.Core.Graph.AdapterDiscipline
import MasterAgent.Core.Graph.NodeTrace

namespace MasterAgent

open Effect

variable {σ : Type}

-- ============================================================================
-- What a run shows
-- ============================================================================

/-- The attempts in which a run calls `classify`. -/
def classified (acts : List Act) : List Nat :=
  acts.filterMap fun a => match a with
    | .classify _ attempt _ => some attempt
    | _ => none

/-- The route a progress event of the intent node shows. -/
def progressRoute (ev : ChatEvent) : Option PyStr :=
  match ev.data.getItem (py "extra") with
  | .ok extra => match extra.getItem (py "route") with
      | .ok (.str route) => some route
      | _ => none
  | .error _ => none

/-- The status a progress event shows. -/
def progressStatus (ev : ChatEvent) : Option PyStr :=
  match ev.data.getItem (py "status") with
  | .ok (.str status) => some status
  | _ => none

theorem progressRoute_progress (route reason : PyStr) :
    progressRoute (intentProgress route reason) = some route := by
  simp [progressRoute, intentProgress, literalEvent, Json.getItem, Json.field]

theorem progressRoute_fallback (maxAttempts : Nat) (route : PyStr) :
    progressRoute (intentFallback maxAttempts route) = some route := by
  simp [progressRoute, intentFallback, literalEvent, Json.getItem, Json.field]

theorem progressStatus_fallback (maxAttempts : Nat) (route : PyStr) :
    progressStatus (intentFallback maxAttempts route) = some (py "fallback") := by
  simp [progressStatus, intentFallback, literalEvent, Json.getItem, Json.field]

-- ============================================================================
-- The loop
-- ============================================================================

section Loop

variable {repr : PyStr → PyStr} {plugin : IntentPlugin} {defaultRoute : PyStr}
  {labels : List PyStr} {maxAttempts backoffMs : Nat} {state : GraphState}

/-- An attempt that raises is a call, and what comes after it. -/
theorem intentTrace_raised {left attempt : Nat} {e : Exn} (he : e ≠ .cancelled)
    (hraise : plugin.classify attempt state = .error e) :
    (intentTrace repr plugin defaultRoute labels maxAttempts backoffMs state (left + 1)
        attempt).2 =
      (intentTrace repr plugin defaultRoute labels maxAttempts backoffMs state left
        (attempt + 1)).2 ∧
    classified (intentTrace repr plugin defaultRoute labels maxAttempts backoffMs state
        (left + 1) attempt).1 =
      attempt :: classified (intentTrace repr plugin defaultRoute labels maxAttempts backoffMs
        state left (attempt + 1)).1 ∧
    dispatched (intentTrace repr plugin defaultRoute labels maxAttempts backoffMs state
        (left + 1) attempt).1 =
      dispatched (intentTrace repr plugin defaultRoute labels maxAttempts backoffMs state left
        (attempt + 1)).1 := by
  have hexc : e.isException = true := Exn.isException_eq_true.mpr he
  rw [intentTrace, hraise]
  simp only [hexc, if_true]
  refine ⟨trivial, ?_, ?_⟩
  · split <;> rfl
  · split <;> rfl

/-- The first attempt that returns ends the loop. -/
theorem intentTrace_answered {left attempt i : Nat} {r : IntentResult} (hi : i < left)
    (hreturn : plugin.classify (attempt + i) state = .ok r)
    (hraise : ∀ j < i, ∃ e, e ≠ .cancelled ∧ plugin.classify (attempt + j) state = .error e) :
    (intentTrace repr plugin defaultRoute labels maxAttempts backoffMs state left attempt).2 =
      .ok (intentUpdate (intentAnswer repr defaultRoute labels r)) ∧
    classified (intentTrace repr plugin defaultRoute labels maxAttempts backoffMs state left
        attempt).1 = List.range' attempt (i + 1) ∧
    dispatched (intentTrace repr plugin defaultRoute labels maxAttempts backoffMs state left
        attempt).1 =
      [intentProgress (intentAnswer repr defaultRoute labels r).1
        (intentAnswer repr defaultRoute labels r).2.2] := by
  induction i generalizing left attempt with
  | zero =>
      obtain ⟨left, rfl⟩ := Nat.exists_eq_add_one_of_ne_zero (Nat.ne_zero_of_lt hi)
      rw [Nat.add_zero] at hreturn
      rw [intentTrace, hreturn]
      exact ⟨rfl, rfl, rfl⟩
  | succ i ih =>
      obtain ⟨left, rfl⟩ := Nat.exists_eq_add_one_of_ne_zero (Nat.ne_zero_of_lt hi)
      obtain ⟨e, he, hfirst⟩ := hraise 0 (Nat.succ_pos i)
      obtain ⟨hresult, hcalls, hevents⟩ := @intentTrace_raised repr plugin defaultRoute labels
        maxAttempts backoffMs state left attempt e he hfirst
      have hshift : ∀ j, attempt + 1 + j = attempt + (j + 1) := fun j => by omega
      obtain ⟨hresult', hcalls', hevents'⟩ := @ih left (attempt + 1)
        (Nat.lt_of_succ_lt_succ hi) (by rwa [hshift])
        (fun j hj => by
          rw [hshift]
          exact hraise (j + 1) (Nat.succ_lt_succ hj))
      rw [hresult, hcalls, hevents, hcalls', List.range'_succ]
      exact ⟨hresult', rfl, hevents'⟩

/-- Without an attempt that returns the loop falls back. -/
theorem intentTrace_exhausted {left attempt : Nat}
    (hraise : ∀ j < left, ∃ e, e ≠ .cancelled ∧ plugin.classify (attempt + j) state = .error e) :
    (intentTrace repr plugin defaultRoute labels maxAttempts backoffMs state left attempt).2 =
      .ok (intentUpdate (defaultRoute, 0, py "intent_retry_exhausted")) ∧
    classified (intentTrace repr plugin defaultRoute labels maxAttempts backoffMs state left
        attempt).1 = List.range' attempt left ∧
    dispatched (intentTrace repr plugin defaultRoute labels maxAttempts backoffMs state left
        attempt).1 = [intentFallback maxAttempts defaultRoute] := by
  induction left generalizing attempt with
  | zero => exact ⟨rfl, rfl, rfl⟩
  | succ left ih =>
      obtain ⟨e, he, hfirst⟩ := hraise 0 (Nat.succ_pos left)
      obtain ⟨hresult, hcalls, hevents⟩ := @intentTrace_raised repr plugin defaultRoute labels
        maxAttempts backoffMs state left attempt e he hfirst
      have hshift : ∀ j, attempt + 1 + j = attempt + (j + 1) := fun j => by omega
      obtain ⟨hresult', hcalls', hevents'⟩ := @ih (attempt + 1) fun j hj => by
        rw [hshift]
        exact hraise (j + 1) (Nat.succ_lt_succ hj)
      rw [hresult, hcalls, hevents, hcalls', List.range'_succ]
      exact ⟨hresult', rfl, hevents'⟩

end Loop

-- ============================================================================
-- The node
-- ============================================================================

/-- The body of the intent node, for any number of attempts. -/
def intentNode (env : NodeEnv σ) (repr : PyStr → PyStr) (plugin : IntentPlugin)
    (defaultRoute : PyStr) (labels : List PyStr) (maxAttempts backoffMs : Nat) :
    NodeFn σ := fun state => do
  env.emit thinkingIntent
  intentAttempts env repr plugin defaultRoute labels maxAttempts backoffMs state maxAttempts 1

theorem makeIntentNode_eq (env : NodeEnv σ) (repr : PyStr → PyStr) (plugin : IntentPlugin)
    (defaultRoute : PyStr) (labels : List PyStr) (retry : Option RetryPolicy) :
    makeIntentNode env repr plugin defaultRoute labels retry =
      intentNode env repr plugin defaultRoute labels (maxAttempts retry) (backoffMs retry) :=
  rfl

theorem intentNode_live (repr : PyStr → PyStr) (plugin : IntentPlugin) (defaultRoute : PyStr)
    (labels : List PyStr) (maxAttempts backoffMs : Nat) (state : GraphState) :
    intentNode (NodeEnv.live σ) repr plugin defaultRoute labels maxAttempts backoffMs state =
      Eff.play
        (.emit thinkingIntent :: (intentTrace repr plugin defaultRoute labels maxAttempts
          backoffMs state maxAttempts 1).1)
        (intentTrace repr plugin defaultRoute labels maxAttempts backoffMs state
          maxAttempts 1).2 := by
  unfold intentNode
  rw [intentAttempts_live]
  rfl

/-- Attempt `k` is the first one that returns, and it returns `r`. -/
structure FirstReturn (script : Nat → Except Exn IntentResult) (maxAttempts k : Nat)
    (r : IntentResult) : Prop where
  one_le : 1 ≤ k
  le_max : k ≤ maxAttempts
  returns : script k = .ok r
  raises : ∀ j, 1 ≤ j → j < k → ∃ e, script j = .error e

/-- No attempt returns. -/
def NoReturn (script : Nat → Except Exn IntentResult) (maxAttempts : Nat) : Prop :=
  ∀ k, 1 ≤ k → k ≤ maxAttempts → ∃ e, script k = .error e

theorem noReturn_or_firstReturn (script : Nat → Except Exn IntentResult) (maxAttempts : Nat) :
    NoReturn script maxAttempts ∨ ∃ k r, FirstReturn script maxAttempts k r := by
  induction maxAttempts with
  | zero => exact Or.inl fun k hk hle => absurd (hk.trans hle) (Nat.not_succ_le_zero 0)
  | succ n ih =>
      rcases ih with hnone | ⟨k, r, hk⟩
      · cases hlast : script (n + 1) with
        | ok r =>
            exact Or.inr ⟨n + 1, r, Nat.succ_pos n, Nat.le_refl _, hlast,
              fun j hj hlt => hnone j hj (Nat.le_of_lt_succ hlt)⟩
        | error e =>
            left
            intro k hk hle
            rcases Nat.eq_or_lt_of_le hle with rfl | hlt
            · exact ⟨e, hlast⟩
            · exact hnone k hk (Nat.le_of_lt_succ hlt)
      · exact Or.inr ⟨k, r, hk.one_le, hk.le_max.trans (Nat.le_succ n), hk.returns, hk.raises⟩

/-- A run of the node does what its reference says: the first result decides. -/
structure FollowsReference (script : Nat → Except Exn IntentResult) (defaultRoute : PyStr)
    (labels : List PyStr) (maxAttempts : Nat) (acts : List Act)
    (result : Except Exn Update) : Prop where
  /-- The node returns, after one thinking and one progress event, and the latter
      shows the route that is written. -/
  events : ∃ u ev, result = .ok u ∧ dispatched acts = [thinkingIntent, ev] ∧
    ev.type = .progress ∧ u.route = progressRoute ev
  calls : ∀ k r, FirstReturn script maxAttempts k r → classified acts = List.range' 1 k
  label : ∀ k r, FirstReturn script maxAttempts k r → r.route ∈ labels →
    result = .ok (intentUpdate (r.route, r.confidence, r.reason))
  unknown : ∀ k r, FirstReturn script maxAttempts k r → r.route ∉ labels →
    ∃ reason, result = .ok (intentUpdate (defaultRoute, 0, reason))
  exhausted : NoReturn script maxAttempts → classified acts = List.range' 1 maxAttempts ∧
    (∃ reason, result = .ok (intentUpdate (defaultRoute, 0, reason))) ∧
    ∀ ev ∈ dispatched acts, ev.type = .progress → progressStatus ev = some (py "fallback")

/-- Two first attempts that return are one. -/
theorem FirstReturn.unique {script : Nat → Except Exn IntentResult} {maxAttempts k k' : Nat}
    {r r' : IntentResult} (h : FirstReturn script maxAttempts k r)
    (h' : FirstReturn script maxAttempts k' r') : k = k' ∧ r = r' := by
  have hle : ∀ {k k' r r'}, FirstReturn script maxAttempts k r →
      FirstReturn script maxAttempts k' r' → k ≤ k' := by
    intro k k' r r' h h'
    by_contra hlt
    obtain ⟨e, he⟩ := h.raises k' h'.one_le (Nat.lt_of_not_le hlt)
    rw [h'.returns] at he
    cases he
  obtain rfl := Nat.le_antisymm (hle h h') (hle h' h)
  exact ⟨rfl, Except.ok.inj (h.returns.symm.trans h'.returns)⟩

theorem FirstReturn.not_noReturn {script : Nat → Except Exn IntentResult} {maxAttempts k : Nat}
    {r : IntentResult} (h : FirstReturn script maxAttempts k r) :
    ¬ NoReturn script maxAttempts := by
  intro hnone
  obtain ⟨e, he⟩ := hnone k h.one_le h.le_max
  rw [h.returns] at he
  cases he

/-- For any labels, any number of attempts and any script of answers and
    exceptions the intent node does what its reference says. -/
theorem intent_reference (repr : PyStr → PyStr) (plugin : IntentPlugin) (defaultRoute : PyStr)
    (labels : List PyStr) (maxAttempts backoffMs : Nat) (state : GraphState) (w : σ)
    (hscript : ∀ k, plugin.classify k state ≠ .error .cancelled) :
    FollowsReference (fun k => plugin.classify k state) defaultRoute labels maxAttempts
      (intentNode (NodeEnv.live σ) repr plugin defaultRoute labels maxAttempts backoffMs state
        w).trace
      (intentNode (NodeEnv.live σ) repr plugin defaultRoute labels maxAttempts backoffMs state
        w).result := by
  rw [intentNode_live, Eff.play_trace, Eff.play_result]
  have hraise : ∀ {k}, (∃ e, plugin.classify k state = .error e) →
      ∃ e, e ≠ .cancelled ∧ plugin.classify k state = .error e := by
    rintro k ⟨e, he⟩
    refine ⟨e, ?_, he⟩
    rintro rfl
    exact hscript k he
  rcases noReturn_or_firstReturn (fun k => plugin.classify k state) maxAttempts with
    hnone | ⟨k, r, hfirst⟩
  · obtain ⟨hresult, hcalls, hevents⟩ := @intentTrace_exhausted repr plugin defaultRoute labels
      maxAttempts backoffMs state maxAttempts 1
      fun j hj => hraise (hnone (1 + j) (Nat.le_add_right 1 j) (by omega))
    constructor
    · exact ⟨_, intentFallback maxAttempts defaultRoute, hresult,
        congrArg (thinkingIntent :: ·) hevents, rfl, (progressRoute_fallback _ _).symm⟩
    · exact fun k r h => absurd hnone h.not_noReturn
    · exact fun k r h => absurd hnone h.not_noReturn
    · exact fun k r h => absurd hnone h.not_noReturn
    · intro _
      refine ⟨hcalls, ⟨_, hresult⟩, ?_⟩
      intro ev hev htype
      have hev' : ev ∈ thinkingIntent :: dispatched (intentTrace repr plugin defaultRoute labels
        maxAttempts backoffMs state maxAttempts 1).1 := hev
      rw [hevents, List.mem_cons, List.mem_singleton] at hev'
      rcases hev' with rfl | rfl
      · cases htype
      · exact progressStatus_fallback _ _
  · obtain ⟨i, rfl⟩ := Nat.exists_eq_add_of_le hfirst.one_le
    obtain ⟨hresult, hcalls, hevents⟩ := @intentTrace_answered repr plugin defaultRoute labels
      maxAttempts backoffMs state maxAttempts 1 i r (by have := hfirst.le_max; omega)
      hfirst.returns
      fun j hj => hraise (hfirst.raises (1 + j) (Nat.le_add_right 1 j) (by omega))
    constructor
    · exact ⟨_, _, hresult, congrArg (thinkingIntent :: ·) hevents, rfl,
        (progressRoute_progress _ _).symm⟩
    · intro k' r' h'
      obtain ⟨rfl, rfl⟩ := hfirst.unique h'
      rw [Nat.add_comm 1 i]
      exact hcalls
    · intro k' r' h' hlabel
      obtain ⟨rfl, rfl⟩ := hfirst.unique h'
      rw [hresult, intentAnswer, if_pos hlabel]
    · intro k' r' h' hlabel
      obtain ⟨rfl, rfl⟩ := hfirst.unique h'
      exact ⟨_, by rw [hresult, intentAnswer, if_neg hlabel]⟩
    · exact fun hnone => absurd hnone hfirst.not_noReturn

/-- Two attempts raise, and the third answers with a label. -/
def thirdAnswers : IntentPlugin where
  classify := fun attempt _ =>
    if attempt = 1 then .error (.intentFailed (py "no route"))
    else if attempt = 2 then .error .valueError
    else .ok { route := py "legal", confidence := 0x3ff0000000000000#64, reason := py "r" }

theorem intent_reference_thirdAnswers :
    (intentNode (NodeEnv.live Unit) id thirdAnswers (py "other") [py "legal"] 4 10 blankState
        ()).result
        = .ok (intentUpdate (py "legal", 0x3ff0000000000000#64, py "r")) ∧
      FollowsReference (fun k => thirdAnswers.classify k blankState) (py "other") [py "legal"] 4
        (intentNode (NodeEnv.live Unit) id thirdAnswers (py "other") [py "legal"] 4 10 blankState
          ()).trace
        (intentNode (NodeEnv.live Unit) id thirdAnswers (py "other") [py "legal"] 4 10 blankState
          ()).result := by
  refine ⟨rfl, intent_reference id thirdAnswers (py "other") [py "legal"] 4 10 blankState () ?_⟩
  intro k hk
  unfold thirdAnswers at hk
  dsimp only at hk
  split_ifs at hk <;> cases hk

end MasterAgent
