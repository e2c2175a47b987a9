/-
  MasterAgent.Core.Graph.NodeTrace

  What the auth, enrich, intent and reject nodes do when dispatch works: like
  the adapter node they leave the world alone, so each run is a list of acts
  and a result.
-/

import MasterAgent.Core.Graph.AdapterTrace
import MasterAgent.Core.Graph.Builtins

namespace MasterAgent

open Effect

variable {σ : Type}

-- ============================================================================
-- auth, enrich and reject
-- ============================================================================

def thinkingAuth : ChatEvent :=
  literalEvent .thinking
    [(py "phase", .str (py "auth")), (py "label", .str (py "正在校验权限…"))]

def progressAuth (passed : Bool) : ChatEvent :=
  literalEvent .progress
    [(py "step", .str (py "auth")), (py "status", .str (py "done")),
      (py "extra", .obj [(py "passed", .bool passed)])]

/-- The update of an authorisation. -/
def authUpdate (result : AuthResult) : Update :=
  if result.passed then { auth := some result, userCtx := result.userCtx }
  else { auth := some result, route := some (py "reject") }

theorem makeAuthNode_live (plugin : AuthPlugin) (state : GraphState) :
    makeAuthNode (NodeEnv.live σ) plugin state =
      match plugin.authorize state with
      | .error e => Eff.play [.emit thinkingAuth, .authorize state (.error e)] (.error e)
      | .ok result => Eff.play
          [.emit thinkingAuth, .authorize state (.ok result), .emit (progressAuth result.passed)]
          (.ok (authUpdate result)) := by
  funext w
  cases h : plugin.authorize state with
  | error e => simp [makeAuthNode, callPlugin, Eff.bind_apply, NodeEnv.live, Eff.call, h,
      Eff.play, Run.after, thinkingAuth]
  | ok result =>
      cases hp : result.passed <;>
        simp [makeAuthNode, callPlugin, Eff.bind_apply, NodeEnv.live, Eff.call, h, hp,
          Eff.play, Run.after, thinkingAuth, progressAuth, authUpdate]

def thinkingEnrich : ChatEvent :=
  literalEvent .thinking [(py "phase", .str (py "enrich"))]

def progressEnrich (enrichMeta : Json) : ChatEvent :=
  literalEvent .progress
    [(py "step", .str (py "enrich")), (py "status", .str (py "done")), (py "extra", enrichMeta)]

/-- The update of an enrichment. -/
def enrichUpdate (result : EnrichResult) : Update where
  enrichedQuestion := some result.enrichedQuestion
  enrichMeta := some result.enrichMeta

theorem makeEnrichNode_live (plugin : EnrichPlugin) (state : GraphState) :
    makeEnrichNode (NodeEnv.live σ) plugin state =
      match plugin.enrich state with
      | .error e => Eff.play [.emit thinkingEnrich, .enrich state (.error e)] (.error e)
      | .ok result => Eff.play
          [.emit thinkingEnrich, .enrich state (.ok result),
            .emit (progressEnrich result.enrichMeta)]
          (.ok (enrichUpdate result)) := by
  funext w
  cases h : plugin.enrich state with
  | error e => simp [makeEnrichNode, callPlugin, Eff.bind_apply, NodeEnv.live, Eff.call, h,
      Eff.play, Run.after, thinkingEnrich]
  | ok result => simp [makeEnrichNode, callPlugin, Eff.bind_apply, NodeEnv.live, Eff.call, h,
      Eff.play, Run.after, thinkingEnrich, progressEnrich, enrichUpdate]

/-- The delta that shows a rejection. -/
def rejectDelta (text : PyStr) : ChatEvent := literalEvent .delta [(py "content", .str text)]

theorem makeRejectNode_live (errorMessages : Dict PyStr PyStr) (state : GraphState) :
    makeRejectNode (NodeEnv.live σ) errorMessages state =
      Eff.play [.emit (rejectDelta (rejectText errorMessages state.auth))]
        (.ok { answerChunks := [.str (rejectText errorMessages state.auth)] }) :=
  rfl

-- ============================================================================
-- intent
-- ============================================================================

def thinkingIntent : ChatEvent :=
  literalEvent .thinking
    [(py "phase", .str (py "intent")), (py "label", .str (py "正在识别问题意图…"))]

/-- The update of an answer. -/
def intentUpdate (answer : PyStr × PyFloat × PyStr) : Update where
  route := some answer.1
  routeConfidence := some answer.2.1
  routeReason := some answer.2.2

section Intent

variable (repr : PyStr → PyStr) (plugin : IntentPlugin) (defaultRoute : PyStr)
  (labels : List PyStr) (maxAttempts backoffMs : Nat) (state : GraphState)

/-- The acts of the intent loop, and what it returns or raises. -/
def intentTrace : (left attempt : Nat) → List Act × Except Exn Update
  | 0, _ => ([.emit (intentFallback maxAttempts defaultRoute)],
      .ok (intentUpdate (defaultRoute, 0, py "intent_retry_exhausted")))
  | left + 1, attempt => match plugin.classify attempt state with
      | .ok result =>
          let answer := intentAnswer repr defaultRoute labels result
          ([.classify state attempt (.ok result), .emit (intentProgress answer.1 answer.2.2)],
            .ok (intentUpdate answer))
      | .error e =>
          if e.isException then
            let rest := intentTrace left (attempt + 1)
            (.classify state attempt (.error e) ::
                ((if attempt < maxAttempts then [.sleep backoffMs] else []) ++ rest.1),
              rest.2)
          else ([.classify state attempt (.error e)], .error e)

theorem intentAttempts_live (left attempt : Nat) :
    intentAttempts (NodeEnv.live σ) repr plugin defaultRoute labels maxAttempts backoffMs state
        left attempt =
      Eff.play
        (intentTrace repr plugin defaultRoute labels maxAttempts backoffMs state left attempt).1
        (intentTrace repr plugin defaultRoute labels maxAttempts backoffMs state left
          attempt).2 := by
  induction left generalizing attempt with
  | zero => rfl
  | succ left ih =>
      funext w
      cases h : plugin.classify attempt state with
      | ok result =>
          simp [intentAttempts, intentTrace, callPlugin, Eff.bind_apply, NodeEnv.live, Eff.call, h,
            Eff.play, Run.after, intentUpdate]
      | error e =>
          have ih' := congrFun (ih (attempt + 1)) w
          by_cases he : e.isException = true
          · by_cases hlt : attempt < maxAttempts
            · simp only [intentAttempts, intentTrace, callPlugin, Eff.bind_apply, Eff.call, h,
                he, hlt, Eff.attempt_apply, if_true]
              simp only [Run.after, NodeEnv.live, Eff.act_apply] at ih' ⊢
              rw [ih']
              simp [Eff.play]
            · simp only [intentAttempts, intentTrace, callPlugin, Eff.bind_apply, Eff.call, h,
                he, hlt, Eff.attempt_apply, if_true, if_false]
              simp only [Run.after, NodeEnv.live] at ih' ⊢
              rw [ih']
              simp [Eff.play]
          · obtain rfl : e = .cancelled := by simpa using he
            simp [intentAttempts, intentTrace, callPlugin, Eff.bind_apply, Eff.call, h,
              Eff.play, Run.after]

variable {repr plugin defaultRoute labels maxAttempts backoffMs state}

/-- The loop calls the plugin, dispatches progress events and sleeps. -/
theorem mem_intentTrace {left attempt : Nat} {a : Act}
    (h : a ∈ (intentTrace repr plugin defaultRoute labels maxAttempts backoffMs state left
      attempt).1) :
    (∃ ev, ev.type = .progress ∧ a = .emit ev) ∨ (∃ k r, a = .classify state k r) ∨
      a = .sleep backoffMs := by
  induction left generalizing attempt with
  | zero => exact Or.inl ⟨_, rfl, List.mem_singleton.mp h⟩
  | succ left ih =>
      cases hc : plugin.classify attempt state with
      | ok result =>
          simp only [intentTrace, hc, List.mem_cons, List.not_mem_nil, or_false] at h
          rcases h with rfl | rfl
          · exact Or.inr (Or.inl ⟨_, _, rfl⟩)
          · exact Or.inl ⟨_, rfl, rfl⟩
      | error e =>
          cases he : e.isException with
          | false =>
              simp only [intentTrace, hc, he, Bool.false_eq_true, if_false,
                List.mem_singleton] at h
              exact Or.inr (Or.inl ⟨_, _, h⟩)
          | true =>
              simp only [intentTrace, hc, he, if_true, List.mem_cons, List.mem_append] at h
              rcases h with rfl | h | h
              · exact Or.inr (Or.inl ⟨_, _, rfl⟩)
              · split at h
                · exact Or.inr (Or.inr (List.mem_singleton.mp h))
                · exact (List.not_mem_nil h).elim
              · exact ih h

end Intent

/-- The intent loop returns the update of some answer. -/
theorem intentTrace_update {repr : PyStr → PyStr} {plugin : IntentPlugin}
    {defaultRoute : PyStr} {labels : List PyStr} {maxAttempts backoffMs : Nat}
    {state : GraphState} {left attempt : Nat} {u : Update}
    (h : (intentTrace repr plugin defaultRoute labels maxAttempts backoffMs state left attempt).2
      = .ok u) : ∃ answer, u = intentUpdate answer := by
  induction left generalizing attempt with
  | zero =>
      cases h
      exact ⟨_, rfl⟩
  | succ left ih =>
      cases hc : plugin.classify attempt state with
      | ok result =>
          simp only [intentTrace, hc, Except.ok.injEq] at h
          exact ⟨_, h.symm⟩
      | error e =>
          cases he : e.isException with
          | true =>
              simp only [intentTrace, hc, he, if_true] at h
              exact ih h
          | false => simp [intentTrace, hc, he] at h

theorem makeIntentNode_live (repr : PyStr → PyStr) (plugin : IntentPlugin)
    (defaultRoute : PyStr) (labels : List PyStr) (retry : Option RetryPolicy)
    (state : GraphState) :
    makeIntentNode (NodeEnv.live σ) repr plugin defaultRoute labels retry state =
      Eff.play
        (.emit thinkingIntent :: (intentTrace repr plugin defaultRoute labels (maxAttempts retry)
          (backoffMs retry) state (maxAttempts retry) 1).1)
        (intentTrace repr plugin defaultRoute labels (maxAttempts retry)
          (backoffMs retry) state (maxAttempts retry) 1).2 := by
  unfold makeIntentNode
  rw [intentAttempts_live]
  rfl

end MasterAgent
