/-
  MasterAgent.Core.Uncancelled

  Runs without cancellation.  When no repository call and no plugin call raises
  `CancelledError`, the graph of a topic raises nothing but subclasses of
  `Exception`; an adapter that raises `CancelledError` itself is caught by its
  node.
-/

import MasterAgent.Core.Graph.NodeTrace
import MasterAgent.Core.Pipeline

namespace MasterAgent

open Effect StateGraph

variable {σ α : Type}

/-- The answer is no cancellation. -/
def NotCancelled (r : Except Exn α) : Prop := r ≠ .error .cancelled

theorem notCancelled_ok (a : α) : NotCancelled (.ok a) := nofun

/-- No repository call is cancelled. -/
structure Repos.Uncancelled (repos : Repos σ) : Prop where
  acquire : ∀ w, NotCancelled (repos.acquire w).1
  release : ∀ w, NotCancelled (repos.release w).1
  getOrCreate : ∀ t b a w, NotCancelled (repos.getOrCreate t b a w).1
  append : ∀ msg w, NotCancelled (repos.append msg w).1
  listRecent : ∀ t n w, NotCancelled (repos.listRecent t n w).1
  touch : ∀ t w, NotCancelled (repos.touch t w).1

/-- No plugin call of a topic is cancelled. -/
structure CompiledTopic.Uncancelled (topic : CompiledTopic) : Prop where
  authorize : ∀ s, NotCancelled (topic.auth.authorize s)
  enrich : ∀ s, NotCancelled (topic.enrich.enrich s)
  classify : ∀ k s, NotCancelled (topic.intent.classify k s)

/-- Raises nothing but subclasses of `Exception`. -/
abbrev RaisesExceptions (p : Prog σ α) : Prop := p.RaisesOnly fun e => e.isException = true

theorem isException_of_notCancelled {r : Except Exn α} (h : NotCancelled r) {e : Exn}
    (he : r = .error e) : e.isException = true := by
  rw [Exn.isException_eq_true]
  rintro rfl
  exact h he

theorem join_isException {items : List Json} {e : Exn} (h : Json.join items = .error e) :
    e.isException = true := by
  induction items with
  | nil => cases h
  | cons v rest ih =>
      cases v with
      | str s =>
          rw [Json.join_cons_str] at h
          cases hr : Json.join rest with
          | ok t => simp [hr, Except.map] at h
          | error e' =>
              simp only [hr, Except.map, Except.error.injEq] at h
              exact ih (h ▸ hr)
      | _ =>
          simp only [Json.join, Except.error.injEq] at h
          exact h ▸ rfl

-- ============================================================================
-- Repository nodes
-- ============================================================================

section Repositories

variable {repos : Repos σ} (hrepos : repos.Uncancelled)
include hrepos

theorem withConn_raisesExceptions {body : Prog σ α} (h : RaisesExceptions body) :
    RaisesExceptions (repos.withConn body) := by
  refine .bind (.call fun w e => isException_of_notCancelled (hrepos.acquire w)) fun _ => ?_
  intro w e he
  -- the body's own exception leaves after the release
  rw [Eff.bind_of_ok (show (Eff.attempt body w).result = .ok (body w).result from rfl)] at he
  refine Eff.RaisesOnly.bind (.call fun w e => isException_of_notCancelled (hrepos.release w))
    (fun _ => .ofExcept fun e' he' => h w e' he') _ e he

theorem makeLoadSessionNode_raisesExceptions (maxTurns : Nat) (s : GraphState) :
    RaisesExceptions (makeLoadSessionNode repos maxTurns s) := by
  refine .bind (.ofExcept ?_) fun identity => .bind (.call ?_) fun _ => .bind (.call ?_)
    fun msgs => .ret _
  · intro e he
    cases hid : s.identity with
    | none =>
        rw [hid] at he
        cases he
        rfl
    | some identity =>
        rw [hid] at he
        cases he
  · exact fun w e => isException_of_notCancelled (hrepos.getOrCreate _ _ _ w)
  · exact fun w e => isException_of_notCancelled (hrepos.listRecent _ _ w)

theorem makePersistNode_raisesExceptions (s : GraphState) :
    RaisesExceptions (makePersistNode repos s) := by
  refine .bind (.ofExcept fun e he => join_isException he) fun content =>
    .bind (.call ?_) fun _ => .bind (.call ?_) fun _ => .ret _
  · exact fun w e => isException_of_notCancelled (hrepos.append _ w)
  · exact fun w e => isException_of_notCancelled (hrepos.touch _ w)

end Repositories

-- ============================================================================
-- The graph
-- ============================================================================

theorem intentTrace_isException {repr : PyStr → PyStr} {plugin : IntentPlugin}
    {defaultRoute : PyStr} {labels : List PyStr} {maxAttempts backoffMs : Nat}
    {state : GraphState} (h : ∀ k s, NotCancelled (plugin.classify k s)) {e : Exn} :
    ∀ {left attempt : Nat},
      (intentTrace repr plugin defaultRoute labels maxAttempts backoffMs state left attempt).2
        = .error e → e.isException = true := by
  intro left
  induction left with
  | zero =>
      intro attempt he
      cases he
  | succ left ih =>
      intro attempt he
      cases hc : plugin.classify attempt state with
      | ok result => simp [intentTrace, hc] at he
      | error e' =>
          have he' := isException_of_notCancelled (h attempt state) hc
          simp only [intentTrace, hc, he', if_true] at he
          exact ih he

/-- Raising exceptions only is handed on by nodes. -/
theorem raisesExceptions_stageLogic :
    @StageLogic σ fun _ p => RaisesExceptions p where
  bind := .bind
  ret := .ret
  enter := fun _ => .act _
  write := fun _ _ => .act _
  way := fun h => .ofExcept fun e he => h e he ▸ rfl

/-- The graph of a topic raises nothing but subclasses of `Exception`. -/
theorem pipeline_raisesExceptions {env : Env σ} {topic : CompiledTopic}
    (hrepos : env.repos.Uncancelled) (htopic : topic.Uncancelled) (s : GraphState) :
    RaisesExceptions (pipeline env topic s) := by
  refine raisesExceptions_stageLogic.pipeline (fun s => ?_) (fun s => ?_) (fun s => ?_)
    (fun s => ?_) (fun s => ?_) (fun n adapter s => ?_) (fun s => ?_) s
  · exact withConn_raisesExceptions hrepos (makeLoadSessionNode_raisesExceptions hrepos _ s)
  · rw [makeAuthNode_live]
    cases h : topic.auth.authorize s with
    | ok result => exact .play fun _ h => nomatch h
    | error e =>
        refine .play fun e' he => ?_
        cases he
        exact isException_of_notCancelled (htopic.authorize s) h
  · exact makeRejectNode_live topic.errorMessages s ▸ .play fun _ h => nomatch h
  · rw [makeEnrichNode_live]
    cases h : topic.enrich.enrich s with
    | ok result => exact .play fun _ h => nomatch h
    | error e =>
        refine .play fun e' he => ?_
        cases he
        exact isException_of_notCancelled (htopic.enrich s) h
  · unfold topicIntentNode
    rw [makeIntentNode_live]
    exact .play fun e he => intentTrace_isException htopic.classify he
  · unfold topicAdapterNode
    rw [makeAdapterNode_live]
    exact .play fun _ h => nomatch h
  · exact withConn_raisesExceptions hrepos (makePersistNode_raisesExceptions hrepos s)

end MasterAgent
