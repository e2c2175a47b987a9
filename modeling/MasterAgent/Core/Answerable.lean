/-
  MasterAgent.Core.Answerable

  When does a graph run come to persist_node with a text to store?  Between
  load_session and persist_node no node touches the repositories, so what
  happens there is a list of acts and a result, fixed by what the plugins and
  the downstream answer.  `Answerable` is the condition on these answers, and
  `Planned` the statement that a part of the run delivers an answer exactly
  under a condition.
-/

import MasterAgent.Core.StoredStream
import MasterAgent.Core.Uncancelled

namespace MasterAgent

open Effect StateGraph

variable {σ α : Type}

-- ============================================================================
-- The condition
-- ============================================================================

/-- The data of the error event an attempt shows: the first one, unless it is
    retryable and attempts remain, or the attempt raises before it. -/
def shownErrorFrom (canRetry : Bool) : List ChatEvent → Option Json
  | [] => none
  | ev :: events => match ev.type with
      | .delta => match ev.data.getItem (py "content") with
          | .ok _ => shownErrorFrom canRetry events
          | .error _ => none
      | .error => match ev.data.getD (py "retryable") (.bool false) with
          | .ok retryable => if retryable.truthy && canRetry then none else some ev.data
          | .error _ => none
      | _ => shownErrorFrom canRetry events

/-- Every attempt a node makes delivers deltas with texts, and an error it shows
    has a code that can be looked up. -/
def AdapterAnswers (adapter : DownstreamAdapter) (maxAttempts : Nat) (s : GraphState) : Prop :=
  ∀ k ∈ madeFrom (fun k => (adapter.script s true k).fails) maxAttempts 1,
    (∀ data ∈ (adapter.script s true k).deltas,
      ∃ text, data.getItem (py "content") = .ok (.str text)) ∧
    ∀ fields code, shownErrorFrom (decide (k < maxAttempts)) (adapter.script s true k).events
      = some (.obj fields) → Json.field (py "code") fields = some code → code.hashable = true

/-- The answer of the intent node: that of the first attempt that returns. -/
def intentDecision (repr : PyStr → PyStr) (topic : CompiledTopic) (s : GraphState) :
    (left attempt : Nat) → PyStr × PyFloat × PyStr
  | 0, _ => (topic.defaultRoute, 0, py "intent_retry_exhausted")
  | left + 1, attempt => match topic.intent.classify attempt s with
      | .ok result => intentAnswer repr topic.defaultRoute topic.mapping.keys result
      | .error _ => intentDecision repr topic s left (attempt + 1)

/-- The state the intent node leaves. -/
def GraphState.routed (s : GraphState) (repr : PyStr → PyStr) (topic : CompiledTopic) :
    GraphState :=
  s.merge (intentUpdate (intentDecision repr topic s (maxAttempts topic.intentRetry) 1))

/-- From the intent node on: the mapping knows the route, and the adapter it
    leads to answers. -/
def IntentAnswers (repr : PyStr → PyStr) (topic : CompiledTopic) (s : GraphState) : Prop :=
  ∃ routed, routeTarget topic (s.routed repr topic) = .ok routed ∧
    AdapterAnswers routed.adapter (maxAttempts (topic.adapterRetries.get? routed.node))
      (s.routed repr topic)

/-- From the enrich node on: the plugin returns. -/
def EnrichAnswers (repr : PyStr → PyStr) (topic : CompiledTopic) (s : GraphState) : Prop :=
  ∃ r, topic.enrich.enrich s = .ok r ∧ IntentAnswers repr topic (s.merge (enrichUpdate r))

/-- The authorisation returns, and if it passes, the question is enriched, routed
    and answered. -/
def Answerable (repr : PyStr → PyStr) (topic : CompiledTopic) (s : GraphState) : Prop :=
  ∃ r, topic.auth.authorize s = .ok r ∧
    (r.passed = true → EnrichAnswers repr topic (s.merge (authUpdate r)))

-- ============================================================================
-- What the relay lets through
-- ============================================================================

/-- The relay does not raise at the act. -/
def Relays (errorMessages : Dict PyStr PyStr) (a : Act) : Prop :=
  ∃ out, relay errorMessages a = .ok out

section Relay

variable {errorMessages : Dict PyStr PyStr}

theorem relays_of_not_error {a : Act} (h : ∀ ev, a = .emit ev → ev.type ≠ .error) :
    Relays errorMessages a := by
  cases hr : relay errorMessages a with
  | ok out => exact ⟨out, hr⟩
  | error e =>
      obtain ⟨ev, rfl, htype⟩ := relay_error hr
      exact absurd htype (h ev rfl)

theorem relays_error_iff {ev : ChatEvent} (htype : ev.type = .error) :
    Relays errorMessages (.emit ev) ↔ ∃ data, relayError errorMessages ev.data = .ok data := by
  constructor
  · rintro ⟨out, hout⟩
    obtain ⟨data, hdata, -⟩ := (relay_errorEvent htype).mp hout
    exact ⟨data, hdata⟩
  · rintro ⟨data, hdata⟩
    exact ⟨_, (relay_errorEvent htype).mpr ⟨data, hdata, rfl⟩⟩

/-- An error object is relayed exactly when its code, if it has one, can be
    looked up. -/
theorem relayError_iff {fields : List (PyStr × Json)} :
    (∃ data, relayError errorMessages (.obj fields) = .ok data) ↔
      ∀ code, Json.field (py "code") fields = some code → code.hashable = true := by
  have horElse : (Json.obj fields).orElse (.obj []) = .obj fields := by
    cases fields <;> rfl
  have hcode : ∀ code, ((Json.obj fields).getD (py "code") (.str (py "INTERNAL")) = .ok code) →
      ((∃ data, relayError errorMessages (.obj fields) = .ok data) ↔ code.hashable = true) := by
    intro code hcode
    simp only [relayError, horElse, hcode, bind, Except.bind]
    cases hhash : code.hashable with
    | false => simp
    | true =>
        simp only [Bool.not_true, Bool.false_eq_true, if_false, iff_true]
        cases code with
        | str code =>
            simp only
            split
            · exact ⟨_, rfl⟩
            · exact ⟨_, rfl⟩
        | _ => exact ⟨_, rfl⟩
  cases hfield : Json.field (py "code") fields with
  | none =>
      rw [hcode (.str (py "INTERNAL")) (by simp [Json.getD, Json.get, hfield])]
      simp [Json.hashable]
  | some code =>
      rw [hcode code (by simp [Json.getD, Json.get, hfield])]
      simp

end Relay

-- ============================================================================
-- The adapter node
-- ============================================================================

/-- A shown error is an object. -/
theorem shownErrorFrom_obj {canRetry : Bool} {events : List ChatEvent} {data : Json}
    (h : shownErrorFrom canRetry events = some data) : ∃ fields, data = .obj fields := by
  induction events with
  | nil => cases h
  | cons ev events ih =>
      cases htype : ev.type with
      | delta =>
          simp only [shownErrorFrom, htype] at h
          split at h
          · exact ih h
          · cases h
      | error =>
          simp only [shownErrorFrom, htype] at h
          split at h
          · next retryable hr =>
            split at h
            · cases h
            · cases h
              cases hdata : ev.data with
              | obj fields => exact ⟨fields, rfl⟩
              | _ => simp [hdata, Json.getD, Json.get] at hr
          · cases h
      | _ =>
          simp only [shownErrorFrom, htype] at h
          exact ih h

/-- The relay lets an attempt through exactly when it lets the error through that
    the attempt shows. -/
theorem attemptTrace_relays_iff {errorMessages : Dict PyStr PyStr} {canRetry : Bool}
    {ending : Except Exn Unit} {events : List ChatEvent} :
    (∀ ev ∈ (attemptTrace true canRetry ending events).events, Relays errorMessages (.emit ev)) ↔
      ∀ fields code, shownErrorFrom canRetry events = some (.obj fields) →
        Json.field (py "code") fields = some code → code.hashable = true := by
  induction events with
  | nil => cases ending <;> simp [attemptTrace, shownErrorFrom]
  | cons ev events ih =>
      have hpass : ∀ (type : EventType) (data : Json), type ≠ .error →
          Relays errorMessages (.emit { type := type, data := data }) := by
        intro type data htype
        refine relays_of_not_error fun ev' hev => ?_
        cases hev
        exact htype
      cases htype : ev.type with
      | delta =>
          cases hc : ev.data.getItem (py "content") with
          | error e => simp [attemptTrace, shownErrorFrom, htype, hc]
          | ok content =>
              simp only [attemptTrace, shownErrorFrom, htype, hc, AttemptTrace.prepend, passOn,
                if_true, List.singleton_append, List.forall_mem_cons, ih]
              exact and_iff_right (hpass _ _ (by decide))
      | tool =>
          simp only [attemptTrace, shownErrorFrom, htype, AttemptTrace.prepend, passOn, if_true,
            List.singleton_append, List.forall_mem_cons, ih]
          exact and_iff_right (hpass _ _ (by decide))
      | error =>
          cases hr : ev.data.getD (py "retryable") (.bool false) with
          | error e => simp [attemptTrace, shownErrorFrom, htype, hr]
          | ok retryable =>
              cases hretry : retryable.truthy && canRetry with
              | true => simp [attemptTrace, shownErrorFrom, htype, hr, hretry]
              | false =>
                  have hshown : shownErrorFrom canRetry (ev :: events) = some ev.data := by
                    simp [shownErrorFrom, htype, hr, hretry]
                  obtain ⟨fields, hfields⟩ := shownErrorFrom_obj hshown
                  simp only [attemptTrace, htype, hr, hretry, Bool.false_eq_true, if_false,
                    List.forall_mem_singleton, hshown, Option.some.injEq]
                  rw [relays_error_iff rfl, hfields, relayError_iff]
                  constructor
                  · rintro h fields' code ⟨⟩
                    exact h code
                  · exact fun h code => h fields code rfl
      | _ => simpa [attemptTrace, shownErrorFrom, htype] using ih

theorem relays_retriesExhausted (errorMessages : Dict PyStr PyStr) (maxAttempts : Nat) :
    Relays errorMessages (.emit (retriesExhausted maxAttempts)) := by
  refine (relays_error_iff rfl).mpr (relayError_iff.mpr fun code hcode => ?_)
  simp only [Json.field, if_true, Option.some.injEq] at hcode
  subst hcode
  rfl

section Loop

variable {errorMessages : Dict PyStr PyStr} {adapter : DownstreamAdapter}
  {maxAttempts backoffMs : Nat} {s : GraphState}

theorem attemptActs_relays_iff {attempt : Nat} :
    (∀ a ∈ adapter.attemptActs true maxAttempts s attempt, Relays errorMessages a) ↔
      ∀ fields code, shownErrorFrom (decide (attempt < maxAttempts))
          (adapter.script s true attempt).events = some (.obj fields) →
        Json.field (py "code") fields = some code → code.hashable = true := by
  rw [DownstreamAdapter.attemptActs, List.forall_mem_cons, List.forall_mem_map,
    DownstreamAdapter.attemptTrace, attemptTrace_relays_iff]
  exact and_iff_right (relays_of_not_error (by simp))

theorem LastAttempt.relays {chunks : List Json} {exit : AttemptExit} {tail : List Act} {u : Update}
    (h : LastAttempt true maxAttempts chunks exit tail u) :
    ∀ a ∈ tail, Relays errorMessages a := by
  cases h with
  | exhausted he =>
      rw [List.forall_mem_singleton]
      exact relays_retriesExhausted errorMessages maxAttempts
  | _ => exact List.forall_mem_nil _

/-- The relay lets a node through exactly when it lets every attempt through that
    the node makes. -/
theorem adapterTrace_relays_iff {left attempt : Nat} (hleft : attempt + left = maxAttempts + 1)
    (chunks : List Json) :
    (∀ a ∈ (adapterTrace adapter true maxAttempts backoffMs s left attempt chunks).1,
        Relays errorMessages a) ↔
      ∀ k ∈ madeFrom (fun k => (adapter.script s true k).fails) left attempt,
        ∀ fields code, shownErrorFrom (decide (k < maxAttempts)) (adapter.script s true k).events
          = some (.obj fields) → Json.field (py "code") fields = some code →
            code.hashable = true := by
  induction left generalizing attempt chunks with
  | zero => simp [adapterTrace, madeFrom]
  | succ left ih =>
      rcases adapterTrace_cases backoffMs left chunks
          (rfl : adapter.attemptTrace true maxAttempts s attempt = _) with
        ⟨hfailed, hlt, heq⟩ | ⟨hlast, tail, u, htail, heq⟩
      · rw [attemptTrace_failed hlt] at hfailed
        rw [heq, madeFrom, if_pos hfailed, List.forall_mem_append, List.forall_mem_cons,
          List.forall_mem_cons, attemptActs_relays_iff, ih (by omega)]
        exact and_congr_right fun _ => and_iff_right (relays_of_not_error (by simp))
      · -- without a retry the list of attempts ends here
        rw [heq, List.forall_mem_append, attemptActs_relays_iff, madeFrom_last hleft hlast,
          List.forall_mem_singleton]
        exact and_iff_left htail.relays

end Loop

-- ============================================================================
-- Parts of a graph run
-- ============================================================================

/-- What a part of a run comes to: everything it dispatches is relayed, and the
    chunks it ends with can be joined. -/
structure Delivers (errorMessages : Dict PyStr PyStr) (ts : List Act)
    (r : Except Exn GraphState) : Prop where
  relays : ∀ a ∈ ts, Relays errorMessages a
  joins : ∃ s' content, r = .ok s' ∧ Json.join s'.answerChunks = .ok content

/-- From state `s` the program plays acts that call no repository and goes on to
    persist_node; it delivers exactly if `answers`. -/
def Planned (env : Env σ) (errorMessages : Dict PyStr PyStr) (s : GraphState)
    (p : Prog σ GraphState) (answers : Prop) : Prop :=
  ∃ ts r, p = (Eff.play ts r >>= persistStage env) ∧ (∀ a ∈ ts, a.offline = true) ∧
    (∀ s', r = .ok s' → s'.threadId = s.threadId ∧
      s'.assistantMessageId = s.assistantMessageId) ∧
    (answers ↔ Delivers errorMessages ts r)

section Planned

variable {env : Env σ} {errorMessages : Dict PyStr PyStr} {s : GraphState} {n : PyStr}
  {f : NodeFn σ} {β : Type} {next : GraphState → Except Exn β} {us : List Act} {u : Update}
  {b : β} {k : GraphState × β → Prog σ GraphState} {answers C : Prop}

theorem planned_persist :
    Planned env errorMessages s (persistStage env s)
      (∃ content, Json.join s.answerChunks = .ok content) := by
  refine ⟨[], .ok s, ?_, fun _ h => (List.not_mem_nil h).elim, ?_, ?_⟩
  · funext w
    simp [Eff.play_ok_bind, Run.after]
  · rintro s' ⟨⟩
    exact ⟨rfl, rfl⟩
  · constructor
    · rintro ⟨content, hjoin⟩
      exact ⟨fun _ h => (List.not_mem_nil h).elim, s, content, rfl, hjoin⟩
    · rintro ⟨-, s', content, hs, hjoin⟩
      cases hs
      exact ⟨content, hjoin⟩

/-- A node that returns, and the run from there on. -/
theorem planned_visit (next : GraphState → Except Exn β) (k : GraphState × β → Prog σ GraphState)
    (hf : f s = Eff.play us (.ok u)) (hnext : next (s.merge u) = .ok b)
    (hoffline : ∀ a ∈ us, a.offline = true)
    (hrelays : (∀ a ∈ us, Relays errorMessages a) ↔ C)
    (hk : Planned env errorMessages (s.merge u) (k (s.merge u, b)) answers) :
    Planned env errorMessages s (visit langGraph n f s next >>= k) (C ∧ answers) := by
  obtain ⟨ts, r, hplay, hts, hkeep, hanswers⟩ := hk
  refine ⟨langGraph.enter n :: (us ++ [langGraph.write n u]) ++ ts, r, ?_, ?_, hkeep, ?_⟩
  · rw [visit_play hf hnext]
    funext w
    rw [Eff.play_ok_bind]
    show (k (s.merge u, b) w).after _ = _
    rw [hplay]
    cases r with
    | error e => simp [Eff.play_error_bind, Eff.play, Run.after]
    | ok s' => simp [Eff.play_ok_bind, Run.after]
  · intro a ha
    simp only [List.cons_append, List.mem_cons, List.mem_append, List.not_mem_nil, or_false] at ha
    rcases ha with rfl | (ha | rfl) | ha
    · rfl
    · exact hoffline a ha
    · rfl
    · exact hts a ha
  · have hown : (∀ a ∈ langGraph.enter n :: (us ++ [langGraph.write n u]),
        Relays errorMessages a) ↔ C := by
      rw [List.forall_mem_cons, List.forall_mem_append, List.forall_mem_singleton, hrelays]
      have henter : Relays errorMessages (langGraph.enter n) :=
        relays_of_not_error (by simp [langGraph])
      have hwrite : Relays errorMessages (langGraph.write n u) :=
        relays_of_not_error (by simp [langGraph])
      exact ⟨fun h => h.2.1, fun h => ⟨henter, h, hwrite⟩⟩
    rw [hanswers]
    constructor
    · rintro ⟨hC, hdelivers⟩
      exact ⟨List.forall_mem_append.mpr ⟨hown.mpr hC, hdelivers.relays⟩, hdelivers.joins⟩
    · intro h
      have hsplit := List.forall_mem_append.mp h.relays
      exact ⟨hown.mp hsplit.1, hsplit.2, h.joins⟩

/-- A node with one way on. -/
theorem planned_step (next : GraphState → Prog σ GraphState) (hf : f s = Eff.play us (.ok u))
    (hoffline : ∀ a ∈ us, a.offline = true)
    (hrelays : (∀ a ∈ us, Relays errorMessages a) ↔ C)
    (hnext : Planned env errorMessages (s.merge u) (next (s.merge u)) answers) :
    Planned env errorMessages s
      ((visit langGraph n f s fun _ => (.ok () : Except Exn Unit)) >>= fun p => next p.1)
      (C ∧ answers) :=
  planned_visit _ (fun p => next p.1) hf rfl hoffline hrelays hnext

/-- A visit that raises ends the run. -/
theorem planned_raise {ts : List Act} {e : Exn}
    (hvisit : (visit langGraph n f s next : Prog σ (GraphState × β)) = Eff.play ts (.error e))
    (hoffline : ∀ a ∈ ts, a.offline = true) :
    Planned env errorMessages s (visit langGraph n f s next >>= k) False := by
  refine ⟨ts, .error e, ?_, hoffline, ?_, ?_⟩
  · rw [hvisit, Eff.play_error_bind, Eff.play_error_bind]
  · intro s' hs
    cases hs
  · refine ⟨False.elim, ?_⟩
    rintro ⟨-, s', content, hs, -⟩
    cases hs

theorem Planned.congr {p : Prog σ GraphState} {answers' : Prop}
    (h : Planned env errorMessages s p answers) (hiff : answers' ↔ answers) :
    Planned env errorMessages s p answers' := by
  rwa [hiff]

end Planned

-- ============================================================================
-- Stage by stage
-- ============================================================================

/-- The acts a node plays are of the kind its acts are. -/
theorem acts_of_play {P : Act → Prop} {ts : List Act} {r : Except Exn α} (w : σ)
    (h : (Eff.play ts r : Prog σ α).ActsOnly P) : ∀ a ∈ ts, P a := by
  intro a ha
  refine h w a ?_
  rwa [Eff.play_trace]

theorem AuthAct.relays {plugin : AuthPlugin} {s : GraphState} {a : Act} (h : AuthAct plugin s a)
    (errorMessages : Dict PyStr PyStr) : Relays errorMessages a := by
  refine relays_of_not_error fun ev hev htype => ?_
  subst hev
  rcases h with h | h <;> rw [h] at htype <;> cases htype

theorem EnrichAct.relays {a : Act} (h : EnrichAct a) (errorMessages : Dict PyStr PyStr) :
    Relays errorMessages a := by
  refine relays_of_not_error fun ev hev htype => ?_
  subst hev
  rcases h with h | h <;> rw [h] at htype <;> cases htype

theorem IntentAct.relays {a : Act} (h : IntentAct a) (errorMessages : Dict PyStr PyStr) :
    Relays errorMessages a := by
  refine relays_of_not_error fun ev hev htype => ?_
  subst hev
  rcases h with h | h <;> rw [h] at htype <;> cases htype

/-- An intent loop that is not cancelled comes to its decision. -/
theorem intentTrace_decision {repr : PyStr → PyStr} {topic : CompiledTopic}
    (huncancelled : topic.Uncancelled) (maxAttempts backoffMs : Nat) (s : GraphState)
    (left attempt : Nat) :
    (intentTrace repr topic.intent topic.defaultRoute topic.mapping.keys maxAttempts backoffMs s
      left attempt).2 = .ok (intentUpdate (intentDecision repr topic s left attempt)) := by
  induction left generalizing attempt with
  | zero => rfl
  | succ left ih =>
      cases hc : topic.intent.classify attempt s with
      | ok result => simp only [intentTrace, intentDecision, hc]
      | error e =>
          have he := isException_of_notCancelled (huncancelled.classify attempt s) hc
          simp only [intentTrace, intentDecision, hc, he, if_true, ih]

/-- The chunks of an adapter node can be joined exactly when its attempts deliver
    texts. -/
theorem adapterTrace_joins_iff {adapter : DownstreamAdapter} {maxAttempts backoffMs : Nat}
    {s : GraphState} :
    (∃ content, Json.join (adapterTrace adapter true maxAttempts backoffMs s maxAttempts 1
        []).2.answerChunks = .ok content) ↔
      ∀ k ∈ madeFrom (fun k => (adapter.script s true k).fails) maxAttempts 1,
        ∀ data ∈ (adapter.script s true k).deltas,
          ∃ text, data.getItem (py "content") = .ok (.str text) := by
  obtain ⟨-, hdeltas⟩ := @adapterTrace_made adapter true maxAttempts backoffMs s maxAttempts 1
    (Nat.add_comm _ _) []
  rw [adapterTrace_answerChunks, hdeltas, List.nil_append, Json.join_isOk]
  simp only [shown, if_true]
  constructor
  · intro h k hk data hdata
    obtain ⟨c, hc⟩ := deltasFrom_content hdata
    have hmem : c ∈ ((madeFrom (fun k => (adapter.script s true k).fails) maxAttempts 1).flatMap
        fun k => (adapter.script s true k).deltas).filterMap deltaContent :=
      List.mem_filterMap.mpr ⟨data, List.mem_flatMap.mpr ⟨k, hk, hdata⟩,
        deltaContent_of_getItem hc⟩
    obtain ⟨text, rfl⟩ := h c hmem
    exact ⟨text, hc⟩
  · intro h c hc
    obtain ⟨data, hdata, hcontent⟩ := List.mem_filterMap.mp hc
    obtain ⟨k, hk, hdata⟩ := List.mem_flatMap.mp hdata
    obtain ⟨text, htext⟩ := h k hk data hdata
    rw [deltaContent_of_getItem htext, Option.some.injEq] at hcontent
    exact ⟨text, hcontent.symm⟩

section Stages

variable {env : Env σ} {topic : CompiledTopic} {s : GraphState}

theorem rejectStage_planned (hchunks : s.answerChunks = []) :
    Planned env topic.errorMessages s (rejectStage env topic s) True := by
  have hrelays : (∀ a ∈ [Act.emit (rejectDelta (rejectText topic.errorMessages s.auth))],
      Relays topic.errorMessages a) ↔ True := by
    refine iff_true_intro ?_
    rw [List.forall_mem_singleton]
    refine relays_of_not_error fun ev hev => ?_
    cases hev
    exact nofun
  have hoffline : ∀ a ∈ [Act.emit (rejectDelta (rejectText topic.errorMessages s.auth))],
      a.offline = true := by simp [Act.offline]
  refine (planned_step (persistStage env) (makeRejectNode_live topic.errorMessages s) hoffline
    hrelays planned_persist).congr (iff_of_true trivial ⟨trivial, ?_⟩)
  rw [GraphState.merge_answerChunks, hchunks]
  exact ⟨_, rfl⟩

theorem adapterStage_planned (routed : RoutedAdapter topic) (hchunks : s.answerChunks = []) :
    Planned env topic.errorMessages s (adapterStage env topic routed s)
      (AdapterAnswers routed.adapter (maxAttempts (topic.adapterRetries.get? routed.node)) s) := by
  have hoffline : ∀ a ∈ (topic.adapterTrace routed.node routed.adapter s).1,
      a.offline = true := by
    intro a ha
    rcases mem_adapterTrace ha with ⟨ev, rfl⟩ | ⟨k, rfl⟩ | rfl <;> rfl
  refine (planned_step (persistStage env)
    (topicAdapterNode_live topic s routed.node routed.adapter) hoffline
    (adapterTrace_relays_iff (Nat.add_comm _ _) []) planned_persist).congr ?_
  rw [GraphState.merge_answerChunks, hchunks, List.nil_append, CompiledTopic.adapterTrace,
    adapterTrace_joins_iff, AdapterAnswers]
  exact ⟨fun h => ⟨fun k hk => (h k hk).2, fun k hk => (h k hk).1⟩,
    fun h k hk => ⟨h.2 k hk, h.1 k hk⟩⟩

variable (huncancelled : topic.Uncancelled) (w : σ)
include huncancelled w

theorem intentStage_planned (hchunks : s.answerChunks = []) :
    Planned env topic.errorMessages s (intentStage env topic s)
      (IntentAnswers env.repr topic s) := by
  have hlive : topicIntentNode env topic topic.mapping s = Eff.play _ (.ok (intentUpdate
      (intentDecision env.repr topic s (maxAttempts topic.intentRetry) 1))) :=
    (makeIntentNode_live env.repr topic.intent topic.defaultRoute topic.mapping.keys
      topic.intentRetry s).trans (by rw [intentTrace_decision huncancelled])
  have hacts := intentNode_acts env topic s topic.mapping
  rw [hlive] at hacts
  have hoffline := fun a ha => (acts_of_play w hacts a ha).offline
  have hrelays := iff_true_intro fun a ha => (acts_of_play w hacts a ha).relays
    topic.errorMessages
  cases hroute : routeTarget topic (s.routed env.repr topic) with
  | error e =>
      refine (planned_raise (visit_play_lost hlive hroute) ?_).congr ?_
      · exact List.forall_mem_cons.mpr ⟨rfl, hoffline⟩
      · rw [iff_false]
        rintro ⟨routed, hok, -⟩
        rw [hroute] at hok
        cases hok
  | ok routed =>
      refine (planned_visit (routeTarget topic) (fun p => adapterStage env topic p.2 p.1) hlive
        hroute hoffline hrelays (adapterStage_planned routed ?_)).congr ?_
      · rw [GraphState.merge_answerChunks, hchunks]
        rfl
      · constructor
        · rintro ⟨routed', hok, hanswers⟩
          rw [hroute, Except.ok.injEq] at hok
          subst hok
          exact ⟨trivial, hanswers⟩
        · exact fun h => ⟨routed, hroute, h.2⟩

theorem answerStage_planned (hchunks : s.answerChunks = []) :
    Planned env topic.errorMessages s (answerStage env topic s)
      (EnrichAnswers env.repr topic s) := by
  have hlive := @makeEnrichNode_live σ topic.enrich s
  have hacts := @enrichNode_acts σ topic s
  cases hr : topic.enrich.enrich s with
  | error e =>
      rw [hr] at hlive
      rw [hlive] at hacts
      refine (planned_raise (visit_play_raise hlive) ?_).congr ?_
      · exact List.forall_mem_cons.mpr ⟨rfl, fun a ha => (acts_of_play w hacts a ha).offline⟩
      · rw [iff_false]
        rintro ⟨r, hok, -⟩
        rw [hr] at hok
        cases hok
  | ok r =>
      rw [hr] at hlive
      rw [hlive] at hacts
      refine (planned_step (intentStage env topic) hlive
        (fun a ha => (acts_of_play w hacts a ha).offline)
        (iff_true_intro fun a ha => (acts_of_play w hacts a ha).relays topic.errorMessages)
        (intentStage_planned huncancelled w ?_)).congr ?_
      · rw [GraphState.merge_answerChunks, hchunks]
        rfl
      · constructor
        · rintro ⟨r', hok, hanswers⟩
          rw [hr, Except.ok.injEq] at hok
          subst hok
          exact ⟨trivial, hanswers⟩
        · exact fun h => ⟨r, hr, h.2⟩

/-- From auth_node on the graph delivers exactly if the topic answers. -/
theorem authStage_planned (hchunks : s.answerChunks = []) :
    Planned env topic.errorMessages s (authStage env topic s)
      (Answerable env.repr topic s) := by
  have hlive := @makeAuthNode_live σ topic.auth s
  have hacts := @authNode_acts σ topic s
  cases hr : topic.auth.authorize s with
  | error e =>
      rw [hr] at hlive
      rw [hlive] at hacts
      refine (planned_raise (visit_play_raise hlive) ?_).congr ?_
      · exact List.forall_mem_cons.mpr ⟨rfl, fun a ha => (acts_of_play w hacts a ha).offline⟩
      · rw [iff_false]
        rintro ⟨r, hok, -⟩
        rw [hr] at hok
        cases hok
  | ok r =>
      rw [hr] at hlive
      rw [hlive] at hacts
      have hpassed : authPassed (s.merge (authUpdate r)) = .ok r.passed := by
        cases hp : r.passed <;> simp [authPassed, authUpdate, hp]
      have hempty : (s.merge (authUpdate r)).answerChunks = [] := by
        rw [GraphState.merge_answerChunks, hchunks]
        unfold authUpdate
        split <;> rfl
      have hiff : Answerable env.repr topic s ↔
          (r.passed = true → EnrichAnswers env.repr topic (s.merge (authUpdate r))) := by
        constructor
        · rintro ⟨r', hok, hanswers⟩
          rw [hr, Except.ok.injEq] at hok
          subst hok
          exact hanswers
        · exact fun h => ⟨r, hr, h⟩
      have hnext : Planned env topic.errorMessages (s.merge (authUpdate r))
          (if r.passed then answerStage env topic (s.merge (authUpdate r))
            else rejectStage env topic (s.merge (authUpdate r)))
          (r.passed = true → EnrichAnswers env.repr topic (s.merge (authUpdate r))) := by
        cases hp : r.passed with
        | true =>
            rw [if_pos rfl]
            exact (answerStage_planned huncancelled w hempty).congr (by simp)
        | false =>
            rw [if_neg (by simp)]
            exact (rejectStage_planned hempty).congr (by simp)
      refine (planned_visit authPassed
        (fun p => if p.2 then answerStage env topic p.1 else rejectStage env topic p.1) hlive
        hpassed (fun a ha => (acts_of_play w hacts a ha).offline)
        (iff_true_intro fun a ha => (acts_of_play w hacts a ha).relays topic.errorMessages)
        hnext).congr ?_
      rw [hiff, true_and]

end Stages

end MasterAgent
