/-
  MasterAgent.Core.StreamLag

  The relay behind the graph.  The graph of a request runs in a task of its own and
  its events wait in a queue, so a client is told of them later than they are
  dispatched, and the answer may be on the table before the client has heard all of
  it.  In `handle` every event is relayed at once.  What that run is good for
  otherwise: every content it dispatches is told, in the same order and never
  before it is dispatched, and nothing comes after done.

  So whatever part of the run is seen, with the relay as far behind as it may be,
  the contents told are the first of those dispatched, and all of them once the
  stream is done.
-/

import MasterAgent.Core.Dialogue
import MasterAgent.Lib.Lag

namespace MasterAgent

open Effect StateGraph

variable {σ ι : Type}

-- ============================================================================
-- Contents
-- ============================================================================

theorem contentDispatched_eq (a : Act) :
    contentDispatched a = (emittedDelta a).bind deltaContent := by
  cases a with
  | emit ev =>
      by_cases htype : ev.type = .delta <;>
        simp [contentDispatched, spoken, Speech.dispatched, emittedDelta, htype]
  | yield ev =>
      cases htype : ev.type <;>
        simp [contentDispatched, spoken, Speech.dispatched, emittedDelta, htype]
  | append msg r => cases r <;> rfl
  | listRecent threadId limit r => cases r <;> rfl
  | _ => rfl

theorem contentTold_eq (a : Act) : contentTold a = (yieldedDelta a).bind deltaContent := by
  cases a with
  | emit ev =>
      by_cases htype : ev.type = .delta <;>
        simp [contentTold, spoken, Speech.told, yieldedDelta, htype]
  | yield ev =>
      cases htype : ev.type <;>
        simp [contentTold, spoken, Speech.told, yieldedDelta, htype]
  | append msg r => cases r <;> rfl
  | listRecent threadId limit r => cases r <;> rfl
  | _ => rfl

theorem word_contentTold (acts : List Act) :
    word contentTold acts = (word yieldedDelta acts).filterMap deltaContent := by
  rw [word, word, List.filterMap_filterMap]
  exact List.filterMap_congr fun a _ => contentTold_eq a

/-- Deltas are dispatched by the graph, and told late. -/
theorem contents_delayed : Delays Act.late contentDispatched contentTold where
  cause := by
    intro a hlate
    rw [contentDispatched_eq]
    cases a with
    | yield ev => rfl
    | _ => cases hlate
  effect := by
    intro a hprompt
    rw [contentTold_eq]
    cases a with
    | yield ev =>
        have htype : ev.type = .meta := by simpa [Act.late] using hprompt
        simp [yieldedDelta, htype]
    | _ => rfl

/-- A delta without data has no content, and neither has what is relayed of it. -/
theorem deltaContent_orElse (data : Json) :
    deltaContent (data.orElse (.obj [])) = deltaContent data := by
  cases hc : data.getItem (py "content") with
  | ok c => rw [orElse_of_getItem hc]
  | error e =>
      have hnone : deltaContent (.obj []) = none := rfl
      have hdata : deltaContent data = none := by simp [deltaContent, hc]
      rw [Json.orElse]
      split
      · rfl
      · rw [hnone, hdata]

-- ============================================================================
-- All that is dispatched is told
-- ============================================================================

/-- In a run of `handle`, the contents told are those dispatched. -/
theorem told_eq_dispatched (env : Env σ) (topics : TopicRegistry) (req : ChatRequest) (w : σ) :
    word contentTold (handle env topics req w).trace =
      word contentDispatched (handle env topics req w).trace := by
  cases ht : topics.get req.bizId with
  | none =>
      rw [handle_unknown ht, Eff.play_trace]
      rfl
  | some topic =>
      obtain ⟨w', pre, hpart, -⟩ := @handle_graphPart σ env topics req topic ht w
      generalize (handle env topics req w).trace = ts at hpart ⊢
      have htold : word contentTold ts = word contentDispatched pre := by
        rw [word_contentTold, hpart.deltas, word, word, List.filterMap_filterMap]
        refine List.filterMap_congr fun a _ => ?_
        rw [contentDispatched_eq, shownDelta]
        cases emittedDelta a with
        | none => rfl
        | some data => exact deltaContent_orElse data
      have hsel : GraphSelection req fun a => (contentDispatched a).isSome :=
        { noYield := fun ev => by rw [contentDispatched_eq]; rfl
          noUser := fun a ha => by
            rw [contentDispatched_eq]
            cases a <;> first | rfl | exact ha.elim }
      have hnone : ∀ a, (contentDispatched a).isSome = false → contentDispatched a = none :=
        fun a h => by simpa using h
      rw [htold, ← word_filter hnone pre, ← hpart.acts _ hsel, word_filter hnone]

-- ============================================================================
-- The queue
-- ============================================================================

/-- What waits in the queue between the graph and the relay. -/
inductive Outbox where
  | waiting (contents : List Json)
  /-- The stream of the request is done. -/
  | done

open Classical in
/-- A content is told when it is the first that waits, and nothing happens after
    done. -/
noncomputable def Outbox.step : Outbox → Act → Option Outbox
  | .done, _ => none
  | .waiting contents, a =>
      if a.closes then some .done
      else match contentDispatched a, contentTold a with
        | some content, _ => some (.waiting (contents ++ [content]))
        | none, none => some (.waiting contents)
        | none, some content =>
            if contents.head? = some content then some (.waiting contents.tail) else none

section Outbox

variable {contents : List Json} {a : Act} {ts : List Act}

/-- An act that neither fills the queue nor empties it. -/
theorem Outbox.step_idle (hcloses : a.closes = false) (hdispatched : emittedDelta a = none)
    (htold : yieldedDelta a = none) :
    Outbox.step (.waiting contents) a = some (.waiting contents) := by
  simp [Outbox.step, hcloses, contentDispatched_eq, contentTold_eq, hdispatched, htold]

theorem GraphAct.idle (h : GraphAct a) (hdelta : emittedDelta a = none) :
    Outbox.step (.waiting contents) a = some (.waiting contents) := by
  refine Outbox.step_idle ?_ hdelta ?_
  · cases a <;> first | rfl | exact h.elim
  · cases a <;> first | rfl | exact h.elim

/-- The contents told are the first of those dispatched, and the others wait. -/
def Outbox.Holds (ts : List Act) : Outbox → Prop
  | .waiting contents => word contentDispatched ts = word contentTold ts ++ contents
  | .done => word contentTold ts <+: word contentDispatched ts

theorem Outbox.Holds.told_isPrefix {q : Outbox} (h : q.Holds ts) :
    word contentTold ts <+: word contentDispatched ts := by
  cases q with
  | waiting contents => exact ⟨contents, h.symm⟩
  | done => exact h

/-- No act dispatches and tells, and done is neither. -/
theorem contents_apart : (∀ content, contentDispatched a = some content → contentTold a = none) ∧
    (a.closes = true → contentDispatched a = none ∧ contentTold a = none) := by
  rw [contentDispatched_eq, contentTold_eq]
  cases a with
  | emit ev => exact ⟨fun _ _ => rfl, fun h => (Bool.false_ne_true h).elim⟩
  | yield ev =>
      refine ⟨?_, ?_⟩
      · intro content h
        cases h
      · intro hcloses
        have htype : ev.type = .done := by simpa [Act.closes] using hcloses
        exact ⟨rfl, by simp [yieldedDelta, htype]⟩
  | _ => exact ⟨fun _ _ => rfl, fun _ => ⟨rfl, rfl⟩⟩

/-- What an act does to the queue. -/
theorem Outbox.step_cases {q : Outbox} (h : Outbox.step (.waiting contents) a = some q) :
    (contentDispatched a = none ∧ contentTold a = none ∧ (q = .done ∨ q = .waiting contents)) ∨
      (∃ content, contentDispatched a = some content ∧ contentTold a = none ∧
        q = .waiting (contents ++ [content])) ∨
      ∃ content rest, contentDispatched a = none ∧ contentTold a = some content ∧
        contents = content :: rest ∧ q = .waiting rest := by
  obtain ⟨hapart, hdone⟩ := @contents_apart a
  simp only [Outbox.step] at h
  split at h
  · next hcloses =>
    obtain ⟨hdispatched, htold⟩ := hdone hcloses
    exact Or.inl ⟨hdispatched, htold, Or.inl (Option.some.inj h).symm⟩
  · split at h
    · next content hdispatched =>
      exact Or.inr (Or.inl ⟨content, hdispatched, hapart content hdispatched,
        (Option.some.inj h).symm⟩)
    · next hdispatched htold =>
      exact Or.inl ⟨hdispatched, htold, Or.inr (Option.some.inj h).symm⟩
    · next content hdispatched htold =>
      split at h
      · next hhead =>
        obtain ⟨rest, rfl⟩ := List.head?_eq_some_iff.mp hhead
        exact Or.inr (Or.inr ⟨content, rest, hdispatched, htold, rfl, (Option.some.inj h).symm⟩)
      · cases h

theorem Outbox.Holds.step {q q' : Outbox} (h : q.Holds ts) (hstep : Outbox.step q a = some q') :
    q'.Holds (ts ++ [a]) := by
  have hnext : ∀ f : Act → Option Json, word f (ts ++ [a]) = word f ts ++ (f a).toList := by
    intro f
    rw [word_append, word_cons, word_nil, List.append_nil]
  cases q with
  | done => cases hstep
  | waiting contents =>
      rcases Outbox.step_cases hstep with ⟨hdispatched, htold, rfl | rfl⟩ |
        ⟨content, hdispatched, htold, rfl⟩ | ⟨content, rest, hdispatched, htold, rfl, rfl⟩
      · rw [Outbox.Holds, hnext, hnext, hdispatched, htold, Option.toList_none, List.append_nil,
          List.append_nil]
        exact h.told_isPrefix
      · rw [Outbox.Holds, hnext, hnext, hdispatched, htold, Option.toList_none, List.append_nil,
          List.append_nil]
        exact h
      · rw [Outbox.Holds, hnext, hnext, hdispatched, htold, h, Option.toList_none,
          Option.toList_some, List.append_nil, List.append_assoc]
      · rw [Outbox.Holds, hnext, hnext, hdispatched, htold, h, Option.toList_none,
          Option.toList_some, List.append_nil, List.append_assoc, List.singleton_append]

/-- A delta is told right after it is dispatched. -/
theorem watch_relayed {errorMessages : Dict PyStr PyStr} {out : List Act} (hgraph : GraphAct a)
    (hout : relay errorMessages a = .ok out) :
    watch Outbox.step (.waiting []) (a :: out) = some (.waiting []) := by
  obtain ⟨-, hdeltas⟩ := relay_yields hout
  cases hdelta : emittedDelta a with
  | none =>
      rw [shownDelta, hdelta, Option.map_none, Option.toList_none, word_eq_nil] at hdeltas
      rw [watch_cons (hgraph.idle hdelta)]
      refine watch_quiet fun o ho => ?_
      obtain ⟨ev, data, -, -, hdone, rfl⟩ := relay_mem hout ho
      exact Outbox.step_idle (decide_eq_false hdone) rfl (hdeltas _ ho)
  | some data =>
      cases a with
      | emit ev =>
          have htype : ev.type = .delta := by
            by_contra hother
            simp [emittedDelta, hother] at hdelta
          simp only [relay, htype, Except.ok.injEq] at hout
          subst hout
          have htold := deltaContent_orElse ev.data
          cases hc : deltaContent ev.data with
          | none =>
              rw [hc] at htold
              simp [watch, Outbox.step, Act.closes, contentDispatched_eq, contentTold_eq,
                emittedDelta, yieldedDelta, htype, hc, htold]
          | some content =>
              rw [hc] at htold
              simp [watch, Outbox.step, Act.closes, contentDispatched_eq, contentTold_eq,
                emittedDelta, yieldedDelta, htype, hc, htold]
      | _ => cases hdelta

-- ============================================================================
-- A request
-- ============================================================================

variable {env : Env σ} {topic : CompiledTopic} {topics : TopicRegistry} {req : ChatRequest}
  {messageId : PyStr} {s : GraphState}

/-- The loop leaves nothing in the queue. -/
theorem relayed_waiting : Steady Outbox.step (.waiting []) (relayed env topic s) := by
  intro w
  have hgraph := pipeline_graphAct env topic s w
  rcases Eff.consume_cases (relay topic.errorMessages) env.grace (pipeline env topic s) w with
    ⟨hok, -, -, ht⟩ | ⟨pre, t, post, e, htrace, hpre, hraise, -, ht⟩
  · rw [relayed, ht]
    exact watch_withReaction_answered hok fun a ha _ => watch_relayed (hgraph a ha)
  · -- the relay raised at an error event, and no delta is dispatched after it
    obtain ⟨ev, hev, htype⟩ := relay_error hraise
    have hordered := pipeline_ordered env topic s w
    rw [htrace] at hordered hgraph
    have hafter := no_delta_after_error hev htype hordered
    rw [relayed, ht, watch_append, watch_withReaction_answered hpre
      fun a ha _ => watch_relayed (hgraph a (List.mem_append_left _ ha))]
    refine watch_quiet fun a ha => ?_
    have hmem : a ∈ t :: post := by
      rcases List.mem_cons.mp ha with rfl | ha
      · exact List.mem_cons_self
      · exact List.mem_cons_of_mem _ (List.mem_of_mem_take ha)
    exact (hgraph a (List.mem_append_right _ hmem)).idle (shownDelta_eq_none.mp (hafter a hmem))

theorem persistUserMessage_waiting :
    Steady Outbox.step (.waiting []) (persistUserMessage env req) := by
  refine .quiet ((persistUserMessage_acts env req).mono fun a ha => ?_)
  cases a <;> first | exact ha.elim | exact Outbox.step_idle rfl rfl rfl

/-- An event that is neither a delta nor done. -/
theorem yield_waiting {ev : ChatEvent} (hdelta : ev.type ≠ .delta) (hdone : ev.type ≠ .done) :
    Steady Outbox.step (.waiting []) (Eff.act (.yield ev) : Prog σ Unit) :=
  .act (Outbox.step_idle (decide_eq_false hdone) rfl (if_neg hdelta))

/-- Nothing comes after done. -/
theorem yield_done {ev : ChatEvent} (hdone : ev.type = .done) :
    Watched Outbox.step (.waiting []) (Eff.act (.yield ev) : Prog σ Unit) fun _ _ => True :=
  (Watched.act (if_pos (decide_eq_true hdone))).mono fun _ _ _ => trivial

theorem chatLoop_waiting {graph : ChatGraph σ} (hbuild : buildGraph env topic = .ok graph) :
    Steady Outbox.step (.waiting []) (chatLoop env topic req graph messageId) := by
  unfold chatLoop
  rw [graph_run_eq_pipeline hbuild]
  refine Steady.bind (Steady.attempt relayed_waiting) fun r => ?_
  cases r with
  | ok u => exact .ret u
  | error e =>
      show Steady _ _ (if e.isException then _ else _)
      split
      · exact yield_waiting (by simp) (by simp)
      · exact .raise e

theorem afterUser_queues (r : Except Exn Unit) :
    Watched Outbox.step (.waiting []) (afterUser env topic req messageId r)
      fun _ _ => True := by
  cases r with
  | error e =>
      cases e with
      | sessionBizMismatch detail =>
          have hbound := @yield_waiting σ (threadBound req detail) (by simp) (by simp)
          exact hbound.watched.bind fun _ q hq => hq ▸ yield_done (by simp)
      | _ => exact .raise
  | ok u =>
      cases hbuild : buildGraph env topic with
      | error e =>
          simp only [afterUser, hbuild]
          show Watched _ _ (Eff.raise e) _
          exact .raise
      | ok graph =>
          simp only [afterUser, hbuild]
          show Watched _ _ (chatLoop env topic req graph messageId >>= fun _ => Eff.act _) _
          exact (chatLoop_waiting hbuild).watched.bind fun _ q hq => hq ▸ yield_done (by simp)

/-- In a run of `handle` the contents go through a queue. -/
theorem handle_queues (env : Env σ) (topics : TopicRegistry) (req : ChatRequest) :
    Watched Outbox.step (.waiting []) (handle env topics req) fun _ _ => True := by
  have hfailed : ∀ ev : ChatEvent, ev.type = .error → Watched Outbox.step (.waiting [])
      (Eff.act (.yield ev) >>= fun _ => Eff.act (.yield doneFailed) : Prog σ Unit)
      fun _ _ => True := by
    intro ev htype
    have herror := @yield_waiting σ ev (by simp [htype]) (by simp [htype])
    exact herror.watched.bind fun _ q hq => hq ▸ yield_done (by simp)
  unfold handle
  split
  · exact hfailed _ (topicNotFound_type req)
  · next topic _ =>
    split
    · show Watched _ _ (newMessageId env >>= fun messageId => Eff.act _ >>= fun _ =>
        Eff.attempt (persistUserMessage env req) >>= afterUser env topic req messageId) _
      have hid : Steady Outbox.step (.waiting []) (newMessageId env) :=
        .bind (.draw _) fun _ => .ret _
      refine hid.watched.bind fun messageId q hq => ?_
      subst hq
      have hannounce := @yield_waiting σ (metaEvent req messageId) (by simp) (by simp)
      refine hannounce.watched.bind fun _ q hq => ?_
      subst hq
      refine persistUserMessage_waiting.attempt.watched.bind fun r q hq => ?_
      subst hq
      exact afterUser_queues r
    · exact hfailed _ (invalidParams_type env req)

/-- At any time the contents told are the first of those dispatched. -/
theorem handle_told_isPrefix {w : σ} (h : ts <+: (handle env topics req w).trace) :
    word contentTold ts <+: word contentDispatched ts := by
  obtain ⟨q, hwatch⟩ := (handle_queues env topics req).watch_of_isPrefix h
  have hholds : q.Holds ts :=
    watch_invariant (I := fun ts q => q.Holds ts) rfl (fun _ _ _ _ hq => hq.step) hwatch
  exact hholds.told_isPrefix

/-- Nothing comes after done. -/
theorem handle_closes {w : σ} {before after : List Act}
    (h : (handle env topics req w).trace = before ++ a :: after) (hcloses : a.closes = true) :
    after = [] := by
  obtain ⟨q, hwatch, -⟩ := handle_queues env topics req w
  rw [h] at hwatch
  obtain ⟨q₁, q₂, -, hstep, hrest⟩ := watch_act hwatch
  have hdone : q₂ = .done := by
    cases q₁ with
    | done => cases hstep
    | waiting contents =>
        rw [Outbox.step, if_pos hcloses, Option.some.injEq] at hstep
        exact hstep.symm
  subst hdone
  cases after with
  | nil => rfl
  | cons b after => cases hrest

end Outbox

-- ============================================================================
-- What is told
-- ============================================================================

/-- The guard of a request and of what its client is told. -/
noncomputable abbrev telling (req : ChatRequest) : Telling → Act → Option Telling :=
  through spoken (Telling.step req)

section Telling

variable {env : Env σ} {topics : TopicRegistry} {req : ChatRequest} {w : σ} {part : List Act}

theorem Act.closes_eq (a : Act) : a.closes = (spoken a).any Speech.closes := by
  cases a with
  | emit ev => by_cases htype : ev.type = .delta <;> simp [Act.closes, spoken, htype, Speech.closes]
  | yield ev => cases htype : ev.type <;> simp [Act.closes, spoken, htype, Speech.closes]
  | append msg r => cases r <;> rfl
  | listRecent threadId limit r => cases r <;> rfl
  | _ => rfl

/-- The exchange of a request whose relay is behind. -/
theorem exchange_of_part
    (h : Lags Act.late contentDispatched contentTold (handle env topics req w).trace part) :
    ∃ phase, watch (exchanging req) .silent part = some phase := by
  obtain ⟨phase, hwatch, -⟩ := handle_speaks env topics req w
  exact h.watch (fun phase a hlate => Act.late_quiet hlate phase) hwatch

/-- What the client has been told are the first of the contents dispatched. -/
theorem told_isPrefix
    (h : Lags Act.late contentDispatched contentTold (handle env topics req w).trace part) :
    word contentTold part <+: word contentDispatched part :=
  h.effects contents_delayed (handle_told_isPrefix (List.prefix_refl _))

/-- They are all of them once its stream is done. -/
theorem told_of_closes
    (h : Lags Act.late contentDispatched contentTold (handle env topics req w).trace part)
    (hcloses : part.any Act.closes = true) :
    word contentTold part = word contentDispatched part := by
  obtain ⟨a, hmem, ha⟩ := List.any_eq_true.mp hcloses
  have hlate : a.late = true := by
    cases a with
    | yield ev =>
        have htype : ev.type = .done := by simpa [Act.closes] using ha
        simp [Act.late, htype]
    | _ => cases ha
  refine h.closed contents_delayed (told_eq_dispatched env topics req w) hmem hlate ?_
  intro before after hwhole u hu
  rw [handle_closes hwhole ha] at hu
  exact (List.not_mem_nil hu).elim

/-- A request whose relay is behind, and what its client is told. -/
theorem telling_of_part
    (h : Lags Act.late contentDispatched contentTold (handle env topics req w).trace part) :
    ∃ t, watch (telling req) .start part = some t ∧
      watch (exchanging req) .silent part = some t.exchange ∧
      t.told = word contentTold part ∧ t.closed = part.any Act.closes := by
  induction part using List.reverseRecOn with
  | nil => exact ⟨.start, rfl, rfl, rfl, rfl⟩
  | append_singleton pre a ih =>
      obtain ⟨t, hwatch, hexchange, htold, hclosed⟩ := ih (h.of_part (List.prefix_append _ _))
      obtain ⟨phase, hphase⟩ := exchange_of_part h
      have hsaid := Exchange.said_of_watch hphase
      have hstep : exchanging req t.exchange a = some phase := by
        rw [watch_append, hexchange, Option.bind_some, watch, Option.bind_eq_some_iff] at hphase
        obtain ⟨phase', hstep, hphase⟩ := hphase
        cases hphase
        exact hstep
      have htoldNext : word contentTold (pre ++ [a]) =
          t.told ++ ((spoken a).bind Speech.told).toList := by
        rw [word_append, word_cons, word_nil, List.append_nil, htold]
        rfl
      have hclosedNext : (pre ++ [a]).any Act.closes =
          (t.closed || (spoken a).any Speech.closes) := by
        rw [List.any_append, hclosed, List.any_cons, List.any_nil, Bool.or_false, Act.closes_eq]
      rw [watch_append, hwatch, hphase, htoldNext, hclosedNext, Option.bind_some]
      have hbegins := told_isPrefix h
      have hcomplete := told_of_closes h
      rw [htoldNext, ← hsaid.2] at hbegins
      rw [htoldNext, hclosedNext, ← hsaid.2] at hcomplete
      cases hspoken : spoken a with
      | none =>
          rw [exchanging, through_none hspoken, Option.some.injEq] at hstep
          rw [watch_cons (through_none hspoken)]
          exact ⟨t, rfl, by rw [hstep], by simp, by simp⟩
      | some speech =>
          rw [hspoken] at hbegins hcomplete
          rw [exchanging, through_some hspoken] at hstep
          have hnext := Telling.step_of_exchange hstep hbegins hcomplete
          rw [watch_cons ((through_some hspoken).trans hnext)]
          exact ⟨_, rfl, rfl, rfl, rfl⟩

end Telling

-- ============================================================================
-- Requests whose relays are behind
-- ============================================================================

section Streaming

variable [DecidableEq ι]

/-- Requests on one store, act by act, each with its relay as far behind its graph as
    it may be: the graph's acts are those of a part of a run of `handle`, whatever
    its environment answers, and so are the events the client is told; a content
    is told after it was dispatched. -/
structure Streaming (topics : TopicRegistry) (reqs : ι → ChatRequest)
    (step : Store → Act → Store → Prop) (s : Store) (acts : List ((ι × Act) × Store))
    (s' : Store) : Prop where
  path : Path (fun s l s' => step s l.2 s') s acts s'
  runs : ∀ i, ∃ (σ : Type) (env : Env σ) (w : σ),
    Lags Act.late contentDispatched contentTold (handle env topics (reqs i) w).trace
      (actsOf i (acts.map Prod.fst))

variable {topics : TopicRegistry} {reqs : ι → ChatRequest} {step : Store → Act → Store → Prop}
  {s s' : Store} {acts : List ((ι × Act) × Store)}

/-- Relays that keep up. -/
theorem Concurrent.streaming (h : Concurrent topics reqs step s acts s') :
    Streaming topics reqs step s acts s' where
  path := h.path
  runs := fun i => by
    obtain ⟨σ, env, w, hpart⟩ := h.runs i
    exact ⟨σ, env, w, .of_isPrefix hpart fun pre hpre => (handle_told_isPrefix hpre).length_le⟩

theorem Streaming.widen {step' : Store → Act → Store → Prop}
    (h : Streaming topics reqs step s acts s') (hwider : ∀ s a s', step s a s' → step' s a s') :
    Streaming topics reqs step' s acts s' where
  path := h.path.widen fun _ _ _ hstep => hwider _ _ _ hstep
  runs := h.runs

theorem actsOf_filter (sel : Act → Bool) (i : ι) (ls : List (ι × Act)) :
    actsOf i (ls.filter fun l => sel l.2) = (actsOf i ls).filter sel := by
  rw [actsOf, actsOf, List.filter_map, List.filter_filter, List.filter_filter]
  exact congrArg _ (List.filter_congr fun l _ => Bool.and_comm _ _)

/-- A client that has been told nothing, while everything else went on. -/
theorem Streaming.untold (h : Streaming topics reqs step s acts s')
    (hquiet : ∀ s a s', step s a s' → a.late = true → s' = s) :
    Streaming topics reqs step s (acts.filter fun a => !a.1.2.late) s' where
  path := @Path.filter _ _ _ (fun l => !l.2.late) _ _ _ h.path fun _ _ _ hstep hlate =>
    hquiet _ _ _ hstep (by simpa using hlate)
  runs := fun i => by
    obtain ⟨σ, env, w, hlags⟩ := h.runs i
    have hacts : actsOf i ((acts.filter fun a => !a.1.2.late).map Prod.fst) =
        (actsOf i (acts.map Prod.fst)).filter fun a => !a.late := by
      have hfirst : (acts.filter fun a => !a.1.2.late).map Prod.fst =
          (acts.map Prod.fst).filter fun l => !l.2.late := by
        rw [List.filter_map]
        rfl
      rw [hfirst, actsOf_filter fun a => !a.late]
    rw [hacts]
    exact ⟨σ, env, w, hlags.unseen contents_delayed⟩

end Streaming

end MasterAgent
