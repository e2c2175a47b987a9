/-
  MasterAgent.Core.GraphActs

  The graph's part in a run of `handle`.  What a request does besides storing
  the user message and yielding events comes from a prefix of a run of the
  pipeline, in the same order, and the deltas it yields are those of the
  prefix.  The prefix is proper only when the relay raised.
-/

import MasterAgent.Core.StreamGrammar

namespace MasterAgent

open Effect StateGraph

variable {σ : Type}

/-- The events a client receives are those the run yields. -/
theorem mem_yielded {ev : ChatEvent} {acts : List Act} :
    ev ∈ word Act.yielded acts ↔ .yield ev ∈ acts := by
  constructor
  · intro hev
    obtain ⟨a, ha, hyield⟩ := List.mem_filterMap.mp hev
    cases a with
    | yield ev' =>
        cases hyield
        exact ha
    | _ => cases hyield
  · exact fun h => List.mem_filterMap.mpr ⟨_, h, rfl⟩

-- ============================================================================
-- Deltas
-- ============================================================================

/-- The data of a delta the graph dispatches. -/
def emittedDelta : Act → Option Json
  | .emit ev => if ev.type = .delta then some ev.data else none
  | _ => none

/-- The same, as the service relays it. -/
def shownDelta (a : Act) : Option Json := (emittedDelta a).map fun data => data.orElse (.obj [])

/-- The data of a delta the service yields. -/
def yieldedDelta : Act → Option Json
  | .yield ev => if ev.type = .delta then some ev.data else none
  | _ => none

theorem shownDelta_eq_none {a : Act} : shownDelta a = none ↔ emittedDelta a = none := by
  simp [shownDelta]

/-- A delta dispatched is a delta of the grammar. -/
theorem emitSym_of_emittedDelta {a : Act} {data : Json} (h : emittedDelta a = some data) :
    emitSym a = some .delta := by
  cases a with
  | emit ev =>
      by_cases htype : ev.type = .delta
      · simp [emitSym, eventSym, htype]
      · simp [emittedDelta, htype] at h
  | _ => cases h

/-- The relay answers with events to yield; it yields a delta for a delta. -/
theorem relay_yields {errorMessages : Dict PyStr PyStr} {a : Act} {out : List Act}
    (h : relay errorMessages a = .ok out) :
    (∀ o ∈ out, ∃ ev, o = .yield ev) ∧ word yieldedDelta out = (shownDelta a).toList := by
  cases a with
  | emit ev =>
      cases htype : ev.type with
      | error =>
          obtain ⟨data, -, rfl⟩ := (relay_errorEvent htype).mp h
          simp [word, yieldedDelta, shownDelta, emittedDelta, htype]
      | _ =>
          simp only [relay, htype, Except.ok.injEq] at h
          subst h
          simp [word, yieldedDelta, shownDelta, emittedDelta, htype]
  | _ =>
      simp only [relay, Except.ok.injEq] at h
      subst h
      simp [shownDelta, emittedDelta]

/-- The relay raises at error events only. -/
theorem relay_error {errorMessages : Dict PyStr PyStr} {a : Act} {e : Exn}
    (h : relay errorMessages a = .error e) : ∃ ev, a = .emit ev ∧ ev.type = .error := by
  cases a with
  | emit ev =>
      refine ⟨ev, rfl, ?_⟩
      cases htype : ev.type with
      | error => rfl
      | _ => simp [relay, htype] at h
  | _ => simp [relay] at h

/-- The events of a graph run are ordered. -/
theorem pipeline_ordered (env : Env σ) (topic : CompiledTopic) (s : GraphState) (w : σ) :
    (word emitSym (pipeline env topic s w).trace).Pairwise MayFollow := by
  obtain ⟨v, hv⟩ := (pipeline_follows env topic s).trace_mem_prefixes w
  exact (List.pairwise_append.mp (graphWords_ordered hv).1).1

/-- No delta comes after the error event that stops the relay. -/
theorem no_delta_after_error {pre post : List Act} {t : Act} {ev : ChatEvent}
    (ht : t = .emit ev) (htype : ev.type = .error)
    (h : (word emitSym (pre ++ t :: post)).Pairwise MayFollow) :
    ∀ a ∈ t :: post, shownDelta a = none := by
  intro a ha
  rw [shownDelta_eq_none]
  cases hdelta : emittedDelta a with
  | none => rfl
  | some data =>
      exfalso
      have hsym := emitSym_of_emittedDelta hdelta
      obtain ⟨code, hcode⟩ : ∃ code, emitSym t = some (.error code) := by
        subst ht
        simp [emitSym, eventSym, htype]
      rcases List.mem_cons.mp ha with rfl | ha
      · rw [hsym] at hcode
        cases hcode
      · have hmem : Sym.delta ∈ word emitSym post := List.mem_filterMap.mpr ⟨a, ha, hsym⟩
        rw [word_append, word_cons, hcode, List.pairwise_append] at h
        have hafter := (List.pairwise_append.mp h.2.1).2.2 (.error code)
          (List.mem_singleton.mpr rfl) .delta hmem
        exact (hafter.2.2 code rfl).1 rfl

-- ============================================================================
-- The graph's part
-- ============================================================================

/-- Acts of storing the user message of a request. -/
def UserAct (req : ChatRequest) : Act → Prop
  | .acquire _ => True
  | .release _ => True
  | .getOrCreate _ _ _ _ => True
  | .append msg _ => ∃ messageId, msg = userMessage req messageId
  | _ => False

theorem persistUserMessage_acts (env : Env σ) (req : ChatRequest) :
    (persistUserMessage env req).ActsOnly (UserAct req) :=
  withConn_actsOnly (fun _ => trivial) (fun _ => trivial)
    (.bind (.call fun _ => trivial) fun _ => .bind (.bind (.draw _) fun _ => .ret _) fun _ =>
      .call fun _ => ⟨_, rfl⟩)

/-- A selection of acts that leaves out the yields and the acts of storing the
    user message. -/
structure GraphSelection (req : ChatRequest) (sel : Act → Bool) : Prop where
  noYield : ∀ ev, sel (.yield ev) = false
  noUser : ∀ a, UserAct req a → sel a = false

/-- `pre` is the graph's part in the acts `ts` of a request, where `full` is
    what the graph does when nobody stops it. -/
structure GraphPart (req : ChatRequest) (errorMessages : Dict PyStr PyStr)
    (full pre ts : List Act) : Prop where
  isPrefix : pre <+: full
  sublist : pre.Sublist ts
  acts : ∀ sel, GraphSelection req sel → ts.filter sel = pre.filter sel
  deltas : word yieldedDelta ts = word shownDelta pre
  cut : pre = [] ∨ pre = full ∨ ∃ ev, .emit ev ∈ pre ∧ ev.type = .error

/-- The assistant messages handed to the repository. -/
def assistantAppend : Act → Option Message
  | .append msg _ => if msg.role = py "assistant" then some msg else none
  | _ => none

/-- What the service does on its own: the user message, and events other than
    deltas. -/
def Aside (req : ChatRequest) (a : Act) : Prop :=
  UserAct req a ∨ ∃ ev, a = .yield ev ∧ ev.type ≠ .delta

theorem Aside.deltas {req : ChatRequest} {ts : List Act} (h : ∀ a ∈ ts, Aside req a) :
    word yieldedDelta ts = [] := by
  refine word_eq_nil.mpr fun a ha => ?_
  rcases h a ha with huser | ⟨ev, rfl, htype⟩
  · cases a <;> first | rfl | exact huser.elim
  · simp [yieldedDelta, htype]

theorem Aside.filter {req : ChatRequest} {ts : List Act} (h : ∀ a ∈ ts, Aside req a)
    {sel : Act → Bool} (hsel : GraphSelection req sel) : ts.filter sel = [] := by
  rw [List.filter_eq_nil_iff]
  intro a ha
  rcases h a ha with huser | ⟨ev, rfl, -⟩
  · simp [hsel.noUser a huser]
  · simp [hsel.noYield ev]

section GraphPart

variable {req : ChatRequest} {errorMessages : Dict PyStr PyStr} {full pre ts us vs : List Act}

theorem GraphPart.none (h : ∀ a ∈ ts, Aside req a) :
    GraphPart req errorMessages full [] ts where
  isPrefix := List.nil_prefix
  sublist := List.nil_sublist _
  acts := fun _ hsel => Aside.filter h hsel
  deltas := Aside.deltas h
  cut := Or.inl rfl

theorem GraphPart.append (h : GraphPart req errorMessages full pre ts)
    (hvs : ∀ a ∈ vs, Aside req a) : GraphPart req errorMessages full pre (ts ++ vs) where
  isPrefix := h.isPrefix
  sublist := h.sublist.trans (List.sublist_append_left _ _)
  acts := fun sel hsel => by
    rw [List.filter_append, Aside.filter hvs hsel, List.append_nil, h.acts sel hsel]
  deltas := by rw [word_append, Aside.deltas hvs, List.append_nil, h.deltas]
  cut := h.cut

theorem GraphPart.prepend (h : GraphPart req errorMessages full pre ts)
    (hus : ∀ a ∈ us, Aside req a) : GraphPart req errorMessages full pre (us ++ ts) where
  isPrefix := h.isPrefix
  sublist := h.sublist.trans (List.sublist_append_right _ _)
  acts := fun sel hsel => by
    rw [List.filter_append, Aside.filter hus hsel, List.nil_append, h.acts sel hsel]
  deltas := by rw [word_append, Aside.deltas hus, List.nil_append, h.deltas]
  cut := h.cut

end GraphPart

theorem filter_withReaction {req : ChatRequest} {sel : Act → Bool}
    (hsel : GraphSelection req sel) (errorMessages : Dict PyStr PyStr) (acts : List Act) :
    (acts.flatMap (withReaction (relay errorMessages))).filter sel = acts.filter sel := by
  induction acts with
  | nil => rfl
  | cons a acts ih =>
      have hone : (withReaction (relay errorMessages) a).filter sel = [a].filter sel := by
        unfold withReaction
        split
        · next out hout =>
          have hnone : out.filter sel = [] := by
            rw [List.filter_eq_nil_iff]
            intro o ho
            obtain ⟨ev, rfl⟩ := (relay_yields hout).1 o ho
            simp [hsel.noYield ev]
          rw [← List.singleton_append, List.filter_append, hnone, List.append_nil]
        · rfl
      rw [List.flatMap_cons, List.filter_append, hone, ih, ← List.filter_append,
        List.singleton_append]

theorem sublist_withReaction (errorMessages : Dict PyStr PyStr) (acts : List Act) :
    acts.Sublist (acts.flatMap (withReaction (relay errorMessages))) := by
  induction acts with
  | nil => exact List.Sublist.refl _
  | cons a acts ih =>
      have hone : [a].Sublist (withReaction (relay errorMessages) a) := by
        unfold withReaction
        split <;> simp
      exact hone.append ih

/-- The loop over the graph. -/
theorem relayed_graphPart (env : Env σ) (topic : CompiledTopic) (req : ChatRequest)
    (s : GraphState) (w : σ) :
    ∃ pre, GraphPart req topic.errorMessages (pipeline env topic s w).trace pre
      (relayed env topic s w).trace := by
  have hgraph : ∀ a ∈ (pipeline env topic s w).trace, yieldedDelta a = none := by
    intro a ha
    have h := pipeline_graphAct env topic s w a ha
    cases a <;> first | rfl | exact h.elim
  have hreact : ∀ a out, relay topic.errorMessages a = .ok out →
      word yieldedDelta out = (shownDelta a).toList := fun _ _ h => (relay_yields h).2
  rcases Eff.consume_cases (relay topic.errorMessages) env.grace (pipeline env topic s) w with
    ⟨hok, -, -, ht⟩ | ⟨pre, t, post, e, htrace, hpre, hraise, -, ht⟩
  · refine ⟨_, List.prefix_refl _, ?_, fun sel hsel => ?_, ?_, Or.inr (Or.inl rfl)⟩
    · rw [relayed, ht]
      exact sublist_withReaction _ _
    · rw [relayed, ht, filter_withReaction hsel]
    · rw [relayed, ht, word_flatMap_withReaction hreact hgraph hok]
  · -- the relay raised at `t`, and some acts of the graph still followed
    obtain ⟨ev, hev, htype⟩ := relay_error hraise
    have hordered := pipeline_ordered env topic s w
    rw [htrace] at hordered hgraph
    have hafter := no_delta_after_error hev htype hordered
    have hcut : ∀ a ∈ t :: post.take env.grace, a ∈ t :: post := by
      intro a ha
      rcases List.mem_cons.mp ha with rfl | ha
      · exact List.mem_cons_self
      · exact List.mem_cons_of_mem _ (List.mem_of_mem_take ha)
    refine ⟨pre ++ t :: post.take env.grace, ?_, ?_, fun sel hsel => ?_, ?_,
      Or.inr (Or.inr ?_)⟩
    · rw [htrace, List.prefix_append_right_inj, List.prefix_cons_inj]
      exact List.take_prefix _ _
    · rw [relayed, ht]
      exact (sublist_withReaction _ _).append (List.Sublist.refl _)
    · rw [relayed, ht, List.filter_append, filter_withReaction hsel, ← List.filter_append]
    · have hyields : word yieldedDelta (t :: post.take env.grace) = [] :=
        word_eq_nil.mpr fun a ha => hgraph a (List.mem_append_right _ (hcut a ha))
      have hshown : word shownDelta (t :: post.take env.grace) = [] :=
        word_eq_nil.mpr fun a ha => hafter a (hcut a ha)
      rw [relayed, ht, word_append, word_append, hyields, hshown,
        word_flatMap_withReaction hreact (fun a ha => hgraph a (List.mem_append_left _ ha)) hpre]
    · exact ⟨ev, by simp [hev], htype⟩

/-- Every delta the graph dispatches is yielded, even where the relay raises: it
    raises at an error, and no delta comes after one. -/
theorem mem_relayed_of_delta {env : Env σ} {topic : CompiledTopic} {s : GraphState} {w : σ}
    {ev : ChatEvent} (hemit : .emit ev ∈ (pipeline env topic s w).trace)
    (htype : ev.type = .delta) :
    .yield { type := .delta, data := ev.data.orElse (.obj []) }
      ∈ (relayed env topic s w).trace := by
  have hrelay : relay topic.errorMessages (.emit ev)
      = .ok [.yield { type := .delta, data := ev.data.orElse (.obj []) }] := by
    simp only [relay, htype]
  have hdelta : shownDelta (.emit ev) = some (ev.data.orElse (.obj [])) := by
    simp [shownDelta, emittedDelta, htype]
  rcases Eff.consume_cases (relay topic.errorMessages) env.grace (pipeline env topic s) w with
    ⟨hok, -, -, -⟩ | ⟨pre, t, post, e, htrace, hpre, hraise, -, ht⟩
  · exact Eff.mem_consume hok hemit hrelay (List.mem_singleton.mpr rfl)
  · obtain ⟨ev', hev', htype'⟩ := relay_error hraise
    have hordered := pipeline_ordered env topic s w
    rw [htrace] at hordered hemit
    rcases List.mem_append.mp hemit with hemit | hemit
    · rw [relayed, ht]
      refine List.mem_append_left _ (List.mem_flatMap.mpr ⟨_, hemit, ?_⟩)
      rw [withReaction, hrelay]
      exact List.mem_cons_of_mem _ (List.mem_singleton.mpr rfl)
    · have hnone := no_delta_after_error hev' htype' hordered _ hemit
      rw [hdelta] at hnone
      cases hnone

/-- The loop, with what the service yields after it. -/
theorem afterUser_ok_graphPart {env : Env σ} {topic : CompiledTopic} (req : ChatRequest)
    (messageId : PyStr) {g : ChatGraph σ} (hbuild : buildGraph env topic = .ok g) (w : σ) :
    ∃ pre, GraphPart req topic.errorMessages
      (pipeline env topic (initialState req messageId) w).trace pre
      (afterUser env topic req messageId (.ok ()) w).trace := by
  obtain ⟨pre, hpart⟩ := relayed_graphPart env topic req (initialState req messageId) w
  refine ⟨pre, ?_⟩
  generalize (pipeline env topic (initialState req messageId) w).trace = full at hpart ⊢
  cases hr : (relayed env topic (initialState req messageId) w).result with
  | ok u =>
      have hloop := @chatLoop_of_ok σ env topic req g messageId w hbuild hr
      rw [afterUser_ok hbuild (hloop ▸ hr), hloop, Run.trace, List.map_append]
      refine hpart.append fun a ha => Or.inr ⟨_, List.mem_singleton.mp ha, by simp⟩
  | error e =>
      cases he : e.isException with
      | true =>
          have hloop := @chatLoop_of_error σ env topic req g messageId w hbuild e hr he
          have hres : (chatLoop env topic req g messageId w).result = .ok () := by
            rw [hloop]
          rw [afterUser_ok hbuild hres, hloop, Run.trace, List.append_assoc,
            List.map_append]
          refine hpart.append fun a ha => Or.inr ?_
          simp only [List.cons_append, List.nil_append, List.map_cons, List.map_nil,
            List.mem_cons, List.not_mem_nil, or_false] at ha
          rcases ha with rfl | rfl
          · exact ⟨_, rfl, by simp⟩
          · exact ⟨_, rfl, by simp⟩
      | false =>
          rw [Exn.isException_eq_false.mp he] at hr
          have hloop := @chatLoop_of_cancelled σ env topic req g messageId w hbuild hr
          have hres : (chatLoop env topic req g messageId w).result = .error .cancelled := by
            rw [hloop]
          rw [afterUser_error hbuild hres, hloop]
          exact hpart

/-- After the user message: nothing of the graph, or the loop. -/
theorem afterUser_graphPart (env : Env σ) (topic : CompiledTopic) (req : ChatRequest)
    (messageId : PyStr) (r : Except Exn Unit) (w : σ) :
    ∃ pre, GraphPart req topic.errorMessages
        (pipeline env topic (initialState req messageId) w).trace pre
        (afterUser env topic req messageId r w).trace ∧
      (pre ≠ [] → ∃ g, buildGraph env topic = .ok g) := by
  cases r with
  | error e =>
      refine ⟨[], .none fun a ha => ?_, fun hne => (hne rfl).elim⟩
      cases e with
      | sessionBizMismatch detail =>
          simp only [afterUser, Eff.act_eq_play, Eff.play_ok_bind_play, Eff.play_trace] at ha
          rcases List.mem_append.mp ha with ha | ha
          · exact Or.inr ⟨_, List.mem_singleton.mp ha, by simp⟩
          · exact Or.inr ⟨_, List.mem_singleton.mp ha, by simp⟩
      | _ => exact (List.not_mem_nil ha).elim
  | ok u =>
      by_cases hbuild : ∃ g, buildGraph env topic = .ok g
      · obtain ⟨g, hg⟩ := hbuild
        obtain ⟨pre, hpart⟩ := afterUser_ok_graphPart req messageId hg w
        exact ⟨pre, hpart, fun _ => ⟨g, hg⟩⟩
      · refine ⟨[], .none fun a ha => ?_, fun hne => (hne rfl).elim⟩
        cases hb : buildGraph env topic with
        | ok g => exact (hbuild ⟨g, hb⟩).elim
        | error e =>
            simp only [afterUser, hb] at ha
            exact (List.not_mem_nil ha).elim

/-- The graph's part in a run of `handle`, for a request whose topic is known. -/
theorem handle_graphPart {env : Env σ} {topics : TopicRegistry} {req : ChatRequest}
    {topic : CompiledTopic} (ht : topics.get req.bizId = some topic) (w : σ) :
    ∃ w' pre, GraphPart req topic.errorMessages
        (pipeline env topic (initialState req (assistantId env w)) w').trace pre
        (handle env topics req w).trace ∧
      (pre ≠ [] → ∃ g, buildGraph env topic = .ok g) := by
  cases hacc : topic.bizParamsModel.accepts req.bizParams with
  | false =>
      refine ⟨w, [], .none fun a ha => Or.inr ?_, fun hne => (hne rfl).elim⟩
      rw [handle_invalid ht hacc, Eff.play_trace] at ha
      simp only [List.mem_cons, List.not_mem_nil, or_false] at ha
      rcases ha with rfl | rfl
      · exact ⟨_, rfl, by simp⟩
      · exact ⟨_, rfl, by simp⟩
  | true =>
      obtain ⟨pre, hpart, hbuild⟩ := afterUser_graphPart env topic req (assistantId env w)
        (persistUserMessage env req (afterAssistantId env w)).result
        (persistUserMessage env req (afterAssistantId env w)).world
      have huser : ∀ a ∈ .yield (metaEvent req (assistantId env w)) ::
          (persistUserMessage env req (afterAssistantId env w)).trace, Aside req a := by
        intro a ha
        rcases List.mem_cons.mp ha with rfl | ha
        · exact Or.inr ⟨_, rfl, by simp⟩
        · exact Or.inl (persistUserMessage_acts env req _ a ha)
      refine ⟨(persistUserMessage env req (afterAssistantId env w)).world, pre, ?_, hbuild⟩
      have htrace : (handle env topics req w).trace =
          (.yield (metaEvent req (assistantId env w)) ::
            (persistUserMessage env req (afterAssistantId env w)).trace) ++
          (afterUser env topic req (assistantId env w)
            (persistUserMessage env req (afterAssistantId env w)).result
            (persistUserMessage env req (afterAssistantId env w)).world).trace := by
        rw [handle_accepted ht hacc, handleAccepted_run]
        simp [Run.trace, Run.after]
      rw [htrace]
      exact hpart.prepend huser

-- ============================================================================
-- Events without an id
-- ============================================================================

/-- The act yields no event with an id. -/
def Unnumbered (a : Act) : Prop := ∀ ev, a = .yield ev → ev.eventId = none

theorem unnumbered_literal (type : EventType) (fields : List (PyStr × Json)) :
    Unnumbered (.yield (literalEvent type fields)) := by
  rintro ev ⟨⟩
  rfl

theorem UserAct.unnumbered {req : ChatRequest} {a : Act} (h : UserAct req a) : Unnumbered a := by
  rintro ev rfl
  exact h.elim

theorem GraphAct.unnumbered {a : Act} (h : GraphAct a) : Unnumbered a := by
  rintro ev rfl
  exact h.elim

theorem unnumbered_of_relay {errorMessages : Dict PyStr PyStr} {a : Act} {out : List Act}
    (h : relay errorMessages a = .ok out) : ∀ o ∈ out, Unnumbered o := by
  intro o ho ev hyield
  obtain ⟨shown, data, -, -, -, rfl⟩ := relay_mem h ho
  cases hyield
  rfl

theorem afterUser_unnumbered (env : Env σ) (topic : CompiledTopic) (req : ChatRequest)
    (messageId : PyStr) (r : Except Exn Unit) :
    (afterUser env topic req messageId r).ActsOnly Unnumbered := by
  cases r with
  | ok u =>
      exact afterUser_acts ((pipeline_graphAct env topic _).mono fun a ha => ha.unnumbered)
        (fun _ _ _ hus => unnumbered_of_relay hus) (unnumbered_literal _ _)
        (unnumbered_literal _ _) u
  | error e =>
      cases e with
      | sessionBizMismatch detail =>
          exact .bind (.act (unnumbered_literal _ _)) fun _ => .act (unnumbered_literal _ _)
      | _ => exact fun _ _ ha => (List.not_mem_nil ha).elim

/-- The service gives no event an id. -/
theorem handle_unnumbered (env : Env σ) (topics : TopicRegistry) (req : ChatRequest) (w : σ) :
    ∀ ev ∈ word Act.yielded (handle env topics req w).trace, ev.eventId = none := by
  have hfails : ∀ fields, (Eff.act (.yield (literalEvent .error fields)) >>= fun _ =>
      Eff.act (.yield doneFailed) : Prog σ Unit).ActsOnly Unnumbered := fun fields =>
    .bind (.act (unnumbered_literal _ fields)) fun _ => .act (unnumbered_literal _ _)
  have hacts : (handle env topics req).ActsOnly Unnumbered := by
    unfold handle
    split
    · exact hfails _
    · split
      · refine .bind (.bind (.draw _) fun _ => .ret _) fun messageId => ?_
        exact .bind (.act (unnumbered_literal _ _)) fun _ =>
          .bind (.attempt ((persistUserMessage_acts env req).mono fun a ha => ha.unnumbered))
            fun r => afterUser_unnumbered env _ req messageId r
      · exact hfails _
  exact fun ev hev => hacts w _ (mem_yielded.mp hev) ev rfl

end MasterAgent
