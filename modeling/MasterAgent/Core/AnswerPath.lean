/-
  MasterAgent.Core.AnswerPath

  The way of a graph run from auth_node to persist_node, whatever its plugins
  do.  No node on it calls a repository, so the way is a list of acts: it ends
  before a node answers, or reject_node answers, or one adapter node does.
-/

import MasterAgent.Core.GraphActs
import MasterAgent.Core.StageActs

namespace MasterAgent

open Effect StateGraph

variable {σ : Type}

/-- Acts of the run before a node answers. -/
def FrontAct : Act → Prop
  | .emit ev => ev.type = .thinking ∨ ev.type = .progress
  | .authorize _ _ => True
  | .enrich _ _ => True
  | .classify _ _ _ => True
  | .sleep _ => True
  | .enter _ => True
  | .write _ u => u.answerChunks = [] ∧ u.streamCancelled = none
  | _ => False

/-- What the answer depends on is the same in two states. -/
structure SameAnswer (s s' : GraphState) : Prop where
  answerChunks : s'.answerChunks = s.answerChunks
  streamCancelled : s'.streamCancelled = s.streamCancelled
  threadId : s'.threadId = s.threadId
  requestId : s'.requestId = s.requestId
  assistantMessageId : s'.assistantMessageId = s.assistantMessageId

theorem SameAnswer.refl (s : GraphState) : SameAnswer s s := ⟨rfl, rfl, rfl, rfl, rfl⟩

/-- A node that neither answers nor is cancelled writes nothing of it. -/
theorem SameAnswer.merge {s s' : GraphState} {u : Update} (hchunks : u.answerChunks = [])
    (hcancelled : u.streamCancelled = none) (h : SameAnswer (s.merge u) s') :
    SameAnswer s s' where
  answerChunks := by
    rw [h.answerChunks, GraphState.merge_answerChunks, hchunks, List.append_nil]
  streamCancelled := by
    rw [h.streamCancelled]
    show u.streamCancelled.getD s.streamCancelled = s.streamCancelled
    rw [hcancelled]
    rfl
  threadId := h.threadId
  requestId := h.requestId
  assistantMessageId := h.assistantMessageId

/-- What reject_node returns. -/
def rejectUpdate (topic : CompiledTopic) (s : GraphState) : Update where
  answerChunks := [.str (rejectText topic.errorMessages s.auth)]

/-- The acts from a state up to persist_node, and what the run comes there with. -/
inductive Answered (topic : CompiledTopic) (s : GraphState) :
    List Act → Except Exn GraphState → Prop where
  | unanswered {ts : List Act} {e : Exn} (hts : ∀ a ∈ ts, FrontAct a) :
      Answered topic s ts (.error e)
  | rejected {front : List Act} {s' : GraphState} (hfront : ∀ a ∈ front, FrontAct a)
      (hsame : SameAnswer s s') :
      Answered topic s
        (front ++ [.enter (py "reject_node"),
          .emit (rejectDelta (rejectText topic.errorMessages s'.auth)),
          .write (py "reject_node") (rejectUpdate topic s')])
        (.ok (s'.merge (rejectUpdate topic s')))
  | adapted {front : List Act} {s' : GraphState} (routed : RoutedAdapter topic)
      (hfront : ∀ a ∈ front, FrontAct a) (hsame : SameAnswer s s') :
      Answered topic s
        (front ++ .enter routed.node ::
          ((topic.adapterTrace routed.node routed.adapter s').1 ++
            [.write routed.node (topic.adapterTrace routed.node routed.adapter s').2]))
        (.ok (s'.merge (topic.adapterTrace routed.node routed.adapter s').2))

/-- Front acts before the way of a later state. -/
theorem Answered.prepend {topic : CompiledTopic} {s s₁ : GraphState} {us ts : List Act}
    {r : Except Exn GraphState} (hus : ∀ a ∈ us, FrontAct a)
    (hstep : ∀ s', SameAnswer s₁ s' → SameAnswer s s') (h : Answered topic s₁ ts r) :
    Answered topic s (us ++ ts) r := by
  have hboth : ∀ {front : List Act}, (∀ a ∈ front, FrontAct a) →
      ∀ a ∈ us ++ front, FrontAct a :=
    fun hfront => List.forall_mem_append.mpr ⟨hus, hfront⟩
  cases h with
  | unanswered hts => exact .unanswered (hboth hts)
  | rejected hfront hsame =>
      rw [← List.append_assoc]
      exact .rejected (hboth hfront) (hstep _ hsame)
  | adapted routed hfront hsame =>
      rw [← List.append_assoc]
      exact .adapted routed (hboth hfront) (hstep _ hsame)

/-- The program goes to persist_node on a way of the state. -/
def GoesToPersist (env : Env σ) (topic : CompiledTopic) (s : GraphState)
    (p : Prog σ GraphState) : Prop :=
  ∃ ts r, p = (Eff.play ts r >>= persistStage env) ∧ Answered topic s ts r

section Visit

variable {env : Env σ} {topic : CompiledTopic} {s : GraphState} {n : PyStr} {f : NodeFn σ}
  {β : Type} {next : GraphState → Except Exn β} {us : List Act} {e : Exn} {u : Update}
  {k : GraphState × β → Prog σ GraphState}

/-- A visit that raises ends the way. -/
theorem goesToPersist_raise
    (hvisit : (visit langGraph n f s next : Prog σ (GraphState × β)) = Eff.play us (.error e))
    (hus : ∀ a ∈ us, FrontAct a) :
    GoesToPersist env topic s (visit langGraph n f s next >>= k) := by
  refine ⟨us, .error e, ?_, .unanswered hus⟩
  rw [hvisit, Eff.play_error_bind, Eff.play_error_bind]

/-- A front node, and the way from the state it leaves. -/
theorem goesToPersist_front {r : Except Exn Update} (hf : f s = Eff.play us r)
    (hus : ∀ a ∈ us, FrontAct a)
    (hr : ∀ u, r = .ok u → u.answerChunks = [] ∧ u.streamCancelled = none)
    (hk : ∀ u b, r = .ok u → next (s.merge u) = .ok b →
      GoesToPersist env topic (s.merge u) (k (s.merge u, b))) :
    GoesToPersist env topic s (visit langGraph n f s next >>= k) := by
  have henter : ∀ a ∈ langGraph.enter n :: us, FrontAct a := by
    intro a ha
    rcases List.mem_cons.mp ha with rfl | ha
    · trivial
    · exact hus a ha
  cases r with
  | error e => exact goesToPersist_raise (visit_play_raise hf) henter
  | ok u =>
      cases hnext : next (s.merge u) with
      | error e => exact goesToPersist_raise (visit_play_lost hf hnext) henter
      | ok b =>
          obtain ⟨hchunks, hcancelled⟩ := hr u rfl
          obtain ⟨ts, r', hplay, hway⟩ := hk u b rfl hnext
          refine ⟨langGraph.enter n :: (us ++ [langGraph.write n u]) ++ ts, r', ?_, ?_⟩
          · rw [visit_play hf hnext]
            funext w
            rw [Eff.play_ok_bind]
            show (k (s.merge u, b) w).after _ = _
            rw [hplay]
            cases r' with
            | error e => simp [Eff.play_error_bind, Eff.play, Run.after]
            | ok s' => simp [Eff.play_ok_bind, Run.after]
          · apply Answered.prepend _ (fun s' => SameAnswer.merge hchunks hcancelled) hway
            intro a ha
            rw [← List.cons_append] at ha
            rcases List.mem_append.mp ha with ha | ha
            · exact henter a ha
            · rw [List.mem_singleton.mp ha]
              exact ⟨hchunks, hcancelled⟩

end Visit

-- ============================================================================
-- Stage by stage
-- ============================================================================

section Stages

variable (env : Env σ) (topic : CompiledTopic) (s : GraphState)

theorem rejectStage_goes : GoesToPersist env topic s (rejectStage env topic s) := by
  have hvisit : step "reject_node" (makeRejectNode (.live σ) topic.errorMessages) s
      = Eff.play _ _ := visit_play (makeRejectNode_live topic.errorMessages s) rfl
  refine ⟨_, _, ?_, @Answered.rejected topic s [] s (List.forall_mem_nil _) (.refl s)⟩
  unfold rejectStage
  rw [hvisit]
  rfl

theorem adapterStage_eq (routed : RoutedAdapter topic) :
    adapterStage env topic routed s =
      (Eff.play (langGraph.enter routed.node ::
          ((topic.adapterTrace routed.node routed.adapter s).1 ++
            [langGraph.write routed.node (topic.adapterTrace routed.node routed.adapter s).2]))
        (.ok (s.merge (topic.adapterTrace routed.node routed.adapter s).2)) >>=
          persistStage env) := by
  have hvisit : (visit langGraph routed.node (topicAdapterNode topic routed.node routed.adapter) s
      fun _ => (.ok () : Except Exn Unit)) = (Eff.play _ _ : Prog σ _) :=
    visit_play (topicAdapterNode_live topic s routed.node routed.adapter) rfl
  unfold adapterStage
  rw [hvisit]
  rfl

theorem adapterStage_goes (routed : RoutedAdapter topic) :
    GoesToPersist env topic s (adapterStage env topic routed s) :=
  ⟨_, _, adapterStage_eq env topic s routed,
    @Answered.adapted topic s [] s routed (List.forall_mem_nil _) (.refl s)⟩

theorem intentStage_goes : GoesToPersist env topic s (intentStage env topic s) := by
  refine goesToPersist_front (makeIntentNode_live env.repr topic.intent topic.defaultRoute
    topic.mapping.keys topic.intentRetry s) ?_ ?_ ?_
  · intro a ha
    rcases List.mem_cons.mp ha with rfl | ha
    · exact Or.inl rfl
    · rcases mem_intentTrace ha with ⟨ev, hev, rfl⟩ | ⟨k, r, rfl⟩ | rfl
      · exact Or.inr hev
      · trivial
      · trivial
  · intro u hu
    obtain ⟨answer, rfl⟩ := intentTrace_update hu
    exact ⟨rfl, rfl⟩
  · intro u routed hu hnext
    exact adapterStage_goes env topic _ routed

theorem answerStage_goes : GoesToPersist env topic s (answerStage env topic s) := by
  have hlive := @makeEnrichNode_live σ topic.enrich s
  cases hr : topic.enrich.enrich s with
  | error e =>
      rw [hr] at hlive
      refine goesToPersist_front hlive ?_ (fun _ h => nomatch h) fun _ _ h => nomatch h
      simp [FrontAct, thinkingEnrich, literalEvent]
  | ok result =>
      rw [hr] at hlive
      refine goesToPersist_front hlive ?_ ?_ ?_
      · simp [FrontAct, thinkingEnrich, progressEnrich, literalEvent]
      · intro u hu
        cases hu
        exact ⟨rfl, rfl⟩
      · intro u b hu hnext
        exact intentStage_goes env topic _

/-- From auth_node on. -/
theorem authStage_goes : GoesToPersist env topic s (authStage env topic s) := by
  have hlive := @makeAuthNode_live σ topic.auth s
  cases hr : topic.auth.authorize s with
  | error e =>
      rw [hr] at hlive
      refine goesToPersist_front hlive ?_ (fun _ h => nomatch h) fun _ _ h => nomatch h
      simp [FrontAct, thinkingAuth, literalEvent]
  | ok result =>
      rw [hr] at hlive
      refine goesToPersist_front hlive ?_ ?_ ?_
      · simp [FrontAct, thinkingAuth, progressAuth, literalEvent]
      · intro u hu
        cases hu
        unfold authUpdate
        split <;> exact ⟨rfl, rfl⟩
      · intro u passed hu hnext
        cases passed with
        | true => exact answerStage_goes env topic _
        | false => exact rejectStage_goes env topic _

end Stages

-- ============================================================================
-- Where a stored answer comes from
-- ============================================================================

/-- Acts of the graph's first node, with its enter and its write. -/
def LoadStageAct : Act → Prop
  | .enter _ => True
  | .write _ u => u.answerChunks = [] ∧ u.streamCancelled = none
  | a => LoadAct a

/-- Acts of persist_node in a state, with its enter and its write. -/
def PersistStageAct (s : GraphState) : Act → Prop
  | .enter _ => True
  | .write _ u => u = {}
  | a => PersistAct s a

theorem persistStage_stageActs (env : Env σ) (s : GraphState) :
    (persistStage env s).ActsOnly (PersistStageAct s) := by
  have hnode : (persistNode env s).ActsOnly (PersistStageAct s) := by
    refine (persistNode_acts env s).mono fun a ha => ?_
    cases a <;> first | exact ha | exact ha.elim
  have hvisit : (step "persist_node" (persistNode env) s).ActsOnly (PersistStageAct s) := by
    refine .bind (.act trivial) fun _ =>
      hnode.bind_returns (persistNode_returns env s) fun u hu => ?_
    exact .bind (.ofExcept _) fun _ => .bind (.act hu) fun _ => .ret _
  exact hvisit.bind fun _ => .ret _

/-- The part of a graph run after the way to persist_node. -/
def persistActs (env : Env σ) (w : σ) : Except Exn GraphState → List Act
  | .ok s => (persistStage env s w).trace
  | .error _ => []

/-- The acts of a graph run: those of load_session, and if it returns, those of
    a way and of persist_node. -/
inductive GraphTrace (env : Env σ) (topic : CompiledTopic) (s : GraphState) :
    List Act → Prop where
  | unloaded {load : List Act} (hload : ∀ a ∈ load, LoadStageAct a) :
      GraphTrace env topic s load
  | loaded {load ts : List Act} {s₁ : GraphState} {r : Except Exn GraphState} (w : σ)
      (hload : ∀ a ∈ load, LoadStageAct a) (hsame : SameAnswer s s₁)
      (hway : Answered topic s₁ ts r) :
      GraphTrace env topic s (load ++ (ts ++ persistActs env w r))

theorem loadStage_stageActs (env : Env σ) (topic : CompiledTopic) (s : GraphState) :
    (step "load_session" (loadSessionNode env topic) s).ActsOnly LoadStageAct := by
  have hnode : (loadSessionNode env topic s).ActsOnly LoadStageAct := by
    refine (loadSessionNode_acts env topic s).mono fun a ha => ?_
    cases a <;> first | exact ha | exact ha.elim
  refine .bind (.act trivial) fun _ =>
    hnode.bind_returns (loadSessionNode_returns env topic s) fun u hu => ?_
  obtain ⟨history, rfl⟩ := hu
  exact .bind (.ofExcept _) fun _ => .bind (.act ⟨rfl, rfl⟩) fun _ => .ret _

theorem pipeline_graphTrace (env : Env σ) (topic : CompiledTopic) (s : GraphState) (w : σ) :
    GraphTrace env topic s (pipeline env topic s w).trace := by
  have hload := loadStage_stageActs env topic s w
  cases hr : (step "load_session" (loadSessionNode env topic) s w).result with
  | error e =>
      rw [pipeline, Eff.bind_of_error hr]
      exact .unloaded hload
  | ok p =>
      have hsame : SameAnswer s p.1 := by
        obtain ⟨u, hu, hp, -⟩ := visit_ok hr
        obtain ⟨history, rfl⟩ := loadSessionNode_returns env topic s w u hu
        rw [hp]
        exact SameAnswer.merge rfl rfl (.refl _)
      obtain ⟨ts, r, hplay, hway⟩ := authStage_goes env topic p.1
      have htrace : (pipeline env topic s w).trace
          = (step "load_session" (loadSessionNode env topic) s w).trace ++ (ts ++ persistActs env
            (step "load_session" (loadSessionNode env topic) s w).world r) := by
        rw [pipeline, Eff.bind_of_ok hr, Run.trace, Run.after, List.map_append, hplay]
        cases r with
        | error e =>
            rw [Eff.play_error_bind]
            simp [Eff.play, persistActs, Run.trace, Function.comp_def]
        | ok s' =>
            rw [Eff.play_ok_bind]
            simp [persistActs, Run.trace, Run.after, Function.comp_def]
      rw [htrace]
      exact .loaded _ hload hsame hway

/-- The answer of a state is a message of the assistant. -/
theorem assistantAppend_answer (s : GraphState) (content : PyStr) (r : Except Exn Unit) :
    assistantAppend (.append (assistantMessage s content) r)
      = some (assistantMessage s content) := by
  have hrole : (assistantMessage s content).role = py "assistant" := rfl
  rw [assistantAppend, if_pos hrole]

/-- A run, or a part of it, that hands an answer to the repository has come all
    the way to persist_node. -/
theorem assistantAppend_of_prefix {env : Env σ} {topic : CompiledTopic} {s : GraphState} {w : σ}
    {pre : List Act} (hpre : pre <+: (pipeline env topic s w).trace) {msg : Message}
    (hmsg : msg ∈ word assistantAppend pre) :
    ∃ load ts post s₁ s' content, pre = load ++ (ts ++ post) ∧
      (∀ a ∈ load, LoadStageAct a) ∧ (∀ a ∈ post, PersistStageAct s' a) ∧
      SameAnswer s s₁ ∧ Answered topic s₁ ts (.ok s') ∧
      Json.join s'.answerChunks = .ok content ∧ msg = assistantMessage s' content := by
  obtain ⟨a, ha, hstored⟩ := List.mem_filterMap.mp hmsg
  have htrace := pipeline_graphTrace env topic s w
  generalize (pipeline env topic s w).trace = full at hpre htrace
  have hnotLoad : ∀ b, LoadStageAct b → assistantAppend b = none := by
    intro b hb
    cases b <;> first | rfl | exact hb.elim
  have hnotFront : ∀ b, FrontAct b → assistantAppend b = none := by
    intro b hb
    cases b <;> first | rfl | exact hb.elim
  cases htrace with
  | unloaded hload =>
      rw [hnotLoad a (hload a (hpre.subset ha))] at hstored
      cases hstored
  | @loaded load ts s₁ r w₁ hload hsame hway =>
      have hquiet : ∀ b ∈ ts, assistantAppend b = none := by
        intro b hb
        cases hway with
        | unanswered hts => exact hnotFront b (hts b hb)
        | rejected hfront hsame =>
            rcases List.mem_append.mp hb with hb | hb
            · exact hnotFront b (hfront b hb)
            · simp only [List.mem_cons, List.not_mem_nil, or_false] at hb
              rcases hb with rfl | rfl | rfl <;> rfl
        | adapted routed hfront hsame =>
            rcases List.mem_append.mp hb with hb | hb
            · exact hnotFront b (hfront b hb)
            · simp only [List.mem_cons, List.mem_append, List.not_mem_nil, or_false] at hb
              rcases hb with rfl | hb | rfl
              · rfl
              · rcases mem_adapterTrace hb with ⟨ev, rfl⟩ | ⟨k, rfl⟩ | rfl <;> rfl
              · rfl
      -- the answer is handed over after the way, so the part covers the way
      have hcovers : ∃ post, pre = load ++ (ts ++ post) ∧ post <+: persistActs env w₁ r := by
        rw [← List.append_assoc] at hpre
        rcases List.prefix_or_prefix_of_prefix hpre (List.prefix_append (load ++ ts) _) with
          hshort | ⟨post, rfl⟩
        · exfalso
          rcases List.mem_append.mp (hshort.subset ha) with hmem | hmem
          · rw [hnotLoad a (hload a hmem)] at hstored
            cases hstored
          · rw [hquiet a hmem] at hstored
            cases hstored
        · exact ⟨post, List.append_assoc _ _ _, (List.prefix_append_right_inj _).mp hpre⟩
      obtain ⟨post, rfl, hpost⟩ := hcovers
      have hpostMem : a ∈ post := by
        rcases List.mem_append.mp ha with hmem | hmem
        · rw [hnotLoad a (hload a hmem)] at hstored
          cases hstored
        · rcases List.mem_append.mp hmem with hmem | hmem
          · rw [hquiet a hmem] at hstored
            cases hstored
          · exact hmem
      cases r with
      | error e => exact (List.not_mem_nil (hpost.subset hpostMem)).elim
      | ok s' =>
          have hacts : ∀ b ∈ post, PersistStageAct s' b := fun b hb =>
            persistStage_stageActs env s' w₁ b (hpost.subset hb)
          have hact := hacts a hpostMem
          cases a with
          | append m result =>
              obtain ⟨content, hjoin, rfl⟩ := hact
              rw [assistantAppend_answer, Option.some.injEq] at hstored
              exact ⟨load, ts, post, s₁, s', content, rfl, hload, hacts, hsame, hway, hjoin,
                hstored.symm⟩
          | _ => cases hstored

end MasterAgent
