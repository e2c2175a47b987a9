/-
  MasterAgent.Core.AnswerStatus

  Is an answer stored as complete only if it is?  The persist node looks at the
  chunks and at the cancellation flag; whether the downstream failed is known in
  the adapter's attempt loop alone.  So an answer that breaks off after its
  first delta is stored as complete.
-/

import MasterAgent.Core.AnswerPath
import MasterAgent.Core.Answerable
import MasterAgent.Core.ErrorTexts
import MasterAgent.Core.Graph.AdapterDiscipline

namespace MasterAgent

open Effect StateGraph

variable {σ : Type}

-- ============================================================================
-- The status
-- ============================================================================

/-- The status of the answer: the node was cancelled, or delivered nothing. -/
theorem assistantMessage_status {s : GraphState} {u : Update} (hchunks : s.answerChunks = [])
    (hcancelled : s.streamCancelled = false) (content : PyStr) :
    (assistantMessage (s.merge u) content).status ≠ py "complete" ↔
      u.streamCancelled = some true ∨ u.answerChunks = [] := by
  have hmerged : (s.merge u).streamCancelled = u.streamCancelled.getD false := by
    show u.streamCancelled.getD s.streamCancelled = _
    rw [hcancelled]
  simp only [assistantMessage, hmerged, GraphState.merge_answerChunks, hchunks, List.nil_append]
  cases hu : u.streamCancelled with
  | none => cases u.answerChunks <;> simp
  | some flag => cases flag <;> cases u.answerChunks <;> simp

/-- The node delivers nothing exactly when no attempt it makes does. -/
theorem adapterTrace_empty_iff {adapter : DownstreamAdapter} {maxAttempts backoffMs : Nat}
    {s : GraphState} :
    (adapterTrace adapter true maxAttempts backoffMs s maxAttempts 1 []).2.answerChunks = [] ↔
      ∀ k ∈ madeFrom (fun k => (adapter.script s true k).fails) maxAttempts 1,
        (adapter.script s true k).deltas = [] := by
  obtain ⟨-, hdeltas⟩ := @adapterTrace_made adapter true maxAttempts backoffMs s maxAttempts 1
    (Nat.add_comm _ _) []
  rw [adapterTrace_answerChunks, hdeltas, List.nil_append]
  simp only [shown, if_true]
  constructor
  · intro hnone k hk
    apply List.eq_nil_iff_forall_not_mem.mpr
    intro data hdata
    obtain ⟨c, hc⟩ := deltasFrom_content hdata
    have hmem := List.filterMap_eq_nil_iff.mp hnone data (List.mem_flatMap.mpr ⟨k, hk, hdata⟩)
    rw [deltaContent_of_getItem hc] at hmem
    cases hmem
  · intro hnone
    rw [List.flatMap_eq_nil_iff.mpr hnone]
    rfl

-- ============================================================================
-- Runs
-- ============================================================================

/-- In the run `ts` the adapter node that is entered has the policy `retry`, and
    its downstream behaves as `script` says. -/
def PlaysScript (topic : CompiledTopic) (retry : Option RetryPolicy) (script : Nat → Attempt)
    (ts : List Act) : Prop :=
  ∀ node adapter, topic.adapters.get? node = some adapter → .enter node ∈ ts →
    topic.adapterRetries.get? node = retry ∧
      ∀ s k, .run s true k ∈ ts → adapter.run k s true = script k

/-- The adapter node dispatched an error event, or an attempt it made was
    cancelled. -/
def AdapterTroubled (script : Nat → Attempt) (ts : List Act) : Prop :=
  (∃ ev, .emit ev ∈ ts ∧ ev.type = .error) ∨
    ∃ s output k, .run s output k ∈ ts ∧ (script k).cancels = true

/-- After trouble no answer is handed to the repository as complete. -/
def StatusTruthful (script : Nat → Attempt) (ts : List Act) : Prop :=
  AdapterTroubled script ts →
    ∀ msg ∈ word assistantAppend ts, msg.status ≠ py "complete"

/-- When the last attempt fails, no attempt has delivered a delta before, or one
    has delivered a delta that is no text. -/
def FailsEmpty (maxAttempts : Nat) (script : Nat → Attempt) : Prop :=
  ∀ last, Made maxAttempts script last → ¬ Made maxAttempts script (last + 1) →
    (script last).errs = true →
      (∀ k, Made maxAttempts script k → (script k).deltas = []) ∨
        ∃ k data, Made maxAttempts script k ∧ data ∈ (script k).deltas ∧
          ∀ text, data.getItem (py "content") ≠ .ok (.str text)

/-- The acts that show how the answer came about. -/
def answerSees : Act → Bool
  | .emit _ => true
  | .run _ _ _ => true
  | .enter _ => true
  | .append msg _ => msg.role = py "assistant"
  | _ => false

theorem answerSees_graphSelection (req : ChatRequest) : GraphSelection req answerSees where
  noYield := fun _ => rfl
  noUser := fun a ha => by
    cases a with
    | append msg r =>
        obtain ⟨messageId, rfl⟩ := ha
        simp [answerSees, userMessage]
    | _ => first | rfl | exact ha.elim

/-- The graph's part of a run has all of these acts. -/
theorem GraphPart.mem_iff {req : ChatRequest} {errorMessages : Dict PyStr PyStr}
    {full pre ts : List Act} (h : GraphPart req errorMessages full pre ts) {a : Act}
    (ha : answerSees a = true) : a ∈ ts ↔ a ∈ pre := by
  have hsel := h.acts answerSees (answerSees_graphSelection req)
  constructor
  · intro hmem
    have hfilter := List.mem_filter.mpr ⟨hmem, ha⟩
    rw [hsel] at hfilter
    exact List.mem_of_mem_filter hfilter
  · intro hmem
    exact h.sublist.subset hmem

-- ============================================================================
-- A script that fails empty
-- ============================================================================

/-- The run of a node whose downstream behaves as the script: the attempts made
    are those of the script. -/
theorem made_of_plays {adapter : DownstreamAdapter} {maxAttempts backoffMs : Nat} {s : GraphState}
    {script : Nat → Attempt}
    (hplays : ∀ k, .run s true k ∈
      (adapterTrace adapter true maxAttempts backoffMs s maxAttempts 1 []).1 →
        adapter.run k s true = script k) :
    madeFrom (fun k => (adapter.script s true k).fails) maxAttempts 1
        = madeFrom (fun k => (script k).fails) maxAttempts 1 ∧
      ∀ k ∈ madeFrom (fun k => (script k).fails) maxAttempts 1,
        adapter.script s true k = script k := by
  obtain ⟨hmade, -⟩ := @adapterTrace_made adapter true maxAttempts backoffMs s maxAttempts 1
    (Nat.add_comm _ _) []
  have hsame : ∀ k ∈ madeFrom (fun k => (adapter.script s true k).fails) maxAttempts 1,
      adapter.script s true k = script k := by
    intro k hk
    rw [← hmade] at hk
    obtain ⟨a, ha, hrun⟩ := List.mem_filterMap.mp hk
    rcases mem_adapterTrace ha with ⟨ev, rfl⟩ | ⟨j, rfl⟩ | rfl
    · cases hrun
    · cases hrun
      exact hplays k ha
    · cases hrun
  have hcongr := madeFrom_congr fun k hk => congrArg Attempt.fails (hsame k hk)
  exact ⟨hcongr, hcongr ▸ hsame⟩

/-- The attempts of the node are those its acts show. -/
theorem made_of_run {adapter : DownstreamAdapter} {maxAttempts backoffMs : Nat}
    {s s' : GraphState} {output : Bool} {k : Nat}
    (h : .run s' output k ∈
      (adapterTrace adapter true maxAttempts backoffMs s maxAttempts 1 []).1) :
    k ∈ madeFrom (fun k => (adapter.script s true k).fails) maxAttempts 1 := by
  obtain ⟨hmade, -⟩ := @adapterTrace_made adapter true maxAttempts backoffMs s maxAttempts 1
    (Nat.add_comm _ _) []
  rw [← hmade]
  exact List.mem_filterMap.mpr ⟨_, h, rfl⟩

/-- A node in trouble whose script fails empty: what it returns is not stored as
    complete. -/
theorem adapterTrace_truthful {adapter : DownstreamAdapter} {maxAttempts backoffMs : Nat}
    {s : GraphState} {script : Nat → Attempt} (hmax : 1 ≤ maxAttempts)
    (hplays : ∀ k, .run s true k ∈
      (adapterTrace adapter true maxAttempts backoffMs s maxAttempts 1 []).1 →
        adapter.run k s true = script k)
    (htrouble : AdapterTroubled script
      (adapterTrace adapter true maxAttempts backoffMs s maxAttempts 1 []).1)
    (hempty : FailsEmpty maxAttempts script)
    (hjoin : ∃ content, Json.join (adapterTrace adapter true maxAttempts backoffMs s maxAttempts 1
      []).2.answerChunks = .ok content) :
    (adapterTrace adapter true maxAttempts backoffMs s maxAttempts 1 []).2.streamCancelled
        = some true ∨
      (adapterTrace adapter true maxAttempts backoffMs s maxAttempts 1 []).2.answerChunks = [] := by
  obtain ⟨hmade, hscript⟩ := made_of_plays hplays
  rcases htrouble with ⟨ev, hev, htype⟩ | ⟨s', output, k, hk, hcancels⟩
  · obtain ⟨last, hlast, herror⟩ := @adapterTrace_errorLast adapter true maxAttempts backoffMs s
      maxAttempts 1 (Nat.add_comm _ _) hmax []
    rw [hmade] at hlast
    have hmem := List.mem_of_getLast? hlast
    have herrs := herror.mem_iff.mp ⟨ev, mem_dispatched.mpr hev, htype⟩
    rw [hscript last hmem] at herrs
    obtain ⟨hmadeLast, hnone⟩ := getLast?_madeFrom_one.mp hlast
    right
    rw [adapterTrace_empty_iff, hmade]
    rcases hempty last hmadeLast hnone herrs with hall | ⟨k, data, hk, hdata, hnotext⟩
    · intro k hk
      rw [hscript k hk]
      exact hall k (mem_madeFrom_one.mp hk)
    · rw [adapterTrace_joins_iff, hmade] at hjoin
      have hk := mem_madeFrom_one.mpr hk
      obtain ⟨text, htext⟩ := hjoin k hk data (by rwa [hscript k hk])
      exact absurd htext (hnotext text)
  · have hk := made_of_run hk
    rw [hmade] at hk
    have hmadeK := mem_madeFrom_one.mp hk
    obtain ⟨last, hlast, hflag⟩ := @adapterTrace_streamCancelled adapter true maxAttempts
      backoffMs s maxAttempts 1 (Nat.add_comm _ _) hmax []
    have hlastK := getLast?_madeFrom_one.mpr ⟨hmadeK, hmadeK.last_of_cancels hcancels⟩
    rw [hmade, hlastK, Option.some.injEq] at hlast
    left
    rw [hflag, ← hlast, hscript k hk]
    exact hcancels

/-- The act is no part of an adapter's trouble. -/
def Act.Untroubled (a : Act) : Prop :=
  (∀ ev, a = .emit ev → ev.type ≠ .error) ∧ ∀ s output k, a ≠ .run s output k

theorem untroubled_enter (n : PyStr) : (Act.enter n).Untroubled := by
  constructor
  · intro ev h
    cases h
  · intro s output k h
    cases h

theorem untroubled_write (n : PyStr) (u : Update) : (Act.write n u).Untroubled := by
  constructor
  · intro ev h
    cases h
  · intro s output k h
    cases h

theorem untroubled_rejectDelta (text : PyStr) : (Act.emit (rejectDelta text)).Untroubled := by
  constructor
  · rintro ev h
    cases h
    exact fun htype => by cases htype
  · intro s output k h
    cases h

theorem FrontAct.untroubled {a : Act} (h : FrontAct a) : a.Untroubled := by
  constructor
  · rintro ev rfl htype
    rcases h with h | h <;> rw [htype] at h <;> cases h
  · rintro s output k rfl
    exact h

theorem not_adapterTroubled {script : Nat → Attempt} {ts : List Act}
    (h : ∀ a ∈ ts, a.Untroubled) : ¬ AdapterTroubled script ts := by
  rintro (⟨ev, hev, htype⟩ | ⟨s, output, k, hk, -⟩)
  · exact (h _ hev).1 ev rfl htype
  · exact (h _ hk).2 s output k rfl

/-- The trouble in a run is that of its adapter node. -/
theorem AdapterTroubled.of_append {script : Nat → Attempt} {us ts vs : List Act}
    (h : AdapterTroubled script (us ++ (ts ++ vs)))
    (hus : ∀ a ∈ us, a.Untroubled) (hvs : ∀ a ∈ vs, a.Untroubled) :
    AdapterTroubled script ts := by
  rcases h with ⟨ev, hev, htype⟩ | ⟨s, output, k, hk, hcancels⟩
  · rcases List.mem_append.mp hev with hev | hev
    · exact absurd htype ((hus _ hev).1 ev rfl)
    · rcases List.mem_append.mp hev with hev | hev
      · exact Or.inl ⟨ev, hev, htype⟩
      · exact absurd htype ((hvs _ hev).1 ev rfl)
  · rcases List.mem_append.mp hk with hk | hk
    · exact absurd rfl ((hus _ hk).2 s output k)
    · rcases List.mem_append.mp hk with hk | hk
      · exact Or.inr ⟨s, output, k, hk, hcancels⟩
      · exact absurd rfl ((hvs _ hk).2 s output k)

theorem LoadStageAct.untroubled {a : Act} (h : LoadStageAct a) : a.Untroubled := by
  constructor
  · rintro ev rfl
    exact h.elim
  · rintro s output k rfl
    exact h

theorem PersistStageAct.untroubled {s' : GraphState} {a : Act} (h : PersistStageAct s' a) :
    a.Untroubled := by
  constructor
  · rintro ev rfl
    exact h.elim
  · rintro s output k rfl
    exact h

/-- A script that fails empty is never stored as a complete answer. -/
theorem handle_truthful {retry : Option RetryPolicy} {script : Nat → Attempt}
    (hempty : FailsEmpty (maxAttempts retry) script) {env : Env σ} {topics : TopicRegistry}
    {topic : CompiledTopic} {req : ChatRequest} {w : σ} (ht : topics.get req.bizId = some topic)
    (hplays : PlaysScript topic retry script (handle env topics req w).trace) :
    StatusTruthful script (handle env topics req w).trace := by
  intro htrouble msg hmsg
  obtain ⟨w', pre, hpart, -⟩ := @handle_graphPart σ env topics req topic ht w
  generalize (handle env topics req w).trace = ts at hplays htrouble hmsg hpart
  have hpre : AdapterTroubled script pre := by
    rcases htrouble with ⟨ev, hev, htype⟩ | ⟨s, output, k, hk, hcancels⟩
    · exact Or.inl ⟨ev, (hpart.mem_iff rfl).mp hev, htype⟩
    · exact Or.inr ⟨s, output, k, (hpart.mem_iff rfl).mp hk, hcancels⟩
  have hstored : msg ∈ word assistantAppend pre := by
    obtain ⟨a, ha, hstored⟩ := List.mem_filterMap.mp hmsg
    have hsees : answerSees a = true := by
      cases a with
      | append m r =>
          by_contra hrole
          have hother : m.role ≠ py "assistant" := by simpa [answerSees] using hrole
          simp [assistantAppend, hother] at hstored
      | _ => cases hstored
    exact List.mem_filterMap.mpr ⟨a, (hpart.mem_iff hsees).mp ha, hstored⟩
  obtain ⟨load, way, post, s₁, s', content, hsplit, hload, hpost, hsame, hway, hjoin, rfl⟩ :=
    assistantAppend_of_prefix hpart.isPrefix hstored
  have hmem : ∀ a ∈ way, a ∈ pre := by
    intro a ha
    rw [hsplit]
    exact List.mem_append_right _ (List.mem_append_left _ ha)
  have hchunks : s₁.answerChunks = [] := hsame.answerChunks
  have hcancelled : s₁.streamCancelled = false := hsame.streamCancelled
  rw [hsplit] at hpre
  have hwayTrouble := hpre.of_append (fun a ha => (hload a ha).untroubled)
    fun a ha => (hpost a ha).untroubled
  cases hway with
  | @rejected front s₂ hfront hsame₂ =>
      -- a rejection meets no trouble
      refine absurd hwayTrouble (not_adapterTroubled fun a ha => ?_)
      rcases List.mem_append.mp ha with ha | ha
      · exact (hfront a ha).untroubled
      · simp only [List.mem_cons, List.not_mem_nil, or_false] at ha
        rcases ha with rfl | rfl | rfl
        · exact untroubled_enter _
        · exact untroubled_rejectDelta _
        · exact untroubled_write _ _
  | @adapted front s₂ routed hfront hsame₂ =>
      have henter : .enter routed.node ∈ ts := by
        apply (hpart.mem_iff rfl).mpr
        apply hmem
        exact List.mem_append_right _ List.mem_cons_self
      obtain ⟨hretry, hruns⟩ := hplays routed.node routed.adapter routed.isAdapter henter
      have hnode : AdapterTroubled script
          (topic.adapterTrace routed.node routed.adapter s₂).1 := by
        have hcons := List.append_cons front (.enter routed.node)
          ((topic.adapterTrace routed.node routed.adapter s₂).1 ++
            [.write routed.node (topic.adapterTrace routed.node routed.adapter s₂).2])
        rw [hcons] at hwayTrouble
        refine hwayTrouble.of_append (fun a ha => ?_) fun a ha => ?_
        · rcases List.mem_append.mp ha with ha | ha
          · exact (hfront a ha).untroubled
          · rw [List.mem_singleton.mp ha]
            exact untroubled_enter _
        · rw [List.mem_singleton.mp ha]
          exact untroubled_write _ _
      have hplay : ∀ k, .run s₂ true k ∈ (topic.adapterTrace routed.node routed.adapter s₂).1 →
          routed.adapter.run k s₂ true = script k := by
        intro k hk
        apply hruns
        apply (hpart.mem_iff rfl).mpr
        apply hmem
        exact List.mem_append_right _ (List.mem_cons_of_mem _ (List.mem_append_left _ hk))
      have hchunks₂ : s₂.answerChunks = [] := hsame₂.answerChunks.trans hchunks
      apply (assistantMessage_status hchunks₂ (hsame₂.streamCancelled.trans hcancelled) _).mpr
      rw [GraphState.merge_answerChunks, hchunks₂, List.nil_append] at hjoin
      unfold CompiledTopic.adapterTrace at hnode hplay hjoin ⊢
      rw [hretry] at hnode hplay hjoin ⊢
      exact adapterTrace_truthful (one_le_maxAttempts retry) hplay hnode hempty ⟨_, hjoin⟩

-- ============================================================================
-- A script that does not
-- ============================================================================

/-- A downstream that behaves as the script, whatever it is asked. -/
def playing (script : Nat → Attempt) : DownstreamAdapter := ⟨fun k _ _ => script k⟩

/-- The probe before such a downstream. -/
def scriptProbe (retry : Option RetryPolicy) (script : Nat → Attempt) : CompiledTopic :=
  probeTopic .empty (onlyRetry retry) (playing script)

/-- The environment of the probe, in which an abandoned graph comes to its end. -/
def patientEnv (retry : Option RetryPolicy) (script : Nat → Attempt) : Env Unit :=
  { probeEnv with
    grace := (pipeline probeEnv (scriptProbe retry script)
      (initialState (aliceAsks (py "th")) (py "msg_1")) ()).trace.length }

section Probe

variable (retry : Option RetryPolicy) (script : Nat → Attempt)

/-- The run of the probe's adapter node. -/
abbrev probeRun : List Act × Update :=
  adapterTrace (playing script) true (maxAttempts retry) (backoffMs retry) probeState
    (maxAttempts retry) 1 []

theorem scriptProbe_adapterTrace :
    (scriptProbe retry script).adapterTrace (py "kc_adapter") (playing script) probeState
      = probeRun retry script := by
  have hretry : (scriptProbe retry script).adapterRetries.get? (py "kc_adapter") = retry :=
    get?_onlyRetry retry
  rw [CompiledTopic.adapterTrace, hretry]

/-- What the graph does is done in the request. -/
theorem mem_scriptProbe {a : Act}
    (h : a ∈ (adapterStage probeEnv (scriptProbe retry script)
      ⟨py "kc_adapter", playing script, rfl⟩ probeState ()).trace) :
    a ∈ (handle (patientEnv retry script) (oneTopic (scriptProbe retry script))
      (aliceAsks (py "th")) ()).trace := by
  obtain ⟨g, hg⟩ := probe_builds .empty (onlyRetry retry) (playing script)
  rw [handle_accepted rfl rfl]
  refine Eff.mem_bind_right (a := py "msg_1") rfl ?_
  refine Eff.mem_bind_right (a := ()) rfl ?_
  refine Eff.mem_bind_right (a := .ok ()) rfl ?_
  refine Eff.mem_bind_right (a := g) ?_ ?_
  · rw [Eff.ofExcept_apply]
    exact hg
  · refine Eff.mem_bind_left (Eff.mem_bind_left ?_)
    show _ ∈ (Eff.consume _ _ _ ()).trace
    have hrun : g.run langGraph recursionLimit (initialState (aliceAsks (py "th")) (py "msg_1"))
        = pipeline probeEnv (scriptProbe retry script)
          (initialState (aliceAsks (py "th")) (py "msg_1")) := graph_run_eq_pipeline hg _
    rw [hrun]
    apply Eff.mem_consume_of_grace (Nat.le_refl _)
    exact mem_probe_of_adapterStage .empty (onlyRetry retry) (playing script) h

/-- The acts of the adapter node. -/
theorem mem_scriptProbe_of_run {a : Act} (h : a ∈ (probeRun retry script).1) :
    a ∈ (handle (patientEnv retry script) (oneTopic (scriptProbe retry script))
      (aliceAsks (py "th")) ()).trace := by
  apply mem_scriptProbe
  refine Eff.mem_bind_left (Eff.mem_bind_right (a := ()) rfl (Eff.mem_bind_left ?_))
  rw [topicAdapterNode_live, Eff.play_trace, scriptProbe_adapterTrace]
  exact h

/-- Its answer is stored. -/
theorem mem_scriptProbe_answer {content : PyStr}
    (hjoin : Json.join (probeRun retry script).2.answerChunks = .ok content) :
    .append (assistantMessage (probeState.merge (probeRun retry script).2) content) (.ok ()) ∈
      (handle (patientEnv retry script) (oneTopic (scriptProbe retry script))
        (aliceAsks (py "th")) ()).trace := by
  apply mem_scriptProbe
  rw [adapterStage_eq, Eff.play_ok_bind, Run.trace, Run.after, List.map_append, List.mem_append,
    scriptProbe_adapterTrace]
  right
  have hjoin' : Json.join (probeState.merge (probeRun retry script).2).answerChunks
      = .ok content := hjoin
  generalize probeState.merge (probeRun retry script).2 = s at hjoin' ⊢
  refine Eff.mem_bind_left ?_
  refine Eff.mem_bind_right (a := ()) rfl (Eff.mem_bind_left ?_)
  refine Eff.mem_bind_right (a := ()) rfl (Eff.mem_bind_left ?_)
  show _ ∈ (makePersistNode idleRepos s ()).trace
  rw [makePersistNode, hjoin']
  exact List.mem_cons_self

theorem scriptProbe_plays (ts : List Act) :
    PlaysScript (scriptProbe retry script) retry script ts := by
  intro node adapter hget henter
  obtain ⟨rfl, rfl⟩ : node = py "kc_adapter" ∧ adapter = playing script := by
    have hmem := Dict.mem_of_find hget
    simpa [scriptProbe, probeTopic, smallTopic] using hmem
  exact ⟨get?_onlyRetry retry, fun _ _ _ => rfl⟩

end Probe

/-- A script that delivers texts and then fails at last is stored as complete. -/
theorem scriptProbe_untruthful {retry : Option RetryPolicy} {script : Nat → Attempt}
    (htruthful : StatusTruthful script (handle (patientEnv retry script)
      (oneTopic (scriptProbe retry script)) (aliceAsks (py "th")) ()).trace) :
    FailsEmpty (maxAttempts retry) script := by
  intro last hmade hlast herrs
  by_contra hnot
  rw [not_or] at hnot
  obtain ⟨hdelta, htexts⟩ := hnot
  have hgetLast := getLast?_madeFrom_one.mpr ⟨hmade, hlast⟩
  -- the failure is shown
  have hshown : ∃ ev, .emit ev ∈ (probeRun retry script).1 ∧ ev.type = .error := by
    obtain ⟨last', hlast', herror⟩ := @adapterTrace_errorLast (playing script) true
      (maxAttempts retry) (backoffMs retry) probeState _ 1 (Nat.add_comm _ _)
      (one_le_maxAttempts retry) []
    obtain rfl : last = last' := Option.some.inj (hgetLast.symm.trans hlast')
    obtain ⟨ev, hev, htype⟩ := herror.mem_iff.mpr herrs
    exact ⟨ev, mem_dispatched.mp hev, htype⟩
  -- the deltas are texts, so they are joined and stored
  have hjoin : ∃ content, Json.join (probeRun retry script).2.answerChunks = .ok content := by
    rw [adapterTrace_joins_iff]
    intro k hk data hdata
    by_contra hnone
    apply htexts
    refine ⟨k, data, mem_madeFrom_one.mp hk, hdata, fun text htext => ?_⟩
    exact hnone ⟨text, htext⟩
  obtain ⟨content, hjoin⟩ := hjoin
  have hstored := mem_scriptProbe_answer retry script hjoin
  obtain ⟨ev, hev, htype⟩ := hshown
  have hstatus := htruthful (Or.inl ⟨ev, mem_scriptProbe_of_run retry script hev, htype⟩) _
    (List.mem_filterMap.mpr ⟨_, hstored, assistantAppend_answer _ content _⟩)
  rcases (assistantMessage_status rfl rfl content).mp hstatus with hflag | hempty
  · obtain ⟨last', hlast', hiff⟩ := @adapterTrace_streamCancelled (playing script) true
      (maxAttempts retry) (backoffMs retry) probeState _ 1 (Nat.add_comm _ _)
      (one_le_maxAttempts retry) []
    obtain rfl : last = last' := Option.some.inj (hgetLast.symm.trans hlast')
    have hcancels := hiff.mp hflag
    exact absurd herrs (cancels_not_errs hcancels)
  · rw [adapterTrace_empty_iff] at hempty
    apply hdelta
    intro k hk
    exact hempty k (mem_madeFrom_one.mpr hk)

/-- When an answer in trouble is never stored as complete, for a retry policy and
    a script of attempts: if and only if the script fails empty. -/
theorem status_truthful_iff (retry : Option RetryPolicy) (script : Nat → Attempt) :
    (∀ (σ : Type) (env : Env σ) (topics : TopicRegistry) (topic : CompiledTopic)
        (req : ChatRequest) (w : σ), topics.get req.bizId = some topic →
      PlaysScript topic retry script (handle env topics req w).trace →
        StatusTruthful script (handle env topics req w).trace) ↔
      FailsEmpty (maxAttempts retry) script := by
  constructor
  · intro h
    apply scriptProbe_untruthful
    exact h Unit (patientEnv retry script) (oneTopic (scriptProbe retry script)) _ _ () rfl
      (scriptProbe_plays retry script _)
  · intro hempty σ env topics topic req w ht hplays
    exact handle_truthful hempty ht hplays

/-- The first delta arrives, and then the downstream reports an error. -/
def brokenOff : Nat → Attempt := fun _ =>
  ⟨[deltaEvent (py "本周告警共"),
    literalEvent .error [(py "code", .str (py "DOWNSTREAM_ERROR"))]], .ok ()⟩

/-- What becomes of it. -/
def brokenOffRun : Run Unit Exn Act Unit :=
  handle (patientEnv none brokenOff) (oneTopic (scriptProbe none brokenOff))
    (aliceAsks (py "th")) ()

set_option maxRecDepth 20000 in
/-- The beginning of an answer is stored as a complete one. -/
theorem brokenOff_complete :
    PlaysScript (scriptProbe none brokenOff) none brokenOff brokenOffRun.trace ∧
      AdapterTroubled brokenOff brokenOffRun.trace ∧
      (word assistantAppend brokenOffRun.trace).map (fun msg => (msg.content, msg.status))
        = [(.str (py "本周告警共"), py "complete")] ∧
      ¬ StatusTruthful brokenOff brokenOffRun.trace := by
  have htrouble : AdapterTroubled brokenOff brokenOffRun.trace := by
    refine Or.inl ⟨literalEvent .error [(py "code", .str (py "DOWNSTREAM_ERROR"))], ?_, rfl⟩
    apply mem_scriptProbe_of_run
    exact List.mem_cons_of_mem _ (List.mem_cons_of_mem _ (List.mem_singleton.mpr rfl))
  have hstored : (word assistantAppend brokenOffRun.trace).map
      (fun msg => (msg.content, msg.status))
      = [(.str (py "本周告警共"), py "complete")] := rfl
  refine ⟨scriptProbe_plays none brokenOff _, htrouble, hstored, fun htruthful => ?_⟩
  have hmem : (Json.str (py "本周告警共"), py "complete") ∈
      (word assistantAppend brokenOffRun.trace).map (fun msg => (msg.content, msg.status)) := by
    rw [hstored]
    exact List.mem_singleton.mpr rfl
  obtain ⟨msg, hmsg, hpair⟩ := List.mem_map.mp hmem
  exact htruthful htrouble msg hmsg (congrArg Prod.snd hpair)

end MasterAgent
