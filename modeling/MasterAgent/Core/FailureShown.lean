/-
  MasterAgent.Core.FailureShown

  Is a failed downstream ever a silent empty answer?  An error event that the
  adapter node dispatches is seen before done.  But whether it dispatches one
  hangs on what the body of the response parses to: an empty body under status
  500 is an attempt that comes to its end, and the answer is stored as empty.
-/

import MasterAgent.Core.AnswerStatus
import MasterAgent.Core.Rejection
import MasterAgent.Plugins.HttpAnswers

namespace MasterAgent

open Effect StateGraph

variable {σ : Type}

-- ============================================================================
-- An error before done
-- ============================================================================

/-- The user sees an error event, and no done event in front of it. -/
def ErrorBeforeDone (ts : List Act) : Prop :=
  ∃ before ev after, word Act.yielded ts = before ++ ev :: after ∧ ev.type = .error ∧
    ∀ ev' ∈ before, ev'.type ≠ .done

/-- The act is no done event. -/
def NotDone (a : Act) : Prop := ∀ ev, a = .yield ev → ev.type ≠ .done

theorem ErrorBeforeDone.of_mem {us vs : List Act} (hdone : ∀ a ∈ us, NotDone a) {ev : ChatEvent}
    (hmem : .yield ev ∈ us) (htype : ev.type = .error) : ErrorBeforeDone (us ++ vs) := by
  obtain ⟨before, after, rfl⟩ := List.append_of_mem hmem
  refine ⟨word Act.yielded before, ev, word Act.yielded (after ++ vs), ?_, htype, ?_⟩
  · rw [List.append_assoc, List.cons_append, word_append]
    rfl
  · intro ev' hev'
    exact hdone _ (List.mem_append_left _ (mem_yielded.mp hev')) _ rfl

section Relayed

variable {env : Env σ} {topic : CompiledTopic} {s : GraphState} {w : σ}

/-- The loop yields no done event. -/
theorem relayed_notDone : ∀ a ∈ (relayed env topic s w).trace, NotDone a := by
  have hacts : (relayed env topic s).ActsOnly NotDone := by
    refine Eff.ActsOnly.consume ((pipeline_graphAct env topic s).mono fun a ha => ?_) ?_ env.grace
    · rintro ev rfl
      exact ha.elim
    · rintro a out - hrelay o ho ev rfl
      obtain ⟨ev', hev', htype⟩ := relay_not_done hrelay ho
      cases hev'
      exact htype
  exact hacts w

/-- An error the graph dispatches is yielded, or the loop raises. -/
theorem relayed_error {ev : ChatEvent} (hemit : .emit ev ∈ (relayed env topic s w).trace)
    (htype : ev.type = .error) :
    (∃ shown, .yield shown ∈ (relayed env topic s w).trace ∧ shown.type = .error) ∨
      ∃ e, (relayed env topic s w).result = .error e ∧ e.isException = true := by
  rcases Eff.consume_cases (relay topic.errorMessages) env.grace (pipeline env topic s) w with
    ⟨hreacts, -, -, htrace⟩ | ⟨pre, t, post, e, -, -, hraise, hresult, -⟩
  · left
    rw [relayed, htrace] at hemit
    obtain ⟨t, ht, hmem⟩ := List.mem_flatMap.mp hemit
    obtain ⟨out, hout⟩ := hreacts t ht
    rw [withReaction, hout] at hmem
    rcases List.mem_cons.mp hmem with rfl | hmem
    · -- the reaction to an error event is one error event
      obtain ⟨data, -, rfl⟩ := (relay_errorEvent htype).mp hout
      refine ⟨_, Eff.mem_consume hreacts ht hout (List.mem_singleton.mpr rfl), rfl⟩
    · obtain ⟨ev', hev'⟩ := (relay_yields hout).1 _ hmem
      cases hev'
  · exact Or.inr ⟨e, hresult, relay_isException hraise⟩

end Relayed

/-- After the user message: an error the graph dispatches is yielded in front of
    done. -/
theorem afterUser_shown {env : Env σ} {topic : CompiledTopic} {req : ChatRequest}
    {messageId : PyStr} {r : Except Exn Unit} {w : σ} {ev : ChatEvent}
    (hemit : .emit ev ∈ (afterUser env topic req messageId r w).trace) (htype : ev.type = .error) :
    ∃ us vs shown, (afterUser env topic req messageId r w).trace = us ++ vs ∧
      (∀ a ∈ us, NotDone a) ∧ .yield shown ∈ us ∧ shown.type = .error := by
  cases r with
  | error e =>
      cases e with
      | sessionBizMismatch detail =>
          simp only [afterUser, Eff.act_eq_play, Eff.play_ok_bind_play, Eff.play_trace] at hemit
          simp at hemit
      | _ => exact (List.not_mem_nil hemit).elim
  | ok u =>
      cases hbuild : buildGraph env topic with
      | error e =>
          simp only [afterUser, hbuild] at hemit
          exact (List.not_mem_nil hemit).elim
      | ok g =>
          have hnotDone := @relayed_notDone σ env topic (initialState req messageId) w
          cases hr : (relayed env topic (initialState req messageId) w).result with
          | ok u =>
              have hloop := @chatLoop_of_ok σ env topic req g messageId w hbuild hr
              rw [afterUser_ok hbuild (hloop ▸ hr), hloop, Run.trace, List.map_append] at hemit ⊢
              have hemit := (List.mem_append.mp hemit).resolve_right (by simp)
              rcases relayed_error hemit htype with ⟨shown, hshown, herror⟩ | ⟨e, he, -⟩
              · exact ⟨_, _, shown, rfl, hnotDone, hshown, herror⟩
              · rw [hr] at he
                cases he
          | error e =>
              cases he : e.isException with
              | true =>
                  -- the internal error is the one that is seen
                  have hloop := @chatLoop_of_error σ env topic req g messageId w hbuild e hr he
                  have hres : (chatLoop env topic req g messageId w).result = .ok () := by
                    rw [hloop]
                  rw [afterUser_ok hbuild hres, hloop, Run.trace, List.map_append, List.map_append]
                  refine ⟨_, _, internalError req topic, rfl, ?_,
                    List.mem_append_right _ (List.mem_singleton.mpr rfl), rfl⟩
                  refine List.forall_mem_append.mpr ⟨hnotDone, List.forall_mem_singleton.mpr ?_⟩
                  rintro ev' ⟨⟩
                  simp
              | false =>
                  rw [Exn.isException_eq_false.mp he] at hr
                  have hloop := @chatLoop_of_cancelled σ env topic req g messageId w hbuild hr
                  have hres : (chatLoop env topic req g messageId w).result
                      = .error .cancelled := by rw [hloop]
                  rw [afterUser_error hbuild hres, hloop] at hemit ⊢
                  rcases relayed_error hemit htype with ⟨shown, hshown, herror⟩ | ⟨e', he', hexc⟩
                  · exact ⟨_, [], shown, (List.append_nil _).symm, hnotDone, hshown, herror⟩
                  · rw [hr, Except.error.injEq] at he'
                    rw [← he'] at hexc
                    cases hexc

/-- An error the graph dispatches in a request is seen before done. -/
theorem handle_error_before_done {env : Env σ} {topics : TopicRegistry} {req : ChatRequest}
    {topic : CompiledTopic} {w : σ} (ht : topics.get req.bizId = some topic) {ev : ChatEvent}
    (hemit : .emit ev ∈ (handle env topics req w).trace) (htype : ev.type = .error) :
    ErrorBeforeDone (handle env topics req w).trace := by
  cases hacc : topic.bizParamsModel.accepts req.bizParams with
  | false =>
      rw [handle_invalid ht hacc, Eff.play_trace] at hemit
      simp at hemit
  | true =>
      rw [handle_accepted_trace ht hacc] at hemit ⊢
      have huser := persistUserMessage_acts env req (afterAssistantId env w)
      have hfront : ∀ a ∈ Act.yield (metaEvent req (assistantId env w)) ::
          (persistUserMessage env req (afterAssistantId env w)).trace,
          NotDone a ∧ a ≠ .emit ev := by
        intro a ha
        rcases List.mem_cons.mp ha with rfl | ha
        · refine ⟨?_, fun h => by cases h⟩
          rintro ev' ⟨⟩
          simp
        · have hact := huser a ha
          refine ⟨?_, ?_⟩
          · rintro ev' rfl
            exact hact.elim
          · rintro rfl
            exact hact.elim
      generalize Act.yield (metaEvent req (assistantId env w)) ::
        (persistUserMessage env req (afterAssistantId env w)).trace = front at hemit hfront ⊢
      have hemit := (List.mem_append.mp hemit).resolve_left fun h => (hfront _ h).2 rfl
      obtain ⟨us, vs, shown, htrace, hus, hshown, herror⟩ := afterUser_shown hemit htype
      rw [htrace, ← List.append_assoc]
      refine ErrorBeforeDone.of_mem ?_ (List.mem_append_right _ hshown) herror
      exact List.forall_mem_append.mpr ⟨fun a ha => (hfront a ha).1, hus⟩

-- ============================================================================
-- A script that tells of its failures
-- ============================================================================

/-- In the run the failure of the downstream is shown: where it is asked at all, no
    attempt yields a delta and the user sees an error event before done. -/
def FailureShown (script : Nat → Attempt) (ts : List Act) : Prop :=
  ∀ s output k, .run s output k ∈ ts →
    (∀ ev ∈ (script k).events, ev.type ≠ .delta) ∧ ErrorBeforeDone ts

/-- No attempt that is made yields a delta, and the last one fails. -/
structure Tells (maxAttempts : Nat) (script : Nat → Attempt) : Prop where
  noDelta : ∀ k, Made maxAttempts script k → ∀ ev ∈ (script k).events, ev.type ≠ .delta
  errs : ∀ last, Made maxAttempts script last → ¬ Made maxAttempts script (last + 1) →
    (script last).errs = true

section Part

variable {adapter : DownstreamAdapter} {maxAttempts backoffMs : Nat} {s : GraphState}
  {script : Nat → Attempt}

theorem mem_attemptsRun {acts : List Act} {k : Nat} :
    k ∈ attemptsRun acts ↔ ∃ s output, .run s output k ∈ acts := by
  constructor
  · intro hk
    obtain ⟨a, ha, hrun⟩ := List.mem_filterMap.mp hk
    cases a with
    | run s output j =>
        cases hrun
        exact ⟨s, output, ha⟩
    | _ => cases hrun
  · rintro ⟨s, output, hk⟩
    exact List.mem_filterMap.mpr ⟨_, hk, rfl⟩

/-- The attempts in a part of the node's run are attempts of the script. -/
theorem made_of_part {part : List Act}
    (hpart : part <+:
      (adapterTrace adapter true maxAttempts backoffMs s maxAttempts 1 []).1)
    (hplays : ∀ k, .run s true k ∈ part → adapter.run k s true = script k) {k : Nat}
    (hk : k ∈ attemptsRun part) : Made maxAttempts script k := by
  obtain ⟨hmade, -⟩ := @adapterTrace_made adapter true maxAttempts backoffMs s maxAttempts 1
    (Nat.add_comm _ _) []
  have hbegin : attemptsRun part <+:
      madeFrom (fun k => (adapter.script s true k).fails) maxAttempts 1 :=
    hmade ▸ hpart.filterMap _
  obtain ⟨hrange, -⟩ :=
    madeFrom_eq_range' (fun k => (adapter.script s true k).fails) maxAttempts 1
  obtain ⟨hone, hle, hfails⟩ := mem_madeFrom_one.mp (hbegin.subset hk)
  refine ⟨hone, hle, fun j hj hjk => ?_⟩
  -- the attempts before `k` are made before it, so they are in the part
  have hmem : j ∈ attemptsRun part := by
    rw [hrange] at hbegin
    obtain ⟨rest, hsplit⟩ := hbegin
    obtain ⟨n, -, hfirst, -⟩ := List.range'_eq_append_iff.mp hsplit.symm
    rw [hfirst, List.mem_range'_1] at hk ⊢
    omega
  obtain ⟨s', output, hrun⟩ := mem_attemptsRun.mp hmem
  have hshape := mem_adapterTrace (hpart.subset hrun)
  simp only [reduceCtorEq, exists_false, Act.run.injEq, false_or, or_false] at hshape
  obtain ⟨i, rfl, rfl, rfl⟩ := hshape
  rw [← hplays j hrun]
  exact hfails j hj hjk

end Part

/-- What a beginning of three parts has of the middle one. -/
theorem part_of_prefix {α : Type} {pre us ts vs : List α} (h : pre <+: us ++ (ts ++ vs)) :
    pre <+: us ∨ ∃ part rest, pre = us ++ (part ++ rest) ∧ part <+: ts ∧ rest <+: vs ∧
      (part = ts ∨ rest = []) := by
  rcases List.prefix_or_prefix_of_prefix h (List.prefix_append us _) with
    hshort | ⟨behind, rfl⟩
  · exact Or.inl hshort
  · right
    have hbehind := (List.prefix_append_right_inj us).mp h
    rcases List.prefix_or_prefix_of_prefix hbehind (List.prefix_append ts _) with
      hshort | ⟨rest, rfl⟩
    · exact ⟨behind, [], by simp, hshort, List.nil_prefix, Or.inr rfl⟩
    · exact ⟨ts, rest, rfl, List.prefix_refl ts, (List.prefix_append_right_inj ts).mp hbehind,
        Or.inl rfl⟩

/-- The run of the adapter node in a part of a graph run. -/
structure AdapterPart (topic : CompiledTopic) (full pre : List Act) (node : PyStr)
    (adapter : DownstreamAdapter) (s : GraphState) (part : List Act) : Prop where
  isAdapter : topic.adapters.get? node = some adapter
  entered : .enter node ∈ pre
  begins : part <+: (topic.adapterTrace node adapter s).1
  subset : ∀ a ∈ part, a ∈ pre
  runs : ∀ s' output k, .run s' output k ∈ pre → .run s' output k ∈ part
  whole : pre = full → part = (topic.adapterTrace node adapter s).1

/-- Where the run of an adapter node stands between acts that show no trouble, a
    beginning with a run of the downstream has part of it. -/
theorem adapterPart_between {topic : CompiledTopic} {node : PyStr} {adapter : DownstreamAdapter}
    (hadapter : topic.adapters.get? node = some adapter) {before behind pre : List Act}
    {s : GraphState} (hbefore : ∀ a ∈ before, a.Untroubled) (hentered : .enter node ∈ before)
    (hbehind : ∀ a ∈ behind, a.Untroubled)
    (hpre : pre <+: before ++ ((topic.adapterTrace node adapter s).1 ++ behind))
    {s' : GraphState} {output : Bool} {k : Nat} (hrun : .run s' output k ∈ pre) :
    ∃ part, AdapterPart topic (before ++ ((topic.adapterTrace node adapter s).1 ++ behind)) pre
      node adapter s part := by
  rcases part_of_prefix hpre with hshort | ⟨part, rest, rfl, hpart, hrest, hend⟩
  · exact absurd rfl ((hbefore _ (hshort.subset hrun)).2 s' output k)
  · refine ⟨part, hadapter, List.mem_append_left _ hentered, hpart, ?_, ?_, ?_⟩
    · exact fun a ha => List.mem_append_right _ (List.mem_append_left _ ha)
    · intro s' output k hmem
      rcases List.mem_append.mp hmem with hmem | hmem
      · exact absurd rfl ((hbefore _ hmem).2 s' output k)
      · rcases List.mem_append.mp hmem with hmem | hmem
        · exact hmem
        · exact absurd rfl ((hbehind _ (hrest.subset hmem)).2 s' output k)
    · intro hwhole
      rcases hend with rfl | rfl
      · rfl
      · rw [List.append_cancel_left_eq, List.append_nil] at hwhole
        exact hpart.eq_of_length_le (by rw [hwhole]; simp)

theorem adapterPart_of_run {env : Env σ} {topic : CompiledTopic} {s : GraphState} {w : σ}
    {pre : List Act} (hpre : pre <+: (pipeline env topic s w).trace) {s' : GraphState}
    {output : Bool} {k : Nat} (hrun : .run s' output k ∈ pre) :
    ∃ node adapter s₁ part,
      AdapterPart topic (pipeline env topic s w).trace pre node adapter s₁ part := by
  have htrace := pipeline_graphTrace env topic s w
  generalize (pipeline env topic s w).trace = full at hpre htrace ⊢
  have hnone : ∀ {ts : List Act}, (∀ a ∈ ts, a.Untroubled) → .run s' output k ∉ ts := by
    intro ts hts hmem
    exact (hts _ hmem).2 s' output k rfl
  cases htrace with
  | unloaded hload =>
      exact absurd (hpre.subset hrun) (hnone fun a ha => (hload a ha).untroubled)
  | @loaded load ts s₁ r w₁ hload hsame hway =>
      have hpersist : ∀ a ∈ persistActs env w₁ r, a.Untroubled := by
        intro a ha
        cases r with
        | error e => exact (List.not_mem_nil ha).elim
        | ok s' => exact (persistStage_stageActs env s' w₁ a ha).untroubled
      generalize persistActs env w₁ r = post at hpre hpersist ⊢
      have hts : .run s' output k ∈ ts := by
        rcases List.mem_append.mp (hpre.subset hrun) with hmem | hmem
        · exact absurd hmem (hnone fun a ha => (hload a ha).untroubled)
        · exact (List.mem_append.mp hmem).resolve_right (hnone hpersist)
      cases hway with
      | unanswered hfront => exact absurd hts (hnone fun a ha => (hfront a ha).untroubled)
      | rejected hfront hsame =>
          rcases List.mem_append.mp hts with hmem | hmem
          · exact absurd hmem (hnone fun a ha => (hfront a ha).untroubled)
          · simp at hmem
      | @adapted front s₂ routed hfront hsame =>
          have hshape : load ++ ((front ++ .enter routed.node ::
              ((topic.adapterTrace routed.node routed.adapter s₂).1 ++
                [.write routed.node (topic.adapterTrace routed.node routed.adapter s₂).2])) ++ post)
            = (load ++ front ++ [.enter routed.node]) ++
              ((topic.adapterTrace routed.node routed.adapter s₂).1 ++
                (.write routed.node (topic.adapterTrace routed.node routed.adapter s₂).2 ::
                  post)) := by
            simp
          have hbefore : ∀ a ∈ load ++ front ++ [.enter routed.node], a.Untroubled := by
            refine List.forall_mem_append.mpr ⟨List.forall_mem_append.mpr ⟨?_, ?_⟩, ?_⟩
            · exact fun a ha => (hload a ha).untroubled
            · exact fun a ha => (hfront a ha).untroubled
            · exact List.forall_mem_singleton.mpr (untroubled_enter _)
          have hbehind : ∀ a ∈
              .write routed.node (topic.adapterTrace routed.node routed.adapter s₂).2 :: post,
              a.Untroubled :=
            List.forall_mem_cons.mpr ⟨untroubled_write _ _, hpersist⟩
          rw [hshape] at hpre ⊢
          obtain ⟨part, hpart⟩ := adapterPart_between routed.isAdapter hbefore (by simp) hbehind
            hpre hrun
          exact ⟨_, _, _, part, hpart⟩

/-- A script that tells of its failures is shown to fail in every run. -/
theorem handle_shown {retry : Option RetryPolicy} {script : Nat → Attempt}
    (htells : Tells (maxAttempts retry) script) {env : Env σ} {topics : TopicRegistry}
    {topic : CompiledTopic} {req : ChatRequest} {w : σ} (ht : topics.get req.bizId = some topic)
    (hplays : PlaysScript topic retry script (handle env topics req w).trace) :
    FailureShown script (handle env topics req w).trace := by
  intro s output k hrun
  obtain ⟨w', pre, hpart, -⟩ := @handle_graphPart σ env topics req topic ht w
  have hmem : ∀ {s output k}, .run s output k ∈ (handle env topics req w).trace ↔
      .run s output k ∈ pre := hpart.mem_iff rfl
  obtain ⟨node, adapter, s₁, part, hnode⟩ := adapterPart_of_run hpart.isPrefix (hmem.mp hrun)
  obtain ⟨hretry, hscript⟩ := hplays node adapter hnode.isAdapter
    ((hpart.mem_iff rfl).mpr hnode.entered)
  have hbegin := hnode.begins
  have hwhole := hnode.whole
  unfold CompiledTopic.adapterTrace at hbegin hwhole
  rw [hretry] at hbegin hwhole
  have hplay : ∀ k, .run s₁ true k ∈ part → adapter.run k s₁ true = script k := fun k hk =>
    hscript s₁ k (hmem.mpr (hnode.subset _ hk))
  have hmade : ∀ {k}, k ∈ attemptsRun part → Made (maxAttempts retry) script k :=
    made_of_part hbegin hplay
  refine ⟨htells.noDelta k (hmade (mem_attemptsRun.mpr ⟨_, _, hnode.runs _ _ _ (hmem.mp hrun)⟩)),
    ?_⟩
  suffices hemit : ∃ ev, .emit ev ∈ pre ∧ ev.type = .error by
    obtain ⟨ev, hev, htype⟩ := hemit
    exact handle_error_before_done ht ((hpart.mem_iff rfl).mpr hev) htype
  rcases hpart.cut with hnil | hfull | hcut
  · have hentered := hnode.entered
    rw [hnil] at hentered
    exact absurd hentered List.not_mem_nil
  · -- the node came to its end, so its last attempt is shown
    rw [hwhole hfull] at hplay
    obtain ⟨hsame, hscript⟩ := made_of_plays hplay
    obtain ⟨last, hlast, herror⟩ := @adapterTrace_errorLast adapter true (maxAttempts retry)
      (backoffMs retry) s₁ _ 1 (Nat.add_comm _ _) (one_le_maxAttempts retry) []
    rw [hsame] at hlast
    obtain ⟨hmadeLast, hnone⟩ := getLast?_madeFrom_one.mp hlast
    rw [hscript last (List.mem_of_getLast? hlast)] at herror
    obtain ⟨ev, hev, htype⟩ := herror.mem_iff.mpr (htells.errs last hmadeLast hnone)
    exact ⟨ev, hnode.subset _ (hwhole hfull ▸ mem_dispatched.mp hev), htype⟩
  · exact hcut

-- ============================================================================
-- A script that keeps silent
-- ============================================================================

/-- Without a delta event an attempt delivers nothing. -/
theorem deltasFrom_eq_nil {events : List ChatEvent} (h : ∀ ev ∈ events, ev.type ≠ .delta) :
    deltasFrom events = [] := by
  induction events with
  | nil => rfl
  | cons ev events ih =>
      obtain ⟨hev, hevents⟩ := List.forall_mem_cons.mp h
      rw [deltasFrom]
      cases htype : ev.type with
      | delta => exact absurd htype hev
      | error => rfl
      | _ => exact ih hevents

section Silent

variable {retry : Option RetryPolicy} {script : Nat → Attempt}

/-- The adapter node of the probe dispatches no error. -/
theorem silent_unerring
    (hsilent : ∀ last, Made (maxAttempts retry) script last →
      ¬ Made (maxAttempts retry) script (last + 1) → (script last).errs = false)
    (s : GraphState) :
    ∀ a ∈ ((scriptProbe retry script).adapterTrace (py "kc_adapter") (playing script) s).1,
      a.unerring := by
  have hretry : (scriptProbe retry script).adapterRetries.get? (py "kc_adapter") = retry :=
    get?_onlyRetry retry
  rw [CompiledTopic.adapterTrace, hretry]
  obtain ⟨last, hlast, herror⟩ := @adapterTrace_errorLast (playing script) true
    (maxAttempts retry) (backoffMs retry) s _ 1 (Nat.add_comm _ _) (one_le_maxAttempts retry) []
  have hmade : (madeFrom (fun k => (script k).fails) (maxAttempts retry) 1).getLast? = some last :=
    hlast
  obtain ⟨hmadeLast, hnone⟩ := getLast?_madeFrom_one.mp hmade
  have herrs : (script last).errs = false := hsilent last hmadeLast hnone
  intro a ha
  cases a with
  | emit ev =>
      intro htype
      have hmem := herror.mem_iff.mp ⟨ev, mem_dispatched.mpr ha, htype⟩
      have hfalse : (script last).errs = true := hmem
      rw [herrs] at hfalse
      cases hfalse
  | yield ev =>
      rcases mem_adapterTrace ha with ⟨ev', h⟩ | ⟨k, h⟩ | h <;> cases h
  | _ => trivial

/-- So the graph of the probe dispatches none. -/
theorem silent_pipeline
    (hsilent : ∀ last, Made (maxAttempts retry) script last →
      ¬ Made (maxAttempts retry) script (last + 1) → (script last).errs = false) :
    ∀ a ∈ (pipeline probeEnv (scriptProbe retry script)
      (initialState (aliceAsks (py "th")) (py "msg_1")) ()).trace, a.unerring := by
  have hself : NodesCoupled (fun t u => t.unerring ∧ t = u) Eq probeEnv (scriptProbe retry script)
      ((scriptProbe retry script).mapAdapters fun _ a => a) := by
    refine nodesCoupled_mapAdapters (fun t h => ⟨h, rfl⟩) fun n a s ha => ?_
    refine ⟨(List.forall₂_and_left _ _).mpr ⟨?_, List.forall₂_same.mpr fun _ _ => rfl⟩, rfl⟩
    obtain ⟨rfl, rfl⟩ : n = py "kc_adapter" ∧ a = playing script := by
      have hmem := Dict.mem_of_find ha
      simpa [scriptProbe, probeTopic, smallTopic] using hmem
    exact silent_unerring hsilent s
  exact ((List.forall₂_and_left _ _).mp ((hself.pipeline rfl).trace ())).1

/-- A bind returns what its second half returns. -/
theorem result_bind {α β : Type} {p : Prog σ α} {f : α → Prog σ β} {w : σ} {a : α} {b : β}
    (ha : (p w).result = .ok a) (hb : (f a (p w).world).result = .ok b) :
    ((p >>= f) w).result = .ok b := by
  rw [Eff.bind_of_ok ha]
  exact hb

/-- An empty answer is stored. -/
theorem persistStage_empty {s : GraphState} (hs : s.answerChunks = []) :
    (persistStage probeEnv s ()).result = .ok (s.merge {}) := by
  have hbody : (makePersistNode idleRepos s ()).result = .ok {} := by
    rw [makePersistNode, hs]
    rfl
  have hnode : (persistNode probeEnv s ()).result = .ok {} :=
    (Repos.withConn_result _ _ _).trans hbody
  exact result_bind (a := (s.merge {}, ()))
    (result_bind (a := ()) rfl (result_bind (a := {}) hnode rfl)) rfl

set_option maxRecDepth 20000 in
/-- It comes to its end, if there is nothing to join. -/
theorem silent_returns
    (hnothing : ∀ k, Made (maxAttempts retry) script k → (script k).deltas = []) :
    ∃ s, (pipeline probeEnv (scriptProbe retry script)
      (initialState (aliceAsks (py "th")) (py "msg_1")) ()).result = .ok s := by
  have hchunks : (probeRun retry script).2.answerChunks = [] := by
    refine adapterTrace_empty_iff.mpr fun k hk => ?_
    exact hnothing k (mem_madeFrom_one.mp hk)
  let loaded : GraphState := { initialState (aliceAsks (py "th")) (py "msg_1") with
    history := some [] }
  let enriched : GraphState := { probeState with
    route := none, routeConfidence := none, routeReason := none }
  have hstage : ∀ s, (adapterStage probeEnv (scriptProbe retry script)
        ⟨py "kc_adapter", playing script, rfl⟩ probeState ()).result = .ok s →
      (pipeline probeEnv (scriptProbe retry script)
        (initialState (aliceAsks (py "th")) (py "msg_1")) ()).result = .ok s := by
    intro s hs
    refine result_bind (a := (loaded, ())) rfl ?_
    refine result_bind (a := ({ loaded with auth := some { passed := true } }, true)) rfl ?_
    refine result_bind (a := (enriched, ())) rfl ?_
    exact result_bind (a := (probeState, ⟨py "kc_adapter", playing script, rfl⟩)) rfl hs
  refine ⟨(probeState.merge (probeRun retry script).2).merge {}, hstage _ ?_⟩
  rw [adapterStage_eq, Eff.play_ok_bind, scriptProbe_adapterTrace]
  have hempty : (probeState.merge (probeRun retry script).2).answerChunks = [] := by
    rw [GraphState.merge_answerChunks, hchunks]
    rfl
  exact persistStage_empty hempty

/-- The loop relays the whole run, and no error is in it. -/
theorem silent_relayed
    (hsilent : ∀ last, Made (maxAttempts retry) script last →
      ¬ Made (maxAttempts retry) script (last + 1) → (script last).errs = false)
    (hnothing : ∀ k, Made (maxAttempts retry) script k → (script k).deltas = []) :
    (relayed (patientEnv retry script) (scriptProbe retry script)
        (initialState (aliceAsks (py "th")) (py "msg_1")) ()).result = .ok () ∧
      ∀ ev, .yield ev ∈ (relayed (patientEnv retry script) (scriptProbe retry script)
        (initialState (aliceAsks (py "th")) (py "msg_1")) ()).trace → ev.type ≠ .error := by
  obtain ⟨s, hreturns⟩ := silent_returns hnothing
  have hquiet := silent_pipeline hsilent
  have hpatient : pipeline (patientEnv retry script) (scriptProbe retry script)
        (initialState (aliceAsks (py "th")) (py "msg_1"))
      = pipeline probeEnv (scriptProbe retry script)
        (initialState (aliceAsks (py "th")) (py "msg_1")) := rfl
  rw [relayed, hpatient]
  rcases Eff.consume_cases (relay (scriptProbe retry script).errorMessages)
      (patientEnv retry script).grace
      (pipeline probeEnv (scriptProbe retry script)
        (initialState (aliceAsks (py "th")) (py "msg_1"))) () with
    ⟨-, hresult, -, htrace⟩ | ⟨pre, t, post, e, htrace, -, hraise, -, -⟩
  · refine ⟨by rw [hresult, hreturns]; rfl, fun ev hev => ?_⟩
    rw [htrace] at hev
    obtain ⟨t, ht, hmem⟩ := List.mem_flatMap.mp hev
    have hunerring := hquiet t ht
    unfold withReaction at hmem
    split at hmem
    · next out hout =>
      rcases List.mem_cons.mp hmem with rfl | hbehind
      · exact hunerring.elim
      · obtain ⟨ev', data, rfl, -, -, hyield⟩ := relay_mem hout hbehind
        cases hyield
        exact hunerring
    · rw [← List.mem_singleton.mp hmem] at hunerring
      exact hunerring.elim
  · obtain ⟨ev, rfl, htype⟩ := relay_error hraise
    exact absurd htype (hquiet (.emit ev) (by rw [htrace]; simp))

/-- The user sees no error. -/
theorem silent_probe
    (hsilent : ∀ last, Made (maxAttempts retry) script last →
      ¬ Made (maxAttempts retry) script (last + 1) → (script last).errs = false)
    (hnothing : ∀ k, Made (maxAttempts retry) script k → (script k).deltas = []) :
    ¬ ErrorBeforeDone (handle (patientEnv retry script) (oneTopic (scriptProbe retry script))
      (aliceAsks (py "th")) ()).trace := by
  obtain ⟨g, hg⟩ : ∃ g, buildGraph (patientEnv retry script) (scriptProbe retry script) = .ok g :=
    probe_builds .empty (onlyRetry retry) (playing script)
  obtain ⟨hresult, hyields⟩ := silent_relayed hsilent hnothing
  have hchat := chatLoop_of_ok hg hresult
  have hafter := afterUser_ok hg (hchat ▸ hresult)
  rintro ⟨before, ev, after, hword, htype, -⟩
  have hmem : .yield ev ∈ (handle (patientEnv retry script) (oneTopic (scriptProbe retry script))
      (aliceAsks (py "th")) ()).trace := by
    rw [← mem_yielded, hword]
    simp
  have htrace : (handle (patientEnv retry script) (oneTopic (scriptProbe retry script))
      (aliceAsks (py "th")) ()).trace =
        .yield (metaEvent (aliceAsks (py "th")) (py "msg_1")) ::
          (persistUserMessage (patientEnv retry script) (aliceAsks (py "th")) ()).trace ++
        (afterUser (patientEnv retry script) (scriptProbe retry script) (aliceAsks (py "th"))
          (py "msg_1") (.ok ()) ()).trace := handle_accepted_trace rfl rfl
  have hend : (afterUser (patientEnv retry script) (scriptProbe retry script)
      (aliceAsks (py "th")) (py "msg_1") (.ok ()) ()).trace =
        (relayed (patientEnv retry script) (scriptProbe retry script)
          (initialState (aliceAsks (py "th")) (py "msg_1")) ()).trace ++
          [.yield (doneComplete (py "msg_1"))] := by
    rw [hafter, hchat, Run.trace, List.map_append]
    rfl
  rw [htrace, hend] at hmem
  rcases List.mem_append.mp hmem with hfront | hbehind
  · rcases List.mem_cons.mp hfront with hmeta | huser
    · rw [Act.yield.inj hmeta] at htype
      simp at htype
    · have hact := persistUserMessage_acts (patientEnv retry script) (aliceAsks (py "th")) ()
      exact (hact _ huser).elim
  · rcases List.mem_append.mp hbehind with hmem | hdone
    · exact hyields ev hmem htype
    · have hdone := Act.yield.inj (List.mem_singleton.mp hdone)
      rw [hdone] at htype
      simp at htype

/-- What is shown to fail in every run tells of its failures. -/
theorem tells_of_shown
    (hshown : FailureShown script (handle (patientEnv retry script)
      (oneTopic (scriptProbe retry script)) (aliceAsks (py "th")) ()).trace) :
    Tells (maxAttempts retry) script := by
  -- every attempt that is made is in the run of the probe
  have hrun : ∀ k, Made (maxAttempts retry) script k → ∃ s output, .run s output k ∈
      (handle (patientEnv retry script) (oneTopic (scriptProbe retry script))
        (aliceAsks (py "th")) ()).trace := by
    intro k hk
    obtain ⟨hmade, -⟩ := @adapterTrace_made (playing script) true (maxAttempts retry)
      (backoffMs retry) probeState (maxAttempts retry) 1 (Nat.add_comm _ _) []
    have hmem : k ∈ attemptsRun (probeRun retry script).1 := hmade ▸ mem_madeFrom_one.mpr hk
    obtain ⟨s, output, hrun⟩ := mem_attemptsRun.mp hmem
    exact ⟨s, output, mem_scriptProbe_of_run retry script hrun⟩
  have hnoDelta : ∀ k, Made (maxAttempts retry) script k →
      ∀ ev ∈ (script k).events, ev.type ≠ .delta := by
    intro k hk
    obtain ⟨s, output, hrun⟩ := hrun k hk
    exact (hshown s output k hrun).1
  refine ⟨hnoDelta, fun last hlast hnone => ?_⟩
  by_contra herrs
  have hsilent : ∀ last', Made (maxAttempts retry) script last' →
      ¬ Made (maxAttempts retry) script (last' + 1) → (script last').errs = false := by
    intro last' hlast' hnone'
    have hsame : last' = last := Option.some.inj
      ((getLast?_madeFrom_one.mpr ⟨hlast', hnone'⟩).symm.trans
        (getLast?_madeFrom_one.mpr ⟨hlast, hnone⟩))
    rw [hsame]
    exact Bool.eq_false_iff.mpr herrs
  refine silent_probe hsilent (fun k hk => deltasFrom_eq_nil (hnoDelta k hk)) ?_
  obtain ⟨s, output, hrun⟩ := hrun last hlast
  exact (hshown s output last hrun).2

end Silent

-- ============================================================================
-- Failed downstreams
-- ============================================================================

/-- For the adapter, the attempts at the given answers. -/
def HttpAdapter.script (adapter : HttpAdapter) (client : HttpClient)
    (answers : Nat → HttpFailure) : Nat → Attempt :=
  fun k => adapter.attempt client (answers k).toHttpResponse

/-- Of every answer that is asked for no delta frame is read, and its first frame
    that is not passed over tells of an error or raises, or there is none and the
    body does not end as it should.  The next answer is asked for if it raises. -/
def HttpAdapter.Confesses (adapter : HttpAdapter) (client : HttpClient) (maxAttempts : Nat)
    (answers : Nat → HttpFailure) : Prop :=
  let received := fun k => adapter.received client (answers k).toHttpResponse
  ∀ k, 1 ≤ k → k ≤ maxAttempts → (∀ j, 1 ≤ j → j < k → Repeats adapter.sign (received j)) →
    NoDeltaRead adapter.sign (received k).frames ∧
      (Repeats adapter.sign (received k) ∨ Reports adapter.sign (received k))

/-- By its frames the downstream confesses where its script tells. -/
theorem HttpAdapter.tells_iff (adapter : HttpAdapter) (client : HttpClient) (maxAttempts : Nat)
    (answers : Nat → HttpFailure) :
    Tells maxAttempts (adapter.script client answers) ↔
      adapter.Confesses client maxAttempts answers := by
  constructor
  · intro htells k hone hle hbefore
    have hmade : Made maxAttempts (adapter.script client answers) k :=
      ⟨hone, hle, fun j hj hjk => adapter.attempt_fails_of_repeats client _ (hbefore j hj hjk)⟩
    have hquiet := htells.noDelta k hmade
    refine ⟨(adapter.attempt_noDelta_iff client _).mp hquiet, ?_⟩
    by_cases hfails : (adapter.script client answers k).fails = true
    · exact Or.inl ((adapter.attempt_fails_iff client _ hquiet).mp hfails)
    · refine (adapter.attempt_errs_iff client _ hquiet).mp (htells.errs k hmade ?_)
      rintro ⟨-, -, hall⟩
      exact hfails (hall k hone (Nat.lt_succ_self k))
  · intro hconfesses
    -- by induction: the attempts that fail are those that raise
    have hrepeats : ∀ k, Made maxAttempts (adapter.script client answers) k →
        ∀ j, 1 ≤ j → j < k → Repeats adapter.sign
          (adapter.received client (answers j).toHttpResponse) := by
      intro k hmade j
      induction j using Nat.strongRecOn with
      | _ j ih =>
          intro hj hjk
          obtain ⟨-, hle, hfails⟩ := hmade
          obtain ⟨hnoDelta, -⟩ := hconfesses j hj (by omega)
            fun i hi hij => ih i hij hi (by omega)
          have hquiet := (adapter.attempt_noDelta_iff client _).mpr hnoDelta
          exact (adapter.attempt_fails_iff client _ hquiet).mp (hfails j hj hjk)
    have hquiet : ∀ k, Made maxAttempts (adapter.script client answers) k →
        ∀ ev ∈ (adapter.script client answers k).events, ev.type ≠ .delta := by
      intro k hmade
      obtain ⟨hnoDelta, -⟩ := hconfesses k hmade.1 hmade.2.1 (hrepeats k hmade)
      exact (adapter.attempt_noDelta_iff client _).mpr hnoDelta
    refine ⟨hquiet, fun last hmade _ => ?_⟩
    obtain ⟨-, htold⟩ := hconfesses last hmade.1 hmade.2.1 (hrepeats last hmade)
    exact (adapter.attempt_errs_iff client _ (hquiet last hmade)).mpr htold

/-- When a failed downstream is shown to the user in every run, for an adapter, a
    retry policy and any answers with a status other than 2xx: if and only if their
    bodies confess the failure. -/
theorem failure_shown_iff (adapter : HttpAdapter) (client : HttpClient)
    (retry : Option RetryPolicy) (answers : Nat → HttpFailure) :
    (∀ (σ : Type) (env : Env σ) (topics : TopicRegistry) (topic : CompiledTopic)
        (req : ChatRequest) (w : σ), topics.get req.bizId = some topic →
      PlaysScript topic retry (adapter.script client answers) (handle env topics req w).trace →
        FailureShown (adapter.script client answers) (handle env topics req w).trace) ↔
      adapter.Confesses client (maxAttempts retry) answers := by
  rw [← adapter.tells_iff]
  constructor
  · intro h
    apply tells_of_shown
    exact h Unit (patientEnv retry _) (oneTopic (scriptProbe retry _)) _ _ () rfl
      (scriptProbe_plays retry _ _)
  · intro htells σ env topics topic req w ht hplays
    exact handle_shown htells ht hplays

/-- Status 500 and nothing in the body. -/
def emptyFailure : HttpFailure where
  status := 500
  eventStream := false
  lines := []
  ending := .closed
  not_success := by decide

/-- A client that finds no JSON and no event anywhere. -/
def blindClient : HttpClient where
  loads := fun _ => .error (.decode (py "Expecting value: line 1 column 1 (char 0)"))
  sse := fun _ => []

/-- The attempts of the Uniioc adapter at such answers. -/
def emptyScript : Nat → Attempt := HttpAdapter.uniioc.script blindClient fun _ => emptyFailure

/-- What becomes of a request. -/
def emptyFailureRun : Run Unit Exn Act Unit :=
  handle (patientEnv none emptyScript) (oneTopic (scriptProbe none emptyScript))
    (aliceAsks (py "th")) ()

set_option maxRecDepth 20000 in
/-- The downstream fails, and the user sees a stream without an error that ends with
    done. -/
theorem emptyFailure_silent :
    PlaysScript (scriptProbe none emptyScript) none emptyScript emptyFailureRun.trace ∧
      (word Act.yielded emptyFailureRun.trace).map ChatEvent.type
        = [.meta, .thinking, .progress, .thinking, .progress, .thinking, .progress, .done] ∧
      ¬ FailureShown emptyScript emptyFailureRun.trace := by
  have htypes : (word Act.yielded emptyFailureRun.trace).map ChatEvent.type
      = [.meta, .thinking, .progress, .thinking, .progress, .thinking, .progress, .done] := rfl
  refine ⟨scriptProbe_plays none emptyScript _, htypes, fun hshown => ?_⟩
  have hrun : .run probeState true 1 ∈ emptyFailureRun.trace := by
    apply mem_scriptProbe_of_run
    exact List.mem_singleton.mpr rfl
  obtain ⟨before, ev, after, hword, htype, -⟩ := (hshown probeState true 1 hrun).2
  have hmem : EventType.error ∈ (word Act.yielded emptyFailureRun.trace).map ChatEvent.type := by
    rw [hword, ← htype]
    exact List.mem_map_of_mem (by simp)
  rw [htypes] at hmem
  simp at hmem

end MasterAgent
