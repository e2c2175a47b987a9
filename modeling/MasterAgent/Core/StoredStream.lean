/-
  MasterAgent.Core.StoredStream

  What is stored is what was streamed.  The stream path (dispatch, relay) and
  the storage path (chunk list, additive reducer, join) never meet in the code;
  `Tape` is the machine in which they do: it records the content of every delta
  dispatched, and closes when an assistant message with exactly the recorded
  content is handed to the repository.
-/

import MasterAgent.Core.GraphActs

namespace MasterAgent

open Effect StateGraph

variable {σ α : Type}

-- ============================================================================
-- The machine
-- ============================================================================

inductive Tape where
  | recording (contents : List Json)
  | closed (contents : List Json)

/-- What the tape allows, and what becomes of it. -/
def Tape.step : Tape → Act → Option Tape
  | tape, .emit ev =>
      if ev.type = .delta then match tape, ev.data.getItem (py "content") with
        | .recording contents, .ok content => some (.recording (contents ++ [content]))
        | _, _ => none
      else some tape
  | tape, .append msg _ =>
      if msg.role = py "assistant" then match tape with
        | .recording contents => match Json.join contents with
            | .ok text =>
                if msg.content.isStr text then some (.closed contents) else none
            | .error _ => none
        | .closed _ => none
      else some tape
  | tape, _ => some tape

/-- The contents of the deltas the graph dispatches. -/
def emittedContents (past : List Act) : List (Except Exn Json) :=
  (word emittedDelta past).map fun data => data.getItem (py "content")

/-- The histories that lead from an empty tape to the given one. -/
inductive Tape.History (past : List Act) : Tape → Prop where
  | recording {contents : List Json} (hstored : word assistantAppend past = [])
      (hcontents : emittedContents past = contents.map .ok) :
      History past (.recording contents)
  | closed {contents : List Json} {msg : Message} {text : PyStr}
      (hstored : word assistantAppend past = [msg])
      (hcontents : emittedContents past = contents.map .ok)
      (hjoin : Json.join contents = .ok text) (hmsg : msg.content = .str text) :
      History past (.closed contents)

theorem emittedContents_snoc (past : List Act) (a : Act) :
    emittedContents (past ++ [a]) = emittedContents past ++
      (emittedDelta a).toList.map fun data => data.getItem (py "content") := by
  simp [emittedContents, word_cons]

theorem Tape.history_step {past : List Act} {tape tape' : Tape} {a : Act}
    (hpast : Tape.History past tape) (hstep : tape.step a = some tape') :
    Tape.History (past ++ [a]) tape' := by
  have hunseen : assistantAppend a = none → emittedDelta a = none → tape = tape' →
      Tape.History (past ++ [a]) tape' := by
    rintro hstored hshown rfl
    have h1 : word assistantAppend (past ++ [a]) = word assistantAppend past := by
      rw [word_append, word_cons, hstored]
      simp
    have h2 : emittedContents (past ++ [a]) = emittedContents past := by
      rw [emittedContents_snoc, hshown]
      simp
    cases hpast with
    | recording hstored hcontents => exact .recording (h1.trans hstored) (h2.trans hcontents)
    | closed hstored hcontents hjoin hmsg =>
        exact .closed (h1.trans hstored) (h2.trans hcontents) hjoin hmsg
  cases a with
  | emit ev =>
      by_cases htype : ev.type = .delta
      · cases hpast with
        | @recording contents hstored hcontents =>
            cases hc : ev.data.getItem (py "content") with
            | error e => simp [Tape.step, htype, hc] at hstep
            | ok content =>
                simp only [Tape.step, htype, if_true, hc, Option.some.injEq] at hstep
                subst hstep
                refine .recording ?_ ?_
                · rw [word_append, hstored]
                  rfl
                · rw [emittedContents_snoc, hcontents]
                  simp [emittedDelta, htype, hc]
        | closed hstored hcontents hjoin hmsg => simp [Tape.step, htype] at hstep
      · simp only [Tape.step, htype, if_false, Option.some.injEq] at hstep
        exact hunseen rfl (by simp [emittedDelta, htype]) hstep
  | append msg r =>
      by_cases hrole : msg.role = py "assistant"
      · cases hpast with
        | @recording contents hstored hcontents =>
            simp only [Tape.step, hrole, if_true] at hstep
            split at hstep
            · next text hjoin =>
              split at hstep
              · next hmsg =>
                cases hstep
                refine .closed ?_ ?_ hjoin (Json.isStr_eq_true.mp hmsg)
                · rw [word_append, hstored]
                  simp [word, assistantAppend, hrole]
                · rw [emittedContents_snoc, hcontents]
                  simp [emittedDelta]
              · cases hstep
            · cases hstep
        | closed hstored hcontents hjoin hmsg => simp [Tape.step, hrole] at hstep
      · simp only [Tape.step, hrole, if_false, Option.some.injEq] at hstep
        exact hunseen (by simp [assistantAppend, hrole]) rfl hstep
  | _ =>
      simp only [Tape.step, Option.some.injEq] at hstep
      exact hunseen rfl rfl hstep

theorem Tape.history_of_watch {ts : List Act} {tape : Tape}
    (h : watch Tape.step (.recording []) ts = some tape) : Tape.History ts tape :=
  watch_invariant (.recording rfl rfl) (fun _ _ _ _ hpast hstep => Tape.history_step hpast hstep) h

-- ============================================================================
-- The pipeline keeps to the machine
-- ============================================================================

theorem dispatchedDeltas_eq (acts : List Act) : dispatchedDeltas acts = word emittedDelta acts :=
  rfl

/-- Deltas with a content are recorded. -/
theorem watch_recording {ts : List Act} {contents : List Json}
    (hstored : ∀ a ∈ ts, assistantAppend a = none)
    (hcontent : ∀ data ∈ word emittedDelta ts, ∃ c, data.getItem (py "content") = .ok c) :
    watch Tape.step (.recording contents) ts =
      some (.recording (contents ++ (word emittedDelta ts).filterMap deltaContent)) := by
  induction ts generalizing contents with
  | nil => simp
  | cons a ts ih =>
      have hstored' := fun b hb => hstored b (List.mem_cons_of_mem _ hb)
      cases hdelta : emittedDelta a with
      | none =>
          have hstep : Tape.step (.recording contents) a = some (.recording contents) := by
            cases a with
            | emit ev =>
                have htype : ev.type ≠ .delta := by
                  intro htype
                  simp [emittedDelta, htype] at hdelta
                simp [Tape.step, htype]
            | append msg r =>
                have hrole : msg.role ≠ py "assistant" := by
                  intro hrole
                  have h := hstored _ List.mem_cons_self
                  simp [assistantAppend, hrole] at h
                simp [Tape.step, hrole]
            | _ => rfl
          have hword : word emittedDelta (a :: ts) = word emittedDelta ts := by
            rw [word_cons, hdelta]
            rfl
          rw [hword] at hcontent ⊢
          rw [watch_cons hstep, ih hstored' hcontent]
      | some data =>
          have hword : word emittedDelta (a :: ts) = data :: word emittedDelta ts := by
            rw [word_cons, hdelta]
            rfl
          rw [hword] at hcontent ⊢
          obtain ⟨c, hc⟩ := hcontent data List.mem_cons_self
          have hstep : Tape.step (.recording contents) a
              = some (.recording (contents ++ [c])) := by
            cases a with
            | emit ev =>
                by_cases htype : ev.type = .delta
                · simp only [emittedDelta, htype, if_true, Option.some.injEq] at hdelta
                  subst hdelta
                  simp [Tape.step, htype, hc]
                · simp [emittedDelta, htype] at hdelta
            | _ => cases hdelta
          have hfirst : deltaContent data = some c := by simp [deltaContent, hc]
          rw [watch_cons hstep, ih hstored' fun d hd => hcontent d (List.mem_cons_of_mem _ hd),
            List.filterMap_cons_some hfirst, List.append_assoc, List.singleton_append]

theorem deltasFrom_content {events : List ChatEvent} {data : Json}
    (h : data ∈ deltasFrom events) : ∃ c, data.getItem (py "content") = .ok c := by
  induction events with
  | nil => exact (List.not_mem_nil h).elim
  | cons ev events ih =>
      cases htype : ev.type with
      | delta =>
          cases hc : ev.data.getItem (py "content") with
          | error e => simp [deltasFrom, htype, hc] at h
          | ok c =>
              simp only [deltasFrom, htype, hc, List.mem_cons] at h
              rcases h with rfl | h
              · exact ⟨c, hc⟩
              · exact ih h
      | error => simp [deltasFrom, htype] at h
      | _ =>
          simp only [deltasFrom, htype] at h
          exact ih h

/-- Every delta an adapter node dispatches has a content. -/
theorem adapterTrace_content {topic : CompiledTopic} {nodeId : PyStr}
    {adapter : DownstreamAdapter} {s : GraphState} {data : Json}
    (h : data ∈ word emittedDelta (topic.adapterTrace nodeId adapter s).1) :
    ∃ c, data.getItem (py "content") = .ok c := by
  have hmade := (@adapterTrace_made adapter true
    (maxAttempts (topic.adapterRetries.get? nodeId))
    (backoffMs (topic.adapterRetries.get? nodeId)) s _ 1 (Nat.add_comm _ _) []).2
  rw [dispatchedDeltas_eq] at hmade
  rw [CompiledTopic.adapterTrace, hmade, List.mem_flatMap] at h
  obtain ⟨k, -, hk⟩ := h
  exact deltasFrom_content hk

section Stages

variable {env : Env σ} {topic : CompiledTopic} {s : GraphState}

/-- The persist node stores what the tape has recorded. -/
theorem persistStage_tape :
    Watched Tape.step (.recording s.answerChunks) (persistStage env s) fun _ _ => True := by
  have hnode : Watched Tape.step (.recording s.answerChunks) (persistNode env s)
      fun _ tape => tape = .closed s.answerChunks :=
    persistNode_watched (fun _ _ => rfl) (fun _ _ => rfl) (fun _ _ _ => rfl)
      fun content r hjoin => by simp [Tape.step, assistantMessage, hjoin]
  have hvisit : Watched Tape.step (.recording s.answerChunks)
      (step "persist_node" (persistNode env) s) fun _ _ => True :=
    visit_watched rfl hnode fun u tape b htape _ => ⟨tape, rfl, trivial⟩
  exact hvisit.bind fun _ _ _ => .ret trivial

/-- A node whose chunks the tape records leaves them in the state. -/
theorem visit_recording {β : Type} {n : PyStr} {f : NodeFn σ} {next : GraphState → Except Exn β}
    (hnode : Watched Tape.step (.recording []) (f s) fun u tape => tape = .recording u.answerChunks)
    (hchunks : s.answerChunks = []) :
    Watched Tape.step (.recording []) (visit langGraph n f s next)
      fun p tape => tape = .recording p.1.answerChunks := by
  refine visit_watched rfl hnode fun u tape b htape _ => ⟨tape, rfl, ?_⟩
  rw [htape]
  show _ = Tape.recording (s.answerChunks ++ u.answerChunks)
  rw [hchunks, List.nil_append]

theorem rejectStage_tape (hchunks : s.answerChunks = []) :
    Watched Tape.step (.recording []) (rejectStage env topic s) fun _ _ => True := by
  have hnode : Watched Tape.step (.recording [])
      (makeRejectNode (NodeEnv.live σ) topic.errorMessages s)
      fun u tape => tape = .recording u.answerChunks := by
    have hrecord : Tape.step (.recording [])
        (.emit (rejectDelta (rejectText topic.errorMessages s.auth)))
        = some (.recording [.str (rejectText topic.errorMessages s.auth)]) := by
      simp [Tape.step, rejectDelta, literalEvent, Json.getItem, Json.field]
    rw [makeRejectNode_live]
    refine .play (watch_cons hrecord) fun u hu => ?_
    cases hu
    rfl
  have hvisit : Watched Tape.step (.recording [])
      (step "reject_node" (makeRejectNode (NodeEnv.live σ) topic.errorMessages) s)
      fun p tape => tape = .recording p.1.answerChunks := visit_recording hnode hchunks
  refine hvisit.bind fun p tape htape => ?_
  rw [htape]
  exact persistStage_tape

theorem adapterStage_tape {routed : RoutedAdapter topic} (hchunks : s.answerChunks = []) :
    Watched Tape.step (.recording []) (adapterStage env topic routed s) fun _ _ => True := by
  have hnode : Watched Tape.step (.recording [])
      (topicAdapterNode topic routed.node routed.adapter s : Prog σ Update)
      fun u tape => tape = .recording u.answerChunks := by
    rw [topicAdapterNode_live]
    refine .play (watch_recording (fun a ha => ?_) fun data hdata => adapterTrace_content hdata)
      fun u hu => ?_
    · rcases mem_adapterTrace ha with ⟨ev, rfl⟩ | ⟨k, rfl⟩ | rfl <;> rfl
    · cases hu
      rw [← dispatchedDeltas_eq, CompiledTopic.adapterTrace, adapterTrace_answerChunks]
  have hvisit : Watched Tape.step (.recording [])
      (visit langGraph routed.node (topicAdapterNode topic routed.node routed.adapter) s
        fun _ => (.ok ()) : Prog σ (GraphState × Unit))
      fun p tape => tape = .recording p.1.answerChunks := visit_recording hnode hchunks
  refine hvisit.bind fun p tape htape => ?_
  rw [htape]
  exact persistStage_tape

/-- A node that neither shows nor stores anything leaves the chunks as they are. -/
theorem visit_tape {β : Type} {n : PyStr} {f : NodeFn σ} {next : GraphState → Except Exn β}
    {tape : Tape} (hacts : (f s).ActsOnly fun a => tape.step a = some tape)
    (hreturns : (f s).ReturnsOnly fun u => u.answerChunks = []) (hchunks : s.answerChunks = []) :
    Watched Tape.step tape (visit langGraph n f s next)
      fun p tape' => tape' = tape ∧ p.1.answerChunks = [] := by
  have hnode : Watched Tape.step tape (f s) fun u tape' => tape' = tape ∧ u.answerChunks = [] :=
    .quiet hacts fun w u hu => ⟨rfl, hreturns w u hu⟩
  refine visit_watched rfl hnode fun u tape' b h _ => ⟨tape', rfl, h.1, ?_⟩
  show s.answerChunks ++ u.answerChunks = []
  rw [hchunks, h.2, List.nil_append]

theorem answerStage_tape (hchunks : s.answerChunks = []) :
    Watched Tape.step (.recording []) (answerStage env topic s) fun _ _ => True := by
  refine (visit_tape ?_ ?_ hchunks).bind fun p tape hp => ?_
  · refine (enrichNode_acts topic s).mono fun a ha => ?_
    cases a with
    | emit ev => rcases ha with htype | htype <;> simp [Tape.step, htype]
    | enrich s r => rfl
    | _ => exact ha.elim
  · rintro w u hu
    obtain ⟨r, rfl⟩ := enrichNode_returns topic s w u hu
    rfl
  obtain ⟨rfl, hp⟩ := hp
  refine (visit_tape ?_ ?_ hp).bind fun q tape hq => ?_
  · refine (intentNode_acts env topic p.1 topic.mapping).mono fun a ha => ?_
    cases a with
    | emit ev => rcases ha with htype | htype <;> simp [Tape.step, htype]
    | classify s k r => rfl
    | sleep ms => rfl
    | _ => exact ha.elim
  · rintro w u hu
    obtain ⟨answer, rfl⟩ := intentNode_returns env topic p.1 topic.mapping w u hu
    rfl
  obtain ⟨rfl, hq⟩ := hq
  exact adapterStage_tape hq

theorem authStage_tape (hchunks : s.answerChunks = []) :
    Watched Tape.step (.recording []) (authStage env topic s) fun _ _ => True := by
  refine (visit_tape ?_ ?_ hchunks).bind fun p tape hp => ?_
  · refine (authNode_acts topic s).mono fun a ha => ?_
    cases a with
    | emit ev => rcases ha with htype | htype <;> simp [Tape.step, htype]
    | authorize s r => rfl
    | _ => exact ha.elim
  · rintro w u hu
    obtain ⟨r, -, rfl⟩ := authNode_returns topic s w u hu
    unfold authUpdate
    split <;> rfl
  obtain ⟨rfl, hp⟩ := hp
  split
  · exact answerStage_tape hp
  · exact rejectStage_tape hp

/-- The pipeline keeps to the tape. -/
theorem pipeline_tape (hchunks : s.answerChunks = []) :
    Watched Tape.step (.recording []) (pipeline env topic s) fun _ _ => True := by
  refine (visit_tape ?_ ?_ hchunks).bind fun p tape hp => ?_
  · refine (loadSessionNode_acts env topic s).mono fun a ha => ?_
    cases a <;> first | rfl | exact ha.elim
  · rintro w u hu
    obtain ⟨history, rfl⟩ := loadSessionNode_returns env topic s w u hu
    rfl
  obtain ⟨rfl, hp⟩ := hp
  exact authStage_tape hp

end Stages

-- ============================================================================
-- A request
-- ============================================================================

/-- The acts the tape steps at. -/
def tapeSees : Act → Bool
  | .emit _ => true
  | .append msg _ => msg.role = py "assistant"
  | _ => false

theorem tapeSees_graphSelection (req : ChatRequest) : GraphSelection req tapeSees where
  noYield := fun _ => rfl
  noUser := fun a ha => by
    cases a with
    | append msg r =>
        obtain ⟨messageId, rfl⟩ := ha
        simp [tapeSees, userMessage]
    | _ => first | rfl | exact ha.elim

theorem step_of_not_tapeSees (tape : Tape) (a : Act) (h : tapeSees a = false) :
    tape.step a = some tape := by
  cases a with
  | append msg r =>
      have hrole : msg.role ≠ py "assistant" := by simpa [tapeSees] using h
      simp [Tape.step, hrole]
  | _ => first | rfl | cases h

/-- A delta with a content is relayed as it is. -/
theorem orElse_of_getItem {data c default : Json} {k : PyStr} (h : data.getItem k = .ok c) :
    data.orElse default = data := by
  cases data with
  | obj fields =>
      cases fields with
      | nil => simp [Json.getItem, Json.field] at h
      | cons entry fields => rfl
  | _ => simp [Json.getItem] at h

/-- The contents shown are the contents dispatched. -/
theorem shown_contents {past : List Act} {contents : List Json}
    (h : emittedContents past = contents.map .ok) :
    (word shownDelta past).map (fun data => data.getItem (py "content")) = contents.map .ok := by
  have hshown : word shownDelta past = word emittedDelta past := by
    have hmap : word shownDelta past =
        (word emittedDelta past).map fun data => data.orElse (.obj []) :=
      (List.map_filterMap ..).symm
    rw [hmap]
    refine (List.map_congr_left fun data hdata => ?_).trans (List.map_id _)
    have hmem : data.getItem (py "content") ∈ contents.map .ok := by
      rw [← h]
      exact List.mem_map_of_mem hdata
    obtain ⟨c, -, hc⟩ := List.mem_map.mp hmem
    exact orElse_of_getItem hc.symm
  rw [hshown]
  exact h

/-- What is stored is what was streamed, for every topic, retry policy, plugin
    and adapter behaviour and behaviour of the repositories: an assistant
    message handed to the repository has for its content the concatenation of
    the contents, strings all, of the deltas `handle` yields in the run. -/
theorem handle_stores_stream (env : Env σ) (topics : TopicRegistry) (req : ChatRequest) (w : σ)
    (msg : Message) (hmsg : msg ∈ word assistantAppend (handle env topics req w).trace) :
    ∃ texts : List PyStr,
      (word yieldedDelta (handle env topics req w).trace).map
          (fun data => data.getItem (py "content")) = texts.map (fun text => .ok (.str text)) ∧
      msg.content = .str texts.flatten := by
  cases ht : topics.get req.bizId with
  | none =>
      rw [handle_unknown ht, Eff.play_trace] at hmsg
      exact (List.not_mem_nil hmsg).elim
  | some topic =>
      obtain ⟨w', pre, hpart, -⟩ := @handle_graphPart σ env topics req topic ht w
      generalize (handle env topics req w).trace = ts at hmsg hpart ⊢
      obtain ⟨tape, hpre⟩ := (pipeline_tape (rfl : (initialState req
        (assistantId env w)).answerChunks = [])).watch_of_isPrefix hpart.isPrefix
      have hts : watch Tape.step (.recording []) ts = some tape := by
        rw [← watch_filter step_of_not_tapeSees, hpart.acts _ (tapeSees_graphSelection req),
          watch_filter step_of_not_tapeSees]
        exact hpre
      cases Tape.history_of_watch hts with
      | recording hstored hcontents =>
          rw [hstored] at hmsg
          exact (List.not_mem_nil hmsg).elim
      | closed hstored hcontents hjoin hcontent =>
          rw [hstored, List.mem_singleton] at hmsg
          subst hmsg
          obtain ⟨texts, rfl, rfl⟩ := Json.join_eq_ok.mp hjoin
          cases Tape.history_of_watch hpre with
          | closed hstored' hcontents' hjoin' hcontent' =>
              refine ⟨texts, ?_, hcontent⟩
              rw [hpart.deltas, shown_contents hcontents', List.map_map]
              rfl

/-- An attempt that fails after a delta, and a second one: both are streamed and
    stored. -/
theorem handle_stores_stream_retry :
    let topic := smallTopic openAuth plainEnrich (scripted
      [⟨[deltaEvent (py "a")], .error (.other (py "down"))⟩, ⟨[deltaEvent (py "b")], .ok ()⟩])
    let run := handle (plainEnv idleRepos fun w => (py "1", w)) (oneTopic topic)
      (aliceAsks (py "th")) ()
    ∃ msg ∈ word assistantAppend run.trace, ∃ texts : List PyStr,
      (word yieldedDelta run.trace).map (fun data => data.getItem (py "content"))
        = texts.map (fun text => .ok (.str text)) ∧ msg.content = .str texts.flatten := by
  intro topic run
  have hstored : (word assistantAppend run.trace).length = 1 := by decide
  obtain ⟨msg, hone⟩ := List.length_eq_one_iff.mp hstored
  have hmsg : msg ∈ word assistantAppend run.trace := by
    rw [hone]
    exact List.mem_singleton.mpr rfl
  exact ⟨msg, hmsg, handle_stores_stream (plainEnv idleRepos fun w => (py "1", w))
    (oneTopic topic) (aliceAsks (py "th")) () msg hmsg⟩

end MasterAgent
