/-
  MasterAgent.Core.AnswerRecord

  Is every answered request on record?  Persisting is the last node of the
  graph, and `handle` sends its done event whether or not the run got there.
  The assistant message is in the store exactly when the topic's plugins, its
  mapping and the downstream keep to `Answerable`.
-/

import MasterAgent.Core.Answerable
import MasterAgent.Core.Repo.Database

namespace MasterAgent

open Effect StateGraph

variable {σ α : Type}

-- ============================================================================
-- What a run stores
-- ============================================================================

/-- The message an act puts into the store. -/
def storedMessage : Act → Option Message
  | .append msg (.ok ()) => some msg
  | _ => none

/-- The table `t` with the rows of the messages, one after another. -/
inductive Appends : List Message → MessageTable → MessageTable → Prop where
  | nil (t : MessageTable) : Appends [] t t
  | cons {msg : Message} {msgs : List Message} {row : MessageRow} {t t₁ t' : MessageTable}
      (hinsert : t.insert row = .ok t₁) (hrow : RowOf msg row)
      (hseq : msg.seq = 0 → row.seq = t.maxSeq row.threadId + 1) (hrest : Appends msgs t₁ t') :
      Appends (msg :: msgs) t t'

/-- A run appends what it stores. -/
theorem path_appends {s s' : Store} {acts : List (Act × Store)} (h : Path StoreStep s acts s') :
    Appends (word storedMessage (acts.map Prod.fst)) s.messages s'.messages := by
  induction acts generalizing s with
  | nil =>
      have hsame : s' = s := h
      rw [hsame]
      exact .nil _
  | cons a acts ih =>
      obtain ⟨a, s₁⟩ := a
      have hrest := ih h.2
      cases hstored : storedMessage a with
      | none =>
          have hsame : s₁.messages = s.messages := by
            rcases storeStep_messages h.1 with hsame | ⟨msg, rfl⟩
            · exact hsame
            · cases hstored
          rw [List.map_cons, word_cons, hstored, ← hsame]
          exact hrest
      | some msg =>
          have ha : a = .append msg (.ok ()) := by
            unfold storedMessage at hstored
            split at hstored
            · cases hstored
              rfl
            · cases hstored
          subst ha
          obtain ⟨-, row, hinsert, hrow, hseq⟩ := storeStep_append h.1
          exact .cons hinsert hrow hseq hrest

theorem storedMessage_offline {a : Act} (h : a.offline = true) : storedMessage a = none := by
  cases a <;> first | rfl | cases h

/-- Acts that store nothing. -/
theorem stores_nothing {ts : List Act} (h : ∀ a ∈ ts, storedMessage a = none) :
    word storedMessage ts = [] :=
  word_eq_nil.mpr h

/-- The monitor that counts what is stored. -/
def tally (stored : List Message) (a : Act) : Option (List Message) :=
  some (stored ++ (storedMessage a).toList)

theorem watch_tally {ts : List Act} {stored : List Message} :
    watch tally stored ts = some (stored ++ word storedMessage ts) := by
  induction ts generalizing stored with
  | nil => simp
  | cons a ts ih => rw [watch_cons rfl, ih, word_cons, List.append_assoc]

/-- What a program that returns has stored. -/
theorem stored_of_watched {p : Prog σ α} {Q : α → List Message → Prop}
    (h : Watched tally [] p Q) {w : σ} {a : α} (ha : (p w).result = .ok a) :
    Q a (word storedMessage (p w).trace) := by
  obtain ⟨stored, hwatch, hQ⟩ := h w
  rw [watch_tally, List.nil_append, Option.some.injEq] at hwatch
  exact hwatch ▸ hQ a ha

/-- An append that returns stores its message. -/
theorem callAppend_tally (repos : Repos σ) (msg : Message) (stored : List Message) :
    Watched tally stored (repos.callAppend msg) fun _ stored' => stored' = stored ++ [msg] := by
  refine .call_answer fun r => ?_
  cases r with
  | ok u => exact ⟨stored ++ [msg], rfl, fun _ _ => rfl⟩
  | error e => exact ⟨stored, by simp [tally, storedMessage], nofun⟩

theorem persistUserMessage_stores (env : Env σ) (req : ChatRequest) {w : σ}
    (h : (persistUserMessage env req w).result = .ok ()) :
    ∃ messageId, word storedMessage (persistUserMessage env req w).trace
      = [userMessage req messageId] := by
  have hquiet : ∀ stored : List Message, stored ++ (none : Option Message).toList = stored :=
    fun stored => List.append_nil stored
  have hwatched : Watched tally [] (persistUserMessage env req) fun _ stored =>
      ∃ messageId, stored = [userMessage req messageId] := by
    refine Repos.withConn_watched _ (fun g _ => congrArg some (hquiet g))
      (fun g _ => congrArg some (hquiet g)) ?_
    have hbind : Watched tally []
        (env.repos.callGetOrCreate req.threadId req.bizId req.w3Account)
        fun _ stored => stored = [] := .call fun _ => rfl
    have hid : Watched tally [] (newMessageId env) fun _ stored => stored = [] := by
      have hdraw : Watched tally [] (Eff.draw env.newUlid : Prog σ PyStr)
          fun _ stored => stored = [] := .draw fun _ => rfl
      exact hdraw.bind fun _ _ hstored => .ret hstored
    refine hbind.bind fun _ stored hstored => ?_
    subst hstored
    refine hid.bind fun messageId stored hstored => ?_
    subst hstored
    exact (callAppend_tally env.repos _ []).mono fun _ _ hstored => ⟨messageId, hstored⟩
  exact stored_of_watched hwatched h

/-- What the last node stores, if it gets through. -/
theorem persistStage_stores (env : Env σ) (s : GraphState) {w : σ} {s' : GraphState}
    (h : (persistStage env s w).result = .ok s') :
    ∃ content, Json.join s.answerChunks = .ok content ∧
      word storedMessage (persistStage env s w).trace = [assistantMessage s content] := by
  have hquiet : ∀ stored : List Message, stored ++ (none : Option Message).toList = stored :=
    fun stored => List.append_nil stored
  have hnode : Watched tally [] (persistNode env s) fun _ stored =>
      ∃ content, Json.join s.answerChunks = .ok content ∧
        stored = [assistantMessage s content] := by
    refine Repos.withConn_watched _ (fun g _ => congrArg some (hquiet g))
      (fun g _ => congrArg some (hquiet g)) ?_
    have hjoin : Watched tally [] (Eff.ofExcept (Json.join s.answerChunks) : Prog σ PyStr)
        fun content stored => stored = [] ∧ Json.join s.answerChunks = .ok content :=
      .ofExcept fun _ h => ⟨rfl, h⟩
    refine hjoin.bind fun content stored hjoin => ?_
    obtain ⟨rfl, hjoin⟩ := hjoin
    refine (callAppend_tally env.repos _ []).bind fun _ stored hstored => ?_
    have htouch : Watched tally stored (env.repos.callTouch s.threadId)
        fun _ stored' => stored' = stored := .call fun _ => congrArg some (hquiet stored)
    refine htouch.bind fun _ stored' hsame => .ret ⟨content, hjoin, ?_⟩
    rw [hsame]
    exact hstored
  have hstage : Watched tally [] (persistStage env s) fun _ stored =>
      ∃ content, Json.join s.answerChunks = .ok content ∧
        stored = [assistantMessage s content] := by
    have hvisit : Watched tally [] (step "persist_node" (persistNode env) s) fun _ stored =>
        ∃ content, Json.join s.answerChunks = .ok content ∧
          stored = [assistantMessage s content] :=
      visit_watched rfl hnode fun u stored b h _ => ⟨stored, congrArg some (hquiet stored), h⟩
    exact hvisit.bind fun _ _ h => .ret h
  exact stored_of_watched hstage h

/-- A last node that cannot join the chunks stores nothing. -/
theorem persistStage_acts (env : Env σ) (s : GraphState) :
    (persistStage env s).ActsOnly fun a => (∀ ev, a ≠ .emit ev) ∧
      ∀ msg, storedMessage a = some msg → ∃ content, Json.join s.answerChunks = .ok content := by
  have hnode : (step "persist_node" (persistNode env) s).ActsOnly fun a => (∀ ev, a ≠ .emit ev) ∧
      ∀ msg, storedMessage a = some msg → ∃ content, Json.join s.answerChunks = .ok content := by
    refine visit_actsOnly ⟨nofun, nofun⟩ (fun _ => ⟨nofun, nofun⟩) ?_
    refine (persistNode_acts env s).mono fun a ha => ?_
    cases a with
    | append msg r =>
        obtain ⟨content, hjoin, -⟩ := ha
        exact ⟨nofun, fun _ _ => ⟨content, hjoin⟩⟩
    | emit ev => exact ha.elim
    | _ => exact ⟨nofun, nofun⟩
  exact .bind hnode fun _ => .ret _

theorem loadStage_acts (env : Env σ) (topic : CompiledTopic) (s : GraphState) :
    (step "load_session" (loadSessionNode env topic) s).ActsOnly fun a =>
      (∀ ev, a ≠ .emit ev) ∧ storedMessage a = none := by
  refine visit_actsOnly ⟨nofun, rfl⟩ (fun _ => ⟨nofun, rfl⟩) ?_
  refine (loadSessionNode_acts env topic s).mono fun a ha => ?_
  cases a with
  | append msg r => exact ha.elim
  | emit ev => exact ha.elim
  | _ => exact ⟨nofun, rfl⟩

-- ============================================================================
-- A graph run
-- ============================================================================

/-- A repository call raised. -/
def Act.callRaised : Act → Bool
  | .acquire (.error _) => true
  | .release (.error _) => true
  | .getOrCreate _ _ _ (.error _) => true
  | .append _ (.error _) => true
  | .listRecent _ _ (.error _) => true
  | .touch _ (.error _) => true
  | _ => false

/-- The act is no repository call that raised. -/
def Act.Fine (a : Act) : Prop := a.callRaised = false

theorem not_fine {a : Act} (h : a.callRaised = true) : ¬ a.Fine := by
  intro hfine
  rw [Act.Fine, h] at hfine
  cases hfine

theorem persistUserMessage_fine (env : Env σ) (req : ChatRequest) :
    (persistUserMessage env req).Succeeds Act.Fine fun _ => True :=
  Repos.withConn_succeeds _ (fun _ => not_fine rfl) (fun _ => not_fine rfl)
    ((Eff.Succeeds.call_shown fun _ => not_fine rfl).bind fun _ (_ : True) =>
      ((Eff.Succeeds.draw fun _ => trivial).bind fun _ (_ : True) => .ret trivial).bind
        fun _ (_ : True) => .call_shown fun _ => not_fine rfl)

theorem loadStage_fine (env : Env σ) (topic : CompiledTopic) {s : GraphState}
    {who : AuthnIdentity} (hwho : s.identity = some who) :
    (step "load_session" (loadSessionNode env topic) s).Succeeds Act.Fine fun _ => True := by
  have hidentity : s.identity.elim (.error .attributeError) .ok = (.ok who : Except Exn _) := by
    rw [hwho]
    rfl
  have hnode : (loadSessionNode env topic s).Succeeds Act.Fine fun _ => True :=
    Repos.withConn_succeeds _ (fun _ => not_fine rfl) (fun _ => not_fine rfl)
      ((Eff.Succeeds.ofExcept hidentity trivial).bind fun _ (_ : True) =>
        (Eff.Succeeds.call_shown fun _ => not_fine rfl).bind fun _ (_ : True) =>
          (Eff.Succeeds.call_shown fun _ => not_fine rfl).bind fun _ (_ : True) => .ret trivial)
  exact visit_succeeds hnode fun _ _ => ⟨(), rfl, trivial⟩

theorem persistStage_fine (env : Env σ) {s : GraphState} {content : PyStr}
    (hjoin : Json.join s.answerChunks = .ok content) :
    (persistStage env s).Succeeds Act.Fine fun _ => True := by
  have hnode : (persistNode env s).Succeeds Act.Fine fun _ => True :=
    Repos.withConn_succeeds _ (fun _ => not_fine rfl) (fun _ => not_fine rfl)
      ((Eff.Succeeds.ofExcept hjoin trivial).bind fun _ (_ : True) =>
        (Eff.Succeeds.call_shown fun _ => not_fine rfl).bind fun _ (_ : True) =>
          (Eff.Succeeds.call_shown fun _ => not_fine rfl).bind fun _ (_ : True) => .ret trivial)
  have hvisit : (step "persist_node" (persistNode env) s).Succeeds Act.Fine fun _ => True :=
    visit_succeeds hnode fun _ _ => ⟨(), rfl, trivial⟩
  exact hvisit.bind fun _ (_ : True) => .ret trivial

/-- The state the plugins are called on: the given one with the history that
    load_session finds in world `w`. -/
def loadedState (env : Env σ) (topic : CompiledTopic) (s : GraphState) (w : σ) : GraphState :=
  match (loadSessionNode env topic s w).result with
  | .ok u => s.merge u
  | .error _ => s

section Graph

variable {env : Env σ} {topic : CompiledTopic} {s : GraphState} {w : σ}

/-- How a graph run goes: load_session raises, or the run ends before
    persist_node, or it comes there. -/
inductive GraphRun (env : Env σ) (topic : CompiledTopic) (s : GraphState) (w : σ) : Prop where
  | unloaded (hraised : ∃ a ∈ (pipeline env topic s w).trace, a.callRaised = true)
      (hacts : ∀ a ∈ (pipeline env topic s w).trace,
        (∀ ev, a ≠ .emit ev) ∧ storedMessage a = none)
  | stopped (hacts : ∀ a ∈ (pipeline env topic s w).trace, storedMessage a = none)
      (hnot : ¬ Answerable env.repr topic (loadedState env topic s w))
  | persisted {load ts : List Act} {s' : GraphState} {w' : σ}
      (htrace : (pipeline env topic s w).trace = load ++ ts ++ (persistStage env s' w').trace)
      (hresult : (pipeline env topic s w).result = (persistStage env s' w').result)
      (hload : ∀ a ∈ load, (∀ ev, a ≠ .emit ev) ∧ storedMessage a = none)
      (hts : ∀ a ∈ ts, storedMessage a = none)
      (hthread : s'.threadId = s.threadId)
      (hmessage : s'.assistantMessageId = s.assistantMessageId)
      (hiff : Answerable env.repr topic (loadedState env topic s w) ↔
        (∀ a ∈ ts, Relays topic.errorMessages a) ∧
          ∃ content, Json.join s'.answerChunks = .ok content)

theorem graphRun (huncancelled : topic.Uncancelled) {who : AuthnIdentity}
    (hwho : s.identity = some who) (hchunks : s.answerChunks = []) :
    GraphRun env topic s w := by
  have hload := loadStage_acts env topic s w
  cases hres : (step "load_session" (loadSessionNode env topic) s w).result with
  | error e =>
      have hrun : pipeline env topic s w = ⟨.error e, _, _⟩ := Eff.bind_of_error hres
      have htrace : (pipeline env topic s w).trace
          = (step "load_session" (loadSessionNode env topic) s w).trace := by rw [hrun]; rfl
      refine .unloaded ?_ (htrace ▸ hload)
      by_contra hnone
      obtain ⟨p, hp, -⟩ := loadStage_fine env topic hwho w fun a ha => by
        cases hraised : a.callRaised with
        | false => exact hraised
        | true => exact (hnone ⟨a, htrace ▸ ha, hraised⟩).elim
      rw [hres] at hp
      cases hp
  | ok p =>
      obtain ⟨u, hu, hp, -⟩ := visit_ok hres
      have hstate : loadedState env topic s w = p.1 := by rw [loadedState, hu, hp]; rfl
      have hempty : p.1.answerChunks = [] := by
        obtain ⟨history, rfl⟩ := loadSessionNode_returns env topic s w u hu
        rw [hp]
        exact (congrArg (· ++ _) hchunks).trans rfl
      have hkept : p.1.threadId = s.threadId ∧ p.1.assistantMessageId = s.assistantMessageId := by
        rw [hp]
        exact ⟨rfl, rfl⟩
      have hrun : pipeline env topic s w =
          (authStage env topic p.1
              (step "load_session" (loadSessionNode env topic) s w).world).after
            (step "load_session" (loadSessionNode env topic) s w).acts := Eff.bind_of_ok hres
      obtain ⟨ts, r, hplay, hts, hkeep, hiff⟩ := @authStage_planned σ env topic p.1 huncancelled w
        hempty
      have hquiet : ∀ a ∈ ts, storedMessage a = none := fun a ha =>
        storedMessage_offline (hts a ha)
      rw [hplay] at hrun
      rw [← hstate] at hiff
      cases r with
      | error e =>
          have htrace : (pipeline env topic s w).trace
              = (step "load_session" (loadSessionNode env topic) s w).trace ++ ts := by
            rw [hrun, Eff.play_error_bind]
            simp [Eff.play, Run.after, Run.trace, Function.comp_def]
          refine .stopped (fun a ha => ?_) fun hans => ?_
          · rw [htrace] at ha
            rcases List.mem_append.mp ha with ha | ha
            · exact (hload a ha).2
            · exact hquiet a ha
          · obtain ⟨s', content, hs, -⟩ := (hiff.mp hans).joins
            cases hs
      | ok s' =>
          obtain ⟨hthread, hmessage⟩ := hkeep s' rfl
          rw [Eff.play_ok_bind] at hrun
          refine .persisted (by rw [hrun]; simp [Run.after, Run.trace, Function.comp_def]; rfl)
            (by rw [hrun]; rfl) hload hquiet (hthread.trans hkept.1) (hmessage.trans hkept.2) ?_
          rw [hiff]
          constructor
          · rintro ⟨hrelays, s'', content, hs, hjoin⟩
            cases hs
            exact ⟨hrelays, content, hjoin⟩
          · rintro ⟨hrelays, content, hjoin⟩
            exact ⟨hrelays, s', content, rfl, hjoin⟩

-- ============================================================================
-- The loop over a graph run
-- ============================================================================

/-- The relay's own acts store nothing. -/
theorem stored_withReaction (errorMessages : Dict PyStr PyStr) (ts : List Act) :
    word storedMessage (ts.flatMap (withReaction (relay errorMessages)))
      = word storedMessage ts := by
  have hwatch : watch tally [] (ts.flatMap (withReaction (relay errorMessages)))
      = watch tally [] ts := by
    refine watch_withReaction fun a out hout o ho stored => ?_
    obtain ⟨ev, rfl⟩ := (relay_yields hout).1 o ho
    exact congrArg some (List.append_nil stored)
  rw [watch_tally, watch_tally, Option.some.injEq] at hwatch
  exact hwatch

theorem mem_flatMap_withReaction {errorMessages : Dict PyStr PyStr} {ts : List Act} {a : Act}
    (h : a ∈ ts) : a ∈ ts.flatMap (withReaction (relay errorMessages)) :=
  (sublist_withReaction errorMessages ts).subset h

/-- A run all of whose acts are relayed comes to its end. -/
theorem relayed_of_relays (h : ∀ a ∈ (pipeline env topic s w).trace, Relays topic.errorMessages a) :
    (relayed env topic s w).trace =
      (pipeline env topic s w).trace.flatMap (withReaction (relay topic.errorMessages)) := by
  rcases Eff.consume_cases (relay topic.errorMessages) env.grace (pipeline env topic s) w with
    ⟨-, -, -, htrace⟩ | ⟨pre, t, post, e, htrace, -, hraise, -, -⟩
  · exact htrace
  · obtain ⟨out, hout⟩ := h t (by rw [htrace]; exact List.mem_append_right _ List.mem_cons_self)
    rw [hraise] at hout
    cases hout

/-- A run that stores nothing stores nothing when it is relayed. -/
theorem relayed_stores_nothing
    (h : ∀ a ∈ (pipeline env topic s w).trace, storedMessage a = none) :
    word storedMessage (relayed env topic s w).trace = [] := by
  rcases Eff.consume_cases (relay topic.errorMessages) env.grace (pipeline env topic s) w with
    ⟨-, -, -, htrace⟩ | ⟨pre, t, post, e, hpipeline, -, -, -, htrace⟩
  · rw [relayed, htrace, stored_withReaction]
    exact stores_nothing h
  · rw [hpipeline] at h
    rw [relayed, htrace, word_append, stored_withReaction, List.append_eq_nil_iff]
    refine ⟨stores_nothing fun a ha => h a (List.mem_append_left _ ha),
      stores_nothing fun a ha => h a (List.mem_append_right _ ?_)⟩
    rcases List.mem_cons.mp ha with rfl | ha
    · exact List.mem_cons_self
    · exact List.mem_cons_of_mem _ (List.mem_of_mem_take ha)

/-- A topic that answers: everything its graph does is relayed. -/
theorem pipeline_relays (hrun : GraphRun env topic s w)
    (hans : Answerable env.repr topic (loadedState env topic s w)) :
    ∀ a ∈ (pipeline env topic s w).trace, Relays topic.errorMessages a := by
  cases hrun with
  | unloaded hraised hacts =>
      exact fun a ha => relays_of_not_error fun ev hev => absurd hev ((hacts a ha).1 ev)
  | stopped hacts hnot => exact absurd hans hnot
  | @persisted load ts s' w' htrace hresult hload hts hthread hmessage hiff =>
      intro a ha
      rw [htrace, List.mem_append, List.mem_append] at ha
      rcases ha with (ha | ha) | ha
      · exact relays_of_not_error fun ev hev => absurd hev ((hload a ha).1 ev)
      · exact (hiff.mp hans).1 a ha
      · exact relays_of_not_error fun ev hev =>
          absurd hev ((persistStage_acts env s' w' a ha).1 ev)

/-- A topic that answers: one assistant message is stored. -/
theorem relayed_answered (hrun : GraphRun env topic s w)
    (hans : Answerable env.repr topic (loadedState env topic s w))
    (hcalls : ∀ a ∈ (relayed env topic s w).trace, a.callRaised = false) :
    ∃ s' content, s'.threadId = s.threadId ∧ s'.assistantMessageId = s.assistantMessageId ∧
      word storedMessage (relayed env topic s w).trace = [assistantMessage s' content] := by
  have hloop := relayed_of_relays (pipeline_relays hrun hans)
  rw [hloop] at hcalls
  cases hrun with
  | unloaded hraised hacts =>
      -- the whole run is relayed, the call that raised included
      obtain ⟨a, ha, hraised⟩ := hraised
      rw [hcalls a (mem_flatMap_withReaction ha)] at hraised
      cases hraised
  | stopped hacts hnot => exact absurd hans hnot
  | @persisted load ts s' w' htrace hresult hload hts hthread hmessage hiff =>
      obtain ⟨-, content, hjoin⟩ := hiff.mp hans
      obtain ⟨s'', hpersist, -⟩ := persistStage_fine env hjoin w' fun a ha => by
        refine hcalls a ?_
        rw [htrace]
        exact mem_flatMap_withReaction (List.mem_append_right _ ha)
      obtain ⟨content', hjoin', hstored⟩ := persistStage_stores env s' hpersist
      refine ⟨s', content', hthread, hmessage, ?_⟩
      rw [hloop, stored_withReaction, htrace, word_append, word_append, hstored,
        stores_nothing fun a ha => (hload a ha).2, stores_nothing hts]
      rfl

/-- A topic that does not answer: when the graph is cancelled at once, nothing is
    stored. -/
theorem relayed_unanswered (hrun : GraphRun env topic s w) (hgrace : env.grace = 0)
    (hnot : ¬ Answerable env.repr topic (loadedState env topic s w)) :
    word storedMessage (relayed env topic s w).trace = [] := by
  cases hrun with
  | unloaded hraised hacts => exact relayed_stores_nothing fun a ha => (hacts a ha).2
  | stopped hacts _ => exact relayed_stores_nothing hacts
  | @persisted load ts s' w' htrace hresult hload hts hthread hmessage hiff =>
      rw [hiff] at hnot
      have hbefore : ∀ a ∈ load ++ ts, storedMessage a = none := by
        intro a ha
        rcases List.mem_append.mp ha with ha | ha
        · exact (hload a ha).2
        · exact hts a ha
      by_cases hjoin : ∃ content, Json.join s'.answerChunks = .ok content
      · -- an act before persist_node is not relayed, and the loop ends there
        have hlost : ∃ a ∈ load ++ ts, ¬ Relays topic.errorMessages a := by
          by_contra hnone
          refine hnot ⟨fun a ha => ?_, hjoin⟩
          by_contra hrelays
          exact hnone ⟨a, List.mem_append_right _ ha, hrelays⟩
        obtain ⟨a, ha, hlost⟩ := hlost
        rcases Eff.consume_cases (relay topic.errorMessages) env.grace (pipeline env topic s) w with
          ⟨hreacts, -, -, -⟩ | ⟨pre, t, post, e, hpipeline, hreacts, hraise, -, hcut⟩
        · refine absurd (hreacts a ?_) hlost
          rw [htrace]
          exact List.mem_append_left _ ha
        · rw [relayed, hcut, hgrace, List.take_zero, word_append, stored_withReaction,
            List.append_eq_nil_iff]
          rw [htrace, eq_comm, List.append_eq_append_iff] at hpipeline
          rcases hpipeline with ⟨rest, hsplit, hrest⟩ | ⟨rest, hsplit, -⟩
          · cases rest with
            | nil =>
                rw [List.append_nil] at hsplit
                exact absurd (hreacts a (hsplit ▸ ha)) hlost
            | cons t' rest =>
                rw [List.cons_append, List.cons.injEq] at hrest
                rw [hsplit] at hbefore
                refine ⟨stores_nothing fun b hb => hbefore b (List.mem_append_left _ hb),
                  stores_nothing fun b hb => hbefore b (List.mem_append_right _ ?_)⟩
                rw [List.mem_singleton.mp hb, hrest.1]
                exact List.mem_cons_self
          · exact absurd (hreacts a (hsplit ▸ List.mem_append_left _ ha)) hlost
      · refine relayed_stores_nothing fun a ha => ?_
        rw [htrace] at ha
        rcases List.mem_append.mp ha with ha | ha
        · exact hbefore a ha
        · cases hstored : storedMessage a with
          | none => rfl
          | some msg => exact absurd ((persistStage_acts env s' w' a ha).2 msg hstored) hjoin

end Graph

-- ============================================================================
-- On record
-- ============================================================================

/-- What `id` announces is on record: one assistant message has the id, in the
    request's thread and behind the request's question. -/
structure OnRecord (req : ChatRequest) (run : Run Db Exn Act Unit) (id : Json) : Prop where
  announced : ∃ ev, .yield ev ∈ run.trace ∧ ev.type = .meta ∧
    ev.data.getItem (py "message_id") = .ok id
  stored : ∃ row ∈ run.world.store.messages.rows, row.role = py "assistant" ∧
    id = .str row.messageId ∧ req.threadId = .str row.threadId ∧
    ∃ user ∈ run.world.store.messages.rows,
      .append (userMessage req user.messageId) (.ok ()) ∈ run.trace ∧ user.seq < row.seq
  unique : ∀ row ∈ run.world.store.messages.rows, ∀ row' ∈ run.world.store.messages.rows,
    id = .str row.messageId → id = .str row'.messageId → row' = row

/-- If the run ends with a done event that carries a message_id, that is on
    record. -/
def Recorded (req : ChatRequest) (run : Run Db Exn Act Unit) : Prop :=
  ∀ ev id, run.trace.getLast? = some (.yield ev) → ev.type = .done →
    ev.data.getItem (py "message_id") = .ok id → OnRecord req run id

/-- Two messages appended in one thread without seqs of their own: the second is
    behind the first. -/
theorem Appends.two {m₁ m₂ : Message} {t t' : MessageTable} (h : Appends [m₁, m₂] t t')
    (hthread : m₂.threadId = m₁.threadId) (hseq : m₂.seq = 0) :
    ∃ r₁ ∈ t'.rows, ∃ r₂ ∈ t'.rows, RowOf m₁ r₁ ∧ RowOf m₂ r₂ ∧ r₁.seq < r₂.seq := by
  cases h with
  | @cons _ _ r₁ _ t₁ _ hins₁ hrow₁ _ hrest =>
      cases hrest with
      | @cons _ _ r₂ _ t₂ _ hins₂ hrow₂ hnext hrest =>
          cases hrest
          have hrows₁ := MessageTable.insert_rows hins₁
          have hrows₂ := MessageTable.insert_rows hins₂
          have hmem₁ : r₁ ∈ t₁.rows := by
            rw [hrows₁]
            exact List.mem_append_right _ (List.mem_singleton.mpr rfl)
          have hsame : r₁.threadId = r₂.threadId := by
            have h := hrow₂.threadId
            rw [hthread, hrow₁.threadId, Json.str.injEq] at h
            exact h
          refine ⟨r₁, ?_, r₂, ?_, hrow₁, hrow₂, ?_⟩
          · rw [hrows₂]
            exact List.mem_append_left _ hmem₁
          · rw [hrows₂]
            exact List.mem_append_right _ (List.mem_singleton.mpr rfl)
          · have hle : r₁.seq ≤ t₁.maxSeq r₂.threadId := by
              refine MessageTable.le_maxSeq (MessageTable.mem_seqs.mpr ?_)
              exact List.mem_map.mpr ⟨r₁, hmem₁, Prod.ext hsame rfl⟩
            rw [hnext hseq]
            omega

/-- The message appended last in its thread has no row behind it. -/
theorem Appends.one {m : Message} {t t' : MessageTable} (h : Appends [m] t t') (hseq : m.seq = 0)
    {r row : MessageRow} (hr : r ∈ t'.rows) (hid : r.messageId = m.messageId)
    (hrow : row ∈ t'.rows) (hthread : m.threadId = .str row.threadId) : row.seq ≤ r.seq := by
  cases h with
  | @cons _ _ new _ t₁ _ hins hnew hnext hrest =>
      cases hrest
      have hrows := MessageTable.insert_rows hins
      have hmem : new ∈ t'.rows := by
        rw [hrows]
        exact List.mem_append_right _ (List.mem_singleton.mpr rfl)
      have hsame : r = new :=
        List.inj_on_of_nodup_map t'.primaryKey hr hmem (hid.trans hnew.messageId.symm)
      have hthreads : row.threadId = new.threadId := by
        have h := hnew.threadId
        rw [hthread, Json.str.injEq] at h
        exact h
      rw [hsame, hnext hseq]
      rw [hrows] at hrow
      rcases List.mem_append.mp hrow with hrow | hrow
      · have hle : row.seq ≤ t.maxSeq new.threadId := by
          refine MessageTable.le_maxSeq (MessageTable.mem_seqs.mpr ?_)
          exact List.mem_map.mpr ⟨row, hrow, Prod.ext hthreads rfl⟩
        omega
      · rw [List.mem_singleton.mp hrow, hnext hseq]

section Request

variable {d : Deployment} {topics : TopicRegistry} {topic : CompiledTopic} {req : ChatRequest}
  {db : Db} {grace : Nat}

/-- The repositories raise no cancellation of their own. -/
theorem db_uncancelled : Repos.db.Uncancelled where
  acquire := fun _ => notCancelled_ok _
  release := fun _ => notCancelled_ok _
  getOrCreate := fun t bizId w3Account db h => by
    simp only [Repos.db, Db.wrote, Store.getOrCreate] at h
    split at h
    · next he => cases (bindText_error he).symm.trans (Except.error.inj h)
    · next threadId _ =>
      rcases getOrCreate_cases { threadId, bizId, w3Account, now := db.now } db.store.sessions with
        ⟨row, -, -, heq⟩ | ⟨row, -, -, heq⟩ | ⟨-, heq⟩
      · rw [heq] at h
        cases h
      · rw [heq] at h
        cases h
      · rw [heq] at h
        cases h
  append := fun msg db h => nomatch append_error h
  listRecent := fun t n db h => by
    simp only [Repos.db, Store.listRecent, listRecent] at h
    cases t <;> cases h
  touch := fun t db h => by
    simp only [Repos.db, Db.wrote, Store.touch] at h
    split at h
    · next he => cases (bindText_error he).symm.trans (Except.error.inj h)
    · cases h

/-- The state the plugins of a request are called on. -/
def Deployment.answerState (d : Deployment) (topic : CompiledTopic) (req : ChatRequest)
    (db : Db) : GraphState :=
  let env := d.env 0
  loadedState env topic (initialState req (assistantId env db))
    (persistUserMessage env req (afterAssistantId env db)).world

/-- The world in which the loop of a request starts. -/
def afterUserMessage (env : Env σ) (req : ChatRequest) (w : σ) : σ :=
  (persistUserMessage env req (afterAssistantId env w)).world

/-- The loop of a request handled from world `w`. -/
def requestLoop (env : Env σ) (topic : CompiledTopic) (req : ChatRequest) (w : σ) :
    Run σ Exn Act Unit :=
  relayed env topic (initialState req (assistantId env w)) (afterUserMessage env req w)

/-- An accepted request whose question is stored: the meta event, the question
    under `userId`, the loop, and done at the end. -/
structure LoopedRun (env : Env σ) (topic : CompiledTopic) (req : ChatRequest) (w : σ)
    (run : Run σ Exn Act Unit) (userId : PyStr) : Prop where
  announces : .yield (metaEvent req (assistantId env w)) ∈ run.trace
  loop : ∀ a ∈ (requestLoop env topic req w).trace, a ∈ run.trace
  ends : run.trace.getLast? = some (.yield (doneComplete (assistantId env w)))
  stores : word storedMessage run.trace
    = userMessage req userId :: word storedMessage (requestLoop env topic req w).trace

section Accepted

variable {env : Env σ} {w : σ} (ht : topics.get req.bizId = some topic)
  (hacc : topic.bizParamsModel.accepts req.bizParams = true)
include ht hacc

theorem handle_accepted_trace :
    (handle env topics req w).trace =
      .yield (metaEvent req (assistantId env w)) ::
        (persistUserMessage env req (afterAssistantId env w)).trace ++
          (afterUser env topic req (assistantId env w)
            (persistUserMessage env req (afterAssistantId env w)).result
            (afterUserMessage env req w)).trace := by
  rw [handle_accepted ht hacc, handleAccepted_run]
  simp [Run.trace, Run.after, afterUserMessage]

/-- Where no repository call raises, the question is stored. -/
theorem userMessage_stored (hcalls : ∀ a ∈ (handle env topics req w).trace, a.callRaised = false) :
    (persistUserMessage env req (afterAssistantId env w)).result = .ok () := by
  obtain ⟨u, hu, -⟩ := persistUserMessage_fine env req (afterAssistantId env w) fun a ha => by
    refine hcalls a ?_
    rw [handle_accepted_trace ht hacc]
    exact List.mem_append_left _ (List.mem_cons_of_mem _ ha)
  exact hu

theorem handle_looped (hrepos : env.repos.Uncancelled) (huncancelled : topic.Uncancelled)
    {g : ChatGraph σ} (hbuild : buildGraph env topic = .ok g)
    (huser : (persistUserMessage env req (afterAssistantId env w)).result = .ok ()) :
    ∃ userId, LoopedRun env topic req w (handle env topics req w) userId := by
  obtain ⟨userId, hstored⟩ := persistUserMessage_stores env req huser
  have hafter : ∃ us, (∀ a ∈ us, storedMessage a = none) ∧
      (afterUser env topic req (assistantId env w) (.ok ()) (afterUserMessage env req w)).trace =
        (requestLoop env topic req w).trace ++ us ++
          [.yield (doneComplete (assistantId env w))] := by
    cases hr : (requestLoop env topic req w).result with
    | ok u =>
        have hloop := @chatLoop_of_ok σ env topic req g _ _ hbuild hr
        refine ⟨[], fun _ h => (List.not_mem_nil h).elim, ?_⟩
        rw [afterUser_ok hbuild (hloop ▸ hr), hloop]
        simp [Run.trace, requestLoop]
    | error e =>
        have he := relayed_raisesExceptions hrepos huncancelled _ _ e hr
        have hloop := @chatLoop_of_error σ env topic req g _ _ hbuild e hr he
        have hres : (chatLoop env topic req g (assistantId env w)
            (afterUserMessage env req w)).result = .ok () := by
          rw [hloop]
        refine ⟨[.yield (internalError req topic)], List.forall_mem_singleton.mpr rfl, ?_⟩
        rw [afterUser_ok hbuild hres, hloop]
        simp [Run.trace, requestLoop]
  obtain ⟨us, hus, hafter⟩ := hafter
  have htrace := @handle_accepted_trace σ topics topic req env w ht hacc
  rw [huser, hafter] at htrace
  refine ⟨userId, ?_, fun a ha => ?_, ?_, ?_⟩
  · rw [htrace]
    exact List.mem_append_left _ List.mem_cons_self
  · rw [htrace]
    exact List.mem_append_right _ (List.mem_append_left _ (List.mem_append_left _ ha))
  · rw [htrace, ← List.append_assoc, List.getLast?_concat]
  · rw [htrace, word_append, word_cons, word_append, word_append, hstored, stores_nothing hus]
    simp [storedMessage, word]

/-- A graph that does not compile: no done at the end. -/
theorem handle_uncompiled {e : Exn} (hbuild : buildGraph env topic = .error e)
    (huser : (persistUserMessage env req (afterAssistantId env w)).result = .ok ())
    {ev : ChatEvent} (hlast : (handle env topics req w).trace.getLast? = some (.yield ev)) :
    ev.type ≠ .done := by
  have hempty : (afterUser env topic req (assistantId env w) (.ok ())
      (afterUserMessage env req w)).trace = [] := by
    simp only [afterUser, hbuild]
    rfl
  have hmem := List.mem_of_getLast? hlast
  rw [handle_accepted_trace ht hacc, huser, hempty, List.append_nil] at hmem
  rcases List.mem_cons.mp hmem with hmeta | huserAct
  · cases hmeta
    simp
  · exact (persistUserMessage_acts env req _ _ huserAct).elim

end Accepted

/-- The tables after a request hold what it stored. -/
theorem handle_appends (d : Deployment) (grace : Nat) (topics : TopicRegistry) (req : ChatRequest)
    (db : Db) :
    Appends (word storedMessage (handle (d.env grace) topics req db).trace) db.store.messages
      (handle (d.env grace) topics req db).world.store.messages := by
  have h := path_appends (handle_traces (rfl : (d.env grace).repos = .db) (fun _ => rfl) topics
    req db)
  rwa [show ((handle (d.env grace) topics req db).seen Db.store).map Prod.fst
    = (handle (d.env grace) topics req db).trace by simp [Run.seen, Run.trace]] at h

theorem storedMessage_eq_some {a : Act} {msg : Message} (h : storedMessage a = some msg) :
    a = .append msg (.ok ()) := by
  unfold storedMessage at h
  split at h
  · cases h
    rfl
  · cases h

/-- A request that stored its question and its answer is on record. -/
theorem onRecord_of_stored {d : Deployment} {messageId : PyStr} {s : GraphState}
    {userId content : PyStr}
    (hmeta : .yield (metaEvent req messageId) ∈ (handle (d.env grace) topics req db).trace)
    (hstored : word storedMessage (handle (d.env grace) topics req db).trace =
      [userMessage req userId, assistantMessage s content])
    (hthread : s.threadId = req.threadId) (hmessage : s.assistantMessageId = messageId) :
    OnRecord req (handle (d.env grace) topics req db) (.str messageId) := by
  have happends := handle_appends d grace topics req db
  rw [hstored] at happends
  obtain ⟨user, huser, row, hrow, hofUser, hofRow, hlt⟩ := happends.two hthread rfl
  have hid : messageId = row.messageId := hmessage.symm.trans hofRow.messageId.symm
  refine ⟨⟨_, hmeta, rfl, by simp [metaEvent, literalEvent, Json.getItem, Json.field]⟩,
    ⟨row, hrow, hofRow.role, congrArg Json.str hid, ?_, user, huser, ?_, hlt⟩, ?_⟩
  · exact hthread.symm.trans hofRow.threadId
  · have hmem : userMessage req userId ∈
        word storedMessage (handle (d.env grace) topics req db).trace := by
      rw [hstored]
      exact List.mem_cons_self
    obtain ⟨a, ha, hmsg⟩ := List.mem_filterMap.mp hmem
    rw [storedMessage_eq_some hmsg] at ha
    rw [hofUser.messageId]
    exact ha
  · intro r hr r' hr' heq heq'
    rw [heq, Json.str.injEq] at heq'
    exact List.inj_on_of_nodup_map
      (handle (d.env grace) topics req db).world.store.messages.primaryKey hr' hr heq'.symm

/-- A request that stored its question alone is not on record. -/
theorem not_onRecord_of_stored {d : Deployment} {userId : PyStr} {id : Json}
    (hstored : word storedMessage (handle (d.env grace) topics req db).trace
      = [userMessage req userId]) :
    ¬ OnRecord req (handle (d.env grace) topics req db) id := by
  rintro ⟨-, ⟨row, hrow, -, -, hthread, user, huser, happend, hlt⟩, -⟩
  have happends := handle_appends d grace topics req db
  rw [hstored] at happends
  have hmem : userMessage req user.messageId ∈
      word storedMessage (handle (d.env grace) topics req db).trace :=
    List.mem_filterMap.mpr ⟨_, happend, rfl⟩
  rw [hstored, List.mem_singleton] at hmem
  have hid : user.messageId = userId := congrArg Message.messageId hmem
  have hle := happends.one rfl huser hid hrow hthread
  omega

/-- The loop of a topic that answers does not depend on how soon an abandoned
    graph stops. -/
theorem requestLoop_grace (d : Deployment) (grace : Nat) {topic : CompiledTopic}
    {req : ChatRequest} {db : Db}
    (h : ∀ a ∈ (pipeline (d.env 0) topic (initialState req (assistantId (d.env 0) db))
      (afterUserMessage (d.env 0) req db)).trace, Relays topic.errorMessages a) :
    requestLoop (d.env grace) topic req db = requestLoop (d.env 0) topic req db :=
  Eff.consume_grace h grace 0

/-- For every deployment, topic, request and state of the tables, when nothing is
    cancelled and no repository call raises: however soon an abandoned graph
    stops, a run that ends with a done event for a message has that message on
    record, if and only if the topic, should its graph compile, answers. -/
theorem handle_recorded_iff (d : Deployment) (topics : TopicRegistry) (req : ChatRequest) (db : Db)
    (huncancelled : ∀ topic, topics.get req.bizId = some topic → topic.Uncancelled)
    (hcalls : ∀ a ∈ (handle (d.env 0) topics req db).trace, a.callRaised = false) :
    (∀ grace, Recorded req (handle (d.env grace) topics req db)) ↔
      ∀ topic, topics.get req.bizId = some topic →
        topic.bizParamsModel.accepts req.bizParams = true →
        d.engine.compiles (graphDecl (d.env 0) topic topic.mapping) = true →
        Answerable d.repr topic (d.answerState topic req db) := by
  have hlooped : ∀ grace topic, topics.get req.bizId = some topic →
      topic.bizParamsModel.accepts req.bizParams = true →
      d.engine.compiles (graphDecl (d.env 0) topic topic.mapping) = true →
      ∃ userId, LoopedRun (d.env grace) topic req db (handle (d.env grace) topics req db)
        userId := by
    intro grace topic ht hacc hcompiles
    have huser := userMessage_stored ht hacc hcalls
    have hbuild := (buildGraph_eq (d.env grace) topic).trans (if_pos hcompiles)
    exact handle_looped ht hacc db_uncancelled (huncancelled topic ht) hbuild huser
  have hgraph : ∀ topic, topics.get req.bizId = some topic →
      GraphRun (d.env 0) topic (initialState req (assistantId (d.env 0) db))
        (afterUserMessage (d.env 0) req db) :=
    fun topic ht => graphRun (huncancelled topic ht) rfl rfl
  constructor
  · intro hrecorded topic ht hacc hcompiles
    obtain ⟨userId, hlooped⟩ := hlooped 0 topic ht hacc hcompiles
    by_contra hnot
    have hnothing := relayed_unanswered (hgraph topic ht) rfl hnot
    have hstores := hlooped.stores
    rw [requestLoop, hnothing] at hstores
    exact not_onRecord_of_stored hstores (hrecorded 0 _ _ hlooped.ends rfl rfl)
  · intro hanswers grace ev id hlast hdone hid
    cases ht : topics.get req.bizId with
    | none =>
        rw [handle_unknown ht, Eff.play_trace] at hlast
        cases hlast
        cases hid
    | some topic =>
        cases hacc : topic.bizParamsModel.accepts req.bizParams with
        | false =>
            rw [handle_invalid ht hacc, Eff.play_trace] at hlast
            cases hlast
            cases hid
        | true =>
            cases hcompiles : d.engine.compiles (graphDecl (d.env 0) topic topic.mapping) with
            | false =>
                have huser := userMessage_stored ht hacc hcalls
                have hbuild : buildGraph (d.env grace) topic = .error .valueError :=
                  (buildGraph_eq (d.env grace) topic).trans (by
                    rw [if_neg]
                    exact fun h => Bool.false_ne_true (hcompiles.symm.trans h))
                exact absurd hdone (handle_uncompiled ht hacc hbuild huser hlast)
            | true =>
                -- nothing abandons the graph, so this run is the one without grace
                have hans := hanswers topic ht hacc hcompiles
                have hsame := requestLoop_grace d grace (pipeline_relays (hgraph topic ht) hans)
                obtain ⟨userId₀, hlooped₀⟩ := hlooped 0 topic ht hacc hcompiles
                obtain ⟨s, content, hthread, hmessage, hstored⟩ :=
                  relayed_answered (hgraph topic ht) hans fun a ha =>
                    hcalls a (hlooped₀.loop a ha)
                obtain ⟨userId, hlooped⟩ := hlooped grace topic ht hacc hcompiles
                have hstores := hlooped.stores
                rw [hsame, requestLoop, hstored] at hstores
                rw [hlooped.ends] at hlast
                cases hlast
                cases hid
                exact onRecord_of_stored hlooped.announces hstores hthread hmessage

end Request

set_option maxRecDepth 20000 in
/-- A request answered with one delta is on record. -/
theorem handle_recorded_one_delta :
    let topic := smallTopic openAuth plainEnrich (scripted [⟨[deltaEvent (py "a")], .ok ()⟩])
    Recorded (aliceAsks (py "th"))
      (handle (smallDeployment.env 3) (oneTopic topic) (aliceAsks (py "th")) .initial) := by
  intro topic
  refine (handle_recorded_iff smallDeployment (oneTopic topic) (aliceAsks (py "th")) .initial
    ?_ ?_).mpr ?_ 3
  · intro t ht
    cases ht
    exact smallTopic_uncancelled (fun _ => notCancelled_ok _) (fun _ => notCancelled_ok _)
  · decide
  · intro t ht _ _
    cases ht
    refine ⟨_, rfl, fun _ => ⟨_, rfl, _, rfl, fun k hk => ?_⟩⟩
    have hfirst : k = 1 := List.mem_singleton.mp hk
    subst hfirst
    refine ⟨fun data hdata => ?_, nofun⟩
    cases List.mem_singleton.mp hdata
    exact ⟨py "a", rfl⟩

set_option maxRecDepth 20000 in
/-- The enrich plugin raises: the run ends with a done event for the message, and
    the only message in the store is the question. -/
theorem handle_not_recorded_enrich_raises :
    let topic := smallTopic openAuth ⟨fun _ => .error .dbError⟩ (scripted [])
    let run := handle (smallDeployment.env 0) (oneTopic topic) (aliceAsks (py "th")) .initial
    topic.Uncancelled ∧ (∀ a ∈ run.trace, a.callRaised = false) ∧
      run.trace.getLast? = some (.yield (doneComplete (py "msg_"))) ∧
      (∀ row ∈ run.world.store.messages.rows, row.role = py "user") ∧
      ¬ Recorded (aliceAsks (py "th")) run := by
  intro topic run
  have husers : ∀ row ∈ run.world.store.messages.rows, row.role = py "user" := by decide
  have hcalls : ∀ a ∈ run.trace, a.callRaised = false := by decide
  have hunc : topic.Uncancelled :=
    smallTopic_uncancelled (fun _ => notCancelled_ok _) (fun _ h => nomatch h)
  have hlast : run.trace.getLast? = some (.yield (doneComplete (py "msg_"))) := by
    obtain ⟨g, hbuild⟩ := smallTopic_builds Repos.db (smallDeployment.env 0).newUlid openAuth
      ⟨fun _ => .error .dbError⟩ (scripted [])
    obtain ⟨userId, hlooped⟩ := handle_looped (rfl : (oneTopic topic).get (py "topic") = some topic)
      rfl db_uncancelled hunc hbuild (userMessage_stored rfl rfl hcalls)
    exact hlooped.ends
  refine ⟨hunc, hcalls, hlast, husers, fun hrecorded => ?_⟩
  obtain ⟨-, ⟨row, hrow, hrole, -⟩, -⟩ := hrecorded _ _ hlast rfl rfl
  rw [husers row hrow, py_inj] at hrole
  exact absurd hrole (by decide)

end MasterAgent
