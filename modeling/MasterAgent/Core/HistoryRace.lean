/-
  MasterAgent.Core.HistoryRace

  The histories of requests that run at once.  A turn is a question and an answer
  next to each other, whoever they are from.  In a thread in which every answer
  follows its own question all turns are genuine; an answer that is stored after
  the question of another request makes a turn with that question.  So histories
  are genuine in every interleaving in which no append interrupts in this way.
-/

import Mathlib.Data.List.Chain
import MasterAgent.Core.HandleWatch
import MasterAgent.Core.Repo.Database

namespace MasterAgent

open Effect StateGraph

variable {σ ι : Type}

-- ============================================================================
-- The messages of a thread
-- ============================================================================

/-- A row that `list_recent` selects. -/
def MessageRow.Shown (r : MessageRow) : Prop :=
  r.status = py "complete" ∨ r.status = py "partial"

instance (r : MessageRow) : Decidable r.Shown :=
  inferInstanceAs (Decidable (r.status = py "complete" ∨ r.status = py "partial"))

namespace MessageTable

variable {t t' : MessageTable} {row : MessageRow}

/-- The rows of a thread that `list_recent` selects from, in the order of their seq. -/
def visible (t : MessageTable) (threadId : PyStr) : List MessageRow :=
  ((t.rows.filter fun r => r.threadId = threadId ∧ r.Shown).insertionSort
    fun a b => b.seq ≤ a.seq).reverse

theorem selectRecent_eq (threadId : PyStr) (limit : Nat) :
    t.selectRecent threadId limit = (t.visible threadId).reverse.take limit := by
  rw [visible, List.reverse_reverse]
  rfl

theorem mem_visible {threadId : PyStr} :
    row ∈ t.visible threadId ↔ row ∈ t.rows ∧ row.threadId = threadId ∧ row.Shown := by
  rw [visible, List.mem_reverse, List.mem_insertionSort, List.mem_filter, decide_eq_true_eq]

/-- A row that takes the next seq of its thread comes last. -/
theorem visible_insert (h : t.insert row = .ok t')
    (hseq : row.seq = t.maxSeq row.threadId + 1) (threadId : PyStr) :
    t'.visible threadId =
      t.visible threadId ++ if row.threadId = threadId ∧ row.Shown then [row] else [] := by
  have hown : ∀ r ∈ t'.rows.filter fun r => r.threadId = threadId ∧ r.Shown,
      r ∈ t'.rows ∧ r.threadId = threadId := fun r hr =>
    ⟨(List.mem_filter.mp hr).1, (of_decide_eq_true (List.mem_filter.mp hr).2).1⟩
  rw [visible, visible]
  rw [insert_rows h, List.filter_append] at hown ⊢
  by_cases hrow : row.threadId = threadId ∧ row.Shown
  · rw [List.filter_cons_of_pos (by simpa using hrow), List.filter_nil] at hown ⊢
    rw [if_pos hrow, ← List.reverse_cons, List.reverse_inj]
    refine @insertionSort_eq t' threadId _ _ ?_ ?_ ?_
    · rw [insert_rows h]
      exact hown
    · exact List.perm_append_comm.trans ((List.perm_insertionSort _ _).symm.cons row)
    · refine List.pairwise_cons.mpr ⟨fun r hr => ?_, insertionSort_sorted _⟩
      rw [List.mem_insertionSort, List.mem_filter, decide_eq_true_eq] at hr
      have hle := le_maxSeq (mem_seqs.mpr (List.mem_map_of_mem hr.1))
      rw [hr.2.1, ← hrow.1, ← Int.lt_add_one_iff, ← hseq] at hle
      exact Int.le_of_lt hle
  · rw [if_neg hrow, List.append_nil, List.filter_cons_of_neg (by simpa using hrow),
      List.filter_nil, List.append_nil]

end MessageTable

-- ============================================================================
-- Turns
-- ============================================================================

/-- An answer right after a question belongs to it. -/
def Answers (user assistant : Message) : Prop :=
  isTurn user assistant = true → assistant.requestId = user.requestId

/-- A history made of turns, each of one request, none of them of `req`. -/
def Genuine (req : ChatRequest) (history : List Message) : Prop :=
  ∃ pairs : List (Message × Message), history = (pairs.flatMap fun turn => [turn.1, turn.2]) ∧
    ∀ turn ∈ pairs, isTurn turn.1 turn.2 = true ∧ turn.2.requestId = turn.1.requestId ∧
      turn.1.requestId ≠ req.requestId

theorem Genuine.others {req : ChatRequest} {history : List Message} (h : Genuine req history) :
    ∀ m ∈ history, m.requestId ≠ req.requestId := by
  obtain ⟨pairs, rfl, hpairs⟩ := h
  intro m hm
  obtain ⟨turn, hturn, hm⟩ := List.mem_flatMap.mp hm
  obtain ⟨-, hsame, hother⟩ := hpairs turn hturn
  simp only [List.mem_cons, List.not_mem_nil, or_false] at hm
  rcases hm with rfl | rfl
  · exact hother
  · rw [hsame]
    exact hother

/-- What a request may have read: every answer after a question belongs to it, and
    no answer is its own. -/
structure Readable (req : ChatRequest) (msgs : List Message) : Prop where
  paired : msgs.IsChain Answers
  others : ∀ m ∈ msgs, m.role = py "assistant" → m.requestId ≠ req.requestId

theorem turns_spec {msgs : List Message} (h : msgs.IsChain Answers) {turn : Message × Message}
    (hturn : turn ∈ turns msgs) :
    isTurn turn.1 turn.2 = true ∧ turn.2.requestId = turn.1.requestId ∧ turn.2 ∈ msgs := by
  fun_induction turns msgs with
  | case1 user assistant rest hpair ih =>
      rw [List.isChain_cons_cons] at h
      rcases List.mem_cons.mp hturn with rfl | hturn
      · exact ⟨hpair, h.1 hpair, List.mem_cons_of_mem _ List.mem_cons_self⟩
      · obtain ⟨htwo, hsame, hmem⟩ := ih h.2.tail hturn
        exact ⟨htwo, hsame, List.mem_cons_of_mem _ (List.mem_cons_of_mem _ hmem)⟩
  | case2 user assistant rest hpair ih =>
      rw [List.isChain_cons_cons] at h
      obtain ⟨htwo, hsame, hmem⟩ := ih h.2 hturn
      exact ⟨htwo, hsame, List.mem_cons_of_mem _ hmem⟩
  | case3 msgs hshort => cases hturn

theorem isTurn_role {user assistant : Message} (h : isTurn user assistant = true) :
    assistant.role = py "assistant" := by
  simp only [isTurn, Bool.and_eq_true, decide_eq_true_eq] at h
  exact h.1.2

/-- A history taken from readable messages is genuine. -/
theorem Readable.genuine {req : ChatRequest} {msgs : List Message} (h : Readable req msgs)
    (maxTurns : Nat) : Genuine req (recentTurns maxTurns msgs) := by
  refine ⟨_, rfl, fun turn hturn => ?_⟩
  obtain ⟨hpair, hsame, hmem⟩ := turns_spec h.paired ((sliceLast_sublist _ _).subset hturn)
  refine ⟨hpair, hsame, ?_⟩
  rw [← hsame]
  exact h.others turn.2 hmem (isTurn_role hpair)

-- ============================================================================
-- Appends that interrupt
-- ============================================================================

/-- A complete answer is stored in a thread whose last message is the complete
    question of another request. -/
def interrupts (s : Store) : Act → Bool
  | .append msg _ => match msg.threadId with
      | .str threadId => (s.messages.visible threadId).getLast?.any fun row =>
          isTurn (rowToMessage row) msg && decide (bindTextOrNull msg.requestId ≠ .ok row.requestId)
      | _ => false
  | _ => false

theorem requestId_of_bind {v : Json} {row : MessageRow}
    (h : bindTextOrNull v = .ok row.requestId) : (rowToMessage row).requestId = v := by
  unfold rowToMessage
  cases v with
  | null =>
      rw [bindTextOrNull, Except.ok.injEq] at h
      rw [← h]
  | str s =>
      rw [bindTextOrNull, Except.ok.injEq] at h
      rw [← h]
  | _ => cases h

theorem RowOf.isTurn_eq {msg : Message} {row : MessageRow} (h : RowOf msg row) (user : Message) :
    isTurn user (rowToMessage row) = isTurn user msg := by
  simp only [isTurn, rowToMessage, h.role, h.status]

/-- A step on the tables that does not interrupt. -/
def CarefulStep (s : Store) (a : Act) (s' : Store) : Prop :=
  StoreStep s a s' ∧ interrupts s a = false

/-- Every answer in a thread right after a question belongs to it. -/
def Store.Paired (s : Store) : Prop :=
  ∀ threadId, ((s.messages.visible threadId).map rowToMessage).IsChain Answers

/-- An append that does not interrupt keeps the answers with their questions. -/
theorem Store.Paired.append {s s' : Store} (h : s.Paired) {msg : Message} (hseq : msg.seq = 0)
    (hstep : StoreStep s (.append msg (.ok ())) s')
    (hcareful : interrupts s (.append msg (.ok ())) = false) : s'.Paired := by
  intro threadId
  obtain ⟨-, row, hins, hrow, hnext⟩ := storeStep_append hstep
  rw [MessageTable.visible_insert hins (hnext hseq), List.map_append, List.isChain_append]
  refine ⟨h threadId, ?_, ?_⟩
  · split
    · exact List.isChain_singleton _
    · exact List.isChain_nil
  · intro x hx y hy
    split at hy
    · next hshown =>
      obtain rfl : rowToMessage row = y := by simpa using hy
      rw [List.getLast?_map, Option.mem_def, Option.map_eq_some_iff] at hx
      obtain ⟨last, hlast, rfl⟩ := hx
      intro hturn
      rw [requestId_of_bind hrow.requestId]
      rw [hrow.isTurn_eq] at hturn
      simp only [interrupts, hrow.threadId, hshown.1, hlast, Option.any_some, hturn,
        Bool.true_and, decide_eq_false_iff_not, not_not] at hcareful
      exact (requestId_of_bind hcareful).symm
    · cases hy

/-- What `list_recent` returns of a store in which answers follow their questions. -/
theorem Store.Paired.read {s s' : Store} (h : s.Paired) {t : Json} {limit : Nat}
    {msgs : List Message} (hstep : StoreStep s (.listRecent t limit (.ok msgs)) s') :
    msgs.reverse.IsChain Answers ∧ ∀ m ∈ msgs, ∃ row ∈ s.messages.rows, rowToMessage row = m := by
  obtain ⟨hr, -⟩ := hstep
  cases t with
  | str threadId =>
      simp only [Store.listRecent, MasterAgent.listRecent, bindText, bind, Except.bind, pure,
        Except.pure, Except.ok.injEq, MessageTable.selectRecent_eq] at hr
      rw [hr]
      constructor
      · rw [← List.map_reverse, List.reverse_take, List.reverse_reverse, List.map_drop]
        have hpaired := h threadId
        rw [← List.take_append_drop ((s.messages.visible threadId).reverse.length - limit)
          ((s.messages.visible threadId).map rowToMessage)] at hpaired
        exact hpaired.right_of_append
      · intro m hm
        obtain ⟨row, hrow, rfl⟩ := List.mem_map.mp hm
        have hmem := List.mem_reverse.mp (List.mem_of_mem_take hrow)
        exact ⟨row, (MessageTable.mem_visible.mp hmem).1, rfl⟩
  | _ =>
      simp only [Store.listRecent, MasterAgent.listRecent, bindText, bind, Except.bind] at hr
      cases hr

-- ============================================================================
-- How a request takes part
-- ============================================================================

inductive Talk where
  /-- No answer is stored; `read` are the messages read last. -/
  | listening (read : Option (List Message))
  | answered

open Classical in
/-- A request stores messages of its own, without a seq, and its history is made
    of what it read before it stored an answer. -/
noncomputable def Talk.step (req : ChatRequest) (talk : Talk) : Act → Option Talk
  | .append msg _ =>
      if msg.requestId = req.requestId ∧ msg.seq = 0 then
        some (if msg.role = py "assistant" then .answered else talk)
      else none
  | .listRecent t _ r =>
      if t = req.threadId ∧ talk ≠ .answered then some (.listening r.toOption) else none
  | .write _ u =>
      if ∀ history, u.history = some history → ∃ msgs, talk = .listening (some msgs) ∧
        ∃ maxTurns, history = recentTurns maxTurns msgs.reverse
      then some talk else none
  | _ => some talk

section Talk

variable {req : ChatRequest} {talk : Talk} {a : Act}

theorem Talk.step_append {msg : Message} {r : Except Exn Unit} {talk' : Talk}
    (h : Talk.step req talk (.append msg r) = some talk') :
    (msg.requestId = req.requestId ∧ msg.seq = 0) ∧
      talk' = if msg.role = py "assistant" then .answered else talk := by
  rw [Talk.step] at h
  split at h
  · next hown =>
    rw [Option.some.injEq] at h
    exact ⟨hown, h.symm⟩
  · cases h

theorem Talk.step_listRecent {t : Json} {limit : Nat} {r : Except Exn (List Message)}
    {talk' : Talk} (h : Talk.step req talk (.listRecent t limit r) = some talk') :
    talk ≠ .answered ∧ talk' = .listening r.toOption := by
  rw [Talk.step] at h
  split at h
  · next hown =>
    rw [Option.some.injEq] at h
    exact ⟨hown.2, h.symm⟩
  · cases h

theorem Talk.step_write {n : PyStr} {u : Update} {talk' : Talk}
    (h : Talk.step req talk (.write n u) = some talk') :
    talk' = talk ∧ ∀ history, u.history = some history → ∃ msgs,
      talk = .listening (some msgs) ∧ ∃ maxTurns, history = recentTurns maxTurns msgs.reverse := by
  rw [Talk.step] at h
  split at h
  · next hread =>
    rw [Option.some.injEq] at h
    exact ⟨h.symm, hread⟩
  · cases h

/-- A request that listens has listened before, and stored no answer just now. -/
theorem Talk.listening_before {read : Option (List Message)}
    (h : Talk.step req talk a = some (.listening read)) :
    (∃ read', talk = .listening read') ∧
      ∀ msg r, a = .append msg r → msg.role ≠ py "assistant" := by
  have hlistens : talk ≠ .answered → ∃ read', talk = .listening read' := by
    intro hne
    cases talk with
    | listening read' => exact ⟨read', rfl⟩
    | answered => exact absurd rfl hne
  cases a with
  | append msg r =>
      obtain ⟨-, htalk⟩ := Talk.step_append h
      split at htalk
      · cases htalk
      · next hrole =>
        refine ⟨⟨read, htalk.symm⟩, ?_⟩
        rintro msg' r' ⟨⟩
        exact hrole
  | listRecent t limit r =>
      refine ⟨hlistens (Talk.step_listRecent h).1, ?_⟩
      rintro msg r ⟨⟩
  | write n u =>
      refine ⟨⟨read, (Talk.step_write h).1.symm⟩, ?_⟩
      rintro msg r ⟨⟩
  | _ =>
      have hsame : some talk = some (.listening read) := h
      rw [Option.some.injEq] at hsame
      refine ⟨⟨read, hsame⟩, ?_⟩
      rintro msg r ⟨⟩

/-- What a request has read it read just now or before. -/
theorem Talk.read_before {msgs : List Message}
    (h : Talk.step req talk a = some (.listening (some msgs))) :
    talk = .listening (some msgs) ∨ ∃ t limit, a = .listRecent t limit (.ok msgs) := by
  cases a with
  | append msg r =>
      obtain ⟨-, htalk⟩ := Talk.step_append h
      split at htalk
      · cases htalk
      · exact Or.inl htalk.symm
  | listRecent t limit r =>
      obtain ⟨-, htalk⟩ := Talk.step_listRecent h
      cases r with
      | ok msgs' =>
          cases htalk
          exact Or.inr ⟨t, limit, rfl⟩
      | error e => cases htalk
  | write n u => exact Or.inl (Talk.step_write h).1.symm
  | _ =>
      have hsame : some talk = some (.listening (some msgs)) := h
      rw [Option.some.injEq] at hsame
      exact Or.inl hsame

/-- After load_session only the assistant message matters. -/
theorem talk_attentive (req : ChatRequest) : Attentive (Talk.step req) req fun _ => True where
  offline := by
    intro talk a hoffline hwrite
    cases a with
    | write n u => exact absurd rfl (hwrite n u)
    | append => cases hoffline
    | listRecent => cases hoffline
    | getOrCreate => cases hoffline
    | touch => cases hoffline
    | _ => rfl
  touch := fun _ _ _ => rfl
  write := by
    intro talk n u _ hhistory
    simp [Talk.step, hhistory]
  answer := by
    intro talk s content r _ hs
    exact ⟨.answered, by simp [Talk.step, assistantMessage, hs.requestId], trivial⟩

end Talk

/-- load_session reads, and takes its history from what it read. -/
theorem loadSessionNode_talk {env : Env σ} {topic : CompiledTopic} {req : ChatRequest}
    {s : GraphState} (hs : OfRequest req s) (read : Option (List Message)) :
    Watched (Talk.step req) (.listening read) (loadSessionNode env topic s)
      fun u talk => Talk.step req talk (.write (py "load_session") u) = some talk := by
  refine Repos.withConn_watched _ (fun _ _ => rfl) (fun _ _ => rfl) ?_
  have hself : Watched (Talk.step req) (.listening read)
      (Eff.ofExcept (s.identity.elim (.error .attributeError) .ok) : Prog σ AuthnIdentity)
      fun _ talk => talk = .listening read := .ofExcept fun _ _ => rfl
  refine hself.bind fun identity talk htalk => ?_
  subst htalk
  have hbind : Watched (Talk.step req) (.listening read)
      (env.repos.callGetOrCreate s.threadId s.bizId identity.w3Account)
      fun _ talk => talk = .listening read := .call fun _ => rfl
  refine hbind.bind fun _ talk htalk => ?_
  subst htalk
  have hlist : Watched (Talk.step req) (.listening read)
      (env.repos.callListRecent s.threadId (topic.history.maxTurns * 4))
      fun msgs talk => talk = .listening (some msgs) := by
    refine .call_answer fun r => ⟨.listening r.toOption, ?_, fun msgs hr => ?_⟩
    · rw [Talk.step, if_pos ⟨hs.threadId, by simp⟩]
    · rw [hr]
      rfl
  refine hlist.bind fun msgs talk htalk => .ret ?_
  subst htalk
  rw [Talk.step, if_pos]
  intro history hhistory
  cases hhistory
  exact ⟨msgs, rfl, topic.history.maxTurns, rfl⟩

/-- The part of a request in whatever happens: it stores its question, listens, and
    stores its answer. -/
theorem handle_talk (env : Env σ) (topics : TopicRegistry) (req : ChatRequest) :
    Watched (Talk.step req) (.listening none) (handle env topics req) fun _ _ => True := by
  refine (talk_attentive req).handle (fun talk => ∃ read, talk = .listening read)
    (fun topic _ _ => ?_) fun topic _ _ s talk hs hstored => ?_
  · refine Repos.withConn_watched _ (fun _ _ => rfl) (fun _ _ => rfl) ?_
    have hbind : Watched (Talk.step req) (.listening none)
        (env.repos.callGetOrCreate req.threadId req.bizId req.w3Account)
        fun _ talk => talk = .listening none := .call fun _ => rfl
    refine hbind.bind fun _ talk htalk => ?_
    subst htalk
    have hid : Watched (Talk.step req) (.listening none) (newMessageId env)
        fun _ talk => talk = .listening none := by
      have hdraw : Watched (Talk.step req) (.listening none) (Eff.draw env.newUlid : Prog σ PyStr)
          fun _ talk => talk = .listening none := .draw fun _ => rfl
      exact hdraw.bind fun _ _ htalk => .ret htalk
    refine hid.bind fun messageId talk htalk => ?_
    subst htalk
    refine .call_answer fun r => ⟨.listening none, ?_, fun _ _ => ⟨none, rfl⟩⟩
    have hrole : (userMessage req messageId).role ≠ py "assistant" := by
      show py "user" ≠ py "assistant"
      decide
    rw [Talk.step, if_pos ⟨rfl, rfl⟩, if_neg hrole]
  · obtain ⟨read, rfl⟩ := hstored
    refine visit_watched rfl (loadSessionNode_talk hs read) fun u talk b h _ => ?_
    exact ⟨talk, h, trivial, hs.merge u⟩

-- ============================================================================
-- Requests that run at once
-- ============================================================================

theorem path_tag {step : Store → Act → Store → Prop} (i : ι) {s s' : Store}
    {acts : List (Act × Store)} (h : Path step s acts s') :
    Path (fun s (l : ι × Act) s' => step s l.2 s') s (acts.map fun a => ((i, a.1), a.2)) s' := by
  induction acts generalizing s with
  | nil => exact h
  | cons a acts ih => exact ⟨h.1, ih h.2⟩

/-- No append of the path interrupts. -/
def careful : Store → List ((ι × Act) × Store) → Bool
  | _, [] => true
  | s, ((_, a), s') :: rest => !interrupts s a && careful s' rest

theorem path_careful {s s' : Store} {acts : List ((ι × Act) × Store)}
    (h : Path (fun s l s' => StoreStep s l.2 s') s acts s') (hcareful : careful s acts = true) :
    Path (fun s l s' => CarefulStep s l.2 s') s acts s' := by
  induction acts generalizing s with
  | nil => exact h
  | cons a acts ih =>
      obtain ⟨⟨i, a⟩, s₁⟩ := a
      simp only [careful, Bool.and_eq_true, Bool.not_eq_true'] at hcareful
      exact ⟨⟨h.1, hcareful.1⟩, ih h.2 hcareful.2⟩

variable [DecidableEq ι]

/-- The acts of request `i` among the acts of all. -/
def actsOf (i : ι) (acts : List (ι × Act)) : List Act :=
  (acts.filter fun l => l.1 = i).map Prod.snd

theorem actsOf_concat (i j : ι) (acts : List (ι × Act)) (a : Act) :
    actsOf i (acts ++ [(j, a)]) = actsOf i acts ++ if j = i then [a] else [] := by
  by_cases h : j = i <;> simp [actsOf, h]

/-- Requests on one store, act by act: each of them goes through a part of a run of
    `handle`, whatever its environment answers, and what it is answered agrees
    with the tables. -/
structure Concurrent (topics : TopicRegistry) (reqs : ι → ChatRequest)
    (step : Store → Act → Store → Prop) (s : Store) (acts : List ((ι × Act) × Store))
    (s' : Store) : Prop where
  path : Path (fun s l s' => step s l.2 s') s acts s'
  runs : ∀ i, ∃ (σ : Type) (env : Env σ) (w : σ),
    actsOf i (acts.map Prod.fst) <+: (handle env topics (reqs i) w).trace

section Conversation

variable {reqs : ι → ChatRequest} {past : List (ι × Act)} {s s' : Store} {i j : ι} {a : Act}

/-- Where request `i` is after the acts so far. -/
noncomputable def talkOf (reqs : ι → ChatRequest) (past : List (ι × Act)) (i : ι) : Option Talk :=
  watch (Talk.step (reqs i)) (.listening none) (actsOf i past)

theorem talkOf_self : talkOf reqs (past ++ [(i, a)]) i =
    (talkOf reqs past i).bind fun talk => Talk.step (reqs i) talk a := by
  rw [talkOf, actsOf_concat, if_pos rfl, watch_append]
  congr 1
  funext talk
  rw [watch]
  cases Talk.step (reqs i) talk a <;> rfl

theorem talkOf_other (h : j ≠ i) : talkOf reqs (past ++ [(j, a)]) i = talkOf reqs past i := by
  rw [talkOf, actsOf_concat, if_neg h, List.append_nil]
  rfl

theorem talkOf_before {talk : Talk} (h : talkOf reqs (past ++ [(j, a)]) i = some talk) :
    ∃ before, talkOf reqs past i = some before := by
  by_cases hij : j = i
  · subst hij
    rw [talkOf_self, Option.bind_eq_some_iff] at h
    obtain ⟨before, hbefore, -⟩ := h
    exact ⟨before, hbefore⟩
  · rw [talkOf_other hij] at h
    exact ⟨talk, h⟩

/-- What careful steps keep true: answers follow their questions, a request that
    listens has no answer in the store, and what it has read is readable. -/
structure Conversation (reqs : ι → ChatRequest) (past : List (ι × Act)) (s : Store) : Prop where
  paired : s.Paired
  unanswered : ∀ i read, talkOf reqs past i = some (.listening read) →
    ∀ row ∈ s.messages.rows, row.role = py "assistant" →
      (rowToMessage row).requestId ≠ (reqs i).requestId
  readable : ∀ i msgs, talkOf reqs past i = some (.listening (some msgs)) →
    Readable (reqs i) msgs.reverse

/-- A request that listens after an act listened before it. -/
theorem listening_concat {read : Option (List Message)}
    (h : talkOf reqs (past ++ [(j, a)]) i = some (.listening read)) :
    (∃ read', talkOf reqs past i = some (.listening read')) ∧
      (j = i → ∀ msg r, a = .append msg r → msg.role ≠ py "assistant") := by
  by_cases hij : j = i
  · subst hij
    rw [talkOf_self, Option.bind_eq_some_iff] at h
    obtain ⟨talk, htalk, hstep⟩ := h
    obtain ⟨⟨read', rfl⟩, happend⟩ := Talk.listening_before hstep
    exact ⟨⟨read', htalk⟩, fun _ => happend⟩
  · rw [talkOf_other hij] at h
    exact ⟨⟨read, h⟩, fun heq => absurd heq hij⟩

/-- What a request has read it read in this act or before it. -/
theorem read_concat {msgs : List Message}
    (h : talkOf reqs (past ++ [(j, a)]) i = some (.listening (some msgs))) :
    talkOf reqs past i = some (.listening (some msgs)) ∨
      ∃ t limit, a = .listRecent t limit (.ok msgs) := by
  by_cases hij : j = i
  · subst hij
    rw [talkOf_self, Option.bind_eq_some_iff] at h
    obtain ⟨talk, htalk, hstep⟩ := h
    rcases Talk.read_before hstep with rfl | hread
    · exact Or.inl htalk
    · exact Or.inr hread
  · rw [talkOf_other hij] at h
    exact Or.inl h

/-- A careful step of request `j`. -/
theorem Conversation.step (hdistinct : ∀ i j, (reqs i).requestId = (reqs j).requestId → i = j)
    (h : Conversation reqs past s) (hstep : CarefulStep s a s')
    (htalk : ∃ talk, talkOf reqs (past ++ [(j, a)]) j = some talk) :
    Conversation reqs (past ++ [(j, a)]) s' := by
  obtain ⟨hstore, hcareful⟩ := hstep
  have hread : ∀ i msgs, talkOf reqs (past ++ [(j, a)]) i = some (.listening (some msgs)) →
      Readable (reqs i) msgs.reverse := by
    intro i msgs hi
    rcases read_concat hi with hbefore | ⟨t, limit, rfl⟩
    · exact h.readable i msgs hbefore
    · -- read just now, from a store without an answer of its own
      obtain ⟨⟨read', hbefore⟩, -⟩ := listening_concat hi
      obtain ⟨hpaired, hrows⟩ := h.paired.read hstore
      refine ⟨hpaired, fun m hm hrole => ?_⟩
      obtain ⟨row, hrow, rfl⟩ := hrows m (List.mem_reverse.mp hm)
      exact h.unanswered i read' hbefore row hrow hrole
  rcases storeStep_messages hstore with hsame | ⟨msg, rfl⟩
  · refine ⟨fun threadId => ?_, fun i read hi row hrow hrole => ?_, hread⟩
    · rw [hsame]
      exact h.paired threadId
    · rw [hsame] at hrow
      obtain ⟨⟨read', hbefore⟩, -⟩ := listening_concat hi
      exact h.unanswered i read' hbefore row hrow hrole
  · obtain ⟨talk, htalk⟩ := htalk
    rw [talkOf_self, Option.bind_eq_some_iff] at htalk
    obtain ⟨before, -, hown⟩ := htalk
    obtain ⟨⟨hid, hseq⟩, -⟩ := Talk.step_append hown
    refine ⟨h.paired.append hseq hstore hcareful, fun i read hi row hrow hrole => ?_, hread⟩
    obtain ⟨⟨read', hbefore⟩, happend⟩ := listening_concat hi
    obtain ⟨-, new, hins, hnew, -⟩ := storeStep_append hstore
    rw [MessageTable.insert_rows hins, List.mem_append, List.mem_singleton] at hrow
    rcases hrow with hold | rfl
    · exact h.unanswered i read' hbefore row hold hrole
    · -- the new row is an answer of request `j`, which does not listen any more
      rw [requestId_of_bind hnew.requestId, hid]
      intro hsame
      rw [hnew.role] at hrole
      exact happend (hdistinct j i hsame) msg (.ok ()) rfl hrole

theorem conversation_empty : Conversation reqs [] .empty where
  paired := fun _ => List.isChain_nil
  unanswered := by
    intro i read _ row hrow
    cases hrow
  readable := by
    intro i msgs h
    cases h

end Conversation

/-- For any number of requests with distinct ids and every interleaving of their
    acts in which no append interrupts: a history that load_session returns is
    made of turns, each of one request, and none of the request it is for. -/
theorem histories_genuine (topics : TopicRegistry) (reqs : ι → ChatRequest)
    (hdistinct : ∀ i j, (reqs i).requestId = (reqs j).requestId → i = j)
    {acts : List ((ι × Act) × Store)} {s : Store}
    (h : Concurrent topics reqs CarefulStep .empty acts s) (i : ι) (node : PyStr) (u : Update)
    (history : List Message) (hwrite : (i, .write node u) ∈ acts.map Prod.fst)
    (hu : u.history = some history) : Genuine (reqs i) history := by
  -- every request has gone through a part of its own run
  have htalk : ∀ past rest, acts.map Prod.fst = past ++ rest →
      ∀ j, ∃ talk, talkOf reqs past j = some talk := by
    intro past rest heq j
    obtain ⟨σ, env, w, hrun⟩ := h.runs j
    have hpast : actsOf j past <+: actsOf j (acts.map Prod.fst) := by
      rw [heq, actsOf, actsOf, List.filter_append, List.map_append]
      exact List.prefix_append _ _
    exact (handle_talk env topics (reqs j)).watch_of_isPrefix (hpast.trans hrun)
  obtain ⟨⟨l, s₁⟩, hmem, hl⟩ := List.mem_map.mp hwrite
  cases hl
  obtain ⟨pre, post, rfl⟩ := List.append_of_mem hmem
  obtain ⟨m, hpre, -⟩ := path_append.mp h.path
  rw [List.map_append, List.map_cons] at htalk
  -- the state in which the history is written
  have hconv : (∀ j, ∃ talk, talkOf reqs (pre.map Prod.fst) j = some talk) →
      Conversation reqs (pre.map Prod.fst) m := by
    refine hpre.invariant (I := fun past v =>
      (∀ j, ∃ talk, talkOf reqs past j = some talk) → Conversation reqs past v)
      (fun _ => conversation_empty) ?_
    rintro past v ⟨j, a⟩ v' hI hstep htalks
    refine (hI fun k => ?_).step hdistinct hstep (htalks j)
    obtain ⟨talk, hk⟩ := htalks k
    exact talkOf_before hk
  obtain ⟨talk, hnow⟩ := htalk (pre.map Prod.fst ++ [(i, .write node u)]) (post.map Prod.fst)
    (by rw [List.append_assoc]; rfl) i
  rw [talkOf_self, Option.bind_eq_some_iff] at hnow
  obtain ⟨before, hbefore, hstep⟩ := hnow
  obtain ⟨msgs, rfl, maxTurns, rfl⟩ := (Talk.step_write hstep).2 history hu
  exact ((hconv (htalk _ _ rfl)).readable i msgs hbefore).genuine maxTurns

-- ============================================================================
-- Two requests in one thread
-- ============================================================================

/-- A topic that answers with one delta. -/
def oneDelta : CompiledTopic :=
  smallTopic openAuth plainEnrich (scripted [⟨[deltaEvent (py "a")], .ok ()⟩])

/-- Two requests of alice in one thread. -/
def inThread (second : Bool) : ChatRequest :=
  { aliceAsks (py "th") with requestId := .str (if second then py "2" else py "1") }

theorem inThread_distinct (i j : Bool)
    (h : (inThread i).requestId = (inThread j).requestId) : i = j := by
  have hid := Json.str.inj h
  revert hid
  cases i <;> cases j <;> decide

/-- A request that starts in `start` stores its question. -/
def asking (i : Bool) (start : Db) : Run Db Exn Act Unit :=
  (persistUserMessage (smallDeployment.env 0) (inThread i)
    (afterAssistantId (smallDeployment.env 0) start)).after
      [(.yield (metaEvent (inThread i) (assistantId (smallDeployment.env 0) start)), start)]

/-- The rest of it, on the tables it finds then. -/
def answering (i : Bool) (start db : Db) : Run Db Exn Act Unit :=
  afterUser (smallDeployment.env 0) oneDelta (inThread i)
    (assistantId (smallDeployment.env 0) start) (.ok ()) db

def tagged (i : Bool) (r : Run Db Exn Act Unit) : List ((Bool × Act) × Store) :=
  (r.seen Db.store).map fun a => ((i, a.1), a.2)

theorem asking_path (i : Bool) (start : Db) :
    Path (fun s l s' => StoreStep s l.2 s') start.store (tagged i (asking i start))
      (asking i start).world.store :=
  path_tag i ⟨rfl, @persistUserMessage_traces (smallDeployment.env 0) rfl (fun _ => rfl)
    (inThread i) (afterAssistantId (smallDeployment.env 0) start)⟩

theorem answering_path (i : Bool) (start db : Db) :
    Path (fun s l s' => StoreStep s l.2 s') db.store (tagged i (answering i start db))
      (answering i start db).world.store :=
  path_tag i (afterUser_traces rfl _ _ _ _ db)

/-- A question or an answer in the thread. -/
def threadRow (messageId role content requestId : String) (seq : Int) (createdAt : Timestamp) :
    MessageRow where
  messageId := py messageId
  threadId := py "th"
  seq := seq
  role := py role
  content := py content
  contentMeta := .obj []
  status := py "complete"
  route := if role = "user" then none else some (py "kc")
  requestId := some (py requestId)
  createdAt := createdAt
  ext := .obj []

/-- The tables with the thread, which was touched last at `touched`. -/
def threadDb (messages : MessageTable) (touched : Option Timestamp) (now : Timestamp)
    (next : Nat) : Db where
  store := {
    sessions := {
      rows := [
        { threadId := py "th", bizId := py "topic", w3Account := py "alice", title := none,
          status := py "active", createdAt := 0, updatedAt := touched.getD 0,
          lastMessageAt := touched, ext := .obj [] }]
      primaryKey := List.nodup_singleton _ }
    messages := messages }
  now := now
  next := next

/-- The first question is stored. -/
def firstAsked : Db :=
  threadDb ⟨[threadRow "msg_0" "user" "q" "1" 1 1], by decide, by decide⟩ none 2 2

section InTurn

/-- The first request has been answered. -/
def firstAnswered : Db :=
  threadDb ⟨[threadRow "msg_0" "user" "q" "1" 1 1, threadRow "msg_" "assistant" "a" "1" 2 3],
    by decide, by decide⟩ (some 4) 5 2

/-- Then the second is asked. -/
def secondAsked : Db :=
  threadDb ⟨[threadRow "msg_0" "user" "q" "1" 1 1, threadRow "msg_" "assistant" "a" "1" 2 3,
    threadRow "msg_000" "user" "q" "2" 3 6], by decide, by decide⟩ (some 4) 7 4

/-- One request after the other. -/
def inTurn : List ((Bool × Act) × Store) :=
  tagged false (asking false .initial) ++ (tagged false (answering false .initial firstAsked) ++
    (tagged true (asking true firstAnswered) ++
      tagged true (answering true firstAnswered secondAsked)))

set_option maxRecDepth 20000 in
theorem inTurn_concurrent : ∃ s,
    Concurrent (oneTopic oneDelta) inThread CarefulStep .empty inTurn s := by
  refine ⟨(answering true firstAnswered secondAsked).world.store, path_careful ?_ ?_, ?_⟩
  · exact path_append.mpr ⟨firstAsked.store, asking_path false .initial,
      path_append.mpr ⟨firstAnswered.store, answering_path false .initial firstAsked,
        path_append.mpr ⟨secondAsked.store, asking_path true firstAnswered,
          answering_path true firstAnswered secondAsked⟩⟩⟩
  · decide
  · intro i
    cases i with
    | false => exact ⟨Db, smallDeployment.env 0, .initial, [], rfl⟩
    | true => exact ⟨Db, smallDeployment.env 0, firstAnswered, [], rfl⟩

set_option maxRecDepth 20000 in
/-- The history of the second request is the turn of the first. -/
theorem histories_genuine_inTurn : ∃ u history,
    (true, Act.write (py "load_session") u) ∈ inTurn.map Prod.fst ∧ u.history = some history ∧
      history.map Message.requestId = [.str (py "1"), .str (py "1")] ∧
      Genuine (inThread true) history := by
  obtain ⟨s, hrun⟩ := inTurn_concurrent
  have hwrite : (inTurn.map Prod.fst)[54]? = some (true, .write (py "load_session") _) := rfl
  exact ⟨_, _, List.mem_of_getElem? hwrite, rfl, rfl,
    histories_genuine (oneTopic oneDelta) inThread inThread_distinct hrun true _ _ _
      (List.mem_of_getElem? hwrite) rfl⟩

end InTurn

section Overtaken

/-- Both questions are stored. -/
def bothAsked : Db :=
  threadDb ⟨[threadRow "msg_0" "user" "q" "1" 1 1, threadRow "msg_000" "user" "q" "2" 2 3],
    by decide, by decide⟩ none 4 4

/-- Then the first is answered. -/
def lateAnswered : Db :=
  threadDb ⟨[threadRow "msg_0" "user" "q" "1" 1 1, threadRow "msg_000" "user" "q" "2" 2 3,
    threadRow "msg_" "assistant" "a" "1" 3 5], by decide, by decide⟩ (some 6) 7 4

/-- The environment of a request after whose question others make `meanwhile` of
    the tables. -/
def overtaken (meanwhile : Db) : Env Db :=
  { smallDeployment.env 0 with
    repos := { Repos.db with
      append := fun msg db =>
        ((Repos.db.append msg db).1,
          if msg.role = py "user" then meanwhile else (Repos.db.append msg db).2) } }

/-- The second request asks before the first is answered, and loads its history
    after that. -/
def overlapping : List ((Bool × Act) × Store) :=
  tagged false (asking false .initial) ++ (tagged true (asking true firstAsked) ++
    (tagged false (answering false .initial bothAsked) ++
      tagged true (answering true firstAsked lateAnswered)))

set_option maxRecDepth 20000 in
theorem overlapping_concurrent : ∃ s,
    Concurrent (oneTopic oneDelta) inThread StoreStep .empty overlapping s := by
  refine ⟨(answering true firstAsked lateAnswered).world.store, ?_, ?_⟩
  · exact path_append.mpr ⟨firstAsked.store, asking_path false .initial,
      path_append.mpr ⟨bothAsked.store, asking_path true firstAsked,
        path_append.mpr ⟨lateAnswered.store, answering_path false .initial bothAsked,
          answering_path true firstAsked lateAnswered⟩⟩⟩
  · intro i
    cases i with
    | false => exact ⟨Db, overtaken bothAsked, .initial, [], rfl⟩
    | true => exact ⟨Db, overtaken lateAnswered, firstAsked, [], rfl⟩

set_option maxRecDepth 20000 in
/-- The history of the second request is its own question, with the answer to the
    first. -/
theorem not_histories_genuine : ∃ s u history,
    Concurrent (oneTopic oneDelta) inThread StoreStep .empty overlapping s ∧
      (true, Act.write (py "load_session") u) ∈ overlapping.map Prod.fst ∧
      u.history = some history ∧
      history.map Message.requestId = [.str (py "2"), .str (py "1")] ∧
      ¬ Genuine (inThread true) history := by
  obtain ⟨s, hrun⟩ := overlapping_concurrent
  have hwrite : (overlapping.map Prod.fst)[54]? = some (true, .write (py "load_session") _) := rfl
  refine ⟨s, _, _, hrun, List.mem_of_getElem? hwrite, rfl, rfl, fun h => ?_⟩
  have hown := h.others _ List.mem_cons_self
  exact hown rfl

end Overtaken

end MasterAgent
