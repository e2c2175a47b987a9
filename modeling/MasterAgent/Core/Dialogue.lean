/-
  MasterAgent.Core.Dialogue

  What the tables hold against what the clients are told.  `Dialogue` is the
  service as its users understand it: a log of utterances for each thread, and
  for each request its exchange and what its client is told of it.  A request is announced, its
  question goes to the log, the log is recalled, deltas are dispatched, and the
  answer that goes to the log is what was dispatched.  The client is told the
  deltas in their order, later than they are dispatched, and all of them before
  its stream is done.

  Here is the machine, and one request keeping to its exchange whatever its
  environment does (`handle_speaks`).
-/

import MasterAgent.Core.StoredStream
import MasterAgent.Core.Transcript
import MasterAgent.Lib.Simulation

namespace MasterAgent

open Effect StateGraph

variable {σ ι : Type}

-- ============================================================================
-- What is said
-- ============================================================================

/-- What of a request concerns the dialogue. -/
inductive Speech where
  /-- The client is told the data of the meta event. -/
  | announce (data : Json)
  /-- A message is stored. -/
  | store (msg : Message)
  | consult (threadId : Json) (limit : Nat) (msgs : List Message)
  /-- The graph dispatches the data of a delta. -/
  | dispatch (data : Json)
  /-- The client is told the data of a delta. -/
  | tell (data : Json)
  /-- The client is told that its stream is done. -/
  | close

/-- What an act says, as the client and the tables see it. -/
def spoken : Act → Option Speech
  | .emit ev => if ev.type = .delta then some (.dispatch ev.data) else none
  | .yield ev => match ev.type with
      | .meta => some (.announce ev.data)
      | .delta => some (.tell ev.data)
      | .done => some .close
      | _ => none
  | .append msg (.ok ()) => some (.store msg)
  | .listRecent threadId limit (.ok msgs) => some (.consult threadId limit msgs)
  | _ => none

/-- The message id that a meta event promises. -/
def promisedId (data : Json) : Option PyStr :=
  match data.getItem (py "message_id") with
  | .ok (.str messageId) => some messageId
  | _ => none

def Speech.promised : Speech → Option PyStr
  | .announce data => promisedId data
  | _ => none

def Speech.dispatched : Speech → Option Json
  | .dispatch data => deltaContent data
  | _ => none

def Speech.told : Speech → Option Json
  | .tell data => deltaContent data
  | _ => none

def Speech.closes : Speech → Bool
  | .close => true
  | _ => false

/-- The message id that an act promises the client. -/
def idPromised (a : Act) : Option PyStr := (spoken a).bind Speech.promised

/-- The content of a delta that the graph dispatches. -/
def contentDispatched (a : Act) : Option Json := (spoken a).bind Speech.dispatched

/-- The content of a delta that the client is told. -/
def contentTold (a : Act) : Option Json := (spoken a).bind Speech.told

/-- The client is told that its stream is done. -/
def Act.closes : Act → Bool
  | .yield ev => ev.type = .done
  | _ => false

-- ============================================================================
-- The machine
-- ============================================================================

/-- How far the exchange of a request has come. -/
inductive Exchange where
  | silent
  /-- The answer is promised under the id. -/
  | announced (messageId : PyStr)
  /-- The question is on the log, and the contents have been dispatched. -/
  | asked (messageId : PyStr) (contents : List Json)
  /-- The contents are on the log in one piece. -/
  | answered (messageId : PyStr) (contents : List Json)

/-- The message is the question of the request. -/
def Asks (req : ChatRequest) (msg : Message) : Prop := ∃ messageId, msg = userMessage req messageId

/-- The message is the answer promised under the id: the contents in one piece. -/
structure Replies (req : ChatRequest) (messageId : PyStr) (contents : List Json) (msg : Message) :
    Prop where
  messageId : msg.messageId = messageId
  threadId : msg.threadId = req.threadId
  requestId : msg.requestId = req.requestId
  role : msg.role = py "assistant"
  seq : msg.seq = 0
  content : ∃ text, Json.join contents = .ok text ∧ msg.content = .str text

/-- The message ids that have been promised. -/
def Exchange.promised : Exchange → List PyStr
  | .silent => []
  | .announced messageId => [messageId]
  | .asked messageId _ => [messageId]
  | .answered messageId _ => [messageId]

/-- The contents that have been dispatched. -/
def Exchange.dispatched : Exchange → List Json
  | .silent => []
  | .announced _ => []
  | .asked _ contents => contents
  | .answered _ contents => contents

open Classical in
/-- The exchange of a request: announce, ask, consult, dispatch, answer.  What the
    client is told of it in the meantime makes no difference. -/
noncomputable def Exchange.step (req : ChatRequest) : Exchange → Speech → Option Exchange
  | exchange, .tell _ => some exchange
  | exchange, .close => some exchange
  | .silent, .announce data => (promisedId data).map .announced
  | .announced messageId, .store msg =>
      if Asks req msg then some (.asked messageId []) else none
  | .asked messageId [], .consult threadId _ _ =>
      if threadId = req.threadId then some (.asked messageId []) else none
  | .asked messageId contents, .dispatch data =>
      (deltaContent data).map fun content => .asked messageId (contents ++ [content])
  | .asked messageId contents, .store msg =>
      if Replies req messageId contents msg then some (.answered messageId contents) else none
  | _, _ => none

/-- The exchange of a request, with what its client has been told of the contents
    that were dispatched: the first ones, and all of them once its stream is
    done. -/
structure Telling where
  exchange : Exchange
  told : List Json
  closed : Bool
  begins : told <+: exchange.dispatched
  complete : closed = true → told = exchange.dispatched

def Telling.start : Telling where
  exchange := .silent
  told := []
  closed := false
  begins := List.prefix_refl _
  complete := fun h => (Bool.false_ne_true h).elim

open Classical in
noncomputable def Telling.step (req : ChatRequest) (c : Telling) (speech : Speech) :
    Option Telling := do
  let exchange ← Exchange.step req c.exchange speech
  let told := c.told ++ speech.told.toList
  let closed := c.closed || speech.closes
  if h : told <+: exchange.dispatched ∧ (closed = true → told = exchange.dispatched) then
    some ⟨exchange, told, closed, h.1, h.2⟩
  else none

/-- The logs of the threads, and what each request has come to. -/
structure Dialogue (ι : Type) where
  log : PyStr → List Utterance
  phase : ι → Telling

open Classical in
/-- What request `i` says, and what becomes of the dialogue. -/
noncomputable def Dialogue.step [DecidableEq ι] (reqs : ι → ChatRequest) (d : Dialogue ι)
    (l : ι × Speech) : Option (Dialogue ι) := do
  let phase ← Telling.step (reqs l.1) (d.phase l.1) l.2
  let d := { d with phase := Function.update d.phase l.1 phase }
  match l.2, (reqs l.1).threadId with
  | .store msg, .str threadId =>
      some { d with log := logged d.log threadId msg.utterance }
  | .consult _ limit msgs, .str threadId =>
      if msgs.map Message.utterance = recentUtterances limit (d.log threadId) then some d
      else none
  | .store _, _ => none
  | .consult _ _ _, _ => none
  | _, _ => some d

-- ============================================================================
-- An exchange
-- ============================================================================

/-- The guard of a request. -/
noncomputable abbrev exchanging (req : ChatRequest) : Exchange → Act → Option Exchange :=
  through spoken (Exchange.step req)

section Exchange

variable {req : ChatRequest} {messageId : PyStr} {contents : List Json}

@[simp] theorem Exchange.step_tell {exchange : Exchange} {data : Json} :
    Exchange.step req exchange (.tell data) = some exchange := by
  cases exchange <;> rfl

@[simp] theorem Exchange.step_close {exchange : Exchange} :
    Exchange.step req exchange .close = some exchange := by
  cases exchange <;> rfl

theorem Exchange.step_dispatch {data c : Json} (h : deltaContent data = some c) :
    Exchange.step req (.asked messageId contents) (.dispatch data)
      = some (.asked messageId (contents ++ [c])) := by
  cases contents <;> simp [Exchange.step, h]

theorem Exchange.step_reply {msg : Message} (h : Replies req messageId contents msg) :
    Exchange.step req (.asked messageId contents) (.store msg)
      = some (.answered messageId contents) := by
  cases contents <;> simp [Exchange.step, h]

theorem watch_dispatch {datas : List Json} (hcontent : ∀ data ∈ datas,
      ∃ c, data.getItem (py "content") = .ok c) :
    watch (Exchange.step req) (.asked messageId contents) (datas.map .dispatch) =
      some (.asked messageId (contents ++ datas.filterMap deltaContent)) := by
  induction datas generalizing contents with
  | nil => simp
  | cons data datas ih =>
      obtain ⟨c, hc⟩ := hcontent data List.mem_cons_self
      have hfirst : deltaContent data = some c := deltaContent_of_getItem hc
      rw [List.map_cons, watch_cons (Exchange.step_dispatch hfirst),
        ih fun d hd => hcontent d (List.mem_cons_of_mem _ hd), List.filterMap_cons_some hfirst,
        List.append_assoc, List.singleton_append]

/-- What the guard lets into the table: the question, and later the answer. -/
theorem Exchange.step_store {phase phase' : Exchange} {msg : Message}
    (h : Exchange.step req phase (.store msg) = some phase') :
    (∃ messageId, phase = .announced messageId ∧ Asks req msg ∧
        phase' = .asked messageId []) ∨
      ∃ messageId contents, phase = .asked messageId contents ∧
        Replies req messageId contents msg ∧ phase' = .answered messageId contents := by
  cases phase with
  | announced messageId =>
      rw [Exchange.step] at h
      split at h
      · next hasks => exact Or.inl ⟨messageId, rfl, hasks, (Option.some.inj h).symm⟩
      · cases h
  | asked messageId contents =>
      have hreplies : Replies req messageId contents msg := by
        by_contra hnot
        cases contents <;> simp [Exchange.step, hnot] at h
      rw [Exchange.step_reply hreplies, Option.some.injEq] at h
      exact Or.inr ⟨messageId, contents, rfl, hreplies, h.symm⟩
  | _ => simp [Exchange.step] at h

/-- It is a message of the request. -/
theorem Exchange.step_own {phase phase' : Exchange} {msg : Message}
    (h : Exchange.step req phase (.store msg) = some phase') :
    msg.threadId = req.threadId ∧ msg.seq = 0 ∧ msg.requestId = req.requestId := by
  rcases Exchange.step_store h with ⟨-, -, ⟨userId, rfl⟩, -⟩ | ⟨_, _, -, hreplies, -⟩
  · exact ⟨rfl, rfl, rfl⟩
  · exact ⟨hreplies.threadId, hreplies.seq, hreplies.requestId⟩

theorem Exchange.step_announce {phase phase' : Exchange} {data : Json}
    (h : Exchange.step req phase (.announce data) = some phase') :
    ∃ messageId, phase = .silent ∧ promisedId data = some messageId ∧
      phase' = .announced messageId := by
  cases phase with
  | silent =>
      rw [Exchange.step, Option.map_eq_some_iff] at h
      obtain ⟨messageId, hid, rfl⟩ := h
      exact ⟨messageId, rfl, hid, rfl⟩
  | _ => simp [Exchange.step] at h

/-- A request recalls its own thread, before it is answered, and is where it was. -/
theorem Exchange.step_consult {phase phase' : Exchange} {threadId : Json} {limit : Nat}
    {msgs : List Message}
    (h : Exchange.step req phase (.consult threadId limit msgs) = some phase') :
    ∃ messageId, phase = .asked messageId [] ∧ threadId = req.threadId ∧ phase' = phase := by
  cases phase with
  | asked messageId contents =>
      cases contents with
      | nil =>
          rw [Exchange.step] at h
          split at h
          · next hthread => exact ⟨messageId, rfl, hthread, (Option.some.inj h).symm⟩
          · cases h
      | cons c contents => simp [Exchange.step] at h
  | _ => simp [Exchange.step] at h

/-- Only what has a content is dispatched. -/
theorem Exchange.step_dispatched {phase phase' : Exchange} {data : Json}
    (h : Exchange.step req phase (.dispatch data) = some phase') :
    ∃ messageId contents c, phase = .asked messageId contents ∧ deltaContent data = some c ∧
      phase' = .asked messageId (contents ++ [c]) := by
  cases phase with
  | asked messageId contents =>
      cases hc : deltaContent data with
      | some c =>
          rw [Exchange.step_dispatch hc, Option.some.injEq] at h
          exact ⟨messageId, contents, c, rfl, rfl, h.symm⟩
      | none => cases contents <;> simp [Exchange.step, hc] at h
  | _ => simp [Exchange.step] at h

/-- An exchange is made of what was said. -/
theorem Exchange.step_said {phase phase' : Exchange} {speech : Speech}
    (h : Exchange.step req phase speech = some phase') :
    phase'.promised = phase.promised ++ speech.promised.toList ∧
      phase'.dispatched = phase.dispatched ++ speech.dispatched.toList := by
  cases speech with
  | announce data =>
      obtain ⟨messageId, rfl, hid, rfl⟩ := Exchange.step_announce h
      simp [Speech.promised, Speech.dispatched, Exchange.promised, Exchange.dispatched, hid]
  | store msg =>
      rcases Exchange.step_store h with
        ⟨messageId, rfl, -, rfl⟩ | ⟨messageId, contents, rfl, -, rfl⟩
      · simp [Speech.promised, Speech.dispatched, Exchange.promised, Exchange.dispatched]
      · simp [Speech.promised, Speech.dispatched, Exchange.promised, Exchange.dispatched]
  | consult threadId limit msgs =>
      obtain ⟨messageId, -, -, rfl⟩ := Exchange.step_consult h
      simp [Speech.promised, Speech.dispatched]
  | dispatch data =>
      obtain ⟨messageId, contents, c, rfl, hc, rfl⟩ := Exchange.step_dispatched h
      simp [Speech.promised, Speech.dispatched, Exchange.promised, Exchange.dispatched, hc]
  | tell data =>
      rw [Exchange.step_tell, Option.some.injEq] at h
      simp [Speech.promised, Speech.dispatched, h]
  | close =>
      rw [Exchange.step_close, Option.some.injEq] at h
      simp [Speech.promised, Speech.dispatched, h]

/-- What is dispatched and promised in an exchange is what was said in it. -/
theorem Exchange.said_of_watch {acts : List Act} {phase : Exchange}
    (h : watch (exchanging req) .silent acts = some phase) :
    phase.promised = word idPromised acts ∧ phase.dispatched = word contentDispatched acts := by
  refine watch_invariant (I := fun acts phase => phase.promised = word idPromised acts ∧
    phase.dispatched = word contentDispatched acts) ⟨rfl, rfl⟩ ?_ h
  rintro past phase a phase' ⟨hpromised, hdispatched⟩ hstep
  rw [word_append, word_append, word_cons, word_cons, word_nil, word_nil, List.append_nil,
    List.append_nil, ← hpromised, ← hdispatched, idPromised, contentDispatched]
  cases hspoken : spoken a with
  | none =>
      rw [exchanging, through_none hspoken, Option.some.injEq] at hstep
      simp [hstep]
  | some speech =>
      rw [exchanging, through_some hspoken] at hstep
      exact Exchange.step_said hstep

section Telling

variable {t t' : Telling} {speech : Speech}

theorem Telling.step_eq_some (h : Telling.step req t speech = some t') :
    Exchange.step req t.exchange speech = some t'.exchange ∧
      t'.told = t.told ++ speech.told.toList ∧ t'.closed = (t.closed || speech.closes) := by
  simp only [Telling.step, Option.bind_eq_bind, Option.bind_eq_some_iff] at h
  obtain ⟨exchange, hexchange, h⟩ := h
  split at h
  · cases h
    exact ⟨hexchange, rfl, rfl⟩
  · cases h

theorem Telling.step_of_exchange {exchange : Exchange}
    (h : Exchange.step req t.exchange speech = some exchange)
    (hbegins : t.told ++ speech.told.toList <+: exchange.dispatched)
    (hcomplete : (t.closed || speech.closes) = true →
      t.told ++ speech.told.toList = exchange.dispatched) :
    Telling.step req t speech = some ⟨exchange, t.told ++ speech.told.toList,
      t.closed || speech.closes, hbegins, hcomplete⟩ := by
  simp only [Telling.step, h, Option.bind_eq_bind, Option.bind_some]
  exact dif_pos ⟨hbegins, hcomplete⟩

end Telling

-- ============================================================================
-- The graph
-- ============================================================================

/-- The state of a graph run that answers the request under the id. -/
structure Serves (req : ChatRequest) (messageId : PyStr) (s : GraphState) : Prop where
  request : OfRequest req s
  promised : s.assistantMessageId = messageId

theorem Serves.merge {s : GraphState} (h : Serves req messageId s) (u : Update) :
    Serves req messageId (s.merge u) :=
  ⟨h.request.merge u, h.promised⟩

variable {env : Env σ} {topic : CompiledTopic} {s : GraphState}

/-- A node that says nothing. -/
theorem visit_silent {β : Type} {n : PyStr} {f : NodeFn σ} {next : GraphState → Except Exn β}
    {phase : Exchange} (hs : Serves req messageId s) (hchunks : s.answerChunks = [])
    (hacts : (f s).ActsOnly fun a => spoken a = none)
    (hreturns : (f s).ReturnsOnly fun u => u.answerChunks = []) :
    Watched (exchanging req) phase (visit langGraph n f s next) fun p phase' =>
      phase' = phase ∧ Serves req messageId p.1 ∧ p.1.answerChunks = [] := by
  have hnode : Watched (exchanging req) phase (f s) fun u phase' =>
      phase' = phase ∧ u.answerChunks = [] :=
    .quiet (hacts.mono fun a ha => through_none ha) fun w u hu => ⟨rfl, hreturns w u hu⟩
  refine visit_watched (through_none rfl) hnode fun u phase' b h _ => ?_
  obtain ⟨rfl, hu⟩ := h
  refine ⟨phase', through_none rfl, rfl, hs.merge u, ?_⟩
  show s.answerChunks ++ u.answerChunks = []
  rw [hchunks, hu, List.nil_append]

/-- A node whose chunks are dispatched leaves them in the state. -/
theorem visit_dispatching {β : Type} {n : PyStr} {f : NodeFn σ} {next : GraphState → Except Exn β}
    (hs : Serves req messageId s) (hchunks : s.answerChunks = [])
    (hnode : Watched (exchanging req) (.asked messageId []) (f s) fun u phase =>
      phase = .asked messageId u.answerChunks) :
    Watched (exchanging req) (.asked messageId []) (visit langGraph n f s next) fun p phase =>
      phase = .asked messageId p.1.answerChunks ∧ Serves req messageId p.1 := by
  refine visit_watched (through_none rfl) hnode fun u phase b hphase _ => ?_
  refine ⟨phase, through_none rfl, ?_, hs.merge u⟩
  rw [hphase]
  show _ = Exchange.asked messageId (s.answerChunks ++ u.answerChunks)
  rw [hchunks, List.nil_append]

/-- The persist node stores what was dispatched. -/
theorem persistStage_speaks (hs : Serves req messageId s) :
    Watched (exchanging req) (.asked messageId s.answerChunks) (persistStage env s)
      fun _ _ => True := by
  have hnode : Watched (exchanging req) (.asked messageId s.answerChunks) (persistNode env s)
      fun _ _ => True := by
    refine Repos.withConn_watched _ (fun _ _ => through_none rfl) (fun _ _ => through_none rfl) ?_
    have hjoin : Watched (exchanging req) (.asked messageId s.answerChunks)
        (Eff.ofExcept (Json.join s.answerChunks) : Prog σ PyStr) fun content phase =>
          phase = .asked messageId s.answerChunks ∧ Json.join s.answerChunks = .ok content :=
      .ofExcept fun _ h => ⟨rfl, h⟩
    refine hjoin.bind fun content phase h => ?_
    obtain ⟨rfl, hcontent⟩ := h
    have hreply : Replies req messageId s.answerChunks (assistantMessage s content) :=
      ⟨hs.promised, hs.request.threadId, hs.request.requestId, rfl, rfl, content, hcontent, rfl⟩
    have happend : Watched (exchanging req) (.asked messageId s.answerChunks)
        (env.repos.callAppend (assistantMessage s content)) fun _ _ => True := by
      refine .call_answer fun r => ?_
      cases r with
      | ok u => exact ⟨.answered messageId s.answerChunks,
          (through_some rfl).trans (Exchange.step_reply hreply), by simp⟩
      | error e => exact ⟨_, through_none rfl, by simp⟩
    refine happend.bind fun _ phase _ => ?_
    have htouch : Watched (exchanging req) phase (env.repos.callTouch s.threadId)
        fun _ phase' => phase' = phase := .call fun _ => through_none rfl
    exact htouch.bind fun _ _ _ => .ret trivial
  have hvisit : Watched (exchanging req) (.asked messageId s.answerChunks)
      (step "persist_node" (persistNode env) s) fun _ _ => True :=
    visit_watched (through_none rfl) hnode fun u phase b _ _ => ⟨phase, through_none rfl, trivial⟩
  exact hvisit.bind fun _ _ _ => .ret trivial

theorem rejectStage_speaks (hs : Serves req messageId s) (hchunks : s.answerChunks = []) :
    Watched (exchanging req) (.asked messageId []) (rejectStage env topic s) fun _ _ => True := by
  have hnode : Watched (exchanging req) (.asked messageId [])
      (makeRejectNode (NodeEnv.live σ) topic.errorMessages s)
      fun u phase => phase = .asked messageId u.answerChunks := by
    have hdispatch : exchanging req (.asked messageId [])
        (.emit (rejectDelta (rejectText topic.errorMessages s.auth)))
        = some (.asked messageId [.str (rejectText topic.errorMessages s.auth)]) :=
      (through_some rfl).trans (Exchange.step_dispatch (deltaContent_of_getItem (by
        simp [rejectDelta, literalEvent, Json.getItem, Json.field])))
    rw [makeRejectNode_live]
    refine .play (watch_cons hdispatch) fun u hu => ?_
    cases hu
    rfl
  have hvisit : Watched (exchanging req) (.asked messageId [])
      (step "reject_node" (makeRejectNode (NodeEnv.live σ) topic.errorMessages) s)
      fun p phase => phase = .asked messageId p.1.answerChunks ∧ Serves req messageId p.1 :=
    visit_dispatching hs hchunks hnode
  refine hvisit.bind fun p phase h => ?_
  obtain ⟨rfl, hp⟩ := h
  exact persistStage_speaks hp

theorem adapterStage_speaks {routed : RoutedAdapter topic} (hs : Serves req messageId s)
    (hchunks : s.answerChunks = []) :
    Watched (exchanging req) (.asked messageId []) (adapterStage env topic routed s)
      fun _ _ => True := by
  have hnode : Watched (exchanging req) (.asked messageId [])
      (topicAdapterNode topic routed.node routed.adapter s : Prog σ Update)
      fun u phase => phase = .asked messageId u.answerChunks := by
    rw [topicAdapterNode_live]
    have hword : word spoken (topic.adapterTrace routed.node routed.adapter s).1 =
        (word emittedDelta (topic.adapterTrace routed.node routed.adapter s).1).map .dispatch := by
      rw [word, word, List.map_filterMap]
      refine List.filterMap_congr fun a ha => ?_
      rcases mem_adapterTrace ha with ⟨ev, rfl⟩ | ⟨k, rfl⟩ | rfl
      · by_cases htype : ev.type = .delta <;> simp [spoken, emittedDelta, htype]
      · rfl
      · rfl
    have hdispatches : watch (exchanging req) (.asked messageId [])
        (topic.adapterTrace routed.node routed.adapter s).1 = some (.asked messageId
          (topic.adapterTrace routed.node routed.adapter s).2.answerChunks) := by
      rw [watch_through, hword, watch_dispatch fun data hdata => adapterTrace_content hdata,
        ← dispatchedDeltas_eq, CompiledTopic.adapterTrace, adapterTrace_answerChunks]
    refine .play hdispatches fun u hu => ?_
    cases hu
    rfl
  have hvisit : Watched (exchanging req) (.asked messageId [])
      (visit langGraph routed.node (topicAdapterNode topic routed.node routed.adapter) s
        fun _ => (.ok ()) : Prog σ (GraphState × Unit))
      fun p phase => phase = .asked messageId p.1.answerChunks ∧ Serves req messageId p.1 :=
    visit_dispatching hs hchunks hnode
  refine hvisit.bind fun p phase h => ?_
  obtain ⟨rfl, hp⟩ := h
  exact persistStage_speaks hp

/-- load_session recalls the log of its thread, and says nothing else. -/
theorem loadStage_speaks (hs : Serves req messageId s) (hchunks : s.answerChunks = []) :
    Watched (exchanging req) (.asked messageId [])
      (step "load_session" (loadSessionNode env topic) s) fun p phase =>
        phase = .asked messageId [] ∧ Serves req messageId p.1 ∧ p.1.answerChunks = [] := by
  have hnode : Watched (exchanging req) (.asked messageId []) (loadSessionNode env topic s)
      fun u phase => phase = .asked messageId [] ∧ u.answerChunks = [] := by
    refine Repos.withConn_watched _ (fun _ _ => through_none rfl) (fun _ _ => through_none rfl) ?_
    have hself : Watched (exchanging req) (.asked messageId [])
        (Eff.ofExcept (s.identity.elim (.error .attributeError) .ok) : Prog σ AuthnIdentity)
        fun _ phase => phase = .asked messageId [] := .ofExcept fun _ _ => rfl
    refine hself.bind fun identity phase hphase => ?_
    subst hphase
    have hbind : Watched (exchanging req) (.asked messageId [])
        (env.repos.callGetOrCreate s.threadId s.bizId identity.w3Account)
        fun _ phase => phase = .asked messageId [] := .call fun _ => through_none rfl
    refine hbind.bind fun _ phase hphase => ?_
    subst hphase
    have hlist : Watched (exchanging req) (.asked messageId [])
        (env.repos.callListRecent s.threadId (topic.history.maxTurns * 4))
        fun _ phase => phase = .asked messageId [] := by
      refine .call fun r => ?_
      cases r with
      | error e => exact through_none rfl
      | ok msgs => exact (through_some rfl).trans (if_pos hs.request.threadId)
    exact hlist.bind fun _ phase hphase => .ret ⟨hphase, rfl⟩
  refine visit_watched (through_none rfl) hnode fun u phase b h _ => ?_
  obtain ⟨rfl, hu⟩ := h
  refine ⟨_, through_none rfl, rfl, hs.merge u, ?_⟩
  show s.answerChunks ++ u.answerChunks = []
  rw [hchunks, hu, List.nil_append]

theorem answerStage_speaks (hs : Serves req messageId s) (hchunks : s.answerChunks = []) :
    Watched (exchanging req) (.asked messageId []) (answerStage env topic s) fun _ _ => True := by
  refine (visit_silent hs hchunks ?_ ?_).bind fun p phase hp => ?_
  · refine (enrichNode_acts topic s).mono fun a ha => ?_
    cases a with
    | emit ev => rcases ha with htype | htype <;> simp [spoken, htype]
    | enrich s r => rfl
    | _ => exact ha.elim
  · rintro w u hu
    obtain ⟨r, rfl⟩ := enrichNode_returns topic s w u hu
    rfl
  obtain ⟨rfl, hp, hpchunks⟩ := hp
  refine (visit_silent hp hpchunks ?_ ?_).bind fun q phase hq => ?_
  · refine (intentNode_acts env topic p.1 topic.mapping).mono fun a ha => ?_
    cases a with
    | emit ev => rcases ha with htype | htype <;> simp [spoken, htype]
    | classify s k r => rfl
    | sleep ms => rfl
    | _ => exact ha.elim
  · rintro w u hu
    obtain ⟨answer, rfl⟩ := intentNode_returns env topic p.1 topic.mapping w u hu
    rfl
  obtain ⟨rfl, hq, hqchunks⟩ := hq
  exact adapterStage_speaks hq hqchunks

theorem authStage_speaks (hs : Serves req messageId s) (hchunks : s.answerChunks = []) :
    Watched (exchanging req) (.asked messageId []) (authStage env topic s) fun _ _ => True := by
  refine (visit_silent hs hchunks ?_ ?_).bind fun p phase hp => ?_
  · refine (authNode_acts topic s).mono fun a ha => ?_
    cases a with
    | emit ev => rcases ha with htype | htype <;> simp [spoken, htype]
    | authorize s r => rfl
    | _ => exact ha.elim
  · rintro w u hu
    obtain ⟨r, -, rfl⟩ := authNode_returns topic s w u hu
    unfold authUpdate
    split <;> rfl
  obtain ⟨rfl, hp, hpchunks⟩ := hp
  split
  · exact answerStage_speaks hp hpchunks
  · exact rejectStage_speaks hp hpchunks

/-- The graph of a request whose question is stored. -/
theorem pipeline_speaks (hs : Serves req messageId s) (hchunks : s.answerChunks = []) :
    Watched (exchanging req) (.asked messageId []) (pipeline env topic s) fun _ _ => True := by
  refine (loadStage_speaks hs hchunks).bind fun p phase hp => ?_
  obtain ⟨rfl, hp, hpchunks⟩ := hp
  exact authStage_speaks hp hpchunks

-- ============================================================================
-- The relay
-- ============================================================================

/-- The acts that come later than the graph's: an event is yielded, when the relay
    gets to it.  The meta event is yielded before there is a graph. -/
def Act.late : Act → Bool
  | .yield ev => ev.type ≠ .meta
  | _ => false

/-- They make no difference to the exchange. -/
theorem Act.late_quiet {a : Act} (h : a.late = true) (phase : Exchange) :
    exchanging req phase a = some phase := by
  cases a with
  | yield ev =>
      cases htype : ev.type with
      | «meta» => simp [Act.late, htype] at h
      | delta =>
          have hspoken : spoken (.yield ev) = some (.tell ev.data) := by simp [spoken, htype]
          exact (through_some hspoken).trans Exchange.step_tell
      | done =>
          have hspoken : spoken (.yield ev) = some .close := by simp [spoken, htype]
          exact (through_some hspoken).trans Exchange.step_close
      | _ =>
          apply through_none
          simp [spoken, htype]
  | _ => cases h

theorem relay_late {errorMessages : Dict PyStr PyStr} {a : Act} {out : List Act}
    (h : relay errorMessages a = .ok out) : ∀ o ∈ out, o.late = true := by
  intro o ho
  obtain ⟨ev, data, -, hmeta, -, rfl⟩ := relay_mem h ho
  simpa [Act.late] using hmeta

/-- The loop over the graph. -/
theorem relayed_speaks (hs : Serves req messageId s) (hchunks : s.answerChunks = []) :
    Watched (exchanging req) (.asked messageId []) (relayed env topic s) fun _ _ => True :=
  (pipeline_speaks hs hchunks).consume
    (fun _ _ h o ho phase => Act.late_quiet (relay_late h o ho) phase) env.grace

-- ============================================================================
-- A request
-- ============================================================================

/-- The question goes to the log, or nothing does. -/
theorem persistUserMessage_speaks :
    Watched (exchanging req) (.announced messageId) (persistUserMessage env req)
      fun _ phase => phase = .asked messageId [] := by
  refine Repos.withConn_watched _ (fun _ _ => through_none rfl) (fun _ _ => through_none rfl) ?_
  have hbind : Watched (exchanging req) (.announced messageId)
      (env.repos.callGetOrCreate req.threadId req.bizId req.w3Account)
      fun _ phase => phase = .announced messageId := .call fun _ => through_none rfl
  refine hbind.bind fun _ phase hphase => ?_
  subst hphase
  have hid : Watched (exchanging req) (.announced messageId) (newMessageId env)
      fun _ phase => phase = .announced messageId := by
    have hdraw : Watched (exchanging req) (.announced messageId)
        (Eff.draw env.newUlid : Prog σ PyStr) fun _ phase => phase = .announced messageId :=
      .draw fun _ => rfl
    exact hdraw.bind fun _ _ hphase => .ret hphase
  refine hid.bind fun userId phase hphase => ?_
  subst hphase
  refine .call_answer fun r => ?_
  cases r with
  | ok u =>
      have hasks : Asks req (userMessage req userId) := ⟨userId, rfl⟩
      exact ⟨.asked messageId [], (through_some rfl).trans (if_pos hasks), fun _ _ => rfl⟩
  | error e => exact ⟨_, through_none rfl, by simp⟩

theorem yield_quiet {phase : Exchange} {ev : ChatEvent} (h : ev.type ≠ .meta) :
    Watched (exchanging req) phase (Eff.act (.yield ev) : Prog σ Unit)
      fun _ phase' => phase' = phase :=
  .act (Act.late_quiet (by simpa [Act.late] using h) phase)

theorem afterUser_speaks {phase : Exchange} {r : Except Exn Unit}
    (hr : ∀ u, r = .ok u → phase = .asked messageId []) :
    Watched (exchanging req) phase (afterUser env topic req messageId r) fun _ _ => True := by
  cases r with
  | error e =>
      cases e with
      | sessionBizMismatch detail =>
          have hbound : (threadBound req detail).type ≠ .meta := by simp
          have hdone : doneFailed.type ≠ .meta := by simp
          exact (yield_quiet hbound).bind fun _ _ _ => (yield_quiet hdone).mono
            fun _ _ _ => trivial
      | _ => exact .raise
  | ok u =>
      obtain rfl := hr u rfl
      have hserves : Serves req messageId (initialState req messageId) :=
        ⟨ofRequest_initialState req messageId, rfl⟩
      cases hbuild : buildGraph env topic with
      | error e =>
          simp only [afterUser, hbuild]
          show Watched _ _ (Eff.raise e) _
          exact .raise
      | ok graph =>
          simp only [afterUser, hbuild]
          have hloop : Watched (exchanging req) (.asked messageId [])
              (chatLoop env topic req graph messageId) fun _ _ => True := by
            unfold chatLoop
            rw [graph_run_eq_pipeline hbuild]
            refine (relayed_speaks hserves rfl).attempt.bind fun r phase _ => ?_
            cases r with
            | ok u => exact .ret trivial
            | error e =>
                have herror : (internalError req topic).type ≠ .meta := by simp
                show Watched _ _ (if e.isException then _ else _) _
                split
                · exact (yield_quiet herror).mono fun _ _ _ => trivial
                · exact .raise
          have hdone : (doneComplete messageId).type ≠ .meta := by simp
          show Watched _ _ (chatLoop env topic req graph messageId >>= fun _ => Eff.act _) _
          exact hloop.bind fun _ _ _ => (yield_quiet hdone).mono fun _ _ _ => trivial

/-- A request keeps to its exchange, whatever its environment does. -/
theorem handle_speaks (env : Env σ) (topics : TopicRegistry) (req : ChatRequest) :
    Watched (exchanging req) .silent (handle env topics req) fun _ _ => True := by
  have hfailed : ∀ ev : ChatEvent, ev.type = .error → Watched (exchanging req) .silent
      (Eff.act (.yield ev) >>= fun _ => Eff.act (.yield doneFailed) : Prog σ Unit)
      fun _ _ => True := by
    intro ev htype
    have herror : ev.type ≠ .meta := by simp [htype]
    have hdone : doneFailed.type ≠ .meta := by simp
    exact (yield_quiet herror).bind fun _ _ _ => (yield_quiet hdone).mono fun _ _ _ => trivial
  unfold handle
  split
  · exact hfailed _ (topicNotFound_type req)
  · next topic _ =>
    split
    · show Watched _ _ (newMessageId env >>= fun messageId => Eff.act _ >>= fun _ =>
        Eff.attempt (persistUserMessage env req) >>= afterUser env topic req messageId) _
      have hid : Watched (exchanging req) .silent (newMessageId env)
          fun _ phase => phase = .silent := by
        have hdraw : Watched (exchanging req) .silent (Eff.draw env.newUlid : Prog σ PyStr)
            fun _ phase => phase = .silent := .draw fun _ => rfl
        exact hdraw.bind fun _ _ hphase => .ret hphase
      refine hid.bind fun messageId phase hphase => ?_
      subst hphase
      have hannounce : Watched (exchanging req) .silent
          (Eff.act (.yield (metaEvent req messageId)) : Prog σ Unit)
          fun _ phase => phase = .announced messageId := by
        have hspoken : spoken (.yield (metaEvent req messageId))
            = some (.announce (metaEvent req messageId).data) := by simp [spoken]
        refine .act ((through_some hspoken).trans ?_)
        simp [Exchange.step, promisedId, metaEvent, literalEvent, Json.getItem, Json.field]
      refine hannounce.bind fun _ phase hphase => ?_
      subst hphase
      exact persistUserMessage_speaks.attempt.bind fun r phase hr => afterUser_speaks hr
    · exact hfailed _ (invalidParams_type env req)

end Exchange

end MasterAgent
