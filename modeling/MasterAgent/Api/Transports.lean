/-
  MasterAgent.Api.Transports

  One question over either transport.  What a client posts to `/api/v1/chat/sse` in
  headers and body it can say on a connection to `/api/v1/chat/ws`, in query
  parameters, headers and an ask frame.  The service is asked the same, and before
  the same plugins and repositories the two clients are told the same events: one of
  them as many as the other, or more.
-/

import MasterAgent.Api.Multiplex
import MasterAgent.Api.SseStream

namespace MasterAgent

open Effect

variable {σ : Type}

-- ============================================================================
-- The same question
-- ============================================================================

/-- The connection that says what the headers of a POST say, and of its body the
    account and the topic. -/
def SseHeaders.connect (headers : SseHeaders) (body : ChatBody) : WsConnect where
  w3Account := some body.w3Account.text
  bizId := some body.bizId.text
  userRole := headers.userRole
  userClaims := headers.userClaims

/-- The ask frame that says the rest. -/
def ChatBody.frame (body : ChatBody) (requestId : PyStr) : Frame :=
  [(py "op", .str (py "ask")), (py "request_id", .str requestId),
    (py "thread_id", .str body.threadId.text), (py "question", .str body.question.text),
    (py "biz_params", .obj body.bizParams)]

section Question

variable {loads : JsonLoads} {hasService : Bool} {topics : TopicRegistry} {headers : SseHeaders}
  {requestId : PyStr} {body : ChatBody} {req : ChatRequest}

/-- The claims that the POST endpoint accepts are those that the connection takes, as
    the empty text is no JSON. -/
theorem wsClaims_of_sseClaims (hempty : ∀ v, loads [] ≠ .ok v) {claims : List (PyStr × Json)}
    (h : sseClaims loads headers.userClaims = .ok claims) :
    wsClaims loads headers.userClaims = claims := by
  cases hheader : headers.userClaims with
  | none =>
      rw [hheader] at h
      cases h
      rfl
  | some text =>
      rw [hheader, sseClaims] at h
      cases text with
      | nil =>
          cases hloads : loads [] with
          | ok v => exact absurd hloads (hempty v)
          | error e => simp [hloads] at h
      | cons c text =>
          rw [wsClaims]
          cases hloads : loads (c :: text) with
          | error e => simp [hloads] at h
          | ok v =>
              cases v with
              | obj fields =>
                  simp only [hloads, Except.ok.injEq] at h
                  exact h
              | _ => simp [hloads] at h

/-- A role that is given is taken as it is. -/
theorem headerOr_eq_getD {header : Option PyStr} (h : header ≠ some []) (default : PyStr) :
    headerOr header default = header.getD default := by
  cases header with
  | none => rfl
  | some text =>
      cases text with
      | nil => exact absurd rfl h
      | cons c text => rfl

/-- Where a connection is opened. -/
theorem openWs_iff {conn : WsConnect} : (∃ ctx, openWs loads hasService topics conn = .ok ctx) ↔
    hasService = true ∧ ∃ topic, topics.get (conn.bizId.getD []) = some topic := by
  constructor
  · rintro ⟨ctx, h⟩
    obtain ⟨hservice, htopic, rfl⟩ := openWs_accepts h
    exact ⟨hservice, htopic⟩
  · rintro ⟨rfl, topic, htopic⟩
    refine ⟨conn.context loads, ?_⟩
    have hknown : topics.get (conn.context loads).bizId = some topic := htopic
    rw [openWs, hknown]
    rfl

/-- What the POST endpoint accepts, and as which request. -/
theorem chatSse_eq_ok : chatSse loads hasService topics headers requestId body = .ok req ↔
    (hasService = true ∧ ∃ topic, topics.get body.bizId.text = some topic) ∧
      (∀ account, headers.userAccount = some account → account = body.w3Account.text) ∧
      ∃ claims, sseClaims loads headers.userClaims = .ok claims ∧
        req = body.request headers requestId claims := by
  have haccount : headers.userAccount.any (· ≠ body.w3Account.text) = true ↔
      ¬ ∀ account, headers.userAccount = some account → account = body.w3Account.text := by
    cases headers.userAccount with
    | none => simp
    | some account => simp
  unfold chatSse
  cases hasService with
  | false => simp
  | true =>
      cases topics.get body.bizId.text with
      | none => simp
      | some topic =>
          simp only [Bool.not_true, Bool.false_eq_true, if_false, haccount]
          split
          · next hother => simp [hother]
          · next hsame =>
            rw [not_not] at hsame
            cases sseClaims loads headers.userClaims with
            | error e => simp
            | ok claims =>
                constructor
                · rintro ⟨⟩
                  exact ⟨⟨trivial, topic, rfl⟩, hsame, claims, rfl, rfl⟩
                · rintro ⟨-, -, _, ⟨⟩, rfl⟩
                  rfl

/-- What the POST endpoint hands to the service, the ask hands to it over the
    connection. -/
theorem askRequest_of_chatSse (hempty : ∀ v, loads [] ≠ .ok v)
    (hrole : headers.userRole ≠ some [])
    (h : chatSse loads hasService topics headers requestId body = .ok req) :
    ((headers.connect body).context loads).askRequest (body.frame requestId) (.str requestId)
      = req := by
  obtain ⟨-, -, claims, hclaims, rfl⟩ := chatSse_eq_ok.mp h
  have hthread : (Json.str body.threadId.text).orElse (.str (py "unknown"))
      = .str body.threadId.text := by
    cases hid : body.threadId.text with
    | nil => exact absurd hid body.threadId.ne_nil
    | cons c text => rfl
  have hidentity : ((headers.connect body).context loads).identity =
      { w3Account := body.w3Account.text
        rawClaims := rawClaims (headerOr headers.userRole (py "REP")) claims } := by
    rw [headerOr_eq_getD hrole, ← wsClaims_of_sseClaims hempty hclaims]
    rfl
  have hframe : frameGet (body.frame requestId) (py "thread_id") = .str body.threadId.text := by
    simp [frameGet, ChatBody.frame, Json.field]
  have hquestion : Json.field (py "question") (body.frame requestId)
      = some (.str body.question.text) := by
    simp [ChatBody.frame, Json.field]
  have hparams : Json.field (py "biz_params") (body.frame requestId)
      = some (.obj body.bizParams) := by
    simp [ChatBody.frame, Json.field]
  unfold WsContext.askRequest
  rw [hidentity, hframe, hthread, hquestion, hparams]
  rfl

end Question

-- ============================================================================
-- The same answer
-- ============================================================================

/-- What a client makes of the name and the text of an event: the event, unless the
    text is no JSON. -/
def eventRead (floats : Json.FloatTexts) (ev : ChatEvent) : Option (PyStr × Json) :=
  (Json.loads floats (ev.data.dumps floats)).map fun data => (ev.type.text, data)

/-- What the client of a stream has received with the chunks of its body so far. -/
def bodyEvents (floats : Json.FloatTexts) (chunks : List (List UInt8)) :
    List (Option (PyStr × Json)) :=
  ((decodeUtf8 chunks.flatten).elim [] (received floats)).map fun ev =>
    ev.2.map fun data => (ev.1, data)

/-- What the client of a connection has received under an id: it reads the texts of
    the frames that carry an event. -/
def Connection.toldUnder (floats : Json.FloatTexts) (c : Connection) (s : PyStr) :
    List (Option (PyStr × Json)) :=
  (c.sent.filter fun frame => (eventOf frame).any fun ev => ev.1.isStr s).map fun frame =>
    ((Json.loads floats (frame.dumps floats)).bind eventOf).map Prod.snd

section Body

variable {floats : Json.FloatTexts}

/-- The chunks of events are the bytes of the text that they make. -/
theorem encodeUtf8_flatten {events : List ChatEvent} {chunks : List (List UInt8)}
    (h : List.Forall₂ (fun ev chunk => sseBytes floats ev = .ok chunk) events chunks) :
    encodeUtf8 (events.flatMap (encodeSse floats)) = .ok chunks.flatten := by
  induction h with
  | nil => rfl
  | cons hchunk _ ih =>
      rw [List.flatMap_cons, List.flatten_cons]
      exact encodeUtf8_append hchunk ih

/-- Of the chunks of events the client receives the events. -/
theorem bodyEvents_of_chunks {events : List ChatEvent} {chunks : List (List UInt8)}
    (h : List.Forall₂ (fun ev chunk => sseBytes floats ev = .ok chunk) events chunks)
    (hid : ∀ ev ∈ events, ev.eventId = none) :
    bodyEvents floats chunks = events.map (eventRead floats) := by
  rw [bodyEvents, decodeUtf8_encodeUtf8 (encodeUtf8_flatten h), Option.elim_some,
    received_events hid, List.map_map]
  rfl

/-- The stream has sent the chunks of the first events. -/
theorem sseStream_chunks (ending : Except Exn Unit) (events : List ChatEvent) :
    ∃ m, List.Forall₂ (fun ev chunk => sseBytes floats ev = .ok chunk) (events.take m)
      (sseStream floats ending events).1 := by
  induction events with
  | nil => exact ⟨0, .nil⟩
  | cons ev events ih =>
      cases hchunk : sseBytes floats ev with
      | error e =>
          simp only [sseStream, hchunk]
          exact ⟨0, .nil⟩
      | ok chunk =>
          obtain ⟨m, hm⟩ := ih
          simp only [sseStream, hchunk]
          exact ⟨m + 1, .cons hchunk hm⟩

/-- With any number of chunks the client has received the first events of the run, in
    their order. -/
theorem bodyEvents_isPrefix {run : Run σ Exn Act Unit}
    (hid : ∀ ev ∈ word Act.yielded run.trace, ev.eventId = none) (n : Nat) :
    bodyEvents floats ((responseBody floats run).1.take n) <+:
      (word Act.yielded run.trace).map (eventRead floats) := by
  obtain ⟨m, hm⟩ := @sseStream_chunks floats run.result (word Act.yielded run.trace)
  have htake := List.forall₂_take n hm
  rw [List.take_take] at htake
  rw [responseBody, bodyEvents_of_chunks htake fun ev hev => hid ev (List.mem_of_mem_take hev)]
  exact (List.take_prefix _ _).map _

end Body

namespace Connection

variable {c : Connection} {e : Endpoint σ} {floats : Json.FloatTexts}

/-- The frames that carry an event are those of `encode_ws`. -/
def EventFrames (c : Connection) : Prop :=
  ∀ frame ∈ c.sent, eventOf frame = none ∨ ∃ ev id, frame = encodeWs ev id

theorem EventFrames.append {c' : Connection} (h : c.EventFrames) {frame : Json}
    (hsent : c'.sent = c.sent ++ [frame])
    (hframe : eventOf frame = none ∨ ∃ ev id, frame = encodeWs ev id) : c'.EventFrames := by
  intro frame' hmem
  rw [hsent, List.mem_append, List.mem_singleton] at hmem
  rcases hmem with hmem | rfl
  · exact h frame' hmem
  · exact hframe

theorem EventFrames.step (h : c.EventFrames) (input : WsInput) : (c.step e input).EventFrames := by
  have hcases := c.step_cases e input
  generalize c.step e input = c' at hcases ⊢
  cases hcases with
  | answered hframe => exact h.append rfl (.inl hframe)
  | @resumed i delivered _ hinput hresumed =>
      cases hresumed with
      | sent => exact h.append rfl (.inr ⟨_, _, rfl⟩)
      | finished | cut =>
          intro frame hmem
          rw [finish_sent] at hmem
          exact h frame hmem
      | _ => exact h
  | _ => exact h

theorem eventFrames_after (e : Endpoint σ) (inputs : List WsInput) :
    (e.after inputs).EventFrames := by
  have hready : Connection.ready.EventFrames := by
    intro frame hmem
    rw [List.mem_singleton.mp hmem]
    exact .inl eventOf_ready
  exact @Machine.exec_invariant_along _ _ _ _ _ (fun _ _ _ => True)
    (fun _ c => Connection.EventFrames c) hready (fun _ _ input h _ => h.step input)
    fun _ _ _ _ => trivial

/-- The text of an event frame is read as the event's own text is. -/
theorem toldUnder_eq (hfloats : floats.Documented) (h : c.EventFrames) (s : PyStr) :
    c.toldUnder floats s = (c.streamOf s).map fun ev => some (ev.1, ev.2.reread) := by
  unfold toldUnder streamOf streamUnder
  unfold EventFrames at h
  generalize c.sent = frames at h ⊢
  induction frames with
  | nil => rfl
  | cons frame frames ih =>
      have hrest := ih fun frame hmem => h frame (List.mem_cons_of_mem _ hmem)
      rcases h frame List.mem_cons_self with hnone | ⟨ev, id, rfl⟩
      · rw [List.filter_cons_of_neg (by simp [hnone]), List.filterMap_cons_none hnone, hrest]
      · have hread := loads_encodeWsText_documented hfloats ev id
        rw [List.filterMap_cons_some (eventOf_encodeWs ev id)]
        cases hid : id.isStr s with
        | false =>
            rw [List.filter_cons_of_neg (by simp [hid]), List.filter_cons_of_neg (by simp [hid]),
              hrest]
        | true =>
            rw [List.filter_cons_of_pos (by simp [hid]), List.filter_cons_of_pos (by simp [hid]),
              List.map_cons, hrest]
            rw [encodeWsText] at hread
            rw [hread]
            rfl

end Connection

/-- **Either transport.**  A question can be posted if and only if a connection for it
    can be opened, its account is that of the header and its claims are a JSON object.
    It is then the same question over the connection, unless the header of the role is
    empty; and in every interleaving of the connection's tasks, wherever either client
    is cut off, what one of them has received begins what the other has.  Where nothing
    disturbs the ask and every event can be encoded, they receive the same. -/
theorem transports_agree {e : Endpoint σ} {inputs : List WsInput} (h : WellUsed e inputs)
    {floats : Json.FloatTexts} (hfloats : floats.Documented) {loads : JsonLoads}
    (hempty : ∀ v, loads [] ≠ .ok v) (hasService : Bool) (headers : SseHeaders)
    (requestId : PyStr) (body : ChatBody) :
    ((∃ req, chatSse loads hasService e.topics headers requestId body = .ok req) ↔
      (∃ ctx, openWs loads hasService e.topics (headers.connect body) = .ok ctx) ∧
        (∀ account, headers.userAccount = some account → account = body.w3Account.text) ∧
        ∃ claims, sseClaims loads headers.userClaims = .ok claims) ∧
    (headers.userRole ≠ some [] →
      ∀ req i t, chatSse loads hasService e.topics headers requestId body = .ok req →
      openWs loads hasService e.topics (headers.connect body) = .ok e.context →
      (e.after inputs).tasks[i]? = some t → t.frame = body.frame requestId →
      let answer := handle (e.env i) e.topics req (e.world i)
      let chunks := (responseBody floats answer).1
      let told := (e.after inputs).toldUnder floats requestId
      (∀ n, bodyEvents floats (chunks.take n) <+: told ∨
        told <+: bodyEvents floats (chunks.take n)) ∧
      (Delivered floats answer → Connection.Undisturbed e inputs (e.after inputs) i t →
        t.Ended → bodyEvents floats chunks = told)) := by
  constructor
  · constructor
    · rintro ⟨req, hreq⟩
      obtain ⟨hopen, haccount, claims, hclaims, -⟩ := chatSse_eq_ok.mp hreq
      exact ⟨openWs_iff.mpr hopen, haccount, claims, hclaims⟩
    · rintro ⟨hopen, haccount, claims, hclaims⟩
      exact ⟨_, chatSse_eq_ok.mpr ⟨openWs_iff.mp hopen, haccount, claims, hclaims, rfl⟩⟩
  · intro hrole req i t hreq hopen ht hframe answer chunks told
    obtain ⟨-, -, hcontext⟩ := openWs_accepts hopen
    have hid : t.requestId = .str requestId := by
      rw [((after_orderly h).named i t ht).1, hframe]
      simp [Connection.frameId, ChatBody.frame, Json.field]
    have hscript : Connection.script e i t = .ofRun answer := by
      rw [Connection.script, hcontext, hframe, hid, askRequest_of_chatSse hempty hrole hreq]
    have hnumber : ∀ ev ∈ word Act.yielded answer.trace, ev.eventId = none :=
      handle_unnumbered (e.env i) e.topics req (e.world i)
    have hread : ∀ ev : ChatEvent, eventRead floats ev = some (ev.type.text, ev.data.reread) := by
      intro ev
      rw [eventRead, Json.loads_dumps_documented hfloats]
      rfl
    have htold := (after_multiplexed h).told i t ht
    have hstream : told = ((word Act.yielded answer.trace).take t.sentCount).map
        (eventRead floats) := by
      show (e.after inputs).toldUnder floats requestId = _
      rw [Connection.toldUnder_eq hfloats (Connection.eventFrames_after e inputs),
        htold.stream requestId hid, hscript, List.map_map]
      exact List.map_congr_left fun ev _ => (hread ev).symm
    have hpart : told <+: (word Act.yielded answer.trace).map (eventRead floats) := by
      rw [hstream]
      exact (List.take_prefix _ _).map _
    constructor
    · intro n
      exact List.prefix_or_prefix_of_prefix (bodyEvents_isPrefix hnumber n) hpart
    · rintro ⟨sent, hsent, hbody⟩ hundisturbed hended
      have hall : t.sentCount = (word Act.yielded answer.trace).length := by
        rw [htold.whole hundisturbed hended, hscript]
        rfl
      have hchunks : chunks = sent := congrArg Prod.fst hbody
      rw [hchunks, bodyEvents_of_chunks hsent hnumber, hstream, hall, List.take_length]

/-- A question about the topic. -/
def postedBody : ChatBody where
  bizId := ⟨py "topic", by decide, scalars_py _⟩
  threadId := ⟨py "th", by decide, scalars_py _⟩
  w3Account := ⟨py "alice", by decide, scalars_py _⟩
  question := ⟨py "q", by decide, scalars_py _⟩
  bizParams := []

/-- An endpoint on whose database every thread is bound to another topic. -/
def boundEndpoint : Endpoint Unit :=
  { smallEndpoint with
    codec := tableCodec [(py "q", .obj (postedBody.frame (py "r")))]
    topics := oneTopic (smallTopic openAuth plainEnrich (scripted []))
    context := (({} : SseHeaders).connect postedBody).context fun _ => .error []
    env := fun _ =>
      let bound := fun _ _ _ w => (.error (.sessionBizMismatch (py "bound")), w)
      plainEnv { idleRepos with getOrCreate := bound } fun w => (py "1", w) }

/-- The question is asked, told of the three events and done. -/
def askedOnce : List WsInput := receives "q" :: List.replicate 5 (.resume 0 true)

theorem askedOnce_wellUsed : WellUsed boundEndpoint askedOnce :=
  wellUsed_of_texts [py "r"] rfl (by decide) (by decide)

/-- The question over the connection. -/
def askedTask : AskTask where
  frame := postedBody.frame (py "r")
  requestId := .str (py "r")
  phase := .ended 3 .finished

/-- Alice is told over either transport that the thread is bound. -/
theorem transports_agree_bound :
    let told := (boundEndpoint.after askedOnce).toldUnder Json.bitTexts (py "r")
    told.map (Option.map Prod.fst) = [some (py "meta"), some (py "error"), some (py "done")] ∧
    ∃ req, chatSse (fun _ => .error []) true boundEndpoint.topics {} (py "r") postedBody = .ok req ∧
      bodyEvents Json.bitTexts (responseBody Json.bitTexts
        (handle (boundEndpoint.env 0) boundEndpoint.topics req ())).1 = told := by
  have ht : (boundEndpoint.after askedOnce).tasks[0]? = some askedTask := rfl
  have htold : ((boundEndpoint.after askedOnce).streamOf (py "r")).map Prod.fst
      = [py "meta", py "error", py "done"] := rfl
  have hscalar : ∀ ev ∈ word Act.yielded (handle (boundEndpoint.env 0) boundEndpoint.topics
      (postedBody.request {} (py "r") []) ()).trace, ev.Scalar := by
    have hdata : (word Act.yielded (handle (boundEndpoint.env 0) boundEndpoint.topics
        (postedBody.request {} (py "r") []) ()).trace).map ChatEvent.data =
          [.obj [(py "thread_id", .str (py "th")), (py "request_id", .str (py "r")),
              (py "message_id", .str (py "msg_1")), (py "topic", .str (py "topic"))],
            .obj [(py "code", .str (py "BAD_REQUEST")),
              (py "message", .str (py "thread_id 已绑定到其它专题，无法跨专题复用")),
              (py "retryable", .bool false), (py "detail", .str (py "bound")),
              (py "request_id", .str (py "r"))],
            .obj [(py "status", .str (py "failed"))]] := rfl
    have hplain : ∀ data ∈ (word Act.yielded (handle (boundEndpoint.env 0) boundEndpoint.topics
        (postedBody.request {} (py "r") []) ()).trace).map ChatEvent.data, data.Scalar := by
      rw [hdata]
      simp only [List.forall_mem_cons, List.not_mem_nil, false_imp_iff, implies_true, and_true,
        Json.scalar_obj_cons, Json.scalar_obj_nil, Json.scalar_str, Json.scalar_bool, scalars_py]
    exact fun ev hev => .of_data (handle_unnumbered _ _ _ _ ev hev)
      (hplain _ (List.mem_map_of_mem hev))
  have hundisturbed : Connection.Undisturbed boundEndpoint askedOnce
      (boundEndpoint.after askedOnce) 0 askedTask := by
    refine ⟨Connection.not_exited_of_receiving rfl, ?_, rfl, by decide⟩
    have hcancels : ∀ input ∈ askedOnce,
        (Connection.cancelFrame boundEndpoint input).isNone = true := by decide
    intro input hinput frame hcancel
    have hnone := hcancels input hinput
    rw [hcancel] at hnone
    cases hnone
  have hempty : ∀ v, (.error [] : Except PyStr Json) ≠ .ok v := by
    intro v h
    cases h
  have hrole : ({} : SseHeaders).userRole ≠ some [] := by
    intro h
    cases h
  have hagree := (@transports_agree Unit boundEndpoint askedOnce askedOnce_wellUsed Json.bitTexts
    Json.bitTexts_documented (fun _ => .error []) hempty true {} (py "r") postedBody).2 hrole
    _ 0 askedTask rfl rfl ht rfl
  refine ⟨?_, _, rfl, hagree.2 (delivered_iff.mpr fun ev hev => sseBytes_ok.mpr (hscalar ev hev))
    hundisturbed ⟨3, .finished, rfl⟩⟩
  have hread := Connection.toldUnder_eq Json.bitTexts_documented
    (Connection.eventFrames_after boundEndpoint askedOnce) (py "r")
  rw [hread, List.map_map]
  exact (List.map_map.symm.trans (congrArg (List.map some) htold))

end MasterAgent
