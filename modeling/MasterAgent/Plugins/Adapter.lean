/-
  MasterAgent.Plugins.Adapter

  The three adapters (`ma/plugins/adapter`).  Each posts the same body to its
  downstream and translates the frames it receives into events.  They differ in
  the frames, in the texts of their own errors, and in which exceptions of the
  iteration they turn into an error event.  A downstream is any function from
  the attempt and the body to a response.
-/

import MasterAgent.Core.Graph.AdapterTrace
import MasterAgent.Core.Graph.Events

namespace MasterAgent

-- ============================================================================
-- What a downstream sends
-- ============================================================================

/-- A text on the wire, by what an adapter sees of it: it is empty, or there is
    what `json.loads` makes of it. -/
inductive WireText where
  | empty
  | text (loaded : Except LoadsError Json)

/-- `json.loads`; the empty text is no JSON. -/
def WireText.loads : WireText → Except LoadsError Json
  | .empty => .error (.decode (py "Expecting value: line 1 column 1 (char 0)"))
  | .text loaded => loaded

/-- A server-sent event. -/
structure SseFrame where
  event : PyStr
  data : WireText

/-- How a stream ends after its last frame. -/
inductive StreamEnd where
  | closed
  /-- `httpx.TimeoutException`, or `TimeoutError` of a WebSocket. -/
  | timeout
  /-- Any other `httpx.RequestError`. -/
  | requestError
  | raised (e : Exn)

/-- The stream an adapter iterates over; a request that fails is a stream without
    frames. -/
structure Response (φ : Type) where
  frames : List φ
  ending : StreamEnd

/-- The body all adapters post. -/
def requestBody (state : GraphState) : Json :=
  .obj [(py "question", state.asked), (py "biz_params", state.bizParams),
    (py "request_id", state.requestId)]

-- ============================================================================
-- The iteration
-- ============================================================================

/-- What the loop body does at a frame. -/
inductive FrameStep where
  | skip
  /-- `yield`. -/
  | event (ev : ChatEvent)
  /-- `return`. -/
  | stop
  | raised (e : Exn)

/-- The `async for` over the frames: the events it yields, and how it is left. -/
def readFrames {φ : Type} (onFrame : φ → FrameStep) (ending : StreamEnd) :
    List φ → List ChatEvent × StreamEnd
  | [] => ([], ending)
  | frame :: frames => match onFrame frame with
      | .skip => readFrames onFrame ending frames
      | .event ev => (ev :: (readFrames onFrame ending frames).1,
          (readFrames onFrame ending frames).2)
      | .stop => ([], .closed)
      | .raised e => ([], .raised e)

/-- An adapter's loop body and its `except` clauses: for each way the loop is
    left the events still yielded, and what leaves `run`. -/
structure Wire (φ : Type) where
  onFrame : φ → FrameStep
  caught : StreamEnd → List ChatEvent × Except Exn Unit

/-- One iteration over `run`. -/
def Wire.attempt {φ : Type} (wire : Wire φ) (response : Response φ) : Attempt :=
  let read := readFrames wire.onFrame response.ending response.frames
  ⟨read.1 ++ (wire.caught read.2).1, (wire.caught read.2).2⟩

/-- The adapter before a downstream. -/
def Wire.adapter {φ : Type} (wire : Wire φ) (down : (attempt : Nat) → (body : Json) → Response φ) :
    DownstreamAdapter where
  run := fun attempt state _ => wire.attempt (down attempt (requestBody state))

/-- An error event of an adapter. -/
def adapterError (code message : Json) : ChatEvent :=
  literalEvent .error
    [(py "code", code), (py "message", message), (py "retryable", .bool false)]

/-- The error event for the data of an error frame, which must be an object. -/
def upstreamError (defaultMessage : PyStr) (data : Json) : FrameStep :=
  match data.getD (py "code") (.str (py "DOWNSTREAM_ERROR")) with
  | .error e => .raised e
  | .ok code => match data.getD (py "message") (.str defaultMessage) with
      | .error e => .raised e
      | .ok message => .event (adapterError code message)

/-- The `except` clauses of the httpx adapters. -/
def httpxCaught (timeoutText failureText : PyStr) :
    StreamEnd → List ChatEvent × Except Exn Unit
  | .closed => ([], .ok ())
  | .timeout =>
      ([adapterError (.str (py "DOWNSTREAM_TIMEOUT")) (.str timeoutText)], .ok ())
  | .requestError =>
      ([adapterError (.str (py "DOWNSTREAM_ERROR")) (.str failureText)], .ok ())
  | .raised e => ([], .error e)

-- ============================================================================
-- MetaGC
-- ============================================================================

/-- `json.loads(sse.data) if sse.data else {}`; a `JSONDecodeError` is a
    `ValueError`, and nothing here catches it. -/
def SseFrame.load (sse : SseFrame) : Except Exn Json :=
  match sse.data with
  | .empty => .ok (.obj [])
  | .text (.ok data) => .ok data
  | .text (.error (.decode _)) => .error .valueError
  | .text (.error (.raised e)) => .error e

def MetaGCAdapter.onFrame (sse : SseFrame) : FrameStep :=
  if sse.event = py "meta" then .skip
  else if sse.event = py "delta" then match sse.load with
    | .error e => .raised e
    | .ok data => .event { type := .delta, data := data }
  else if sse.event = py "error" then match sse.load with
    | .error e => .raised e
    | .ok data => upstreamError (py "MetaGC 上游出错") data
  else if sse.event = py "done" then .stop
  else .skip

def MetaGCAdapter.wire : Wire SseFrame where
  onFrame := onFrame
  caught := httpxCaught (py "MetaGC 接口响应超时，请稍后重试") (py "调用下游失败，请稍后重试")

-- ============================================================================
-- JSON frames
-- ============================================================================

/-- The loop body of the adapters that receive JSON texts: a text that is no
    JSON is passed over. -/
def jsonFrame (defaultMessage : PyStr) (text : WireText) : FrameStep :=
  match text.loads with
  | .error (.decode _) => .skip
  | .error (.raised e) => .raised e
  | .ok frame => match frame.getD (py "type") .null, frame.getD (py "data") (.obj []) with
      | .ok ft, .ok fd =>
          if ft.isStr (py "delta") then .event { type := .delta, data := fd }
          else if ft.isStr (py "error") then upstreamError defaultMessage fd
          else if ft.isStr (py "done") then .stop
          else .skip
      | .error e, _ => .raised e
      | _, .error e => .raised e

def UniiocAdapter.onFrame (line : WireText) : FrameStep :=
  match line with
  | .empty => .skip
  | line => jsonFrame (py "Uniioc 上游出错") line

def UniiocAdapter.wire : Wire WireText where
  onFrame := onFrame
  caught := httpxCaught (py "Uniioc 接口响应超时，请稍后重试") (py "调用 Uniioc 失败，请稍后重试")

/-- The `except` clauses of the knowledge center adapter: any exception becomes
    an error event. -/
def KnowledgeCenterAdapter.caught : StreamEnd → List ChatEvent × Except Exn Unit
  | .closed => ([], .ok ())
  | .timeout =>
      ([adapterError (.str (py "DOWNSTREAM_TIMEOUT"))
        (.str (py "知识中心接口响应超时，请稍后重试"))], .ok ())
  | .requestError => failed
  | .raised e => if e.isException then failed else ([], .error e)
where
  failed : List ChatEvent × Except Exn Unit :=
    ([adapterError (.str (py "DOWNSTREAM_ERROR")) (.str (py "调用知识中心失败，请稍后重试"))],
      .ok ())

def KnowledgeCenterAdapter.wire : Wire WireText where
  onFrame := jsonFrame (py "知识中心查询出错")
  caught := caught

-- ============================================================================
-- The kinds of adapters
-- ============================================================================

inductive AdapterKind where
  | metagc
  | uniioc
  | knowledgeCenter

/-- The frames an adapter receives. -/
abbrev AdapterKind.Frame : AdapterKind → Type
  | .metagc => SseFrame
  | .uniioc => WireText
  | .knowledgeCenter => WireText

def AdapterKind.wire : (kind : AdapterKind) → Wire kind.Frame
  | .metagc => MetaGCAdapter.wire
  | .uniioc => UniiocAdapter.wire
  | .knowledgeCenter => KnowledgeCenterAdapter.wire

end MasterAgent
