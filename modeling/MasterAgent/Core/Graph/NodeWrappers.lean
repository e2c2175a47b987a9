/-
  MasterAgent.Core.Graph.NodeWrappers

  The plugin nodes (`ma/core/graph/node_wrappers.py`).  `_traced_node` adds a
  span and passes results and exceptions through, so a node is its body.

  The loops are recursions on the attempts left and on the events of an attempt.
  In the adapter node the chunk list is created once, before the attempt loop,
  and so is carried across attempts.
-/

import MasterAgent.Core.Graph.Act
import MasterAgent.Core.Topic.Config

namespace MasterAgent

open Effect

variable {σ : Type}

/-- The body of a node. -/
abbrev NodeFn (σ : Type) : Type := GraphState → Prog σ Update

/-- An event whose data is an object literal. -/
def literalEvent (type : EventType) (fields : List (PyStr × Json)) : ChatEvent where
  type := type
  data := .obj fields

-- ============================================================================
-- auth and enrich
-- ============================================================================

def makeAuthNode (env : NodeEnv σ) (plugin : AuthPlugin) : NodeFn σ := fun state => do
  env.emit (literalEvent .thinking
    [(py "phase", .str (py "auth")), (py "label", .str (py "正在校验权限…"))])
  let result ← callPlugin (.authorize state) (plugin.authorize state)
  env.emit (literalEvent .progress
    [(py "step", .str (py "auth")), (py "status", .str (py "done")),
      (py "extra", .obj [(py "passed", .bool result.passed)])])
  if result.passed then
    return { auth := some result, userCtx := result.userCtx }
  else
    return { auth := some result, route := some (py "reject") }

def makeEnrichNode (env : NodeEnv σ) (plugin : EnrichPlugin) : NodeFn σ := fun state => do
  env.emit (literalEvent .thinking [(py "phase", .str (py "enrich"))])
  let result ← callPlugin (.enrich state) (plugin.enrich state)
  env.emit (literalEvent .progress
    [(py "step", .str (py "enrich")), (py "status", .str (py "done")),
      (py "extra", result.enrichMeta)])
  return { enrichedQuestion := some result.enrichedQuestion,
           enrichMeta := some result.enrichMeta }

-- ============================================================================
-- intent
-- ============================================================================

/-- `repr` of a route string, as the fallback reason quotes it. -/
def unknownLabelReason (repr : PyStr → PyStr) (route : PyStr) : PyStr :=
  py "unknown label " ++ repr route ++ py ", fallback"

/-- The answer of a `classify` that returned: an unknown label falls back. -/
def intentAnswer (repr : PyStr → PyStr) (defaultRoute : PyStr) (labels : List PyStr)
    (result : IntentResult) : PyStr × PyFloat × PyStr :=
  if result.route ∈ labels then (result.route, result.confidence, result.reason)
  else (defaultRoute, 0, unknownLabelReason repr result.route)

/-- The progress event of an attempt that returned. -/
def intentProgress (route reason : PyStr) : ChatEvent :=
  literalEvent .progress
    [(py "step", .str (py "intent")), (py "status", .str (py "done")),
      (py "detail", .str reason), (py "extra", .obj [(py "route", .str route)])]

/-- The progress event of the fallback. -/
def intentFallback (maxAttempts : Nat) (route : PyStr) : ChatEvent :=
  literalEvent .progress
    [(py "step", .str (py "intent")), (py "status", .str (py "fallback")),
      (py "detail", .str (py s!"retried {maxAttempts}x")),
      (py "extra", .obj [(py "route", .str route)])]

/-- The loop over the attempts `attempt, .., maxAttempts`, `left` of them. -/
def intentAttempts (env : NodeEnv σ) (repr : PyStr → PyStr) (plugin : IntentPlugin)
    (defaultRoute : PyStr) (labels : List PyStr) (maxAttempts backoffMs : Nat)
    (state : GraphState) : (left attempt : Nat) → Prog σ Update
  | 0, _ => do
      env.emit (intentFallback maxAttempts defaultRoute)
      return { route := some defaultRoute, routeConfidence := some 0,
               routeReason := some (py "intent_retry_exhausted") }
  | left + 1, attempt => do
      -- the `try` covers the call, the label check and the progress event
      let answer ← Eff.attempt do
        let result ← callPlugin (.classify state attempt) (plugin.classify attempt state)
        let (route, conf, reason) := intentAnswer repr defaultRoute labels result
        env.emit (intentProgress route reason)
        return ({ route := some route, routeConfidence := some conf,
                  routeReason := some reason } : Update)
      match answer with
      | .ok update => return update
      | .error e =>
          if e.isException then
            if attempt < maxAttempts then
              env.sleep backoffMs
            intentAttempts env repr plugin defaultRoute labels maxAttempts backoffMs state
              left (attempt + 1)
          else Eff.raise e

def makeIntentNode (env : NodeEnv σ) (repr : PyStr → PyStr) (plugin : IntentPlugin)
    (defaultRoute : PyStr) (labels : List PyStr) (retry : Option RetryPolicy) :
    NodeFn σ := fun state => do
  env.emit (literalEvent .thinking
    [(py "phase", .str (py "intent")), (py "label", .str (py "正在识别问题意图…"))])
  intentAttempts env repr plugin defaultRoute labels (maxAttempts retry) (backoffMs retry)
    state (maxAttempts retry) 1

-- ============================================================================
-- adapter
-- ============================================================================

/-- How the `async for` over one attempt is left. -/
inductive AttemptExit where
  /-- The iteration ended without `break`: the loop's `else`. -/
  | finished
  /-- `break` on a retryable error with attempts left. -/
  | retryable (data : Json)
  /-- `return` after an error event was passed on. -/
  | errorShown
  /-- An exception from the adapter, the event data or the dispatch. -/
  | raised (e : Exn)

/-- The `async for` over the events of one attempt.  The chunk list comes back
    however the loop is left. -/
def adapterEvents (env : NodeEnv σ) (output : Bool) (maxAttempts attempt : Nat)
    (ending : Except Exn Unit) :
    List ChatEvent → (chunks : List Json) → Prog σ (List Json × AttemptExit)
  | [], chunks => match ending with
      | .ok () => return (chunks, .finished)
      | .error e => return (chunks, .raised e)
  | ev :: events, chunks => match ev.type with
      | .delta => match ev.data.getItem (py "content") with
          | .error e => return (chunks, .raised e)
          | .ok content =>
              let chunks := chunks ++ [content]
              if output then do
                match ← Eff.attempt (env.emit { type := .delta, data := ev.data }) with
                | .error e => return (chunks, .raised e)
                | .ok () => adapterEvents env output maxAttempts attempt ending events chunks
              else adapterEvents env output maxAttempts attempt ending events chunks
      | .tool =>
          if output then do
            match ← Eff.attempt (env.emit { type := .tool, data := ev.data }) with
            | .error e => return (chunks, .raised e)
            | .ok () => adapterEvents env output maxAttempts attempt ending events chunks
          else adapterEvents env output maxAttempts attempt ending events chunks
      | .error => match ev.data.getD (py "retryable") (.bool false) with
          | .error e => return (chunks, .raised e)
          | .ok retryable =>
              if retryable.truthy && decide (attempt < maxAttempts) then
                return (chunks, .retryable ev.data)
              else do
                match ← Eff.attempt (env.emit { type := .error, data := ev.data }) with
                | .error e => return (chunks, .raised e)
                | .ok () => return (chunks, .errorShown)
      | _ => adapterEvents env output maxAttempts attempt ending events chunks

/-- The error event when the last attempt raised. -/
def retriesExhausted (maxAttempts : Nat) : ChatEvent :=
  literalEvent .error
    [(py "code", .str (py "DOWNSTREAM_ERROR")),
      (py "message", .str (py s!"调用下游失败（重试{maxAttempts}次后放弃）")),
      (py "retryable", .bool false)]

/-- `return {"answer_chunks": chunks}`, or an empty list from an internal node. -/
def chunksUpdate (output : Bool) (chunks : List Json) : Update where
  answerChunks := if output then chunks else []

/-- The loop over the attempts `attempt, .., maxAttempts`, `left` of them, with
    the chunks collected so far. -/
def adapterAttempts (env : NodeEnv σ) (adapter : DownstreamAdapter) (output : Bool)
    (maxAttempts backoffMs : Nat) (state : GraphState) :
    (left attempt : Nat) → (chunks : List Json) → Prog σ Update
  | 0, _, chunks => return chunksUpdate output chunks
  | left + 1, attempt, chunks => do
      Eff.act (.run state output attempt)
      let script := adapter.run attempt state output
      let (chunks, exit) ←
        adapterEvents env output maxAttempts attempt script.ending script.events chunks
      match exit with
      | .finished => return chunksUpdate output chunks
      | .errorShown => return chunksUpdate output chunks
      | .retryable _ =>
          -- the loop was left by `break`, so `last_error` is set and attempts remain
          env.sleep backoffMs
          adapterAttempts env adapter output maxAttempts backoffMs state left (attempt + 1) chunks
      | .raised e =>
          if e.isException then
            if attempt < maxAttempts then
              env.sleep backoffMs
              adapterAttempts env adapter output maxAttempts backoffMs state left
                (attempt + 1) chunks
            else
              env.emit (retriesExhausted maxAttempts)
              return chunksUpdate output chunks
          else return { answerChunks := chunks, streamCancelled := some true }

def makeAdapterNode (env : NodeEnv σ) (adapter : DownstreamAdapter) (output : Bool)
    (retry : Option RetryPolicy) : NodeFn σ := fun state =>
  adapterAttempts env adapter output (maxAttempts retry) (backoffMs retry) state
    (maxAttempts retry) 1 []

end MasterAgent
