/-
  MasterAgent.Core.StreamGrammar

  The grammar of the event stream.  Every node follows a small language of
  event types, sequencing multiplies languages, and the consumer passes the
  word of a graph run on symbol by symbol; so the stream of a request is a word
  of `streamWords`.
-/

import MasterAgent.Core.Graph.AdapterRetry
import MasterAgent.Core.StageActs
import MasterAgent.Core.Uncancelled
import MasterAgent.Lib.TraceLang

namespace MasterAgent

open Effect StateGraph

variable {σ α : Type}

-- ============================================================================
-- Symbols
-- ============================================================================

/-- An event type, with the phase, step or code its data names. -/
inductive Sym where
  | «meta»
  | thinking (phase : Option Json)
  | progress (step : Option Json)
  | delta
  | tool
  | error (code : Json)
  | done

/-- The entry of an object; other values have none. -/
def dataField (k : PyStr) : Json → Option Json
  | .obj fields => Json.field k fields
  | _ => none

def eventSym (ev : ChatEvent) : Sym :=
  match ev.type with
  | .meta => .meta
  | .thinking => .thinking (dataField (py "phase") ev.data)
  | .progress => .progress (dataField (py "step") ev.data)
  | .delta => .delta
  | .tool => .tool
  | .error => .error ((dataField (py "code") ev.data).getD (.str (py "INTERNAL")))
  | .done => .done

/-- The symbol of an event the graph dispatches, if the service relays its type. -/
def emitSym : Act → Option Sym
  | .emit ev => match ev.type with
      | .meta => none
      | .done => none
      | _ => some (eventSym ev)
  | _ => none

/-- The symbol of an event the service yields. -/
def yieldSym : Act → Option Sym
  | .yield ev => some (eventSym ev)
  | _ => none

-- ============================================================================
-- Languages
-- ============================================================================

def thinkingOf (phase : String) : Sym := .thinking (some (.str (py phase)))

def progressOf (step : String) : Sym := .progress (some (.str (py step)))

def errorOf (code : String) : Sym := .error (.str (py code))

/-- The one word `w`. -/
def just (w : List Sym) : Language Sym := {w}

@[simp] theorem mem_just {w v : List Sym} : v ∈ just w ↔ v = w := Iff.rfl

/-- `(delta | tool)*` -/
def chunkWords : Language Sym := {w | ∀ x ∈ w, x = .delta ∨ x = .tool}

/-- `error`, with any code -/
def errorWords : Language Sym := {w | ∃ code, w = [.error code]}

/-- `(delta | tool)* error?` -/
def adapterWords : Language Sym := chunkWords * (1 + errorWords)

/-- `thinking(enrich) progress(enrich) thinking(intent) progress(intent) (delta | tool)* error?` -/
def answerWords : Language Sym :=
  just [thinkingOf "enrich", progressOf "enrich"] *
    (just [thinkingOf "intent", progressOf "intent"] * adapterWords)

/-- `thinking(auth) progress(auth) ( delta | .. )` -/
def graphWords : Language Sym :=
  just [thinkingOf "auth", progressOf "auth"] * (just [.delta] + answerWords)

/-- What the loop over the graph yields: a full word, or a prefix of one and an
    internal error. -/
def loopWords : Language Sym := graphWords + prefixes graphWords * just [errorOf "INTERNAL"]

/-- The streams of requests. -/
def streamWords : Language Sym :=
  just [errorOf "TOPIC_NOT_FOUND", .done] + just [errorOf "BAD_REQUEST", .done] +
    just [.meta, errorOf "BAD_REQUEST", .done] + just [.meta] * loopWords * just [.done]

theorem nil_mem_adapterWords : [] ∈ adapterWords :=
  Language.mem_mul.mpr ⟨[], fun _ hx => (List.not_mem_nil hx).elim, [],
    Or.inl Language.nil_mem_one, rfl⟩

-- ============================================================================
-- The adapter node
-- ============================================================================

theorem mem_chunkWords {v : List Sym} :
    v ∈ chunkWords ↔ ∀ x ∈ v, x = .delta ∨ x = .tool := Iff.rfl

theorem nil_mem_chunkWords : [] ∈ chunkWords := by simp [mem_chunkWords]

theorem chunkWords_append {u v : List Sym} (hu : u ∈ chunkWords) (hv : v ∈ chunkWords) :
    u ++ v ∈ chunkWords := by
  intro x hx
  rcases List.mem_append.mp hx with h | h
  · exact hu x h
  · exact hv x h

theorem mem_adapterWords_of_error {u : List Sym} (h : u ∈ chunkWords * errorWords) :
    u ∈ adapterWords := by
  obtain ⟨v, hv, e, he, rfl⟩ := Language.mem_mul.mp h
  exact Language.append_mem_mul hv (Or.inr he)

theorem adapterWords_cons {u v : List Sym} (hu : u ∈ chunkWords) (hv : v ∈ adapterWords) :
    u ++ v ∈ adapterWords := by
  obtain ⟨c, hc, e, he, rfl⟩ := Language.mem_mul.mp hv
  rw [← List.append_assoc]
  exact Language.append_mem_mul (chunkWords_append hu hc) he

theorem word_passOn (output : Bool) {type : EventType} (data : Json)
    (htype : type = .delta ∨ type = .tool) :
    word emitSym ((passOn output type data).map .emit) ∈ chunkWords := by
  cases output with
  | false => exact nil_mem_chunkWords
  | true =>
      rcases htype with rfl | rfl <;>
        simp [passOn, word, emitSym, eventSym, mem_chunkWords]

/-- What an attempt is left with, and the word of its events: deltas and tools,
    and the error if one is shown. -/
def AttemptWord (t : AttemptTrace) : Prop :=
  (t.exit = .errorShown → word emitSym (t.events.map .emit) ∈ chunkWords * errorWords) ∧
    (t.exit ≠ .errorShown → word emitSym (t.events.map .emit) ∈ chunkWords)

theorem AttemptWord.of_nil {t : AttemptTrace} (hevents : t.events = [])
    (hexit : t.exit ≠ .errorShown) : AttemptWord t :=
  ⟨fun h => absurd h hexit, fun _ => by rw [hevents]; exact nil_mem_chunkWords⟩

theorem AttemptWord.prepend {t : AttemptTrace} (h : AttemptWord t) {events : List ChatEvent}
    (hevents : word emitSym (events.map .emit) ∈ chunkWords) (chunks : List Json) :
    AttemptWord (t.prepend events chunks) := by
  constructor
  · intro hexit
    obtain ⟨c, hc, e, he, heq⟩ := Language.mem_mul.mp (h.1 hexit)
    rw [AttemptTrace.prepend, List.map_append, word_append, ← heq, ← List.append_assoc]
    exact Language.append_mem_mul (chunkWords_append hevents hc) he
  · intro hexit
    rw [AttemptTrace.prepend, List.map_append, word_append]
    exact chunkWords_append hevents (h.2 hexit)

theorem word_attemptTrace (output canRetry : Bool) (ending : Except Exn Unit)
    (events : List ChatEvent) : AttemptWord (attemptTrace output canRetry ending events) := by
  induction events with
  | nil => cases ending <;> exact .of_nil rfl (by simp [attemptTrace])
  | cons ev events ih =>
      cases htype : ev.type with
      | delta =>
          simp only [attemptTrace, htype]
          cases hc : ev.data.getItem (py "content") with
          | error e => exact .of_nil rfl (by simp)
          | ok content => exact ih.prepend (word_passOn output ev.data (Or.inl rfl)) _
      | tool =>
          simp only [attemptTrace, htype]
          exact ih.prepend (word_passOn output ev.data (Or.inr rfl)) _
      | error =>
          simp only [attemptTrace, htype]
          cases hr : ev.data.getD (py "retryable") (.bool false) with
          | error e => exact .of_nil rfl (by simp)
          | ok retryable =>
              cases hretry : retryable.truthy && canRetry with
              | true =>
                  simp only [hretry, if_true]
                  exact .of_nil rfl (by simp)
              | false =>
                  simp only [hretry, Bool.false_eq_true, if_false]
                  refine ⟨fun _ => ?_, fun h => absurd rfl h⟩
                  exact Language.append_mem_mul nil_mem_chunkWords ⟨_, rfl⟩
      | _ =>
          simp only [attemptTrace, htype]
          exact ih

/-- The acts of an attempt spell the word of its events. -/
theorem word_attemptActs (adapter : DownstreamAdapter) (output : Bool) (maxAttempts : Nat)
    (state : GraphState) (attempt : Nat) :
    word emitSym (adapter.attemptActs output maxAttempts state attempt)
      = word emitSym
          ((adapter.attemptTrace output maxAttempts state attempt).events.map .emit) := by
  rfl

theorem word_adapterTrace (adapter : DownstreamAdapter) (output : Bool)
    (maxAttempts backoffMs : Nat) (state : GraphState) (left attempt : Nat)
    (chunks : List Json) :
    word emitSym
        (adapterTrace adapter output maxAttempts backoffMs state left attempt chunks).1
      ∈ adapterWords := by
  induction left generalizing attempt chunks with
  | zero => exact nil_mem_adapterWords
  | succ left ih =>
      have hattempt : AttemptWord (adapter.attemptTrace output maxAttempts state attempt) :=
        word_attemptTrace output _ _ _
      rcases adapterTrace_cases backoffMs left chunks
          (rfl : adapter.attemptTrace output maxAttempts state attempt = _) with
        ⟨hfailed, -, heq⟩ | ⟨-, tail, u, htail, heq⟩
      · have hexit : (adapter.attemptTrace output maxAttempts state attempt).exit
            ≠ .errorShown := by
          intro h
          rw [h] at hfailed
          cases hfailed
        rw [heq, word_append, word_attemptActs]
        exact adapterWords_cons (hattempt.2 hexit) (ih _ _)
      · rw [heq, word_append, word_attemptActs]
        generalize hexit : (adapter.attemptTrace output maxAttempts state attempt).exit = exit
          at htail
        cases htail with
        | finished =>
            exact adapterWords_cons (hattempt.2 (by simp [hexit])) nil_mem_adapterWords
        | errorShown =>
            rw [word_nil, List.append_nil]
            exact mem_adapterWords_of_error (hattempt.1 hexit)
        | exhausted he =>
            refine adapterWords_cons (hattempt.2 (by simp [hexit])) ?_
            exact mem_adapterWords_of_error
              (Language.append_mem_mul nil_mem_chunkWords ⟨_, rfl⟩)
        | cancelled he =>
            exact adapterWords_cons (hattempt.2 (by simp [hexit])) nil_mem_adapterWords

-- ============================================================================
-- The graph
-- ============================================================================

/-- Starting a node and merging its update are no events. -/
theorem visit_follows {β : Type} {L : Language Sym} {y : List Sym} {n : PyStr} {f : NodeFn σ}
    {s : GraphState} {next : GraphState → Except Exn β} (hf : Follows emitSym L (f s))
    (hy : y ∈ L) : Follows emitSym L (visit langGraph n f s next) :=
  Follows.one_bind (Silent.follows (.act rfl)) (fun _ => hf.bind_one fun _ =>
    Silent.follows (.bind (.ofExcept _) fun _ => .bind (.act rfl) fun _ => .ret _)) hy

theorem withConn_silent {repos : Repos σ} {body : Prog σ α} (h : Silent emitSym body) :
    Silent emitSym (repos.withConn body) :=
  .bind (.call fun _ => rfl) fun _ => .bind (.attempt h) fun _ => .bind (.call fun _ => rfl)
    fun _ => .ofExcept _

theorem loadSessionNode_silent (env : Env σ) (topic : CompiledTopic) (s : GraphState) :
    Silent emitSym (loadSessionNode env topic s) :=
  withConn_silent (.bind (.ofExcept _) fun _ => .bind (.call fun _ => rfl) fun _ =>
    .bind (.call fun _ => rfl) fun _ => .ret _)

theorem persistNode_silent (env : Env σ) (s : GraphState) :
    Silent emitSym (persistNode env s) :=
  withConn_silent (.bind (.ofExcept _) fun _ => .bind (.call fun _ => rfl) fun _ =>
    .bind (.call fun _ => rfl) fun _ => .ret _)

section Stages

variable (env : Env σ) (topic : CompiledTopic) (s : GraphState)

theorem persistStage_follows : Follows emitSym 1 (persistStage env s) :=
  (visit_follows (Silent.follows (persistNode_silent env s)) Language.nil_mem_one).bind_one
    fun _ => Follows.ret _

theorem rejectStage_follows : Follows emitSym (just [.delta]) (rejectStage env topic s) := by
  have hnode : Follows emitSym (just [.delta])
      (makeRejectNode (.live σ) topic.errorMessages s) := by
    rw [makeRejectNode_live]
    exact .play (fun _ _ => rfl) (fun _ h => nomatch h)
  exact (visit_follows hnode rfl).bind_one fun p => persistStage_follows env p.1

theorem adapterStage_follows (routed : RoutedAdapter topic) :
    Follows emitSym adapterWords (adapterStage env topic routed s) := by
  have hnode : Follows emitSym adapterWords
      (topicAdapterNode topic routed.node routed.adapter s : Prog σ Update) := by
    unfold topicAdapterNode
    rw [makeAdapterNode_live]
    exact .play (fun _ _ => word_adapterTrace _ _ _ _ _ _ _ _) (fun _ h => nomatch h)
  exact (visit_follows hnode nil_mem_adapterWords).bind_one fun p =>
    persistStage_follows env p.1

/-- The intent loop ends with one progress event, unless it is cancelled. -/
theorem word_intentTrace (repr : PyStr → PyStr) (plugin : IntentPlugin) (defaultRoute : PyStr)
    (labels : List PyStr) (maxAttempts backoffMs : Nat) (state : GraphState)
    (left attempt : Nat) :
    word emitSym
        (intentTrace repr plugin defaultRoute labels maxAttempts backoffMs state left attempt).1 =
      match (intentTrace repr plugin defaultRoute labels maxAttempts backoffMs state left
        attempt).2 with
      | .ok _ => [progressOf "intent"]
      | .error _ => [] := by
  induction left generalizing attempt with
  | zero => rfl
  | succ left ih =>
      cases hc : plugin.classify attempt state with
      | ok result =>
          simp only [intentTrace, hc]
          rfl
      | error e =>
          cases he : e.isException with
          | false =>
              simp only [intentTrace, hc, he, Bool.false_eq_true, if_false]
              rfl
          | true =>
              have hsleep : word emitSym
                  (if attempt < maxAttempts then [Act.sleep backoffMs] else []) = [] := by
                split <;> rfl
              simp only [intentTrace, hc, he, if_true]
              rw [word_cons, word_append, hsleep]
              exact ih (attempt + 1)

theorem intentStage_follows :
    Follows emitSym (just [thinkingOf "intent", progressOf "intent"] * adapterWords)
      (intentStage env topic s) := by
  have hnode : Follows emitSym (just [thinkingOf "intent", progressOf "intent"])
      (topicIntentNode env topic topic.mapping s) := by
    unfold topicIntentNode
    rw [makeIntentNode_live]
    refine .play (fun u hu => ?_) (fun e he => ?_)
    · rw [word_cons, word_intentTrace, hu]
      rfl
    · rw [word_cons, word_intentTrace, he]
      exact ⟨[progressOf "intent"], rfl⟩
  exact (visit_follows hnode rfl).bind (fun p => adapterStage_follows env topic p.1 p.2)
    nil_mem_adapterWords

theorem answerStage_follows : Follows emitSym answerWords (answerStage env topic s) := by
  have hnode : Follows emitSym (just [thinkingOf "enrich", progressOf "enrich"])
      (makeEnrichNode (.live σ) topic.enrich s) := by
    rw [makeEnrichNode_live]
    cases topic.enrich.enrich s with
    | ok result => exact .play (fun _ _ => rfl) (fun _ h => nomatch h)
    | error e => exact .play (fun _ h => nomatch h) (fun _ _ => ⟨[progressOf "enrich"], rfl⟩)
  exact (visit_follows hnode rfl).bind (fun p => intentStage_follows env topic p.1)
    (Language.append_mem_mul rfl nil_mem_adapterWords)

theorem authStage_follows : Follows emitSym graphWords (authStage env topic s) := by
  have hnode : Follows emitSym (just [thinkingOf "auth", progressOf "auth"])
      (makeAuthNode (.live σ) topic.auth s) := by
    rw [makeAuthNode_live]
    cases topic.auth.authorize s with
    | ok result => exact .play (fun _ _ => rfl) (fun _ h => nomatch h)
    | error e => exact .play (fun _ h => nomatch h) (fun _ _ => ⟨[progressOf "auth"], rfl⟩)
  refine (visit_follows hnode rfl).bind (fun p => ?_) (Or.inl rfl : [.delta] ∈ _)
  split
  · exact (answerStage_follows env topic p.1).mono fun _ h => Or.inr h
  · exact (rejectStage_follows env topic p.1).mono fun _ h => Or.inl h

/-- The events a graph run dispatches. -/
theorem pipeline_follows : Follows emitSym graphWords (pipeline env topic s) :=
  (visit_follows (Silent.follows (loadSessionNode_silent env topic s))
      Language.nil_mem_one).one_bind
    (fun p => authStage_follows env topic p.1)
    (Language.append_mem_mul rfl (Or.inl rfl : [.delta] ∈ _))

end Stages

-- ============================================================================
-- The relay
-- ============================================================================

theorem Json.field_setField_of_ne {k k' : PyStr} (h : k' ≠ k) (v : Json)
    (fields : List (PyStr × Json)) :
    Json.field k (Json.setField k' v fields) = Json.field k fields := by
  induction fields with
  | nil => simp [Json.setField, Json.field, h]
  | cons e rest ih =>
      obtain ⟨k₀, v₀⟩ := e
      by_cases h₀ : k₀ = k'
      · simp [Json.setField, Json.field, h₀, h]
      · by_cases hk : k₀ = k
        · subst hk
          simp [Json.setField, Json.field, h₀]
        · simp [Json.setField, Json.field, h₀, hk, ih]

/-- A missing value stands for an empty object. -/
theorem dataField_orElse (k : PyStr) (data : Json) :
    dataField k (data.orElse (.obj [])) = dataField k data := by
  cases data with
  | obj fields => cases fields <;> rfl
  | null => rfl
  | bool b => cases b <;> rfl
  | int n => by_cases h : n = 0 <;> simp [Json.orElse, Json.truthy, h, dataField, Json.field]
  | float x =>
      unfold Json.orElse
      split <;> rfl
  | str s => cases s <;> rfl
  | arr items => cases items <;> rfl

/-- The topic's own message leaves the code of an error alone. -/
theorem relayError_code {errorMessages : Dict PyStr PyStr} {data data' : Json}
    (h : relayError errorMessages data = .ok data') :
    dataField (py "code") data' = dataField (py "code") data := by
  rw [← dataField_orElse (py "code") data]
  unfold relayError at h
  cases hd : data.orElse (.obj []) with
  | obj fields =>
      simp only [hd, Json.getD, Json.get, bind, Except.bind] at h
      generalize (Json.field (py "code") fields).getD (.str (py "INTERNAL")) = code at h
      have hne : py "message" ≠ py "code" := by simp
      cases code with
      | str c =>
          simp only [Json.hashable, Bool.not_true, Bool.false_eq_true, if_false] at h
          cases hm : errorMessages.get? c with
          | none =>
              simp only [hm, Except.ok.injEq] at h
              rw [← h]
          | some friendly =>
              cases friendly with
              | nil =>
                  simp only [hm, Except.ok.injEq] at h
                  rw [← h]
              | cons x friendly =>
                  simp only [hm, Json.setItem, Except.ok.injEq] at h
                  rw [← h]
                  exact Json.field_setField_of_ne hne _ fields
      | arr items => simp [Json.hashable] at h
      | obj fields' => simp [Json.hashable] at h
      | _ =>
          simp only [Json.hashable, Bool.not_true, Bool.false_eq_true, if_false,
            Except.ok.injEq] at h
          rw [← h]
  | _ => simp [hd, Json.getD, Json.get, bind, Except.bind] at h

/-- The loop answers every event of the graph with an event of the same type. -/
theorem relay_word {errorMessages : Dict PyStr PyStr} {a : Act} {out : List Act}
    (h : relay errorMessages a = .ok out) : word yieldSym out = (emitSym a).toList := by
  cases a with
  | emit ev =>
      cases htype : ev.type with
      | error =>
          obtain ⟨data, hd, rfl⟩ := (relay_errorEvent htype).mp h
          simp [word, yieldSym, emitSym, htype, eventSym, relayError_code hd]
      | thinking =>
          simp only [relay, htype, Except.ok.injEq] at h
          simp [← h, word, yieldSym, emitSym, htype, eventSym, dataField_orElse]
      | progress =>
          simp only [relay, htype, Except.ok.injEq] at h
          simp [← h, word, yieldSym, emitSym, htype, eventSym, dataField_orElse]
      | _ =>
          simp only [relay, htype, Except.ok.injEq] at h
          simp [← h, word, yieldSym, emitSym, htype, eventSym]
  | _ =>
      simp only [relay, Except.ok.injEq] at h
      rw [← h]
      rfl

theorem relayError_isException {errorMessages : Dict PyStr PyStr} {data : Json} {e : Exn}
    (h : relayError errorMessages data = .error e) : e.isException = true := by
  unfold relayError at h
  cases hd : data.orElse (.obj []) with
  | obj fields =>
      simp only [hd, Json.getD, Json.get, bind, Except.bind] at h
      split at h
      · cases h
        rfl
      · split at h
        · split at h
          · cases h
          · cases h
        · cases h
  | _ =>
      simp only [hd, Json.getD, Json.get, bind, Except.bind, Except.error.injEq] at h
      rw [← h]
      rfl

/-- The relay raises no cancellation. -/
theorem relay_isException {errorMessages : Dict PyStr PyStr} {a : Act} {e : Exn}
    (h : relay errorMessages a = .error e) : e.isException = true := by
  cases a with
  | emit ev =>
      cases htype : ev.type with
      | error =>
          simp only [relay, htype, bind, Except.bind] at h
          cases hd : relayError errorMessages ev.data with
          | ok data => simp [hd, pure, Except.pure] at h
          | error e' =>
              simp only [hd, Except.error.injEq] at h
              exact relayError_isException (h ▸ hd)
      | _ => simp [relay, htype] at h
  | _ => simp [relay] at h

-- ============================================================================
-- The stream
-- ============================================================================

section Stream

variable {env : Env σ} {topic : CompiledTopic} {req : ChatRequest}

theorem relayed_raisesExceptions (hrepos : env.repos.Uncancelled) (htopic : topic.Uncancelled)
    (s : GraphState) : RaisesExceptions (relayed env topic s) :=
  Eff.RaisesOnly.consume (pipeline_raisesExceptions hrepos htopic s)
    (fun _ _ h => relay_isException h) env.grace

theorem relayed_follows (s : GraphState) :
    Follows yieldSym graphWords (relayed env topic s) := by
  have hsilent : Silent yieldSym (pipeline env topic s) :=
    (pipeline_graphAct env topic s).mono fun a h => by
      cases a with
      | yield ev => exact h.elim
      | _ => rfl
  exact (pipeline_follows env topic s).consume hsilent (fun _ _ h => relay_word h) env.grace

/-- The loop over the graph returns, and what it yields is a loop word. -/
theorem chatLoop_words (hrepos : env.repos.Uncancelled) (htopic : topic.Uncancelled)
    {g : ChatGraph σ} (hbuild : buildGraph env topic = .ok g) (messageId : PyStr) (w : σ) :
    (chatLoop env topic req g messageId w).result = .ok () ∧
      word yieldSym (chatLoop env topic req g messageId w).trace ∈ loopWords := by
  have hword := @relayed_follows σ env topic (initialState req messageId) w
  cases hr : (relayed env topic (initialState req messageId) w).result with
  | ok u =>
      rw [hr] at hword
      rw [chatLoop_of_ok hbuild hr]
      exact ⟨hr, Or.inl hword⟩
  | error e =>
      have he := relayed_raisesExceptions hrepos htopic _ w e hr
      rw [hr] at hword
      rw [chatLoop_of_error hbuild hr he]
      refine ⟨rfl, Or.inr ?_⟩
      rw [Run.trace, List.map_append, word_append]
      exact Language.append_mem_mul hword rfl

theorem persistUserMessage_silent (env : Env σ) (req : ChatRequest) :
    Silent yieldSym (persistUserMessage env req) :=
  withConn_actsOnly (fun _ => rfl) (fun _ => rfl)
    (.bind (.call fun _ => rfl) fun _ => .bind (.bind (.draw _) fun _ => .ret _) fun _ =>
      .call fun _ => rfl)

/-- The word of an accepted request: the meta event, and what comes after the
    user message. -/
theorem word_handleAccepted (env : Env σ) (topic : CompiledTopic) (req : ChatRequest) (w : σ) :
    word yieldSym (handleAccepted env topic req w).trace =
      Sym.meta :: word yieldSym (afterUser env topic req (assistantId env w)
        (persistUserMessage env req (afterAssistantId env w)).result
        (persistUserMessage env req (afterAssistantId env w)).world).trace := by
  have hsilent := word_eq_nil.mpr (persistUserMessage_silent env req (afterAssistantId env w))
  rw [handleAccepted_run, Run.trace, Run.after, List.map_append, List.map_cons, word_append,
    word_cons]
  rw [Run.trace] at hsilent
  rw [hsilent]
  rfl

/-- With the user message stored: the loop, and done. -/
theorem afterUser_words (hrepos : env.repos.Uncancelled) (htopic : topic.Uncancelled)
    {g : ChatGraph σ} (hbuild : buildGraph env topic = .ok g) (messageId : PyStr) (w : σ) :
    (afterUser env topic req messageId (.ok ()) w).result = .ok () ∧
      .meta :: word yieldSym (afterUser env topic req messageId (.ok ()) w).trace
        ∈ streamWords := by
  obtain ⟨hr, hword⟩ := @chatLoop_words σ env topic req hrepos htopic g hbuild messageId w
  rw [afterUser_ok hbuild hr]
  refine ⟨rfl, Or.inr ?_⟩
  rw [Run.trace, List.map_append, word_append]
  have hmeta : [Sym.meta] ∈ just [.meta] := rfl
  have hdone : [Sym.done] ∈ just [.done] := rfl
  exact Language.append_mem_mul (Language.append_mem_mul hmeta hword) hdone

end Stream

-- ============================================================================
-- The grammar
-- ============================================================================

/-- `y` may come after `x`: meta comes first and once, a phase is announced at
    most once, and no delta or tool comes after an error. -/
def MayFollow (x y : Sym) : Prop :=
  y ≠ .meta ∧ (∀ phase, x = .thinking phase → y ≠ .thinking phase) ∧
    (∀ code, x = .error code → y ≠ .delta ∧ y ≠ .tool)

theorem chunkWords_ordered {c : List Sym} (hc : c ∈ chunkWords) : c.Pairwise MayFollow := by
  refine List.pairwise_iff_getElem.mpr fun i j hi hj _ => ?_
  have hx := hc _ (List.getElem_mem hi)
  have hy := hc _ (List.getElem_mem hj)
  rcases hx with hx | hx <;> rcases hy with hy | hy <;> simp [MayFollow, hx, hy]

/-- Deltas and tools, with an error at most at the end. -/
theorem adapterWords_ordered {v : List Sym} (hv : v ∈ adapterWords) :
    v.Pairwise MayFollow ∧ ∀ y ∈ v, y = .delta ∨ y = .tool ∨ ∃ code, y = .error code := by
  obtain ⟨c, hc, e, he, rfl⟩ := Language.mem_mul.mp hv
  rcases he with he | ⟨code, rfl⟩
  · rw [(Language.mem_one e).mp he, List.append_nil]
    exact ⟨chunkWords_ordered hc, fun y hy => (hc y hy).imp_right Or.inl⟩
  · refine ⟨List.pairwise_append.mpr ⟨chunkWords_ordered hc, List.pairwise_singleton _ _, ?_⟩,
      fun y hy => ?_⟩
    · intro x hx y hy
      rw [List.mem_singleton.mp hy]
      rcases hc x hx with rfl | rfl <;> simp [MayFollow]
    · rcases List.mem_append.mp hy with hy | hy
      · exact (hc y hy).imp_right Or.inl
      · exact Or.inr (Or.inr ⟨code, List.mem_singleton.mp hy⟩)

/-- The words of a graph run are ordered, and contain neither meta nor done. -/
theorem graphWords_ordered {v : List Sym} (hv : v ∈ graphWords) :
    v.Pairwise MayFollow ∧ ∀ y ∈ v, y ≠ .meta ∧ y ≠ .done := by
  obtain ⟨a, rfl, b, hb, rfl⟩ := Language.mem_mul.mp hv
  rcases hb with rfl | hb
  · simp [MayFollow, thinkingOf, progressOf]
  · obtain ⟨e, rfl, i, hi, rfl⟩ := Language.mem_mul.mp hb
    obtain ⟨f, rfl, v, hadapter, rfl⟩ := Language.mem_mul.mp hi
    obtain ⟨hord, hmem⟩ := adapterWords_ordered hadapter
    have hafter : ∀ x, (∀ code, x ≠ .error code) → ∀ y ∈ v, MayFollow x y := by
      intro x hx y hy
      rcases hmem y hy with rfl | rfl | ⟨code, rfl⟩ <;>
        simp [MayFollow, hx]
    refine ⟨?_, ?_⟩
    · rw [← List.append_assoc, ← List.append_assoc, List.pairwise_append]
      refine ⟨by simp [MayFollow, thinkingOf, progressOf], hord, fun x hx => hafter x ?_⟩
      simp only [thinkingOf, progressOf, List.cons_append, List.nil_append, List.mem_cons,
        List.not_mem_nil, or_false] at hx
      rcases hx with rfl | rfl | rfl | rfl | rfl | rfl <;> simp
    · intro y hy
      simp only [thinkingOf, progressOf, List.cons_append, List.nil_append, List.mem_cons] at hy
      rcases hy with rfl | rfl | rfl | rfl | rfl | rfl | hy
      case inr.inr.inr.inr.inr.inr =>
        rcases hmem y hy with rfl | rfl | ⟨code, rfl⟩ <;> simp
      all_goals simp

theorem loopWords_ordered {v : List Sym} (hv : v ∈ loopWords) :
    v.Pairwise MayFollow ∧ ∀ y ∈ v, y ≠ .meta ∧ y ≠ .done := by
  rcases hv with hv | hv
  · exact graphWords_ordered hv
  · obtain ⟨u, ⟨x, hux⟩, i, rfl, rfl⟩ := Language.mem_mul.mp hv
    obtain ⟨hord, hmem⟩ := graphWords_ordered hux
    refine ⟨List.pairwise_append.mpr ⟨(List.pairwise_append.mp hord).1,
      List.pairwise_singleton _ _, ?_⟩, ?_⟩
    · intro y _ z hz
      rw [List.mem_singleton.mp hz]
      simp [MayFollow, errorOf]
    · intro y hy
      rcases List.mem_append.mp hy with hy | hy
      · exact hmem y (List.mem_append_left _ hy)
      · rw [List.mem_singleton.mp hy]
        simp [errorOf]

/-- Every stream is ordered. -/
theorem streamWords_ordered {v : List Sym} (hv : v ∈ streamWords) : v.Pairwise MayFollow := by
  rcases hv with ((rfl | rfl) | rfl) | hv
  · simp [MayFollow, errorOf]
  · simp [MayFollow, errorOf]
  · simp [MayFollow, errorOf]
  · obtain ⟨u, hu, d, rfl, rfl⟩ := Language.mem_mul.mp hv
    obtain ⟨m, rfl, l, hl, rfl⟩ := Language.mem_mul.mp hu
    obtain ⟨hord, hmem⟩ := loopWords_ordered hl
    have hmeta : ∀ y ∈ l ++ [.done], MayFollow .meta y := by
      intro y hy
      rcases List.mem_append.mp hy with hy | hy
      · simp [MayFollow, (hmem y hy).1]
      · rw [List.mem_singleton.mp hy]
        simp [MayFollow]
    rw [List.append_assoc, List.singleton_append, List.pairwise_cons]
    refine ⟨hmeta, List.pairwise_append.mpr ⟨hord, List.pairwise_singleton _ _, ?_⟩⟩
    intro x _ y hy
    rw [List.mem_singleton.mp hy]
    simp [MayFollow]

theorem handle_words {env : Env σ} {topics : TopicRegistry} {req : ChatRequest} {w : σ}
    (hrepos : env.repos.Uncancelled)
    (htopic : ∀ topic, topics.get req.bizId = some topic → topic.Uncancelled)
    (haccepted : ∀ topic, topics.get req.bizId = some topic →
      topic.bizParamsModel.accepts req.bizParams = true →
      ((persistUserMessage env req (afterAssistantId env w)).result = .ok () ∧
          ∃ g, buildGraph env topic = .ok g) ∨
        ∃ detail, (persistUserMessage env req (afterAssistantId env w)).result
          = .error (.sessionBizMismatch detail)) :
    (handle env topics req w).result = .ok () ∧
      word yieldSym (handle env topics req w).trace ∈ streamWords := by
  cases ht : topics.get req.bizId with
  | none =>
      rw [handle_unknown ht]
      exact ⟨rfl, Or.inl (Or.inl (Or.inl rfl))⟩
  | some topic =>
      cases hacc : topic.bizParamsModel.accepts req.bizParams with
      | false =>
          rw [handle_invalid ht hacc]
          exact ⟨rfl, Or.inl (Or.inl (Or.inr rfl))⟩
      | true =>
          rw [handle_accepted ht hacc, word_handleAccepted, handleAccepted_run]
          rcases haccepted topic ht hacc with ⟨hu, g, hg⟩ | ⟨detail, hu⟩
          · rw [hu]
            exact afterUser_words hrepos (htopic topic ht) hg _ _
          · rw [hu]
            exact ⟨rfl, Or.inl (Or.inr rfl)⟩

/-- The stream of every request, the run not being cancelled and, where the request is
    accepted, the user message stored or refused for the topic of its thread, and the
    graph built behind a stored one: `handle` returns, the event types it yields form a
    word of the grammar, with meta first and once, at most one thinking event a phase,
    and no delta or tool after an error. -/
theorem handle_stream (env : Env σ) (topics : TopicRegistry) (req : ChatRequest) (w : σ)
    (hrepos : env.repos.Uncancelled)
    (htopic : ∀ topic, topics.get req.bizId = some topic → topic.Uncancelled)
    (haccepted : ∀ topic, topics.get req.bizId = some topic →
      topic.bizParamsModel.accepts req.bizParams = true →
      ((persistUserMessage env req (afterAssistantId env w)).result = .ok () ∧
          ∃ g, buildGraph env topic = .ok g) ∨
        ∃ detail, (persistUserMessage env req (afterAssistantId env w)).result
          = .error (.sessionBizMismatch detail)) :
    (handle env topics req w).result = .ok () ∧
      word yieldSym (handle env topics req w).trace ∈ streamWords ∧
      (word yieldSym (handle env topics req w).trace).Pairwise MayFollow := by
  obtain ⟨hresult, hword⟩ := handle_words hrepos htopic haccepted
  exact ⟨hresult, hword, streamWords_ordered hword⟩

-- ============================================================================
-- A small topic
-- ============================================================================

/-- Repositories that never fail and remember nothing. -/
def idleRepos : Repos Unit where
  acquire := fun w => (.ok (), w)
  release := fun w => (.ok (), w)
  getOrCreate := fun threadId bizId w3Account w =>
    (.ok { threadId := match threadId with
             | .str s => s
             | _ => []
           bizId, w3Account, title := none, status := py "active", createdAt := 0
           updatedAt := 0, lastMessageAt := none, ext := .obj [] }, w)
  append := fun _ w => (.ok (), w)
  listRecent := fun _ _ w => (.ok [], w)
  touch := fun _ w => (.ok (), w)

/-- An environment over the given repositories. -/
def plainEnv {σ : Type} (repos : Repos σ) (newUlid : σ → PyStr × σ) : Env σ where
  repos := repos
  engine := .lenient _ _ _ _ _ _ _
  newUlid := newUlid
  validationDetail := fun _ => py "1 validation error"
  repr := fun s => py "'" ++ s ++ py "'"
  grace := 0

/-- A topic with one adapter, reached by one label. -/
def smallTopic (auth : AuthPlugin) (enrich : EnrichPlugin) (adapter : DownstreamAdapter) :
    CompiledTopic where
  topicId := py "topic"
  defaultRoute := py "kc"
  history := ⟨10, by omega, by omega⟩
  auth := auth
  enrich := enrich
  intent := ⟨fun _ _ => .ok { route := py "kc", confidence := 0 }⟩
  adapters := ⟨[(py "kc_adapter", adapter)], by simp⟩
  bizParamsModel := ⟨⟨[], by simp⟩⟩
  errorMessages := ⟨[], by simp⟩
  graph := {
    nodes := [{ id := py "kc_adapter" }]
    edges := [⟨⟨[(py "kc", py "kc_adapter")], by simp⟩⟩]
    edges_ne_nil := by simp
    mapping_nodes := by simp }
  mem_adapters := by simp [Dict.keys]

/-- Everyone passes. -/
def openAuth : AuthPlugin := ⟨fun _ => .ok { passed := true }⟩

/-- The question as it is. -/
def plainEnrich : EnrichPlugin := ⟨fun _ => .ok { enrichedQuestion := py "q" }⟩

/-- A registry with one topic. -/
def oneTopic (topic : CompiledTopic) : TopicRegistry := ⟨⟨[(py "topic", topic)], by simp⟩⟩

/-- A request of alice in a thread. -/
def aliceAsks (threadId : PyStr) : ChatRequest where
  bizId := py "topic"
  threadId := .str threadId
  w3Account := py "alice"
  question := .str (py "q")
  requestId := .str (py "req_1")

theorem smallTopic_uncancelled {auth : AuthPlugin} {enrich : EnrichPlugin}
    {adapter : DownstreamAdapter} (hauth : ∀ s, NotCancelled (auth.authorize s))
    (henrich : ∀ s, NotCancelled (enrich.enrich s)) :
    (smallTopic auth enrich adapter).Uncancelled :=
  ⟨hauth, henrich, fun _ _ => notCancelled_ok _⟩

theorem idleRepos_uncancelled : idleRepos.Uncancelled :=
  ⟨fun _ => notCancelled_ok _, fun _ => notCancelled_ok _, fun _ _ _ _ => notCancelled_ok _,
    fun _ _ => notCancelled_ok _, fun _ _ _ => notCancelled_ok _, fun _ _ => notCancelled_ok _⟩

theorem smallTopic_builds {σ : Type} (repos : Repos σ) (newUlid : σ → PyStr × σ)
    (auth : AuthPlugin) (enrich : EnrichPlugin) (adapter : DownstreamAdapter) :
    ∃ g, buildGraph (plainEnv repos newUlid) (smallTopic auth enrich adapter) = .ok g := by
  have hcompiles : (plainEnv repos newUlid).engine.compiles (graphDecl (plainEnv repos newUlid)
      (smallTopic auth enrich adapter) (smallTopic auth enrich adapter).mapping) = true := by
    refine Engine.lenient_compiles.mpr ?_
    simp [graphDecl, Decl.names, smallTopic, graphStateKeys]
  rw [buildGraph_eq, if_pos hcompiles]
  exact ⟨_, rfl⟩

/-- A request answered with one delta. -/
theorem handle_stream_one_delta :
    let env := plainEnv idleRepos fun w => (py "1", w)
    let topic := smallTopic openAuth plainEnrich
      (scripted [⟨[deltaEvent (py "a")], .ok ()⟩])
    word yieldSym (handle env (oneTopic topic) (aliceAsks (py "th")) ()).trace
      ∈ streamWords := by
  intro env topic
  have hunc : topic.Uncancelled :=
    smallTopic_uncancelled (fun _ => notCancelled_ok _) (fun _ => notCancelled_ok _)
  refine (handle_stream env (oneTopic topic) (aliceAsks (py "th")) () idleRepos_uncancelled
    ?_ ?_).2.1
  · intro t ht
    cases ht
    exact hunc
  · intro t ht _
    cases ht
    exact Or.inl ⟨rfl, smallTopic_builds _ _ _ _ _⟩

end MasterAgent
