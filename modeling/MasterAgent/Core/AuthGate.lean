/-
  MasterAgent.Core.AuthGate

  The auth gate and the routing of a request.  `Gate` is the abstract machine of
  a graph run: it waits for the authorisation, then either the rejection is told
  and recorded, or the intent node writes a route, the adapter the mapping
  assigns to it answers, and what is recorded carries that route.  The pipeline
  of every topic keeps to the machine, whatever the plugins and repositories do.
-/

import MasterAgent.Core.GraphActs

namespace MasterAgent

open Effect StateGraph

variable {σ α : Type}

-- ============================================================================
-- The machine
-- ============================================================================

inductive Gate where
  /-- Nobody is authorised yet. -/
  | waiting
  | refused
  /-- The rejection has been shown. -/
  | told (text : PyStr)
  /-- The rejection has been stored, or its storing has been tried. -/
  | recorded (text : PyStr)
  | passed
  /-- The intent node has written a route. -/
  | routed (route : PyStr)
  /-- The adapter of the route has started. -/
  | answering (route : PyStr)

/-- The data of the delta that shows a rejection. -/
def rejectData (text : PyStr) : Json := .obj [(py "content", .str text)]

/-- The text of a rejection shown by the given data. -/
def rejectShown : Json → Option PyStr
  | .obj [(k, .str text)] => if k = py "content" then some text else none
  | _ => none

/-- What the gate allows, and what becomes of it. -/
def Gate.step (topic : CompiledTopic) (g : Gate) : Act → Option Gate
  | .authorize _ answer => match g, answer with
      | .waiting, .ok result => some (if result.passed then .passed else .refused)
      | .waiting, .error _ => some .waiting
      | _, _ => none
  | .emit ev => match ev.type with
      | .delta => match g with
          | .refused => (rejectShown ev.data).map .told
          | .answering route => some (.answering route)
          | _ => none
      | .error => match g with
          | .answering route => some (.answering route)
          | _ => none
      | _ => some g
  | .enrich _ _ => match g with
      | .passed => some .passed
      | _ => none
  | .classify _ _ _ => match g with
      | .passed => some .passed
      | _ => none
  | .write node u =>
      if node = py "intent_node" then match g, u.route with
        | .passed, some route => some (.routed route)
        | _, _ => none
      else some g
  | .enter node =>
      if node ∈ topic.adapters.keys then match g with
        | .routed route =>
            if topic.mapping.get? route = some node then some (.answering route) else none
        | _ => none
      else some g
  | .run _ _ _ => match g with
      | .answering route => some (.answering route)
      | _ => none
  | .append msg _ =>
      if msg.role = py "assistant" then match g with
        | .told text =>
            if msg.content.isStr text ∧ msg.route = some (py "reject") then some (.recorded text)
            else none
        | .answering route => if msg.route = some route then some (.answering route) else none
        | _ => none
      else some g
  | _ => some g

-- ============================================================================
-- What the machine has seen
-- ============================================================================

/-- The answers of `authorize`. -/
def authResult : Act → Option AuthResult
  | .authorize _ (.ok result) => some result
  | _ => none

/-- The routes the intent node wrote. -/
def intentRoute : Act → Option PyStr
  | .write node u => if node = py "intent_node" then u.route else none
  | _ => none

/-- The adapter nodes the graph started. -/
def adapterEntered (topic : CompiledTopic) : Act → Option PyStr
  | .enter node => if node ∈ topic.adapters.keys then some node else none
  | _ => none

/-- A plugin is called that only an authorised request may reach. -/
def Act.answers : Act → Bool
  | .enrich _ _ => true
  | .classify _ _ _ => true
  | .run _ _ _ => true
  | _ => false

/-- The error events the graph dispatches. -/
def emittedError : Act → Option ChatEvent
  | .emit ev => if ev.type = .error then some ev else none
  | _ => none

/-- What can be seen of a history. -/
structure Seen where
  auth : List AuthResult := []
  routes : List PyStr := []
  entered : List PyStr := []
  stored : List Message := []
  shown : List Json := []
  errors : List ChatEvent := []

def seen (topic : CompiledTopic) (past : List Act) : Seen where
  auth := word authResult past
  routes := word intentRoute past
  entered := word (adapterEntered topic) past
  stored := word assistantAppend past
  shown := word emittedDelta past
  errors := word emittedError past

theorem seen_snoc (topic : CompiledTopic) (past : List Act) (a : Act) :
    seen topic (past ++ [a]) =
      { auth := (seen topic past).auth ++ (authResult a).toList
        routes := (seen topic past).routes ++ (intentRoute a).toList
        entered := (seen topic past).entered ++ (adapterEntered topic a).toList
        stored := (seen topic past).stored ++ (assistantAppend a).toList
        shown := (seen topic past).shown ++ (emittedDelta a).toList
        errors := (seen topic past).errors ++ (emittedError a).toList } := by
  simp [seen, word_cons]

/-- The histories that lead from a waiting gate to the given one. -/
inductive Gate.History (topic : CompiledTopic) (past : List Act) : Gate → Prop where
  | waiting (h : seen topic past = {}) : History topic past .waiting
  | refused {r : AuthResult} (h : seen topic past = { auth := [r] }) (hr : r.passed = false) :
      History topic past .refused
  | told {r : AuthResult} {text : PyStr}
      (h : seen topic past = { auth := [r], shown := [rejectData text] })
      (hr : r.passed = false) : History topic past (.told text)
  | recorded {r : AuthResult} {text : PyStr} {msg : Message}
      (h : seen topic past = { auth := [r], shown := [rejectData text], stored := [msg] })
      (hr : r.passed = false) (hcontent : msg.content = .str text)
      (hroute : msg.route = some (py "reject")) : History topic past (.recorded text)
  | passed {r : AuthResult} (h : seen topic past = { auth := [r] }) (hr : r.passed = true) :
      History topic past .passed
  | routed {r : AuthResult} {route : PyStr}
      (h : seen topic past = { auth := [r], routes := [route] }) (hr : r.passed = true) :
      History topic past (.routed route)
  | answering {r : AuthResult} {route node : PyStr} {stored : List Message} {shown : List Json}
      {errors : List ChatEvent}
      (h : seen topic past = Seen.mk [r] [route] [node] stored shown errors)
      (hr : r.passed = true) (hmapping : topic.mapping.get? route = some node)
      (hstored : ∀ msg ∈ stored, msg.route = some route) : History topic past (.answering route)

theorem rejectShown_eq_some {data : Json} {text : PyStr} (h : rejectShown data = some text) :
    data = rejectData text := by
  unfold rejectShown at h
  split at h
  · split at h
    · next hk =>
      cases h
      rw [rejectData, hk]
    · cases h
  · cases h

/-- The machine sees nothing of the act. -/
structure Act.Unseen (topic : CompiledTopic) (a : Act) : Prop where
  auth : authResult a = none
  routes : intentRoute a = none
  entered : adapterEntered topic a = none
  stored : assistantAppend a = none
  shown : emittedDelta a = none
  errors : emittedError a = none

/-- The steps of the machine. -/
inductive Gate.Step (topic : CompiledTopic) : Gate → Act → Gate → Prop where
  | stay {g : Gate} {a : Act} (h : a.Unseen topic) : Step topic g a g
  | decide (s : GraphState) (result : AuthResult) :
      Step topic .waiting (.authorize s (.ok result))
        (if result.passed then .passed else .refused)
  | tell {ev : ChatEvent} {text : PyStr} (htype : ev.type = .delta)
      (htext : ev.data = rejectData text) : Step topic .refused (.emit ev) (.told text)
  | record {msg : Message} {r : Except Exn Unit} {text : PyStr}
      (hrole : msg.role = py "assistant") (hcontent : msg.content = .str text)
      (hroute : msg.route = some (py "reject")) :
      Step topic (.told text) (.append msg r) (.recorded text)
  | route {u : Update} {route : PyStr} (hroute : u.route = some route) :
      Step topic .passed (.write (py "intent_node") u) (.routed route)
  | start {route node : PyStr} (hnode : node ∈ topic.adapters.keys)
      (hmapping : topic.mapping.get? route = some node) :
      Step topic (.routed route) (.enter node) (.answering route)
  | event {ev : ChatEvent} {route : PyStr} (htype : ev.type = .delta ∨ ev.type = .error) :
      Step topic (.answering route) (.emit ev) (.answering route)
  | store {msg : Message} {r : Except Exn Unit} {route : PyStr}
      (hrole : msg.role = py "assistant") (hroute : msg.route = some route) :
      Step topic (.answering route) (.append msg r) (.answering route)

theorem Gate.step_cases {topic : CompiledTopic} {g g' : Gate} {a : Act}
    (h : g.step topic a = some g') : Gate.Step topic g a g' := by
  have hstay : ∀ {a : Act}, g = g' → a.Unseen topic → Gate.Step topic g a g' := by
    rintro a rfl ha
    exact .stay ha
  cases a with
  | authorize s answer =>
      cases g <;> cases answer <;> simp only [Gate.step, Option.some.injEq, reduceCtorEq] at h
      · exact hstay h ⟨rfl, rfl, rfl, rfl, rfl, rfl⟩
      · subst h
        exact .decide s _
  | emit ev =>
      cases htype : ev.type with
      | delta =>
          cases g <;> simp only [Gate.step, htype, Option.some.injEq, reduceCtorEq] at h
          case refused =>
            obtain ⟨text, htext, rfl⟩ := Option.map_eq_some_iff.mp h
            exact .tell htype (rejectShown_eq_some htext)
          case answering =>
            subst h
            exact .event (Or.inl htype)
      | error =>
          cases g <;> simp only [Gate.step, htype, Option.some.injEq, reduceCtorEq] at h
          subst h
          exact .event (Or.inr htype)
      | _ =>
          simp only [Gate.step, htype, Option.some.injEq] at h
          exact hstay h ⟨rfl, rfl, rfl, rfl, by simp [emittedDelta, htype],
            by simp [emittedError, htype]⟩
  | write node u =>
      by_cases hnode : node = py "intent_node"
      · subst hnode
        cases g <;> cases hroute : u.route <;>
          simp only [Gate.step, hroute, if_true, Option.some.injEq, reduceCtorEq] at h
        subst h
        exact .route hroute
      · simp only [Gate.step, hnode, if_false, Option.some.injEq] at h
        exact hstay h ⟨rfl, by simp [intentRoute, hnode], rfl, rfl, rfl, rfl⟩
  | enter node =>
      by_cases hnode : node ∈ topic.adapters.keys
      · cases g <;> simp only [Gate.step, hnode, if_true, reduceCtorEq] at h
        split at h
        · next hmapping =>
          cases h
          exact .start hnode hmapping
        · cases h
      · simp only [Gate.step, hnode, if_false, Option.some.injEq] at h
        exact hstay h ⟨rfl, rfl, by simp [adapterEntered, hnode], rfl, rfl, rfl⟩
  | append msg r =>
      by_cases hrole : msg.role = py "assistant"
      · cases g <;> simp only [Gate.step, hrole, if_true, reduceCtorEq] at h
        case told text =>
          split at h
          · next hmsg =>
            cases h
            exact .record hrole (Json.isStr_eq_true.mp hmsg.1) hmsg.2
          · cases h
        case answering route =>
          split at h
          · next hroute =>
            cases h
            exact .store hrole hroute
          · cases h
      · simp only [Gate.step, hrole, if_false, Option.some.injEq] at h
        exact hstay h ⟨rfl, rfl, rfl, by simp [assistantAppend, hrole], rfl, rfl⟩
  | enrich s r =>
      cases g <;> simp only [Gate.step, Option.some.injEq, reduceCtorEq] at h
      exact hstay h ⟨rfl, rfl, rfl, rfl, rfl, rfl⟩
  | classify s k r =>
      cases g <;> simp only [Gate.step, Option.some.injEq, reduceCtorEq] at h
      exact hstay h ⟨rfl, rfl, rfl, rfl, rfl, rfl⟩
  | run s output k =>
      cases g <;> simp only [Gate.step, Option.some.injEq, reduceCtorEq] at h
      exact hstay h ⟨rfl, rfl, rfl, rfl, rfl, rfl⟩
  | _ =>
      simp only [Gate.step, Option.some.injEq] at h
      exact hstay h ⟨rfl, rfl, rfl, rfl, rfl, rfl⟩

theorem Gate.history_step {topic : CompiledTopic} {past : List Act} {g g' : Gate} {a : Act}
    (hpast : Gate.History topic past g) (hstep : g.step topic a = some g') :
    Gate.History topic (past ++ [a]) g' := by
  have hseen := seen_snoc topic past a
  cases Gate.step_cases hstep with
  | stay ha =>
      have hsame : seen topic (past ++ [a]) = seen topic past := by
        simp [hseen, ha.auth, ha.routes, ha.entered, ha.stored, ha.shown, ha.errors]
      cases hpast with
      | waiting h => exact .waiting (hsame.trans h)
      | refused h hr => exact .refused (hsame.trans h) hr
      | told h hr => exact .told (hsame.trans h) hr
      | recorded h hr hcontent hroute => exact .recorded (hsame.trans h) hr hcontent hroute
      | passed h hr => exact .passed (hsame.trans h) hr
      | routed h hr => exact .routed (hsame.trans h) hr
      | answering h hr hmapping hstored => exact .answering (hsame.trans h) hr hmapping hstored
  | decide s result =>
      cases hpast with
      | waiting h =>
          rw [h] at hseen
          split
          · next hr => exact .passed hseen hr
          · next hr => exact .refused hseen (by simpa using hr)
  | @tell ev text htype htext =>
      cases hpast with
      | refused h hr =>
          rw [h] at hseen
          refine .told (hseen.trans ?_) hr
          simp [authResult, intentRoute, adapterEntered, assistantAppend, emittedDelta,
            emittedError, htype, htext]
  | @record msg r text hrole hcontent hroute =>
      cases hpast with
      | told h hr =>
          rw [h] at hseen
          refine .recorded (hseen.trans ?_) hr hcontent hroute
          simp [authResult, intentRoute, adapterEntered, assistantAppend, emittedDelta,
            emittedError, hrole]
  | @route u route hroute =>
      cases hpast with
      | passed h hr =>
          rw [h] at hseen
          refine .routed (hseen.trans ?_) hr
          simp [authResult, intentRoute, adapterEntered, assistantAppend, emittedDelta,
            emittedError, hroute]
  | @start route node hnode hmapping =>
      cases hpast with
      | @routed r _ h hr =>
          rw [h] at hseen
          have hstarted : seen topic (past ++ [.enter node]) =
              Seen.mk [r] [route] [node] [] [] [] := by
            rw [hseen]
            simp [authResult, intentRoute, adapterEntered, assistantAppend, emittedDelta,
              emittedError, hnode]
          exact .answering hstarted hr hmapping fun _ hmsg => (List.not_mem_nil hmsg).elim
  | @event ev route htype =>
      cases hpast with
      | @answering r _ node stored shown errors h hr hmapping hstored =>
          rw [h] at hseen
          have hkept : seen topic (past ++ [.emit ev]) = Seen.mk [r] [route] [node] stored
              (shown ++ (emittedDelta (.emit ev)).toList)
              (errors ++ (emittedError (.emit ev)).toList) := by
            rw [hseen]
            simp [authResult, intentRoute, adapterEntered, assistantAppend]
          exact .answering hkept hr hmapping hstored
  | @store msg answer route hrole hroute =>
      cases hpast with
      | @answering r _ node stored shown errors h hr hmapping hstored =>
          rw [h] at hseen
          have hkept : seen topic (past ++ [.append msg answer]) =
              Seen.mk [r] [route] [node] (stored ++ [msg]) shown errors := by
            rw [hseen]
            simp [authResult, intentRoute, adapterEntered, assistantAppend, emittedDelta,
              emittedError, hrole]
          refine .answering hkept hr hmapping fun msg' hmsg' => ?_
          rcases List.mem_append.mp hmsg' with hmsg' | hmsg'
          · exact hstored msg' hmsg'
          · exact List.mem_singleton.mp hmsg' ▸ hroute

/-- Whatever the gate has let through is one of its histories. -/
theorem Gate.history_of_watch {topic : CompiledTopic} {ts : List Act} {g : Gate}
    (h : watch (Gate.step topic) .waiting ts = some g) : Gate.History topic ts g :=
  watch_invariant (.waiting rfl) (fun _ _ _ _ hpast hstep => Gate.history_step hpast hstep) h

/-- The request has been refused. -/
def Gate.Refused : Gate → Prop
  | .refused => True
  | .told _ => True
  | .recorded _ => True
  | _ => False

theorem Gate.History.refused_of_mem {topic : CompiledTopic} {past : List Act} {g : Gate}
    (h : Gate.History topic past g) {r : AuthResult} (hr : r ∈ word authResult past)
    (hrefused : r.passed = false) : g.Refused := by
  have hone : ∀ {r' : AuthResult}, word authResult past = [r'] → r'.passed = true → False := by
    intro r' hauth hr'
    rw [hauth, List.mem_singleton] at hr
    rw [← hr, hrefused] at hr'
    cases hr'
  cases h with
  | waiting h =>
      rw [show word authResult past = [] from congrArg Seen.auth h] at hr
      exact (List.not_mem_nil hr).elim
  | refused h hr => trivial
  | told h hr => trivial
  | recorded h hr hcontent hroute => trivial
  | passed h hr' => exact (hone (congrArg Seen.auth h) hr').elim
  | routed h hr' => exact (hone (congrArg Seen.auth h) hr').elim
  | answering h hr' hmapping hstored => exact (hone (congrArg Seen.auth h) hr').elim

theorem Gate.History.of_refused {topic : CompiledTopic} {past : List Act} {g : Gate}
    (h : Gate.History topic past g) (hg : g.Refused) :
    word emittedError past = [] ∧ ∃ r, word authResult past = [r] ∧ r.passed = false := by
  cases h with
  | refused h hr => exact ⟨congrArg Seen.errors h, _, congrArg Seen.auth h, hr⟩
  | told h hr => exact ⟨congrArg Seen.errors h, _, congrArg Seen.auth h, hr⟩
  | recorded h hr hcontent hroute =>
      exact ⟨congrArg Seen.errors h, _, congrArg Seen.auth h, hr⟩
  | _ => exact hg.elim

theorem Gate.open_of_answers {topic : CompiledTopic} {g g' : Gate} {a : Act}
    (hstep : g.step topic a = some g') (ha : a.answers = true) :
    g = .passed ∨ ∃ route, g = .answering route := by
  cases a with
  | enrich s r => cases g <;> simp [Gate.step] at hstep ⊢
  | classify s k r => cases g <;> simp [Gate.step] at hstep ⊢
  | run s output k => cases g <;> simp [Gate.step] at hstep ⊢
  | _ => cases ha

/-- Where an answering plugin may be called, the authorisation has passed. -/
theorem Gate.History.passed_of_answers {topic : CompiledTopic} {past : List Act} {g g' : Gate}
    {a : Act} (h : Gate.History topic past g) (hstep : g.step topic a = some g')
    (ha : a.answers = true) : ∃ r ∈ word authResult past, r.passed = true := by
  have hone : ∀ {r : AuthResult}, word authResult past = [r] → r.passed = true →
      ∃ r ∈ word authResult past, r.passed = true := by
    intro r hauth hr
    rw [hauth]
    exact ⟨r, List.mem_singleton.mpr rfl, hr⟩
  rcases Gate.open_of_answers hstep ha with rfl | ⟨route, rfl⟩
  · cases h with
    | passed h hr => exact hone (congrArg Seen.auth h) hr
  · cases h with
    | answering h hr hmapping hstored => exact hone (congrArg Seen.auth h) hr

/-- What a passed request has come to: nothing started yet, or the adapter of
    the written route. -/
theorem Gate.History.routed_of_passed {topic : CompiledTopic} {past : List Act} {g : Gate}
    (h : Gate.History topic past g) {r : AuthResult} (hr : r ∈ word authResult past)
    (hpassed : r.passed = true) :
    (word (adapterEntered topic) past = [] ∧ word assistantAppend past = []) ∨
      ∃ route node, word intentRoute past = [route] ∧ topic.mapping.get? route = some node ∧
        word (adapterEntered topic) past = [node] ∧
        ∀ msg ∈ word assistantAppend past, msg.route = some route := by
  have hone : ∀ {r' : AuthResult}, word authResult past = [r'] → r'.passed = false → False := by
    intro r' hauth hr'
    rw [hauth, List.mem_singleton] at hr
    rw [← hr, hpassed] at hr'
    cases hr'
  cases h with
  | waiting h => exact Or.inl ⟨congrArg Seen.entered h, congrArg Seen.stored h⟩
  | refused h hr' => exact (hone (congrArg Seen.auth h) hr').elim
  | told h hr' => exact (hone (congrArg Seen.auth h) hr').elim
  | recorded h hr' hcontent hroute => exact (hone (congrArg Seen.auth h) hr').elim
  | passed h hr' => exact Or.inl ⟨congrArg Seen.entered h, congrArg Seen.stored h⟩
  | routed h hr' => exact Or.inl ⟨congrArg Seen.entered h, congrArg Seen.stored h⟩
  | answering h hr' hmapping hstored =>
      refine Or.inr ⟨_, _, congrArg Seen.routes h, hmapping, congrArg Seen.entered h, ?_⟩
      rw [show word assistantAppend past = _ from congrArg Seen.stored h]
      exact hstored

-- ============================================================================
-- The pipeline keeps to the machine
-- ============================================================================

section Stages

variable {env : Env σ} {topic : CompiledTopic} {s : GraphState} {g : Gate} {route : PyStr}

variable (hg : (graphDecl env topic topic.mapping).names.Nodup)
include hg

/-- The gate does not see the built-in nodes start. -/
theorem enter_builtin {n : String} (hn : n = "load_session" ∨ n = "auth_node" ∨
    n = "reject_node" ∨ n = "enrich_node" ∨ n = "intent_node" ∨ n = "persist_node") (g : Gate) :
    g.step topic (.enter (py n)) = some g := by
  have hfresh : py n ∉ topic.adapters.keys := by
    intro hmem
    obtain ⟨h1, h2, h3, h4, h5, h6⟩ := (adapter_names hg).2 _ hmem
    rcases hn with rfl | rfl | rfl | rfl | rfl | rfl
    · exact h1 rfl
    · exact h2 rfl
    · exact h3 rfl
    · exact h4 rfl
    · exact h5 rfl
    · exact h6 rfl
  simp [Gate.step, hfresh]

theorem persistStage_gate {g' : Gate}
    (happend : ∀ content r, Json.join s.answerChunks = .ok content →
      g.step topic (.append (assistantMessage s content) r) = some g') :
    Watched (Gate.step topic) g (persistStage env s) fun _ g₁ => g₁ = g' := by
  refine (visit_watched (enter_builtin hg (by simp) g) (persistNode_watched (fun _ _ => rfl)
    (fun _ _ => rfl) (fun _ _ _ => rfl) happend) ?_).bind
    fun _ _ h => .ret h
  rintro u g₂ b rfl -
  exact ⟨g₂, by simp [langGraph, Gate.step], rfl⟩

/-- A refused request is told and recorded. -/
theorem rejectStage_gate (hroute : s.route = some (py "reject")) (hchunks : s.answerChunks = []) :
    Watched (Gate.step topic) .refused (rejectStage env topic s)
      fun _ g => ∃ text, g = .recorded text := by
  have hnode : Watched (Gate.step topic) .refused
      (makeRejectNode (NodeEnv.live σ) topic.errorMessages s)
      fun u g => g = .told (rejectText topic.errorMessages s.auth) ∧
        u = { answerChunks := [.str (rejectText topic.errorMessages s.auth)] } := by
    have htell : Gate.step topic .refused
        (.emit (rejectDelta (rejectText topic.errorMessages s.auth)))
        = some (.told (rejectText topic.errorMessages s.auth)) := by
      simp [Gate.step, rejectDelta, literalEvent, rejectShown]
    rw [makeRejectNode_live]
    refine .play (watch_cons htell) fun u hu => ?_
    cases hu
    exact ⟨rfl, rfl⟩
  have hvisit : Watched (Gate.step topic) .refused
      (step "reject_node" (makeRejectNode (NodeEnv.live σ) topic.errorMessages) s)
      fun p g => ∃ text, g = .told text ∧ p.1.answerChunks = [.str text] ∧
        p.1.route = some (py "reject") := by
    refine visit_watched (enter_builtin hg (by simp) _) hnode ?_
    rintro u g₂ b ⟨rfl, rfl⟩ -
    refine ⟨.told (rejectText topic.errorMessages s.auth), by simp [langGraph, Gate.step],
      _, rfl, ?_, ?_⟩
    · simp [langGraph, hchunks]
    · simp [langGraph, hroute]
  refine hvisit.bind fun p g hp => ?_
  obtain ⟨text, rfl, htext, hr⟩ := hp
  refine (persistStage_gate hg fun content r hjoin => ?_).mono fun _ _ h => ⟨text, h⟩
  rw [htext] at hjoin
  simp only [Json.join, List.append_nil, Except.ok.injEq] at hjoin
  simp [Gate.step, assistantMessage, hr, hjoin]

/-- The adapter of the written route answers. -/
theorem adapterStage_gate {routed : RoutedAdapter topic} (hroute : s.route = some route)
    (hmapping : topic.mapping.get? route = some routed.node) :
    Watched (Gate.step topic) (.routed route) (adapterStage env topic routed s)
      fun _ g => g = .answering route := by
  have hkey : routed.node ∈ topic.adapters.keys := Dict.mem_keys_of_get? routed.isAdapter
  have hnode : Watched (Gate.step topic) (.answering route)
      (topicAdapterNode topic routed.node routed.adapter s : Prog σ Update)
      fun u g => g = .answering route ∧ u.route = none := by
    refine .quiet ?_ ?_
    · refine (adapterNode_acts topic s routed.node routed.adapter).mono fun a ha => ?_
      cases a with
      | emit ev => cases htype : ev.type <;> simp [Gate.step, htype]
      | run s output k => rfl
      | sleep ms => rfl
      | _ => exact ha.elim
    · intro w u hu
      obtain ⟨answer, cancelled, hwrites⟩ :=
        topic.adapterTrace_writes s routed.node routed.adapter
      rw [adapterNode_returns topic s routed.node routed.adapter w u hu, hwrites]
      exact ⟨rfl, rfl⟩
  have hvisit : Watched (Gate.step topic) (.routed route)
      (visit langGraph routed.node (topicAdapterNode topic routed.node routed.adapter) s
        fun _ => (.ok ()) : Prog σ (GraphState × Unit))
      fun p g => g = .answering route ∧ p.1.route = some route := by
    refine visit_watched (by simp [langGraph, Gate.step, hkey, hmapping]) hnode ?_
    rintro u g₂ b ⟨rfl, hu⟩ -
    have hne : routed.node ≠ py "intent_node" := ((adapter_names hg).2 _ hkey).2.2.2.2.1
    exact ⟨_, by simp [langGraph, Gate.step, hne], rfl, by simp [langGraph, hu, hroute]⟩
  refine hvisit.bind fun p g hp => ?_
  obtain ⟨rfl, hp⟩ := hp
  exact persistStage_gate hg fun content r _ => by simp [Gate.step, assistantMessage, hp]

theorem intentStage_gate :
    Watched (Gate.step topic) .passed (intentStage env topic s)
      fun _ g => ∃ route, g = .answering route := by
  have hnode : Watched (Gate.step topic) .passed (topicIntentNode env topic topic.mapping s)
      fun u g => g = .passed ∧ ∃ answer, u = intentUpdate answer := by
    refine .quiet ?_ ?_
    · refine (intentNode_acts env topic s topic.mapping).mono fun a ha => ?_
      cases a with
      | emit ev => rcases ha with htype | htype <;> simp [Gate.step, htype]
      | classify s k r => rfl
      | sleep ms => rfl
      | _ => exact ha.elim
    · exact fun w u hu => ⟨rfl, intentNode_returns env topic s topic.mapping w u hu⟩
  have hvisit : Watched (Gate.step topic) .passed
      (visit langGraph (py "intent_node") (topicIntentNode env topic topic.mapping) s
        (routeTarget topic))
      fun p g => ∃ route, g = .routed route ∧ p.1.route = some route ∧
        topic.mapping.get? route = some p.2.node := by
    refine visit_watched (enter_builtin hg (by simp) _) hnode ?_
    rintro u g₂ b ⟨rfl, answer, rfl⟩ hb
    refine ⟨.routed answer.1, by simp [langGraph, Gate.step, intentUpdate], _, rfl, ?_, ?_⟩
    · simp [langGraph, intentUpdate]
    · exact routeTarget_mapping hb
  refine hvisit.bind fun p g hp => ?_
  obtain ⟨route, rfl, hroute, hmapping⟩ := hp
  exact (adapterStage_gate hg hroute hmapping).mono fun _ _ h => ⟨route, h⟩

theorem answerStage_gate :
    Watched (Gate.step topic) .passed (answerStage env topic s)
      fun _ g => ∃ route, g = .answering route := by
  have hnode : Watched (Gate.step topic) .passed
      (makeEnrichNode (NodeEnv.live σ) topic.enrich s) fun _ g => g = .passed := by
    refine .quiet ?_ fun _ _ _ => rfl
    refine (enrichNode_acts topic s).mono fun a ha => ?_
    cases a with
    | emit ev => rcases ha with htype | htype <;> simp [Gate.step, htype]
    | enrich s r => rfl
    | _ => exact ha.elim
  have hvisit : Watched (Gate.step topic) .passed
      (step "enrich_node" (makeEnrichNode (NodeEnv.live σ) topic.enrich) s)
      fun _ g => g = .passed := by
    refine visit_watched (enter_builtin hg (by simp) _) hnode ?_
    rintro u g₂ b rfl -
    exact ⟨_, by simp [langGraph, Gate.step], rfl⟩
  refine hvisit.bind fun p g hp => ?_
  subst hp
  exact intentStage_gate hg

theorem authStage_gate (hchunks : s.answerChunks = []) :
    Watched (Gate.step topic) .waiting (authStage env topic s)
      fun _ g => (∃ text, g = .recorded text) ∨ ∃ route, g = .answering route := by
  have hnode : Watched (Gate.step topic) .waiting
      (makeAuthNode (NodeEnv.live σ) topic.auth s)
      fun u g => ∃ r, u = authUpdate r ∧ g = if r.passed then .passed else .refused := by
    rw [makeAuthNode_live]
    cases topic.auth.authorize s with
    | error e =>
        have hwatch : watch (Gate.step topic) .waiting
            [.emit thinkingAuth, .authorize s (.error e)] = some .waiting := rfl
        exact .play hwatch fun u hu => by cases hu
    | ok r =>
        have hwatch : watch (Gate.step topic) .waiting
            [.emit thinkingAuth, .authorize s (.ok r), .emit (progressAuth r.passed)]
            = some (if r.passed then .passed else .refused) := rfl
        refine .play hwatch fun u hu => ?_
        cases hu
        exact ⟨r, rfl, rfl⟩
  have hvisit : Watched (Gate.step topic) .waiting
      (visit langGraph (py "auth_node") (makeAuthNode (NodeEnv.live σ) topic.auth) s authPassed)
      fun p g => (p.2 = true ∧ g = .passed) ∨ (p.2 = false ∧ g = .refused ∧
        p.1.route = some (py "reject") ∧ p.1.answerChunks = []) := by
    refine visit_watched (enter_builtin hg (by simp) _) hnode ?_
    rintro u g₂ b ⟨r, rfl, rfl⟩ hb
    refine ⟨if r.passed then .passed else .refused, by simp [langGraph, Gate.step], ?_⟩
    cases hp : r.passed with
    | true => simp_all [langGraph, authPassed, authUpdate]
    | false => simp_all [langGraph, authPassed, authUpdate]
  refine hvisit.bind fun p g hp => ?_
  rcases hp with ⟨hp, rfl⟩ | ⟨hp, rfl, hroute, hchunks⟩
  · rw [if_pos hp]
    exact (answerStage_gate hg).mono fun _ _ h => Or.inr h
  · rw [if_neg (by simp [hp])]
    exact (rejectStage_gate hg hroute hchunks).mono fun _ _ h => Or.inl h

/-- The pipeline keeps to the gate. -/
theorem pipeline_gate (hchunks : s.answerChunks = []) :
    Watched (Gate.step topic) .waiting (pipeline env topic s)
      fun _ g => (∃ text, g = .recorded text) ∨ ∃ route, g = .answering route := by
  have hnode : Watched (Gate.step topic) .waiting (loadSessionNode env topic s)
      fun u g => g = .waiting ∧ u.answerChunks = [] := by
    refine .quiet ?_ ?_
    · refine (loadSessionNode_acts env topic s).mono fun a ha => ?_
      cases a <;> first | rfl | exact ha.elim
    · intro w u hu
      obtain ⟨history, rfl⟩ := loadSessionNode_returns env topic s w u hu
      exact ⟨rfl, rfl⟩
  have hvisit : Watched (Gate.step topic) .waiting
      (step "load_session" (loadSessionNode env topic) s)
      fun p g => g = .waiting ∧ p.1.answerChunks = [] := by
    refine visit_watched (enter_builtin hg (by simp) _) hnode ?_
    rintro u g₂ b ⟨rfl, hu⟩ -
    exact ⟨.waiting, by simp [langGraph, Gate.step], rfl, by simp [langGraph, hchunks, hu]⟩
  refine hvisit.bind fun p g hp => ?_
  obtain ⟨rfl, hp⟩ := hp
  exact authStage_gate hg hp

end Stages

-- ============================================================================
-- A refused request that meets no exception
-- ============================================================================

/-- The act records a call that raised. -/
def Act.raised : Act → Bool
  | .authorize _ (.error _) => true
  | .enrich _ (.error _) => true
  | .classify _ _ (.error _) => true
  | .acquire (.error _) => true
  | .release (.error _) => true
  | .getOrCreate _ _ _ (.error _) => true
  | .append _ (.error _) => true
  | .listRecent _ _ (.error _) => true
  | .touch _ (.error _) => true
  | _ => false

/-- No call raised, and no authorisation passed. -/
def Act.Refusing (a : Act) : Prop :=
  a.raised = false ∧ ∀ r, authResult a = some r → r.passed = false

theorem not_refusing {a : Act} (h : a.raised = true) : ¬ a.Refusing := by
  intro hfine
  rw [hfine.1] at h
  cases h

/-- A block on a connection. -/
theorem withConn_refusing {repos : Repos σ} {body : Prog σ α} {Q : α → Prop}
    (h : body.Succeeds Act.Refusing Q) : (repos.withConn body).Succeeds Act.Refusing Q :=
  Repos.withConn_succeeds repos (fun _ => not_refusing rfl) (fun _ => not_refusing rfl) h

/-- A call whose record shows what it raised. -/
theorem call_refusing {f : σ → Except Exn α × σ} {t : Except Exn α → Act}
    (h : ∀ e, (t (.error e)).raised = true) :
    (Eff.call f t).Succeeds Act.Refusing fun _ => True :=
  .call_shown fun e => not_refusing (h e)

section Refused

variable {env : Env σ} {topic : CompiledTopic} {s : GraphState}

theorem persistStage_succeeds {text : PyStr} (hchunks : s.answerChunks = [.str text]) :
    (persistStage env s).Succeeds Act.Refusing fun _ => True := by
  have hjoin : Json.join s.answerChunks = .ok (text ++ []) := by rw [hchunks]; rfl
  have hnode : (persistNode env s).Succeeds Act.Refusing fun _ => True :=
    withConn_refusing ((Eff.Succeeds.ofExcept hjoin trivial).bind fun _ (_ : True) =>
      (call_refusing fun _ => rfl).bind fun _ _ => (call_refusing fun _ => rfl).bind fun _ _ =>
        .ret trivial)
  exact (visit_succeeds hnode fun _ _ => ⟨(), rfl, trivial⟩).bind fun _ (_ : True) => .ret trivial

theorem rejectStage_succeeds (hchunks : s.answerChunks = []) :
    (rejectStage env topic s).Succeeds Act.Refusing fun _ => True := by
  have hnode : (makeRejectNode (NodeEnv.live σ) topic.errorMessages s).Succeeds Act.Refusing
      fun u => u = { answerChunks := [.str (rejectText topic.errorMessages s.auth)] } := by
    rw [makeRejectNode_live]
    exact .play fun _ => ⟨_, rfl, rfl⟩
  have hvisit : (step "reject_node" (makeRejectNode (NodeEnv.live σ) topic.errorMessages)
      s).Succeeds Act.Refusing fun p => ∃ text, p.1.answerChunks = [.str text] := by
    refine visit_succeeds hnode fun u hu =>
      ⟨(), rfl, rejectText topic.errorMessages s.auth, ?_⟩
    rw [hu]
    exact congrArg (· ++ _) hchunks
  refine hvisit.bind fun p hp => ?_
  obtain ⟨text, hp⟩ := hp
  exact persistStage_succeeds hp

theorem authStage_succeeds (hchunks : s.answerChunks = []) :
    (authStage env topic s).Succeeds Act.Refusing fun _ => True := by
  have hnode : (makeAuthNode (NodeEnv.live σ) topic.auth s).Succeeds Act.Refusing
      fun u => ∃ r, u = authUpdate r ∧ r.passed = false := by
    rw [makeAuthNode_live]
    cases topic.auth.authorize s with
    | error e =>
        refine .play fun hfine => ?_
        have hraised := (hfine (.authorize s (.error e)) (by simp)).1
        cases hraised
    | ok r =>
        refine .play fun hfine => ⟨_, rfl, r, rfl, ?_⟩
        exact (hfine (.authorize s (.ok r)) (by simp)).2 r rfl
  have hvisit : (visit langGraph (py "auth_node") (makeAuthNode (NodeEnv.live σ) topic.auth) s
      authPassed).Succeeds Act.Refusing fun p => p.2 = false ∧ p.1.answerChunks = [] := by
    refine visit_succeeds hnode fun u hu => ⟨false, ?_⟩
    obtain ⟨r, rfl, hr⟩ := hu
    simp [langGraph, authPassed, authUpdate, hr, hchunks]
  refine hvisit.bind fun p hp => ?_
  rw [if_neg (by simp [hp.1])]
  exact rejectStage_succeeds hp.2

/-- With no exception and no passed authorisation the pipeline comes to its end. -/
theorem pipeline_succeeds {who : AuthnIdentity} (hwho : s.identity = some who)
    (hchunks : s.answerChunks = []) :
    (pipeline env topic s).Succeeds Act.Refusing fun _ => True := by
  have hidentity : s.identity.elim (.error .attributeError) .ok = (.ok who : Except Exn _) := by
    rw [hwho]
    rfl
  have hnode : (loadSessionNode env topic s).Succeeds Act.Refusing fun u => u.answerChunks = [] :=
    withConn_refusing ((Eff.Succeeds.ofExcept hidentity trivial).bind fun _ (_ : True) =>
      (call_refusing fun _ => rfl).bind fun _ _ => (call_refusing fun _ => rfl).bind fun _ _ =>
        .ret rfl)
  have hvisit : (step "load_session" (loadSessionNode env topic) s).Succeeds Act.Refusing
      fun p => p.1.answerChunks = [] :=
    visit_succeeds hnode fun u hu => ⟨(), rfl, by simp [langGraph, hchunks, hu]⟩
  exact hvisit.bind fun p hp => authStage_succeeds hp

end Refused

-- ============================================================================
-- The gate of a request
-- ============================================================================

/-- The acts the gate steps at. -/
def gateSees : Act → Bool
  | .authorize _ _ => true
  | .emit _ => true
  | .enrich _ _ => true
  | .classify _ _ _ => true
  | .write _ _ => true
  | .enter _ => true
  | .run _ _ _ => true
  | .append msg _ => msg.role = py "assistant"
  | _ => false

theorem gateSees_graphSelection (req : ChatRequest) : GraphSelection req gateSees where
  noYield := fun _ => rfl
  noUser := fun a ha => by
    cases a with
    | append msg r =>
        obtain ⟨messageId, rfl⟩ := ha
        simp [gateSees, userMessage]
    | _ => first | rfl | exact ha.elim

theorem step_of_not_gateSees {topic : CompiledTopic} (g : Gate) (a : Act)
    (h : gateSees a = false) : g.step topic a = some g := by
  cases a with
  | append msg r =>
      have hrole : msg.role ≠ py "assistant" := by simpa [gateSees] using h
      simp [Gate.step, hrole]
  | _ => first | rfl | cases h

section Request

variable {env : Env σ} {topics : TopicRegistry} {req : ChatRequest} {topic : CompiledTopic}

/-- A request and the graph's part in it leave the gate in one state. -/
theorem watch_graphPart {errorMessages : Dict PyStr PyStr} {full pre ts : List Act}
    (h : GraphPart req errorMessages full pre ts) (g : Gate) :
    watch (Gate.step topic) g ts = watch (Gate.step topic) g pre := by
  rw [← watch_filter step_of_not_gateSees, h.acts _ (gateSees_graphSelection req),
    watch_filter step_of_not_gateSees]

theorem buildGraph_names {g : ChatGraph σ} (h : buildGraph env topic = .ok g) :
    (graphDecl env topic topic.mapping).names.Nodup := by
  rw [buildGraph_eq] at h
  split at h
  · next hcompiles => exact env.engine.names_nodup hcompiles
  · cases h

/-- Every request keeps to the gate. -/
theorem handle_watched (ht : topics.get req.bizId = some topic) (w : σ) :
    ∃ g, watch (Gate.step topic) .waiting (handle env topics req w).trace = some g := by
  obtain ⟨w', pre, hpart, hbuild⟩ := @handle_graphPart σ env topics req topic ht w
  rw [watch_graphPart hpart]
  by_cases hpre : pre = []
  · exact ⟨.waiting, by rw [hpre]; rfl⟩
  · obtain ⟨g, hg⟩ := hbuild hpre
    exact (pipeline_gate (buildGraph_names hg) rfl).watch_of_isPrefix hpart.isPrefix

/-- A refused request that meets no exception shows and stores its rejection. -/
theorem handle_refused (ht : topics.get req.bizId = some topic) (w : σ) {r : AuthResult}
    (hr : r ∈ word authResult (handle env topics req w).trace) (hrefused : r.passed = false)
    (hfine : ∀ a ∈ (handle env topics req w).trace, a.raised = false) :
    ∃ text msg, word yieldedDelta (handle env topics req w).trace = [rejectData text] ∧
      word assistantAppend (handle env topics req w).trace = [msg] ∧
      msg.content = .str text ∧ msg.route = some (py "reject") := by
  obtain ⟨w', pre, hpart, hbuild⟩ := @handle_graphPart σ env topics req topic ht w
  obtain ⟨g, hwatch⟩ := @handle_watched σ env topics req topic ht w
  generalize (handle env topics req w).trace = ts at hpart hwatch hr hfine ⊢
  have hpre : watch (Gate.step topic) .waiting pre = some g := watch_graphPart hpart _ ▸ hwatch
  have hhistory := Gate.history_of_watch hwatch
  have hg := hhistory.refused_of_mem hr hrefused
  obtain ⟨herrors, r', hauth, hr'⟩ := (Gate.history_of_watch hpre).of_refused hg
  -- the relay did not raise, so the pipeline came to its end
  have hfull : pre = (pipeline env topic (initialState req (assistantId env w)) w').trace := by
    rcases hpart.cut with hnil | hfull | ⟨ev, hev, htype⟩
    · rw [hnil] at hauth
      cases hauth
    · exact hfull
    · have hmem : ev ∈ word emittedError pre :=
        List.mem_filterMap.mpr ⟨_, hev, by simp [emittedError, htype]⟩
      rw [herrors] at hmem
      exact (List.not_mem_nil hmem).elim
  have hne : pre ≠ [] := by
    intro hnil
    rw [hnil] at hauth
    cases hauth
  obtain ⟨graph, hgraph⟩ := hbuild hne
  obtain ⟨g', hfinal, hend⟩ := @pipeline_gate σ env topic
    (initialState req (assistantId env w)) (buildGraph_names hgraph) rfl w'
  have hrefusing : ∀ a ∈ pre, a.Refusing := by
    refine fun a ha => ⟨hfine a (hpart.sublist.subset ha), fun r₁ hr₁ => ?_⟩
    have hmem : r₁ ∈ word authResult pre := List.mem_filterMap.mpr ⟨a, ha, hr₁⟩
    rw [hauth, List.mem_singleton] at hmem
    rw [hmem, hr']
  rw [hfull] at hrefusing hpre
  obtain ⟨s, hresult, -⟩ := @pipeline_succeeds σ env topic
    (initialState req (assistantId env w)) req.who rfl rfl w' hrefusing
  rw [hpre, Option.some.injEq] at hfinal
  subst hfinal
  -- a request that came to its end refused is recorded
  rcases hend s hresult with ⟨text, rfl⟩ | ⟨route, rfl⟩
  · have hpre' : word emittedDelta pre = [rejectData text] := by
      rw [← hfull] at hpre
      cases Gate.history_of_watch hpre with
      | recorded h hr₁ hcontent hroute => exact congrArg Seen.shown h
    have hshown : word shownDelta pre = [rejectData text] := by
      have hmap : word shownDelta pre =
          (word emittedDelta pre).map fun data => data.orElse (.obj []) :=
        (List.map_filterMap ..).symm
      rw [hmap, hpre']
      rfl
    cases hhistory with
    | @recorded _ _ msg h hr₁ hcontent hroute =>
        exact ⟨text, msg, hpart.deltas.trans hshown, congrArg Seen.stored h, hcontent, hroute⟩
  · exact hg.elim

/-- The auth gate of a request, for every topic, plugin behaviour and behaviour
    of the repositories: (a) enrich, classify and run are called only after
    `authorize` returned passed; (b) a refused request that meets no exception
    shows one delta and stores it under the route reject; (c) for a passed
    request, either no adapter starts and no answer is stored, or the intent
    node wrote one route, the adapter of the mapping is the one that starts, and
    every answer stored carries that route. -/
theorem handle_gate (env : Env σ) (topics : TopicRegistry) (req : ChatRequest)
    (topic : CompiledTopic) (ht : topics.get req.bizId = some topic) (w : σ) :
    (∀ past a rest, (handle env topics req w).trace = past ++ a :: rest → a.answers = true →
      ∃ r ∈ word authResult past, r.passed = true) ∧
    (∀ r ∈ word authResult (handle env topics req w).trace, r.passed = false →
      (∀ a ∈ (handle env topics req w).trace, a.raised = false) →
      ∃ text msg, word yieldedDelta (handle env topics req w).trace = [rejectData text] ∧
        word assistantAppend (handle env topics req w).trace = [msg] ∧
        msg.content = .str text ∧ msg.route = some (py "reject")) ∧
    (∀ r ∈ word authResult (handle env topics req w).trace, r.passed = true →
      (word (adapterEntered topic) (handle env topics req w).trace = [] ∧
        word assistantAppend (handle env topics req w).trace = []) ∨
      ∃ route node, word intentRoute (handle env topics req w).trace = [route] ∧
        topic.mapping.get? route = some node ∧
        word (adapterEntered topic) (handle env topics req w).trace = [node] ∧
        ∀ msg ∈ word assistantAppend (handle env topics req w).trace,
          msg.route = some route) := by
  obtain ⟨g, hwatch⟩ := @handle_watched σ env topics req topic ht w
  refine ⟨fun past a rest hsplit ha => ?_, fun r hr hp hfine => handle_refused ht w hr hp hfine,
    fun r hr hp => ?_⟩
  · rw [hsplit] at hwatch
    obtain ⟨g₁, g₂, hpast, hstep, -⟩ := watch_act hwatch
    exact (Gate.history_of_watch hpast).passed_of_answers hstep ha
  · exact (Gate.history_of_watch hwatch).routed_of_passed hr hp

end Request

/-- Nobody passes. -/
def closedAuth : AuthPlugin := ⟨fun _ => .ok { passed := false, rejectMessage := some (py "no") }⟩

/-- A refused request: one delta is shown, and stored under the route reject. -/
theorem handle_gate_refused :
    let topic := smallTopic closedAuth plainEnrich (scripted [])
    let run := handle (plainEnv idleRepos fun w => (py "1", w)) (oneTopic topic)
      (aliceAsks (py "th")) ()
    ∃ text msg, word yieldedDelta run.trace = [rejectData text] ∧
      word assistantAppend run.trace = [msg] ∧ msg.content = .str text ∧
      msg.route = some (py "reject") := by
  intro topic run
  have hauth : (word authResult run.trace).map AuthResult.passed = [false] := by decide
  have hfine : (run.trace.all fun a => !a.raised) = true := by decide
  obtain ⟨r, hr, hrefused⟩ : ∃ r ∈ word authResult run.trace, r.passed = false := by
    rw [← List.mem_map, hauth]
    exact List.mem_singleton.mpr rfl
  refine (handle_gate (plainEnv idleRepos fun w => (py "1", w)) (oneTopic topic)
    (aliceAsks (py "th")) topic rfl ()).2.1 r hr hrefused fun a ha => ?_
  have hnot := List.all_eq_true.mp hfine a ha
  simpa using hnot

end MasterAgent
