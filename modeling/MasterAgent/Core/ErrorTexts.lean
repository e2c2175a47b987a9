/-
  MasterAgent.Core.ErrorTexts

  Where the text of a downstream's error frame goes.  An adapter copies it into
  its error event, and `handle` replaces it by the topic's text for the code of
  the event, if the topic has one.  So the texts are kept back exactly as long as
  the error frames that are shown carry none or have such a code.
-/

import MasterAgent.Core.ErrorFrames
import Mathlib.Data.Set.Finite.Basic

namespace MasterAgent

open Effect StateGraph

variable {σ : Type}

-- ============================================================================
-- Downstreams
-- ============================================================================

def AdapterKind.dialect : (kind : AdapterKind) → Dialect kind.Frame
  | .metagc => MetaGCAdapter.dialect
  | .uniioc => UniiocAdapter.dialect
  | .knowledgeCenter => KnowledgeCenterAdapter.dialect

theorem AdapterKind.dialect_wire (kind : AdapterKind) : kind.dialect.wire = kind.wire := by
  cases kind <;> rfl

/-- An attempt of an adapter is the dialect's reading of what the downstream sends. -/
theorem AdapterKind.attemptTrace_eq (kind : AdapterKind)
    (down : (attempt : Nat) → (body : Json) → Response kind.Frame) (maxAttempts : Nat)
    (s : GraphState) (k : Nat) :
    (kind.wire.adapter down).attemptTrace true maxAttempts s k
      = kind.dialect.wire.trace (decide (k < maxAttempts)) (down k (requestBody s)) := by
  rw [kind.dialect_wire]
  rfl

/-- What stands behind an adapter node: the kind of its adapter, how often it is
    tried, and what its downstream sends in each attempt. -/
structure Upstream where
  kind : AdapterKind
  retry : Option RetryPolicy
  sent : (attempt : Nat) → Response kind.Frame

/-- The data of an error frame give nothing away: they carry no text, or their
    code has a text of the topic, or it cannot be looked up at all. -/
def Hides (errorMessages : Dict PyStr PyStr) (fields : List (PyStr × Json)) : Prop :=
  py "message" ∉ fields.map Prod.fst ∨ (codeOf fields).hashable = false ∨
    ∃ code text, codeOf fields = .str code ∧ errorMessages.get? code = some text ∧ text ≠ []

/-- In no attempt that is made does the response show an error frame that gives
    something away. -/
def Upstream.Discreet (errorMessages : Dict PyStr PyStr) (u : Upstream) : Prop :=
  ∀ k, 1 ≤ k → k ≤ maxAttempts u.retry →
    (∀ j, 1 ≤ j → j < k → u.kind.dialect.Fails (u.sent j)) →
    ∀ fields, u.kind.dialect.Shows (u.sent k) fields → Hides errorMessages fields

/-- Adapters of one kind before two downstreams: what they send differs in the
    texts of error frames only, and `D` holds of what the first one sends. -/
def Served (D : Upstream → Prop) (retry : Option RetryPolicy) (a a' : DownstreamAdapter) : Prop :=
  ∃ (kind : AdapterKind) (down down' : Nat → Json → Response kind.Frame),
    a = kind.wire.adapter down ∧ a' = kind.wire.adapter down' ∧
      ∀ body, D ⟨kind, retry, fun k => down k body⟩ ∧
        ∀ k, kind.dialect.Varied (down k body) (down' k body)

/-- Texts of the service: those of the topic, and literals. -/
inductive ServiceText (errorMessages : Dict PyStr PyStr) : PyStr → Prop where
  | configured {code text : PyStr} (h : errorMessages.get? code = some text) :
      ServiceText errorMessages text
  | adapter {text : PyStr} (h : text ∈ adapterTexts) : ServiceText errorMessages text
  | exhausted (n : Nat) : ServiceText errorMessages (py s!"调用下游失败（重试{n}次后放弃）")
  | invalid : ServiceText errorMessages (py "请求参数不合法")
  | bound : ServiceText errorMessages (py "thread_id 已绑定到其它专题，无法跨专题复用")
  | internal : ServiceText errorMessages (py "服务异常")

/-- The message of an event is a text of the service. -/
def ChatEvent.FromService (errorMessages : Dict PyStr PyStr) (ev : ChatEvent) : Prop :=
  ∃ text, dataField (py "message") ev.data = some (.str text) ∧ ServiceText errorMessages text

/-- For requests to topics with these messages and with downstreams in `D`: the
    events do not depend on the texts of error frames, and the message of every
    error event is a text of the service. -/
def TextsHidden (errorMessages : Dict PyStr PyStr) (D : Upstream → Prop) : Prop :=
  ∀ {σ : Type} (env : Env σ) (topics topics' : TopicRegistry) (topic : CompiledTopic)
    (f : PyStr → DownstreamAdapter → DownstreamAdapter) (req : ChatRequest) (w : σ),
    env.engine.IgnoresBodies → topic.errorMessages = errorMessages →
    topics.get req.bizId = some topic → topics'.get req.bizId = some (topic.mapAdapters f) →
    (∀ n a, topic.adapters.get? n = some a → Served D (topic.adapterRetries.get? n) a (f n a)) →
    word Act.yielded (handle env topics req w).trace
        = word Act.yielded (handle env topics' req w).trace ∧
      ∀ ev ∈ word Act.yielded (handle env topics req w).trace, ev.type = .error →
        ev.FromService errorMessages

-- ============================================================================
-- Relaying an adapter's error
-- ============================================================================

/-- The text a topic has for a code. -/
def friendlyText (errorMessages : Dict PyStr PyStr) : Json → Option PyStr
  | .str code => match errorMessages.get? code with
      | some (c :: text) => some (c :: text)
      | _ => none
  | _ => none

theorem friendlyText_eq_some {errorMessages : Dict PyStr PyStr} {code : Json} {text : PyStr} :
    friendlyText errorMessages code = some text ↔
      ∃ c, code = .str c ∧ errorMessages.get? c = some text ∧ text ≠ [] := by
  cases code with
  | str c =>
      cases h : errorMessages.get? c with
      | none => simp [friendlyText, h]
      | some t =>
          cases t with
          | nil => simp [friendlyText, h]
          | cons x t =>
              have hne : x :: t = text → text ≠ [] := by
                rintro rfl
                simp
              simpa [friendlyText, h] using hne
  | _ => simp [friendlyText]

theorem hides_iff {errorMessages : Dict PyStr PyStr} {fields : List (PyStr × Json)} :
    Hides errorMessages fields ↔ py "message" ∉ fields.map Prod.fst ∨
      (codeOf fields).hashable = false ∨
        ∃ text, friendlyText errorMessages (codeOf fields) = some text := by
  unfold Hides
  simp only [friendlyText_eq_some]
  rw [exists_comm]

theorem relayError_adapterError (errorMessages : Dict PyStr PyStr) (code message : Json) :
    relayError errorMessages (adapterError code message).data
      = if code.hashable then
          .ok (adapterError code ((friendlyText errorMessages code).elim message .str)).data
        else .error .typeError := by
  have hcode : (adapterError code message).data.getD (py "code") (.str (py "INTERNAL"))
      = .ok code := by
    simp [adapterError, literalEvent, Json.getD, Json.get, Json.field]
  have hself : (adapterError code message).data.orElse (.obj [])
      = (adapterError code message).data := rfl
  have hset : ∀ text, (adapterError code message).data.setItem (py "message") (.str text)
      = .ok (adapterError code (.str text)).data := by
    intro text
    simp [adapterError, literalEvent, Json.setItem, Json.setField]
  unfold relayError
  simp only [hself, hcode, bind, Except.bind]
  cases hhash : code.hashable with
  | false => simp
  | true =>
      simp only [Bool.not_true, Bool.false_eq_true, if_false, if_true]
      cases code with
      | str c =>
          cases h : errorMessages.get? c with
          | none => simp [friendlyText, h]
          | some t =>
              cases t with
              | nil => simp [friendlyText, h]
              | cons x t => simp [friendlyText, h, hset]
      | _ => rfl

-- ============================================================================
-- Hidden texts
-- ============================================================================

/-- Whatever an act shows as an error has a text of the service. -/
def Fine (errorMessages : Dict PyStr PyStr) : Act → Prop
  | .emit ev => ev.type = .error → ∀ data, relayError errorMessages ev.data = .ok data →
      ({ type := .error, data := data } : ChatEvent).FromService errorMessages
  | .yield ev => ev.type = .error → ev.FromService errorMessages
  | _ => True

/-- Fine acts that are equal, or errors that are relayed alike. -/
def AlikeShown (errorMessages : Dict PyStr PyStr) (t u : Act) : Prop :=
  Fine errorMessages t ∧ (t = u ∨ ∃ data data', t = .emit { type := .error, data := data } ∧
    u = .emit { type := .error, data := data' } ∧
    relayError errorMessages data = relayError errorMessages data')

section Hidden

variable {errorMessages : Dict PyStr PyStr}

theorem AlikeShown.of_fine {t : Act} (h : Fine errorMessages t) :
    AlikeShown errorMessages t t := ⟨h, Or.inl rfl⟩

theorem fine_of_unerring {t : Act} (h : t.unerring) : Fine errorMessages t := by
  cases t with
  | emit ev => exact fun herror => absurd herror h
  | yield ev => exact h.elim
  | _ => trivial

theorem dataField_adapterError (code message : Json) :
    dataField (py "message") (adapterError code message).data = some message := by
  simp [dataField, adapterError, literalEvent, Json.field]

/-- An error event whose own text, where the topic has none, is the service's. -/
theorem fine_adapterError {code message : Json}
    (h : code.hashable = true → friendlyText errorMessages code = none →
      ∃ text, message = .str text ∧ ServiceText errorMessages text) :
    Fine errorMessages (.emit (adapterError code message)) := by
  intro _ data hdata
  rw [relayError_adapterError] at hdata
  split at hdata
  · next hhash =>
    rw [Except.ok.injEq] at hdata
    rw [← hdata]
    cases hfriendly : friendlyText errorMessages code with
    | none =>
        obtain ⟨text, rfl, htext⟩ := h hhash hfriendly
        exact ⟨text, dataField_adapterError _ _, htext⟩
    | some text =>
        obtain ⟨c, -, hget, -⟩ := friendlyText_eq_some.mp hfriendly
        exact ⟨text, dataField_adapterError _ _, .configured hget⟩
  · cases hdata

/-- An error frame that gives nothing away is shown alike whatever its text. -/
theorem alikeShown_of_hides {fields : List (PyStr × Json)} {defaultMessage : PyStr}
    (hdefault : defaultMessage ∈ adapterTexts) (h : Hides errorMessages fields) (m : Json) :
    AlikeShown errorMessages
      (.emit (adapterError (codeOf fields) (messageOf defaultMessage fields)))
      (.emit (adapterError (codeOf fields)
        (messageOf defaultMessage (replaceMessage m fields)))) := by
  rcases hides_iff.mp h with hnone | hhash | ⟨text, htext⟩
  · rw [replaceMessage_of_not_mem hnone, messageOf_of_not_mem hnone]
    exact .of_fine (fine_adapterError fun _ _ => ⟨_, rfl, .adapter hdefault⟩)
  · refine ⟨fine_adapterError fun h => ?_, Or.inr ⟨_, _, rfl, rfl, ?_⟩⟩
    · rw [hhash] at h
      cases h
    · show relayError _ (adapterError _ _).data = relayError _ (adapterError _ _).data
      rw [relayError_adapterError, relayError_adapterError, hhash]
      rfl
  · refine ⟨fine_adapterError fun _ hfriendly => ?_, Or.inr ⟨_, _, rfl, rfl, ?_⟩⟩
    · rw [htext] at hfriendly
      cases hfriendly
    · show relayError _ (adapterError _ _).data = relayError _ (adapterError _ _).data
      rw [relayError_adapterError, relayError_adapterError, htext]
      rfl

/-- The relay answers acts that are shown alike with the same events. -/
theorem relay_alikeShown {t u : Act} (h : AlikeShown errorMessages t u) :
    Agree (List.Forall₂ (AlikeShown errorMessages)) (relay errorMessages t)
      (relay errorMessages u) := by
  obtain ⟨hfine, rfl | ⟨data, data', rfl, rfl, hrelay⟩⟩ := h
  · cases t with
    | emit ev =>
        cases htype : ev.type with
        | error =>
            simp only [relay, htype, bind, Except.bind]
            cases hdata : relayError errorMessages ev.data with
            | error e => exact .error e
            | ok data =>
                exact .ok (.cons (.of_fine fun _ => hfine htype data hdata) .nil)
        | thinking => simpa only [relay, htype] using .ok (.cons (.of_fine (by simp [Fine])) .nil)
        | progress => simpa only [relay, htype] using .ok (.cons (.of_fine (by simp [Fine])) .nil)
        | delta => simpa only [relay, htype] using .ok (.cons (.of_fine (by simp [Fine])) .nil)
        | tool => simpa only [relay, htype] using .ok (.cons (.of_fine (by simp [Fine])) .nil)
        | _ => simpa only [relay, htype] using .ok .nil
    | _ => exact .ok .nil
  · simp only [relay, bind, Except.bind, ← hrelay]
    cases hdata : relayError errorMessages data with
    | error e => exact .error e
    | ok shown => exact .ok (.cons (.of_fine fun _ => hfine rfl shown hdata) .nil)

/-- Before downstreams that give nothing away the adapter nodes keep step. -/
theorem served_related {D : Upstream → Prop} (hD : ∀ u, D u → u.Discreet errorMessages)
    {topic : CompiledTopic} {n : PyStr} {a a' : DownstreamAdapter}
    (h : Served D (topic.adapterRetries.get? n) a a') (s : GraphState) :
    List.Forall₂ (AlikeShown errorMessages) (topic.adapterTrace n a s).1
        (topic.adapterTrace n a' s).1 ∧
      (topic.adapterTrace n a s).2 = (topic.adapterTrace n a' s).2 := by
  obtain ⟨kind, down, down', rfl, rfl, hserved⟩ := h
  obtain ⟨hu, hvaried⟩ := hserved (requestBody s)
  have hdiscreet := hD _ hu
  have hattempt := kind.attemptTrace_eq down (maxAttempts (topic.adapterRetries.get? n)) s
  have hattempt' := kind.attemptTrace_eq down' (maxAttempts (topic.adapterRetries.get? n)) s
  unfold CompiledTopic.adapterTrace
  refine adapterTrace_related (fun _ => .of_fine trivial) (.of_fine trivial) ?_
    (fun k hk hmax hfailed => ?_) _ 1 [] (Nat.add_comm _ _) (Nat.le_refl 1)
    (fun j hj hj' => absurd hj' (Nat.not_lt.mpr hj))
  · have hexhausted : Fine errorMessages (.emit (adapterError (.str (py "DOWNSTREAM_ERROR"))
        (.str (py s!"调用下游失败（重试{maxAttempts (topic.adapterRetries.get? n)}次后放弃）")))) :=
      fine_adapterError fun _ _ => ⟨_, rfl, .exhausted _⟩
    exact .of_fine hexhausted
  · rw [hattempt, hattempt']
    refine Dialect.varied_agree (fun _ => .of_fine (fun h => by cases h))
      (fun _ _ htext => .of_fine (fine_adapterError fun _ _ => ⟨_, rfl, .adapter htext⟩)) _
      (hvaried k) fun fields m hshows => ?_
    refine alikeShown_of_hides kind.dialect.defaultMessage_mem ?_ m
    refine hdiscreet k hk hmax (fun j hj hj' => ?_) fields hshows
    exact Dialect.fails_of_trace (hattempt j ▸ hfailed j hj hj')

/-- A topic and its like with other downstreams build alike. -/
theorem buildGraph_mapAdapters {env : Env σ} (henv : env.engine.IgnoresBodies)
    (topic : CompiledTopic) (f : PyStr → DownstreamAdapter → DownstreamAdapter) :
    Agree (fun _ _ => True) (buildGraph env topic) (buildGraph env (topic.mapAdapters f)) := by
  have hcompiles : env.engine.compiles (graphDecl env topic topic.mapping)
      = env.engine.compiles
          (graphDecl env (topic.mapAdapters f) (topic.mapAdapters f).mapping) := by
    refine henv _ _ ?_ rfl ?_ rfl
    · rw [graphDecl_names, graphDecl_names, CompiledTopic.mapAdapters, Dict.keys_mapValues]
    · simp only [graphDecl, CompiledTopic.mapAdapters, Dict.keys_mapValues]
  rw [buildGraph_eq, buildGraph_eq, ← hcompiles]
  split
  · exact .ok trivial
  · exact .error _

/-- Texts that nothing gives away stay hidden. -/
theorem textsHidden_of_discreet {D : Upstream → Prop}
    (hD : ∀ u, D u → u.Discreet errorMessages) : TextsHidden errorMessages D := by
  intro σ env topics topics' topic f req w henv hmessages ht ht' hserved
  subst hmessages
  have hnodes : NodesCoupled (AlikeShown topic.errorMessages) Eq env topic
      (topic.mapAdapters f) :=
    nodesCoupled_mapAdapters (fun _ h => .of_fine (fine_of_unerring h))
      fun n a s ha => served_related hD (hserved n a ha) s
  have hown : ∀ ev, OwnEvent env req topic ev →
      AlikeShown topic.errorMessages (.yield ev) (.yield ev) := by
    intro ev hev
    refine .of_fine fun herror => ?_
    cases hev with
    | invalid => exact ⟨_, rfl, .invalid⟩
    | bound detail => exact ⟨_, rfl, .bound⟩
    | internal =>
        refine ⟨_, rfl, ?_⟩
        cases hget : topic.errorMessages.get? (py "INTERNAL") with
        | none => exact .internal
        | some text => exact .configured hget
    | _ => cases herror
  have hcoupled : Eff.Coupled (AlikeShown topic.errorMessages) (handle env topics req)
      (handle env topics' req) Eq := by
    show Eff.Coupled _ _ (handle env topics' (req.under req.identity)) Eq
    refine handle_coupled hnodes rfl (fun _ _ => relay_alikeShown) hown (fun _ => rfl) ht ht' rfl
      (buildGraph_mapAdapters henv topic f) fun a ha => .of_fine (fine_of_unerring ?_)
    cases a <;> trivial
  refine ⟨hcoupled.word ?_ w, ?_⟩
  · rintro t u ⟨-, rfl | ⟨data, data', rfl, rfl, -⟩⟩
    · rfl
    · rfl
  · intro ev hev herror
    have hfine : Fine topic.errorMessages (.yield ev) :=
      ((List.forall₂_and_left _ _).mp (hcoupled.trace w)).1 _ (mem_yielded.mp hev)
    exact hfine herror

end Hidden

-- ============================================================================
-- Texts that are shown
-- ============================================================================

namespace Dialect

variable {φ : Type} {d : Dialect φ}

/-- A response with one text in all its error frames. -/
def vary (d : Dialect φ) (m : Json) (r : Response φ) : Response φ :=
  { r with frames := r.frames.map (d.withMessage m) }

theorem varied_vary (m : Json) (r : Response φ) : d.Varied r (d.vary m r) := by
  refine ⟨?_, rfl⟩
  show List.Forall₂ _ r.frames (r.frames.map (d.withMessage m))
  rw [List.forall₂_map_right_iff]
  exact List.forall₂_same.mpr fun _ _ => ⟨m, rfl⟩

/-- A frame that is passed over is no error frame. -/
theorem PassesOver.errorData {f : φ} (h : d.PassesOver f) : d.errorData f = none := by
  cases herror : d.errorData f with
  | none => rfl
  | some fields =>
      have hevent := d.onFrame_error herror
      rcases h with hskip | ⟨ev, content, hev, htype, -⟩
      · rw [hevent] at hskip
        cases hskip
      · rw [hevent, FrameStep.event.injEq] at hev
        rw [← hev] at htype
        cases htype

theorem vary_passes {pre : List φ} (h : ∀ g ∈ pre, d.PassesOver g) (m : Json) :
    pre.map (d.withMessage m) = pre := by
  conv_rhs => rw [← List.map_id pre]
  exact List.map_congr_left fun g hg => d.withMessage_other m (h g hg).errorData

theorem Shows.vary {r : Response φ} {fields : List (PyStr × Json)} (h : d.Shows r fields)
    (m : Json) : d.Shows (d.vary m r) (replaceMessage m fields) := by
  obtain ⟨pre, f, post, hframes, hpre, hf⟩ := h
  refine ⟨pre, d.withMessage m f, post.map (d.withMessage m), ?_, hpre,
    d.errorData_withMessage m hf⟩
  show r.frames.map _ = _
  rw [hframes, List.map_append, List.map_cons, vary_passes hpre]

/-- A frame that breaks the attempt is no error frame either. -/
theorem Breaks.errorData {f : φ} (h : d.Breaks f) : d.errorData f = none := by
  cases herror : d.errorData f with
  | none => rfl
  | some fields =>
      have hevent := d.onFrame_error herror
      rcases h with ⟨ev, e, hev, htype, -⟩ | ⟨e, hraised, -⟩
      · rw [hevent, FrameStep.event.injEq] at hev
        rw [← hev] at htype
        cases htype
      · rw [hevent] at hraised
        cases hraised

theorem Fails.vary {r : Response φ} (h : d.Fails r) (m : Json) : d.Fails (d.vary m r) := by
  rcases h with ⟨pre, f, post, hframes, hpre, hf⟩ | ⟨hall, hend⟩
  · refine Or.inl ⟨pre, f, post.map (d.withMessage m), ?_, hpre, hf⟩
    show r.frames.map _ = _
    rw [hframes, List.map_append, List.map_cons, vary_passes hpre,
      d.withMessage_other m hf.errorData]
  · refine Or.inr ⟨?_, hend⟩
    show ∀ g ∈ r.frames.map _, d.PassesOver g
    rw [vary_passes hall]
    exact hall

end Dialect

/-- An adapter shows the error frame its downstream sends in the first attempt
    that does not fail. -/
theorem adapterTrace_shows {a : DownstreamAdapter} {s : GraphState} {maxAttempts k : Nat}
    (backoffMs : Nat) {ev : ChatEvent} (hk : k ≤ maxAttempts)
    (hfailed : FailedBefore a maxAttempts s k)
    (hshown : ev ∈ (a.attemptTrace true maxAttempts s k).events) (left attempt : Nat)
    (chunks : List Json) (hleft : attempt + left = maxAttempts + 1) (hfirst : 1 ≤ attempt)
    (hle : attempt ≤ k) :
    .emit ev ∈ (adapterTrace a true maxAttempts backoffMs s left attempt chunks).1 := by
  induction left generalizing attempt chunks with
  | zero => omega
  | succ left ih =>
      have hacts : attempt = k → Act.emit ev ∈ a.attemptActs true maxAttempts s attempt := by
        rintro rfl
        exact List.mem_cons_of_mem _ (List.mem_map.mpr ⟨ev, hshown, rfl⟩)
      rcases adapterTrace_cases backoffMs left chunks
          (rfl : a.attemptTrace true maxAttempts s attempt = _) with
        ⟨hfail, hlt, heq⟩ | ⟨hlast, tail, u, -, heq⟩
      · rw [heq]
        rcases Nat.lt_or_eq_of_le hle with hlt' | rfl
        · exact List.mem_append_right _ (List.mem_cons_of_mem _
            (ih (attempt + 1) _ (by omega) (by omega) hlt'))
        · exact List.mem_append_left _ (hacts rfl)
      · rw [heq]
        rcases Nat.lt_or_eq_of_le hle with hlt' | rfl
        · exact absurd ⟨hfailed attempt hfirst hlt', by omega⟩ hlast
        · exact List.mem_append_left _ (hacts rfl)

-- ============================================================================
-- A request that reaches the adapter
-- ============================================================================

/-- A topic with one adapter node, which every request reaches. -/
def probeTopic (errorMessages : Dict PyStr PyStr) (retries : Dict PyStr RetryPolicy)
    (adapter : DownstreamAdapter) : CompiledTopic :=
  { smallTopic openAuth plainEnrich adapter with
    errorMessages := errorMessages
    adapterRetries := retries }

def probeEnv : Env Unit := plainEnv idleRepos fun w => (py "1", w)

/-- The state in which the adapter node starts. -/
def probeState : GraphState where
  requestId := .str (py "req_1")
  bizId := py "topic"
  threadId := .str (py "th")
  identity := some { w3Account := py "alice" }
  question := .str (py "q")
  bizParams := .obj []
  assistantMessageId := py "msg_1"
  history := some []
  auth := some { passed := true }
  enrichedQuestion := some (py "q")
  enrichMeta := some (.obj [])
  route := some (py "kc")
  routeConfidence := some 0
  routeReason := some []

section Probe

variable (errorMessages : Dict PyStr PyStr) (retries : Dict PyStr RetryPolicy)
  (adapter : DownstreamAdapter)

theorem probe_builds :
    ∃ g, buildGraph probeEnv (probeTopic errorMessages retries adapter) = .ok g := by
  have hcompiles : probeEnv.engine.compiles (graphDecl probeEnv
      (probeTopic errorMessages retries adapter)
      (probeTopic errorMessages retries adapter).mapping) = true := by
    refine Engine.lenient_compiles.mpr ?_
    simp [graphDecl, Decl.names, probeTopic, smallTopic, graphStateKeys]
  rw [buildGraph_eq, if_pos hcompiles]
  exact ⟨_, rfl⟩

set_option maxRecDepth 20000 in
/-- Every request to the probe reaches the adapter node. -/
theorem mem_probe_of_adapterStage {t : Act}
    (h : t ∈ (adapterStage probeEnv (probeTopic errorMessages retries adapter)
      ⟨py "kc_adapter", adapter, rfl⟩ probeState ()).trace) :
    t ∈ (pipeline probeEnv (probeTopic errorMessages retries adapter)
      (initialState (aliceAsks (py "th")) (py "msg_1")) ()).trace := by
  let loaded : GraphState := { initialState (aliceAsks (py "th")) (py "msg_1") with
    history := some [] }
  let enriched : GraphState := { probeState with
    route := none, routeConfidence := none, routeReason := none }
  refine Eff.mem_bind_right (a := (loaded, ())) rfl ?_
  refine Eff.mem_bind_right (a := ({ loaded with auth := some { passed := true } }, true)) rfl ?_
  refine Eff.mem_bind_right (a := (enriched, ())) rfl ?_
  exact Eff.mem_bind_right (a := (probeState, ⟨py "kc_adapter", adapter, rfl⟩)) rfl h

/-- The acts of the adapter node are acts of the pipeline. -/
theorem mem_probe_pipeline {t : Act}
    (h : t ∈ ((probeTopic errorMessages retries adapter).adapterTrace (py "kc_adapter") adapter
      probeState).1) :
    t ∈ (pipeline probeEnv (probeTopic errorMessages retries adapter)
      (initialState (aliceAsks (py "th")) (py "msg_1")) ()).trace := by
  apply mem_probe_of_adapterStage
  refine Eff.mem_bind_left (Eff.mem_bind_right (a := ()) rfl (Eff.mem_bind_left ?_))
  rw [topicAdapterNode_live, Eff.play_trace]
  exact h

theorem relay_of_unerring {t : Act} (h : t.unerring) : ∃ us, relay errorMessages t = .ok us := by
  cases hrelay : relay errorMessages t with
  | ok us => exact ⟨us, rfl⟩
  | error e =>
      obtain ⟨ev, rfl, herror⟩ := relay_error hrelay
      exact absurd herror h

/-- What the loop over the probe's graph yields, `handle` yields. -/
theorem mem_probe_of_relayed {ev : ChatEvent}
    (h : .yield ev ∈ (relayed probeEnv (probeTopic errorMessages retries adapter)
      (initialState (aliceAsks (py "th")) (py "msg_1")) ()).trace) :
    ev ∈ word Act.yielded (handle probeEnv (oneTopic (probeTopic errorMessages retries adapter))
      (aliceAsks (py "th")) ()).trace := by
  obtain ⟨g, hg⟩ := probe_builds errorMessages retries adapter
  have hyield : Act.yield ev ∈ (handle probeEnv
      (oneTopic (probeTopic errorMessages retries adapter)) (aliceAsks (py "th")) ()).trace := by
    rw [handle_accepted rfl rfl]
    refine Eff.mem_bind_right (a := py "msg_1") rfl ?_
    refine Eff.mem_bind_right (a := ()) rfl ?_
    refine Eff.mem_bind_right (a := .ok ()) rfl ?_
    refine Eff.mem_bind_right (a := g) ?_ ?_
    · rw [Eff.ofExcept_apply]
      exact hg
    · refine Eff.mem_bind_left (Eff.mem_bind_left ?_)
      rw [graph_run_eq_pipeline hg]
      exact h
  exact mem_yielded.mpr hyield

/-- An error event of the adapter node is yielded as the relay makes it, if the
    relay raises at no event of the node. -/
theorem mem_probe_yields {data shown : Json}
    (hemit : .emit { type := .error, data := data } ∈
      ((probeTopic errorMessages retries adapter).adapterTrace (py "kc_adapter") adapter
        probeState).1)
    (hrelay : relayError errorMessages data = .ok shown)
    (hall : ∀ s, ∀ t ∈ ((probeTopic errorMessages retries adapter).adapterTrace
      (py "kc_adapter") adapter s).1, ∃ us, relay errorMessages t = .ok us) :
    { type := .error, data := shown } ∈ word Act.yielded
      (handle probeEnv (oneTopic (probeTopic errorMessages retries adapter))
        (aliceAsks (py "th")) ()).trace := by
  set topic := probeTopic errorMessages retries adapter with htopic
  -- the relay raises nowhere in the pipeline
  have hreacts : Reacts (relay errorMessages)
      (pipeline probeEnv topic (initialState (aliceAsks (py "th")) (py "msg_1")) ()).trace := by
    have hself : NodesCoupled (fun t u => (∃ us, relay errorMessages t = .ok us) ∧ t = u) Eq
        probeEnv topic (topic.mapAdapters fun _ a => a) := by
      refine nodesCoupled_mapAdapters (fun t h => ⟨relay_of_unerring errorMessages h, rfl⟩) ?_
      intro n a s ha
      refine ⟨(List.forall₂_and_left _ _).mpr ⟨?_, List.forall₂_same.mpr fun _ _ => rfl⟩, rfl⟩
      obtain ⟨rfl, rfl⟩ : n = py "kc_adapter" ∧ a = adapter := by
        have hmem := Dict.mem_of_find ha
        simpa [htopic, probeTopic, smallTopic] using hmem
      exact hall s
    exact ((List.forall₂_and_left _ _).mp ((hself.pipeline rfl).trace ())).1
  have hshown : relay errorMessages (.emit { type := .error, data := data })
      = .ok [.yield { type := .error, data := shown }] :=
    (relay_errorEvent rfl).mpr ⟨shown, hrelay, rfl⟩
  exact mem_probe_of_relayed errorMessages retries adapter (Eff.mem_consume hreacts
    (mem_probe_pipeline errorMessages retries adapter hemit) hshown (List.mem_singleton.mpr rfl))

end Probe

/-- The retry policies of a topic with one adapter node. -/
def onlyRetry (retry : Option RetryPolicy) : Dict PyStr RetryPolicy :=
  match retry with
  | none => .empty
  | some policy => ⟨[(py "kc_adapter", policy)], by simp⟩

theorem get?_onlyRetry (retry : Option RetryPolicy) :
    (onlyRetry retry).get? (py "kc_adapter") = retry := by
  cases retry with
  | none => rfl
  | some policy => simp [onlyRetry, Dict.get?, Dict.find]

/-- The probe before a downstream that sends the same whatever it is asked. -/
def Upstream.probe (errorMessages : Dict PyStr PyStr) (u : Upstream) : CompiledTopic :=
  probeTopic errorMessages (onlyRetry u.retry) (u.kind.wire.adapter fun k _ => u.sent k)

section Probed

variable {errorMessages : Dict PyStr PyStr} {u : Upstream} {k : Nat}
  {fields : List (PyStr × Json)}

/-- An attempt of the probe. -/
theorem probe_attemptTrace (u : Upstream) (s : GraphState) (j : Nat) :
    (u.kind.wire.adapter fun k _ => u.sent k).attemptTrace true (maxAttempts u.retry) s j
      = u.kind.dialect.wire.trace (decide (j < maxAttempts u.retry)) (u.sent j) :=
  u.kind.attemptTrace_eq (fun k _ => u.sent k) (maxAttempts u.retry) s j

theorem probe_adapterTrace (errorMessages : Dict PyStr PyStr) (u : Upstream) (s : GraphState) :
    (u.probe errorMessages).adapterTrace (py "kc_adapter")
        (u.kind.wire.adapter fun k _ => u.sent k) s
      = adapterTrace (u.kind.wire.adapter fun k _ => u.sent k) true (maxAttempts u.retry)
          (backoffMs u.retry) s (maxAttempts u.retry) 1 [] := by
  have hretry : (u.probe errorMessages).adapterRetries.get? (py "kc_adapter") = u.retry :=
    get?_onlyRetry u.retry
  rw [CompiledTopic.adapterTrace, hretry]

/-- The probe dispatches what an attempt that is made shows. -/
theorem mem_probe_adapterTrace {ev : ChatEvent} (hk : 1 ≤ k) (hmax : k ≤ maxAttempts u.retry)
    (hfails : ∀ j, 1 ≤ j → j < k → u.kind.dialect.Fails (u.sent j))
    (hev : ev ∈ (u.kind.dialect.wire.trace (decide (k < maxAttempts u.retry))
      (u.sent k)).events) :
    .emit ev ∈ ((u.probe errorMessages).adapterTrace (py "kc_adapter")
      (u.kind.wire.adapter fun k _ => u.sent k) probeState).1 := by
  rw [probe_adapterTrace]
  refine adapterTrace_shows _ hmax (fun j hj hj' => ?_) ?_ _ 1 [] (Nat.add_comm _ _)
    (Nat.le_refl 1) hk
  · rw [probe_attemptTrace]
    exact Dialect.trace_of_fails _ (hfails j hj hj')
  · rw [probe_attemptTrace]
    exact hev

variable (hk : 1 ≤ k) (hmax : k ≤ maxAttempts u.retry)
  (hfails : ∀ j, 1 ≤ j → j < k → u.kind.dialect.Fails (u.sent j))
  (hshows : u.kind.dialect.Shows (u.sent k) fields) (hhash : (codeOf fields).hashable = true)
include hk hfails hshows hhash

/-- The relay raises at no event of the probe. -/
theorem probe_relays (s : GraphState) :
    ∀ t ∈ ((u.probe errorMessages).adapterTrace (py "kc_adapter")
      (u.kind.wire.adapter fun k _ => u.sent k) s).1, ∃ us, relay errorMessages t = .ok us := by
  have herror : ∀ {code message}, code.hashable = true →
      ∃ us, relay errorMessages (.emit (adapterError code message)) = .ok us := by
    intro code message hcode
    have hdata := relayError_adapterError errorMessages code message
    rw [if_pos hcode] at hdata
    exact ⟨_, (relay_errorEvent rfl).mpr ⟨_, hdata, rfl⟩⟩
  rw [probe_adapterTrace]
  refine adapterTrace_acts (fun _ => ⟨[], rfl⟩) ⟨[], rfl⟩ (herror rfl)
    fun j hj hjmax hfailed ev hev => ?_
  rw [probe_attemptTrace] at hev
  cases Dialect.trace_event hev with
  | delta h => exact ⟨_, rfl⟩
  | error hshows' =>
      -- the one error frame that can be shown is that of the attempt `k`
      refine herror ?_
      rcases Nat.lt_trichotomy j k with hlt | rfl | hgt
      · exact absurd (hfails j hj hlt) hshows'.not_fails
      · rw [← hshows.codeOf_eq hshows']
        exact hhash
      · have hfailedk := hfailed k hk hgt
        rw [probe_attemptTrace] at hfailedk
        exact absurd (Dialect.fails_of_trace hfailedk) hshows.not_fails
  | @caught ending ev h =>
      rcases u.kind.dialect.caught_cases ending with ⟨x, hx⟩ | ⟨code, text, -, hx⟩
      · rw [hx] at h
        exact (List.not_mem_nil h).elim
      · rw [hx] at h
        rw [List.mem_singleton.mp h]
        exact herror rfl

include hmax

/-- The probe shows the error frame, with the text of the topic or its own. -/
theorem probe_shows :
    { type := .error, data := (adapterError (codeOf fields)
        ((friendlyText errorMessages (codeOf fields)).elim
          (messageOf u.kind.dialect.defaultMessage fields) .str)).data } ∈ word Act.yielded
      (handle probeEnv (oneTopic (u.probe errorMessages)) (aliceAsks (py "th")) ()).trace := by
  have hrelay := relayError_adapterError errorMessages (codeOf fields)
    (messageOf u.kind.dialect.defaultMessage fields)
  rw [if_pos hhash] at hrelay
  have hemit : Act.emit (adapterError (codeOf fields)
      (messageOf u.kind.dialect.defaultMessage fields)) ∈
      ((u.probe errorMessages).adapterTrace (py "kc_adapter")
        (u.kind.wire.adapter fun k _ => u.sent k) probeState).1 := by
    obtain ⟨deltas, chunks, htrace⟩ :=
      Dialect.trace_of_shows (decide (k < maxAttempts u.retry)) hshows
    apply mem_probe_adapterTrace hk hmax hfails
    rw [htrace]
    exact List.mem_append_right _ (List.mem_singleton.mpr rfl)
  exact mem_probe_yields errorMessages _ _ hemit hrelay (probe_relays hk hfails hshows hhash)

end Probed

/-- A downstream with one text in all its error frames. -/
def Upstream.vary (m : Json) (u : Upstream) : Upstream :=
  { u with sent := fun k => u.kind.dialect.vary m (u.sent k) }

/-- The text of an error frame that gives something away is shown. -/
theorem textsHidden_discreet {errorMessages : Dict PyStr PyStr} {D : Upstream → Prop}
    (h : TextsHidden errorMessages D) : ∀ u, D u → u.Discreet errorMessages := by
  intro u hu k hk hmax hfails fields hshows
  by_contra hhides
  simp only [hides_iff, not_or, not_not, not_exists, Bool.not_eq_false] at hhides
  obtain ⟨hcarries, hhash, hnone⟩ := hhides
  have hfriendly : friendlyText errorMessages (codeOf fields) = none :=
    Option.eq_none_iff_forall_not_mem.mpr hnone
  let yields (u : Upstream) : List ChatEvent := word Act.yielded
    (handle probeEnv (oneTopic (u.probe errorMessages)) (aliceAsks (py "th")) ()).trace
  let shown (text : PyStr) : ChatEvent :=
    { type := .error, data := (adapterError (codeOf fields) (.str text)).data }
  -- by the hypothesis the events are the same for every text
  have hsame : ∀ m, yields u = yields (u.vary m) := by
    intro m
    refine (h probeEnv _ (oneTopic ((u.vary m).probe errorMessages)) (u.probe errorMessages)
      (fun _ _ => u.kind.wire.adapter fun k _ => (u.vary m).sent k) (aliceAsks (py "th")) ()
      Engine.lenient_ignoresBodies rfl rfl rfl ?_).1
    intro n a ha
    have hentry := Dict.mem_of_find ha
    simp only [Upstream.probe, probeTopic, smallTopic, List.mem_singleton, Prod.mk.injEq]
      at hentry
    obtain ⟨rfl, rfl⟩ := hentry
    refine ⟨u.kind, _, _, rfl, rfl, fun body => ⟨?_, fun k => Dialect.varied_vary m _⟩⟩
    rw [show (u.probe errorMessages).adapterRetries.get? (py "kc_adapter") = u.retry from
      get?_onlyRetry u.retry]
    exact hu
  -- but they show it
  have hmem : ∀ text, shown text ∈ yields u := by
    intro text
    rw [hsame (.str text)]
    have hvaried : (u.vary (.str text)).kind.dialect.Shows ((u.vary (.str text)).sent k)
        (replaceMessage (.str text) fields) := hshows.vary _
    have hcode := codeOf_replaceMessage (.str text) fields
    have hmessage := @probe_shows errorMessages (u.vary (.str text)) k _ hk hmax
      (fun j hj hj' => (hfails j hj hj').vary _) hvaried (hcode ▸ hhash)
    rw [hcode, hfriendly, messageOf_replaceMessage hcarries] at hmessage
    exact hmessage
  have hinj : Function.Injective shown := by
    intro text text' heq
    simp only [shown, adapterError, literalEvent, ChatEvent.mk.injEq, Json.obj.injEq,
      List.cons.injEq, Prod.mk.injEq, Json.str.injEq] at heq
    exact heq.2.1.2.1.2
  have hinfinite := Set.infinite_range_of_injective hinj
  refine hinfinite ((List.finite_toSet (yields u)).subset ?_)
  rintro _ ⟨text, rfl⟩
  exact hmem text

/-- When the texts of downstream errors stay hidden: if and only if no downstream
    shows an error frame that carries one under a code without a text of the topic. -/
theorem textsHidden_iff (errorMessages : Dict PyStr PyStr) (D : Upstream → Prop) :
    TextsHidden errorMessages D ↔ ∀ u, D u → u.Discreet errorMessages :=
  ⟨textsHidden_discreet, textsHidden_of_discreet⟩

/-- Texts for the required codes and no other. -/
def requiredTexts : Dict PyStr PyStr where
  entries := [(py "FORBIDDEN_TOPIC", py "您暂无权限使用此专题"),
    (py "FORBIDDEN_SCOPE", py "您的问题超出可访问范围"),
    (py "DOWNSTREAM_TIMEOUT", py "查询响应超时，请稍后重试"),
    (py "DOWNSTREAM_ERROR", py "查询服务异常，请稍后重试"), (py "INTERNAL", py "服务异常，请稍后重试")]
  nodup := by decide

/-- MetaGC reports a code of its own, with some text. -/
def rateLimited (text : PyStr) : Upstream where
  kind := .metagc
  retry := none
  sent := fun _ =>
    { frames := [⟨py "error", .text (.ok (.obj
        [(py "code", .str (py "RATE_LIMITED")), (py "message", .str text)]))⟩]
      ending := .closed }

/-- The messages alice sees. -/
def messagesSeen (u : Upstream) : List Json :=
  (word Act.yielded (handle probeEnv (oneTopic (u.probe requiredTexts)) (aliceAsks (py "th"))
    ()).trace).filterMap fun ev => dataField (py "message") ev.data

set_option maxRecDepth 20000 in
/-- Two downstreams that differ in the text of an error frame show it. -/
theorem not_textsHidden :
    (∀ k, MetaGCAdapter.dialect.Varied
      ((rateLimited (py "quota of svc_ma at 10.0.3.7 exceeded")).sent k)
      ((rateLimited (py "pool metagc-02 is down")).sent k)) ∧
    messagesSeen (rateLimited (py "quota of svc_ma at 10.0.3.7 exceeded"))
      = [.str (py "quota of svc_ma at 10.0.3.7 exceeded")] ∧
    messagesSeen (rateLimited (py "pool metagc-02 is down"))
      = [.str (py "pool metagc-02 is down")] ∧
    ¬ TextsHidden requiredTexts
      fun u => u = rateLimited (py "quota of svc_ma at 10.0.3.7 exceeded") := by
  refine ⟨fun k => ⟨.cons ⟨.str (py "pool metagc-02 is down"), rfl⟩ .nil, rfl⟩, rfl, rfl, ?_⟩
  intro h
  have hdiscreet := textsHidden_discreet h _ rfl 1 (Nat.le_refl 1) (Nat.le_refl 1)
    (fun j hj hj' => absurd hj' (Nat.not_lt.mpr hj)) _
    ⟨[], _, [], rfl, fun _ hg => (List.not_mem_nil hg).elim, rfl⟩
  rcases hdiscreet with hcarries | hhash | ⟨code, text, hcode, hget, -⟩
  · exact hcarries (by decide)
  · cases hhash
  · cases hcode
    cases hget

end MasterAgent
