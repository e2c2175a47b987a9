/-
  MasterAgent.Core.Whitelist

  What the claims of an identity can reach.  The auth plugins copy claims into
  user_ctx, and of user_ctx `GenericEnrich` reads the fields it is configured
  with.  Two runs whose identities differ in their claims only, and agree on
  those fields, keep step on states that are equal once the claims and user_ctx
  are struck out; so the chat model, the downstreams, the user and the store see
  the same.
-/

import MasterAgent.Core.Coupling
import MasterAgent.Core.StreamGrammar
import MasterAgent.Plugins.Adapter
import MasterAgent.Plugins.Auth
import MasterAgent.Plugins.Enrich
import MasterAgent.Plugins.Intent

namespace MasterAgent

open Effect StateGraph

variable {σ : Type}

-- ============================================================================
-- A topic of the plugins at hand
-- ============================================================================

/-- The auth plugins. -/
inductive AuthKind where
  | representative (requiredRole : PyStr)
  | jingying (allowedRoles : List PyStr)
  | salesContract (requiredRole : PyStr)

def AuthKind.rule : AuthKind → ScopeRule
  | .representative requiredRole => RepresentativeAuth.rule requiredRole
  | .jingying allowedRoles => JingyingAuth.rule allowedRoles
  | .salesContract requiredRole => SalesContractAuth.rule requiredRole

def AuthKind.authorize : AuthKind → GraphState → Except Exn AuthResult
  | .representative requiredRole => RepresentativeAuth.authorize requiredRole
  | .jingying allowedRoles => JingyingAuth.authorize allowedRoles
  | .salesContract requiredRole => SalesContractAuth.authorize requiredRole

theorem AuthKind.authorize_eq (kind : AuthKind) : kind.authorize = scopeAuth kind.rule := by
  cases kind <;> rfl

/-- The parameters of an auth plugin, of `GenericEnrich` and of `LLMClassifier`:
    the chat model, and the texts of values and of quoted strings. -/
structure Plugins where
  auth : AuthKind
  fieldsToInject : List PyStr
  labels : List PyStr
  llm : (attempt : Nat) → (prompt : PyStr) → Except Exn Json
  str : Json → PyStr
  repr : PyStr → PyStr

/-- A topic built from these plugins, and from adapters before downstreams that
    are functions of the body they receive. -/
structure Plugins.Build (plugins : Plugins) (topic : CompiledTopic) : Prop where
  auth : topic.auth = ⟨plugins.auth.authorize⟩
  enrich : topic.enrich = GenericEnrich.plugin plugins.str plugins.fieldsToInject
  intent : topic.intent = LLMClassifier.plugin plugins.str plugins.repr plugins.llm plugins.labels
  adapters : ∀ n a, topic.adapters.get? n = some a →
    ∃ (kind : AdapterKind) (down : Nat → Json → Response kind.Frame), a = kind.wire.adapter down

/-- What leaves the service. -/
inductive Outward where
  | prompt (text : PyStr)
  | body (body : Json)
  | event (ev : ChatEvent)
  | stored (msg : Message) (result : Except Exn Unit)

/-- What an act lets out: the prompt of a `classify`, the body of a request, an
    event, a message for the store. -/
def Plugins.outward (plugins : Plugins) : Act → Option Outward
  | .classify state _ _ => some (.prompt (LLMClassifier.prompt plugins.str plugins.labels state))
  | .run state _ _ => some (.body (requestBody state))
  | .yield ev => some (.event ev)
  | .append msg result => some (.stored msg result)
  | _ => none

-- ============================================================================
-- Striking out
-- ============================================================================

/-- The identity without its claims. -/
def AuthnIdentity.redact (identity : AuthnIdentity) : AuthnIdentity :=
  { identity with rawClaims := [] }

def AuthResult.redact (result : AuthResult) : AuthResult := { result with userCtx := none }

/-- The state without claims and user_ctx. -/
def GraphState.redact (s : GraphState) : GraphState :=
  { s with
    identity := s.identity.map AuthnIdentity.redact
    userCtx := none
    auth := s.auth.map AuthResult.redact }

def Update.redact (u : Update) : Update :=
  { u with userCtx := none, auth := u.auth.map AuthResult.redact }

/-- The act without the claims and the user_ctx of its states and results. -/
def Act.redact : Act → Act
  | .authorize s r => .authorize s.redact (r.map AuthResult.redact)
  | .enrich s r => .enrich s.redact r
  | .classify s k r => .classify s.redact k r
  | .run s output k => .run s.redact output k
  | .write n u => .write n u.redact
  | t => t

/-- Acts that are the same once redacted. -/
def Unclaimed (t u : Act) : Prop := t.redact = u.redact

theorem unclaimed_refl (t : Act) : Unclaimed t t := rfl

theorem GraphState.redact_merge (s : GraphState) (u : Update) :
    (s.merge u).redact = s.redact.merge u.redact := by
  cases hu : u.auth <;> simp [GraphState.merge, GraphState.redact, Update.redact, hu]

/-- Redaction takes away nothing that leaves the service. -/
theorem Plugins.outward_redact (plugins : Plugins) (t : Act) :
    plugins.outward t.redact = plugins.outward t := by
  cases t <;> rfl

/-- The service relays what is left. -/
theorem relay_redact (errorMessages : Dict PyStr PyStr) (t : Act) :
    relay errorMessages t.redact = relay errorMessages t := by
  cases t <;> rfl

theorem relay_unclaimed (errorMessages : Dict PyStr PyStr) {t u : Act} (h : Unclaimed t u) :
    Agree (List.Forall₂ Unclaimed) (relay errorMessages t) (relay errorMessages u) := by
  have hrelay : relay errorMessages t = relay errorMessages u := by
    rw [← relay_redact, h, relay_redact]
  exact (Agree.of_eq hrelay).mono fun acts _ heq =>
    heq ▸ List.forall₂_same.mpr fun a _ => unclaimed_refl a

-- ============================================================================
-- The states of two runs
-- ============================================================================

/-- Two objects with the same entries under the given keys. -/
def SameOn (keys : List PyStr) (v v' : Json) : Prop :=
  ∃ entries entries', v = .obj entries ∧ v' = .obj entries' ∧
    ∀ k ∈ keys, Json.field k entries = Json.field k entries'

/-- States that are the same once redacted, of two identities; nobody is rejected,
    and the user_ctx agree on the fields. -/
structure Lookalike (who who' : AuthnIdentity) (bizParams : Json) (fields : List PyStr)
    (s s' : GraphState) : Prop where
  redacted : s.redact = s'.redact
  who : s.identity = some who
  who' : s'.identity = some who'
  bizParams : s.bizParams = bizParams
  passed : ∀ r, s.auth = some r → r.passed = true
  ctx : SameOn fields (s.userCtx.getD (.obj [])) (s'.userCtx.getD (.obj []))

section States

variable {who who' : AuthnIdentity} {bizParams : Json} {fields : List PyStr} {s s' : GraphState}

theorem Lookalike.merge (h : Lookalike who who' bizParams fields s s') {u u' : Update}
    (hu : u.redact = u'.redact) (hpassed : ∀ r, u.auth = some r → r.passed = true)
    (hctx : SameOn fields ((u.userCtx <|> s.userCtx).getD (.obj []))
      ((u'.userCtx <|> s'.userCtx).getD (.obj []))) :
    Lookalike who who' bizParams fields (s.merge u) (s'.merge u') where
  redacted := by
    rw [GraphState.redact_merge, GraphState.redact_merge, h.redacted, hu]
  who := h.who
  who' := h.who'
  bizParams := h.bizParams
  passed := by
    intro r hr
    rw [GraphState.merge_auth] at hr
    cases hauth : u.auth with
    | none =>
        rw [hauth] at hr
        exact h.passed r hr
    | some r' =>
        rw [hauth] at hr
        exact hpassed r (hauth.trans hr)
  ctx := hctx

/-- An update that touches neither auth nor user_ctx. -/
theorem Lookalike.merged (h : Lookalike who who' bizParams fields s s') {u : Update} (n : PyStr)
    (hauth : u.auth = none) (hctx : u.userCtx = none) :
    Merged Unclaimed (Lookalike who who' bizParams fields) n s s' u u := by
  refine ⟨h.merge rfl ?_ ?_, unclaimed_refl _⟩
  · intro r hr
    rw [hauth] at hr
    cases hr
  · rw [hctx]
    exact h.ctx

/-- What is not redacted is the same in both states. -/
theorem Lookalike.same (h : Lookalike who who' bizParams fields s s') {α : Type}
    {f : GraphState → α} (hf : ∀ t : GraphState, f t.redact = f t) : f s = f s' := by
  rw [← hf s, h.redacted, hf s']

theorem authPassed_redact (t : GraphState) : authPassed t.redact = authPassed t := by
  cases ht : t.auth <;> simp [authPassed, GraphState.redact, ht, AuthResult.redact]

/-- Nobody is rejected. -/
theorem Lookalike.not_rejected (h : Lookalike who who' bizParams fields s s') :
    authPassed s ≠ .ok false := by
  intro hpassed
  cases hauth : s.auth with
  | none => simp [authPassed, hauth] at hpassed
  | some r =>
      have hr := h.passed r hauth
      simp [authPassed, hauth, hr] at hpassed

end States

-- ============================================================================
-- Node by node
-- ============================================================================

/-- The load node reads the account of an identity, not its claims. -/
theorem loadSessionNode_redact (env : Env σ) (topic : CompiledTopic) (s : GraphState) :
    loadSessionNode env topic s.redact = loadSessionNode env topic s := by
  have hbody : makeLoadSessionNode env.repos topic.history.maxTurns s.redact
      = makeLoadSessionNode env.repos topic.history.maxTurns s := by
    obtain ⟨_, _, _, identity, _⟩ := s
    cases identity <;> rfl
  rw [loadSessionNode, loadSessionNode, hbody]

/-- What is stored holds no claims. -/
theorem persistNode_redact (env : Env σ) (s : GraphState) :
    persistNode env s.redact = persistNode env s := rfl

/-- An authorisation that passes hands on an object. -/
theorem scopeAuth_passed {rule : ScopeRule} {s : GraphState} {r : AuthResult}
    (h : scopeAuth rule s = .ok r) (hr : r.passed = true) :
    ∃ entries, r = { passed := true, userCtx := some (.obj entries) } := by
  simp only [scopeAuth] at h
  repeat' split at h
  all_goals cases h
  all_goals first | exact ⟨_, rfl⟩ | cases hr

/-- An authorisation reads the identity and biz_params of a state only. -/
theorem scopeAuth_congr (rule : ScopeRule) {s s' : GraphState} (hid : s.identity = s'.identity)
    (hparams : s.bizParams = s'.bizParams) : scopeAuth rule s = scopeAuth rule s' := by
  unfold scopeAuth
  rw [hid, hparams]

section Nodes

variable {who who' : AuthnIdentity} {bizParams : Json} {plugins : Plugins} {s s' : GraphState}

/-- The enrichment of two lookalikes is the same. -/
theorem Lookalike.enrich (h : Lookalike who who' bizParams plugins.fieldsToInject s s') :
    GenericEnrich.enrich plugins.str plugins.fieldsToInject s
      = GenericEnrich.enrich plugins.str plugins.fieldsToInject s' := by
  obtain ⟨entries, entries', hentries, hentries', hsame⟩ := h.ctx
  have hquestion : s.question = s'.question := h.same fun _ => rfl
  have hparams : s.bizParams = s'.bizParams := h.same fun _ => rfl
  have hfound := @GenericEnrich.found_congr s'.bizParams _ _ _ hsame
  simp only [GenericEnrich.enrich, hentries, hentries', hquestion, hparams, hfound]

/-- Acts at lookalikes that show the same. -/
theorem Lookalike.unclaimed_classify (h : Lookalike who who' bizParams plugins.fieldsToInject s s')
    (k : Nat) (r : Except Exn IntentResult) : Unclaimed (.classify s k r) (.classify s' k r) := by
  show Act.classify s.redact k r = Act.classify s'.redact k r
  rw [h.redacted]

theorem Lookalike.unclaimed_run (h : Lookalike who who' bizParams plugins.fieldsToInject s s')
    (output : Bool) (k : Nat) : Unclaimed (.run s output k) (.run s' output k) := by
  show Act.run s.redact output k = Act.run s'.redact output k
  rw [h.redacted]

/-- The intent loops at lookalikes keep step. -/
theorem intentTrace_unclaimed (h : Lookalike who who' bizParams plugins.fieldsToInject s s')
    {plugin : IntentPlugin} (hplugin : ∀ k, plugin.classify k s = plugin.classify k s')
    (repr : PyStr → PyStr) (defaultRoute : PyStr) (labels : List PyStr)
    (maxAttempts backoffMs left attempt : Nat) :
    List.Forall₂ Unclaimed
        (intentTrace repr plugin defaultRoute labels maxAttempts backoffMs s left attempt).1
        (intentTrace repr plugin defaultRoute labels maxAttempts backoffMs s' left attempt).1 ∧
      (intentTrace repr plugin defaultRoute labels maxAttempts backoffMs s left attempt).2
        = (intentTrace repr plugin defaultRoute labels maxAttempts backoffMs s' left
          attempt).2 := by
  have hrefl : ∀ ts : List Act, List.Forall₂ Unclaimed ts ts := fun ts =>
    List.forall₂_same.mpr fun t _ => unclaimed_refl t
  induction left generalizing attempt with
  | zero => exact ⟨hrefl _, rfl⟩
  | succ left ih =>
      have hfirst := h.unclaimed_classify attempt
      cases hc : plugin.classify attempt s' with
      | ok result =>
          simp only [intentTrace, hplugin, hc]
          exact ⟨.cons (hfirst _) (hrefl _), trivial⟩
      | error e =>
          cases he : e.isException with
          | false =>
              simp only [intentTrace, hplugin, hc, he, Bool.false_eq_true, if_false]
              exact ⟨.cons (hfirst _) .nil, trivial⟩
          | true =>
              simp only [intentTrace, hplugin, hc, he, if_true]
              exact ⟨.cons (hfirst _) (List.rel_append (hrefl _) (ih (attempt + 1)).1),
                (ih (attempt + 1)).2⟩

/-- So do the attempts of an adapter. -/
theorem adapterTrace_unclaimed (h : Lookalike who who' bizParams plugins.fieldsToInject s s')
    {a : DownstreamAdapter} (hrun : ∀ k, a.run k s true = a.run k s' true)
    (topic : CompiledTopic) (n : PyStr) :
    List.Forall₂ Unclaimed (topic.adapterTrace n a s).1 (topic.adapterTrace n a s').1 ∧
      (topic.adapterTrace n a s).2 = (topic.adapterTrace n a s').2 := by
  unfold CompiledTopic.adapterTrace
  refine adapterTrace_related (fun k => h.unclaimed_run true k) (unclaimed_refl _)
    (unclaimed_refl _) (fun k _ _ _ => ?_) _ 1 [] (Nat.add_comm _ _) (Nat.le_refl 1)
    (fun j hj hj' => absurd hj' (Nat.not_lt.mpr hj))
  have htrace : ∀ m, a.attemptTrace true m s k = a.attemptTrace true m s' k := by
    intro m
    simp only [DownstreamAdapter.attemptTrace, hrun]
  rw [htrace]
  exact ⟨rfl, rfl, List.forall₂_same.mpr fun _ _ => unclaimed_refl _⟩

end Nodes

-- ============================================================================
-- Two runs
-- ============================================================================

/-- The authorisation of an identity that may pass. -/
def Plugins.Admits (plugins : Plugins) (identity : AuthnIdentity) (bizParams : Json)
    (entries : List (PyStr × Json)) : Prop :=
  ∀ s : GraphState, s.identity = some identity → s.bizParams = bizParams →
    plugins.auth.authorize s = .ok { passed := true, userCtx := some (.obj entries) }

section Runs

variable {who who' : AuthnIdentity} {bizParams : Json} {plugins : Plugins}
  {entries entries' : List (PyStr × Json)} {topic : CompiledTopic}

theorem Plugins.admits {s : GraphState} {r : AuthResult} {identity : AuthnIdentity}
    (hid : s.identity = some identity) (hr : plugins.auth.authorize s = .ok r)
    (hpassed : r.passed = true) : ∃ entries, r.userCtx = some (.obj entries) ∧
      plugins.Admits identity s.bizParams entries := by
  rw [AuthKind.authorize_eq] at hr
  obtain ⟨entries, rfl⟩ := scopeAuth_passed hr hpassed
  refine ⟨entries, rfl, fun t ht hparams => ?_⟩
  rw [AuthKind.authorize_eq, scopeAuth_congr _ (ht.trans hid.symm) hparams, hr]

/-- The nodes of such a topic keep step at lookalikes. -/
theorem Plugins.Build.nodesCoupled (env : Env σ) (hbuild : plugins.Build topic)
    (hadmits : plugins.Admits who bizParams entries)
    (hadmits' : plugins.Admits who' bizParams entries')
    (hsame : ∀ k ∈ plugins.fieldsToInject, Json.field k entries = Json.field k entries') :
    NodesCoupled Unclaimed (Lookalike who who' bizParams plugins.fieldsToInject) env topic
      topic := by
  have hrefl : ∀ {α : Type} (p : Prog σ α), Eff.Coupled Unclaimed p p Eq := fun p =>
    .same fun w t _ => unclaimed_refl t
  refine
    { enter := fun _ => unclaimed_refl _
      load := ?_, auth := ?_, passed := fun h => h.same authPassed_redact, reject := ?_
      enrich := ?_, intent := ?_, route := ?_, adapter := ?_, persist := ?_ }
  · intro s s' h
    rw [← h.same (loadSessionNode_redact env topic)]
    refine ((hrefl _).returns (loadSessionNode_returns env topic s)).mono ?_
    rintro _ _ ⟨rfl, history, rfl⟩
    exact h.merged _ rfl rfl
  · intro s s' h
    have hparams : s'.bizParams = bizParams :=
      (h.same (f := GraphState.bizParams) fun _ => rfl).symm.trans h.bizParams
    rw [hbuild.auth, makeAuthNode_live, makeAuthNode_live]
    simp only [hadmits s h.who h.bizParams, hadmits' s' h.who' hparams]
    have hact : Unclaimed
        (.authorize s (.ok { passed := true, userCtx := some (.obj entries) }))
        (.authorize s' (.ok { passed := true, userCtx := some (.obj entries') })) := by
      show Act.authorize s.redact _ = Act.authorize s'.redact _
      rw [h.redacted]
      rfl
    refine .play (.cons (unclaimed_refl _) (.cons hact (.cons (unclaimed_refl _) .nil)))
      (.ok ⟨h.merge rfl ?_ ⟨entries, entries', rfl, rfl, hsame⟩, rfl⟩)
    intro r hr
    cases hr
    rfl
  · intro s s' h hrejected
    exact absurd hrejected h.not_rejected
  · intro s s' h
    rw [hbuild.enrich, makeEnrichNode_live, makeEnrichNode_live]
    have henrich : (GenericEnrich.plugin plugins.str plugins.fieldsToInject).enrich s
        = (GenericEnrich.plugin plugins.str plugins.fieldsToInject).enrich s' := h.enrich
    have hact : ∀ r, Unclaimed (.enrich s r) (.enrich s' r) := by
      intro r
      show Act.enrich s.redact r = Act.enrich s'.redact r
      rw [h.redacted]
    rw [henrich]
    cases (GenericEnrich.plugin plugins.str plugins.fieldsToInject).enrich s' with
    | error e => exact .play (.cons (unclaimed_refl _) (.cons (hact _) .nil)) (.error e)
    | ok result =>
        exact .play (.cons (unclaimed_refl _) (.cons (hact _) (.cons (unclaimed_refl _) .nil)))
          (.ok (h.merged _ rfl rfl))
  · intro s s' h
    have hplugin : ∀ k, topic.intent.classify k s = topic.intent.classify k s' := by
      intro k
      rw [hbuild.intent]
      exact h.same fun _ => rfl
    unfold topicIntentNode
    rw [makeIntentNode_live, makeIntentNode_live]
    obtain ⟨hacts, hresult⟩ := intentTrace_unclaimed h hplugin env.repr topic.defaultRoute
      topic.mapping.keys (maxAttempts topic.intentRetry) (backoffMs topic.intentRetry)
      (maxAttempts topic.intentRetry) 1
    rw [← hresult]
    refine .play (.cons (unclaimed_refl _) hacts) ?_
    cases hu : (intentTrace env.repr topic.intent topic.defaultRoute topic.mapping.keys
        (maxAttempts topic.intentRetry) (backoffMs topic.intentRetry) s
        (maxAttempts topic.intentRetry) 1).2 with
    | error e => exact .error e
    | ok u =>
        obtain ⟨answer, rfl⟩ := intentTrace_update hu
        exact .ok (h.merged _ rfl rfl)
  · intro s s' h
    have hroute : s.route = s'.route := h.same fun _ => rfl
    exact routeTarget_agree (by rw [hroute])
  · rintro s s' ⟨n, a, ha⟩ ⟨n', a', ha'⟩ hn h
    obtain rfl : n = n' := hn
    obtain rfl : a = a' := Option.some.inj (ha.symm.trans ha')
    have hrun : ∀ k, a.run k s true = a.run k s' true := by
      intro k
      obtain ⟨kind, down, rfl⟩ := hbuild.adapters n a ha
      exact h.same (f := fun t => (kind.wire.adapter down).run k t true) fun _ => rfl
    obtain ⟨hacts, hupdate⟩ := adapterTrace_unclaimed h hrun topic n
    obtain ⟨answer, cancelled, hwrites⟩ := topic.adapterTrace_writes s n a
    show Eff.Coupled Unclaimed (topicAdapterNode topic n a s : Prog σ Update)
      (topicAdapterNode topic n a s') _
    rw [topicAdapterNode_live, topicAdapterNode_live, ← hupdate, hwrites]
    exact .play hacts (.ok (h.merged _ rfl rfl))
  · intro s s' h
    rw [← h.same (persistNode_redact env)]
    refine ((hrefl _).returns (persistNode_returns env s)).mono ?_
    rintro _ _ ⟨rfl, rfl⟩
    exact h.merged _ rfl rfl

end Runs

/-- A request and the same request under an identity that differs in its claims
    only, both authorised, with user_ctx that agree on the fields to inject: the
    same prompts, bodies, events and messages leave the service, in the same
    order, and the runs end alike and leave the same store.  The ids of messages
    are drawn from the same supply, so they agree too. -/
theorem only_whitelisted_ctx_leaves (env : Env σ) (topics : TopicRegistry)
    (topic : CompiledTopic) (plugins : Plugins) (req : ChatRequest)
    (identity : Option AuthnIdentity) (messageId : PyStr) (r r' : AuthResult) (w : σ)
    (ht : topics.get req.bizId = some topic) (hbuild : plugins.Build topic)
    (hwho : (req.under identity).who.w3Account = req.who.w3Account)
    (hr : plugins.auth.authorize (initialState req messageId) = .ok r)
    (hpassed : r.passed = true)
    (hr' : plugins.auth.authorize (initialState (req.under identity) messageId) = .ok r')
    (hpassed' : r'.passed = true)
    (hsame : ∀ k ∈ plugins.fieldsToInject,
      r.userCtx.bind (dataField k) = r'.userCtx.bind (dataField k)) :
    let run := handle env topics req w
    let run' := handle env topics (req.under identity) w
    word plugins.outward run.trace = word plugins.outward run'.trace ∧
      run.result = run'.result ∧ run.world = run'.world := by
  obtain ⟨entries, hctx, hadmits⟩ := Plugins.admits rfl hr hpassed
  obtain ⟨entries', hctx', hadmits'⟩ := Plugins.admits rfl hr' hpassed'
  have hfields : ∀ k ∈ plugins.fieldsToInject,
      Json.field k entries = Json.field k entries' := by
    intro k hk
    have hk' := hsame k hk
    rw [hctx, hctx'] at hk'
    exact hk'
  have hredact : req.who.redact = (req.under identity).who.redact := by
    rw [AuthnIdentity.redact, AuthnIdentity.redact, hwho]
  have hinitial : ∀ id, Lookalike req.who (req.under identity).who req.bizParams
      plugins.fieldsToInject (initialState req id) (initialState (req.under identity) id) := by
    intro id
    have hnoone : ∀ r, (initialState req id).auth = some r → r.passed = true := by
      intro r hauth
      cases hauth
    refine ⟨?_, rfl, rfl, rfl, hnoone, ⟨[], [], rfl, rfl, fun _ _ => rfl⟩⟩
    simp only [GraphState.redact, initialState, Option.map_some, hredact]
    rfl
  have hcoupled := handle_coupled (hbuild.nodesCoupled env hadmits hadmits' hfields) rfl
    (fun _ _ h => relay_unclaimed topic.errorMessages h) (fun _ _ => unclaimed_refl _)
    hinitial ht ht rfl ((Agree.of_eq rfl).mono fun _ _ _ => trivial)
    fun _ _ => unclaimed_refl _
  refine ⟨hcoupled.word (fun t u h => ?_) w, (hcoupled.result w).eq, hcoupled.world w⟩
  rw [← plugins.outward_redact t, h, plugins.outward_redact u]

-- ============================================================================
-- Two managers
-- ============================================================================

/-- Managers ask about a business unit, and the question tells role and unit. -/
def unitPlugins : Plugins where
  auth := .jingying [py "MANAGER"]
  fieldsToInject := [py "role", py "business_unit"]
  labels := [py "kc"]
  llm := fun _ _ => .ok (.str (py "route: kc"))
  str := fun _ => py "None"
  repr := fun s => py "'" ++ s ++ py "'"

/-- A downstream that answers with the question it is asked. -/
def echoes : Nat → Json → Response SseFrame := fun _ body =>
  ⟨[⟨py "delta", .text (.ok (.obj
      [(py "content", (dataField (py "question") body).getD .null)]))⟩], .closed⟩

def unitTopic : CompiledTopic :=
  { smallTopic ⟨unitPlugins.auth.authorize⟩
      (GenericEnrich.plugin unitPlugins.str unitPlugins.fieldsToInject)
      (MetaGCAdapter.wire.adapter echoes) with
    intent := LLMClassifier.plugin unitPlugins.str unitPlugins.repr unitPlugins.llm
      unitPlugins.labels
    bizParamsModel := scopeModel }

/-- Alice, a manager of some units. -/
def managerOf (units : List PyStr) : AuthnIdentity where
  w3Account := py "alice"
  rawClaims := [(py "role", .str (py "MANAGER")), (py "business_units", .arr (units.map .str))]

/-- A manager asks about the unit `bu_1`. -/
def unitRequest (units : List PyStr) : ChatRequest :=
  { aliceAsks (py "th") with
    bizParams := .obj [(py "business_unit", .str (py "bu_1"))]
    identity := some (managerOf units) }

theorem unitTopic_build : unitPlugins.Build unitTopic := by
  refine ⟨rfl, rfl, rfl, fun n a ha => ?_⟩
  simp only [unitTopic, smallTopic] at ha
  obtain ⟨-, rfl⟩ : n = py "kc_adapter" ∧ a = MetaGCAdapter.wire.adapter echoes := by
    have hentry := Dict.mem_of_find ha
    simpa [eq_comm] using hentry
  exact ⟨.metagc, echoes, rfl⟩

/-- Whether she manages other units as well is not to be seen. -/
theorem only_whitelisted_ctx_leaves_units :
    let run := handle (plainEnv idleRepos fun w => (py "1", w)) (oneTopic unitTopic)
      (unitRequest [py "bu_1"]) ()
    let run' := handle (plainEnv idleRepos fun w => (py "1", w)) (oneTopic unitTopic)
      (unitRequest [py "bu_1", py "bu_2"]) ()
    word unitPlugins.outward run.trace = word unitPlugins.outward run'.trace ∧
      run.result = run'.result ∧ run.world = run'.world := by
  refine only_whitelisted_ctx_leaves _ (oneTopic unitTopic) unitTopic unitPlugins
    (unitRequest [py "bu_1"]) (some (managerOf [py "bu_1", py "bu_2"])) (py "msg_1") _ _ ()
    rfl unitTopic_build rfl rfl rfl rfl rfl fun k hk => ?_
  simp only [unitPlugins, List.mem_cons, List.not_mem_nil, or_false] at hk
  rcases hk with rfl | rfl <;> rfl

end MasterAgent
