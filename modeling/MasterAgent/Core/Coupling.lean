/-
  MasterAgent.Core.Coupling

  Two runs of `ChatService.handle` side by side, on topics or requests that
  differ in a part the service passes along.  What couples the nodes couples
  the pipelines, and from there the relayed streams and the whole requests.
-/

import MasterAgent.Core.StageActs
import MasterAgent.Core.GraphActs
import MasterAgent.Lib.Relational

namespace MasterAgent

open Effect StateGraph

variable {σ : Type}

/-- Two updates merge into related states, and writing them is a related act. -/
def Merged (R : Act → Act → Prop) (S : GraphState → GraphState → Prop) (n : PyStr)
    (s s' : GraphState) (u u' : Update) : Prop :=
  S (s.merge u) (s'.merge u') ∧ R (.write n u) (.write n u')

/-- The nodes of two topics keep step on related states, and choose the same way. -/
structure NodesCoupled (R : Act → Act → Prop) (S : GraphState → GraphState → Prop) (env : Env σ)
    (topic topic' : CompiledTopic) : Prop where
  enter : ∀ n, R (.enter n) (.enter n)
  load : ∀ {s s'}, S s s' → Eff.Coupled R (loadSessionNode env topic s)
    (loadSessionNode env topic' s') (Merged R S (py "load_session") s s')
  auth : ∀ {s s'}, S s s' → Eff.Coupled R (makeAuthNode (.live σ) topic.auth s)
    (makeAuthNode (.live σ) topic'.auth s') (Merged R S (py "auth_node") s s')
  passed : ∀ {s s'}, S s s' → authPassed s = authPassed s'
  reject : ∀ {s s'}, S s s' → authPassed s = .ok false →
    Eff.Coupled R (makeRejectNode (.live σ) topic.errorMessages s)
      (makeRejectNode (.live σ) topic'.errorMessages s') (Merged R S (py "reject_node") s s')
  enrich : ∀ {s s'}, S s s' → Eff.Coupled R (makeEnrichNode (.live σ) topic.enrich s)
    (makeEnrichNode (.live σ) topic'.enrich s') (Merged R S (py "enrich_node") s s')
  intent : ∀ {s s'}, S s s' → Eff.Coupled R (topicIntentNode env topic topic.mapping s)
    (topicIntentNode env topic' topic'.mapping s') (Merged R S (py "intent_node") s s')
  route : ∀ {s s'}, S s s' →
    Agree (fun r r' => r.node = r'.node) (routeTarget topic s) (routeTarget topic' s')
  adapter : ∀ {s s'} (r : RoutedAdapter topic) (r' : RoutedAdapter topic'), r.node = r'.node →
    S s s' → Eff.Coupled R (topicAdapterNode topic r.node r.adapter s : Prog σ Update)
      (topicAdapterNode topic' r'.node r'.adapter s') (Merged R S r.node s s')
  persist : ∀ {s s'}, S s s' → Eff.Coupled R (persistNode env s) (persistNode env s')
    (Merged R S (py "persist_node") s s')

section Pipeline

variable {R : Act → Act → Prop} {S : GraphState → GraphState → Prop} {env : Env σ}
  {topic topic' : CompiledTopic} {s s' : GraphState}

/-- A node with one way on. -/
theorem step_coupled {n : String} {f f' : NodeFn σ} (henter : R (.enter (py n)) (.enter (py n)))
    (hf : Eff.Coupled R (f s) (f' s') (Merged R S (py n) s s')) :
    Eff.Coupled R (step n f s) (step n f' s') fun p p' => S p.1 p'.1 :=
  visit_coupled henter hf (fun _ _ hu => hu.2) fun _ _ hu => .ok hu.1

variable (h : NodesCoupled R S env topic topic')
include h

theorem NodesCoupled.persistStage (hs : S s s') :
    Eff.Coupled R (persistStage env s) (persistStage env s') S :=
  (step_coupled (h.enter _) (h.persist hs)).bind fun _ _ hp => .ret hp

theorem NodesCoupled.rejectStage (hs : S s s') (hpassed : authPassed s = .ok false) :
    Eff.Coupled R (rejectStage env topic s) (rejectStage env topic' s') S :=
  (step_coupled (h.enter _) (h.reject hs hpassed)).bind fun _ _ hp => h.persistStage hp

theorem NodesCoupled.adapterStage (hs : S s s') {r : RoutedAdapter topic}
    {r' : RoutedAdapter topic'} (hr : r.node = r'.node) :
    Eff.Coupled R (adapterStage env topic r s) (adapterStage env topic' r' s') S := by
  have hwrite : ∀ u u', Merged R S r.node s s' u u' →
      R (langGraph.write r.node u) (langGraph.write r'.node u') := by
    intro u u' hu
    rw [← hr]
    exact hu.2
  have henter : R (langGraph.enter r.node) (langGraph.enter r'.node) := by
    rw [← hr]
    exact h.enter _
  have hvisit : Eff.Coupled R
      (visit langGraph r.node (topicAdapterNode topic r.node r.adapter) s
        fun _ => (.ok () : Except Exn Unit))
      (visit langGraph r'.node (topicAdapterNode topic' r'.node r'.adapter) s'
        fun _ => (.ok () : Except Exn Unit)) fun p p' => S p.1 p'.1 :=
    visit_coupled henter (h.adapter r r' hr hs) hwrite fun _ _ hu => .ok hu.1
  exact hvisit.bind fun _ _ hp => h.persistStage hp

theorem NodesCoupled.intentStage (hs : S s s') :
    Eff.Coupled R (intentStage env topic s) (intentStage env topic' s') S := by
  have hvisit : Eff.Coupled R
      (visit langGraph (py "intent_node") (topicIntentNode env topic topic.mapping) s
        (routeTarget topic))
      (visit langGraph (py "intent_node") (topicIntentNode env topic' topic'.mapping) s'
        (routeTarget topic')) fun p p' => S p.1 p'.1 ∧ p.2.node = p'.2.node :=
    visit_coupled (h.enter _) (h.intent hs) (fun _ _ hu => hu.2) fun u u' hu =>
      (h.route hu.1).mono fun _ _ hr => ⟨hu.1, hr⟩
  exact hvisit.bind fun _ _ hp => h.adapterStage hp.1 hp.2

theorem NodesCoupled.answerStage (hs : S s s') :
    Eff.Coupled R (answerStage env topic s) (answerStage env topic' s') S :=
  (step_coupled (h.enter _) (h.enrich hs)).bind fun _ _ hp => h.intentStage hp

theorem NodesCoupled.authStage (hs : S s s') :
    Eff.Coupled R (authStage env topic s) (authStage env topic' s') S := by
  have hvisit : Eff.Coupled R
      (visit langGraph (py "auth_node") (makeAuthNode (.live σ) topic.auth) s authPassed)
      (visit langGraph (py "auth_node") (makeAuthNode (.live σ) topic'.auth) s' authPassed)
      fun p p' => S p.1 p'.1 ∧ p.2 = p'.2 ∧ authPassed p.1 = .ok p.2 := by
    refine visit_coupled (h.enter _) (h.auth hs) (fun _ _ hu => hu.2) fun u u' hu => ?_
    show Agree _ (authPassed (s.merge u)) (authPassed (s'.merge u'))
    rw [← h.passed hu.1]
    cases hp : authPassed (s.merge u) with
    | error e => exact .error e
    | ok b => exact .ok ⟨hu.1, rfl, hp⟩
  refine hvisit.bind ?_
  rintro ⟨t, b⟩ ⟨t', b'⟩ ⟨ht, rfl : b = b', hpassed⟩
  cases b with
  | true => exact h.answerStage ht
  | false => exact h.rejectStage ht hpassed

theorem NodesCoupled.pipeline (hs : S s s') :
    Eff.Coupled R (pipeline env topic s) (pipeline env topic' s') S :=
  (step_coupled (h.enter _) (h.load hs)).bind fun _ _ hp => h.authStage hp

end Pipeline

-- ============================================================================
-- Ways and attempts
-- ============================================================================

/-- A route that leads nowhere is a key error. -/
theorem routeTarget_error {topic : CompiledTopic} {s : GraphState} {e : Exn}
    (h : routeTarget topic s = .error e) :
    topic.mapping.get? (s.route.getD topic.defaultRoute) = none ∧ e = .keyError := by
  unfold routeTarget at h
  split at h
  · next hnone =>
    cases h
    exact ⟨hnone, rfl⟩
  · cases h

/-- Topics with one mapping and one default route send equal routes to equal nodes. -/
theorem routeTarget_agree {topic topic' : CompiledTopic} {s s' : GraphState}
    (hroute : topic.mapping.get? (s.route.getD topic.defaultRoute)
      = topic'.mapping.get? (s'.route.getD topic'.defaultRoute)) :
    Agree (fun r r' => r.node = r'.node) (routeTarget topic s) (routeTarget topic' s') := by
  cases h : routeTarget topic s with
  | error e =>
      obtain ⟨hnone, rfl⟩ := routeTarget_error h
      cases h' : routeTarget topic' s' with
      | error e' =>
          rw [(routeTarget_error h').2]
          exact .error _
      | ok r' =>
          rw [hroute, routeTarget_mapping h'] at hnone
          cases hnone
  | ok r =>
      have hr := routeTarget_mapping h
      rw [hroute] at hr
      cases h' : routeTarget topic' s' with
      | error e' =>
          rw [(routeTarget_error h').1] at hr
          cases hr
      | ok r' =>
          rw [routeTarget_mapping h', Option.some.injEq] at hr
          exact .ok hr.symm

section Attempts

variable {R : Act → Act → Prop} {a a' : DownstreamAdapter} {s s' : GraphState}
  {maxAttempts backoffMs : Nat}

/-- The attempts of one adapter before `k` were retried. -/
def FailedBefore (a : DownstreamAdapter) (maxAttempts : Nat) (s : GraphState) (k : Nat) : Prop :=
  ∀ j, 1 ≤ j → j < k → (a.attemptTrace true maxAttempts s j).exit.failed = true

/-- The same attempt of two adapters: the same chunks and exit, related events. -/
structure AttemptsAgree (R : Act → Act → Prop) (t t' : AttemptTrace) : Prop where
  chunks : t.chunks = t'.chunks
  exit : t.exit = t'.exit
  events : List.Forall₂ (fun ev ev' => R (.emit ev) (.emit ev')) t.events t'.events

/-- Adapters whose attempts agree, as far as they are made, have related traces. -/
theorem adapterTrace_related (hrun : ∀ k, R (.run s true k) (.run s' true k))
    (hsleep : R (.sleep backoffMs) (.sleep backoffMs))
    (hexhausted : R (.emit (retriesExhausted maxAttempts)) (.emit (retriesExhausted maxAttempts)))
    (hattempt : ∀ k, 1 ≤ k → k ≤ maxAttempts → FailedBefore a maxAttempts s k →
      AttemptsAgree R (a.attemptTrace true maxAttempts s k)
        (a'.attemptTrace true maxAttempts s' k))
    (left attempt : Nat) (chunks : List Json) (hleft : attempt + left = maxAttempts + 1)
    (hfirst : 1 ≤ attempt) (hfailed : FailedBefore a maxAttempts s attempt) :
    List.Forall₂ R (adapterTrace a true maxAttempts backoffMs s left attempt chunks).1
        (adapterTrace a' true maxAttempts backoffMs s' left attempt chunks).1 ∧
      (adapterTrace a true maxAttempts backoffMs s left attempt chunks).2
        = (adapterTrace a' true maxAttempts backoffMs s' left attempt chunks).2 := by
  induction left generalizing attempt chunks with
  | zero => exact ⟨.nil, rfl⟩
  | succ left ih =>
      have hagree := hattempt attempt hfirst (by omega) hfailed
      have hacts : List.Forall₂ R (a.attemptActs true maxAttempts s attempt)
          (a'.attemptActs true maxAttempts s' attempt) := by
        refine .cons (hrun attempt) ?_
        rw [List.forall₂_map_left_iff, List.forall₂_map_right_iff]
        exact hagree.events
      have hchunks := hagree.chunks
      have hexit := hagree.exit
      generalize ht : a.attemptTrace true maxAttempts s attempt = t at hchunks hexit
      generalize ht' : a'.attemptTrace true maxAttempts s' attempt = t' at hchunks hexit
      rcases adapterTrace_cases backoffMs left chunks ht with
        ⟨hfail, hlt, heq⟩ | ⟨hlast, tail, u, htail, heq⟩ <;>
      rcases adapterTrace_cases backoffMs left chunks ht' with
        ⟨hfail', hlt', heq'⟩ | ⟨hlast', tail', u', htail', heq'⟩
      · have hnext : FailedBefore a maxAttempts s (attempt + 1) := by
          intro j hj hj'
          rcases Nat.lt_succ_iff_lt_or_eq.mp hj' with h | rfl
          · exact hfailed j hj h
          · rw [ht]
            exact hfail
        have hrest := ih (attempt + 1) (chunks ++ t.chunks) (by omega) (by omega) hnext
        rw [heq, heq', ← hchunks]
        exact ⟨List.rel_append hacts (.cons hsleep hrest.1), hrest.2⟩
      · exact absurd ⟨hexit ▸ hfail, hlt⟩ hlast'
      · exact absurd ⟨hexit ▸ hfail', hlt'⟩ hlast
      · rw [heq, heq']
        rw [← hexit, ← hchunks] at htail'
        generalize t.exit = exit at htail htail'
        cases htail with
        | exhausted he =>
            cases htail' with
            | exhausted he' => exact ⟨List.rel_append hacts (.cons hexhausted .nil), rfl⟩
            | cancelled he' => rw [he] at he'; cases he'
        | cancelled he =>
            cases htail' with
            | exhausted he' => rw [he] at he'; cases he'
            | cancelled he' => exact ⟨List.rel_append hacts .nil, rfl⟩
        | finished =>
            cases htail'
            exact ⟨List.rel_append hacts .nil, rfl⟩
        | errorShown =>
            cases htail'
            exact ⟨List.rel_append hacts .nil, rfl⟩

/-- The acts of an adapter node, as far as its attempts are made. -/
theorem adapterTrace_acts {P : Act → Prop} (hrun : ∀ k, P (.run s true k))
    (hsleep : P (.sleep backoffMs)) (hexhausted : P (.emit (retriesExhausted maxAttempts)))
    (hattempt : ∀ k, 1 ≤ k → k ≤ maxAttempts → FailedBefore a maxAttempts s k →
      ∀ ev ∈ (a.attemptTrace true maxAttempts s k).events, P (.emit ev)) :
    ∀ t ∈ (adapterTrace a true maxAttempts backoffMs s maxAttempts 1 []).1, P t := by
  have hself : List.Forall₂ (fun t u => P t ∧ t = u)
      (adapterTrace a true maxAttempts backoffMs s maxAttempts 1 []).1
      (adapterTrace a true maxAttempts backoffMs s maxAttempts 1 []).1 := by
    refine (adapterTrace_related (fun k => ⟨hrun k, rfl⟩) ⟨hsleep, rfl⟩ ⟨hexhausted, rfl⟩
      (fun k hk hmax hfailed => ⟨rfl, rfl, ?_⟩) _ 1 [] (Nat.add_comm _ _) (Nat.le_refl 1)
      (fun j hj hj' => absurd hj' (Nat.not_lt.mpr hj))).1
    exact List.forall₂_same.mpr fun ev hev => ⟨hattempt k hk hmax hfailed ev hev, rfl⟩
  exact ((List.forall₂_and_left _ _).mp hself).1

end Attempts

-- ============================================================================
-- Requests
-- ============================================================================

/-- A request made under another identity. -/
def ChatRequest.under (req : ChatRequest) (identity : Option AuthnIdentity) : ChatRequest :=
  { req with identity := identity }

/-- The events `handle` yields of its own accord. -/
inductive OwnEvent (env : Env σ) (req : ChatRequest) (topic : CompiledTopic) :
    ChatEvent → Prop where
  | invalid : OwnEvent env req topic (invalidParams env req)
  | announced (messageId : PyStr) : OwnEvent env req topic (metaEvent req messageId)
  | bound (detail : PyStr) : OwnEvent env req topic (threadBound req detail)
  | internal : OwnEvent env req topic (internalError req topic)
  | failed : OwnEvent env req topic doneFailed
  | complete (messageId : PyStr) : OwnEvent env req topic (doneComplete messageId)

section Request

variable {R : Act → Act → Prop} {S : GraphState → GraphState → Prop} {env : Env σ}
  {topic topic' : CompiledTopic} {req : ChatRequest} {identity : Option AuthnIdentity}
  (hnodes : NodesCoupled R S env topic topic')
  (hmessages : topic.errorMessages = topic'.errorMessages)
  (hrelay : ∀ t u, R t u →
    Agree (List.Forall₂ R) (relay topic.errorMessages t) (relay topic.errorMessages u))
  (hown : ∀ ev, OwnEvent env req topic ev → R (.yield ev) (.yield ev))
  (hinitial : ∀ messageId,
    S (initialState req messageId) (initialState (req.under identity) messageId))
include hnodes hmessages hrelay hown hinitial

/-- The loops over the graphs of two topics. -/
theorem chatLoop_coupled {g g' : ChatGraph σ} (hbuild : buildGraph env topic = .ok g)
    (hbuild' : buildGraph env topic' = .ok g') (messageId : PyStr) :
    Eff.Coupled R (chatLoop env topic req g messageId)
      (chatLoop env topic' (req.under identity) g' messageId) Eq := by
  have hrun : Eff.Coupled R
      (g.run langGraph recursionLimit (initialState req messageId))
      (g'.run langGraph recursionLimit (initialState (req.under identity) messageId)) S := by
    rw [graph_run_eq_pipeline hbuild, graph_run_eq_pipeline hbuild']
    exact hnodes.pipeline (hinitial messageId)
  unfold chatLoop
  rw [← hmessages]
  refine (hrun.consume env.grace hrelay).attempt.bind fun x y hxy => ?_
  obtain rfl := hxy.eq
  have htext : internalError (req.under identity) topic' = internalError req topic := by
    rw [internalError, internalError, hmessages]
    rfl
  cases x with
  | ok u => exact .ret rfl
  | error e =>
      cases he : e.isException with
      | false => simpa only [he, Bool.false_eq_true, if_false] using .raise e
      | true =>
          simp only [he, if_true, htext]
          exact (Eff.Coupled.act (hown _ .internal)).mono fun _ _ _ => rfl

/-- An accepted request. -/
theorem handleAccepted_coupled
    (hbuild : Agree (fun _ _ => True) (buildGraph env topic) (buildGraph env topic'))
    (huser : ∀ a, UserAct req a → R a a) :
    Eff.Coupled R (handleAccepted env topic req) (handleAccepted env topic' (req.under identity))
      Eq := by
  have hid : Eff.Coupled R (newMessageId env) (newMessageId env) Eq :=
    .same (.bind (.draw _) fun _ => .ret _)
  have hstore : Eff.Coupled R (persistUserMessage env req) (persistUserMessage env req) Eq :=
    .same ((persistUserMessage_acts env req).mono huser)
  refine hid.bind fun messageId _ h => ?_
  subst h
  refine (Eff.Coupled.act (hown _ (.announced messageId))).bind fun _ _ _ => ?_
  refine hstore.attempt.bind fun x y hxy => ?_
  obtain rfl := hxy.eq
  cases x with
  | error e =>
      cases e with
      | sessionBizMismatch detail =>
          exact (Eff.Coupled.act (hown _ (.bound detail))).bind fun _ _ _ =>
            (Eff.Coupled.act (hown _ .failed)).mono fun _ _ _ => rfl
      | _ => exact .raise _
  | ok u =>
      have hgraphs : Agree (fun g g' => buildGraph env topic = .ok g ∧
          buildGraph env topic' = .ok g') (buildGraph env topic) (buildGraph env topic') := by
        generalize buildGraph env topic = b at hbuild
        generalize buildGraph env topic' = b' at hbuild
        cases hbuild with
        | error e => exact .error e
        | ok _ => exact .ok ⟨rfl, rfl⟩
      refine (Eff.Coupled.ofExcept hgraphs).bind fun g g' hg => ?_
      refine (chatLoop_coupled hnodes hmessages hrelay hown hinitial hg.1 hg.2 messageId).bind
        fun _ _ _ => ?_
      exact (Eff.Coupled.act (hown _ (.complete messageId))).mono fun _ _ _ => rfl

/-- A request to two registries. -/
theorem handle_coupled {topics topics' : TopicRegistry} (ht : topics.get req.bizId = some topic)
    (ht' : topics'.get req.bizId = some topic')
    (hmodel : topic.bizParamsModel = topic'.bizParamsModel)
    (hbuild : Agree (fun _ _ => True) (buildGraph env topic) (buildGraph env topic'))
    (huser : ∀ a, UserAct req a → R a a) :
    Eff.Coupled R (handle env topics req) (handle env topics' (req.under identity)) Eq := by
  have hget : topics'.get (req.under identity).bizId = some topic' := ht'
  cases hacc : topic.bizParamsModel.accepts req.bizParams with
  | true =>
      have hacc' : topic'.bizParamsModel.accepts (req.under identity).bizParams = true := by
        rw [← hmodel]
        exact hacc
      rw [handle_accepted ht hacc, handle_accepted hget hacc']
      exact handleAccepted_coupled hnodes hmessages hrelay hown hinitial hbuild huser
  | false =>
      have hacc' : topic'.bizParamsModel.accepts (req.under identity).bizParams = false := by
        rw [← hmodel]
        exact hacc
      rw [handle_invalid ht hacc, handle_invalid hget hacc']
      exact .play (.cons (hown _ .invalid) (.cons (hown _ .failed) .nil)) (.ok rfl)

end Request

-- ============================================================================
-- A topic with other adapters
-- ============================================================================

/-- The topic with each adapter replaced. -/
def CompiledTopic.mapAdapters (topic : CompiledTopic)
    (f : PyStr → DownstreamAdapter → DownstreamAdapter) : CompiledTopic :=
  { topic with
    adapters := topic.adapters.mapValues f
    mem_adapters := fun n => by
      rw [Dict.keys_mapValues]
      exact topic.mem_adapters n }

/-- An act of the graph outside its adapter nodes: it shows no error. -/
def Act.unerring : Act → Prop
  | .emit ev => ev.type ≠ .error
  | .yield _ => False
  | _ => True

theorem Act.unerring_of_phase {ev : ChatEvent} (h : ev.type = .thinking ∨ ev.type = .progress) :
    (Act.emit ev).unerring := by
  show ev.type ≠ .error
  rcases h with h | h <;> simp [h]

section MapAdapters

variable {R : Act → Act → Prop} {env : Env σ} {topic : CompiledTopic}
  {f : PyStr → DownstreamAdapter → DownstreamAdapter}

/-- Only the adapter nodes are to be compared. -/
theorem nodesCoupled_mapAdapters (hR : ∀ t, t.unerring → R t t)
    (hadapter : ∀ n a s, topic.adapters.get? n = some a →
      List.Forall₂ R (topic.adapterTrace n a s).1 (topic.adapterTrace n (f n a) s).1 ∧
        (topic.adapterTrace n a s).2 = (topic.adapterTrace n (f n a) s).2) :
    NodesCoupled R Eq env topic (topic.mapAdapters f) := by
  have hmerged : ∀ n s u u', u = u' → Merged R Eq n s s u u' := by
    rintro n s u _ rfl
    exact ⟨rfl, hR _ trivial⟩
  have hsame : ∀ {n s} {p : Prog σ Update}, p.ActsOnly Act.unerring →
      Eff.Coupled R p p (Merged R Eq n s s) := fun hp =>
    (Eff.Coupled.same (hp.mono hR)).mono (hmerged _ _)
  refine
    { enter := fun _ => hR _ trivial
      load := ?_, auth := ?_, passed := ?_, reject := ?_, enrich := ?_, intent := ?_
      route := ?_, adapter := ?_, persist := ?_ }
  · rintro s _ rfl
    refine hsame ((loadSessionNode_acts env topic s).mono fun a h => ?_)
    cases a <;> trivial
  · rintro s _ rfl
    refine hsame ((authNode_acts topic s).mono fun a h => ?_)
    cases a with
    | emit ev => exact Act.unerring_of_phase h
    | _ => trivial
  · rintro s _ rfl
    rfl
  · rintro s _ rfl -
    refine hsame ((rejectNode_acts topic s).mono fun a h => ?_)
    cases a with
    | emit ev =>
        intro herror
        rw [show ev.type = .delta from h] at herror
        cases herror
    | _ => trivial
  · rintro s _ rfl
    refine hsame ((enrichNode_acts topic s).mono fun a h => ?_)
    cases a with
    | emit ev => exact Act.unerring_of_phase h
    | _ => trivial
  · rintro s _ rfl
    refine hsame ((intentNode_acts env topic s topic.mapping).mono fun a h => ?_)
    cases a with
    | emit ev => exact Act.unerring_of_phase h
    | _ => trivial
  · rintro s _ rfl
    exact routeTarget_agree rfl
  · rintro s _ ⟨n, a, ha⟩ ⟨n', a', ha'⟩ hn rfl
    obtain rfl : n = n' := hn
    have hget : (topic.mapAdapters f).adapters.get? n = some (f n a) := by
      rw [CompiledTopic.mapAdapters, Dict.get?_mapValues, ha]
      rfl
    obtain rfl : f n a = a' := Option.some.inj (hget.symm.trans ha')
    show Eff.Coupled R (topicAdapterNode topic n a s : Prog σ Update)
      (topicAdapterNode topic n (f n a) s) _
    rw [topicAdapterNode_live, topicAdapterNode_live]
    obtain ⟨hacts, hupdate⟩ := hadapter n a s ha
    exact .play hacts (.ok (hmerged _ _ _ _ hupdate))
  · rintro s _ rfl
    refine hsame ((persistNode_acts env s).mono fun a h => ?_)
    cases a <;> trivial

end MapAdapters

end MasterAgent
