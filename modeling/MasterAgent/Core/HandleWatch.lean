/-
  MasterAgent.Core.HandleWatch

  Monitors of what a request reads and stores.  Such a monitor cares about the
  user message, about load_session, and about the assistant message of persist;
  in between no node calls a repository or writes a history.  `handle_watched`
  asks for these three and answers for the whole request.
-/

import MasterAgent.Core.GraphActs
import MasterAgent.Core.StageActs

namespace MasterAgent

open Effect StateGraph

variable {σ G : Type}

/-- The state of a graph run for the request. -/
structure OfRequest (req : ChatRequest) (s : GraphState) : Prop where
  threadId : s.threadId = req.threadId
  bizId : s.bizId = req.bizId
  requestId : s.requestId = req.requestId
  identity : s.identity = some req.who

theorem OfRequest.merge {req : ChatRequest} {s : GraphState} (h : OfRequest req s) (u : Update) :
    OfRequest req (s.merge u) :=
  ⟨h.threadId, h.bizId, h.requestId, h.identity⟩

theorem ofRequest_initialState (req : ChatRequest) (messageId : PyStr) :
    OfRequest req (initialState req messageId) :=
  ⟨rfl, rfl, rfl, rfl⟩

/-- A monitor of what the request reads and stores; `Ok` are the states it may be
    in once the history is loaded. -/
structure Attentive (δ : G → Act → Option G) (req : ChatRequest) (Ok : G → Prop) : Prop where
  offline : ∀ g a, a.offline = true → (∀ n u, a ≠ .write n u) → δ g a = some g
  touch : ∀ g t r, δ g (.touch t r) = some g
  write : ∀ g n u, Ok g → u.history = none → δ g (.write n u) = some g
  answer : ∀ g s content r, Ok g → OfRequest req s →
    ∃ g', δ g (.append (assistantMessage s content) r) = some g' ∧ Ok g'

section Attentive

variable {δ : G → Act → Option G} {req : ChatRequest} {Ok : G → Prop} (hδ : Attentive δ req Ok)
  {env : Env σ} {topic : CompiledTopic} {s : GraphState} {g : G}
include hδ

/-- A node that calls no repository and writes no history. -/
theorem Attentive.visit {β : Type} {n : PyStr} {f : NodeFn σ} {next : GraphState → Except Exn β}
    {P : Act → Prop} (hs : OfRequest req s) (hg : Ok g) (hacts : (f s).ActsOnly P)
    (hP : ∀ a, P a → a.offline = true ∧ ∀ n u, a ≠ .write n u)
    (hreturns : (f s).ReturnsOnly fun u => u.history = none) :
    Watched δ g (visit langGraph n f s next) fun p g' => g' = g ∧ OfRequest req p.1 := by
  have henter : δ g (langGraph.enter n) = some g :=
    hδ.offline g (.enter n) rfl (fun _ _ h => by cases h)
  have hnode : Watched δ g (f s) fun u g' => g' = g ∧ u.history = none :=
    .quiet (hacts.mono fun a ha => hδ.offline g a (hP a ha).1 (hP a ha).2)
      fun w u hu => ⟨rfl, hreturns w u hu⟩
  refine visit_watched henter hnode fun u g₂ b h _ => ?_
  obtain ⟨rfl, hhistory⟩ := h
  exact ⟨g₂, hδ.write g₂ n u hg hhistory, rfl, hs.merge u⟩

theorem Attentive.persistStage (hs : OfRequest req s) (hg : Ok g) :
    Watched δ g (persistStage env s) fun _ _ => True := by
  have hnode : Watched δ g (persistNode env s) fun u g' => Ok g' ∧ u.history = none := by
    refine Repos.withConn_watched _ (fun g r => hδ.offline g _ rfl (fun _ _ h => by cases h))
      (fun g r => hδ.offline g _ rfl (fun _ _ h => by cases h)) ?_
    have hjoin : Watched δ g (Eff.ofExcept (Json.join s.answerChunks) : Prog σ PyStr)
        fun _ g' => g' = g := .ofExcept fun _ _ => rfl
    refine hjoin.bind fun content g₁ hg₁ => ?_
    subst hg₁
    have happend : Watched δ g₁ (env.repos.callAppend (assistantMessage s content))
        fun _ g' => Ok g' := by
      refine .call_answer fun r => ?_
      obtain ⟨g', hstep, hok⟩ := hδ.answer g₁ s content r hg hs
      exact ⟨g', hstep, fun _ _ => hok⟩
    refine happend.bind fun _ g₂ hg₂ => ?_
    refine (Watched.call fun r => hδ.touch g₂ s.threadId r).bind fun _ g₃ hg₃ => ?_
    subst hg₃
    exact .ret ⟨hg₂, rfl⟩
  have henter : δ g (langGraph.enter (py "persist_node")) = some g :=
    hδ.offline g _ rfl (fun _ _ h => by cases h)
  have hvisit : Watched δ g (step "persist_node" (persistNode env) s) fun _ _ => True := by
    refine visit_watched henter hnode fun u g₂ b h _ => ?_
    exact ⟨g₂, hδ.write g₂ _ u h.1 h.2, trivial⟩
  exact hvisit.bind fun _ _ _ => .ret trivial

theorem Attentive.rejectStage (hs : OfRequest req s) (hg : Ok g) :
    Watched δ g (rejectStage env topic s) fun _ _ => True := by
  refine (hδ.visit hs hg (rejectNode_acts topic s) (fun a ha => ?_) ?_).bind fun p g' hp => ?_
  · refine ⟨ha.offline, ?_⟩
    rintro n u rfl
    exact ha
  · rw [makeRejectNode_live]
    intro w u hu
    cases hu
    rfl
  · obtain ⟨rfl, hp⟩ := hp
    exact hδ.persistStage hp hg

theorem Attentive.adapterStage (hs : OfRequest req s) (hg : Ok g) (routed : RoutedAdapter topic) :
    Watched δ g (adapterStage env topic routed s) fun _ _ => True := by
  refine (hδ.visit hs hg (adapterNode_acts topic s routed.node routed.adapter)
    (fun a ha => ?_) ?_).bind fun p g' hp => ?_
  · refine ⟨ha.offline, ?_⟩
    rintro n u rfl
    exact ha
  · intro w u hu
    obtain ⟨answer, cancelled, hwrites⟩ :=
      topic.adapterTrace_writes s routed.node routed.adapter
    rw [adapterNode_returns topic s routed.node routed.adapter w u hu, hwrites]
  · obtain ⟨rfl, hp⟩ := hp
    exact hδ.persistStage hp hg

theorem Attentive.answerStage (hs : OfRequest req s) (hg : Ok g) :
    Watched δ g (answerStage env topic s) fun _ _ => True := by
  refine (hδ.visit hs hg (enrichNode_acts topic s) (fun a ha => ?_) ?_).bind fun p g' hp => ?_
  · refine ⟨ha.offline, ?_⟩
    rintro n u rfl
    exact ha
  · intro w u hu
    obtain ⟨r, rfl⟩ := enrichNode_returns topic s w u hu
    rfl
  obtain ⟨rfl, hp⟩ := hp
  refine (hδ.visit hp hg (intentNode_acts env topic p.1 topic.mapping)
    (fun a ha => ?_) ?_).bind fun q g' hq => ?_
  · refine ⟨ha.offline, ?_⟩
    rintro n u rfl
    exact ha
  · intro w u hu
    obtain ⟨answer, rfl⟩ := intentNode_returns env topic p.1 topic.mapping w u hu
    rfl
  obtain ⟨rfl, hq⟩ := hq
  exact hδ.adapterStage hq hg _

theorem Attentive.authStage (hs : OfRequest req s) (hg : Ok g) :
    Watched δ g (authStage env topic s) fun _ _ => True := by
  refine (hδ.visit hs hg (authNode_acts topic s) (fun a ha => ?_) ?_).bind fun p g' hp => ?_
  · refine ⟨ha.offline, ?_⟩
    rintro n u rfl
    exact ha
  · intro w u hu
    obtain ⟨r, -, rfl⟩ := authNode_returns topic s w u hu
    unfold authUpdate
    split <;> rfl
  obtain ⟨rfl, hp⟩ := hp
  split
  · exact hδ.answerStage hp hg
  · exact hδ.rejectStage hp hg

/-- The graph, given its first node. -/
theorem Attentive.pipeline
    (hload : Watched δ g (step "load_session" (loadSessionNode env topic) s)
      fun p g' => Ok g' ∧ OfRequest req p.1) :
    Watched δ g (pipeline env topic s) fun _ _ => True :=
  hload.bind fun _ _ hp => hδ.authStage hp.2 hp.1

theorem Attentive.yield (g : G) (ev : ChatEvent) :
    Watched δ g (Eff.act (.yield ev) : Prog σ Unit) fun _ g' => g' = g :=
  .act (hδ.offline g _ rfl (fun _ _ h => by cases h))

/-- What follows the user message. -/
theorem Attentive.afterUser {Stored : G → Prop} (messageId : PyStr) {r : Except Exn Unit}
    (hg : ∀ u, r = .ok u → Stored g)
    (hload : ∀ s g, OfRequest req s → Stored g →
      Watched δ g (step "load_session" (loadSessionNode env topic) s)
        fun p g' => Ok g' ∧ OfRequest req p.1) :
    Watched δ g (afterUser env topic req messageId r) fun _ _ => True := by
  have hyield : ∀ g ev, Watched δ g (Eff.act (.yield ev) : Prog σ Unit) fun _ _ => True :=
    fun g ev => (hδ.yield g ev).mono fun _ _ _ => trivial
  cases r with
  | error e =>
      cases e with
      | sessionBizMismatch detail => exact (hyield _ _).bind fun _ _ _ => hyield _ _
      | _ => exact .raise
  | ok u =>
      cases hbuild : buildGraph env topic with
      | error e =>
          simp only [MasterAgent.afterUser, hbuild]
          show Watched _ _ (Eff.raise e) _
          exact .raise
      | ok graph =>
          simp only [MasterAgent.afterUser, hbuild]
          have hrelayed : Watched δ g (relayed env topic (initialState req messageId))
              fun _ _ => True := by
            refine (hδ.pipeline (hload _ g (ofRequest_initialState req messageId)
              (hg u rfl))).consume (fun a out hout o ho g' => ?_) env.grace
            obtain ⟨ev, rfl⟩ := (relay_yields hout).1 o ho
            exact hδ.offline g' _ rfl (fun _ _ h => by cases h)
          have hloop : Watched δ g (chatLoop env topic req graph messageId) fun _ _ => True := by
            unfold chatLoop
            rw [graph_run_eq_pipeline hbuild]
            refine hrelayed.attempt.bind fun r g' _ => ?_
            cases r with
            | ok u => exact .ret trivial
            | error e =>
                show Watched _ _ (if e.isException then _ else _) _
                split
                · exact hyield _ _
                · exact .raise
          show Watched _ _ (chatLoop env topic req graph messageId >>= fun _ => Eff.act _) _
          exact hloop.bind fun _ _ _ => hyield _ _

/-- A request keeps to a monitor that allows it to store its question and then to
    load its history. -/
theorem Attentive.handle {topics : TopicRegistry} (Stored : G → Prop)
    (huser : ∀ topic, topics.get req.bizId = some topic →
      topic.bizParamsModel.accepts req.bizParams = true →
      Watched δ g (persistUserMessage env req) fun _ g' => Stored g')
    (hload : ∀ topic, topics.get req.bizId = some topic →
      topic.bizParamsModel.accepts req.bizParams = true →
      ∀ s g, OfRequest req s → Stored g →
        Watched δ g (step "load_session" (loadSessionNode env topic) s)
          fun p g' => Ok g' ∧ OfRequest req p.1) :
    Watched δ g (handle env topics req) fun _ _ => True := by
  have htwo : ∀ ev ev', Watched δ g
      (Eff.act (.yield ev) >>= fun _ => Eff.act (.yield ev') : Prog σ Unit) fun _ _ => True :=
    fun ev ev' => (hδ.yield _ _).bind fun _ _ _ => (hδ.yield _ _).mono fun _ _ _ => trivial
  unfold MasterAgent.handle
  split
  · exact htwo _ _
  · next topic htopic =>
    split
    · next hparams =>
      show Watched _ _ (newMessageId env >>= fun messageId => Eff.act _ >>= fun _ =>
        Eff.attempt (persistUserMessage env req) >>=
          MasterAgent.afterUser env topic req messageId) _
      have hid : Watched δ g (newMessageId env) fun _ g' => g' = g := by
        have hdraw : Watched δ g (Eff.draw env.newUlid : Prog σ PyStr) fun _ g' => g' = g :=
          .draw fun _ => rfl
        exact hdraw.bind fun _ _ hg' => .ret hg'
      refine hid.bind fun messageId g₁ hg₁ => ?_
      subst hg₁
      refine (hδ.yield _ _).bind fun _ g₂ hg₂ => ?_
      subst hg₂
      exact (huser topic htopic hparams).attempt.bind fun r g' hg' =>
        hδ.afterUser messageId hg' (hload topic htopic hparams)
    · exact htwo _ _

end Attentive

end MasterAgent
