/-
  MasterAgent.Core.InternalNodes

  The output flag of an adapter node along a run.  A delta or a tool event is
  yielded while the graph is in reject_node, or in an adapter node whose adapter
  has been run; every adapter is run with the flag the graph builder passes.  So
  a run keeps to the flags the configuration declares exactly when no adapter of
  an internal node is run in it.
-/

import MasterAgent.Core.Routing
import MasterAgent.Core.HandleWatch

namespace MasterAgent

open Effect StateGraph

variable {σ : Type}

-- ============================================================================
-- Where the graph is
-- ============================================================================

/-- The node an act enters. -/
def enteredNode : Act → Option PyStr
  | .enter n => some n
  | _ => none

/-- The node the graph is in after the acts `past`. -/
def nodeOf (past : List Act) : Option PyStr := (word enteredNode past).getLast?

theorem nodeOf_concat (past : List Act) (a : Act) :
    nodeOf (past ++ [a]) = match enteredNode a with
      | some n => some n
      | none => nodeOf past := by
  rw [nodeOf, word_append, word_cons]
  cases enteredNode a with
  | none => simp [nodeOf]
  | some n => simp

/-- The output flag of the node whose adapter the compiler keeps for the id. -/
def TopicFields.declaredOutput (f : TopicFields) (n : PyStr) : Option Bool :=
  (f.nodes.reverse.find? fun node => node.id = n).map fun node => node.output

/-- A delta or a tool event. -/
def ChatEvent.shows (ev : ChatEvent) : Prop := ev.type = .delta ∨ ev.type = .tool

instance (ev : ChatEvent) : Decidable ev.shows :=
  inferInstanceAs (Decidable (ev.type = .delta ∨ ev.type = .tool))

/-- Deltas and tool events come from reject_node and from nodes declared with
    output only, and every adapter is run with the flag its node declares. -/
structure KeepsInternal (cfg : TopicConfig) (acts : List Act) : Prop where
  delivered : ∀ past ev rest, acts = past ++ .yield ev :: rest → ev.shows →
    nodeOf past = some (py "reject_node") ∨
      ∃ n, nodeOf past = some n ∧ cfg.declaredOutput n = some true
  passed : ∀ past s output attempt rest, acts = past ++ .run s output attempt :: rest →
    ∃ n, nodeOf past = some n ∧ cfg.declaredOutput n = some output

/-- No adapter of a node declared internal is run. -/
def RunsNoInternal (cfg : TopicConfig) (acts : List Act) : Prop :=
  ∀ past s output attempt rest, acts = past ++ .run s output attempt :: rest →
    ∀ n, nodeOf past = some n → cfg.declaredOutput n ≠ some false

-- ============================================================================
-- The monitor
-- ============================================================================

inductive Place where
  | outside
  | inside (node : PyStr)
  /-- The adapter of the node has been run. -/
  | running (node : PyStr)

/-- Where a delta or a tool event may come from. -/
def Place.delivers : Place → Bool
  | .outside => false
  | .inside n => n = py "reject_node"
  | .running _ => true

def Place.deliver (g : Place) (ev : ChatEvent) : Option Place :=
  if ev.shows ∧ g.delivers = false then none else some g

/-- Where the graph goes, and what may happen there. -/
def Place.step (topic : CompiledTopic) (g : Place) : Act → Option Place
  | .enter n => some (.inside n)
  | .run _ output _ => match g, output with
      | .inside n, true => if n ∈ topic.adapters.keys then some (.running n) else none
      | .running n, true => some (.running n)
      | _, _ => none
  | .emit ev => g.deliver ev
  | .yield ev => g.deliver ev
  | _ => some g

/-- The histories that lead to a place. -/
inductive Place.History (topic : CompiledTopic) (past : List Act) : Place → Prop where
  | outside (h : nodeOf past = none) : History topic past .outside
  | inside {n : PyStr} (h : nodeOf past = some n) : History topic past (.inside n)
  | running {n : PyStr} (h : nodeOf past = some n) (hn : n ∈ topic.adapters.keys)
      (hran : ∃ before s attempt rest, past = before ++ .run s true attempt :: rest ∧
        nodeOf before = some n) : History topic past (.running n)

theorem Place.deliver_eq {g g' : Place} {ev : ChatEvent} (h : g.deliver ev = some g') :
    g' = g ∧ (ev.shows → g.delivers = true) := by
  unfold Place.deliver at h
  split at h
  · cases h
  · next hnot =>
    rw [Option.some.injEq] at h
    refine ⟨h.symm, fun hshows => ?_⟩
    cases hg : g.delivers with
    | true => rfl
    | false => exact absurd ⟨hshows, hg⟩ hnot

/-- An act that enters no node keeps the place's history. -/
theorem Place.History.quiet {topic : CompiledTopic} {past : List Act} {g : Place}
    (h : g.History topic past) {a : Act} (ha : enteredNode a = none) :
    g.History topic (past ++ [a]) := by
  have hnode : nodeOf (past ++ [a]) = nodeOf past := by rw [nodeOf_concat, ha]
  cases h with
  | outside h => exact .outside (hnode.trans h)
  | inside h => exact .inside (hnode.trans h)
  | running h hn hran =>
      obtain ⟨before, s, attempt, rest, rfl, hbefore⟩ := hran
      refine .running (hnode.trans h) hn ⟨before, s, attempt, rest ++ [a], ?_, hbefore⟩
      rw [List.append_assoc, List.cons_append]

theorem Place.History.step {topic : CompiledTopic} {past : List Act} {g g' : Place} {a : Act}
    (h : g.History topic past) (hstep : g.step topic a = some g') :
    g'.History topic (past ++ [a]) := by
  cases a with
  | enter n =>
      cases hstep
      exact .inside (nodeOf_concat past _)
  | run s output attempt =>
      cases output with
      | false => cases g <;> cases hstep
      | true =>
          cases g with
          | outside => cases hstep
          | running n =>
              cases hstep
              exact h.quiet rfl
          | inside n =>
              simp only [Place.step] at hstep
              split at hstep
              · next hn =>
                cases hstep
                cases h with
                | inside h =>
                    exact .running ((nodeOf_concat past _).trans h) hn
                      ⟨past, s, attempt, [], rfl, h⟩
              · cases hstep
  | emit ev =>
      obtain ⟨rfl, -⟩ := Place.deliver_eq hstep
      exact h.quiet rfl
  | yield ev =>
      obtain ⟨rfl, -⟩ := Place.deliver_eq hstep
      exact h.quiet rfl
  | _ =>
      cases hstep
      exact h.quiet rfl

theorem Place.history {topic : CompiledTopic} {acts : List Act} {g : Place}
    (h : watch (Place.step topic) .outside acts = some g) : g.History topic acts :=
  watch_invariant (I := fun past g => Place.History topic past g) (.outside rfl)
    (fun _ _ _ _ hI hstep => hI.step hstep) h

-- ============================================================================
-- The flags of a watched run
-- ============================================================================

theorem declaredOutput_eq_none {f : TopicFields} {n : PyStr} :
    f.declaredOutput n = none ↔ n ∉ f.nodes.map fun node => node.id := by
  rw [TopicFields.declaredOutput, Option.map_eq_none_iff, List.find?_eq_none]
  simp

/-- Every id of an adapter is declared. -/
theorem declaredOutput_of_adapter {cfg : TopicConfig} {topic : CompiledTopic}
    (hgraph : topic.graph = cfg.graph) {n : PyStr} (hn : n ∈ topic.adapters.keys) :
    ∃ output, cfg.declaredOutput n = some output := by
  rw [← Option.ne_none_iff_exists', ne_eq, declaredOutput_eq_none, not_not]
  have hid := (topic.mem_adapters n).mp hn
  rw [hgraph, TopicConfig.graph, List.map_map] at hid
  exact hid

section Watched

variable {cfg : TopicConfig} {topic : CompiledTopic} {acts : List Act} {g : Place}

/-- What runs in a watched run: the adapter of the node the graph is in, with
    output. -/
theorem run_of_watch (h : watch (Place.step topic) .outside acts = some g)
    {past rest : List Act} {s : GraphState} {output : Bool} {attempt : Nat}
    (hacts : acts = past ++ .run s output attempt :: rest) :
    output = true ∧ ∃ n, nodeOf past = some n ∧ n ∈ topic.adapters.keys := by
  rw [hacts] at h
  obtain ⟨g₁, g₂, hpast, hstep, -⟩ := watch_act h
  have hhistory := Place.history hpast
  cases output with
  | false => cases g₁ <;> cases hstep
  | true =>
      cases hhistory with
      | outside => cases hstep
      | running hnode hn => exact ⟨rfl, _, hnode, hn⟩
      | inside hnode =>
          simp only [Place.step] at hstep
          split at hstep
          · next hn => exact ⟨rfl, _, hnode, hn⟩
          · cases hstep

/-- What is delivered comes from reject_node, or after a run of the adapter of
    the node the graph is in. -/
theorem delivered_of_watch (h : watch (Place.step topic) .outside acts = some g)
    {past rest : List Act} {ev : ChatEvent} (hacts : acts = past ++ .yield ev :: rest)
    (hshows : ev.shows) :
    nodeOf past = some (py "reject_node") ∨
      ∃ n before s attempt between, nodeOf past = some n ∧ n ∈ topic.adapters.keys ∧
        past = before ++ .run s true attempt :: between ∧ nodeOf before = some n := by
  rw [hacts] at h
  obtain ⟨g₁, g₂, hpast, hstep, -⟩ := watch_act h
  obtain ⟨-, hdelivers⟩ := Place.deliver_eq hstep
  have hfrom := hdelivers hshows
  cases Place.history hpast with
  | outside => cases hfrom
  | inside hnode =>
      rw [Place.delivers, decide_eq_true_eq] at hfrom
      rw [hfrom] at hnode
      exact Or.inl hnode
  | running hnode hn hran =>
      obtain ⟨before, s, attempt, between, hpast, hbefore⟩ := hran
      exact Or.inr ⟨_, before, s, attempt, between, hnode, hn, hpast, hbefore⟩

/-- A watched run keeps to the declared flags when it runs no internal adapter. -/
theorem keepsInternal_iff (hgraph : topic.graph = cfg.graph)
    (h : watch (Place.step topic) .outside acts = some g) :
    KeepsInternal cfg acts ↔ RunsNoInternal cfg acts := by
  have hdeclared : ∀ n, n ∈ topic.adapters.keys → cfg.declaredOutput n ≠ some false →
      cfg.declaredOutput n = some true := by
    intro n hn hnot
    obtain ⟨output, houtput⟩ := declaredOutput_of_adapter hgraph hn
    rw [houtput] at hnot ⊢
    cases output with
    | true => rfl
    | false => exact absurd rfl hnot
  constructor
  · intro hkeeps past s output attempt rest hacts n hn hinternal
    obtain ⟨rfl, -⟩ := run_of_watch h hacts
    obtain ⟨n', hn', houtput⟩ := hkeeps.passed past s true attempt rest hacts
    rw [hn, Option.some.injEq] at hn'
    rw [← hn', hinternal] at houtput
    cases houtput
  · intro hnone
    refine ⟨fun past ev rest hacts hshows => ?_, fun past s output attempt rest hacts => ?_⟩
    · rcases delivered_of_watch h hacts hshows with
        hreject | ⟨n, before, s, attempt, between, hnode, hn, rfl, hbefore⟩
      · exact Or.inl hreject
      · refine Or.inr ⟨n, hnode, hdeclared n hn ?_⟩
        refine hnone before s true attempt (between ++ .yield ev :: rest) ?_ n hbefore
        rw [hacts, List.append_assoc, List.cons_append]
    · obtain ⟨rfl, n, hnode, hn⟩ := run_of_watch h hacts
      exact ⟨n, hnode, hdeclared n hn (hnone past s true attempt rest hacts n hnode)⟩

end Watched

-- ============================================================================
-- Every run is watched
-- ============================================================================

theorem Place.deliver_of_not_shows (g : Place) {ev : ChatEvent} (h : ¬ ev.shows) :
    g.deliver ev = some g := if_neg fun hboth => h hboth.1

section Stages

variable {env : Env σ} {topic : CompiledTopic} {s : GraphState} {g : Place}

/-- A node that delivers nothing and runs no adapter. -/
theorem visit_place {β : Type} {n : PyStr} {f : NodeFn σ} {next : GraphState → Except Exn β}
    {P : Act → Prop} (hacts : (f s).ActsOnly P)
    (hP : ∀ a, P a → Place.step topic (.inside n) a = some (.inside n)) :
    Watched (Place.step topic) g (visit langGraph n f s next) fun _ _ => True := by
  have hnode : Watched (Place.step topic) (.inside n) (f s) fun _ g' => g' = .inside n :=
    .quiet (hacts.mono hP) fun _ _ _ => rfl
  refine visit_watched rfl hnode fun u g₂ b h _ => ?_
  exact ⟨g₂, rfl, trivial⟩

theorem persistStage_place : Watched (Place.step topic) g (persistStage env s) fun _ _ => True := by
  have hvisit : Watched (Place.step topic) g (step "persist_node" (persistNode env) s)
      fun _ _ => True := by
    refine visit_place (persistNode_acts env s) fun a ha => ?_
    cases a <;> first | rfl | exact ha.elim
  exact hvisit.bind fun _ _ _ => .ret trivial

theorem rejectStage_place :
    Watched (Place.step topic) g (rejectStage env topic s) fun _ _ => True := by
  have hvisit : Watched (Place.step topic) g
      (step "reject_node" (makeRejectNode (.live σ) topic.errorMessages) s) fun _ _ => True := by
    refine visit_place (rejectNode_acts topic s) fun a ha => ?_
    cases a with
    | emit ev => exact if_neg fun h => absurd h.2 (by decide)
    | _ => exact ha.elim
  exact hvisit.bind fun _ _ _ => persistStage_place

/-- The attempt loop starts with a run of the adapter. -/
theorem adapterTrace_runs (topic : CompiledTopic) (n : PyStr) (adapter : DownstreamAdapter)
    (s : GraphState) :
    ∃ rest, (topic.adapterTrace n adapter s).1 = .run s true 1 :: rest := by
  have hone := one_le_maxAttempts (topic.adapterRetries.get? n)
  obtain ⟨left, hleft⟩ := Nat.exists_eq_add_of_le' hone
  rw [CompiledTopic.adapterTrace]
  generalize maxAttempts (topic.adapterRetries.get? n) = attempts at hleft
  rcases adapterTrace_cases (backoffMs (topic.adapterRetries.get? n)) left []
      (rfl : adapter.attemptTrace true attempts s 1 = _) with ⟨-, -, heq⟩ | ⟨-, tail, u, -, heq⟩
  · rw [hleft] at heq ⊢
    rw [heq]
    exact ⟨_, rfl⟩
  · rw [hleft] at heq ⊢
    rw [heq]
    exact ⟨_, rfl⟩

theorem adapterStage_place (routed : RoutedAdapter topic) :
    Watched (Place.step topic) g (adapterStage env topic routed s) fun _ _ => True := by
  have hmem : routed.node ∈ topic.adapters.keys := Dict.mem_keys_of_get? routed.isAdapter
  obtain ⟨rest, hrest⟩ := adapterTrace_runs topic routed.node routed.adapter s
  have hquiet : ∀ a ∈ rest,
      Place.step topic (.running routed.node) a = some (.running routed.node) := by
    intro a ha
    have hacts : a ∈ (topic.adapterTrace routed.node routed.adapter s).1 := by
      rw [hrest]
      exact List.mem_cons_of_mem _ ha
    rcases mem_adapterTrace hacts with ⟨ev, rfl⟩ | ⟨k, rfl⟩ | rfl
    · exact if_neg fun h => Bool.noConfusion h.2
    · rfl
    · rfl
  have hnode : Watched (Place.step topic) (.inside routed.node)
      (topicAdapterNode topic routed.node routed.adapter s : Prog σ Update) fun _ _ => True := by
    have hwatch : watch (Place.step topic) (.inside routed.node) (.run s true 1 :: rest)
        = some (.running routed.node) := by
      rw [watch_cons (if_pos hmem)]
      exact watch_quiet hquiet
    rw [topicAdapterNode_live, hrest]
    exact .play hwatch fun _ _ => trivial
  have hvisit : Watched (Place.step topic) g
      (visit langGraph routed.node (topicAdapterNode topic routed.node routed.adapter) s
        fun _ => (.ok () : Except Exn Unit)) fun _ _ => True :=
    visit_watched rfl hnode fun u g₂ b _ _ => ⟨g₂, rfl, trivial⟩
  exact hvisit.bind fun _ _ _ => persistStage_place

/-- An event of a node before the answer. -/
theorem deliver_front (g : Place) {ev : ChatEvent}
    (h : ev.type = .thinking ∨ ev.type = .progress) : g.deliver ev = some g := by
  refine g.deliver_of_not_shows fun hshows => ?_
  rcases h with h | h <;> rcases hshows with hshows | hshows <;> rw [h] at hshows <;> cases hshows

theorem answerStage_place :
    Watched (Place.step topic) g (answerStage env topic s) fun _ _ => True := by
  have henrich : Watched (Place.step topic) g
      (step "enrich_node" (makeEnrichNode (.live σ) topic.enrich) s) fun _ _ => True := by
    refine visit_place (enrichNode_acts topic s) fun a ha => ?_
    cases a <;> first | exact deliver_front _ ha | rfl | exact ha.elim
  refine henrich.bind fun p g₁ _ => ?_
  have hintent : Watched (Place.step topic) g₁
      (visit langGraph (py "intent_node") (topicIntentNode env topic topic.mapping) p.1
        (routeTarget topic)) fun _ _ => True := by
    refine visit_place (intentNode_acts env topic p.1 topic.mapping) fun a ha => ?_
    cases a <;> first | exact deliver_front _ ha | rfl | exact ha.elim
  exact hintent.bind fun q g₂ _ => adapterStage_place q.2

theorem pipeline_place : Watched (Place.step topic) g (pipeline env topic s) fun _ _ => True := by
  have hload : Watched (Place.step topic) g
      (step "load_session" (loadSessionNode env topic) s) fun _ _ => True := by
    refine visit_place (loadSessionNode_acts env topic s) fun a ha => ?_
    cases a <;> first | rfl | exact ha.elim
  refine hload.bind fun p g₁ _ => ?_
  have hauth : Watched (Place.step topic) g₁
      (visit langGraph (py "auth_node") (makeAuthNode (.live σ) topic.auth) p.1 authPassed)
      fun _ _ => True := by
    refine visit_place (authNode_acts topic p.1) fun a ha => ?_
    cases a <;> first | exact deliver_front _ ha | rfl | exact ha.elim
  refine hauth.bind fun q g₂ _ => ?_
  split
  · exact answerStage_place
  · exact rejectStage_place

end Stages

section Requests

variable {env : Env σ} {topics : TopicRegistry} {req : ChatRequest} {topic : CompiledTopic}
  {g : Place}

/-- What the relay yields may come from where the event came from. -/
theorem relay_place {errorMessages : Dict PyStr PyStr} (g : Place) (a : Act) (g' : Place)
    (out : List Act) (hstep : g.step topic a = some g') (h : relay errorMessages a = .ok out) :
    ∀ o ∈ out, g'.step topic o = some g' := by
  intro o ho
  obtain ⟨ev, data, rfl, -, -, rfl⟩ := relay_mem h ho
  obtain ⟨rfl, hdelivers⟩ := Place.deliver_eq hstep
  refine if_neg fun hboth => ?_
  have hshows : ev.shows := by
    have := hboth.1
    rwa [ChatEvent.shows] at this
  rw [hdelivers hshows] at hboth
  exact Bool.noConfusion hboth.2

/-- An event of the service itself. -/
theorem yield_place {ev : ChatEvent} (h : ¬ ev.shows) :
    Watched (Place.step topic) g (Eff.act (.yield ev) : Prog σ Unit) fun _ g' => g' = g :=
  .act (g.deliver_of_not_shows h)

theorem afterUser_place (messageId : PyStr) (r : Except Exn Unit) :
    Watched (Place.step topic) g (afterUser env topic req messageId r) fun _ _ => True := by
  have hyield : ∀ g ev, ¬ ev.shows →
      Watched (Place.step topic) g (Eff.act (.yield ev) : Prog σ Unit) fun _ _ => True :=
    fun g ev h => (yield_place h).mono fun _ _ _ => trivial
  cases r with
  | error e =>
      cases e with
      | sessionBizMismatch detail =>
          exact (hyield _ _ (by simp [ChatEvent.shows])).bind fun _ _ _ =>
            hyield _ _ (by simp [ChatEvent.shows])
      | _ => exact .raise
  | ok u =>
      cases hbuild : buildGraph env topic with
      | error e =>
          simp only [afterUser, hbuild]
          show Watched _ _ (Eff.raise e) _
          exact .raise
      | ok graph =>
          simp only [afterUser, hbuild]
          have hrelayed : Watched (Place.step topic) g
              (relayed env topic (initialState req messageId)) fun _ _ => True :=
            pipeline_place.consume_after relay_place env.grace
          have hloop : Watched (Place.step topic) g
              (chatLoop env topic req graph messageId) fun _ _ => True := by
            unfold chatLoop
            rw [graph_run_eq_pipeline hbuild]
            refine hrelayed.attempt.bind fun r g' _ => ?_
            cases r with
            | ok u => exact .ret trivial
            | error e =>
                show Watched _ _ (if e.isException then _ else _) _
                split
                · exact hyield _ _ (by simp [ChatEvent.shows])
                · exact .raise
          show Watched _ _ (chatLoop env topic req graph messageId >>= fun _ => Eff.act _) _
          exact hloop.bind fun _ _ _ => hyield _ _ (by simp [ChatEvent.shows])

/-- Every request is watched. -/
theorem handle_place (htopic : topics.get req.bizId = some topic) :
    Watched (Place.step topic) g (handle env topics req) fun _ _ => True := by
  cases hacc : topic.bizParamsModel.accepts req.bizParams with
  | false =>
      rw [handle_invalid htopic hacc]
      refine .quiet (.play fun a ha => ?_) fun _ _ _ => trivial
      simp only [List.mem_cons, List.not_mem_nil, or_false] at ha
      rcases ha with rfl | rfl <;> exact Place.deliver_of_not_shows _ (by simp [ChatEvent.shows])
  | true =>
      rw [handle_accepted htopic hacc]
      show Watched _ _ (newMessageId env >>= fun messageId => Eff.act _ >>= fun _ =>
        Eff.attempt (persistUserMessage env req) >>= afterUser env topic req messageId) _
      have hid : Watched (Place.step topic) g (newMessageId env) fun _ _ => True := by
        have hdraw : Watched (Place.step topic) g (Eff.draw env.newUlid : Prog σ PyStr)
            fun _ _ => True := .draw fun _ => trivial
        exact hdraw.bind fun _ _ _ => .ret trivial
      have huser : ∀ g, Watched (Place.step topic) g (persistUserMessage env req)
          fun _ _ => True := by
        intro g
        refine .quiet ((persistUserMessage_acts env req).mono fun a ha => ?_) fun _ _ _ => trivial
        cases a <;> first | rfl | exact ha.elim
      refine hid.bind fun messageId g₁ _ => ?_
      refine (yield_place (by simp [ChatEvent.shows])).bind fun _ g₂ _ => ?_
      exact (huser g₂).attempt.bind fun r g₃ _ => afterUser_place messageId r

end Requests

/-- No run of a topic without internal nodes runs one. -/
theorem runsNoInternal_of_outputs {cfg : TopicConfig}
    (h : ∀ node ∈ cfg.nodes, node.output = true) (acts : List Act) : RunsNoInternal cfg acts := by
  intro past s output attempt rest _ n _ hinternal
  rw [TopicFields.declaredOutput, Option.map_eq_some_iff] at hinternal
  obtain ⟨node, hnode, hfalse⟩ := hinternal
  rw [h node (List.mem_reverse.mp (List.mem_of_find?_eq_some hnode))] at hfalse
  cases hfalse

/-- For every topic a configuration compiles to and every run of a request for
    it: the run keeps to the declared output flags exactly when it runs no
    adapter of a node declared internal. -/
theorem internal_kept_iff {c : TopicCompiler} {cfg : TopicConfig} {envmap : Dict PyStr PyStr}
    {topic : CompiledTopic} (hcompile : c.compile cfg envmap = .ok topic) (env : Env σ)
    (topics : TopicRegistry) (req : ChatRequest) (htopic : topics.get req.bizId = some topic)
    (w : σ) :
    KeepsInternal cfg (handle env topics req w).trace ↔
      RunsNoInternal cfg (handle env topics req w).trace := by
  obtain ⟨-, -, hgraph, -⟩ := compile_fields hcompile
  obtain ⟨g, hwatch, -⟩ := (@handle_place σ env topics req topic .outside htopic) w
  exact keepsInternal_iff hgraph hwatch

-- ============================================================================
-- A node that declares itself internal
-- ============================================================================

/-- The registry with an adapter that answers with one delta. -/
def talkingCompiler : TopicCompiler where
  registry := { onePlugin with
    adapter := ⟨[(py "p", fun _ =>
      .ok (scripted [⟨[deltaEvent (py "a")], .ok ()⟩]))], by simp⟩ }
  createModel := fun _ => .ok ()

/-- Two labels; the node of `legal` declares the given flag. -/
def legalDeclares (output : Bool) : TopicFields :=
  { twoLabels (py "sales") [bothLabels] with
    nodes := [{ id := py "sales_api", adapter := py "p" },
      { id := py "legal_api", adapter := py "p", output := output }] }

def openLegal : TopicConfig where
  toTopicFields := legalDeclares true
  topicId_ne_nil := by decide
  valid := by decide

def internalLegal : TopicConfig where
  toTopicFields := legalDeclares false
  topicId_ne_nil := by decide
  valid := by decide

/-- A request in an environment where nothing fails. -/
def plainRun (topic : CompiledTopic) : Run Unit Exn Act Unit :=
  handle (plainEnv idleRepos fun w => (py "1", w)) (oneTopic topic) (aliceAsks (py "th")) ()

theorem internal_kept_iff_openLegal : ∃ topic,
    talkingCompiler.compile openLegal .empty = .ok topic ∧
      KeepsInternal openLegal (plainRun topic).trace := by
  have hcompile : talkingCompiler.compile openLegal .empty = .ok _ := rfl
  refine ⟨_, hcompile, (internal_kept_iff hcompile _ (oneTopic _) (aliceAsks (py "th")) rfl
    ()).mpr ?_⟩
  exact runsNoInternal_of_outputs (by decide) _

/-- An internal adapter that is run with output. -/
theorem not_keepsInternal_of_run {cfg : TopicConfig} {acts : List Act} (k : Nat) {s : GraphState}
    {attempt : Nat} {n : PyStr} (hrun : acts[k]? = some (.run s true attempt))
    (hnode : nodeOf (acts.take k) = some n) (hinternal : cfg.declaredOutput n = some false) :
    ¬ KeepsInternal cfg acts := by
  intro h
  obtain ⟨hk, hact⟩ := List.getElem?_eq_some_iff.mp hrun
  have hsplit : acts = acts.take k ++ .run s true attempt :: acts.drop (k + 1) := by
    rw [← hact, ← List.drop_eq_getElem_cons hk, List.take_append_drop]
  obtain ⟨n', hn', houtput⟩ := h.passed _ _ _ _ _ hsplit
  rw [hnode, Option.some.injEq] at hn'
  rw [← hn', hinternal] at houtput
  cases houtput

set_option maxRecDepth 20000 in
/-- The delta of the internal node is shown, and its adapter is run with output. -/
theorem internal_shown : ∃ topic,
    talkingCompiler.compile internalLegal .empty = .ok topic ∧
      word yieldedDelta (plainRun topic).trace = [.obj [(py "content", .str (py "a"))]] ∧
      word enteredNode (plainRun topic).trace =
        [py "load_session", py "auth_node", py "enrich_node", py "intent_node", py "legal_api",
          py "persist_node"] ∧
      internalLegal.declaredOutput (py "legal_api") = some false ∧
      ¬ KeepsInternal internalLegal (plainRun topic).trace := by
  have hcompile : talkingCompiler.compile internalLegal .empty = .ok _ := rfl
  exact ⟨_, hcompile, rfl, rfl, rfl, not_keepsInternal_of_run 33 rfl rfl rfl⟩

end MasterAgent
