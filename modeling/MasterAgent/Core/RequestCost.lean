/-
  MasterAgent.Core.RequestCost

  What a chat request may cost.  Whatever the clients, the plugins, the downstreams
  and the database do, a request takes three connections, makes six calls to the
  repositories, and authorises and enriches once; it classifies and runs an adapter
  as often as their retry policies allow, and sleeps between the attempts.
-/

import MasterAgent.Core.AnswerRecord
import MasterAgent.Core.AnswerStatus
import MasterAgent.Core.PoolUse
import MasterAgent.Lib.Costs
import Mathlib.Algebra.Order.Group.Nat

namespace MasterAgent

open Effect StateGraph

variable {σ α : Type}

/-- What the acts cost that wait for something outside the service. -/
structure Prices where
  acquire : Nat
  release : Nat
  getOrCreate : Nat
  append : Nat
  listRecent : Nat
  touch : Nat
  authorize : Nat
  enrich : Nat
  classify : Nat
  run : Nat
  /-- A millisecond of sleep. -/
  sleep : Nat

namespace Prices

variable (p : Prices)

/-- Events and the steps of the graph are free. -/
def of : Act → Nat
  | .acquire _ => p.acquire
  | .release _ => p.release
  | .getOrCreate _ _ _ _ => p.getOrCreate
  | .append _ _ => p.append
  | .listRecent _ _ _ => p.listRecent
  | .touch _ _ => p.touch
  | .authorize _ _ => p.authorize
  | .enrich _ _ => p.enrich
  | .classify _ _ _ => p.classify
  | .run _ _ _ => p.run
  | .sleep ms => ms * p.sleep
  | .emit _ => 0
  | .yield _ => 0
  | .enter _ => 0
  | .write _ _ => 0

/-- A connection taken and given back. -/
def connection : Nat := p.acquire + p.release

/-- `left` attempts at a call, with a sleep between any two. -/
def attempts (one backoffMs left : Nat) : Nat :=
  left * one + (left - 1) * (backoffMs * p.sleep)

/-- As many attempts as the policy allows. -/
def retried (one : Nat) (retry : Option RetryPolicy) : Nat :=
  p.attempts one (backoffMs retry) (maxAttempts retry)

/-- The adapter of the topic that may take most. -/
def slowestAdapter (topic : CompiledTopic) : Nat :=
  (topic.adapters.keys.map fun node => p.retried p.run (topic.adapterRetries.get? node)).foldr
    max 0

/-- A question answered under the topic. -/
def request (topic : CompiledTopic) : Nat :=
  3 * p.connection + 2 * p.getOrCreate + 2 * p.append + p.listRecent + p.touch +
    p.authorize + p.enrich + p.retried p.classify topic.intentRetry + p.slowestAdapter topic

/-- A question answered under the most patient of topics. -/
def most : Nat :=
  3 * p.connection + 2 * p.getOrCreate + 2 * p.append + p.listRecent + p.touch +
    p.authorize + p.enrich + 5 * p.classify + 5 * p.run + 8 * (30000 * p.sleep)

theorem attempts_succ (one backoffMs left : Nat) : one ≤ p.attempts one backoffMs (left + 1) := by
  unfold attempts
  have hone : (left + 1) * one = left * one + one := Nat.succ_mul left one
  omega

/-- One attempt, a sleep and the rest. -/
theorem attempts_retry (one backoffMs left : Nat) :
    one + (backoffMs * p.sleep + p.attempts one backoffMs (left + 1))
      = p.attempts one backoffMs (left + 2) := by
  unfold attempts
  have hone : (left + 2) * one = (left + 1) * one + one := Nat.succ_mul (left + 1) one
  have hwait : (left + 1) * (backoffMs * p.sleep)
      = left * (backoffMs * p.sleep) + backoffMs * p.sleep := Nat.succ_mul left _
  simp only [Nat.add_sub_cancel]
  show _ = _ + (left + 1) * _
  omega

/-- No policy allows more than five attempts, nor half a minute between two. -/
theorem retried_le (one : Nat) (retry : Option RetryPolicy) :
    p.retried one retry ≤ 5 * one + 4 * (30000 * p.sleep) := by
  cases retry with
  | none =>
      show 1 * one + 0 * _ ≤ _
      omega
  | some policy =>
      have hcount := Nat.mul_le_mul_right one policy.maxAttempts_le
      have hwait := Nat.mul_le_mul_right p.sleep policy.backoffMs_le
      have hless : policy.maxAttempts - 1 ≤ 4 := Nat.sub_le_of_le_add policy.maxAttempts_le
      exact Nat.add_le_add hcount (Nat.mul_le_mul hless hwait)

theorem le_slowestAdapter {topic : CompiledTopic} {node : PyStr}
    (h : node ∈ topic.adapters.keys) :
    p.retried p.run (topic.adapterRetries.get? node) ≤ p.slowestAdapter topic := by
  have hmax : ∀ ms : List Nat, ∀ m ∈ ms, m ≤ ms.foldr max 0 := by
    intro ms
    induction ms with
    | nil => exact fun m hm => (List.not_mem_nil hm).elim
    | cons n ms ih =>
        intro m hm
        rcases List.mem_cons.mp hm with rfl | hm
        · exact Nat.le_max_left _ _
        · exact (ih m hm).trans (Nat.le_max_right _ _)
  exact hmax _ _ (List.mem_map_of_mem h)

theorem slowestAdapter_le (topic : CompiledTopic) :
    p.slowestAdapter topic ≤ 5 * p.run + 4 * (30000 * p.sleep) := by
  unfold slowestAdapter
  induction topic.adapters.keys with
  | nil => exact Nat.zero_le _
  | cons n ns ih => exact max_le (p.retried_le _ _) ih

end Prices

-- ============================================================================
-- Node by node
-- ============================================================================

section Nodes

variable (p : Prices) (env : Env σ) (topic : CompiledTopic) (s : GraphState)

theorem withConn_cost {repos : Repos σ} {body : Prog σ α} {m : Nat}
    (h : body.CostsAtMost p.of m) : (repos.withConn body).CostsAtMost p.of (p.connection + m) := by
  have hblock : (repos.withConn body).CostsAtMost p.of (p.acquire + (m + (p.release + 0))) :=
    .bind (.call fun _ => rfl) fun _ => .bind h.attempt fun _ => .bind (.call fun _ => rfl)
      fun _ => .ofExcept _
  apply hblock.mono
  unfold Prices.connection
  omega

theorem persistUserMessage_cost (req : ChatRequest) :
    (persistUserMessage env req).CostsAtMost p.of
      (p.connection + (p.getOrCreate + p.append)) := by
  apply withConn_cost
  have hid : (newMessageId env).CostsAtMost p.of 0 := .bind (.draw _) fun _ => .ret _
  have hbody : (env.repos.callGetOrCreate req.threadId req.bizId req.w3Account >>= fun _ =>
      newMessageId env >>= fun messageId =>
        env.repos.callAppend (userMessage req messageId)).CostsAtMost p.of
      (p.getOrCreate + (0 + p.append)) :=
    .bind (.call fun _ => rfl) fun _ => .bind hid fun _ => .call fun _ => rfl
  rw [Nat.zero_add] at hbody
  exact hbody

theorem loadSessionNode_cost :
    (loadSessionNode env topic s).CostsAtMost p.of
      (p.connection + (0 + (p.getOrCreate + (p.listRecent + 0)))) :=
  withConn_cost p (.bind (.ofExcept _) fun _ => .bind (.call fun _ => rfl) fun _ =>
    .bind (.call fun _ => rfl) fun _ => .ret _)

theorem persistNode_cost :
    (persistNode env s).CostsAtMost p.of (p.connection + (0 + (p.append + (p.touch + 0)))) :=
  withConn_cost p (.bind (.ofExcept _) fun _ => .bind (.call fun _ => rfl) fun _ =>
    .bind (.call fun _ => rfl) fun _ => .ret _)

theorem authNode_cost :
    (makeAuthNode (NodeEnv.live σ) topic.auth s).CostsAtMost p.of p.authorize := by
  rw [makeAuthNode_live]
  cases topic.auth.authorize s with
  | error e => exact .play (show 0 + (p.authorize + 0) ≤ _ by omega)
  | ok result => exact .play (show 0 + (p.authorize + (0 + 0)) ≤ _ by omega)

theorem enrichNode_cost :
    (makeEnrichNode (NodeEnv.live σ) topic.enrich s).CostsAtMost p.of p.enrich := by
  rw [makeEnrichNode_live]
  cases topic.enrich.enrich s with
  | error e => exact .play (show 0 + (p.enrich + 0) ≤ _ by omega)
  | ok result => exact .play (show 0 + (p.enrich + (0 + 0)) ≤ _ by omega)

theorem rejectNode_cost :
    (makeRejectNode (NodeEnv.live σ) topic.errorMessages s).CostsAtMost p.of 0 := by
  rw [makeRejectNode_live]
  exact .play (Nat.le_refl 0)

end Nodes

-- ============================================================================
-- The attempts
-- ============================================================================

section Attempts

variable (p : Prices)

/-- The intent loop with the attempts `attempt, .., maxAttempts` before it. -/
theorem intentTrace_cost {repr : PyStr → PyStr} {plugin : IntentPlugin} {defaultRoute : PyStr}
    {labels : List PyStr} {maxAttempts backoffMs : Nat} {state : GraphState} {left attempt : Nat}
    (hleft : attempt + left = maxAttempts + 1) :
    bill p.of (intentTrace repr plugin defaultRoute labels maxAttempts backoffMs state left
      attempt).1 ≤ p.attempts p.classify backoffMs left := by
  induction left generalizing attempt with
  | zero => exact Nat.zero_le _
  | succ left ih =>
      have hone := p.attempts_succ p.classify backoffMs left
      cases hc : plugin.classify attempt state with
      | ok result =>
          simp only [intentTrace, hc, bill_cons, bill_nil]
          exact hone
      | error e =>
          cases he : e.isException with
          | false =>
              simp only [intentTrace, hc, he, Bool.false_eq_true, if_false, bill_cons, bill_nil]
              exact hone
          | true =>
              have hrest := @ih (attempt + 1) (by omega)
              simp only [intentTrace, hc, he, if_true, bill_cons, bill_append]
              cases left with
              | zero =>
                  have hlast : ¬ attempt < maxAttempts := by omega
                  rw [if_neg hlast]
                  exact hone
              | succ left =>
                  have hmore : attempt < maxAttempts := by omega
                  rw [if_pos hmore, bill_cons, bill_nil, ← p.attempts_retry]
                  exact Nat.add_le_add_left (Nat.add_le_add_left hrest _) _

/-- The attempt loop of an adapter node. -/
theorem adapterTrace_cost {adapter : DownstreamAdapter} {output : Bool}
    {maxAttempts backoffMs : Nat} {state : GraphState} {left attempt : Nat} {chunks : List Json}
    (hleft : attempt + left = maxAttempts + 1) :
    bill p.of (adapterTrace adapter output maxAttempts backoffMs state left attempt chunks).1
      ≤ p.attempts p.run backoffMs left := by
  induction left generalizing attempt chunks with
  | zero => exact Nat.zero_le _
  | succ left ih =>
      have hone := p.attempts_succ p.run backoffMs left
      have hacts : bill p.of (adapter.attemptActs output maxAttempts state attempt) = p.run := by
        have hfree : ∀ ev, p.of (.emit ev) = 0 := fun _ => rfl
        unfold DownstreamAdapter.attemptActs
        rw [bill_cons, bill_map_free hfree]
        rfl
      rcases adapterTrace_cases backoffMs left chunks
          (rfl : adapter.attemptTrace output maxAttempts state attempt = _) with
        ⟨-, hmore, heq⟩ | ⟨-, tail, u, htail, heq⟩
      · -- attempts remain
        obtain ⟨left, rfl⟩ : ∃ k, left = k + 1 := ⟨left - 1, by omega⟩
        rw [heq, bill_append, hacts, bill_cons, ← p.attempts_retry]
        exact Nat.add_le_add_left (Nat.add_le_add_left (ih (by omega)) _) _
      · have hlast : bill p.of tail = 0 := by
          generalize (adapter.attemptTrace output maxAttempts state attempt).exit = exit at htail
          cases htail <;> rfl
        rw [heq, bill_append, hacts, hlast]
        exact p.attempts_succ p.run backoffMs left

theorem intentNode_cost (env : Env σ) (topic : CompiledTopic) (s : GraphState) :
    (topicIntentNode env topic topic.mapping s).CostsAtMost p.of
      (p.retried p.classify topic.intentRetry) := by
  unfold topicIntentNode
  rw [makeIntentNode_live]
  apply Eff.CostsAtMost.play
  rw [bill_cons]
  show 0 + _ ≤ _
  rw [Nat.zero_add]
  exact intentTrace_cost p (Nat.add_comm 1 _)

theorem adapterNode_cost (topic : CompiledTopic) (routed : RoutedAdapter topic)
    (s : GraphState) :
    (topicAdapterNode topic routed.node routed.adapter s : Prog σ Update).CostsAtMost p.of
      (p.slowestAdapter topic) := by
  rw [topicAdapterNode_live]
  apply Eff.CostsAtMost.play
  have hone : bill p.of (topic.adapterTrace routed.node routed.adapter s).1
      ≤ p.retried p.run (topic.adapterRetries.get? routed.node) :=
    adapterTrace_cost p (Nat.add_comm 1 _)
  exact hone.trans (p.le_slowestAdapter (Dict.mem_keys_of_get? routed.isAdapter))

end Attempts

-- ============================================================================
-- A request
-- ============================================================================

section Request

variable (p : Prices) (env : Env σ) (topic : CompiledTopic) (s : GraphState)

/-- The graph's own steps are free. -/
theorem visit_cost {β : Type} {n : PyStr} {f : NodeFn σ}
    {next : GraphState → Except Exn β} {m : Nat} (h : (f s).CostsAtMost p.of m) :
    (visit langGraph n f s next).CostsAtMost p.of m := by
  have hvisit : (visit langGraph n f s next).CostsAtMost p.of (0 + (m + (0 + (0 + 0)))) :=
    .bind (.act rfl) fun _ => .bind h fun u => .bind (.ofExcept _) fun _ =>
      .bind (.act rfl) fun _ => .ret _
  exact hvisit.mono (Nat.le_of_eq (by omega))

theorem persistStage_cost :
    (persistStage env s).CostsAtMost p.of (p.connection + (p.append + p.touch)) := by
  have hstage : (persistStage env s).CostsAtMost p.of
      (p.connection + (0 + (p.append + (p.touch + 0))) + 0) :=
    .bind (visit_cost p s (persistNode_cost p env s)) fun _ => .ret _
  exact hstage.mono (Nat.le_of_eq (by omega))

theorem rejectStage_cost :
    (rejectStage env topic s).CostsAtMost p.of (0 + (p.connection + (p.append + p.touch))) :=
  .bind (visit_cost p s (rejectNode_cost p topic s)) fun _ => persistStage_cost p env _

/-- What follows the authorisation at most. -/
def Prices.answer (topic : CompiledTopic) : Nat :=
  p.enrich + (p.retried p.classify topic.intentRetry +
    (p.slowestAdapter topic + (p.connection + (p.append + p.touch))))

theorem answerStage_cost : (answerStage env topic s).CostsAtMost p.of (p.answer topic) :=
  .bind (visit_cost p s (enrichNode_cost p topic s)) fun _ =>
    .bind (visit_cost p _ (intentNode_cost p env topic _)) fun q =>
      .bind (visit_cost p _ (adapterNode_cost p topic q.2 _)) fun _ => persistStage_cost p env _

theorem authStage_cost :
    (authStage env topic s).CostsAtMost p.of (p.authorize + p.answer topic) := by
  apply Eff.CostsAtMost.bind (visit_cost p s (authNode_cost p topic s))
  intro q
  split
  · exact answerStage_cost p env topic _
  · apply (rejectStage_cost p env topic _).mono
    unfold Prices.answer
    omega

theorem pipeline_cost :
    (pipeline env topic s).CostsAtMost p.of
      (p.connection + (p.getOrCreate + p.listRecent) + (p.authorize + p.answer topic)) := by
  have hpipeline : (pipeline env topic s).CostsAtMost p.of
      (p.connection + (0 + (p.getOrCreate + (p.listRecent + 0))) +
        (p.authorize + p.answer topic)) :=
    .bind (visit_cost p s (loadSessionNode_cost p env topic s)) fun _ =>
      authStage_cost p env topic _
  exact hpipeline.mono (Nat.le_of_eq (by omega))

/-- Only events are yielded at an act of the graph. -/
theorem relay_free {errorMessages : Dict PyStr PyStr} (a : Act) (out : List Act)
    (h : relay errorMessages a = .ok out) : ∀ o ∈ out, p.of o = 0 := by
  intro o ho
  obtain ⟨ev, rfl⟩ := (relay_yields h).1 o ho
  rfl

theorem afterUser_cost (req : ChatRequest) (messageId : PyStr) (r : Except Exn Unit) :
    (afterUser env topic req messageId r).CostsAtMost p.of
      (p.connection + (p.getOrCreate + p.listRecent) + (p.authorize + p.answer topic)) := by
  have hfree : ∀ {q : Prog σ Unit}, q.CostsAtMost p.of 0 → q.CostsAtMost p.of
      (p.connection + (p.getOrCreate + p.listRecent) + (p.authorize + p.answer topic)) :=
    fun h => h.mono (Nat.zero_le _)
  cases r with
  | error e =>
      cases e with
      | sessionBizMismatch detail =>
          have hends : (afterUser env topic req messageId
              (.error (.sessionBizMismatch detail))).CostsAtMost p.of (0 + 0) :=
            .bind (.act rfl) fun _ => .act rfl
          exact hfree hends
      | _ => exact hfree (.raise _)
  | ok u =>
      cases hbuild : buildGraph env topic with
      | error e =>
          simp only [afterUser, hbuild]
          exact hfree (.raise e)
      | ok graph =>
          intro w
          obtain ⟨evs, htrace⟩ := @afterUser_relayed σ env topic req messageId graph hbuild w
          have hfree : ∀ ev, p.of (.yield ev) = 0 := fun _ => rfl
          rw [htrace, bill_append, bill_map_free hfree, Nat.add_zero]
          exact (pipeline_cost p env topic _).consume (relay_free p) env.grace w

end Request

/-- What a request costs is what its topic allows for, if it is accepted. -/
theorem handle_cost (p : Prices) (env : Env σ) (topics : TopicRegistry) (req : ChatRequest) :
    (handle env topics req).CostsAtMost p.of ((topics.get req.bizId).elim 0 p.request) := by
  intro w
  cases htopic : topics.get req.bizId with
  | none =>
      rw [handle_unknown htopic]
      exact Nat.le_refl 0
  | some topic =>
      cases haccepts : topic.bizParamsModel.accepts req.bizParams with
      | false =>
          rw [handle_invalid htopic haccepts]
          exact Nat.zero_le _
      | true =>
          have hasked := persistUserMessage_cost p env req (afterAssistantId env w)
          have hafter := afterUser_cost p env topic req (assistantId env w)
            (persistUserMessage env req (afterAssistantId env w)).result
            (afterUserMessage env req w)
          rw [handle_accepted_trace htopic haccepts, List.cons_append, bill_cons, bill_append]
          show 0 + _ ≤ p.request topic
          unfold Prices.request
          unfold Prices.answer at hafter
          omega

/-- No topic allows for more. -/
theorem Prices.request_le (p : Prices) (topic : CompiledTopic) : p.request topic ≤ p.most := by
  have hclassify := p.retried_le p.classify topic.intentRetry
  have hrun := p.slowestAdapter_le topic
  unfold request most
  omega

-- ============================================================================
-- The most a request costs
-- ============================================================================

/-- The longest of the retry policies. -/
def longestRetry : RetryPolicy := ⟨5, 30000, by omega, by omega, by omega⟩

/-- A topic whose model and whose downstream fail as often as they are asked. -/
def downTopic : CompiledTopic :=
  { probeTopic .empty (onlyRetry (some longestRetry)) ⟨fun _ _ _ => ⟨[], .error .dbError⟩⟩ with
    intent := ⟨fun _ _ => .error .dbError⟩
    intentRetry := some longestRetry }

/-- A question to it. -/
def downRun : Run Unit Exn Act Unit :=
  handle probeEnv (oneTopic downTopic) (aliceAsks (py "th")) ()

set_option maxRecDepth 20000 in
theorem downRun_prices (p : Prices) : downRun.trace.map p.of =
    [0, p.acquire, p.getOrCreate, p.append, p.release, 0, p.acquire, p.getOrCreate,
      p.listRecent, p.release, 0, 0, 0, 0, p.authorize, 0, 0, 0, 0, 0, 0, p.enrich, 0, 0, 0, 0,
      0, 0, p.classify, 30000 * p.sleep, p.classify, 30000 * p.sleep, p.classify,
      30000 * p.sleep, p.classify, 30000 * p.sleep, p.classify, 0, 0, 0, 0, p.run,
      30000 * p.sleep, p.run, 30000 * p.sleep, p.run, 30000 * p.sleep, p.run, 30000 * p.sleep,
      p.run, 0, 0, 0, 0, p.acquire, p.append, p.touch, p.release, 0, 0] := rfl

theorem downRun_cost (p : Prices) : bill p.of downRun.trace = p.most := by
  rw [bill, downRun_prices]
  simp only [List.sum_cons, List.sum_nil, Prices.most, Prices.connection]
  omega

/-- What requests cost, over all deployments, topics, questions and ways they go. -/
def Prices.costs (p : Prices) : Set Nat :=
  {n | ∃ (σ : Type) (env : Env σ) (topics : TopicRegistry) (req : ChatRequest) (w : σ),
    bill p.of (handle env topics req w).trace = n}

/-- **What a request costs.**  Whatever the plugins, the downstreams and the database
    answer, and however many of the calls fail, a request costs at most what its topic
    allows for; and no request costs more than the one whose model and whose downstream
    fail at each of five attempts. -/
theorem request_cost_bounded (p : Prices) :
    (∀ (σ : Type) (env : Env σ) (topics : TopicRegistry) (req : ChatRequest) (w : σ),
      bill p.of (handle env topics req w).trace ≤ (topics.get req.bizId).elim 0 p.request) ∧
      IsGreatest p.costs p.most := by
  constructor
  · intro σ env topics req
    exact handle_cost p env topics req
  · constructor
    · exact ⟨Unit, probeEnv, oneTopic downTopic, aliceAsks (py "th"), (), downRun_cost p⟩
    · rintro n ⟨σ, env, topics, req, w, rfl⟩
      have hcost := handle_cost p env topics req w
      cases htopic : topics.get req.bizId with
      | none =>
          rw [htopic] at hcost
          exact hcost.trans (Nat.zero_le _)
      | some topic =>
          rw [htopic] at hcost
          exact hcost.trans (p.request_le topic)

end MasterAgent
