/-
  MasterAgent.Core.StreamEnds

  Does every stream end with done?  Only part of `handle` runs under its
  `except Exception`: the repository calls that store the user message are
  covered by `except SessionBizMismatchError` alone, and `_build_graph` by
  nothing.  So the stream ends with done exactly when nothing else leaves those.
-/

import MasterAgent.Core.StreamGrammar

namespace MasterAgent

open Effect

variable {σ : Type}

/-- done is the last event, and no other event is done. -/
def DoneLast (v : List Sym) : Prop := ∃ u, v = u ++ [.done] ∧ Sym.done ∉ u

theorem streamWords_doneLast {v : List Sym} (hv : v ∈ streamWords) : DoneLast v := by
  rcases hv with ((rfl | rfl) | rfl) | hv
  · exact ⟨[errorOf "TOPIC_NOT_FOUND"], rfl, by simp [errorOf]⟩
  · exact ⟨[errorOf "BAD_REQUEST"], rfl, by simp [errorOf]⟩
  · exact ⟨[.meta, errorOf "BAD_REQUEST"], rfl, by simp [errorOf]⟩
  · obtain ⟨u, hu, d, rfl, rfl⟩ := Language.mem_mul.mp hv
    obtain ⟨m, rfl, l, hl, rfl⟩ := Language.mem_mul.mp hu
    refine ⟨_, rfl, fun hmem => ?_⟩
    rcases List.mem_append.mp hmem with h | h
    · simp at h
    · exact ((loopWords_ordered hl).2 _ h).2 rfl

-- ============================================================================
-- The calls that store the user message
-- ============================================================================

/-- What the two calls on the connection answer, and the world they leave: the
    second one is made if the first returns. -/
def userCalls (env : Env σ) (req : ChatRequest) (w : σ) : Except Exn Unit × σ :=
  match env.repos.getOrCreate req.threadId req.bizId req.w3Account w with
  | (.error e, w') => (.error e, w')
  | (.ok _, w') =>
      env.repos.append (userMessage req (py "msg_" ++ (env.newUlid w').1)) (env.newUlid w').2

/-- `e` leaves the block that stores the user message: the connection could not
    be acquired, or not released, or a call on it raised. -/
inductive UserStepRaises (env : Env σ) (req : ChatRequest) (w : σ) (e : Exn) : Prop where
  | acquire (h : (env.repos.acquire w).1 = .error e)
  | release (hacquire : (env.repos.acquire w).1 = .ok ())
      (h : (env.repos.release (userCalls env req (env.repos.acquire w).2).2).1 = .error e)
  | call (hacquire : (env.repos.acquire w).1 = .ok ())
      (h : (userCalls env req (env.repos.acquire w).2).1 = .error e)
      (hrelease : (env.repos.release (userCalls env req (env.repos.acquire w).2).2).1 = .ok ())

/-- The body of the block is its two calls. -/
theorem persistUserMessage_body (env : Env σ) (req : ChatRequest) (w : σ) :
    let body : Prog σ Unit := do
      let _ ← env.repos.callGetOrCreate req.threadId req.bizId req.w3Account
      let messageId ← newMessageId env
      env.repos.callAppend (userMessage req messageId)
    (body w).result = (userCalls env req w).1 ∧ (body w).world = (userCalls env req w).2 := by
  simp only [Eff.bind_apply, Repos.callGetOrCreate, Repos.callAppend, Eff.call, newMessageId,
    Eff.draw, userCalls]
  rcases hcall : env.repos.getOrCreate req.threadId req.bizId req.w3Account w with ⟨_ | s, w'⟩
  · exact ⟨rfl, rfl⟩
  · exact ⟨rfl, rfl⟩

theorem persistUserMessage_raises {env : Env σ} {req : ChatRequest} {w : σ} {e : Exn} :
    (persistUserMessage env req w).result = .error e ↔ UserStepRaises env req w e := by
  obtain ⟨hres, hworld⟩ := persistUserMessage_body env req (env.repos.acquire w).2
  rw [persistUserMessage, Repos.withConn_result, hres, hworld]
  constructor
  · intro h
    cases hacq : (env.repos.acquire w).1 with
    | error e' =>
        rw [hacq] at h
        exact .acquire (hacq.trans h)
    | ok u =>
        rw [hacq] at h
        cases hrel : (env.repos.release (userCalls env req (env.repos.acquire w).2).2).1 with
        | error e' =>
            rw [hrel] at h
            exact .release hacq (hrel.trans h)
        | ok u' =>
            rw [hrel] at h
            exact .call hacq h hrel
  · rintro (hacq | ⟨hacq, hrel⟩ | ⟨hacq, hcall, hrel⟩)
    · rw [hacq]
    · rw [hacq, hrel]
    · rw [hacq, hrel, hcall]

-- ============================================================================
-- When the stream ends with done
-- ============================================================================

/-- For an accepted request, nothing but a biz_id mismatch leaves the calls that
    store the user message, and if nothing leaves them the engine compiles the
    graph of the topic. -/
def StoresAndBuilds (env : Env σ) (topics : TopicRegistry) (req : ChatRequest) (w : σ) :
    Prop :=
  ∀ topic, topics.get req.bizId = some topic →
    topic.bizParamsModel.accepts req.bizParams = true →
    (∀ e, UserStepRaises env req (afterAssistantId env w) e →
      ∃ detail, e = .sessionBizMismatch detail) ∧
    ((∀ e, ¬ UserStepRaises env req (afterAssistantId env w) e) →
      env.engine.compiles (graphDecl env topic topic.mapping) = true)

/-- For every request, registry and environment that cancels nothing: `handle`
    returns and yields exactly one done, the last event, if and only if the
    request is not accepted, or nothing but a biz_id mismatch leaves the calls
    that store the user message and the graph compiles. -/
theorem handle_ends_with_done_iff (env : Env σ) (topics : TopicRegistry) (req : ChatRequest)
    (w : σ) (hrepos : env.repos.Uncancelled)
    (htopic : ∀ topic, topics.get req.bizId = some topic → topic.Uncancelled) :
    ((handle env topics req w).result = .ok () ∧
        DoneLast (word yieldSym (handle env topics req w).trace)) ↔
      StoresAndBuilds env topics req w := by
  constructor
  · rintro ⟨hresult, -⟩ topic ht hacc
    rw [handle_accepted ht hacc, handleAccepted_run] at hresult
    refine ⟨fun e he => ?_, fun hnone => ?_⟩
    · -- any other exception leaves `handle`
      rw [persistUserMessage_raises.mpr he] at hresult
      cases e with
      | sessionBizMismatch detail => exact ⟨detail, rfl⟩
      | _ => cases hresult
    · cases hu : (persistUserMessage env req (afterAssistantId env w)).result with
      | error e => exact absurd (persistUserMessage_raises.mp hu) (hnone e)
      | ok u =>
          by_contra hcompiles
          have hbuild : buildGraph env topic = .error .valueError := by
            rw [buildGraph_eq, if_neg hcompiles]
          rw [hu] at hresult
          simp only [afterUser, hbuild] at hresult
          cases hresult
  · intro h
    obtain ⟨hresult, hword⟩ := handle_words hrepos htopic fun topic ht hacc => by
      obtain ⟨hraise, hcompiles⟩ := h topic ht hacc
      cases hu : (persistUserMessage env req (afterAssistantId env w)).result with
      | error e =>
          obtain ⟨detail, rfl⟩ := hraise e (persistUserMessage_raises.mp hu)
          exact Or.inr ⟨detail, rfl⟩
      | ok u =>
          have hnone : ∀ e, ¬ UserStepRaises env req (afterAssistantId env w) e := by
            intro e he
            rw [persistUserMessage_raises.mpr he] at hu
            cases hu
          exact Or.inl ⟨rfl, _, (buildGraph_eq env topic).trans (if_pos (hcompiles hnone))⟩
    exact ⟨hresult, streamWords_doneLast hword⟩

/-- A request answered with one delta ends with done. -/
theorem handle_ends_with_done_one_delta :
    let env := plainEnv idleRepos fun w => (py "1", w)
    let topic := smallTopic openAuth plainEnrich
      (scripted [⟨[deltaEvent (py "a")], .ok ()⟩])
    (handle env (oneTopic topic) (aliceAsks (py "th")) ()).result = .ok () ∧
      DoneLast (word yieldSym (handle env (oneTopic topic) (aliceAsks (py "th")) ()).trace) := by
  intro env topic
  have hunc : topic.Uncancelled :=
    smallTopic_uncancelled (fun _ => notCancelled_ok _) (fun _ => notCancelled_ok _)
  refine (handle_ends_with_done_iff env (oneTopic topic) (aliceAsks (py "th")) ()
    idleRepos_uncancelled ?_).mpr ?_
  · intro t ht
    cases ht
    exact hunc
  · intro t ht _
    cases ht
    refine ⟨fun e he => ?_, fun _ => ?_⟩
    · rcases he with h | ⟨-, h⟩ | ⟨-, h, -⟩ <;> cases h
    · refine StateGraph.Engine.lenient_compiles.mpr ?_
      simp [topic, graphDecl, StateGraph.Decl.names, smallTopic, graphStateKeys]

/-- Repositories whose INSERT of a message fails. -/
def failingRepos : Repos Unit := { idleRepos with append := fun _ w => (.error .dbError, w) }

/-- The user message cannot be stored: the database error leaves `handle` after
    the meta event, and there is no done. -/
theorem handle_raises_without_done :
    let env := plainEnv failingRepos fun w => (py "1", w)
    let topic := smallTopic openAuth plainEnrich (scripted [])
    let run := handle env (oneTopic topic) (aliceAsks (py "th")) ()
    run.result = .error .dbError ∧ word yieldSym run.trace = [.meta] ∧
      ¬ DoneLast (word yieldSym run.trace) := by
  intro env topic run
  have hword : word yieldSym run.trace = [.meta] := rfl
  refine ⟨rfl, hword, ?_⟩
  rw [hword]
  rintro ⟨u, hu, -⟩
  have hlast := congrArg List.getLast? hu
  simp at hlast

end MasterAgent
