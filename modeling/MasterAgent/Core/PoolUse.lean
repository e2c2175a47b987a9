/-
  MasterAgent.Core.PoolUse

  Requests on one pool of connections.

  A request takes a connection to store its question, to load its history and to
  store its answer, one after the other: it never waits for a connection while it
  has one, it calls the repositories only on a connection it has, and it gives
  back what it took however a call fails.  So requests that share a pool, of
  however few connections, do not wait for each other for ever.  Where the relay
  fails at an event, the graph is cancelled somewhere behind it; that its block then
  gives the connection back is not among the acts.
-/

import MasterAgent.Core.HistoryRace
import MasterAgent.Lib.SlotPool

namespace MasterAgent

open Effect StateGraph SlotPool

variable {σ α : Type}

/-- What a request has of the pool. -/
inductive Slot where
  | idle
  | held
  /-- The graph was cancelled on the connection, and the service ends the stream. -/
  | left
deriving DecidableEq

def Slot.step : Slot → Act → Option Slot
  | .idle, .acquire (.ok ()) => some .held
  | .idle, .release _ => none
  | .idle, a => if a.offline then some .idle else none
  | .held, .release _ => some .idle
  | .held, .yield _ => some .left
  | .held, a => if a.offline then none else some .held
  | .left, .yield _ => some .left
  | .left, _ => none

/-- Takes a connection from the pool. -/
def Act.takesConnection : Act → Bool
  | .acquire (.ok ()) => true
  | _ => false

/-- One connection a request at most. -/
def connections : Discipline Slot Act where
  step := Slot.step
  holds := fun g => g != .idle
  takes := Act.takesConnection
  takes_of_holds := by
    intro g t g' hstep hheld
    cases g with
    | idle =>
        unfold Slot.step at hstep
        split at hstep <;> simp_all [Act.takesConnection]
    | held => exact Or.inl rfl
    | left => exact Or.inl rfl
  takes_eq_false := by
    intro g t g' hstep hheld
    cases t with
    | acquire r => cases g <;> simp_all [Slot.step, Act.offline]
    | _ => rfl

-- ============================================================================
-- Blocks and nodes
-- ============================================================================

/-- The block takes a connection for its body and gives it back. -/
theorem withConn_steady {repos : Repos σ} {body : Prog σ α}
    (h : Steady Slot.step .held body) : Steady Slot.step .idle (repos.withConn body) := by
  intro w
  unfold Repos.withConn
  rw [Eff.bind_trace, watch_append]
  cases hacquire : (repos.acquire w).1 with
  | error e =>
      have htrace : (Eff.call repos.acquire Act.acquire w).trace = [.acquire (.error e)] := by
        rw [← hacquire]
        rfl
      have hresult : (Eff.call repos.acquire Act.acquire w).result = .error e := hacquire
      rw [htrace, hresult]
      rfl
  | ok u =>
      have htrace : (Eff.call repos.acquire Act.acquire w).trace = [.acquire (.ok ())] := by
        rw [← hacquire]
        rfl
      have hresult : (Eff.call repos.acquire Act.acquire w).result = .ok () := hacquire
      rw [htrace, hresult]
      show watch Slot.step .held ((Eff.attempt body >>= fun r =>
        Eff.call repos.release Act.release >>= fun _ => Eff.ofExcept r) _).trace = some .idle
      rw [Eff.bind_trace, watch_append, h.attempt, Option.bind_some, Eff.attempt_apply]
      show watch Slot.step .held ((Eff.call repos.release Act.release >>= fun _ =>
        Eff.ofExcept _ : Prog σ α) _).trace = some .idle
      rw [Eff.bind_trace, watch_append]
      show (some Slot.idle).bind _ = some Slot.idle
      rw [Option.bind_some]
      cases (Eff.call repos.release Act.release _).result with
      | error e => rfl
      | ok u => exact Steady.ofExcept _ _

/-- Neither calls a repository nor has to do with the pool. -/
def Act.unconnected : Act → Bool
  | .acquire _ => false
  | .release _ => false
  | a => a.offline

theorem Slot.step_unconnected {a : Act} (h : a.unconnected = true) :
    Slot.step .idle a = some .idle := by
  cases a <;> simp_all [Act.unconnected, Slot.step, Act.offline]

theorem steady_of_actsOnly {P : Act → Prop} {p : Prog σ α} (h : p.ActsOnly P)
    (hP : ∀ a, P a → a.unconnected = true) : Steady Slot.step .idle p :=
  .quiet (h.mono fun a ha => Slot.step_unconnected (hP a ha))

theorem steady_stageLogic : @StageLogic σ fun _ p => Steady Slot.step .idle p where
  bind := .bind
  ret := .ret
  enter := fun _ => .act rfl
  write := fun _ _ => .act rfl
  way := fun _ => .ofExcept _

section Request

variable {env : Env σ} {topic : CompiledTopic} {req : ChatRequest}

theorem loadSessionNode_steady (s : GraphState) :
    Steady Slot.step .idle (loadSessionNode env topic s) :=
  withConn_steady (.bind (.ofExcept _) fun _ => .bind (.call fun _ => rfl) fun _ =>
    .bind (.call fun _ => rfl) fun _ => .ret _)

theorem persistNode_steady (s : GraphState) : Steady Slot.step .idle (persistNode env s) :=
  withConn_steady (.bind (.ofExcept _) fun _ => .bind (.call fun _ => rfl) fun _ =>
    .bind (.call fun _ => rfl) fun _ => .ret _)

theorem persistUserMessage_steady : Steady Slot.step .idle (persistUserMessage env req) :=
  withConn_steady (.bind (.call fun _ => rfl) fun _ => .bind (.bind (.draw _) fun _ => .ret _)
    fun _ => .call fun _ => rfl)

theorem pipeline_steady (s : GraphState) : Steady Slot.step .idle (pipeline env topic s) := by
  apply steady_stageLogic.pipeline
  · exact loadSessionNode_steady
  · intro s
    apply steady_of_actsOnly (authNode_acts topic s)
    intro a ha
    cases a <;> first | rfl | exact ha.elim
  · intro s
    apply steady_of_actsOnly (rejectNode_acts topic s)
    intro a ha
    cases a <;> first | rfl | exact ha.elim
  · intro s
    apply steady_of_actsOnly (enrichNode_acts topic s)
    intro a ha
    cases a <;> first | rfl | exact ha.elim
  · intro s
    apply steady_of_actsOnly (intentNode_acts env topic s topic.mapping)
    intro a ha
    cases a <;> first | rfl | exact ha.elim
  · intro n adapter s
    apply steady_of_actsOnly (adapterNode_acts topic s n adapter)
    intro a ha
    cases a <;> first | rfl | exact ha.elim
  · exact persistNode_steady

/-- The relay of the service fails at one of the acts. -/
def RelayFails (errorMessages : Dict PyStr PyStr) (acts : List Act) : Prop :=
  ∃ a e, a ∈ acts ∧ relay errorMessages a = .error e

/-- The relay yields where no connection is held. -/
theorem relay_allowed {errorMessages : Dict PyStr PyStr} (g : Slot) (a : Act) (g' : Slot)
    (out : List Act) (hstep : Slot.step g a = some g') (hrelay : relay errorMessages a = .ok out) :
    ∀ o ∈ out, Slot.step g' o = some g' := by
  intro o ho
  obtain ⟨ev, data, rfl, -, -, rfl⟩ := relay_mem hrelay ho
  cases g with
  | idle =>
      obtain rfl : Slot.idle = g' := Option.some.inj hstep
      rfl
  | held => cases hstep
  | left => cases hstep

/-- The acts keep to one connection at a time, and it is given back unless the relay
    fails. -/
def KeepsSlot (errorMessages : Dict PyStr PyStr) (acts : List Act) : Prop :=
  ∃ g, watch Slot.step .idle acts = some g ∧ (g = .idle ∨ RelayFails errorMessages acts)

theorem KeepsSlot.behind {errorMessages : Dict PyStr PyStr} {acts before : List Act}
    (h : KeepsSlot errorMessages acts) (hbefore : watch Slot.step .idle before = some .idle) :
    KeepsSlot errorMessages (before ++ acts) := by
  obtain ⟨g, hg, hend⟩ := h
  refine ⟨g, by rw [watch_append, hbefore, Option.bind_some, hg], hend.imp_right ?_⟩
  rintro ⟨a, e, ha, he⟩
  exact ⟨a, e, List.mem_append_right _ ha, he⟩

/-- Events end a stream in every state. -/
theorem KeepsSlot.yields {errorMessages : Dict PyStr PyStr} {acts : List Act}
    (h : KeepsSlot errorMessages acts) (evs : List ChatEvent) :
    KeepsSlot errorMessages (acts ++ evs.map .yield) := by
  have hyield : ∀ (evs : List ChatEvent) g, ∃ g', watch Slot.step g (evs.map .yield) = some g' ∧
      (g = .idle → g' = .idle) := by
    intro evs
    induction evs with
    | nil => exact fun g => ⟨g, rfl, id⟩
    | cons ev evs ih =>
        intro g
        obtain ⟨g₁, hstep, hidle⟩ : ∃ g₁, Slot.step g (.yield ev) = some g₁ ∧
            (g = .idle → g₁ = .idle) := by
          cases g with
          | idle => exact ⟨.idle, rfl, id⟩
          | held => exact ⟨.left, rfl, nofun⟩
          | left => exact ⟨.left, rfl, nofun⟩
        obtain ⟨g', hrest, hidle'⟩ := ih g₁
        exact ⟨g', by rw [List.map_cons, watch_cons hstep, hrest], fun h => hidle' (hidle h)⟩
  obtain ⟨g, hg, hend⟩ := h
  obtain ⟨g', hg', hidle⟩ := hyield evs g
  refine ⟨g', by rw [watch_append, hg, Option.bind_some, hg'], ?_⟩
  rcases hend with hstart | ⟨a, e, ha, he⟩
  · exact Or.inl (hidle hstart)
  · exact Or.inr ⟨a, e, List.mem_append_left _ ha, he⟩

theorem keepsSlot_of_steady {p : Prog σ α} (h : Steady Slot.step .idle p)
    (errorMessages : Dict PyStr PyStr) (w : σ) : KeepsSlot errorMessages (p w).trace :=
  ⟨.idle, h w, Or.inl rfl⟩

theorem relayed_keepsSlot (s : GraphState) (w : σ) :
    KeepsSlot topic.errorMessages (relayed env topic s w).trace := by
  rcases (pipeline_steady s).consume relay_allowed env.grace w with hidle | ⟨g, a, e, hg, ha, he⟩
  · exact ⟨.idle, hidle, Or.inl rfl⟩
  · exact ⟨g, hg, Or.inr ⟨a, e, ha, he⟩⟩

/-- After the question the service relays the graph, and then only yields. -/
theorem afterUser_relayed {messageId : PyStr} {g : ChatGraph σ}
    (hbuild : buildGraph env topic = .ok g) (w : σ) :
    ∃ evs : List ChatEvent, (afterUser env topic req messageId (.ok ()) w).trace =
      (relayed env topic (initialState req messageId) w).trace ++ evs.map .yield := by
  cases hr : (relayed env topic (initialState req messageId) w).result with
  | ok u =>
      have hloop := @chatLoop_of_ok σ env topic req g messageId w hbuild hr
      refine ⟨[doneComplete messageId], ?_⟩
      rw [afterUser_ok hbuild (hloop ▸ hr), hloop, Run.trace, List.map_append]
      rfl
  | error e =>
      cases he : e.isException with
      | true =>
          have hloop := @chatLoop_of_error σ env topic req g messageId w hbuild e hr he
          have hres : (chatLoop env topic req g messageId w).result = .ok () := by rw [hloop]
          refine ⟨[internalError req topic, doneComplete messageId], ?_⟩
          rw [afterUser_ok hbuild hres, hloop, Run.trace, List.append_assoc, List.map_append]
          rfl
      | false =>
          rw [Exn.isException_eq_false.mp he] at hr
          have hloop := @chatLoop_of_cancelled σ env topic req g messageId w hbuild hr
          have hres : (chatLoop env topic req g messageId w).result = .error .cancelled := by
            rw [hloop]
          refine ⟨[], ?_⟩
          rw [afterUser_error hbuild hres, hloop, List.map_nil, List.append_nil]
          rfl

theorem afterUser_keepsSlot (messageId : PyStr) (r : Except Exn Unit) (w : σ) :
    KeepsSlot topic.errorMessages (afterUser env topic req messageId r w).trace := by
  cases r with
  | error e =>
      have hsteady : Steady Slot.step .idle (afterUser env topic req messageId (.error e)) := by
        cases e with
        | sessionBizMismatch detail => exact .bind (.act rfl) fun _ => .act rfl
        | _ => exact .raise _
      exact keepsSlot_of_steady hsteady _ w
  | ok u =>
      cases hbuild : buildGraph env topic with
      | error e =>
          simp only [afterUser, hbuild]
          exact keepsSlot_of_steady (Steady.raise e) _ w
      | ok g =>
          obtain ⟨evs, htrace⟩ := @afterUser_relayed σ env topic req messageId g hbuild w
          rw [htrace]
          exact (relayed_keepsSlot _ w).yields evs

end Request

/-- A request has one connection at a time, and gives back what it took unless the
    relay fails. -/
theorem handle_keepsSlot (env : Env σ) (topics : TopicRegistry) (req : ChatRequest) (w : σ) :
    watch Slot.step .idle (handle env topics req w).trace = some .idle ∨
      ∃ topic, topics.get req.bizId = some topic ∧
        KeepsSlot topic.errorMessages (handle env topics req w).trace := by
  cases htopic : topics.get req.bizId with
  | none =>
      rw [handle_unknown htopic]
      exact Or.inl rfl
  | some topic =>
      cases haccepts : topic.bizParamsModel.accepts req.bizParams with
      | false =>
          rw [handle_invalid htopic haccepts]
          exact Or.inl rfl
      | true =>
          refine Or.inr ⟨topic, rfl, ?_⟩
          rw [handle_accepted htopic haccepts, handleAccepted_run, Run.trace, Run.after,
            List.map_append]
          exact (afterUser_keepsSlot _ _ _).behind (persistUserMessage_steady _)

-- ============================================================================
-- Requests on one pool
-- ============================================================================

/-- A request with all that its plugins, repositories and connections answer. -/
structure Arrival where
  World : Type
  env : Env World
  req : ChatRequest
  world : World

/-- What the request does. -/
def Arrival.acts (topics : TopicRegistry) (r : Arrival) : List Act :=
  (handle r.env topics r.req r.world).trace

/-- Requests that have done nothing yet. -/
def arrived {ι : Type} (topics : TopicRegistry) (reqs : ι → Arrival) (i : ι) : Client Slot Act where
  state := .idle
  acts := (reqs i).acts topics

theorem arrived_disciplined {ι : Type} {topics : TopicRegistry} {reqs : ι → Arrival} :
    Disciplined connections (arrived topics reqs) := by
  intro i
  rcases handle_keepsSlot (reqs i).env topics (reqs i).req (reqs i).world with h | ⟨_, _, g, h, _⟩
  · exact ⟨_, h⟩
  · exact ⟨g, h⟩

theorem inUse_idle {ι : Type} [Fintype ι] {cs : ι → Client Slot Act}
    (h : ∀ i, (cs i).state = .idle) : inUse connections cs = 0 := by
  apply Finset.sum_eq_zero
  intro i _
  rw [Client.slots, h i]
  rfl

section Pool

variable {ι : Type} [Fintype ι] [DecidableEq ι]

/-- On a pool of any size and under every schedule: there are never more connections
    out than the pool has; while requests have acts left, one of them can go on; a run
    is no longer than the acts of all; and a request that is through has given its
    connection back, unless the relay failed in it. -/
theorem pool_serves_all (topics : TopicRegistry) (reqs : ι → Arrival) {capacity : Nat}
    (hcapacity : 0 < capacity) {sched : List (ι × (ι → Client Slot Act))}
    {cs : ι → Client Slot Act}
    (hrun : Path (SlotPool.Step connections capacity) (arrived topics reqs) sched cs) :
    inUse connections cs ≤ capacity ∧
      ((∃ i, (cs i).acts ≠ []) → ∃ i cs', SlotPool.Step connections capacity cs i cs') ∧
      remaining cs + sched.length = ∑ i, ((reqs i).acts topics).length ∧
      ∀ i, (cs i).acts = [] → (cs i).state = .idle ∨
        ∃ topic, topics.get (reqs i).req.bizId = some topic ∧
          RelayFails topic.errorMessages ((reqs i).acts topics) := by
  refine ⟨?_, ?_, ?_, fun i hthrough => ?_⟩
  · apply inUse_path _ hrun
    rw [inUse_idle fun _ => rfl]
    exact Nat.zero_le _
  · exact (arrived_disciplined.path hrun).exists_step hcapacity
  · exact (remaining_path hrun).symm
  · obtain ⟨done, hdone, hwatch⟩ := path_done hrun i
    rw [hthrough, List.append_nil] at hdone
    rw [← hdone] at hwatch
    rcases handle_keepsSlot (reqs i).env topics (reqs i).req (reqs i).world with
      hidle | ⟨topic, htopic, g, hg, hend⟩
    · exact Or.inl (Option.some.inj (hwatch.symm.trans hidle))
    · obtain rfl := Option.some.inj (hwatch.symm.trans hg)
      exact hend.imp_right fun hfails => ⟨topic, htopic, hfails⟩

end Pool

/-- Two requests in one thread. -/
def bothArrive (i : Bool) : Arrival where
  World := Db
  env := smallDeployment.env 0
  req := inThread i
  world := .initial

/-- The pool has one connection, and the first request has taken it. -/
theorem pool_serves_all_first : ∃ cs : Bool → Client Slot Act,
    (cs false).state = .held ∧ inUse connections cs ≤ 1 ∧
      ((∃ i, (cs i).acts ≠ []) → ∃ i cs', SlotPool.Step connections 1 cs i cs') ∧
      remaining cs + 2 = ∑ i, ((bothArrive i).acts (oneTopic oneDelta)).length := by
  obtain ⟨ev, rest, hacts⟩ : ∃ ev rest, (bothArrive false).acts (oneTopic oneDelta) =
      .yield ev :: .acquire (.ok ()) :: rest := ⟨_, _, rfl⟩
  have hannounced : SlotPool.Step connections 1 (arrived (oneTopic oneDelta) bothArrive) false
      (Function.update (arrived (oneTopic oneDelta) bothArrive) false
        ⟨.idle, .acquire (.ok ()) :: rest⟩) :=
    ⟨_, _, .idle, hacts, rfl, nofun, rfl⟩
  have hfree : inUse connections (Function.update (arrived (oneTopic oneDelta) bothArrive) false
      ⟨.idle, .acquire (.ok ()) :: rest⟩) = 0 :=
    inUse_idle fun i => by cases i <;> rfl
  have htaken : SlotPool.Step connections 1 (Function.update
      (arrived (oneTopic oneDelta) bothArrive) false ⟨.idle, .acquire (.ok ()) :: rest⟩) false _ :=
    ⟨_, _, .held, rfl, rfl, fun _ => by omega, rfl⟩
  have hrun : Path (SlotPool.Step connections 1) (arrived (oneTopic oneDelta) bothArrive)
      [(false, _), (false, _)] _ := ⟨hannounced, htaken, rfl⟩
  obtain ⟨hinUse, hgo, hlength, -⟩ :=
    pool_serves_all (oneTopic oneDelta) bothArrive (Nat.one_pos) hrun
  exact ⟨_, rfl, hinUse, hgo, hlength⟩

end MasterAgent
