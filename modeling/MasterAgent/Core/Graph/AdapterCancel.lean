/-
  MasterAgent.Core.Graph.AdapterCancel

  A cancellation can arrive at every await of the adapter node: while it waits
  for the adapter's next event, while it dispatches one, or in the backoff
  sleep.  The first two lie in the `try` of the attempt loop, and what was
  collected is returned.  The sleeps and the dispatch of the error after the
  last retry do not, and there the chunks are lost.

  In `interruptible` a counter says how many awaits of the node still go well;
  a cancellation inside the adapter is an attempt that ends in one.
-/

import MasterAgent.Core.Graph.AdapterDiscipline
import MasterAgent.Core.Graph.Builtins

namespace MasterAgent

open Effect

-- ============================================================================
-- Awaits
-- ============================================================================

/-- Where the node awaits. -/
inductive AwaitSite where
  /-- In `adapter.run`. -/
  | adapter
  /-- In the dispatch of an event of the adapter. -/
  | dispatch
  /-- In the sleep between two attempts. -/
  | backoff
  /-- In the dispatch of the error after the last retry. -/
  | exhausted
deriving DecidableEq

/-- Does the `try` around the attempt cover the site? -/
def AwaitSite.inTry : AwaitSite → Bool
  | .adapter => true
  | .dispatch => true
  | .backoff => false
  | .exhausted => false

/-- A cancellation is raised at the await after `n` that went well. -/
def interruptible : NodeEnv Nat where
  emit := fun ev n => match n with
    | 0 => ⟨.error .cancelled, 0, []⟩
    | n + 1 => ⟨.ok (), n, [(.emit ev, n)]⟩
  sleep := fun ms n => match n with
    | 0 => ⟨.error .cancelled, 0, []⟩
    | n + 1 => ⟨.ok (), n, [(.sleep ms, n)]⟩

/-- The chunks collected at each dispatch of an attempt. -/
def dispatchChunks (output canRetry : Bool) : List ChatEvent → (chunks : List Json) →
    List (List Json)
  | [], _ => []
  | ev :: events, chunks => match ev.type with
      | .delta => match ev.data.getItem (py "content") with
          | .error _ => []
          | .ok content =>
              (if output then [chunks ++ [content]] else []) ++
                dispatchChunks output canRetry events (chunks ++ [content])
      | .tool =>
          (if output then [chunks] else []) ++ dispatchChunks output canRetry events chunks
      | .error => match ev.data.getD (py "retryable") (.bool false) with
          | .error _ => []
          | .ok retryable => if retryable.truthy && canRetry then [] else [chunks]
      | _ => dispatchChunks output canRetry events chunks

/-- The awaits of the node's own, from an attempt on, with the chunks collected
    when they are reached. -/
def nodeAwaits (adapter : DownstreamAdapter) (output : Bool) (maxAttempts : Nat)
    (state : GraphState) : (left attempt : Nat) → (chunks : List Json) →
    List (AwaitSite × List Json)
  | 0, _, _ => []
  | left + 1, attempt, chunks =>
      let t := adapter.attemptTrace output maxAttempts state attempt
      let retry := (.backoff, chunks ++ t.chunks) ::
        nodeAwaits adapter output maxAttempts state left (attempt + 1) (chunks ++ t.chunks)
      (dispatchChunks output (decide (attempt < maxAttempts))
          (adapter.run attempt state output).events chunks).map (fun cs => (.dispatch, cs)) ++
        match t.exit with
        | .finished => []
        | .errorShown => []
        | .retryable _ => retry
        | .raised e =>
            if e.isException then
              if attempt < maxAttempts then retry else [(.exhausted, chunks ++ t.chunks)]
            else []

/-- What the node comes to when it is cancelled at an await of its own. -/
def awaitOutcome : AwaitSite × List Json → Except Exn Update
  | (site, chunks) =>
      if site.inTry then .ok { answerChunks := chunks, streamCancelled := some true }
      else .error .cancelled

-- ============================================================================
-- One attempt
-- ============================================================================

section Attempt

variable {output : Bool} {maxAttempts attempt : Nat} {ending : Except Exn Unit}

section Emit

variable {α : Type} (ev : ChatEvent) (f : Except Exn Unit → Prog Nat α) (n : Nat)

theorem interrupted_emit_result :
    ((Eff.attempt (interruptible.emit ev) >>= f) 0).result = (f (.error .cancelled) 0).result :=
  rfl

theorem live_emit_result :
    ((Eff.attempt (interruptible.emit ev) >>= f) (n + 1)).result = (f (.ok ()) n).result := rfl

theorem live_emit_world :
    ((Eff.attempt (interruptible.emit ev) >>= f) (n + 1)).world = (f (.ok ()) n).world := rfl

/-- A dispatch that may be the one that is cancelled, and what comes after it. -/
theorem emit_interrupted {f : Except Exn Unit → Prog Nat (List Json × AttemptExit)}
    {chunks cs : List Json} {rest : List (List Json)} {n : Nat}
    (h : (chunks :: rest)[n]? = some cs)
    (hcancelled : (f (.error .cancelled) 0).result = .ok (chunks, .raised .cancelled))
    (hrest : ∀ m, rest[m]? = some cs →
      (f (.ok ()) m).result = .ok (cs, .raised .cancelled)) :
    ((Eff.attempt (interruptible.emit ev) >>= f) n).result = .ok (cs, .raised .cancelled) := by
  cases n with
  | zero =>
      rw [List.getElem?_cons_zero, Option.some.injEq] at h
      rw [interrupted_emit_result, hcancelled, h]
  | succ n =>
      rw [List.getElem?_cons_succ] at h
      rw [live_emit_result]
      exact hrest n h

end Emit

/-- An attempt in which a dispatch is cancelled is left with what was collected. -/
theorem adapterEvents_interrupted {events : List ChatEvent} {chunks cs : List Json} {n : Nat}
    (h : (dispatchChunks output (decide (attempt < maxAttempts)) events chunks)[n]? = some cs) :
    (adapterEvents interruptible output maxAttempts attempt ending events chunks n).result
      = .ok (cs, .raised .cancelled) := by
  induction events generalizing chunks n with
  | nil => simp [dispatchChunks] at h
  | cons ev events ih =>
      cases htype : ev.type with
      | delta =>
          cases hc : ev.data.getItem (py "content") with
          | error e => simp [dispatchChunks, htype, hc] at h
          | ok content =>
              cases output with
              | false =>
                  simp only [dispatchChunks, htype, hc, Bool.false_eq_true, if_false,
                    List.nil_append] at h
                  simp only [adapterEvents, htype, hc, Bool.false_eq_true, if_false]
                  exact ih h
              | true =>
                  simp only [dispatchChunks, htype, hc, if_true, List.singleton_append] at h
                  simp only [adapterEvents, htype, hc, if_true]
                  exact emit_interrupted _ h rfl fun m hm => ih hm
      | tool =>
          cases output with
          | false =>
              simp only [dispatchChunks, htype, Bool.false_eq_true, if_false,
                List.nil_append] at h
              simp only [adapterEvents, htype, Bool.false_eq_true, if_false]
              exact ih h
          | true =>
              simp only [dispatchChunks, htype, if_true, List.singleton_append] at h
              simp only [adapterEvents, htype, if_true]
              exact emit_interrupted _ h rfl fun m hm => ih hm
      | error =>
          cases hr : ev.data.getD (py "retryable") (.bool false) with
          | error e => simp [dispatchChunks, htype, hr] at h
          | ok retryable =>
              cases hretry : retryable.truthy && decide (attempt < maxAttempts) with
              | true => simp [dispatchChunks, htype, hr, hretry] at h
              | false =>
                  simp only [dispatchChunks, htype, hr, hretry, Bool.false_eq_true,
                    if_false] at h
                  simp only [adapterEvents, htype, hr, hretry, Bool.false_eq_true, if_false]
                  exact emit_interrupted _ h rfl fun m hm => by simp at hm
      | _ =>
          simp only [dispatchChunks, htype] at h
          simp only [adapterEvents, htype]
          exact ih h

/-- An attempt whose dispatches all go well. -/
theorem adapterEvents_uninterrupted {events : List ChatEvent} {chunks : List Json} {n m : Nat}
    (h : n = (dispatchChunks output (decide (attempt < maxAttempts)) events chunks).length + m) :
    (adapterEvents interruptible output maxAttempts attempt ending events chunks n).result
        = .ok (chunks ++
            (attemptTrace output (decide (attempt < maxAttempts)) ending events).chunks,
          (attemptTrace output (decide (attempt < maxAttempts)) ending events).exit) ∧
      (adapterEvents interruptible output maxAttempts attempt ending events chunks n).world
        = m := by
  induction events generalizing chunks n with
  | nil =>
      have hn : n = m := by simpa [dispatchChunks] using h
      cases ending <;> simp [adapterEvents, attemptTrace, hn]
  | cons ev events ih =>
      cases htype : ev.type with
      | delta =>
          cases hc : ev.data.getItem (py "content") with
          | error e =>
              have hn : n = m := by simpa [dispatchChunks, htype, hc] using h
              simp [adapterEvents, attemptTrace, htype, hc, hn]
          | ok content =>
              cases output with
              | false =>
                  simp only [dispatchChunks, htype, hc, Bool.false_eq_true, if_false,
                    List.nil_append] at h
                  have hrest := ih h
                  simp only [adapterEvents, attemptTrace, htype, hc, Bool.false_eq_true, if_false]
                  simpa [AttemptTrace.prepend] using hrest
              | true =>
                  simp only [dispatchChunks, htype, hc, if_true, List.singleton_append,
                    List.length_cons] at h
                  obtain ⟨n, rfl⟩ : ∃ n', n = n' + 1 := ⟨n - 1, by omega⟩
                  have hrest := @ih (chunks ++ [content]) n (by omega)
                  simp only [adapterEvents, attemptTrace, htype, hc, if_true]
                  rw [live_emit_result, live_emit_world]
                  simpa [AttemptTrace.prepend] using hrest
      | tool =>
          cases output with
          | false =>
              simp only [dispatchChunks, htype, Bool.false_eq_true, if_false,
                List.nil_append] at h
              have hrest := ih h
              simp only [adapterEvents, attemptTrace, htype, Bool.false_eq_true, if_false]
              simpa [AttemptTrace.prepend] using hrest
          | true =>
              simp only [dispatchChunks, htype, if_true, List.singleton_append,
                List.length_cons] at h
              obtain ⟨n, rfl⟩ : ∃ n', n = n' + 1 := ⟨n - 1, by omega⟩
              have hrest := @ih chunks n (by omega)
              simp only [adapterEvents, attemptTrace, htype, if_true]
              rw [live_emit_result, live_emit_world]
              simpa [AttemptTrace.prepend] using hrest
      | error =>
          cases hr : ev.data.getD (py "retryable") (.bool false) with
          | error e =>
              have hn : n = m := by simpa [dispatchChunks, htype, hr] using h
              simp [adapterEvents, attemptTrace, htype, hr, hn]
          | ok retryable =>
              cases hretry : retryable.truthy && decide (attempt < maxAttempts) with
              | true =>
                  have hn : n = m := by simpa [dispatchChunks, htype, hr, hretry] using h
                  simp [adapterEvents, attemptTrace, htype, hr, hretry, hn]
              | false =>
                  have hn : n = m + 1 := by
                    simp only [dispatchChunks, htype, hr, hretry, Bool.false_eq_true, if_false,
                      List.length_singleton] at h
                    omega
                  simp only [adapterEvents, attemptTrace, htype, hr, hretry, Bool.false_eq_true,
                    if_false, hn]
                  rw [live_emit_result, live_emit_world]
                  simp
      | _ =>
          simp only [dispatchChunks, htype] at h
          simpa only [adapterEvents, attemptTrace, htype] using ih h

end Attempt

-- ============================================================================
-- The attempt loop
-- ============================================================================

section Loop

variable {adapter : DownstreamAdapter} {output : Bool} {maxAttempts backoffMs : Nat}
  {state : GraphState}

theorem interrupted_sleep {α : Type} (ms : Nat) (p : Prog Nat α) :
    ((interruptible.sleep ms >>= fun _ => p) 0).result = .error .cancelled := rfl

theorem live_sleep {α : Type} (ms n : Nat) (p : Prog Nat α) :
    ((interruptible.sleep ms >>= fun _ => p) (n + 1)).result = (p n).result := rfl

/-- An attempt and what follows it. -/
theorem attempt_then_result {α : Type} {t : Act} {p : Prog Nat (List Json × AttemptExit)}
    {f : List Json × AttemptExit → Prog Nat α} {n : Nat} {r : List Json × AttemptExit}
    (h : (p n).result = .ok r) :
    ((Eff.act t >>= fun _ => p >>= f) n).result = (f r (p n).world).result := by
  rw [Eff.bind_of_ok rfl]
  show ((p >>= f) n).result = _
  rw [Eff.bind_of_ok h]
  rfl

/-- A cancellation at an await of the node's own: in the `try` it hands back what
    was collected, elsewhere it leaves the node. -/
theorem adapterAttempts_interrupted {left attempt : Nat} {chunks : List Json} {n : Nat}
    {a : AwaitSite × List Json}
    (h : (nodeAwaits adapter output maxAttempts state left attempt chunks)[n]? = some a) :
    (adapterAttempts interruptible adapter output maxAttempts backoffMs state left attempt chunks
      n).result = awaitOutcome a := by
  induction left generalizing attempt chunks n with
  | zero => simp [nodeAwaits] at h
  | succ left ih =>
      rw [nodeAwaits] at h
      simp only [adapterAttempts]
      rcases Nat.lt_or_ge n (dispatchChunks output (decide (attempt < maxAttempts))
          (adapter.run attempt state output).events chunks).length with hn | hn
      · rw [List.getElem?_append_left (by rwa [List.length_map]), List.getElem?_map] at h
        obtain ⟨cs, hcs, rfl⟩ := Option.map_eq_some_iff.mp h
        rw [attempt_then_result (adapterEvents_interrupted hcs)]
        rfl
      · rw [List.getElem?_append_right (by rwa [List.length_map]), List.length_map] at h
        obtain ⟨m, rfl⟩ := Nat.exists_eq_add_of_le hn
        rw [Nat.add_sub_cancel_left] at h
        obtain ⟨hresult, hworld⟩ := @adapterEvents_uninterrupted output maxAttempts attempt
          (adapter.run attempt state output).ending (adapter.run attempt state output).events
          chunks _ m rfl
        rw [attempt_then_result hresult, hworld]
        rw [← DownstreamAdapter.attemptTrace.eq_1] at hresult ⊢
        generalize adapter.attemptTrace output maxAttempts state attempt = t at h
        -- the sleep, and the attempts after it
        have hretry : ((AwaitSite.backoff, chunks ++ t.chunks) ::
              nodeAwaits adapter output maxAttempts state left (attempt + 1)
                (chunks ++ t.chunks))[m]? = some a →
            ((interruptible.sleep backoffMs >>= fun _ =>
              adapterAttempts interruptible adapter output maxAttempts backoffMs state left
                (attempt + 1) (chunks ++ t.chunks)) m).result = awaitOutcome a := by
          intro h
          cases m with
          | zero =>
              rw [List.getElem?_cons_zero, Option.some.injEq] at h
              rw [interrupted_sleep, ← h]
              rfl
          | succ m =>
              rw [List.getElem?_cons_succ] at h
              rw [live_sleep]
              exact ih h
        cases hexit : t.exit with
        | finished => simp [hexit] at h
        | errorShown => simp [hexit] at h
        | retryable data =>
            simp only [hexit] at h ⊢
            exact hretry h
        | raised e =>
            by_cases he : e.isException = true
            · by_cases hlt : attempt < maxAttempts
              · simp only [hexit, he, hlt, if_true] at h ⊢
                exact hretry h
              · simp only [hexit, he, hlt, if_true, if_false] at h ⊢
                cases m with
                | zero =>
                    rw [List.getElem?_cons_zero, Option.some.injEq] at h
                    rw [← h]
                    rfl
                | succ m => simp at h
            · simp [hexit, he] at h

end Loop

-- ============================================================================
-- In the adapter
-- ============================================================================

/-- The adapter, cancelled in attempt `k` once it has yielded `i` events. -/
def DownstreamAdapter.cancelledAt (adapter : DownstreamAdapter) (k i : Nat) :
    DownstreamAdapter where
  run := fun attempt state output =>
    if attempt = k then ⟨(adapter.run k state output).events.take i, .error .cancelled⟩
    else adapter.run attempt state output

/-- The contents of the deltas an attempt delivers. -/
def Attempt.contents (a : Attempt) : List Json := a.deltas.filterMap deltaContent

/-- What the attempts `from, .., k - 1` have delivered. -/
def contentsBetween (script : Nat → Attempt) (start k : Nat) : List Json :=
  (List.range' start (k - start)).flatMap fun j => (script j).contents

theorem contentsBetween_self (script : Nat → Attempt) (k : Nat) :
    contentsBetween script k k = [] := by
  rw [contentsBetween, Nat.sub_self]
  rfl

theorem contentsBetween_succ (script : Nat → Attempt) {start k : Nat} (h : start < k) :
    contentsBetween script start k
      = (script start).contents ++ contentsBetween script (start + 1) k := by
  have hlen : k - start = (k - (start + 1)) + 1 := by omega
  rw [contentsBetween, hlen, List.range'_succ, List.flatMap_cons]
  rfl

section CancelledAt

variable {adapter : DownstreamAdapter} {output : Bool} {maxAttempts backoffMs : Nat}
  {state : GraphState} {k i : Nat}

/-- The attempts before `k` go as they go. -/
theorem cancelledAt_script_of_ne {j : Nat} (h : j ≠ k) :
    (adapter.cancelledAt k i).script state output j = adapter.script state output j :=
  if_neg h

theorem cancelledAt_script_self :
    (adapter.cancelledAt k i).script state output k
      = ⟨(adapter.script state output k).events.take i, .error .cancelled⟩ :=
  if_pos rfl

/-- The node hands back what the attempts have delivered up to the cancellation. -/
theorem adapterTrace_cancelledAt {left attempt : Nat} (hleft : attempt + left = maxAttempts + 1)
    (hk : attempt ≤ k) (hmax : k ≤ maxAttempts)
    (hfails : ∀ j, attempt ≤ j → j < k → (adapter.script state output j).fails = true)
    (hreached : (⟨(adapter.script state output k).events.take i, .error .cancelled⟩ :
      Attempt).cancels = true) (chunks : List Json) :
    (adapterTrace (adapter.cancelledAt k i) output maxAttempts backoffMs state left attempt
        chunks).2 =
      { answerChunks := chunks ++ contentsBetween (adapter.script state output) attempt k ++
          (⟨(adapter.script state output k).events.take i, .error .cancelled⟩ : Attempt).contents,
        streamCancelled := some true } := by
  induction left generalizing attempt chunks with
  | zero => omega
  | succ left ih =>
      have hchunks := @attemptTrace_chunks (adapter.cancelledAt k i) output maxAttempts state
        attempt
      rcases Nat.eq_or_lt_of_le hk with rfl | hlt
      · -- the cancelled attempt
        rw [cancelledAt_script_self] at hchunks
        have hexit : ((adapter.cancelledAt attempt i).attemptTrace output maxAttempts state
            attempt).exit = .raised .cancelled := by
          apply (cancelled_exit_iff output _ _ _).mpr
          have hself := @cancelledAt_script_self adapter output state attempt i
          rw [DownstreamAdapter.script] at hself
          rw [hself]
          exact hreached
        rcases adapterTrace_cases backoffMs left chunks
            (rfl : (adapter.cancelledAt attempt i).attemptTrace output maxAttempts state attempt
              = _) with ⟨hfailed, -, -⟩ | ⟨-, tail, u, htail, heq⟩
        · rw [hexit] at hfailed
          cases hfailed
        · rw [heq, contentsBetween_self, List.append_nil]
          rw [hexit] at htail
          cases htail with
          | exhausted he => cases he
          | cancelled he => rw [hchunks, Attempt.contents]
      · -- an attempt before it
        have hne : attempt ≠ k := Nat.ne_of_lt hlt
        have hattempt : attempt < maxAttempts := Nat.lt_of_lt_of_le hlt hmax
        have hfail : ((adapter.cancelledAt k i).attemptTrace output maxAttempts state
            attempt).exit.failed = true := by
          rw [attemptTrace_failed hattempt, cancelledAt_script_of_ne hne]
          exact hfails attempt (Nat.le_refl _) hlt
        rw [cancelledAt_script_of_ne hne] at hchunks
        rcases adapterTrace_cases backoffMs left chunks
            (rfl : (adapter.cancelledAt k i).attemptTrace output maxAttempts state attempt = _)
          with ⟨-, -, heq⟩ | ⟨hlast, -⟩
        · rw [heq, ih (by omega) hlt (fun j hj => hfails j (by omega)), hchunks,
            contentsBetween_succ _ hlt, ← Attempt.contents]
          simp only [List.append_assoc]
        · exact absurd ⟨hfail, hattempt⟩ hlast

end CancelledAt

-- ============================================================================
-- Every await
-- ============================================================================

/-- An await of the node. -/
inductive AwaitPoint where
  /-- In `adapter.run` of an attempt that has yielded so many events. -/
  | adapter (attempt pulled : Nat)
  /-- The await of the node's own after so many of them. -/
  | own (before : Nat)

/-- What the node comes to when it is cancelled there. -/
def interruptedNode (adapter : DownstreamAdapter) (output : Bool) (retry : Option RetryPolicy)
    (state : GraphState) : AwaitPoint → Except Exn Update
  | .adapter k i =>
      (makeAdapterNode (NodeEnv.live Unit) (adapter.cancelledAt k i) output retry state ()).result
  | .own n => (makeAdapterNode interruptible adapter output retry state n).result

/-- The run comes to the point, which lies at the site, with the chunks collected. -/
inductive ReachesAwait (adapter : DownstreamAdapter) (output : Bool)
    (retry : Option RetryPolicy) (state : GraphState) :
    AwaitPoint → AwaitSite → List Json → Prop where
  | adapter {k i : Nat} (hmade : Made (maxAttempts retry) (adapter.script state output) k)
      (hreached : (⟨(adapter.script state output k).events.take i, .error .cancelled⟩ :
        Attempt).cancels = true) :
      ReachesAwait adapter output retry state (.adapter k i) .adapter
        (contentsBetween (adapter.script state output) 1 k ++
          (⟨(adapter.script state output k).events.take i, .error .cancelled⟩ :
            Attempt).contents)
  | own {n : Nat} {site : AwaitSite} {chunks : List Json}
      (h : (nodeAwaits adapter output (maxAttempts retry) state (maxAttempts retry) 1 [])[n]?
        = some (site, chunks)) :
      ReachesAwait adapter output retry state (.own n) site chunks

theorem interruptedNode_eq {adapter : DownstreamAdapter} {output : Bool}
    {retry : Option RetryPolicy} {state : GraphState} {p : AwaitPoint} {site : AwaitSite}
    {collected : List Json} (h : ReachesAwait adapter output retry state p site collected) :
    interruptedNode adapter output retry state p = awaitOutcome (site, collected) := by
  cases h with
  | adapter hmade hreached =>
      rw [interruptedNode, makeAdapterNode_live, Eff.play_result,
        adapterTrace_cancelledAt (Nat.add_comm _ _) hmade.1 hmade.2.1 hmade.2.2 hreached]
      rfl
  | own h => exact adapterAttempts_interrupted h

/-- The node returns what was collected, flagged, and the persist node stores
    that and nothing else, as partial. -/
def KeptPartial (state : GraphState) (collected : List Json) (r : Except Exn Update) : Prop :=
  ∃ u content, r = .ok u ∧ u.answerChunks = collected ∧ u.streamCancelled = some true ∧
    Json.join collected = .ok content ∧
    ∀ (σ : Type) (repos : Repos σ), makePersistNode repos (state.merge u) = do
      repos.callAppend { assistantMessage (state.merge u) content with status := py "partial" }
      repos.callTouch state.threadId
      return {}

/-- When a cancelled answer is kept: if and only if the node is cancelled inside
    the `try`, and what was collected are texts. -/
theorem cancellation_kept_iff (adapter : DownstreamAdapter) (output : Bool)
    (retry : Option RetryPolicy) (state : GraphState) (hchunks : state.answerChunks = [])
    (p : AwaitPoint) (site : AwaitSite) (collected : List Json)
    (h : ReachesAwait adapter output retry state p site collected) :
    KeptPartial state collected (interruptedNode adapter output retry state p) ↔
      site.inTry = true ∧ ∀ c ∈ collected, ∃ text, c = .str text := by
  rw [interruptedNode_eq h, awaitOutcome, ← Json.join_isOk]
  constructor
  · rintro ⟨u, content, hu, -, -, hjoin, -⟩
    split at hu
    · next hin => exact ⟨hin, content, hjoin⟩
    · cases hu
  · rintro ⟨hin, content, hjoin⟩
    rw [if_pos hin]
    refine ⟨_, content, rfl, rfl, rfl, hjoin, fun σ repos => ?_⟩
    have hmerged : ∀ u : Update, (state.merge u).answerChunks = u.answerChunks := by
      intro u
      rw [GraphState.merge_answerChunks, hchunks, List.nil_append]
    rw [makePersistNode, hmerged, hjoin]
    rfl

/-- One delta, and then a retryable error. -/
def busyAfterDelta : DownstreamAdapter :=
  scripted [⟨[deltaEvent (py "a"), literalEvent .error [(py "retryable", .bool true)]], .ok ()⟩]

/-- Cancelled in the dispatch of the delta, the answer is kept. -/
theorem cancellation_kept_in_dispatch :
    KeptPartial blankState [.str (py "a")]
      (interruptedNode busyAfterDelta true (some twice) blankState (.own 0)) :=
  (cancellation_kept_iff busyAfterDelta true (some twice) blankState rfl (.own 0) .dispatch _
    (.own rfl)).mpr ⟨rfl, fun _ hc => ⟨py "a", List.mem_singleton.mp hc⟩⟩

/-- Cancelled in the backoff sleep, the node raises and the delta is lost. -/
theorem cancellation_lost_in_backoff :
    ReachesAwait busyAfterDelta true (some twice) blankState (.own 1) .backoff [.str (py "a")] ∧
      interruptedNode busyAfterDelta true (some twice) blankState (.own 1) = .error .cancelled ∧
      ¬ KeptPartial blankState [.str (py "a")]
        (interruptedNode busyAfterDelta true (some twice) blankState (.own 1)) := by
  refine ⟨.own rfl, rfl, ?_⟩
  rintro ⟨u, content, hu, -⟩
  cases hu

end MasterAgent
