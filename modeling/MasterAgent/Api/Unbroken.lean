/-
  MasterAgent.Api.Unbroken

  Which texts a connection survives.  `json.loads` raises more than
  `JSONDecodeError`, and a JSON value may be unhashable where `chat_ws` looks it
  up: as the operation, in a set, and as the request id, in the registry.  A
  connection on which no such text arrives ends by a disconnect or by the
  heartbeat only, and every task it starts is registered.
-/

import MasterAgent.Api.TaskRegistry

namespace MasterAgent

open Machine

variable {σ : Type}

namespace Connection

variable {c : Connection} {e : Endpoint σ} {raw : PyStr} {delivered : Bool} {input : WsInput}

/-- A step as it should be: a text is decoded or answered with an error frame, the
    loop ends for no other reason than a disconnect or the heartbeat, and a task
    that is started is registered under the id of its frame. -/
structure Handled (e : Endpoint σ) (c : Connection) (input : WsInput) : Prop where
  decoded : ∀ raw delivered, input = .frame raw delivered → c.loop = .receiving →
    (∃ op frame, decodeWsFrame e.codec raw = .ok (op, frame) ∧
      Json.field (py "op") frame = some (.str op.text)) ∨
    ∃ reason, decodeWsFrame e.codec raw = .error (.wsFrameError reason) ∧
      c.step e input = c.reply (errorFrame reason []) delivered
  ends : ∀ cause, (c.step e input).loop = .exited cause → cause = .disconnect ∨ cause = .timeout
  registered : ∀ (i : Nat) (t : AskTask), c.tasks.length ≤ i →
    (c.step e input).tasks[i]? = some t →
      ∃ k, (frameId t.frame).pyKey = some k ∧ (c.step e input).active.get? k = some i

/-- A text that can be processed: what `json.loads` makes of it, if anything, has
    a hashable operation, and a hashable request id where that is looked up. -/
structure Manageable (e : Endpoint σ) (c : Connection) (raw : PyStr) : Prop where
  loads : ∀ exn, e.codec.loads raw ≠ .error (.raised exn)
  op : ∀ frame op, e.codec.loads raw = .ok (.obj frame) → Json.field (py "op") frame = some op →
    op.hashable = true
  cancel : ∀ frame, e.codec.loads raw = .ok (.obj frame) →
    Json.field (py "op") frame = some (.str (py "cancel")) → (frameId frame).hashable = true
  ask : ∀ frame, e.codec.loads raw = .ok (.obj frame) →
    Json.field (py "op") frame = some (.str (py "ask")) → c.canAccept = true →
    (frameId frame).hashable = true

/-- A text that arrives while the loop receives can be processed. -/
def Manages (e : Endpoint σ) (c : Connection) : WsInput → Prop
  | .frame raw _ => c.loop = .receiving → Manageable e c raw
  | _ => True

/-- The loop has not ended by an exception. -/
def Unraised (c : Connection) : Prop :=
  ∀ cause, c.loop = .exited cause → cause = .disconnect ∨ cause = .timeout

theorem unraised_of_receiving (h : c.loop = .receiving) : c.Unraised :=
  fun cause hexit => absurd hexit (not_exited_of_receiving h cause)

-- ============================================================================
-- Decoding
-- ============================================================================

theorem exists_pyKey {v : Json} (h : v.hashable = true) : ∃ k, v.pyKey = some k := by
  rw [← pyKey_isSome] at h
  exact Option.isSome_iff_exists.mp h

theorem pyKey_none {v : Json} : v.pyKey = none ↔ v.hashable = false := by
  rw [← pyKey_isSome]
  cases v.pyKey <;> simp

/-- Nothing is raised while a text is decoded. -/
theorem Manageable.decodes (h : Manageable e c raw) :
    ¬ ∃ exn, decodeWsFrame e.codec raw = .error (.raised exn) := by
  rw [decodeWsFrame_raised]
  rintro (⟨exn, hloads⟩ | ⟨frame, op, hloads, hop, hunhashable⟩)
  · exact h.loads exn hloads
  · rw [h.op frame op hloads hop] at hunhashable
    cases hunhashable

theorem onFrame_eq (hloop : c.loop = .receiving) :
    c.step e (.frame raw delivered) = c.onFrame e raw delivered := by
  rw [step, if_pos hloop]

theorem reply_tasks (frame : Json) (delivered : Bool) :
    (c.reply frame delivered).tasks.length = c.tasks.length := by
  cases delivered with
  | true => rfl
  | false => exact List.length_mapIdx

theorem reply_unraised (hloop : c.loop = .receiving) (frame : Json) (delivered : Bool) :
    (c.reply frame delivered).Unraised := by
  cases delivered with
  | true => exact unraised_of_receiving hloop
  | false =>
      intro cause hexit
      cases hexit
      exact Or.inl rfl

/-- A step that starts no task. -/
theorem Handled.of_length
    (hdecoded : ∀ raw delivered, input = .frame raw delivered → c.loop = .receiving →
      (∃ op frame, decodeWsFrame e.codec raw = .ok (op, frame) ∧
        Json.field (py "op") frame = some (.str op.text)) ∨
      ∃ reason, decodeWsFrame e.codec raw = .error (.wsFrameError reason) ∧
        c.step e input = c.reply (errorFrame reason []) delivered)
    (hends : (c.step e input).Unraised)
    (hlength : (c.step e input).tasks.length = c.tasks.length) : c.Handled e input where
  decoded := hdecoded
  ends := hends
  registered := by
    intro i t hi ht
    obtain ⟨hlt, -⟩ := List.getElem?_eq_some_iff.mp ht
    omega

-- ============================================================================
-- A text
-- ============================================================================

/-- A text that is processed as it should be can be processed. -/
theorem Handled.manageable (h : c.Handled e (.frame raw delivered)) (hloop : c.loop = .receiving) :
    c.Manageable e raw := by
  have hdecodes : ¬ ∃ exn, decodeWsFrame e.codec raw = .error (.raised exn) := by
    rintro ⟨exn, hraised⟩
    rcases h.decoded raw delivered rfl hloop with ⟨op, frame, hok, -⟩ | ⟨reason, hreason, -⟩
    · rw [hraised] at hok
      cases hok
    · rw [hraised] at hreason
      cases hreason
  rw [decodeWsFrame_raised] at hdecodes
  have hends : ∀ exn, (c.step e (.frame raw delivered)).loop ≠ .exited (.raised exn) := by
    intro exn hexit
    rcases h.ends _ hexit with hcause | hcause <;> cases hcause
  constructor
  · exact fun exn hloads => hdecodes (Or.inl ⟨exn, hloads⟩)
  · intro frame op hloads hop
    rw [← Bool.not_eq_false]
    exact fun hunhashable => hdecodes (Or.inr ⟨frame, op, hloads, hop, hunhashable⟩)
  · intro frame hloads hop
    rw [← Bool.not_eq_false]
    intro hunhashable
    apply hends .typeError
    rw [onFrame_eq hloop]
    simp only [onFrame, @decodeWsFrame_of_op _ _ .cancel _ hloads hop, onCancel,
      pyKey_none.mpr hunhashable]
    rfl
  · intro frame hloads hop haccept
    rw [← Bool.not_eq_false]
    intro hunhashable
    apply hends .typeError
    rw [onFrame_eq hloop]
    simp only [onFrame, @decodeWsFrame_of_op _ _ .ask _ hloads hop, onAsk, haccept,
      pyKey_none.mpr hunhashable]
    rfl

/-- A text that can be processed is processed as it should be. -/
theorem Manageable.handled (h : c.Manageable e raw) (hloop : c.loop = .receiving) :
    c.Handled e (.frame raw delivered) := by
  have hstep := @onFrame_eq _ c e raw delivered hloop
  cases hdecode : decodeWsFrame e.codec raw with
  | error fault =>
      cases fault with
      | raised exn => exact absurd ⟨exn, hdecode⟩ h.decodes
      | wsFrameError reason =>
          simp only [onFrame, hdecode] at hstep
          refine .of_length ?_ ?_ ?_
          · intro raw' delivered' heq _
            cases heq
            exact Or.inr ⟨reason, hdecode, hstep⟩
          · rw [hstep]
            exact reply_unraised hloop _ delivered
          · rw [hstep, reply_tasks]
  | ok decoded =>
      obtain ⟨op, frame⟩ := decoded
      obtain ⟨hloads, hop⟩ := decodeWsFrame_ok hdecode
      have hdecoded : ∀ raw' delivered', WsInput.frame raw delivered = .frame raw' delivered' →
          c.loop = .receiving →
          (∃ op frame, decodeWsFrame e.codec raw' = .ok (op, frame) ∧
            Json.field (py "op") frame = some (.str op.text)) ∨
          ∃ reason, decodeWsFrame e.codec raw' = .error (.wsFrameError reason) ∧
            c.step e (.frame raw delivered) = c.reply (errorFrame reason []) delivered' := by
        intro raw' delivered' heq _
        cases heq
        exact Or.inl ⟨op, frame, hdecode, hop⟩
      simp only [onFrame, hdecode] at hstep
      cases op with
      | ping =>
          refine .of_length hdecoded ?_ ?_
          · rw [hstep]
            exact reply_unraised hloop _ delivered
          · rw [hstep, reply_tasks]
      | cancel =>
          obtain ⟨k, hk⟩ := exists_pyKey (h.cancel frame hloads hop)
          simp only [onCancel, hk] at hstep
          cases hget : c.active.get? k with
          | none =>
              rw [hget] at hstep
              refine .of_length hdecoded ?_ (by rw [hstep])
              rw [hstep]
              exact unraised_of_receiving hloop
          | some i =>
              rw [hget] at hstep
              refine .of_length hdecoded ?_ ?_
              · rw [hstep]
                exact unraised_of_receiving hloop
              · rw [hstep]
                exact List.length_modify _ _ _
      | ask =>
          cases haccept : c.canAccept with
          | false =>
              simp only [onAsk, haccept, Bool.not_false, if_true] at hstep
              refine .of_length hdecoded ?_ ?_
              · rw [hstep]
                exact reply_unraised hloop _ delivered
              · rw [hstep, reply_tasks]
          | true =>
              obtain ⟨k, hk⟩ := exists_pyKey (h.ask frame hloads hop haccept)
              simp only [onAsk, haccept, hk, Bool.not_true, Bool.false_eq_true, if_false] at hstep
              refine ⟨hdecoded, ?_, ?_⟩
              · rw [hstep]
                exact unraised_of_receiving hloop
              · intro i t hi ht
                rw [hstep] at ht ⊢
                rcases createTask_tasks ht with hold | ⟨rfl, rfl⟩
                · obtain ⟨hlt, -⟩ := List.getElem?_eq_some_iff.mp hold
                  omega
                · exact ⟨k, hk, by rw [add, Dict.get?_set, if_pos rfl]⟩

-- ============================================================================
-- Any input
-- ============================================================================

theorem exit_unraised {cause : ExitCause} (h : cause = .disconnect ∨ cause = .timeout) :
    (c.exit cause).Unraised := by
  intro cause' hexit
  cases hexit
  exact h

/-- The other inputs are processed as they should be. -/
theorem Unraised.handled (h : c.Unraised) (hinput : ∀ raw delivered, input ≠ .frame raw delivered) :
    c.Handled e input := by
  have hdecoded : ∀ raw delivered, input = .frame raw delivered → c.loop = .receiving →
      (∃ op frame, decodeWsFrame e.codec raw = .ok (op, frame) ∧
        Json.field (py "op") frame = some (.str op.text)) ∨
      ∃ reason, decodeWsFrame e.codec raw = .error (.wsFrameError reason) ∧
        c.step e input = c.reply (errorFrame reason []) delivered :=
    fun raw delivered heq => absurd heq (hinput raw delivered)
  cases input with
  | frame raw delivered => exact absurd rfl (hinput raw delivered)
  | timeout delivered =>
      by_cases hloop : c.loop = .receiving
      · cases delivered with
        | true =>
            refine .of_length hdecoded ?_ ?_ <;> rw [step, if_pos hloop, if_pos rfl]
            intro cause hexit
            cases hexit
        | false =>
            refine .of_length hdecoded ?_ ?_ <;> rw [step, if_pos hloop, if_neg (by simp)]
            · exact exit_unraised (Or.inr rfl)
            · exact List.length_mapIdx
      · refine .of_length hdecoded ?_ ?_ <;> rw [step, if_neg hloop]
        exact h
  | closed =>
      by_cases hloop : c.loop = .closing
      · refine .of_length hdecoded ?_ ?_ <;> rw [step, if_pos hloop]
        · exact exit_unraised (Or.inr rfl)
        · exact List.length_mapIdx
      · refine .of_length hdecoded ?_ ?_ <;> rw [step, if_neg hloop]
        exact h
  | disconnect =>
      by_cases hloop : c.loop = .receiving
      · refine .of_length hdecoded ?_ ?_ <;> rw [step, if_pos hloop]
        · exact @exit_unraised c .disconnect (Or.inl rfl)
        · exact List.length_mapIdx
      · refine .of_length hdecoded ?_ ?_ <;> rw [step, if_neg hloop]
        exact h
  | resume i delivered =>
      have hresumed := onResume_cases e c i delivered
      refine .of_length hdecoded ?_ ?_
      · intro cause hexit
        rw [step, resumed_loop hresumed] at hexit
        exact h cause hexit
      · exact resumed_length hresumed

/-- A step is as it should be exactly when its input can be processed. -/
theorem handled_iff (h : c.Unraised) : c.Handled e input ↔ c.Manages e input := by
  cases input with
  | frame raw delivered =>
      constructor
      · exact fun hhandled hloop => hhandled.manageable hloop
      · intro hmanages
        by_cases hloop : c.loop = .receiving
        · exact (hmanages hloop).handled hloop
        · refine .of_length (fun _ _ _ hreceiving => absurd hreceiving hloop) ?_ ?_ <;>
            rw [step, if_neg hloop]
          exact h
  | _ => exact ⟨fun _ => trivial, fun _ => h.handled (fun _ _ heq => by cases heq)⟩

end Connection

/-- For every sequence of inputs and every order in which tasks go on: each step
    is as it should be exactly when each text that arrives while the loop receives
    can be processed in the state it meets. -/
theorem connection_unbroken_iff (e : Endpoint σ) (inputs : List WsInput) :
    Along (Connection.step e) (fun _ c input => c.Handled e input) .ready inputs ↔
      Along (Connection.step e) (fun _ c input => c.Manages e input) .ready inputs :=
  @along_congr _ _ _ _ _ _ _ Connection.Unraised
    (Connection.unraised_of_receiving rfl)
    (fun _ _ hunraised => Connection.handled_iff hunraised)
    (fun _ _ _ hhandled => hhandled.ends)

set_option maxRecDepth 20000 in
/-- A list as the operation ends the loop with a `TypeError`.  So does an ask with
    a list as its id, whose task runs on without being registered. -/
theorem not_connection_unbroken :
    let e : Endpoint Unit := { smallEndpoint with
      codec := tableCodec [
        (py "list op", .obj [(py "op", .arr [])]),
        clientText "list id" .ask [(py "request_id", .arr [])]] }
    (e.after [receives "list op"]).loop = .exited (.raised .typeError) ∧
    let c := e.after [receives "list id"]
    c.loop = .exited (.raised .typeError) ∧ c.liveCount = 1 ∧ c.active.entries = [] ∧
      ¬ Along (Connection.step e) (fun _ c input => c.Handled e input) .ready
        [receives "list id"] := by
  intro e
  refine ⟨by decide, by decide, by decide, by decide, fun h => ?_⟩
  obtain ⟨-, hends, -⟩ := h [] _ [] rfl
  rcases hends (.raised .typeError) (by decide) with hcause | hcause <;> cases hcause

end MasterAgent
