/-
  MasterAgent.Plugins.BadFrames

  What one bad frame costs.  The three loops are the same but for what they make
  of a frame; a frame that is no JSON is passed over by two of them, and one that
  is JSON of another shape by none: it is yielded, or it raises.
-/

import Mathlib.Data.List.TakeWhile
import MasterAgent.Plugins.Adapter

namespace MasterAgent

-- ============================================================================
-- Frames
-- ============================================================================

/-- An object with a string under `content`. -/
def Json.contentful : Json → Bool
  | .obj fields => match Json.field (py "content") fields with
      | some (.str _) => true
      | _ => false
  | _ => false

/-- The payload of a well-formed delta frame. -/
def SseFrame.delta? (sse : SseFrame) : Option Json :=
  if sse.event = py "delta" then match sse.load with
    | .ok data => if data.contentful then some data else none
    | .error _ => none
  else none

def SseFrame.isDone (sse : SseFrame) : Bool := sse.event = py "done"

/-- No JSON object, or a delta without a string content. -/
def SseFrame.Malformed (sse : SseFrame) : Prop :=
  (∀ fields, sse.load ≠ .ok (.obj fields)) ∨ (sse.event = py "delta" ∧ sse.delta? = none)

/-- The data of an error frame is no object. -/
def SseFrame.BadError (sse : SseFrame) : Prop :=
  sse.event = py "error" ∧ ∀ fields, sse.load ≠ .ok (.obj fields)

/-- The type of a JSON frame, and its data. -/
def jsonType (top : List (PyStr × Json)) : Json := (Json.field (py "type") top).getD .null

def jsonData (top : List (PyStr × Json)) : Json := (Json.field (py "data") top).getD (.obj [])

/-- The payload of a well-formed delta frame. -/
def WireText.delta? (text : WireText) : Option Json :=
  match text.loads with
  | .ok (.obj top) =>
      if (jsonType top).isStr (py "delta") && (jsonData top).contentful then some (jsonData top)
      else none
  | _ => none

def WireText.isDone (text : WireText) : Bool :=
  match text.loads with
  | .ok (.obj top) => (jsonType top).isStr (py "done")
  | _ => false

/-- No JSON object, or a delta without a string content. -/
def WireText.Malformed (text : WireText) : Prop :=
  ∀ top, text.loads = .ok (.obj top) → jsonType top = .str (py "delta") ∧ text.delta? = none

/-- The data of an error frame is no object. -/
def WireText.BadError (text : WireText) : Prop :=
  ∃ top, text.loads = .ok (.obj top) ∧ jsonType top = .str (py "error") ∧
    ∀ fields, jsonData top ≠ .obj fields

namespace AdapterKind

def delta? : (kind : AdapterKind) → kind.Frame → Option Json
  | .metagc => SseFrame.delta?
  | .uniioc => WireText.delta?
  | .knowledgeCenter => WireText.delta?

def isDone : (kind : AdapterKind) → kind.Frame → Bool
  | .metagc => SseFrame.isDone
  | .uniioc => WireText.isDone
  | .knowledgeCenter => WireText.isDone

def Malformed : (kind : AdapterKind) → kind.Frame → Prop
  | .metagc => SseFrame.Malformed
  | .uniioc => WireText.Malformed
  | .knowledgeCenter => WireText.Malformed

end AdapterKind

/-- The data of the delta events. -/
def deltaData (events : List ChatEvent) : List Json :=
  events.filterMap fun ev => if ev.type = .delta then some ev.data else none

section Loop

variable {φ : Type} {wire : Wire φ} {delta? : φ → Option Json} {isDone : φ → Bool}
  {malformed : φ → Prop}

/-- The frames in front of the first done frame. -/
def untilDone (isDone : φ → Bool) (frames : List φ) : List φ :=
  frames.takeWhile fun frame => !isDone frame

/-- A run over the frames returns, its deltas are the payloads of the well-formed
    delta frames in front of the first done frame, and malformed frames there are
    skipped. -/
structure CostsItself (wire : Wire φ) (delta? : φ → Option Json) (isDone : φ → Bool)
    (malformed : φ → Prop) (frames : List φ) : Prop where
  returns : (wire.attempt ⟨frames, .closed⟩).ending = .ok ()
  deltas : deltaData (wire.attempt ⟨frames, .closed⟩).events =
    (untilDone isDone frames).filterMap delta?
  skipped : ∀ frame ∈ untilDone isDone frames, malformed frame → wire.onFrame frame = .skip

-- ============================================================================
-- The loop
-- ============================================================================

/-- What the loop makes of well-formed frames. -/
structure Reads (wire : Wire φ) (delta? : φ → Option Json) (isDone : φ → Bool)
    (malformed : φ → Prop) : Prop where
  stop : ∀ f, wire.onFrame f = .stop ↔ isDone f = true
  delta : ∀ f data, delta? f = some data → wire.onFrame f = .event { type := .delta, data := data }
  event : ∀ f ev, wire.onFrame f = .event ev → ev.type = .delta → ¬ malformed f →
    delta? f = some ev.data

/-- The frame raises. -/
def Raises (wire : Wire φ) (f : φ) : Prop := ∃ e, wire.onFrame f = .raised e

theorem deltaData_cons (ev : ChatEvent) (events : List ChatEvent) :
    deltaData (ev :: events) =
      (if ev.type = .delta then [ev.data] else []) ++ deltaData events := by
  rw [deltaData, deltaData, List.filterMap_cons]
  split_ifs <;> rfl

/-- A frame that is skipped if malformed and does not raise gives its payload. -/
theorem readFrames_cons (h : Reads wire delta? isDone malformed) {f : φ} (hdone : isDone f = false)
    (hskip : malformed f → wire.onFrame f = .skip) (hraise : ¬ Raises wire f) (frames : List φ) :
    deltaData (readFrames wire.onFrame .closed (f :: frames)).1 =
        (delta? f).toList ++ deltaData (readFrames wire.onFrame .closed frames).1 ∧
      (readFrames wire.onFrame .closed (f :: frames)).2 =
        (readFrames wire.onFrame .closed frames).2 := by
  rw [readFrames]
  cases hstep : wire.onFrame f with
  | skip =>
      have hnone : delta? f = none := by
        cases hdelta : delta? f with
        | none => rfl
        | some data =>
            rw [h.delta f data hdelta] at hstep
            cases hstep
      rw [hnone]
      exact ⟨rfl, rfl⟩
  | event ev =>
      refine ⟨?_, rfl⟩
      have hwell : ¬ malformed f := fun hm => by
        rw [hskip hm] at hstep
        cases hstep
      rw [deltaData_cons]
      by_cases htype : ev.type = .delta
      · rw [if_pos htype, h.event f ev hstep htype hwell]
        rfl
      · have hnone : delta? f = none := by
          cases hdelta : delta? f with
          | none => rfl
          | some data =>
              rw [h.delta f data hdelta] at hstep
              cases hstep
              exact absurd rfl htype
        rw [if_neg htype, hnone]
        rfl
  | stop => exact absurd ((h.stop f).mp hstep) (by rw [hdone]; exact Bool.false_ne_true)
  | raised e => exact absurd ⟨e, hstep⟩ hraise

/-- Frames that are passed over or give their payload, and what comes after them. -/
theorem readFrames_append (h : Reads wire delta? isDone malformed) {before : List φ}
    (hdone : ∀ f ∈ before, isDone f = false)
    (hskip : ∀ f ∈ before, malformed f → wire.onFrame f = .skip)
    (hraise : ∀ f ∈ before, ¬ Raises wire f) (frames : List φ) :
    deltaData (readFrames wire.onFrame .closed (before ++ frames)).1 =
        before.filterMap delta? ++ deltaData (readFrames wire.onFrame .closed frames).1 ∧
      (readFrames wire.onFrame .closed (before ++ frames)).2 =
        (readFrames wire.onFrame .closed frames).2 := by
  induction before with
  | nil => exact ⟨rfl, rfl⟩
  | cons f before ih =>
      rw [List.forall_mem_cons] at hdone hskip hraise
      obtain ⟨hdeltas, hending⟩ := readFrames_cons h hdone.1 hskip.1 hraise.1 (before ++ frames)
      obtain ⟨hdeltas', hending'⟩ := ih hdone.2 hskip.2 hraise.2
      rw [List.cons_append, hdeltas, hending, hdeltas', hending', List.filterMap_cons]
      refine ⟨?_, rfl⟩
      cases delta? f <;> rfl

/-- No frame raises, or one is the first to. -/
theorem first_raise (wire : Wire φ) (frames : List φ) :
    (∀ f ∈ frames, ¬ Raises wire f) ∨ ∃ before f after, frames = before ++ f :: after ∧
      Raises wire f ∧ ∀ f' ∈ before, ¬ Raises wire f' := by
  induction frames with
  | nil => exact .inl fun _ hf => absurd hf List.not_mem_nil
  | cons f frames ih =>
      by_cases hf : Raises wire f
      · exact .inr ⟨[], f, frames, rfl, hf, fun _ h => absurd h List.not_mem_nil⟩
      · rcases ih with hnone | ⟨before, f', after, rfl, hf', hbefore⟩
        · exact .inl (List.forall_mem_cons.mpr ⟨hf, hnone⟩)
        · exact .inr ⟨f :: before, f', after, rfl, hf', List.forall_mem_cons.mpr ⟨hf, hbefore⟩⟩

theorem not_done_of_mem {frames : List φ} {f : φ} (h : f ∈ untilDone isDone frames) :
    isDone f = false := by
  simpa using List.mem_takeWhile_imp h

/-- Behind the frames up to the first done frame the loop is left. -/
theorem readFrames_rest (h : Reads wire delta? isDone malformed) (frames : List φ) :
    ∃ rest, frames = untilDone isDone frames ++ rest ∧
      readFrames wire.onFrame .closed rest = ([], .closed) := by
  refine ⟨frames.dropWhile fun f => !isDone f, List.takeWhile_append_dropWhile.symm, ?_⟩
  cases hrest : frames.dropWhile fun f => !isDone f with
  | nil => rfl
  | cons f rest =>
      have hall := List.head?_dropWhile_not (fun f => !isDone f) frames
      rw [hrest] at hall
      have hstop : wire.onFrame f = .stop := (h.stop f).mpr (by simpa using hall)
      rw [readFrames, hstop]

/-- A run in which no frame raises. -/
theorem attempt_of_clean (h : Reads wire delta? isDone malformed)
    (hclosed : wire.caught .closed = ([], .ok ())) {frames : List φ}
    (hskip : ∀ f ∈ untilDone isDone frames, malformed f → wire.onFrame f = .skip)
    (hraise : ∀ f ∈ untilDone isDone frames, ¬ Raises wire f) :
    CostsItself wire delta? isDone malformed frames := by
  obtain ⟨rest, hframes, hrest⟩ := readFrames_rest h frames
  obtain ⟨hdeltas, hending⟩ := readFrames_append h (fun f => not_done_of_mem) hskip hraise rest
  rw [← hframes, hrest] at hdeltas hending
  refine ⟨?_, ?_, hskip⟩
  · simp only [Wire.attempt, hending, hclosed]
  · simp only [Wire.attempt, hending, hclosed, List.append_nil]
    rw [hdeltas]
    exact List.append_nil _

/-- A run up to the first frame that raises. -/
theorem readFrames_of_raise (h : Reads wire delta? isDone malformed) {frames before after : List φ}
    {f : φ} {e : Exn} (hsplit : untilDone isDone frames = before ++ f :: after)
    (hskip : ∀ f ∈ untilDone isDone frames, malformed f → wire.onFrame f = .skip)
    (hf : wire.onFrame f = .raised e) (hbefore : ∀ f' ∈ before, ¬ Raises wire f') :
    deltaData (readFrames wire.onFrame .closed frames).1 = before.filterMap delta? ∧
      (readFrames wire.onFrame .closed frames).2 = .raised e := by
  obtain ⟨rest, hframes, -⟩ := readFrames_rest h frames
  have hmem : ∀ f' ∈ before, f' ∈ untilDone isDone frames := fun f' hf' =>
    hsplit ▸ List.mem_append_left _ hf'
  obtain ⟨hdeltas, hending⟩ := readFrames_append h (fun f' hf' => not_done_of_mem (hmem f' hf'))
    (fun f' hf' => hskip f' (hmem f' hf')) hbefore (f :: (after ++ rest))
  have hread : readFrames wire.onFrame .closed (f :: (after ++ rest)) = ([], .raised e) := by
    rw [readFrames, hf]
  rw [hsplit, List.append_assoc, List.cons_append] at hframes
  rw [← hframes, hread] at hdeltas hending
  exact ⟨hdeltas.trans (List.append_nil _), hending⟩

/-- Where an exception of the loop leaves `run`. -/
theorem costsItself_iff_of_raised (h : Reads wire delta? isDone malformed)
    (hclosed : wire.caught .closed = ([], .ok ()))
    (hcaught : ∀ e, wire.caught (.raised e) = ([], .error e)) {frames : List φ} :
    CostsItself wire delta? isDone malformed frames ↔
      ∀ f ∈ untilDone isDone frames, (malformed f → wire.onFrame f = .skip) ∧ ¬ Raises wire f := by
  constructor
  · intro hcosts f hf
    refine ⟨hcosts.skipped f hf, ?_⟩
    rcases first_raise wire (untilDone isDone frames) with
      hnone | ⟨before, f', after, hsplit, hf', hbefore⟩
    · exact hnone f hf
    · obtain ⟨e, he⟩ := hf'
      obtain ⟨-, hending⟩ := readFrames_of_raise h hsplit hcosts.skipped he hbefore
      have hreturns := hcosts.returns
      simp only [Wire.attempt, hending, hcaught] at hreturns
      cases hreturns
  · intro hclean
    exact attempt_of_clean h hclosed (fun f hf => (hclean f hf).1) fun f hf => (hclean f hf).2

theorem Reads.delta?_of_raises (h : Reads wire delta? isDone malformed) {f : φ}
    (hf : Raises wire f) : delta? f = none := by
  obtain ⟨e, he⟩ := hf
  cases hdelta : delta? f with
  | none => rfl
  | some data =>
      rw [h.delta f data hdelta] at he
      cases he

/-- What is behind any raising frame is behind the first one. -/
theorem mem_behind_first {before before' after after' : List φ} {f f' : φ}
    (hsplit : before ++ f :: after = before' ++ f' :: after') (hf' : Raises wire f')
    (hbefore : ∀ g ∈ before, ¬ Raises wire g) : ∀ g ∈ after', g ∈ after := by
  rcases List.append_eq_append_iff.mp hsplit with ⟨more, rfl, hmore⟩ | ⟨more, rfl, hmore⟩
  · cases more with
    | nil =>
        cases hmore
        exact fun g hg => hg
    | cons g more =>
        cases hmore
        exact fun g hg => List.mem_append_right _ (List.mem_cons_of_mem _ hg)
  · cases more with
    | nil =>
        cases hmore
        exact fun g hg => hg
    | cons g more =>
        cases hmore
        exact absurd hf' (hbefore _ (List.mem_append_right _ List.mem_cons_self))

/-- Where it becomes an error event: the frames behind are lost. -/
theorem costsItself_iff_of_failed (h : Reads wire delta? isDone malformed)
    (hclosed : wire.caught .closed = ([], .ok ())) {failed : ChatEvent}
    (hfailed : failed.type ≠ .delta)
    (hcaught : ∀ f e, ¬ malformed f → wire.onFrame f = .raised e →
      wire.caught (.raised e) = ([failed], .ok ())) {frames : List φ} :
    CostsItself wire delta? isDone malformed frames ↔
      (∀ f ∈ untilDone isDone frames, malformed f → wire.onFrame f = .skip) ∧
        ∀ before f after, untilDone isDone frames = before ++ f :: after → Raises wire f →
          ∀ f' ∈ after, delta? f' = none := by
  -- what the run is when some frame raises
  have hraised : (∀ f ∈ untilDone isDone frames, malformed f → wire.onFrame f = .skip) →
      ∀ {before f after}, untilDone isDone frames = before ++ f :: after → Raises wire f →
      (∀ f' ∈ before, ¬ Raises wire f') →
      (wire.attempt ⟨frames, .closed⟩).ending = .ok () ∧
        deltaData (wire.attempt ⟨frames, .closed⟩).events = before.filterMap delta? := by
    intro hskip before f after hsplit hf hbefore
    obtain ⟨e, he⟩ := hf
    obtain ⟨hdeltas, hending⟩ := readFrames_of_raise h hsplit hskip he hbefore
    have hwell : ¬ malformed f := by
      intro hm
      rw [hskip f (by rw [hsplit]; simp) hm] at he
      cases he
    have hnone : deltaData [failed] = [] := by
      rw [deltaData_cons, if_neg hfailed]
      rfl
    simp only [Wire.attempt, hending, hcaught f e hwell he]
    refine ⟨trivial, ?_⟩
    rw [← hdeltas, deltaData, List.filterMap_append, ← deltaData, ← deltaData, hnone,
      List.append_nil]
  constructor
  · intro hcosts
    refine ⟨hcosts.skipped, fun before' f' after' hsplit' hf' g hg => ?_⟩
    rcases first_raise wire (untilDone isDone frames) with
      hnone | ⟨before, f, after, hsplit, hf, hbefore⟩
    · exact absurd hf' (hnone f' (by rw [hsplit']; simp))
    · obtain ⟨-, hdeltas⟩ := hraised hcosts.skipped hsplit hf hbefore
      rw [hcosts.deltas, hsplit, List.filterMap_append] at hdeltas
      have hbehind : (f :: after).filterMap delta? = [] :=
        List.append_cancel_left (hdeltas.trans (List.append_nil _).symm)
      have hg' := mem_behind_first (hsplit.symm.trans hsplit') hf' hbefore g hg
      exact List.filterMap_eq_nil_iff.mp hbehind g (List.mem_cons_of_mem _ hg')
  · rintro ⟨hskip, hlost⟩
    rcases first_raise wire (untilDone isDone frames) with
      hnone | ⟨before, f, after, hsplit, hf, hbefore⟩
    · exact attempt_of_clean h hclosed hskip hnone
    · obtain ⟨hreturns, hdeltas⟩ := hraised hskip hsplit hf hbefore
      refine ⟨hreturns, ?_, hskip⟩
      have hbehind : (f :: after).filterMap delta? = [] :=
        List.filterMap_eq_nil_iff.mpr (List.forall_mem_cons.mpr
          ⟨h.delta?_of_raises hf, hlost before f after hsplit hf⟩)
      rw [hdeltas, hsplit, List.filterMap_append, hbehind, List.append_nil]

end Loop

-- ============================================================================
-- The three loops
-- ============================================================================

/-- An SSE frame that the loop reads as it is meant. -/
structure SseFrame.Clean (sse : SseFrame) : Prop where
  delta : sse.event = py "delta" → sse.delta? ≠ none
  error : ¬ sse.BadError

theorem SseFrame.delta?_eq_some {sse : SseFrame} {data : Json} :
    sse.delta? = some data ↔
      sse.event = py "delta" ∧ sse.load = .ok data ∧ data.contentful = true := by
  unfold SseFrame.delta?
  by_cases hevent : sse.event = py "delta"
  · rw [if_pos hevent]
    cases hload : sse.load with
    | error e => simp
    | ok data' =>
        by_cases hcontent : data'.contentful = true
        · simp only [hcontent, if_true, Option.some.injEq, hevent, Except.ok.injEq, true_and]
          constructor
          · rintro rfl
            exact ⟨rfl, hcontent⟩
          · exact fun h => h.1
        · simp only [hcontent, hevent, Except.ok.injEq, true_and]
          refine iff_of_false (fun h => by cases h) ?_
          rintro ⟨rfl, h⟩
          exact hcontent h
  · rw [if_neg hevent]
    exact iff_of_false (fun h => by cases h) fun h => hevent h.1

theorem Json.contentful_obj {data : Json} (h : data.contentful = true) :
    ∃ fields, data = .obj fields := by
  cases data with
  | obj fields => exact ⟨fields, rfl⟩
  | _ => cases h

/-- Reading the fields of an error frame. -/
theorem upstreamError_cases (defaultMessage : PyStr) (data : Json) :
    ((∀ fields, data ≠ .obj fields) ∧ upstreamError defaultMessage data = .raised .attributeError) ∨
      ((∃ fields, data = .obj fields) ∧
        ∃ ev, upstreamError defaultMessage data = .event ev ∧ ev.type = .error) := by
  cases data with
  | obj fields => exact .inr ⟨⟨fields, rfl⟩, _, rfl, rfl⟩
  | _ => exact .inl ⟨(fun fields h => by cases h), rfl⟩

namespace MetaGCAdapter

/-- What the loop does at a frame. -/
inductive Step (sse : SseFrame) : Prop where
  | delta (hevent : sse.event = py "delta") (data : Json) (hload : sse.load = .ok data)
      (hstep : onFrame sse = .event { type := .delta, data := data })
  | broken (hevent : sse.event = py "delta") (e : Exn) (hload : sse.load = .error e)
      (hstep : onFrame sse = .raised e)
  | error (hevent : sse.event = py "error") (hgood : ¬ sse.BadError) (ev : ChatEvent)
      (hstep : onFrame sse = .event ev) (htype : ev.type = .error)
  | badError (hbad : sse.BadError) (e : Exn) (hstep : onFrame sse = .raised e)
  | done (hevent : sse.event = py "done") (hstep : onFrame sse = .stop)
  | other (hdelta : sse.event ≠ py "delta") (herror : sse.event ≠ py "error")
      (hdone : sse.event ≠ py "done") (hstep : onFrame sse = .skip)

theorem step (sse : SseFrame) : Step sse := by
  by_cases hdelta : sse.event = py "delta"
  · cases hload : sse.load with
    | error e => exact .broken hdelta e hload (by simp [onFrame, hdelta, hload])
    | ok data => exact .delta hdelta data hload (by simp [onFrame, hdelta, hload])
  by_cases herror : sse.event = py "error"
  · cases hload : sse.load with
    | error e =>
        refine .badError ⟨herror, fun fields h => ?_⟩ e (by simp [onFrame, herror, hload])
        rw [hload] at h
        cases h
    | ok data =>
        have hstep : onFrame sse = upstreamError (py "MetaGC 上游出错") data := by
          simp [onFrame, herror, hload]
        rcases upstreamError_cases (py "MetaGC 上游出错") data with
          ⟨hno, hraise⟩ | ⟨⟨fields, rfl⟩, ev, hev, htype⟩
        · refine .badError ⟨herror, fun fields h => ?_⟩ _ (hstep.trans hraise)
          rw [hload, Except.ok.injEq] at h
          exact hno fields h
        · exact .error herror (fun hbad => hbad.2 fields hload) ev (hstep.trans hev) htype
  by_cases hdone : sse.event = py "done"
  · exact .done hdone (by simp [onFrame, hdone])
  · refine .other hdelta herror hdone ?_
    simp only [onFrame, if_neg hdelta, if_neg herror, if_neg hdone, ite_self]

theorem not_bad_of_delta {sse : SseFrame} (h : sse.event = py "delta") : ¬ sse.BadError := by
  rintro ⟨herror, -⟩
  rw [h] at herror
  simp at herror

theorem reads : Reads wire SseFrame.delta? SseFrame.isDone SseFrame.Malformed where
  stop := by
    intro sse
    change onFrame sse = .stop ↔ decide (sse.event = py "done") = true
    rw [decide_eq_true_eq]
    cases step sse with
    | delta hevent data hload hstep => simp [hstep, hevent]
    | broken hevent e hload hstep => simp [hstep, hevent]
    | error hevent hgood ev hstep htype => simp [hstep, hevent]
    | badError hbad e hstep => simp [hstep, hbad.1]
    | done hevent hstep => simp [hstep, hevent]
    | other hdelta herror hdone hstep => simp [hstep, hdone]
  delta := by
    intro sse data h
    obtain ⟨hevent, hload, -⟩ := SseFrame.delta?_eq_some.mp h
    change onFrame sse = _
    simp [onFrame, hevent, hload]
  event := by
    intro sse ev hev htype hwell
    change onFrame sse = _ at hev
    cases step sse with
    | delta hevent data hload hstep =>
        obtain rfl := FrameStep.event.inj (hstep.symm.trans hev)
        cases hdelta : sse.delta? with
        | none => exact absurd (.inr ⟨hevent, hdelta⟩) hwell
        | some data' =>
            obtain ⟨-, hload', -⟩ := SseFrame.delta?_eq_some.mp hdelta
            rw [hload, Except.ok.injEq] at hload'
            rw [hload']
    | broken hevent e hload hstep => cases hstep.symm.trans hev
    | error hevent hgood ev' hstep htype' =>
        obtain rfl := FrameStep.event.inj (hstep.symm.trans hev)
        cases htype'.symm.trans htype
    | badError hbad e hstep => cases hstep.symm.trans hev
    | done hevent hstep => cases hstep.symm.trans hev
    | other hdelta herror hdone hstep => cases hstep.symm.trans hev

/-- Clean frames are those that are skipped if malformed and do not raise. -/
theorem clean_iff {sse : SseFrame} (hnot : sse.isDone = false) :
    ((sse.Malformed → onFrame sse = .skip) ∧ ¬ Raises wire sse) ↔ sse.Clean := by
  cases step sse with
  | delta hevent data hload hstep =>
      constructor
      · rintro ⟨hskip, -⟩
        refine ⟨fun _ hnone => ?_, not_bad_of_delta hevent⟩
        cases hstep.symm.trans (hskip (.inr ⟨hevent, hnone⟩))
      · intro hclean
        constructor
        · rintro (hno | ⟨-, hnone⟩)
          · obtain ⟨data', hdelta⟩ := Option.ne_none_iff_exists'.mp (hclean.delta hevent)
            obtain ⟨-, hload', hcontent⟩ := SseFrame.delta?_eq_some.mp hdelta
            obtain ⟨fields, rfl⟩ := Json.contentful_obj hcontent
            exact absurd hload' (hno fields)
          · exact absurd hnone (hclean.delta hevent)
        · rintro ⟨e, he⟩
          cases hstep.symm.trans he
  | broken hevent e hload hstep =>
      refine iff_of_false (fun h => h.2 ⟨e, hstep⟩) fun hclean => ?_
      refine hclean.delta hevent ?_
      rw [SseFrame.delta?, if_pos hevent, hload]
  | error hevent hgood ev hstep htype =>
      have hevent' : sse.event ≠ py "delta" := by
        rw [hevent]
        simp
      have hwell : ¬ sse.Malformed := by
        rintro (hno | ⟨hdelta, -⟩)
        · exact hgood ⟨hevent, hno⟩
        · exact hevent' hdelta
      refine iff_of_true ⟨fun hm => absurd hm hwell, ?_⟩ ⟨fun h => absurd h hevent', hgood⟩
      rintro ⟨e, he⟩
      cases hstep.symm.trans he
  | badError hbad e hstep =>
      exact iff_of_false (fun h => h.2 ⟨e, hstep⟩) fun hclean => hclean.error hbad
  | done hevent hstep =>
      rw [SseFrame.isDone, hevent] at hnot
      simp at hnot
  | other hdelta herror hdone hstep =>
      refine iff_of_true ⟨fun _ => hstep, ?_⟩ ⟨fun h => absurd h hdelta, fun h => herror h.1⟩
      rintro ⟨e, he⟩
      cases hstep.symm.trans he

end MetaGCAdapter

/-- The texts the two other loops read as they are meant: no JSON at all, or an
    object that is no delta without content. -/
def WireText.Readable (text : WireText) : Prop :=
  (∃ message, text.loads = .error (.decode message)) ∨
    ∃ top, text.loads = .ok (.obj top) ∧
      (jsonType top = .str (py "delta") → text.delta? ≠ none)

theorem WireText.loads_unique (text : WireText) {top top' : List (PyStr × Json)}
    (h : text.loads = .ok (.obj top)) (h' : text.loads = .ok (.obj top')) : top = top' := by
  rw [h, Except.ok.injEq, Json.obj.injEq] at h'
  exact h'

theorem WireText.delta?_eq_some {text : WireText} {data : Json} :
    text.delta? = some data ↔ ∃ top, text.loads = .ok (.obj top) ∧
      jsonType top = .str (py "delta") ∧ jsonData top = data ∧ data.contentful = true := by
  unfold WireText.delta?
  split
  · next top hloads =>
    constructor
    · intro h
      split at h
      · next hboth =>
        rw [Bool.and_eq_true, Json.isStr_eq_true] at hboth
        cases h
        exact ⟨top, hloads, hboth.1, rfl, hboth.2⟩
      · cases h
    · rintro ⟨top', htop, htype, rfl, hcontent⟩
      obtain rfl := text.loads_unique hloads htop
      rw [if_pos (by rw [Bool.and_eq_true, Json.isStr_eq_true]; exact ⟨htype, hcontent⟩)]
  · next hno =>
    refine iff_of_false (fun h => by cases h) ?_
    rintro ⟨top, htop, -⟩
    exact hno top htop

/-- What the loops over JSON texts do at a text. -/
inductive JsonStep (step : FrameStep) (text : WireText) : Prop where
  | noJson (message : PyStr) (hloads : text.loads = .error (.decode message))
      (hstep : step = .skip)
  | noObject (e : Exn) (hno : ∀ message, text.loads ≠ .error (.decode message))
      (hobj : ∀ top, text.loads ≠ .ok (.obj top)) (hstep : step = .raised e)
  | delta (top : List (PyStr × Json)) (hloads : text.loads = .ok (.obj top))
      (htype : jsonType top = .str (py "delta"))
      (hstep : step = .event { type := .delta, data := jsonData top })
  | error (top : List (PyStr × Json)) (hloads : text.loads = .ok (.obj top))
      (htype : jsonType top = .str (py "error")) (hgood : ¬ text.BadError) (ev : ChatEvent)
      (hstep : step = .event ev) (herror : ev.type = .error)
  | badError (hbad : text.BadError) (hstep : step = .raised .attributeError)
  | done (top : List (PyStr × Json)) (hloads : text.loads = .ok (.obj top))
      (htype : jsonType top = .str (py "done")) (hstep : step = .stop)
  | other (top : List (PyStr × Json)) (hloads : text.loads = .ok (.obj top))
      (hdelta : jsonType top ≠ .str (py "delta")) (herror : jsonType top ≠ .str (py "error"))
      (hdone : jsonType top ≠ .str (py "done")) (hstep : step = .skip)

theorem jsonStep (defaultMessage : PyStr) (text : WireText) :
    JsonStep (jsonFrame defaultMessage text) text := by
  cases hloads : text.loads with
  | error err =>
      cases err with
      | decode message => exact .noJson message hloads (by simp [jsonFrame, hloads])
      | raised e =>
          refine .noObject e (fun message h => ?_) (fun top h => ?_) (by simp [jsonFrame, hloads])
          · rw [hloads] at h
            cases h
          · rw [hloads] at h
            cases h
  | ok frame =>
      by_cases hobj : ∃ top, frame = .obj top
      · obtain ⟨top, rfl⟩ := hobj
        have hframe : jsonFrame defaultMessage text =
            if (jsonType top).isStr (py "delta") then
              .event { type := .delta, data := jsonData top }
            else if (jsonType top).isStr (py "error") then
              upstreamError defaultMessage (jsonData top)
            else if (jsonType top).isStr (py "done") then .stop
            else .skip := by
          rw [jsonFrame, hloads]
          rfl
        by_cases hdelta : jsonType top = .str (py "delta")
        · exact .delta top hloads hdelta (by rw [hframe, if_pos (Json.isStr_eq_true.mpr hdelta)])
        rw [if_neg (fun h => hdelta (Json.isStr_eq_true.mp h))] at hframe
        by_cases herror : jsonType top = .str (py "error")
        · rw [if_pos (Json.isStr_eq_true.mpr herror)] at hframe
          rcases upstreamError_cases defaultMessage (jsonData top) with
            ⟨hno, hraise⟩ | ⟨⟨fields, hfields⟩, ev, hev, htype⟩
          · exact .badError ⟨top, hloads, herror, hno⟩ (hframe.trans hraise)
          · refine .error top hloads herror ?_ ev (hframe.trans hev) htype
            rintro ⟨top', htop', -, hno⟩
            exact hno fields (text.loads_unique hloads htop' ▸ hfields)
        rw [if_neg (fun h => herror (Json.isStr_eq_true.mp h))] at hframe
        by_cases hdone : jsonType top = .str (py "done")
        · exact .done top hloads hdone (by rw [hframe, if_pos (Json.isStr_eq_true.mpr hdone)])
        · refine .other top hloads hdelta herror hdone ?_
          rw [hframe, if_neg (fun h => hdone (Json.isStr_eq_true.mp h))]
      · refine .noObject .attributeError (fun message h => ?_) (fun top h => ?_) ?_
        · rw [hloads] at h
          cases h
        · rw [hloads, Except.ok.injEq] at h
          exact hobj ⟨top, h⟩
        · cases frame with
          | obj top => exact absurd ⟨top, rfl⟩ hobj
          | _ => simp [jsonFrame, hloads, Json.getD, Json.get]

/-- A loop over JSON texts: at each text it does what `jsonFrame` does. -/
theorem jsonReads {wire : Wire WireText} (hstep : ∀ text, JsonStep (wire.onFrame text) text) :
    Reads wire WireText.delta? WireText.isDone WireText.Malformed where
  stop := by
    intro text
    unfold WireText.isDone
    cases hstep text with
    | noJson message hloads hstep => simp [hstep, hloads]
    | noObject e hno hobj hstep =>
        rw [hstep]
        split
        · next top hloads => exact absurd hloads (hobj top)
        · simp
    | delta top hloads htype hstep => simp [hstep, hloads, htype, Json.isStr]
    | error top hloads htype hgood ev hstep herror => simp [hstep, hloads, htype, Json.isStr]
    | badError hbad hstep =>
        obtain ⟨top, hloads, htype, -⟩ := hbad
        simp [hstep, hloads, htype, Json.isStr]
    | done top hloads htype hstep => simp [hstep, hloads, htype, Json.isStr]
    | other top hloads hdelta herror hdone hstep =>
        rw [hstep, hloads]
        simpa using hdone
  delta := by
    intro text data h
    obtain ⟨top, hloads, htype, rfl, -⟩ := WireText.delta?_eq_some.mp h
    cases hstep text with
    | noJson message hloads' hstep => rw [hloads] at hloads'; cases hloads'
    | noObject e hno hobj hstep => exact absurd hloads (hobj top)
    | delta top' hloads' htype' hstep =>
        obtain rfl := text.loads_unique hloads hloads'
        exact hstep
    | error top' hloads' htype' hgood ev hstep herror =>
        obtain rfl := text.loads_unique hloads hloads'
        rw [htype] at htype'
        simp at htype'
    | badError hbad hstep =>
        obtain ⟨top', hloads', htype', -⟩ := hbad
        obtain rfl := text.loads_unique hloads hloads'
        rw [htype] at htype'
        simp at htype'
    | done top' hloads' htype' hstep =>
        obtain rfl := text.loads_unique hloads hloads'
        rw [htype] at htype'
        simp at htype'
    | other top' hloads' hdelta herror hdone hstep =>
        obtain rfl := text.loads_unique hloads hloads'
        exact absurd htype hdelta
  event := by
    intro text ev hev htype hwell
    cases hstep text with
    | noJson message hloads hstep => cases hstep.symm.trans hev
    | noObject e hno hobj hstep => cases hstep.symm.trans hev
    | delta top hloads htype' hstep =>
        obtain rfl := FrameStep.event.inj (hstep.symm.trans hev)
        cases hdelta : text.delta? with
        | none =>
            refine absurd (fun top' hloads' => ?_) hwell
            obtain rfl := text.loads_unique hloads hloads'
            exact ⟨htype', hdelta⟩
        | some data =>
            obtain ⟨top', hloads', -, rfl, -⟩ := WireText.delta?_eq_some.mp hdelta
            obtain rfl := text.loads_unique hloads hloads'
            rfl
    | error top hloads htype' hgood ev' hstep herror =>
        obtain rfl := FrameStep.event.inj (hstep.symm.trans hev)
        cases herror.symm.trans htype
    | badError hbad hstep => cases hstep.symm.trans hev
    | done top hloads htype' hstep => cases hstep.symm.trans hev
    | other top hloads hdelta herror hdone hstep => cases hstep.symm.trans hev

section Json

variable {wire : Wire WireText}

/-- Readable texts are those that are skipped if malformed. -/
theorem readable_iff (hstep : ∀ text, JsonStep (wire.onFrame text) text) (text : WireText) :
    (text.Malformed → wire.onFrame text = .skip) ↔ text.Readable := by
  -- an object of another type is never malformed
  have hother : ∀ {top type}, text.loads = .ok (.obj top) → jsonType top = .str type →
      type ≠ py "delta" → ¬ text.Malformed ∧ text.Readable := by
    intro top type hloads htype hne
    have hdelta : jsonType top ≠ .str (py "delta") := by
      rw [htype]
      exact fun h => hne (Json.str.inj h)
    exact ⟨fun hm => hdelta (hm top hloads).1, .inr ⟨top, hloads, fun h => absurd h hdelta⟩⟩
  cases hstep text with
  | noJson message hloads hskip => exact iff_of_true (fun _ => hskip) (.inl ⟨message, hloads⟩)
  | noObject e hno hobj hraise =>
      refine iff_of_false (fun h => ?_) ?_
      · have hskip := h fun top hloads => absurd hloads (hobj top)
        cases hraise.symm.trans hskip
      · rintro (⟨message, hloads⟩ | ⟨top, hloads, -⟩)
        · exact hno message hloads
        · exact hobj top hloads
  | delta top hloads htype hevent =>
      constructor
      · refine fun h => .inr ⟨top, hloads, fun _ hnone => ?_⟩
        have hskip := h fun top' hloads' => by
          obtain rfl := text.loads_unique hloads hloads'
          exact ⟨htype, hnone⟩
        cases hevent.symm.trans hskip
      · rintro (⟨message, hloads'⟩ | ⟨top', hloads', hdelta⟩) hm
        · rw [hloads] at hloads'
          cases hloads'
        · obtain rfl := text.loads_unique hloads hloads'
          exact absurd (hm top hloads).2 (hdelta htype)
  | error top hloads htype hgood ev hevent herror =>
      obtain ⟨hwell, hreadable⟩ := hother hloads htype (by simp)
      exact iff_of_true (fun hm => absurd hm hwell) hreadable
  | badError hbad hraise =>
      obtain ⟨top, hloads, htype, -⟩ := hbad
      obtain ⟨hwell, hreadable⟩ := hother hloads htype (by simp)
      exact iff_of_true (fun hm => absurd hm hwell) hreadable
  | done top hloads htype hstop =>
      obtain ⟨hwell, hreadable⟩ := hother hloads htype (by simp)
      exact iff_of_true (fun hm => absurd hm hwell) hreadable
  | other top hloads hdelta herror hdone hskip =>
      exact iff_of_true (fun _ => hskip) (.inr ⟨top, hloads, fun h => absurd h hdelta⟩)

/-- A readable text raises where it is an error frame without an object. -/
theorem raises_iff (hstep : ∀ text, JsonStep (wire.onFrame text) text) {text : WireText}
    (hreadable : text.Readable) : Raises wire text ↔ text.BadError := by
  have hbad : ∀ {top type}, text.loads = .ok (.obj top) → jsonType top = .str type →
      type ≠ py "error" → ¬ text.BadError := by
    rintro top type hloads htype hne ⟨top', hloads', herror, -⟩
    obtain rfl := text.loads_unique hloads hloads'
    rw [htype, Json.str.injEq] at herror
    exact hne herror
  cases hstep text with
  | noJson message hloads hskip =>
      refine iff_of_false ?_ ?_
      · rintro ⟨e, he⟩
        cases hskip.symm.trans he
      · rintro ⟨top, hloads', -⟩
        rw [hloads] at hloads'
        cases hloads'
  | noObject e hno hobj hraise =>
      rcases hreadable with ⟨message, hloads⟩ | ⟨top, hloads, -⟩
      · exact absurd hloads (hno message)
      · exact absurd hloads (hobj top)
  | delta top hloads htype hevent =>
      refine iff_of_false ?_ (hbad hloads htype (by simp))
      rintro ⟨e, he⟩
      cases hevent.symm.trans he
  | error top hloads htype hgood ev hevent herror =>
      refine iff_of_false ?_ hgood
      rintro ⟨e, he⟩
      cases hevent.symm.trans he
  | badError hbad hraise => exact iff_of_true ⟨_, hraise⟩ hbad
  | done top hloads htype hstop =>
      refine iff_of_false ?_ (hbad hloads htype (by simp))
      rintro ⟨e, he⟩
      cases hstop.symm.trans he
  | other top hloads hdelta herror hdone hskip =>
      refine iff_of_false ?_ ?_
      · rintro ⟨e, he⟩
        cases hskip.symm.trans he
      · rintro ⟨top', hloads', herror', -⟩
        obtain rfl := text.loads_unique hloads hloads'
        exact herror herror'

end Json

theorem UniiocAdapter.step (text : WireText) : JsonStep (UniiocAdapter.wire.onFrame text) text := by
  cases text with
  | empty => exact .noJson _ rfl rfl
  | text loaded => exact jsonStep (py "Uniioc 上游出错") (.text loaded)

theorem KnowledgeCenterAdapter.step (text : WireText) :
    JsonStep (KnowledgeCenterAdapter.wire.onFrame text) text :=
  jsonStep (py "知识中心查询出错") text

-- ============================================================================
-- What a bad frame costs
-- ============================================================================

/-- The frames the adapter reads as they are meant.  An error frame whose data is
    no object ends the loop of the knowledge center adapter, which matters if a
    well-formed delta is behind it. -/
def AdapterKind.ReadsAll : (kind : AdapterKind) → List kind.Frame → Prop
  | .metagc, frames => ∀ f ∈ untilDone SseFrame.isDone frames, f.Clean
  | .uniioc, frames => ∀ f ∈ untilDone WireText.isDone frames, f.Readable ∧ ¬ f.BadError
  | .knowledgeCenter, frames => (∀ f ∈ untilDone WireText.isDone frames, f.Readable) ∧
      ∀ before f after, untilDone WireText.isDone frames = before ++ f :: after → f.BadError →
        ∀ f' ∈ after, f'.delta? = none

/-- The exception that a well-formed text raises is caught. -/
theorem KnowledgeCenterAdapter.caught_raised {f : WireText} {e : Exn} (hwell : ¬ f.Malformed)
    (hraise : wire.onFrame f = .raised e) : wire.caught (.raised e) = caught.failed := by
  have hreadable : f.Readable := (readable_iff step f).mp fun hm => absurd hm hwell
  have hbad := (raises_iff step hreadable).mp ⟨e, hraise⟩
  cases step f with
  | badError _ hstep =>
      obtain rfl := FrameStep.raised.inj (hraise.symm.trans hstep)
      rfl
  | noObject _ _ hobj _ =>
      obtain ⟨top, hloads, -⟩ := hbad
      exact absurd hloads (hobj top)
  | noJson _ _ hstep => cases hraise.symm.trans hstep
  | delta _ _ _ hstep => cases hraise.symm.trans hstep
  | error _ _ _ _ _ hstep _ => cases hraise.symm.trans hstep
  | done _ _ _ hstep => cases hraise.symm.trans hstep
  | other _ _ _ _ _ hstep => cases hraise.symm.trans hstep

/-- A bad frame costs nothing but itself exactly where every frame in front of the
    first done frame is one that the adapter reads as it is meant. -/
theorem costsItself_iff (kind : AdapterKind) (frames : List kind.Frame) :
    CostsItself kind.wire kind.delta? kind.isDone kind.Malformed frames ↔
      kind.ReadsAll frames := by
  cases kind with
  | metagc =>
      refine (costsItself_iff_of_raised MetaGCAdapter.reads rfl fun _ => rfl).trans ?_
      exact forall₂_congr fun f hf => MetaGCAdapter.clean_iff (not_done_of_mem hf)
  | uniioc =>
      refine (costsItself_iff_of_raised (jsonReads UniiocAdapter.step) rfl fun _ => rfl).trans ?_
      refine forall₂_congr fun f _ => ?_
      constructor
      · rintro ⟨hskip, hraise⟩
        have hreadable := (readable_iff UniiocAdapter.step f).mp hskip
        exact ⟨hreadable, fun hbad => hraise ((raises_iff UniiocAdapter.step hreadable).mpr hbad)⟩
      · rintro ⟨hreadable, hbad⟩
        exact ⟨(readable_iff UniiocAdapter.step f).mpr hreadable,
          fun hraise => hbad ((raises_iff UniiocAdapter.step hreadable).mp hraise)⟩
  | knowledgeCenter =>
      refine (costsItself_iff_of_failed (jsonReads KnowledgeCenterAdapter.step) rfl
        (by simp [adapterError, literalEvent])
        fun _ _ => KnowledgeCenterAdapter.caught_raised).trans ?_
      have hreadable : (∀ f ∈ untilDone WireText.isDone frames,
          f.Malformed → KnowledgeCenterAdapter.wire.onFrame f = .skip) ↔
            ∀ f ∈ untilDone WireText.isDone frames, f.Readable :=
        forall₂_congr fun f _ => readable_iff KnowledgeCenterAdapter.step f
      refine (and_congr_left' hreadable).trans (and_congr_right fun hread => ?_)
      -- a readable text raises exactly as a bad error frame
      have hraises : ∀ {before f after}, untilDone WireText.isDone frames = before ++ f :: after →
          (Raises KnowledgeCenterAdapter.wire f ↔ f.BadError) := by
        intro before f after hsplit
        exact raises_iff KnowledgeCenterAdapter.step (hread f (by rw [hsplit]; simp))
      constructor
      · intro hlost before f after hsplit hbad
        exact hlost before f after hsplit ((hraises hsplit).mpr hbad)
      · intro hlost before f after hsplit hraise
        exact hlost before f after hsplit ((hraises hsplit).mp hraise)

/-- A delta frame that is no JSON raises out of the MetaGC adapter, a line `[]` out
    of the Uniioc adapter, and the knowledge center adapter loses the delta behind a
    frame `[]`. -/
theorem bad_frame_costs_more :
    (¬ CostsItself MetaGCAdapter.wire SseFrame.delta? SseFrame.isDone SseFrame.Malformed
      [⟨py "delta", .text (.error (.decode (py "Expecting value")))⟩]) ∧
    (¬ CostsItself UniiocAdapter.wire WireText.delta? WireText.isDone WireText.Malformed
      [.text (.ok (.arr []))]) ∧
    ¬ CostsItself KnowledgeCenterAdapter.wire WireText.delta? WireText.isDone WireText.Malformed
      [.text (.ok (.arr [])), .text (.ok (.obj [(py "type", .str (py "delta")),
        (py "data", .obj [(py "content", .str (py "hi"))])]))] := by
  refine ⟨fun h => ?_, fun h => ?_, fun h => ?_⟩
  · have hreturns := h.returns
    simp [Wire.attempt, readFrames, MetaGCAdapter.wire, MetaGCAdapter.onFrame, SseFrame.load,
      httpxCaught] at hreturns
  · have hreturns := h.returns
    simp [Wire.attempt, readFrames, UniiocAdapter.wire, UniiocAdapter.onFrame, jsonFrame,
      WireText.loads, Json.getD, Json.get, httpxCaught] at hreturns
  · have hdeltas := h.deltas
    have hlost : deltaData (KnowledgeCenterAdapter.wire.attempt
        ⟨[.text (.ok (.arr [])), .text (.ok (.obj [(py "type", .str (py "delta")),
          (py "data", .obj [(py "content", .str (py "hi"))])]))], .closed⟩).events = [] := by
      rfl
    rw [hlost] at hdeltas
    revert hdeltas
    decide

end MasterAgent
