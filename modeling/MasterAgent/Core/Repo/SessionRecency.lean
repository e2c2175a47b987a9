/-
  MasterAgent.Core.Repo.SessionRecency

  The session list over the life of the table.  Whatever statements run on it, in
  whatever interleaving, `ma_session` is a board: a `get_or_create` enters its
  thread, a `touch` marks it, and `list_by_user` shows the rows of an account in the
  order of the board, those last touched first.  This rests on a clock that moves
  on from statement to statement.
-/

import MasterAgent.Core.Repo.Database
import MasterAgent.Core.Repo.SessionPages
import MasterAgent.Lib.Recency
import MasterAgent.Lib.Simulation

namespace MasterAgent

open Effect Recency

-- ============================================================================
-- The table and the board
-- ============================================================================

/-- What an act leaves of the session table when it takes effect at `now`.  A
    `get_or_create` that failed may have run its INSERT; one that returned has, or
    found the row there. -/
def SessionTable.After (now : Timestamp) (t : SessionTable) : Act → SessionTable → Prop
  | .getOrCreate (.str threadId) bizId w3Account r, t' =>
      t' = t.insert (GetOrCreate.newRow { threadId, bizId, w3Account, now }) ∨
        (∃ e, r = .error e) ∧ t' = t
  | .touch (.str threadId) (.ok ()), t' => t' = t.touch threadId now
  | _, t' => t' = t

/-- The table with the time: every act takes effect after those before it. -/
def SessionsStep (s : SessionTable × Timestamp) (a : Act) (s' : SessionTable × Timestamp) : Prop :=
  ∃ now, s.2 ≤ now ∧ now < s'.2 ∧ s.1.After now a s'.1

/-- What an act does to the board of threads. -/
def BoardStep (b : Board PyStr) : Act → Board PyStr → Prop
  | .getOrCreate (.str threadId) _ _ r, b' =>
      b' = b.enter threadId ∨ (∃ e, r = .error e) ∧ b' = b
  | .touch (.str threadId) (.ok ()), b' => b' = b.mark threadId
  | _, b' => b' = b

theorem SessionTable.insert_of_select {t : SessionTable} {row new : Session}
    (h : t.select new.threadId = some row) : t.insert new = t := by
  have hmem : new.threadId ∈ t.rows.map Session.threadId := by
    by_contra hnot
    rw [SessionTable.select_eq_none.mpr hnot] at h
    cases h
  rw [SessionTable.insert, dif_pos hmem]

/-- The uninterrupted statements are such acts. -/
theorem after_of_storeStep {s s' : Store} {a : Act} (h : StoreStep s a s') :
    ∃ now, s.sessions.After now a s'.sessions := by
  cases a with
  | getOrCreate threadId bizId w3Account r =>
      obtain ⟨now, h⟩ := h
      cases threadId with
      | str threadId =>
          simp only [Store.getOrCreate, bindText] at h
          refine ⟨now, ?_⟩
          rcases getOrCreate_cases { threadId, bizId, w3Account, now } s.sessions with
            ⟨row, -, -, heq⟩ | ⟨row, hrow, -, heq⟩ | ⟨-, heq⟩
          · rw [heq] at h
            cases h
            exact Or.inr ⟨⟨_, rfl⟩, rfl⟩
          · rw [heq] at h
            cases h
            exact Or.inl (SessionTable.insert_of_select hrow).symm
          · rw [heq] at h
            cases h
            exact Or.inl rfl
      | _ =>
          cases h
          exact ⟨now, rfl⟩
  | touch threadId r =>
      obtain ⟨now, h⟩ := h
      refine ⟨now, ?_⟩
      cases threadId with
      | str threadId =>
          cases h
          exact rfl
      | _ =>
          cases h
          exact rfl
  | append msg r =>
      obtain ⟨now, h⟩ := h
      cases h
      exact ⟨now, rfl⟩
  | listRecent threadId limit r => exact ⟨0, by rw [h.2]; rfl⟩
  | _ =>
      have hsame : s' = s := h
      exact ⟨0, congrArg Store.sessions hsame⟩

/-- When a session was made and last touched. -/
def Session.stamp (s : Session) : Stamp := ⟨s.createdAt, s.lastMessageAt⟩

/-- The stamp of a thread. -/
def SessionTable.stamp (t : SessionTable) (threadId : PyStr) : Option Stamp :=
  (t.select threadId).map Session.stamp

namespace SessionTable

variable {t : SessionTable} {threadId : PyStr} {now : Timestamp}

theorem stamp_insert {c : GetOrCreate} (h : t.select c.threadId = none) :
    (t.insert c.newRow).stamp =
      Function.update t.stamp c.threadId (some ⟨c.now, none⟩) := by
  funext other
  by_cases hother : other = c.threadId
  · subst hother
    rw [Function.update_self, stamp, GetOrCreate.select_newRow h]
    rfl
  · rw [Function.update_of_ne hother, stamp, select_insert_other (Ne.symm hother)]
    rfl

theorem stamp_touch {row : Session} (h : t.select threadId = some row) :
    (t.touch threadId now).stamp =
      Function.update t.stamp threadId (some ⟨row.createdAt, some now⟩) := by
  funext other
  rw [stamp, select_touch]
  by_cases hother : other = threadId
  · subst hother
    rw [Function.update_self, h, Option.map_some, Option.map_some, touchRow,
      if_pos (select_threadId h)]
    rfl
  · rw [Function.update_of_ne hother, stamp]
    cases hrow : t.select other with
    | none => rfl
    | some row' =>
        have hne : ¬ row'.threadId = threadId := fun heq =>
          hother ((select_threadId hrow).symm.trans heq)
        rw [Option.map_some, touchRow, if_neg hne]

/-- A thread without a row is not touched. -/
theorem stamp_touch_none (h : t.select threadId = none) :
    (t.touch threadId now).stamp = t.stamp := by
  funext other
  rw [stamp, select_touch]
  cases hrow : t.select other with
  | none => rw [stamp, hrow]; rfl
  | some row =>
      have hne : ¬ row.threadId = threadId := fun heq => by
        rw [← heq, select_threadId hrow, hrow] at h
        cases h
      rw [Option.map_some, touchRow, if_neg hne, stamp, hrow]

/-- Its rows are found by their threads. -/
theorem finds (t : SessionTable) : Finds Session.threadId t.rows t.select where
  nodup := t.primaryKey
  found := fun row hrow => by
    cases h : t.select row.threadId with
    | none => exact absurd (List.mem_map_of_mem hrow) (select_eq_none.mp h)
    | some row' =>
        have hmem : row' ∈ t.rows := List.mem_of_find?_eq_some h
        rw [List.inj_on_of_nodup_map t.primaryKey hmem hrow (select_threadId h)]
  mem := fun threadId row h => ⟨List.mem_of_find?_eq_some h, select_threadId h⟩

end SessionTable

-- ============================================================================
-- One step
-- ============================================================================

section Step

variable {t t' : SessionTable} {b : Board PyStr} {before now after : Timestamp}

theorem shows_insert (h : b.Shows t.stamp before) (c : GetOrCreate) (hbefore : before ≤ c.now)
    (hafter : c.now < after) : (b.enter c.threadId).Shows (t.insert c.newRow).stamp after := by
  cases hrow : t.select c.threadId with
  | none =>
      rw [SessionTable.stamp_insert hrow]
      exact h.enter (by rw [SessionTable.stamp, hrow]; rfl) hbefore hafter
  | some row =>
      have hmem : c.threadId ∈ b.keys := h.mem_keys.mpr ⟨row.stamp, by
        rw [SessionTable.stamp, hrow]
        rfl⟩
      have hinsert : t.insert c.newRow = t := SessionTable.insert_of_select hrow
      rw [Board.enter_of_mem hmem, hinsert]
      exact h.later (Nat.le_trans hbefore (Nat.le_of_lt hafter))

theorem shows_touch (h : b.Shows t.stamp before) (threadId : PyStr) (hbefore : before ≤ now)
    (hafter : now < after) : (b.mark threadId).Shows (t.touch threadId now).stamp after := by
  cases hrow : t.select threadId with
  | none =>
      have hmem : threadId ∉ b.keys := by
        rw [h.mem_keys, SessionTable.stamp, hrow]
        simp
      rw [Board.mark_of_not_mem hmem, SessionTable.stamp_touch_none hrow]
      exact h.later (Nat.le_trans hbefore (Nat.le_of_lt hafter))
  | some row =>
      have hstamp : t.stamp threadId = some row.stamp := by
        rw [SessionTable.stamp, hrow]
        rfl
      rw [SessionTable.stamp_touch hrow]
      exact h.mark hstamp hbefore hafter

/-- The board follows every act on the table. -/
theorem BoardStep.follows {a : Act} {s s' : SessionTable × Timestamp}
    (h : b.Shows s.1.stamp s.2) (hstep : SessionsStep s a s') :
    ∃ b', BoardStep b a b' ∧ b'.Shows s'.1.stamp s'.2 := by
  obtain ⟨now, hbefore, hafter, hact⟩ := hstep
  have hkeep : s'.1 = s.1 → b.Shows s'.1.stamp s'.2 := fun heq =>
    heq ▸ h.later (Nat.le_trans hbefore (Nat.le_of_lt hafter))
  cases a with
  | getOrCreate threadId bizId w3Account r =>
      cases threadId with
      | str threadId =>
          rcases hact with heq | ⟨hfailed, heq⟩
          · refine ⟨b.enter threadId, Or.inl rfl, ?_⟩
            rw [heq]
            exact shows_insert h { threadId, bizId, w3Account, now } hbefore hafter
          · exact ⟨b, Or.inr ⟨hfailed, rfl⟩, hkeep heq⟩
      | _ => exact ⟨b, rfl, hkeep hact⟩
  | touch threadId r =>
      cases threadId with
      | str threadId =>
          cases r with
          | ok u =>
              refine ⟨b.mark threadId, rfl, ?_⟩
              rw [show s'.1 = s.1.touch threadId now from hact]
              exact shows_touch h threadId hbefore hafter
          | error e => exact ⟨b, rfl, hkeep hact⟩
      | _ => exact ⟨b, rfl, hkeep hact⟩
  | _ => exact ⟨b, rfl, hkeep hact⟩

end Step

-- ============================================================================
-- Runs
-- ============================================================================

/-- From an empty table on, every run is a run of the board, which is in the order
    of the table's stamps. -/
theorem sessions_follow_board {acts : List (Act × (SessionTable × Timestamp))}
    {start now : Timestamp} {t : SessionTable}
    (h : Path SessionsStep (.empty, start) acts (t, now)) :
    ∃ bs b, bs.map Prod.fst = acts.map Prod.fst ∧ Path BoardStep .empty bs b ∧
      b.Shows t.stamp now :=
  h.refines (R := fun s (b : Board PyStr) => b.Shows s.1.stamp s.2)
    (fun _ _ _ _ hshows hstep => BoardStep.follows hshows hstep) (Board.Shows.start start)

/-- The sessions of an account in the order of the board. -/
def shownSessions (b : Board PyStr) (t : SessionTable) (w3Account : PyStr)
    (bizId : Option PyStr) : List Session :=
  (b.keys.filterMap t.select).filter (Session.listed w3Account bizId none)

/-- One that was touched. -/
def Session.touched (s : Session) : Bool := s.lastMessageAt.isSome

theorem Session.not_above {a b : Session} (h : a.precedes b) : ¬ b.stamp.Above a.stamp := by
  intro habove
  have hle := h
  unfold Session.precedes at hle
  unfold Stamp.Above Session.stamp at habove
  cases ha : a.lastMessageAt with
  | none => cases hb : b.lastMessageAt with
    | none =>
        simp only [ha, hb] at hle habove
        exact Nat.not_lt_of_le hle habove
    | some y => simp [ha, hb] at hle
  | some x => cases hb : b.lastMessageAt with
    | none => simp [ha, hb] at habove
    | some y =>
        simp only [ha, hb] at hle habove
        rcases hle with hlt | ⟨rfl, -⟩
        · exact Nat.lt_asymm hlt habove
        · exact Nat.lt_irrefl x habove

section Listing

variable {t : SessionTable} {b : Board PyStr} {now : Timestamp} {w3Account : PyStr}
  {bizId : Option PyStr}

theorem sort_matching (h : b.Shows t.stamp now) (order : SessionOrder) :
    order.sort (matching w3Account bizId none t) = shownSessions b t w3Account bizId := by
  have hshows : b.Shows (fun k => (t.select k).map Session.stamp) now := h
  exact hshows.arranged t.finds (order.perm _) ((order.sorted _).imp Session.not_above)

theorem Session.lastMessageAt_ne {a c : Session} (h : a.stamp.Above c.stamp) (x : Timestamp)
    (ha : a.lastMessageAt = some x) : c.lastMessageAt ≠ some x := by
  intro hc
  unfold Stamp.Above Session.stamp at h
  simp only [ha, hc] at h
  omega

/-- No two sessions were touched at one time. -/
theorem distinct_matching (h : b.Shows t.stamp now) :
    CursorPaging.Distinct Session.lastMessageAt (matching w3Account bizId none t) := by
  have hshows : b.Shows (fun k => (t.select k).map Session.stamp) now := h
  have hdistinct : CursorPaging.Distinct Session.lastMessageAt (b.keys.filterMap t.select) :=
    hshows.pairwise.imp Session.lastMessageAt_ne
  exact (hdistinct.perm (hshows.perm t.finds)).filter _

/-- All pages together are the board up to the end of the first page or to the last
    touched session, whichever comes later. -/
theorem pagesBefore_eq_shown (h : b.Shows t.stamp now) (order : SessionOrder) {limit : Nat}
    (hlimit : 0 < limit) :
    pagesBefore order w3Account bizId limit t none =
      ((shownSessions b t w3Account bizId).take
        (max limit ((shownSessions b t w3Account bizId).countP Session.touched))).map
          rowToSession := by
  have hcount : (matching w3Account bizId none t).countP Session.touched =
      (shownSessions b t w3Account bizId).countP Session.touched := by
    rw [← sort_matching h order, (order.perm _).countP_eq]
  rw [pagesBefore_eq, CursorPaging.pagesOf_of_distinct hlimit (distinct_matching h), ← hcount,
    ← sort_matching h order]
  rfl

end Listing

end MasterAgent
