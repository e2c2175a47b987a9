/-
  MasterAgent.Core.Repo.SessionRepository

  `SessionRepository` (`ma/core/repo/session_repository.py`): the SQL statements
  it issues as functions on the session table, and its methods as sequences of
  these.  `get_or_create` is a SELECT, and when that finds nothing an INSERT
  that gives way to an existing row and a second SELECT; only the first SELECT
  is followed by the biz_id check.
-/

import MasterAgent.Core.Repo.Models
import Mathlib.Data.List.Lex

namespace MasterAgent

namespace SessionTable

/-- `SELECT ... FROM ma_session WHERE thread_id = $1`. -/
def select (t : SessionTable) (threadId : PyStr) : Option Session :=
  t.rows.find? (·.threadId = threadId)

/-- `INSERT INTO ma_session ... ON CONFLICT (thread_id) DO NOTHING`. -/
def insert (t : SessionTable) (s : Session) : SessionTable :=
  if h : s.threadId ∈ t.rows.map Session.threadId then t
  else {
    rows := t.rows ++ [s]
    primaryKey := by
      rw [List.map_append, List.nodup_append]
      exact ⟨t.primaryKey, List.nodup_singleton _, by
        rintro a ha b hb rfl
        simp only [List.map_cons, List.map_nil, List.mem_singleton] at hb
        exact h (hb ▸ ha)⟩ }

/-- The row update of `UPDATE ma_session SET updated_at, last_message_at`. -/
def touchRow (threadId : PyStr) (now : Timestamp) (s : Session) : Session :=
  if s.threadId = threadId then { s with updatedAt := now, lastMessageAt := some now } else s

theorem touchRow_threadId (threadId : PyStr) (now : Timestamp) (s : Session) :
    (touchRow threadId now s).threadId = s.threadId := by
  unfold touchRow
  split <;> rfl

/-- `UPDATE ma_session SET updated_at, last_message_at WHERE thread_id = $1`. -/
def touch (t : SessionTable) (threadId : PyStr) (now : Timestamp) : SessionTable where
  rows := t.rows.map (touchRow threadId now)
  primaryKey := by
    have hids : (t.rows.map (touchRow threadId now)).map Session.threadId
        = t.rows.map Session.threadId := by
      rw [List.map_map]
      exact List.map_congr_left fun s _ => touchRow_threadId threadId now s
    rw [hids]
    exact t.primaryKey

-- ============================================================================
-- What the statements do
-- ============================================================================

variable {t : SessionTable}

theorem select_threadId {threadId : PyStr} {s : Session} (h : t.select threadId = some s) :
    s.threadId = threadId := by
  have := List.find?_some h
  simpa using this

theorem select_eq_none {threadId : PyStr} :
    t.select threadId = none ↔ threadId ∉ t.rows.map Session.threadId := by
  simp [select, List.find?_eq_none]

/-- A row that is there survives every INSERT. -/
theorem select_insert_of_some {threadId : PyStr} {s r : Session}
    (h : t.select threadId = some s) : (t.insert r).select threadId = some s := by
  unfold insert
  split
  · exact h
  · have hfind : t.rows.find? (·.threadId = threadId) = some s := h
    simp [select, List.find?_append, hfind]

/-- After the INSERT the thread has a row: the old one if there was one. -/
theorem select_insert_self (r : Session) :
    (t.insert r).select r.threadId = some ((t.select r.threadId).getD r) := by
  cases h : t.select r.threadId with
  | some s => exact select_insert_of_some h
  | none =>
      have hfind : t.rows.find? (·.threadId = r.threadId) = none := h
      rw [insert, dif_neg (select_eq_none.mp h)]
      simp [select, List.find?_append, hfind]

/-- The INSERT does not concern other threads. -/
theorem select_insert_other {threadId : PyStr} {r : Session} (h : r.threadId ≠ threadId) :
    (t.insert r).select threadId = t.select threadId := by
  unfold insert
  split
  · rfl
  · simp only [select, List.find?_append]
    simp [h]

theorem select_touch (threadId' threadId : PyStr) (now : Timestamp) :
    (t.touch threadId' now).select threadId
      = (t.select threadId).map (touchRow threadId' now) := by
  simp only [select, touch, List.find?_map]
  congr 1
  simp only [Function.comp_def, touchRow_threadId]

end SessionTable

-- ============================================================================
-- The methods
-- ============================================================================

/-- `_row_to_session`. -/
def rowToSession (s : Session) : Session := { s with ext := s.ext.orElse (.obj []) }

/-- The arguments of `get_or_create`, bound to text. -/
structure GetOrCreate where
  threadId : PyStr
  bizId : PyStr
  w3Account : PyStr
  ext : Json := .obj []
  now : Timestamp := 0

/-- The error text of a biz_id mismatch. -/
def GetOrCreate.mismatch (c : GetOrCreate) (row : Session) : Exn :=
  .sessionBizMismatch (py "thread_id=" ++ c.threadId ++ py " already bound to biz_id=" ++
    row.bizId ++ py ", cannot reuse with biz_id=" ++ c.bizId)

/-- The row the INSERT offers. -/
def GetOrCreate.newRow (c : GetOrCreate) : Session where
  threadId := c.threadId
  bizId := c.bizId
  w3Account := c.w3Account
  title := none
  status := py "active"
  createdAt := c.now
  updatedAt := c.now
  lastMessageAt := none
  ext := c.ext.orElse (.obj [])

/-- The answer to a first SELECT that found `row`. -/
def GetOrCreate.checked (c : GetOrCreate) (row : Session) : Except Exn Session :=
  if row.bizId ≠ c.bizId then .error (c.mismatch row) else .ok (rowToSession row)

/-- The answer to the second SELECT: there is no check on this path. -/
def GetOrCreate.reread (row : Option Session) : Except Exn Session :=
  match row with
  | some row => .ok (rowToSession row)
  | none => .error .assertionError

/-- How far a call of `get_or_create` has come. -/
inductive GetOrCreatePhase where
  | start
  /-- The first SELECT found no row. -/
  | missing
  /-- The INSERT has run. -/
  | inserted
  | finished (result : Except Exn Session)

/-- The next statement of a call of `get_or_create`. -/
def getOrCreateStep (c : GetOrCreate) :
    GetOrCreatePhase → SessionTable → Option (GetOrCreatePhase × SessionTable)
  | .start, t => match t.select c.threadId with
    | some row => some (.finished (c.checked row), t)
    | none => some (.missing, t)
  | .missing, t => some (.inserted, t.insert c.newRow)
  | .inserted, t => some (.finished (GetOrCreate.reread (t.select c.threadId)), t)
  | .finished _, _ => none

/-- `SessionRepository.get_or_create`, uninterrupted. -/
def getOrCreate (c : GetOrCreate) (t : SessionTable) : Except Exn Session × SessionTable :=
  match t.select c.threadId with
  | some row => (c.checked row, t)
  | none =>
      let t' := t.insert c.newRow
      (GetOrCreate.reread (t'.select c.threadId), t')

/-- `SessionRepository.get_by_thread`. -/
def getByThread (threadId : PyStr) (t : SessionTable) : Option Session :=
  (t.select threadId).map rowToSession

-- ============================================================================
-- Listing
-- ============================================================================

/-- May `a` stand before `b` under
    `ORDER BY last_message_at DESC NULLS LAST, created_at DESC`? -/
def Session.precedes (a b : Session) : Prop :=
  match a.lastMessageAt, b.lastMessageAt with
  | some x, some y => y < x ∨ x = y ∧ b.createdAt ≤ a.createdAt
  | some _, none => True
  | none, some _ => False
  | none, none => b.createdAt ≤ a.createdAt

instance (a b : Session) : Decidable (a.precedes b) := by
  unfold Session.precedes
  split <;> infer_instance

/-- How the database sorts the selected rows.  `precedes` leaves ties open; they
    are ordered by a fixed rule, one that sees the selected rows only. -/
structure SessionOrder where
  sort : List Session → List Session
  perm : ∀ rows, (sort rows).Perm rows
  sorted : ∀ rows, (sort rows).Pairwise Session.precedes
  fixed : ∀ {rows rows'}, rows.Perm rows' → (rows.map Session.threadId).Nodup →
    sort rows = sort rows'

/-- The rows `list_by_user` selects. -/
def Session.listed (w3Account : PyStr) (bizId : Option PyStr) (before : Option Timestamp)
    (row : Session) : Bool :=
  row.w3Account = w3Account &&
    bizId.all (fun b => row.bizId = b) &&
    before.all (fun t => row.lastMessageAt.any (· < t))

/-- `SessionRepository.list_by_user`. -/
def listByUser (order : SessionOrder) (w3Account : PyStr) (bizId : Option PyStr) (limit : Nat)
    (before : Option Timestamp) (t : SessionTable) : List Session :=
  ((order.sort (t.rows.filter (Session.listed w3Account bizId before))).take limit).map
    rowToSession

/-- The list sees the rows of its account only. -/
theorem listByUser_congr {order : SessionOrder} {w3Account : PyStr} {t t' : SessionTable}
    (h : (t.rows.filter (·.w3Account = w3Account)).Perm (t'.rows.filter (·.w3Account = w3Account)))
    (bizId : Option PyStr) (limit : Nat) (before : Option Timestamp) :
    listByUser order w3Account bizId limit before t
      = listByUser order w3Account bizId limit before t' := by
  have hown : ∀ rows : List Session, rows.filter (Session.listed w3Account bizId before)
      = (rows.filter (·.w3Account = w3Account)).filter
          (Session.listed w3Account bizId before) := by
    intro rows
    rw [List.filter_filter]
    refine List.filter_congr fun row _ => ?_
    by_cases hrow : row.w3Account = w3Account
    · simp [hrow]
    · simp [hrow, Session.listed]
  have hperm : (t.rows.filter (Session.listed w3Account bizId before)).Perm
      (t'.rows.filter (Session.listed w3Account bizId before)) := by
    rw [hown t.rows, hown t'.rows]
    exact h.filter _
  have hnodup : ((t.rows.filter (Session.listed w3Account bizId before)).map
      Session.threadId).Nodup :=
    t.primaryKey.sublist (List.filter_sublist.map _)
  rw [listByUser, listByUser, order.fixed hperm hnodup]

namespace SessionOrder

/-- Ties by thread_id. -/
def rank (a b : Session) : Prop := a.precedes b ∧ (b.precedes a → a.threadId ≤ b.threadId)

theorem precedes_total (a b : Session) : a.precedes b ∨ b.precedes a := by
  unfold Session.precedes
  cases a.lastMessageAt with
  | none => cases b.lastMessageAt with
    | none => exact Nat.le_total _ _
    | some y => exact Or.inr trivial
  | some x => cases b.lastMessageAt with
    | none => exact Or.inl trivial
    | some y =>
        rcases Nat.lt_trichotomy x y with h | h | h
        · exact Or.inr (Or.inl h)
        · rcases Nat.le_total b.createdAt a.createdAt with hc | hc
          · exact Or.inl (Or.inr ⟨h, hc⟩)
          · exact Or.inr (Or.inr ⟨h.symm, hc⟩)
        · exact Or.inl (Or.inl h)

theorem precedes_trans {a b c : Session} (hab : a.precedes b) (hbc : b.precedes c) :
    a.precedes c := by
  unfold Session.precedes at *
  cases ha : a.lastMessageAt with
  | none =>
      cases hb : b.lastMessageAt with
      | some y => simp [ha, hb] at hab
      | none =>
          cases hc : c.lastMessageAt with
          | some z => simp [hb, hc] at hbc
          | none =>
              simp only [ha, hb, hc] at hab hbc ⊢
              exact Nat.le_trans hbc hab
  | some x =>
      cases hc : c.lastMessageAt with
      | none => trivial
      | some z =>
          cases hb : b.lastMessageAt with
          | none => simp [hb, hc] at hbc
          | some y =>
              simp only [ha, hb, hc] at hab hbc ⊢
              rcases hab with hyx | ⟨hxy, hba⟩
              · rcases hbc with hzy | ⟨rfl, -⟩
                · exact Or.inl (Nat.lt_trans hzy hyx)
                · exact Or.inl hyx
              · subst hxy
                exact hbc.imp_right fun ⟨hxz, hcb⟩ => ⟨hxz, Nat.le_trans hcb hba⟩

instance : DecidableRel rank := fun a b =>
  inferInstanceAs (Decidable (a.precedes b ∧ (b.precedes a → a.threadId ≤ b.threadId)))

instance rank_total : Std.Total rank where
  total a b := by
    by_cases hab : a.precedes b
    · by_cases hba : b.precedes a
      · rcases le_total a.threadId b.threadId with h | h
        · exact Or.inl ⟨hab, fun _ => h⟩
        · exact Or.inr ⟨hba, fun _ => h⟩
      · exact Or.inl ⟨hab, fun h => absurd h hba⟩
    · exact Or.inr ⟨(precedes_total a b).resolve_left hab, fun h => absurd h hab⟩

instance rank_trans : IsTrans Session rank where
  trans a b c := by
    rintro ⟨hab, htab⟩ ⟨hbc, htbc⟩
    refine ⟨precedes_trans hab hbc, fun hca => ?_⟩
    exact (htab (precedes_trans hbc hca)).trans (htbc (precedes_trans hca hab))

/-- An order that breaks ties by thread_id. -/
def byThread : SessionOrder where
  sort := List.insertionSort rank
  perm := List.perm_insertionSort rank
  sorted := fun rows => (List.pairwise_insertionSort rank rows).imp fun h => h.1
  fixed := by
    intro rows rows' hperm hnodup
    have hsorted := List.perm_insertionSort rank rows
    have hsorted' := List.perm_insertionSort rank rows'
    refine List.Perm.eq_of_pairwise ?_ (List.pairwise_insertionSort rank rows)
      (List.pairwise_insertionSort rank rows') ((hsorted.trans hperm).trans hsorted'.symm)
    intro a b ha hb hab hba
    have hid : a.threadId = b.threadId := le_antisymm (hab.2 hba.1) (hba.2 hab.1)
    refine List.inj_on_of_nodup_map hnodup (hsorted.mem_iff.mp ha) ?_ hid
    exact hperm.mem_iff.mpr (hsorted'.mem_iff.mp hb)

end SessionOrder

-- ============================================================================
-- What the methods do
-- ============================================================================

/-- The INSERT of a thread without a row makes the row it offers. -/
theorem GetOrCreate.select_newRow {c : GetOrCreate} {t : SessionTable}
    (h : t.select c.threadId = none) : (t.insert c.newRow).select c.threadId = some c.newRow := by
  have hself := @SessionTable.select_insert_self t c.newRow
  rw [show c.newRow.threadId = c.threadId from rfl, h] at hself
  exact hself

/-- The steps of a call that nobody interrupts are `getOrCreate`. -/
theorem getOrCreate_eq_steps (c : GetOrCreate) (t : SessionTable) :
    getOrCreateStep c .start t = some (.finished (getOrCreate c t).1, (getOrCreate c t).2) ∨
      (getOrCreateStep c .start t = some (.missing, t) ∧
        getOrCreateStep c .missing t = some (.inserted, (getOrCreate c t).2) ∧
        getOrCreateStep c .inserted (getOrCreate c t).2
          = some (.finished (getOrCreate c t).1, (getOrCreate c t).2)) := by
  cases h : t.select c.threadId with
  | some row => exact Or.inl (by simp [getOrCreateStep, getOrCreate, h])
  | none => exact Or.inr (by simp [getOrCreateStep, getOrCreate, h])

/-- A call nobody interrupts returns a session with the biz_id asked for, bound
    in the table, or reports the mismatch and changes nothing. -/
theorem getOrCreate_cases (c : GetOrCreate) (t : SessionTable) :
    (∃ row, t.select c.threadId = some row ∧ row.bizId ≠ c.bizId ∧
      getOrCreate c t = (.error (c.mismatch row), t)) ∨
    (∃ row, t.select c.threadId = some row ∧ row.bizId = c.bizId ∧
      getOrCreate c t = (.ok (rowToSession row), t)) ∨
    (t.select c.threadId = none ∧
      getOrCreate c t = (.ok (rowToSession c.newRow), t.insert c.newRow)) := by
  cases h : t.select c.threadId with
  | some row =>
      by_cases hb : row.bizId = c.bizId
      · exact Or.inr (Or.inl ⟨row, rfl, hb, by simp [getOrCreate, h, GetOrCreate.checked, hb]⟩)
      · exact Or.inl ⟨row, rfl, hb, by simp [getOrCreate, h, GetOrCreate.checked, hb]⟩
  | none =>
      have hself := GetOrCreate.select_newRow h
      exact Or.inr (Or.inr ⟨rfl, by simp [getOrCreate, h, hself, GetOrCreate.reread]⟩)

end MasterAgent
