/-
  MasterAgent.Core.Repo.SessionPages

  Paging through `list_by_user`: the next call asks for what is before the
  `last_message_at` of the last item.  The list is ordered with untouched sessions
  last and the cursor is strict, so the pages are those of `CursorPaging` over
  `last_message_at`.
-/

import MasterAgent.Core.Repo.SessionRepository
import MasterAgent.Lib.CursorPaging

namespace MasterAgent

open CursorPaging

/-- The sessions of an account and a topic. -/
def matching (w3Account : PyStr) (bizId : Option PyStr) (before : Option Timestamp)
    (t : SessionTable) : List Session :=
  t.rows.filter (Session.listed w3Account bizId before)

/-- The order of the list as an arrangement by `last_message_at`. -/
def SessionOrder.sorting (order : SessionOrder) : Sorting Session.lastMessageAt where
  sort := order.sort
  perm := order.perm
  sorted := fun rows => (order.sorted rows).imp fun {a b} h y hy => by
    unfold Session.precedes at h
    rw [hy] at h
    cases ha : a.lastMessageAt with
    | none => simp [ha] at h
    | some x =>
        rw [ha] at h
        rcases h with hlt | ⟨rfl, -⟩
        · exact ⟨x, rfl, Nat.le_of_lt hlt⟩
        · exact ⟨x, rfl, Nat.le_refl x⟩

/-- Reaching back further only adds the cursor to the filter. -/
theorem matching_older {w3Account : PyStr} {bizId : Option PyStr} {before : Option Timestamp}
    {t : SessionTable} {b : Timestamp} (hb : ∀ t', before = some t' → b ≤ t') :
    matching w3Account bizId (some b) t =
      (matching w3Account bizId before t).filter (older Session.lastMessageAt b) := by
  rw [matching, matching, List.filter_filter]
  refine List.filter_congr fun row _ => ?_
  cases hlast : row.lastMessageAt with
  | none => simp [Session.listed, older, hlast]
  | some y =>
      cases before with
      | none => simp [Session.listed, older, hlast, Bool.and_comm]
      | some t' =>
          have hle := hb t' rfl
          by_cases hlt : y < b
          · have hlt' : y < t' := Nat.lt_of_lt_of_le hlt hle
            simp [Session.listed, older, hlast, hlt, hlt']
          · simp [Session.listed, older, hlast, hlt]

/-- The last item of a page is one of the rows it selects. -/
theorem last_of_page {order : SessionOrder} {w3Account : PyStr} {bizId : Option PyStr}
    {limit : Nat} {before : Option Timestamp} {t : SessionTable} {s : Session} {b : Timestamp}
    (h : (listByUser order w3Account bizId limit before t).getLast? = some s)
    (hb : s.lastMessageAt = some b) :
    (∃ row ∈ matching w3Account bizId before t, row.lastMessageAt = some b) ∧
      ∀ t', before = some t' → b ≤ t' := by
  obtain ⟨row, hrow, rfl⟩ := List.mem_map.mp (List.mem_of_getLast? h)
  have hmem : row ∈ matching w3Account bizId before t :=
    (order.perm _).mem_iff.mp (List.mem_of_mem_take hrow)
  refine ⟨⟨row, hmem, hb⟩, ?_⟩
  rintro t' rfl
  have hlisted := List.of_mem_filter hmem
  have hkey : row.lastMessageAt = some b := hb
  simp only [Session.listed, hkey, Option.all_some, Option.any_some, Bool.and_eq_true,
    decide_eq_true_eq] at hlisted
  exact Nat.le_of_lt hlisted.2

/-- Page after page, until one is empty or its last item has no
    `last_message_at`. -/
def pagesBefore (order : SessionOrder) (w3Account : PyStr) (bizId : Option PyStr) (limit : Nat)
    (t : SessionTable) (before : Option Timestamp) : List Session :=
  match _hlast : (listByUser order w3Account bizId limit before t).getLast? with
  | none => []
  | some s => match _hb : s.lastMessageAt with
    | none => listByUser order w3Account bizId limit before t
    | some b => listByUser order w3Account bizId limit before t ++
        pagesBefore order w3Account bizId limit t (some b)
termination_by (matching w3Account bizId before t).length
decreasing_by
  obtain ⟨⟨row, hrow, hkey⟩, hbefore⟩ := last_of_page _hlast _hb
  rw [matching_older hbefore]
  exact length_filter_older_lt hrow hkey

section Pages

variable {order : SessionOrder} {w3Account : PyStr} {bizId : Option PyStr} {limit : Nat}
  {t : SessionTable}

/-- Paging through the list is paging by `last_message_at`. -/
theorem pagesBefore_eq (before : Option Timestamp) :
    pagesBefore order w3Account bizId limit t before =
      (pagesOf order.sorting limit (matching w3Account bizId before t)).map rowToSession := by
  induction hn : (matching w3Account bizId before t).length using Nat.strongRecOn
    generalizing before with
  | ind n ih =>
      have hpage : listByUser order w3Account bizId limit before t =
          ((order.sorting.sort (matching w3Account bizId before t)).take limit).map rowToSession :=
        rfl
      rw [pagesBefore]
      split
      · rename_i hlast
        rw [hpage, List.getLast?_map, Option.map_eq_none_iff] at hlast
        rw [pagesOf_of_none hlast]
        rfl
      · rename_i s hlast
        have hkey := hlast
        rw [hpage, List.getLast?_map, Option.map_eq_some_iff] at hkey
        obtain ⟨row, hrow, rfl⟩ := hkey
        split
        · rename_i hnone
          rw [pagesOf_of_unkeyed hrow hnone]
          rfl
        · rename_i b hb
          obtain ⟨⟨last, hmem, hlastKey⟩, hbefore⟩ := last_of_page hlast hb
          have hshorter : (matching w3Account bizId (some b) t).length < n := by
            rw [matching_older hbefore, ← hn]
            exact length_filter_older_lt hmem hlastKey
          rw [ih _ hshorter (some b) rfl, pagesOf_of_key hrow hb, List.map_append,
            matching_older hbefore]
          rfl

/-- The rows that match are told apart by their threads. -/
theorem matching_nodup (before : Option Timestamp) :
    ((matching w3Account bizId before t).map Session.threadId).Nodup :=
  t.primaryKey.sublist (List.filter_sublist.map _)

/-- Each matching session of the account is shown exactly once. -/
def ShowsEachOnce (order : SessionOrder) (w3Account : PyStr) (bizId : Option PyStr) (limit : Nat)
    (t : SessionTable) : Prop :=
  (pagesBefore order w3Account bizId limit t none).Perm
    ((matching w3Account bizId none t).map rowToSession)

theorem showsEachOnce_iff : ShowsEachOnce order w3Account bizId limit t ↔
    (pagesOf order.sorting limit (matching w3Account bizId none t)).Perm
      (matching w3Account bizId none t) := by
  rw [ShowsEachOnce, pagesBefore_eq]
  refine ⟨fun h => ?_, fun h => h.map rowToSession⟩
  have hids := h.map Session.threadId
  rw [List.map_map, List.map_map] at hids
  have hnodup : ((matching w3Account bizId none t).map Session.threadId).Nodup :=
    matching_nodup none
  have hpages : ((pagesOf order.sorting limit (matching w3Account bizId none t)).map
      Session.threadId).Nodup := hids.nodup_iff.mpr hnodup
  refine (List.perm_ext_iff_of_nodup hpages.of_map hnodup.of_map).mpr fun row => ?_
  refine ⟨mem_pagesOf, fun hrow => ?_⟩
  -- the thread of the row is on some page, and only this row has it
  obtain ⟨row', hrow', hid⟩ := List.mem_map.mp (hids.mem_iff.mpr (List.mem_map_of_mem hrow))
  rwa [← List.inj_on_of_nodup_map hnodup (mem_pagesOf hrow') hrow hid]

/-- Paging shows every session exactly once if and only if one page is enough, or
    every session has a `last_message_at` and no page ends inside a group of equal
    ones. -/
theorem paging_complete_iff (order : SessionOrder) (w3Account : PyStr) (bizId : Option PyStr)
    (limit : Nat) (t : SessionTable) (hlimit : 0 < limit) :
    ShowsEachOnce order w3Account bizId limit t ↔
      (matching w3Account bizId none t).length ≤ limit ∨
        Apart Session.lastMessageAt limit (matching w3Account bizId none t) := by
  rw [showsEachOnce_iff]
  exact perm_pagesOf_iff hlimit

end Pages

-- ============================================================================
-- Two sessions, one on a page
-- ============================================================================

/-- A session of `alice`. -/
def aliceSession (threadId : PyStr) (lastMessageAt : Option Timestamp) : Session where
  threadId := threadId
  bizId := py "topic"
  w3Account := py "alice"
  title := none
  status := py "active"
  createdAt := 1
  updatedAt := 1
  lastMessageAt := lastMessageAt
  ext := .obj []

/-- Two sessions of hers. -/
def twoSessions (first second : Option Timestamp) : SessionTable where
  rows := [aliceSession (py "th_1") first, aliceSession (py "th_2") second]
  primaryKey := by
    simp only [List.map_cons, List.map_nil, aliceSession]
    decide

theorem matching_twoSessions (first second : Option Timestamp) :
    matching (py "alice") none none (twoSessions first second) =
      [aliceSession (py "th_1") first, aliceSession (py "th_2") second] := by
  simp [matching, twoSessions, Session.listed, aliceSession]

/-- Last messages at different times. -/
theorem paging_complete_iff_apart :
    ShowsEachOnce .byThread (py "alice") none 1 (twoSessions (some 5) (some 9)) := by
  refine (paging_complete_iff .byThread (py "alice") none 1 _ (by decide)).mpr (.inr ?_)
  rw [matching_twoSessions]
  refine ⟨by simp [aliceSession], fun t j => ?_⟩
  simp only [newer, notOlder, aliceSession, List.countP_cons, List.countP_nil, Option.any_some,
    decide_eq_true_eq]
  split_ifs <;> omega

/-- Two last messages at one time, and a session without one: only the first page
    has an item, and the second session is never shown. -/
theorem paging_incomplete :
    ¬ ShowsEachOnce .byThread (py "alice") none 1 (twoSessions (some 5) (some 5)) ∧
      ¬ ShowsEachOnce .byThread (py "alice") none 1 (twoSessions (some 5) none) := by
  constructor
  · rw [showsEachOnce_iff, perm_pagesOf_iff (by decide), matching_twoSessions]
    rintro (hshort | hapart)
    · exact absurd hshort (by decide)
    · exact hapart.apart 5 1 (by decide)
  · rw [showsEachOnce_iff, perm_pagesOf_iff (by decide), matching_twoSessions]
    rintro (hshort | hapart)
    · exact absurd hshort (by decide)
    · exact hapart.keyed (aliceSession (py "th_2") none) (by simp) rfl

end MasterAgent
