/-
  MasterAgent.Api.SessionPaging

  A client that pages through `GET /sessions`: it takes the `last_message_at` of the
  last item as the next `before`, and stops at an empty page or an item without
  one.  Its pages are those of the board that the statements of all requests have
  made of the session table.
-/

import MasterAgent.Api.Rest
import MasterAgent.Core.Repo.SessionRecency
import MasterAgent.Python.JsonText

namespace MasterAgent

open Effect Recency

/-- Texts of `isoformat` are read back by `fromisoformat`. -/
structure RestEnv.ReadsBack (env : RestEnv) : Prop where
  nonempty : ∀ t, env.isoformat t ≠ []
  parsed : ∀ t, env.fromIsoformat (env.isoformat t) = .ok (.naive t)

-- ============================================================================
-- The client
-- ============================================================================

/-- The items of a response. -/
def responseItems : Json → List Json
  | .obj fields => match Json.field (py "items") fields with
      | some (.arr items) => items
      | _ => []
  | _ => []

/-- The `last_message_at` of an item. -/
def itemCursor : Json → Option PyStr
  | .obj fields => match Json.field (py "last_message_at") fields with
      | some (.str cursor) => some cursor
      | _ => none
  | _ => none

/-- The items of all pages from `before` on, or the error of the first page that
    fails; `none` when `calls` requests are not enough. -/
def followPages (env : RestEnv) (s : Store) (account : Option PyStr) (query : SessionsQuery) :
    (calls : Nat) → (before : Option PyStr) → Option (Except RestError (List Json))
  | 0, _ => none
  | calls + 1, before =>
      match listSessions env true s account { query with before := before } with
      | .error e => some (.error e)
      | .ok response => match (responseItems response).getLast?.bind itemCursor with
          | none => some (.ok (responseItems response))
          | some cursor => (followPages env s account query calls (some cursor)).map
              fun rest => rest.map (responseItems response ++ ·)

section Client

variable {env : RestEnv} {s : Store} {w3 : PyStr} {query : SessionsQuery} {limit : Nat}

theorem queryLimit_pos {n : Option Int} (h : queryLimit n = .ok limit) : 0 < limit := by
  unfold queryLimit at h
  split at h
  · cases h
    omega
  · split at h
    · cases h
      omega
    · cases h

theorem requireW3Account_of_ne (h : w3 ≠ []) : requireW3Account (some w3) = .ok w3 := by
  cases w3 with
  | nil => exact absurd rfl h
  | cons c account => rfl

/-- The text of a time as a cursor is that time. -/
theorem queryBefore_isoformat (h : env.ReadsBack) (t : Timestamp) :
    queryBefore env (some (env.isoformat t)) = .ok (some t) := by
  have hne := h.nonempty t
  have hparsed := h.parsed t
  cases htext : env.isoformat t with
  | nil => exact absurd htext hne
  | cons c text =>
      rw [htext] at hparsed
      simp only [queryBefore, hparsed, bindTimestamp]

/-- The answer to a request with a limit, an account and a cursor that are in order. -/
theorem listSessions_ok (hlimit : queryLimit query.limit = .ok limit) (hw3 : w3 ≠ [])
    {cursor : Option PyStr} {before : Option Timestamp}
    (hbefore : queryBefore env cursor = .ok before) :
    listSessions env true s (some w3) { query with before := cursor } =
      .ok (.obj [(py "items", .arr ((listByUser env.order w3 query.bizId limit before
        s.sessions).map (serializeSession env)))]) := by
  simp only [listSessions, hlimit, requireW3Account_of_ne hw3, hbefore]
  rfl

theorem responseItems_items (items : List Json) :
    responseItems (.obj [(py "items", .arr items)]) = items := by
  simp [responseItems, Json.field]

/-- The cursor of an item is the text of the session's `last_message_at`. -/
theorem itemCursor_session (row : Session) :
    itemCursor (serializeSession env row) = row.lastMessageAt.map env.isoformat := by
  have hfield : Json.field (py "last_message_at") [(py "thread_id", .str row.threadId),
      (py "biz_id", .str row.bizId), (py "w3_account", .str row.w3Account),
      (py "title", optionText row.title), (py "status", .str row.status),
      (py "created_at", .str (env.isoformat row.createdAt)),
      (py "updated_at", .str (env.isoformat row.updatedAt)),
      (py "last_message_at", optionText (row.lastMessageAt.map env.isoformat))] =
        some (optionText (row.lastMessageAt.map env.isoformat)) := rfl
  simp only [itemCursor, serializeSession, hfield]
  cases row.lastMessageAt <;> rfl

/-- The pages are those of one page and what is before its cursor. -/
theorem pagesBefore_cases {order : SessionOrder} {bizId : Option PyStr} (t : SessionTable)
    (before : Option Timestamp) :
    pagesBefore order w3 bizId limit t before =
      listByUser order w3 bizId limit before t ++
        match (listByUser order w3 bizId limit before t).getLast?.bind Session.lastMessageAt with
        | none => []
        | some last => pagesBefore order w3 bizId limit t (some last) := by
  rw [pagesBefore]
  split
  · next hlast =>
    rw [hlast, List.getLast?_eq_none_iff.mp hlast]
    rfl
  · next row hlast =>
    rw [hlast]
    split
    · next hnone => simp [hnone]
    · next last hsome => simp [hsome]

/-- Following the cursors comes to an end, with the pages of the repository. -/
theorem followPages_eq (hread : env.ReadsBack) (hlimit : queryLimit query.limit = .ok limit)
    (hw3 : w3 ≠ []) (calls : Nat) (cursor : Option PyStr) (before : Option Timestamp)
    (hbefore : queryBefore env cursor = .ok before)
    (hcalls : (matching w3 query.bizId before s.sessions).length < calls) :
    followPages env s (some w3) query calls cursor =
      some (.ok ((pagesBefore env.order w3 query.bizId limit s.sessions before).map
        (serializeSession env))) := by
  induction calls generalizing cursor before with
  | zero => exact absurd hcalls (Nat.not_lt_zero _)
  | succ calls ih =>
      have hcursor : ((listByUser env.order w3 query.bizId limit before s.sessions).map
          (serializeSession env)).getLast?.bind itemCursor =
            ((listByUser env.order w3 query.bizId limit before s.sessions).getLast?.bind
              Session.lastMessageAt).map env.isoformat := by
        rw [List.getLast?_map]
        cases (listByUser env.order w3 query.bizId limit before s.sessions).getLast? with
        | none => rfl
        | some row => exact itemCursor_session row
      rw [followPages, listSessions_ok hlimit hw3 hbefore, pagesBefore_cases, List.map_append]
      simp only [responseItems_items, hcursor]
      cases hlast : (listByUser env.order w3 query.bizId limit before s.sessions).getLast?.bind
          Session.lastMessageAt with
      | none =>
          simp only [Option.map_none, List.map_nil, List.append_nil]
      | some last =>
          obtain ⟨row, hrow, hkey⟩ := Option.bind_eq_some_iff.mp hlast
          obtain ⟨⟨row', hmem, hkey'⟩, holder⟩ := last_of_page hrow hkey
          have hshorter : (matching w3 query.bizId (some last) s.sessions).length < calls := by
            have hlt := CursorPaging.length_filter_older_lt hmem hkey'
            rw [matching_older holder]
            omega
          simp only [Option.map_some, ih _ _ (queryBefore_isoformat hread last) hshorter]
          rfl

end Client

/-- From empty tables on, whatever statements run in whatever interleaving: there is
    a board that each `get_or_create` has entered its thread on and each `touch` has
    marked it on, and a client that follows the cursors is shown the sessions of its
    account in the order of that board, those last touched first: all that were
    touched, and of the others no more than the first page holds. -/
theorem session_pages_recent (env : RestEnv) (hread : env.ReadsBack)
    {acts : List (Act × (SessionTable × Timestamp))} {start now : Timestamp} {t : SessionTable}
    (h : Path SessionsStep (.empty, start) acts (t, now)) :
    ∃ bs b, bs.map Prod.fst = acts.map Prod.fst ∧ Path BoardStep .empty bs b ∧
      ∀ (messages : MessageTable) (w3 : PyStr) (query : SessionsQuery) (limit calls : Nat),
        w3 ≠ [] → queryLimit query.limit = .ok limit → t.rows.length < calls →
        followPages env ⟨t, messages⟩ (some w3) query calls none =
          some (.ok (((shownSessions b t w3 query.bizId).take
            (max limit ((shownSessions b t w3 query.bizId).countP Session.touched))).map
              (serializeSession env))) := by
  obtain ⟨bs, b, hlabels, hboard, hshows⟩ := sessions_follow_board h
  refine ⟨bs, b, hlabels, hboard, fun messages w3 query limit calls hw3 hlimit hcalls => ?_⟩
  have hfew : (matching w3 query.bizId none t).length < calls :=
    Nat.lt_of_le_of_lt (List.length_filter_le _ _) hcalls
  rw [followPages_eq hread hlimit hw3 calls none none rfl hfew,
    pagesBefore_eq_shown hshows env.order (queryLimit_pos hlimit), List.map_map]
  rfl

-- ============================================================================
-- Two sessions, one of them touched
-- ============================================================================

/-- Texts of times in the first second of 1970, in microseconds; later ones only run
    on. -/
def firstSecond : RestEnv where
  isoformat := fun t => py "1970-01-01T00:00:00." ++
    ((Nat.digits 10 t ++ List.replicate (6 - (Nat.digits 10 t).length) 0).reverse.map Json.digit)
  fromIsoformat := fun text =>
    .ok (.naive (Nat.ofDigits 10 ((text.drop 20).reverse.map fun c => c.val - 48)))
  order := .byThread

theorem firstSecond_readsBack : firstSecond.ReadsBack where
  nonempty := fun t => by simp [firstSecond, py]
  parsed := fun t => by
    have hdigits : ∀ ds : List Nat, (∀ d ∈ ds, d < 10) →
        (ds.map Json.digit).map (fun c => c.val - 48) = ds := by
      intro ds hds
      rw [List.map_map]
      refine (List.map_congr_left fun d hd => ?_).trans (List.map_id ds)
      show (Json.digit d).val - 48 = d
      rw [Json.digit_val (hds d hd)]
      omega
    have hpadded : ∀ d ∈ Nat.digits 10 t ++
        List.replicate (6 - (Nat.digits 10 t).length) 0, d < 10 := by
      intro d hd
      rcases List.mem_append.mp hd with hd | hd
      · exact Nat.digits_lt_base (by omega) hd
      · rw [(List.mem_replicate.mp hd).2]
        omega
    simp only [firstSecond]
    rw [List.drop_append_of_le_length (by simp [py]), List.drop_of_length_le (by simp [py]),
      List.nil_append, ← List.map_reverse, List.reverse_reverse, hdigits _ hpadded,
      Nat.ofDigits_append, Nat.ofDigits_digits, Nat.ofDigits_replicate_zero]
    simp

/-- Alice's call of `get_or_create` for a thread. -/
def aliceCreates (threadId : String) (now : Timestamp) : GetOrCreate where
  threadId := py threadId
  bizId := py "topic"
  w3Account := py "alice"
  now := now

/-- Two threads are created, and the first is touched. -/
def touchedFirst : List (Act × (SessionTable × Timestamp)) :=
  let one := SessionTable.empty.insert (aliceCreates "th_1" 1).newRow
  let two := one.insert (aliceCreates "th_2" 2).newRow
  [(.getOrCreate (.str (py "th_1")) (py "topic") (py "alice")
      (.ok (aliceCreates "th_1" 1).newRow), (one, 2)),
    (.getOrCreate (.str (py "th_2")) (py "topic") (py "alice")
      (.ok (aliceCreates "th_2" 2).newRow), (two, 3)),
    (.touch (.str (py "th_1")) (.ok ()), (two.touch (py "th_1") 3, 4))]

theorem session_pages_recent_touchedFirst : ∃ (t : SessionTable) (b : Board PyStr),
    t.rows.length = 2 ∧
      followPages firstSecond ⟨t, .empty⟩ (some (py "alice")) { limit := some 1 } 3 none =
        some (.ok (((shownSessions b t (py "alice") none).take
          (max 1 ((shownSessions b t (py "alice") none).countP Session.touched))).map
            (serializeSession firstSecond))) := by
  have hpath : Path SessionsStep (.empty, 1) touchedFirst
      (((SessionTable.empty.insert (aliceCreates "th_1" 1).newRow).insert
        (aliceCreates "th_2" 2).newRow).touch (py "th_1") 3, 4) :=
    ⟨⟨1, by decide, by decide, Or.inl rfl⟩, ⟨2, by decide, by decide, Or.inl rfl⟩,
      ⟨3, by decide, by decide, rfl⟩, rfl⟩
  obtain ⟨bs, b, -, -, hpages⟩ := session_pages_recent firstSecond firstSecond_readsBack hpath
  exact ⟨_, b, rfl, hpages .empty (py "alice") { limit := some 1 } 1 3 (by decide) rfl
    (by decide)⟩

end MasterAgent
