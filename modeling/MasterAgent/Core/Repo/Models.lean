/-
  MasterAgent.Core.Repo.Models

  The session and message records (`ma/core/repo/models.py`) and the two tables
  of `db/versions/0001_init_session_message.py`.  A table carries its
  constraints, so a table that violates one cannot be built.

  A `Message` on its way into the repository holds whatever value the transport
  put into the request: thread id, content and request id are untyped JSON until
  the driver binds them to a text column.
-/

import MasterAgent.Python.Value

namespace MasterAgent

/-- A `TIMESTAMP`, in microseconds. -/
abbrev Timestamp : Type := Nat

/-- A row of `ma_session`, and the `Session` made from it. -/
structure Session where
  threadId : PyStr
  bizId : PyStr
  w3Account : PyStr
  title : Option PyStr
  status : PyStr
  createdAt : Timestamp
  updatedAt : Timestamp
  lastMessageAt : Option Timestamp
  ext : Json

/-- The `Message` dataclass. -/
structure Message where
  messageId : PyStr
  threadId : Json
  seq : Int
  role : PyStr
  content : Json
  contentMeta : Json := .obj []
  status : PyStr := py "complete"
  route : Option PyStr := none
  requestId : Json := .null
  createdAt : Option Timestamp := none
  ext : Json := .obj []

/-- A row of `ma_message`. -/
structure MessageRow where
  messageId : PyStr
  threadId : PyStr
  seq : Int
  role : PyStr
  content : PyStr
  contentMeta : Json
  status : PyStr
  route : Option PyStr
  requestId : Option PyStr
  createdAt : Timestamp
  ext : Json

/-- The columns of `UNIQUE (thread_id, seq)`. -/
def MessageRow.slot (r : MessageRow) : PyStr × Int := (r.threadId, r.seq)

/-- `ma_session`, with `PRIMARY KEY (thread_id)`. -/
structure SessionTable where
  rows : List Session
  primaryKey : (rows.map Session.threadId).Nodup

/-- `ma_message`, with `PRIMARY KEY (message_id)` and `UNIQUE (thread_id, seq)`. -/
structure MessageTable where
  rows : List MessageRow
  primaryKey : (rows.map MessageRow.messageId).Nodup
  uniqueSlot : (rows.map MessageRow.slot).Nodup

/-- `ma_session` without rows. -/
def SessionTable.empty : SessionTable := ⟨[], List.nodup_nil⟩

/-- `ma_message` without rows. -/
def MessageTable.empty : MessageTable := ⟨[], List.nodup_nil, List.nodup_nil⟩

/-- Binding a value to a `VARCHAR` or `TEXT` argument: the driver takes strings
    only. -/
def bindText : Json → Except Exn PyStr
  | .str s => .ok s
  | _ => .error .dbError

/-- Binding a value to a nullable text argument. -/
def bindTextOrNull : Json → Except Exn (Option PyStr)
  | .null => .ok none
  | .str s => .ok (some s)
  | _ => .error .dbError

@[simp] theorem bindText_eq_ok {v : Json} {s : PyStr} : bindText v = .ok s ↔ v = .str s := by
  cases v <;> simp [bindText]

theorem bindText_error {v : Json} {e : Exn} (h : bindText v = .error e) : e = .dbError := by
  cases v <;> simp [bindText] at h <;> exact h.symm

theorem bindTextOrNull_error {v : Json} {e : Exn} (h : bindTextOrNull v = .error e) :
    e = .dbError := by
  cases v <;> simp [bindTextOrNull] at h <;> exact h.symm

end MasterAgent
