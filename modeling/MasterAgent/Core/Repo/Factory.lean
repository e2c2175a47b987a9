/-
  MasterAgent.Core.Repo.Factory

  The repositories as the service sees them: a connection is acquired, calls are
  made on it, and it is released.  `Repos` is any implementation over a world
  `σ`; every call may return or raise as it likes.
-/

import MasterAgent.Core.Graph.Act
import MasterAgent.Lib.Monitor

namespace MasterAgent

open Effect

variable {σ α : Type}

/-- A session and a message repository factory. -/
structure Repos (σ : Type) where
  acquire : σ → Except Exn Unit × σ
  release : σ → Except Exn Unit × σ
  getOrCreate : (threadId : Json) → (bizId w3Account : PyStr) → σ → Except Exn Session × σ
  append : Message → σ → Except Exn Unit × σ
  listRecent : (threadId : Json) → (limit : Nat) → σ → Except Exn (List Message) × σ
  touch : (threadId : Json) → σ → Except Exn Unit × σ

namespace Repos

variable (repos : Repos σ)

/-- `await session_repo.get_or_create(...)`. -/
def callGetOrCreate (threadId : Json) (bizId w3Account : PyStr) : Prog σ Session :=
  Eff.call (repos.getOrCreate threadId bizId w3Account) (.getOrCreate threadId bizId w3Account)

/-- `await message_repo.append(msg=...)`. -/
def callAppend (msg : Message) : Prog σ Unit :=
  Eff.call (repos.append msg) (.append msg)

/-- `await message_repo.list_recent(...)`. -/
def callListRecent (threadId : Json) (limit : Nat) : Prog σ (List Message) :=
  Eff.call (repos.listRecent threadId limit) (.listRecent threadId limit)

/-- `await session_repo.touch(...)`. -/
def callTouch (threadId : Json) : Prog σ Unit :=
  Eff.call (repos.touch threadId) (.touch threadId)

/-- `async with session_repo_factory.acquire() as conn: body`: the connection is
    released however the body is left, and what leaves the body goes on after
    the release unless that raises itself. -/
def withConn (body : Prog σ α) : Prog σ α := do
  Eff.call repos.acquire .acquire
  let r ← Eff.attempt body
  Eff.call repos.release .release
  Eff.ofExcept r

/-- What leaves the block: the failure of the acquisition, that of the release,
    or what left the body. -/
theorem withConn_result (body : Prog σ α) (w : σ) :
    (repos.withConn body w).result =
      match (repos.acquire w).1 with
      | .error e => .error e
      | .ok () => match (repos.release (body (repos.acquire w).2).world).1 with
          | .error e => .error e
          | .ok () => (body (repos.acquire w).2).result := by
  simp only [withConn, Eff.bind_apply, Eff.call, Eff.attempt_apply]
  cases (repos.acquire w).1 with
  | error e => rfl
  | ok u =>
      cases (repos.release (body (repos.acquire w).2).world).1 with
      | error e => simp [Run.after]
      | ok u => simp [Run.after]

/-- The block returns what its body returns. -/
theorem withConn_returns {P : α → Prop} {body : Prog σ α} (h : body.ReturnsOnly P) :
    (repos.withConn body).ReturnsOnly P := by
  intro w a ha
  rw [withConn_result] at ha
  split at ha
  · cases ha
  · split at ha
    · cases ha
    · exact h _ a ha

/-- A monitor that does not care about the connection sees the body. -/
theorem withConn_watched {G : Type} {δ : G → Act → Option G} {g : G} {body : Prog σ α}
    {Q : α → G → Prop} (hacquire : ∀ g r, δ g (.acquire r) = some g)
    (hrelease : ∀ g r, δ g (.release r) = some g) (h : Watched δ g body Q) :
    Watched δ g (repos.withConn body) Q := by
  refine (Watched.call (hacquire g)).bind fun _ g₁ hg₁ => ?_
  subst hg₁
  refine h.attempt.bind fun r g₂ hr => ?_
  refine (Watched.call (hrelease g₂)).bind fun _ g₃ hg₃ => ?_
  subst hg₃
  exact .ofExcept hr

/-- The block succeeds with its body when a failure of the connection shows. -/
theorem withConn_succeeds {fine : Act → Prop} {body : Prog σ α} {Q : α → Prop}
    (hacquire : ∀ e, ¬ fine (.acquire (.error e))) (hrelease : ∀ e, ¬ fine (.release (.error e)))
    (h : body.Succeeds fine Q) : (repos.withConn body).Succeeds fine Q := by
  refine (Eff.Succeeds.call_shown hacquire).bind fun _ _ => ?_
  refine h.attempt.bind fun r hr => ?_
  obtain ⟨a, rfl, hQ⟩ := hr
  exact (Eff.Succeeds.call_shown hrelease).bind fun _ _ => .ofExcept rfl hQ

end Repos

end MasterAgent
