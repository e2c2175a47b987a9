/-
  MasterAgent.Core.Graph.Act

  What a chat request does to its environment, act by act: events dispatched and
  yielded, plugin calls, repository calls, and the steps of the graph.  The
  programs of the service are effect programs over these acts.
-/

import MasterAgent.Core.Plugin.Base
import MasterAgent.Lib.Effect

namespace MasterAgent

open Effect

inductive Act where
  /-- `adispatch_custom_event`. -/
  | emit (ev : ChatEvent)
  /-- `yield` of `ChatService.handle`. -/
  | yield (ev : ChatEvent)
  | sleep (ms : Nat)
  | authorize (state : GraphState) (result : Except Exn AuthResult)
  | enrich (state : GraphState) (result : Except Exn EnrichResult)
  | classify (state : GraphState) (attempt : Nat) (result : Except Exn IntentResult)
  | run (state : GraphState) (output : Bool) (attempt : Nat)
  | acquire (result : Except Exn Unit)
  | release (result : Except Exn Unit)
  | getOrCreate (threadId : Json) (bizId w3Account : PyStr) (result : Except Exn Session)
  | append (msg : Message) (result : Except Exn Unit)
  | listRecent (threadId : Json) (limit : Nat) (result : Except Exn (List Message))
  | touch (threadId : Json) (result : Except Exn Unit)
  /-- The graph starts a node. -/
  | enter (node : PyStr)
  /-- The graph merges what a node returned. -/
  | write (node : PyStr) (update : Update)

/-- The act calls no repository. -/
def Act.offline : Act → Bool
  | .getOrCreate _ _ _ _ => false
  | .append _ _ => false
  | .listRecent _ _ _ => false
  | .touch _ _ => false
  | _ => true

/-- The event an act yields. -/
def Act.yielded : Act → Option ChatEvent
  | .yield ev => some ev
  | _ => none

/-- The programs of the service over world `σ`. -/
abbrev Prog (σ α : Type) : Type := Eff σ Exn Act α

/-- What a node awaits besides plugins and repositories: the dispatch of a
    custom event and the backoff sleep. -/
structure NodeEnv (σ : Type) where
  emit : ChatEvent → Prog σ Unit
  sleep : (ms : Nat) → Prog σ Unit

/-- Dispatch delivers every event and sleeping is not interrupted. -/
def NodeEnv.live (σ : Type) : NodeEnv σ where
  emit := fun ev => Eff.act (.emit ev)
  sleep := fun ms => Eff.act (.sleep ms)

/-- Call a plugin and record the answer. -/
def callPlugin {σ α : Type} (t : Except Exn α → Act) (answer : Except Exn α) : Prog σ α :=
  Eff.call (fun w => (answer, w)) t

end MasterAgent
