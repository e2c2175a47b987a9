/-
  MasterAgent.Core.Plugin.Base

  The plugin contracts (`ma/core/plugin/base.py`).  A plugin is arbitrary code:
  each call may return any value of its result type or raise.  Calls that a node
  repeats carry the attempt number, so that every attempt may behave on its own.
  A value of another type than the contract's makes the caller raise where it
  reads the first attribute, just as if the call itself had raised.
-/

import MasterAgent.Core.Graph.State

namespace MasterAgent

structure AuthPlugin where
  authorize : GraphState → Except Exn AuthResult

structure EnrichPlugin where
  enrich : GraphState → Except Exn EnrichResult

structure IntentPlugin where
  classify : (attempt : Nat) → GraphState → Except Exn IntentResult

/-- One iteration over `adapter.run`: the events it yields, and whether it then
    ends or raises. -/
structure Attempt where
  events : List ChatEvent
  ending : Except Exn Unit

structure DownstreamAdapter where
  run : (attempt : Nat) → GraphState → (output : Bool) → Attempt

end MasterAgent
