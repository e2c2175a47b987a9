/-
  MasterAgent.Core.Topic.Registry

  Compiled topics (`ma/core/topic/compiler.py`) and their registry
  (`ma/core/topic/registry.py`).  The graph spec and the compiled topic carry
  what the configuration model validates and the compiler arranges: a mapping
  leads to declared nodes only, and every declared node has its adapter.
-/

import MasterAgent.Core.Plugin.Base
import MasterAgent.Core.Topic.Config

namespace MasterAgent

/-- A `GraphNode`. -/
structure GraphNode where
  id : PyStr
  output : Bool := true
  retry : Option RetryPolicy := none

/-- `GraphSpec`, with the checks `TopicConfig` makes on it. -/
structure GraphSpec where
  nodes : List GraphNode
  edges : List ConditionalEdge
  edges_ne_nil : edges ≠ []
  mapping_nodes : ∀ e ∈ edges, ∀ entry ∈ e.mapping.entries,
    entry.2 ∈ nodes.map GraphNode.id

/-- What the service uses of a `CompiledTopic`. -/
structure CompiledTopic where
  topicId : PyStr
  defaultRoute : PyStr
  history : HistoryPolicy
  auth : AuthPlugin
  enrich : EnrichPlugin
  intent : IntentPlugin
  adapters : Dict PyStr DownstreamAdapter
  bizParamsModel : BizParamsModel
  errorMessages : Dict PyStr PyStr
  graph : GraphSpec
  intentRetry : Option RetryPolicy := none
  adapterRetries : Dict PyStr RetryPolicy := .empty
  mem_adapters : ∀ n, n ∈ adapters.keys ↔ n ∈ graph.nodes.map GraphNode.id

/-- The mapping of the first conditional edge, the one `_build_graph` installs. -/
def CompiledTopic.mapping (topic : CompiledTopic) : Dict PyStr PyStr :=
  (topic.graph.edges.head topic.graph.edges_ne_nil).mapping

/-- The mapping leads to adapters. -/
theorem CompiledTopic.mapping_adapter {topic : CompiledTopic} {route node : PyStr}
    (h : topic.mapping.get? route = some node) : ∃ a, topic.adapters.get? node = some a := by
  have hentry := Dict.mem_of_find h
  have hnode := topic.graph.mapping_nodes _
    (List.head_mem topic.graph.edges_ne_nil) _ hentry
  exact Dict.exists_get? ((topic.mem_adapters node).mpr hnode)

/-- `TopicRegistry._by_id`. -/
structure TopicRegistry where
  byId : Dict PyStr CompiledTopic

/-- `TopicRegistry.get`; `none` is `TopicNotFound`. -/
def TopicRegistry.get (r : TopicRegistry) (topicId : PyStr) : Option CompiledTopic :=
  r.byId.get? topicId

end MasterAgent
