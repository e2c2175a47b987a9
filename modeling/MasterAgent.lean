import MasterAgent.Lib.Effect
import MasterAgent.Lib.TraceLang
import MasterAgent.Lib.Dict
import MasterAgent.Lib.Numbering
import MasterAgent.Lib.Interleave
import MasterAgent.Python.Value
import MasterAgent.Core.Repo.Models
import MasterAgent.Core.Repo.MessageRepository
import MasterAgent.Core.Repo.AppendRace
import MasterAgent.Core.Repo.SessionRace
import MasterAgent.Core.Graph.State
import MasterAgent.Core.Topic.Config
import MasterAgent.Plugins.Auth
import MasterAgent.Core.Graph.Act
import MasterAgent.Core.Graph.NodeWrappers
import MasterAgent.Core.Graph.AdapterTrace
import MasterAgent.Core.Graph.AdapterRetry
import MasterAgent.Core.Graph.AdapterDiscipline
import MasterAgent.Core.Graph.Builtins
import MasterAgent.Core.Graph.AdapterCancel
import MasterAgent.Core.Topic.Registry
import MasterAgent.Core.Topic.Compiler
import MasterAgent.Core.Routing
import MasterAgent.Lib.StateGraph
import MasterAgent.Core.ChatService
import MasterAgent.Core.Pipeline
import MasterAgent.Core.Graph.NodeTrace
import MasterAgent.Core.Graph.IntentReference
import MasterAgent.Core.Uncancelled
import MasterAgent.Core.HandleWatch
import MasterAgent.Core.StreamGrammar
import MasterAgent.Core.StageActs
import MasterAgent.Core.StreamEnds
import MasterAgent.Core.GraphActs
import MasterAgent.Core.AnswerPath
import MasterAgent.Lib.Monitor
import MasterAgent.Lib.Lag
import MasterAgent.Lib.EventStream
import MasterAgent.Core.AuthGate
import MasterAgent.Core.StoredStream
import MasterAgent.Lib.Transition
import MasterAgent.Core.Repo.Database
import MasterAgent.Api.Sse
import MasterAgent.Api.Ws
import MasterAgent.Api.Isolation
import MasterAgent.Api.Rest
import MasterAgent.Api.Admission
import MasterAgent.Lib.Machine
import MasterAgent.Python.DictKey
import MasterAgent.Core.Graph.Events
import MasterAgent.Python.JsonText
import MasterAgent.Python.JsonFuel
import MasterAgent.Core.Graph.Encoding
import MasterAgent.Api.Connection
import MasterAgent.Lib.Registry
import MasterAgent.Core.Answerable
import MasterAgent.Core.AnswerRecord
import MasterAgent.Api.TaskRegistry
import MasterAgent.Api.Multiplex
import MasterAgent.Api.Unbroken
import MasterAgent.Core.HistoryRace
import MasterAgent.Core.HistoryWindow
import MasterAgent.Core.HistoryPairing
import MasterAgent.Core.InternalNodes
import MasterAgent.Core.DeclaredNodes
import MasterAgent.Core.AcceptAtomic
import MasterAgent.Lib.Relational
import MasterAgent.Core.Coupling
import MasterAgent.Plugins.Adapter
import MasterAgent.Core.ErrorFrames
import MasterAgent.Core.ErrorTexts
import MasterAgent.Core.AnswerStatus
import MasterAgent.Python.Text
import MasterAgent.Plugins.Enrich
import MasterAgent.Plugins.Intent
import MasterAgent.Core.Whitelist
import MasterAgent.Core.Rejection
import MasterAgent.Python.Utf8
import MasterAgent.Core.Surrogates
import MasterAgent.Api.SseStream
import MasterAgent.Core.Repo.SqlExecutor
import MasterAgent.Python.Lines
import MasterAgent.Plugins.RouteLines
import MasterAgent.Core.LabelChoice
import MasterAgent.Core.Topic.SchemaCheck
import MasterAgent.Core.Repo.SessionPages
import MasterAgent.Plugins.BadFrames
import MasterAgent.Plugins.HttpAnswers
import MasterAgent.Core.FailureShown
import MasterAgent.Python.JsonStyle
import MasterAgent.Python.JsonFloat
import MasterAgent.Core.Repo.MessageLog
import MasterAgent.Lib.Marks
import MasterAgent.Core.Topic.EnvPlaceholders
import MasterAgent.Core.StreamLag
import MasterAgent.Core.DialogueRuns
import MasterAgent.Core.ThreadIsolation
import MasterAgent.Main.Lifespan
import MasterAgent.Cli.Replay
import MasterAgent.Core.Repo.SqlTemplates
import MasterAgent.Api.SessionPaging
import MasterAgent.Core.Memory
import MasterAgent.Lib.SlotPool
import MasterAgent.Core.PoolUse
import MasterAgent.Core.TracedLog
import MasterAgent.Api.MessageView
import MasterAgent.Lib.Costs
import MasterAgent.Core.RequestCost
import MasterAgent.Api.Transports
