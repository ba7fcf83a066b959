import MzzPlork.Base.Entries
import MzzPlork.Base.Fairness
import MzzPlork.Base.FileTree
import MzzPlork.Base.JsonGrammar
import MzzPlork.Base.JsonTree
import MzzPlork.Base.Justified
import MzzPlork.Base.Kahn
import MzzPlork.Base.KeyedStore
import MzzPlork.Base.LexPath
import MzzPlork.Base.OrdMap
import MzzPlork.Base.Run
import MzzPlork.Base.SignificantDigits
import MzzPlork.Core.Bootstrap
import MzzPlork.Core.Bytes
import MzzPlork.Core.CacheService
import MzzPlork.Core.ClientEvents
import MzzPlork.Core.ClientId
import MzzPlork.Core.ClientJson
import MzzPlork.Core.ClientThreads
import MzzPlork.Core.ConnectionThreads
import MzzPlork.Core.Dispatch
import MzzPlork.Core.HeartbeatRun
import MzzPlork.Core.HttpDownloader
import MzzPlork.Core.HttpResources
import MzzPlork.Core.JsValue
import MzzPlork.Core.Json
import MzzPlork.Core.JsonParse
import MzzPlork.Core.JsonText
import MzzPlork.Core.JsonTrace
import MzzPlork.Core.Launcher
import MzzPlork.Core.Link
import MzzPlork.Core.Manifest
import MzzPlork.Core.NetworkState
import MzzPlork.Core.NodeDownloader
import MzzPlork.Core.NodePath
import MzzPlork.Core.Protocol
import MzzPlork.Core.Replication
import MzzPlork.Core.ReplicationThreads
import MzzPlork.Core.RequestReply
import MzzPlork.Core.ResourceManager
import MzzPlork.Core.ResourceRegistry
import MzzPlork.Core.Runtime
import MzzPlork.Core.ServerConnection
import MzzPlork.Core.ServerWire
import MzzPlork.Core.Session
import MzzPlork.Core.TcpServer
import MzzPlork.Core.UpdateManager
import MzzPlork.Theory.Accepts
import MzzPlork.Theory.Accounting
import MzzPlork.Theory.Acts
import MzzPlork.Theory.Advertised
import MzzPlork.Theory.Agreement
import MzzPlork.Theory.AllOrNothing
import MzzPlork.Theory.Answers
import MzzPlork.Theory.Backed
import MzzPlork.Theory.Blocked
import MzzPlork.Theory.Bookkeeping
import MzzPlork.Theory.Bystander
import MzzPlork.Theory.CacheMap
import MzzPlork.Theory.Cached
import MzzPlork.Theory.CatchUp
import MzzPlork.Theory.Channel
import MzzPlork.Theory.Contain
import MzzPlork.Theory.Conversation
import MzzPlork.Theory.Coupled
import MzzPlork.Theory.Difference
import MzzPlork.Theory.Directory
import MzzPlork.Theory.DirtyFlag
import MzzPlork.Theory.Download
import MzzPlork.Theory.Encoding
import MzzPlork.Theory.Ending
import MzzPlork.Theory.Escapes
import MzzPlork.Theory.EventText
import MzzPlork.Theory.Fidelity
import MzzPlork.Theory.Foreign
import MzzPlork.Theory.Framing
import MzzPlork.Theory.Guard
import MzzPlork.Theory.Handover
import MzzPlork.Theory.Healing
import MzzPlork.Theory.Identity
import MzzPlork.Theory.InBounds
import MzzPlork.Theory.Independence
import MzzPlork.Theory.Install
import MzzPlork.Theory.Invisible
import MzzPlork.Theory.Joined
import MzzPlork.Theory.JsonParse
import MzzPlork.Theory.Leftovers
import MzzPlork.Theory.Lifecycle
import MzzPlork.Theory.Lines
import MzzPlork.Theory.LoadAll
import MzzPlork.Theory.LoadOrder
import MzzPlork.Theory.LocalPlayer
import MzzPlork.Theory.Messages
import MzzPlork.Theory.Mirror
import MzzPlork.Theory.Numerals
import MzzPlork.Theory.Order
import MzzPlork.Theory.Outcome
import MzzPlork.Theory.Pace
import MzzPlork.Theory.Parsing
import MzzPlork.Theory.Plan
import MzzPlork.Theory.PrePass
import MzzPlork.Theory.Presence
import MzzPlork.Theory.Readable
import MzzPlork.Theory.Reapply
import MzzPlork.Theory.Recorded
import MzzPlork.Theory.Registry
import MzzPlork.Theory.Replies
import MzzPlork.Theory.Report
import MzzPlork.Theory.Resume
import MzzPlork.Theory.Rfc8259
import MzzPlork.Theory.ServerReads
import MzzPlork.Theory.SessionClock
import MzzPlork.Theory.Silence
import MzzPlork.Theory.Slots
import MzzPlork.Theory.Smoothing
import MzzPlork.Theory.Staging
import MzzPlork.Theory.StalePartial
import MzzPlork.Theory.Standing
import MzzPlork.Theory.States
import MzzPlork.Theory.Subscription
import MzzPlork.Theory.Teardown
import MzzPlork.Theory.Truthful
import MzzPlork.Theory.TwoRuns
import MzzPlork.Theory.Watchdog
import MzzPlork.Theory.Writing
