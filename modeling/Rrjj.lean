import Rrjj.Library.Proc
import Rrjj.Schema
import Rrjj.Sinks.Traits
import Rrjj.Core.Audit
import Rrjj.Core.Coordinator
import Rrjj.Core.Steps
import Rrjj.Core.Refinement
import Rrjj.Core.Commands
import Rrjj.Core.Retention
import Rrjj.Core.Publication
import Rrjj.Core.Barrier
import Rrjj.Core.Ledger
import Rrjj.Core.Conservation
import Rrjj.Core.Settling
import Rrjj.Sinks.Http
import Rrjj.Sinks.HttpRules
import Rrjj.Sinks.Delivery
import Rrjj.Sinks.CursorIsolation
import Rrjj.Sinks.HonestReceiver
import Rrjj.Core.Recovery
import Rrjj.Core.Daemon
import Rrjj.Core.Pausing
import Rrjj.Core.Scheduling
import Rrjj.Sinks.Journal
import Rrjj.Sinks.Durable
import Rrjj.Sinks.Checkpoints
import Rrjj.Sinks.Acceptance
import Rrjj.Sinks.Convergence
import Rrjj.Library.FileTree
import Rrjj.Reader.Session
import Rrjj.Sinks.Local
import Rrjj.Sinks.LocalRules
import Rrjj.Sinks.LocalWrites
import Rrjj.Sinks.LocalCalls
import Rrjj.Sinks.SpoolIntegrity
import Rrjj.Reader.Timeline
import Rrjj.Sinks.Published
import Rrjj.Sinks.Leftovers
import Rrjj.Sinks.CrashSafety
import Rrjj.Sinks.Watermarks
import Rrjj.Sinks.Handover
import Rrjj.Core.Freshness
import Rrjj.Core.Capture
import Rrjj.Core.Limits
import Rrjj.Core.Grammar
import Rrjj.Core.Lineage
import Rrjj.Sinks.CompareAndSwap
import Rrjj.Library.JsValue
import Rrjj.Ui.LiveTimeline
import Rrjj.Core.Ignores
import Rrjj.Sinks.Mirror
import Rrjj.Library.Footprint
import Rrjj.Sinks.Gathering
import Rrjj.Sinks.Durability
import Rrjj.Sinks.Batches
import Rrjj.Reader.Codec
import Rrjj.Reader.Soundness
import Rrjj.Reader.ObjectId
import Rrjj.Core.AuditPaths
import Rrjj.Core.Pacing
import Rrjj.Reader.Diff
import Rrjj.Library.LinkTree
import Rrjj.Core.Roots
import Rrjj.Reader.Materialize
import Rrjj.Library.Replace
import Rrjj.Sinks.Redaction
import Rrjj.Library.RefName
import Rrjj.Sinks.SessionRefs
import Rrjj.Core.Sizes
import Rrjj.Core.Calls
import Rrjj.Sinks.LocalDriven
import Rrjj.Core.Control
import Rrjj.Reader.Unreadable
import Rrjj.Library.JsString
import Rrjj.Library.Broadcast
import Rrjj.Ui.Rendering
import Rrjj.Ui.LiveView
import Rrjj.Ui.LiveSession
import Rrjj.Ui.LiveFollowing
import Rrjj.Ui.LiveItems
import Rrjj.Reader.Lookup
import Rrjj.Core.Notifications
import Rrjj.Sinks.RemoteDriven
import Rrjj.Core.ControlSocket
import Rrjj.Core.Backends
import Rrjj.Sinks.Numbering
