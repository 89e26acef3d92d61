import BrowCast.Runs.GuardedMachine
import BrowCast.Runs.Tally
import BrowCast.Runs.Effects
import BrowCast.JavaScript.InsertionMap
import BrowCast.JavaScript.Number
import BrowCast.JavaScript.JsonValue
import BrowCast.Server.State
import BrowCast.Server.Handlers
import BrowCast.Server.Events
import BrowCast.Server.Sending
import BrowCast.Server.Transitions
import BrowCast.Server.Registry
import BrowCast.Server.RegistryView
import BrowCast.Server.RegistryRefinement
import BrowCast.Server.AgentSlot
import BrowCast.Server.ViewerRegistry
import BrowCast.Server.SessionCoherence
import BrowCast.Server.AgentStatus
import BrowCast.Server.Rejection
import BrowCast.Server.FailedMessages
import BrowCast.Server.Compartments
import BrowCast.Server.Ownership
import BrowCast.Server.Isolation
import BrowCast.Server.Broadcast
import BrowCast.Agent.Joining
import BrowCast.Server.Gauges
import BrowCast.Agent.CaptureManager
import BrowCast.Agent.ImageProcessor
import BrowCast.Agent.InputInjector
import BrowCast.Agent.MessageHandler
import BrowCast.Agent.MouseMessages
import BrowCast.Agent.PointerTargeting
import BrowCast.Agent.ButtonPlace
import BrowCast.Agent.KeyMessages
import BrowCast.Agent.KeyboardSimulation
import BrowCast.Web.Page
import BrowCast.Web.ViewerInput
import BrowCast.Web.Viewer
import BrowCast.Web.Superseded
import BrowCast.Web.Disconnecting
import BrowCast.Web.NewestFrame
import BrowCast.JavaScript.Arithmetic
import BrowCast.Web.InputGuard
import BrowCast.Runs.Echo
import BrowCast.Web.Gestures
import BrowCast.Encodings.PercentEncoding
import BrowCast.Server.QueryString
import BrowCast.Web.SessionIds
import BrowCast.Agent.WebSocketClient
import BrowCast.Agent.Base64Encoding
import BrowCast.Agent.PixelMapping
import BrowCast.Geometry.PixelGrid
import BrowCast.Web.PixelCells
import BrowCast.Server.Scaling
import BrowCast.Agent.CapturePaths
import BrowCast.Runs.Ledger
import BrowCast.Agent.GdiObjects
import BrowCast.Runs.History
import BrowCast.Server.Notices
import BrowCast.Server.SentFrames
import BrowCast.Server.Screens
import BrowCast.Server.OwnScreens
import BrowCast.Server.Negotiation
import BrowCast.Web.Letterbox
import BrowCast.Agent.Base64Shifts
import BrowCast.Agent.WheelDirection
import BrowCast.Agent.HandlerOrder
import BrowCast.Server.Heartbeat
import BrowCast.Agent.WindowEnumerator
import BrowCast.JavaScript.Lines
import BrowCast.Summary.Splitter
import BrowCast.Summary.FenceBalance
import BrowCast.JavaScript.Replace
import BrowCast.Summary.SourceText
import BrowCast.Summary.CommentStripping
import BrowCast.Summary.CleanText
import BrowCast.Agent.MainThread
import BrowCast.Server.InputRelay
import BrowCast.System.Channels
import BrowCast.Server.Relays
import BrowCast.System.InputPath
import BrowCast.System.FramePath
import BrowCast.Server.PlainMessages
import BrowCast.System.OwnClients
import BrowCast.WebSocket.Utf8Validator
import BrowCast.Encodings.BigEndian
import BrowCast.Runs.StagedReader
import BrowCast.WebSocket.Acceptance
import BrowCast.WebSocket.Streams
