import Vergerail.Lib.Machine
import Vergerail.Lib.Channel
import Vergerail.Event
import Vergerail.Session.RunWorld
import Vergerail.Proof.RouteOps
import Vergerail.Session.Registry
import Vergerail.Proof.Terminal
import Vergerail.Proof.RunStage
import Vergerail.Proof.InterruptTurn
import Vergerail.Proof.DeferredTerminal
import Vergerail.Lib.Coalesce
import Vergerail.Proof.Handover
import Vergerail.Lib.Ledger
import Vergerail.Proof.Shadow
import Vergerail.Proof.SlotShadow
import Vergerail.Proof.StaleTurn
import Vergerail.Lib.Latest
import Vergerail.Proof.CoalescedOutput
import Vergerail.Proof.ToldRun
import Vergerail.Proof.AckMoment
import Vergerail.Lib.Fairness
import Vergerail.Session.InterruptWorld
import Vergerail.Proof.OneInterrupt
import Vergerail.Client.Start
import Vergerail.Proof.FailedStart
import Vergerail.Private.Codec
import Vergerail.Proof.Framing
import Vergerail.Private.Protocol
import Vergerail.Bin.IfscTextProvider
import Vergerail.Proof.TextOnly
import Vergerail.Image
import Vergerail.Bin.UpagentProvider
import Vergerail.Proof.BilledAnswer
import Vergerail.Approval.Protocol
import Vergerail.Private.Process
import Vergerail.Approval.Respond
import Vergerail.Proof.OneResponse
import Vergerail.Private.Connection
import Vergerail.Client.GenerateImage
import Vergerail.Proof.BilledOutcome
import Vergerail.Native.Guardian
import Vergerail.Proof.Teardown
import Vergerail.Native.Monitor
import Vergerail.Proof.StopRequest
import Vergerail.Lib.SortedMap
import Vergerail.Bin.NativeSchema
import Vergerail.Proof.SchemaWalk
import Vergerail.Proof.PlainSchema
import Vergerail.Proof.NormalForm
import Vergerail.Lib.Meter
import Vergerail.Proof.OutputBudget
import Vergerail.Proof.WaitingImages
import Vergerail.Client.Router
import Vergerail.Proof.TurnlessEvent
import Vergerail.Account
import Vergerail.Proof.LoginTerminal
import Vergerail.Lib.Checked
import Vergerail.Lib.Lineage
import Vergerail.Bin.ScreenProgram
import Vergerail.Proof.Decimal
import Vergerail.Proof.ContainedTree
import Vergerail.Proof.HiddenAncestor
import Vergerail.JsonText
import Vergerail.Bin.UpagentPrompt
import Vergerail.Proof.ImageAlignment
import Vergerail.Private.Wire
import Vergerail.Proof.WireRoundTrip
import Vergerail.Lib.Crc
import Vergerail.Lib.PngFormat
import Vergerail.Png
import Vergerail.Proof.PngChunks
import Vergerail.Proof.PngGrammar
import Vergerail.Proof.PngRows
import Vergerail.Proof.PngAccepted
import Vergerail.Lib.Trapping
import Vergerail.PngExec
import Vergerail.Proof.PngTotal
import Vergerail.Proof.ManagedRoot
import Vergerail.Proof.ExactCopy
import Vergerail.Lib.CssEscape
import Vergerail.Proof.StyleValues
import Vergerail.Lib.Appended
import Vergerail.Proof.TurnAudit
import Vergerail.Bin.UpagentTools
import Vergerail.Proof.ToolCalls
import Vergerail.Proof.PermissionAuthority
import Vergerail.Lib.Worklist
import Vergerail.Runtime.Layout
import Vergerail.Proof.ExactFileSet
import Vergerail.Lib.Masking
import Vergerail.Proof.CredentialHidden
import Vergerail.JsonRead
import Vergerail.Proof.FailureEnvelope
import Vergerail.Lib.CharBoundary
import Vergerail.Diagnostics
import Vergerail.Proof.DiagnosticOverflow
import Vergerail.Proof.DiagnosticCounter
import Vergerail.Private.Stderr
import Vergerail.Proof.StderrLines
import Vergerail.Lib.LongestSuffix
import Vergerail.Private.Redact
import Vergerail.Proof.StderrRing
import Vergerail.Lib.DecimalDigits
import Vergerail.Proof.DecimalEquality
import Vergerail.JsonWritten
import Vergerail.Proof.SessionBound
import Vergerail.Lib.KeyOrder
import Vergerail.Runtime.Schema
import Vergerail.Proof.CanonicalJson
import Vergerail.Proof.JsonMask
import Vergerail.Proof.LinePasses
import Vergerail.Proof.SecretHidden
import Vergerail.Private.Request
import Vergerail.Client.RequestWorld
import Vergerail.Proof.FirstCause
import Vergerail.Proof.RequestFate
import Vergerail.Proof.Listening
import Vergerail.Proof.DrainedRequests
import Vergerail.Proof.ReturnedCalls
import Vergerail.Client.Disconnect
import Vergerail.Proof.AnsweredRun
import Vergerail.Proof.DisconnectComplete
import Vergerail.Proof.SchemaValidator
import Vergerail.Proof.NullableProperty
import Vergerail.Proof.SchemaMeaning
import Vergerail.Client.OneShot
import Vergerail.Proof.RunningTurn
import Vergerail.Proof.OneShotPoints
import Vergerail.Proof.OneShotTurns
import Vergerail.Proof.OneShotRun
import Vergerail.Proof.PrintedText
import Vergerail.Private.Outbound
import Vergerail.Proof.OutboundStream
import Vergerail.Client.WireWorld
import Vergerail.Proof.WireAnswers
