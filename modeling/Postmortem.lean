import Postmortem.Argv
import Postmortem.Banner
import Postmortem.Buffer
import Postmortem.Bytes
import Postmortem.Bytes.Utf8
import Postmortem.CString
import Postmortem.Check.Announcement
import Postmortem.Check.ReportFile
import Postmortem.Command
import Postmortem.Config
import Postmortem.Config.Json
import Postmortem.Context
import Postmortem.Decimal
import Postmortem.Decimal.Shortest
import Postmortem.Delivery
import Postmortem.Duration
import Postmortem.Environment
import Postmortem.Errno
import Postmortem.FileTree
import Postmortem.Frames
import Postmortem.Handler
import Postmortem.Json.Number
import Postmortem.Json.Reader
import Postmortem.Json.Token
import Postmortem.Json.Value
import Postmortem.LogFile
import Postmortem.Machine
import Postmortem.Main
import Postmortem.Output
import Postmortem.Program
import Postmortem.Proofs.Pieces
import Postmortem.Registry.ExtraLines
import Postmortem.Registry.Keyed
import Postmortem.Registry.LineStore
import Postmortem.Registry.ProgramInfo
import Postmortem.Rehearsal.Mode
import Postmortem.Rehearsal.Run
import Postmortem.Report
import Postmortem.ReportLock
import Postmortem.Session
import Postmortem.SessionEnd
import Postmortem.Sink
import Postmortem.Signal
import Postmortem.Spawn
import Postmortem.StackLog
import Postmortem.Steps
import Postmortem.Symbol.Grammar
import Postmortem.Symbol.Mangled
import Postmortem.Symbol.ParameterTypes
import Postmortem.Symbol.Table
import Postmortem.Text.Printable
import Postmortem.Text.Quoted
import Postmortem.Tracer
import Postmortem.Unwinder
import Postmortem.Watch
import Postmortem.World
import Postmortem.Proofs.Tracer
import Postmortem.Proofs.CString
import Postmortem.Proofs.Buffer
import Postmortem.Proofs.FileTree
import Postmortem.Proofs.Steps
import Postmortem.Proofs.LogFile
import Postmortem.Proofs.LogFileCalls
import Postmortem.Proofs.World
import Postmortem.Proofs.Watch
import Postmortem.Proofs.Sequence
import Postmortem.Proofs.Returning
import Postmortem.Proofs.Threads
import Postmortem.Proofs.Announcement
import Postmortem.Proofs.Banner
import Postmortem.Proofs.AnnouncementParts
import Postmortem.Proofs.ExtraLines
import Postmortem.Proofs.Remarks
import Postmortem.Proofs.Announced
import Postmortem.Proofs.Spawn
import Postmortem.Proofs.Argv
import Postmortem.Proofs.Launches
import Postmortem.Proofs.JsonTokens
import Postmortem.Proofs.JsonValues
import Postmortem.Proofs.JsonContents
import Postmortem.Proofs.ConfigDocuments
import Postmortem.Proofs.JsonSpellings
import Postmortem.Proofs.Config
import Postmortem.Proofs.ConfigTexts
import Postmortem.Proofs.Setup
import Postmortem.Proofs.Settings
import Postmortem.Proofs.ReportLock
import Postmortem.Proofs.Interleaving
import Postmortem.Proofs.Outward
import Postmortem.Proofs.Utf8
import Postmortem.Proofs.ReportFile
import Postmortem.Proofs.Crashing
import Postmortem.Proofs.Keyed
import Postmortem.Proofs.ProgramInfo
import Postmortem.Proofs.Registrations
import Postmortem.Proofs.LogFilePlaces
import Postmortem.Proofs.RehearsalReports
import Postmortem.Proofs.RehearsalSetup
import Postmortem.Proofs.Rehearsal
import Postmortem.Proofs.BufferHistories
import Postmortem.Proofs.Preview
import Postmortem.Proofs.Countdown
import Postmortem.Proofs.Lockstep
import Postmortem.Proofs.Handlers
import Postmortem.Proofs.LogFileDirectory
import Postmortem.Proofs.StackTraces
import Postmortem.Proofs.SessionLog
import Postmortem.Proofs.Wakeups
import Postmortem.Proofs.AnnouncementGrammar
import Postmortem.Proofs.Frames
import Postmortem.Proofs.FrameLines
import Postmortem.Proofs.DecimalStores
import Postmortem.Proofs.Environment
import Postmortem.Proofs.TracerLine
import Postmortem.Proofs.Unwinder
import Postmortem.Proofs.Sinks
import Postmortem.Proofs.Descriptors
