import Professord.Lib.GuardedSystem
import Professord.Lib.RankedRuns
import Professord.Lib.LockedObject
import Professord.Lib.ResourceTrace
import Professord.Lib.CText
import Professord.Lib.CNum
import Professord.Lib.CircularBuffer
import Professord.Lib.CArray
import Professord.Lib.AllocLog
import Professord.Lib.StopText
import Professord.Lib.Json
import Professord.Lib.Numeral
import Professord.Lib.Hex
import Professord.Lib.JsonText
import Professord.Lib.JsonPrint
import Professord.Lib.EventStream
import Professord.Lib.CParse
import Professord.Lib.Layers
import Professord.Lib.Utf8
import Professord.Lib.Delimited
import Professord.ApiTypes
import Professord.Api.Parse
import Professord.Api.TextKept
import Professord.Api.ParseCells
import Professord.Config.Options
import Professord.Config.Load
import Professord.Config.WholeLines
import Professord.Config.Cli
import Professord.Config.Layering
import Professord.Config.FileEffect
import Professord.Config.ValuesTaken
import Professord.Config.ConfigScan
import Professord.Worker.Job
import Professord.Worker.Failure
import Professord.Worker.Isolation
import Professord.Worker.SameText
import Professord.Worker.StreamUtf8
import Professord.Worker.AccumExact
import Professord.Worker.Overflow
import Professord.Worker.RingCells
import Professord.Worker.RingLocked
import Professord.Worker.FinishReason
import Professord.Worker.LoopSteps
import Professord.Worker.PromptCancel
import Professord.Inference.Params
import Professord.Inference.ParamRange
import Professord.Inference.SameParams
import Professord.Inference.Chat
import Professord.Inference.StopCut
import Professord.Inference.Budget
import Professord.Inference.StopBuffer
import Professord.Inference.PromptBatches
import Professord.Inference.PromptBlock
import Professord.Inference.MaxTokens
import Professord.Inference.LoopEnd
import Professord.Inference.ChatmlComplete
import Professord.Inference.ChatmlApart
import Professord.Inference.Template
import Professord.Inference.StopKept
import Professord.Inference.NonFinite
import Professord.Server.Chunk
import Professord.Server.Serialize
import Professord.Server.RequestId
import Professord.Server.Answer
import Professord.Lifecycle.Protocol
import Professord.Lifecycle.Conditions
import Professord.Runtime.State
import Professord.Runtime.EventLoop
import Professord.Runtime.WorkerThread
import Professord.Runtime.Access
import Professord.Runtime.Connections
import Professord.Runtime.Gate
import Professord.Runtime.JobRun
import Professord.Runtime.Ownership
import Professord.Runtime.StreamFlow
import Professord.Runtime.StreamBytes
import Professord.Runtime.HandlerRun
import Professord.Runtime.Wakeups
import Professord.Runtime.EmptyWake
import Professord.Runtime.ErrorReport
import Professord.Runtime.Shutdown
import Professord.Runtime.ErrorCounts
import Professord.Runtime.RequestTotal
import Professord.Runtime.AclGate
import Professord.Runtime.KeyGate
import Professord.Runtime.Departure
import Professord.Runtime.Settling
import Professord.Runtime.Answers
import Professord.Runtime.Results
import Professord.Runtime.Ledger
import Professord.Daemon.PidFile
import Professord.Daemon.PidRace
import Professord.Logger
import Professord.Inference.Resources
import Professord.Inference.Report
import Professord.Server.ClientText
import Professord.Daemon.Process
import Professord.Recommend
