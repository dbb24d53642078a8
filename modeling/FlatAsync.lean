import FlatAsync.ActionSystem
import FlatAsync.AsyncRunner
import FlatAsync.AsyncRunnerInvariant
import FlatAsync.AsyncRunnerLifeCycle
import FlatAsync.ExecutionContext
import FlatAsync.StatusEvents
import FlatAsync.ThreadPool
import FlatAsync.DataStream
import FlatAsync.TcpServer
import FlatAsync.ServerSteps
import FlatAsync.AcceptChain
import FlatAsync.ServerSockets
import FlatAsync.Joins
import FlatAsync.JoinLedger
import FlatAsync.JoinInvariant
import FlatAsync.CurrentRunner
import FlatAsync.SequentialScheduler
import FlatAsync.JoinChildren
import FlatAsync.JoinOutcome
import FlatAsync.RunAsyncAnyResult
import FlatAsync.RunnerFrames
import FlatAsync.RunnerSteps
import FlatAsync.RunAsyncAnyWait
import FlatAsync.HandlerList
import FlatAsync.Waiter
import FlatAsync.WaiterRounds
import FlatAsync.WaiterBarrier
import FlatAsync.WaiterLifetime
import FlatAsync.WaiterErrors
import FlatAsync.SocketDisconnect
import FlatAsync.Connection
import FlatAsync.ServerConnections
import FlatAsync.ConnectionSteps
import FlatAsync.ConnectionEnds
import FlatAsync.ServerSlots
import FlatAsync.Engine
import FlatAsync.ServerLifeCycle
import FlatAsync.EngineTasks
import FlatAsync.EngineLifeCycle
import FlatAsync.AsyncOpState
import FlatAsync.AsyncProxy
import FlatAsync.CoroHelper
import FlatAsync.EventGuards
import FlatAsync.Timeout
import FlatAsync.WaitAll
import FlatAsync.StaticString
import FlatAsync.ListenPort
import FlatAsync.ThreadPoolShutdown
import FlatAsync.CoroSegments
import FlatAsync.ReadCalls
import FlatAsync.SocketConnect
import FlatAsync.ServerRequests
import FlatAsync.FailedAccepts
import FlatAsync.FailedStarts
import FlatAsync.AnchoredTasks
import FlatAsync.RunAsyncTimes
import FlatAsync.TimesOrder
import FlatAsync.TimesOverlap
import FlatAsync.Substrings
import FlatAsync.EnumStream
import FlatAsync.CoroMembers
import FlatAsync.CoroMemberRuns
import FlatAsync.RunnerCoroutines
import FlatAsync.RunnerMembers
import FlatAsync.OtherTasks
import FlatAsync.StrandHost
import FlatAsync.StrandHostRuns
import FlatAsync.StrandHostProgress
import FlatAsync.EngineLauncher
import FlatAsync.LauncherRuns
import FlatAsync.StrandWork
import FlatAsync.ServerWork
import FlatAsync.ThreadPoolStart
import FlatAsync.IoCalls
