import CocoOs.Foundation.Outcome
import CocoOs.Foundation.Transition
import CocoOs.Foundation.Ring
import CocoOs.Foundation.ByteSet
import CocoOs.Foundation.Scan
import CocoOs.Foundation.Trace
import CocoOs.Foundation.TwoRuns
import CocoOs.Defs
import CocoOs.Task
import CocoOs.Event
import CocoOs.Sem
import CocoOs.MsgQueue
import CocoOs.Kernel
import CocoOs.Macros
import CocoOs.System
import CocoOs.Signal
import CocoOs.SemWaiters
import CocoOs.RingQueue
import CocoOs.QueueOps
import CocoOs.QueueRefinement
import CocoOs.Creation
import CocoOs.Actions
import CocoOs.TaskView
import CocoOs.QueuesSound
import CocoOs.FunctionTraces
import CocoOs.MacroTraces
import CocoOs.StepTrace
import CocoOs.TaskEvents
import CocoOs.Scheduling
import CocoOs.TaskSound
import CocoOs.StepShape
import CocoOs.Finality
import CocoOs.SemSignal
import CocoOs.EventBitmaps
import CocoOs.Frames
import CocoOs.EventWaits
import CocoOs.SemGrants
import CocoOs.Payloads
import CocoOs.PriorityScheduling
import CocoOs.RoundRobin
import CocoOs.RunTrace
import CocoOs.TimedWaits
import CocoOs.EventTimeouts
import CocoOs.WaitingTimes
import CocoOs.LastSignal
import CocoOs.Signallers
import CocoOs.Handles
import CocoOs.SlotBounds
import CocoOs.Agreement
import CocoOs.Forgetting
import CocoOs.QueueLog
import CocoOs.MessageLives
import CocoOs.Acceptance
import CocoOs.MessageTiming
import CocoOs.BlockedFrames
import CocoOs.MessageDelivery
import CocoOs.RoundRobinScan
import CocoOs.SubClocks
import CocoOs.ClockOrder
import CocoOs.SemRange
import CocoOs.WaitMultiple
import CocoOs.Starvation
import CocoOs.LostWakeups
import CocoOs.Foundation.Coroutine
import CocoOs.TaskIdentity
import CocoOs.ResumePoints
import CocoOs.TaskCode
import CocoOs.Foundation.Folds
import CocoOs.StoppedTasks
import CocoOs.ThreadRefinement
import CocoOs.SignalOrder
import CocoOs.Foundation.Returns
import CocoOs.Progress
import CocoOs.Foundation.SetWaits
import CocoOs.TaskStatus
import CocoOs.MasterTick
import CocoOs.WakeUps
import CocoOs.Deadlock
import CocoOs.Marks
import CocoOs.Callbacks
import CocoOs.Interrupts
import CocoOs.StaleTests
import CocoOs.ReceiveCallback
import CocoOs.MainLoop
