import MiniCi.JobQueue
import MiniCi.Gradebook
import MiniCi.Monitor
import MiniCi.WireIds
import MiniCi.Submission
import MiniCi.WeekAnswers
import MiniCi.WeekSwitch
import MiniCi.Sandbox
import MiniCi.PullRoundTrip
import MiniCi.CpuLimit
import MiniCi.Compile
import MiniCi.CtlTool
import MiniCi.Release
import MiniCi.ControlRequests
import MiniCi.WeekGradebook
import MiniCi.PullExit
import MiniCi.PullFailure
import MiniCi.ProcessTree
import MiniCi.Locks
import MiniCi.SharedData
import MiniCi.StoresInStep
import MiniCi.TrackerQuery
import MiniCi.Dashboard
import MiniCi.DistSwitch
import MiniCi.PullComplete
import MiniCi.CompareOutput
import MiniCi.PullConfined
import MiniCi.Checksums
import MiniCi.TrackerBuffer
import MiniCi.BestResult
import MiniCi.MonitorPolicy
import MiniCi.SubmitRoundTrip
import MiniCi.Login
import MiniCi.WatchQuiet
import MiniCi.Descriptors
import MiniCi.Workspace
import MiniCi.ClientSession
import MiniCi.ClassWeek
import MiniCi.IpcWire
import MiniCi.Wakeups
import MiniCi.GradebookFiles
import MiniCi.Verdict
import MiniCi.Examination
import MiniCi.MonitorLog
