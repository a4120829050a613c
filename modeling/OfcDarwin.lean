import OfcDarwin.Console.Model
import OfcDarwin.Console.Password
import OfcDarwin.Console.ReadLine
import OfcDarwin.Event.AutoReset
import OfcDarwin.Event.Interleaving
import OfcDarwin.Event.Model
import OfcDarwin.Event.NoStrandedWaiter
import OfcDarwin.Handle
import OfcDarwin.Lib.CString
import OfcDarwin.Lib.Descriptors
import OfcDarwin.Lib.Gregorian
import OfcDarwin.Lib.HeapLogic
import OfcDarwin.Lib.Holding
import OfcDarwin.Lib.LeastSoFar
import OfcDarwin.Lib.Lifetime
import OfcDarwin.Lib.ProcessTree
import OfcDarwin.Lib.Serving
import OfcDarwin.Lib.Tally
import OfcDarwin.Lib.Transition
import OfcDarwin.Lib.While
import OfcDarwin.Net.Lookup
import OfcDarwin.Net.Model
import OfcDarwin.Net.Nullable
import OfcDarwin.Net.PartialEntries
import OfcDarwin.Net.Resolve
import OfcDarwin.Process.DoubleFork
import OfcDarwin.Process.Family
import OfcDarwin.Process.HandleNamesDaemon
import OfcDarwin.Process.Memory
import OfcDarwin.Process.Model
import OfcDarwin.Process.Privileges
import OfcDarwin.Process.Refinement
import OfcDarwin.Process.System
import OfcDarwin.Process.Terminate
import OfcDarwin.Records.Lifetime
import OfcDarwin.Records.Model
import OfcDarwin.Socket.Address
import OfcDarwin.Socket.DescriptorOwnership
import OfcDarwin.Socket.Events
import OfcDarwin.Socket.Failures
import OfcDarwin.Socket.Memory
import OfcDarwin.Socket.MemorySafety
import OfcDarwin.Socket.Refinement
import OfcDarwin.Socket.RoundTrip
import OfcDarwin.Socket.Separation
import OfcDarwin.Socket.Table
import OfcDarwin.Thread.Model
import OfcDarwin.Thread.Notify
import OfcDarwin.Thread.Release
import OfcDarwin.Thread.UseAfterRelease
import OfcDarwin.Time.AcceptedStamps
import OfcDarwin.Time.Calendar
import OfcDarwin.Time.DosRoundTrip
import OfcDarwin.Time.LocalTime
import OfcDarwin.Time.Model
import OfcDarwin.Time.Representable
import OfcDarwin.Time.StampOrder
import OfcDarwin.Waitset.Accounting
import OfcDarwin.Waitset.Agreement
import OfcDarwin.Waitset.Destroy
import OfcDarwin.Waitset.Dispatch
import OfcDarwin.Waitset.Disturbed
import OfcDarwin.Waitset.Frame
import OfcDarwin.Waitset.Interleaving
import OfcDarwin.Waitset.LateUse
import OfcDarwin.Waitset.Memory
import OfcDarwin.Waitset.MemorySafety
import OfcDarwin.Waitset.Model
import OfcDarwin.Waitset.NoLostEvent
import OfcDarwin.Waitset.NoLostWake
import OfcDarwin.Waitset.PollEvent
import OfcDarwin.Waitset.Progress
import OfcDarwin.Waitset.Response
import OfcDarwin.Waitset.Scan
import OfcDarwin.Waitset.Sequential
import OfcDarwin.Waitset.SocketReport
import OfcDarwin.Waitset.Soundness
import OfcDarwin.Waitset.Successive
import OfcDarwin.Waitset.Timers
import OfcDarwin.Waitset.TwoPaths
