import MirCi.Semantics.Run
import MirCi.Python.Exception
import MirCi.Python.Text
import MirCi.Program.Model
import MirCi.Program.Operations
import MirCi.Program.Teardown
import MirCi.Program.Ladder
import MirCi.Program.Crash
import MirCi.Python.Dict
import MirCi.Python.Float
import MirCi.Benchmark.CgroupsBackend
import MirCi.Benchmark.Accounting
import MirCi.Benchmark.Benchmarker
import MirCi.Semantics.Balance
import MirCi.Benchmark.Balance
import MirCi.Python.Path
import MirCi.Benchmark.Cgroup
import MirCi.Benchmark.Resilience
import MirCi.Python.Regex
import MirCi.ProcessSnaps.Versions
import MirCi.Python.Json
import MirCi.Python.Literal
import MirCi.Semantics.Script
import MirCi.ProcessSnaps.Answers
import MirCi.ProcessSnaps.Store
import MirCi.ProcessSnaps.CheckPaths
import MirCi.ProcessSnaps.MainLoop
import MirCi.ProcessSnaps.BuildGate
import MirCi.ProcessSnaps.Isolation
import MirCi.Program.Verdict
import MirCi.Benchmark.Unwind
import MirCi.Python.Method
import MirCi.Semantics.Loop
import MirCi.Python.Double
import MirCi.Wayland.Client
import MirCi.Wayland.ScreencopyTracker
import MirCi.Wayland.Percentage
import MirCi.Wayland.FrameAccounting
import MirCi.Wayland.BufferGeometry
import MirCi.Wayland.Damage
import MirCi.Wayland.VirtualPointer
import MirCi.Robot.Pointer
import MirCi.Robot.Vnc
import MirCi.Robot.WaylandHid
import MirCi.Robot.PointerAgreement
import MirCi.Robot.Buttons
import MirCi.Robot.Screencopy
import MirCi.Wayland.FailedConnect
import MirCi.Robot.FailedConnect
import MirCi.Semantics.Segment
import MirCi.Robot.StraightWalk
import MirCi.Robot.TrackedPosition
import MirCi.Robot.Match
import MirCi.Robot.MatchVerdict
import MirCi.Robot.FreshFrames
import MirCi.Robot.MatchOutcome
import MirCi.ProcessSnaps.PathReports
import MirCi.Python.Flag
import MirCi.Fixtures.Dependency
import MirCi.Fixtures.Servers
import MirCi.Fixtures.ServerSelection
import MirCi.Tests.Assets
import MirCi.PytestPlugin.Xdg
import MirCi.PytestPlugin.XdgFiles
import MirCi.PytestPlugin.Subprocess
import MirCi.PytestPlugin.SnapInstall
import MirCi.PytestPlugin.SnapChanges
import MirCi.PytestPlugin.SnapVerdict
import MirCi.PytestPlugin.DepsInstall
import MirCi.PytestPlugin.DepsRecord
import MirCi.PytestPlugin.DepsCalls
import MirCi.Benchmark.CpuStat
import MirCi.Lib.AwaitCall
import MirCi.Robot.OskMap
import MirCi.Robot.OskTyping
import MirCi.Wayland.OutputSize
import MirCi.Wayland.OutputWatcher
import MirCi.Program.ServerEnvironment
import MirCi.Tests.DragAndDrop
import MirCi.Program.DisplaySocket
import MirCi.ProcessSnaps.ExitStatus
import MirCi.Wayland.Ownership
import MirCi.Robot.Reconnect
import MirCi.Semantics.Nesting
import MirCi.Program.Nested
import MirCi.Program.NestedCompletes
import MirCi.Semantics.With
import MirCi.Benchmark.AsyncWith
import MirCi.Semantics.CarriesOut
import MirCi.Robot.Seat
import MirCi.Python.WholeDouble
import MirCi.Robot.WalkArrives
import MirCi.Robot.OskSession
import MirCi.Python.MonkeyPatch
import MirCi.PytestPlugin.Environ
import MirCi.Semantics.Contract
import MirCi.PytestPlugin.DepsProvided
import MirCi.PytestPlugin.DepsOnly
import MirCi.Semantics.Overwrite
import MirCi.ProcessSnaps.FetchPool
import MirCi.Semantics.Interaction
import MirCi.Robot.KvmSuite
import MirCi.Robot.DragAndDropSuite
import MirCi.Python.RoundingError
import MirCi.Robot.DoubleWalk
import MirCi.Robot.DoubleProportion
import MirCi.Semantics.Procedure
import MirCi.Robot.FlutterSuite
