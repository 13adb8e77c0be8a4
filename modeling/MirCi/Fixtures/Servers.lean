import MirCi.Fixtures.Dependency
import MirCi.Python.Flag
import MirCi.Python.Method
import MirCi.Python.Text

/-! The servers that tests run on: the registered ones, and the one that the
environment variable `MIR_CI_SERVER` describes. -/
namespace MirCi.Fixtures

open Python

abbrev ServerCap := Flag 7

namespace ServerCap

def none : ServerCap := 0
def floatingWindows : ServerCap := 1
def dragAndDrop : ServerCap := 2
def displayConfig : ServerCap := 4
def screencopy : ServerCap := 8
def inputMethod : ServerCap := 16
def mirShellProto : ServerCap := 32
def vnc : ServerCap := 64

def all : ServerCap :=
  floatingWindows ||| dragAndDrop ||| displayConfig ||| screencopy ||| inputMethod ||| mirShellProto |||
    vnc

/-- `ServerCap.__members__`. -/
def members : List (String × ServerCap) :=
  [("NONE", none), ("FLOATING_WINDOWS", floatingWindows), ("DRAG_AND_DROP", dragAndDrop),
   ("DISPLAY_CONFIG", displayConfig), ("SCREENCOPY", screencopy), ("INPUT_METHOD", inputMethod),
   ("MIR_SHELL_PROTO", mirShellProto), ("VNC", vnc), ("ALL", all)]

/-- `ServerCap[name]`. -/
def named (name : String) : Except Exc ServerCap :=
  match members.lookup name with
  | some capability => .ok capability
  | .none => .error { cls := .keyError, text := name }

end ServerCap

/-- The functions that make the parameters: the decorated ones, and what `_mir_ci_server`
closes over. -/
inductive Server where
  | ubuntuFrame
  | mirKiosk
  | confinedShell
  | mirTestTools
  | mirDemoServer
  | miriway
  | gnomeShell
  | mirCiServer (appType : AppType) (serverCommand : String)
  deriving DecidableEq, Repr

/-- `_SERVERS`. -/
def servers : List (ServerCap × Server) :=
  let all := ServerCap.all
  [(all ^^^ (.floatingWindows ||| .displayConfig ||| .mirShellProto), .ubuntuFrame),
   (all ^^^ (.floatingWindows ||| .dragAndDrop ||| .displayConfig ||| .inputMethod ||| .mirShellProto),
    .mirKiosk),
   (all ^^^ .mirShellProto, .confinedShell),
   (all, .mirTestTools),
   (all ^^^ .mirShellProto, .mirDemoServer),
   (all ^^^ .mirShellProto, .miriway),
   (all ^^^ (.displayConfig ||| .screencopy ||| .inputMethod ||| .mirShellProto ||| .vnc), .gnomeShell)]

/-- The order in which the set is gone through. -/
structure Iteration where
  items : List (ServerCap × Server)
  perm : items.Perm servers

/-- The order of registration the other way round is one. -/
example : Iteration := ⟨servers.reverse, List.reverse_perm _⟩

/-- What `gnome_shell` looks at. -/
structure Host where
  environ : String → Option String
  pid : ℕ

/-- The value of a variable that is set and not empty. -/
def Host.given (host : Host) (name : String) : Bool :=
  match host.environ name with
  | some value => value ≠ ""
  | none => false

/-- Calling a server without arguments. -/
def Server.call (host : Host) : Server → Param
  | .ubuntuFrame => snap "ubuntu-frame" [] { channel := "24/stable", id := some "ubuntu_frame" }
  | .mirKiosk => snap "mir-kiosk" [] { id := some "mir_kiosk" }
  | .confinedShell => snap "confined-shell" [] { channel := "edge", id := some "confined_shell" }
  | .mirTestTools =>
      snap "mir-test-tools" []
        { channel := "24/beta", cmd := ["mir-test-tools.demo-server"], id := some "mir_test_tools" }
  | .mirDemoServer =>
      deb "mir_demo_server" []
        { debs := ["mir-test-tools", "mir-graphics-drivers-desktop"], id := some "mir_demo_server" }
  | .miriway => snap "miriway" [] { channel := "stable", classic := true }
  | .gnomeShell =>
      let nested := host.given "WAYLAND_DISPLAY" || host.given "DISPLAY"
      deb "gnome-shell" []
        { cmd := ["gnome-shell", "--wayland-display", s!"wayland-00{host.pid}"] ++
            if nested then ["--headless", "--virtual-monitor", "1280x1024"]
            else ["--wayland", "--no-x11"]
          id := some "gnome_shell" }
  | .mirCiServer .snap serverCommand => snap serverCommand
  | .mirCiServer .pip serverCommand => pip serverCommand
  | .mirCiServer .deb serverCommand => deb serverCommand

/-- The warnings issued. -/
abbrev Warned (α : Type) := Method (List String) α

/-- `warnings.warn`, which returns. -/
def warn (text : String) : Warned Unit := modify fun warnings => warnings ++ [text]

/-- The loop over the names of capabilities, which a name that is none ends. -/
def capabilityOf (appType : AppType) (capability : ServerCap) : List String → Warned (Option ServerCap)
  | [] => pure (some capability)
  | capabilityStr :: rest =>
      match ServerCap.named capabilityStr with
      | .ok named => capabilityOf appType (capability ||| named) rest
      | .error e =>
          if e.isa .keyError then do
            warn s!"Capability is invalid in MIR_CI_SERVER: AppType.{appType.name}"
            pure none
          else throw e

/-- `_mir_ci_server`, by the value of the variable. -/
def mirCiServer : Option String → Warned (Option (ServerCap × Server))
  | none => pure none
  | some mirCiServer =>
      match split ':' mirCiServer with
      | typeStr :: serverCommand :: capabilityStr :: rest =>
          match AppType.named typeStr with
          | .error e =>
              if e.isa .keyError then do
                warn (s!"Invalid app type in MIR_CI_SERVER specification: {mirCiServer}." ++
                  s!"Expected 'snap', 'deb' or 'pip' but got {typeStr}")
                pure none
              else throw e
          | .ok appType => do
              match ← capabilityOf appType .none (capabilityStr :: rest) with
              | none => pure none
              | some capability => pure (some (capability, .mirCiServer appType serverCommand))
      | _ => do
          warn s!"Too few parts for MIR_CI_SERVER specification: {mirCiServer}"
          pure none

/-- `server_params`, by the value of the variable. -/
def serverParams (value : Option String) (order : Iteration) (caps : ServerCap) : Warned (List Server) := do
  let found ← mirCiServer value
  let registered := (order.items.filter fun item => Flag.mem caps item.1).map Prod.snd
  match found with
  | some (k, v) => pure (if Flag.mem caps k then v :: registered else registered)
  | none => pure registered

end MirCi.Fixtures
