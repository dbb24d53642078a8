import Mathlib.Algebra.Group.Nat.Defs
import Mathlib.Data.List.Basic
import Mathlib.Tactic.Common

/-!
# The port to listen on

The port given on the command line passes through `StartupConfig`,
`EngineLauncher`, `EngineConfig`, `Engine` and `TcpServer` before an endpoint is
made of it, and through four types: `uint32_t`, `PortType`, `int` and
`unsigned short`.  This file embeds that way and says which ports arrive.

The parser of `boost::program_options` and the parser of addresses are
parameters.
-/

namespace FlatAsync

/-- `PortType` -/
abbrev PortType := UInt32

/-- The options that `boost::program_options` has found. -/
structure VariablesMap where
  help : Bool := false
  version : Bool := false
  address : Option String := none
  port : Option UInt32 := none
  deriving DecidableEq, Repr

structure StartupConfig where
  isShowHelp : Bool := false
  isShowVersion : Bool := false
  address : String := ""
  port : UInt32 := 0
  help : String := ""
  deriving DecidableEq, Repr

/-- What `StartupConfig::Parse` returns, leaves in the object and writes to
`std::cerr`. -/
structure Parsed where
  accepted : Bool
  config : StartupConfig
  errors : List String := []
  deriving DecidableEq, Repr

/-- `StartupConfig::Parse`.  `description` is the text of the options. -/
def StartupConfig.parse (parseCommandLine : List String → Except String VariablesMap)
    (description : String) (argv : List String) : Parsed :=
  match parseCommandLine argv with
  | .error what =>
      { accepted := false
        config := {}
        errors :=
          ["Failed to parse command line options: " ++ what,
            "Pass --help to get more information"] }
  | .ok vm =>
      let shown : StartupConfig :=
        { isShowHelp := vm.help, isShowVersion := vm.version, help := description }
      let withPort (config : StartupConfig) : StartupConfig :=
        match vm.port with
        | some port => { config with port := port }
        | none => config
      match vm.address with
      | none => { accepted := true, config := withPort shown }
      | some address =>
          if address = "" then
            { accepted := false, config := shown, errors := ["Address must not be empty"] }
          else { accepted := true, config := withPort { shown with address := address } }

/-- `EngineConfig` with `kDefaultListenAddress` and `kDefaultListenPort`. -/
structure EngineConfig where
  serverAddress : String := "0.0.0.0"
  serverPort : PortType := 8088
  deriving DecidableEq, Repr

/-- The configuration that `EngineLauncher::Init` gives to the engine. -/
def StartupConfig.engineConfig (config : StartupConfig) : EngineConfig :=
  let addressed : EngineConfig :=
    if config.address ≠ "" then { serverAddress := config.address } else {}
  if config.port ≠ 0 then { addressed with serverPort := config.port } else addressed

/-- `EndPointType` -/
structure EndPoint (Address : Type) where
  address : Address
  port : UInt16
  deriving DecidableEq, Repr

/-- A port as the parameter of type `int`. -/
def PortType.toInt (port : PortType) : Int32 :=
  port.toInt32

/-- An `int` as the parameter of type `unsigned short`. -/
def toUnsignedShort (port : Int32) : UInt16 :=
  port.toInt16.toUInt16

variable {Address : Type} (fromString : String → Option Address)

/-- The endpoint that `TcpServer::Start(ip, port)` makes, if the address can be
parsed. -/
def listenEndPoint (ip : String) (port : Int32) : Option (EndPoint Address) :=
  (fromString ip).map fun address => { address := address, port := toUnsignedShort port }

/-- The endpoint on which `Engine::Start` lets the server listen. -/
def EngineConfig.endPoint (config : EngineConfig) : Option (EndPoint Address) :=
  listenEndPoint fromString config.serverAddress config.serverPort.toInt

/-! ### What arrives -/

def Listenable (port : UInt32) : Prop :=
  1 ≤ port.toNat ∧ port.toNat ≤ 65535

instance (port : UInt32) : Decidable (Listenable port) :=
  inferInstanceAs (Decidable (_ ∧ _))

/-- If `Parse` accepts a command line with that port, the port can be listened on
and every endpoint made from it has this port. -/
def PortSurvives (parsed : Parsed) (port : UInt32) : Prop :=
  parsed.accepted = true →
    Listenable port ∧ ∀ endPoint,
      parsed.config.engineConfig.endPoint fromString = some endPoint →
        endPoint.port.toNat = port.toNat

private theorem toUnsignedShort_toInt (port : PortType) :
    (toUnsignedShort port.toInt).toNat = port.toNat % 2 ^ 16 := by
  rw [← UInt16.toNat_toBitVec]
  change (BitVec.signExtend 16 port.toBitVec).toNat = port.toNat % 2 ^ 16
  rw [BitVec.signExtend_eq_setWidth_of_le _ (by decide), BitVec.toNat_setWidth]
  rfl

variable {fromString}

/-- The endpoint has the port of the configuration, up to a multiple of 65536. -/
theorem EngineConfig.endPoint_port {config : EngineConfig} {endPoint : EndPoint Address}
    (made : config.endPoint fromString = some endPoint) :
    endPoint.port.toNat = config.serverPort.toNat % 2 ^ 16 := by
  obtain ⟨address, -, rfl⟩ := Option.map_eq_some_iff.mp made
  exact toUnsignedShort_toInt config.serverPort

theorem StartupConfig.engineConfig_serverPort (config : StartupConfig) :
    config.engineConfig.serverPort = if config.port = 0 then 8088 else config.port := by
  unfold engineConfig
  by_cases given : config.port = 0 <;> by_cases addressed : config.address = "" <;>
    simp [given, addressed]

section Parse

variable {parseCommandLine : List String → Except String VariablesMap} {description : String}
variable {argv : List String} {vm : VariablesMap} {port : UInt32}

theorem StartupConfig.parse_accepted (found : parseCommandLine argv = .ok vm) :
    (parse parseCommandLine description argv).accepted = true ↔ vm.address ≠ some "" := by
  unfold parse
  simp only [found]
  cases vm.address with
  | none => simp
  | some address => by_cases empty : address = "" <;> simp [empty]

theorem StartupConfig.parse_port (found : parseCommandLine argv = .ok vm)
    (given : vm.port = some port)
    (accepted : (parse parseCommandLine description argv).accepted = true) :
    (parse parseCommandLine description argv).config.port = port := by
  unfold parse at accepted ⊢
  simp only [found, given] at accepted ⊢
  cases address : vm.address with
  | none => rfl
  | some text =>
      by_cases empty : text = ""
      · simp [address, empty] at accepted
      · simp [empty]

/-- The port given on the command line arrives at the endpoint, and can be listened
on, exactly if it is between 1 and 65535 or the command line is rejected for its
address. -/
theorem port_survives_iff (found : parseCommandLine argv = .ok vm)
    (given : vm.port = some port) :
    PortSurvives fromString (StartupConfig.parse parseCommandLine description argv) port ↔
      vm.address = some "" ∨ Listenable port := by
  have accepts : (StartupConfig.parse parseCommandLine description argv).accepted = true ↔
      vm.address ≠ some "" := StartupConfig.parse_accepted found
  constructor
  · intro survives
    by_cases rejected : vm.address = some ""
    · exact .inl rejected
    · exact .inr (survives (accepts.mpr rejected)).1
  · rintro (rejected | listenable) accepted
    · exact absurd rejected (accepts.mp accepted)
    · refine ⟨listenable, fun endPoint made => ?_⟩
      have stored := StartupConfig.parse_port found given accepted
      have nonzero : port ≠ 0 := by
        rintro rfl
        exact absurd listenable.1 (by decide)
      rw [EngineConfig.endPoint_port made, StartupConfig.engineConfig_serverPort, stored,
        if_neg nonzero]
      apply Nat.mod_eq_of_lt
      have upper := listenable.2
      omega

end Parse

/-- A parser that knows three command lines. -/
def samplePort : List String → Except String VariablesMap
  | ["cppecho", "--port", "9000"] => .ok { port := some 9000 }
  | ["cppecho", "--port", "70000"] => .ok { port := some 70000 }
  | ["cppecho", "--port", "0"] => .ok { port := some 0 }
  | _ => .error "unrecognised option"

def parsedSample (port : String) : Parsed :=
  StartupConfig.parse samplePort "" ["cppecho", "--port", port]

/-- The port 70000 is accepted, and the server listens on port 4464; for the port 0
it listens on port 8088. -/
theorem port_not_survives_tooLarge :
    (parsedSample "70000").accepted = true ∧
      (parsedSample "70000").config.engineConfig.endPoint some = some ⟨"0.0.0.0", 4464⟩ ∧
      (parsedSample "0").config.engineConfig.endPoint some = some ⟨"0.0.0.0", 8088⟩ ∧
      ¬ PortSurvives some (parsedSample "70000") 70000 := by
  refine ⟨by decide, by decide, by decide, fun survives => ?_⟩
  have listenable := (survives (by decide)).1
  exact absurd listenable (by decide)

theorem port_survives_9000 : PortSurvives some (parsedSample "9000") 9000 :=
  (port_survives_iff rfl rfl).mpr (.inr (by decide))

end FlatAsync
