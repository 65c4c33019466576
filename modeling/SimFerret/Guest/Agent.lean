import SimFerret.Assertions
import SimFerret.Guest.Runtime

/-!
# SimFerret.Guest.Agent — the guest agent (`agent.rs`)

`dispatch` answers one command, `serviceRuntime` polls the runtime between two commands, and `run` is the
control loop over the turns it takes.  The frames that were written are kept in `Agent.emitted`.
-/

namespace SimFerret.Guest

def interface : Text := "eth0"
def guestCidr : Text := "10.0.2.15/24"
def gateway : Text := "10.0.2.2"
def peerCidr : Text := "10.0.2.2/32"
def outageRule : Text := "prohibit 10.0.2.2/32"

structure Agent where
  /-- The retained history of the network fixture. -/
  events : List EventFrame := []
  nextEventId : Nat := 1
  exitCode : Nat := 0
  networkConfigured : Bool := false
  outageActive : Bool := false
  runtime : Option Runtime := none
  lastCommandId : Nat := 0
  os : Os := {}
  /-- The frames written to the control channel. -/
  emitted : List EventFrame := []
deriving Repr

abbrev Act (α : Type) := StateT Agent IoResult α

/-! ## Events -/

/-- Whether an event participates in the network assertion report. -/
def isAssertionEvent : Event → Bool
  | .networkConfigured .. => true
  | .outageActivated .. => true
  | .networkRestored .. => true
  | .requestAttempted .. => true
  | .requestSucceeded .. => true
  | .requestUnavailable .. => true
  | .assertionsEvaluated .. => true
  | _ => false

/-- The frame of an event. -/
def eventFrame (eventId commandId : Nat) (event : Event) : EventFrame :=
  { protocolVersion := protocolVersion, eventId := eventId, commandId := commandId, event := event }

def emit (commandId : Nat) (event : Event) : Act Unit := fun g => do
  g.os.frames.headD (.ok ())
  pure ((), { g with
    nextEventId := g.nextEventId + 1
    events := if isAssertionEvent event then g.events ++ [eventFrame g.nextEventId commandId event] else g.events
    os := { g.os with frames := g.os.frames.tail }
    emitted := g.emitted ++ [eventFrame g.nextEventId commandId event] })

/-- `for event in events { self.emit(command_id, event, output)? }`. -/
def emitAll (commandId : Nat) : List Event → Act Unit
  | [] => pure ()
  | event :: events => do
    emit commandId event
    emitAll commandId events

/-- Run an operation of the runtime and emit its events. -/
def supervise (commandId : Nat) (rt : Runtime) (operation : Supervise (List Event)) : Act Unit := do
  let events ← fun g =>
    match operation (rt, g.os) with
    | (.ok events, rt, os) => .ok (events, { g with runtime := some rt, os := os })
    | (.error error, _) => .error error
  emitAll commandId events

def serviceRuntime (sha256 : Sha256) : Act Unit := fun g =>
  match g.runtime with
  | none => .ok ((), g)
  | some rt => supervise g.lastCommandId rt (poll sha256) g

def shutdownRuntime (sha256 : Sha256) : Act Unit := fun g =>
  match g.runtime with
  | none => .ok ((), g)
  | some rt => supervise g.lastCommandId rt (shutdown sha256) g

/-- `require_runtime` and the operation on it. -/
def withRuntime (commandId : Nat) (operation : Supervise (List Event)) : Act Unit := fun g =>
  match g.runtime with
  | none => .error ⟨.unsupported, "no workload runtime is configured"⟩
  | some rt => supervise commandId rt operation g

/-! ## Commands -/

def requireNetworkValues (interface' cidr gateway' : Text) : IoResult Unit :=
  require (interface' == interface && cidr == guestCidr && gateway' == gateway)
    (invalid "network configuration differs from the version-1 profile")

def requirePeer (peer : Text) : IoResult Unit :=
  require (peer == peerCidr) (invalid "fault peer differs from the version-1 profile")

/-- `u8::is_ascii_alphanumeric`. -/
def isAsciiAlphanumeric (byte : UInt8) : Bool :=
  (48 ≤ byte && byte ≤ 57) || (65 ≤ byte && byte ≤ 90) || (97 ≤ byte && byte ≤ 122)

def validateRequest (requestId payload peer : Text) : IoResult Unit :=
  require (!requestId.isEmpty && requestId.all (fun byte => isAsciiAlphanumeric byte || byte == charByte '-') &&
      decide (saturatingAdd requestId.length payload.length ≤ maxRequestDataLength) && peer == gateway)
    (invalid "request differs from the bounded network fixture contract")

def requireNetwork : Act Unit := fun g => do
  require g.networkConfigured (invalid "network is not configured")
  pure ((), g)

/-- `configure_network` and `set_outage`. -/
def network : Act Unit := fun g => do
  g.os.network.headD (.ok ())
  pure ((), { g with os := { g.os with network := g.os.network.tail } })

/-- `tftp_request`; past the tape the peer does not answer. -/
def tftpRequest : Act (Except (IoError × Option Int) (Text × Text)) := fun g =>
  .ok (g.os.responses.headD (.error (⟨.timedOut, ""⟩, none)), { g with
    os := { g.os with responses := g.os.responses.tail } })

/-- The typed error of a failed request. -/
def requestError (error : IoError × Option Int) : RequestError :=
  if error.2 = some (eacces : Int) then .administrativeProhibited
  else if error.1.kind = .invalidData then .invalidResponse
  else .transport

/-- The event of an answered or failed request. -/
def requestEvent (requestId payload : Text) (phase : RequestPhase) :
    Except (IoError × Option Int) (Text × Text) → Event
  | .ok response => .requestSucceeded requestId payload response.1 response.2 phase
  | .error error => .requestUnavailable requestId phase (requestError error) error.2

def configureNetwork (commandId : Nat) (interface' cidr gateway' : Text) : Act Unit := do
  requireNetworkValues interface' cidr gateway'
  let g ← get
  require (!g.networkConfigured) (invalid "network is already configured")
  network
  modify fun g => { g with networkConfigured := true }
  emit commandId (.networkConfigured interface' cidr gateway')

def activateOutage (commandId : Nat) (peer : Text) : Act Unit := do
  requireNetwork
  requirePeer peer
  let g ← get
  require (!g.outageActive) (invalid "outage is already active")
  network
  modify fun g => { g with outageActive := true }
  emit commandId (.outageActivated peer outageRule)

def restoreNetwork (commandId : Nat) (peer : Text) : Act Unit := do
  requireNetwork
  requirePeer peer
  let g ← get
  require g.outageActive (invalid "outage is not active")
  network
  modify fun g => { g with outageActive := false }
  emit commandId (.networkRestored peer)

def request (commandId : Nat) (requestId payload : Text) (phase : RequestPhase) : Act Unit := do
  requireNetwork
  validateRequest requestId payload gateway
  emit commandId (.requestAttempted requestId payload phase)
  let response ← tftpRequest
  emit commandId (requestEvent requestId payload phase response)

def check (commandId outageEventBound livenessEventBound : Nat) : Act Unit := do
  let g ← get
  let report := evaluate g.events outageEventBound livenessEventBound
  modify fun g => { g with exitCode := max g.exitCode report.exitCode }
  emit commandId (.assertionsEvaluated report)

def startWorkload (commandId invocation : Nat) (identity : Workload.LaunchIdentity) : Act Unit := fun g =>
  match g.runtime with
  | some rt => supervise commandId rt (start invocation identity) g
  | none => emitAll commandId [.launchFailed invocation .noRuntime "no workload runtime is configured"] g

def shutdownAgent (sha256 : Sha256) (commandId : Nat) : Act Unit := do
  let g ← get
  require (!g.outageActive) (invalid "cannot shut down while outage is active")
  shutdownRuntime sha256
  emit commandId .agentStopped

/-- Handle one command; `false` when the agent should stop. -/
def dispatch (sha256 : Sha256) (commandId : Nat) : Command → Act Bool
  | .configureNetwork interface' cidr gateway' => do
    configureNetwork commandId interface' cidr gateway'
    return true
  | .activateOutage peer => do
    activateOutage commandId peer
    return true
  | .restoreNetwork peer => do
    restoreNetwork commandId peer
    return true
  | .request requestId payload phase => do
    request commandId requestId payload phase
    return true
  | .check outageEventBound livenessEventBound => do
    check commandId outageEventBound livenessEventBound
    return true
  | .start invocation identity => do
    startWorkload commandId invocation identity
    return true
  | .stdinWrite invocation offset bytes => do
    withRuntime commandId (stdinWrite invocation offset bytes)
    return true
  | .stdinEof invocation => do
    withRuntime commandId (stdinEof invocation)
    return true
  | .terminate invocation => do
    withRuntime commandId (terminate invocation)
    return true
  | .shutdown => do
    shutdownAgent sha256 commandId
    return false

/-! ## The control loop -/

/-- What the control loop does next. -/
inductive Turn where
  | service
  | receive (frame : CommandFrame)
  /-- The control channel is at its end. -/
  | closed
deriving DecidableEq, Repr

/-- A received frame; the loop returns once the agent should stop. -/
def receive (sha256 : Sha256) (frame : CommandFrame) : Act (Option (IoResult Unit)) := do
  requireVersion frame.protocolVersion
  modify fun g => { g with lastCommandId := frame.commandId }
  let goesOn ← dispatch sha256 frame.commandId frame.command
  return if goesOn then none else some (.ok ())

/-- Terminate any live workload; the loop returns, with an error if one was live. -/
def closeChannel (sha256 : Sha256) : Act (Option (IoResult Unit)) := do
  let g ← get
  shutdownRuntime sha256
  return some (require (!g.runtime.any (·.active.isSome))
    ⟨.unexpectedEof, "the control channel closed while an invocation was active"⟩)

/-- One turn; what the loop returns, if it does. -/
def turn (sha256 : Sha256) : Turn → Act (Option (IoResult Unit))
  | .service => do
    serviceRuntime sha256
    return none
  | .receive frame => receive sha256 frame
  | .closed => closeChannel sha256

/-- The control loop over its turns: `poll_loop` services the runtime before each read of the channel, which
yields any number of frames, and `command_loop` only receives.  The value is what the loop returned if it did. -/
def run (sha256 : Sha256) : List Turn → Act (Option (IoResult Unit))
  | [] => return none
  | t :: turns => do
    match ← turn sha256 t with
    | some result => return some result
    | none => run sha256 turns

end SimFerret.Guest
