import SimFerret.Lib.Action
import SimFerret.Checker.Growth

/-!
# SimFerret.Driver.Controller — the workload control loop (`run.rs`)

`drive_workload_scenario` talks to a `RunningVm` and folds every frame it receives.  The event channel of the VM
is the list of what its reads yield, in order; an arbitrary VM that answers what it is sent is one such list,
because the driver is deterministic.  Every loop of the source ends with a read, so it is a recursion on that list.

* `WorkloadController`: the controller with the two locals of `drive_workload_scenario` that its steps share.
* `receiveLoop`: `loop { let frame = self.receive_one()?; .. }`.
* `workloadSteps`, `runStep`, `driveWorkloadScenario`: the plan and its execution.
-/

namespace SimFerret.Driver

open Checker Workload

/-- One read of the event channel. -/
inductive Delivery where
  | event (frame : EventFrame)
  /-- Nothing is queued: `try_receive` returns `None`, a blocking read runs into its deadline. -/
  | quiet
  | closed
  | failure (error : IoError)
deriving DecidableEq, Repr

/-- What the VM and the driver exchange. -/
inductive Exchanged where
  | sent (frame : CommandFrame)
  | received (frame : EventFrame)
deriving DecidableEq, Repr

structure WorkloadController where
  /-- What the sends of the VM return; past the list they succeed. -/
  sends : List (IoResult Unit) := []
  /-- The commands sent so far. -/
  sent : List CommandFrame := []
  /-- The commands sent and the frames received so far, in order. -/
  transcript : List Exchanged := []
  nextCommandId : Nat := 1
  nextEventId : Nat := 1
  rawEvents : List EventFrame := []
  events : List NormalizedEvent := []
  trace : WorkloadTrace := {}
  consumedLines : Std.ExtTreeMap Nat Nat := ∅
  /-- `offsets`, a local of `drive_workload_scenario`. -/
  offsets : Std.ExtTreeMap Nat Nat := ∅
  /-- `outage_active`, a local of `drive_workload_scenario`. -/
  outageActive : Bool := false

/-- Why a drive failed, and what was exchanged until then. -/
structure Interruption where
  error : IoError
  transcript : List Exchanged

/-- Driver code: it reads the channel, changes the controller and may fail. -/
abbrev Drive (α : Type) := StateT (List Delivery × WorkloadController) (Except Interruption) α

/-- The error of a blocking read that yields no frame. -/
def receiveError : List Delivery → IoError
  | .quiet :: _ => ⟨.timedOut, "timed out waiting for guest event"⟩
  | .closed :: _ => ⟨.unexpectedEof, "guest event channel closed"⟩
  | .failure error :: _ => error
  | _ => ⟨.brokenPipe, "guest event reader disconnected"⟩

namespace WorkloadController

def consumed (c : WorkloadController) (invocation : Nat) : Nat := (c.consumedLines[invocation]?).getD 0

def offset (c : WorkloadController) (invocation : Nat) : Nat := (c.offsets[invocation]?).getD 0

/-- The controller after a frame was folded into it. -/
def fold (c : WorkloadController) (frame : EventFrame) : WorkloadController :=
  { c with
    nextEventId := c.nextEventId + 1
    rawEvents := c.rawEvents ++ [frame]
    events := c.events ++ [frame.normalize]
    trace := c.trace.push frame
    transcript := c.transcript ++ [.received frame] }

/-- Fold one received frame: the command identifier must name a command that was issued, and the event
identifier must continue the stream. -/
def absorb (c : WorkloadController) (frame : EventFrame) : IoResult WorkloadController :=
  if frame.protocolVersion ≠ protocolVersion ∨ frame.eventId ≠ c.nextEventId ∨ frame.commandId = 0 ∨
      c.nextCommandId ≤ frame.commandId then
    .error (invalidData ("unexpected event envelope: version=" ++ decimal frame.protocolVersion ++ ", event_id=" ++
      decimal frame.eventId ++ ", command_id=" ++ decimal frame.commandId ++ " (last issued command " ++
      decimal (c.nextCommandId - 1) ++ ")"))
  else .ok (c.fold frame)

/-- Whether the invocation is live and has produced nothing that the checker must reject. -/
def healthy (c : WorkloadController) (invocation : Nat) : Bool :=
  !c.trace.exited invocation && !c.trace.launchFailed invocation && c.trace.stderrBytes invocation == 0 &&
    !c.trace.overBoundLine invocation

def unconsumedLine (c : WorkloadController) (invocation : Nat) : Bool :=
  c.trace.stdoutLineCount invocation > c.consumed invocation

/-- Whether the exit wait must stop before it receives anything. -/
def exitWaitFailed (c : WorkloadController) (invocation : Nat) : Bool :=
  !c.healthy invocation || c.unconsumedLine invocation || c.trace.stdoutPending invocation

/-- The controller after a command was sent. -/
def record (c : WorkloadController) (command : Command) : WorkloadController :=
  { c with
    sends := c.sends.tail
    sent := c.sent ++ [⟨protocolVersion, c.nextCommandId, command⟩]
    transcript := c.transcript ++ [.sent ⟨protocolVersion, c.nextCommandId, command⟩]
    nextCommandId := c.nextCommandId + 1 }

/-- A failure ends the drive with what was exchanged so far. -/
def lift {α : Type} (c : WorkloadController) (x : IoResult α) : Except Interruption α :=
  x.mapError fun error => ⟨error, c.transcript⟩

end WorkloadController

/-! ## Reads and sends -/

/-- The controller as it stands. -/
def controller : Drive WorkloadController := fun s => .ok (s.2, s)

def update (f : WorkloadController → WorkloadController) : Drive Unit := fun s => .ok ((), s.1, f s.2)

/-- Assign a command identifier and send the command. -/
def issue (command : Command) : Drive Nat := fun s =>
  match s.2.sends.headD (.ok ()) with
  | .error error => (s.2.record command).lift (.error error)
  | .ok () => .ok (s.2.nextCommandId, s.1, s.2.record command)

/-- Fold every already-queued event without waiting. -/
def drainLoop : List Delivery → WorkloadController →
    Except Interruption (Unit × List Delivery × WorkloadController)
  | .event frame :: queue, c => do
    let c ← c.lift (c.absorb frame)
    drainLoop queue c
  | .quiet :: queue, c => .ok ((), queue, c)
  | queue, c => c.lift (.error (receiveError queue))

def drain : Drive Unit := fun s => drainLoop s.1 s.2

/-- Receive frames until the body returns a value. -/
def receiveLoop {α : Type} (body : EventFrame → WorkloadController → IoResult (Option α)) :
    List Delivery → WorkloadController → Except Interruption (α × List Delivery × WorkloadController)
  | .event frame :: queue, c => do
    let c ← c.lift (c.absorb frame)
    match ← c.lift (body frame c) with
    | some a => .ok (a, queue, c)
    | none => receiveLoop body queue c
  | queue, c => c.lift (.error (receiveError queue))

def isTerminalWorkloadEvent : Event → Bool
  | .terminationRequested .. => true
  | .workloadExited .. => true
  | .launchFailed .. => true
  | .cleanupComplete .. => true
  | _ => false

def isWorkloadOutput : Event → Bool
  | .workloadOutput .. => true
  | _ => false

/-- The body of `expect`. -/
def expectBody (commandId : Nat) (description : Text) (allowTerminal : Bool) (predicate : Event → Bool)
    (frame : EventFrame) (_ : WorkloadController) : IoResult (Option EventFrame) :=
  if predicate frame.event then do
    require (frame.commandId == commandId)
      (invalidData ("the " ++ frame.event.kind ++ " response carries command " ++
      decimal frame.commandId ++ " instead of " ++ decimal commandId))
    pure (some frame)
  else do
    require (frame.commandId ≤ commandId) (invalidData ("an event for command " ++ decimal frame.commandId ++
      " arrived while waiting for " ++ description))
    require (isWorkloadOutput frame.event || (allowTerminal && isTerminalWorkloadEvent frame.event))
      (invalidData ("unexpected " ++ frame.event.describe ++ " while waiting for " ++ description))
    pure none

/-- Read until the expected typed event for the just-issued command arrives. -/
def expect (commandId : Nat) (description : Text) (allowTerminal : Bool) (predicate : Event → Bool) :
    Drive EventFrame := fun s =>
  receiveLoop (expectBody commandId description allowTerminal predicate) s.1 s.2

/-- The body of `await_input_accepted`. -/
def inputBody (commandId invocation expectedStart sent : Nat) (frame : EventFrame) (_ : WorkloadController) :
    IoResult (Option Bool) :=
  match frame.event with
  | .inputAccepted actual offset bytes eof => do
    require (frame.commandId == commandId) (invalidData ("the input-accepted response carries command " ++
      decimal frame.commandId ++ " instead of " ++ decimal commandId))
    require (actual == invocation && !eof && offset == expectedStart + sent && bytes == sent)
      (invalidData ("unexpected " ++ frame.event.describe ++ " while waiting for input-accepted"))
    pure (some true)
  | .workloadExited actual .. =>
    if actual = invocation then .ok (some false)
    else .error (invalidData ("unexpected " ++ frame.event.describe ++ " while waiting for input-accepted"))
  | .launchFailed actual .. =>
    if actual = invocation then .ok (some false)
    else .error (invalidData ("unexpected " ++ frame.event.describe ++ " while waiting for input-accepted"))
  | .workloadOutput .. => .ok none
  | event => .error (invalidData ("unexpected " ++ event.describe ++ " while waiting for input-accepted"))

/-- Read until the acknowledgement of the just-issued input command, or until the invocation ends first. -/
def awaitInputAccepted (commandId invocation expectedStart sent : Nat) : Drive Bool := fun s =>
  receiveLoop (inputBody commandId invocation expectedStart sent) s.1 s.2

/-- The body of `await_exit`. -/
def exitBody (commandId invocation : Nat) (frame : EventFrame) (c : WorkloadController) : IoResult (Option Bool) :=
  match frame.event with
  | .workloadExited actual .. =>
    if actual = invocation then do
      require (frame.commandId == commandId) (invalidData ("the workload-exited response carries command " ++
        decimal frame.commandId ++ " instead of " ++ decimal commandId))
      pure (some true)
    else .ok none
  | .workloadOutput .. => .ok (if c.exitWaitFailed invocation then some false else none)
  | event =>
    if isTerminalWorkloadEvent event then .ok none
    else .error (invalidData ("unexpected " ++ event.describe ++ " while waiting for workload-exited"))

/-- Read until the invocation exits, or until an observed response failure ends the wait. -/
def awaitExit (commandId invocation : Nat) : Drive Bool := fun s =>
  if s.2.exitWaitFailed invocation then .ok (false, s)
  else receiveLoop (exitBody commandId invocation) s.1 s.2

/-- Whether the invocation is still live after folding every queued event. -/
def live (invocation : Nat) : Drive Bool := do
  drain
  let c ← controller
  pure !(c.trace.exited invocation || c.trace.launchFailed invocation)

def isHealthy (invocation : Nat) : Drive Bool := do
  let c ← controller
  pure (c.healthy invocation)

/-- Send one bounded input line to a live invocation. -/
def writeStdin (invocation : Nat) (text : Text) : Drive Bool := do
  drain
  if !(← isHealthy invocation) then return false
  let c ← controller
  let expected := c.offset invocation
  let commandId ← issue (.stdinWrite invocation expected (encodeBytes text))
  if !(← awaitInputAccepted commandId invocation expected text.length) then return false
  update fun c => { c with offsets := c.offsets.insert invocation (expected + text.length) }
  return true

/-- What `wait_for_line` decides before it reads: the answer and the controller with the line consumed. -/
def nextLine (invocation : Nat) (expected : Text) (c : WorkloadController) : Option (Bool × WorkloadController) :=
  if !c.healthy invocation then some (false, c)
  else if c.consumed invocation < c.trace.stdoutLineCount invocation then
    let taken := { c with consumedLines := c.consumedLines.insert invocation (c.consumed invocation + 1) }
    some (if !taken.healthy invocation then false
      else c.trace.stdoutLine invocation (c.consumed invocation) == some expected, taken)
  else if c.trace.exited invocation || c.trace.launchFailed invocation then some (false, c)
  else none

/-- The loop of `wait_for_line`. -/
def lineLoop (invocation : Nat) (expected : Text) (queue : List Delivery) (c : WorkloadController) :
    Except Interruption (Bool × List Delivery × WorkloadController) :=
  match nextLine invocation expected c with
  | some (matched, c) => .ok (matched, queue, c)
  | none =>
    match queue with
    | .event frame :: queue => do
      let c ← c.lift (c.absorb frame)
      lineLoop invocation expected queue c
    | queue => c.lift (.error (receiveError queue))

/-- Read until one invocation's next response line is exactly `expected`. -/
def waitForLine (invocation : Nat) (expected : Text) : Drive Bool := fun s =>
  lineLoop invocation expected s.1 s.2

/-! ## The plan -/

/-- One logical step of the workload acceptance sequence. -/
inductive WorkloadStep where
  | echo (invocation : Nat)
  | state (invocation : Nat)
  | spawnDescendant (invocation : Nat)
  | start (invocation : Nat)
  | terminate (invocation : Nat)
  | activate
  | restore
  | request (invocation index : Nat)
  | stdinEof (invocation : Nat)
deriving DecidableEq, Repr

/-- The loop of `workload_steps` over the request indices from `index` on, and the end of input behind it. -/
def requestSteps (choices : WorkloadChoicePlan) : Nat → Nat → Nat → List WorkloadStep
  | 0, _, invocation => [.stdinEof invocation]
  | left + 1, index, invocation =>
    let fault := index == choices.processFaultRequestIndex
    let next := if fault then invocation + 1 else invocation
    (if fault then
        [.spawnDescendant invocation, .terminate invocation, .start next, .echo next, .state next]
      else []) ++
    (if index = choices.outageActivationRequestIndex then [.activate] else []) ++
    (if index = choices.restorationRequestIndex then [.restore] else []) ++
    .request next index :: requestSteps choices left (index + 1) next

def workloadSteps (choices : WorkloadChoicePlan) : List WorkloadStep :=
  [.start 1, .echo 1, .state 1] ++ requestSteps choices choices.requests.length 0 1

/-! ## Execution -/

/-- Write a command line and wait for its response; whether the drive stops. -/
def exchange (invocation : Nat) (text expected : Text) : Drive Bool := do
  if !(← writeStdin invocation text) then return true
  return !(← waitForLine invocation expected)

/-- Wait for the exit and the cleanup barrier of an acknowledged `terminate` or `stdin-eof`; whether the drive
stops. -/
def awaitEnd (command invocation : Nat) : Drive Bool := do
  if !(← awaitExit command invocation) then return true
  let _ ← expect command "cleanup-complete" false fun
    | .cleanupComplete .. => true
    | _ => false
  return false

def restoreNetwork (scenario : WorkloadScenario) : Drive Unit := do
  let command ← issue (.restoreNetwork (peerCidr scenario))
  let _ ← expect command "network-restored" true fun
    | .networkRestored actual => actual == peerCidr scenario
    | _ => false

/-- The line that asks for a planned request. -/
def fetchLine (request : PlannedRequest) : Text :=
  "fetch " ++ request.requestId ++ " " ++ request.payload ++ "\n"

/-- One step of the plan; whether the drive stops. -/
def runStep (scenario : WorkloadScenario) (choices : WorkloadChoicePlan) (launch : LaunchIdentity) :
    WorkloadStep → Drive Bool
  | .echo invocation =>
    let token := echoToken choices.seed invocation
    exchange invocation (utf8 "echo " ++ token ++ utf8 "\n") (utf8 "echo value=" ++ token)
  | .state invocation => exchange invocation "state\n" freshStateLine
  | .spawnDescendant invocation => exchange invocation "spawn-descendant\n" escapedDescendantLine
  | .request invocation index =>
    match choices.requests[index]? with
    | none => fun s => s.2.lift (.error ⟨.other, "index out of bounds"⟩)
    | some request =>
      exchange invocation (fetchLine request) (expectedNetworkLine request
        (requestPhase index choices.outageActivationRequestIndex choices.restorationRequestIndex))
  | .activate => do
    let command ← issue (.activateOutage (peerCidr scenario))
    let _ ← expect command "outage-activated" true fun
      | .outageActivated actual rule =>
        actual == peerCidr scenario && rule == utf8 "prohibit " ++ peerCidr scenario
      | _ => false
    update fun c => { c with outageActive := true }
    return false
  | .restore => do
    restoreNetwork scenario
    update fun c => { c with outageActive := false }
    return false
  | .start invocation => do
    let command ← issue (.start invocation launch)
    let _ ← expect command "workload-started" false fun
      | .workloadStarted .. => true
      | .launchFailed .. => true
      | _ => false
    return !(← waitForLine invocation readyLine)
  | .terminate invocation => do
    if !(← live invocation) then return true
    if !(← isHealthy invocation) then return true
    let command ← issue (.terminate invocation)
    let _ ← expect command "termination-requested" false fun
      | .terminationRequested .. => true
      | _ => false
    awaitEnd command invocation
  | .stdinEof invocation => do
    if !(← live invocation) then return true
    if !(← isHealthy invocation) then return true
    let c ← controller
    let expectedEnd := c.offset invocation
    let command ← issue (.stdinEof invocation)
    let _ ← expect command "input-accepted" false fun
      | .inputAccepted actual offset bytes eof =>
        bytes == 0 && eof && actual == invocation && offset == expectedEnd
      | _ => false
    awaitEnd command invocation

/-- The steps of the plan until one of them stops the drive; whether one did. -/
def runSteps (scenario : WorkloadScenario) (choices : WorkloadChoicePlan) (launch : LaunchIdentity) :
    List WorkloadStep → Drive Bool
  | [] => return false
  | step :: steps => do
    if ← runStep scenario choices launch step then return true
    runSteps scenario choices launch steps

/-- The network configuration that opens every run. -/
def configureNetwork (scenario : WorkloadScenario) : Drive Unit := do
  let configure ← issue (.configureNetwork networkInterface guestCidr scenario.fixturePeer)
  let _ ← expect configure "network-configured" true fun
    | .networkConfigured interface cidr gateway =>
      interface == networkInterface && cidr == guestCidr && gateway == scenario.fixturePeer
    | _ => false

/-- The body of the shutdown loop. -/
def shutdownBody (shutdown : Nat) (frame : EventFrame) (_ : WorkloadController) : IoResult (Option Unit) := do
  require (frame.commandId ≤ shutdown)
    (invalidData "an event for a later command arrived while waiting for agent-stopped")
  match frame.event with
  | .agentStopped => do
    require (frame.commandId == shutdown) (invalidData ("the agent-stopped response carries command " ++
      decimal frame.commandId ++ " instead of " ++ decimal shutdown))
    pure (some ())
  | .workloadOutput .. => .ok none
  | .inputAccepted .. => .ok none
  | event =>
    if isTerminalWorkloadEvent event then .ok none
    else .error (invalidData ("unexpected " ++ event.describe ++ " while waiting for agent-stopped"))

/-- Drain every remaining workload event until the agent reports it stopped. -/
def awaitStopped (shutdown : Nat) : Drive Unit := fun s => receiveLoop (shutdownBody shutdown) s.1 s.2

/-- The channel must report its end after the shutdown handshake. -/
def finishEvents : Drive Unit := fun s =>
  match s.1 with
  | .closed :: queue => .ok ((), queue, s.2)
  | .event frame :: _ =>
    s.2.lift (.error (invalidData ("unexpected " ++ frame.event.describe ++ " after shutdown")))
  | .failure error :: _ => s.2.lift (.error error)
  | .quiet :: _ => s.2.lift (.error ⟨.timedOut, "guest event channel did not close after shutdown"⟩)
  | [] => s.2.lift (.error ⟨.brokenPipe, "guest event reader disconnected without reporting EOF"⟩)

/-- What follows the steps: an outage that an early stop left in force is lifted, then the agent is shut down. -/
def closeRun (scenario : WorkloadScenario) (stopped : Bool) : Drive Unit := do
  let c ← controller
  if stopped && c.outageActive then
    drain
    restoreNetwork scenario
  let shutdown ← issue .shutdown
  awaitStopped shutdown
  finishEvents

/-- The part of a run before its shutdown; whether a step stopped it. -/
def runPlan (scenario : WorkloadScenario) (choices : WorkloadChoicePlan) (launch : LaunchIdentity) :
    Drive Bool := do
  configureNetwork scenario
  runSteps scenario choices launch (workloadSteps choices)

/-- The commands of one run and the report of the host checker on its events. -/
def driveWorkloadScenario (sha256 : Sha256) (scenario : WorkloadScenario) (choices : WorkloadChoicePlan)
    (launch : LaunchIdentity) : Drive (List NormalizedEvent × AssertionReport) := do
  let stopped ← runPlan scenario choices launch
  closeRun scenario stopped
  let c ← controller
  return (c.events, evaluateWorkload sha256 c.rawEvents scenario choices launch)

/-- The passing run as the driver reads it: nothing is queued before an answer to a command it sends. -/
def sampleQueue : List Delivery :=
  sampleEvents.flatMap (fun f =>
    match f.event with
    | .inputAccepted .. | .terminationRequested .. => [.quiet, .event f]
    | _ => [.event f]) ++ [.closed]

end SimFerret.Driver
