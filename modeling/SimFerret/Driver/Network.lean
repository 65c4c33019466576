import SimFerret.Debug
import SimFerret.Assertions
import SimFerret.Driver.Controller

/-!
# SimFerret.Driver.Network — the network control loop and its fixture (`run.rs`, `fixture.rs`)

`drive_scenario_inner` issues the seeded plan command by command and takes a fixed number of events for each; a
replay runs the same code with its commands not sent and every event compared with the recorded one.

* `fixtureEntries`, `parseFixtureResponse`: the files the peer serves and what the guest reads from them.
* `Controller`, `Controller.issue`: one command and the events that answer it.
* `driveScenarioInner`: the whole run.
-/

namespace SimFerret.Driver

open Checker

/-! ## The fixture -/

/-- The file of one request; the first one may be served corrupted. -/
def fixtureEntry (corruptResponses : Bool) (index : Nat) (request : PlannedRequest) : Text × Bytes :=
  let payload := if corruptResponses && index == 0 then request.payload ++ utf8 "-corrupted" else request.payload
  (request.requestId, utf8 "request_id=" ++ request.requestId ++ utf8 "\npayload=" ++ payload ++ utf8 "\n")

def fixtureEntries (requests : List PlannedRequest) (corruptResponses : Bool) : List (Text × Bytes) :=
  requests.mapIdx (fixtureEntry corruptResponses)

/-- `str::lines`: the text between the newlines, without a carriage return before one, and without an empty
rest. -/
def textLines (text : Text) : List Text :=
  let parts := text.splitOn 10
  let chomp : Text → Text := fun line => if line.getLast? = some 13 then line.dropLast else line
  let rest := parts.getLast?.getD []
  parts.dropLast.map chomp ++ if rest.isEmpty then [] else [rest]

/-- `str::strip_prefix`. -/
def stripStart (start text : Text) : Option Text :=
  if start.isPrefixOf text then some (text.drop start.length) else none

/-- What the guest reads from the file of a request: its identifier and its payload.  `utf8Error` is the text of a
`Utf8Error`. -/
def parseFixtureResponse (utf8Error : Bytes → Text) (contents : Bytes) : IoResult (Text × Text) := do
  require (Utf8.valid contents) (invalidData (utf8Error contents))
  let lines := textLines contents
  let requestId ← okOr (lines[0]?.bind (stripStart "request_id=")) (invalidData "missing fixture request_id")
  let payload ← okOr (lines[1]?.bind (stripStart "payload=")) (invalidData "missing fixture payload")
  require lines[2]?.isNone (invalidData "extra fixture response fields")
  require (utf8 "request_id=" ++ requestId ++ utf8 "\npayload=" ++ payload ++ utf8 "\n" == contents)
    (invalidData "fixture response is not canonically encoded")
  return (requestId, payload)

/-- `tftp_request` on a file that the peer serves. -/
def tftpResponse (utf8Error : Bytes → Text) (contents : Bytes) : IoResult (Text × Text) := do
  require (contents.length ≤ maxRequestDataLength) (invalidData "TFTP response exceeds protocol limit")
  parseFixtureResponse utf8Error contents

/-! ## The controller -/

structure Controller where
  /-- What the sends of the VM return; past the list they succeed. -/
  sends : List (IoResult Unit) := []
  /-- The commands sent so far. -/
  sent : List CommandFrame := []
  nextCommandId : Nat := 1
  nextEventId : Nat := 1
  /-- `false` in a replay, whose VM reads the commands from its own log. -/
  sendCommands : Bool := true
  expectedEvents : Option (List NormalizedEvent) := none
  rawEvents : List EventFrame := []
  events : List NormalizedEvent := []
  /-- The Unicode tables of the standard library; the texts of errors alone depend on them. -/
  tables : UnicodeTables := asciiTables

/-- Why a drive ended early, and the commands that were issued to the VM until then. -/
structure Stopped where
  error : IoError
  sent : List CommandFrame

/-- Network driver code: it reads the channel, changes the controller and may fail. -/
abbrev Talk (α : Type) := StateT (List Delivery × Controller) (Except Stopped) α

/-- A failure leaves the commands that were sent. -/
def Controller.lift {α : Type} (c : Controller) (x : IoResult α) : Except Stopped α :=
    x.mapError fun error => ⟨error, c.sent⟩

/-- Require exactly the profile's assertion names, each once, and a summary that agrees with them. -/
def validProfile (report : AssertionReport) (profile : List AssertionName) : Bool :=
  let names := report.assertions.map (·.name)
  names.all (fun name => profile.contains name) && decide names.Nodup &&
    profile.all (fun name => names.contains name) && report.passed == report.assertions.all (·.passed)

def validReport (report : AssertionReport) : Bool := validProfile report networkProfile

/-- Whether an event is the one at its place among the answers to a command. -/
def answersCommand : Command → Nat → Event → Bool
  | .configureNetwork interface guestCidr gateway, 0,
    .networkConfigured actualInterface actualCidr actualGateway =>
    actualInterface == interface && actualCidr == guestCidr && actualGateway == gateway
  | .activateOutage peer, 0, .outageActivated actual rule => actual == peer && rule == utf8 "prohibit " ++ peer
  | .restoreNetwork peer, 0, .networkRestored actual => actual == peer
  | .request requestId payload phase, 0, .requestAttempted actualId actualPayload actualPhase =>
    actualId == requestId && actualPayload == payload && actualPhase == phase
  | .request requestId payload phase, 1, .requestSucceeded actualId requestPayload _ _ actualPhase =>
    actualId == requestId && requestPayload == payload && actualPhase == phase
  | .request requestId _ phase, 1, .requestUnavailable actualId actualPhase _ _ =>
    actualId == requestId && actualPhase == phase
  | .check .., 0, .assertionsEvaluated report => validReport report
  | .shutdown, 0, .agentStopped => true
  | _, _, _ => false

def validateResponse (command : Command) (eventIndex : Nat) (frame : EventFrame) : IoResult Unit :=
  require (answersCommand command eventIndex frame.event)
    (invalidData ("event " ++ decimal (eventIndex + 1) ++ " (" ++
    frame.event.describe ++ ") does not match the " ++ command.kind ++ " command"))

/-- How many events answer a command. -/
def responseCount : Command → Nat
  | .request .. => 2
  | _ => 1

namespace Controller

/-- A replay compares each event with the recorded one at its index. -/
def compare (c : Controller) (normalized : NormalizedEvent) : IoResult Unit :=
  match c.expectedEvents with
  | none => .ok ()
  | some expected =>
    match expected[c.events.length]? with
    | some event => require (event == normalized) (invalidData ("normalized event divergence at index " ++
        decimal c.events.length ++ "\nexpected: " ++ debugText (event.debug c.tables) ++ "\nactual: " ++
        debugText (normalized.debug c.tables)))
    | none =>
        .error (invalidData ("replay produced surplus normalized event at index " ++ decimal c.events.length ++
        "\nactual: " ++ debugText (normalized.debug c.tables)))

/-- The controller after a frame was accepted. -/
def push (c : Controller) (frame : EventFrame) : Controller :=
  { c with
    nextEventId := c.nextEventId + 1
    rawEvents := c.rawEvents ++ [frame]
    events := c.events ++ [frame.normalize] }

/-- Accept one frame as the event at its place among the answers to a command. -/
def accept (c : Controller) (command : Command) (commandId eventIndex : Nat) (frame : EventFrame) :
    IoResult Controller := do
  require (frame.protocolVersion == protocolVersion && frame.commandId == commandId &&
    frame.eventId == c.nextEventId)
    (invalidData ("unexpected event envelope: version=" ++ decimal frame.protocolVersion ++ ", event_id=" ++
      decimal frame.eventId ++ ", command_id=" ++ decimal frame.commandId))
  validateResponse command eventIndex frame
  c.compare frame.normalize
  return c.push frame

/-- The controller after a command got its identifier and, in a recording, was sent. -/
def record (c : Controller) (command : Command) : Controller :=
  { c with
    sends := if c.sendCommands then c.sends.tail else c.sends
    sent := if c.sendCommands then c.sent ++ [⟨protocolVersion, c.nextCommandId, command⟩] else c.sent
    nextCommandId := c.nextCommandId + 1 }

/-- Receive the remaining events of a command. -/
def receiveResponses (command : Command) (commandId : Nat) : Nat → Nat → List EventFrame → Talk (List EventFrame)
  | 0, _, received => pure received
  | left + 1, eventIndex, received => fun (queue, c) =>
    match queue with
    | .event frame :: queue => do
      let next ← c.lift (c.accept command commandId eventIndex frame)
      receiveResponses command commandId left (eventIndex + 1) (received ++ [frame]) (queue, next)
    | queue =>
      let error := receiveError queue
      c.lift (.error ⟨error.kind, "failed receiving event " ++ decimal (eventIndex + 1) ++ "/" ++
        decimal (responseCount command) ++ " for the " ++ command.kind ++ " command: " ++ error.message⟩)

/-- Issue a command and receive its events. -/
def issue (command : Command) : Talk (List EventFrame) := fun (queue, c) =>
  match if c.sendCommands then c.sends.headD (.ok ()) else .ok () with
  | .error error => .error ⟨error, (c.record command).sent⟩
  | .ok () => receiveResponses command c.nextCommandId (responseCount command) 0 [] (queue, c.record command)

end Controller

/-! ## The run -/

/-- The commands in front of a request: the transitions that fall before it. -/
def transitions (choices : ChoicePlan) (peer : Text) (index : Nat) : List Command :=
  (if index = choices.outageActivationRequestIndex then [.activateOutage (peer ++ utf8 "/32")] else []) ++
    if index = choices.restorationRequestIndex then [.restoreNetwork (peer ++ utf8 "/32")] else []

/-- The command of a planned request. -/
def requestCommand (choices : ChoicePlan) (index : Nat) (request : PlannedRequest) : Command :=
  .request request.requestId request.payload
    (requestPhase index choices.outageActivationRequestIndex choices.restorationRequestIndex)

def issueAll : List Command → Talk Unit
  | [] => pure ()
  | command :: commands => do
    let _ ← Controller.issue command
    issueAll commands

/-- The loop over the requests from `index` on. -/
def requestLoop (choices : ChoicePlan) (peer : Text) : Nat → List PlannedRequest → Talk Unit
  | _, [] => pure ()
  | index, request :: requests => do
    issueAll (transitions choices peer index)
    let _ ← Controller.issue (requestCommand choices index request)
    requestLoop choices peer (index + 1) requests

/-- The report of the guest, which must be the host's own. -/
def checkReport (host : AssertionReport) : Event → IoResult Unit
  | .assertionsEvaluated guest => require (guest == host)
      (invalidData "guest assertion report does not match host evaluation")
  | event => .error (invalidData ("expected an assertions-evaluated report, received " ++ event.describe))

def talkController : Talk Controller := fun s => .ok (s.2, s)

def talkLift {α : Type} (x : IoResult α) : Talk α := fun s => do
  let a ← s.2.lift x
  return (a, s)

/-- The channel must report its end after the shutdown. -/
def finishTalk : Talk Unit := fun (queue, c) =>
  match queue with
  | .closed :: queue => .ok ((), queue, c)
  | .event frame :: _ => c.lift (.error (invalidData ("unexpected " ++ frame.event.describe ++ " after shutdown")))
  | .failure error :: _ => c.lift (.error error)
  | .quiet :: _ => c.lift (.error ⟨.timedOut, "guest event channel did not close after shutdown"⟩)
  | [] => c.lift (.error ⟨.brokenPipe, "guest event reader disconnected without reporting EOF"⟩)

/-- A replay must have seen every recorded event. -/
def Controller.complete (c : Controller) : IoResult Unit :=
  match c.expectedEvents with
  | none => .ok ()
  | some expected => require (c.events.length == expected.length) (invalidData ("replay ended after " ++
      decimal c.events.length ++ " normalized events; expected " ++ decimal expected.length))

/-- What follows the requests: the two reports are compared and the agent is shut down. -/
def closeScenario (scenario : Scenario) : Talk (List NormalizedEvent × AssertionReport) := do
  let c ← talkController
  let host := evaluate c.rawEvents scenario.outageEventBound scenario.livenessEventBound
  let checked ← Controller.issue (.check scenario.outageEventBound scenario.livenessEventBound)
  match checked with
  | [] => talkLift (.error ⟨.other, "index out of bounds"⟩)
  | frame :: _ => talkLift (checkReport host frame.event)
  let _ ← Controller.issue .shutdown
  finishTalk
  let c ← talkController
  talkLift c.complete
  return (c.events, host)

def driveScenarioInner (scenario : Scenario) (choices : ChoicePlan) :
    Talk (List NormalizedEvent × AssertionReport) := do
  let _ ← Controller.issue (.configureNetwork networkInterface guestCidr scenario.fixturePeer)
  requestLoop choices scenario.fixturePeer 0 choices.requests
  closeScenario scenario

end SimFerret.Driver
