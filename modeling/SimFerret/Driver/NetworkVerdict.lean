import SimFerret.Driver.NetworkRun
import SimFerret.Fixture

/-!
# SimFerret.Driver.NetworkVerdict — the agent over the fixture and the drive against it

* `tftpResponse_fixture`: the guest reads what the host wrote into the file of a request.
* `serve`: the agent whose peer serves the fixture and is out of reach while the outage is active.
* `converses_plan`: its events on the commands of the plan.
* `driveScenarioInner_conforming`: the drive against it ends with the verdict that the fixture deserves.
-/

namespace SimFerret.Driver

open Checker

/-! ## Texts of the plan -/

theorem printable_nibbles (byte : UInt8) : Printable [nibbleDigit (byte >>> 4), nibbleDigit (byte &&& 0xf)] := by
  have hall : ∀ n : Fin 256, Printable [nibbleDigit (UInt8.ofFin n >>> 4),
      nibbleDigit (UInt8.ofFin n &&& 0xf)] := by
    decide +kernel
  exact hall byte.toFin

theorem printable_hexBytesLoop : ∀ (left index : Nat) (state value : UInt64),
    Printable (hexBytesLoop left index state value).2
  | 0, _, _, _ => by simp [hexBytesLoop, Printable]
  | left + 1, index, state, value => by
    rw [hexBytesLoop]
    exact (printable_nibbles _).append (printable_hexBytesLoop left _ _ _)

theorem printable_payload {payloadBytes : Nat} : ∀ {left index : Nat} {state : UInt64},
    ∀ request ∈ plannedRequests payloadBytes left index state, Printable request.payload
  | 0, _, _, request, h => by simp [plannedRequests] at h
  | left + 1, index, state, request, h => by
    rw [plannedRequests] at h
    rcases List.mem_cons.mp h with rfl | h
    · exact printable_hexBytesLoop _ _ _ _
    · exact printable_payload request h

theorem Printable.newline_notMem {text : Text} (h : Printable text) : (10 : UInt8) ∉ text := by
  intro hmem
  exact absurd (h 10 hmem).1 (by decide)

theorem Printable.not_carriage {text : Text} (h : Printable text) : text.getLast? ≠ some 13 := by
  intro hlast
  exact absurd (h 13 (List.mem_of_getLast? hlast)).1 (by decide)

/-- The characters that the guest accepts in an identifier. -/
def IsIdentifier (text : Text) : Prop := ∀ b ∈ text, (Guest.isAsciiAlphanumeric b || b == charByte '-') = true

instance (text : Text) : Decidable (IsIdentifier text) :=
  List.decidableBAll (fun b => (Guest.isAsciiAlphanumeric b || b == charByte '-') = true) text

theorem IsIdentifier.append {s t : Text} (hs : IsIdentifier s) (ht : IsIdentifier t) : IsIdentifier (s ++ t) := by
  intro b hb
  rcases List.mem_append.mp hb with h | h
  · exact hs b h
  · exact ht b h

theorem isIdentifier_padZeros {width base n : Nat} (hb : 1 < base) (hb' : base ≤ 16) :
    IsIdentifier (padZeros width ((Nat.toDigits base n).map charByte)) := by
  refine IsIdentifier.append (fun b hmem => ?_) fun b hmem => ?_
  · rw [List.eq_of_mem_replicate hmem]
    decide
  · obtain ⟨c, hc, rfl⟩ := List.mem_map.mp hmem
    obtain ⟨d, hd, rfl⟩ := mem_toDigits hb n hc
    have hall : ∀ d < 16, (Guest.isAsciiAlphanumeric (charByte (Nat.digitChar d)) ||
      charByte (Nat.digitChar d) == charByte '-') = true := by decide
    exact hall d (by omega)

theorem isIdentifier_requestIdText (index : Nat) (nonce : UInt64) : IsIdentifier (requestIdText index nonce) := by
  unfold requestIdText
  refine .append (.append (.append (by decide) ?_) (by decide)) ?_
  · exact isIdentifier_padZeros (by decide) (by decide)
  · exact isIdentifier_padZeros (by decide) (by decide)

/-! ## The files of the fixture -/

/-- The guest reads the identifier and the payload that the file was written with. -/
theorem parseFixtureResponse_canonical {utf8Error : Bytes → Text} {requestId payload : Text}
    (hid : Printable requestId) (hpayload : Printable payload) :
    parseFixtureResponse utf8Error (utf8 "request_id=" ++ requestId ++ utf8 "\npayload=" ++ payload ++ utf8 "\n") =
      .ok (requestId, payload) := by
  have hascii : ∀ b ∈ Fixture.canonicalResponse requestId payload, b < 0x80 := by
    have hlabels : (∀ b ∈ utf8 "request_id=", b < 0x80) ∧ (∀ b ∈ utf8 "\npayload=", b < 0x80) ∧
        ∀ b ∈ utf8 "\n", b < 0x80 := by decide +kernel
    intro b hb
    simp only [Fixture.canonicalResponse, List.mem_append] at hb
    rcases hb with (((h | h) | h) | h) | h
    · exact hlabels.1 b h
    · exact (hid b h).2
    · exact hlabels.2.1 b h
    · exact (hpayload b h).2
    · exact hlabels.2.2 b h
  exact Fixture.parseFixtureResponse_iff.mpr ⟨Utf8.valid_of_ascii hascii, rfl,
    ⟨hid.newline_notMem, hid.not_carriage⟩, hpayload.newline_notMem, hpayload.not_carriage⟩

/-- What a network plan gives: its transitions are in order, its requests name their positions. -/
structure NetworkPlan (choices : ChoicePlan) : Prop extends PlacedTransitions choices where
  few : choices.requests.length ≤ maxRequestCount
  request : ∀ index request, choices.requests[index]? = some request →
    (∃ nonce, request.requestId = requestIdText index nonce) ∧ request.payload.length ≤ maxRequestDataLength / 2
  printable : ∀ request ∈ choices.requests, Printable request.payload

theorem networkPlan_choices {scenario : Scenario} (h : scenario.validate = .ok ()) (seed : UInt64) :
    NetworkPlan (scenario.choices seed) := by
  have hshape := Scenario.validate_shape h
  have hlength : (scenario.choices seed).requests.length = scenario.requestCount := length_plannedRequests _ _ _ _
  obtain ⟨hpos, hlast⟩ := activationIndex_bounds hshape.requests_ge (splitMix64Next seed).2
  obtain ⟨hlt, hrest⟩ := restorationIndex_bounds hlast (splitMix64Next (splitMix64Next seed).1).2
  refine ⟨⟨hpos, hlt, hlength ▸ hrest⟩, hlength ▸ hshape.requests_le, fun index request hget => ?_,
    fun request hmem => printable_payload request hmem⟩
  obtain ⟨hid, hpayload⟩ := getElem?_plannedRequests hget
  rw [Nat.zero_add] at hid
  have hle := hshape.payload_le
  exact ⟨hid, by omega⟩

section Fixture

variable {utf8Error : Bytes → Text} {choices : ChoicePlan} {corruptResponses : Bool} {index : Nat}
  {request : PlannedRequest}

theorem NetworkPlan.printable_id (h : NetworkPlan choices) (hget : choices.requests[index]? = some request) :
    Printable request.requestId := by
  obtain ⟨⟨nonce, hid⟩, -⟩ := h.request index request hget
  exact hid ▸ printable_requestIdText index nonce

theorem NetworkPlan.printable_served (h : NetworkPlan choices) (hget : choices.requests[index]? = some request) :
    Printable (servedPayload corruptResponses index request) := by
  have hpayload := h.printable request (List.mem_of_getElem? hget)
  rw [servedPayload]
  split
  · exact hpayload.append (by decide)
  · exact hpayload

/-- The file of a request is found under its identifier. -/
theorem find?_fixtureEntries (h : NetworkPlan choices) (hget : choices.requests[index]? = some request) :
    (fixtureEntries choices.requests corruptResponses).find? (fun file => file.1 == request.requestId) =
      some (fixtureEntry corruptResponses index request) := by
  refine find?_of_unique (List.mem_iff_getElem?.mpr ⟨index, by simp [fixtureEntries, hget]⟩)
    (by simp [fixtureEntry]) ?_
  intro file hfile hfound
  obtain ⟨other, hother⟩ := List.mem_iff_getElem?.mp hfile
  rw [fixtureEntries, List.getElem?_mapIdx, Option.map_eq_some_iff] at hother
  obtain ⟨request', hget', rfl⟩ := hother
  obtain ⟨⟨nonce, hid⟩, -⟩ := h.request index request hget
  obtain ⟨⟨nonce', hid'⟩, -⟩ := h.request other request' hget'
  simp only [fixtureEntry, beq_iff_eq, hid, hid'] at hfound
  have hsize : ∀ {i : Nat} {r : PlannedRequest}, choices.requests[i]? = some r → i < 10 ^ 4 := by
    intro i r hr
    have hlt := (List.getElem?_eq_some_iff.mp hr).1
    have hfew := h.few
    have hmax : maxRequestCount = 256 := rfl
    omega
  obtain rfl := requestIdText_inj (hsize hget') (hsize hget) hfound
  rw [Option.some.inj (hget'.symm.trans hget)]

/-- The guest reads what the host wrote into the file of a request. -/
theorem tftpResponse_fixture (h : NetworkPlan choices) (hget : choices.requests[index]? = some request) :
    tftpResponse utf8Error (fixtureEntry corruptResponses index request).2 =
      .ok (request.requestId, servedPayload corruptResponses index request) := by
  obtain ⟨⟨nonce, hid⟩, hlength⟩ := h.request index request hget
  have hlt := (List.getElem?_eq_some_iff.mp hget).1
  have hfew := h.few
  have hmax : maxRequestCount = 256 := rfl
  have hidLength : request.requestId.length = 29 := hid ▸ length_requestIdText (by omega) nonce
  have hserved : (servedPayload corruptResponses index request).length ≤ request.payload.length + 10 := by
    have hsuffix : (utf8 "-corrupted").length = 10 := rfl
    rw [servedPayload]
    split
    · rw [List.length_append, hsuffix]
    · omega
  have hsize : (fixtureEntry corruptResponses index request).2.length ≤ maxRequestDataLength := by
    have hlabels : (utf8 "request_id=").length = 11 ∧ (utf8 "\npayload=").length = 9 ∧ (utf8 "\n").length = 1 :=
      ⟨rfl, rfl, rfl⟩
    have hlimit : maxRequestDataLength = 65536 := rfl
    show (utf8 "request_id=" ++ request.requestId ++ utf8 "\npayload=" ++
      servedPayload corruptResponses index request ++ utf8 "\n").length ≤ _
    simp only [List.length_append, hlabels, hidLength]
    omega
  rw [tftpResponse, require, if_pos (by simpa using hsize)]
  exact parseFixtureResponse_canonical (h.printable_id hget) (h.printable_served hget)

/-- The guest accepts the planned requests. -/
theorem NetworkPlan.validateRequest (h : NetworkPlan choices) (hget : choices.requests[index]? = some request) :
    Guest.validateRequest request.requestId request.payload Guest.gateway = .ok () := by
  obtain ⟨⟨nonce, hid⟩, hlength⟩ := h.request index request hget
  have hlt := (List.getElem?_eq_some_iff.mp hget).1
  have hfew := h.few
  have hmax : maxRequestCount = 256 := rfl
  have hlimit : maxRequestDataLength = 65536 := rfl
  have hsize : u64Size = 2 ^ 64 := rfl
  have hidLength : request.requestId.length = 29 := hid ▸ length_requestIdText (by omega) nonce
  have hchars : request.requestId.all (fun byte => Guest.isAsciiAlphanumeric byte ||
      byte == charByte '-') = true :=
    List.all_eq_true.mpr (hid ▸ isIdentifier_requestIdText index nonce)
  have hne : request.requestId.isEmpty = false := by
    cases hrequest : request.requestId with
    | nil => simp [hrequest] at hidLength
    | cons b rest => rfl
  have htotal : saturatingAdd request.requestId.length request.payload.length ≤ maxRequestDataLength := by
    rw [saturatingAdd_of_lt (by omega)]
    omega
  rw [Guest.validateRequest, require, hchars, hne, decide_eq_true htotal]
  rfl

end Fixture

/-! ## The agent over the fixture -/

/-- What a request of the guest yields: the peer cannot be reached while the outage is active. -/
def peerAnswer (utf8Error : Bytes → Text) (fixture : List (Text × Bytes)) (outageActive : Bool)
    (requestId : Text) : Except (IoError × Option Int) (Text × Text) :=
  if outageActive then .error (⟨.permissionDenied, "Permission denied (os error 13)"⟩, some (eacces : Int))
  else
    match fixture.find? fun file => file.1 == requestId with
    | some file => (tftpResponse utf8Error file.2).mapError fun error => (error, none)
    | none => .error (⟨.notFound, "TFTP server returned an error"⟩, none)

/-- What the network does with the requests of a command. -/
def peerAnswers (utf8Error : Bytes → Text) (fixture : List (Text × Bytes)) (outageActive : Bool) :
    Command → List (Except (IoError × Option Int) (Text × Text))
  | .request requestId .. => [peerAnswer utf8Error fixture outageActive requestId]
  | _ => []

/-- One command of the agent whose peer serves the fixture. -/
def serveCommand (sha256 : Sha256) (utf8Error : Bytes → Text) (fixture : List (Text × Bytes))
    (frame : CommandFrame) : Guest.Act (Option (IoResult Unit)) := fun g =>
  Guest.receive sha256 frame
    { g with os := { g.os with responses := peerAnswers utf8Error fixture g.outageActive frame.command } }

/-- The agent on a list of commands, until it returns. -/
def serve (sha256 : Sha256) (utf8Error : Bytes → Text) (fixture : List (Text × Bytes)) : List CommandFrame →
    Guest.Act (Option (IoResult Unit))
  | [] => return none
  | frame :: frames => do
    match ← serveCommand sha256 utf8Error fixture frame with
    | some result => return some result
    | none => serve sha256 utf8Error fixture frames

/-! ## Conversations -/

/-- The frames of the events that answer one command. -/
def answerFrames (eventId commandId : Nat) (events : List Event) : List EventFrame :=
  events.mapIdx fun i event => Guest.eventFrame (eventId + i) commandId event

/-- The controller after frames were accepted. -/
def Controller.pushAll (c : Controller) (frames : List EventFrame) : Controller :=
  { c with
    nextEventId := c.nextEventId + frames.length
    rawEvents := c.rawEvents ++ frames
    events := c.events ++ frames.map EventFrame.normalize }

/-- How far the driver and the agent got. -/
structure Stage where
  sent : List CommandFrame := []
  frames : List EventFrame := []
  configured : Bool := false
  outage : Bool := false
  exitCode : Nat := 0

namespace Stage

variable (s : Stage)

def agent : Guest.Agent :=
  { events := s.frames, nextEventId := s.frames.length + 1, exitCode := s.exitCode
    networkConfigured := s.configured, outageActive := s.outage, lastCommandId := s.sent.length
    emitted := s.frames }

def controller : Controller :=
  { sent := s.sent, nextCommandId := s.sent.length + 1, nextEventId := s.frames.length + 1, rawEvents := s.frames
    events := s.frames.map EventFrame.normalize }

/-- The frame of the next command. -/
def command (command : Command) : CommandFrame := ⟨protocolVersion, s.sent.length + 1, command⟩

/-- The frames of the events that answer the next command. -/
def answers (events : List Event) : List EventFrame :=
    answerFrames (s.frames.length + 1) (s.sent.length + 1) events

/-- The stage after a command and its answers. -/
def reply (command : Command) (events : List Event) : Stage :=
  { s with sent := s.sent ++ [s.command command], frames := s.frames ++ s.answers events }

end Stage

/-- One command and the events that the driver accepts for it. -/
structure Accepted (s : Stage) (command : Command) (s' : Stage) : Prop where
  events : ∃ events : List Event, s'.frames = s.frames ++ s.answers events ∧
    events.length = responseCount command ∧ ∀ i event, events[i]? = some event →
    answersCommand command i event = true
  sent : s'.sent = s.sent ++ [s.command command]

/-- One command and its answers: the agent emits what the driver accepts. -/
structure Replied (sha256 : Sha256) (utf8Error : Bytes → Text) (fixture : List (Text × Bytes)) (s : Stage)
    (command : Command) (s' : Stage) : Prop extends Accepted s command s' where
  served : serveCommand sha256 utf8Error fixture (s.command command) s.agent = .ok (none, s'.agent)

/-- Commands that are answered one after the other. -/
inductive Converses (sha256 : Sha256) (utf8Error : Bytes → Text) (fixture : List (Text × Bytes)) : Stage →
    List Command → Stage → Prop
  | nil (s : Stage) : Converses sha256 utf8Error fixture s [] s
  | cons {s s' s'' : Stage} {command : Command} {commands : List Command}
    (first : Replied sha256 utf8Error fixture s command s')
      (rest : Converses sha256 utf8Error fixture s' commands s'') :
      Converses sha256 utf8Error fixture s (command :: commands) s''

section Receive

variable {c : Controller} {queue : List Delivery}

theorem answerFrames_cons (eventId commandId : Nat) (event : Event) (events : List Event) :
    answerFrames eventId commandId (event :: events) =
      Guest.eventFrame eventId commandId event :: answerFrames (eventId + 1) commandId events := by
  simp [answerFrames, List.mapIdx_cons, Nat.add_assoc, Nat.add_comm 1]

theorem accept_answer {command : Command} {eventIndex : Nat} {event : Event} (commandId : Nat)
    (hrecording : c.expectedEvents = none) (hanswer : answersCommand command eventIndex event = true) :
    c.accept command commandId eventIndex (Guest.eventFrame c.nextEventId commandId event) =
      .ok (c.push (Guest.eventFrame c.nextEventId commandId event)) := by
  have hvalid : validateResponse command eventIndex (Guest.eventFrame c.nextEventId commandId event) = .ok () := by
    rw [validateResponse, require, if_pos (by exact hanswer)]
  have hcompare : c.compare (Guest.eventFrame c.nextEventId commandId event).normalize = .ok () := by
    rw [Controller.compare, hrecording]
  rw [Controller.accept, hvalid, hcompare, require, if_pos (by simp [Guest.eventFrame])]
  rfl

/-- The driver accepts events that answer its command. -/
theorem receiveResponses_answers {command : Command} (commandId : Nat) : ∀ {events : List Event} {c : Controller}
    {eventIndex : Nat} {received : List EventFrame}, c.expectedEvents = none →
    (∀ i event, events[i]? = some event → answersCommand command (eventIndex + i) event = true) →
    Controller.receiveResponses command commandId events.length eventIndex received
        ((answerFrames c.nextEventId commandId events).map .event ++ queue, c) =
      .ok (received ++ answerFrames c.nextEventId commandId events, queue,
        c.pushAll (answerFrames c.nextEventId commandId events))
  | [], c, _, _, _, _ => by
    have hpushed : c.pushAll [] = c := by simp [Controller.pushAll]
    rw [answerFrames, List.mapIdx_nil, List.append_nil, hpushed]
    rfl
  | event :: events, c, eventIndex, received, hrecording, hanswers => by
    have hfirst := @accept_answer c command eventIndex event commandId hrecording (hanswers 0 event rfl)
    have hrest := @receiveResponses_answers command commandId events
      (c.push (Guest.eventFrame c.nextEventId commandId event)) (eventIndex + 1)
      (received ++ [Guest.eventFrame c.nextEventId commandId event]) hrecording fun i next hnext => by
        rw [Nat.add_assoc, Nat.add_comm 1]
        exact hanswers (i + 1) next hnext
    simp only [answerFrames_cons, List.map_cons, List.cons_append, List.length_cons,
      Controller.receiveResponses, hfirst, Controller.lift, Except.mapError, bind, Except.bind]
    refine hrest.trans ?_
    simp [Controller.pushAll, Controller.push, Nat.add_assoc, Nat.add_comm 1]

end Receive

section Converse

variable {sha256 : Sha256} {utf8Error : Bytes → Text} {fixture : List (Text × Bytes)} {s s' s'' : Stage}

theorem Converses.append {commands more : List Command} (h : Converses sha256 utf8Error fixture s commands s')
    (h' : Converses sha256 utf8Error fixture s' more s'') :
    Converses sha256 utf8Error fixture s (commands ++ more) s'' := by
  induction h with
  | nil _ => exact h'
  | cons first _ ih => exact .cons first (ih h')

theorem Converses.single {command : Command} (h : Replied sha256 utf8Error fixture s command s') :
    Converses sha256 utf8Error fixture s [command] s' := .cons h (.nil _)

/-- The commands that a conversation adds, and what the agent does on them. -/
theorem Converses.serve {commands : List Command} (h : Converses sha256 utf8Error fixture s commands s') :
    ∃ sent, s'.sent = s.sent ++ sent ∧ ∀ more, Driver.serve sha256 utf8Error fixture (sent ++ more) s.agent =
      Driver.serve sha256 utf8Error fixture more s'.agent := by
  induction h with
  | nil s => exact ⟨[], by simp, fun more => rfl⟩
  | @cons s s' _ command _ first _ ih =>
    obtain ⟨sent, hsent, hserve⟩ := ih
    refine ⟨s.command command :: sent, by rw [hsent, first.sent]; simp, fun more => ?_⟩
    rw [← hserve, List.cons_append, Driver.serve]
    simp only [bind, StateT.bind, first.served, Except.bind]

/-- The driver issues the command and takes the events that answer it. -/
theorem Accepted.issue {command : Command} (h : Accepted s command s') (queue : List Delivery) :
    ∃ received, s'.frames = s.frames ++ received ∧ received.length = responseCount command ∧
      Controller.issue command (received.map .event ++ queue, s.controller) =
          .ok (received, queue, s'.controller) := by
  obtain ⟨events, hframes, hcount, hanswers⟩ := h.events
  refine ⟨s.answers events, hframes, by simp [Stage.answers, answerFrames, hcount], ?_⟩
  have hreceive := @receiveResponses_answers queue command (s.sent.length + 1) events
    (s.controller.record command) 0 [] rfl (by simpa using hanswers)
  rw [hcount] at hreceive
  refine hreceive.trans ?_
  simp only [Stage.controller, Controller.record, Controller.pushAll, hframes, h.sent, Stage.answers,
    Stage.command]
  simp [Nat.add_right_comm]

/-- The driver issues commands and takes the events that answer them. -/
theorem Converses.issueAll {commands : List Command} (h : Converses sha256 utf8Error fixture s commands s') :
    ∃ received, s'.frames = s.frames ++ received ∧ ∀ queue,
      issueAll commands (received.map .event ++ queue, s.controller) = .ok ((), queue, s'.controller) := by
  induction h with
  | nil s => exact ⟨[], by simp, fun queue => rfl⟩
  | @cons s s' s'' command commands first _ ih =>
    obtain ⟨rest, hrest, hissue⟩ := ih
    obtain ⟨received, hreceived, -⟩ := first.issue []
    refine ⟨received ++ rest, by rw [hrest, hreceived, List.append_assoc], fun queue => ?_⟩
    obtain ⟨received', hreceived', -, hfirst⟩ := first.issue (rest.map .event ++ queue)
    obtain rfl : received = received' := List.append_cancel_left (hreceived.symm.trans hreceived')
    simp only [Driver.issueAll, List.map_append, List.append_assoc, bind, StateT.bind, hfirst, Except.bind]
    exact hissue queue

/-- The commands of the requests from `index` on. -/
def commandsFrom (choices : ChoicePlan) (peer : Text) : Nat → List PlannedRequest → List Command
  | _, [] => []
  | index, request :: requests =>
    transitions choices peer index ++ requestCommand choices index request ::
      commandsFrom choices peer (index + 1) requests

theorem issueAll_append : ∀ (commands more : List Command),
    issueAll (commands ++ more) = (do issueAll commands; issueAll more)
  | [], more => by
    funext s
    rfl
  | command :: commands, more => by
    rw [List.cons_append, issueAll, issueAll_append commands more, issueAll]
    simp only [bind_assoc]

theorem requestLoop_eq (choices : ChoicePlan) (peer : Text) : ∀ (requests : List PlannedRequest) (index : Nat),
    requestLoop choices peer index requests = issueAll (commandsFrom choices peer index requests)
  | [], _ => rfl
  | request :: requests, index => by
    rw [requestLoop, commandsFrom, issueAll_append, issueAll, requestLoop_eq choices peer requests]

end Converse

/-! ## The answers of the agent -/

section Commands

variable {sha256 : Sha256} {utf8Error : Bytes → Text} {fixture : List (Text × Bytes)} {s : Stage}

/-- The agent after it emitted the frames of one command. -/
def Stage.agentAfter (s : Stage) (frames : List EventFrame) (configured outage : Bool)
    (exitCode : Nat) : Guest.Agent :=
  { events := s.frames ++ frames, nextEventId := s.frames.length + 1 + frames.length, exitCode
    networkConfigured := configured, outageActive := outage, lastCommandId := s.sent.length + 1
    emitted := s.frames ++ frames }

theorem agent_of_answers {s' : Stage} {command : Command} {events : List Event}
    (hframes : s'.frames = s.frames ++ s.answers events) (hsent : s'.sent = s.sent ++ [s.command command]) :
    s'.agent = s.agentAfter (s.answers events) s'.configured s'.outage s'.exitCode := by
  simp [Stage.agent, Stage.agentAfter, hframes, hsent, Nat.add_right_comm]

/-- One event answers every command but a request. -/
theorem Accepted.of_single {s' : Stage} (command : Command) (event : Event) (hcount : responseCount command = 1)
    (hanswer : answersCommand command 0 event = true) (hframes : s'.frames = s.frames ++ s.answers [event])
    (hsent : s'.sent = s.sent ++ [s.command command]) : Accepted s command s' where
  events := by
    refine ⟨[event], hframes, hcount.symm, fun i other hother => ?_⟩
    cases i with
    | zero => exact (Option.some.inj hother) ▸ hanswer
    | succ i => simp at hother
  sent := hsent

theorem Replied.of_single {s' : Stage} (command : Command) (event : Event) (hcount : responseCount command = 1)
    (hanswer : answersCommand command 0 event = true) (hframes : s'.frames = s.frames ++ s.answers [event])
    (hsent : s'.sent = s.sent ++ [s.command command])
    (hserved : serveCommand sha256 utf8Error fixture (s.command command) s.agent =
      .ok (none, s.agentAfter (s.answers [event]) s'.configured s'.outage s'.exitCode)) :
    Replied sha256 utf8Error fixture s command s' where
  toAccepted := .of_single command event hcount hanswer hframes hsent
  served := hserved.trans (by rw [agent_of_answers hframes hsent])

theorem replied_configure (hconfigured : s.configured = false) :
    Replied sha256 utf8Error fixture s (.configureNetwork networkInterface guestCidr Guest.gateway)
      { s.reply (.configureNetwork networkInterface guestCidr Guest.gateway)
          [.networkConfigured networkInterface guestCidr Guest.gateway] with configured := true } := by
  refine .of_single _ (.networkConfigured networkInterface guestCidr Guest.gateway) rfl (by rfl) rfl rfl ?_
  obtain ⟨sent, frames, configured, outage, exitCode⟩ := s
  obtain rfl : configured = false := hconfigured
  rfl

theorem replied_activate (hconfigured : s.configured = true) (houtage : s.outage = false) :
    Replied sha256 utf8Error fixture s (.activateOutage Guest.peerCidr)
      { s.reply (.activateOutage Guest.peerCidr) [.outageActivated Guest.peerCidr Guest.outageRule] with
        outage := true } := by
  refine .of_single _ (.outageActivated Guest.peerCidr Guest.outageRule) rfl (by rfl) rfl rfl ?_
  obtain ⟨sent, frames, configured, outage, exitCode⟩ := s
  obtain rfl : configured = true := hconfigured
  obtain rfl : outage = false := houtage
  rfl

theorem replied_restore (hconfigured : s.configured = true) (houtage : s.outage = true) :
    Replied sha256 utf8Error fixture s (.restoreNetwork Guest.peerCidr)
      { s.reply (.restoreNetwork Guest.peerCidr) [.networkRestored Guest.peerCidr] with outage := false } := by
  refine .of_single _ (.networkRestored Guest.peerCidr) rfl (by rfl) rfl rfl ?_
  obtain ⟨sent, frames, configured, outage, exitCode⟩ := s
  obtain rfl : configured = true := hconfigured
  obtain rfl : outage = true := houtage
  rfl

/-- The guest checks the events it retained, which are the host's. -/
theorem replied_check (outageEventBound livenessEventBound : Nat)
    (hvalid : validReport (evaluate s.frames outageEventBound livenessEventBound) = true) :
    Replied sha256 utf8Error fixture s (.check outageEventBound livenessEventBound)
      { s.reply (.check outageEventBound livenessEventBound)
          [.assertionsEvaluated (evaluate s.frames outageEventBound livenessEventBound)] with
        exitCode := max s.exitCode (evaluate s.frames outageEventBound livenessEventBound).exitCode } :=
  .of_single _ (.assertionsEvaluated (evaluate s.frames outageEventBound livenessEventBound)) rfl
    hvalid rfl rfl rfl

theorem append_two_answers (frames : List EventFrame) (eventId commandId : Nat) (first second : Event) :
    frames ++ answerFrames eventId commandId [first, second] =
      frames ++ [Guest.eventFrame eventId commandId first] ++
          [Guest.eventFrame (eventId + 1) commandId second] := by
  simp [answerFrames]

theorem replied_request {requestId payload : Text} (phase : RequestPhase) (hconfigured : s.configured = true)
    (hvalid : Guest.validateRequest requestId payload Guest.gateway = .ok ()) :
    Replied sha256 utf8Error fixture s (.request requestId payload phase)
      (s.reply (.request requestId payload phase) [.requestAttempted requestId payload phase,
        Guest.requestEvent requestId payload phase (peerAnswer utf8Error fixture s.outage requestId)]) where
  events := by
    refine ⟨_, rfl, rfl, fun i other hother => ?_⟩
    match i with
    | 0 =>
      obtain rfl := Option.some.inj hother
      simp [answersCommand]
    | 1 =>
      obtain rfl := Option.some.inj hother
      cases peerAnswer utf8Error fixture s.outage requestId with
      | ok response => simp [Guest.requestEvent, answersCommand]
      | error error => simp [Guest.requestEvent, answersCommand]
    | i + 2 => simp at hother
  sent := rfl
  served := by
    refine Eq.trans ?_ (congrArg (fun g => Except.ok (none, g))
      (@agent_of_answers s (s.reply _ _) _ _ rfl rfl).symm)
    obtain ⟨sent, frames, configured, outage, exitCode⟩ := s
    obtain rfl : configured = true := hconfigured
    simp only [Stage.agentAfter, Stage.answers, append_two_answers, serveCommand, Guest.receive, Stage.command,
      Guest.dispatch, Guest.request, hvalid, peerAnswers, Stage.agent]
    cases peerAnswer utf8Error fixture outage requestId with
    | ok response => rfl
    | error error => rfl

theorem accepted_shutdown : Accepted s .shutdown (s.reply .shutdown [.agentStopped]) :=
  .of_single _ .agentStopped rfl rfl rfl rfl

/-- The agent stops once the outage is over. -/
theorem serveCommand_shutdown (houtage : s.outage = false) : ∃ g,
    g.emitted = (s.reply .shutdown [.agentStopped]).frames ∧
    serveCommand sha256 utf8Error fixture (s.command .shutdown) s.agent = .ok (some (.ok ()), g) := by
  obtain ⟨sent, frames, configured, outage, exitCode⟩ := s
  obtain rfl : outage = false := houtage
  exact ⟨_, rfl, rfl⟩

end Commands

/-! ## The commands of the plan -/

section Plan

variable {sha256 : Sha256} {utf8Error : Bytes → Text} {choices : ChoicePlan} {corruptResponses : Bool} {s : Stage}
  {index : Nat}

/-- What was exchanged when the block of a request begins. -/
structure AtBlock (choices : ChoicePlan) (s : Stage) (index : Nat) : Prop where
  sent : s.sent.length = 1 + index + transitionsBelow choices index
  frames : s.frames.length = 1 + 2 * index + transitionsBelow choices index
  configured : s.configured = true
  outage : s.outage = (decide (choices.outageActivationRequestIndex < index) &&
    decide (index ≤ choices.restorationRequestIndex))

/-- What was exchanged when a request is made. -/
structure AtRequest (choices : ChoicePlan) (s : Stage) (index : Nat) : Prop where
  sent : s.sent.length = 1 + index + transitionsBelow choices (index + 1)
  frames : s.frames.length = 1 + 2 * index + transitionsBelow choices (index + 1)
  configured : s.configured = true
  outage : s.outage = inOutage choices index

theorem answers_single (s : Stage) (event : Event) :
    s.answers [event] = [Guest.eventFrame (s.frames.length + 1) (s.sent.length + 1) event] := by
  simp [Stage.answers, answerFrames]

/-- The transitions in front of a request. -/
theorem converses_transitions (hplan : NetworkPlan choices) {fixture : List (Text × Bytes)}
    (h : AtBlock choices s index) : ∃ s', Converses sha256 utf8Error fixture s
    (transitions choices Guest.gateway index) s' ∧ AtRequest choices s' index ∧
      s'.frames = s.frames ++ transitionFrames choices index := by
  have hlt := hplan.activation_lt
  have hsent := h.sent
  have hframes := h.frames
  unfold transitionsBelow at hsent hframes
  rcases eq_or_ne index choices.outageActivationRequestIndex with heq | hne
  · have hoff : s.outage = false := by simp [h.outage, heq]
    rw [if_neg (by omega), if_neg (by omega)] at hsent hframes
    have htransitions : transitions choices Guest.gateway index = [.activateOutage Guest.peerCidr] := by
      rw [transitions, if_pos heq, if_neg (by omega)]
      rfl
    rw [htransitions]
    refine ⟨_, .single (replied_activate h.configured hoff),
      ⟨?_, ?_, h.configured, by simp [inOutage, heq, hlt]⟩, ?_⟩
    · show (s.sent ++ [_]).length = _
      rw [List.length_append, List.length_singleton, transitionsBelow, if_pos (by omega), if_neg (by omega)]
      omega
    · show (s.frames ++ s.answers [_]).length = _
      rw [answers_single, List.length_append, List.length_singleton, transitionsBelow, if_pos (by omega),
        if_neg (by omega)]
      omega
    · show s.frames ++ s.answers [_] = _
      rw [transitionFrames, if_pos heq, if_neg (by omega), answers_single,
        show s.frames.length + 1 = 2 + 2 * index by omega, show s.sent.length + 1 = 2 + index by omega]
      rfl
  · rcases eq_or_ne index choices.restorationRequestIndex with heq | hne'
    · have hon : s.outage = true := by simp [h.outage, heq, hlt]
      rw [if_pos (by omega), if_neg (by omega)] at hsent hframes
      have htransitions : transitions choices Guest.gateway index = [.restoreNetwork Guest.peerCidr] := by
        rw [transitions, if_neg hne, if_pos heq]
        rfl
      rw [htransitions]
      refine ⟨_, .single (replied_restore h.configured hon), ⟨?_, ?_, h.configured, by simp [inOutage, heq]⟩, ?_⟩
      · show (s.sent ++ [_]).length = _
        rw [List.length_append, List.length_singleton, transitionsBelow, if_pos (by omega), if_pos (by omega)]
        omega
      · show (s.frames ++ s.answers [_]).length = _
        rw [answers_single, List.length_append, List.length_singleton, transitionsBelow, if_pos (by omega),
          if_pos (by omega)]
        omega
      · show s.frames ++ s.answers [_] = _
        rw [transitionFrames, if_neg hne, if_pos heq, answers_single,
          show s.frames.length + 1 = 3 + 2 * index by omega, show s.sent.length + 1 = 3 + index by omega]
        rfl
    · have hbelow : transitionsBelow choices (index + 1) = transitionsBelow choices index := by
        unfold transitionsBelow
        split_ifs <;> omega
      have htransitions : transitions choices Guest.gateway index = [] := by
        rw [transitions, if_neg hne, if_neg hne']
        rfl
      rw [htransitions]
      refine ⟨s, .nil s, ⟨?_, ?_, h.configured, ?_⟩, ?_⟩
      · rw [hbelow, h.sent]
      · rw [hbelow, h.frames]
      · have hactive : choices.outageActivationRequestIndex < index ↔
            choices.outageActivationRequestIndex ≤ index := by omega
        have hrestored : index ≤ choices.restorationRequestIndex ↔ index < choices.restorationRequestIndex := by
          omega
        rw [h.outage, inOutage, decide_eq_decide.mpr hactive, decide_eq_decide.mpr hrestored]
      · simp [transitionFrames, hne, hne']

/-- A request is made, and its outcome is the one of its place in the plan. -/
theorem converses_request (hplan : NetworkPlan choices) {request : PlannedRequest}
    (hget : choices.requests[index]? = some request) (h : AtRequest choices s index) :
    ∃ s', Converses sha256 utf8Error (fixtureEntries choices.requests corruptResponses) s
      [requestCommand choices index request] s' ∧ AtBlock choices s' (index + 1) ∧ s'.frames = s.frames ++
        [attemptFrame choices index request, outcomeFrame choices corruptResponses index request] := by
  have houtcome : Guest.requestEvent request.requestId request.payload (phaseOf choices index)
      (peerAnswer utf8Error (fixtureEntries choices.requests corruptResponses) s.outage request.requestId) =
      outcomeEvent choices corruptResponses index request := by
    rw [peerAnswer, outcomeEvent, h.outage, find?_fixtureEntries hplan hget]
    cases inOutage choices index with
    | true => rfl
    | false =>
      simp only [Bool.false_eq_true, if_false, tftpResponse_fixture hplan hget]
      rfl
  have hanswered := @replied_request sha256 utf8Error (fixtureEntries choices.requests corruptResponses) s _ _
    (phaseOf choices index) h.configured (hplan.validateRequest hget)
  rw [houtcome] at hanswered
  have hsent := h.sent
  have hframes := h.frames
  refine ⟨_, .single hanswered, ⟨?_, ?_, h.configured, ?_⟩, ?_⟩
  · show (s.sent ++ [_]).length = _
    rw [List.length_append, List.length_singleton]
    omega
  · show (s.frames ++ s.answers [_, _]).length = _
    rw [Stage.answers, append_two_answers, List.length_append, List.length_append, List.length_singleton,
      List.length_singleton]
    omega
  · rw [decide_eq_decide.mpr (Nat.lt_succ_iff (m := choices.outageActivationRequestIndex))]
    exact h.outage
  · show s.frames ++ s.answers [_, _] = _
    rw [Stage.answers, append_two_answers, List.append_assoc, show s.frames.length + 1 = attemptId choices index by
      rw [attemptId]; omega, show s.sent.length + 1 =
        requestCommandId choices index by rw [requestCommandId]; omega]
    rfl

/-- The requests from `index` on. -/
theorem converses_requests (hplan : NetworkPlan choices) : ∀ {requests : List PlannedRequest} {index : Nat}
    {s : Stage}, choices.requests.drop index = requests → AtBlock choices s index →
    ∃ s', Converses sha256 utf8Error (fixtureEntries choices.requests corruptResponses) s
        (commandsFrom choices Guest.gateway index requests) s' ∧
      AtBlock choices s' (index + requests.length) ∧
      s'.frames = s.frames ++ framesFrom choices corruptResponses index requests
  | [], index, s, _, h => ⟨s, .nil s, h, by simp [framesFrom]⟩
  | request :: requests, index, s, hdrop, h => by
    have hget : choices.requests[index]? = some request := by
      rw [← List.head?_drop, hdrop]
      rfl
    have hnext : choices.requests.drop (index + 1) = requests := by
      rw [← List.drop_drop, hdrop]
      rfl
    obtain ⟨s₁, htransitions, h₁, hframes₁⟩ := converses_transitions hplan h
    obtain ⟨s₂, hrequest, h₂, hframes₂⟩ := converses_request hplan hget h₁
    obtain ⟨s₃, hrest, h₃, hframes₃⟩ := converses_requests hplan hnext h₂
    refine ⟨s₃, htransitions.append (hrequest.append hrest), ?_, ?_⟩
    · rwa [List.length_cons, Nat.add_comm requests.length, ← Nat.add_assoc]
    · rw [hframes₃, hframes₂, hframes₁, framesFrom, blockFrames]
      simp only [List.append_assoc]

end Plan

/-! ## The verdict -/

section Verdict

variable {sha256 : Sha256} {utf8Error : Bytes → Text} {fixture : List (Text × Bytes)} {scenario : Scenario}
  {choices : ChoicePlan}

theorem talk_bind {α β : Type} {x : Talk α} {f : α → Talk β} {a : α} {st st' : List Delivery × Controller}
    (h : x st = .ok (a, st')) : (x >>= f) st = f a st' := by
  simp only [bind, StateT.bind, h, Except.bind]

theorem talkLift_ok {α : Type} {x : IoResult α} {a : α} {st : List Delivery × Controller} (h : x = .ok a) :
    talkLift x st = .ok (a, st) := by
  rw [h]
  rfl

/-- What the drive makes of a conversation: the commands of the plan, the check of what was seen, the end. -/
theorem driveScenarioInner_of_converses {s : Stage} (hpeer : scenario.fixturePeer = Guest.gateway)
    (hplan : Converses sha256 utf8Error fixture {} (.configureNetwork networkInterface guestCidr Guest.gateway ::
      commandsFrom choices Guest.gateway 0 choices.requests) s) (houtage : s.outage = false)
    (hvalid : validReport (evaluate s.frames scenario.outageEventBound scenario.livenessEventBound) = true) :
    ∃ g c checked, g.emitted = s.frames ++ checked ∧ (∀ frame ∈ checked, frame.event.isReported = false) ∧
      serve sha256 utf8Error fixture c.sent {} = .ok (some (.ok ()), g) ∧
      driveScenarioInner scenario choices (g.emitted.map .event ++ [.closed], {}) =
        .ok ((g.emitted.map EventFrame.normalize,
        evaluate s.frames scenario.outageEventBound scenario.livenessEventBound), [], c) := by
  have hcheck := @replied_check sha256 utf8Error fixture s scenario.outageEventBound
    scenario.livenessEventBound hvalid
  set s₁ : Stage := { s.reply (.check scenario.outageEventBound scenario.livenessEventBound)
    [.assertionsEvaluated (evaluate s.frames scenario.outageEventBound scenario.livenessEventBound)] with
      exitCode :=
        max s.exitCode (evaluate s.frames scenario.outageEventBound scenario.livenessEventBound).exitCode }
    with hs₁
  have hstop := @accepted_shutdown s₁
  obtain ⟨g, hemitted, hserveStop⟩ := @serveCommand_shutdown sha256 utf8Error fixture s₁ houtage
  set s₂ := s₁.reply .shutdown [.agentStopped] with hs₂
  obtain ⟨sent, hsent, hserve⟩ := (hplan.append (.single hcheck)).serve
  obtain ⟨received, hreceived, hissue⟩ := hplan.issueAll
  obtain ⟨stopped, hstopped, -, hissueStop⟩ := hstop.issue [.closed]
  obtain ⟨checked, hchecked, -, hissueCheck⟩ := hcheck.issue (stopped.map .event ++ [.closed])
  have hone : checked = [Guest.eventFrame (s.frames.length + 1) (s.sent.length + 1)
      (.assertionsEvaluated (evaluate s.frames scenario.outageEventBound scenario.livenessEventBound))] := by
    rw [← answers_single]
    exact List.append_cancel_left hchecked.symm
  have hlast : stopped = [Guest.eventFrame (s₁.frames.length + 1) (s₁.sent.length + 1) .agentStopped] := by
    rw [← answers_single]
    exact List.append_cancel_left hstopped.symm
  have hframes : s.frames = received := hreceived
  refine ⟨g, s₂.controller, checked ++ stopped, ?_, ?_, ?_, ?_⟩
  · rw [hemitted, hstopped, hchecked, List.append_assoc]
  · rw [hone, hlast]
    simp [Guest.eventFrame, Event.isReported]
  · show serve sha256 utf8Error fixture (s₁.sent ++ [s₁.command .shutdown]) (Stage.agent {}) = _
    rw [hsent, List.nil_append, hserve, serve]
    simp only [bind, StateT.bind, hserveStop, Except.bind]
    rfl
  · have hqueue : g.emitted.map Delivery.event ++ [.closed] =
        received.map .event ++ (checked.map .event ++ (stopped.map .event ++ [.closed])) := by
      rw [hemitted, hstopped, hchecked, hframes]
      simp
    have hevents : s₂.controller.events = g.emitted.map EventFrame.normalize := by
      rw [hemitted]
      rfl
    have hopening : driveScenarioInner scenario choices = (do
        issueAll (.configureNetwork networkInterface guestCidr Guest.gateway ::
          commandsFrom choices Guest.gateway 0 choices.requests)
        closeScenario scenario) := by
      rw [driveScenarioInner, issueAll, hpeer, requestLoop_eq]
      simp only [bind_assoc]
    rw [hopening, hqueue]
    refine (talk_bind (hissue _)).trans ((talk_bind rfl).trans ((talk_bind hissueCheck).trans ?_))
    rw [hone]
    have hmatch : checkReport (evaluate s.frames scenario.outageEventBound scenario.livenessEventBound)
        (.assertionsEvaluated (evaluate s.frames scenario.outageEventBound scenario.livenessEventBound)) =
            .ok () := by
      rw [checkReport, require, if_pos (beq_self_eq_true _)]
    refine (talk_bind (talkLift_ok hmatch)).trans ((talk_bind hissueStop).trans ((talk_bind rfl).trans
      ((talk_bind rfl).trans ((talk_bind (talkLift_ok rfl)).trans ?_))))
    rw [hevents]
    rfl

/-- The conversation of a network plan. -/
theorem converses_plan (hplan : NetworkPlan choices) (corruptResponses : Bool) :
    ∃ s, Converses sha256 utf8Error (fixtureEntries choices.requests corruptResponses) {}
        (.configureNetwork networkInterface guestCidr Guest.gateway ::
          commandsFrom choices Guest.gateway 0 choices.requests) s ∧
      s.outage = false ∧ s.frames = planFrames choices corruptResponses := by
  have hconfigure := @replied_configure sha256 utf8Error (fixtureEntries choices.requests corruptResponses) {} rfl
  set s₀ : Stage := { Stage.reply {} (.configureNetwork networkInterface guestCidr Guest.gateway)
    [.networkConfigured networkInterface guestCidr Guest.gateway] with configured := true } with hs₀
  have hblock : AtBlock choices s₀ 0 := ⟨rfl, rfl, rfl, by simp [hs₀, Stage.reply]⟩
  obtain ⟨s, hrest, hs, hframes⟩ := converses_requests hplan List.drop_zero hblock
  refine ⟨s, .cons hconfigure hrest, ?_, hframes⟩
  have hlt := hplan.restoration_lt
  rw [hs.outage, Nat.zero_add, decide_eq_false (show ¬ choices.requests.length ≤
    choices.restorationRequestIndex by omega), Bool.and_false]

/-- The report has the assertions of its profile and sums them up. -/
theorem validReport_planFrames (hplan : NetworkPlan choices) (corruptResponses : Bool)
    {outageEventBound livenessEventBound : Nat} (houtage : 1 ≤ outageEventBound)
    (hliveness : 2 ≤ livenessEventBound) :
    validReport (evaluate (planFrames choices corruptResponses) outageEventBound livenessEventBound) = true := by
  have hresults := @evaluate_planFrames _ corruptResponses hplan.toPlacedTransitions _ _ houtage hliveness
  have hnames := congrArg (List.map Prod.fst) hresults
  rw [List.map_map] at hnames
  have hprofile :
    (evaluate (planFrames choices corruptResponses) outageEventBound livenessEventBound).assertions.map (·.name) =
    networkProfile := hnames
  rw [validReport, validProfile, hprofile]
  simp only [evaluate, beq_self_eq_true, Bool.and_true]
  rfl

/-- **The verdict of a conforming run.** For every valid scenario and seed, the drive against the agent whose
peer serves the fixture ends with the report on the agent's events: all four assertions hold, or all but the
first where the fixture is corrupted. -/
theorem driveScenarioInner_conforming (sha256 : Sha256) (utf8Error : Bytes → Text) {scenario : Scenario}
    (hvalid : scenario.validate = .ok ()) (seed : UInt64) :
    ∃ (g : Guest.Agent) (c : Controller) (report : AssertionReport),
      serve sha256 utf8Error (fixtureEntries (scenario.choices seed).requests
        scenario.corruptResponses) c.sent {} = .ok (some (.ok ()), g) ∧
      driveScenarioInner scenario (scenario.choices seed) (g.emitted.map .event ++ [.closed], {}) =
        .ok ((g.emitted.map EventFrame.normalize, report), [], c) ∧
      report = evaluate g.emitted scenario.outageEventBound scenario.livenessEventBound ∧
      report.passed = !scenario.corruptResponses ∧
      report.assertions.map (fun result => (result.name, result.passed)) =
        [(.safety, !scenario.corruptResponses), (.controlledOutage, true), (.restoration, true),
          (.boundedRecovery, true)] := by
  have hshape := Scenario.validate_shape hvalid
  have hplan := networkPlan_choices hvalid seed
  generalize scenario.choices seed = choices at hplan
  obtain ⟨s, hconverses, houtage, hframes⟩ := @converses_plan sha256 utf8Error _ hplan scenario.corruptResponses
  have hreport := validReport_planFrames hplan scenario.corruptResponses hshape.outage_pos hshape.liveness_ge
  have hresults := @evaluate_planFrames _ scenario.corruptResponses hplan.toPlacedTransitions _ _ hshape.outage_pos
    hshape.liveness_ge
  rw [← hframes] at hreport hresults
  obtain ⟨g, c, checked, hemitted, hunreported, hserve, hdrive⟩ :=
    driveScenarioInner_of_converses hshape.peer_eq hconverses houtage hreport
  refine ⟨g, c, _, hserve, hdrive, ?_, ?_, hresults⟩
  · rw [hemitted]
    exact (evaluate_append hunreported _ _).symm
  · have hall := congrArg (List.all · Prod.snd) hresults
    rw [List.all_map] at hall
    refine Eq.trans ?_ (hall.trans ?_)
    · rfl
    · simp

/-- The tightest bounds, and a corrupted fixture. -/
def sampleNetworkScenario : Scenario :=
  { version := scenarioVersion, name := "sample", requestCount := 3, payloadBytes := 4, fixturePeer := "10.0.2.2"
    outageEventBound := 1, livenessEventBound := 2, corruptResponses := true }

/-- What the agent answers to its plan: the requests, the check and the shutdown. -/
def sampleNetworkQueue : List Delivery :=
  let frames := planFrames (sampleNetworkScenario.choices 7) sampleNetworkScenario.corruptResponses
  let report := evaluate frames sampleNetworkScenario.outageEventBound sampleNetworkScenario.livenessEventBound
  (frames ++ [Guest.eventFrame 10 7 (.assertionsEvaluated report), Guest.eventFrame 11 8 .agentStopped]).map
    .event ++ [.closed]

theorem driveScenarioInner_conforming_sample : ∃ (g : Guest.Agent) (c : Controller) (report : AssertionReport),
    driveScenarioInner sampleNetworkScenario (sampleNetworkScenario.choices 7)
      (g.emitted.map .event ++ [.closed], {}) =
        .ok ((g.emitted.map EventFrame.normalize, report), [], c) ∧
      report.passed = false ∧ report.assertions.map (fun result => (result.name, result.passed)) =
        [(.safety, false), (.controlledOutage, true), (.restoration, true), (.boundedRecovery, true)] := by
  have hvalid : sampleNetworkScenario.validate = .ok () := by decide +kernel
  obtain ⟨g, c, report, -, hdrive, -, hpassed, hresults⟩ :=
    driveScenarioInner_conforming (fun _ => []) (fun _ => []) hvalid 7
  exact ⟨g, c, report, hdrive, hpassed, hresults⟩

end Verdict

end SimFerret.Driver
