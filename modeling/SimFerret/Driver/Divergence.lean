import SimFerret.Driver.Network

/-!
# SimFerret.Driver.Divergence — what the text of a divergence tells (`run.rs`)

A replay compares what it receives with the recording, in three places.  The text of a mismatch goes into a failure
bundle that is shared.

* `replayWorkloadEvents`, `compareEvents`: the two that name the coordinates of the events.  The third is
  `Controller.compare`, which prints them whole.
* `divergence_texts`: **the two never tell a string of the guest, and the third tells every string there is**:
  its texts are equal exactly for equal events (`issue_tells` for two that differ in one string).
-/

namespace SimFerret.Driver

open Checker

/-! ## The other two comparisons -/

/-- The mismatch of two events, as both of them report it. -/
def divergence (index : Nat) (expected actual : NormalizedEvent) : IoError :=
  invalidData ("normalized event divergence at index " ++ decimal index ++ ": expected " ++
    expected.event.describe ++ " at event " ++ decimal expected.eventId ++ ", found " ++
    actual.event.describe ++ " at event " ++ decimal actual.eventId)

/-- `finish_events`, which looks at the channel alone. -/
def finishReads (queue : List Delivery) : IoResult (List Delivery) :=
  ((finishTalk (queue, {})).mapError (·.error)).map fun s => s.2.1

/-- The loop of `replay_workload_events` from `index` on. -/
def replayLoop : Nat → List NormalizedEvent → List Delivery → IoResult (List EventFrame × List Delivery)
  | _, [], queue => .ok ([], queue)
  | index, expected :: recorded, .event frame :: queue => do
    require (frame.protocolVersion == protocolVersion && frame.eventId == expected.eventId)
      (invalidData ("unexpected event envelope at index " ++ decimal index ++ ": version=" ++
        decimal frame.protocolVersion ++ ", event_id=" ++ decimal frame.eventId ++ " (expected event " ++
        decimal expected.eventId ++ ")"))
    require (frame.normalize == expected) (divergence index expected frame.normalize)
    let (frames, queue) ← replayLoop (index + 1) recorded queue
    return (frame :: frames, queue)
  | _, _ :: _, queue => .error (receiveError queue)

def replayWorkloadEvents (expected : List NormalizedEvent) (queue : List Delivery) :
    IoResult (List EventFrame × List Delivery) := do
  let last ← okOr expected.getLast? (invalidData "the recording has no normalized events")
  require (last.event == .agentStopped)
    (invalidData "the recorded event stream does not end with agent-stopped")
  let (frames, queue) ← replayLoop 0 expected queue
  let queue ← finishReads queue
  return (frames, queue)

/-- The loop of `compare_events` from `index` on. -/
def compareFrom : Nat → List NormalizedEvent → List NormalizedEvent → IoResult Unit
  | _, [], [] => .ok ()
  | index, expected :: recorded, actual :: events =>
    if expected = actual then compareFrom (index + 1) recorded events
      else .error (divergence index expected actual)
  | index, expected :: _, [] =>
    .error (invalidData ("replay ended before normalized event index " ++ decimal index ++
      ": expected " ++ expected.event.describe ++ " at event " ++ decimal expected.eventId))
  | index, [], actual :: _ => .error (invalidData ("replay produced surplus normalized event at index " ++
      decimal index ++ ": " ++ actual.event.describe ++ " at event " ++ decimal actual.eventId))

def compareEvents (expected actual : List NormalizedEvent) : IoResult Unit := compareFrom 0 expected actual

/-! ## Events that nobody should be able to tell apart -/

/-- Two events that agree on their identifiers and on their coordinates. -/
structure Alike (a b : NormalizedEvent) : Prop where
  eventId : a.eventId = b.eventId
  commandId : a.commandId = b.commandId
  describe : a.event.describe = b.event.describe

/-- What was read so far is recorded, and what comes next is not. -/
structure Diverges (expected front : List NormalizedEvent) (next : Option NormalizedEvent) : Prop where
  matched : front <+: expected
  differs : expected[front.length]? ≠ next

section

variable {expected recorded front rest rest' : List NormalizedEvent} {a b : NormalizedEvent} {index : Nat}

theorem Alike.divergence_eq (h : Alike a b) (e : NormalizedEvent) :
    divergence index e a = divergence index e b := by
  rw [divergence, divergence, h.describe, h.eventId]

/-- A recording that starts with what was read. -/
theorem Diverges.split {next : Option NormalizedEvent} (h : Diverges expected front next) :
    ∃ recorded, expected = front ++ recorded ∧ recorded.head? ≠ next := by
  obtain ⟨recorded, rfl⟩ := h.matched
  refine ⟨recorded, rfl, fun heq => h.differs ?_⟩
  rw [List.getElem?_append_right (Nat.le_refl _), Nat.sub_self, ← heq, List.head?_eq_getElem?]

theorem compareFrom_append (front recorded rest : List NormalizedEvent) (index : Nat) :
    compareFrom index (front ++ recorded) (front ++ rest) = compareFrom (index + front.length) recorded rest := by
  induction front generalizing index with
  | nil => rfl
  | cons event front ih =>
    rw [List.cons_append, List.cons_append, compareFrom, if_pos rfl, ih, List.length_cons, Nat.add_assoc,
      Nat.add_comm 1]

/-- The mismatch of two lists tells the coordinates of one event. -/
theorem compareFrom_alike (h : recorded.head? ≠ rest.head?) (h' : recorded.head? ≠ rest'.head?)
    (halike : Option.Rel Alike rest.head? rest'.head?) : ∃ error,
    compareFrom index recorded rest = .error error ∧ compareFrom index recorded rest' = .error error := by
  cases rest with
  | nil =>
    cases rest' with
    | cons b rest' => cases halike
    | nil =>
      cases recorded with
      | nil => exact absurd rfl h
      | cons e recorded => exact ⟨_, rfl, rfl⟩
  | cons a rest =>
    cases rest' with
    | nil => cases halike
    | cons b rest' =>
      have hab : Alike a b := by
        cases halike with
        | some hab => exact hab
      cases recorded with
      | nil =>
        refine ⟨_, rfl, ?_⟩
        rw [compareFrom, hab.describe, hab.eventId]
      | cons e recorded =>
        have ha : e ≠ a := fun heq => h (congrArg some heq)
        have hb : e ≠ b := fun heq => h' (congrArg some heq)
        exact ⟨_, if_neg ha, (if_neg hb).trans (congrArg Except.error (hab.divergence_eq e).symm)⟩

theorem compareEvents_alike (h : Diverges expected front rest.head?) (h' : Diverges expected front rest'.head?)
    (halike : Option.Rel Alike rest.head? rest'.head?) : ∃ error,
    compareEvents expected (front ++ rest) = .error error ∧
      compareEvents expected (front ++ rest') = .error error := by
  obtain ⟨recorded, rfl, hne⟩ := h.split
  obtain ⟨recorded', heq, hne'⟩ := h'.split
  rw [← List.append_cancel_left heq] at hne'
  rw [compareEvents, compareEvents, compareFrom_append, compareFrom_append]
  exact compareFrom_alike hne hne' halike

/-! ## A workload replay -/

section Replay

variable {front front' : List EventFrame} {a b : EventFrame} {queue queue' : List Delivery}

/-- Two runs of the loop that read the same recorded events before frames that agree on their coordinates. -/
theorem replayLoop_alike (hfront : front.map EventFrame.normalize = front'.map EventFrame.normalize)
    (hmatched : front.map EventFrame.normalize <+: recorded)
    (ha : recorded[front.length]? ≠ some a.normalize) (hb : recorded[front.length]? ≠ some b.normalize)
    (hversion : a.protocolVersion = b.protocolVersion) (halike : Alike a.normalize b.normalize) :
    (∃ error, replayLoop index recorded (front.map .event ++ .event a :: queue) = .error error ∧
      replayLoop index recorded (front'.map .event ++ .event b :: queue') = .error error) ∨
    ∃ frames frames',
      replayLoop index recorded (front.map .event ++ .event a :: queue) = .ok (frames, .event a :: queue) ∧
      replayLoop index recorded (front'.map .event ++ .event b :: queue') = .ok (frames', .event b :: queue') := by
  induction front generalizing index recorded front' with
  | nil =>
    obtain rfl : front' = [] := List.map_eq_nil_iff.mp hfront.symm
    cases recorded with
    | nil => exact .inr ⟨[], [], rfl, rfl⟩
    | cons e recorded =>
      have hid : a.eventId = b.eventId := halike.eventId
      have hne : (a.normalize == e) = false := beq_false_of_ne fun heq => ha (by rw [heq]; rfl)
      have hne' : (b.normalize == e) = false := beq_false_of_ne fun heq => hb (by rw [heq]; rfl)
      refine .inl ?_
      simp only [List.map_nil, List.nil_append, replayLoop, hversion, hid, hne, hne', halike.divergence_eq e]
      by_cases henvelope : (b.protocolVersion == protocolVersion && b.eventId == e.eventId) = true
      · rw [require, if_pos henvelope]
        exact ⟨_, rfl, rfl⟩
      · rw [require, if_neg henvelope]
        exact ⟨_, rfl, rfl⟩
  | cons frame front ih =>
    obtain ⟨frame', front', rfl⟩ : ∃ frame' rest, front' = frame' :: rest := by
      cases front' with
      | nil => cases hfront
      | cons frame' rest => exact ⟨frame', rest, rfl⟩
    obtain ⟨recorded, rfl⟩ : ∃ rest, recorded = frame.normalize :: rest := by
      obtain ⟨rest, rfl⟩ := hmatched
      exact ⟨_, rfl⟩
    obtain ⟨hframe, hfront⟩ := List.cons.inj hfront
    have hversion' : frame.protocolVersion = frame'.protocolVersion :=
      congrArg NormalizedEvent.protocolVersion hframe
    have hid : frame.eventId = frame'.eventId := congrArg NormalizedEvent.eventId hframe
    have hmatched := (List.prefix_cons_inj _).mp hmatched
    simp only [List.map_cons, List.cons_append, replayLoop, hversion', hid, hframe]
    by_cases henvelope : (frame'.protocolVersion == protocolVersion &&
      frame'.eventId == frame'.normalize.eventId) = true
    · rw [require, if_pos henvelope, require, if_pos (beq_self_eq_true _)]
      rcases @ih recorded (index + 1) front' hfront hmatched ha hb with
        ⟨error, hrun, hrun'⟩ | ⟨frames, frames', hrun, hrun'⟩
      · rw [hrun, hrun']
        exact .inl ⟨error, rfl, rfl⟩
      · rw [hrun, hrun']
        exact .inr ⟨_, _, rfl, rfl⟩
    · rw [require, if_neg henvelope]
      exact .inl ⟨_, rfl, rfl⟩

/-- The mismatch of a replayed workload tells the coordinates of one event. -/
theorem replayWorkloadEvents_alike {expected : List NormalizedEvent}
    (ha : Diverges expected (front.map EventFrame.normalize) (some a.normalize))
    (hb : Diverges expected (front'.map EventFrame.normalize) (some b.normalize))
    (hlength : front.length = front'.length) (hversion : a.protocolVersion = b.protocolVersion)
    (halike : Alike a.normalize b.normalize) : ∃ error,
    replayWorkloadEvents expected (front.map .event ++ .event a :: queue) = .error error ∧
      replayWorkloadEvents expected (front'.map .event ++ .event b :: queue') = .error error := by
  have hfront : front.map EventFrame.normalize = front'.map EventFrame.normalize := by
    refine List.IsPrefix.eq_of_length (List.prefix_of_prefix_length_le ha.matched hb.matched ?_) ?_
    · rw [List.length_map, List.length_map, hlength]
    · rw [List.length_map, List.length_map, hlength]
  have hdiffers := ha.differs
  have hdiffers' := hb.differs
  rw [List.length_map] at hdiffers hdiffers'
  rw [← hlength] at hdiffers'
  cases hlast : expected.getLast? with
  | none =>
    have hrun : ∀ queue, replayWorkloadEvents expected queue =
        .error (invalidData "the recording has no normalized events") := by
      intro queue
      rw [replayWorkloadEvents, hlast]
      rfl
    exact ⟨_, hrun _, hrun _⟩
  | some last =>
    by_cases hstopped : (last.event == .agentStopped) = true
    · have hrun : ∀ queue, replayWorkloadEvents expected queue =
          (replayLoop 0 expected queue >>= fun s => finishReads s.2 >>= fun rest => .ok (s.1, rest)) := by
        intro queue
        rw [replayWorkloadEvents, hlast]
        show (require (last.event == .agentStopped) _ >>= _) = _
        rw [require, if_pos hstopped]
        rfl
      rw [hrun, hrun]
      rcases @replayLoop_alike expected 0 front front' a b queue queue' hfront ha.matched hdiffers
        hdiffers' hversion halike with ⟨error, hloop, hloop'⟩ | ⟨frames, frames', hloop, hloop'⟩
      · rw [hloop, hloop']
        exact ⟨error, rfl, rfl⟩
      · have hdescribe : a.event.describe = b.event.describe := halike.describe
        rw [hloop, hloop']
        refine ⟨invalidData ("unexpected " ++ b.event.describe ++ " after shutdown"), ?_, rfl⟩
        rw [← hdescribe]
        rfl
    · have hrun : ∀ queue, replayWorkloadEvents expected queue =
          .error (invalidData "the recorded event stream does not end with agent-stopped") := by
        intro queue
        rw [replayWorkloadEvents, hlast]
        show (require (last.event == .agentStopped) _ >>= _) = _
        rw [require, if_neg hstopped]
        rfl
      exact ⟨_, hrun _, hrun _⟩

end Replay

end

/-! ## A network replay -/

/-- Accept frames as the events from `eventIndex` on among the answers to a command. -/
def Controller.acceptAll (c : Controller) (command : Command) (commandId : Nat) : Nat → List EventFrame →
    IoResult Controller
  | _, [] => .ok c
  | eventIndex, frame :: frames => do
    let c ← c.accept command commandId eventIndex frame
    c.acceptAll command commandId (eventIndex + 1) frames

/-- A replayed command accepts `front`, and then compares `frame` with the recording in vain. -/
structure Controller.Diverges (c : Controller) (expected : List NormalizedEvent) (command : Command)
    (front : List EventFrame) (frame : EventFrame) : Prop where
  accepted : ((c.record command).acceptAll command c.nextCommandId 0 front).isOk
  within : front.length < responseCount command
  version : frame.protocolVersion = protocolVersion
  commandId : frame.commandId = c.nextCommandId
  eventId : frame.eventId = c.nextEventId + front.length
  answers : answersCommand command front.length frame.event = true
  differs : expected[c.events.length + front.length]? ≠ some frame.normalize

section Issue

variable {c c' : Controller} {expected : List NormalizedEvent} {command : Command} {front : List EventFrame}
  {a b : EventFrame} {queue : List Delivery} {commandId eventIndex left : Nat}

/-- What an accepted frame leaves. -/
theorem accept_eq_ok (h : c.accept command commandId eventIndex a = .ok c') : c' = c.push a := by
  obtain ⟨-, -, h⟩ := bind_eq_ok.mp h
  obtain ⟨-, -, h⟩ := bind_eq_ok.mp h
  obtain ⟨-, -, h⟩ := bind_eq_ok.mp h
  exact (pure_eq_ok.mp h).symm

/-- What the accepted frames leave. -/
theorem acceptAll_eq_ok (h : c.acceptAll command commandId eventIndex front = .ok c') :
    c'.nextEventId = c.nextEventId + front.length ∧ c'.events.length = c.events.length + front.length ∧
      c'.expectedEvents = c.expectedEvents ∧ c'.tables = c.tables ∧ c'.sent = c.sent := by
  induction front generalizing c eventIndex with
  | nil =>
    cases h
    exact ⟨rfl, rfl, rfl, rfl, rfl⟩
  | cons frame front ih =>
    obtain ⟨next, hnext, h⟩ := bind_eq_ok.mp h
    obtain rfl := accept_eq_ok hnext
    obtain ⟨hid, hlength, hexpected, htables, hsent⟩ := ih h
    refine ⟨?_, ?_, hexpected, htables, hsent⟩
    · rw [hid, List.length_cons]
      simp only [Controller.push]
      omega
    · rw [hlength, List.length_cons]
      simp only [Controller.push, List.length_append, List.length_singleton]
      omega

theorem receiveResponses_event {received : List EventFrame} :
    Controller.receiveResponses command commandId (left + 1) eventIndex received (.event a :: queue, c) =
      (c.lift (c.accept command commandId eventIndex a) >>= fun next =>
        Controller.receiveResponses command commandId left (eventIndex + 1) (received ++ [a]) (queue, next)) := rfl

/-- A command reads the frames that it accepts. -/
theorem receiveResponses_front {received : List EventFrame}
    (h : c.acceptAll command commandId eventIndex front = .ok c') (hleft : front.length ≤ left) :
    Controller.receiveResponses command commandId left eventIndex received (front.map .event ++ queue, c) =
      Controller.receiveResponses command commandId (left - front.length) (eventIndex + front.length)
        (received ++ front) (queue, c') := by
  induction front generalizing c eventIndex left received with
  | nil =>
    cases h
    rw [List.append_nil]
    rfl
  | cons frame front ih =>
    obtain ⟨next, hnext, h⟩ := bind_eq_ok.mp h
    obtain ⟨left, rfl⟩ : ∃ n, left = n + 1 := ⟨left - 1, by rw [List.length_cons] at hleft; omega⟩
    rw [List.length_cons] at hleft
    have hrest := @ih next (eventIndex + 1) left (received ++ [frame]) h (by omega)
    rw [List.map_cons, List.cons_append, receiveResponses_event, hnext]
    show Controller.receiveResponses command commandId left (eventIndex + 1) (received ++ [frame])
      (front.map .event ++ queue, next) = _
    rw [hrest, List.length_cons, List.append_assoc, List.singleton_append, Nat.add_sub_add_right]
    congr 1
    omega

/-- The text of a mismatch at one place of a recording: it ends in the whole event. -/
theorem exists_mismatch (tables : UnicodeTables) (expected : List NormalizedEvent) (index : Nat) : ∃ before : Text,
    ∀ (c : Controller) (event : NormalizedEvent), c.tables = tables → c.expectedEvents = some expected →
      c.events.length = index → expected[index]? ≠ some event →
      c.compare event = .error (invalidData (before ++ debugText (event.debug tables))) := by
  cases hrecorded : expected[index]? with
  | none =>
    refine ⟨"replay produced surplus normalized event at index " ++ decimal index ++ "\nactual: ",
      fun c event htables hexpected hlength hdiffers => ?_⟩
    simp only [Controller.compare, hexpected, hlength, hrecorded, htables]
  | some recorded =>
    refine ⟨"normalized event divergence at index " ++ decimal index ++ "\nexpected: " ++
      debugText (recorded.debug tables) ++ "\nactual: ", fun c event htables hexpected hlength hdiffers => ?_⟩
    have hne : ¬ (recorded == event) = true := fun heq => hdiffers (congrArg some (eq_of_beq heq))
    simp only [Controller.compare, hexpected, hlength, hrecorded, htables, require, if_neg hne]

/-- A command ends with the mismatch of the first frame that it compares in vain. -/
theorem exists_issue (hreplay : c.sendCommands = false) (hexpected : c.expectedEvents = some expected)
    (command : Command) (place : Nat) : ∃ before : Text,
    ∀ (front : List EventFrame) (a : EventFrame) (queue : List Delivery),
      c.Diverges expected command front a → front.length = place →
      Controller.issue command (front.map .event ++ .event a :: queue, c) =
        .error ⟨invalidData (before ++ debugText (a.normalize.debug c.tables)), c.sent⟩ := by
  obtain ⟨before, hmismatch⟩ := exists_mismatch c.tables expected (c.events.length + place)
  refine ⟨before, fun front a queue h hplace => ?_⟩
  obtain ⟨last, hlast⟩ := exists_eq_ok h.accepted
  obtain ⟨hid, hlength, hrecorded, htables, hsent⟩ := acceptAll_eq_ok hlast
  have hid : last.nextEventId = c.nextEventId + front.length := hid
  have hlength : last.events.length = c.events.length + front.length := hlength
  have hsent : last.sent = c.sent := by
    rw [hsent, Controller.record, hreplay]
    rfl
  have hcompare := hmismatch last a.normalize htables (hrecorded.trans hexpected) (hplace ▸ hlength)
    (hplace ▸ h.differs)
  have henvelope : (a.protocolVersion == protocolVersion && a.commandId == c.nextCommandId &&
      a.eventId == last.nextEventId) = true := by
    rw [h.version, h.commandId, h.eventId, hid]
    simp
  have haccept : last.accept command c.nextCommandId front.length a =
      .error (invalidData (before ++ debugText (a.normalize.debug c.tables))) := by
    rw [Controller.accept, require, if_pos henvelope, validateResponse, require, if_pos h.answers]
    show (last.compare a.normalize >>= _) = _
    rw [hcompare]
    rfl
  obtain ⟨left, hleft⟩ : ∃ n, responseCount command - front.length = n + 1 :=
    ⟨responseCount command - front.length - 1, by have := h.within; omega⟩
  rw [Controller.issue, hreplay]
  show Controller.receiveResponses command c.nextCommandId (responseCount command) 0 []
    (front.map .event ++ .event a :: queue, c.record command) = _
  rw [receiveResponses_front hlast (Nat.le_of_lt h.within), hleft, Nat.zero_add, receiveResponses_event, haccept,
    ← hsent]
  rfl

/-- A successful response tells its identifier and its payload. -/
theorem requestSucceeded_inj {tables : UnicodeTables} {requestId payload id data id' data' : Text}
    {phase : RequestPhase} (hid : Utf8.valid id = true) (hid' : Utf8.valid id' = true)
    (hdata : Utf8.valid data = true) (hdata' : Utf8.valid data' = true)
    (heq : (Event.requestSucceeded requestId payload id data phase).debug tables =
      (Event.requestSucceeded requestId payload id' data' phase).debug tables) : id = id' ∧ data = data' := by
  rw [Event.debug, Event.debug] at heq
  obtain ⟨-, heq⟩ := fields_inj (debugStruct_inj heq) rfl
  obtain ⟨-, heq⟩ := fields_inj heq rfl
  obtain ⟨hids, heq⟩ := fields_inj heq rfl
  obtain ⟨hdatas, -⟩ := fields_inj heq rfl
  exact ⟨debugString_injective hid hid' hids, debugString_injective hdata hdata' hdatas⟩

/-- An unavailable peer tells its error and the number of it. -/
theorem requestUnavailable_inj {tables : UnicodeTables} {requestId : Text} {phase : RequestPhase}
    {error error' : RequestError} {errno errno' : Option Int}
    (heq : (Event.requestUnavailable requestId phase error errno).debug tables =
      (Event.requestUnavailable requestId phase error' errno').debug tables) : error = error' ∧
        errno = errno' := by
  rw [Event.debug, Event.debug] at heq
  obtain ⟨-, heq⟩ := fields_inj (debugStruct_inj heq) rfl
  obtain ⟨-, heq⟩ := fields_inj heq rfl
  obtain ⟨herror, heq⟩ := fields_inj heq rfl
  have herrno := last_field_inj heq
  constructor
  · cases error <;> cases error' <;> first | rfl | exact absurd herror (by decide)
  · cases errno with
    | none =>
      cases errno' with
      | none => rfl
      | some _ => cases herrno
    | some n =>
      cases errno' with
      | none => cases herrno
      | some m =>
        have hlines := debugEntry_injective (List.append_cancel_right (List.cons.inj herrno).2)
        rw [decimalInt_injective (List.cons.inj hlines).1]

/-- Two answers to one command at one place that are printed alike are the same: what the command does not fix, the
text tells. -/
theorem answer_injective {tables : UnicodeTables} {e e' : Event} (h : answersCommand command eventIndex e = true)
    (h' : answersCommand command eventIndex e' = true) (hencoded : e.Encoded) (hencoded' : e'.Encoded)
    (heq : e.debug tables = e'.debug tables) : e = e' := by
  have hname : utf8 "RequestSucceeded" ++ utf8 " \x7b" ≠ utf8 "RequestUnavailable" ++ utf8 " \x7b" := by decide
  unfold answersCommand at h
  split at h
  all_goals
    cases e' <;> simp only [answersCommand, Bool.and_eq_true, beq_iff_eq, Bool.false_eq_true] at h h'
  -- What the command fixes.
  any_goals simp only [h, h']
  next =>
    obtain ⟨⟨rfl, rfl⟩, rfl⟩ := h
    obtain ⟨⟨rfl, rfl⟩, rfl⟩ := h'
    simp only [Event.Encoded, Event.texts, List.forall_mem_cons] at hencoded hencoded'
    obtain ⟨-, -, hid, hdata, -⟩ := hencoded
    obtain ⟨-, -, hid', hdata', -⟩ := hencoded'
    obtain ⟨rfl, rfl⟩ := requestSucceeded_inj hid hid' hdata hdata' heq
    rfl
  next => exact absurd (List.cons.inj heq).1 hname
  next => exact absurd (List.cons.inj heq).1.symm hname
  next =>
    obtain ⟨rfl, rfl⟩ := h
    obtain ⟨rfl, rfl⟩ := h'
    obtain ⟨rfl, rfl⟩ := requestUnavailable_inj heq
    rfl
  next =>
    rw [AssertionReport.debug_injective (List.forall_mem_map.mp hencoded) (List.forall_mem_map.mp hencoded')
      (last_field_inj (debugStruct_inj heq))]

/-- Two mismatches of a replayed command tell the two events, and nothing else of them. -/
theorem issue_injective {front' : List EventFrame} {queue' : List Delivery} (hreplay : c.sendCommands = false)
    (hexpected : c.expectedEvents = some expected) (h : c.Diverges expected command front a)
    (h' : c.Diverges expected command front' b) (hlength : front.length = front'.length) (ha : a.event.Encoded)
    (hb : b.event.Encoded) : ∃ error error',
    Controller.issue command (front.map .event ++ .event a :: queue, c) = .error error ∧
      Controller.issue command (front'.map .event ++ .event b :: queue', c) = .error error' ∧
      (error = error' ↔ a.event = b.event) := by
  obtain ⟨before, hissue⟩ := exists_issue hreplay hexpected command front.length
  refine ⟨_, _, hissue front a queue h rfl, hissue front' b queue' h' hlength.symm, ?_⟩
  constructor
  · intro herror
    have hmessage := congrArg (fun stopped => stopped.error.message) herror
    have hdebug := @NormalizedEvent.debugText_inj c.tables a.normalize b.normalize ha hb
      (List.append_cancel_left hmessage)
    have hanswers := h'.answers
    rw [← hlength] at hanswers
    exact answer_injective h.answers hanswers ha hb (NormalizedEvent.debug_inj hdebug)
  · intro hevent
    have hnormalize : a.normalize = b.normalize := by
      rw [EventFrame.normalize, EventFrame.normalize, h.version, h'.version, h.eventId, h'.eventId, h.commandId,
        h'.commandId, hlength, hevent]
    rw [hnormalize]

end Issue

/-! ## What the texts tell -/

/-- **Two comparisons tell no string of the guest, and the third tells every one.**  Where two lists, or two
frames of a workload replay, leave the recording at one place with events that agree on their identifiers and on
their coordinates, the errors are equal.  Where two frames of a network replay do, the errors are equal exactly
if the events are. -/
theorem divergence_texts (expected : List NormalizedEvent) :
    (∀ front rest rest' : List NormalizedEvent,
      Diverges expected front rest.head? → Diverges expected front rest'.head? →
      Option.Rel Alike rest.head? rest'.head? →
      ∃ error, compareEvents expected (front ++ rest) = .error error ∧
        compareEvents expected (front ++ rest') = .error error) ∧
    (∀ (front front' : List EventFrame) (a b : EventFrame)
      (queue queue' : List Delivery),
      Diverges expected (front.map EventFrame.normalize) (some a.normalize) →
      Diverges expected (front'.map EventFrame.normalize) (some b.normalize) → front.length = front'.length →
      a.protocolVersion = b.protocolVersion → Alike a.normalize b.normalize →
      ∃ error, replayWorkloadEvents expected (front.map .event ++ .event a :: queue) = .error error ∧
        replayWorkloadEvents expected (front'.map .event ++ .event b :: queue') = .error error) ∧
    ∀ (c : Controller) (command : Command) (front front' : List EventFrame)
      (a b : EventFrame) (queue queue' : List Delivery),
      c.sendCommands = false → c.expectedEvents = some expected → c.Diverges expected command front a →
      c.Diverges expected command front' b → front.length = front'.length → a.event.Encoded → b.event.Encoded →
      Alike a.normalize b.normalize → ∃ error error',
      Controller.issue command (front.map .event ++ .event a :: queue, c) = .error error ∧
        Controller.issue command (front'.map .event ++ .event b :: queue', c) = .error error' ∧
        (error = error' ↔ a.event = b.event) := by
  refine ⟨fun front rest rest' => compareEvents_alike, ?_, ?_⟩
  · intro front front' a b queue queue'
    exact replayWorkloadEvents_alike
  · intro c command front front' a b queue queue' hreplay hexpected h h' hlength ha hb _
    exact issue_injective hreplay hexpected h h' hlength ha hb

/-! ### A string of the guest in an error -/

def sampleRequest : Command := .request "request-0001" "payload" .preOutage

/-- The frames that answer the request. -/
def attemptedFrame : EventFrame := ⟨1, 1, 1, .requestAttempted "request-0001" "payload" .preOutage, {}⟩

def respondedFrame (payload : Text) : EventFrame :=
  ⟨1, 2, 1, .requestSucceeded "request-0001" "payload" "request-0001" payload .preOutage, {}⟩

/-- What the guest of a replay sends. -/
def respondedQueue (payload : Text) : List Delivery :=
  [attemptedFrame].map .event ++ [.event (respondedFrame payload)]

/-- A recording of the request. -/
def sampleRecording : List NormalizedEvent :=
  [attemptedFrame.normalize, (respondedFrame "payload").normalize, ⟨1, 3, 2, .agentStopped⟩]

def sampleReplay : Controller where
  sendCommands := false
  expectedEvents := some sampleRecording

theorem sampleReplay_diverges {payload : Text} (h : payload ≠ "payload") :
    sampleReplay.Diverges sampleRecording sampleRequest [attemptedFrame] (respondedFrame payload) where
  accepted := by decide
  within := by decide
  version := rfl
  commandId := rfl
  eventId := rfl
  answers := by simp [answersCommand, sampleRequest, attemptedFrame, respondedFrame]
  differs := by
    intro heq
    have hevent := congrArg NormalizedEvent.event (Option.some.inj heq)
    simp only [respondedFrame, EventFrame.normalize, Event.requestSucceeded.injEq] at hevent
    exact h hevent.2.2.2.1.symm

theorem respondedFrame_encoded {payload : Text} (h : Utf8.valid payload = true) :
    (respondedFrame payload).event.Encoded := by
  intro text htext
  simp only [respondedFrame, Event.texts, List.mem_cons, List.not_mem_nil, or_false] at htext
  rcases htext with rfl | rfl | rfl | rfl
  · decide
  · decide
  · decide
  · exact h

theorem respondedFrame_alike (payload payload' : Text) :
    Alike (respondedFrame payload).normalize (respondedFrame payload').normalize := ⟨rfl, rfl, rfl⟩

/-- The same mismatch, of a list and of a workload replay. -/
theorem respondedFrame_diverges {payload : Text} (h : payload ≠ "payload") :
    Diverges sampleRecording [attemptedFrame.normalize] (some (respondedFrame payload).normalize) where
  matched := ⟨_, rfl⟩
  differs := (sampleReplay_diverges h).differs

theorem divergence_texts_request :
    (∃ error, compareEvents sampleRecording ([attemptedFrame.normalize] ++
        [(respondedFrame "secret-1").normalize]) = .error error ∧
      compareEvents sampleRecording ([attemptedFrame.normalize] ++ [(respondedFrame "secret-2").normalize]) =
        .error error) ∧
    (∃ error, replayWorkloadEvents sampleRecording (respondedQueue "secret-1") = .error error ∧
      replayWorkloadEvents sampleRecording (respondedQueue "secret-2") = .error error) ∧
    ∃ error error', Controller.issue sampleRequest (respondedQueue "secret-1", sampleReplay) = .error error ∧
      Controller.issue sampleRequest (respondedQueue "secret-2", sampleReplay) = .error error' ∧
      (error = error' ↔ (respondedFrame "secret-1").event = (respondedFrame "secret-2").event) := by
  have h := @respondedFrame_diverges "secret-1" (by decide)
  have h' := @respondedFrame_diverges "secret-2" (by decide)
  have halike := respondedFrame_alike "secret-1" "secret-2"
  obtain ⟨hcompare, hreplay, hissue⟩ := divergence_texts sampleRecording
  exact ⟨hcompare _ [_] [_] h h' (.some halike), hreplay [_] [_] _ _ [] [] h h' rfl rfl halike,
    hissue _ _ [_] [_] _ _ [] [] rfl rfl (sampleReplay_diverges (by decide))
      (sampleReplay_diverges (by decide)) rfl (respondedFrame_encoded (by decide))
      (respondedFrame_encoded (by decide)) halike⟩

/-- Two responses that differ in their payload alone are told apart. -/
theorem issue_tells : Alike (respondedFrame "secret-1").normalize (respondedFrame "secret-2").normalize ∧
    sampleReplay.Diverges sampleRecording sampleRequest [attemptedFrame] (respondedFrame "secret-1") ∧
    sampleReplay.Diverges sampleRecording sampleRequest [attemptedFrame] (respondedFrame "secret-2") ∧
    ¬ ∃ error, Controller.issue sampleRequest (respondedQueue "secret-1", sampleReplay) = .error error ∧
      Controller.issue sampleRequest (respondedQueue "secret-2", sampleReplay) = .error error := by
  have h := @sampleReplay_diverges "secret-1" (by decide)
  have h' := @sampleReplay_diverges "secret-2" (by decide)
  refine ⟨respondedFrame_alike _ _, h, h', ?_⟩
  rintro ⟨error, herror, herror'⟩
  obtain ⟨first, second, hfirst, hsecond, hiff⟩ := @issue_injective _ _ _ _ _ _ [] _ [] rfl rfl h h' rfl
    (respondedFrame_encoded (by decide)) (respondedFrame_encoded (by decide))
  have heq : first = second :=
    (Except.error.inj (hfirst.symm.trans herror)).trans (Except.error.inj (herror'.symm.trans hsecond))
  have hevent := hiff.mp heq
  simp only [respondedFrame, Event.requestSucceeded.injEq] at hevent
  exact absurd hevent.2.2.2.1 (by decide)

end SimFerret.Driver
