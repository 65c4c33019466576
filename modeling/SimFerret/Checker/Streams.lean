import SimFerret.Scenario

/-!
# SimFerret.Checker.Streams — reconstruction of one invocation's streams (`checker.rs`)

`InvocationStreams.push` folds one output frame, `InvocationStreams.pushInput` one `input-accepted` event.  The
fields that the source keeps once for stdout and once for stderr are one record, `LineStream`.

* `Violation`: the structural violations, with the texts of the source.
* `push_spec`, `pushInput_spec`: what an admitted frame leaves behind, and that a frame which is not admitted
  leaves a violation that is not about a long line.
* `LineStream.Splits`: the completed lines and the pending bytes are the stream.
-/

namespace SimFerret.Checker

/-- The largest single response line the fixture may emit. -/
def maxResponseLineBytes : Nat := 1024

/-- `b'\n'`. -/
def newline : UInt8 := 10

/-- The stream-structure violations of `InvocationStreams` and `WorkloadTrace`. -/
inductive Violation where
  | sequenceJump (invocation previous sequence eventId : Nat)
  | offsetGap (invocation : Nat) (stream : OutputStream) (offset current : Nat)
  | lineTooLong (invocation : Nat) (stream : OutputStream)
  | openLineTooLong (invocation : Nat)
  | inputOffset (invocation offset previous bytes eventId : Nat)
  | eofWithBytes (invocation bytes eventId : Nat)
  | emptyInput (invocation eventId : Nat)
  | secondEof (invocation eventId : Nat)
  | inputAfterEof (invocation eventId : Nat)
  | inputCommandOrder (invocation commandId previous eventId : Nat)
  | startedTwice (invocation eventId : Nat)
  | beforeStart (what : Text) (invocation eventId : Nat)
  | afterExit (what : Text) (invocation eventId : Nat)
  | afterTermination (invocation eventId : Nat)
  | exitedTwice (invocation eventId : Nat)
  | terminatedTwice (invocation eventId : Nat)
  | cleanedTwice (invocation eventId : Nat)
  | cleanupBeforeExit (invocation eventId : Nat)
  | cleanupBeforeExitRecord (invocation eventId : Nat)
  | cleanupWithoutReaping (invocation eventId : Nat)
  | launchFailedTwice (invocation eventId : Nat)
  | launchFailedAfterExit (invocation eventId : Nat)
  | secondConfiguration (eventId configuredId : Nat)
  | foreignConfiguration (eventId : Nat)
  | secondActivation (eventId activationId : Nat)
  | ruleMismatch (eventId : Nat)
  | secondRestoration (eventId restorationId : Nat)
  | unreadableFrame (invocation eventId : Nat)
deriving DecidableEq, Repr

/-- The text of a violation. -/
def Violation.message : Violation → Text
  | .sequenceJump i p s e => "invocation " ++ decimal i ++ " sequence jumped from " ++ decimal p ++ " to " ++
      decimal s ++ " at event " ++ decimal e
  | .offsetGap i s o c => "invocation " ++ decimal i ++ " " ++ s.name ++ " offset " ++ decimal o ++
      " is not contiguous with " ++ decimal c
  | .lineTooLong i s => "invocation " ++ decimal i ++ " " ++ s.name ++ " line exceeds the response bound"
  | .openLineTooLong i =>
    "invocation " ++ decimal i ++ " stdout line exceeds the response bound before its newline"
  | .inputOffset i o p b e => "invocation " ++ decimal i ++ " input offset " ++ decimal o ++ " does not follow " ++
      decimal p ++ " plus " ++ decimal b ++ " byte(s) at event " ++ decimal e
  | .eofWithBytes i b e => "invocation " ++ decimal i ++ " accepted an end-of-input with " ++ decimal b ++
      " bytes at event " ++ decimal e
  | .emptyInput i e => "invocation " ++ decimal i ++ " accepted an empty input command at event " ++ decimal e
  | .secondEof i e => "invocation " ++ decimal i ++ " accepted a second end-of-input at event " ++ decimal e
  | .inputAfterEof i e => "invocation " ++ decimal i ++
      " accepted an input command after the end of input at event " ++ decimal e
  | .inputCommandOrder i c p e => "invocation " ++ decimal i ++ " input command " ++ decimal c ++
      " does not advance past " ++ decimal p ++ " at event " ++ decimal e
  | .startedTwice i e => "invocation " ++ decimal i ++ " started twice, the second time at event " ++ decimal e
  | .beforeStart w i e =>
    w ++ " at event " ++ decimal e ++ " names invocation " ++ decimal i ++ " before it started"
  | .afterExit w i e => w ++ " at event " ++ decimal e ++ " names invocation " ++ decimal i ++ " after it exited"
  | .afterTermination i e => "input-accepted at event " ++ decimal e ++ " names invocation " ++ decimal i ++
      " after it was terminated"
  | .exitedTwice i e => "invocation " ++ decimal i ++ " exited twice, the second time at event " ++ decimal e
  | .terminatedTwice i e => "invocation " ++ decimal i ++ " was terminated twice, the second time at event " ++
      decimal e
  | .cleanedTwice i e => "invocation " ++ decimal i ++ " completed cleanup twice, the second time at event " ++
      decimal e
  | .cleanupBeforeExit i e => "invocation " ++ decimal i ++ " completed cleanup at event " ++ decimal e ++
      " before it exited"
  | .cleanupBeforeExitRecord i e => "invocation " ++ decimal i ++ " completed cleanup at event " ++ decimal e ++
      " before its exit record"
  | .cleanupWithoutReaping i e => "invocation " ++ decimal i ++ " completed cleanup at event " ++ decimal e ++
      " without reaping a process"
  | .launchFailedTwice i e => "invocation " ++ decimal i ++
      " reported a launch failure twice, the second time at event " ++ decimal e
  | .launchFailedAfterExit i e =>
    "invocation " ++ decimal i ++ " reported a launch failure at event " ++ decimal e ++
      " after it exited"
  | .secondConfiguration e c =>
    "a second network configuration arrived at event " ++ decimal e ++ " after event " ++
      decimal c
  | .foreignConfiguration e => "the network configuration at event " ++ decimal e ++
      " is not the fixed private profile"
  | .secondActivation e a => "a second outage activation arrived at event " ++ decimal e ++ " after event " ++
      decimal a
  | .ruleMismatch e => "the outage activation at event " ++ decimal e ++ " does not name its prohibition rule"
  | .secondRestoration e r => "a second network restoration arrived at event " ++ decimal e ++ " after event " ++
      decimal r
  | .unreadableFrame i e =>
    "invocation " ++ decimal i ++ " emitted an unreadable output frame at event " ++ decimal e

/-- The violation is about the length of a line. -/
def Violation.OverLong : Violation → Prop
  | .lineTooLong _ _ => True
  | .openLineTooLong _ => True
  | _ => False

/-- One complete output line, the event that completed it and the event that carried its first byte. -/
structure CompletedLine where
  text : Text
  eventId : Nat
  firstEventId : Nat
deriving DecidableEq, Repr

/-- The fields that the source keeps for each of the two streams. -/
structure LineStream where
  bytes : Bytes := []
  /-- Bytes since the last complete line. -/
  pending : Bytes := []
  lines : List CompletedLine := []
  offset : Nat := 0
  /-- The event that carried the first byte of the unfinished line. -/
  lineEvent : Option Nat := none
deriving DecidableEq, Repr

structure InvocationStreams where
  stdout : LineStream := {}
  stderr : LineStream := {}
  stdoutOverBound : Bool := false
  stdoutOverBoundSeen : Bool := false
  inputOffset : Nat := 0
  inputCommands : List Nat := []
  dataInputEvents : List Nat := []
  eofInputs : Nat := 0
  inputEof : Bool := false
  sequence : Nat := 0
  frames : Nat := 0
  violations : List Violation := []
deriving DecidableEq, Repr

namespace LineStream

/-- The bytes of one frame arrive. -/
def extend (l : LineStream) (eventId offset : Nat) (data : Bytes) : LineStream :=
  { l with
    offset := saturatingAdd offset data.length
    bytes := l.bytes ++ data
    lineEvent := if l.pending = [] ∧ data ≠ [] then some eventId else l.lineEvent }

/-- One line is drained from the pending bytes; `more` says that bytes are left after it. -/
def complete (l : LineStream) (eventId : Nat) (line : Bytes) (more : Bool) : LineStream :=
  { l with
    lines := l.lines ++ [⟨Utf8.lossy line, eventId, l.lineEvent.getD eventId⟩]
    lineEvent := if more then some eventId else none }

/-- The drain loop over the parts of the pending bytes between newlines; the last part stays pending. -/
def drain (l : LineStream) (eventId : Nat) : List Bytes → LineStream
  | [] => l
  | [rest] => { l with pending := rest }
  | line :: second :: next =>
    (l.complete eventId line (second :: next != [[]])).drain eventId (second :: next)

def push (l : LineStream) (eventId offset : Nat) (data : Bytes) : LineStream :=
  (l.extend eventId offset data).drain eventId ((l.pending ++ data).splitOn newline)

end LineStream

namespace InvocationStreams

def stream (s : InvocationStreams) : OutputStream → LineStream
  | .stdout => s.stdout
  | .stderr => s.stderr

def setStream (s : InvocationStreams) (stream : OutputStream) (l : LineStream) : InvocationStreams :=
  match stream with
  | .stdout => { s with stdout := l }
  | .stderr => { s with stderr := l }

def violate (s : InvocationStreams) (v : Violation) : InvocationStreams :=
  { s with violations := s.violations ++ [v] }

/-- `if condition { self.violations.push(v) }`. -/
def violateIf (s : InvocationStreams) (condition : Bool) (v : Violation) : InvocationStreams :=
  { s with violations := if condition then s.violations ++ [v] else s.violations }

/-- The body of the drain loop for one line. -/
def completeLine (s : InvocationStreams) (invocation eventId : Nat) (stream : OutputStream) (line : Bytes)
    (more : Bool) : InvocationStreams :=
  let tooLong := decide ((Utf8.lossy line).length > maxResponseLineBytes)
  let s := s.violateIf tooLong (.lineTooLong invocation stream)
  let s := if tooLong && stream == .stdout then { s with stdoutOverBoundSeen := true } else s
  let s := s.setStream stream ((s.stream stream).complete eventId line more)
  if stream == .stdout then { s with stdoutOverBound := false } else s

/-- The drain loop with its flags and violations. -/
def drainLines (s : InvocationStreams) (invocation eventId : Nat) (stream : OutputStream) :
    List Bytes → InvocationStreams
  | [] => s
  | [rest] => s.setStream stream { s.stream stream with pending := rest }
  | line :: second :: next =>
    (s.completeLine invocation eventId stream line (second :: next != [[]])).drainLines invocation eventId stream
      (second :: next)

/-- The sequence and offset checks of a frame. -/
def checkFrame (s : InvocationStreams) (eventId invocation : Nat) (stream : OutputStream) (offset sequence : Nat) :
    InvocationStreams :=
  let s := s.violateIf (checkedAdd s.sequence 1 != some sequence)
    (.sequenceJump invocation s.sequence sequence eventId)
  let s := { s with sequence := sequence, frames := s.frames + 1 }
  s.violateIf (offset != (s.stream stream).offset) (.offsetGap invocation stream offset (s.stream stream).offset)

/-- A stdout line over the bound is recorded before its newline arrives. -/
def checkOpenLine (s : InvocationStreams) (invocation : Nat) (stream : OutputStream) : InvocationStreams :=
  if stream == .stdout && !s.stdoutOverBound && decide (s.stdout.pending.length > maxResponseLineBytes) then
    { s with stdoutOverBound := true, stdoutOverBoundSeen := true }.violate (.openLineTooLong invocation)
  else s

/-- Fold one output frame. -/
def push (s : InvocationStreams) (eventId invocation : Nat) (stream : OutputStream) (offset sequence : Nat)
    (data : Bytes) : InvocationStreams :=
  let s := s.checkFrame eventId invocation stream offset sequence
  let pending := (s.stream stream).pending ++ data
  let s := s.setStream stream ((s.stream stream).extend eventId offset data)
  let s := s.drainLines invocation eventId stream (pending.splitOn newline)
  s.checkOpenLine invocation stream

/-- The checks of an `input-accepted` event, in the order of the source. -/
def inputViolations (s : InvocationStreams) (invocation eventId commandId offset bytes : Nat) (eof : Bool) :
    List Violation :=
  (if checkedAdd s.inputOffset bytes ≠ some offset then
      [.inputOffset invocation offset s.inputOffset bytes eventId] else []) ++
    (if eof ∧ bytes ≠ 0 then [.eofWithBytes invocation bytes eventId] else []) ++
    (if ¬ eof ∧ bytes = 0 then [.emptyInput invocation eventId] else []) ++
    (if eof ∧ s.inputEof then [.secondEof invocation eventId] else []) ++
    (if ¬ eof ∧ s.inputEof then [.inputAfterEof invocation eventId] else []) ++
    (match s.inputCommands.getLast? with
      | some previous =>
        if commandId ≤ previous then [.inputCommandOrder invocation commandId previous eventId] else []
      | none => [])

/-- Fold one `input-accepted` event. -/
def pushInput (s : InvocationStreams) (invocation eventId commandId offset bytes : Nat) (eof : Bool) :
    InvocationStreams :=
  let s := { s with
    violations := s.violations ++ s.inputViolations invocation eventId commandId offset bytes eof
    inputCommands := s.inputCommands ++ [commandId]
    inputOffset := offset }
  if eof then { s with eofInputs := s.eofInputs + 1, inputEof := true }
  else { s with dataInputEvents := s.dataInputEvents ++ [eventId] }

/-! ## What one frame does -/

/-- The frame continues its stream: the next sequence number and the stream's own offset. -/
def Admits (s : InvocationStreams) (stream : OutputStream) (offset sequence : Nat) : Prop :=
  checkedAdd s.sequence 1 = some sequence ∧ offset = (s.stream stream).offset

/-- The input continues its stream: the offset advances by the accepted bytes, an end of input is empty and last, a
data input carries bytes, and the commands advance. -/
structure AdmitsInput (s : InvocationStreams) (commandId offset bytes : Nat) (eof : Bool) : Prop where
  offset_eq : checkedAdd s.inputOffset bytes = some offset
  eof_iff : eof = true ↔ bytes = 0
  open_input : s.inputEof = false
  command_lt : ∀ previous, s.inputCommands.getLast? = some previous → previous < commandId

@[simp] theorem stream_setStream (s : InvocationStreams) (stream : OutputStream) (l : LineStream) :
    (s.setStream stream l).stream stream = l := by
  cases stream <;> rfl

theorem stream_setStream_ne {s : InvocationStreams} {stream other : OutputStream} {l : LineStream}
    (h : other ≠ stream) : (s.setStream stream l).stream other = s.stream other := by
  cases stream <;> cases other <;> first | rfl | exact absurd rfl h

theorem stream_completeLine (s : InvocationStreams) (invocation eventId : Nat) (stream other : OutputStream)
    (line : Bytes) (more : Bool) :
    (s.completeLine invocation eventId stream line more).stream other =
      if other = stream then (s.stream stream).complete eventId line more else s.stream other := by
  unfold completeLine
  generalize decide ((Utf8.lossy line).length > maxResponseLineBytes) = tooLong
  cases tooLong <;> cases stream <;> cases other <;> rfl

theorem stream_drainLines (invocation eventId : Nat) (stream other : OutputStream) :
    ∀ (parts : List Bytes) (s : InvocationStreams),
      (s.drainLines invocation eventId stream parts).stream other =
        if other = stream then (s.stream stream).drain eventId parts else s.stream other
  | [], s => by
    simp only [drainLines, LineStream.drain]
    split
    · rename_i h; rw [h]
    · rfl
  | [rest], s => by
    by_cases h : other = stream
    · subst h
      simp [drainLines, LineStream.drain]
    · simp [drainLines, h, stream_setStream_ne h]
  | line :: second :: next, s => by
    rw [drainLines, stream_drainLines invocation eventId stream other (second :: next)]
    simp only [LineStream.drain, stream_completeLine, if_true]
    by_cases h : other = stream
    · simp [h]
    · simp [h]

/-- `s'` agrees with `s` on what input events keep. -/
structure SameInput (s s' : InvocationStreams) : Prop where
  inputOffset : s'.inputOffset = s.inputOffset
  inputCommands : s'.inputCommands = s.inputCommands
  dataInputEvents : s'.dataInputEvents = s.dataInputEvents
  eofInputs : s'.eofInputs = s.eofInputs
  inputEof : s'.inputEof = s.inputEof

theorem SameInput.refl (s : InvocationStreams) : SameInput s s := ⟨rfl, rfl, rfl, rfl, rfl⟩

theorem SameInput.trans {s t u : InvocationStreams} (h : SameInput s t) (h' : SameInput t u) : SameInput s u :=
  ⟨h'.1.trans h.1, h'.2.trans h.2, h'.3.trans h.3, h'.4.trans h.4, h'.5.trans h.5⟩

/-- An exceeded bound is on record as a violation. -/
def BoundRecorded (s : InvocationStreams) : Prop :=
  s.stdoutOverBound = true ∨ s.stdoutOverBoundSeen = true → ∃ v ∈ s.violations, v.OverLong

/-- `s'` continues `s` with more violations, all about long lines, and with its counters kept. -/
structure Continues (s s' : InvocationStreams) : Prop where
  sequence : s'.sequence = s.sequence
  frames : s'.frames = s.frames
  input : SameInput s s'
  violations : ∃ extra, s'.violations = s.violations ++ extra ∧ ∀ v ∈ extra, v.OverLong
  bound : s.BoundRecorded → s'.BoundRecorded

theorem Continues.trans {s t u : InvocationStreams} (h : Continues s t) (h' : Continues t u) : Continues s u := by
  refine ⟨h'.1.trans h.1, h'.2.trans h.2, h.input.trans h'.input, ?_, fun hb => h'.bound (h.bound hb)⟩
  obtain ⟨e1, he1, hl1⟩ := h.violations
  obtain ⟨e2, he2, hl2⟩ := h'.violations
  refine ⟨e1 ++ e2, by rw [he2, he1, List.append_assoc], fun v hv => ?_⟩
  rcases List.mem_append.mp hv with hv | hv
  · exact hl1 v hv
  · exact hl2 v hv

theorem Continues.setStream (s : InvocationStreams) (stream : OutputStream) (l : LineStream) :
    Continues s (s.setStream stream l) := by
  cases stream
  · exact ⟨rfl, rfl, ⟨rfl, rfl, rfl, rfl, rfl⟩, ⟨[], by simp [InvocationStreams.setStream]⟩, id⟩
  · exact ⟨rfl, rfl, ⟨rfl, rfl, rfl, rfl, rfl⟩, ⟨[], by simp [InvocationStreams.setStream]⟩, id⟩

theorem continues_completeLine (s : InvocationStreams) (invocation eventId : Nat) (stream : OutputStream)
    (line : Bytes) (more : Bool) : Continues s (s.completeLine invocation eventId stream line more) := by
  unfold completeLine
  generalize decide ((Utf8.lossy line).length > maxResponseLineBytes) = tooLong
  cases tooLong with
  | true =>
    have hmem : ∃ v ∈ s.violations ++ [Violation.lineTooLong invocation stream], v.OverLong :=
      ⟨_, List.mem_append_right _ (List.mem_singleton.mpr rfl), trivial⟩
    have hextra : ∀ v ∈ [Violation.lineTooLong invocation stream], v.OverLong := by
      simp [Violation.OverLong]
    cases stream with
    | stdout => exact ⟨rfl, rfl, ⟨rfl, rfl, rfl, rfl, rfl⟩, ⟨_, rfl, hextra⟩, fun _ _ => hmem⟩
    | stderr => exact ⟨rfl, rfl, ⟨rfl, rfl, rfl, rfl, rfl⟩, ⟨_, rfl, hextra⟩, fun _ _ => hmem⟩
  | false =>
    have hsame : s.violations = s.violations ++ [] := (List.append_nil _).symm
    cases stream with
    | stdout =>
      -- only the open-line flag is cleared
      exact ⟨rfl, rfl, ⟨rfl, rfl, rfl, rfl, rfl⟩, ⟨[], hsame, by simp⟩, fun hb hs => hb (.inr (hs.resolve_left
        Bool.false_ne_true))⟩
    | stderr => exact ⟨rfl, rfl, ⟨rfl, rfl, rfl, rfl, rfl⟩, ⟨[], hsame, by simp⟩, fun hb hs => hb hs⟩

theorem continues_drainLines (invocation eventId : Nat) (stream : OutputStream) :
    ∀ (parts : List Bytes) (s : InvocationStreams), Continues s (s.drainLines invocation eventId stream parts)
  | [], s => ⟨rfl, rfl, .refl s, ⟨[], by simp [drainLines]⟩, id⟩
  | [rest], s => .setStream s stream _
  | line :: second :: next, s =>
    (continues_completeLine s invocation eventId stream line _).trans
      (continues_drainLines invocation eventId stream (second :: next) _)

theorem continues_checkOpenLine (s : InvocationStreams) (invocation : Nat) (stream : OutputStream) :
    Continues s (s.checkOpenLine invocation stream) := by
  unfold checkOpenLine violate
  split
  · refine ⟨rfl, rfl, ⟨rfl, rfl, rfl, rfl, rfl⟩, ⟨[.openLineTooLong invocation], rfl, ?_⟩, fun _ _ => ?_⟩
    · simp [Violation.OverLong]
    · exact ⟨_, List.mem_append_right _ (List.mem_singleton.mpr rfl), trivial⟩
  · exact ⟨rfl, rfl, .refl s, ⟨[], by simp⟩, id⟩

theorem stream_checkOpenLine (s : InvocationStreams) (invocation : Nat) (stream other : OutputStream) :
    (s.checkOpenLine invocation stream).stream other = s.stream other := by
  unfold checkOpenLine violate
  split <;> cases other <;> rfl

theorem stream_checkFrame (s : InvocationStreams) (eventId invocation : Nat) (stream : OutputStream)
    (offset sequence : Nat) (other : OutputStream) :
    (s.checkFrame eventId invocation stream offset sequence).stream other = s.stream other := by
  cases other <;> rfl

theorem violations_violateIf (s : InvocationStreams) (c : Bool) (v : Violation) :
    (s.violateIf c v).violations = s.violations ++ if c then [v] else [] := by
  unfold violateIf
  cases c <;> simp

/-- The checks of a frame add violations exactly when the frame is not admitted. -/
theorem violations_checkFrame (s : InvocationStreams) (eventId invocation : Nat) (stream : OutputStream)
    (offset sequence : Nat) :
    ∃ extra, (s.checkFrame eventId invocation stream offset sequence).violations = s.violations ++ extra ∧
      (s.Admits stream offset sequence ↔ extra = []) ∧ ∀ v ∈ extra, ¬ v.OverLong := by
  refine ⟨(if checkedAdd s.sequence 1 != some sequence then
      [.sequenceJump invocation s.sequence sequence eventId] else []) ++
    (if offset != (s.stream stream).offset then [.offsetGap invocation stream offset (s.stream stream).offset]
      else []), ?_, ?_, ?_⟩
  · unfold checkFrame
    dsimp only
    rw [violations_violateIf, ← List.append_assoc]
    cases stream <;> exact congrArg (· ++ _) (violations_violateIf s _ _)
  · unfold Admits
    by_cases h1 : checkedAdd s.sequence 1 = some sequence
    · by_cases h2 : offset = (s.stream stream).offset <;> simp [h1, h2]
    · simp [h1]
  · intro v hv
    rcases List.mem_append.mp hv with hv | hv
    · split at hv
      · rw [List.mem_singleton.mp hv]
        exact id
      · simp at hv
    · split at hv
      · rw [List.mem_singleton.mp hv]
        exact id
      · simp at hv

/-- What a frame does to the streams of its invocation. -/
structure Pushed (s s' : InvocationStreams) (stream : OutputStream) (eventId offset sequence : Nat)
    (data : Bytes) : Prop where
  sequence_eq : s'.sequence = sequence
  frames_eq : s'.frames = s.frames + 1
  input : SameInput s s'
  streams : ∀ other, s'.stream other =
    if other = stream then (s.stream stream).push eventId offset data else s.stream other
  violations : ∃ extra, s'.violations = s.violations ++ extra ∧
    (s.Admits stream offset sequence → ∀ v ∈ extra, v.OverLong) ∧
    (¬ s.Admits stream offset sequence → ∃ v ∈ extra, ¬ v.OverLong)
  bound : s.BoundRecorded → s'.BoundRecorded

/-- **What one output frame does.** -/
theorem push_spec (s : InvocationStreams) (eventId invocation : Nat) (stream : OutputStream)
    (offset sequence : Nat) (data : Bytes) :
    Pushed s (s.push eventId invocation stream offset sequence data) stream eventId offset sequence data := by
  set s1 := s.checkFrame eventId invocation stream offset sequence with hs1
  have hstream1 : ∀ other, s1.stream other = s.stream other := stream_checkFrame s _ _ _ _ _
  set s2 := s1.setStream stream ((s1.stream stream).extend eventId offset data) with hs2
  set s3 := s2.drainLines invocation eventId stream (((s1.stream stream).pending ++ data).splitOn newline) with hs3
  have hcont : Continues s1 (s3.checkOpenLine invocation stream) :=
    (Continues.setStream s1 stream _).trans
      ((continues_drainLines invocation eventId stream _ s2).trans (continues_checkOpenLine s3 invocation stream))
  show Pushed s (s3.checkOpenLine invocation stream) stream eventId offset sequence data
  obtain ⟨e1, he1, hadmits, hnot⟩ := violations_checkFrame s eventId invocation stream offset sequence
  obtain ⟨e2, he2, hlong⟩ := hcont.violations
  have hinput : SameInput s s1 := ⟨rfl, rfl, rfl, rfl, rfl⟩
  refine ⟨hcont.sequence, hcont.frames, hinput.trans hcont.input, fun other => ?_,
    ⟨e1 ++ e2, by rw [he2, hs1, he1, List.append_assoc], fun ha => ?_, fun hna => ?_⟩, fun hb => hcont.bound ?_⟩
  · rw [stream_checkOpenLine, hs3, stream_drainLines, hs2, stream_setStream, hstream1]
    split
    · rfl
    · rename_i hne
      rw [stream_setStream_ne hne, hstream1]
  · rw [hadmits.mp ha, List.nil_append]
    exact hlong
  · have hne : e1 ≠ [] := fun h => hna (hadmits.mpr h)
    obtain ⟨v, hv⟩ := List.exists_mem_of_ne_nil e1 hne
    exact ⟨v, List.mem_append_left _ hv, hnot v hv⟩
  · intro hflags
    obtain ⟨v, hv, hvl⟩ := hb hflags
    exact ⟨v, by rw [hs1, he1]; exact List.mem_append_left _ hv, hvl⟩

/-- An input is admitted exactly when no check of the source fails. -/
theorem admitsInput_iff (s : InvocationStreams) (invocation eventId commandId offset bytes : Nat) (eof : Bool) :
    s.AdmitsInput commandId offset bytes eof ↔
      s.inputViolations invocation eventId commandId offset bytes eof = [] := by
  unfold inputViolations
  simp only [List.append_eq_nil_iff, ite_eq_right_iff, List.cons_ne_nil, imp_false, not_and, not_not]
  constructor
  · rintro ⟨h1, h2, h3, h4⟩
    refine ⟨⟨⟨⟨⟨h1, h2.mp⟩, fun he hb => he (h2.mpr hb)⟩, fun _ => by simp [h3]⟩, fun _ => by simp [h3]⟩, ?_⟩
    cases hl : s.inputCommands.getLast? with
    | none => rfl
    | some previous =>
      have := h4 previous hl
      simp [show ¬ commandId ≤ previous by omega]
  · rintro ⟨⟨⟨⟨⟨h1, h2⟩, h3⟩, h4⟩, h5⟩, h6⟩
    refine ⟨h1, ⟨h2, fun hb => ?_⟩, ?_, fun previous hl => ?_⟩
    · by_contra he
      exact h3 he hb
    · cases eof
      · simpa using h5
      · simpa using h4
    · rw [hl] at h6
      by_contra hle
      simp [show commandId ≤ previous by omega] at h6

theorem not_overLong_inputViolations {s : InvocationStreams} {invocation eventId commandId offset bytes : Nat}
    {eof : Bool} : ∀ v ∈ s.inputViolations invocation eventId commandId offset bytes eof, ¬ v.OverLong := by
  intro v hv
  unfold inputViolations at hv
  simp only [List.mem_append, List.mem_ite_nil_right, List.mem_singleton] at hv
  rcases hv with ((((⟨-, rfl⟩ | ⟨-, rfl⟩) | ⟨-, rfl⟩) | ⟨-, rfl⟩) | ⟨-, rfl⟩) | hv
  · exact id
  · exact id
  · exact id
  · exact id
  · exact id
  · split at hv
    · rw [List.mem_ite_nil_right, List.mem_singleton] at hv
      rw [hv.2]
      exact id
    · simp at hv

/-- What an accepted input does to the streams of its invocation. -/
structure PushedInput (s s' : InvocationStreams) (eventId commandId offset bytes : Nat) (eof : Bool) : Prop where
  sequence : s'.sequence = s.sequence
  frames : s'.frames = s.frames
  streams : ∀ other, s'.stream other = s.stream other
  inputOffset : s'.inputOffset = offset
  inputCommands : s'.inputCommands = s.inputCommands ++ [commandId]
  dataInputEvents : s'.dataInputEvents = s.dataInputEvents ++ if eof then [] else [eventId]
  eofInputs : s'.eofInputs = s.eofInputs + if eof then 1 else 0
  inputEof : s'.inputEof = (s.inputEof || eof)
  violations : ∃ extra, s'.violations = s.violations ++ extra ∧
    (s.AdmitsInput commandId offset bytes eof → extra = []) ∧
    (¬ s.AdmitsInput commandId offset bytes eof → ∃ v ∈ extra, ¬ v.OverLong)
  bound : s.BoundRecorded → s'.BoundRecorded

/-- **What one accepted input does.** -/
theorem pushInput_spec (s : InvocationStreams) (invocation eventId commandId offset bytes : Nat) (eof : Bool) :
    PushedInput s (s.pushInput invocation eventId commandId offset bytes eof) eventId commandId offset
        bytes eof := by
  set extra := s.inputViolations invocation eventId commandId offset bytes eof with hextra
  have hviol : (s.pushInput invocation eventId commandId offset bytes eof).violations = s.violations ++ extra := by
    cases eof <;> rfl
  have hadmits := admitsInput_iff s invocation eventId commandId offset bytes eof
  rw [← hextra] at hadmits
  refine ⟨?_, ?_, ?_, ?_, ?_, ?_, ?_, ?_, ⟨extra, hviol, hadmits.mp, fun hna => ?_⟩, fun hb hflags => ?_⟩
  · cases eof <;> rfl
  · cases eof <;> rfl
  · intro other
    cases eof <;> cases other <;> rfl
  · cases eof <;> rfl
  · cases eof <;> rfl
  · cases eof
    · rfl
    · exact (List.append_nil _).symm
  · cases eof <;> rfl
  · cases eof
    · exact (Bool.or_false _).symm
    · exact (Bool.or_true _).symm
  · obtain ⟨v, hv⟩ := List.exists_mem_of_ne_nil extra (fun h => hna (hadmits.mpr h))
    exact ⟨v, hv, not_overLong_inputViolations v hv⟩
  · have hold : s.stdoutOverBound = true ∨ s.stdoutOverBoundSeen = true := by
      cases eof <;> exact hflags
    obtain ⟨v, hv, hl⟩ := hb hold
    exact ⟨v, by rw [hviol]; exact List.mem_append_left _ hv, hl⟩

end InvocationStreams

/-! ## Lines -/

namespace LineStream

/-- Raw lines, each with its newline. -/
def joinLines (raws : List Bytes) : Bytes := raws.flatMap (· ++ [newline])

theorem bytes_drain (eventId : Nat) : ∀ (parts : List Bytes) (l : LineStream),
    (l.drain eventId parts).bytes = l.bytes
  | [], _ => rfl
  | [_], _ => rfl
  | line :: second :: next, l => by
    rw [drain, bytes_drain eventId (second :: next)]
    rfl

theorem offset_drain (eventId : Nat) : ∀ (parts : List Bytes) (l : LineStream),
    (l.drain eventId parts).offset = l.offset
  | [], _ => rfl
  | [_], _ => rfl
  | line :: second :: next, l => by
    rw [drain, offset_drain eventId (second :: next)]
    rfl

/-- The drain loop completes every part but the last, which stays pending. -/
theorem drain_spec (eventId : Nat) : ∀ (parts : List Bytes) (l : LineStream), parts ≠ [] →
    ∃ added : List CompletedLine, (l.drain eventId parts).lines = l.lines ++ added ∧
      (∀ line ∈ added, line.eventId = eventId) ∧
      ∃ raws rest, parts = raws ++ [rest] ∧ added.map CompletedLine.text = raws.map Utf8.lossy ∧
        (l.drain eventId parts).pending = rest
  | [], _, h => absurd rfl h
  | [rest], l, _ => ⟨[], by simp [drain], by simp, [], rest, rfl, rfl, rfl⟩
  | line :: second :: next, l, _ => by
    obtain ⟨added, hlines, hids, raws, rest, hparts, htexts, hpending⟩ :=
      drain_spec eventId (second :: next) (l.complete eventId line (second :: next != [[]])) (by simp)
    refine ⟨⟨Utf8.lossy line, eventId, l.lineEvent.getD eventId⟩ :: added, ?_, ?_, line :: raws, rest, ?_, ?_, ?_⟩
    · rw [drain, hlines]
      simp [complete]
    · intro x hx
      rcases List.mem_cons.mp hx with rfl | hx
      · rfl
      · exact hids x hx
    · rw [hparts]
      rfl
    · simp [htexts]
    · rw [drain]
      exact hpending

/-- Splitting at the newlines loses nothing. -/
theorem joinLines_splitOn {bytes : Bytes} {raws : List Bytes} {rest : Bytes}
    (h : bytes.splitOn newline = raws ++ [rest]) : bytes = joinLines raws ++ rest := by
  have hjoin : ∀ raws : List Bytes, [newline].intercalate (raws ++ [rest]) = joinLines raws ++ rest := by
    intro raws
    induction raws with
    | nil => simp [joinLines]
    | cons raw raws ih =>
      rw [List.cons_append, List.intercalate_cons_of_ne_nil (by simp), ih]
      simp [joinLines]
  rw [← hjoin raws, ← h, List.intercalate_splitOn]

/-- The completed lines and the pending bytes are the stream. -/
def Splits (l : LineStream) : Prop :=
  ∃ raws, l.lines.map CompletedLine.text = raws.map Utf8.lossy ∧ l.bytes = joinLines raws ++ l.pending

theorem splits_default : Splits {} := ⟨[], rfl, rfl⟩

theorem bytes_push (l : LineStream) (eventId offset : Nat) (data : Bytes) :
    (l.push eventId offset data).bytes = l.bytes ++ data := by
  rw [push, bytes_drain]
  rfl

theorem offset_push (l : LineStream) (eventId offset : Nat) (data : Bytes) :
    (l.push eventId offset data).offset = saturatingAdd offset data.length := by
  rw [push, offset_drain]
  rfl

/-- A frame adds lines that it completed. -/
theorem lines_push (l : LineStream) (eventId offset : Nat) (data : Bytes) :
    ∃ added : List CompletedLine, (l.push eventId offset data).lines = l.lines ++ added ∧
      ∀ line ∈ added, line.eventId = eventId := by
  obtain ⟨added, hlines, hids, -⟩ := drain_spec eventId ((l.pending ++ data).splitOn newline)
    (l.extend eventId offset data) (List.splitOn_ne_nil _ _)
  exact ⟨added, hlines, hids⟩

theorem splits_push {l : LineStream} (h : l.Splits) (eventId offset : Nat) (data : Bytes) :
    (l.push eventId offset data).Splits := by
  obtain ⟨raws, htexts, hbytes⟩ := h
  obtain ⟨added, hlines, -, raws', rest, hparts, htexts', hpending⟩ :=
    drain_spec eventId ((l.pending ++ data).splitOn newline) (l.extend eventId offset data)
      (List.splitOn_ne_nil _ _)
  refine ⟨raws ++ raws', ?_, ?_⟩
  · rw [push, hlines, List.map_append, List.map_append, htexts']
    exact congrArg (· ++ _) htexts
  · rw [bytes_push, push, hpending, hbytes, List.append_assoc, joinLines_splitOn hparts]
    simp [joinLines]

/-- Lines whose texts are ASCII are the bytes of the stream. -/
theorem Splits.bytes_eq {l : LineStream} (h : l.Splits) {texts : List Text}
    (htexts : l.lines.map CompletedLine.text = texts) (hascii : ∀ t ∈ texts, IsAscii t)
    (hpending : l.pending = []) : l.bytes = joinLines texts := by
  obtain ⟨raws, hraws, hbytes⟩ := h
  have heq : raws = texts := by
    have hall : ∀ raw ∈ raws, raw = Utf8.lossy raw := by
      intro raw hraw
      apply Utf8.eq_of_lossy_ascii
      exact hascii _ (by rw [← htexts, hraws]; exact List.mem_map_of_mem hraw)
    rw [← htexts, hraws]
    conv_lhs => rw [← List.map_id raws]
    exact List.map_congr_left hall
  rw [hbytes, hpending, List.append_nil, heq]

end LineStream

end SimFerret.Checker
