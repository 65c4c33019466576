import Mathlib.Order.Monotone.Defs
import SimFerret.Driver.Plan

/-!
# SimFerret.Driver.Schedule — a conforming guest and the trace of its answers

The guest answers the steps of the plan in order; `ConformingGuest` holds what it is free to choose.  What it
answers to a step depends on the steps it answered before, so every list of records is a `recorded` list.

* `RunContext.events`: the frames of the guest.
* `push_joined`: what a frame that carries whole lines does to its stream.
* `Follows`: the trace of the answers given so far; `follows_step`, `follows_events`: it is kept by every step.
-/

namespace SimFerret.Driver

open Checker Workload

/-! ## Whole lines -/

/-- A text that is one response line: ASCII, without a newline, within the bound. -/
structure IsLine (text : Text) : Prop where
  ascii : IsAscii text
  unbroken : newline ∉ text
  bounded : text.length ≤ maxResponseLineBytes

theorem splitOn_joinLines : ∀ {texts : List Text}, (∀ text ∈ texts, newline ∉ text) →
    (LineStream.joinLines texts).splitOn newline = texts ++ [[]]
  | [], _ => List.splitOn_nil _
  | text :: texts, h => by
    have hjoin : LineStream.joinLines (text :: texts) = text ++ newline :: LineStream.joinLines texts := by
      simp [LineStream.joinLines]
    rw [hjoin, List.splitOn_append_cons_self, List.splitOn_eq_singleton (h text List.mem_cons_self),
      splitOn_joinLines fun other hother => h other (List.mem_cons_of_mem _ hother)]
    rfl

/-- The drain loop over whole lines, the first of which was begun by the same frame; by induction on the lines. -/
theorem drainLines_texts (invocation eventId : Nat) : ∀ (texts : List Text) (text : Text) (s : InvocationStreams),
    (∀ line ∈ text :: texts, IsLine line) → s.stdout.lineEvent = some eventId →
    s.drainLines invocation eventId .stdout (text :: texts ++ [[]]) =
      { s with
        stdout := ⟨s.stdout.bytes, [], s.stdout.lines ++ (text :: texts).map (⟨·, eventId, eventId⟩),
          s.stdout.offset, none⟩
        stdoutOverBound := false }
  | [], text, s, h, hevent => by
    have htext := h text List.mem_cons_self
    have hlossy : Utf8.lossy text = text := Utf8.lossy_of_ascii htext.ascii
    have hlong : ¬ (text.length > maxResponseLineBytes) := Nat.not_lt.mpr htext.bounded
    simp [InvocationStreams.drainLines, InvocationStreams.completeLine, InvocationStreams.violateIf,
      InvocationStreams.setStream, InvocationStreams.stream, LineStream.complete, hlossy, hlong, hevent]
  | second :: texts, text, s, h, hevent => by
    have htext := h text List.mem_cons_self
    have hlossy : Utf8.lossy text = text := Utf8.lossy_of_ascii htext.ascii
    have hlong : ¬ (text.length > maxResponseLineBytes) := Nat.not_lt.mpr htext.bounded
    have hmore : (second :: (texts ++ [[]]) != [[]]) = true := by simp
    rw [List.cons_append, List.cons_append, InvocationStreams.drainLines, hmore]
    refine (drainLines_texts invocation eventId texts second _ (fun line hline =>
      h line (List.mem_cons_of_mem _ hline)) ?_).trans ?_
    · simp [InvocationStreams.completeLine, InvocationStreams.violateIf, InvocationStreams.setStream,
        InvocationStreams.stream, LineStream.complete, hlossy, hlong]
    · simp [InvocationStreams.completeLine, InvocationStreams.violateIf, InvocationStreams.setStream,
        InvocationStreams.stream, LineStream.complete, hlossy, hlong, hevent]

/-- **A frame that carries whole lines** to a stream at a line end. -/
theorem push_joined {s : InvocationStreams} {text : Text} {texts : List Text}
    (htexts : ∀ line ∈ text :: texts, IsLine line) (hpending : s.stdout.pending = [])
    (hoffset : s.stdout.offset + (LineStream.joinLines (text :: texts)).length < u64Size)
    (hsequence : s.sequence + 1 < u64Size) (eventId invocation : Nat) :
    s.push eventId invocation .stdout s.stdout.offset (s.sequence + 1) (LineStream.joinLines (text :: texts)) =
      { s with
        stdout := ⟨s.stdout.bytes ++ LineStream.joinLines (text :: texts), [],
          s.stdout.lines ++ (text :: texts).map (⟨·, eventId, eventId⟩),
          s.stdout.offset + (LineStream.joinLines (text :: texts)).length, none⟩
        stdoutOverBound := false
        sequence := s.sequence + 1
        frames := s.frames + 1 } := by
  have hseq : checkedAdd s.sequence 1 = some (s.sequence + 1) := checkedAdd_eq_some.mpr ⟨rfl, hsequence⟩
  have hsplit := splitOn_joinLines fun line hline => (htexts line hline).unbroken
  have hdata : LineStream.joinLines (text :: texts) ≠ [] := by simp [LineStream.joinLines]
  have hdrain := fun s' : InvocationStreams => drainLines_texts invocation eventId texts text s' htexts
  simp only [InvocationStreams.push, InvocationStreams.checkFrame, InvocationStreams.violateIf, hseq,
    InvocationStreams.stream, hpending, List.nil_append, hsplit, InvocationStreams.setStream, LineStream.extend]
  rw [hdrain _ (by simp [hdata])]
  simp [InvocationStreams.checkOpenLine, saturatingAdd_of_lt hoffset]

theorem joinLines_singleton (line : Bytes) : LineStream.joinLines [line] = line ++ [newline] := by
  simp [LineStream.joinLines]

/-! ## The guest -/

/-- The line a step writes to an invocation and the line it waits for. -/
def WorkloadStep.dialogue (choices : WorkloadChoicePlan) : WorkloadStep → Option (Nat × Text × Text)
  | .echo k =>
    some (k, utf8 "echo " ++ echoToken choices.seed k ++ utf8 "\n", utf8 "echo value=" ++ echoToken choices.seed k)
  | .state k => some (k, "state\n", freshStateLine)
  | .spawnDescendant k => some (k, "spawn-descendant\n", escapedDescendantLine)
  | .request k index =>
    (choices.requests[index]?).map fun request => (k, fetchLine request, expectedNetworkLine request
      (requestPhase index choices.outageActivationRequestIndex choices.restorationRequestIndex))
  | .start _ | .terminate _ | .activate | .restore | .stdinEof _ => none

/-- The driver exchanges these lines. -/
theorem runStep_dialogue {scenario : WorkloadScenario} {choices : WorkloadChoicePlan} {launch : LaunchIdentity}
    {step : WorkloadStep} {k : Nat} {input response : Text}
    (h : step.dialogue choices = some (k, input, response)) :
    runStep scenario choices launch step = exchange k input response := by
  cases step with
  | request j index =>
    obtain ⟨request, hrequest, heq⟩ := Option.map_eq_some_iff.mp h
    cases heq
    simp only [runStep, hrequest]
  | echo j => cases h; rfl
  | state j => cases h; rfl
  | spawnDescendant j => cases h; rfl
  | start j => cases h
  | terminate j => cases h
  | activate => cases h
  | restore => cases h
  | stdinEof j => cases h

/-- What each step records after the steps before it. -/
def recorded {α : Type} (f : List WorkloadStep → WorkloadStep → List α) : List WorkloadStep →
    List WorkloadStep → List α
  | _, [] => []
  | before, step :: rest => f before step ++ recorded f (before ++ [step]) rest

/-- The lines of an invocation that a step answers with. -/
def responses (choices : WorkloadChoicePlan) (k : Nat) (step : WorkloadStep) : List Text :=
  match step with
  | .start j => if j = k then [readyLine] else []
  | step => match step.dialogue choices with
    | some (j, _, response) => if j = k then [response] else []
    | none => []

/-- The lines that a step writes to an invocation. -/
def inputs (choices : WorkloadChoicePlan) (k : Nat) (step : WorkloadStep) : List Text :=
  match step.dialogue choices with
  | some (j, input, _) => if j = k then [input] else []
  | none => []

theorem responses_of_dialogue {choices : WorkloadChoicePlan} {step : WorkloadStep} {k : Nat}
    {input response : Text} (h : step.dialogue choices = some (k, input, response)) (j : Nat) :
    responses choices j step = if k = j then [response] else [] := by
  cases step with
  | start i => cases h
  | _ => simp only [responses, h]

/-- The bytes an invocation emitted. -/
def emitted (choices : WorkloadChoicePlan) (done : List WorkloadStep) (k : Nat) : Bytes :=
  LineStream.joinLines (done.flatMap (responses choices k))

/-- The number of bytes an invocation accepted. -/
def accepted (choices : WorkloadChoicePlan) (done : List WorkloadStep) (k : Nat) : Nat :=
  ((done.flatMap (inputs choices k)).map List.length).sum

/-- What a conforming guest is free to choose. -/
structure ConformingGuest where
  firstEvent : Nat
  /-- The identifier of the configuration command and of every step's command behind it. -/
  command : Nat → Nat
  increasing : StrictMono command
  diagnostics : Nat → DiagnosticFields
  /-- The processes reaped when the second invocation ended. -/
  reaped : Nat
  reaped_ne : reaped ≠ 0

/-- One output frame that carries one line. -/
def outputLine (choices : WorkloadChoicePlan) (done : List WorkloadStep) (k : Nat) (text : Text) : Event :=
  .workloadOutput k .stdout (emitted choices done k).length ((done.flatMap (responses choices k)).length + 1)
    (encodeBytes (text ++ [newline]))

/-- The exit of an invocation with the totals of its output. -/
def exitEvent (sha256 : Sha256) (choices : WorkloadChoicePlan) (done : List WorkloadStep) (k : Nat)
    (exit : ProcessExit) : Event :=
  .workloadExited k exit (emitted choices done k).length (sha256Hex sha256 (emitted choices done k)) 0
    (sha256Hex sha256 []) (done.flatMap (responses choices k)).length

/-- The run a guest takes part in; its choices are those of its scenario and its seed. -/
structure RunContext where
  sha256 : Sha256
  scenario : WorkloadScenario
  seed : UInt64
  choices : WorkloadChoicePlan
  seeded : choices = scenario.choices seed
  launch : LaunchIdentity
  guest : ConformingGuest

namespace RunContext

variable (run : RunContext)

/-- The events that answer a step. -/
def answer (done : List WorkloadStep) (step : WorkloadStep) : List Event :=
  match step with
  | .start k => [.workloadStarted k run.launch, outputLine run.choices done k readyLine]
  | .activate => [.outageActivated (peerCidr run.scenario) (utf8 "prohibit " ++ peerCidr run.scenario)]
  | .restore => [.networkRestored (peerCidr run.scenario)]
  | .terminate k => [.terminationRequested k terminationSignal,
      exitEvent run.sha256 run.choices done k (.signaled terminationSignal), .cleanupComplete k 2]
  | .stdinEof k => [.inputAccepted k (accepted run.choices done k) 0 true,
      exitEvent run.sha256 run.choices done k (.exited 0), .cleanupComplete k run.guest.reaped]
  | step => match step.dialogue run.choices with
    | some (k, input, response) =>
      [.inputAccepted k (accepted run.choices done k + input.length) input.length false,
        outputLine run.choices done k response]
    | none => []

/-- The answers to the steps with the command that each carries, behind the configuration of the network. -/
def answers (steps : List WorkloadStep) : List (Nat × Event) :=
  (run.guest.command 0, .networkConfigured networkInterface guestCidr run.scenario.fixturePeer) ::
    recorded (fun done step => (run.answer done step).map (run.guest.command (done.length + 1), ·)) [] steps

/-- The frame at an index of the event stream. -/
def frame (entry : (Nat × Event) × Nat) : EventFrame :=
  ⟨protocolVersion, run.guest.firstEvent + entry.2, entry.1.1, entry.1.2, run.guest.diagnostics entry.2⟩

/-- **The event list** of a conforming guest. -/
def events (steps : List WorkloadStep) : List EventFrame := (run.answers steps).zipIdx.map run.frame

/-! ## What the trace records -/

/-- The identifier of the first event that answers the next step. -/
def eventAt (done : List WorkloadStep) : Nat := run.guest.firstEvent + (run.answers done).length

def startRecords (done : List WorkloadStep) : WorkloadStep → List StartRecord
  | .start k => [⟨k, run.launch, run.eventAt done⟩]
  | _ => []

def terminationRecords (done : List WorkloadStep) : WorkloadStep → List TerminationRecord
  | .terminate k => [⟨k, terminationSignal, run.eventAt done⟩]
  | _ => []

def exitRecord (done : List WorkloadStep) (k : Nat) (exit : ProcessExit) : ExitRecord :=
  ⟨k, exit, (emitted run.choices done k).length, sha256Hex run.sha256 (emitted run.choices done k), 0,
    sha256Hex run.sha256 [], (done.flatMap (responses run.choices k)).length, run.eventAt done + 1⟩

def exitRecords (done : List WorkloadStep) : WorkloadStep → List ExitRecord
  | .terminate k => [run.exitRecord done k (.signaled terminationSignal)]
  | .stdinEof k => [run.exitRecord done k (.exited 0)]
  | _ => []

def cleanupRecords (done : List WorkloadStep) : WorkloadStep → List CleanupRecord
  | .terminate k => [⟨k, 2, run.eventAt done + 2⟩]
  | .stdinEof k => [⟨k, run.guest.reaped, run.eventAt done + 2⟩]
  | _ => []

def activationRecords (done : List WorkloadStep) : WorkloadStep → List (Text × Nat)
  | .activate => [(peerCidr run.scenario, run.eventAt done)]
  | _ => []

def restorationRecords (done : List WorkloadStep) : WorkloadStep → List (Text × Nat)
  | .restore => [(peerCidr run.scenario, run.eventAt done)]
  | _ => []

/-- Every response line is the second event of its step. -/
def lineRecords (k : Nat) (done : List WorkloadStep) (step : WorkloadStep) : List CompletedLine :=
  (responses run.choices k step).map fun text => ⟨text, run.eventAt done + 1, run.eventAt done + 1⟩

def dataRecords (k : Nat) (done : List WorkloadStep) (step : WorkloadStep) : List Nat :=
  (inputs run.choices k step).map fun _ => run.eventAt done

def commandRecords (k : Nat) (done : List WorkloadStep) (step : WorkloadStep) : List Nat :=
  if step = .stdinEof k then [run.guest.command (done.length + 1)]
  else (inputs run.choices k step).map fun _ => run.guest.command (done.length + 1)

/-- The streams of an invocation after a number of steps. -/
def streamsOf (done : List WorkloadStep) (k : Nat) : InvocationStreams where
  stdout := ⟨emitted run.choices done k, [], recorded (run.lineRecords k) [] done,
    (emitted run.choices done k).length, none⟩
  inputOffset := accepted run.choices done k
  inputCommands := recorded (run.commandRecords k) [] done
  dataInputEvents := recorded (run.dataRecords k) [] done
  eofInputs := done.count (.stdinEof k)
  inputEof := decide (.stdinEof k ∈ done)
  sequence := (done.flatMap (responses run.choices k)).length
  frames := (done.flatMap (responses run.choices k)).length

/-- **The trace of the answers** to a number of steps. -/
structure Follows (done : List WorkloadStep) (t : WorkloadTrace) : Prop where
  configured : t.configured = some ⟨run.scenario.fixturePeer, run.guest.firstEvent⟩
  violations : t.violations = []
  launchFailures : t.launchFailures = []
  starts : t.starts = recorded run.startRecords [] done
  terminations : t.terminations = recorded run.terminationRecords [] done
  exits : t.exits = recorded run.exitRecords [] done
  cleanups : t.cleanups = recorded run.cleanupRecords [] done
  activations : t.activations = recorded run.activationRecords [] done
  restorations : t.restorations = recorded run.restorationRecords [] done
  streams : ∀ k, t.streams k = run.streamsOf done k

/-! ## Records -/

section Recorded

variable {α : Type} {f : List WorkloadStep → WorkloadStep → List α}

theorem recorded_append : ∀ (before steps rest : List WorkloadStep),
    recorded f before (steps ++ rest) = recorded f before steps ++ recorded f (before ++ steps) rest
  | before, [], rest => by rw [List.append_nil]; rfl
  | before, step :: steps, rest => by
    rw [List.cons_append, recorded, recorded_append, recorded, List.append_assoc, List.append_assoc,
      List.singleton_append]

theorem recorded_snoc (done : List WorkloadStep) (step : WorkloadStep) :
    recorded f [] (done ++ [step]) = recorded f [] done ++ f done step := by
  rw [recorded_append, recorded, recorded, List.nil_append, List.append_nil]

theorem mem_recorded {a : α} : ∀ {before steps : List WorkloadStep}, a ∈ recorded f before steps ↔
    ∃ earlier step later, steps = earlier ++ step :: later ∧ a ∈ f (before ++ earlier) step
  | before, [] => by simp [recorded]
  | before, step :: steps => by
    rw [recorded, List.mem_append, mem_recorded]
    constructor
    · rintro (h | ⟨earlier, s, later, rfl, h⟩)
      · exact ⟨[], step, steps, rfl, by rwa [List.append_nil]⟩
      · exact ⟨step :: earlier, s, later, rfl, by rwa [List.append_assoc] at h⟩
    · rintro ⟨earlier, s, later, heq, h⟩
      cases earlier with
      | nil =>
        cases heq
        exact Or.inl (by rwa [List.append_nil] at h)
      | cons first earlier =>
        cases heq
        exact Or.inr ⟨earlier, s, later, rfl, by rwa [List.append_assoc]⟩

end Recorded

/-! ## One step -/

/-- An invocation was started and has not been ended. -/
structure Running (done : List WorkloadStep) (k : Nat) : Prop where
  started : .start k ∈ done
  terminated : .terminate k ∉ done
  closed : .stdinEof k ∉ done

/-- The step may follow the steps before it. -/
def Allowed (choices : WorkloadChoicePlan) (done : List WorkloadStep) (step : WorkloadStep) : Prop :=
  match step with
  | .start k => .start k ∉ done ∧ .terminate k ∉ done ∧ .stdinEof k ∉ done
  | .activate => .activate ∉ done
  | .restore => .restore ∉ done
  | .terminate k => Running done k
  | .stdinEof k => Running done k
  | step => ∃ k input response, step.dialogue choices = some (k, input, response) ∧ Running done k ∧ input ≠ [] ∧
      IsLine response

/-- The totals of the steps are counted without overflow. -/
def Countable (choices : WorkloadChoicePlan) (done : List WorkloadStep) : Prop :=
  ∀ k, accepted choices done k < u64Size ∧ (emitted choices done k).length < u64Size

variable {run} {done : List WorkloadStep} {t : WorkloadTrace}

theorem Follows.started (h : run.Follows done t) (k : Nat) : t.started k = true ↔ .start k ∈ done := by
  unfold WorkloadTrace.started
  rw [h.starts, List.any_eq_true]
  constructor
  · rintro ⟨record, hrecord, hk⟩
    obtain ⟨earlier, step, later, rfl, hstep⟩ := mem_recorded.mp hrecord
    rw [beq_iff_eq] at hk
    cases step <;> simp only [startRecords, List.mem_singleton, List.not_mem_nil] at hstep
    subst hstep
    rw [← hk]
    simp
  · intro hk
    obtain ⟨earlier, later, rfl⟩ := List.append_of_mem hk
    exact ⟨_, mem_recorded.mpr ⟨earlier, _, later, rfl, List.mem_singleton.mpr rfl⟩, by simp⟩

theorem Follows.terminated (h : run.Follows done t) {k : Nat} (hk : .terminate k ∉ done) :
    t.terminated k = false := by
  unfold WorkloadTrace.terminated
  rw [h.terminations, List.any_eq_false]
  intro record hrecord
  obtain ⟨earlier, step, later, rfl, hstep⟩ := mem_recorded.mp hrecord
  cases step <;> simp only [terminationRecords, List.mem_singleton, List.not_mem_nil] at hstep
  subst hstep
  rw [beq_iff_eq]
  rintro rfl
  exact hk (by simp)

theorem Follows.exited (h : run.Follows done t) {k : Nat} (hk : .terminate k ∉ done) (hk' : .stdinEof k ∉ done) :
    t.exited k = false := by
  unfold WorkloadTrace.exited
  rw [h.exits, List.any_eq_false]
  intro record hrecord
  obtain ⟨earlier, step, later, rfl, hstep⟩ := mem_recorded.mp hrecord
  cases step <;> simp only [exitRecords, List.mem_singleton, List.not_mem_nil] at hstep
  all_goals
    subst hstep
    rw [beq_iff_eq]
    rintro rfl
    simp [exitRecord] at hk hk'

theorem Follows.cleaned (h : run.Follows done t) {k : Nat} (hk : .terminate k ∉ done) (hk' : .stdinEof k ∉ done) :
    t.cleaned k = false := by
  unfold WorkloadTrace.cleaned
  rw [h.cleanups, List.any_eq_false]
  intro record hrecord
  obtain ⟨earlier, step, later, rfl, hstep⟩ := mem_recorded.mp hrecord
  cases step <;> simp only [cleanupRecords, List.mem_singleton, List.not_mem_nil] at hstep
  all_goals
    subst hstep
    rw [beq_iff_eq]
    rintro rfl
    simp at hk hk'

theorem emitted_snoc (choices : WorkloadChoicePlan) (done : List WorkloadStep) (step : WorkloadStep) (k : Nat) :
    emitted choices (done ++ [step]) k = emitted choices done k ++
        LineStream.joinLines (responses choices k step) := by
  simp only [emitted, LineStream.joinLines, List.flatMap_append, List.flatMap_singleton]

theorem accepted_snoc (choices : WorkloadChoicePlan) (done : List WorkloadStep) (step : WorkloadStep) (k : Nat) :
    accepted choices (done ++ [step]) k = accepted choices done k +
        ((inputs choices k step).map List.length).sum := by
  simp only [accepted, List.flatMap_append, List.flatMap_singleton, List.map_append, List.sum_append]

/-- A step that does not concern an invocation leaves its streams. -/
theorem streamsOf_other {step : WorkloadStep} {k : Nat} (hresponses : responses run.choices k step = [])
    (hinputs : inputs run.choices k step = []) (hne : step ≠ .stdinEof k) :
    run.streamsOf (done ++ [step]) k = run.streamsOf done k := by
  have hmem : (.stdinEof k ∈ done ++ [step]) = (.stdinEof k ∈ done) := by simp [hne.symm]
  have hcount : (done ++ [step]).count (.stdinEof k) = done.count (.stdinEof k) := by
    rw [List.count_append, List.count_singleton, if_neg (by simpa using hne), Nat.add_zero]
  simp only [streamsOf, emitted_snoc, accepted_snoc, recorded_snoc, lineRecords, dataRecords,
    commandRecords, hresponses, hinputs, hne, hmem, hcount, List.flatMap_append, List.flatMap_singleton,
    if_false, List.map_nil, List.append_nil, List.sum_nil, Nat.add_zero, LineStream.joinLines, List.flatMap_nil]

theorem commands_lt {k previous : Nat} (h : previous ∈ recorded (run.commandRecords k) [] done) :
    previous < run.guest.command (done.length + 1) := by
  obtain ⟨earlier, step, later, rfl, hstep⟩ := mem_recorded.mp h
  have heq : previous = run.guest.command (earlier.length + 1) := by
    unfold commandRecords at hstep
    split_ifs at hstep
    · exact List.mem_singleton.mp hstep
    · obtain ⟨_, -, rfl⟩ := List.mem_map.mp hstep
      rfl
  rw [heq]
  refine run.guest.increasing ?_
  rw [List.length_append, List.length_cons]
  omega

/-- Every line has at least its newline. -/
theorem length_responses_le (choices : WorkloadChoicePlan) (done : List WorkloadStep) (k : Nat) :
    (done.flatMap (responses choices k)).length ≤ (emitted choices done k).length := by
  unfold emitted LineStream.joinLines
  induction done.flatMap (responses choices k) with
  | nil => exact Nat.zero_le _
  | cons line lines ih =>
    rw [List.flatMap_cons, List.length_append, List.length_append, List.length_cons]
    simp only [List.length_cons, List.length_nil]
    omega

/-- The streams take one more line. -/
theorem push_streamsOf {k : Nat} {text : Text} {s : InvocationStreams} (htext : IsLine text)
    (hcount : (emitted run.choices done k ++ (text ++ [newline])).length < u64Size)
    (hstdout : s.stdout = (run.streamsOf done k).stdout)
    (hsequence : s.sequence = (done.flatMap (responses run.choices k)).length) (eventId : Nat) :
    s.push eventId k .stdout (emitted run.choices done k).length
        ((done.flatMap (responses run.choices k)).length + 1) (text ++ [newline]) =
      { s with
        stdout := ⟨emitted run.choices done k ++ (text ++ [newline]), [],
          recorded (run.lineRecords k) [] done ++ [⟨text, eventId, eventId⟩],
          (emitted run.choices done k).length + (text.length + 1), none⟩
        stdoutOverBound := false
        sequence := s.sequence + 1
        frames := s.frames + 1 } := by
  have hlines := length_responses_le run.choices done k
  rw [List.length_append, List.length_append, List.length_singleton] at hcount
  have hoffset : s.stdout.offset = (emitted run.choices done k).length := by rw [hstdout]; rfl
  have hpending : s.stdout.pending = [] := by rw [hstdout]; rfl
  have hpush := @push_joined s text [] (fun line hline => List.mem_singleton.mp hline ▸ htext) hpending
    (by rw [joinLines_singleton, List.length_append, List.length_singleton]; omega) (by omega) eventId k
  rw [joinLines_singleton, hoffset, hsequence] at hpush
  rw [hpush, hstdout, hsequence, List.length_append, List.length_singleton]
  rfl

theorem pushInput_admitted {s : InvocationStreams} {k eventId commandId offset bytes : Nat} {eof : Bool}
    (h : s.AdmitsInput commandId offset bytes eof) : s.pushInput k eventId commandId offset bytes eof =
      { s with
        inputCommands := s.inputCommands ++ [commandId]
        inputOffset := offset
        dataInputEvents := if eof then s.dataInputEvents else s.dataInputEvents ++ [eventId]
        eofInputs := if eof then s.eofInputs + 1 else s.eofInputs
        inputEof := s.inputEof || eof } := by
  have hnone := (InvocationStreams.admitsInput_iff s k eventId commandId offset bytes eof).mp h
  cases eof <;> simp [InvocationStreams.pushInput, hnone]

/-- One of the frames that answer a step. -/
def frameAt (run : RunContext) (done : List WorkloadStep) (event : Event) (index : Nat) : EventFrame :=
  run.frame ((run.guest.command (done.length + 1), event), (run.answers done).length + index)

/-- The frames that answer a step. -/
def stepFrames (run : RunContext) (done : List WorkloadStep) (step : WorkloadStep) : List EventFrame :=
  (run.answer done step).zipIdx.map fun entry => run.frameAt done entry.1 entry.2

theorem events_snoc (done : List WorkloadStep) (step : WorkloadStep) :
    run.events (done ++ [step]) = run.events done ++ run.stepFrames done step := by
  have hshift : ∀ (l : List Event) (n : Nat),
      (l.zipIdx n).map (run.frame ∘ Prod.map (run.guest.command (done.length + 1), ·) id) =
      l.zipIdx.map fun entry => run.frame ((run.guest.command (done.length + 1), entry.1), n + entry.2) := by
    intro l n
    rw [List.zipIdx_eq_map_add, List.map_map]
    exact List.map_congr_left fun entry _ => by simp
  unfold events stepFrames answers
  rw [recorded_snoc, ← List.cons_append, List.zipIdx_append, List.map_append, List.zipIdx_map, List.map_map,
    Nat.zero_add, hshift]
  rfl

/-- The trace takes an output frame of a running invocation. -/
theorem push_output {frame : EventFrame} {k offset sequence : Nat} {stream : OutputStream} {data : Bytes}
    (hevent : frame.event = .workloadOutput k stream offset sequence (encodeBytes data))
    (hstarted : t.started k = true) (hexited : t.exited k = false) (hbound : data.length ≤ maxOutputFrameBytes) :
    t.push frame = t.setStreams k ((t.streams k).push frame.eventId k stream offset sequence data) := by
  have hdecode : decodeBytes (encodeBytes data) maxOutputFrameBytes = .ok data :=
    decodeBytes_encodeBytes hbound (by decide)
  simp only [WorkloadTrace.push, hevent, hstarted, hexited, hdecode, Bool.not_true, Bool.false_eq_true, if_false]

/-- The trace takes an input of a running invocation. -/
theorem push_input {frame : EventFrame} {k offset bytes : Nat} {eof : Bool}
    (hevent : frame.event = .inputAccepted k offset bytes eof) (hstarted : t.started k = true)
    (hexited : t.exited k = false) (hterminated : t.terminated k = false) :
    t.push frame = t.setStreams k ((t.streams k).pushInput k frame.eventId frame.commandId offset bytes eof) := by
  simp only [WorkloadTrace.push, hevent, hstarted, hexited, hterminated, Bool.not_true,
    Bool.false_eq_true, if_false]

theorem frameAt_eventId (event : Event) (index : Nat) :
    (run.frameAt done event index).eventId = run.eventAt done + index :=
  (Nat.add_assoc _ _ _).symm

/-- The trace takes one more line of an invocation. -/
theorem push_outputLine {k : Nat} {text : Text} (hstarted : t.started k = true) (hexited : t.exited k = false)
    (htext : IsLine text) (hcount : (emitted run.choices done k ++ (text ++ [newline])).length < u64Size)
    (hstdout : (t.streams k).stdout = (run.streamsOf done k).stdout)
    (hsequence : (t.streams k).sequence = (done.flatMap (responses run.choices k)).length) (index : Nat) :
    t.push (run.frameAt done (outputLine run.choices done k text) index) =
      t.setStreams k
        { t.streams k with
          stdout := ⟨emitted run.choices done k ++ (text ++ [newline]), [],
            recorded (run.lineRecords k) [] done ++ [⟨text, run.eventAt done + index, run.eventAt done + index⟩],
            (emitted run.choices done k).length + (text.length + 1), none⟩
          stdoutOverBound := false
          sequence := (t.streams k).sequence + 1
          frames := (t.streams k).frames + 1 } := by
  have hbound : (text ++ [newline]).length ≤ maxOutputFrameBytes := by
    have hline := htext.bounded
    rw [List.length_append, List.length_singleton]
    unfold maxResponseLineBytes at hline
    unfold maxOutputFrameBytes
    omega
  rw [push_output rfl hstarted hexited hbound, frameAt_eventId, push_streamsOf htext hcount hstdout hsequence]

theorem Follows.snoc {step : WorkloadStep} {t' : WorkloadTrace} (h : run.Follows done t)
    (hconfigured : t'.configured = t.configured) (hviolations : t'.violations = t.violations)
    (hfailures : t'.launchFailures = t.launchFailures)
    (hstarts : t'.starts = t.starts ++ run.startRecords done step)
    (hterminations : t'.terminations = t.terminations ++ run.terminationRecords done step)
    (hexits : t'.exits = t.exits ++ run.exitRecords done step)
    (hcleanups : t'.cleanups = t.cleanups ++ run.cleanupRecords done step)
    (hactivations : t'.activations = t.activations ++ run.activationRecords done step)
    (hrestorations : t'.restorations = t.restorations ++ run.restorationRecords done step)
    (hstreams : ∀ k, t'.streams k = run.streamsOf (done ++ [step]) k) : run.Follows (done ++ [step]) t' where
  configured := hconfigured.trans h.configured
  violations := hviolations.trans h.violations
  launchFailures := hfailures.trans h.launchFailures
  starts := by rw [recorded_snoc, ← h.starts, hstarts]
  terminations := by rw [recorded_snoc, ← h.terminations, hterminations]
  exits := by rw [recorded_snoc, ← h.exits, hexits]
  cleanups := by rw [recorded_snoc, ← h.cleanups, hcleanups]
  activations := by rw [recorded_snoc, ← h.activations, hactivations]
  restorations := by rw [recorded_snoc, ← h.restorations, hrestorations]
  streams := hstreams

theorem push_one {step : WorkloadStep} {first : Event} (h : run.answer done step = [first]) :
    (run.stepFrames done step).foldl WorkloadTrace.push t = t.push (run.frameAt done first 0) := by
  rw [stepFrames, h]
  rfl

theorem push_two {step : WorkloadStep} {first second : Event} (h : run.answer done step = [first, second]) :
    (run.stepFrames done step).foldl WorkloadTrace.push t =
      (t.push (run.frameAt done first 0)).push (run.frameAt done second 1) := by
  rw [stepFrames, h]
  rfl

theorem push_three {step : WorkloadStep} {first second third : Event}
    (h : run.answer done step = [first, second, third]) : (run.stepFrames done step).foldl WorkloadTrace.push t =
      ((t.push (run.frameAt done first 0)).push (run.frameAt done second 1)).push (run.frameAt done third 2) := by
  rw [stepFrames, h]
  rfl

theorem follows_activate (h : run.Follows done t) (hallowed : .activate ∉ done) :
    run.Follows (done ++ [.activate]) ((run.stepFrames done .activate).foldl WorkloadTrace.push t) := by
  have hnone : t.activations = [] := by
    rw [h.activations, List.eq_nil_iff_forall_not_mem]
    intro record hrecord
    obtain ⟨earlier, step, later, rfl, hstep⟩ := mem_recorded.mp hrecord
    cases step <;> simp only [activationRecords, List.mem_singleton, List.not_mem_nil] at hstep
    exact hallowed (by simp)
  have hpush : (run.stepFrames done .activate).foldl WorkloadTrace.push t =
      { t with activations := t.activations ++ [(peerCidr run.scenario, run.eventAt done)] } := by
    rw [push_one rfl]
    simp [WorkloadTrace.push, frameAt, frame, hnone, eventAt]
  rw [hpush]
  have hnil := fun {α : Type} (l : List α) => (List.append_nil l).symm
  refine h.snoc rfl rfl rfl (hnil _) (hnil _) (hnil _) (hnil _) rfl (hnil _) fun k => ?_
  rw [streamsOf_other rfl rfl (by simp)]
  exact h.streams k

theorem follows_restore (h : run.Follows done t) (hallowed : .restore ∉ done) :
    run.Follows (done ++ [.restore]) ((run.stepFrames done .restore).foldl WorkloadTrace.push t) := by
  have hnone : t.restorations = [] := by
    rw [h.restorations, List.eq_nil_iff_forall_not_mem]
    intro record hrecord
    obtain ⟨earlier, step, later, rfl, hstep⟩ := mem_recorded.mp hrecord
    cases step <;> simp only [restorationRecords, List.mem_singleton, List.not_mem_nil] at hstep
    exact hallowed (by simp)
  have hpush : (run.stepFrames done .restore).foldl WorkloadTrace.push t =
      { t with restorations := t.restorations ++ [(peerCidr run.scenario, run.eventAt done)] } := by
    rw [push_one rfl]
    simp [WorkloadTrace.push, frameAt, frame, hnone, eventAt]
  rw [hpush]
  have hnil := fun {α : Type} (l : List α) => (List.append_nil l).symm
  refine h.snoc rfl rfl rfl (hnil _) (hnil _) (hnil _) (hnil _) (hnil _) rfl fun k => ?_
  rw [streamsOf_other rfl rfl (by simp)]
  exact h.streams k

/-- A step with one response line and no end of input. -/
theorem streamsOf_line {step : WorkloadStep} {k : Nat} {text : Text}
    (hresponses : responses run.choices k step = [text]) (hne : step ≠ .stdinEof k) :
    run.streamsOf (done ++ [step]) k =
      { run.streamsOf done k with
        stdout := ⟨emitted run.choices done k ++ (text ++ [newline]), [],
          recorded (run.lineRecords k) [] done ++ [⟨text, run.eventAt done + 1, run.eventAt done + 1⟩],
          (emitted run.choices done k).length + (text.length + 1), none⟩
        inputOffset := accepted run.choices done k + ((inputs run.choices k step).map List.length).sum
        inputCommands := recorded (run.commandRecords k) [] done ++
          (inputs run.choices k step).map fun _ => run.guest.command (done.length + 1)
        dataInputEvents := recorded (run.dataRecords k) [] done ++ (inputs run.choices k step).map fun _ =>
          run.eventAt done
        sequence := (run.streamsOf done k).sequence + 1
        frames := (run.streamsOf done k).frames + 1 } := by
  have hmem : (.stdinEof k ∈ done ++ [step]) = (.stdinEof k ∈ done) := by simp [hne.symm]
  have hcount : (done ++ [step]).count (.stdinEof k) = done.count (.stdinEof k) := by
    rw [List.count_append, List.count_singleton, if_neg (by simpa using hne), Nat.add_zero]
  simp [streamsOf, emitted_snoc, accepted_snoc, recorded_snoc, lineRecords, dataRecords,
    commandRecords, hresponses, hne, hmem, hcount, LineStream.joinLines]

/-- The answer to a start: the record and the first line. -/
theorem push_start {k : Nat} (h : run.Follows done t) (hallowed : Allowed run.choices done (.start k))
    (hcount : Countable run.choices (done ++ [.start k])) (hready : IsLine readyLine) :
    (run.stepFrames done (.start k)).foldl WorkloadTrace.push t =
      ({ t with starts := t.starts ++ [⟨k, run.launch, run.eventAt done⟩] } : WorkloadTrace).setStreams k
        (run.streamsOf (done ++ [.start k]) k) := by
  obtain ⟨hstart, hterm, heof⟩ := hallowed
  have hnot : t.started k = false := by
    rw [← Bool.not_eq_true, h.started]
    exact hstart
  set t1 : WorkloadTrace := { t with starts := t.starts ++ [⟨k, run.launch, run.eventAt done⟩] } with ht1
  have hpush : t.push (run.frameAt done (.workloadStarted k run.launch) 0) = t1 := by
    simp [WorkloadTrace.push, frameAt, frame, hnot, eventAt, ht1]
  have hstarted : t1.started k = true := by simp [WorkloadTrace.started, ht1]
  have hexited : t1.exited k = false := h.exited hterm heof
  have hstreams : t1.streams k = run.streamsOf done k := h.streams k
  have hresponses : responses run.choices k (.start k) = [readyLine] := if_pos rfl
  have hlength := (hcount k).2
  rw [emitted_snoc, hresponses, joinLines_singleton] at hlength
  have hline := push_outputLine hstarted hexited hready hlength (by rw [hstreams]) (by rw [hstreams]; rfl) 1
  rw [push_two rfl, hpush, hline, hstreams, streamsOf_line hresponses (by simp)]
  simp [inputs, WorkloadStep.dialogue, streamsOf]

theorem follows_start {k : Nat} (h : run.Follows done t) (hallowed : Allowed run.choices done (.start k))
    (hcount : Countable run.choices (done ++ [.start k])) (hready : IsLine readyLine) :
    run.Follows (done ++ [.start k]) ((run.stepFrames done (.start k)).foldl WorkloadTrace.push t) := by
  rw [push_start h hallowed hcount hready]
  have hnil := fun {α : Type} (l : List α) => (List.append_nil l).symm
  refine h.snoc rfl rfl rfl rfl (hnil _) (hnil _) (hnil _) (hnil _) (hnil _) fun j => ?_
  rw [WorkloadTrace.streams_setStreams]
  split_ifs with hj
  · rw [hj]
  · rw [@streamsOf_other run done (.start k) j (if_neg hj) rfl (by simp)]
    exact h.streams j

/-- A step with a dialogue records nothing but its line and its input. -/
structure Dialogue (run : RunContext) (done : List WorkloadStep) (step : WorkloadStep) (k : Nat)
    (input response : Text) : Prop where
  starts : run.startRecords done step = []
  terminations : run.terminationRecords done step = []
  exits : run.exitRecords done step = []
  cleanups : run.cleanupRecords done step = []
  activations : run.activationRecords done step = []
  restorations : run.restorationRecords done step = []
  not_eof : ∀ j, step ≠ .stdinEof j
  responses : ∀ j, responses run.choices j step = if k = j then [response] else []
  inputs : ∀ j, inputs run.choices j step = if k = j then [input] else []
  answer : run.answer done step =
    [.inputAccepted k (accepted run.choices done k + input.length) input.length false,
    outputLine run.choices done k response]

theorem dialogue_spec {step : WorkloadStep} {k : Nat} {input response : Text}
    (h : step.dialogue run.choices = some (k, input, response)) : Dialogue run done step k input response := by
  have hinputs : ∀ j, inputs run.choices j step = if k = j then [input] else [] := fun j => by
    unfold inputs
    rw [h]
  have hresponses := responses_of_dialogue h
  cases step with
  | start j => cases h
  | terminate j => cases h
  | activate => cases h
  | restore => cases h
  | stdinEof j => cases h
  | echo j =>
    exact ⟨rfl, rfl, rfl, rfl, rfl, rfl, by simp, hresponses, hinputs, by simp only [RunContext.answer, h]⟩
  | state j =>
    exact ⟨rfl, rfl, rfl, rfl, rfl, rfl, by simp, hresponses, hinputs, by simp only [RunContext.answer, h]⟩
  | spawnDescendant j =>
    exact ⟨rfl, rfl, rfl, rfl, rfl, rfl, by simp, hresponses, hinputs, by simp only [RunContext.answer, h]⟩
  | request j index =>
    exact ⟨rfl, rfl, rfl, rfl, rfl, rfl, by simp, hresponses, hinputs, by simp only [RunContext.answer, h]⟩

/-- The streams take the line of a step. -/
theorem admits_dialogue {step : WorkloadStep} {k : Nat} {input response : Text} (h : run.Follows done t)
    (hdialogue : step.dialogue run.choices = some (k, input, response)) (hrunning : Running done k)
    (hinput : input ≠ []) (hcount : accepted run.choices (done ++ [step]) k < u64Size) :
    (t.streams k).AdmitsInput (run.guest.command (done.length + 1)) (accepted run.choices done k + input.length)
      input.length false := by
  have hspec : Dialogue run done step k input response := dialogue_spec hdialogue
  rw [accepted_snoc, (hspec.inputs k).trans (if_pos rfl)] at hcount
  rw [h.streams]
  refine ⟨checkedAdd_eq_some.mpr ⟨rfl, by simpa [streamsOf] using hcount⟩, ?_, ?_, fun previous hlast => ?_⟩
  · simpa using hinput
  · simpa [streamsOf] using hrunning.closed
  · exact commands_lt (List.mem_of_getLast? hlast)

/-- The answer to a line: its acknowledgement and the response. -/
theorem push_dialogue {step : WorkloadStep} {k : Nat} {input response : Text} (h : run.Follows done t)
    (hdialogue : step.dialogue run.choices = some (k, input, response)) (hrunning : Running done k)
    (hinput : input ≠ []) (hline : IsLine response) (hcount : Countable run.choices (done ++ [step])) :
    ∃ s, (run.stepFrames done step).foldl WorkloadTrace.push t =
      (t.setStreams k s).setStreams k (run.streamsOf (done ++ [step]) k) := by
  have hspec : Dialogue run done step k input response := dialogue_spec hdialogue
  have hresponses := (hspec.responses k).trans (if_pos rfl)
  have hinputs := (hspec.inputs k).trans (if_pos rfl)
  have hstarted : t.started k = true := (h.started k).mpr hrunning.started
  have hexited := h.exited hrunning.terminated hrunning.closed
  have hterminated := h.terminated hrunning.terminated
  have hlength := (hcount k).2
  rw [emitted_snoc, hresponses, joinLines_singleton] at hlength
  have hadmits := admits_dialogue h hdialogue hrunning hinput (hcount k).1
  set s1 := (t.streams k).pushInput k (run.eventAt done) (run.guest.command (done.length + 1))
    (accepted run.choices done k + input.length) input.length false with hs1
  have hpush : t.push (run.frameAt done (.inputAccepted k (accepted run.choices done k + input.length)
      input.length false) 0) = t.setStreams k s1 := push_input rfl hstarted hexited hterminated
  rw [pushInput_admitted hadmits, h.streams] at hs1
  have hstreams : (t.setStreams k s1).streams k = s1 := by rw [WorkloadTrace.streams_setStreams, if_pos rfl]
  have houtput := @push_outputLine run done (t.setStreams k s1) k response hstarted hexited hline hlength
    (by rw [hstreams, hs1]) (by rw [hstreams, hs1]; rfl) 1
  refine ⟨s1, ?_⟩
  rw [push_two hspec.answer, hpush, houtput, hstreams, streamsOf_line hresponses (hspec.not_eof k), hs1, hinputs]
  simp [streamsOf]

theorem follows_dialogue {step : WorkloadStep} {k : Nat} {input response : Text} (h : run.Follows done t)
    (hdialogue : step.dialogue run.choices = some (k, input, response)) (hrunning : Running done k)
    (hinput : input ≠ []) (hline : IsLine response) (hcount : Countable run.choices (done ++ [step])) :
    run.Follows (done ++ [step]) ((run.stepFrames done step).foldl WorkloadTrace.push t) := by
  have hspec : Dialogue run done step k input response := dialogue_spec hdialogue
  obtain ⟨s, hpush⟩ := push_dialogue h hdialogue hrunning hinput hline hcount
  rw [hpush]
  refine h.snoc rfl rfl rfl ?_ ?_ ?_ ?_ ?_ ?_ fun j => ?_
  · rw [hspec.starts, List.append_nil]; rfl
  · rw [hspec.terminations, List.append_nil]; rfl
  · rw [hspec.exits, List.append_nil]; rfl
  · rw [hspec.cleanups, List.append_nil]; rfl
  · rw [hspec.activations, List.append_nil]; rfl
  · rw [hspec.restorations, List.append_nil]; rfl
  · rw [WorkloadTrace.streams_setStreams, WorkloadTrace.streams_setStreams]
    split_ifs with hj
    · rw [hj]
    · rw [streamsOf_other ((hspec.responses j).trans (if_neg hj)) ((hspec.inputs j).trans (if_neg hj))
        (hspec.not_eof j)]
      exact h.streams j

/-- The exit and the cleanup barrier of an invocation. -/
theorem push_end {k reaped : Nat} {exit : ProcessExit} (hstarted : t.started k = true)
    (hexited : t.exited k = false) (hcleaned : t.cleaned k = false) (hreaped : reaped ≠ 0) :
    (t.push (run.frameAt done (exitEvent run.sha256 run.choices done k exit) 1)).push
        (run.frameAt done (.cleanupComplete k reaped) 2) =
      { t with
        exits := t.exits ++ [run.exitRecord done k exit]
        cleanups := t.cleanups ++ [⟨k, reaped, run.eventAt done + 2⟩] } := by
  have hexit : t.push (run.frameAt done (exitEvent run.sha256 run.choices done k exit) 1) =
      { t with exits := t.exits ++ [run.exitRecord done k exit] } := by
    simp [WorkloadTrace.push, frameAt, frame, exitEvent, hstarted, hexited, exitRecord, eventAt, Nat.add_assoc]
  have hfind : (t.exits ++ [run.exitRecord done k exit]).find? (·.invocation == k) =
      some (run.exitRecord done k exit) := by
    have hnone : t.exits.find? (·.invocation == k) = none := by
      rw [List.find?_eq_none]
      simpa [WorkloadTrace.exited] using hexited
    rw [List.find?_append, hnone]
    simp [exitRecord]
  have hstarted' : ({ t with exits := t.exits ++ [run.exitRecord done k exit] } : WorkloadTrace).started k =
    true := hstarted
  have hcleaned' : ({ t with exits := t.exits ++ [run.exitRecord done k exit] } : WorkloadTrace).cleaned k =
    false := hcleaned
  have hle : ¬ (run.exitRecord done k exit).eventId > run.guest.firstEvent + ((run.answers done).length + 2) := by
    simp only [exitRecord, eventAt]
    omega
  rw [hexit]
  simp [WorkloadTrace.push, frameAt, frame, hstarted', hcleaned', hfind, hle, hreaped, eventAt, Nat.add_assoc]

theorem follows_terminate {k : Nat} (h : run.Follows done t) (hrunning : Running done k) :
    run.Follows (done ++ [.terminate k]) ((run.stepFrames done (.terminate k)).foldl WorkloadTrace.push t) := by
  have hstarted : t.started k = true := (h.started k).mpr hrunning.started
  have hexited := h.exited hrunning.terminated hrunning.closed
  have hcleaned := h.cleaned hrunning.terminated hrunning.closed
  have hterminated := h.terminated hrunning.terminated
  set t1 : WorkloadTrace :=
    { t with terminations := t.terminations ++ [⟨k, terminationSignal, run.eventAt done⟩] } with ht1
  have hpush : t.push (run.frameAt done (.terminationRequested k terminationSignal) 0) = t1 := by
    simp [WorkloadTrace.push, frameAt, frame, hstarted, hexited, hterminated, eventAt, ht1]
  have hend := @push_end run done t1 k 2 (.signaled terminationSignal) hstarted hexited hcleaned (by decide)
  rw [push_three rfl, hpush, hend]
  have hnil := fun {α : Type} (l : List α) => (List.append_nil l).symm
  refine h.snoc rfl rfl rfl (hnil _) rfl rfl rfl (hnil _) (hnil _) fun j => ?_
  rw [@streamsOf_other run done (.terminate k) j rfl rfl (by simp)]
  exact h.streams j

theorem follows_stdinEof {k : Nat} (h : run.Follows done t) (hrunning : Running done k)
    (hcount : Countable run.choices done) :
    run.Follows (done ++ [.stdinEof k]) ((run.stepFrames done (.stdinEof k)).foldl WorkloadTrace.push t) := by
  have hstarted : t.started k = true := (h.started k).mpr hrunning.started
  have hexited := h.exited hrunning.terminated hrunning.closed
  have hcleaned := h.cleaned hrunning.terminated hrunning.closed
  have hterminated := h.terminated hrunning.terminated
  have hadmits : (t.streams k).AdmitsInput (run.guest.command (done.length + 1))
      (accepted run.choices done k) 0 true := by
    rw [h.streams]
    refine ⟨checkedAdd_eq_some.mpr ⟨rfl, (hcount k).1⟩, by simp, ?_, fun previous hlast => ?_⟩
    · simpa [streamsOf] using hrunning.closed
    · exact commands_lt (List.mem_of_getLast? hlast)
  set s1 := (t.streams k).pushInput k (run.eventAt done) (run.guest.command (done.length + 1))
    (accepted run.choices done k) 0 true with hs1
  have hpush : t.push (run.frameAt done (.inputAccepted k (accepted run.choices done k) 0 true) 0) =
      t.setStreams k s1 :=
    push_input rfl hstarted hexited hterminated
  rw [pushInput_admitted hadmits, h.streams] at hs1
  have hend := @push_end run done (t.setStreams k s1) k run.guest.reaped (.exited 0) hstarted hexited hcleaned
    run.guest.reaped_ne
  rw [push_three rfl, hpush, hend]
  have hnil := fun {α : Type} (l : List α) => (List.append_nil l).symm
  refine h.snoc rfl rfl rfl (hnil _) (hnil _) rfl rfl (hnil _) (hnil _) fun j => ?_
  show (t.setStreams k s1).streams j = _
  rw [WorkloadTrace.streams_setStreams]
  split_ifs with hj
  · subst hj
    rw [hs1]
    simp [streamsOf, emitted_snoc, accepted_snoc, recorded_snoc, lineRecords, dataRecords,
      commandRecords, responses, inputs, WorkloadStep.dialogue, LineStream.joinLines]
  · rw [@streamsOf_other run done (.stdinEof k) j rfl rfl (by simpa using hj)]
    exact h.streams j

/-- **What one step keeps.** -/
theorem follows_step {step : WorkloadStep} (h : run.Follows done t) (hallowed : Allowed run.choices done step)
    (hcount : Countable run.choices (done ++ [step])) :
    run.Follows (done ++ [step]) ((run.stepFrames done step).foldl WorkloadTrace.push t) := by
  cases step with
  | start k => exact follows_start h hallowed hcount ⟨by decide, by decide, by decide⟩
  | activate => exact follows_activate h hallowed
  | restore => exact follows_restore h hallowed
  | terminate k => exact follows_terminate h hallowed
  | stdinEof k =>
    refine follows_stdinEof h hallowed fun j => ?_
    have hsame := hcount j
    rw [accepted_snoc, emitted_snoc] at hsame
    simpa [inputs, responses, WorkloadStep.dialogue, LineStream.joinLines] using hsame
  | echo k =>
    obtain ⟨j, input, response, hdialogue, hrunning, hinput, hline⟩ := hallowed
    exact follows_dialogue h hdialogue hrunning hinput hline hcount
  | state k =>
    obtain ⟨j, input, response, hdialogue, hrunning, hinput, hline⟩ := hallowed
    exact follows_dialogue h hdialogue hrunning hinput hline hcount
  | spawnDescendant k =>
    obtain ⟨j, input, response, hdialogue, hrunning, hinput, hline⟩ := hallowed
    exact follows_dialogue h hdialogue hrunning hinput hline hcount
  | request k index =>
    obtain ⟨j, input, response, hdialogue, hrunning, hinput, hline⟩ := hallowed
    exact follows_dialogue h hdialogue hrunning hinput hline hcount

/-- Every step may follow the steps before it. -/
def Orderly (choices : WorkloadChoicePlan) (steps : List WorkloadStep) : Prop :=
  ∀ earlier step later, steps = earlier ++ step :: later → Allowed choices earlier step

theorem follows_nil (hpeer : run.scenario.fixturePeer = fixturePeer) :
    run.Follows [] (WorkloadTrace.ofEvents (run.events [])) := by
  have htrace : WorkloadTrace.ofEvents (run.events []) =
      { configured := some ⟨run.scenario.fixturePeer, run.guest.firstEvent⟩ } := by
    simp [WorkloadTrace.ofEvents, events, answers, recorded, WorkloadTrace.push, frame, hpeer]
  rw [htrace]
  refine ⟨rfl, rfl, rfl, rfl, rfl, rfl, rfl, rfl, rfl, fun k => ?_⟩
  simp [WorkloadTrace.streams, streamsOf, emitted, accepted, recorded, LineStream.joinLines]

/-- **What a whole run of the guest leaves**, by induction on the steps from the first. -/
theorem follows_events (hpeer : run.scenario.fixturePeer = fixturePeer) {steps : List WorkloadStep}
    (horderly : Orderly run.choices steps) (hcount : ∀ done, done <+: steps → Countable run.choices done) :
    run.Follows steps (WorkloadTrace.ofEvents (run.events steps)) := by
  induction steps using List.reverseRecOn with
  | nil => exact follows_nil hpeer
  | append_singleton steps step ih =>
    have hbefore := ih (fun earlier s later heq => horderly earlier s (later ++ [step]) (by rw [heq]; simp))
      fun done hdone => hcount done (hdone.trans (List.prefix_append _ _))
    rw [events_snoc, WorkloadTrace.ofEvents_append]
    exact follows_step hbefore (horderly steps step [] rfl) (hcount _ (List.prefix_refl _))

end RunContext

end SimFerret.Driver
