import Std.Data.ExtTreeMap
import Mathlib.Data.List.Induction
import SimFerret.Checker.Streams

/-!
# SimFerret.Checker.Trace — the facts one workload run records (`checker.rs`)

`WorkloadTrace.push` folds one frame.  `Admits` says which frames the trace takes without a structural violation.

* `push_admitted`, `push_refused`: an admitted frame adds at most violations about long lines, any other frame
  adds one that is not; `violations_push`: violations are never dropped.
* `Mirrors`: the records of the trace are the events folded so far.
* `admits_of_sound`: in a run whose violations are only about long lines, every frame was admitted and every
  prefix is mirrored.
-/

namespace SimFerret.Checker

open Workload (LaunchIdentity)

/-- The fixed private interface the acceptance profile configures. -/
def networkInterface : Text := "eth0"
def guestCidr : Text := "10.0.2.15/24"
/-- The fixed private peer the acceptance profile configures and faults. -/
def fixturePeer : Text := "10.0.2.2"

structure StartRecord where
  invocation : Nat
  launch : LaunchIdentity
  eventId : Nat
deriving DecidableEq, Repr

structure ExitRecord where
  invocation : Nat
  exit : ProcessExit
  stdoutBytes : Nat
  stdoutSha256 : Text
  stderrBytes : Nat
  stderrSha256 : Text
  frames : Nat
  eventId : Nat
deriving DecidableEq, Repr

structure TerminationRecord where
  invocation : Nat
  signal : Int
  eventId : Nat
deriving DecidableEq, Repr

structure CleanupRecord where
  invocation : Nat
  reaped : Nat
  eventId : Nat
deriving DecidableEq, Repr

structure LaunchFailureRecord where
  invocation : Nat
  failure : LaunchFailure
deriving DecidableEq, Repr

structure ConfiguredRecord where
  gateway : Text
  eventId : Nat
deriving DecidableEq, Repr

structure WorkloadTrace where
  starts : List StartRecord := []
  exits : List ExitRecord := []
  terminations : List TerminationRecord := []
  cleanups : List CleanupRecord := []
  launchFailures : List LaunchFailureRecord := []
  activations : List (Text × Nat) := []
  restorations : List (Text × Nat) := []
  configured : Option ConfiguredRecord := none
  invocations : Std.ExtTreeMap Nat InvocationStreams := ∅
  violations : List Violation := []

namespace WorkloadTrace

def started (t : WorkloadTrace) (invocation : Nat) : Bool := t.starts.any (·.invocation == invocation)

def exited (t : WorkloadTrace) (invocation : Nat) : Bool := t.exits.any (·.invocation == invocation)

def terminated (t : WorkloadTrace) (invocation : Nat) : Bool := t.terminations.any (·.invocation == invocation)

def cleaned (t : WorkloadTrace) (invocation : Nat) : Bool := t.cleanups.any (·.invocation == invocation)

def launchFailed (t : WorkloadTrace) (invocation : Nat) : Bool :=
  t.launchFailures.any (·.invocation == invocation)

def violate (t : WorkloadTrace) (v : Violation) : WorkloadTrace := { t with violations := t.violations ++ [v] }

/-- The streams of one invocation; an invocation without output or input has empty ones. -/
def streams (t : WorkloadTrace) (invocation : Nat) : InvocationStreams := (t.invocations[invocation]?).getD {}

/-- `self.invocations.entry(invocation).or_default()` is replaced by `s`. -/
def setStreams (t : WorkloadTrace) (invocation : Nat) (s : InvocationStreams) : WorkloadTrace :=
  { t with invocations := t.invocations.insert invocation s }

/-- Fold one received frame into the trace. -/
def push (t : WorkloadTrace) (frame : EventFrame) : WorkloadTrace :=
  let eventId := frame.eventId
  match frame.event with
  | .workloadStarted invocation launch =>
    let t := if t.started invocation then t.violate (.startedTwice invocation eventId) else t
    { t with starts := t.starts ++ [⟨invocation, launch, eventId⟩] }
  | .workloadExited invocation exit stdoutBytes stdoutSha256 stderrBytes stderrSha256 frames =>
    if !t.started invocation then t.violate (.beforeStart "workload-exited" invocation eventId)
    else if t.exited invocation then t.violate (.exitedTwice invocation eventId)
    else { t with exits := t.exits ++
      [⟨invocation, exit, stdoutBytes, stdoutSha256, stderrBytes, stderrSha256, frames, eventId⟩] }
  | .terminationRequested invocation signal =>
    if !t.started invocation then t.violate (.beforeStart "termination-requested" invocation eventId)
    else if t.exited invocation then t.violate (.afterExit "termination-requested" invocation eventId)
    else if t.terminated invocation then t.violate (.terminatedTwice invocation eventId)
    else { t with terminations := t.terminations ++ [⟨invocation, signal, eventId⟩] }
  | .cleanupComplete invocation reaped =>
    if !t.started invocation then t.violate (.beforeStart "cleanup-complete" invocation eventId)
    else if t.cleaned invocation then t.violate (.cleanedTwice invocation eventId)
    else match t.exits.find? (·.invocation == invocation) with
      | none => t.violate (.cleanupBeforeExit invocation eventId)
      | some exit =>
        if exit.eventId > eventId then t.violate (.cleanupBeforeExitRecord invocation eventId)
        else if reaped = 0 then t.violate (.cleanupWithoutReaping invocation eventId)
        else { t with cleanups := t.cleanups ++ [⟨invocation, reaped, eventId⟩] }
  | .launchFailed invocation failure _ =>
    if t.launchFailed invocation then t.violate (.launchFailedTwice invocation eventId)
    else if t.exited invocation then t.violate (.launchFailedAfterExit invocation eventId)
    else { t with launchFailures := t.launchFailures ++ [⟨invocation, failure⟩] }
  | .networkConfigured interface cidr gateway =>
    match t.configured with
    | some configured => t.violate (.secondConfiguration eventId configured.eventId)
    | none =>
      if interface ≠ networkInterface ∨ cidr ≠ guestCidr ∨ gateway ≠ fixturePeer then
        t.violate (.foreignConfiguration eventId)
      else { t with configured := some ⟨gateway, eventId⟩ }
  | .outageActivated peerCidr rule =>
    match t.activations.head? with
    | some (_, activationId) => t.violate (.secondActivation eventId activationId)
    | none =>
      if rule ≠ utf8 "prohibit " ++ peerCidr then t.violate (.ruleMismatch eventId)
      else { t with activations := t.activations ++ [(peerCidr, eventId)] }
  | .networkRestored peerCidr =>
    match t.restorations.head? with
    | some (_, restorationId) => t.violate (.secondRestoration eventId restorationId)
    | none => { t with restorations := t.restorations ++ [(peerCidr, eventId)] }
  | .workloadOutput invocation stream offset sequence bytes =>
    if !t.started invocation then t.violate (.beforeStart "output frame" invocation eventId)
    else if t.exited invocation then t.violate (.afterExit "output frame" invocation eventId)
    else match decodeBytes bytes maxOutputFrameBytes with
      | .error _ => t.violate (.unreadableFrame invocation eventId)
      | .ok data =>
        t.setStreams invocation ((t.streams invocation).push eventId invocation stream offset sequence data)
  | .inputAccepted invocation offset bytes eof =>
    if !t.started invocation then t.violate (.beforeStart "input-accepted" invocation eventId)
    else if t.exited invocation then t.violate (.afterExit "input-accepted" invocation eventId)
    else if t.terminated invocation then t.violate (.afterTermination invocation eventId)
    else t.setStreams invocation
      ((t.streams invocation).pushInput invocation eventId frame.commandId offset bytes eof)
  | _ => t

/-- Every structural violation, those of the invocations in the order of their numbers. -/
def allViolations (t : WorkloadTrace) : List Violation :=
  t.violations ++ t.invocations.toList.flatMap fun entry => entry.2.violations

def stdoutLineCount (t : WorkloadTrace) (invocation : Nat) : Nat := (t.streams invocation).stdout.lines.length

def stdoutLine (t : WorkloadTrace) (invocation index : Nat) : Option Text :=
  (t.streams invocation).stdout.lines[index]?.map CompletedLine.text

def stderrBytes (t : WorkloadTrace) (invocation : Nat) : Nat :=
  (t.streams invocation).stderr.bytes.length + (t.streams invocation).stderr.pending.length

def overBoundLine (t : WorkloadTrace) (invocation : Nat) : Bool :=
  (t.streams invocation).stdoutOverBound || (t.streams invocation).stdoutOverBoundSeen

def stdoutPending (t : WorkloadTrace) (invocation : Nat) : Bool := !(t.streams invocation).stdout.pending.isEmpty

def stdoutLines (t : WorkloadTrace) (invocation : Nat) : List CompletedLine := (t.streams invocation).stdout.lines

def stderrLines (t : WorkloadTrace) (invocation : Nat) : List CompletedLine := (t.streams invocation).stderr.lines

def anyStdoutLine (t : WorkloadTrace) (wanted : Text) : Option CompletedLine :=
  (t.invocations.toList.flatMap fun entry => entry.2.stdout.lines).find? (·.text == wanted)

/-- The lines of one invocation with the data acknowledgement each of them answers; the first answers none. -/
def linesWithAck (s : InvocationStreams) : List (CompletedLine × Nat) :=
    (s.stdout.lines.drop 1).zip s.dataInputEvents

def stdoutLineWithAck (t : WorkloadTrace) (wanted : Text) : Option (CompletedLine × Nat) :=
  (t.invocations.toList.flatMap fun entry => linesWithAck entry.2).find? (·.1.text == wanted)

/-! ## Admitted frames -/

/-- The trace takes the frame without a violation other than one about a long line. -/
def Admits (t : WorkloadTrace) (frame : EventFrame) : Prop :=
  match frame.event with
  | .workloadStarted invocation _ => t.started invocation = false
  | .workloadExited invocation .. => t.started invocation = true ∧ t.exited invocation = false
  | .terminationRequested invocation _ =>
    t.started invocation = true ∧ t.exited invocation = false ∧ t.terminated invocation = false
  | .cleanupComplete invocation reaped =>
    t.started invocation = true ∧ t.cleaned invocation = false ∧
      (∃ exit, t.exits.find? (·.invocation == invocation) = some exit ∧ exit.eventId ≤ frame.eventId) ∧ reaped ≠ 0
  | .launchFailed invocation _ _ => t.launchFailed invocation = false ∧ t.exited invocation = false
  | .networkConfigured interface cidr gateway =>
    t.configured = none ∧ interface = networkInterface ∧ cidr = guestCidr ∧ gateway = fixturePeer
  | .outageActivated peerCidr rule => t.activations = [] ∧ rule = utf8 "prohibit " ++ peerCidr
  | .networkRestored _ => t.restorations = []
  | .workloadOutput invocation stream offset sequence bytes =>
    t.started invocation = true ∧ t.exited invocation = false ∧
      (∃ data, decodeBytes bytes maxOutputFrameBytes = .ok data) ∧
      (t.streams invocation).Admits stream offset sequence
  | .inputAccepted invocation offset bytes eof =>
    t.started invocation = true ∧ t.exited invocation = false ∧ t.terminated invocation = false ∧
      (t.streams invocation).AdmitsInput frame.commandId offset bytes eof
  | _ => True

theorem streams_setStreams (t : WorkloadTrace) (invocation other : Nat) (s : InvocationStreams) :
    (t.setStreams invocation s).streams other = if invocation = other then s else t.streams other := by
  unfold setStreams streams
  rw [Std.ExtTreeMap.getElem?_insert]
  by_cases h : invocation = other
  · simp [h]
  · simp [h]

/-- A violation is recorded in the trace or in the streams of an invocation. -/
theorem mem_allViolations {t : WorkloadTrace} {v : Violation} :
    v ∈ t.allViolations ↔ v ∈ t.violations ∨ ∃ invocation, v ∈ (t.streams invocation).violations := by
  unfold allViolations streams
  rw [List.mem_append, List.mem_flatMap]
  refine or_congr Iff.rfl ⟨?_, ?_⟩
  · rintro ⟨⟨k, s⟩, hmem, hv⟩
    rw [Std.ExtTreeMap.mem_toList_iff_getElem?_eq_some] at hmem
    exact ⟨k, by rw [hmem]; exact hv⟩
  · rintro ⟨k, hv⟩
    cases hk : t.invocations[k]? with
    | none => rw [hk] at hv; simp at hv
    | some s =>
      rw [hk] at hv
      exact ⟨(k, s), Std.ExtTreeMap.mem_toList_iff_getElem?_eq_some.mpr hk, hv⟩

/-- What an admitted frame leaves in the trace. -/
def record (t : WorkloadTrace) (frame : EventFrame) : WorkloadTrace :=
  match frame.event with
  | .workloadStarted invocation launch =>
    { t with starts := t.starts ++ [⟨invocation, launch, frame.eventId⟩] }
  | .workloadExited invocation exit stdoutBytes stdoutSha256 stderrBytes stderrSha256 frames =>
    { t with exits := t.exits ++
      [⟨invocation, exit, stdoutBytes, stdoutSha256, stderrBytes, stderrSha256, frames, frame.eventId⟩] }
  | .terminationRequested invocation signal =>
    { t with terminations := t.terminations ++ [⟨invocation, signal, frame.eventId⟩] }
  | .cleanupComplete invocation reaped =>
    { t with cleanups := t.cleanups ++ [⟨invocation, reaped, frame.eventId⟩] }
  | .launchFailed invocation failure _ =>
    { t with launchFailures := t.launchFailures ++ [⟨invocation, failure⟩] }
  | .networkConfigured _ _ gateway => { t with configured := some ⟨gateway, frame.eventId⟩ }
  | .outageActivated peerCidr _ => { t with activations := t.activations ++ [(peerCidr, frame.eventId)] }
  | .networkRestored peerCidr => { t with restorations := t.restorations ++ [(peerCidr, frame.eventId)] }
  | .workloadOutput invocation stream offset sequence bytes =>
    match decodeBytes bytes maxOutputFrameBytes with
    | .error _ => t
    | .ok data =>
      t.setStreams invocation ((t.streams invocation).push frame.eventId invocation stream offset sequence data)
  | .inputAccepted invocation offset bytes eof =>
    t.setStreams invocation
      ((t.streams invocation).pushInput invocation frame.eventId frame.commandId offset bytes eof)
  | _ => t

theorem push_of_admits {t : WorkloadTrace} {frame : EventFrame} (h : t.Admits frame) :
    t.push frame = t.record frame := by
  unfold Admits at h
  unfold push record
  cases hev : frame.event <;> rw [hev] at h <;> dsimp only at h ⊢
  case workloadStarted => simp [h]
  case workloadExited => simp [h.1, h.2]
  case terminationRequested => simp [h.1, h.2.1, h.2.2]
  case cleanupComplete invocation reaped =>
    obtain ⟨h1, h2, ⟨exit, hexit, hle⟩, h4⟩ := h
    simp [h1, h2, hexit, h4, show ¬ exit.eventId > frame.eventId by omega]
  case launchFailed => simp [h.1, h.2]
  case networkConfigured => simp [h.1, h.2.1, h.2.2.1, h.2.2.2]
  case outageActivated => simp [h.1, h.2]
  case networkRestored => simp [h]
  case workloadOutput =>
    obtain ⟨h1, h2, ⟨data, hdata⟩, -⟩ := h
    simp [h1, h2, hdata]
  case inputAccepted => simp [h.1, h.2.1, h.2.2.1]

theorem violations_violate (t : WorkloadTrace) (v : Violation) :
    ∀ w, w ∈ (t.violate v).allViolations ↔ w ∈ t.allViolations ∨ w = v := by
  intro w
  rw [mem_allViolations, mem_allViolations]
  show w ∈ t.violations ++ [v] ∨ (∃ k, w ∈ (t.streams k).violations) ↔ _
  rw [List.mem_append, List.mem_singleton, or_right_comm]

/-- A frame that is not admitted leaves a violation, or reaches streams that do not admit it. -/
theorem push_of_not_admits {t : WorkloadTrace} {frame : EventFrame} (h : ¬ t.Admits frame) :
    (∃ v, ¬ v.OverLong ∧ t.push frame = t.violate v) ∨
    (∃ invocation launch v, ¬ v.OverLong ∧ frame.event = .workloadStarted invocation launch ∧
      t.push frame = (t.violate v).record frame) ∨
    (∃ invocation stream offset sequence bytes, frame.event =
      .workloadOutput invocation stream offset sequence bytes ∧
      ¬ (t.streams invocation).Admits stream offset sequence ∧ t.push frame = t.record frame ∧
      ∃ data, decodeBytes bytes maxOutputFrameBytes = .ok data) ∨
    (∃ invocation offset bytes eof, frame.event = .inputAccepted invocation offset bytes eof ∧
      ¬ (t.streams invocation).AdmitsInput frame.commandId offset bytes eof ∧ t.push frame = t.record frame) := by
  unfold Admits at h
  unfold push record
  cases hev : frame.event <;> rw [hev] at h <;> dsimp only at h ⊢
  case workloadStarted invocation launch =>
    rw [Bool.not_eq_false] at h
    exact .inr (.inl ⟨invocation, launch, .startedTwice invocation frame.eventId, id, rfl, by simp [h]⟩)
  case workloadExited invocation _ _ _ _ _ _ =>
    left
    by_cases h1 : t.started invocation = true
    · have h2 : t.exited invocation = true := by simpa [h1] using h
      exact ⟨.exitedTwice invocation frame.eventId, id, by simp [h1, h2]⟩
    · exact ⟨.beforeStart "workload-exited" invocation frame.eventId, id, by simp [h1]⟩
  case terminationRequested invocation _ =>
    left
    by_cases h1 : t.started invocation = true
    · by_cases h2 : t.exited invocation = true
      · exact ⟨.afterExit "termination-requested" invocation frame.eventId, id, by simp [h1, h2]⟩
      · have h3 : t.terminated invocation = true := by simpa [h1, h2] using h
        exact ⟨.terminatedTwice invocation frame.eventId, id, by simp [h1, h2, h3]⟩
    · exact ⟨.beforeStart "termination-requested" invocation frame.eventId, id, by simp [h1]⟩
  case cleanupComplete invocation reaped =>
    left
    by_cases h1 : t.started invocation = true
    · by_cases h2 : t.cleaned invocation = true
      · exact ⟨.cleanedTwice invocation frame.eventId, id, by simp [h1, h2]⟩
      · cases hexit : t.exits.find? (·.invocation == invocation) with
        | none => exact ⟨.cleanupBeforeExit invocation frame.eventId, id, by simp [h1, h2]⟩
        | some exit =>
          by_cases h3 : exit.eventId > frame.eventId
          · exact ⟨.cleanupBeforeExitRecord invocation frame.eventId, id, by simp [h1, h2, h3]⟩
          · by_cases h4 : reaped = 0
            · exact ⟨.cleanupWithoutReaping invocation frame.eventId, id, by simp [h1, h2, h3, h4]⟩
            · exact absurd ⟨h1, by simpa using h2, ⟨exit, hexit, by omega⟩, h4⟩ h
    · exact ⟨.beforeStart "cleanup-complete" invocation frame.eventId, id, by simp [h1]⟩
  case launchFailed invocation _ _ =>
    left
    by_cases h1 : t.launchFailed invocation = true
    · exact ⟨.launchFailedTwice invocation frame.eventId, id, by simp [h1]⟩
    · have h2 : t.exited invocation = true := by simpa [h1] using h
      exact ⟨.launchFailedAfterExit invocation frame.eventId, id, by simp [h1, h2]⟩
  case networkConfigured interface cidr gateway =>
    left
    cases hc : t.configured with
    | some configured => exact ⟨.secondConfiguration frame.eventId configured.eventId, id, rfl⟩
    | none =>
      refine ⟨.foreignConfiguration frame.eventId, id, ?_⟩
      dsimp only
      rw [if_pos]
      by_contra hno
      rw [not_or, not_or, not_not, not_not, not_not] at hno
      exact h ⟨hc, hno.1, hno.2.1, hno.2.2⟩
  case outageActivated peerCidr rule =>
    left
    cases ha : t.activations with
    | cons a rest => exact ⟨.secondActivation frame.eventId a.2, id, rfl⟩
    | nil =>
      have h2 : rule ≠ utf8 "prohibit " ++ peerCidr := fun hr => h ⟨ha, hr⟩
      exact ⟨.ruleMismatch frame.eventId, id, by simp [h2]⟩
  case networkRestored peerCidr =>
    left
    cases ha : t.restorations with
    | cons a rest => exact ⟨.secondRestoration frame.eventId a.2, id, rfl⟩
    | nil => exact absurd ha h
  case workloadOutput invocation stream offset sequence bytes =>
    by_cases h1 : t.started invocation = true
    · by_cases h2 : t.exited invocation = true
      · exact .inl ⟨.afterExit "output frame" invocation frame.eventId, id, by simp [h1, h2]⟩
      · cases hd : decodeBytes bytes maxOutputFrameBytes with
        | error e => exact .inl ⟨.unreadableFrame invocation frame.eventId, id, by simp [h1, h2]⟩
        | ok data =>
          refine .inr (.inr (.inl ⟨invocation, stream, offset, sequence, bytes, rfl, fun ha => h ?_,
            ?_, data, hd⟩))
          · exact ⟨h1, by simpa using h2, ⟨data, hd⟩, ha⟩
          · simp [h1, h2]
    · exact .inl ⟨.beforeStart "output frame" invocation frame.eventId, id, by simp [h1]⟩
  case inputAccepted invocation offset bytes eof =>
    by_cases h1 : t.started invocation = true
    · by_cases h2 : t.exited invocation = true
      · exact .inl ⟨.afterExit "input-accepted" invocation frame.eventId, id, by simp [h1, h2]⟩
      · by_cases h3 : t.terminated invocation = true
        · exact .inl ⟨.afterTermination invocation frame.eventId, id, by simp [h1, h2, h3]⟩
        · refine .inr (.inr (.inr ⟨invocation, offset, bytes, eof, rfl, fun ha => h ?_, ?_⟩))
          · exact ⟨h1, by simpa using h2, by simpa using h3, ha⟩
          · simp [h1, h2, h3]
    · exact .inl ⟨.beforeStart "input-accepted" invocation frame.eventId, id, by simp [h1]⟩
  all_goals exact absurd trivial h

/-! ## Violations are never dropped -/

theorem violations_setStreams {t : WorkloadTrace} {invocation : Nat} {s : InvocationStreams}
    {extra : List Violation} (hs : s.violations = (t.streams invocation).violations ++ extra) (w : Violation) :
    w ∈ (t.setStreams invocation s).allViolations ↔ w ∈ t.allViolations ∨ w ∈ extra := by
  have hstreams := streams_setStreams t invocation
  rw [mem_allViolations, mem_allViolations]
  show w ∈ t.violations ∨ _ ↔ _
  constructor
  · rintro (hw | ⟨k, hw⟩)
    · exact .inl (.inl hw)
    · rw [hstreams] at hw
      split at hw
      · rw [hs, List.mem_append] at hw
        exact hw.imp (fun hw => .inr ⟨invocation, hw⟩) id
      · exact .inl (.inr ⟨k, hw⟩)
  · rintro ((hw | ⟨k, hw⟩) | hw)
    · exact .inl hw
    · refine .inr ⟨k, ?_⟩
      rw [hstreams]
      split
      · rename_i hk
        subst hk
        rw [hs]
        exact List.mem_append_left _ hw
      · exact hw
    · refine .inr ⟨invocation, ?_⟩
      rw [hstreams, if_pos rfl, hs]
      exact List.mem_append_right _ hw

/-- Recording adds the violations of the streams it reaches, and no others. -/
theorem violations_record (t : WorkloadTrace) (frame : EventFrame) :
    ∃ extra : List Violation, (∀ w, w ∈ (t.record frame).allViolations ↔ w ∈ t.allViolations ∨ w ∈ extra) ∧
      (t.Admits frame → ∀ v ∈ extra, v.OverLong) := by
  unfold record Admits
  cases hev : frame.event
  case workloadOutput invocation stream offset sequence bytes =>
    dsimp only
    cases hd : decodeBytes bytes maxOutputFrameBytes with
    | error e => exact ⟨[], by simp⟩
    | ok data =>
      obtain ⟨extra, hextra, hadm, -⟩ := ((t.streams invocation).push_spec frame.eventId invocation stream offset
        sequence data).violations
      exact ⟨extra, violations_setStreams hextra, fun h => hadm h.2.2.2⟩
  case inputAccepted invocation offset bytes eof =>
    obtain ⟨extra, hextra, hadm, -⟩ := ((t.streams invocation).pushInput_spec invocation frame.eventId
      frame.commandId offset bytes eof).violations
    refine ⟨extra, violations_setStreams hextra, fun h => ?_⟩
    rw [hadm h.2.2.2]
    simp
  all_goals exact ⟨[], fun w => (or_iff_left List.not_mem_nil).symm, fun _ v hv => absurd hv List.not_mem_nil⟩

/-- An admitted frame adds at most violations about long lines. -/
theorem violations_push_admitted {t : WorkloadTrace} {frame : EventFrame} (h : t.Admits frame) {v : Violation}
    (hv : v ∈ (t.push frame).allViolations) : v ∈ t.allViolations ∨ v.OverLong := by
  obtain ⟨extra, hextra, hlong⟩ := violations_record t frame
  rw [push_of_admits h, hextra] at hv
  exact hv.imp id (hlong h v)

/-- **Violations are never dropped.** -/
theorem violations_push (t : WorkloadTrace) (frame : EventFrame) {v : Violation} (hv : v ∈ t.allViolations) :
    v ∈ (t.push frame).allViolations := by
  by_cases h : t.Admits frame
  · obtain ⟨extra, hextra, -⟩ := violations_record t frame
    rw [push_of_admits h, hextra]
    exact .inl hv
  · rcases push_of_not_admits h with ⟨w, -, heq⟩ | ⟨_, _, w, -, -, heq⟩ | ⟨_, _, _, _, _, -, -, heq, -⟩ |
      ⟨_, _, _, _, -, -, heq⟩
    · rw [heq, violations_violate]
      exact .inl hv
    · obtain ⟨extra, hextra, -⟩ := violations_record (t.violate w) frame
      rw [heq, hextra, violations_violate]
      exact .inl (.inl hv)
    · obtain ⟨extra, hextra, -⟩ := violations_record t frame
      rw [heq, hextra]
      exact .inl hv
    · obtain ⟨extra, hextra, -⟩ := violations_record t frame
      rw [heq, hextra]
      exact .inl hv

/-- **A frame that is not admitted leaves a violation** that is not about a long line. -/
theorem push_refused {t : WorkloadTrace} {frame : EventFrame} (h : ¬ t.Admits frame) :
    ∃ v ∈ (t.push frame).allViolations, ¬ v.OverLong := by
  rcases push_of_not_admits h with ⟨w, hw, heq⟩ | ⟨_, _, w, hw, -, heq⟩ |
    ⟨invocation, stream, offset, sequence, bytes, hev, hna, heq, data, hd⟩ | ⟨invocation, offset, bytes, eof,
      hev, hna, heq⟩
  · exact ⟨w, by rw [heq, violations_violate]; exact .inr rfl, hw⟩
  · obtain ⟨extra, hextra, -⟩ := violations_record (t.violate w) frame
    exact ⟨w, by rw [heq, hextra, violations_violate]; exact .inl (.inr rfl), hw⟩
  · obtain ⟨extra, hextra, -, hnot⟩ := ((t.streams invocation).push_spec frame.eventId invocation stream offset
      sequence data).violations
    obtain ⟨v, hv, hvn⟩ := hnot hna
    refine ⟨v, ?_, hvn⟩
    rw [heq]
    unfold record
    rw [hev]
    dsimp only
    rw [hd]
    exact (violations_setStreams hextra v).mpr (.inr hv)
  · obtain ⟨extra, hextra, -, hnot⟩ := ((t.streams invocation).pushInput_spec invocation frame.eventId
      frame.commandId offset bytes eof).violations
    obtain ⟨v, hv, hvn⟩ := hnot hna
    refine ⟨v, ?_, hvn⟩
    rw [heq]
    unfold record
    rw [hev]
    exact (violations_setStreams hextra v).mpr (.inr hv)

/-! ## The trace of a run -/

/-- The trace of a list of frames. -/
def ofEvents (events : List EventFrame) : WorkloadTrace := events.foldl push {}

theorem ofEvents_append (events more : List EventFrame) :
    ofEvents (events ++ more) = more.foldl push (ofEvents events) := by
  simp [ofEvents]

theorem ofEvents_snoc (events : List EventFrame) (frame : EventFrame) :
    ofEvents (events ++ [frame]) = (ofEvents events).push frame := by
  simp [ofEvents]

theorem violations_foldl {v : Violation} : ∀ (frames : List EventFrame) (t : WorkloadTrace),
    v ∈ t.allViolations → v ∈ (frames.foldl push t).allViolations
  | [], _, h => h
  | frame :: frames, t, h => violations_foldl frames (t.push frame) (violations_push t frame h)

/-- The violations are all about long lines. -/
def Sound (t : WorkloadTrace) : Prop := ∀ v ∈ t.allViolations, v.OverLong

/-- A trace without violations is sound. -/
theorem sound_of_clean {t : WorkloadTrace} (h : t.allViolations = []) : t.Sound := by
  intro v hv
  rw [h] at hv
  exact absurd hv List.not_mem_nil

theorem allViolations_default : (({} : WorkloadTrace)).allViolations = [] := by
  apply List.eq_nil_iff_forall_not_mem.mpr
  intro v hv
  rcases mem_allViolations.mp hv with hv | ⟨k, hv⟩
  · simp at hv
  · unfold streams at hv
    rw [Std.ExtTreeMap.getElem?_empty] at hv
    simp at hv

/-- **A sound run admitted every frame in its turn.** -/
theorem admits_of_sound {pre post : List EventFrame} {frame : EventFrame}
    (h : (ofEvents (pre ++ frame :: post)).Sound) : (ofEvents pre).Admits frame := by
  by_contra hna
  obtain ⟨v, hv, hvn⟩ := push_refused hna
  refine hvn (h v ?_)
  rw [show pre ++ frame :: post = (pre ++ [frame]) ++ post by simp, ofEvents_append, ofEvents_snoc]
  exact violations_foldl post _ hv

theorem Sound.initial {events more : List EventFrame} (h : (ofEvents (events ++ more)).Sound) :
    (ofEvents events).Sound := by
  intro v hv
  apply h
  rw [ofEvents_append]
  exact violations_foldl more _ hv

/-- **A run that admits every frame in its turn is sound.** -/
theorem sound_of_admits : ∀ {events : List EventFrame},
    (∀ pre frame post, events = pre ++ frame :: post → (ofEvents pre).Admits frame) → (ofEvents events).Sound := by
  intro events
  induction events using List.reverseRecOn with
  | nil =>
    intro _ v hv
    rw [show ofEvents [] = ({} : WorkloadTrace) from rfl, allViolations_default] at hv
    simp at hv
  | append_singleton events frame ih =>
    intro h v hv
    rw [ofEvents_snoc] at hv
    have hadm := h events frame [] rfl
    rcases violations_push_admitted hadm hv with hv | hv
    · refine ih (fun pre f post heq => h pre f (post ++ [frame]) ?_) v hv
      rw [heq]
      simp
    · exact hv

end WorkloadTrace

/-! ## What the events of a run say -/

section Events

variable (frame : EventFrame)

def startOf : Option StartRecord :=
  match frame.event with
  | .workloadStarted invocation launch => some ⟨invocation, launch, frame.eventId⟩
  | _ => none

def exitOf : Option ExitRecord :=
  match frame.event with
  | .workloadExited invocation exit stdoutBytes stdoutSha256 stderrBytes stderrSha256 frames =>
    some ⟨invocation, exit, stdoutBytes, stdoutSha256, stderrBytes, stderrSha256, frames, frame.eventId⟩
  | _ => none

def terminationOf : Option TerminationRecord :=
  match frame.event with
  | .terminationRequested invocation signal => some ⟨invocation, signal, frame.eventId⟩
  | _ => none

def cleanupOf : Option CleanupRecord :=
  match frame.event with
  | .cleanupComplete invocation reaped => some ⟨invocation, reaped, frame.eventId⟩
  | _ => none

def launchFailureOf : Option LaunchFailureRecord :=
  match frame.event with
  | .launchFailed invocation failure _ => some ⟨invocation, failure⟩
  | _ => none

def activationOf : Option (Text × Nat) :=
  match frame.event with
  | .outageActivated peerCidr _ => some (peerCidr, frame.eventId)
  | _ => none

def restorationOf : Option (Text × Nat) :=
  match frame.event with
  | .networkRestored peerCidr => some (peerCidr, frame.eventId)
  | _ => none

/-- The bytes that a frame adds to a stream of an invocation. -/
def outputOf (invocation : Nat) (stream : OutputStream) : Bytes :=
  match frame.event with
  | .workloadOutput i s _ _ bytes =>
    if i = invocation ∧ s = stream then (decodeBytes bytes maxOutputFrameBytes).toOption.getD [] else []
  | _ => []

/-- The frame carries output of the invocation. -/
def isOutputOf (invocation : Nat) : Bool :=
  match frame.event with
  | .workloadOutput i _ _ _ _ => i == invocation
  | _ => false

/-- The frame accepts input of the invocation, ending it or not. -/
def isInputOf (invocation : Nat) (eof : Bool) : Bool :=
  match frame.event with
  | .inputAccepted i _ _ e => i == invocation && e == eof
  | _ => false

end Events

/-- The bytes of a stream, concatenated over the output frames. -/
def streamBytes (events : List EventFrame) (invocation : Nat) (stream : OutputStream) : Bytes :=
  events.flatMap fun frame => outputOf frame invocation stream

/-- The number of output frames of an invocation. -/
def frameCount (events : List EventFrame) (invocation : Nat) : Nat :=
  (events.filter (isOutputOf · invocation)).length

/-- The event identifiers of the accepted data inputs. -/
def dataInputs (events : List EventFrame) (invocation : Nat) : List Nat :=
  (events.filter (isInputOf · invocation false)).map EventFrame.eventId

/-- The number of accepted ends of input. -/
def eofCount (events : List EventFrame) (invocation : Nat) : Nat :=
  (events.filter (isInputOf · invocation true)).length

/-- The streams of an invocation are those of the events. -/
structure StreamsMirror (s : InvocationStreams) (events : List EventFrame) (invocation : Nat) : Prop where
  bytes : ∀ stream, (s.stream stream).bytes = streamBytes events invocation stream
  splits : ∀ stream, (s.stream stream).Splits
  frames : s.frames = frameCount events invocation
  data : s.dataInputEvents = dataInputs events invocation
  eofs : s.eofInputs = eofCount events invocation

/-- The records of a trace are the events folded so far. -/
structure Mirrors (t : WorkloadTrace) (events : List EventFrame) : Prop where
  starts : t.starts = events.filterMap startOf
  exits : t.exits = events.filterMap exitOf
  terminations : t.terminations = events.filterMap terminationOf
  cleanups : t.cleanups = events.filterMap cleanupOf
  launchFailures : t.launchFailures = events.filterMap launchFailureOf
  activations : t.activations = events.filterMap activationOf
  restorations : t.restorations = events.filterMap restorationOf
  streams : ∀ invocation, StreamsMirror (t.streams invocation) events invocation

theorem filterMap_snoc {α β : Type} (f : α → Option β) (l : List α) (a : α) :
    (l ++ [a]).filterMap f = l.filterMap f ++ (f a).toList := by
  rw [List.filterMap_append]
  cases h : f a <;> simp [h]

/-- A frame that is no output and no input of an invocation leaves its streams mirrored. -/
theorem StreamsMirror.other {s : InvocationStreams} {events : List EventFrame} {invocation : Nat}
    {frame : EventFrame} (h : StreamsMirror s events invocation)
    (hout : ∀ stream, outputOf frame invocation stream = [])
    (hframe : isOutputOf frame invocation = false) (hdata : ∀ eof, isInputOf frame invocation eof = false) :
    StreamsMirror s (events ++ [frame]) invocation := by
  refine ⟨fun stream => ?_, h.splits, ?_, ?_, ?_⟩
  · rw [h.bytes stream]
    simp [streamBytes, hout stream]
  · rw [h.frames]
    simp [frameCount, hframe]
  · rw [h.data]
    simp [dataInputs, hdata false]
  · rw [h.eofs]
    simp [eofCount, hdata true]

/-- An output frame extends the mirror of its own invocation. -/
theorem StreamsMirror.output {s : InvocationStreams} {events : List EventFrame} {invocation : Nat}
    {frame : EventFrame} {stream : OutputStream} {offset sequence : Nat} {bytes : Text} {data : Bytes}
    (h : StreamsMirror s events invocation)
    (hev : frame.event = .workloadOutput invocation stream offset sequence bytes)
    (hd : decodeBytes bytes maxOutputFrameBytes = .ok data) :
    StreamsMirror (s.push frame.eventId invocation stream offset sequence data)
        (events ++ [frame]) invocation := by
  have hspec := s.push_spec frame.eventId invocation stream offset sequence data
  refine ⟨fun other => ?_, fun other => ?_, ?_, ?_, ?_⟩
  · rw [hspec.streams other, streamBytes, List.flatMap_append, ← streamBytes, ← h.bytes other]
    by_cases ho : other = stream
    · subst ho
      simp [LineStream.bytes_push, outputOf, hev, hd, Except.toOption]
    · have ho' : ¬ stream = other := fun h => ho h.symm
      simp [ho, ho', outputOf, hev]
  · rw [hspec.streams other]
    split
    · exact LineStream.splits_push (h.splits stream) _ _ _
    · exact h.splits other
  · rw [hspec.frames_eq, h.frames]
    simp [frameCount, isOutputOf, hev]
  · rw [hspec.input.dataInputEvents, h.data]
    simp [dataInputs, isInputOf, hev]
  · rw [hspec.input.eofInputs, h.eofs]
    simp [eofCount, isInputOf, hev]

/-- An accepted input extends the mirror of its own invocation. -/
theorem StreamsMirror.input {s : InvocationStreams} {events : List EventFrame} {invocation : Nat}
    {frame : EventFrame} {offset bytes : Nat} {eof : Bool} (h : StreamsMirror s events invocation)
    (hev : frame.event = .inputAccepted invocation offset bytes eof) :
    StreamsMirror (s.pushInput invocation frame.eventId frame.commandId offset bytes eof) (events ++ [frame])
      invocation := by
  have hspec := s.pushInput_spec invocation frame.eventId frame.commandId offset bytes eof
  refine ⟨fun other => ?_, fun other => ?_, ?_, ?_, ?_⟩
  · rw [hspec.streams other, h.bytes other]
    simp [streamBytes, outputOf, hev]
  · rw [hspec.streams other]
    exact h.splits other
  · rw [hspec.frames, h.frames]
    simp [frameCount, isOutputOf, hev]
  · rw [hspec.dataInputEvents, h.data]
    cases eof <;> simp [dataInputs, isInputOf, hev]
  · rw [hspec.eofInputs, h.eofs]
    cases eof <;> simp [eofCount, isInputOf, hev]

/-- Every other invocation than that of an output or input frame keeps its mirror. -/
theorem StreamsMirror.setStreams {t : WorkloadTrace} {events : List EventFrame} {invocation : Nat}
    {frame : EventFrame} {s : InvocationStreams} (h : ∀ k, StreamsMirror (t.streams k) events k)
    (hs : StreamsMirror s (events ++ [frame]) invocation)
    (hout : ∀ k, k ≠ invocation → (∀ stream, outputOf frame k stream = []) ∧ isOutputOf frame k = false ∧
      ∀ eof, isInputOf frame k eof = false) (k : Nat) :
    StreamsMirror ((t.setStreams invocation s).streams k) (events ++ [frame]) k := by
  rw [WorkloadTrace.streams_setStreams]
  split
  · rename_i hk
    exact hk ▸ hs
  · rename_i hk
    obtain ⟨h1, h2, h3⟩ := hout k (fun h => hk h.symm)
    exact (h k).other h1 h2 h3

/-- The frame is one of those that only reach the streams of an invocation. -/
def OnlyStreams (frame : EventFrame) : Prop :=
  startOf frame = none ∧ exitOf frame = none ∧ terminationOf frame = none ∧ cleanupOf frame = none ∧
    launchFailureOf frame = none ∧ activationOf frame = none ∧ restorationOf frame = none

theorem Mirrors.setStreams {t : WorkloadTrace} {events : List EventFrame} {frame : EventFrame} {invocation : Nat}
    {s : InvocationStreams} (h : Mirrors t events) (hframe : OnlyStreams frame)
    (hs : ∀ k, StreamsMirror ((t.setStreams invocation s).streams k) (events ++ [frame]) k) :
    Mirrors (t.setStreams invocation s) (events ++ [frame]) := by
  obtain ⟨h1, h2, h3, h4, h5, h6, h7⟩ := hframe
  refine ⟨?_, ?_, ?_, ?_, ?_, ?_, ?_, hs⟩
  · rw [filterMap_snoc, h1, Option.toList_none, List.append_nil]
    exact h.starts
  · rw [filterMap_snoc, h2, Option.toList_none, List.append_nil]
    exact h.exits
  · rw [filterMap_snoc, h3, Option.toList_none, List.append_nil]
    exact h.terminations
  · rw [filterMap_snoc, h4, Option.toList_none, List.append_nil]
    exact h.cleanups
  · rw [filterMap_snoc, h5, Option.toList_none, List.append_nil]
    exact h.launchFailures
  · rw [filterMap_snoc, h6, Option.toList_none, List.append_nil]
    exact h.activations
  · rw [filterMap_snoc, h7, Option.toList_none, List.append_nil]
    exact h.restorations

/-- **One admitted frame extends the mirror.** -/
theorem Mirrors.push {t : WorkloadTrace} {events : List EventFrame} {frame : EventFrame} (h : Mirrors t events)
    (hadm : t.Admits frame) : Mirrors (t.push frame) (events ++ [frame]) := by
  rw [WorkloadTrace.push_of_admits hadm]
  unfold WorkloadTrace.record
  cases hev : frame.event
  case workloadOutput invocation stream offset sequence bytes =>
    unfold WorkloadTrace.Admits at hadm
    rw [hev] at hadm
    obtain ⟨-, -, ⟨data, hd⟩, -⟩ := hadm
    dsimp only
    rw [hd]
    refine h.setStreams (by simp [OnlyStreams, startOf, exitOf, terminationOf, cleanupOf, launchFailureOf,
      activationOf, restorationOf, hev]) ?_
    refine StreamsMirror.setStreams h.streams ((h.streams invocation).output hev hd) (fun k hk => ?_)
    have hk' : ¬ invocation = k := fun h => hk h.symm
    simp [outputOf, isOutputOf, isInputOf, hev, hk']
  case inputAccepted invocation offset bytes eof =>
    refine h.setStreams (by simp [OnlyStreams, startOf, exitOf, terminationOf, cleanupOf, launchFailureOf,
      activationOf, restorationOf, hev]) ?_
    refine StreamsMirror.setStreams h.streams ((h.streams invocation).input hev) (fun k hk => ?_)
    have hk' : ¬ invocation = k := fun h => hk h.symm
    simp [outputOf, isOutputOf, isInputOf, hev, hk']
  all_goals
    refine ⟨?_, ?_, ?_, ?_, ?_, ?_, ?_, fun k => (h.streams k).other ?_ ?_ ?_⟩
    · simp [startOf, hev, h.starts]
    · simp [exitOf, hev, h.exits]
    · simp [terminationOf, hev, h.terminations]
    · simp [cleanupOf, hev, h.cleanups]
    · simp [launchFailureOf, hev, h.launchFailures]
    · simp [activationOf, hev, h.activations]
    · simp [restorationOf, hev, h.restorations]
    · simp [outputOf, hev]
    · simp [isOutputOf, hev]
    · simp [isInputOf, hev]

theorem mirrors_default : Mirrors {} [] := by
  refine ⟨rfl, rfl, rfl, rfl, rfl, rfl, rfl, fun k => ?_⟩
  have hempty : ({} : WorkloadTrace).streams k = {} := by
    unfold WorkloadTrace.streams
    rw [Std.ExtTreeMap.getElem?_empty]
    rfl
  rw [hempty]
  exact ⟨fun s => by cases s <;> rfl, fun s => by cases s <;> exact LineStream.splits_default, rfl, rfl, rfl⟩

/-- **The trace of a sound run mirrors its events.** -/
theorem mirrors_of_sound : ∀ {events : List EventFrame}, (WorkloadTrace.ofEvents events).Sound →
    Mirrors (WorkloadTrace.ofEvents events) events := by
  intro events
  induction events using List.reverseRecOn with
  | nil => exact fun _ => mirrors_default
  | append_singleton events frame ih =>
    intro h
    have hadm : (WorkloadTrace.ofEvents events).Admits frame :=
      WorkloadTrace.admits_of_sound (show (WorkloadTrace.ofEvents (events ++ frame :: [])).Sound from h)
    rw [WorkloadTrace.ofEvents_snoc]
    exact (ih h.initial).push hadm

end SimFerret.Checker
