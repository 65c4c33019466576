import SimFerret.Driver.Conforming
import SimFerret.Driver.Discipline
import SimFerret.Driver.Exchange

/-!
# SimFerret.Driver.Lawful — what the commands of a workload run rest on

* `Permitted`: what a command needs of the exchange before it.
* `Lawful`: every command of an exchange is permitted at its place.
* `Tracks`: what the controller knows between two steps of the plan.
* `runStep_ends`, `runSteps_ends`, `driveWorkloadScenario_ends`: one step, the plan, the whole run, wherever it
  ends.
* `drivers_disciplined`: **neither drive sends a command that the agent refuses for its flags, and every command
  of a workload run is permitted**.
-/

namespace SimFerret.Driver

open Checker Workload Action RunContext
open Guest (Flags)

/-! ## Transcripts -/

/-- What the commands of a transcript made of the agent's flags. -/
def flagsOf (transcript : List Exchanged) : Flags :=
  ({} : Flags).after ((commandsIn transcript).map CommandFrame.command)

/-- The number of bytes that hexadecimal digits stand for. -/
def byteCount (bytes : Text) : Nat := bytes.length / 2

/-- The bytes that a command writes to an invocation. -/
def writesTo (k : Nat) : Command → Nat
  | .stdinWrite invocation _ bytes => if invocation = k then byteCount bytes else 0
  | _ => 0

/-- The bytes written to an invocation. -/
def written (transcript : List Exchanged) (k : Nat) : Nat :=
  ((commandsIn transcript).map fun frame => writesTo k frame.command).sum

/-- The input of an invocation was closed. -/
def InputClosed (transcript : List Exchanged) (k : Nat) : Prop :=
  ∃ frame ∈ commandsIn transcript, frame.command = .stdinEof k ∨ frame.command = .terminate k

/-- Every write to an invocation was acknowledged with its length. -/
def WritesAcknowledged (transcript : List Exchanged) (k : Nat) : Prop :=
  ∀ frame ∈ commandsIn transcript, ∀ offset bytes, frame.command = .stdinWrite k offset bytes →
    ∃ answer, .received answer ∈ transcript ∧ answer.commandId = frame.commandId ∧
      answer.event = .inputAccepted k (offset + byteCount bytes) (byteCount bytes) false

/-- An invocation was terminated: its exit was received, and then the cleanup that answers the termination. -/
def Terminated (transcript : List Exchanged) (k : Nat) : Prop :=
  ∃ termination ∈ commandsIn transcript, termination.command = .terminate k ∧
    ∃ earlier exit middle cleanup later,
      transcript = earlier ++ .received exit :: (middle ++ .received cleanup :: later) ∧
      (∃ status stdoutBytes stdoutSha256 stderrBytes stderrSha256 frames,
        exit.event = .workloadExited k status stdoutBytes stdoutSha256 stderrBytes stderrSha256 frames) ∧
      cleanup.commandId = termination.commandId ∧ ∃ invocation reaped,
        cleanup.event = .cleanupComplete invocation reaped

/-- What a command needs of the exchange before it. -/
structure Permitted (transcript : List Exchanged) (command : Command) : Prop where
  gate : (flagsOf transcript).gate command = .ok ()
  write : ∀ k offset bytes, command = .stdinWrite k offset bytes →
    offset = written transcript k ∧ WritesAcknowledged transcript k ∧ ¬ InputClosed transcript k
  close : ∀ k, command = .stdinEof k → ¬ InputClosed transcript k
  restart : ∀ launch, command = .start 2 launch → Terminated transcript 1

/-- What is exchanged is permitted after what was exchanged before it. -/
def PermittedAfter (earlier : List Exchanged) (exchanged : Exchanged) : Prop :=
  ∀ frame, exchanged = .sent frame → Permitted earlier frame.command

/-- Every command of an exchange is permitted at its place. -/
def Lawful (transcript : List Exchanged) : Prop :=
  ∀ earlier exchanged later, transcript = earlier ++ exchanged :: later → PermittedAfter earlier exchanged

section Transcript

variable {transcript : List Exchanged} {frames : List EventFrame} {frame : CommandFrame} {k : Nat}

theorem lawful_nil : Lawful [] := by
  intro earlier exchanged later h
  simp at h

theorem Lawful.sent (h : Lawful transcript) (hpermitted : Permitted transcript frame.command) :
    Lawful (transcript ++ [.sent frame]) := by
  refine forall_split_snoc (P := PermittedAfter) h fun other heq => ?_
  cases heq
  exact hpermitted

theorem Lawful.received (h : Lawful transcript) : ∀ frames : List EventFrame,
    Lawful (transcript ++ frames.map .received) := by
  intro frames
  induction frames using List.reverseRecOn with
  | nil => simpa using h
  | append_singleton frames last ih =>
    rw [List.map_append, ← List.append_assoc]
    refine forall_split_snoc (P := PermittedAfter) ih fun frame heq => ?_
    cases heq

theorem flagsOf_sent (transcript : List Exchanged) (frame : CommandFrame) :
    flagsOf (transcript ++ [.sent frame]) = (flagsOf transcript).next frame.command := by
  rw [flagsOf, commandsIn_sent, List.map_append]
  exact Flags.after_snoc _ _ _

theorem flagsOf_received (transcript : List Exchanged) (frames : List EventFrame) :
    flagsOf (transcript ++ frames.map .received) = flagsOf transcript := by
  rw [flagsOf, commandsIn_received, flagsOf]

theorem written_sent (transcript : List Exchanged) (frame : CommandFrame) (k : Nat) :
    written (transcript ++ [.sent frame]) k = written transcript k + writesTo k frame.command := by
  simp [written, commandsIn_sent]

theorem written_received (transcript : List Exchanged) (frames : List EventFrame) (k : Nat) :
    written (transcript ++ frames.map .received) k = written transcript k := by
  rw [written, commandsIn_received, written]

theorem inputClosed_received : InputClosed (transcript ++ frames.map .received) k ↔ InputClosed transcript k := by
  rw [InputClosed, commandsIn_received, InputClosed]

theorem inputClosed_sent : InputClosed (transcript ++ [.sent frame]) k ↔
    InputClosed transcript k ∨ frame.command = .stdinEof k ∨ frame.command = .terminate k := by
  simp [InputClosed, commandsIn_sent, or_and_right, exists_or]

theorem WritesAcknowledged.received (h : WritesAcknowledged transcript k) (frames : List EventFrame) :
    WritesAcknowledged (transcript ++ frames.map .received) k := by
  intro frame hframe offset bytes hwrite
  rw [commandsIn_received] at hframe
  obtain ⟨answer, hanswer, hrest⟩ := h frame hframe offset bytes hwrite
  exact ⟨answer, List.mem_append_left _ hanswer, hrest⟩

/-- A command leaves the writes acknowledged if it is not one, or once it is acknowledged itself. -/
theorem WritesAcknowledged.sent (h : WritesAcknowledged transcript k) (frames : List EventFrame)
    (hanswer : ∀ offset bytes, frame.command = .stdinWrite k offset bytes → ∃ answer ∈ frames,
      answer.commandId = frame.commandId ∧
        answer.event = .inputAccepted k (offset + byteCount bytes) (byteCount bytes) false) :
    WritesAcknowledged (transcript ++ [.sent frame] ++ frames.map .received) k := by
  intro command hcommand offset bytes hwrite
  rw [commandsIn_received, commandsIn_sent] at hcommand
  rcases List.mem_append.mp hcommand with hcommand | hlast
  · obtain ⟨answer, hanswer, hrest⟩ := h command hcommand offset bytes hwrite
    exact ⟨answer, by simp [hanswer], hrest⟩
  · rw [List.mem_singleton.mp hlast] at hwrite ⊢
    obtain ⟨answer, hmem, hrest⟩ := hanswer offset bytes hwrite
    exact ⟨answer, by simp [hmem], hrest⟩

/-- What was received stays received. -/
theorem Terminated.append (h : Terminated transcript k)
    (more : List Exchanged) : Terminated (transcript ++ more) k := by
  obtain ⟨termination, hmem, hterminate, earlier, exit, middle, cleanup, later, rfl, hrest⟩ := h
  refine ⟨termination, ?_, hterminate, earlier, exit, middle, cleanup, later ++ more, by simp, hrest⟩
  rw [commandsIn, List.filterMap_append]
  exact List.mem_append_left _ hmem

end Transcript

/-! ## Receiving -/

theorem receptive_lawful : Receptive Lawful := fun _ frame h => h.received [frame]

/-- A failed drive leaves a lawful exchange. -/
abbrev LeavesLawful : Interruption → Prop := Leaves Lawful

theorem Heard.lawful {frames : List EventFrame} {c c' : WorkloadController} (h : Heard frames c c')
    (hlawful : Lawful c.transcript) : Lawful c'.transcript :=
  h.keeps receptive_lawful hlawful

/-! ## What the controller knows -/

/-- What holds at every time: the exchange is lawful, and the controller's copy of the outage is right. -/
structure Consistent (c : WorkloadController) : Prop where
  lawful : Lawful c.transcript
  flags : flagsOf c.transcript = ⟨true, c.outageActive⟩

/-- What is known of the inputs of the invocations after the steps `done`. -/
structure Inputs (done : List WorkloadStep) (c : WorkloadController) : Prop where
  closed : ∀ k, InputClosed c.transcript k → .terminate k ∈ done ∨ .stdinEof k ∈ done
  offset : ∀ k, c.offset k = written c.transcript k
  acknowledged : ∀ k, WritesAcknowledged c.transcript k

/-- What holds between two steps of the plan, after the steps `done`. -/
structure Tracks (done : List WorkloadStep) (c : WorkloadController) : Prop extends Consistent c,
    Inputs done c where
  outage : c.outageActive = true ↔ .activate ∈ done ∧ .restore ∉ done
  terminated : .terminate 1 ∈ done → Terminated c.transcript 1

/-- What holds after a step: a step that stops the drive leaves at least a consistent controller. -/
structure AfterStep (done : List WorkloadStep) (step : WorkloadStep) (stopped : Bool)
    (c : WorkloadController) : Prop where
  consistent : Consistent c
  tracks : stopped = false → Tracks (done ++ [step]) c

section Tracks

variable {done : List WorkloadStep} {step : WorkloadStep} {c c' : WorkloadController} {frames : List EventFrame}
  {command : Command}

theorem Consistent.heard (h : Consistent c) (hheard : Heard frames c c') : Consistent c' :=
  ⟨hheard.lawful h.lawful, by rw [hheard.transcript, flagsOf_received, h.flags, hheard.outage]⟩

theorem Inputs.heard (h : Inputs done c) (hheard : Heard frames c c') : Inputs done c' where
  closed k hk := by
    rw [hheard.transcript, inputClosed_received] at hk
    exact h.closed k hk
  offset k := by
    rw [hheard.transcript, written_received, ← h.offset, WorkloadController.offset, WorkloadController.offset,
      hheard.offsets]
  acknowledged k := by
    rw [hheard.transcript]
    exact (h.acknowledged k).received frames

theorem Tracks.heard (h : Tracks done c) (hheard : Heard frames c c') : Tracks done c' := by
  refine ⟨h.toConsistent.heard hheard, h.toInputs.heard hheard, by rw [hheard.outage, h.outage], fun hmem => ?_⟩
  rw [hheard.transcript]
  exact (h.terminated hmem).append _

theorem Inputs.snoc (h : Inputs done c) (step : WorkloadStep) : Inputs (done ++ [step]) c where
  closed k hk := (h.closed k hk).imp (List.mem_append_left _) (List.mem_append_left _)
  offset := h.offset
  acknowledged := h.acknowledged

/-- A step without a transition or a termination of the first invocation adds nothing to what is known. -/
theorem Tracks.snoc (h : Tracks done c) (hactivate : step ≠ .activate) (hrestore : step ≠ .restore)
    (hterminate : step ≠ .terminate 1) : Tracks (done ++ [step]) c := by
  refine ⟨h.toConsistent, h.toInputs.snoc step, by simp [h.outage, hactivate.symm, hrestore.symm], fun hmem => ?_⟩
  refine h.terminated ?_
  simpa [hterminate.symm] using hmem

/-- A command that writes nothing leaves what is known, but for the input that it closes. -/
theorem Inputs.record (h : Inputs done c) (hwrite : ∀ k offset bytes, command ≠ .stdinWrite k offset bytes)
    {more : List WorkloadStep} (hmore : ∀ step ∈ done, step ∈ more)
    (hclose : ∀ k, command = .stdinEof k ∨ command = .terminate k → .terminate k ∈ more ∨ .stdinEof k ∈ more) :
    Inputs more (c.record command) where
  closed k hk := by
    change InputClosed (c.transcript ++ [.sent _]) k at hk
    rcases inputClosed_sent.mp hk with hk | hk
    · exact (h.closed k hk).imp (hmore _) (hmore _)
    · exact hclose k hk
  offset k := by
    show c.offset k = written (c.transcript ++ [.sent _]) k
    rw [written_sent, ← h.offset]
    cases command with
    | stdinWrite j offset bytes => exact absurd rfl (hwrite j offset bytes)
    | _ => rfl
  acknowledged k := by
    have hsent := @WritesAcknowledged.sent _ ⟨protocolVersion, c.nextCommandId, command⟩ _ (h.acknowledged k) []
      fun offset bytes heq => absurd heq (hwrite k offset bytes)
    rwa [List.map_nil, List.append_nil] at hsent

/-- A command that starts an invocation or changes the network leaves what is known of the inputs. -/
theorem Inputs.record_other (h : Inputs done c) (hwrite : ∀ k offset bytes, command ≠ .stdinWrite k offset bytes)
    (hclose : ∀ k, command ≠ .stdinEof k ∧ command ≠ .terminate k) : Inputs done (c.record command) := by
  refine h.record hwrite (fun _ hmem => hmem) fun k hclosed => ?_
  rcases hclosed with hclosed | hclosed
  · exact absurd hclosed (hclose k).1
  · exact absurd hclosed (hclose k).2

/-- A permitted command that does not change the flags keeps the exchange consistent. -/
theorem Consistent.record (h : Consistent c) (hpermitted : Permitted c.transcript command)
    (hflags : ∀ f : Flags, f.next command = f) : Consistent (c.record command) := by
  refine ⟨@Lawful.sent _ ⟨protocolVersion, c.nextCommandId, command⟩ h.lawful hpermitted, ?_⟩
  show flagsOf (c.transcript ++ [.sent _]) = _
  rw [flagsOf_sent, hflags, h.flags]
  rfl

/-- A command that the flags do not gate and that neither writes nor starts anything. -/
theorem permitted_of_gate (hgate : (flagsOf c.transcript).gate command = .ok ())
    (hwrite : ∀ k offset bytes, command ≠ .stdinWrite k offset bytes) (hclose : ∀ k, command ≠ .stdinEof k)
    (hstart : ∀ k launch, command ≠ .start k launch) : Permitted c.transcript command :=
  ⟨hgate, fun k offset bytes h => absurd h (hwrite k offset bytes), fun k h => absurd h (hclose k),
    fun launch h => absurd h (hstart 2 launch)⟩

theorem issue_ends {s : List Delivery × WorkloadController} (h : Lawful s.2.transcript)
    (hpermitted : Permitted s.2.transcript command) :
    Ends LeavesLawful (issue command) s fun id s' => id = s.2.nextCommandId ∧ s'.2 = s.2.record command := by
  have hrecord : Lawful (s.2.record command).transcript :=
    @Lawful.sent _ ⟨protocolVersion, s.2.nextCommandId, command⟩ h hpermitted
  constructor
  · intro e he
    unfold issue at he
    split at he
    · cases he
      exact hrecord
    · cases he
  · intro id s' hok
    exact issue_ok hok

theorem byteCount_encodeBytes (text : Text) : byteCount (encodeBytes text) = text.length := by
  rw [byteCount, length_encodeBytes]
  omega

/-- The controller after an acknowledged write: the offset is the number of bytes written. -/
theorem Tracks.write (h : Tracks done c) {k : Nat} {text : Text} {last : EventFrame}
    (hheard : Heard (frames ++ [last]) (c.record (.stdinWrite k (c.offset k) (encodeBytes text))) c')
    (hconsistent : Consistent c') (hid : last.commandId = c.nextCommandId)
    (hevent : last.event = .inputAccepted k (c.offset k + text.length) text.length false) :
    Tracks done { c' with offsets := c'.offsets.insert k (c.offset k + text.length) } := by
  have htranscript := hheard.transcript
  have hoffsets : c'.offsets = c.offsets := hheard.offsets
  have hcount := byteCount_encodeBytes text
  refine ⟨⟨hconsistent.lawful, hconsistent.flags⟩, ⟨fun j hj => ?_, fun j => ?_, fun j => ?_⟩, ?_, fun hmem => ?_⟩
  · change InputClosed c'.transcript j at hj
    rw [htranscript, inputClosed_received] at hj
    rcases inputClosed_sent.mp hj with hj | hj | hj
    · exact h.closed j hj
    · cases hj
    · cases hj
  · show ((c'.offsets.insert k (c.offset k + text.length))[j]?).getD 0 = written c'.transcript j
    rw [htranscript, written_received]
    show _ = written (c.transcript ++ [.sent _]) j
    rw [written_sent, ← h.offset, Std.ExtTreeMap.getElem?_insert, hoffsets, writesTo, hcount]
    by_cases hjk : k = j
    · subst hjk
      simp
    · simp [hjk, WorkloadController.offset]
  · show WritesAcknowledged c'.transcript j
    rw [htranscript]
    refine (h.acknowledged j).sent (frames ++ [last]) fun offset bytes hwrite => ⟨last, by simp, hid, ?_⟩
    simp only [Command.stdinWrite.injEq] at hwrite
    obtain ⟨rfl, rfl, rfl⟩ := hwrite
    rw [hcount]
    exact hevent
  · show c'.outageActive = true ↔ _
    rw [hheard.outage]
    exact h.outage
  · show Terminated c'.transcript 1
    rw [htranscript]
    exact ((h.terminated hmem).append _).append _

/-- A write is permitted, and once it is acknowledged the drive goes on from what it knew. -/
theorem writeStdin_ends {k : Nat} {text : Text} {s : List Delivery × WorkloadController} (h : Tracks done s.2)
    (hopen : .terminate k ∉ done ∧ .stdinEof k ∉ done) :
    Ends LeavesLawful (writeStdin k text) s fun wrote s' => Consistent s'.2 ∧
        (wrote = true → Tracks done s'.2) := by
  refine (drainLoop_ends receptive_lawful h.lawful).bind fun _ s₁ hs₁ => ?_
  obtain ⟨frames, hheard⟩ := hs₁
  have h₁ := h.heard hheard
  refine (isHealthy_ends k).bind fun healthy s₂ hs₂ => ?_
  subst hs₂
  split
  · exact ends_pure ⟨h₁.toConsistent, fun hwrote => absurd hwrote Bool.false_ne_true⟩
  refine (controller_ends s₂).bind fun c s₃ hs₃ => ?_
  obtain ⟨rfl, rfl⟩ := hs₃
  have hpermitted : Permitted s₃.2.transcript (.stdinWrite k (s₃.2.offset k) (encodeBytes text)) := by
    refine ⟨rfl, fun j offset bytes heq => ?_, fun j heq => (nomatch heq), fun launch heq => (nomatch heq)⟩
    simp only [Command.stdinWrite.injEq] at heq
    obtain ⟨rfl, rfl, rfl⟩ := heq
    refine ⟨h₁.offset k, h₁.acknowledged k, fun hclosed => ?_⟩
    rcases h₁.closed k hclosed with hmem | hmem
    · exact hopen.1 hmem
    · exact hopen.2 hmem
  refine (issue_ends h₁.lawful hpermitted).bind fun id s₄ hs₄ => ?_
  obtain ⟨rfl, hs₄⟩ := hs₄
  have h₄ : Consistent s₄.2 := hs₄ ▸ h₁.toConsistent.record hpermitted fun _ => rfl
  refine (awaitInputAccepted_ends receptive_lawful h₄.lawful).bind fun accepted s₅ hs₅ => ?_
  obtain ⟨frames', last, hheard', haccepted⟩ := hs₅
  have h₅ := h₄.heard hheard'
  cases accepted with
  | false => exact ends_pure ⟨h₅, fun hwrote => absurd hwrote Bool.false_ne_true⟩
  | true =>
    obtain ⟨hid, hevent⟩ := haccepted rfl
    rw [hs₄] at hheard'
    have hwrite := h₁.write hheard' h₅ hid hevent
    exact ends_of_ok rfl ⟨hwrite.toConsistent, fun _ => hwrite⟩

theorem exchange_ends {k : Nat} {text expected : Text} {s : List Delivery × WorkloadController}
    (h : Tracks done s.2) (hopen : .terminate k ∉ done ∧ .stdinEof k ∉ done) :
    Ends LeavesLawful (exchange k text expected) s fun stopped s' =>
      Consistent s'.2 ∧ (stopped = false → Tracks done s'.2) := by
  refine (writeStdin_ends h hopen).bind fun wrote s₁ hs₁ => ?_
  obtain ⟨hconsistent, htracks⟩ := hs₁
  cases wrote with
  | false => exact ends_pure ⟨hconsistent, fun hgo => by cases hgo⟩
  | true =>
    refine (lineLoop_ends receptive_lawful hconsistent.lawful).bind fun matched s₂ hs₂ => ?_
    obtain ⟨frames, hheard⟩ := hs₂
    exact ends_pure ⟨hconsistent.heard hheard, fun _ => (htracks rfl).heard hheard⟩

/-- The commands of the outage and of its restoration. -/
theorem restoreNetwork_ends {scenario : WorkloadScenario} {s : List Delivery × WorkloadController}
    (h : Consistent s.2) (hactive : s.2.outageActive = true) :
    Ends LeavesLawful (restoreNetwork scenario) s fun _ s' =>
      ∃ frames, Heard frames (s.2.record (.restoreNetwork (peerCidr scenario))) s'.2 ∧ Lawful s'.2.transcript := by
  have hpermitted : Permitted s.2.transcript (.restoreNetwork (peerCidr scenario)) := by
    refine permitted_of_gate ?_ (fun _ _ _ => by simp) (fun _ => by simp) fun _ _ => by simp
    rw [h.flags, hactive]
    rfl
  refine (issue_ends h.lawful hpermitted).bind fun id s₁ hs₁ => ?_
  obtain ⟨-, hs₁⟩ := hs₁
  have hlawful : Lawful s₁.2.transcript := hs₁ ▸
    @Lawful.sent _ ⟨protocolVersion, s.2.nextCommandId, _⟩ h.lawful hpermitted
  refine (expect_ends receptive_lawful hlawful).bind fun frame s₂ hs₂ => ?_
  obtain ⟨frames, hheard, -⟩ := hs₂
  exact ends_pure ⟨frames ++ [frame], hs₁ ▸ hheard, hheard.lawful hlawful⟩

/-! ## The steps -/

variable {scenario : WorkloadScenario} {choices : WorkloadChoicePlan} {launch : LaunchIdentity}
  {s : List Delivery × WorkloadController} {k : Nat}

/-- What a step needs of the steps before it. -/
structure Placed (choices : WorkloadChoicePlan) (done : List WorkloadStep) (step : WorkloadStep) : Prop where
  allowed : Allowed choices done step
  restart : step = .start 2 → .terminate 1 ∈ done
  restore : step = .restore → .activate ∈ done
  activate : step = .activate → .restore ∉ done

theorem AfterStep.stop (h : Consistent c) : AfterStep done step true c := ⟨h, fun hgo => by cases hgo⟩

theorem runStep_dialogue_ends {input response : Text} (h : Tracks done s.2)
    (hdialogue : step.dialogue choices = some (k, input, response)) (hrunning : Running done k) :
    Ends LeavesLawful (runStep scenario choices launch step) s fun stopped s' =>
        AfterStep done step stopped s'.2 := by
  rw [runStep_dialogue hdialogue]
  refine (exchange_ends h ⟨hrunning.terminated, hrunning.closed⟩).mono fun stopped s' hs' => ⟨hs'.1, fun hgo => ?_⟩
  refine (hs'.2 hgo).snoc ?_ ?_ ?_
  · rintro rfl
    cases hdialogue
  · rintro rfl
    cases hdialogue
  · rintro rfl
    cases hdialogue

theorem runStep_start_ends (h : Tracks done s.2) (hplaced : Placed choices done (.start k)) :
    Ends LeavesLawful (runStep scenario choices launch (.start k)) s fun stopped s' =>
      AfterStep done (.start k) stopped s'.2 := by
  have hpermitted : Permitted s.2.transcript (.start k launch) := by
    refine ⟨rfl, fun j offset bytes heq => (nomatch heq), fun j heq => (nomatch heq), fun l heq => ?_⟩
    simp only [Command.start.injEq] at heq
    exact h.terminated (hplaced.restart (by rw [heq.1]))
  refine (issue_ends h.lawful hpermitted).bind fun id s₁ hs₁ => ?_
  obtain ⟨-, hs₁⟩ := hs₁
  have hinputs : Inputs done (s.2.record (.start k launch)) :=
    h.toInputs.record_other (fun _ _ _ => by simp) fun _ => by simp
  have h₁ : Tracks done s₁.2 := hs₁ ▸ ⟨h.toConsistent.record hpermitted fun _ => rfl, hinputs, h.outage,
    fun hmem => (h.terminated hmem).append _⟩
  refine (expect_ends receptive_lawful h₁.lawful).bind fun frame s₂ hs₂ => ?_
  obtain ⟨frames, hheard, -⟩ := hs₂
  have h₂ := h₁.heard hheard
  refine (lineLoop_ends receptive_lawful h₂.lawful).bind fun matched s₃ hs₃ => ?_
  obtain ⟨frames', hheard'⟩ := hs₃
  have h₃ := h₂.heard hheard'
  exact ends_pure ⟨h₃.toConsistent, fun _ => h₃.snoc (by simp) (by simp) (by simp)⟩

theorem runStep_activate_ends (h : Tracks done s.2) (hplaced : Placed choices done .activate) :
    Ends LeavesLawful (runStep scenario choices launch .activate) s fun stopped s' =>
      AfterStep done .activate stopped s'.2 := by
  have hoff : s.2.outageActive = false := by
    rw [Bool.eq_false_iff]
    exact fun hactive => hplaced.allowed (h.outage.mp hactive).1
  have hpermitted : Permitted s.2.transcript (.activateOutage (peerCidr scenario)) := by
    refine permitted_of_gate ?_ (fun _ _ _ => by simp) (fun _ => by simp) fun _ _ => by simp
    rw [h.flags, hoff]
    rfl
  refine (issue_ends h.lawful hpermitted).bind fun id s₁ hs₁ => ?_
  obtain ⟨-, hs₁⟩ := hs₁
  have hlawful : Lawful s₁.2.transcript :=
    hs₁ ▸ @Lawful.sent _ ⟨protocolVersion, s.2.nextCommandId, _⟩ h.lawful hpermitted
  refine (expect_ends receptive_lawful hlawful).bind fun frame s₂ hs₂ => ?_
  obtain ⟨frames, hheard, -⟩ := hs₂
  have hflags : flagsOf s₂.2.transcript = ⟨true, true⟩ := by
    rw [hheard.transcript, flagsOf_received, hs₁]
    show flagsOf (s.2.transcript ++ [.sent _]) = _
    rw [flagsOf_sent, h.flags]
    rfl
  have hinputs : Inputs done s₂.2 := by
    refine Inputs.heard ?_ hheard
    rw [hs₁]
    exact h.toInputs.record_other (fun _ _ _ => by simp) fun _ => by simp
  have hconsistent : Consistent { s₂.2 with outageActive := true } := ⟨hheard.lawful hlawful, hflags⟩
  have hsnoc := hinputs.snoc .activate
  refine ends_of_ok rfl ⟨hconsistent, fun _ =>
    ⟨hconsistent, ⟨hsnoc.closed, hsnoc.offset, hsnoc.acknowledged⟩, ?_, ?_⟩⟩
  · simp [hplaced.activate rfl]
  · intro hmem
    have hdone : .terminate 1 ∈ done := by simpa using hmem
    show Terminated s₂.2.transcript 1
    rw [hheard.transcript, hs₁]
    exact ((h.terminated hdone).append _).append _

theorem runStep_restore_ends (h : Tracks done s.2) (hplaced : Placed choices done .restore) :
    Ends LeavesLawful (runStep scenario choices launch .restore) s fun stopped s' =>
      AfterStep done .restore stopped s'.2 := by
  have hon : s.2.outageActive = true := h.outage.mpr ⟨hplaced.restore rfl, hplaced.allowed⟩
  refine (restoreNetwork_ends h.toConsistent hon).bind fun _ s₁ hs₁ => ?_
  obtain ⟨frames, hheard, hlawful⟩ := hs₁
  have hflags : flagsOf s₁.2.transcript = ⟨true, false⟩ := by
    rw [hheard.transcript, flagsOf_received]
    show flagsOf (s.2.transcript ++ [.sent _]) = _
    rw [flagsOf_sent, h.flags]
    rfl
  have hinputs : Inputs done s₁.2 :=
    (h.toInputs.record_other (fun _ _ _ => by simp) fun _ => by simp).heard hheard
  have hconsistent : Consistent { s₁.2 with outageActive := false } := ⟨hlawful, hflags⟩
  have hsnoc := hinputs.snoc .restore
  refine ends_of_ok rfl ⟨hconsistent, fun _ =>
    ⟨hconsistent, ⟨hsnoc.closed, hsnoc.offset, hsnoc.acknowledged⟩, ?_, ?_⟩⟩
  · simp
  · intro hmem
    have hdone : .terminate 1 ∈ done := by simpa using hmem
    show Terminated s₁.2.transcript 1
    rw [hheard.transcript]
    exact ((h.terminated hdone).append _).append _

theorem live_ends (h : Tracks done s.2) : Ends LeavesLawful (live k) s fun _ s' => Tracks done s'.2 := by
  refine (drainLoop_ends receptive_lawful h.lawful).bind fun _ s₁ hs₁ => ?_
  obtain ⟨frames, hheard⟩ := hs₁
  refine (controller_ends s₁).bind fun c s₂ hs₂ => ?_
  obtain ⟨rfl, rfl⟩ := hs₂
  exact ends_pure (h.heard hheard)

/-- A command that closes the input of an invocation, and the wait for its end. -/
theorem close_ends {description : Text} {predicate : Event → Bool} (h : Tracks done s.2)
    (hpermitted : Permitted s.2.transcript command) (hflags : ∀ f : Flags, f.next command = f) :
    Ends LeavesLawful (do
      let id ← issue command
      let _ ← expect id description false predicate
      awaitEnd id k) s fun stopped s' => ∃ frames, Heard frames (s.2.record command) s'.2 ∧ Consistent s'.2 ∧
        (stopped = false → ∃ seen exit middle cleanup, frames = seen ++ exit :: (middle ++ [cleanup]) ∧
          (∃ status stdoutBytes stdoutSha256 stderrBytes stderrSha256 count,
            exit.event = .workloadExited k status stdoutBytes stdoutSha256 stderrBytes stderrSha256 count) ∧
          cleanup.commandId = s.2.nextCommandId ∧
          ∃ invocation reaped, cleanup.event = .cleanupComplete invocation reaped) := by
  refine (issue_ends h.lawful hpermitted).bind fun id s₁ hs₁ => ?_
  obtain ⟨rfl, hs₁⟩ := hs₁
  have h₁ : Consistent s₁.2 := hs₁ ▸ h.toConsistent.record hpermitted hflags
  refine (expect_ends receptive_lawful h₁.lawful).bind fun frame s₂ hs₂ => ?_
  obtain ⟨frames, hheard, -⟩ := hs₂
  have h₂ := h₁.heard hheard
  refine (awaitEnd_ends receptive_lawful h₂.lawful).mono fun stopped s₃ hs₃ => ?_
  obtain ⟨frames', hheard', hend⟩ := hs₃
  refine ⟨_, hs₁ ▸ hheard.trans hheard', h₂.heard hheard', fun hgo => ?_⟩
  obtain ⟨seen, exit, middle, cleanup, rfl, hexit, hcleanup⟩ := hend hgo
  exact ⟨frames ++ [frame] ++ seen, exit, middle, cleanup, by simp, hexit, hcleanup⟩

theorem runStep_terminate_ends (h : Tracks done s.2) (hplaced : Placed choices done (.terminate k)) :
    Ends LeavesLawful (runStep scenario choices launch (.terminate k)) s fun stopped s' =>
      AfterStep done (.terminate k) stopped s'.2 := by
  refine (live_ends h).bind fun alive s₁ h₁ => ?_
  split
  · exact ends_pure (.stop h₁.toConsistent)
  refine (isHealthy_ends k).bind fun healthy s₂ hs₂ => ?_
  subst hs₂
  split
  · exact ends_pure (.stop h₁.toConsistent)
  have hpermitted : Permitted s₂.2.transcript (.terminate k) :=
    permitted_of_gate rfl (fun _ _ _ => by simp) (fun _ => by simp) fun _ _ => by simp
  refine (close_ends h₁ hpermitted fun _ => rfl).mono fun stopped s₃ hs₃ => ?_
  obtain ⟨frames, hheard, hconsistent, hend⟩ := hs₃
  refine ⟨hconsistent, fun hgo => ⟨hconsistent, ?_, ?_, fun hmem => ?_⟩⟩
  · refine (h₁.toInputs.record (fun _ _ _ => by simp) (fun _ => List.mem_append_left _)
        fun j hclose => ?_).heard hheard
    simp only [reduceCtorEq, Command.terminate.injEq, false_or] at hclose
    simp [hclose]
  · show _ = true ↔ _
    rw [hheard.outage]
    show s₂.2.outageActive = true ↔ _
    simpa using h₁.outage
  · rw [hheard.transcript]
    rcases List.mem_append.mp hmem with hmem | hmem
    · exact ((h₁.terminated hmem).append _).append _
    · -- the wait saw the exit and then the cleanup that answers the command
      obtain rfl : 1 = k := by simpa using hmem
      obtain ⟨seen, exit, middle, cleanup, rfl, hexit, hcleanup, hevent⟩ := hend hgo
      refine ⟨⟨protocolVersion, s₂.2.nextCommandId, .terminate 1⟩, ?_, rfl,
        s₂.2.transcript ++ [.sent ⟨protocolVersion, s₂.2.nextCommandId, .terminate 1⟩] ++ seen.map .received, exit,
        middle.map .received, cleanup, [], ?_, hexit, hcleanup, hevent⟩
      · rw [commandsIn_received]
        show _ ∈ commandsIn (s₂.2.transcript ++ [.sent _])
        rw [commandsIn_sent]
        exact List.mem_append_right _ List.mem_cons_self
      · simp [WorkloadController.record]

theorem runStep_stdinEof_ends (h : Tracks done s.2) (hplaced : Placed choices done (.stdinEof k)) :
    Ends LeavesLawful (runStep scenario choices launch (.stdinEof k)) s fun stopped s' =>
      AfterStep done (.stdinEof k) stopped s'.2 := by
  refine (live_ends h).bind fun alive s₁ h₁ => ?_
  split
  · exact ends_pure (.stop h₁.toConsistent)
  refine (isHealthy_ends k).bind fun healthy s₂ hs₂ => ?_
  subst hs₂
  split
  · exact ends_pure (.stop h₁.toConsistent)
  refine (controller_ends s₂).bind fun c s₃ hs₃ => ?_
  obtain ⟨rfl, rfl⟩ := hs₃
  have hrunning : Running done k := hplaced.allowed
  have hpermitted : Permitted s₃.2.transcript (.stdinEof k) := by
    refine ⟨rfl, fun j offset bytes heq => (nomatch heq), fun j heq hclosed => ?_, fun l heq => (nomatch heq)⟩
    simp only [Command.stdinEof.injEq] at heq
    subst heq
    rcases h₁.closed k hclosed with hmem | hmem
    · exact hrunning.terminated hmem
    · exact hrunning.closed hmem
  refine (close_ends h₁ hpermitted fun _ => rfl).mono fun stopped s₄ hs₄ => ?_
  obtain ⟨frames, hheard, hconsistent, -⟩ := hs₄
  refine ⟨hconsistent, fun hgo => ⟨hconsistent, ?_, ?_, fun hmem => ?_⟩⟩
  · refine (h₁.toInputs.record (fun _ _ _ => by simp) (fun _ => List.mem_append_left _)
        fun j hclose => ?_).heard hheard
    simp only [reduceCtorEq, Command.stdinEof.injEq, or_false] at hclose
    simp [hclose]
  · show _ = true ↔ _
    rw [hheard.outage]
    show s₃.2.outageActive = true ↔ _
    simpa using h₁.outage
  · have hdone : .terminate 1 ∈ done := by simpa using hmem
    rw [hheard.transcript]
    exact ((h₁.terminated hdone).append _).append _

/-- **One step of the plan**, whatever it receives. -/
theorem runStep_ends (h : Tracks done s.2) (hplaced : Placed choices done step) :
    Ends LeavesLawful (runStep scenario choices launch step) s fun stopped s' =>
        AfterStep done step stopped s'.2 := by
  have hline : ∀ {k input response}, step.dialogue choices = some (k, input, response) → Running done k →
      Ends LeavesLawful (runStep scenario choices launch step) s fun stopped s' =>
          AfterStep done step stopped s'.2 :=
    fun hdialogue hrunning => runStep_dialogue_ends h hdialogue hrunning
  cases step with
  | start k => exact runStep_start_ends h hplaced
  | activate => exact runStep_activate_ends h hplaced
  | restore => exact runStep_restore_ends h hplaced
  | terminate k => exact runStep_terminate_ends h hplaced
  | stdinEof k => exact runStep_stdinEof_ends h hplaced
  | echo k =>
    obtain ⟨j, input, response, hdialogue, hrunning, -⟩ := hplaced.allowed
    exact hline hdialogue hrunning
  | state k =>
    obtain ⟨j, input, response, hdialogue, hrunning, -⟩ := hplaced.allowed
    exact hline hdialogue hrunning
  | spawnDescendant k =>
    obtain ⟨j, input, response, hdialogue, hrunning, -⟩ := hplaced.allowed
    exact hline hdialogue hrunning
  | request k index =>
    obtain ⟨j, input, response, hdialogue, hrunning, -⟩ := hplaced.allowed
    exact hline hdialogue hrunning

/-- Every step of a list may follow the steps before it. -/
def WellPlaced (choices : WorkloadChoicePlan) (done steps : List WorkloadStep) : Prop :=
  ∀ earlier step later, steps = earlier ++ step :: later → Placed choices (done ++ earlier) step

/-- The steps of the plan until one stops the drive, by induction on them. -/
theorem runSteps_ends : ∀ {steps done : List WorkloadStep} {s : List Delivery × WorkloadController},
    Tracks done s.2 → WellPlaced choices done steps →
    Ends LeavesLawful (runSteps scenario choices launch steps) s fun stopped s' =>
      Consistent s'.2 ∧ (stopped = false → Tracks (done ++ steps) s'.2)
  | [], done, s, h, _ => ends_pure ⟨h.toConsistent, fun _ => by rwa [List.append_nil]⟩
  | step :: steps, done, s, h, hplaced => by
    have hfirst := hplaced [] step steps rfl
    rw [List.append_nil] at hfirst
    refine (runStep_ends h hfirst).bind fun stopped s₁ h₁ => ?_
    cases stopped with
    | true => exact ends_pure ⟨h₁.consistent, fun hgo => by cases hgo⟩
    | false =>
      refine (runSteps_ends (h₁.tracks rfl) fun earlier next later heq => ?_).mono fun stopped s₂ hs₂ => ?_
      · have hnext := hplaced (step :: earlier) next later (by rw [heq]; rfl)
        rwa [List.append_assoc]
      · refine ⟨hs₂.1, fun hgo => ?_⟩
        have htracks := hs₂.2 hgo
        rwa [List.append_assoc] at htracks

/-- What follows the steps: an outage that an early stop left is lifted before the shutdown. -/
theorem closeRun_ends {stopped : Bool} (h : Consistent s.2) (hover : stopped = false → s.2.outageActive = false) :
    Ends LeavesLawful (closeRun scenario stopped) s fun _ s' => Lawful s'.2.transcript := by
  have hshutdown : ∀ {s : List Delivery × WorkloadController}, Lawful s.2.transcript →
      flagsOf s.2.transcript = ⟨true, false⟩ → Ends LeavesLawful (do
        let shutdown ← issue .shutdown
        awaitStopped shutdown
        finishEvents) s fun _ s' => Lawful s'.2.transcript := by
    intro s hlawful hflags
    have hpermitted : Permitted s.2.transcript .shutdown := by
      refine permitted_of_gate ?_ (fun _ _ _ => by simp) (fun _ => by simp) fun _ _ => by simp
      rw [hflags]
      rfl
    refine (issue_ends hlawful hpermitted).bind fun id s₁ hs₁ => ?_
    obtain ⟨-, hs₁⟩ := hs₁
    have h₁ : Lawful s₁.2.transcript := hs₁ ▸ @Lawful.sent _ ⟨protocolVersion, s.2.nextCommandId,
      _⟩ hlawful hpermitted
    refine (receiveLoop_ends receptive_lawful h₁).bind fun _ s₂ hs₂ => ?_
    obtain ⟨frames, last, hheard, -⟩ := hs₂
    have h₂ := hheard.lawful h₁
    exact (finishEvents_ends h₂).mono fun _ s₃ hs₃ => hs₃ ▸ h₂
  refine (controller_ends s).bind fun c s₁ hs₁ => ?_
  obtain ⟨rfl, rfl⟩ := hs₁
  cases hactive : s₁.2.outageActive with
  | false =>
    have hflags := h.flags
    rw [hactive] at hflags
    simp only [Bool.and_false, Bool.false_eq_true, if_false]
    exact hshutdown h.lawful hflags
  | true =>
    cases stopped with
    | false => exact absurd (hactive.symm.trans (hover rfl)) (by simp)
    | true =>
      simp only [Bool.and_true, if_true]
      refine (drainLoop_ends receptive_lawful h.lawful).bind fun _ s₂ hs₂ => ?_
      obtain ⟨frames, hheard⟩ := hs₂
      have h₂ := h.heard hheard
      refine (restoreNetwork_ends h₂ (hheard.outage.trans hactive)).bind fun _ s₃ hs₃ => ?_
      obtain ⟨frames', hheard', hlawful⟩ := hs₃
      refine hshutdown hlawful ?_
      rw [hheard'.transcript, flagsOf_received]
      show flagsOf (s₂.2.transcript ++ [.sent _]) = _
      rw [flagsOf_sent, h₂.flags]
      rfl

end Tracks

/-! ## The run -/

section Run

variable {choices : WorkloadChoicePlan} {n payloadBytes : Nat}

/-- Every step of the plan may follow the steps before it. -/
theorem wellPlaced_workloadSteps (h : Planned choices n payloadBytes) : WellPlaced choices []
    (workloadSteps choices) := by
  intro earlier step later hplan
  refine ⟨orderly_workloadSteps h earlier step later hplan, fun hstep => ?_, fun hstep => ?_, fun hstep => ?_⟩
  · subst hstep
    have hfault : workloadSteps choices = (stepsBefore choices choices.processFaultRequestIndex ++
        [.spawnDescendant 1, .terminate 1]) ++ .start 2 ::
          ([.echo 2, .state 2, .request 2 choices.processFaultRequestIndex] ++
        (List.range' (choices.processFaultRequestIndex + 1) (n - (choices.processFaultRequestIndex + 1))).flatMap
          (requestBlock choices) ++ [.stdinEof 2]) := by
      rw [workloadSteps_eq h.bounds, stepsBefore_split choices h.bounds.fault_lt,
        requestBlock_fault h.bounds, faultSteps]
      simp
    rw [position_unique h.bounds hfault hplan]
    simp
  · subst hstep
    obtain ⟨rest, hrestore⟩ := plan_around_transition h.bounds h.bounds.restoration_lt
      (requestBlock_restoration h.bounds)
    rw [position_unique h.bounds hrestore hplan]
    exact (doneBefore_stepsBefore choices _).activated.mpr h.bounds.activation_lt
  · subst hstep
    obtain ⟨rest, hactivate⟩ := plan_around_transition h.bounds
      (lt_trans h.bounds.activation_lt h.bounds.restoration_lt) (requestBlock_activation h.bounds)
    rw [position_unique h.bounds hactivate hplan]
    intro hmem
    have := (doneBefore_stepsBefore choices _).restored.mp hmem
    have := h.bounds.activation_lt
    omega

/-- The configuration that opens every run. -/
theorem configureNetwork_ends (scenario : WorkloadScenario) (queue : List Delivery)
    (sends : List (IoResult Unit)) : Ends LeavesLawful (configureNetwork scenario)
    (queue, { sends := sends }) fun _ s' => Tracks [] s'.2 := by
  set command := Command.configureNetwork networkInterface guestCidr scenario.fixturePeer with hcommand
  have hpermitted : Permitted [] command :=
    ⟨rfl, fun j offset bytes heq => (nomatch heq), fun j heq => (nomatch heq), fun l heq => (nomatch heq)⟩
  refine (@issue_ends command (queue, { sends := sends }) lawful_nil hpermitted).bind fun id s₁ hs₁ => ?_
  obtain ⟨-, hs₁⟩ := hs₁
  have htranscript : s₁.2.transcript = [.sent ⟨protocolVersion, 1, command⟩] := by rw [hs₁]; rfl
  have hcommands : commandsIn s₁.2.transcript = [⟨protocolVersion, 1, command⟩] := by rw [htranscript]; rfl
  have hlawful : Lawful s₁.2.transcript := htranscript ▸ @Lawful.sent [] _ lawful_nil hpermitted
  have hflags : flagsOf s₁.2.transcript = ⟨true, s₁.2.outageActive⟩ := by rw [flagsOf, hcommands, hs₁]; rfl
  have h₁ : Tracks [] s₁.2 := by
    refine ⟨⟨hlawful, hflags⟩, ⟨fun k hk => ?_, fun k => ?_, fun k frame hmem offset bytes hwrite => ?_⟩, ?_, ?_⟩
    · obtain ⟨frame, hmem, hclose⟩ := hk
      rw [hcommands, List.mem_singleton] at hmem
      rw [hmem] at hclose
      simp [hcommand] at hclose
    · rw [written, hcommands, hs₁]
      simp [WorkloadController.offset, WorkloadController.record, writesTo, hcommand]
    · rw [hcommands, List.mem_singleton] at hmem
      rw [hmem] at hwrite
      cases hwrite
    · rw [hs₁]
      simp [WorkloadController.record]
    · simp
  refine (expect_ends receptive_lawful hlawful).bind fun frame s₂ hs₂ => ?_
  obtain ⟨frames, hheard, -⟩ := hs₂
  exact ends_pure (h₁.heard hheard)

/-- **A workload run is lawful**, whatever the VM does. -/
theorem driveWorkloadScenario_ends (h : Planned choices n payloadBytes) (sha256 : Sha256)
    (scenario : WorkloadScenario) (launch : LaunchIdentity) (queue : List Delivery)
    (sends : List (IoResult Unit)) : Ends LeavesLawful (driveWorkloadScenario sha256 scenario choices launch)
    (queue, { sends := sends }) fun _ s' => Lawful s'.2.transcript := by
  have hplan : Ends LeavesLawful (runPlan scenario choices launch) (queue, { sends := sends }) fun stopped s' =>
      Consistent s'.2 ∧ (stopped = false → Tracks (workloadSteps choices) s'.2) := by
    refine (configureNetwork_ends scenario queue sends).bind fun _ s₁ h₁ => ?_
    exact runSteps_ends h₁ (wellPlaced_workloadSteps h)
  refine hplan.bind fun stopped s₁ hs₁ => ?_
  refine (closeRun_ends hs₁.1 fun hgo => ?_).bind fun _ s₂ hs₂ => ?_
  · -- the plan ends with the outage over
    have hrestored : .restore ∈ workloadSteps choices := by
      obtain ⟨rest, hrestore⟩ := plan_around_transition h.bounds h.bounds.restoration_lt
        (requestBlock_restoration h.bounds)
      rw [hrestore]
      simp
    rw [Bool.eq_false_iff]
    exact fun hactive => ((hs₁.2 hgo).outage.mp hactive).2 hrestored
  · refine (controller_ends s₂).bind fun c s₃ hs₃ => ?_
    obtain ⟨-, rfl⟩ := hs₃
    exact ends_pure hs₂

/-- No command of a lawful exchange is refused for the agent's flags. -/
theorem Lawful.accepts {transcript : List Exchanged}
    (h : Lawful transcript) : Accepts (commandsIn transcript) := by
  induction transcript using List.reverseRecOn with
  | nil => exact Flags.admissible_nil
  | append_singleton transcript exchanged ih =>
    have hbefore : Lawful transcript := by
      intro earlier x later heq
      exact h earlier x (later ++ [exchanged]) (by rw [heq]; simp)
    cases exchanged with
    | sent frame =>
      rw [commandsIn_sent, Accepts, List.map_append]
      exact Flags.Admissible.snoc (ih hbefore) (h transcript (.sent frame) [] rfl frame rfl).gate
    | received frame =>
      have hsame := commandsIn_received transcript [frame]
      rw [List.map_singleton] at hsame
      rw [hsame]
      exact ih hbefore

/-- The commands that a network run sent, wherever it ended. -/
def sentBy {α : Type} : Except Stopped (α × List Delivery × Controller) → List CommandFrame
  | .ok (_, _, c) => c.sent
  | .error stopped => stopped.sent

/-- What a workload run exchanged, wherever it ended. -/
def exchangedIn {α : Type} : Except Interruption (α × List Delivery × WorkloadController) → List Exchanged
  | .ok (_, _, c) => c.transcript
  | .error interruption => interruption.transcript

/-- An agent that receives the commands, in any turns, finds its flags in order for each of them. -/
def NeverRefused (sent : List CommandFrame) : Prop :=
  ∀ (sha256 : Sha256) (g g' : Guest.Agent) (turns earlier later : List Guest.Turn) (frame : CommandFrame),
    g.flags = {} → Guest.commandsOf turns <+: sent → turns = earlier ++ .receive frame :: later →
    Guest.run sha256 earlier g = .ok (none, g') → g'.flags.gate frame.command = .ok () ∧
      Guest.dispatch sha256 frame.commandId frame.command { g' with lastCommandId := frame.commandId } =
        Guest.ungated sha256 frame.commandId frame.command { g' with lastCommandId := frame.commandId }

theorem Accepts.neverRefused {sent : List CommandFrame} (h : Accepts sent) : NeverRefused sent := by
  intro sha256 g g' turns earlier later frame hflags hpart hturns hrun
  have hadmissible : g.flags.Admissible ((Guest.commandsOf turns).map CommandFrame.command) := by
    rw [hflags]
    exact h.of_part (hpart.map CommandFrame.command)
  have hgate := Guest.gate_of_admissible hadmissible hturns hrun
  exact ⟨hgate, Guest.dispatch_eq_ungated hgate⟩

/-- **Both drivers respect the agent's state machine**, whatever the VM returns and wherever the run ends: no
command is refused for the agent's flags, and in a workload run every command is permitted by the exchange
before it. -/
theorem drivers_disciplined :
    (∀ scenario : Scenario, scenario.validate = .ok () → ∀ (seed : UInt64) (queue : List Delivery)
      (sends : List (IoResult Unit)),
      NeverRefused (sentBy (driveScenarioInner scenario (scenario.choices seed) (queue, { sends := sends })))) ∧
    ∀ scenario : WorkloadScenario, scenario.validate = .ok () → ∀ (sha256 : Sha256) (seed : UInt64)
      (launch : LaunchIdentity) (queue : List Delivery) (sends : List (IoResult Unit)),
      let exchanged := exchangedIn (driveWorkloadScenario sha256 scenario (scenario.choices seed) launch
        (queue, { sends := sends }))
      NeverRefused (commandsIn exchanged) ∧ Lawful exchanged := by
  constructor
  · intro scenario hvalid seed queue sends
    have hends := @driveScenarioInner_kept scenario _ (networkPlan_choices hvalid seed) queue sends
    cases hrun : driveScenarioInner scenario (scenario.choices seed) (queue, { sends := sends }) with
    | error stopped => exact (hends.1 stopped hrun).neverRefused
    | ok result => exact (hends.2 _ _ hrun).neverRefused
  · intro scenario hvalid sha256 seed launch queue sends
    have hends := driveWorkloadScenario_ends (planned_choices hvalid seed) sha256 scenario launch queue sends
    cases hrun : driveWorkloadScenario sha256 scenario (scenario.choices seed) launch (queue,
      { sends := sends }) with
    | error interruption =>
      have hlawful : Lawful interruption.transcript := hends.1 interruption hrun
      exact ⟨hlawful.accepts.neverRefused, hlawful⟩
    | ok result =>
      have hlawful : Lawful result.2.2.transcript := hends.2 _ _ hrun
      exact ⟨hlawful.accepts.neverRefused, hlawful⟩

theorem drivers_disciplined_sample :
    ((driveScenarioInner sampleNetworkScenario (sampleNetworkScenario.choices 7)
        (sampleNetworkQueue, { sends := [] })).isOk = true ∧
      NeverRefused (sentBy (driveScenarioInner sampleNetworkScenario (sampleNetworkScenario.choices 7)
        (sampleNetworkQueue, { sends := [] })))) ∧
    (driveWorkloadScenario sampleSha256 sampleScenario (sampleScenario.choices 8) sampleLaunch
        (sampleQueue, { sends := [] })).isOk = true ∧
      Lawful (exchangedIn (driveWorkloadScenario sampleSha256 sampleScenario (sampleScenario.choices 8)
        sampleLaunch (sampleQueue, { sends := [] }))) := by
  refine ⟨⟨by decide +kernel, ?_⟩, by decide +kernel, ?_⟩
  · exact drivers_disciplined.1 sampleNetworkScenario (by decide +kernel) 7 sampleNetworkQueue []
  · exact (drivers_disciplined.2 sampleScenario (by decide +kernel) sampleSha256 8 sampleLaunch sampleQueue []).2

end Run

end SimFerret.Driver
