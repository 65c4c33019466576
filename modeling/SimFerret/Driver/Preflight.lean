import SimFerret.Driver.Issued
import SimFerret.Driver.Lawful
import SimFerret.Serialize

/-!
# SimFerret.Driver.Preflight — the control frames measured before the VM starts (`run.rs`)

* `validateWorkloadControlFrames`: three frames and the planned inputs.
* `Lawful.offset_le`: an offset is below what the earlier commands wrote.
* `Issuable.length_le`: what is not measured is short.
* `preflight_sufficient`: **once the preflight accepts, every command of every run fits its frame, every line
  that it carries fits the input bound, and every event that reports the launch fits its frame**.
-/

namespace SimFerret.Driver

open Checker Workload Action Json

/-! ## The check -/

section

variable (json : Literals)

/-- `frame_bytes`; the frames have no value that `serde_json` refuses. -/
def frameBytes (command : Command) : Nat :=
    (CommandFrame.toJson json ⟨protocolVersion, u64Size - 1, command⟩).length

/-- The length of the event that reports the launch. -/
def startedBytes (launch : LaunchIdentity) : Nat :=
  (EventFrame.toJson json
    ⟨protocolVersion, u64Size - 1, u64Size - 1, .workloadStarted (u64Size - 1) launch, {}⟩).length

/-- One turn of the loop over the requests, with the widest input so far and the request that it is for. -/
def widestInput (widest : Nat × Text) (request : PlannedRequest) : IoResult (Nat × Text) :=
  let text := fetchLine request
  if text.length > maxStdinFrameBytes then
    .error (invalidData ("the planned input for " ++ request.requestId ++ " is " ++ decimal text.length ++
      " bytes, which exceeds the " ++ decimal maxStdinFrameBytes ++ "-byte input limit"))
  else if text.length > widest.1 then .ok (text.length, request.requestId)
  else .ok widest

def validateWorkloadControlFrames (launch : LaunchIdentity) (choices : WorkloadChoicePlan) : IoResult Unit := do
  let start := frameBytes json (.start 1 launch)
  require (start ≤ maxFrameLength) (invalidData ("the materialized launch identity needs a " ++ decimal start ++
    "-byte start command, which exceeds the " ++ decimal maxFrameLength ++ "-byte control frame limit"))
  let started := startedBytes json launch
  require (started ≤ maxFrameLength)
    (invalidData ("the materialized launch identity needs a " ++ decimal started ++
    "-byte workload-started event, which exceeds the " ++ decimal maxFrameLength ++ "-byte control frame limit"))
  let widest ← choices.requests.foldlM widestInput (0, "")
  let input := frameBytes json (.stdinWrite (u64Size - 1) (u64Size - 1) (encodeBytes (List.replicate widest.1 0)))
  require (input ≤ maxFrameLength)
    (invalidData ("the planned input for " ++ widest.2 ++ " needs a " ++ decimal input ++
    "-byte command frame, which exceeds the " ++ decimal maxFrameLength ++ "-byte control frame limit"))

variable {json}

/-- What an accepted preflight measured of the launch. -/
theorem validateWorkloadControlFrames_ok {launch : LaunchIdentity} {choices : WorkloadChoicePlan}
    (h : validateWorkloadControlFrames json launch choices = .ok ()) :
    frameBytes json (.start 1 launch) ≤ maxFrameLength ∧ startedBytes json launch ≤ maxFrameLength := by
  obtain ⟨_, hstart, h⟩ := bind_eq_ok.mp h
  obtain ⟨_, hstarted, -⟩ := bind_eq_ok.mp h
  exact ⟨of_decide_eq_true (require_eq_ok.mp hstart), of_decide_eq_true (require_eq_ok.mp hstarted)⟩

end

/-! ## Offsets -/

section Offsets

variable {transcript : List Exchanged} {bound : Nat}

/-- The commands write at most `bound` bytes each. -/
def WritesUpTo (bound : Nat) (transcript : List Exchanged) : Prop :=
  ∀ frame ∈ commandsIn transcript, ∀ k offset bytes, frame.command = .stdinWrite k offset bytes →
    byteCount bytes ≤ bound

theorem written_le (h : WritesUpTo bound transcript) (k : Nat) :
    written transcript k ≤ bound * (commandsIn transcript).length := by
  unfold WritesUpTo at h
  unfold written
  generalize commandsIn transcript = frames at h ⊢
  induction frames with
  | nil => exact Nat.zero_le _
  | cons frame frames ih =>
    rw [List.forall_mem_cons] at h
    have hframes := ih h.2
    have hframe : writesTo k frame.command ≤ bound := by
      unfold writesTo
      split
      · next invocation offset bytes heq =>
        split
        · exact h.1 _ _ _ heq
        · exact Nat.zero_le _
      · exact Nat.zero_le _
    rw [List.map_cons, List.sum_cons, List.length_cons, Nat.mul_succ]
    omega

/-- An offset is below what the earlier commands wrote. -/
theorem Lawful.offset_le (h : Lawful transcript) (hwrites : WritesUpTo bound transcript) {frame : CommandFrame}
    (hframe : frame ∈ commandsIn transcript) {k offset : Nat} {bytes : Text}
    (hcommand : frame.command = .stdinWrite k offset bytes) : offset ≤ bound * (commandsIn transcript).length := by
  obtain ⟨exchanged, hmem, hexchanged⟩ := List.mem_filterMap.mp hframe
  obtain ⟨earlier, later, rfl⟩ := List.append_of_mem hmem
  have hsent : exchanged = .sent frame := by
    cases exchanged with
    | sent other => cases hexchanged; rfl
    | received other => cases hexchanged
  have hoffset := ((h earlier exchanged later rfl frame hsent).write k offset bytes hcommand).1
  have hsplit : commandsIn (earlier ++ exchanged :: later) = commandsIn earlier ++
      commandsIn (exchanged :: later) :=
    List.filterMap_append
  have hearlier : WritesUpTo bound earlier := fun other hother =>
    hwrites other (hsplit ▸ List.mem_append_left _ hother)
  rw [hoffset]
  refine (written_le hearlier k).trans (Nat.mul_le_mul_left bound ?_)
  rw [hsplit, List.length_append]
  exact Nat.le_add_right _ _

end Offsets

/-! ## The commands of a plan -/

section Plan

variable {json : Literals} {scenario : WorkloadScenario} {choices : WorkloadChoicePlan} {launch : LaunchIdentity}
  {n payloadBytes : Nat}

/-- The invocation that a step is about. -/
def WorkloadStep.invocation : WorkloadStep → Nat
  | .start k | .echo k | .state k | .spawnDescendant k | .terminate k | .request k _ | .stdinEof k => k
  | .activate | .restore => 0

theorem WorkloadStep.dialogue_invocation {step : WorkloadStep} {k : Nat} {input response : Text}
    (h : step.dialogue choices = some (k, input, response)) : k = step.invocation := by
  cases step with
  | request j index =>
    obtain ⟨request, -, heq⟩ := Option.map_eq_some_iff.mp h
    cases heq
    rfl
  | _ => cases h <;> rfl

/-- A run has two invocations. -/
theorem Planned.invocation_le (h : Planned choices n payloadBytes) {step : WorkloadStep}
    (hmem : step ∈ workloadSteps choices) : step.invocation ≤ 2 := by
  have hopening : ∀ step ∈ openingSteps, step.invocation ≤ 2 := by decide
  have hfault : ∀ step ∈ faultSteps, step.invocation ≤ 2 := by decide
  rw [workloadSteps_eq h.bounds, List.mem_append, mem_stepsBefore] at hmem
  rcases hmem with (hmem | ⟨index, -, hmem⟩) | hmem
  · exact hopening step hmem
  · rcases mem_requestBlock.mp hmem with ⟨-, hmem⟩ | ⟨-, rfl⟩ | ⟨-, rfl⟩ | rfl
    · exact hfault step hmem
    · exact Nat.zero_le 2
    · exact Nat.zero_le 2
    · show servingInvocation choices index ≤ 2
      unfold servingInvocation
      split_ifs <;> omega
  · rw [List.mem_singleton.mp hmem]
    exact Nat.le_refl 2

/-- A line of the plan is short. -/
theorem Issuable.line (h : Planned choices n payloadBytes) {k offset : Nat} {bytes : Text}
    (hcommand : Issuable scenario choices launch (.stdinWrite k offset bytes)) :
    ∃ input, bytes = encodeBytes input ∧ input.length ≤ 256 := by
  cases hcommand with
  | step hstep hissues =>
    cases hissues with
    | write offset hdialogue => exact ⟨_, rfl, (plannedDialogue_of_mem h hstep hdialogue).short⟩

/-- **Every command but the launch is short.** -/
theorem Issuable.short (h : Planned choices n payloadBytes) (hpeer : scenario.fixturePeer = fixturePeer)
    {command : Command} (hcommand : Issuable scenario choices launch command)
    (hstart : ∀ k, command ≠ .start k launch)
    (hoffset : ∀ k offset bytes, command = .stdinWrite k offset bytes → offset < u64Size) :
    ∀ field ∈ command.fields json, ShortField json 512 field := by
  have hgateway : ShortField json 512 (utf8 "gateway", json.literal scenario.fixturePeer) := by
    rw [hpeer]
    exact .text (by decide) (by decide) (by decide)
  have hcidr : ShortField json 512 (utf8 "peer_cidr", json.literal (peerCidr scenario)) := by
    rw [peerCidr, hpeer]
    exact .text (by decide) (by decide) (by decide)
  have hinvocation : ∀ {k : Nat}, k ≤ 2 → ShortField json 512 (utf8 "invocation", decimal k) := by
    intro k hk
    refine .number (by decide) ?_
    unfold u64Size
    omega
  have hmember : ∀ {fields : List (Text × Text)} {field : Text × Text}, field ∈ fields →
      List.Forall (ShortField json 512) fields → ShortField json 512 field :=
    fun hfield hall => List.forall_iff_forall_mem.mp hall _ hfield
  intro field hfield
  cases hcommand with
  | configure =>
    refine hmember hfield ⟨?_, ?_, hgateway⟩
    · exact .text (by decide) (by decide) (by decide)
    · exact .text (by decide) (by decide) (by decide)
  | restore => exact hmember hfield hcidr
  | shutdown => cases hfield
  | step hstep hissues =>
    have hle := h.invocation_le hstep
    cases hissues with
    | start k => exact absurd rfl (hstart k)
    | terminate k => exact hmember hfield (hinvocation hle)
    | stdinEof k => exact hmember hfield (hinvocation hle)
    | activate => exact hmember hfield hcidr
    | restore => exact hmember hfield hcidr
    | @write _ k input response offset hdialogue =>
      rw [← WorkloadStep.dialogue_invocation hdialogue] at hle
      refine hmember hfield ⟨hinvocation hle, ?_, ?_⟩
      · exact .number (by decide) (hoffset _ _ _ rfl)
      · refine .text (by decide) (plain_encodeBytes input) ?_
        have hshort := (plannedDialogue_of_mem h hstep hdialogue).short
        rw [length_encodeBytes]
        omega

/-- The launch command of either invocation is no longer than the measured one. -/
theorem length_start_le {k : Nat} (hk : k ≤ 2) :
    ((Command.start k launch).toJson json).length ≤ ((Command.start 1 launch).toJson json).length := by
  refine object_mono (.cons ⟨rfl, Nat.le_refl _⟩ (.cons ⟨rfl, ?_⟩ (.cons ⟨rfl, Nat.le_refl _⟩ .nil)))
  interval_cases k <;> decide

/-- **A command of the plan fits its frame**, once the launch does. -/
theorem Issuable.length_le (h : Planned choices n payloadBytes) (hpeer : scenario.fixturePeer = fixturePeer)
    (hlaunch : frameBytes json (.start 1 launch) ≤ maxFrameLength) {frame : CommandFrame}
    (hcommand : Issuable scenario choices launch frame.command)
    (hversion : frame.protocolVersion = protocolVersion) (hid : frame.commandId < u64Size)
    (hoffset : ∀ k offset bytes, frame.command = .stdinWrite k offset bytes → offset < u64Size) :
    (frame.toJson json).length ≤ maxFrameLength := by
  by_cases hstart : ∃ k, frame.command = .start k launch
  · obtain ⟨k, hk⟩ := hstart
    have hle : k ≤ 2 := by
      rw [hk] at hcommand
      cases hcommand with
      | step hstep hissues =>
        cases hissues
        exact h.invocation_le hstep
    refine (length_commandFrame_mono hversion.le (Nat.le_pred_of_lt hid) ?_).trans hlaunch
    rw [hk]
    exact length_start_le hle
  · have hshort : ∀ field ∈ frame.command.fields json, ShortField json 512 field :=
      hcommand.short h hpeer (fun k hk => hstart ⟨k, hk⟩) hoffset
    have hframe := length_commandFrame_le (hversion ▸ by decide) hid (length_command_le hshort)
    refine hframe.trans ?_
    decide

/-- A plan has at most eight steps for each request and four more. -/
theorem Planned.length_steps (h : Planned choices n payloadBytes) :
    (workloadSteps choices).length ≤ 8 * maxRequestCount + 4 := by
  have hbefore := length_stepsBefore choices n
  have hfew := h.few
  rw [workloadSteps_eq h.bounds, List.length_append, List.length_singleton]
  omega

/-- What a whole run sent. -/
structure FitsFrames (json : Literals) (transcript : List Exchanged) : Prop where
  frames : ∀ frame ∈ commandsIn transcript, (frame.toJson json).length ≤ maxFrameLength
  lines : ∀ frame ∈ commandsIn transcript, ∀ k offset bytes, frame.command = .stdinWrite k offset bytes →
    ∃ line, decodeBytes bytes maxStdinFrameBytes = .ok line ∧ line.length ≤ maxStdinFrameBytes

theorem Within.fitsFrames {transcript : List Exchanged} (h : Planned choices n payloadBytes)
    (hpeer : scenario.fixturePeer = fixturePeer) (hlaunch : frameBytes json (.start 1 launch) ≤ maxFrameLength)
    (hwithin : Within (Issuable scenario choices launch) ((workloadSteps choices).length + 3) transcript)
    (hlawful : Lawful transcript) : FitsFrames json transcript := by
  have hsteps := h.length_steps
  have hcount : 256 * (commandsIn transcript).length < u64Size ∧ (workloadSteps choices).length + 3 < u64Size := by
    have hfew := hwithin.few
    unfold maxRequestCount at hsteps
    unfold u64Size
    omega
  have hwrites : WritesUpTo 256 transcript := by
    intro frame hframe k offset bytes hcommand
    have hissuable := hwithin.each frame hframe
    rw [hcommand] at hissuable
    obtain ⟨input, rfl, hshort⟩ := hissuable.line h
    rwa [byteCount_encodeBytes]
  constructor
  · intro frame hframe
    refine (hwithin.each frame hframe).length_le h hpeer hlaunch (hwithin.version frame hframe)
      ((hwithin.numbered frame hframe).trans_lt hcount.2) fun k offset bytes hcommand => ?_
    exact (hlawful.offset_le hwrites hframe hcommand).trans_lt hcount.1
  · intro frame hframe k offset bytes hcommand
    have hissuable := hwithin.each frame hframe
    rw [hcommand] at hissuable
    obtain ⟨input, rfl, hshort⟩ := hissuable.line h
    have hfits : input.length ≤ maxStdinFrameBytes := hshort.trans (by decide)
    exact ⟨input, decodeBytes_encodeBytes hfits (by decide), hfits⟩

/-- **The preflight is sufficient.** Once it accepts a launch and the plan of a validated scenario, every
command of every run fits its frame, every line decodes within the input bound, and so does every event that
reports the launch, whatever the VM does. -/
theorem preflight_sufficient (json : Literals) {scenario : WorkloadScenario} (hvalid : scenario.validate = .ok ())
    (seed : UInt64) (launch : LaunchIdentity)
    (hpreflight : validateWorkloadControlFrames json launch (scenario.choices seed) = .ok ()) :
    (∀ (sha256 : Sha256) (queue : List Delivery) (sends : List (IoResult Unit)),
      FitsFrames json (exchangedIn (driveWorkloadScenario sha256 scenario (scenario.choices seed) launch
        (queue, { sends := sends })))) ∧
    ∀ eventId commandId invocation : Nat, eventId < u64Size → commandId < u64Size → invocation < u64Size →
      ((Guest.eventFrame eventId commandId (.workloadStarted invocation launch)).toJson json).length ≤
        maxFrameLength := by
  obtain ⟨hstart, hstarted⟩ := validateWorkloadControlFrames_ok hpreflight
  constructor
  · intro sha256 queue sends
    have hplanned := planned_choices hvalid seed
    have hpeer : scenario.fixturePeer = fixturePeer := (WorkloadScenario.validate_shape hvalid).peer_eq
    have hlawful := driveWorkloadScenario_ends hplanned sha256 scenario launch queue sends
    have hempty : Sent (Issuable scenario (scenario.choices seed) launch) 0 { sends := sends } := by
      refine ⟨⟨Nat.le_refl 0, ?_, ?_, ?_⟩, Nat.le_refl 1⟩ <;> exact fun _ hframe => absurd hframe List.not_mem_nil
    have hsends := driveWorkloadScenario_sends sha256 scenario (scenario.choices seed) launch 0
      (queue, { sends := sends }) hempty
    rw [Nat.zero_add] at hsends
    cases hrun : driveWorkloadScenario sha256 scenario (scenario.choices seed) launch (queue,
      { sends := sends }) with
    | error interruption =>
      exact (hsends.1 interruption hrun).fitsFrames hplanned hpeer hstart (hlawful.1 interruption hrun)
    | ok result => exact (hsends.2 _ _ hrun).within.fitsFrames hplanned hpeer hstart (hlawful.2 _ _ hrun)
  · intro eventId commandId invocation heventId hcommandId hinvocation
    refine (length_eventFrame_mono (Nat.le_pred_of_lt heventId) (Nat.le_pred_of_lt hcommandId) ?_).trans hstarted
    exact object_mono (.cons ⟨rfl, Nat.le_refl _⟩
      (.cons ⟨rfl, length_decimal_mono (Nat.le_pred_of_lt hinvocation)⟩ (.cons ⟨rfl, Nat.le_refl _⟩ .nil)))

/-- One byte of a literal: `serde_json` escapes the quote, the backslash and the control characters. -/
def escapeByte (b : UInt8) : Text :=
  if b = 0x22 then "\\\""
  else if b = 0x5c then "\\\\"
  else if b = 8 then "\\b"
  else if b = 9 then "\\t"
  else if b = 10 then "\\n"
  else if b = 12 then "\\f"
  else if b = 13 then "\\r"
  else if b < 0x20 then "\\u00" ++ encodeBytes [b]
  else [b]

theorem flatMap_escapeByte {text : Text} (h : Json.Plain text) : text.flatMap escapeByte = text := by
  induction text with
  | nil => rfl
  | cons b text ih =>
    rw [Json.Plain, List.forall_mem_cons] at h
    obtain ⟨⟨hlow, -, hquote, hslash⟩, htext⟩ := h
    have hcontrol : ∀ c : UInt8, c < 0x20 → b ≠ c := by
      intro c hc heq
      exact absurd hlow (UInt8.not_le.mpr (heq ▸ hc))
    have hb : escapeByte b = [b] := by
      unfold escapeByte
      rw [if_neg hquote, if_neg hslash, if_neg (hcontrol 8 (by decide)), if_neg (hcontrol 9 (by decide)),
        if_neg (hcontrol 10 (by decide)), if_neg (hcontrol 12 (by decide)), if_neg (hcontrol 13 (by decide)),
        if_neg (UInt8.not_lt.mpr hlow)]
    rw [List.flatMap_cons, hb, ih htext]
    rfl

def sampleLiterals : Literals where
  literal text := 0x22 :: (text.flatMap escapeByte ++ [0x22])
  literal_plain text h := by rw [flatMap_escapeByte h]

example : sampleLiterals.literal "a\"\n" = "\"a\\\"\\n\"" := by decide

theorem preflight_sufficient_sample : sampleScenario.validate = .ok () ∧
    validateWorkloadControlFrames sampleLiterals sampleLaunch (sampleScenario.choices 8) = .ok () ∧
    (driveWorkloadScenario sampleSha256 sampleScenario (sampleScenario.choices 8) sampleLaunch
      (sampleQueue, { sends := [] })).isOk = true ∧
    FitsFrames sampleLiterals
      (exchangedIn (driveWorkloadScenario sampleSha256 sampleScenario (sampleScenario.choices 8)
      sampleLaunch (sampleQueue, { sends := [] }))) ∧
    ((Guest.eventFrame 2 2 (.workloadStarted 1 sampleLaunch)).toJson sampleLiterals).length ≤ maxFrameLength := by
  have hvalid : sampleScenario.validate = .ok () := by decide +kernel
  have hpreflight : validateWorkloadControlFrames sampleLiterals sampleLaunch (sampleScenario.choices 8) =
      .ok () := by
    decide +kernel
  obtain ⟨hframes, hevents⟩ := preflight_sufficient sampleLiterals hvalid 8 sampleLaunch hpreflight
  exact ⟨hvalid, hpreflight, by decide +kernel, hframes sampleSha256 sampleQueue [], hevents 2 2 1 (by decide)
    (by decide) (by decide)⟩

end Plan

end SimFerret.Driver
