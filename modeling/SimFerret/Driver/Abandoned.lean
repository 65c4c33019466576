import Mathlib.Data.List.Perm.Subperm
import SimFerret.Driver.Plan

/-!
# SimFerret.Driver.Abandoned — a run that stops early never passes

The driver only sets a flag when a step fails and leaves the verdict to the checker.  A passing report needs
every input of the second invocation acknowledged, so a run that stopped before the last command cannot have
one; and what ends the wait for the last exit stays in the trace.

* `AnsweredOnce`: what the agent's dispatch guarantees about typed answers.
* `accepted_le_sent`: acknowledged inputs are at most the sent ones.
* `driveWorkloadScenario_abandoned`: the report of an abandoned run fails.
-/

namespace SimFerret.Driver

open Checker Workload
open WorkloadTrace (ofEvents)

/-! ## Typed answers -/

/-- The events that answer one command each. -/
def isAnswer : Event → Bool
  | .workloadStarted .. => true
  | .launchFailed .. => true
  | .inputAccepted .. => true
  | .terminationRequested .. => true
  | _ => false

/-- The event answers a command of its kind for its invocation. -/
def answers : Command → Event → Bool
  | .start k _, .workloadStarted j _ => j == k
  | .start k _, .launchFailed j _ _ => j == k
  | .stdinWrite k _ _, .inputAccepted j _ _ _ => j == k
  | .stdinEof k, .inputAccepted j _ _ _ => j == k
  | .terminate k, .terminationRequested j _ => j == k
  | _, _ => false

/-- Starts, launch failures, accepted inputs and termination requests occur at most once for each issued command of
the matching kind, and carry its identifier and its invocation. -/
structure AnsweredOnce (sent : List CommandFrame) (events : List EventFrame) : Prop where
  answered : ∀ f ∈ events, isAnswer f.event = true →
    ∃ command ∈ sent, command.commandId = f.commandId ∧ answers command.command f.event = true
  once : events.Pairwise fun f g => isAnswer f.event = true → f.event.kind = g.event.kind →
    f.commandId ≠ g.commandId

instance (sent : List CommandFrame) (events : List EventFrame) : Decidable (AnsweredOnce sent events) :=
  decidable_of_iff ((∀ f ∈ events, isAnswer f.event = true →
      ∃ command ∈ sent, command.commandId = f.commandId ∧ answers command.command f.event = true) ∧
    events.Pairwise fun f g => isAnswer f.event = true → f.event.kind = g.event.kind → f.commandId ≠ g.commandId)
    ⟨fun h => ⟨h.1, h.2⟩, fun h => ⟨h.1, h.2⟩⟩

/-- The frame accepts data or the end of the input of an invocation. -/
def isInput (k : Nat) (f : EventFrame) : Bool := isInputOf f k false || isInputOf f k true

theorem isInput_iff {k : Nat} {f : EventFrame} :
    isInput k f = true ↔ ∃ offset bytes eof, f.event = .inputAccepted k offset bytes eof := by
  unfold isInput isInputOf
  cases hev : f.event
  case inputAccepted i offset bytes eof => cases eof <;> simp
  all_goals simp

/-- The commands that send input to an invocation. -/
def inputsSent (sent : List CommandFrame) (k : Nat) : List CommandFrame :=
  sent.filter fun command => inputInvocation command.command == some k

theorem length_inputsSent (sent : List CommandFrame) (k : Nat) :
    (inputsSent sent k).length = ((sent.map CommandFrame.command).filterMap inputInvocation).count k := by
  induction sent with
  | nil => rfl
  | cons command sent ih =>
    unfold inputsSent at ih ⊢
    rw [List.filter_cons, List.map_cons, List.filterMap_cons]
    cases hk : inputInvocation command.command with
    | none => simpa using ih
    | some j =>
      rw [List.count_cons, ← ih]
      by_cases hj : j = k
      · simp [hj]
      · simp [hj]

/-- **At most as many inputs are acknowledged as were sent.** -/
theorem accepted_le_sent {sent : List CommandFrame} {events : List EventFrame} (h : AnsweredOnce sent events)
    (k : Nat) : (events.filter (isInput k)).length ≤ (inputsSent sent k).length := by
  have hnodup : ((events.filter (isInput k)).map EventFrame.commandId).Nodup := by
    rw [List.Nodup, List.pairwise_map]
    refine (h.once.sublist List.filter_sublist).imp_of_mem ?_
    intro f g hf hg honce
    obtain ⟨_, _, _, hf⟩ := isInput_iff.mp (List.mem_filter.mp hf).2
    obtain ⟨_, _, _, hg⟩ := isInput_iff.mp (List.mem_filter.mp hg).2
    exact honce (by rw [hf]; rfl) (by rw [hf, hg]; rfl)
  have hsubset : (events.filter (isInput k)).map EventFrame.commandId ⊆
      (inputsSent sent k).map CommandFrame.commandId := by
    intro id hid
    obtain ⟨f, hf, rfl⟩ := List.mem_map.mp hid
    obtain ⟨hmem, hinput⟩ := List.mem_filter.mp hf
    obtain ⟨_, _, _, hev⟩ := isInput_iff.mp hinput
    obtain ⟨command, hcommand, heq, hanswers⟩ := h.answered f hmem (by rw [hev]; rfl)
    refine List.mem_map.mpr ⟨command, List.mem_filter.mpr ⟨hcommand, ?_⟩, heq⟩
    rw [hev] at hanswers
    cases hc : command.command <;> rw [hc] at hanswers <;> simp_all [answers, inputInvocation]
  have hle := (hnodup.subperm hsubset).length_le
  rwa [List.length_map, List.length_map] at hle

theorem length_filter_isInput (events : List EventFrame) (k : Nat) :
    (events.filter (isInput k)).length = (dataInputs events k).length + eofCount events k := by
  unfold dataInputs eofCount
  rw [List.length_map]
  induction events with
  | nil => rfl
  | cons f events ih =>
    rw [List.filter_cons, List.filter_cons, List.filter_cons]
    unfold isInput at ih ⊢
    have hexcl : ¬ (isInputOf f k false = true ∧ isInputOf f k true = true) := by
      unfold isInputOf
      split
      · rename_i eof _
        cases eof <;> simp
      · simp
    split_ifs <;> simp_all <;> omega

/-! ## What a passing report needs -/

/-- What the checker requires of the second invocation. -/
structure PassingSecond (sha256 : Sha256) (choices : WorkloadChoicePlan) (events : List EventFrame) : Prop where
  clean : (ofEvents events).allViolations = []
  launched : (ofEvents events).launchFailures = []
  responses : Responses (ofEvents events) choices 2
  pending : ((ofEvents events).streams 2).stdout.pending = []
  stderr : ((ofEvents events).streams 2).stderr.bytes = []

theorem passingSecond_of_passed {sha256 : Sha256} {events : List EventFrame} {scenario : WorkloadScenario}
    {choices : WorkloadChoicePlan} {launch : LaunchIdentity}
    (h : (evaluateWorkload sha256 events scenario choices launch).passed = true) :
    PassingSecond sha256 choices events := by
  obtain ⟨⟨_, hsafety⟩, ⟨_, hintegrity⟩, -⟩ := evaluateTrace_passed h
  obtain ⟨terminated, firstExit, firstCleanup, secondExit, hs⟩ := processSafety_ok hsafety
  obtain ⟨-, hresp, hexits⟩ := responseIntegrity_ok hintegrity
  have hmatch := hexits secondExit (List.mem_of_find?_eq_some hs.second_exit)
  have hinv : secondExit.invocation = 2 := by simpa using List.find?_some hs.second_exit
  exact ⟨hs.clean, hs.launched, hresp, hinv ▸ hmatch.pending, hinv ▸ hmatch.stderr⟩

/-- What ends the wait for the last exit fails the report, whatever follows. -/
theorem not_passing_of_exitWaitFailed {sha256 : Sha256} {choices : WorkloadChoicePlan} {c : WorkloadController}
    (hv : c.Valid) (hfailed : c.exitWaitFailed 2 = true) (hexited : c.trace.exited 2 = false)
    (hconsumed : c.consumed 2 = (expectedLines choices 2).length) (frames : List EventFrame) :
    ¬ PassingSecond sha256 choices (c.rawEvents ++ frames) := by
  intro hp
  have hfinal : ofEvents (c.rawEvents ++ frames) = frames.foldl WorkloadTrace.push c.trace := by
    rw [WorkloadTrace.ofEvents_append, hv.trace]
  have hsound : c.trace.Sound := by
    rw [hv.trace]
    exact WorkloadTrace.Sound.initial (WorkloadTrace.sound_of_clean hp.clean)
  have hlines : ((ofEvents (c.rawEvents ++ frames)).streams 2).stdout.lines.length = c.consumed 2 := by
    have := congrArg List.length hp.responses.texts
    rw [List.length_map] at this
    rw [hconsumed, ← this]
    rfl
  -- an open line, or one line too many, cannot be closed again
  have hopen : ¬ (c.trace.streams 2).stdout.Exceeds (c.consumed 2) := by
    intro hexceeds
    have hend := openLine_foldl frames hexceeds
    rw [← hfinal] at hend
    exact hend.2 hlines hp.pending
  unfold WorkloadController.exitWaitFailed at hfailed
  rw [Bool.or_eq_true, Bool.or_eq_true] at hfailed
  have hcount : c.unconsumedLine 2 = false := by
    by_contra h
    rw [Bool.not_eq_false, WorkloadController.unconsumedLine, decide_eq_true_eq] at h
    exact hopen ⟨h.le, fun heq => absurd heq h.ne'⟩
  rcases hfailed with (hunhealthy | hline) | hpending
  · unfold WorkloadController.healthy at hunhealthy
    simp only [hexited, Bool.not_false, Bool.true_and, Bool.not_eq_true', Bool.and_eq_false_iff,
      beq_eq_false_iff_ne, Bool.not_eq_false'] at hunhealthy
    rcases hunhealthy with (hlaunch | hstderr) | hbound
    · have hne : c.trace.launchFailures ≠ [] := by
        intro hnil
        rw [WorkloadTrace.launchFailed, hnil] at hlaunch
        cases hlaunch
      have hgrow := launchFailures_foldl frames (t := c.trace)
      rw [← hfinal, hp.launched] at hgrow
      exact hne (List.prefix_nil.mp hgrow)
    · have hbytes : (c.trace.streams 2).stderr.bytes ≠ [] := by
        intro hnil
        rw [hv.trace] at hstderr hnil hsound
        obtain ⟨raws, -, hsplit⟩ := ((mirrors_of_sound hsound).streams 2).splits .stderr
        rw [show ((ofEvents c.rawEvents).streams 2).stream .stderr =
          ((ofEvents c.rawEvents).streams 2).stderr from rfl, hnil, eq_comm, List.append_eq_nil_iff] at hsplit
        exact hstderr (by rw [WorkloadTrace.stderrBytes, hnil, hsplit.2]; rfl)
      have hend := stderr_foldl frames hbytes
      rw [← hfinal] at hend
      exact hend hp.stderr
    · rw [hv.trace] at hbound
      obtain ⟨v, hv'⟩ := violation_of_overBoundLine hbound
      have hend := WorkloadTrace.violations_foldl frames _ hv'
      rw [← WorkloadTrace.ofEvents_append, hp.clean] at hend
      exact absurd hend List.not_mem_nil
  · rw [hcount] at hline
    cases hline
  · exact hopen ⟨hv.consumed 2, fun _ => by simpa [WorkloadTrace.stdoutPending] using hpending⟩

/-! ## Abandoned runs -/

theorem valid_initial (sends : List (IoResult Unit)) : ({ sends := sends } : WorkloadController).Valid := by
  refine ⟨rfl, rfl, rfl, rfl, rfl, fun k => ?_⟩
  show ((∅ : Std.ExtTreeMap Nat Nat)[k]?).getD 0 ≤ _
  rw [Std.ExtTreeMap.getElem?_empty]
  exact Nat.zero_le _

theorem consumed_initial (sends : List (IoResult Unit)) (k : Nat) :
    ({ sends := sends } : WorkloadController).consumed k = 0 := by
  show ((∅ : Std.ExtTreeMap Nat Nat)[k]?).getD 0 = 0
  rw [Std.ExtTreeMap.getElem?_empty]
  rfl

/-- A plan that stopped sent fewer inputs to the second invocation than the checker expects, or stopped in its
wait for the last exit. -/
theorem runSteps_abandoned {scenario : WorkloadScenario} {choices : WorkloadChoicePlan} {launch : LaunchIdentity}
    {n : Nat} (hplan : PlanBounds choices n) {s s' : List Delivery × WorkloadController} (hv : s.2.Valid)
    (h : runSteps scenario choices launch (workloadSteps choices) s = .ok (true, s')) :
    ∃ commands frames lines, Ran commands frames lines s.2 s'.2 ∧
      ((commands.filterMap inputInvocation).count 2 < (expectedLines choices 2).length ∨
        s'.2.exitWaitFailed 2 = true ∧ s'.2.trace.exited 2 = false ∧
          s'.2.consumed 2 = s.2.consumed 2 + (expectedLines choices 2).length) := by
  have hlen := (length_expectedLines hplan).2
  have hfault := hplan.fault_lt
  have hinputs : ((stepsBefore choices n).flatMap WorkloadStep.inputs).count 2 <
      (expectedLines choices 2).length := by
    rw [count_inputs, hlen, served, if_neg (Nat.not_le.mpr hfault)]
    simp
  have hlines : ((stepsBefore choices n).flatMap WorkloadStep.lines).count 2 =
      (expectedLines choices 2).length := by
    rw [count_lines, hlen, served, if_neg (Nat.not_le.mpr hfault)]
    simp
  obtain ⟨pre, step, post, s1, heq, hpre, hstep⟩ := runSteps_stopped h
  obtain ⟨commands, frames, hran, hsub, -⟩ := runSteps_ran hpre
  rw [workloadSteps_eq hplan] at heq
  rcases List.eq_nil_or_concat post with rfl | ⟨init, last, rfl⟩
  · -- the end of input stopped the run
    obtain ⟨hpreEq, hstepEq⟩ := List.append_inj' heq rfl
    obtain rfl : step = .stdinEof 2 := by simpa using hstepEq.symm
    subst hpreEq
    have hcount := hsub.count_le 2
    rcases stdinEof_ok hstep with ⟨-, frames', hran'⟩ | ⟨frames', hran', hwait⟩
    · refine ⟨_, _, _, hran.trans hran', .inl ?_⟩
      rw [List.append_nil]
      omega
    · obtain ⟨hfailed, hexited⟩ := hwait rfl
      refine ⟨_, _, _, hran.trans hran', .inr ⟨hfailed, hexited (hran.valid hv), ?_⟩⟩
      rw [(hran.trans hran').consumed, List.append_nil, hlines]
  · -- a step before the end of input stopped the run
    obtain ⟨commands', frames', lines', hran'⟩ := runStep_ran hstep
    refine ⟨_, _, _, hran.trans hran'.ran, .inl ?_⟩
    have hinit : stepsBefore choices n = pre ++ step :: init := by
      rw [List.concat_eq_append, show pre ++ step :: (init ++ [last]) = (pre ++ step :: init) ++
        [last] by simp] at heq
      exact (List.append_inj' heq rfl).1
    have hsub' : ((commands ++ commands').filterMap inputInvocation).Sublist
        ((stepsBefore choices n).flatMap WorkloadStep.inputs) := by
      rw [hinit, List.filterMap_append, List.flatMap_append, List.flatMap_cons]
      exact hsub.append (hran'.inputs.trans (List.sublist_append_left _ _))
    exact Nat.lt_of_le_of_lt (hsub'.count_le 2) hinputs

/-- **An abandoned run never passes.**  When a step stops the plan of a validated scenario and the drive still
returns, its report fails. -/
theorem driveWorkloadScenario_abandoned {sha256 : Sha256} {scenario planned : WorkloadScenario} {seed : UInt64}
    {launch : LaunchIdentity} {queue : List Delivery} {sends : List (IoResult Unit)}
    {s1 s2 : List Delivery × WorkloadController} {events : List NormalizedEvent} {report : AssertionReport}
    (hplan : planned.validate = .ok ())
    (hstopped : runPlan scenario (planned.choices seed) launch (queue, { sends := sends }) = .ok (true, s1))
    (hdrive : driveWorkloadScenario sha256 scenario (planned.choices seed) launch (queue, { sends := sends }) =
      .ok ((events, report), s2))
    (honce : AnsweredOnce s2.2.sent s2.2.rawEvents) : report.passed = false := by
  have hbounds := WorkloadScenario.choices_bounds hplan seed
  obtain ⟨stopped, s1', hrun, hdrive⟩ := Action.bind_ok.mp hdrive
  rw [hstopped] at hrun
  cases hrun
  obtain ⟨_, s3, hclose, hdrive⟩ := Action.bind_ok.mp hdrive
  obtain ⟨c, s4, hget, hdrive⟩ := Action.bind_ok.mp hdrive
  obtain ⟨rfl, rfl⟩ := controller_ok hget
  obtain ⟨hresult, rfl⟩ := Action.pure_ok.mp hdrive
  cases hresult
  by_contra hpassed
  rw [Bool.not_eq_false] at hpassed
  have hp := passingSecond_of_passed hpassed
  obtain ⟨_, s0, hconfigure, hsteps⟩ := Action.bind_ok.mp hstopped
  obtain ⟨frames0, hran0⟩ := configureNetwork_ok hconfigure
  have hv0 := hran0.valid (valid_initial sends)
  obtain ⟨commands, frames, lines, hran, hcase⟩ := runSteps_abandoned hbounds hv0 hsteps
  obtain ⟨commands', frames', hran', hnone⟩ := closeRun_ok hclose
  rcases hcase with hfew | ⟨hfailed, hexited, hconsumed⟩
  · -- fewer inputs were sent than a passing run acknowledges
    have hle := accepted_le_sent honce 2
    obtain ⟨more, hsent, hmore⟩ := ((hran0.trans hran).trans hran').sent
    rw [length_inputsSent, hsent, List.nil_append, hmore, List.filterMap_append, hnone, List.append_nil,
      length_filter_isInput] at hle
    have hm := mirrors_of_sound (WorkloadTrace.sound_of_clean hp.clean)
    have hdata := hp.responses.data
    have heofs := hp.responses.eofs
    rw [(hm.streams 2).data] at hdata
    rw [(hm.streams 2).eofs, if_pos rfl] at heofs
    rw [hdata, heofs] at hle
    have hcommands :
        (([Command.configureNetwork networkInterface guestCidr scenario.fixturePeer] ++ commands).filterMap
        inputInvocation) = commands.filterMap inputInvocation := rfl
    rw [hcommands] at hle
    omega
  · rw [hran0.consumed, consumed_initial, List.count_nil, Nat.zero_add] at hconsumed
    rw [hran'.received] at hp
    exact not_passing_of_exitWaitFailed (hran.valid hv0) hfailed hexited hconsumed frames' hp

/-- A run whose first invocation exits before it reports that it is ready. -/
def abandonedQueue : List Delivery :=
  [(1, .networkConfigured networkInterface guestCidr fixturePeer), (2, .workloadStarted 1 sampleLaunch),
      (2, .workloadExited 1 (.exited 1) 0 (sha256Hex sampleSha256 []) 0 (sha256Hex sampleSha256 []) 0),
      (2, .cleanupComplete 1 1), (3, .agentStopped)].zipIdx.map (fun ((command, event), index) =>
    .event ⟨protocolVersion, index + 1, command, event, {}⟩) ++ [.closed]

theorem driveWorkloadScenario_abandoned_sample : ∃ s1 events report s2,
    runPlan sampleScenario samplePlan sampleLaunch (abandonedQueue, {}) = .ok (true, s1) ∧
    driveWorkloadScenario sampleSha256 sampleScenario samplePlan sampleLaunch (abandonedQueue, {}) =
      .ok ((events, report), s2) ∧ report.passed = false := by
  have hstops : (runPlan sampleScenario samplePlan sampleLaunch (abandonedQueue, {})).toOption.map (·.1) =
      some true := by decide +kernel
  have hanswered : (driveWorkloadScenario sampleSha256 sampleScenario samplePlan sampleLaunch
      (abandonedQueue, {})).toOption.map (fun r => decide (AnsweredOnce r.2.2.sent r.2.2.rawEvents)) =
          some true := by
    decide +kernel
  obtain ⟨⟨stopped, s1⟩, hrun, rfl⟩ := exists_ok_of_map hstops
  obtain ⟨⟨⟨events, report⟩, s2⟩, hdrive, honce⟩ := exists_ok_of_map hanswered
  have hvalid : sampleScenario.validate = .ok () := by decide +kernel
  exact ⟨s1, events, report, s2, hrun, hdrive,
    driveWorkloadScenario_abandoned hvalid hrun hdrive (of_decide_eq_true honce)⟩

end SimFerret.Driver
