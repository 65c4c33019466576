import Mathlib.Data.List.Zip
import SimFerret.Checker.Soundness
import SimFerret.Driver.Responses

/-!
# SimFerret.Driver.Conforming — the checker accepts what the plan asks for

The driver derives its plan and the checker its expectations from the seeded choices, each on its own.  A guest
that answers the plan as it should passes every property.

* `stdoutLineWithAck_eq`: each response stands with the acknowledgement of its input.
* `starts_eq`, `terminations_eq`, `exits_eq`, `cleanups_eq`: the records of the whole run.
* `evaluateWorkload_conforming`: the report on it.
-/

namespace SimFerret.Driver

open Checker Workload RunContext

/-! ## Searching the trace -/

section Streams

variable {t : WorkloadTrace}

theorem mem_invocations {k : Nat} {s : InvocationStreams} (h : (k, s) ∈ t.invocations.toList) :
    t.streams k = s := by
  rw [Std.ExtTreeMap.mem_toList_iff_getElem?_eq_some] at h
  rw [WorkloadTrace.streams, h]
  rfl

theorem invocation_mem {k : Nat} (h : t.streams k ≠ {}) : (k, t.streams k) ∈ t.invocations.toList := by
  rw [Std.ExtTreeMap.mem_toList_iff_getElem?_eq_some]
  unfold WorkloadTrace.streams at h ⊢
  cases hk : t.invocations[k]? with
  | none => rw [hk] at h; exact absurd rfl h
  | some s => rfl

/-- What only one invocation has once is found among all. -/
theorem find?_invocations {α : Type} {f : InvocationStreams → List α} {p : α → Bool} {k : Nat} {a : α}
    (hnil : f {} = []) (hmem : a ∈ f (t.streams k)) (ha : p a = true)
    (hall : ∀ j, ∀ b ∈ f (t.streams j), p b = true → b = a) :
    (t.invocations.toList.flatMap fun entry => f entry.2).find? p = some a := by
  have hne : t.streams k ≠ {} := by
    intro heq
    rw [heq, hnil] at hmem
    cases hmem
  refine find?_of_unique (List.mem_flatMap.mpr ⟨_, invocation_mem hne, hmem⟩) ha fun b hb hp => ?_
  obtain ⟨⟨j, s⟩, hentry, hb⟩ := List.mem_flatMap.mp hb
  rw [← mem_invocations hentry] at hb
  exact hall j b hb hp

end Streams

/-! ## Lines and acknowledgements -/

section Lines

variable {run : RunContext} {n payloadBytes : Nat}

/-- A response with the acknowledgement of its input. -/
def answeredRecords (run : RunContext) (k : Nat) (done : List WorkloadStep) (step : WorkloadStep) :
    List (CompletedLine × Nat) :=
  match step.dialogue run.choices with
  | some (j, _, response) =>
    if j = k then [(⟨response, run.eventAt done + 1, run.eventAt done + 1⟩, run.eventAt done)] else []
  | none => []

theorem allowed_dialogue {choices : WorkloadChoicePlan} {done : List WorkloadStep} {step : WorkloadStep} {k : Nat}
    {input response : Text} (h : Allowed choices done step)
    (hdialogue : step.dialogue choices = some (k, input, response)) :
    Running done k := by
  cases step with
  | start j => cases hdialogue
  | terminate j => cases hdialogue
  | activate => cases hdialogue
  | restore => cases hdialogue
  | stdinEof j => cases hdialogue
  | _ =>
    obtain ⟨j, i, r, hd, hrunning, -⟩ := h
    rw [hdialogue] at hd
    cases hd
    exact hrunning

/-- How the lines of an invocation stand to its inputs. -/
structure Answered (run : RunContext) (k : Nat) (steps : List WorkloadStep) : Prop where
  pairs : ((recorded (run.lineRecords k) [] steps).drop 1).zip (recorded (run.dataRecords k) [] steps) =
    recorded (answeredRecords run k) [] steps
  length : (recorded (run.lineRecords k) [] steps).length = (recorded (run.dataRecords k) [] steps).length +
    if .start k ∈ steps then 1 else 0
  silent : .start k ∉ steps → recorded (run.dataRecords k) [] steps = []

theorem Answered.other {k : Nat} {steps : List WorkloadStep} {step : WorkloadStep} (h : Answered run k steps)
    (hresponses : responses run.choices k step = []) (hinputs : inputs run.choices k step = [])
    (hanswered : answeredRecords run k steps step = [])
    (hne : step ≠ .start k) : Answered run k (steps ++ [step]) := by
  have hmem : .start k ∈ steps ++ [step] ↔ .start k ∈ steps := by simp [hne.symm]
  have hlines : recorded (run.lineRecords k) [] (steps ++ [step]) = recorded (run.lineRecords k) [] steps := by
    rw [recorded_snoc, lineRecords, hresponses, List.map_nil, List.append_nil]
  have hdata : recorded (run.dataRecords k) [] (steps ++ [step]) = recorded (run.dataRecords k) [] steps := by
    rw [recorded_snoc, dataRecords, hinputs, List.map_nil, List.append_nil]
  refine ⟨?_, ?_, fun hnot => ?_⟩
  · rw [hlines, hdata, recorded_snoc, hanswered, List.append_nil]
    exact h.pairs
  · rw [hlines, hdata, h.length]
    simp only [hmem]
  · rw [hdata]
    exact h.silent fun hin => hnot (hmem.mpr hin)

theorem Answered.start {k : Nat} {steps : List WorkloadStep} (h : Answered run k steps) (hnot : .start k ∉ steps) :
    Answered run k (steps ++ [.start k]) := by
  have hdata := h.silent hnot
  have hlines : recorded (run.lineRecords k) [] steps = [] := by
    have hlength := h.length
    rw [hdata, if_neg hnot] at hlength
    exact List.length_eq_zero_iff.mp hlength
  have hpairs := h.pairs
  rw [hlines, hdata] at hpairs
  have hready : run.lineRecords k steps (.start k) =
      [⟨readyLine, run.eventAt steps + 1, run.eventAt steps + 1⟩] := by
    rw [lineRecords, show responses run.choices k (.start k) = [readyLine] from if_pos rfl, List.map_singleton]
  refine ⟨?_, ?_, fun hnot' => absurd (by simp) hnot'⟩
  · rw [recorded_snoc, recorded_snoc, recorded_snoc, hlines, hdata, ← hpairs, hready]
    rfl
  · rw [recorded_snoc, recorded_snoc, hlines, hdata, if_pos (by simp), hready]
    rfl

theorem Answered.dialogue {k : Nat} {steps : List WorkloadStep} {step : WorkloadStep} {input response : Text}
    (h : Answered run k steps) (hstart : .start k ∈ steps)
    (hdialogue : step.dialogue run.choices = some (k, input, response)) : Answered run k (steps ++ [step]) := by
  have hlength := h.length
  rw [if_pos hstart] at hlength
  have hlines : run.lineRecords k steps step = [⟨response, run.eventAt steps + 1, run.eventAt steps + 1⟩] := by
    rw [lineRecords, responses_of_dialogue hdialogue, if_pos rfl, List.map_singleton]
  have hdata : run.dataRecords k steps step = [run.eventAt steps] := by
    simp [dataRecords, inputs, hdialogue]
  have hanswered : answeredRecords run k steps step =
      [(⟨response, run.eventAt steps + 1, run.eventAt steps + 1⟩, run.eventAt steps)] := by
    simp [answeredRecords, hdialogue]
  refine ⟨?_, ?_, fun hnot => absurd (List.mem_append_left _ hstart) hnot⟩
  · rw [recorded_snoc, recorded_snoc, recorded_snoc, hlines, hdata, hanswered,
      List.drop_append_of_le_length (by omega), List.zip_append (by rw [List.length_drop]; omega), h.pairs]
    rfl
  · rw [recorded_snoc, recorded_snoc, hlines, hdata, if_pos (List.mem_append_left _ hstart), List.length_append,
      List.length_append, List.length_singleton, List.length_singleton]
    omega

/-- **The first line of an invocation answers its start**, every other line its input; by induction on the
steps. -/
theorem answered_steps {steps : List WorkloadStep} (horderly : Orderly run.choices steps) (k : Nat) :
    Answered run k steps := by
  induction steps using List.reverseRecOn with
  | nil => exact ⟨rfl, rfl, fun _ => rfl⟩
  | append_singleton steps step ih =>
    have hbefore := ih fun earlier s later heq => horderly earlier s (later ++ [step]) (by rw [heq]; simp)
    have hallowed := horderly steps step [] rfl
    cases hd : step.dialogue run.choices with
    | some triple =>
      obtain ⟨j, input, response⟩ := triple
      by_cases hj : j = k
      · subst hj
        exact hbefore.dialogue (allowed_dialogue hallowed hd).started hd
      · refine hbefore.other ?_ ?_ ?_ ?_
        · rw [responses_of_dialogue hd, if_neg hj]
        · simp [inputs, hd, hj]
        · simp [answeredRecords, hd, hj]
        · rintro rfl
          cases hd
    | none =>
      by_cases hstart : step = .start k
      · subst hstart
        exact hbefore.start hallowed.1
      · refine hbefore.other ?_ ?_ ?_ hstart
        · cases step with
          | start j => exact if_neg fun heq => hstart (by rw [heq])
          | _ => simp only [responses, hd]
        · simp [inputs, hd]
        · simp [answeredRecords, hd]

end Lines

/-! ## The records of the run -/

section Records

variable {run : RunContext} {n payloadBytes : Nat} {t : WorkloadTrace}

theorem eventAt_snoc (done : List WorkloadStep) (step : WorkloadStep) :
    run.eventAt (done ++ [step]) = run.eventAt done + (run.answer done step).length := by
  simp only [eventAt, RunContext.answers, recorded_snoc, List.length_cons, List.length_append, List.length_map]
  omega

theorem eventAt_le (done more : List WorkloadStep) : run.eventAt done ≤ run.eventAt (done ++ more) := by
  simp only [eventAt, RunContext.answers, recorded_append, List.length_cons, List.length_append]
  omega

theorem firstEvent_lt (done : List WorkloadStep) : run.guest.firstEvent < run.eventAt done := by
  simp only [eventAt, RunContext.answers, List.length_cons]
  omega

theorem ends_of_mem {choices : WorkloadChoicePlan} (h : PlanBounds choices n) {k : Nat} :
    (.start k ∈ workloadSteps choices → k = 1 ∨ k = 2) ∧ (.terminate k ∈ workloadSteps choices → k = 1) ∧
      (.stdinEof k ∈ workloadSteps choices → k = 2) := by
  rw [workloadSteps_eq h]
  simp only [List.mem_append, mem_stepsBefore, mem_requestBlock, openingSteps, faultSteps, List.mem_cons]
  refine ⟨?_, ?_, ?_⟩
  · simp
    omega
  · simp
  · simp

/-- The steps before the termination, before the second start and before the end of input. -/
def beforeTermination (choices : WorkloadChoicePlan) : List WorkloadStep :=
  stepsBefore choices choices.processFaultRequestIndex ++ [.spawnDescendant 1]

def beforeRestart (choices : WorkloadChoicePlan) : List WorkloadStep := beforeTermination choices ++ [.terminate 1]

/-- **The plan around its fault.** -/
theorem plan_around_fault {choices : WorkloadChoicePlan} (h : PlanBounds choices n) : ∃ rest,
    stepsBefore choices n = beforeTermination choices ++
      .terminate 1 :: .start 2 :: .echo 2 :: .state 2 :: rest := by
  refine ⟨.request 2 choices.processFaultRequestIndex :: (List.range' (choices.processFaultRequestIndex + 1)
    (n - (choices.processFaultRequestIndex + 1))).flatMap (requestBlock choices), ?_⟩
  rw [stepsBefore_split choices h.fault_lt, requestBlock_fault h]
  simp [beforeTermination, faultSteps]

theorem starts_eq (h : PlanBounds run.choices n) (hf : run.Follows (workloadSteps run.choices) t) :
    t.starts = [⟨1, run.launch, run.eventAt []⟩, ⟨2, run.launch, run.eventAt (beforeRestart run.choices)⟩] := by
  obtain ⟨rest, hbefore⟩ := plan_around_fault h
  have hplan := (workloadSteps_eq h).trans (congrArg (· ++ [.stdinEof 2]) hbefore)
  have hopening : beforeTermination run.choices = .start 1 :: (.echo 1 :: .state 1 ::
      (List.range run.choices.processFaultRequestIndex).flatMap (requestBlock run.choices) ++
          [.spawnDescendant 1]) := by
    simp [beforeTermination, stepsBefore, openingSteps]
  have hsplit : workloadSteps run.choices = [] ++ .start 1 :: ((.echo 1 :: .state 1 ::
      (List.range run.choices.processFaultRequestIndex).flatMap (requestBlock run.choices) ++
        [.spawnDescendant 1] ++ [.terminate 1]) ++
        .start 2 :: (.echo 2 :: .state 2 :: rest ++ [.stdinEof 2])) := by
    rw [hplan, hopening]
    simp
  rw [hf.starts, recorded_two (nodup_workloadSteps h) hsplit]
  · simp [startRecords, beforeRestart, hopening]
  · intro step hmem h1 h2 done
    cases step with
    | start k => rcases (ends_of_mem h).1 hmem with rfl | rfl <;> contradiction
    | _ => rfl

theorem terminations_eq (h : PlanBounds run.choices n) (hf : run.Follows (workloadSteps run.choices) t) :
    t.terminations = [⟨1, terminationSignal, run.eventAt (beforeTermination run.choices)⟩] := by
  obtain ⟨rest, hbefore⟩ := plan_around_fault h
  have hplan : workloadSteps run.choices = beforeTermination run.choices ++ .terminate 1 ::
      (.start 2 :: .echo 2 :: .state 2 :: rest ++ [.stdinEof 2]) := by
    rw [workloadSteps_eq h, hbefore]
    simp
  rw [hf.terminations, recorded_one (nodup_workloadSteps h) hplan]
  · rfl
  · intro step hmem hne done
    cases step with
    | terminate k => exact absurd (by rw [(ends_of_mem h).2.1 hmem]) hne
    | _ => rfl

/-- The plan between the termination and the end of input. -/
theorem plan_between_ends {choices : WorkloadChoicePlan} (h : PlanBounds choices n) : ∃ middle,
    stepsBefore choices n = beforeTermination choices ++ .terminate 1 :: middle ∧
    workloadSteps choices = beforeTermination choices ++ .terminate 1 :: (middle ++ .stdinEof 2 :: []) := by
  obtain ⟨rest, hbefore⟩ := plan_around_fault h
  refine ⟨_, hbefore, ?_⟩
  rw [workloadSteps_eq h, hbefore]
  simp

theorem exits_eq (h : PlanBounds run.choices n) (hf : run.Follows (workloadSteps run.choices) t) :
    t.exits = [run.exitRecord (beforeTermination run.choices) 1 (.signaled terminationSignal),
      run.exitRecord (stepsBefore run.choices n) 2 (.exited 0)] := by
  obtain ⟨middle, hbefore, hplan⟩ := plan_between_ends h
  rw [hf.exits, recorded_two (nodup_workloadSteps h) hplan, ← hbefore]
  · rfl
  · intro step hmem h1 h2 done
    cases step with
    | terminate k => exact absurd (by rw [(ends_of_mem h).2.1 hmem]) h1
    | stdinEof k => exact absurd (by rw [(ends_of_mem h).2.2 hmem]) h2
    | _ => rfl

theorem cleanups_eq (h : PlanBounds run.choices n) (hf : run.Follows (workloadSteps run.choices) t) :
    t.cleanups = [⟨1, 2, run.eventAt (beforeTermination run.choices) + 2⟩,
      ⟨2, run.guest.reaped, run.eventAt (stepsBefore run.choices n) + 2⟩] := by
  obtain ⟨middle, hbefore, hplan⟩ := plan_between_ends h
  rw [hf.cleanups, recorded_two (nodup_workloadSteps h) hplan, ← hbefore]
  · rfl
  · intro step hmem h1 h2 done
    cases step with
    | terminate k => exact absurd (by rw [(ends_of_mem h).2.1 hmem]) h1
    | stdinEof k => exact absurd (by rw [(ends_of_mem h).2.2 hmem]) h2
    | _ => rfl

/-- The plan around a transition of the network. -/
theorem plan_around_transition {choices : WorkloadChoicePlan} (h : PlanBounds choices n) {index : Nat}
    {transition : WorkloadStep} (hindex : index < n)
    (hblock : requestBlock choices index = [transition, .request (servingInvocation choices index) index]) :
    ∃ rest, workloadSteps choices = stepsBefore choices index ++ transition ::
      .request (servingInvocation choices index) index :: rest := by
  refine ⟨(List.range' (index + 1) (n - (index + 1))).flatMap (requestBlock choices) ++ [.stdinEof 2], ?_⟩
  rw [workloadSteps_eq h, stepsBefore_split choices hindex, hblock]
  simp

theorem activations_eq (h : PlanBounds run.choices n) (hf : run.Follows (workloadSteps run.choices) t) :
    t.activations = [(peerCidr run.scenario,
        run.eventAt (stepsBefore run.choices run.choices.outageActivationRequestIndex))] := by
  obtain ⟨rest, hplan⟩ := plan_around_transition h (lt_trans h.activation_lt h.restoration_lt)
    (requestBlock_activation h)
  rw [hf.activations, recorded_one (nodup_workloadSteps h) hplan]
  · rfl
  · intro step hmem hne done
    cases step with
    | activate => exact absurd rfl hne
    | _ => rfl

theorem restorations_eq (h : PlanBounds run.choices n) (hf : run.Follows (workloadSteps run.choices) t) :
    t.restorations =
        [(peerCidr run.scenario, run.eventAt (stepsBefore run.choices run.choices.restorationRequestIndex))] := by
  obtain ⟨rest, hplan⟩ := plan_around_transition h h.restoration_lt (requestBlock_restoration h)
  rw [hf.restorations, recorded_one (nodup_workloadSteps h) hplan]
  · rfl
  · intro step hmem hne done
    cases step with
    | restore => exact absurd rfl hne
    | _ => rfl

/-! ## The lines of the run -/

/-- A step of the plan stands at one place. -/
theorem position_unique {choices : WorkloadChoicePlan} (h : PlanBounds choices n) {step : WorkloadStep}
    {earlier later earlier' later' : List WorkloadStep} (heq : workloadSteps choices = earlier ++ step :: later)
    (heq' : workloadSteps choices = earlier' ++ step :: later') : earlier' = earlier := by
  have hnot := List.nodup_middle.mp (heq' ▸ nodup_workloadSteps h)
  rw [List.nodup_cons, List.mem_append, not_or] at hnot
  exact ((List.append_cons_inj_of_notMem hnot.1.1 hnot.1.2).mp (heq'.symm.trans heq)).1

/-- The line that answers a step, when no other step is answered so. -/
theorem anyStdoutLine_eq (h : PlanBounds run.choices n) (hf : run.Follows (workloadSteps run.choices) t)
    {step : WorkloadStep} {earlier later : List WorkloadStep} {k : Nat} {text : Text}
    (hplan : workloadSteps run.choices = earlier ++ step :: later) (htext : text ∈ responses run.choices k step)
    (honly : ∀ j, ∀ s ∈ workloadSteps run.choices, text ∈ responses run.choices j s → s = step) :
    t.anyStdoutLine text = some ⟨text, run.eventAt earlier + 1, run.eventAt earlier + 1⟩ := by
  refine @find?_invocations t _ (fun s => s.stdout.lines) _ k _ rfl ?_ (by simp) fun j line hline hmatch => ?_
  · rw [hf.streams]
    exact mem_recorded.mpr ⟨earlier, step, later, hplan, List.mem_map.mpr ⟨text, htext, by simp⟩⟩
  · rw [hf.streams] at hline
    obtain ⟨earlier', step', later', hplan', hmem⟩ := mem_recorded.mp hline
    obtain ⟨text', htext', rfl⟩ := List.mem_map.mp hmem
    have heq : text' = text := by simpa using hmatch
    subst heq
    have hstep := honly j step' (by rw [hplan']; simp) htext'
    subst hstep
    rw [position_unique h hplan hplan']
    rfl

/-- The response to a request with the acknowledgement of its line. -/
theorem stdoutLineWithAck_eq (h : Planned run.choices n payloadBytes)
    (hf : run.Follows (workloadSteps run.choices) t)
    {index : Nat} {earlier later : List WorkloadStep} (hindex : index < n)
    (hplan : workloadSteps run.choices = earlier ++
      .request (servingInvocation run.choices index) index :: later) :
    t.stdoutLineWithAck (networkLine run.choices index) =
      some (⟨networkLine run.choices index, run.eventAt earlier + 1, run.eventAt earlier + 1⟩,
          run.eventAt earlier) := by
  have hpairs : ∀ k, WorkloadTrace.linesWithAck (run.streamsOf (workloadSteps run.choices) k) =
      recorded (answeredRecords run k) [] (workloadSteps run.choices) := fun k =>
    (answered_steps (orderly_workloadSteps h) k).pairs
  obtain ⟨request, hrequest, hdialogue, -⟩ := @Planned.dialogue_request _ _ _ h index
    (servingInvocation run.choices index) hindex
  have hresponse : expectedNetworkLine request
      (requestPhase index run.choices.outageActivationRequestIndex run.choices.restorationRequestIndex) =
      networkLine run.choices index := by
    rw [networkLine, hrequest]
    rfl
  rw [hresponse] at hdialogue
  refine @find?_invocations t _ WorkloadTrace.linesWithAck _ (servingInvocation run.choices index) _ rfl
    ?_ (by simp) fun j pair hpair hmatch => ?_
  · rw [hf.streams, hpairs]
    refine mem_recorded.mpr ⟨earlier, _, later, hplan, ?_⟩
    simp [answeredRecords, hdialogue]
  · rw [hf.streams, hpairs] at hpair
    obtain ⟨earlier', step', later', hplan', hmem⟩ := mem_recorded.mp hpair
    unfold answeredRecords at hmem
    split at hmem
    · rename_i j' input response hdialogue'
      rw [List.mem_ite_nil_right, List.mem_singleton] at hmem
      obtain ⟨rfl, rfl⟩ := hmem
      have htext : response = networkLine run.choices index := by simpa using hmatch
      have hin : response ∈ responses run.choices j' step' := by rw [responses_of_dialogue hdialogue']; simp
      obtain ⟨rfl, rfl⟩ := (answers_of_mem h (by rw [hplan']; simp) hin).of_network h hindex htext
      rw [position_unique h.bounds hplan hplan', htext]
      rfl
    · cases hmem

/-! ## The five properties -/

theorem stdoutLines_texts (h : Planned run.choices n payloadBytes) (hf : run.Follows (workloadSteps run.choices) t)
    {k : Nat} (hk : k = 1 ∨ k = 2) : (t.stdoutLines k).map CompletedLine.text = expectedLines run.choices k := by
  have htexts : ∀ before steps : List WorkloadStep,
      (recorded (run.lineRecords k) before steps).map CompletedLine.text =
      steps.flatMap (responses run.choices k) := by
    intro before steps
    induction steps generalizing before with
    | nil => rfl
    | cons step steps ih =>
      rw [recorded, List.map_append, ih, List.flatMap_cons, lineRecords, List.map_map]
      simp [Function.comp_def]
  rw [WorkloadTrace.stdoutLines, hf.streams, ← responses_workloadSteps h hk]
  exact htexts [] _

theorem mem_networkLines (h : Planned run.choices n payloadBytes) {text : Text}
    (hmem : text ∈ networkLines run.choices) : text.head? = some 110 := by
  rw [networkLines_eq h.bounds.requests_length] at hmem
  obtain ⟨index, -, rfl⟩ := List.mem_map.mp hmem
  exact head_networkLine run.choices index

/-- The only line about the state of the root says that it is fresh. -/
theorem expectedLines_state (h : Planned run.choices n payloadBytes) (k : Nat) :
    (expectedLines run.choices k).count freshStateLine = 1 ∧
      ∀ text ∈ expectedLines run.choices k, stateLinePrefix.isPrefixOf text = true → text = freshStateLine := by
  have hnetwork : ∀ text ∈ networkLines run.choices, text ≠ freshStateLine ∧
      stateLinePrefix.isPrefixOf text = false := by
    intro text hmem
    have hhead := mem_networkLines h hmem
    refine ⟨fun heq => ?_, ?_⟩
    · rw [heq] at hhead
      cases hhead
    · cases text with
      | nil => cases hhead
      | cons byte rest =>
        cases hhead
        rfl
  obtain ⟨tail, htail, hlines⟩ : ∃ tail : List Text, (∀ text ∈ tail, text ≠ freshStateLine ∧
      stateLinePrefix.isPrefixOf text = false) ∧ expectedLines run.choices k =
      [readyLine, utf8 "echo value=" ++ echoToken run.choices.seed k, freshStateLine] ++ tail := by
    refine ⟨_, fun text hmem => ?_, rfl⟩
    split_ifs at hmem
    · rcases List.mem_append.mp hmem with hmem | hmem
      · exact hnetwork text (List.mem_of_mem_take hmem)
      · rw [List.mem_singleton.mp hmem]
        exact ⟨by decide, by decide⟩
    · exact hnetwork text (List.mem_of_mem_drop hmem)
  rw [hlines]
  have hecho : utf8 "echo value=" ++ echoToken run.choices.seed k ≠ freshStateLine := fun heq => by cases heq
  refine ⟨?_, fun text hmem hpre => ?_⟩
  · rw [List.count_append, List.count_eq_zero.mpr fun hmem => (htail _ hmem).1 rfl]
    simp [List.count_cons, hecho, show (readyLine == freshStateLine) = false by decide]
  · rcases List.mem_append.mp hmem with hmem | hmem
    · simp only [List.mem_cons, List.not_mem_nil, or_false] at hmem
      rcases hmem with rfl | rfl | rfl
      · cases hpre
      · cases hpre
      · rfl
    · rw [(htail text hmem).2] at hpre
      cases hpre

theorem allViolations_eq (hf : run.Follows (workloadSteps run.choices) t) : t.allViolations = [] := by
  rw [List.eq_nil_iff_forall_not_mem]
  intro violation hmem
  rcases WorkloadTrace.mem_allViolations.mp hmem with hmem | ⟨k, hmem⟩
  · rw [hf.violations] at hmem
    cases hmem
  · rw [hf.streams] at hmem
    cases hmem

/-- The line of the escaped descendant. -/
theorem escapedLine_eq (h : Planned run.choices n payloadBytes) (hf : run.Follows (workloadSteps run.choices) t) :
    t.anyStdoutLine escapedDescendantLine = some ⟨escapedDescendantLine,
      run.eventAt (stepsBefore run.choices run.choices.processFaultRequestIndex) + 1,
      run.eventAt (stepsBefore run.choices run.choices.processFaultRequestIndex) + 1⟩ := by
  obtain ⟨rest, hbefore⟩ := plan_around_fault h.bounds
  have hplan : workloadSteps run.choices = stepsBefore run.choices run.choices.processFaultRequestIndex ++
      .spawnDescendant 1 :: (.terminate 1 :: .start 2 :: .echo 2 :: .state 2 :: rest ++ [.stdinEof 2]) := by
    rw [workloadSteps_eq h.bounds, hbefore, beforeTermination]
    simp
  exact anyStdoutLine_eq h.bounds hf hplan (show escapedDescendantLine ∈ responses run.choices 1 _ from
    List.mem_singleton.mpr rfl) fun j s hs htext => (answers_of_mem h hs htext).of_escaped rfl

/-- The ends of the first invocation follow that line. -/
theorem eventAt_beforeTermination : run.eventAt (beforeTermination run.choices) =
    run.eventAt (stepsBefore run.choices run.choices.processFaultRequestIndex) + 2 := eventAt_snoc _ _

theorem eventAt_beforeRestart :
    run.eventAt (beforeRestart run.choices) = run.eventAt (beforeTermination run.choices) + 3 := eventAt_snoc _ _

theorem processSafety_conforming (h : Planned run.choices n payloadBytes)
    (hf : run.Follows (workloadSteps run.choices) t) : (processSafety t run.choices run.launch).isOk = true := by
  have hescaped := escapedLine_eq h hf
  have hspawn := @eventAt_beforeTermination run
  have hterminate := @eventAt_beforeRestart run
  have hfresh : ∀ k, k = 1 ∨ k = 2 → (t.stdoutLines k).countP (·.text == freshStateLine) = 1 := by
    intro k hk
    rw [← (expectedLines_state h k).1, ← stdoutLines_texts h hf hk, List.count, List.countP_map]
    rfl
  have hstale : ((t.stdoutLines 1 ++ t.stdoutLines 2).find? fun line =>
      stateLinePrefix.isPrefixOf line.text && line.text != freshStateLine) = none := by
    rw [List.find?_eq_none]
    intro line hline
    have htext : ∀ k, k = 1 ∨ k = 2 → line ∈ t.stdoutLines k → line.text ∈ expectedLines run.choices k := by
      intro k hk hmem
      rw [← stdoutLines_texts h hf hk]
      exact List.mem_map_of_mem hmem
    rw [Bool.and_eq_true, bne_iff_ne, not_and_not_right]
    rcases List.mem_append.mp hline with hmem | hmem
    · exact (expectedLines_state h 1).2 _ (htext 1 (.inl rfl) hmem)
    · exact (expectedLines_state h 2).2 _ (htext 2 (.inr rfl) hmem)
  have hfault : run.choices.processFaultRequestIndex ≠ 0 := Nat.pos_iff_ne_zero.mp h.bounds.fault_pos
  unfold processSafety
  simp only [allViolations_eq hf, hf.launchFailures, starts_eq h.bounds hf, terminations_eq h.bounds hf,
    exits_eq h.bounds hf, cleanups_eq h.bounds hf, hescaped, hfresh 1 (.inl rfl), hfresh 2 (.inr rfl), hstale,
    WorkloadTrace.cleaned]
  have hbind : ∀ {α : Type} (a : α) (f : α → Except Text Text), (Except.ok a >>= f) = f a := fun _ _ => rfl
  simp [demand, demandNone, demandSome, exitRecord, hspawn, hterminate, hfault, hbind]
  rfl

theorem invocationResponses_conforming (h : Planned run.choices n payloadBytes)
    (hf : run.Follows (workloadSteps run.choices) t) {k : Nat} (hk : k = 1 ∨ k = 2) :
    invocationResponses t run.choices k = .ok () := by
  have hanswered := answered_steps (orderly_workloadSteps h) k
  have htexts := stdoutLines_texts h hf hk
  have hlength : (t.stdoutLines k).length =
    (expectedLines run.choices k).length := by rw [← htexts, List.length_map]
  have hstart : .start k ∈ workloadSteps run.choices := by
    have hdone := doneBefore_stepsBefore run.choices n
    rw [workloadSteps_eq h.bounds]
    rcases hk with rfl | rfl
    · exact List.mem_append_left _ hdone.first
    · exact List.mem_append_left _ (hdone.second.mpr h.bounds.fault_lt)
  have hdata : (t.streams k).dataInputEvents.length = (expectedLines run.choices k).length - 1 := by
    have hcount := hanswered.length
    rw [if_pos hstart] at hcount
    rw [← hlength, WorkloadTrace.stdoutLines, hf.streams]
    exact (Nat.sub_eq_of_eq_add hcount).symm
  have heofs : (t.streams k).eofInputs = if k = 2 then 1 else 0 := by
    rw [hf.streams]
    show (workloadSteps run.choices).count (.stdinEof k) = _
    rw [(nodup_workloadSteps h.bounds).count]
    have hmem : .stdinEof k ∈ workloadSteps run.choices ↔ k = 2 := by
      refine ⟨(ends_of_mem h.bounds).2.2, ?_⟩
      rintro rfl
      rw [workloadSteps_eq h.bounds]
      simp
    simp only [hmem]
  have hmatch : ∀ pair ∈ (t.stdoutLines k).zip (expectedLines run.choices k), pair.1.text = pair.2 := by
    rw [← htexts, ← List.map_prod_left_eq_zip]
    intro pair hpair
    obtain ⟨line, -, rfl⟩ := List.mem_map.mp hpair
    rfl
  have hacks : ∀ pair ∈ (t.streams k).dataInputEvents.zip ((t.stdoutLines k).drop 1),
      pair.1 < pair.2.firstEventId := by
    rintro ⟨acknowledged, line⟩ hpair
    have hswap : (line, acknowledged) ∈ ((t.stdoutLines k).drop 1).zip (t.streams k).dataInputEvents := by
      rw [← List.zip_swap]
      exact List.mem_map.mpr ⟨_, hpair, rfl⟩
    rw [WorkloadTrace.stdoutLines, hf.streams] at hswap
    have hrecorded : (line, acknowledged) ∈ recorded (answeredRecords run k) [] (workloadSteps run.choices) := by
      rw [← hanswered.pairs]
      exact hswap
    obtain ⟨earlier, step, later, -, hmem⟩ := mem_recorded.mp hrecorded
    unfold answeredRecords at hmem
    split at hmem
    · rw [List.mem_ite_nil_right, List.mem_singleton] at hmem
      obtain ⟨-, heq⟩ := hmem
      cases heq
      exact Nat.lt_succ_self _
    · cases hmem
  unfold invocationResponses
  dsimp only
  rw [List.findIdx?_eq_none_iff.mpr ?_, List.findIdx?_eq_none_iff.mpr ?_]
  · simp only [hlength, hdata, heofs, demandNone, demand, beq_self_eq_true, Bool.and_self, if_true]
    rfl
  · exact fun pair hpair => by simpa using hacks pair hpair
  · exact fun pair hpair => by simpa using hmatch pair hpair

theorem emitted_append_silent {choices : WorkloadChoicePlan} {done more : List WorkloadStep} {k : Nat}
    (h : ∀ step ∈ more, responses choices k step = []) :
    (done ++ more).flatMap (responses choices k) = done.flatMap (responses choices k) := by
  rw [List.flatMap_append, List.flatMap_eq_nil_iff.mpr h, List.append_nil]

/-- The exit of the first invocation follows its last line. -/
theorem silent_after_termination (h : Planned run.choices n payloadBytes) :
    (workloadSteps run.choices).flatMap (responses run.choices 1) =
      (beforeTermination run.choices).flatMap (responses run.choices 1) := by
  obtain ⟨middle, -, hplan⟩ := plan_between_ends h.bounds
  have hnodup := nodup_workloadSteps h.bounds
  rw [hplan] at hnodup ⊢
  refine emitted_append_silent fun step hmem => ?_
  have hnot : step ∉ beforeTermination run.choices :=
    fun hin => (List.nodup_append.mp hnodup).2.2 step hin step hmem rfl
  rw [List.eq_nil_iff_forall_not_mem]
  intro text htext
  have hanswers := answers_of_mem h (by rw [hplan]; exact List.mem_append_right _ hmem) htext
  have hdone := doneBefore_stepsBefore run.choices run.choices.processFaultRequestIndex
  have hopening : ∀ s ∈ openingSteps, s ∈ beforeTermination run.choices := fun s hs =>
    List.mem_append_left _ (mem_stepsBefore.mpr (Or.inl hs))
  cases hanswers with
  | ready => exact hnot (hopening _ (by simp [openingSteps]))
  | echo => exact hnot (hopening _ (by simp [openingSteps]))
  | state => exact hnot (hopening _ (by simp [openingSteps]))
  | escaped _ => exact hnot (by simp [beforeTermination])
  | @request index hindex hserving =>
    refine hnot (List.mem_append_left _ (mem_stepsBefore.mpr (Or.inr ⟨index, ?_, ?_⟩)))
    · unfold servingInvocation at hserving
      split_ifs at hserving with hlt
      · exact hlt
      · cases hserving
    · rw [hserving]
      exact mem_requestBlock.mpr (Or.inr (Or.inr (Or.inr rfl)))

/-- An exit record that follows the last line of its invocation matches the streams. -/
theorem exitTotals_conforming (hf : run.Follows (workloadSteps run.choices) t) {done : List WorkloadStep} {k : Nat}
    (hsilent : (workloadSteps run.choices).flatMap (responses run.choices k) =
      done.flatMap (responses run.choices k))
    (exit : ProcessExit) : exitTotals run.sha256 t (run.exitRecord done k exit) = .ok () := by
  have hemitted : emitted run.choices (workloadSteps run.choices) k = emitted run.choices done k := by
    rw [emitted, hsilent, emitted]
  unfold exitTotals
  rw [show (run.exitRecord done k exit).invocation = k from rfl, hf.streams]
  simp [demand, exitRecord, streamsOf, hemitted, hsilent]
  rfl

theorem responseIntegrity_conforming (h : Planned run.choices n payloadBytes)
    (hf : run.Follows (workloadSteps run.choices) t) :
    (responseIntegrity run.sha256 t run.choices).isOk = true := by
  have hlast : (workloadSteps run.choices).flatMap (responses run.choices 2) =
      (stepsBefore run.choices n).flatMap (responses run.choices 2) := by
    rw [workloadSteps_eq h.bounds]
    exact emitted_append_silent fun step hmem => by rw [List.mem_singleton.mp hmem]; rfl
  have hstderr : ∀ k, t.stderrLines k = [] := fun k => by rw [WorkloadTrace.stderrLines, hf.streams]; rfl
  have hexits : t.exits.forM (exitTotals run.sha256 t) = .ok () := by
    rw [exits_eq h.bounds hf, forM_eq_ok]
    intro exit hmem
    simp only [List.mem_cons, List.not_mem_nil, or_false] at hmem
    rcases hmem with rfl | rfl
    · exact exitTotals_conforming hf (silent_after_termination h) _
    · exact exitTotals_conforming hf hlast _
  unfold responseIntegrity
  rw [invocationResponses_conforming h hf (.inl rfl), invocationResponses_conforming h hf (.inr rfl),
    hstderr, hstderr, hexits, allViolations_eq hf]
  rfl

theorem activationOfScenario_eq (h : PlanBounds run.choices n) (hf : run.Follows (workloadSteps run.choices) t) :
    activationOfScenario t run.scenario = some (peerCidr run.scenario,
      run.eventAt (stepsBefore run.choices run.choices.outageActivationRequestIndex)) := by
  have hlt := @firstEvent_lt run (stepsBefore run.choices run.choices.outageActivationRequestIndex)
  simp [activationOfScenario, hf.configured, activations_eq h hf, Option.filter, hlt]

/-- The outage is lifted after the first request that it covers was answered. -/
theorem activation_before_restoration (h : PlanBounds run.choices n) :
    run.eventAt (stepsBefore run.choices run.choices.outageActivationRequestIndex ++ [.activate]) + 2 ≤
      run.eventAt (stepsBefore run.choices run.choices.restorationRequestIndex) := by
  have hrequest : ∀ done k index, (∃ request, run.choices.requests[index]? = some request) →
      (run.answer done (.request k index)).length = 2 := by
    rintro done k index ⟨request, hrequest⟩
    simp [answer, WorkloadStep.dialogue, hrequest]
  have hexists : ∃ request, run.choices.requests[run.choices.outageActivationRequestIndex]? = some request := by
    refine ⟨_, List.getElem?_eq_getElem ?_⟩
    rw [h.requests_length]
    exact lt_trans h.activation_lt h.restoration_lt
  rw [stepsBefore_split run.choices h.activation_lt, requestBlock_activation h]
  have hsnoc := @eventAt_snoc run (stepsBefore run.choices run.choices.outageActivationRequestIndex ++ [.activate])
    (.request (servingInvocation run.choices run.choices.outageActivationRequestIndex)
      run.choices.outageActivationRequestIndex)
  rw [hrequest _ _ _ hexists] at hsnoc
  rw [← hsnoc]
  refine le_trans (eventAt_le _ ((List.range' (run.choices.outageActivationRequestIndex + 1)
    (run.choices.restorationRequestIndex - (run.choices.outageActivationRequestIndex + 1))).flatMap
      (requestBlock run.choices))) (le_of_eq (congrArg run.eventAt ?_))
  simp

theorem restorationOfScenario_eq (h : PlanBounds run.choices n) (hf : run.Follows (workloadSteps run.choices) t) :
    restorationOfScenario t run.scenario = some (peerCidr run.scenario,
      run.eventAt (stepsBefore run.choices run.choices.restorationRequestIndex)) := by
  have hlt := activation_before_restoration h
  have hle := @eventAt_le run (stepsBefore run.choices run.choices.outageActivationRequestIndex) [.activate]
  have hafter : run.eventAt (stepsBefore run.choices run.choices.outageActivationRequestIndex) <
      run.eventAt (stepsBefore run.choices run.choices.restorationRequestIndex) := by omega
  simp [restorationOfScenario, activationOfScenario_eq h hf, restorations_eq h hf, hafter]

/-- The first request of the outage and of the recovery are those before which the transitions fall. -/
theorem firstOfPhase_eq {choices : WorkloadChoicePlan} (h : PlanBounds choices n) :
    firstOfPhase choices .outage = some choices.outageActivationRequestIndex ∧
      firstOfPhase choices .recovery = some choices.restorationRequestIndex := by
  have hlt := h.activation_lt
  have hlt' := h.restoration_lt
  unfold firstOfPhase
  rw [h.requests_length, List.find?_range_eq_some, List.find?_range_eq_some]
  refine ⟨⟨?_, ?_, fun j hj => ?_⟩, ⟨?_, ?_, fun j hj => ?_⟩⟩
  · simp [requestPhase, hlt]
  · rw [List.mem_range]
    omega
  · simp [requestPhase, hj]
  · simp [requestPhase, Nat.not_lt.mpr hlt.le]
  · rw [List.mem_range]
    omega
  · simp only [requestPhase]
    split_ifs <;> simp

theorem networkLine_eq {choices : WorkloadChoicePlan} {index : Nat} {request : PlannedRequest}
    {phase : RequestPhase} (hrequest : choices.requests[index]? = some request)
    (hphase : requestPhase index choices.outageActivationRequestIndex choices.restorationRequestIndex = phase) :
    expectedNetworkLine request phase = networkLine choices index := by
  rw [networkLine, hrequest, hphase]
  rfl

/-- The first request of a phase is answered two events after the transition before it. -/
theorem answer_after_transition (h : Planned run.choices n payloadBytes)
    (hf : run.Follows (workloadSteps run.choices) t)
    {index : Nat} {transition : WorkloadStep} (hindex : index < n)
    (hone : ∀ done, (run.answer done transition).length = 1)
    (hblock : requestBlock run.choices index = [transition,
      .request (servingInvocation run.choices index) index]) :
    t.stdoutLineWithAck (networkLine run.choices index) =
      some (⟨networkLine run.choices index, run.eventAt (stepsBefore run.choices index) + 2,
        run.eventAt (stepsBefore run.choices index) + 2⟩, run.eventAt (stepsBefore run.choices index) + 1) := by
  obtain ⟨rest, hplan⟩ := plan_around_transition h.bounds hindex hblock
  rw [List.append_cons] at hplan
  rw [stdoutLineWithAck_eq h hf hindex hplan, eventAt_snoc, hone]

theorem observedOutage_conforming (h : Planned run.choices n payloadBytes)
    (hf : run.Follows (workloadSteps run.choices) t)
    (hbound : 2 ≤ run.scenario.outageEventBound) : (observedOutage t run.scenario run.choices).isSome = true := by
  have hlt := h.bounds.activation_lt
  obtain ⟨request, hrequest⟩ := h.exists_request (lt_trans hlt h.bounds.restoration_lt)
  have hline := networkLine_eq hrequest (show requestPhase _ run.choices.outageActivationRequestIndex
    run.choices.restorationRequestIndex = .outage by simp [requestPhase, hlt])
  have hanswer := answer_after_transition h hf (lt_trans hlt h.bounds.restoration_lt) (fun _ => rfl)
    (requestBlock_activation h.bounds)
  have hrestored := @activation_before_restoration run n h.bounds
  rw [eventAt_snoc, show (run.answer _ .activate).length = 1 from rfl] at hrestored
  simp [observedOutage, activationOfScenario_eq h.bounds hf, (firstOfPhase_eq h.bounds).1, hrequest,
    hline, hanswer, restorationOfScenario_eq h.bounds hf, show run.eventAt (stepsBefore run.choices
      run.choices.outageActivationRequestIndex) + 2 < run.eventAt (stepsBefore run.choices
      run.choices.restorationRequestIndex) by omega]
  omega

theorem observedRecovery_conforming (h : Planned run.choices n payloadBytes)
    (hf : run.Follows (workloadSteps run.choices) t) (hbound : 2 ≤ run.scenario.livenessEventBound) :
    (observedRecovery t run.scenario run.choices).isSome = true := by
  have hlt := h.bounds.activation_lt
  obtain ⟨request, hrequest⟩ := h.exists_request h.bounds.restoration_lt
  have hline := networkLine_eq hrequest (show requestPhase _ run.choices.outageActivationRequestIndex
    run.choices.restorationRequestIndex = .recovery by simp [requestPhase, Nat.not_lt.mpr hlt.le])
  have hanswer := answer_after_transition h hf h.bounds.restoration_lt (fun _ => rfl)
    (requestBlock_restoration h.bounds)
  simp [observedRecovery, restorationOfScenario_eq h.bounds hf, (firstOfPhase_eq h.bounds).2, hrequest,
    hline, hanswer]
  omega

/-- The echo of the restarted invocation. -/
theorem restartLine_eq (h : Planned run.choices n payloadBytes) (hf : run.Follows (workloadSteps run.choices) t) :
    (t.stdoutLines 2).find? (·.text == utf8 "echo value=" ++ echoToken run.choices.seed 2) =
      some ⟨utf8 "echo value=" ++ echoToken run.choices.seed 2, run.eventAt (beforeRestart run.choices) + 3,
        run.eventAt (beforeRestart run.choices) + 3⟩ := by
  obtain ⟨rest, hbefore⟩ := plan_around_fault h.bounds
  have hplan : workloadSteps run.choices = (beforeRestart run.choices ++ [.start 2]) ++ .echo 2 ::
      (.state 2 :: rest ++ [.stdinEof 2]) := by
    rw [workloadSteps_eq h.bounds, hbefore, beforeRestart]
    simp
  have hevent : run.eventAt (beforeRestart run.choices ++ [.start 2]) =
      run.eventAt (beforeRestart run.choices) + 2 :=
    eventAt_snoc _ _
  rw [WorkloadTrace.stdoutLines, hf.streams]
  refine find?_of_unique ?_ (by simp) fun line hline hmatch => ?_
  · refine mem_recorded.mpr ⟨_, _, _, hplan, ?_⟩
    simp [lineRecords, responses, WorkloadStep.dialogue, hevent]
  · obtain ⟨earlier', step', later', hplan', hmem⟩ := mem_recorded.mp hline
    obtain ⟨text, htext, rfl⟩ := List.mem_map.mp hmem
    have heq : text = utf8 "echo value=" ++ echoToken run.choices.seed 2 := by simpa using hmatch
    have hstep := (answers_of_mem h (by rw [hplan']; simp) htext).of_echo heq
    subst hstep heq
    rw [position_unique h.bounds hplan hplan', List.nil_append, hevent]

theorem observedRestart_conforming (h : Planned run.choices n payloadBytes)
    (hf : run.Follows (workloadSteps run.choices) t) (hbound : 3 ≤ run.scenario.livenessEventBound) :
    (observedRestart t run.scenario run.choices).isSome = true := by
  simp [observedRestart, starts_eq h.bounds hf, restartLine_eq h hf]
  omega

theorem evaluators_conforming (h : Planned run.choices n payloadBytes)
    (hf : run.Follows (workloadSteps run.choices) t)
    (houtage : 2 ≤ run.scenario.outageEventBound) (hliveness : 3 ≤ run.scenario.livenessEventBound) :
    (controlledOutage t run.scenario run.choices).isOk = true ∧ (restorationResult t run.scenario).isOk = true ∧
      (boundedRecovery t run.scenario run.choices).isOk = true := by
  obtain ⟨outage, houtage⟩ := Option.isSome_iff_exists.mp (observedOutage_conforming h hf houtage)
  obtain ⟨recovery, hrecovery⟩ := Option.isSome_iff_exists.mp (observedRecovery_conforming h hf (by omega))
  obtain ⟨restart, hrestart⟩ := Option.isSome_iff_exists.mp (observedRestart_conforming h hf hliveness)
  refine ⟨?_, ?_, ?_⟩
  · rw [controlledOutage, houtage]
    rfl
  · rw [restorationResult, restorationOfScenario_eq h.bounds hf]
    rfl
  · rw [boundedRecovery, hrecovery, hrestart]
    rfl

theorem passed_assertion (name : AssertionName) (r : Except Text Text) : (assertion name r).passed = r.isOk := by
  cases r <;> rfl

theorem name_assertion (name : AssertionName) (r : Except Text Text) : (assertion name r).name = name := by
  cases r <;> rfl

theorem evaluateTrace_conforming (h : Planned run.choices n payloadBytes)
    (hf : run.Follows (workloadSteps run.choices) t) (houtage : 2 ≤ run.scenario.outageEventBound)
    (hliveness : 3 ≤ run.scenario.livenessEventBound) :
    (evaluateTrace run.sha256 t run.scenario run.choices run.launch).assertions.map (fun a => (a.name, a.passed)) =
      workloadProfile.map (·, true) := by
  obtain ⟨hcontrolled, hrestored, hrecovered⟩ := evaluators_conforming h hf houtage hliveness
  simp only [evaluateTrace, List.map_cons, List.map_nil, passed_assertion, name_assertion, workloadProfile,
    processSafety_conforming h hf, responseIntegrity_conforming h hf, hcontrolled, hrestored, hrecovered]

end Records

/-- **A conforming guest passes.**  Every property of the report on its events passed. -/
theorem evaluateWorkload_conforming (run : RunContext) (hvalid : run.scenario.validate = .ok ())
    (houtage : 2 ≤ run.scenario.outageEventBound) (hliveness : 3 ≤ run.scenario.livenessEventBound) :
    (evaluateWorkload run.sha256 (run.events (workloadSteps run.choices)) run.scenario run.choices
      run.launch).passed = true ∧
    (evaluateWorkload run.sha256 (run.events (workloadSteps run.choices)) run.scenario run.choices
      run.launch).assertions.map (fun a => (a.name, a.passed)) = workloadProfile.map (·, true) := by
  have hplanned : Planned run.choices run.scenario.requestCount run.scenario.payloadBytes := by
    rw [run.seeded]
    exact planned_choices hvalid run.seed
  have hf : run.Follows (workloadSteps run.choices)
      (WorkloadTrace.ofEvents (run.events (workloadSteps run.choices))) :=
    follows_events (WorkloadScenario.validate_shape hvalid).peer_eq (orderly_workloadSteps hplanned)
      fun done hdone => countable_plan hplanned hdone
  have hall := evaluateTrace_conforming hplanned hf houtage hliveness
  refine ⟨?_, hall⟩
  show (evaluateTrace run.sha256 _ run.scenario run.choices run.launch).assertions.all (·.passed) = true
  rw [List.all_eq_true]
  intro a ha
  have hmem := List.mem_map_of_mem (f := fun a : AssertionResult => (a.name, a.passed)) ha
  rw [hall] at hmem
  obtain ⟨name, -, heq⟩ := List.mem_map.mp hmem
  exact (Prod.mk.inj heq).2.symm

/-- A guest that counts its commands and events from one. -/
def sampleGuest : ConformingGuest := ⟨1, (· + 1), strictMono_nat_of_lt_succ fun _ => Nat.lt_succ_self _,
    fun _ => {}, 1, by decide⟩

def sampleContext : RunContext := ⟨sampleSha256, sampleScenario, 8, samplePlan, rfl, sampleLaunch, sampleGuest⟩

theorem evaluateWorkload_conforming_sample : sampleScenario.validate = .ok () ∧
    (evaluateWorkload sampleSha256 (sampleContext.events (workloadSteps samplePlan)) sampleScenario samplePlan
      sampleLaunch).passed = true := by
  have hvalid : sampleScenario.validate = .ok () := by decide +kernel
  exact ⟨hvalid, (evaluateWorkload_conforming sampleContext hvalid (by decide) (by decide)).1⟩

end SimFerret.Driver
