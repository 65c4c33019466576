import SimFerret.Driver.Abandoned

/-!
# SimFerret.Driver.Phases — every request of a passing run falls in its phase

The checker looks at the first request of the outage and of the recovery only.  That every request was
acknowledged and answered in its phase follows from the order of the steps: each step waits for the frame it
asked for, and a passing trace holds one activation, one restoration and exactly the inputs the plan writes.

* `received_within`: the frame a step waits for lies between the frames around the step.
* `request_served`: where a request is acknowledged and answered.
* `driveWorkloadScenario_phases`: both events lie in the window of the request's phase.
-/

namespace SimFerret.Driver

open Checker Workload
open WorkloadTrace (ofEvents)

/-! ## Positions in the plan -/

/-- The position of a request's line among the lines written to its invocation. -/
def requestPosition (choices : WorkloadChoicePlan) (index : Nat) : Nat :=
  if index < choices.processFaultRequestIndex then 2 + index else 2 + (index - choices.processFaultRequestIndex)

/-- The steps before a request. -/
def stepsUpTo (choices : WorkloadChoicePlan) (index : Nat) : List WorkloadStep :=
  stepsBefore choices index ++ transitionSteps choices index

/-- The steps behind a request. -/
def stepsAfter (choices : WorkloadChoicePlan) (n index : Nat) : List WorkloadStep :=
  (List.range' (index + 1) (n - (index + 1))).flatMap (requestBlock choices) ++ [.stdinEof 2]

/-- The plan around a request. -/
theorem workloadSteps_split {choices : WorkloadChoicePlan} {n index : Nat} (h : PlanBounds choices n)
    (hindex : index < n) : workloadSteps choices =
      stepsUpTo choices index ++ .request (servingInvocation choices index) index ::
        stepsAfter choices n index := by
  have hrange : List.range n = List.range index ++ index :: List.range' (index + 1) (n - (index + 1)) := by
    have happend := @List.range'_append_1 0 index (n - (index + 1) + 1)
    rw [List.range'_succ, Nat.zero_add, show index + (n - (index + 1) + 1) = n by omega] at happend
    rw [List.range_eq_range', List.range_eq_range', happend]
  rw [workloadSteps_eq h, stepsBefore, hrange, List.flatMap_append, List.flatMap_cons, requestBlock, stepsUpTo,
    stepsBefore, stepsAfter]
  simp

/-- Where a transition stands that falls before the request at `j`. -/
theorem transition_mem {choices : WorkloadChoicePlan} {n index j : Nat} {x : WorkloadStep}
    (hx : x ∈ transitionSteps choices j) (hj : j < n) :
    (j ≤ index → x ∈ stepsUpTo choices index) ∧ (index < j → x ∈ stepsAfter choices n index) := by
  constructor
  · intro hle
    rcases Nat.lt_or_eq_of_le hle with hlt | rfl
    · refine List.mem_append_left _ (List.mem_append_right _
        (List.mem_flatMap.mpr ⟨j, List.mem_range.mpr hlt, ?_⟩))
      exact List.mem_append_left _ hx
    · exact List.mem_append_right _ hx
  · intro hlt
    refine List.mem_append_left _ (List.mem_flatMap.mpr ⟨j, List.mem_range'_1.mpr ⟨hlt, by omega⟩, ?_⟩)
    exact List.mem_append_left _ hx

theorem count_writes_upTo (choices : WorkloadChoicePlan) (index : Nat) :
    ((stepsUpTo choices index).flatMap WorkloadStep.writes).count (servingInvocation choices index) =
      requestPosition choices index := by
  rw [stepsUpTo, List.flatMap_append, List.count_append, count_writes, count_transitions rfl rfl]
  unfold servingInvocation requestPosition served faultSteps
  split_ifs <;> simp [WorkloadStep.writes] <;> omega

theorem count_lines_upTo (choices : WorkloadChoicePlan) (index : Nat) :
    ((stepsUpTo choices index).flatMap WorkloadStep.lines).count (servingInvocation choices index) =
      requestPosition choices index + 1 := by
  rw [stepsUpTo, List.flatMap_append, List.count_append, count_lines, count_transitions rfl rfl]
  unfold servingInvocation requestPosition served faultSteps
  split_ifs <;> simp [WorkloadStep.lines] <;> omega

/-- The plan writes to an invocation one line for each response that the checker expects after the first. -/
theorem count_writes_plan {choices : WorkloadChoicePlan} {n k : Nat} (h : PlanBounds choices n)
    (hk : k = 1 ∨ k = 2) : ((workloadSteps choices).flatMap WorkloadStep.writes).count k =
    (expectedLines choices k).length - 1 := by
  have hlen := length_expectedLines h
  have hfault := h.fault_lt
  rw [workloadSteps_eq h, List.flatMap_append, List.count_append, count_writes, if_neg (Nat.not_le.mpr hfault)]
  rcases hk with rfl | rfl
  · rw [hlen.1]
    simp [served, WorkloadStep.writes]
    omega
  · rw [hlen.2]
    simp [served, WorkloadStep.writes]

theorem servingInvocation_eq (choices : WorkloadChoicePlan) (index : Nat) :
    servingInvocation choices index = 1 ∨ servingInvocation choices index = 2 := by
  unfold servingInvocation
  split
  · exact .inl rfl
  · exact .inr rfl

/-- The response that the checker expects at a request's position. -/
theorem expectedLines_request {choices : WorkloadChoicePlan} {n index : Nat} {request : PlannedRequest}
    (h : PlanBounds choices n) (hrequest : choices.requests[index]? = some request) :
    (expectedLines choices (servingInvocation choices index))[requestPosition choices index + 1]? =
      some (expectedNetworkLine request
        (requestPhase index choices.outageActivationRequestIndex choices.restorationRequestIndex)) := by
  have hindex := (List.getElem?_eq_some_iff.mp hrequest).1
  rw [h.requests_length] at hindex
  have hfault := h.fault_lt
  have hnetwork : (networkLines choices)[index]? = some (expectedNetworkLine request
      (requestPhase index choices.outageActivationRequestIndex choices.restorationRequestIndex)) := by
    simp [networkLines, List.getElem?_zipIdx, hrequest]
  have hlen : (networkLines choices).length = n := by simp [networkLines, h.requests_length]
  unfold servingInvocation requestPosition expectedLines
  split
  · rename_i hlt
    rw [if_pos rfl, List.getElem?_append_right (by simp), List.getElem?_append_left (by simp [hlen]; omega),
      List.getElem?_take_of_lt (by simp; omega), ← hnetwork]
    congr 1
    simp
  · rename_i hge
    rw [if_neg (by decide), List.getElem?_append_right (by simp), List.getElem?_drop, ← hnetwork]
    congr 1
    simp
    omega

/-! ## Transitions -/

/-- The frame reports the activation of the outage. -/
def Activates (f : EventFrame) : Prop := (activationOf f).isSome = true

/-- The frame reports the restoration of the network. -/
def Restores (f : EventFrame) : Prop := (restorationOf f).isSome = true

/-- A sound run activates the outage once. -/
theorem activation_unique {events : List EventFrame} (h : (ofEvents events).Sound) {f g : EventFrame}
    (hf : f ∈ events) (hg : g ∈ events) (hfa : Activates f) (hga : Activates g) : f = g := by
  refine unique_of_refused (fun pre frame post heq hframe x hx hxa => ?_) hf hg hfa hga
  subst heq
  have hadm := WorkloadTrace.admits_of_sound h
  have hnil : (ofEvents pre).activations = [] := by
    unfold Activates activationOf at hframe
    unfold WorkloadTrace.Admits at hadm
    split at hframe
    · rename_i hev
      rw [hev] at hadm
      exact hadm.1
    · cases hframe
  rw [(mirrors_of_sound (sound_pre h)).activations, List.filterMap_eq_nil_iff] at hnil
  rw [Activates, hnil x hx] at hxa
  cases hxa

/-- A sound run restores the network once. -/
theorem restoration_unique {events : List EventFrame} (h : (ofEvents events).Sound) {f g : EventFrame}
    (hf : f ∈ events) (hg : g ∈ events) (hfr : Restores f) (hgr : Restores g) : f = g := by
  refine unique_of_refused (fun pre frame post heq hframe x hx hxr => ?_) hf hg hfr hgr
  subst heq
  have hadm := WorkloadTrace.admits_of_sound h
  have hnil : (ofEvents pre).restorations = [] := by
    unfold Restores restorationOf at hframe
    unfold WorkloadTrace.Admits at hadm
    split at hframe
    · rename_i hev
      rw [hev] at hadm
      exact hadm
    · cases hframe
  rw [(mirrors_of_sound (sound_pre h)).restorations, List.filterMap_eq_nil_iff] at hnil
  rw [Restores, hnil x hx] at hxr
  cases hxr

/-- The frames of a kind that a sorted list holds once. -/
theorem filter_eq_singleton {events : List EventFrame} {p : EventFrame → Bool} {f : EventFrame}
    (hinc : Increasing events) (hf : f ∈ events) (hp : p f = true) (hall : ∀ g ∈ events, p g = true → g = f) :
    events.filter p = [f] := by
  obtain ⟨pre, post, rfl⟩ := List.append_of_mem hf
  obtain ⟨hbefore, hafter⟩ := hinc.split
  rw [List.filter_append, List.filter_cons_of_pos hp, List.filter_eq_nil_iff.mpr, List.filter_eq_nil_iff.mpr]
  · rfl
  · intro g hg hpg
    have := hafter g hg
    rw [hall g (by simp [hg]) hpg] at this
    omega
  · intro g hg hpg
    have := hbefore g hg
    rw [hall g (by simp [hg]) hpg] at this
    omega

section Steps

variable {scenario : WorkloadScenario} {choices : WorkloadChoicePlan} {launch : LaunchIdentity}
  {s s' : List Delivery × WorkloadController}

theorem activate_received (h : runStep scenario choices launch .activate s = .ok (false, s')) :
    ∃ commands frames lines, Ran commands frames lines s.2 s'.2 ∧ ∃ f ∈ frames, Activates f := by
  obtain ⟨id, s1, hissue, h⟩ := Action.bind_ok.mp h
  obtain ⟨frame, s2, hexpect, h⟩ := Action.bind_ok.mp h
  obtain ⟨_, s3, hupdate, h⟩ := Action.bind_ok.mp h
  obtain ⟨-, rfl⟩ := Action.pure_ok.mp h
  obtain ⟨frames, hran, hpred, -⟩ := issue_expect_ok hissue hexpect
  have hlocal := ran_locals s2.2 s2.2.offsets true
  rw [← show s'.2 = _ from update_ok hupdate] at hlocal
  refine ⟨_, _, _, hran.trans hlocal, frame, by simp, ?_⟩
  split at hpred
  · rename_i hev
    rw [Activates, activationOf, hev]
    rfl
  · cases hpred

theorem restore_received (h : runStep scenario choices launch .restore s = .ok (false, s')) :
    ∃ commands frames lines, Ran commands frames lines s.2 s'.2 ∧ ∃ f ∈ frames, Restores f := by
  obtain ⟨_, s1, hrestore, h⟩ := Action.bind_ok.mp h
  obtain ⟨_, s2, hupdate, h⟩ := Action.bind_ok.mp h
  obtain ⟨-, rfl⟩ := Action.pure_ok.mp h
  obtain ⟨frames, frame, hran, hev⟩ := restoreNetwork_ok hrestore
  have hlocal := ran_locals s1.2 s1.2.offsets false
  rw [← show s'.2 = _ from update_ok hupdate] at hlocal
  refine ⟨_, _, _, hran.trans hlocal, frame, by simp, ?_⟩
  rw [Restores, restorationOf, hev]
  rfl

/-- **The frame a step waits for is received within the plan around it.** -/
theorem received_within {x : WorkloadStep} {steps : List WorkloadStep} {p : EventFrame → Prop} (hx : x ∈ steps)
    (hp : ∀ {t t' : List Delivery × WorkloadController}, runStep scenario choices launch x t = .ok (false, t') →
      ∃ commands frames lines, Ran commands frames lines t.2 t'.2 ∧ ∃ f ∈ frames, p f)
    (hv : s.2.Valid) (h : runSteps scenario choices launch steps s = .ok (false, s')) :
    ∃ f ∈ s'.2.rawEvents, p f ∧ s.2.rawEvents.length < f.eventId ∧ f.eventId ≤ s'.2.rawEvents.length := by
  obtain ⟨pre, post, rfl⟩ := List.append_of_mem hx
  obtain ⟨s1, s2, hpre, hstep, hpost⟩ := runSteps_split h
  obtain ⟨_, _, hran1, -⟩ := runSteps_ran hpre
  obtain ⟨_, _, _, hran2, f, hf, hpf⟩ := hp hstep
  obtain ⟨_, _, hran3, -⟩ := runSteps_ran hpost
  have hmem : f ∈ s'.2.rawEvents := by
    rw [hran3.received, hran2.received]
    exact List.mem_append_left _ (List.mem_append_right _ hf)
  have hv1 := hran1.valid hv
  refine ⟨f, hmem, hpf, Nat.lt_of_le_of_lt ?_ (hran2.eventId_gt hv1 f hf),
    (hran3.valid (hran2.valid hv1)).eventId_le f hmem⟩
  rw [hran1.received, List.length_append]
  exact Nat.le_add_right _ _

end Steps

/-! ## Requests -/

/-- The frame `ack` acknowledges the line that asks for a request, and `line` is the response to it. -/
structure Served (choices : WorkloadChoicePlan) (index : Nat) (request : PlannedRequest) (sent : List CommandFrame)
    (events : List EventFrame) (ack : EventFrame) (line : CompletedLine) : Prop where
  command : ∃ command ∈ sent, command.commandId = ack.commandId ∧
    ∃ offset, command.command =
      .stdinWrite (servingInvocation choices index) offset (encodeBytes (fetchLine request))
  ack_mem : ack ∈ events
  ack_event : ∃ offset, ack.event =
    .inputAccepted (servingInvocation choices index) offset (fetchLine request).length false
  line_at : ((ofEvents events).stdoutLines (servingInvocation choices index))[requestPosition choices index + 1]? =
    some line
  text : line.text = expectedNetworkLine request
    (requestPhase index choices.outageActivationRequestIndex choices.restorationRequestIndex)
  completed : ∃ f ∈ events, f.eventId = line.eventId ∧ isOutputOf f (servingInvocation choices index) = true

theorem dataInputs_append (events more : List EventFrame) (k : Nat) :
    dataInputs (events ++ more) k = dataInputs events k ++ dataInputs more k := by
  rw [dataInputs, List.filter_append, List.map_append]
  rfl

theorem mem_dataInputs {frames : List EventFrame} {ack : EventFrame} {k offset bytes : Nat} (h : ack ∈ frames)
    (hev : ack.event = .inputAccepted k offset bytes false) : ack.eventId ∈ dataInputs frames k :=
  List.mem_map_of_mem (List.mem_filter.mpr ⟨h, by simp [isInputOf, hev]⟩)

section Requests

variable {scenario : WorkloadScenario} {choices : WorkloadChoicePlan} {launch : LaunchIdentity} {n index : Nat}
  {request : PlannedRequest} {s0 s1 s2 s3 : List Delivery × WorkloadController}

/-- **Where a request is acknowledged and answered.**  In a run with exactly the inputs of the plan, both happen
between the frames received when the step of the request began and ended. -/
theorem request_served (hplan : PlanBounds choices n) (hrequest : choices.requests[index]? = some request)
    (hv : s0.2.Valid) (hconsumed : ∀ k, s0.2.consumed k = 0)
    (hpre : runSteps scenario choices launch (stepsUpTo choices index) s0 = .ok (false, s1))
    (hstep : runStep scenario choices launch (.request (servingInvocation choices index) index) s1 =
      .ok (false, s2)) (hpost : runSteps scenario choices launch (stepsAfter choices n index) s2 = .ok (false, s3))
    {more : List EventFrame} (hm : Mirrors (ofEvents (s3.2.rawEvents ++ more)) (s3.2.rawEvents ++ more))
    (hresp : Responses (ofEvents (s3.2.rawEvents ++ more)) choices (servingInvocation choices index)) :
    ∃ ack line, Served choices index request s3.2.sent (s3.2.rawEvents ++ more) ack line ∧
      s1.2.rawEvents.length < ack.eventId ∧ ack.eventId < line.eventId ∧ line.eventId ≤ s2.2.rawEvents.length := by
  have hindex := (List.getElem?_eq_some_iff.mp hrequest).1
  rw [hplan.requests_length] at hindex
  set k := servingInvocation choices index with hk
  set pos := requestPosition choices index with hpos
  obtain ⟨_, f1, hran1, -, hdata1⟩ := runSteps_ran hpre
  obtain ⟨_, f3, hran3, -, hdata3⟩ := runSteps_ran hpost
  rw [runStep, hrequest] at hstep
  obtain ⟨_, f2, lines, hran2, -, hdone⟩ := exchange_ok hstep
  obtain ⟨rfl, command, hcommand, ack, hack, ⟨offset, hwrite⟩, hid, offset', hev⟩ := hdone rfl
  have hv1 := hran1.valid hv
  have hv2 := hran2.valid hv1
  have hevents : s3.2.rawEvents ++ more = s0.2.rawEvents ++ f1 ++ f2 ++ f3 ++ more := by
    rw [hran3.received, hran2.received, hran1.received]
  -- the inputs of the run are exactly those of the plan, so the acknowledgement stands at the request's position
  have htotal := hresp.data
  have hwrites1 := hdata1 k
  rw [hk, count_writes_upTo, ← hk, ← hpos] at hwrites1
  have hplanCount := count_writes_plan hplan (servingInvocation_eq choices index)
  rw [workloadSteps_split hplan hindex, List.flatMap_append, List.flatMap_cons, List.count_append,
    List.count_append, count_writes_upTo, ← hk, ← hpos, WorkloadStep.writes, List.count_singleton_self]
    at hplanCount
  have hwrites3 := hdata3 k
  have hmem2 : ack.eventId ∈ dataInputs f2 k := mem_dataInputs hack hev
  have hpos2 := List.length_pos_of_mem hmem2
  rw [(hm.streams k).data, hevents, dataInputs_append, dataInputs_append, dataInputs_append,
    dataInputs_append] at htotal
  simp only [List.length_append] at htotal
  have hone : dataInputs f2 k = [ack.eventId] := by
    obtain ⟨x, hx⟩ := List.length_eq_one_iff.mp (show (dataInputs f2 k).length = 1 by omega)
    rw [hx, List.mem_singleton] at hmem2
    rw [hx, hmem2]
  have hat : (dataInputs (s3.2.rawEvents ++ more) k)[pos]? = some ack.eventId := by
    rw [hevents, dataInputs_append, dataInputs_append, dataInputs_append, dataInputs_append, hone]
    have hlen0 : (dataInputs s0.2.rawEvents k).length = 0 := by omega
    have hlen1 : (dataInputs f1 k).length = pos := by omega
    rw [List.length_eq_zero_iff.mp hlen0, List.nil_append, ← hlen1]
    simp
  -- the response line was complete when the step ended
  have hseen : pos + 1 < ((ofEvents s2.2.rawEvents).stdoutLines k).length := by
    have hle := hv2.consumed k
    rw [hran2.consumed, hran1.consumed, hconsumed, hk, count_lines_upTo, ← hk, ← hpos, List.count_singleton_self,
      hv2.trace] at hle
    have : (ofEvents s2.2.rawEvents).stdoutLineCount k = ((ofEvents s2.2.rawEvents).stdoutLines k).length := rfl
    omega
  have hlines : (ofEvents s2.2.rawEvents).stdoutLines k <+: (ofEvents (s3.2.rawEvents ++ more)).stdoutLines k := by
    rw [hran3.received, List.append_assoc, WorkloadTrace.ofEvents_append]
    exact lines_foldl _
  obtain ⟨line, hline⟩ : ∃ line, ((ofEvents s2.2.rawEvents).stdoutLines k)[pos + 1]? = some line :=
    ⟨_, List.getElem?_eq_getElem hseen⟩
  have hfinal : ((ofEvents (s3.2.rawEvents ++ more)).stdoutLines k)[pos + 1]? = some line := by
    obtain ⟨rest, hrest⟩ := hlines
    rw [← hrest, List.getElem?_append_left hseen]
    exact hline
  have hstamped := (stamped_ofEvents (k := k) hv2.increasing hv2.eventId_le).lines line
    (List.mem_of_getElem? hline)
  have hafter : ack.eventId < line.firstEventId := by
    refine hresp.acknowledged (ack.eventId, line) (List.mem_of_getElem? (i := pos) ?_)
    rw [List.getElem?_zip_eq_some, (hm.streams k).data, List.getElem?_drop, Nat.add_comm 1]
    exact ⟨hat, hfinal⟩
  refine ⟨ack, line, ⟨⟨command, hran3.mem_sent hcommand, hid.symm, offset, hwrite⟩, ?_, ⟨offset', hev⟩, hfinal, ?_,
    line_completed line (List.mem_of_getElem? hfinal)⟩, hran2.eventId_gt hv1 ack hack, by omega, hstamped.2⟩
  · rw [hevents]
    simp [hack]
  · have htext : ((ofEvents (s3.2.rawEvents ++ more)).stdoutLines k |>.map CompletedLine.text)[pos + 1]? =
        some line.text := by rw [List.getElem?_map, hfinal]; rfl
    rw [hresp.texts, hk, hpos, expectedLines_request hplan hrequest] at htext
    exact (Option.some.inj htext).symm

end Requests

/-! ## Phases -/

/-- The event lies in the window of the phase. -/
def InPhase (activation restoration eventId : Nat) : RequestPhase → Prop
  | .preOutage => eventId < activation
  | .outage => activation < eventId ∧ eventId < restoration
  | .recovery => restoration < eventId

/-- The window that the positions of the two transitions leave. -/
theorem inPhase_of_positions {choices : WorkloadChoicePlan} {index activation restoration eventId : Nat}
    (h1 : index < choices.outageActivationRequestIndex → eventId < activation)
    (h2 : choices.outageActivationRequestIndex ≤ index → activation < eventId)
    (h3 : index < choices.restorationRequestIndex → eventId < restoration)
    (h4 : choices.restorationRequestIndex ≤ index → restoration < eventId) :
    InPhase activation restoration eventId
      (requestPhase index choices.outageActivationRequestIndex choices.restorationRequestIndex) := by
  unfold requestPhase
  split
  · rename_i h
    exact h1 h
  · rename_i h
    split
    · rename_i h'
      exact ⟨h2 (Nat.not_lt.mp h), h3 h'⟩
    · rename_i h'
      exact h4 (Nat.not_lt.mp h')

/-- **Phases of a completed run.**  When every step of the plan of a validated scenario ran and the report
passes, the run has one activation and one restoration, and every request is acknowledged and answered in the
window of its phase. -/
theorem driveWorkloadScenario_phases {sha256 : Sha256} {scenario : WorkloadScenario} {seed : UInt64}
    {launch : LaunchIdentity} {queue : List Delivery} {sends : List (IoResult Unit)}
    {s1 s2 : List Delivery × WorkloadController} {events : List NormalizedEvent} {report : AssertionReport}
    (hvalid : scenario.validate = .ok ())
    (hcompleted : runPlan scenario (scenario.choices seed) launch (queue, { sends := sends }) = .ok (false, s1))
    (hdrive : driveWorkloadScenario sha256 scenario (scenario.choices seed) launch (queue, { sends := sends }) =
      .ok ((events, report), s2)) (hpassed : report.passed = true) :
    ∃ activation restoration,
      s2.2.rawEvents.filter (fun f => (activationOf f).isSome) = [activation] ∧
      s2.2.rawEvents.filter (fun f => (restorationOf f).isSome) = [restoration] ∧
      ∀ index request, (scenario.choices seed).requests[index]? = some request →
        ∃ ack line, Served (scenario.choices seed) index request s2.2.sent s2.2.rawEvents ack line ∧
          InPhase activation.eventId restoration.eventId ack.eventId (requestPhase index
            (scenario.choices seed).outageActivationRequestIndex (scenario.choices seed).restorationRequestIndex) ∧
          InPhase activation.eventId restoration.eventId line.eventId (requestPhase index
            (scenario.choices seed).outageActivationRequestIndex
                (scenario.choices seed).restorationRequestIndex) := by
  have hplan := WorkloadScenario.choices_bounds hvalid seed
  set choices := scenario.choices seed with hchoices
  obtain ⟨stopped, s1', hrun, hdrive⟩ := Action.bind_ok.mp hdrive
  rw [hcompleted] at hrun
  cases hrun
  obtain ⟨_, s3, hclose, hdrive⟩ := Action.bind_ok.mp hdrive
  obtain ⟨c, s4, hget, hdrive⟩ := Action.bind_ok.mp hdrive
  obtain ⟨rfl, rfl⟩ := controller_ok hget
  obtain ⟨hresult, rfl⟩ := Action.pure_ok.mp hdrive
  cases hresult
  obtain ⟨_, s0, hconfigure, hsteps⟩ := Action.bind_ok.mp hcompleted
  obtain ⟨frames0, hran0⟩ := configureNetwork_ok hconfigure
  have hv0 := hran0.valid (valid_initial sends)
  obtain ⟨_, _, hranSteps, -⟩ := runSteps_ran hsteps
  obtain ⟨_, more, hranClose, -⟩ := closeRun_ok hclose
  have hv2 := hranClose.valid (hranSteps.valid hv0)
  -- what the checker saw
  obtain ⟨⟨_, hsafety⟩, ⟨_, hintegrity⟩, -⟩ := evaluateTrace_passed hpassed
  obtain ⟨_, _, _, _, hs⟩ := processSafety_ok hsafety
  obtain ⟨hresp1, hresp2, -⟩ := responseIntegrity_ok hintegrity
  have hsound := WorkloadTrace.sound_of_clean hs.clean
  have hm := mirrors_of_sound hsound
  have hresp : ∀ index, Responses (ofEvents s2.2.rawEvents) choices (servingInvocation choices index) := by
    intro index
    rcases servingInvocation_eq choices index with h | h
    · rw [h]
      exact hresp1
    · rw [h]
      exact hresp2
  -- the two transitions of the run
  have hactivate : .activate ∈ transitionSteps choices choices.outageActivationRequestIndex := by
    simp [transitionSteps]
  have hrestore : .restore ∈ transitionSteps choices choices.restorationRequestIndex := by simp [transitionSteps]
  have hactivationLt : choices.outageActivationRequestIndex < scenario.requestCount :=
    hplan.activation_lt.trans hplan.restoration_lt
  have hkeep : ∀ f ∈ s1.2.rawEvents, f ∈ s2.2.rawEvents := by
    intro f hf
    rw [hranClose.received]
    exact List.mem_append_left _ hf
  have hinPlan : ∀ {x j}, x ∈ transitionSteps choices j → j < scenario.requestCount →
      x ∈ workloadSteps choices := by
    intro x j hx hj
    rw [workloadSteps_split hplan hj]
    exact List.mem_append_left _ ((transition_mem hx hj).1 (Nat.le_refl j))
  obtain ⟨activation, hamem, hact, -⟩ :=
    received_within (hinPlan hactivate hactivationLt) activate_received hv0 hsteps
  obtain ⟨restoration, hrmem, hrest, -⟩ :=
    received_within (hinPlan hrestore hplan.restoration_lt) restore_received hv0
    hsteps
  refine ⟨activation, restoration,
    filter_eq_singleton hv2.increasing (hkeep _ hamem) hact fun g hg hga =>
      activation_unique hsound hg (hkeep _ hamem) hga hact,
    filter_eq_singleton hv2.increasing (hkeep _ hrmem) hrest fun g hg hgr =>
      restoration_unique hsound hg (hkeep _ hrmem) hgr hrest, ?_⟩
  intro index request hrequest
  have hindex := (List.getElem?_eq_some_iff.mp hrequest).1
  rw [hplan.requests_length] at hindex
  have hsplit := hsteps
  rw [workloadSteps_split hplan hindex] at hsplit
  obtain ⟨t1, t2, hpre, hstep, hpost⟩ := runSteps_split hsplit
  have hconsumed : ∀ k, s0.2.consumed k = 0 := by
    intro k
    rw [hran0.consumed, consumed_initial, List.count_nil]
  obtain ⟨ack, line, hserved, hlow, hmid, hhigh⟩ := request_served hplan hrequest hv0 hconsumed hpre hstep hpost
    (hranClose.received ▸ hm) (hranClose.received ▸ hresp index)
  obtain ⟨_, _, hranPre, -⟩ := runSteps_ran hpre
  obtain ⟨_, _, _, hranStep⟩ := runStep_ran hstep
  obtain ⟨_, _, hranPost, -⟩ := runSteps_ran hpost
  have hv1 := hranPre.valid hv0
  have hvt2 := hranStep.ran.valid hv1
  -- a transition before the request is received before it, one behind the request after it
  have hbefore : ∀ {x j} {p : EventFrame → Prop} {f : EventFrame}, x ∈ transitionSteps choices j →
      j < scenario.requestCount →
      (∀ {t t' : List Delivery × WorkloadController}, runStep scenario choices launch x t = .ok (false, t') →
        ∃ commands frames lines, Ran commands frames lines t.2 t'.2 ∧ ∃ f ∈ frames, p f) →
      (∀ g ∈ s2.2.rawEvents, p g → g = f) →
      (index < j → t2.2.rawEvents.length < f.eventId) ∧ (j ≤ index → f.eventId ≤ t1.2.rawEvents.length) := by
    intro x j p f hx hj hp huniq
    refine ⟨fun hlt => ?_, fun hle => ?_⟩
    · obtain ⟨g, hg, hpg, hgt, -⟩ := received_within ((transition_mem hx hj).2 hlt) hp hvt2 hpost
      rw [← huniq g (hkeep g hg) hpg]
      exact hgt
    · obtain ⟨g, hg, hpg, -, hle⟩ := received_within ((transition_mem hx hj).1 hle) hp hv0 hpre
      have hg1 : g ∈ s1.2.rawEvents := by
        rw [hranPost.received, hranStep.ran.received]
        exact List.mem_append_left _ (List.mem_append_left _ hg)
      rw [← huniq g (hkeep g hg1) hpg]
      exact hle
  obtain ⟨ha1, ha2⟩ := hbefore hactivate hactivationLt activate_received fun g hg hga =>
    activation_unique hsound hg (hkeep _ hamem) hga hact
  obtain ⟨hr1, hr2⟩ := hbefore hrestore hplan.restoration_lt restore_received fun g hg hgr =>
    restoration_unique hsound hg (hkeep _ hrmem) hgr hrest
  have hsent : ∀ command ∈ s1.2.sent, command ∈ s2.2.sent := fun command hc => hranClose.mem_sent hc
  rw [← hranClose.received] at hserved
  refine ⟨ack, line, ⟨?_, hserved.ack_mem, hserved.ack_event, hserved.line_at, hserved.text, hserved.completed⟩,
    inPhase_of_positions (fun h => ?_) (fun h => ?_) (fun h => ?_) (fun h => ?_),
    inPhase_of_positions (fun h => ?_) (fun h => ?_) (fun h => ?_) (fun h => ?_)⟩
  · obtain ⟨command, hmem, hrest⟩ := hserved.command
    exact ⟨command, hsent command hmem, hrest⟩
  · exact (hmid.le.trans hhigh).trans_lt (ha1 h)
  · exact (ha2 h).trans_lt hlow
  · exact (hmid.le.trans hhigh).trans_lt (hr1 h)
  · exact (hr2 h).trans_lt hlow
  · exact hhigh.trans_lt (ha1 h)
  · exact (ha2 h).trans_lt (hlow.trans hmid)
  · exact hhigh.trans_lt (hr1 h)
  · exact (hr2 h).trans_lt (hlow.trans hmid)

theorem driveWorkloadScenario_phases_sample : ∃ s1 events report s2 activation restoration,
    runPlan sampleScenario samplePlan sampleLaunch (sampleQueue, {}) = .ok (false, s1) ∧
    driveWorkloadScenario sampleSha256 sampleScenario samplePlan sampleLaunch (sampleQueue, {}) =
      .ok ((events, report), s2) ∧ report.passed = true ∧
    s2.2.rawEvents.filter (fun f => (activationOf f).isSome) = [activation] ∧
    s2.2.rawEvents.filter (fun f => (restorationOf f).isSome) = [restoration] ∧
    ∀ index request, samplePlan.requests[index]? = some request →
      ∃ ack line, Served samplePlan index request s2.2.sent s2.2.rawEvents ack line ∧
        InPhase activation.eventId restoration.eventId ack.eventId (requestPhase index
          samplePlan.outageActivationRequestIndex samplePlan.restorationRequestIndex) ∧
        InPhase activation.eventId restoration.eventId line.eventId (requestPhase index
          samplePlan.outageActivationRequestIndex samplePlan.restorationRequestIndex) := by
  have hruns : (runPlan sampleScenario samplePlan sampleLaunch (sampleQueue, {})).toOption.map (·.1) =
      some false := by decide +kernel
  have hpasses : (driveWorkloadScenario sampleSha256 sampleScenario samplePlan sampleLaunch
      (sampleQueue, {})).toOption.map (fun r => r.1.2.passed) = some true := by decide +kernel
  obtain ⟨⟨stopped, s1⟩, hrun, rfl⟩ := exists_ok_of_map hruns
  obtain ⟨⟨⟨events, report⟩, s2⟩, hdrive, hpassed⟩ := exists_ok_of_map hpasses
  have hvalid : sampleScenario.validate = .ok () := by decide +kernel
  obtain ⟨activation, restoration, hphases⟩ := driveWorkloadScenario_phases hvalid hrun hdrive hpassed
  exact ⟨s1, events, report, s2, activation, restoration, hrun, hdrive, hpassed, hphases⟩

end SimFerret.Driver
