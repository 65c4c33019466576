import Mathlib.Data.List.Nodup
import SimFerret.Driver.Schedule

/-!
# SimFerret.Driver.Responses — the plan as a conforming guest answers it

* `orderly_workloadSteps`, `countable_plan`: every step may follow the steps before it, and no total overflows.
* `stepsBefore_split`, `nodup_workloadSteps`: where each step stands.
* `responses_workloadSteps`: the responses to the plan are the lines the checker expects.
* `answers_of_mem`: the step that a response answers; a response tells it.
-/

namespace SimFerret.Driver

open Checker Workload RunContext

/-! ## Texts -/

/-- Every byte is a printable ASCII character. -/
def Printable (text : Text) : Prop := ∀ b ∈ text, 32 ≤ b ∧ b < 128

instance (text : Text) : Decidable (Printable text) := List.decidableBAll (fun b => 32 ≤ b ∧ b < 128) text

theorem Printable.append {s t : Text} (hs : Printable s) (ht : Printable t) : Printable (s ++ t) := by
  intro b hb
  rcases List.mem_append.mp hb with h | h
  · exact hs b h
  · exact ht b h

theorem Printable.isLine {text : Text} (h : Printable text) (hlength : text.length ≤ maxResponseLineBytes) :
    IsLine text := by
  refine ⟨fun b hb => (h b hb).2, fun hmem => ?_, hlength⟩
  have := (h newline hmem).1
  exact absurd this (by decide)

theorem printable_padZeros {width base n : Nat} (hb : 1 < base) (hb' : base ≤ 16) :
    Printable (padZeros width ((Nat.toDigits base n).map charByte)) := by
  refine Printable.append (fun b hmem => ?_) fun b hmem => ?_
  · rw [List.eq_of_mem_replicate hmem]
    decide
  · obtain ⟨hlow, hhigh⟩ := mem_digits hb hb' hmem
    rw [UInt8.le_iff_toNat_le] at hlow ⊢
    rw [UInt8.lt_iff_toNat_lt] at hhigh ⊢
    exact ⟨le_trans (by decide) hlow, lt_trans hhigh (by decide)⟩

theorem printable_requestIdText (index : Nat) (nonce : UInt64) : Printable (requestIdText index nonce) := by
  unfold requestIdText
  refine .append (.append (.append (by decide) ?_) (by decide)) ?_
  · exact printable_padZeros (by decide) (by decide)
  · exact printable_padZeros (by decide) (by decide)

/-- The response to a planned request is one line. -/
theorem isLine_network {request : PlannedRequest} {index : Nat} {nonce : UInt64} (hindex : index < 10 ^ 4)
    (hid : request.requestId = requestIdText index nonce) (phase : RequestPhase) :
    IsLine (expectedNetworkLine request phase) := by
  have hprintable : Printable request.requestId := hid ▸ printable_requestIdText index nonce
  have hlength : request.requestId.length = 29 := hid ▸ length_requestIdText hindex nonce
  cases phase with
  | outage =>
    refine Printable.isLine (.append (.append (.append (by decide) hprintable) (by decide)) (by decide)) ?_
    simp only [expectedNetworkLine, List.length_append, hlength]
    decide
  | preOutage =>
    refine Printable.isLine (.append (by decide) hprintable) ?_
    simp only [expectedNetworkLine, List.length_append, hlength]
    decide
  | recovery =>
    refine Printable.isLine (.append (by decide) hprintable) ?_
    simp only [expectedNetworkLine, List.length_append, hlength]
    decide

/-- The response to a planned request names it. -/
theorem expectedNetworkLine_inj {request request' : PlannedRequest} {phase phase' : RequestPhase}
    (h : expectedNetworkLine request phase = expectedNetworkLine request' phase') :
    request.requestId = request'.requestId := by
  have hbyte : ∀ r p, (expectedNetworkLine r p)[14]? = if p = .outage then some 117 else some 111 := by
    intro r p
    cases p <;> rfl
  have hphase := hbyte request phase
  rw [h, hbyte] at hphase
  cases phase <;> cases phase' <;> first
    | (simp at hphase; done)
    | (simpa [expectedNetworkLine] using h)

theorem length_echoToken (seed : UInt64) {k : Nat} (h : k < 10) : (echoToken seed k).length = 23 := by
  have hhex := length_hexPadded (show 0 < 16 by decide) (show seed.toNat < 16 ^ 16 from seed.toNat_lt)
  have hdecimal : (decimal k).length = 1 := by
    rw [decimal, Nat.toDigits_of_lt_base h]
    rfl
  simp only [echoToken, List.length_append, hhex, hdecimal]
  rfl

theorem isLine_echo (seed : UInt64) {k : Nat} (h : k < 10) : IsLine (utf8 "echo value=" ++ echoToken seed k) := by
  have hdecimal : Printable (decimal k) := by
    have hpadded := @printable_padZeros 0 10 k (by decide) (by decide)
    simpa [padZeros, decimal] using hpadded
  have htoken : Printable (echoToken seed k) := by
    refine .append (.append (.append (by decide) hdecimal) (by decide)) ?_
    exact printable_padZeros (by decide) (by decide)
  refine Printable.isLine (.append (by decide) htoken) ?_
  rw [List.length_append, length_echoToken seed h]
  decide

/-! ## The steps of the plan -/

section Plan

variable {choices : WorkloadChoicePlan} {n : Nat}

theorem mem_requestBlock {index : Nat} {step : WorkloadStep} : step ∈ requestBlock choices index ↔
    (index = choices.processFaultRequestIndex ∧ step ∈ faultSteps) ∨
    (index = choices.outageActivationRequestIndex ∧ step = .activate) ∨
    (index = choices.restorationRequestIndex ∧ step = .restore) ∨
    step = .request (servingInvocation choices index) index := by
  simp only [requestBlock, transitionSteps, faultSteps, List.mem_append, List.mem_ite_nil_right,
    List.mem_singleton, or_assoc]

theorem mem_stepsBefore {index : Nat} {step : WorkloadStep} : step ∈ stepsBefore choices index ↔
    step ∈ openingSteps ∨ ∃ i < index, step ∈ requestBlock choices i := by
  simp [stepsBefore]

/-- What was done before the block of a request. -/
structure DoneBefore (choices : WorkloadChoicePlan) (index : Nat) (done : List WorkloadStep) : Prop where
  first : .start 1 ∈ done
  second : .start 2 ∈ done ↔ choices.processFaultRequestIndex < index
  terminated : .terminate 1 ∈ done ↔ choices.processFaultRequestIndex < index
  terminate_two : .terminate 2 ∉ done
  open_input : ∀ k, .stdinEof k ∉ done
  activated : .activate ∈ done ↔ choices.outageActivationRequestIndex < index
  restored : .restore ∈ done ↔ choices.restorationRequestIndex < index

theorem doneBefore_stepsBefore (choices : WorkloadChoicePlan) (index : Nat) :
    DoneBefore choices index (stepsBefore choices index) := by
  constructor <;> simp [mem_stepsBefore, mem_requestBlock, openingSteps, faultSteps]

/-- The invocation that serves a request is running when its block begins, unless the fault falls there. -/
theorem DoneBefore.running {index : Nat} {done : List WorkloadStep} (h : DoneBefore choices index done)
    (hne : index ≠ choices.processFaultRequestIndex) : Running done (servingInvocation choices index) := by
  unfold servingInvocation
  split_ifs with hlt
  · exact ⟨h.first, fun hmem => absurd (h.terminated.mp hmem) (by omega), h.open_input 1⟩
  · exact ⟨h.second.mpr (by omega), h.terminate_two, h.open_input 2⟩

theorem running_append {done more : List WorkloadStep} {k : Nat} (h : Running done k)
    (hmore : ∀ step ∈ more, step ≠ .terminate k ∧ step ≠ .stdinEof k) : Running (done ++ more) k := by
  refine ⟨List.mem_append_left _ h.started, fun hmem => ?_, fun hmem => ?_⟩
  · rcases List.mem_append.mp hmem with hmem | hmem
    · exact h.terminated hmem
    · exact (hmore _ hmem).1 rfl
  · rcases List.mem_append.mp hmem with hmem | hmem
    · exact h.closed hmem
    · exact (hmore _ hmem).2 rfl

theorem orderly_append {steps more : List WorkloadStep} (h : Orderly choices steps)
    (hmore : ∀ earlier step later, more = earlier ++ step :: later → Allowed choices (steps ++ earlier) step) :
    Orderly choices (steps ++ more) := by
  intro earlier step later heq
  rcases List.append_eq_append_iff.mp heq with ⟨rest, rfl, hrest⟩ | ⟨rest, rfl, hrest⟩
  · exact hmore rest step later hrest
  · cases rest with
    | nil =>
      have := hmore [] step later hrest.symm
      rwa [List.append_nil, List.append_nil] at this
    | cons first rest =>
      cases hrest
      exact h earlier step rest rfl

theorem orderly_snoc {steps : List WorkloadStep} {step : WorkloadStep} (h : Orderly choices steps)
    (hstep : Allowed choices steps step) : Orderly choices (steps ++ [step]) := by
  refine orderly_append h fun earlier s later heq => ?_
  cases earlier with
  | nil =>
    cases heq
    rwa [List.append_nil]
  | cons first earlier => simp at heq

/-- What is planned: the requests are in range and name their positions. -/
structure Planned (choices : WorkloadChoicePlan) (n payloadBytes : Nat) : Prop where
  bounds : PlanBounds choices n
  few : n ≤ maxRequestCount
  payload : payloadBytes ≤ maxWorkloadPayloadBytes
  request : ∀ index request, choices.requests[index]? = some request →
    (∃ nonce, request.requestId = requestIdText index nonce) ∧ request.payload.length = 2 * payloadBytes

theorem planned_choices {scenario : WorkloadScenario} (h : scenario.validate = .ok ()) (seed : UInt64) :
    Planned (scenario.choices seed) scenario.requestCount scenario.payloadBytes := by
  have hshape := WorkloadScenario.validate_shape h
  refine ⟨WorkloadScenario.choices_bounds h seed, hshape.requests_le, hshape.payload_le,
    fun index request hrequest => ?_⟩
  have hplanned := getElem?_plannedRequests hrequest
  rwa [Nat.zero_add] at hplanned

variable {payloadBytes : Nat}

theorem Planned.exists_request (h : Planned choices n payloadBytes) {index : Nat} (hindex : index < n) :
    ∃ request, choices.requests[index]? = some request := by
  rw [← h.bounds.requests_length] at hindex
  exact ⟨choices.requests[index], List.getElem?_eq_getElem hindex⟩

/-- The dialogue of every line command of the plan. -/
structure PlannedDialogue (input response : Text) : Prop where
  nonempty : input ≠ []
  short : input.length ≤ 256
  line : IsLine response

theorem plannedDialogue_echo (seed : UInt64) {k : Nat} (h : k < 10) :
    PlannedDialogue (utf8 "echo " ++ echoToken seed k ++ utf8 "\n") (utf8 "echo value=" ++ echoToken seed k) := by
  have hlength : (utf8 "echo " ++ echoToken seed k ++ utf8 "\n").length = 29 := by
    rw [List.length_append, List.length_append, length_echoToken seed h]
    rfl
  refine ⟨fun hnil => ?_, by rw [hlength]; decide, isLine_echo seed h⟩
  rw [hnil] at hlength
  cases hlength

theorem Planned.dialogue_request (h : Planned choices n payloadBytes) {index k : Nat} (hindex : index < n) :
    ∃ request, choices.requests[index]? = some request ∧
      (WorkloadStep.request k index).dialogue choices = some (k, fetchLine request, expectedNetworkLine request
        (requestPhase index choices.outageActivationRequestIndex choices.restorationRequestIndex)) ∧
      PlannedDialogue (fetchLine request) (expectedNetworkLine request
        (requestPhase index choices.outageActivationRequestIndex choices.restorationRequestIndex)) := by
  obtain ⟨request, hrequest⟩ := h.exists_request hindex
  obtain ⟨⟨nonce, hid⟩, hpayload⟩ := h.request index request hrequest
  have hfew := h.few
  unfold maxRequestCount at hfew
  have hsmall : index < 10 ^ 4 := by omega
  have hlength : (fetchLine request).length = 6 + 29 + 1 + 2 * payloadBytes + 1 := by
    have hidlen : request.requestId.length = 29 := hid ▸ length_requestIdText hsmall nonce
    simp only [fetchLine, List.length_append, hidlen, hpayload]
    rfl
  refine ⟨request, hrequest, by simp [WorkloadStep.dialogue, hrequest], fun hnil => ?_, ?_,
    isLine_network hsmall hid _⟩
  · rw [hnil] at hlength
    simp at hlength
  · have := h.payload
    unfold maxWorkloadPayloadBytes at this
    omega

/-- A block without the process fault. -/
theorem orderly_block (h : Planned choices n payloadBytes) {index : Nat} (hindex : index < n)
    (hne : index ≠ choices.processFaultRequestIndex) (hbefore : Orderly choices (stepsBefore choices index)) :
    Orderly choices (stepsBefore choices index ++ requestBlock choices index) := by
  have hdone := doneBefore_stepsBefore choices index
  have hrunning := hdone.running hne
  obtain ⟨request, hrequest, hdialogue, hplanned⟩ := @Planned.dialogue_request _ _ _ h index
    (servingInvocation choices index) hindex
  have hactivate : Orderly choices (stepsBefore choices index ++
      if index = choices.outageActivationRequestIndex then [.activate] else []) := by
    split_ifs with ha
    · exact orderly_snoc hbefore fun hmem => absurd (hdone.activated.mp hmem) (by omega)
    · rwa [List.append_nil]
  have hrestore : Orderly choices ((stepsBefore choices index ++
      if index = choices.outageActivationRequestIndex then [.activate] else []) ++
      if index = choices.restorationRequestIndex then [.restore] else []) := by
    split_ifs with ha hr hr
    · have := h.bounds.activation_lt
      omega
    · rw [List.append_nil]
      rw [if_pos ha] at hactivate
      exact hactivate
    · rw [if_neg ha] at hactivate
      refine orderly_snoc hactivate fun hmem => ?_
      rw [List.append_nil] at hmem
      exact absurd (hdone.restored.mp hmem) (by omega)
    · rw [if_neg ha] at hactivate
      rwa [List.append_nil]
  have hblock : stepsBefore choices index ++ requestBlock choices index =
      ((stepsBefore choices index ++ if index = choices.outageActivationRequestIndex then [.activate] else []) ++
        if index = choices.restorationRequestIndex then [.restore] else []) ++
        [.request (servingInvocation choices index) index] := by
    simp [requestBlock, transitionSteps, hne]
  rw [hblock]
  refine orderly_snoc hrestore ⟨_, _, _, hdialogue, ?_, hplanned.nonempty, hplanned.line⟩
  rw [List.append_assoc]
  refine running_append hrunning fun step hmem => ?_
  simp only [List.mem_append, List.mem_ite_nil_right, List.mem_singleton] at hmem
  rcases hmem with ⟨-, rfl⟩ | ⟨-, rfl⟩ <;> simp

/-- The block of the process fault. -/
theorem orderly_fault (h : Planned choices n payloadBytes)
    (hbefore : Orderly choices (stepsBefore choices choices.processFaultRequestIndex)) :
    Orderly choices (stepsBefore choices choices.processFaultRequestIndex ++
      requestBlock choices choices.processFaultRequestIndex) := by
  set before := stepsBefore choices choices.processFaultRequestIndex with hb
  have hdone : DoneBefore choices choices.processFaultRequestIndex before := doneBefore_stepsBefore choices _
  obtain ⟨request, hrequest, hdialogue, hplanned⟩ := @Planned.dialogue_request _ _ _ h _ 2 h.bounds.fault_lt
  have hsecond : .start 2 ∉ before := fun hmem => absurd (hdone.second.mp hmem) (by omega)
  have hterminated : .terminate 1 ∉ before := fun hmem => absurd (hdone.terminated.mp hmem) (by omega)
  have hone : Running before 1 := ⟨hdone.first, hterminated, hdone.open_input 1⟩
  have htwo : ∀ more : List WorkloadStep, .terminate 2 ∉ more → .stdinEof 2 ∉ more →
      Running (before ++ ([.spawnDescendant 1, .terminate 1, .start 2] ++ more)) 2 := by
    intro more hmore hmore'
    refine ⟨by simp, ?_, ?_⟩
    · simpa [hdone.terminate_two] using hmore
    · simpa [hdone.open_input] using hmore'
  have hblock : requestBlock choices choices.processFaultRequestIndex =
      [.spawnDescendant 1, .terminate 1, .start 2, .echo 2, .state 2,
        .request 2 choices.processFaultRequestIndex] := by
    simp [requestBlock, transitionSteps, servingInvocation, h.bounds.fault_ne_activation,
      h.bounds.fault_ne_restoration]
  rw [hblock]
  have h1 := orderly_snoc hbefore (show Allowed choices before (.spawnDescendant 1) from
    ⟨_, _, _, rfl, hone, by decide, by decide, by decide, by decide⟩)
  have h2 := orderly_snoc h1 (show Allowed choices _ (.terminate 1) from running_append hone (by simp))
  have h3 := orderly_snoc h2 (show Allowed choices _ (.start 2) from
    ⟨by simpa using hsecond, by simpa using hdone.terminate_two, by simpa using hdone.open_input 2⟩)
  have hecho := plannedDialogue_echo choices.seed (show 2 < 10 by decide)
  have h4 := orderly_snoc h3 (show Allowed choices _ (.echo 2) from
    ⟨_, _, _, rfl, by simpa using htwo [] (by simp) (by simp), hecho.nonempty, hecho.line⟩)
  have h5 := orderly_snoc h4 (show Allowed choices _ (.state 2) from
    ⟨_, _, _, rfl, by simpa using htwo [.echo 2] (by simp) (by simp), by decide, by decide, by decide, by decide⟩)
  have h6 := orderly_snoc h5 (show Allowed choices _ (.request 2 _) from
    ⟨_, _, _, hdialogue, by simpa using htwo [.echo 2, .state 2] (by simp) (by simp), hplanned.nonempty,
      hplanned.line⟩)
  simpa using h6

/-- **The plan may be answered step by step**, by induction on the requests. -/
theorem orderly_workloadSteps (h : Planned choices n payloadBytes) : Orderly choices (workloadSteps choices) := by
  have hopening : Orderly choices openingSteps := by
    have hecho := plannedDialogue_echo choices.seed (show 1 < 10 by decide)
    have h0 : Orderly choices [] := fun earlier step later heq => by simp at heq
    have h1 := orderly_snoc h0 (show Allowed choices [] (.start 1) from ⟨by simp, by simp, by simp⟩)
    have h2 := orderly_snoc h1 (show Allowed choices _ (.echo 1) from
      ⟨_, _, _, rfl, ⟨by simp, by simp, by simp⟩, hecho.nonempty, hecho.line⟩)
    exact orderly_snoc h2 (show Allowed choices _ (.state 1) from
      ⟨_, _, _, rfl, ⟨by simp, by simp, by simp⟩, by decide, by decide, by decide, by decide⟩)
  have hbefore : ∀ index, index ≤ n → Orderly choices (stepsBefore choices index) := by
    intro index
    induction index with
    | zero =>
      intro _
      simpa [stepsBefore] using hopening
    | succ index ih =>
      intro hle
      rw [stepsBefore_succ]
      by_cases hfault : index = choices.processFaultRequestIndex
      · rw [hfault] at ih ⊢
        exact orderly_fault h (ih (by omega))
      · exact orderly_block h (by omega) hfault (ih (by omega))
  rw [workloadSteps_eq h.bounds]
  have hdone := doneBefore_stepsBefore choices n
  exact orderly_snoc (hbefore n le_rfl) (show Allowed choices _ (.stdinEof 2) from
    ⟨hdone.second.mpr h.bounds.fault_lt, hdone.terminate_two, hdone.open_input 2⟩)

/-- Every dialogue of the plan is one that was planned. -/
theorem plannedDialogue_of_mem (h : Planned choices n payloadBytes) {step : WorkloadStep}
    (hmem : step ∈ workloadSteps choices) {k : Nat} {input response : Text}
    (hdialogue : step.dialogue choices = some (k, input, response)) : PlannedDialogue input response := by
  rw [workloadSteps_eq h.bounds, List.mem_append, mem_stepsBefore] at hmem
  have hecho : ∀ j, j < 10 → (WorkloadStep.echo j).dialogue choices = some (k, input, response) →
      PlannedDialogue input response := by
    intro j hj heq
    cases heq
    exact plannedDialogue_echo choices.seed hj
  have hstate : ∀ j, (WorkloadStep.state j).dialogue choices = some (k, input, response) →
      PlannedDialogue input response := by
    intro j heq
    cases heq
    exact ⟨by decide, by decide, by decide, by decide, by decide⟩
  rcases hmem with (hmem | ⟨index, hindex, hmem⟩) | hmem
  · simp only [openingSteps, List.mem_cons, List.not_mem_nil, or_false] at hmem
    rcases hmem with rfl | rfl | rfl
    · cases hdialogue
    · exact hecho 1 (by decide) hdialogue
    · exact hstate 1 hdialogue
  · rcases mem_requestBlock.mp hmem with ⟨-, hmem⟩ | ⟨-, rfl⟩ | ⟨-, rfl⟩ | rfl
    · simp only [faultSteps, List.mem_cons, List.not_mem_nil, or_false] at hmem
      rcases hmem with rfl | rfl | rfl | rfl | rfl
      · cases hdialogue
        exact ⟨by decide, by decide, by decide, by decide, by decide⟩
      · cases hdialogue
      · cases hdialogue
      · exact hecho 2 (by decide) hdialogue
      · exact hstate 2 hdialogue
    · cases hdialogue
    · cases hdialogue
    · obtain ⟨request, -, heq, hplanned⟩ := @Planned.dialogue_request _ _ _ h index
        (servingInvocation choices index) hindex
      rw [heq] at hdialogue
      cases hdialogue
      exact hplanned
  · rw [List.mem_singleton.mp hmem] at hdialogue
    cases hdialogue

/-- A step adds at most one line to each direction. -/
theorem totals_le {done : List WorkloadStep} (hdone : ∀ step ∈ done, ∀ k input response,
    step.dialogue choices = some (k, input, response) → PlannedDialogue input response) (k : Nat) :
    accepted choices done k ≤ 256 * done.length ∧ (emitted choices done k).length ≤ 1025 * done.length := by
  induction done using List.reverseRecOn with
  | nil => exact ⟨Nat.le_refl 0, Nat.le_refl 0⟩
  | append_singleton done step ih =>
    obtain ⟨hin, hout⟩ := ih fun s hs => hdone s (List.mem_append_left _ hs)
    have hstep := hdone step (by simp)
    rw [accepted_snoc, emitted_snoc, List.length_append, List.length_append, List.length_singleton]
    have hboth : ((inputs choices k step).map List.length).sum ≤ 256 ∧
        (LineStream.joinLines (responses choices k step)).length ≤ 1025 := by
      cases hd : step.dialogue choices with
      | some triple =>
        obtain ⟨j, input, response⟩ := triple
        have hplanned := hstep j input response hd
        have hline := hplanned.line.bounded
        unfold maxResponseLineBytes at hline
        rw [responses_of_dialogue hd, inputs, hd]
        have hshort := hplanned.short
        dsimp only
        split_ifs
        · simp [LineStream.joinLines, hshort]
          omega
        · simp [LineStream.joinLines]
      | none =>
        have hresponses : responses choices k step = [] ∨ responses choices k step = [readyLine] := by
          cases step with
          | start j =>
            by_cases hj : j = k
            · exact Or.inr (if_pos hj)
            · exact Or.inl (if_neg hj)
          | _ => left; simp only [responses, hd]
        rw [inputs, hd]
        refine ⟨by simp, ?_⟩
        rcases hresponses with heq | heq <;> rw [heq]
        · simp [LineStream.joinLines]
        · decide
    omega

theorem length_requestBlock (choices : WorkloadChoicePlan)
    (index : Nat) : (requestBlock choices index).length ≤ 8 := by
  unfold requestBlock transitionSteps
  split_ifs <;> simp

theorem length_stepsBefore (choices : WorkloadChoicePlan) : ∀ index,
    (stepsBefore choices index).length ≤ 3 + 8 * index
  | 0 => by simp [stepsBefore, openingSteps]
  | index + 1 => by
    have hbefore := length_stepsBefore choices index
    have hblock := length_requestBlock choices index
    rw [stepsBefore_succ, List.length_append]
    omega

theorem countable_plan (h : Planned choices n payloadBytes) {done : List WorkloadStep}
    (hdone : done <+: workloadSteps choices) : Countable choices done := by
  intro k
  have htotals := totals_le (fun step hstep j input response hd =>
    plannedDialogue_of_mem h (hdone.subset hstep) hd) k
  have hlength := hdone.length_le
  have hbefore := length_stepsBefore choices n
  have hfew := h.few
  rw [workloadSteps_eq h.bounds, List.length_append, List.length_singleton] at hlength
  unfold maxRequestCount at hfew
  unfold u64Size
  omega

/-! ## Where the steps of the plan stand -/

theorem nodup_requestBlock (choices : WorkloadChoicePlan) (index : Nat) : (requestBlock choices index).Nodup := by
  unfold requestBlock transitionSteps
  split_ifs <;> simp

theorem nodup_stepsBefore (choices : WorkloadChoicePlan) : ∀ index, (stepsBefore choices index).Nodup
  | 0 => by simp [stepsBefore, openingSteps]
  | index + 1 => by
    rw [stepsBefore_succ]
    refine List.nodup_append.mpr ⟨nodup_stepsBefore choices index, nodup_requestBlock choices index, ?_⟩
    rintro step hbefore _ hblock rfl
    rw [mem_stepsBefore] at hbefore
    rcases mem_requestBlock.mp hblock with ⟨hi, hblock⟩ | ⟨hi, rfl⟩ | ⟨hi, rfl⟩ | rfl
    · simp only [faultSteps, List.mem_cons, List.not_mem_nil, or_false] at hblock
      rcases hblock with rfl | rfl | rfl | rfl | rfl <;>
        simp [openingSteps, mem_requestBlock, faultSteps] at hbefore <;> omega
    · simp [openingSteps, mem_requestBlock, faultSteps] at hbefore
      omega
    · simp [openingSteps, mem_requestBlock, faultSteps] at hbefore
      omega
    · simp [openingSteps, mem_requestBlock, faultSteps] at hbefore

theorem nodup_workloadSteps (h : PlanBounds choices n) : (workloadSteps choices).Nodup := by
  rw [workloadSteps_eq h]
  refine List.nodup_append.mpr ⟨nodup_stepsBefore choices n, by simp, ?_⟩
  rintro step hbefore _ hlast rfl
  rw [List.mem_singleton.mp hlast] at hbefore
  exact (doneBefore_stepsBefore choices n).open_input 2 hbefore

/-- The steps around the block of a request. -/
theorem stepsBefore_split (choices : WorkloadChoicePlan) {index : Nat} (hindex : index < n) :
    stepsBefore choices n = stepsBefore choices index ++ (requestBlock choices index ++
      (List.range' (index + 1) (n - (index + 1))).flatMap (requestBlock choices)) := by
  have hrange : List.range n = List.range index ++ index :: List.range' (index + 1) (n - (index + 1)) := by
    have happend := @List.range'_append_1 0 index (n - index)
    rw [Nat.zero_add, Nat.add_sub_cancel' hindex.le, show n - index = (n - (index + 1)) + 1 by omega,
      List.range'_succ] at happend
    rw [List.range_eq_range', List.range_eq_range', happend]
  rw [stepsBefore, hrange, List.flatMap_append, List.flatMap_cons, stepsBefore, List.append_assoc]

theorem requestBlock_activation (h : PlanBounds choices n) :
    requestBlock choices choices.outageActivationRequestIndex =
    [.activate, .request (servingInvocation choices choices.outageActivationRequestIndex)
      choices.outageActivationRequestIndex] := by
  simp [requestBlock, transitionSteps, h.fault_ne_activation.symm, Nat.ne_of_lt h.activation_lt]

theorem requestBlock_restoration (h : PlanBounds choices n) :
    requestBlock choices choices.restorationRequestIndex =
    [.restore, .request (servingInvocation choices choices.restorationRequestIndex)
      choices.restorationRequestIndex] := by
  simp [requestBlock, transitionSteps, h.fault_ne_restoration.symm, (Nat.ne_of_lt h.activation_lt).symm]

theorem requestBlock_fault (h : PlanBounds choices n) : requestBlock choices choices.processFaultRequestIndex =
    faultSteps ++ [.request 2 choices.processFaultRequestIndex] := by
  simp [requestBlock, transitionSteps, servingInvocation, h.fault_ne_activation,
    h.fault_ne_restoration, faultSteps]

section Recorded

variable {α : Type} {f : List WorkloadStep → WorkloadStep → List α} {steps : List WorkloadStep}

theorem recorded_eq_nil : ∀ {before steps : List WorkloadStep}, (∀ step ∈ steps, ∀ done, f done step = []) →
    recorded f before steps = []
  | _, [], _ => rfl
  | before, step :: steps, h => by
    rw [recorded, h step List.mem_cons_self, List.nil_append]
    exact recorded_eq_nil fun s hs => h s (List.mem_cons_of_mem _ hs)

/-- A list that only one step records to. -/
theorem recorded_one {earlier later : List WorkloadStep} {step : WorkloadStep} (hnodup : steps.Nodup)
    (heq : steps = earlier ++ step :: later) (hf : ∀ s ∈ steps, s ≠ step → ∀ done, f done s = []) :
    recorded f [] steps = f earlier step := by
  subst heq
  have hnot := List.nodup_middle.mp hnodup
  rw [List.nodup_cons, List.mem_append, not_or] at hnot
  have hearlier : recorded f [] earlier = [] :=
    recorded_eq_nil fun s hs => hf s (List.mem_append_left _ hs) fun h => hnot.1.1 (h ▸ hs)
  have hlater : recorded f (earlier ++ [step]) later = [] := recorded_eq_nil fun s hs =>
    hf s (List.mem_append_right _ (List.mem_cons_of_mem _ hs)) fun h => hnot.1.2 (h ▸ hs)
  rw [recorded_append, hearlier, List.nil_append, List.nil_append, recorded, hlater, List.append_nil]

/-- A list that only two steps record to. -/
theorem recorded_two {earlier middle later : List WorkloadStep} {step step' : WorkloadStep} (hnodup : steps.Nodup)
    (heq : steps = earlier ++ step :: (middle ++ step' :: later))
    (hf : ∀ s ∈ steps, s ≠ step → s ≠ step' → ∀ done, f done s = []) :
    recorded f [] steps = f earlier step ++ f (earlier ++ step :: middle) step' := by
  have heq' : steps = (earlier ++ step :: middle) ++ step' :: later := by rw [heq]; simp
  rw [heq'] at hnodup hf
  have hnot := List.nodup_middle.mp hnodup
  rw [List.nodup_cons, List.mem_append, not_or] at hnot
  have hlater : recorded f ((earlier ++ step :: middle) ++ [step']) later = [] := by
    refine recorded_eq_nil fun s hs => hf s (List.mem_append_right _ (List.mem_cons_of_mem _ hs)) ?_ ?_
    · rintro rfl
      exact (List.nodup_append.mp hnodup).2.2 s (by simp) s (List.mem_cons_of_mem _ hs) rfl
    · exact fun h => hnot.1.2 (h ▸ hs)
  have hbefore : recorded f [] (earlier ++ step :: middle) = f earlier step := by
    refine recorded_one (List.nodup_append.mp hnodup).1 rfl fun s hs hne => hf s (List.mem_append_left _ hs) hne ?_
    exact fun h => hnot.1.1 (h ▸ hs)
  rw [heq', recorded_append, hbefore, List.nil_append, recorded, hlater, List.append_nil]

end Recorded

/-! ## The responses of the plan -/

/-- The response line of the request at an index. -/
def networkLine (choices : WorkloadChoicePlan) (index : Nat) : Text :=
  expectedNetworkLine ((choices.requests[index]?).getD ⟨[], []⟩)
    (requestPhase index choices.outageActivationRequestIndex choices.restorationRequestIndex)

theorem networkLines_eq (h : choices.requests.length = n) :
    networkLines choices = (List.range n).map (networkLine choices) := by
  refine List.ext_getElem? fun index => ?_
  by_cases hindex : index < n
  · obtain ⟨request, hrequest⟩ : ∃ request, choices.requests[index]? = some request :=
      ⟨_, List.getElem?_eq_getElem (by omega)⟩
    simp [networkLines, networkLine, List.getElem?_range hindex, hrequest]
  · have hnone : choices.requests[index]? = none := List.getElem?_eq_none (by omega)
    simp [networkLines, hnone, hindex]

theorem responses_request (h : Planned choices n payloadBytes) {index : Nat} (hindex : index < n) (k j : Nat) :
    responses choices k (.request j index) = if j = k then [networkLine choices index] else [] := by
  obtain ⟨request, hrequest, hdialogue, -⟩ := @Planned.dialogue_request _ _ _ h index j hindex
  rw [responses_of_dialogue hdialogue, networkLine, hrequest]
  rfl

theorem responses_block (h : Planned choices n payloadBytes) {index : Nat} (hindex : index < n)
    (hne : index ≠ choices.processFaultRequestIndex)
    (k : Nat) : (requestBlock choices index).flatMap (responses choices k) =
      if servingInvocation choices index = k then [networkLine choices index] else [] := by
  have htransition : (transitionSteps choices index).flatMap (responses choices k) = [] := by
    unfold transitionSteps
    rw [if_neg hne]
    split_ifs <;> rfl
  rw [requestBlock, List.flatMap_append, htransition, List.nil_append, List.flatMap_singleton,
    responses_request h hindex]

/-- The responses of an invocation to blocks that one invocation serves. -/
theorem responses_blocks (h : Planned choices n payloadBytes) {k j : Nat} : ∀ {indices : List Nat},
    (∀ index ∈ indices, index < n ∧ index ≠ choices.processFaultRequestIndex ∧
      servingInvocation choices index = j) →
    (indices.flatMap (requestBlock choices)).flatMap (responses choices k) =
      if j = k then indices.map (networkLine choices) else []
  | [], _ => by simp
  | index :: indices, hall => by
    obtain ⟨hindex, hne, hserving⟩ := hall index List.mem_cons_self
    have hrest := @responses_blocks h k j indices fun i hi => hall i (List.mem_cons_of_mem _ hi)
    rw [List.flatMap_cons, List.flatMap_append, hrest, responses_block h hindex hne, hserving]
    split_ifs <;> rfl

/-- The responses of the three parts of the plan: before the fault, the fault, and what follows it. -/
theorem responses_parts (h : Planned choices n payloadBytes) (k : Nat) :
    (workloadSteps choices).flatMap (responses choices k) =
      openingSteps.flatMap (responses choices k) ++
      (if 1 = k then (networkLines choices).take choices.processFaultRequestIndex else []) ++
      (faultSteps.flatMap (responses choices k) ++
      (if 2 = k then (networkLines choices).drop choices.processFaultRequestIndex else [])) := by
  have hlt := h.bounds.fault_lt
  have hbefore : ((List.range choices.processFaultRequestIndex).flatMap (requestBlock choices)).flatMap
      (responses choices k) = if 1 = k then (List.range choices.processFaultRequestIndex).map
      (networkLine choices) else [] := by
    refine responses_blocks h fun index hindex => ?_
    rw [List.mem_range] at hindex
    exact ⟨by omega, by omega, if_pos hindex⟩
  have hafter : ((List.range' (choices.processFaultRequestIndex + 1)
      (n - (choices.processFaultRequestIndex + 1))).flatMap (requestBlock choices)).flatMap (responses choices k) =
      if 2 = k then (List.range' (choices.processFaultRequestIndex + 1)
        (n - (choices.processFaultRequestIndex + 1))).map (networkLine choices) else [] := by
    refine responses_blocks h fun index hindex => ?_
    rw [List.mem_range'_1] at hindex
    exact ⟨by omega, by omega, if_neg (by omega)⟩
  have htake : (networkLines choices).take choices.processFaultRequestIndex =
      (List.range choices.processFaultRequestIndex).map (networkLine choices) := by
    rw [networkLines_eq h.bounds.requests_length, ← List.map_take, List.take_range, min_eq_left hlt.le]
  have hdrop : (networkLines choices).drop choices.processFaultRequestIndex =
      networkLine choices choices.processFaultRequestIndex ::
        (List.range' (choices.processFaultRequestIndex + 1)
          (n - (choices.processFaultRequestIndex + 1))).map (networkLine choices) := by
    rw [networkLines_eq h.bounds.requests_length, ← List.map_drop, List.range_eq_range', List.drop_range',
      ← List.map_cons, ← List.range'_succ]
    congr 2 <;> omega
  rw [workloadSteps_eq h.bounds, stepsBefore_split choices hlt, requestBlock_fault h.bounds, stepsBefore,
    htake, hdrop]
  simp only [List.flatMap_append, hbefore, hafter, List.flatMap_singleton, responses_request h hlt]
  split_ifs <;> simp [responses, WorkloadStep.dialogue]

/-- **The responses of the plan are the lines the checker expects.** -/
theorem responses_workloadSteps (h : Planned choices n payloadBytes) {k : Nat} (hk : k = 1 ∨ k = 2) :
    (workloadSteps choices).flatMap (responses choices k) = expectedLines choices k := by
  rw [responses_parts h]
  rcases hk with rfl | rfl
  · simp [openingSteps, faultSteps, responses, WorkloadStep.dialogue, expectedLines]
  · simp [openingSteps, faultSteps, responses, WorkloadStep.dialogue, expectedLines]

/-- A response of the plan and the step that it answers. -/
inductive Answers (choices : WorkloadChoicePlan) (n k : Nat) : WorkloadStep → Text → Prop
  | ready : Answers choices n k (.start k) readyLine
  | echo : Answers choices n k (.echo k) (utf8 "echo value=" ++ echoToken choices.seed k)
  | state : Answers choices n k (.state k) freshStateLine
  | escaped : k = 1 → Answers choices n k (.spawnDescendant k) escapedDescendantLine
  | request {index : Nat} : index < n → k = servingInvocation choices index →
      Answers choices n k (.request k index) (networkLine choices index)

theorem answers_of_mem (h : Planned choices n payloadBytes) {step : WorkloadStep}
    (hmem : step ∈ workloadSteps choices) {k : Nat} {text : Text} (htext : text ∈ responses choices k step) :
    Answers choices n k step text := by
  rw [workloadSteps_eq h.bounds, List.mem_append, mem_stepsBefore] at hmem
  have hline : ∀ {s : WorkloadStep} {j : Nat} {wanted : Text},
      responses choices k s = (if j = k then [wanted] else []) →
      text ∈ responses choices k s → j = k ∧ text = wanted := by
    intro s j wanted heq hin
    rw [heq, List.mem_ite_nil_right, List.mem_singleton] at hin
    exact hin
  have hsteps : step ∈ openingSteps ++ faultSteps → Answers choices n k step text := by
    intro hstep
    simp only [openingSteps, faultSteps, List.mem_append, List.mem_cons, List.not_mem_nil, or_false] at hstep
    rcases hstep with (rfl | rfl | rfl) | (rfl | rfl | rfl | rfl | rfl)
    · obtain ⟨rfl, rfl⟩ := @hline _ 1 readyLine rfl htext
      exact .ready
    · obtain ⟨rfl, rfl⟩ := @hline _ 1 _ rfl htext
      exact .echo
    · obtain ⟨rfl, rfl⟩ := @hline _ 1 _ rfl htext
      exact .state
    · obtain ⟨rfl, rfl⟩ := @hline _ 1 _ rfl htext
      exact .escaped rfl
    · cases htext
    · obtain ⟨rfl, rfl⟩ := @hline _ 2 readyLine rfl htext
      exact .ready
    · obtain ⟨rfl, rfl⟩ := @hline _ 2 _ rfl htext
      exact .echo
    · obtain ⟨rfl, rfl⟩ := @hline _ 2 _ rfl htext
      exact .state
  rcases hmem with (hmem | ⟨index, hindex, hmem⟩) | hmem
  · exact hsteps (List.mem_append_left _ hmem)
  · rcases mem_requestBlock.mp hmem with ⟨-, hmem⟩ | ⟨-, rfl⟩ | ⟨-, rfl⟩ | rfl
    · exact hsteps (List.mem_append_right _ hmem)
    · cases htext
    · cases htext
    · obtain ⟨rfl, rfl⟩ := hline (responses_request h hindex k _) htext
      exact .request hindex rfl
  · rw [List.mem_singleton.mp hmem] at htext
    cases htext

/-- The first byte tells the kinds of responses apart. -/
theorem head_networkLine (choices : WorkloadChoicePlan)
    (index : Nat) : (networkLine choices index).head? = some 110 := by
  unfold networkLine
  cases requestPhase index choices.outageActivationRequestIndex choices.restorationRequestIndex <;> rfl

theorem Answers.of_escaped {k : Nat} {step : WorkloadStep} {text : Text} (h : Answers choices n k step text)
    (htext : text = escapedDescendantLine) : step = .spawnDescendant 1 := by
  cases h with
  | ready => cases htext
  | echo => cases htext
  | state => cases htext
  | escaped hk => rw [hk]
  | request _ _ =>
    have hhead := head_networkLine choices ‹Nat›
    rw [htext] at hhead
    cases hhead

theorem Answers.of_echo {k : Nat} {step : WorkloadStep} {text : Text} (h : Answers choices n k step text)
    (htext : text = utf8 "echo value=" ++ echoToken choices.seed k) : step = .echo k := by
  cases h with
  | ready => cases htext
  | echo => rfl
  | state => cases htext
  | escaped hk => cases htext
  | request _ _ =>
    have hhead := head_networkLine choices ‹Nat›
    rw [htext] at hhead
    cases hhead

theorem Answers.of_network (h : Planned choices n payloadBytes) {k index : Nat} (hindex : index < n)
    {step : WorkloadStep} {text : Text} (ha : Answers choices n k step text)
    (htext : text = networkLine choices index) : k = servingInvocation choices index ∧
    step = .request k index := by
  have hhead := head_networkLine choices index
  rw [← htext] at hhead
  cases ha with
  | ready => cases hhead
  | echo => cases hhead
  | state => cases hhead
  | escaped hk => cases hhead
  | @request other hother hk =>
    obtain ⟨request, hrequest⟩ := h.exists_request hindex
    obtain ⟨request', hrequest'⟩ := h.exists_request hother
    obtain ⟨⟨nonce, hid⟩, -⟩ := h.request _ _ hrequest
    obtain ⟨⟨nonce', hid'⟩, -⟩ := h.request _ _ hrequest'
    have hsame : request'.requestId = request.requestId := by
      unfold networkLine at htext
      rw [hrequest, hrequest'] at htext
      exact expectedNetworkLine_inj htext
    have hfew := h.few
    unfold maxRequestCount at hfew
    have heq : other = index := by
      rw [hid, hid'] at hsame
      exact requestIdText_inj (by omega) (by omega) hsame
    subst heq
    exact ⟨hk, rfl⟩

end Plan

end SimFerret.Driver
