import SimFerret.Driver.Run

/-!
# SimFerret.Driver.Plan — the steps of a plan and the lines of its two invocations

* `workloadSteps_eq`: the plan is one block of steps for each request between the opening and the end of input.
* `count_lines`, `count_writes`: how many lines the plan reads from and writes to an invocation before a request.
* `length_expectedLines`: these are the lines the checker expects.
-/

namespace SimFerret.Driver

open Checker Workload

/-- The invocation that serves a request. -/
def servingInvocation (choices : WorkloadChoicePlan) (index : Nat) : Nat :=
  if index < choices.processFaultRequestIndex then 1 else 2

/-- The steps that precede a request: the process fault and the network transitions that fall before it. -/
def transitionSteps (choices : WorkloadChoicePlan) (index : Nat) : List WorkloadStep :=
  (if index = choices.processFaultRequestIndex then
    [.spawnDescendant 1, .terminate 1, .start 2, .echo 2, .state 2] else []) ++
  (if index = choices.outageActivationRequestIndex then [.activate] else []) ++
  (if index = choices.restorationRequestIndex then [.restore] else [])

/-- The steps of one request. -/
def requestBlock (choices : WorkloadChoicePlan) (index : Nat) : List WorkloadStep :=
  transitionSteps choices index ++ [.request (servingInvocation choices index) index]

def openingSteps : List WorkloadStep := [.start 1, .echo 1, .state 1]

/-- The steps before the request at `index`, its transitions not included. -/
def stepsBefore (choices : WorkloadChoicePlan) (index : Nat) : List WorkloadStep :=
  openingSteps ++ (List.range index).flatMap (requestBlock choices)

/-- The invocation that is running before the block of a request. -/
def invocationBefore (choices : WorkloadChoicePlan) (index : Nat) : Nat :=
  if index ≤ choices.processFaultRequestIndex then 1 else 2

theorem requestSteps_succ (choices : WorkloadChoicePlan) (left index : Nat) :
    requestSteps choices (left + 1) index (invocationBefore choices index) =
      requestBlock choices index ++ requestSteps choices left (index + 1)
          (invocationBefore choices (index + 1)) := by
  rw [requestSteps]
  rcases Nat.lt_trichotomy index choices.processFaultRequestIndex with h | h | h
  · have hfault : (index == choices.processFaultRequestIndex) = false := by simpa using Nat.ne_of_lt h
    simp [hfault, requestBlock, transitionSteps, servingInvocation, invocationBefore, Nat.ne_of_lt h, h, h.le,
      show index + 1 ≤ choices.processFaultRequestIndex from h]
  · have hfault : (index == choices.processFaultRequestIndex) = true := by simpa using h
    simp [requestBlock, transitionSteps, servingInvocation, invocationBefore, h]
  · have hfault : (index == choices.processFaultRequestIndex) = false := by simpa using (Nat.ne_of_lt h).symm
    simp [hfault, requestBlock, transitionSteps, servingInvocation, invocationBefore, (Nat.ne_of_lt h).symm,
      Nat.not_lt.mpr h.le, Nat.not_le.mpr h, show ¬ index + 1 ≤ choices.processFaultRequestIndex by omega]

theorem requestSteps_eq (choices : WorkloadChoicePlan) : ∀ (left index : Nat),
    requestSteps choices left index (invocationBefore choices index) =
      (List.range' index left).flatMap (requestBlock choices) ++
        [.stdinEof (invocationBefore choices (index + left))]
  | 0, index => rfl
  | left + 1, index => by
    rw [requestSteps_succ, requestSteps_eq choices left (index + 1), List.range'_succ, List.flatMap_cons,
      List.append_assoc, show index + 1 + left = index + (left + 1) by omega]

/-- **The plan of a run.** -/
theorem workloadSteps_eq {choices : WorkloadChoicePlan} {n : Nat} (h : PlanBounds choices n) :
    workloadSteps choices = stepsBefore choices n ++ [.stdinEof 2] := by
  have heq := requestSteps_eq choices choices.requests.length 0
  rw [h.requests_length, Nat.zero_add, invocationBefore, if_pos (Nat.zero_le _), invocationBefore,
    if_neg (Nat.not_le.mpr h.fault_lt)] at heq
  rw [workloadSteps, h.requests_length, heq, stepsBefore, ← List.append_assoc, List.range_eq_range']
  rfl

theorem stepsBefore_succ (choices : WorkloadChoicePlan) (index : Nat) :
    stepsBefore choices (index + 1) = stepsBefore choices index ++ requestBlock choices index := by
  rw [stepsBefore, List.range_succ, List.flatMap_append, List.flatMap_singleton, ← List.append_assoc]
  rfl

/-! ## Lines read and written -/

/-- The steps of the process fault. -/
def faultSteps : List WorkloadStep := [.spawnDescendant 1, .terminate 1, .start 2, .echo 2, .state 2]

/-- The number of requests before `index` that an invocation serves. -/
def served (choices : WorkloadChoicePlan) (index k : Nat) : Nat :=
  if k = 1 then min index choices.processFaultRequestIndex
  else if k = 2 then index - choices.processFaultRequestIndex else 0

section Count

variable {f : WorkloadStep → List Nat} (hactivate : f .activate = []) (hrestore : f .restore = [])
  (hrequest : ∀ k i, f (.request k i) = [k]) (choices : WorkloadChoicePlan)
include hactivate hrestore

theorem count_transitions (index k : Nat) : ((transitionSteps choices index).flatMap f).count k =
    if index = choices.processFaultRequestIndex then (faultSteps.flatMap f).count k else 0 := by
  unfold transitionSteps faultSteps
  split <;> split <;> split <;> simp [hactivate, hrestore]

include hrequest

/-- What the steps before a request count for an invocation. -/
theorem count_stepsBefore (k : Nat) : ∀ index, ((stepsBefore choices index).flatMap f).count k =
    (openingSteps.flatMap f).count k +
      (if index ≤ choices.processFaultRequestIndex then 0 else (faultSteps.flatMap f).count k) +
        served choices index k
  | 0 => by simp [stepsBefore, served]
  | index + 1 => by
    rw [stepsBefore_succ, List.flatMap_append, List.count_append, count_stepsBefore k index, requestBlock,
      List.flatMap_append, List.count_append, count_transitions hactivate hrestore,
        List.flatMap_singleton, hrequest,
      List.count_singleton]
    unfold served servingInvocation
    simp only [beq_iff_eq]
    split_ifs <;> omega

end Count

/-- The number of lines that a run writes to an invocation and reads from it. -/
theorem count_writes (choices : WorkloadChoicePlan) (index k : Nat) :
    ((stepsBefore choices index).flatMap WorkloadStep.writes).count k = [1, 1].count k +
      (if index ≤ choices.processFaultRequestIndex then 0 else [1, 2, 2].count k) + served choices index k :=
  count_stepsBefore rfl rfl (fun _ _ => rfl) choices k index

theorem count_inputs (choices : WorkloadChoicePlan) (index k : Nat) :
    ((stepsBefore choices index).flatMap WorkloadStep.inputs).count k = [1, 1].count k +
      (if index ≤ choices.processFaultRequestIndex then 0 else [1, 2, 2].count k) + served choices index k :=
  count_stepsBefore rfl rfl (fun _ _ => rfl) choices k index

theorem count_lines (choices : WorkloadChoicePlan) (index k : Nat) :
    ((stepsBefore choices index).flatMap WorkloadStep.lines).count k = [1, 1, 1].count k +
      (if index ≤ choices.processFaultRequestIndex then 0 else [1, 2, 2, 2].count k) + served choices index k :=
  count_stepsBefore rfl rfl (fun _ _ => rfl) choices k index

theorem length_expectedLines {choices : WorkloadChoicePlan} {n : Nat} (h : PlanBounds choices n) :
    (expectedLines choices 1).length = 4 + choices.processFaultRequestIndex ∧
      (expectedLines choices 2).length = 3 + (n - choices.processFaultRequestIndex) := by
  have hlen : (networkLines choices).length = n := by simp [networkLines, h.requests_length]
  have hlt := h.fault_lt
  constructor
  · simp [expectedLines, hlen]
    omega
  · simp [expectedLines, hlen]
    omega

end SimFerret.Driver
