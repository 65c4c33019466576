import SimFerret.Driver.Network
import SimFerret.Driver.Responses
import SimFerret.Guest.Agent

/-!
# SimFerret.Driver.NetworkRun — the verdict of a conforming network run

* `planFrames`: the events of a conforming run, with the identifiers each of them carries.
* `mem_planFrames`: what those events are.
* `evaluate_planFrames`: the report on them, whatever the first file of the fixture holds.
-/

namespace SimFerret.Driver

open Checker

/-! ## The events of the run -/

/-- How many of the two transitions come before the block of a request, or before the request itself. -/
def transitionsBelow (choices : ChoicePlan) (index : Nat) : Nat :=
  (if choices.outageActivationRequestIndex < index then 1 else 0) + if choices.restorationRequestIndex <
    index then 1 else 0

/-- The identifier of a request's command. -/
def requestCommandId (choices : ChoicePlan) (index : Nat) : Nat := 2 + index + transitionsBelow choices (index + 1)

/-- The identifier of the event that attempts a request. -/
def attemptId (choices : ChoicePlan) (index : Nat) : Nat := 2 + 2 * index + transitionsBelow choices (index + 1)

/-- Whether the outage is in force when a request is made. -/
def inOutage (choices : ChoicePlan) (index : Nat) : Bool :=
  decide (choices.outageActivationRequestIndex ≤ index) && decide (index < choices.restorationRequestIndex)

def phaseOf (choices : ChoicePlan) (index : Nat) : RequestPhase :=
  requestPhase index choices.outageActivationRequestIndex choices.restorationRequestIndex

/-- The payload in the file of a request. -/
def servedPayload (corruptResponses : Bool) (index : Nat) (request : PlannedRequest) : Text :=
  if corruptResponses && index == 0 then request.payload ++ utf8 "-corrupted" else request.payload

/-- What comes of a request. -/
def outcomeEvent (choices : ChoicePlan) (corruptResponses : Bool) (index : Nat)
    (request : PlannedRequest) : Event :=
  if inOutage choices index then
    .requestUnavailable request.requestId (phaseOf choices index) .administrativeProhibited (some (eacces : Int))
  else .requestSucceeded request.requestId request.payload request.requestId
    (servedPayload corruptResponses index request) (phaseOf choices index)

section Frames

variable (choices : ChoicePlan) (corruptResponses : Bool)

def configuredFrame : EventFrame :=
  Guest.eventFrame 1 1 (.networkConfigured networkInterface guestCidr Guest.gateway)

def activationFrame (index : Nat) : EventFrame :=
  Guest.eventFrame (2 + 2 * index) (2 + index) (.outageActivated Guest.peerCidr Guest.outageRule)

def restorationFrame (index : Nat) : EventFrame :=
  Guest.eventFrame (3 + 2 * index) (3 + index) (.networkRestored Guest.peerCidr)

def attemptFrame (index : Nat) (request : PlannedRequest) : EventFrame :=
  Guest.eventFrame (attemptId choices index) (requestCommandId choices index)
    (.requestAttempted request.requestId request.payload (phaseOf choices index))

def outcomeFrame (index : Nat) (request : PlannedRequest) : EventFrame :=
  Guest.eventFrame (attemptId choices index + 1) (requestCommandId choices index)
    (outcomeEvent choices corruptResponses index request)

/-- The events of the transitions in front of a request. -/
def transitionFrames (index : Nat) : List EventFrame :=
  (if index = choices.outageActivationRequestIndex then [activationFrame index] else []) ++
    if index = choices.restorationRequestIndex then [restorationFrame index] else []

/-- The events of one request and of the transitions in front of it. -/
def blockFrames (index : Nat) (request : PlannedRequest) : List EventFrame :=
  transitionFrames choices index ++ [attemptFrame choices index request,
    outcomeFrame choices corruptResponses index request]

/-- The events of the requests from `index` on. -/
def framesFrom : Nat → List PlannedRequest → List EventFrame
  | _, [] => []
  | index, request :: requests =>
    blockFrames choices corruptResponses index request ++ framesFrom (index + 1) requests

/-- The events of a conforming run up to its check. -/
def planFrames : List EventFrame := configuredFrame :: framesFrom choices corruptResponses 0 choices.requests

end Frames

section Evaluate

variable {choices : ChoicePlan} {corruptResponses : Bool}

theorem mem_framesFrom {frame : EventFrame} : ∀ {requests : List PlannedRequest} {index : Nat},
    frame ∈ framesFrom choices corruptResponses index requests ↔
      ∃ i request, requests[i]? = some request ∧ frame ∈ blockFrames choices corruptResponses (index + i) request
  | [], _ => by simp [framesFrom]
  | first :: requests, index => by
    rw [framesFrom, List.mem_append, mem_framesFrom]
    constructor
    · rintro (h | ⟨i, request, hget, h⟩)
      · exact ⟨0, first, rfl, h⟩
      · exact ⟨i + 1, request, hget, by rwa [Nat.add_right_comm, Nat.add_assoc] at h⟩
    · rintro ⟨_ | i, request, hget, h⟩
      · obtain rfl : first = request := by simpa using hget
        exact .inl h
      · exact .inr ⟨i, request, by simpa using hget, by rwa [Nat.add_right_comm, Nat.add_assoc]⟩

/-- The events of a conforming run. -/
theorem mem_planFrames {frame : EventFrame} : frame ∈ planFrames choices corruptResponses ↔
    frame = configuredFrame ∨
    ∃ i request, choices.requests[i]? = some request ∧
      (i = choices.outageActivationRequestIndex ∧ frame = activationFrame i ∨
        i = choices.restorationRequestIndex ∧ frame = restorationFrame i ∨
        frame = attemptFrame choices i request ∨ frame = outcomeFrame choices corruptResponses i request) := by
  rw [planFrames, List.mem_cons, mem_framesFrom]
  simp only [blockFrames, transitionFrames, List.mem_append, List.mem_ite_nil_right, List.mem_cons,
    List.not_mem_nil, or_false, Nat.zero_add, or_assoc]

/-- Where the transitions of a network plan fall. -/
structure PlacedTransitions (choices : ChoicePlan) : Prop where
  activation_pos : 1 ≤ choices.outageActivationRequestIndex
  activation_lt : choices.outageActivationRequestIndex < choices.restorationRequestIndex
  restoration_lt : choices.restorationRequestIndex < choices.requests.length

/-- A command identifier tells its request. -/
theorem requestCommandId_inj {i j : Nat}
    (h : requestCommandId choices i = requestCommandId choices j) : i = j := by
  unfold requestCommandId transitionsBelow at h
  split_ifs at h <;> omega

theorem configuredPeer_planFrames :
    configuredPeer (planFrames choices corruptResponses) = some (1, Guest.peerCidr) := rfl

theorem peerActivation_planFrames (h : PlacedTransitions choices) :
    peerActivation (planFrames choices corruptResponses) =
      some (2 + 2 * choices.outageActivationRequestIndex, Guest.peerCidr) := by
  rw [peerActivation, configuredPeer_planFrames]
  obtain ⟨request, hget⟩ : ∃ request, choices.requests[choices.outageActivationRequestIndex]? = some request :=
    ⟨_, List.getElem?_eq_getElem (lt_trans h.activation_lt h.restoration_lt)⟩
  refine findSome?_of_unique (mem_planFrames.mpr (.inr ⟨_, request, hget, .inl ⟨rfl, rfl⟩⟩)) ?_ ?_
  · simp only [activationFrame, Guest.eventFrame]
    rw [if_pos]
    exact ⟨by omega, trivial, rfl⟩
  · intro frame hframe found hfound
    rcases mem_planFrames.mp hframe with rfl | ⟨i, request, -, ⟨rfl, rfl⟩ | ⟨-, rfl⟩ | rfl | rfl⟩
    · simp [configuredFrame, Guest.eventFrame] at hfound
    · simp only [activationFrame, Guest.eventFrame, Option.ite_none_right_eq_some, Option.some.injEq] at hfound
      exact hfound.2.symm
    · simp [restorationFrame, Guest.eventFrame] at hfound
    · simp [attemptFrame, Guest.eventFrame] at hfound
    · simp only [outcomeFrame, Guest.eventFrame, outcomeEvent] at hfound
      split_ifs at hfound

theorem peerRestoration_planFrames (h : PlacedTransitions choices) :
    peerRestoration (planFrames choices corruptResponses) = some (3 + 2 * choices.restorationRequestIndex) := by
  rw [peerRestoration, peerActivation_planFrames h]
  obtain ⟨request, hget⟩ : ∃ request, choices.requests[choices.restorationRequestIndex]? = some request :=
    ⟨_, List.getElem?_eq_getElem h.restoration_lt⟩
  have hlt := h.activation_lt
  refine findSome?_of_unique (mem_planFrames.mpr (.inr ⟨_, request, hget, .inr (.inl ⟨rfl, rfl⟩)⟩)) ?_ ?_
  · simp only [restorationFrame, Guest.eventFrame]
    rw [if_pos]
    exact ⟨by omega, trivial⟩
  · intro frame hframe found hfound
    rcases mem_planFrames.mp hframe with rfl | ⟨i, request, -, ⟨-, rfl⟩ | ⟨rfl, rfl⟩ | rfl | rfl⟩
    · simp [configuredFrame, Guest.eventFrame] at hfound
    · simp [activationFrame, Guest.eventFrame] at hfound
    · simp only [restorationFrame, Guest.eventFrame, Option.ite_none_right_eq_some, Option.some.injEq] at hfound
      exact hfound.2.symm
    · simp [attemptFrame, Guest.eventFrame] at hfound
    · simp only [outcomeFrame, Guest.eventFrame, outcomeEvent] at hfound
      split_ifs at hfound

/-- A response that is the request's own is matched, by the attempt of its command. -/
theorem matchingSuccessAttempt_planFrames {i : Nat} {request : PlannedRequest}
    (hget : choices.requests[i]? = some request)
    (hserved : servedPayload corruptResponses i request = request.payload) (hphase : inOutage choices i = false) :
    ∃ attempt, matchingSuccessAttempt (planFrames choices corruptResponses)
      (outcomeFrame choices corruptResponses i request)
      = some attempt ∧ attempt.eventId = attemptId choices i := by
  have hevent : outcomeEvent choices corruptResponses i request =
      .requestSucceeded request.requestId request.payload request.requestId request.payload
          (phaseOf choices i) := by
    rw [outcomeEvent, hphase, hserved]
    rfl
  simp only [matchingSuccessAttempt, outcomeFrame, Guest.eventFrame, hevent, ne_eq, not_true_eq_false,
    or_self, if_false]
  have hmem : attemptFrame choices i request ∈ planFrames choices corruptResponses :=
    mem_planFrames.mpr (.inr ⟨i, request, hget, .inr (.inr (.inl rfl))⟩)
  cases hfind : (planFrames choices corruptResponses).find? _ with
  | none =>
    have hnone := List.find?_eq_none.mp hfind _ hmem
    simp [attemptFrame, Guest.eventFrame] at hnone
  | some attempt =>
    refine ⟨attempt, rfl, ?_⟩
    have hsome := List.find?_some hfind
    rcases mem_planFrames.mp (List.mem_of_find?_eq_some hfind) with
      rfl | ⟨j, other, -, ⟨-, rfl⟩ | ⟨-, rfl⟩ | rfl | rfl⟩
    · simp [configuredFrame, Guest.eventFrame] at hsome
    · simp [activationFrame, Guest.eventFrame] at hsome
    · simp [restorationFrame, Guest.eventFrame] at hsome
    · simp only [attemptFrame, Guest.eventFrame, Bool.and_eq_true, beq_iff_eq] at hsome
      rw [requestCommandId_inj hsome.1.2]
      rfl
    · simp only [outcomeFrame, Guest.eventFrame, outcomeEvent] at hsome
      split_ifs at hsome

/-- Only the file of the first request may hold another payload. -/
theorem servedPayload_eq {i : Nat} (request : PlannedRequest) (h : corruptResponses = false ∨ i ≠ 0) :
    servedPayload corruptResponses i request = request.payload := by
  rw [servedPayload, if_neg]
  rcases h with h | h <;> simp [h]

theorem responseMismatch_planFrames (hsound : corruptResponses = false) :
    responseMismatch (planFrames choices corruptResponses) = none := by
  refine List.findSome?_eq_none_iff.mpr fun frame hframe => ?_
  rcases mem_planFrames.mp hframe with rfl | ⟨i, request, hget, ⟨-, rfl⟩ | ⟨-, rfl⟩ | rfl | rfl⟩
  · rfl
  · rfl
  · rfl
  · rfl
  · cases hphase : inOutage choices i with
    | true => simp [outcomeFrame, Guest.eventFrame, outcomeEvent, hphase]
    | false =>
      obtain ⟨attempt, hattempt, -⟩ :=
        matchingSuccessAttempt_planFrames hget (servedPayload_eq request (.inl hsound)) hphase
      simp only [outcomeFrame, Guest.eventFrame, outcomeEvent, hphase, Bool.false_eq_true, if_false] at hattempt ⊢
      rw [hattempt]
      rfl

theorem responseMismatch_corrupted (h : PlacedTransitions choices) :
    (responseMismatch (planFrames choices true)).isSome = true := by
  obtain ⟨request, hget⟩ : ∃ request, choices.requests[0]? = some request :=
    ⟨_, List.getElem?_eq_getElem (Nat.zero_lt_of_lt h.restoration_lt)⟩
  have hphase : inOutage choices 0 = false := by
    have := h.activation_pos
    simp [inOutage]
    omega
  have hmem : outcomeFrame choices true 0 request ∈ planFrames choices true :=
    mem_planFrames.mpr (.inr ⟨0, request, hget, .inr (.inr (.inr rfl))⟩)
  refine List.findSome?_isSome_iff.mpr ⟨_, hmem, ?_⟩
  have hne : ¬ request.payload = request.payload ++ utf8 "-corrupted" := by
    intro heq
    have hlength := congrArg List.length heq
    rw [List.length_append] at hlength
    have : (utf8 "-corrupted").length = 10 := by rfl
    omega
  simp [outcomeFrame, Guest.eventFrame, outcomeEvent, hphase, servedPayload, matchingSuccessAttempt, hne]

theorem preOutageResponse_planFrames (h : PlacedTransitions choices) (hsound : corruptResponses = false) :
    (preOutageResponse (planFrames choices corruptResponses)).isSome = true := by
  have hpos := h.activation_pos
  rw [preOutageResponse, peerActivation_planFrames h]
  obtain ⟨request, hget⟩ : ∃ request, choices.requests[0]? = some request :=
    ⟨_, List.getElem?_eq_getElem (Nat.zero_lt_of_lt h.restoration_lt)⟩
  have hphase : inOutage choices 0 = false := by
    simp [inOutage]
    omega
  obtain ⟨attempt, hattempt, hid⟩ :=
    matchingSuccessAttempt_planFrames hget (servedPayload_eq request (.inl hsound)) hphase
  refine List.find?_isSome.mpr
    ⟨outcomeFrame choices corruptResponses 0 request,
      mem_planFrames.mpr (.inr ⟨0, request, hget, .inr (.inr (.inr rfl))⟩), ?_⟩
  have hevent : phaseOf choices 0 = .preOutage := by
    rw [phaseOf, requestPhase, if_pos (by omega)]
  have hattemptId : attemptId choices 0 = 2 := by
    unfold attemptId transitionsBelow
    have := h.activation_lt
    split_ifs <;> omega
  simp only [outcomeFrame, Guest.eventFrame, outcomeEvent, hphase, hevent, hattemptId,
    Bool.false_eq_true, if_false] at hattempt ⊢
  rw [hattempt]
  simp only [Option.any_some, Bool.and_eq_true, decide_eq_true_eq, hid, hattemptId]
  omega

theorem prohibitedRequest_planFrames (h : PlacedTransitions choices) {outageEventBound : Nat}
    (hbound : 1 ≤ outageEventBound) :
    (prohibitedRequest (planFrames choices corruptResponses) outageEventBound).isSome = true := by
  have hlt := h.activation_lt
  rw [prohibitedRequest, peerActivation_planFrames h, peerRestoration_planFrames h]
  obtain ⟨request, hget⟩ : ∃ request, choices.requests[choices.outageActivationRequestIndex]? = some request :=
    ⟨_, List.getElem?_eq_getElem (lt_trans hlt h.restoration_lt)⟩
  have hphase : inOutage choices choices.outageActivationRequestIndex = true := by
    simp [inOutage, hlt]
  have hevent : phaseOf choices choices.outageActivationRequestIndex = .outage := by
    rw [phaseOf, requestPhase, if_neg (by omega), if_pos hlt]
  have hattemptId : attemptId choices choices.outageActivationRequestIndex =
      3 + 2 * choices.outageActivationRequestIndex := by
    unfold attemptId transitionsBelow
    split_ifs <;> omega
  refine List.findSome?_isSome_iff.mpr ⟨attemptFrame choices choices.outageActivationRequestIndex request,
    mem_planFrames.mpr (.inr ⟨_, request, hget, .inr (.inr (.inl rfl))⟩), ?_⟩
  simp only [attemptFrame, Guest.eventFrame, hevent, hattemptId]
  rw [if_pos ⟨by omega, by omega⟩]
  refine List.findSome?_isSome_iff.mpr ⟨outcomeFrame choices corruptResponses
    choices.outageActivationRequestIndex request,
    mem_planFrames.mpr (.inr ⟨_, request, hget, .inr (.inr (.inr rfl))⟩), ?_⟩
  simp only [outcomeFrame, Guest.eventFrame, outcomeEvent, hphase, hevent, hattemptId, if_true]
  rw [if_pos ⟨trivial, trivial, trivial, by omega, by omega, by omega⟩]
  rfl

theorem recoveredRequest_planFrames (h : PlacedTransitions choices) {recoveryEventBound : Nat}
    (hbound : 2 ≤ recoveryEventBound) :
    (recoveredRequest (planFrames choices corruptResponses) recoveryEventBound).isSome = true := by
  have hlt := h.activation_lt
  rw [recoveredRequest, peerRestoration_planFrames h]
  obtain ⟨request, hget⟩ : ∃ request, choices.requests[choices.restorationRequestIndex]? = some request :=
    ⟨_, List.getElem?_eq_getElem h.restoration_lt⟩
  have hphase : inOutage choices choices.restorationRequestIndex = false := by
    simp [inOutage]
  have hevent : phaseOf choices choices.restorationRequestIndex = .recovery := by
    rw [phaseOf, requestPhase, if_neg (by omega), if_neg (by omega)]
  have hattemptId : attemptId choices choices.restorationRequestIndex =
      4 + 2 * choices.restorationRequestIndex := by
    unfold attemptId transitionsBelow
    split_ifs <;> omega
  obtain ⟨attempt, hattempt, hid⟩ :=
    @matchingSuccessAttempt_planFrames _ corruptResponses _ _ hget
      (servedPayload_eq request (.inr (by omega))) hphase
  refine List.findSome?_isSome_iff.mpr ⟨outcomeFrame choices corruptResponses
    choices.restorationRequestIndex request,
    mem_planFrames.mpr (.inr ⟨_, request, hget, .inr (.inr (.inr rfl))⟩), ?_⟩
  simp only [outcomeFrame, Guest.eventFrame, outcomeEvent, hphase, hevent, hattemptId,
    Bool.false_eq_true, if_false] at hattempt ⊢
  rw [if_pos ⟨by omega, by omega⟩, hattempt, Option.filter_some, if_pos (by simp only [decide_eq_true_eq]; omega)]
  rfl

/-- The report on a conforming run: its assertions, and which of them hold. -/
theorem evaluate_planFrames (h : PlacedTransitions choices) {outageEventBound recoveryEventBound : Nat}
    (houtage : 1 ≤ outageEventBound) (hrecovery : 2 ≤ recoveryEventBound) :
    (evaluate (planFrames choices corruptResponses) outageEventBound recoveryEventBound).assertions.map
        (fun result => (result.name, result.passed)) =
      [(.safety, !corruptResponses), (.controlledOutage, true), (.restoration, true),
          (.boundedRecovery, true)] := by
  obtain ⟨⟨attempt, distance⟩, hprohibited⟩ :=
    Option.isSome_iff_exists.mp (@prohibitedRequest_planFrames _ corruptResponses h _ houtage)
  obtain ⟨⟨eventId, distance'⟩, hrecovered⟩ :=
    Option.isSome_iff_exists.mp (@recoveredRequest_planFrames _ corruptResponses h _ hrecovery)
  simp only [evaluate, hprohibited, hrecovered, peerRestoration_planFrames h, List.map_cons, List.map_nil]
  cases corruptResponses with
  | true =>
    obtain ⟨detail, hdetail⟩ := Option.isSome_iff_exists.mp (responseMismatch_corrupted h)
    rw [hdetail]
    rfl
  | false =>
    obtain ⟨frame, hframe⟩ := Option.isSome_iff_exists.mp (preOutageResponse_planFrames h rfl)
    rw [responseMismatch_planFrames rfl, hframe]
    rfl

end Evaluate

end SimFerret.Driver
