import SimFerret.Protocol

/-!
# SimFerret.Assertions — the report of the network fixture (`assertions.rs`)

`evaluate` looks only at the network and request events and at the identifiers of their frames.

* `evaluate_filter`: frames of other kinds may be dropped.
* `evaluate_append`: frames of other kinds behind the others change nothing.
* `evaluate_normalize`: so do the diagnostics of the frames.
-/

namespace SimFerret

/-- `libc::EACCES`. -/
def eacces : Nat := 13

def AssertionReport.exitCode (report : AssertionReport) : Nat := if report.passed then 0 else 1

/-- The attempt that a matching response answers. -/
def matchingSuccessAttempt (events : List EventFrame) (outcome : EventFrame) : Option EventFrame :=
  match outcome.event with
  | .requestSucceeded requestId requestPayload responseId responsePayload phase =>
    if requestId ≠ responseId ∨ requestPayload ≠ responsePayload then none
    else events.find? fun attempt =>
      match attempt.event with
      | .requestAttempted attemptedId payload attemptedPhase =>
        attemptedId == requestId && payload == requestPayload && attemptedPhase == phase &&
          attempt.commandId == outcome.commandId && decide (attempt.eventId < outcome.eventId)
      | _ => false
  | _ => none

/-- The first configuration: its event and the host route of its gateway. -/
def configuredPeer (events : List EventFrame) : Option (Nat × Text) :=
  events.findSome? fun frame =>
    match frame.event with
    | .networkConfigured _ _ gateway => some (frame.eventId, gateway ++ utf8 "/32")
    | _ => none

/-- The first activation of the configured peer's outage. -/
def peerActivation (events : List EventFrame) : Option (Nat × Text) := do
  let (configuredId, expectedPeer) ← configuredPeer events
  events.findSome? fun frame =>
    match frame.event with
    | .outageActivated peerCidr rule =>
      if frame.eventId > configuredId ∧ peerCidr = expectedPeer ∧ rule = utf8 "prohibit " ++ expectedPeer then
        some (frame.eventId, peerCidr)
      else none
    | _ => none

/-- The first restoration of the activated peer. -/
def peerRestoration (events : List EventFrame) : Option Nat := do
  let (activationId, activatedPeer) ← peerActivation events
  events.findSome? fun frame =>
    match frame.event with
    | .networkRestored peerCidr =>
      if frame.eventId > activationId ∧ peerCidr = activatedPeer then some frame.eventId else none
    | _ => none

/-- The first response that cannot be right. -/
def responseMismatch (events : List EventFrame) : Option Text :=
  events.findSome? fun frame =>
    match frame.event with
    | .requestSucceeded .. =>
      if (matchingSuccessAttempt events frame).isNone then
        some ("response event " ++ decimal frame.eventId ++ " does not match its request attempt")
      else none
    | .requestUnavailable _ _ .invalidResponse _ =>
      some ("request event " ++ decimal frame.eventId ++ " received a non-canonical response")
    | _ => none

/-- The first matching response before the activation. -/
def preOutageResponse (events : List EventFrame) : Option EventFrame := do
  let (activationId, _) ← peerActivation events
  events.find? fun outcome =>
    match outcome.event with
    | .requestSucceeded _ _ _ _ .preOutage =>
      decide (outcome.eventId < activationId) &&
        (matchingSuccessAttempt events outcome).any fun attempt => decide (attempt.eventId < activationId)
    | _ => false

/-- The first request of the outage that was administratively prohibited within the bound. -/
def prohibitedRequest (events : List EventFrame) (outageEventBound : Nat) : Option (Nat × Nat) := do
  let (activationId, _) ← peerActivation events
  let restorationId ← peerRestoration events
  events.findSome? fun attempt =>
    match attempt.event with
    | .requestAttempted requestId _ .outage =>
      if attempt.eventId > activationId ∧ attempt.eventId < restorationId then
        events.findSome? fun outcome =>
          match outcome.event with
          | .requestUnavailable outcomeId .outage .administrativeProhibited errno =>
            if errno = some (eacces : Int) ∧ outcomeId = requestId ∧ outcome.commandId = attempt.commandId ∧
                outcome.eventId > attempt.eventId ∧ outcome.eventId < restorationId ∧
                outcome.eventId - attempt.eventId ≤ outageEventBound then
              some (attempt.eventId, outcome.eventId - attempt.eventId)
            else none
          | _ => none
      else none
    | _ => none

/-- The first matching response after the restoration within the bound. -/
def recoveredRequest (events : List EventFrame) (recoveryEventBound : Nat) : Option (Nat × Nat) := do
  let restorationId ← peerRestoration events
  events.findSome? fun outcome =>
    match outcome.event with
    | .requestSucceeded _ _ _ _ .recovery =>
      if outcome.eventId > restorationId ∧ outcome.eventId - restorationId ≤ recoveryEventBound then
        ((matchingSuccessAttempt events outcome).filter fun attempt =>
          decide (attempt.eventId > restorationId)).map fun _ => (outcome.eventId, outcome.eventId - restorationId)
      else none
    | _ => none

def evaluate (events : List EventFrame) (outageEventBound recoveryEventBound : Nat) : AssertionReport :=
  let safety : AssertionResult :=
    match responseMismatch events, preOutageResponse events with
    | some detail, _ => ⟨.safety, false, detail⟩
    | none, some frame =>
      ⟨.safety, true, "matching pre-outage response observed at event " ++ decimal frame.eventId⟩
    | none, none => ⟨.safety, false, "no matching pre-outage response traversed the network"⟩
  let controlledOutage : AssertionResult :=
    match prohibitedRequest events outageEventBound with
    | some (attemptId, distance) => ⟨.controlledOutage, true, "request event " ++ decimal attemptId ++
        " was administratively prohibited after " ++ decimal distance ++ " event(s)"⟩
    | none => ⟨.controlledOutage, false, "no post-activation request reported EACCES within " ++
        decimal outageEventBound ++ " event(s)"⟩
  let restoration : AssertionResult :=
    match peerRestoration events with
    | some eventId => ⟨.restoration, true, "network restoration was confirmed at event " ++ decimal eventId⟩
    | none => ⟨.restoration, false, "network restoration was not confirmed after outage activation"⟩
  let boundedRecovery : AssertionResult :=
    match recoveredRequest events recoveryEventBound with
    | some (eventId, distance) =>
        ⟨.boundedRecovery, true, "matching recovery response event " ++ decimal eventId ++
        " arrived after " ++ decimal distance ++ " event(s)"⟩
    | none => ⟨.boundedRecovery, false, "no matching post-restoration response arrived within " ++
        decimal recoveryEventBound ++ " event(s)"⟩
  let assertions := [safety, controlledOutage, restoration, boundedRecovery]
  ⟨assertions.all (·.passed), assertions⟩

/-! ## What the report depends on -/

/-- Whether the report looks at an event. -/
def Event.isReported : Event → Bool
  | .networkConfigured .. => true
  | .outageActivated .. => true
  | .networkRestored .. => true
  | .requestAttempted .. => true
  | .requestSucceeded .. => true
  | .requestUnavailable .. => true
  | _ => false

theorem findSome?_filter_of_none {α β : Type} {p : α → Bool} {f : α → Option β}
    (h : ∀ a, p a = false → f a = none) : ∀ l : List α, (l.filter p).findSome? f = l.findSome? f
  | [] => rfl
  | a :: l => by
    cases ha : p a with
    | false =>
      rw [List.filter_cons_of_neg (by simp [ha]), List.findSome?_cons, h a ha, findSome?_filter_of_none h l]
    | true =>
      rw [List.filter_cons_of_pos ha, List.findSome?_cons, List.findSome?_cons, findSome?_filter_of_none h l]

theorem find?_filter_of_false {α : Type} {p q : α → Bool} (h : ∀ a, p a = false → q a = false) :
    ∀ l : List α, (l.filter p).find? q = l.find? q
  | [] => rfl
  | a :: l => by
    cases ha : p a with
    | false => rw [List.filter_cons_of_neg (by simp [ha]), List.find?_cons, h a ha, find?_filter_of_false h l]
    | true => rw [List.filter_cons_of_pos ha, List.find?_cons, List.find?_cons, find?_filter_of_false h l]

/-- An event that the report does not look at is of none of its kinds. -/
theorem Event.isReported_eq_false {event : Event} (h : event.isReported = false) :
    (∀ interface cidr gateway, event ≠ .networkConfigured interface cidr gateway) ∧
    (∀ peer rule, event ≠ .outageActivated peer rule) ∧ (∀ peer, event ≠ .networkRestored peer) ∧
    (∀ id payload phase, event ≠ .requestAttempted id payload phase) ∧
    (∀ id payload id' payload' phase, event ≠ .requestSucceeded id payload id' payload' phase) ∧
    ∀ id phase error errno, event ≠ .requestUnavailable id phase error errno := by
  refine ⟨?_, ?_, ?_, ?_, ?_, ?_⟩
  all_goals
    intros
    rintro rfl
    cases h

section Filter

variable {p : EventFrame → Bool} (hp : ∀ frame, p frame = false → frame.event.isReported = false)
  (events : List EventFrame)
include hp

theorem matchingSuccessAttempt_filter (outcome : EventFrame) :
    matchingSuccessAttempt (events.filter p) outcome = matchingSuccessAttempt events outcome := by
  unfold matchingSuccessAttempt
  split
  · split
    · rfl
    · refine find?_filter_of_false (fun attempt hattempt => ?_) events
      obtain ⟨-, -, -, hkind, -, -⟩ := Event.isReported_eq_false (hp attempt hattempt)
      split
      · exact absurd ‹_› (hkind _ _ _)
      · rfl
  · rfl

theorem configuredPeer_filter : configuredPeer (events.filter p) = configuredPeer events := by
  refine findSome?_filter_of_none (fun frame hframe => ?_) events
  obtain ⟨hkind, -, -, -, -, -⟩ := Event.isReported_eq_false (hp frame hframe)
  split
  · exact absurd ‹_› (hkind _ _ _)
  · rfl

theorem peerActivation_filter : peerActivation (events.filter p) = peerActivation events := by
  unfold peerActivation
  rw [configuredPeer_filter hp]
  refine Option.bind_congr' rfl fun configured _ => findSome?_filter_of_none (fun frame hframe => ?_) events
  obtain ⟨-, hkind, -, -, -, -⟩ := Event.isReported_eq_false (hp frame hframe)
  split
  · exact absurd ‹_› (hkind _ _)
  · rfl

theorem peerRestoration_filter : peerRestoration (events.filter p) = peerRestoration events := by
  unfold peerRestoration
  rw [peerActivation_filter hp]
  refine Option.bind_congr' rfl fun activation _ => findSome?_filter_of_none (fun frame hframe => ?_) events
  obtain ⟨-, -, hkind, -, -, -⟩ := Event.isReported_eq_false (hp frame hframe)
  split
  · exact absurd ‹_› (hkind _)
  · rfl

theorem responseMismatch_filter : responseMismatch (events.filter p) = responseMismatch events := by
  unfold responseMismatch
  simp only [matchingSuccessAttempt_filter hp]
  refine findSome?_filter_of_none (fun frame hframe => ?_) events
  obtain ⟨-, -, -, -, hsucceeded, hunavailable⟩ := Event.isReported_eq_false (hp frame hframe)
  split
  · exact absurd ‹_› (hsucceeded _ _ _ _ _)
  · exact absurd ‹_› (hunavailable _ _ _ _)
  · rfl

theorem preOutageResponse_filter : preOutageResponse (events.filter p) = preOutageResponse events := by
  unfold preOutageResponse
  simp only [peerActivation_filter hp, matchingSuccessAttempt_filter hp]
  refine Option.bind_congr' rfl fun activation _ => find?_filter_of_false (fun frame hframe => ?_) events
  obtain ⟨-, -, -, -, hkind, -⟩ := Event.isReported_eq_false (hp frame hframe)
  split
  · exact absurd ‹_› (hkind _ _ _ _ _)
  · rfl

theorem prohibitedRequest_filter (bound : Nat) :
    prohibitedRequest (events.filter p) bound = prohibitedRequest events bound := by
  have houtcome : ∀ (f : EventFrame → Option (Nat × Nat)),
      (∀ frame, frame.event.isReported = false → f frame = none) →
      (events.filter p).findSome? f = events.findSome? f := fun f hf =>
    findSome?_filter_of_none (fun frame hframe => hf frame (hp frame hframe)) events
  unfold prohibitedRequest
  rw [peerActivation_filter hp, peerRestoration_filter hp]
  refine Option.bind_congr' rfl fun activation _ => Option.bind_congr' rfl fun restoration _ => ?_
  rw [houtcome]
  · refine congrArg (events.findSome? ·) (funext fun attempt => ?_)
    split
    · split
      · refine houtcome _ fun frame hframe => ?_
        obtain ⟨-, -, -, -, -, hkind⟩ := Event.isReported_eq_false hframe
        split
        · exact absurd ‹_› (hkind _ _ _ _)
        · rfl
      · rfl
    · rfl
  · intro frame hframe
    obtain ⟨-, -, -, hkind, -, -⟩ := Event.isReported_eq_false hframe
    split
    · exact absurd ‹_› (hkind _ _ _)
    · rfl

theorem recoveredRequest_filter (bound : Nat) :
    recoveredRequest (events.filter p) bound = recoveredRequest events bound := by
  unfold recoveredRequest
  simp only [peerRestoration_filter hp, matchingSuccessAttempt_filter hp]
  refine Option.bind_congr' rfl fun restoration _ => findSome?_filter_of_none (fun frame hframe => ?_) events
  obtain ⟨-, -, -, -, hkind, -⟩ := Event.isReported_eq_false (hp frame hframe)
  split
  · exact absurd ‹_› (hkind _ _ _ _ _)
  · rfl

/-- **Frames of other kinds may be dropped** before a report. -/
theorem evaluate_filter (outageEventBound recoveryEventBound : Nat) :
    evaluate (events.filter p) outageEventBound recoveryEventBound =
      evaluate events outageEventBound recoveryEventBound := by
  unfold evaluate
  rw [responseMismatch_filter hp, preOutageResponse_filter hp, prohibitedRequest_filter hp,
    peerRestoration_filter hp, recoveredRequest_filter hp]

end Filter

/-- **Frames of other kinds behind the others** change nothing. -/
theorem evaluate_append {events more : List EventFrame} (hmore : ∀ frame ∈ more, frame.event.isReported = false)
    (outageEventBound recoveryEventBound : Nat) :
    evaluate (events ++ more) outageEventBound recoveryEventBound =
      evaluate events outageEventBound recoveryEventBound := by
  have hnone : more.filter (·.event.isReported) = [] :=
    List.filter_eq_nil_iff.mpr fun frame hframe => by simp [hmore frame hframe]
  have hkept : (events ++ more).filter (·.event.isReported) = events.filter (·.event.isReported) := by
    rw [List.filter_append, hnone, List.append_nil]
  rw [← evaluate_filter (fun _ => id) (events ++ more), hkept, evaluate_filter fun _ => id]

/-- The frame of a recorded event, as replay rebuilds it. -/
def NormalizedEvent.frame (event : NormalizedEvent) : EventFrame :=
  { protocolVersion := event.protocolVersion, eventId := event.eventId, commandId := event.commandId,
    event := event.event }

section Normalize

variable (events : List EventFrame)

/-- A frame without its diagnostics. -/
def EventFrame.bare (frame : EventFrame) : EventFrame := frame.normalize.frame

theorem matchingSuccessAttempt_bare (outcome : EventFrame) :
    matchingSuccessAttempt (events.map EventFrame.bare) outcome.bare =
      (matchingSuccessAttempt events outcome).map EventFrame.bare := by
  unfold matchingSuccessAttempt
  show (match outcome.event with | .requestSucceeded .. => _ | _ => _) = _
  split
  · split
    · rfl
    · rw [List.find?_map]
      rfl
  · rfl

theorem configuredPeer_bare : configuredPeer (events.map EventFrame.bare) = configuredPeer events := by
  unfold configuredPeer
  rw [List.findSome?_map]
  rfl

theorem peerActivation_bare : peerActivation (events.map EventFrame.bare) = peerActivation events := by
  unfold peerActivation
  rw [configuredPeer_bare]
  simp only [List.findSome?_map]
  rfl

theorem peerRestoration_bare : peerRestoration (events.map EventFrame.bare) = peerRestoration events := by
  unfold peerRestoration
  rw [peerActivation_bare]
  simp only [List.findSome?_map]
  rfl

theorem responseMismatch_bare : responseMismatch (events.map EventFrame.bare) = responseMismatch events := by
  unfold responseMismatch
  rw [List.findSome?_map]
  refine congrArg (events.findSome? ·) (funext fun frame => ?_)
  rw [Function.comp_apply, matchingSuccessAttempt_bare, Option.isNone_map]
  rfl

theorem preOutageResponse_bare :
    preOutageResponse (events.map EventFrame.bare) = (preOutageResponse events).map EventFrame.bare := by
  unfold preOutageResponse
  rw [peerActivation_bare]
  cases peerActivation events with
  | none => rfl
  | some activation =>
    show List.find? _ _ = Option.map _ (List.find? _ _)
    rw [List.find?_map]
    refine congrArg (Option.map EventFrame.bare) (congrArg (events.find? ·) (funext fun frame => ?_))
    rw [Function.comp_apply, matchingSuccessAttempt_bare, Option.any_map]
    rfl

theorem prohibitedRequest_bare (bound : Nat) :
    prohibitedRequest (events.map EventFrame.bare) bound = prohibitedRequest events bound := by
  unfold prohibitedRequest
  rw [peerActivation_bare, peerRestoration_bare]
  simp only [List.findSome?_map]
  rfl

theorem recoveredRequest_bare (bound : Nat) :
    recoveredRequest (events.map EventFrame.bare) bound = recoveredRequest events bound := by
  unfold recoveredRequest
  rw [peerRestoration_bare]
  simp only [List.findSome?_map]
  refine Option.bind_congr' rfl fun restoration _ => congrArg (events.findSome? ·) (funext fun frame => ?_)
  rw [Function.comp_apply, matchingSuccessAttempt_bare, Option.filter_map, Option.map_map]
  rfl

/-- **The diagnostics of the frames** do not matter to the report. -/
theorem evaluate_normalize (outageEventBound recoveryEventBound : Nat) :
    evaluate (events.map EventFrame.bare) outageEventBound recoveryEventBound =
      evaluate events outageEventBound recoveryEventBound := by
  unfold evaluate
  rw [responseMismatch_bare, preOutageResponse_bare, prohibitedRequest_bare, peerRestoration_bare,
    recoveredRequest_bare]
  cases responseMismatch events <;> cases preOutageResponse events <;> rfl

end Normalize

end SimFerret
