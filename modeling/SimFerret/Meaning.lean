import Mathlib.Data.List.Nodup
import SimFerret.Assertions

/-!
# SimFerret.Meaning — what the report of the network fixture says

`evaluate` commits to the first configuration, the first activation and restoration behind it and the first
attempt that matches a response.  Here its four verdicts are existential statements about the frames.

* `IsFirst`, `Activation`, `Restoration`: the three frames the report is anchored at.
* `Answers`: an attempt and the success it has.
* `SafeRun`, `OutageControlled`, `Recovered`: the verdicts.
* `evaluate_exact`: **the report says exactly this**, when no command has two attempts.
-/

namespace SimFerret

/-- The first frame of a kind. -/
def IsFirst (events : List EventFrame) (P : EventFrame → Prop) (frame : EventFrame) : Prop :=
  ∃ earlier later, events = earlier ++ frame :: later ∧ P frame ∧ ∀ x ∈ earlier, ¬ P x

/-- The frame configures a network with this gateway. -/
def Configures (frame : EventFrame) (gateway : Text) : Prop :=
  ∃ interface guestCidr, frame.event = .networkConfigured interface guestCidr gateway

/-- The first outage behind the first configuration that prohibits the host route of its gateway. -/
def Activation (events : List EventFrame) (peer : Text) (activation : EventFrame) : Prop :=
  ∃ configured gateway, IsFirst events (fun frame => ∃ gateway, Configures frame gateway) configured ∧
    Configures configured gateway ∧ peer = gateway ++ utf8 "/32" ∧
    IsFirst events (fun frame => configured.eventId < frame.eventId ∧
      frame.event = .outageActivated peer (utf8 "prohibit " ++ peer)) activation

/-- The first restoration of the peer behind its activation. -/
def Restoration (events : List EventFrame) (peer : Text) (activation restoration : EventFrame) : Prop :=
  Activation events peer activation ∧
    IsFirst events (fun frame => activation.eventId < frame.eventId ∧
      frame.event = .networkRestored peer) restoration

/-- The frame is a success of this phase. -/
def Succeeds (frame : EventFrame) (phase : RequestPhase) : Prop :=
  ∃ id payload id' payload', frame.event = .requestSucceeded id payload id' payload' phase

/-- The success echoes its own identifier and payload, and the attempt before it is one of the same command,
identifier, payload and phase. -/
def Answers (attempt success : EventFrame) : Prop :=
  ∃ id payload phase, attempt.event = .requestAttempted id payload phase ∧
    success.event = .requestSucceeded id payload id payload phase ∧ attempt.commandId = success.commandId ∧
    attempt.eventId < success.eventId

def SafeRun (events : List EventFrame) : Prop :=
  (∀ frame ∈ events, ∀ id phase errno, frame.event ≠ .requestUnavailable id phase .invalidResponse errno) ∧
  (∀ success ∈ events, ∀ phase, Succeeds success phase → ∃ attempt ∈ events, Answers attempt success) ∧
  ∃ peer activation, Activation events peer activation ∧ ∃ success ∈ events, Succeeds success .preOutage ∧
    success.eventId < activation.eventId ∧
    ∃ attempt ∈ events, Answers attempt success ∧ attempt.eventId < activation.eventId

/-- A request of the outage was refused within the bound, in a phase that counts. -/
def OutageControlled (counts : RequestPhase → Prop) (events : List EventFrame) (bound : Nat) : Prop :=
  ∃ peer activation restoration, Restoration events peer activation restoration ∧
    ∃ attempt ∈ events, ∃ refusal ∈ events, ∃ id payload phase, counts phase ∧
      attempt.event = .requestAttempted id payload .outage ∧
      activation.eventId < attempt.eventId ∧ attempt.eventId < restoration.eventId ∧
      refusal.event = .requestUnavailable id phase .administrativeProhibited (some (eacces : Int)) ∧
      refusal.commandId = attempt.commandId ∧ attempt.eventId < refusal.eventId ∧
      refusal.eventId < restoration.eventId ∧ refusal.eventId - attempt.eventId ≤ bound

def Recovered (events : List EventFrame) (bound : Nat) : Prop :=
  ∃ peer activation restoration, Restoration events peer activation restoration ∧
    ∃ success ∈ events, Succeeds success .recovery ∧ restoration.eventId < success.eventId ∧
      success.eventId - restoration.eventId ≤ bound ∧
      ∃ attempt ∈ events, Answers attempt success ∧ restoration.eventId < attempt.eventId

/-- What each name of the network profile says, where refusals in some phases count. -/
def NetworkVerdict (counts : RequestPhase → Prop) (events : List EventFrame)
    (outageEventBound recoveryEventBound : Nat) : AssertionName → Prop
  | .safety => SafeRun events
  | .controlledOutage => OutageControlled counts events outageEventBound
  | .restoration => ∃ peer activation restoration, Restoration events peer activation restoration
  | .boundedRecovery => Recovered events recoveryEventBound
  | .processSafety => False
  | .responseIntegrity => False

/-- No command has two attempts. -/
def OneAttempt (events : List EventFrame) : Prop :=
  ((events.filter fun frame => frame.event matches .requestAttempted ..).map EventFrame.commandId).Nodup

instance (events : List EventFrame) : Decidable (OneAttempt events) :=
  inferInstanceAs (Decidable (List.Nodup _))

/-! ## First matches -/

section

variable {events : List EventFrame} {peer : Text} {activation restoration : EventFrame}

theorem IsFirst.holds {P : EventFrame → Prop} {frame : EventFrame} (h : IsFirst events P frame) : P frame := by
  obtain ⟨_, _, -, hframe, -⟩ := h
  exact hframe

/-- `find_map` stops at the first frame of the kind that it looks for. -/
theorem findSome?_eq_some_iff_isFirst {β : Type} {f : EventFrame → Option β} {R : EventFrame → β → Prop}
    {P : EventFrame → Prop} (hR : ∀ frame b, f frame = some b ↔ R frame b) (hP : ∀ frame, P frame ↔ ∃ b, R frame b)
    {b : β} : events.findSome? f = some b ↔ ∃ frame, IsFirst events P frame ∧ R frame b := by
  have hnone : ∀ frame, f frame = none ↔ ¬ P frame := fun frame => by
    rw [hP, Option.eq_none_iff_forall_ne_some, not_exists]
    exact forall_congr' fun b => not_congr (hR frame b)
  rw [List.findSome?_eq_some_iff]
  constructor
  · rintro ⟨earlier, frame, later, rfl, hframe, hearlier⟩
    have hR := (hR frame b).mp hframe
    exact ⟨frame, ⟨earlier, later, rfl, (hP frame).mpr ⟨b, hR⟩, fun x hx => (hnone x).mp (hearlier x hx)⟩, hR⟩
  · rintro ⟨frame, ⟨earlier, later, rfl, -, hearlier⟩, hframe⟩
    exact ⟨earlier, frame, later, rfl, (hR frame b).mpr hframe, fun x hx => (hnone x).mpr (hearlier x hx)⟩

/-- The same where the frame decides what is found. -/
theorem findSome?_eq_some_iff_isFirst_of_eq {β : Type} {f : EventFrame → Option β} {g : EventFrame → β}
    {P : EventFrame → Prop} (hP : ∀ frame b, f frame = some b ↔ P frame ∧ b = g frame) {b : β} :
    events.findSome? f = some b ↔ ∃ frame, IsFirst events P frame ∧ b = g frame := by
  refine (findSome?_eq_some_iff_isFirst hP (P := P) fun frame => by simp).trans ?_
  exact exists_congr fun frame => ⟨fun ⟨hfirst, _, hb⟩ => ⟨hfirst, hb⟩,
    fun ⟨hfirst, hb⟩ => ⟨hfirst, hfirst.holds, hb⟩⟩

theorem configuredPeer_eq_some {id : Nat} : configuredPeer events = some (id, peer) ↔
    ∃ configured gateway, IsFirst events (fun frame => ∃ gateway, Configures frame gateway) configured ∧
      Configures configured gateway ∧ id = configured.eventId ∧ peer = gateway ++ utf8 "/32" := by
  unfold configuredPeer
  refine (findSome?_eq_some_iff_isFirst
    (R := fun frame b => ∃ gateway, Configures frame gateway ∧ b = (frame.eventId, gateway ++ utf8 "/32"))
    (P := fun frame => ∃ gateway, Configures frame gateway) (fun frame b => ?_) fun frame => ?_).trans ?_
  · constructor
    · intro hsome
      split at hsome
      · rename_i interface cidr gateway hevent
        exact ⟨gateway, ⟨interface, cidr, hevent⟩, (Option.some.inj hsome).symm⟩
      · exact absurd hsome (by simp)
    · rintro ⟨gateway, ⟨interface, cidr, hevent⟩, rfl⟩
      rw [hevent]
  · exact ⟨fun ⟨gateway, h⟩ => ⟨_, gateway, h, rfl⟩, fun ⟨_, gateway, h, _⟩ => ⟨gateway, h⟩⟩
  · constructor
    · rintro ⟨configured, hfirst, gateway, hgateway, heq⟩
      obtain ⟨rfl, rfl⟩ := Prod.mk.inj heq
      exact ⟨configured, gateway, hfirst, hgateway, rfl, rfl⟩
    · rintro ⟨configured, gateway, hfirst, hgateway, rfl, rfl⟩
      exact ⟨configured, hfirst, gateway, hgateway, rfl⟩

/-- What the search for an activation makes of a frame. -/
def activatedIn (configuredId : Nat) (expected : Text) (frame : EventFrame) : Option (Nat × Text) :=
  match frame.event with
  | .outageActivated peerCidr rule =>
    if frame.eventId > configuredId ∧ peerCidr = expected ∧ rule = utf8 "prohibit " ++ expected then
      some (frame.eventId, peerCidr)
    else none
  | _ => none

theorem activatedIn_eq_some {configuredId : Nat} {expected : Text} (frame : EventFrame) (b : Nat × Text) :
    activatedIn configuredId expected frame = some b ↔ (configuredId < frame.eventId ∧
      frame.event = .outageActivated expected (utf8 "prohibit " ++ expected)) ∧ b = (frame.eventId, expected) := by
  unfold activatedIn
  constructor
  · intro hsome
    split at hsome
    · rename_i peerCidr rule hevent
      split at hsome
      · rename_i hcondition
        obtain ⟨hafter, rfl, rfl⟩ := hcondition
        exact ⟨⟨hafter, hevent⟩, (Option.some.inj hsome).symm⟩
      · exact absurd hsome (by simp)
    · exact absurd hsome (by simp)
  · rintro ⟨⟨hafter, hevent⟩, rfl⟩
    rw [hevent]
    exact if_pos ⟨hafter, rfl, rfl⟩

/-- What the search for a restoration makes of a frame. -/
def restoredIn (activationId : Nat) (activated : Text) (frame : EventFrame) : Option Nat :=
  match frame.event with
  | .networkRestored peerCidr =>
    if frame.eventId > activationId ∧ peerCidr = activated then some frame.eventId else none
  | _ => none

theorem restoredIn_eq_some {activationId : Nat} {activated : Text} (frame : EventFrame) (b : Nat) :
    restoredIn activationId activated frame = some b ↔
      (activationId < frame.eventId ∧ frame.event = .networkRestored activated) ∧ b = frame.eventId := by
  unfold restoredIn
  constructor
  · intro hsome
    split at hsome
    · rename_i peerCidr hevent
      split at hsome
      · rename_i hcondition
        obtain ⟨hafter, rfl⟩ := hcondition
        exact ⟨⟨hafter, hevent⟩, (Option.some.inj hsome).symm⟩
      · exact absurd hsome (by simp)
    · exact absurd hsome (by simp)
  · rintro ⟨⟨hafter, hevent⟩, rfl⟩
    rw [hevent]
    exact if_pos ⟨hafter, rfl⟩

/-- The search for an activation commits to the configured peer. -/
theorem peerActivation_eq_some {id : Nat} : peerActivation events = some (id, peer) ↔
    ∃ activation, Activation events peer activation ∧ id = activation.eventId := by
  have hunfold : peerActivation events = (configuredPeer events).bind fun found =>
      events.findSome? (activatedIn found.1 found.2) := rfl
  rw [hunfold, Option.bind_eq_some_iff]
  constructor
  · rintro ⟨⟨_, _⟩, hconfigured, hactivation⟩
    obtain ⟨configured, gateway, hfirst, hgateway, rfl, rfl⟩ := configuredPeer_eq_some.mp hconfigured
    obtain ⟨activation, hfirst', heq⟩ := (findSome?_eq_some_iff_isFirst_of_eq activatedIn_eq_some).mp hactivation
    obtain ⟨rfl, rfl⟩ := Prod.mk.inj heq
    exact ⟨activation, ⟨configured, gateway, hfirst, hgateway, rfl, hfirst'⟩, rfl⟩
  · rintro ⟨activation, ⟨configured, gateway, hfirst, hgateway, rfl, hfirst'⟩, rfl⟩
    exact ⟨_, configuredPeer_eq_some.mpr ⟨configured, gateway, hfirst, hgateway, rfl, rfl⟩,
      (findSome?_eq_some_iff_isFirst_of_eq activatedIn_eq_some).mpr ⟨activation, hfirst', rfl⟩⟩

theorem peerRestoration_eq_some {id : Nat} : peerRestoration events = some id ↔
    ∃ peer activation restoration, Restoration events peer activation restoration ∧ id = restoration.eventId := by
  have hunfold : peerRestoration events = (peerActivation events).bind fun found =>
      events.findSome? (restoredIn found.1 found.2) := rfl
  rw [hunfold, Option.bind_eq_some_iff]
  constructor
  · rintro ⟨⟨_, peer⟩, hfound, hrestoration⟩
    obtain ⟨activation, hactivation, rfl⟩ := peerActivation_eq_some.mp hfound
    obtain ⟨restoration, hfirst, rfl⟩ := (findSome?_eq_some_iff_isFirst_of_eq restoredIn_eq_some).mp hrestoration
    exact ⟨peer, activation, restoration, ⟨hactivation, hfirst⟩, rfl⟩
  · rintro ⟨peer, activation, restoration, ⟨hactivation, hfirst⟩, rfl⟩
    exact ⟨_, peerActivation_eq_some.mpr ⟨activation, hactivation, rfl⟩,
      (findSome?_eq_some_iff_isFirst_of_eq restoredIn_eq_some).mpr ⟨restoration, hfirst, rfl⟩⟩

/-! ## Attempts -/

/-- The attempt of a command is unique. -/
theorem OneAttempt.eq (h : OneAttempt events) {a b : EventFrame} (ha : a ∈ events) (hb : b ∈ events)
    {id id' payload payload' : Text} {phase phase' : RequestPhase}
    (hattempt : a.event = .requestAttempted id payload phase)
    (hattempt' : b.event = .requestAttempted id' payload' phase')
    (hcommand : a.commandId = b.commandId) : a = b := by
  refine List.inj_on_of_nodup_map h ?_ ?_ hcommand
  · exact List.mem_filter.mpr ⟨ha, by rw [hattempt]⟩
  · exact List.mem_filter.mpr ⟨hb, by rw [hattempt']⟩

theorem matchingSuccessAttempt_eq_some (hone : OneAttempt events) {outcome attempt : EventFrame} :
    matchingSuccessAttempt events outcome = some attempt ↔ attempt ∈ events ∧ Answers attempt outcome := by
  have hanswers : ∀ {id payload : Text} {phase : RequestPhase}, outcome.event = .requestSucceeded id payload id
      payload phase → ∀ x : EventFrame, (match x.event with
        | .requestAttempted attemptedId attempted attemptedPhase =>
          attemptedId == id && attempted == payload && attemptedPhase == phase &&
            x.commandId == outcome.commandId && decide (x.eventId < outcome.eventId)
        | _ => false) = true ↔ Answers x outcome := by
    intro id payload phase houtcome x
    constructor
    · intro hx
      split at hx
      · rename_i attemptedId attempted attemptedPhase hevent
        simp only [Bool.and_eq_true, beq_iff_eq, decide_eq_true_eq] at hx
        obtain ⟨⟨⟨⟨rfl, rfl⟩, rfl⟩, hcommand⟩, hbefore⟩ := hx
        exact ⟨_, _, _, hevent, houtcome, hcommand, hbefore⟩
      · exact absurd hx (by simp)
    · rintro ⟨id', payload', phase', hevent, houtcome', hcommand, hbefore⟩
      rw [houtcome] at houtcome'
      injection houtcome' with h1 h2 h3 h4 h5
      subst h1 h2 h5
      rw [hevent]
      simp [hcommand, hbefore]
  unfold matchingSuccessAttempt
  split
  · rename_i requestId requestPayload responseId responsePayload phase houtcome
    split
    · rename_i hdiffers
      refine iff_of_false (by simp) ?_
      rintro ⟨-, id, payload, phase', -, houtcome', -, -⟩
      rw [houtcome] at houtcome'
      injection houtcome' with h1 h2 h3 h4
      subst h1 h2
      exact hdiffers.elim (fun hne => hne h3.symm) fun hne => hne h4.symm
    · rename_i hechoes
      obtain ⟨rfl, rfl⟩ : requestId = responseId ∧ requestPayload = responsePayload := by
        simpa only [not_or, ne_eq, not_not] using hechoes
      constructor
      · intro hfound
        have hholds := List.find?_some hfound
        exact ⟨List.mem_of_find?_eq_some hfound, (hanswers houtcome attempt).mp hholds⟩
      · rintro ⟨hmem, hattempt⟩
        generalize hfound : List.find? _ events = found
        cases found with
        | none =>
          exact absurd ((hanswers houtcome attempt).mpr hattempt) (List.find?_eq_none.mp hfound attempt hmem)
        | some found =>
          have hholds := List.find?_some hfound
          obtain ⟨_, _, _, hevent, -, hcommand, -⟩ := (hanswers houtcome found).mp hholds
          obtain ⟨_, _, _, hevent', -, hcommand', -⟩ := hattempt
          rw [hone.eq (List.mem_of_find?_eq_some hfound) hmem hevent hevent' (hcommand.trans hcommand'.symm)]
  · rename_i hother
    refine iff_of_false (by simp) ?_
    rintro ⟨-, id, payload, phase, -, houtcome, -, -⟩
    exact hother _ _ _ _ _ houtcome

/-! ## The searches of the verdicts -/

theorem responseMismatch_eq_none (hone : OneAttempt events) : responseMismatch events = none ↔
    (∀ frame ∈ events, ∀ id phase errno, frame.event ≠ .requestUnavailable id phase .invalidResponse errno) ∧
    ∀ success ∈ events, ∀ phase, Succeeds success phase → ∃ attempt ∈ events, Answers attempt success := by
  unfold responseMismatch
  rw [List.findSome?_eq_none_iff, ← forall₂_and]
  refine forall₂_congr fun frame hframe => ?_
  split
  · rename_i id payload id' payload' phase hevent
    have hvalid : ∀ id phase errno, frame.event ≠ .requestUnavailable id phase .invalidResponse errno := by
      simp [hevent]
    have hsucceeds : ∀ phase', Succeeds frame phase' ↔ phase' = phase := fun phase' => by
      simp only [Succeeds, hevent, Event.requestSucceeded.injEq]
      exact ⟨fun ⟨_, _, _, _, _, _, _, _, h⟩ => h.symm, fun h => ⟨_, _, _, _, rfl, rfl, rfl, rfl, h.symm⟩⟩
    rw [and_iff_right hvalid]
    simp only [hsucceeds, forall_eq, ← matchingSuccessAttempt_eq_some hone]
    cases matchingSuccessAttempt events frame <;> simp
  · rename_i id phase errno hevent
    refine iff_of_false (by simp) fun h => h.1 _ _ _ hevent
  · rename_i hsucceeded hunavailable
    refine iff_of_true rfl ⟨hunavailable, ?_⟩
    rintro phase ⟨_, _, _, _, hevent⟩
    exact absurd hevent (hsucceeded _ _ _ _ _)

/-- A response before the activation is found where one is. -/
theorem preOutageResponse_isSome (hone : OneAttempt events) : (preOutageResponse events).isSome ↔
    ∃ peer activation, Activation events peer activation ∧ ∃ success ∈ events, Succeeds success .preOutage ∧
      success.eventId < activation.eventId ∧
      ∃ attempt ∈ events, Answers attempt success ∧ attempt.eventId < activation.eventId := by
  unfold preOutageResponse
  constructor
  · intro hsome
    obtain ⟨success, hbind⟩ := Option.isSome_iff_exists.mp hsome
    obtain ⟨⟨_, peer⟩, hactivation, hfind⟩ := Option.bind_eq_some_iff.mp hbind
    obtain ⟨activation, hactivation', rfl⟩ := peerActivation_eq_some.mp hactivation
    have hholds := List.find?_some hfind
    split at hholds
    · rename_i hevent
      simp only [Bool.and_eq_true, decide_eq_true_eq, Option.any_eq_true] at hholds
      obtain ⟨hbefore, attempt, hmatching, hbefore'⟩ := hholds
      obtain ⟨hattempt, hanswers⟩ := (matchingSuccessAttempt_eq_some hone).mp hmatching
      exact ⟨peer, activation, hactivation', success, List.mem_of_find?_eq_some hfind,
        ⟨_, _, _, _, hevent⟩, hbefore, attempt, hattempt, hanswers, hbefore'⟩
    · exact absurd hholds (by simp)
  · rintro ⟨peer, activation, hactivation, success, hsuccess, ⟨_, _, _, _, hevent⟩, hbefore, attempt,
      hattempt, hanswers, hbefore'⟩
    rw [peerActivation_eq_some.mpr ⟨activation, hactivation, rfl⟩]
    refine List.find?_isSome.mpr ⟨success, hsuccess, ?_⟩
    rw [(matchingSuccessAttempt_eq_some hone).mpr ⟨hattempt, hanswers⟩, hevent]
    simp [hbefore, hbefore']

/-- A refusal within the bound is found where one is. -/
theorem prohibitedRequest_isSome {bound : Nat} :
    (prohibitedRequest events bound).isSome ↔ OutageControlled (· = .outage) events bound := by
  unfold prohibitedRequest OutageControlled
  constructor
  · intro hsome
    obtain ⟨found, hbind⟩ := Option.isSome_iff_exists.mp hsome
    obtain ⟨⟨_, _⟩, hactivation, hbind⟩ := Option.bind_eq_some_iff.mp hbind
    obtain ⟨_, hrestoration, hfind⟩ := Option.bind_eq_some_iff.mp hbind
    obtain ⟨peer, activation, restoration, h, rfl⟩ := peerRestoration_eq_some.mp hrestoration
    rw [peerActivation_eq_some.mpr ⟨activation, h.1, rfl⟩] at hactivation
    cases hactivation
    obtain ⟨attempt, hattempt, hfind⟩ := List.exists_of_findSome?_eq_some hfind
    split at hfind
    · rename_i id payload hevent
      split at hfind
      · rename_i hbetween
        obtain ⟨refusal, hrefusal, hfind⟩ := List.exists_of_findSome?_eq_some hfind
        split at hfind
        · rename_i outcomeId errno hevent'
          split at hfind
          · rename_i hcondition
            obtain ⟨rfl, rfl, hcommand, hafter, hbefore, hbound⟩ := hcondition
            exact ⟨_, activation, restoration, h, attempt, hattempt, refusal, hrefusal, _, payload, _, rfl, hevent,
              hbetween.1, hbetween.2, hevent', hcommand, hafter, hbefore, hbound⟩
          · exact absurd hfind (by simp)
        · exact absurd hfind (by simp)
      · exact absurd hfind (by simp)
    · exact absurd hfind (by simp)
  · rintro ⟨peer, activation, restoration, h, attempt, hattempt, refusal, hrefusal, id, payload, phase,
      rfl, hevent, hafterActivation, hbeforeRestoration, hevent', hcommand, hafter, hbefore, hbound⟩
    rw [peerActivation_eq_some.mpr ⟨activation, h.1, rfl⟩,
      peerRestoration_eq_some.mpr ⟨peer, activation, restoration, h, rfl⟩]
    refine List.findSome?_isSome_iff.mpr ⟨attempt, hattempt, ?_⟩
    rw [hevent]
    simp only [if_pos (And.intro hafterActivation hbeforeRestoration)]
    refine List.findSome?_isSome_iff.mpr ⟨refusal, hrefusal, ?_⟩
    rw [hevent']
    simp only [true_and, if_pos (And.intro hcommand (And.intro hafter (And.intro hbefore hbound))),
      Option.isSome_some]

/-- A response behind the restoration is found where one is. -/
theorem recoveredRequest_isSome (hone : OneAttempt events) {bound : Nat} :
    (recoveredRequest events bound).isSome ↔ Recovered events bound := by
  unfold recoveredRequest Recovered
  constructor
  · intro hsome
    obtain ⟨found, hbind⟩ := Option.isSome_iff_exists.mp hsome
    obtain ⟨_, hrestoration, hfind⟩ := Option.bind_eq_some_iff.mp hbind
    obtain ⟨peer, activation, restoration, h, rfl⟩ := peerRestoration_eq_some.mp hrestoration
    obtain ⟨success, hsuccess, hfind⟩ := List.exists_of_findSome?_eq_some hfind
    split at hfind
    · rename_i hevent
      split at hfind
      · rename_i hcondition
        obtain ⟨attempt, hfilter, -⟩ := Option.map_eq_some_iff.mp hfind
        obtain ⟨hmatching, hafter⟩ := Option.filter_eq_some_iff.mp hfilter
        obtain ⟨hattempt, hanswers⟩ := (matchingSuccessAttempt_eq_some hone).mp hmatching
        exact ⟨peer, activation, restoration, h, success, hsuccess, ⟨_, _, _, _, hevent⟩, hcondition.1,
          hcondition.2, attempt, hattempt, hanswers, of_decide_eq_true hafter⟩
      · exact absurd hfind (by simp)
    · exact absurd hfind (by simp)
  · rintro ⟨peer, activation, restoration, h, success, hsuccess, ⟨_, _, _, _, hevent⟩, hafter, hbound,
      attempt, hattempt, hanswers, hafter'⟩
    rw [peerRestoration_eq_some.mpr ⟨peer, activation, restoration, h, rfl⟩]
    refine List.findSome?_isSome_iff.mpr ⟨success, hsuccess, ?_⟩
    rw [(matchingSuccessAttempt_eq_some hone).mpr ⟨hattempt, hanswers⟩, hevent]
    simp only [if_pos (And.intro hafter hbound), Option.filter_some, decide_eq_true hafter', if_true,
      Option.map_some, Option.isSome_some]

theorem peerRestoration_isSome : (peerRestoration events).isSome ↔
    ∃ peer activation restoration, Restoration events peer activation restoration := by
  rw [Option.isSome_iff_exists]
  simp only [peerRestoration_eq_some]
  exact ⟨fun ⟨_, peer, activation, restoration, h, _⟩ => ⟨peer, activation, restoration, h⟩,
    fun ⟨peer, activation, restoration, h⟩ => ⟨_, peer, activation, restoration, h, rfl⟩⟩

end

/-! ## The report -/

section

variable (events : List EventFrame) (outageEventBound recoveryEventBound : Nat)

/-- The report reads four searches. -/
theorem evaluate_assertions : ((evaluate events outageEventBound recoveryEventBound).assertions.map
    fun assertion => (assertion.name, assertion.passed)) =
      [(.safety, (responseMismatch events).isNone && (preOutageResponse events).isSome),
        (.controlledOutage, (prohibitedRequest events outageEventBound).isSome),
        (.restoration, (peerRestoration events).isSome),
        (.boundedRecovery, (recoveredRequest events recoveryEventBound).isSome)] := by
  unfold evaluate
  cases responseMismatch events <;> cases preOutageResponse events <;>
    cases prohibitedRequest events outageEventBound <;> cases peerRestoration events <;>
    cases recoveredRequest events recoveryEventBound <;> rfl

variable {events}

theorem safety_iff (hone : OneAttempt events) :
    ((responseMismatch events).isNone && (preOutageResponse events).isSome) = true ↔ SafeRun events := by
  rw [Bool.and_eq_true, Option.isNone_iff_eq_none, responseMismatch_eq_none hone,
    preOutageResponse_isSome hone, and_assoc]
  rfl

/-- **The report of a network run says exactly this**: its assertions are those of the profile in order, each
has passed if and only if its condition holds, and the report has passed if and only if all four hold. -/
theorem evaluate_exact (hone : OneAttempt events) :
    (evaluate events outageEventBound recoveryEventBound).assertions.map AssertionResult.name = networkProfile ∧
    (∀ assertion ∈ (evaluate events outageEventBound recoveryEventBound).assertions, assertion.passed = true ↔
      NetworkVerdict (· = .outage) events outageEventBound recoveryEventBound assertion.name) ∧
    ((evaluate events outageEventBound recoveryEventBound).passed = true ↔
      ∀ name ∈ networkProfile, NetworkVerdict (· = .outage) events outageEventBound recoveryEventBound name) := by
  have hread := evaluate_assertions events outageEventBound recoveryEventBound
  have hnames : (evaluate events outageEventBound recoveryEventBound).assertions.map AssertionResult.name =
      networkProfile := by
    have hfirst := congrArg (List.map Prod.fst) hread
    rwa [List.map_map] at hfirst
  have heach : ∀ assertion ∈ (evaluate events outageEventBound recoveryEventBound).assertions,
      assertion.passed = true ↔ NetworkVerdict (· = .outage) events outageEventBound recoveryEventBound
      assertion.name := by
    intro assertion hassertion
    have hmem := List.mem_map_of_mem (f := fun assertion => (assertion.name, assertion.passed)) hassertion
    rw [hread] at hmem
    simp only [List.mem_cons, Prod.mk.injEq, List.not_mem_nil, or_false] at hmem
    obtain ⟨hname, hpassed⟩ | ⟨hname, hpassed⟩ | ⟨hname, hpassed⟩ | ⟨hname, hpassed⟩ := hmem
    · rw [hname, hpassed]
      exact safety_iff hone
    · rw [hname, hpassed]
      exact prohibitedRequest_isSome
    · rw [hname, hpassed]
      exact peerRestoration_isSome
    · rw [hname, hpassed]
      exact recoveredRequest_isSome hone
  have hall : (evaluate events outageEventBound recoveryEventBound).passed =
      (evaluate events outageEventBound recoveryEventBound).assertions.all (·.passed) := rfl
  refine ⟨hnames, heach, ?_⟩
  rw [hall, List.all_eq_true, ← hnames]
  simp only [List.mem_map, forall_exists_index, and_imp, forall_apply_eq_imp_iff₂]
  exact forall₂_congr heach

end

/-! ## A run -/

section

/-- A run of the fixture whose refusal is in a phase. -/
def sampleRun (refused : RequestPhase) : List EventFrame :=
  [⟨protocolVersion, 1, 0, .networkConfigured "eth0" "10.0.0.2/24" "10.0.0.1", {}⟩,
    ⟨protocolVersion, 2, 1, .requestAttempted "a" "ping" .preOutage, {}⟩,
    ⟨protocolVersion, 3, 1, .requestSucceeded "a" "ping" "a" "ping" .preOutage, {}⟩,
    ⟨protocolVersion, 4, 2, .outageActivated "10.0.0.1/32" "prohibit 10.0.0.1/32", {}⟩,
    ⟨protocolVersion, 5, 3, .requestAttempted "b" "ping" .outage, {}⟩,
    ⟨protocolVersion, 6, 3, .requestUnavailable "b" refused .administrativeProhibited (some 13), {}⟩,
    ⟨protocolVersion, 7, 4, .networkRestored "10.0.0.1/32", {}⟩,
    ⟨protocolVersion, 8, 5, .requestAttempted "c" "ping" .recovery, {}⟩,
    ⟨protocolVersion, 9, 5, .requestSucceeded "c" "ping" "c" "ping" .recovery, {}⟩]

theorem evaluate_exact_sample : NetworkVerdict (· = .outage) (sampleRun .outage) 1 2 .controlledOutage :=
  (evaluate_exact 1 2 (by decide)).2.2.mp (by decide +kernel) .controlledOutage (by decide)

/-- A refusal in another phase does not count. -/
theorem evaluate_ignores_other_phases : ¬ ∀ (events : List EventFrame) (outageEventBound recoveryEventBound : Nat),
    (events.Pairwise fun a b => a.eventId < b.eventId) → OneAttempt events →
    ∀ assertion ∈ (evaluate events outageEventBound recoveryEventBound).assertions, assertion.passed = true ↔
      NetworkVerdict (fun _ => True) events outageEventBound recoveryEventBound assertion.name := by
  intro hclaim
  have hfailed : (⟨.controlledOutage, false, "no post-activation request reported EACCES within " ++ decimal 1 ++
      " event(s)"⟩ : AssertionResult) ∈ (evaluate (sampleRun .recovery) 1 2).assertions := by
    decide +kernel
  have hcontrolled : OutageControlled (fun _ => True) (sampleRun .recovery) 1 := by
    have hrestored : peerRestoration (sampleRun .recovery) = some 7 := by decide +kernel
    have hactivated : peerActivation (sampleRun .recovery) = some (4, utf8 "10.0.0.1/32") := by decide +kernel
    obtain ⟨peer, activation, restoration, h, hseven⟩ := peerRestoration_eq_some.mp hrestored
    rw [peerActivation_eq_some.mpr ⟨activation, h.1, rfl⟩] at hactivated
    obtain ⟨hfour, -⟩ := Prod.mk.inj (Option.some.inj hactivated)
    refine ⟨peer, activation, restoration, h,
      ⟨protocolVersion, 5, 3, .requestAttempted "b" "ping" .outage, {}⟩, ?_,
      ⟨protocolVersion, 6, 3, .requestUnavailable "b" .recovery .administrativeProhibited (some 13), {}⟩, ?_,
      "b", "ping", .recovery, trivial, rfl, ?_⟩
    · decide
    · decide
    · rw [hfour, ← hseven]
      decide
  exact absurd ((hclaim _ 1 2 (by decide) (by decide) _ hfailed).mpr hcontrolled) (by decide)

end

end SimFerret
