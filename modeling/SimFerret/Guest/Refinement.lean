import SimFerret.Driver.Controller
import SimFerret.Guest.Operations

/-!
# SimFerret.Guest.Refinement — the guest refines the checker's stream contract

* `Disciplined`: the commands of a host: increasing identifiers, no invocation started or terminated twice, one
  outage.
* `InOrder`: the frames of an agent are lawful, and its runtime is in step with them.
* `Tracked`: the same behind a part of a run; `turn_tracked`, `run_tracked`: one turn keeps it, and so does a run.
* `run_refines`: what a controller and a checker make of the frames.
-/

namespace SimFerret.Guest

open Checker WorkloadTrace Action

/-! ## Commands -/

/-- The commands of a host that keeps to the protocol. -/
structure Disciplined (commands : List CommandFrame) : Prop where
  increasing : commands.Pairwise fun c d => c.commandId < d.commandId
  nonzero : ∀ c ∈ commands, c.commandId ≠ 0
  starts : (commands.filterMap startedBy).Nodup
  terminations : (commands.filterMap terminatedBy).Nodup
  activations : (commands.filter activates).length ≤ 1
  restorations : (commands.filter restores).length ≤ 1

/-- The command continues those received before it. -/
structure Fresh (received : List CommandFrame) (c : CommandFrame) : Prop where
  increasing : ∀ f ∈ received, f.commandId < c.commandId
  nonzero : c.commandId ≠ 0
  start : ∀ k, startedBy c = some k → k ∉ received.filterMap startedBy
  termination : ∀ k, terminatedBy c = some k → k ∉ received.filterMap terminatedBy
  activation : activates c = true → ∀ f ∈ received, activates f = false
  restoration : restores c = true → ∀ f ∈ received, restores f = false

theorem not_mem_of_nodup_filterMap {of : CommandFrame → Option Nat} {received more : List CommandFrame}
    {c : CommandFrame} (h : ((received ++ c :: more).filterMap of).Nodup) :
    ∀ k, of c = some k → k ∉ received.filterMap of := by
  intro k hk hmem
  rw [List.filterMap_append, List.filterMap_cons_some hk] at h
  exact (List.nodup_append.mp h).2.2 k hmem k List.mem_cons_self rfl

theorem eq_false_of_filter_le_one {p : CommandFrame → Bool} {received more : List CommandFrame} {c : CommandFrame}
    (h : ((received ++ c :: more).filter p).length ≤ 1) (hc : p c = true) : ∀ f ∈ received, p f = false := by
  intro f hf
  by_contra hp
  rw [List.filter_append, List.filter_cons_of_pos hc, List.length_append, List.length_cons] at h
  have hpos := List.length_pos_of_mem (List.mem_filter.mpr ⟨hf, by simpa using hp⟩)
  omega

theorem Disciplined.fresh {received more : List CommandFrame} {c : CommandFrame}
    (h : Disciplined (received ++ c :: more)) : Fresh received c := by
  refine ⟨fun f hf => ?_, h.nonzero c (by simp), not_mem_of_nodup_filterMap h.starts,
    not_mem_of_nodup_filterMap h.terminations, eq_false_of_filter_le_one h.activations,
    eq_false_of_filter_le_one h.restorations⟩
  exact (List.pairwise_append.mp h.increasing).2.2 f hf c List.mem_cons_self

/-! ## Agents in order -/

/-- The frames of the agent are lawful for the commands up to `last`, and its runtime is in step with them. -/
structure InOrder (sha256 : Sha256) (received : List CommandFrame) (last : Nat) (g : Agent) : Prop where
  next : g.nextEventId = g.emitted.length + 1
  limits : ∀ rt, g.runtime = some rt → rt.limits.Valid
  lawful : Lawful sha256 last g.emitted
  follows : ∀ rt, g.runtime = some rt → rt.Follows last g.emitted
  caused : ∀ f ∈ g.emitted, Caused received g.networkConfigured f.event

/-- What one operation of the agent does: it only adds frames, and it keeps the agent in order as long as the event
identifiers fit in their machine type. -/
structure Advances (sha256 : Sha256) (received received' : List CommandFrame) (last last' : Nat) (g g' : Agent) :
    Prop where
  grows : g.emitted.length ≤ g'.emitted.length
  lastCommandId : g'.lastCommandId = g.lastCommandId
  order : g'.emitted.length < u64Size → InOrder sha256 received last g → InOrder sha256 received' last' g'

/-- The events of a list were emitted, and nothing else that matters here changed. -/
structure Emits (command : Nat) (events : List Event) (g g' : Agent) : Prop where
  emitted : g'.emitted = g.emitted ++ framesOf command g.nextEventId events
  next : g'.nextEventId = g.nextEventId + events.length
  runtime : g'.runtime = g.runtime
  lastCommandId : g'.lastCommandId = g.lastCommandId
  configured : g.networkConfigured = true → g'.networkConfigured = true

section Agent

variable {sha256 : Sha256} {received more : List CommandFrame} {last last' command : Nat} {g g' : Agent}

theorem emit_emits {event : Event} {u : Unit} (h : emit command event g = .ok (u, g')) :
    Emits command [event] g g' := by
  obtain ⟨_, -, h⟩ := bind_eq_ok.mp h
  cases h
  exact ⟨rfl, rfl, rfl, rfl, id⟩

theorem Emits.trans {events more : List Event} {g'' : Agent} (h : Emits command events g g')
    (h' : Emits command more g' g'') : Emits command (events ++ more) g g'' := by
  refine ⟨?_, ?_, h'.runtime.trans h.runtime, h'.lastCommandId.trans h.lastCommandId,
    fun hc => h'.configured (h.configured hc)⟩
  · rw [h'.emitted, h.emitted, h.next, List.append_assoc, framesOf_append]
  · rw [h'.next, h.next, List.length_append, Nat.add_assoc]

theorem emitAll_emits : ∀ {events : List Event} {g g' : Agent} {u : Unit},
    emitAll command events g = .ok (u, g') → Emits command events g g'
  | [], _, _, _, h => by
    cases h
    exact ⟨(List.append_nil _).symm, rfl, rfl, rfl, id⟩
  | event :: events, g, g', u, h => by
    obtain ⟨_, g1, h1, h2⟩ := bind_ok.mp h
    have e1 := emit_emits h1
    have e2 := emitAll_emits h2
    exact e1.trans e2

theorem InOrder.emitted_eq {events : List Event} (hg : InOrder sha256 received last g)
    (h : Emits command events g g') : g'.emitted = log g.emitted command events := by
  rw [h.emitted, hg.next]
  rfl

theorem Advances.trans {received' received'' : List CommandFrame} {last'' : Nat} {g'' : Agent}
    (h : Advances sha256 received received' last last' g g')
    (h' : Advances sha256 received' received'' last' last'' g' g'') :
    Advances sha256 received received'' last last'' g g'' :=
  ⟨h.grows.trans h'.grows, h'.lastCommandId.trans h.lastCommandId,
    fun hlen hg => h'.order hlen (h.order (Nat.lt_of_le_of_lt h'.grows hlen) hg)⟩

/-- A state with the same frames. -/
theorem Emits.nothing (h : Emits command [] g g') :
    Advances sha256 received (received ++ more) last last g g' := by
  have hemitted : g'.emitted = g.emitted := h.emitted.trans (List.append_nil _)
  refine ⟨by rw [hemitted], h.lastCommandId, fun _ hg => ?_⟩
  refine ⟨by rw [h.next, hemitted, hg.next]; rfl, h.runtime ▸ hg.limits, hemitted ▸ hg.lawful, ?_, fun f hf => ?_⟩
  · rw [h.runtime, hemitted]
    exact hg.follows
  · rw [hemitted] at hf
    exact (hg.caused f hf).mono h.configured

/-- An event that is not about the course of an invocation. -/
theorem Emits.advances {event : Event} (h : Emits command [event] g g') (hle : last ≤ command) (hpos : 1 ≤ command)
    (hun : Unrelated event) (hadmits : InOrder sha256 received last g →
      (ofEvents g.emitted).Admits (eventFrame (g.emitted.length + 1) command event))
    (hcaused : Caused (received ++ more) g'.networkConfigured event) :
    Advances sha256 received (received ++ more) last command g g' := by
  refine ⟨by rw [h.emitted, List.length_append]; exact Nat.le_add_right _ _, h.lastCommandId, fun _ hg => ?_⟩
  have hemitted : g'.emitted = g.emitted ++ [eventFrame (g.emitted.length + 1) command event] := hg.emitted_eq h
  have hreports : Reports sha256 g.emitted event := by
    cases event <;> first | exact hun.elim | trivial
  have hacc : Accepted sha256 command g.emitted (eventFrame (g.emitted.length + 1) command event) :=
    ⟨rfl, rfl, ⟨hpos, Nat.le_refl _⟩, hadmits hg, hreports⟩
  refine ⟨?_, h.runtime ▸ hg.limits, ?_, ?_, fun f hf => ?_⟩
  · rw [h.next, hg.next, hemitted, List.length_append]
    rfl
  · rw [hemitted]
    exact (hg.lawful.mono hle).snoc hacc
  · rw [h.runtime, hemitted]
    exact fun rt hrt a ha => (hg.follows rt hrt a ha).unrelated hle hacc hun
  · rw [hemitted] at hf
    rcases List.mem_append.mp hf with hf | hf
    · exact (hg.caused f hf).mono h.configured
    · rw [List.mem_singleton.mp hf]
      exact hcaused

/-- An operation of the runtime that was answered, and the emission of its events. -/
theorem supervise_ok {rt : Runtime} {operation : Supervise (List Event)} {u : Unit}
    (h : supervise command rt operation g = .ok (u, g')) : ∃ events rt' os',
      operation (rt, g.os) = (.ok events, rt', os') ∧
      Emits command events { g with runtime := some rt', os := os' } g' := by
  unfold supervise at h
  obtain ⟨events, g1, h1, h2⟩ := bind_ok.mp h
  split at h1
  · rename_i events' rt' os' hrun
    cases h1
    exact ⟨events, rt', os', hrun, emitAll_emits h2⟩
  · cases h1

/-- **An operation of the runtime** that answers in step keeps the agent in order. -/
theorem supervise_advances {rt : Runtime} {operation : Supervise (List Event)} {u : Unit}
    (hrt : g.runtime = some rt) (h : supervise command rt operation g = .ok (u, g'))
    (hop : ∀ events rt' os', operation (rt, g.os) = (.ok events, rt', os') → InOrder sha256 received last g →
      rt'.limits = rt.limits ∧ (g.emitted.length + events.length < u64Size →
        Answered sha256 g.emitted command (received ++ more) events rt')) :
    Advances sha256 received (received ++ more) last command g g' := by
  obtain ⟨events, rt', os', hrun, e⟩ := supervise_ok h
  have hlength : g'.emitted.length = g.emitted.length + events.length := by
    rw [e.emitted, List.length_append, length_framesOf]
  refine ⟨by omega, e.lastCommandId, fun hlen hg => ?_⟩
  obtain ⟨hlimits, hanswer⟩ := hop events rt' os' hrun hg
  have ha := hanswer (by omega)
  have hemitted : g'.emitted = log g.emitted command events := by
    rw [e.emitted]
    show g.emitted ++ framesOf command g.nextEventId events = _
    rw [hg.next]
    rfl
  have hruntime : g'.runtime = some rt' := e.runtime
  refine ⟨?_, fun r hr => ?_, ?_, fun r hr => ?_, fun f hf => ?_⟩
  · rw [e.next, hlength]
    show g.nextEventId + events.length = _
    rw [hg.next]
    omega
  · rw [hruntime] at hr
    cases hr
    exact hlimits ▸ hg.limits rt hrt
  · rw [hemitted]
    exact ha.lawful
  · rw [hruntime] at hr
    cases hr
    rw [hemitted]
    exact ha.follows
  · rw [hemitted] at hf
    rcases List.mem_append.mp hf with hf | hf
    · exact (hg.caused f hf).mono e.configured
    · exact (ha.caused _ (event_mem_of_mem_framesOf hf)).configured _

/-! ## The runtime between commands -/

theorem Emits.refl (command : Nat) (g : Agent) : Emits command [] g g :=
  ⟨(List.append_nil _).symm, rfl, rfl, rfl, id⟩

theorem serviceRuntime_advances {u : Unit} (h : serviceRuntime sha256 g = .ok (u, g')) :
    Advances sha256 received (received ++ more) g.lastCommandId g.lastCommandId g g' := by
  unfold serviceRuntime at h
  cases hrt : g.runtime with
  | none =>
    simp only [hrt] at h
    cases h
    exact (Emits.refl 0 g).nothing
  | some rt =>
    simp only [hrt] at h
    exact supervise_advances hrt h fun events rt' os' hop hg =>
      poll_answered (hg.limits rt hrt) hg.lawful (hg.follows rt hrt) hop

theorem shutdownRuntime_advances {u : Unit} (hle : last ≤ g.lastCommandId)
    (h : shutdownRuntime sha256 g = .ok (u, g')) :
    Advances sha256 received (received ++ more) last g.lastCommandId g g' := by
  unfold shutdownRuntime at h
  cases hrt : g.runtime with
  | none =>
    simp only [hrt] at h
    cases h
    have hsame : Advances sha256 received (received ++ more) last last g g := (Emits.refl 0 g).nothing
    refine ⟨Nat.le_refl _, rfl, fun hlen hg => ?_⟩
    have hg' := hsame.order hlen hg
    refine ⟨hg'.next, hg'.limits, hg'.lawful.mono hle, fun rt hr => ?_, hg'.caused⟩
    rw [hrt] at hr
    cases hr
  | some rt =>
    simp only [hrt] at h
    exact supervise_advances hrt h fun events rt' os' hop hg =>
      shutdown_answered (hg.limits rt hrt) (hg.lawful.mono hle)
        (fun a ha => (hg.follows rt hrt a ha).mono hle) hop

/-- **A command of the invocation** that the runtime answers in step. -/
theorem withRuntime_advances {c : CommandFrame} {operation : Supervise (List Event)} {u : Unit}
    (h : withRuntime c.commandId operation g = .ok (u, g'))
    (hop : ∀ rt, g.runtime = some rt → InOrder sha256 received last g → ∀ events rt' os',
      operation (rt, g.os) = (.ok events, rt', os') →
        rt'.limits = rt.limits ∧ Answered sha256 g.emitted c.commandId (received ++ [c]) events rt') :
    Advances sha256 received (received ++ [c]) last c.commandId g g' := by
  unfold withRuntime at h
  cases hrt : g.runtime with
  | none =>
    simp only [hrt] at h
    cases h
  | some rt =>
    simp only [hrt] at h
    refine supervise_advances hrt h fun events rt' os' hrun hg => ?_
    obtain ⟨hl, ha⟩ := hop rt hrt hg events rt' os' hrun
    exact ⟨hl, fun _ => ha⟩

/-! ## Commands of the network fixture -/

theorem requireNetwork_ok {u : Unit} (h : requireNetwork g = .ok (u, g')) : g' = g := by
  obtain ⟨_, -, h⟩ := bind_eq_ok.mp h
  cases h
  rfl

theorem network_emits (command : Nat) {u : Unit} (h : network g = .ok (u, g')) : Emits command [] g g' := by
  obtain ⟨_, -, h⟩ := bind_eq_ok.mp h
  cases h
  exact ⟨(List.append_nil _).symm, rfl, rfl, rfl, id⟩

theorem modify_emits {f : Agent → Agent} {u : Unit} (h : (modify f : Act Unit) g = .ok (u, g'))
    (hf : Emits command [] g (f g)) : Emits command [] g g' := by
  rw [modify_ok.mp h]
  exact hf

section Received

variable {c : CommandFrame} (hlt : last < c.commandId)
include hlt

/-- **The configuration** of the network is reported once, with the fixed profile. -/
theorem configureNetwork_advances {interface' cidr gateway' : Text} {u : Unit}
    (h : configureNetwork c.commandId interface' cidr gateway' g = .ok (u, g')) :
    Advances sha256 received (received ++ [c]) last c.commandId g g' := by
  unfold configureNetwork at h
  obtain ⟨_, s1, h1, k1⟩ := bind_ok.mp h
  obtain ⟨hvalues, rfl⟩ := lift_ok.mp h1
  obtain ⟨t, s2, h2, k2⟩ := bind_ok.mp k1
  obtain ⟨rfl, rfl⟩ := get_ok.mp h2
  obtain ⟨_, s3, h3, k3⟩ := bind_ok.mp k2
  obtain ⟨hunconfigured, rfl⟩ := lift_ok.mp h3
  obtain ⟨_, s4, h4, k4⟩ := bind_ok.mp k3
  obtain ⟨_, s5, h5, k5⟩ := bind_ok.mp k4
  have e4 := network_emits c.commandId h4
  have e5 : Emits c.commandId [] s4 s5 := modify_emits h5 ⟨(List.append_nil _).symm, rfl, rfl, rfl, fun _ => rfl⟩
  have e6 := emit_emits k5
  rw [require_eq_ok, Bool.not_eq_true'] at hunconfigured
  rw [requireNetworkValues, require_eq_ok, Bool.and_eq_true, Bool.and_eq_true, beq_iff_eq, beq_iff_eq,
    beq_iff_eq] at hvalues
  have hconfigured : g'.networkConfigured = true := e6.configured (by rw [modify_ok.mp h5])
  refine ((e4.trans e5).trans e6).advances hlt.le (by omega) trivial (fun hg => ⟨?_, ?_, ?_, ?_⟩) hconfigured
  · exact configured_of_caused fun f hf => hunconfigured ▸ hg.caused f hf
  · exact hvalues.1.1
  · exact hvalues.1.2
  · exact hvalues.2

/-- **An outage** that is the first is reported with its rule. -/
theorem activateOutage_advances {peer : Text} {u : Unit} (hfirst : ∀ f ∈ received, activates f = false)
    (hc : activates c = true) (h : activateOutage c.commandId peer g = .ok (u, g')) :
    Advances sha256 received (received ++ [c]) last c.commandId g g' := by
  unfold activateOutage at h
  obtain ⟨_, s1, h1, k1⟩ := bind_ok.mp h
  obtain rfl := requireNetwork_ok h1
  obtain ⟨_, s2, h2, k2⟩ := bind_ok.mp k1
  obtain ⟨hpeer, rfl⟩ := lift_ok.mp h2
  obtain ⟨t, s3, h3, k3⟩ := bind_ok.mp k2
  obtain ⟨rfl, rfl⟩ := get_ok.mp h3
  obtain ⟨_, s4, h4, k4⟩ := bind_ok.mp k3
  obtain ⟨-, rfl⟩ := lift_ok.mp h4
  obtain ⟨_, s5, h5, k5⟩ := bind_ok.mp k4
  obtain ⟨_, s6, h6, k6⟩ := bind_ok.mp k5
  have e5 := network_emits c.commandId h5
  have e6 : Emits c.commandId [] s5 s6 := modify_emits h6 ⟨(List.append_nil _).symm, rfl, rfl, rfl, id⟩
  have e7 := emit_emits k6
  rw [requirePeer, require_eq_ok, beq_iff_eq] at hpeer
  refine ((e5.trans e6).trans e7).advances hlt.le (by omega) trivial (fun hg => ⟨?_, ?_⟩) ⟨c, by simp, hc⟩
  · exact no_activation_of_caused hg.lawful.mirrors hg.caused hfirst
  · rw [hpeer]
    decide

/-- **A restoration** that is the first is reported. -/
theorem restoreNetwork_advances {peer : Text} {u : Unit} (hfirst : ∀ f ∈ received, restores f = false)
    (hc : restores c = true) (h : restoreNetwork c.commandId peer g = .ok (u, g')) :
    Advances sha256 received (received ++ [c]) last c.commandId g g' := by
  unfold restoreNetwork at h
  obtain ⟨_, s1, h1, k1⟩ := bind_ok.mp h
  obtain rfl := requireNetwork_ok h1
  obtain ⟨_, s2, h2, k2⟩ := bind_ok.mp k1
  obtain ⟨-, rfl⟩ := lift_ok.mp h2
  obtain ⟨t, s3, h3, k3⟩ := bind_ok.mp k2
  obtain ⟨rfl, rfl⟩ := get_ok.mp h3
  obtain ⟨_, s4, h4, k4⟩ := bind_ok.mp k3
  obtain ⟨-, rfl⟩ := lift_ok.mp h4
  obtain ⟨_, s5, h5, k5⟩ := bind_ok.mp k4
  obtain ⟨_, s6, h6, k6⟩ := bind_ok.mp k5
  have e5 := network_emits c.commandId h5
  have e6 : Emits c.commandId [] s5 s6 := modify_emits h6 ⟨(List.append_nil _).symm, rfl, rfl, rfl, id⟩
  have e7 := emit_emits k6
  exact ((e5.trans e6).trans e7).advances hlt.le (by omega) trivial
    (fun hg => no_restoration_of_caused hg.lawful.mirrors hg.caused hfirst) ⟨c, by simp, hc⟩

/-- **A request** is reported as an attempt and as its outcome. -/
theorem request_advances {requestId payload : Text} {phase : RequestPhase} {u : Unit}
    (h : request c.commandId requestId payload phase g = .ok (u, g')) :
    Advances sha256 received (received ++ [c]) last c.commandId g g' := by
  unfold request at h
  obtain ⟨_, s1, h1, k1⟩ := bind_ok.mp h
  obtain rfl := requireNetwork_ok h1
  obtain ⟨_, s2, h2, k2⟩ := bind_ok.mp k1
  obtain ⟨-, rfl⟩ := lift_ok.mp h2
  obtain ⟨_, s3, h3, k3⟩ := bind_ok.mp k2
  obtain ⟨response, s4, h4, k4⟩ := bind_ok.mp k3
  have e3 := emit_emits h3
  have e4 : Emits c.commandId [] s3 s4 := by
    cases h4
    exact ⟨(List.append_nil _).symm, rfl, rfl, rfl, id⟩
  have e5 := emit_emits k4
  have hattempt : Advances sha256 received (received ++ [c]) last c.commandId s2 s3 :=
    e3.advances hlt.le (by omega) trivial (fun _ => trivial) trivial
  have hun : Unrelated (requestEvent requestId payload phase response) := by cases response <;> trivial
  have houtcome : Advances sha256 (received ++ [c]) ((received ++ [c]) ++ []) c.commandId c.commandId s3 g' := by
    refine (e4.trans e5).advances (Nat.le_refl _) (by omega) hun (fun _ => ?_) ?_
    · cases response <;> trivial
    · cases response <;> trivial
  rw [List.append_nil] at houtcome
  exact hattempt.trans houtcome

/-- **A check** is reported. -/
theorem check_advances {outageEventBound livenessEventBound : Nat} {u : Unit}
    (h : check c.commandId outageEventBound livenessEventBound g = .ok (u, g')) :
    Advances sha256 received (received ++ [c]) last c.commandId g g' := by
  unfold check at h
  obtain ⟨t, s1, h1, k1⟩ := bind_ok.mp h
  obtain ⟨rfl, rfl⟩ := get_ok.mp h1
  obtain ⟨_, s2, h2, k2⟩ := bind_ok.mp k1
  have e2 : Emits c.commandId [] _ s2 := modify_emits h2 ⟨(List.append_nil _).symm, rfl, rfl, rfl, id⟩
  exact (e2.trans (emit_emits k2)).advances hlt.le (by omega) trivial (fun _ => trivial) trivial

/-! ## Commands of the runtime -/

/-- **A start** of a fresh invocation. -/
theorem startWorkload_advances {invocation : Nat} {identity : Workload.LaunchIdentity} {u : Unit}
    (hfirst : invocation ∉ received.filterMap startedBy) (hc : startedBy c = some invocation)
    (h : startWorkload c.commandId invocation identity g = .ok (u, g')) :
    Advances sha256 received (received ++ [c]) last c.commandId g g' := by
  have hcaused : invocation ∈ (received ++ [c]).filterMap startedBy :=
    List.mem_filterMap.mpr ⟨c, by simp, hc⟩
  unfold startWorkload at h
  cases hrt : g.runtime with
  | none =>
    simp only [hrt] at h
    refine (emitAll_emits h).advances hlt.le (by omega) trivial (fun hg => ⟨?_, ?_⟩) hcaused
    · exact not_launchFailed_of_caused hg.lawful.mirrors hg.caused hfirst
    · exact (unknown_of_not_started hg.lawful.sound
        (not_started_of_caused hg.lawful.mirrors hg.caused hfirst)).exited
  | some rt =>
    simp only [hrt] at h
    refine supervise_advances hrt h fun events rt' os' hop hg => ?_
    obtain ⟨hl, ha⟩ := start_answered hg.lawful (hg.follows rt hrt) hlt
      (not_started_of_caused hg.lawful.mirrors hg.caused hfirst)
      (not_launchFailed_of_caused hg.lawful.mirrors hg.caused hfirst) hcaused hop
    exact ⟨hl, fun _ => ha⟩

/-- **A shutdown** ends the runtime and the agent. -/
theorem shutdownAgent_advances {u : Unit} (hcurrent : g.lastCommandId = c.commandId)
    (h : shutdownAgent sha256 c.commandId g = .ok (u, g')) :
    Advances sha256 received (received ++ [c]) last c.commandId g g' := by
  unfold shutdownAgent at h
  obtain ⟨t, s1, h1, k1⟩ := bind_ok.mp h
  obtain ⟨rfl, rfl⟩ := get_ok.mp h1
  obtain ⟨_, s2, h2, k2⟩ := bind_ok.mp k1
  obtain ⟨-, rfl⟩ := lift_ok.mp h2
  obtain ⟨_, s3, h3, k3⟩ := bind_ok.mp k2
  have hdown : Advances sha256 received (received ++ [c]) last c.commandId s2 s3 :=
    hcurrent ▸ shutdownRuntime_advances (by omega) h3
  have hstop : Advances sha256 (received ++ [c]) ((received ++ [c]) ++ []) c.commandId c.commandId s3 g' :=
    (emit_emits k3).advances (Nat.le_refl _) (by omega) trivial (fun _ => trivial) trivial
  rw [List.append_nil] at hstop
  exact hdown.trans hstop

end Received

/-- **Every command** keeps the agent in order. -/
theorem dispatch_advances {c : CommandFrame} (hfresh : Fresh received c) (hlt : last < c.commandId)
    (hcurrent : g.lastCommandId = c.commandId) {b : Bool}
    (h : dispatch sha256 c.commandId c.command g = .ok (b, g')) :
    Advances sha256 received (received ++ [c]) last c.commandId g g' := by
  have hthen : ∀ {x : Act Unit} {b' : Bool}, (do x; return b') g = .ok (b, g') → x g = .ok ((), g') := by
    intro x b' hx
    obtain ⟨_, g1, h1, k1⟩ := bind_ok.mp hx
    obtain ⟨-, rfl⟩ := pure_ok.mp k1
    exact h1
  cases hcommand : c.command <;> rw [hcommand] at h
  case configureNetwork => exact configureNetwork_advances hlt (hthen h)
  case activateOutage =>
    have hc : activates c = true := by rw [activates, hcommand]
    exact activateOutage_advances hlt (hfresh.activation hc) hc (hthen h)
  case restoreNetwork =>
    have hc : restores c = true := by rw [restores, hcommand]
    exact restoreNetwork_advances hlt (hfresh.restoration hc) hc (hthen h)
  case request => exact request_advances hlt (hthen h)
  case check => exact check_advances hlt (hthen h)
  case start invocation launch =>
    have hc : startedBy c = some invocation := by rw [startedBy, hcommand]
    exact startWorkload_advances hlt (hfresh.start invocation hc) hc (hthen h)
  case stdinWrite =>
    exact withRuntime_advances (hthen h) fun rt hrt hg events rt' os' hop =>
      stdinWrite_answered (hg.limits rt hrt) hg.lawful (hg.follows rt hrt) hlt hop
  case stdinEof =>
    exact withRuntime_advances (hthen h) fun rt hrt hg events rt' os' hop =>
      stdinEof_answered (hg.limits rt hrt) hg.lawful (hg.follows rt hrt) hlt hop
  case terminate invocation =>
    have hc : terminatedBy c = some invocation := by rw [terminatedBy, hcommand]
    exact withRuntime_advances (hthen h) fun rt hrt hg events rt' os' hop =>
      terminate_answered hg.lawful (hg.follows rt hrt) hlt
        (not_terminated_of_caused hg.lawful.mirrors hg.caused (hfresh.termination invocation hc))
        (List.mem_filterMap.mpr ⟨c, by simp, hc⟩) hop
  case shutdown => exact shutdownAgent_advances hlt hcurrent (hthen h)

end Agent

/-! ## Turns and runs -/

def receivedIn : Turn → Option CommandFrame
  | .receive frame => some frame
  | _ => none

/-- The commands of a list of turns. -/
def commandsOf (turns : List Turn) : List CommandFrame := turns.filterMap receivedIn

/-- The agent has received these commands and is in order. -/
structure Tracked (sha256 : Sha256) (received : List CommandFrame) (g : Agent) : Prop where
  last : g.lastCommandId = 0 ∨ ∃ c ∈ received, c.commandId = g.lastCommandId
  order : g.emitted.length < u64Size → InOrder sha256 received g.lastCommandId g

section Run

variable {sha256 : Sha256} {received : List CommandFrame} {g g' : Agent} {result : Option (IoResult Unit)}

theorem Tracked.advances {more : List CommandFrame} (hg : Tracked sha256 received g)
    (h : Advances sha256 received (received ++ more) g.lastCommandId g.lastCommandId g g') :
    Tracked sha256 (received ++ more) g' := by
  refine ⟨?_, fun hlen => ?_⟩
  · rw [h.lastCommandId]
    exact hg.last.imp id fun ⟨c, hc, heq⟩ => ⟨c, List.mem_append_left _ hc, heq⟩
  · rw [h.lastCommandId]
    exact h.order hlen (hg.order (Nat.lt_of_le_of_lt h.grows hlen))

/-- **A received command** that continues the others keeps the agent in order. -/
theorem receive_tracked {c : CommandFrame} (hfresh : Fresh received c) (hg : Tracked sha256 received g)
    (h : receive sha256 c g = .ok (result, g')) : Tracked sha256 (received ++ [c]) g' := by
  have hlt : g.lastCommandId < c.commandId := by
    rcases hg.last with hzero | ⟨f, hf, heq⟩
    · have := hfresh.nonzero
      omega
    · exact heq ▸ hfresh.increasing f hf
  unfold receive at h
  obtain ⟨_, s1, h1, k1⟩ := bind_ok.mp h
  obtain ⟨-, rfl⟩ := lift_ok.mp h1
  obtain ⟨_, s2, h2, k2⟩ := bind_ok.mp k1
  obtain ⟨goesOn, s3, h3, k3⟩ := bind_ok.mp k2
  obtain ⟨-, rfl⟩ := pure_ok.mp k3
  have hs2 := modify_ok.mp h2
  have hcurrent : s2.lastCommandId = c.commandId := by rw [hs2]
  have hadv := dispatch_advances hfresh hlt hcurrent h3
  have hlast := hadv.lastCommandId.trans hcurrent
  refine ⟨.inr ⟨c, by simp, hlast.symm⟩, fun hlen => ?_⟩
  rw [hlast]
  refine hadv.order hlen ?_
  have hlen2 := Nat.lt_of_le_of_lt hadv.grows hlen
  rw [hs2] at hlen2 ⊢
  have ho := hg.order hlen2
  exact ⟨ho.next, ho.limits, ho.lawful, ho.follows, ho.caused⟩

/-- **One turn** keeps the agent in order. -/
theorem turn_tracked {t : Turn} {turns : List Turn} (hcommands : Disciplined (received ++ commandsOf (t :: turns)))
    (hg : Tracked sha256 received g) (h : turn sha256 t g = .ok (result, g')) :
    Tracked sha256 (received ++ commandsOf [t]) g' := by
  cases t with
  | service =>
    obtain ⟨_, g1, h1, k1⟩ := bind_ok.mp h
    obtain ⟨-, rfl⟩ := pure_ok.mp k1
    exact hg.advances (serviceRuntime_advances h1)
  | receive c => exact receive_tracked hcommands.fresh hg h
  | closed =>
    obtain ⟨t, s1, h1, k1⟩ := bind_ok.mp h
    obtain ⟨rfl, rfl⟩ := get_ok.mp h1
    obtain ⟨_, s2, h2, k2⟩ := bind_ok.mp k1
    obtain ⟨-, rfl⟩ := pure_ok.mp k2
    exact hg.advances (shutdownRuntime_advances (Nat.le_refl _) h2)

/-- **A run** keeps the agent in order. -/
theorem run_tracked : ∀ {turns : List Turn} {received : List CommandFrame} {g : Agent},
    Disciplined (received ++ commandsOf turns) → Tracked sha256 received g →
    run sha256 turns g = .ok (result, g') → ∃ received', Tracked sha256 received' g'
  | [], received, g, _, hg, h => by
    obtain ⟨-, rfl⟩ := pure_ok.mp h
    exact ⟨received, hg⟩
  | t :: turns, received, g, hcommands, hg, h => by
    obtain ⟨r, g1, h1, k1⟩ := bind_ok.mp h
    have hg1 := turn_tracked hcommands hg h1
    cases r with
    | some r =>
      obtain ⟨-, rfl⟩ := pure_ok.mp k1
      exact ⟨_, hg1⟩
    | none =>
      refine run_tracked ?_ hg1 k1
      unfold commandsOf
      rw [List.append_assoc, ← List.filterMap_append]
      exact hcommands

end Run

/-! ## The refinement -/

/-- A controller that has issued the commands so far takes every lawful frame. -/
theorem absorb_lawful {sha256 : Sha256} {last : Nat} {c : Driver.WorkloadController}
    (hlast : last < c.nextCommandId) : ∀ (before after : List EventFrame) (d : Driver.WorkloadController),
      Lawful sha256 last (before ++ after) → d.nextCommandId = c.nextCommandId →
        d.nextEventId = before.length + 1 →
      d.trace = ofEvents before → ∃ d', after.foldlM Driver.WorkloadController.absorb d = .ok d' ∧
        d'.trace = ofEvents (before ++ after)
  | before, [], d, _, _, _, htrace => ⟨d, rfl, by rw [htrace, List.append_nil]⟩
  | before, frame :: after, d, hlaw, hissued, hnext, htrace => by
    have hacc := hlaw before frame after rfl
    have habsorb : d.absorb frame = .ok (d.fold frame) := by
      unfold Driver.WorkloadController.absorb
      rw [if_neg]
      have hcommand := hacc.command
      rw [hacc.version, hacc.eventId, hnext, hissued]
      omega
    obtain ⟨d', hfold, htrace'⟩ := absorb_lawful hlast (before ++ [frame]) after (d.fold frame)
      (by simpa using hlaw) hissued
      (by show d.nextEventId + 1 = _; rw [hnext, List.length_append]; rfl)
      (by show d.trace.push frame = _; rw [htrace, ofEvents_snoc])
    refine ⟨d', ?_, by rw [htrace']; simp⟩
    rw [List.foldlM_cons, habsorb]
    exact hfold

theorem validateLimits_ok {limits : RuntimeLimits} {u : Unit} (h : validateLimits limits = .ok u) :
    limits.outputFrameBytes ≤ maxOutputFrameBytes := by
  obtain ⟨_, hframes, -⟩ := bind_eq_ok.mp h
  rw [require_eq_ok, Bool.and_eq_true] at hframes
  exact of_decide_eq_true hframes.2

/-- **The guest refines the checker's stream contract.**  Whatever the operating system does, after any turns of an
agent whose host keeps to the protocol, and as long as the event identifiers fit in their machine type: the
frames are numbered from 1 and name commands that were received, a controller that has issued those takes every
frame, the trace of the frames has no violation but those about long lines, and every exit and cleanup reports
what the frames before it carry. -/
theorem run_refines (sha256 : Sha256) {runtime : Option Runtime} (os : Os) {turns : List Turn} {g : Agent}
    {result : Option (IoResult Unit)}
    (hruntime : ∀ rt, runtime = some rt → Runtime.new rt.runtimeRoot rt.limits = .ok rt)
    (hlimits : ∀ rt, runtime = some rt → rt.limits.inputBytes < u64Size - 1 ∧ rt.limits.outputBytes < u64Size - 1)
    (hcommands : Disciplined (commandsOf turns))
    (hrun : run sha256 turns { runtime := runtime, os := os } = .ok (result, g))
    (hids : g.emitted.length < u64Size) :
    (∀ before frame after, g.emitted = before ++ frame :: after →
      frame.eventId = before.length + 1 ∧ 1 ≤ frame.commandId ∧ frame.commandId ≤ g.lastCommandId) ∧
    (∀ c : Driver.WorkloadController, c.nextEventId = 1 → c.trace = {} → g.lastCommandId < c.nextCommandId →
      ∃ c', g.emitted.foldlM Driver.WorkloadController.absorb c = .ok c' ∧ c'.trace = ofEvents g.emitted) ∧
    (∀ v ∈ (ofEvents g.emitted).allViolations, v.OverLong) ∧
    (∀ before frame after, g.emitted = before ++ frame :: after → Reports sha256 before frame.event) := by
  have hbegin : Tracked sha256 [] { runtime := runtime, os := os } := by
    refine ⟨.inl rfl, fun _ => ⟨rfl, fun rt hrt => ?_, lawful_nil, fun rt hrt a ha => ?_, fun f hf =>
      absurd hf List.not_mem_nil⟩⟩
    · obtain ⟨_, hvalid, -⟩ := bind_eq_ok.mp (hruntime rt hrt)
      have hl := hlimits rt hrt
      exact ⟨validateLimits_ok hvalid, by omega, by omega⟩
    · obtain ⟨_, -, hnew⟩ := bind_eq_ok.mp (hruntime rt hrt)
      rw [← pure_eq_ok.mp hnew] at ha
      cases ha
  obtain ⟨received, hg⟩ := run_tracked (show Disciplined ([] ++ commandsOf turns) from hcommands) hbegin hrun
  have hlaw := (hg.order hids).lawful
  refine ⟨fun before frame after heq => ?_, fun c hnext htrace hissued => ?_, hlaw.sound,
    fun before frame after heq => (hlaw before frame after heq).reports⟩
  · exact ⟨(hlaw before frame after heq).eventId, (hlaw before frame after heq).command⟩
  · exact absorb_lawful hissued [] g.emitted c hlaw rfl hnext htrace

def sessionLaunch : Workload.LaunchIdentity := ⟨"/bin/fixture", ["/bin/fixture"], [], "/", 1000, 1000⟩

/-- An operating system on which the child answers, and exits after a partial write of its input. -/
def sessionOs : Os :=
  { launches := [.spawned 7]
    writes := [.accepted 1, .wouldBlock, .accepted 3]
    polls := [.ok true, .ok true]
    waits := [(0, .other), (0, .other), (0, .other), (7, .exited 0), (9, .signaled 9)]
    reads := [.data "hi\n", .wouldBlock, .wouldBlock, .wouldBlock, .wouldBlock, .endOfFile, .endOfFile] }

def session : List Turn :=
  [.receive ⟨1, 1, .start 1 sessionLaunch⟩, .service, .receive ⟨1, 2, .stdinWrite 1 0 "6162"⟩, .service, .service,
    .receive ⟨1, 3, .shutdown⟩]

theorem run_refines_session : ∃ result g,
    run childSha256 session { runtime := some { runtimeRoot := "/run" }, os := sessionOs } = .ok (result, g) ∧
    g.emitted.length = 6 ∧ (∀ v ∈ (ofEvents g.emitted).allViolations, v.OverLong) ∧
    (∀ before frame after, g.emitted = before ++ frame :: after → Reports childSha256 before frame.event) := by
  have hrun : (run childSha256 session { runtime := some { runtimeRoot := "/run" }, os := sessionOs }).toOption.map
      (fun r => r.2.emitted.length) = some 6 := by
    decide +kernel
  obtain ⟨⟨result, g⟩, hg, hlen⟩ := exists_ok_of_map hrun
  have hcommands : Disciplined (commandsOf session) := by
    refine ⟨?_, ?_, ?_, ?_, ?_, ?_⟩ <;> decide +kernel
  have hrefines := run_refines childSha256 sessionOs
    (fun rt hrt => by cases hrt; rfl) (fun rt hrt => by cases hrt; decide +kernel) hcommands hg
    (by dsimp only at hlen; rw [hlen]; decide)
  exact ⟨result, g, hg, hlen, hrefines.2.2⟩

end SimFerret.Guest
