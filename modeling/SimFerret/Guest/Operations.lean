import SimFerret.Guest.Service

/-!
# SimFerret.Guest.Operations — the operations of the runtime keep the contract

Each operation turns a runtime that is in step with the frames emitted so far into one that is in step with its own
events behind them.

* `Answered`: what an operation leaves behind.
* `poll_answered`, `shutdown_answered`, `start_answered`, `stdinWrite_answered`, `stdinEof_answered`,
  `terminate_answered`.
-/

namespace SimFerret.Guest

open Checker WorkloadTrace Attempt

/-- The invocation of the runtime, if any, is in step with the frames. -/
def Runtime.Follows (rt : Runtime) (last : Nat) (events : List EventFrame) : Prop :=
  ∀ a, rt.active = some a → Guest.Follows rt.limits last events a

/-- What an operation leaves behind the frames emitted before it. -/
structure Answered (sha256 : Sha256) (base : List EventFrame) (command : Nat) (received : List CommandFrame)
    (events : List Event) (rt : Runtime) : Prop where
  lawful : Lawful sha256 command (log base command events)
  follows : rt.Follows command (log base command events)
  caused : ∀ event ∈ events, Caused received false event

section Operations

variable {sha256 : Sha256} {base : List EventFrame} {last command : Nat} {received : List CommandFrame}
  {rt rt' : Runtime} {os os' : Os} {events : List Event}

theorem Follows.last_pos {limits : RuntimeLimits} {a : Invocation} (h : Follows limits last base a)
    (hlaw : Lawful sha256 last base) : 1 ≤ last := by
  have hstarted := h.started
  cases base with
  | nil => exact absurd hstarted Bool.false_ne_true
  | cons frame rest =>
    have hcommand := (hlaw [] frame rest rfl).command
    exact hcommand.1.trans hcommand.2

/-- An operation on an idle runtime that emits nothing. -/
theorem answered_idle (hlaw : Lawful sha256 command base) (hnone : rt.active = none) :
    Answered sha256 base command received [] rt := by
  refine ⟨?_, fun a ha => ?_, fun event hevent => absurd hevent List.not_mem_nil⟩
  · rw [log_nil]
    exact hlaw
  · rw [hnone] at ha
    cases ha

theorem Caused.always {configured : Bool} {event : Event} (h : Caused [] false event) :
    Caused received configured event := by
  have hmono : Caused ([] ++ received) configured event := h.mono fun h => absurd h Bool.false_ne_true
  exact hmono

/-- A released runtime is idle. -/
theorem release_ok {service : Service} (h : release rt service = (.ok events, rt', os')) :
    events = service.events ∧ rt'.limits = rt.limits ∧ rt'.active = none := by
  unfold release at h
  split at h
  · cases h
    exact ⟨rfl, rfl, rfl⟩
  · cases h

/-- The log of a service whose invocation is released. -/
theorem answered_released {s : Service}
    (hlog : Lawful sha256 command (log base command s.events) ∧ ∀ event ∈ s.events, Caused [] false event)
    (h : release rt s = (.ok events, rt', os')) : Answered sha256 base command received events rt' := by
  obtain ⟨rfl, -, hnone⟩ := release_ok h
  refine ⟨hlog.1, fun a ha => ?_, fun event hevent => (hlog.2 event hevent).always⟩
  rw [hnone] at ha
  cases ha

theorem tracks_begin {a : Invocation} (hlaw : Lawful sha256 command base) (h : Follows rt.limits command base a) :
    Tracks sha256 rt.limits base command { active := a, os := os } := by
  intro _
  refine ⟨?_, ?_, fun event hevent => absurd hevent List.not_mem_nil⟩
  · rw [log_nil]
    exact hlaw
  · rw [log_nil]
    exact h

/-- **A poll** answers with the output of the invocation, and with its exit once it is cleaned up. -/
theorem poll_answered (hlimits : rt.limits.Valid) (hlaw : Lawful sha256 command base)
    (hfollows : rt.Follows command base) (h : poll sha256 (rt, os) = (.ok events, rt', os')) :
    rt'.limits = rt.limits ∧ (base.length + events.length < u64Size →
      Answered sha256 base command received events rt') := by
  unfold poll at h
  cases hactive : rt.active with
  | none =>
    simp only [hactive] at h
    cases h
    exact ⟨rfl, fun _ => answered_idle hlaw hactive⟩
  | some a =>
    simp only [hactive] at h
    rcases hserve : serve sha256 rt.limits { active := a, os := os } with ⟨_ | u, s⟩
    · rw [hserve] at h
      cases h
    rw [hserve] at h
    have hpos := (hfollows a hactive).last_pos hlaw
    have hs := serve_tracks hlimits hpos hserve (tracks_begin hlaw (hfollows a hactive))
    have hlog : base.length + s.events.length < u64Size →
        Lawful sha256 command (log base command s.events) ∧ ∀ event ∈ s.events, Caused [] false event := by
      intro hlen
      rw [← length_log base command] at hlen
      rcases hs with hs | hs
      · exact ⟨(hs hlen).lawful, (hs hlen).caused⟩
      · exact hs.2 hlen
    dsimp only at h
    split at h
    · obtain ⟨rfl, hl, -⟩ := release_ok h
      exact ⟨hl, fun hlen => answered_released (hlog hlen) h⟩
    · rename_i hnot
      cases h
      refine ⟨rfl, fun hlen => ⟨(hlog hlen).1, fun b hb => ?_,
        fun event hevent => ((hlog hlen).2 event hevent).always⟩⟩
      cases hb
      rw [← length_log base command] at hlen
      rcases hs with hs | hs
      · exact (hs hlen).follows
      · exact absurd hs.1 hnot

/-- **A shutdown** ends the invocation and leaves the runtime idle. -/
theorem shutdown_answered (hlimits : rt.limits.Valid) (hlaw : Lawful sha256 command base)
    (hfollows : rt.Follows command base) (h : shutdown sha256 (rt, os) = (.ok events, rt', os')) :
    rt'.limits = rt.limits ∧ (base.length + events.length < u64Size →
      Answered sha256 base command received events rt') := by
  unfold shutdown at h
  cases hactive : rt.active with
  | none =>
    simp only [hactive] at h
    cases h
    exact ⟨rfl, fun _ => answered_idle hlaw hactive⟩
  | some a =>
    simp only [hactive] at h
    rcases hserve : killAndReap sha256 rt.limits { active := a, os := os } with ⟨_ | u, s⟩
    · rw [hserve] at h
      cases h
    rw [hserve] at h
    have hpos := (hfollows a hactive).last_pos hlaw
    have hbegin : Tracks sha256 rt.limits base command { active := a, os := os } :=
      tracks_begin hlaw (hfollows a hactive)
    have hs : Completed sha256 base command s := by
      have hP : Invariant rt.limits (Tracks sha256 rt.limits base command) := invariant_tracks hlimits hpos
      unfold killAndReap at hserve
      obtain ⟨b, s0, h0, k0⟩ := bind_ok.mp hserve
      cases h0
      dsimp only at k0
      split at k0
      · obtain ⟨_, s1, h1, k1⟩ := bind_ok.mp k0
        have hs1 := hP.signalMembers.of_run h1 hbegin
        exact cleaned_completes hpos hs1 (hP.cleanup sha256 k1 hs1.closeInput)
      · exact cleaned_completes hpos hbegin (hP.cleanup sha256 k0 hbegin.closeInput)
    obtain ⟨heq, hl, -⟩ := release_ok h
    refine ⟨hl, fun hlen => answered_released (hs.2 ?_) h⟩
    rw [length_log, ← heq]
    exact hlen

/-! ## Commands of an invocation -/

/-- One event that the frames before it accept. -/
theorem answered_single {event : Event} (hlaw : Lawful sha256 last base) (hle : last ≤ command)
    (hacc : Accepted sha256 command base (eventFrame (base.length + 1) command event))
    (hfollows : rt.Follows command (base ++ [eventFrame (base.length + 1) command event]))
    (hcaused : Caused received false event) : Answered sha256 base command received [event] rt := by
  refine ⟨(hlaw.mono hle).snoc hacc, hfollows, fun e he => ?_⟩
  rw [List.mem_singleton.mp he]
  exact hcaused

theorem invocationMut_ok {invocation : Nat} {a : Invocation} (h : invocationMut rt invocation = .ok a) :
    rt.active = some a ∧ a.id = invocation := by
  unfold invocationMut at h
  split at h
  · split at h
    · rename_i hactive hid
      cases h
      exact ⟨hactive, hid⟩
    · cases h
  · cases h

theorem fatal_not_ok {invocation : Nat} {error : IoError} {s : Runtime × Os} :
    (fatal invocation error s).1 = .error error := by
  unfold fatal
  split
  · split
    · rfl
    · rfl
  · rfl

/-- A flush that is answered changed nothing that the checker sees. -/
theorem flushActive_ok {a : Invocation} {context : Text} {answer : Invocation → Event}
    (h : flushActive a context answer (rt, os) = (.ok events, rt', os')) :
    ∃ a', Agrees a a' ∧ events = [answer a'] ∧ rt' = { rt with active := some a' } := by
  have hagree := flushInput_agrees { active := a, os := os }
  unfold flushActive at h
  split at h
  · rename_i u s hflush
    rw [hflush] at hagree
    cases h
    exact ⟨_, hagree, rfl, rfl⟩
  · have herror := congrArg Prod.fst h
    rw [fatal_not_ok] at herror
    cases herror

/-- An answered stdin frame passed every check. -/
theorem stdinWrite_ok {invocation offset : Nat} {bytes : Text}
    (h : stdinWrite invocation offset bytes (rt, os) = (.ok events, rt', os')) :
    ∃ data a, inputData rt.limits bytes = .ok data ∧ invocationMut rt invocation = .ok a ∧
      checkInput rt.limits a offset data = .ok () ∧ flushActive { a with
        inputOffset := a.inputOffset + data.length
        inputBytes := a.inputBytes + data.length
        pendingInput := a.pendingInput ++ data } "cannot write workload input: "
        (fun active => .inputAccepted invocation active.inputOffset data.length false) (rt, os) =
          (.ok events, rt', os') := by
  unfold stdinWrite at h
  split at h
  · have herror := congrArg Prod.fst h
    rw [fatal_not_ok] at herror
    cases herror
  · rename_i data hdata
    split at h
    · cases h
    · rename_i a hmut
      split at h
      · have herror := congrArg Prod.fst h
        rw [fatal_not_ok] at herror
        cases herror
      · rename_i u hcheck
        exact ⟨data, a, hdata, hmut, hcheck, h⟩

/-- **An accepted stdin frame** advances the input of the invocation. -/
theorem stdinWrite_answered (hlimits : rt.limits.Valid) (hlaw : Lawful sha256 last base)
    (hfollows : rt.Follows last base) (hlt : last < command) {invocation offset : Nat} {bytes : Text}
    (h : stdinWrite invocation offset bytes (rt, os) = (.ok events, rt', os')) :
    rt'.limits = rt.limits ∧ Answered sha256 base command received events rt' := by
  obtain ⟨data, a, hdata, hmut, hcheck, hflush⟩ := stdinWrite_ok h
  obtain ⟨hactive, rfl⟩ := invocationMut_ok hmut
  obtain ⟨a', hagree, rfl, rfl⟩ := flushActive_ok hflush
  obtain ⟨_, -, k1⟩ := bind_eq_ok.mp hdata
  obtain ⟨_, hnonempty, k2⟩ := bind_eq_ok.mp k1
  cases k2
  obtain ⟨_, hopen, k3⟩ := bind_eq_ok.mp hcheck
  obtain ⟨_, -, hbound⟩ := bind_eq_ok.mp k3
  rw [require_eq_ok] at hnonempty hopen hbound
  simp only [Bool.not_eq_true', Bool.or_eq_false_iff] at hopen
  have hpos : data.length ≠ 0 := by
    simpa [List.isEmpty_iff, List.length_eq_zero_iff] using hnonempty
  have hin := hlimits.input
  have hbytes : a.inputBytes + data.length ≤ rt.limits.inputBytes := by
    have hsum : saturatingAdd a.inputBytes data.length ≤ rt.limits.inputBytes := of_decide_eq_true hbound
    unfold saturatingAdd at hsum
    omega
  obtain ⟨hacc, hnext⟩ := (hfollows a hactive).input sha256 hlimits data.length false hlt hopen.1.1
    (by simp [hpos]) hopen.1.2 hbytes
  refine ⟨rfl, answered_single hlaw hlt.le ?_ ?_ trivial⟩
  · rw [hagree.inputOffset]
    exact hacc
  · intro b hb
    cases hb
    rw [hagree.inputOffset]
    refine (hnext.agrees ?_).agrees hagree
    exact ⟨rfl, fun stream => by cases stream <;> exact ⟨rfl, rfl, rfl⟩, rfl, rfl, rfl, rfl, hopen.1.2, rfl, rfl,
      fun h => h⟩

theorem stdinEof_ok {invocation : Nat} (h : stdinEof invocation (rt, os) = (.ok events, rt', os')) :
    ∃ a, invocationMut rt invocation = .ok a ∧ a.terminating = false ∧ a.eofRequested = false ∧
      flushActive { a with eofRequested := true } "cannot flush workload input: "
        (fun active => .inputAccepted invocation active.inputOffset 0 true) (rt, os) = (.ok events, rt', os') := by
  unfold stdinEof at h
  split at h
  · cases h
  · rename_i a hmut
    split at h
    · cases h
    · rename_i hlive
      split at h
      · cases h
      · rename_i hopen
        exact ⟨a, hmut, by simpa using hlive, by simpa using hopen, h⟩

/-- **An accepted end of input** closes the input of the invocation. -/
theorem stdinEof_answered (hlimits : rt.limits.Valid) (hlaw : Lawful sha256 last base)
    (hfollows : rt.Follows last base) (hlt : last < command) {invocation : Nat}
    (h : stdinEof invocation (rt, os) = (.ok events, rt', os')) :
    rt'.limits = rt.limits ∧ Answered sha256 base command received events rt' := by
  obtain ⟨a, hmut, hlive, hopen, hflush⟩ := stdinEof_ok h
  obtain ⟨hactive, rfl⟩ := invocationMut_ok hmut
  obtain ⟨a', hagree, rfl, rfl⟩ := flushActive_ok hflush
  have hf := hfollows a hactive
  obtain ⟨hacc, hnext⟩ := hf.input sha256 hlimits 0 true hlt hlive (by simp) hopen
    hf.streams.inputBound
  refine ⟨rfl, answered_single hlaw hlt.le ?_ ?_ trivial⟩
  · rw [hagree.inputOffset]
    exact hacc
  · intro b hb
    cases hb
    rw [hagree.inputOffset]
    exact hnext.agrees hagree

theorem terminate_ok {invocation : Nat} (h : terminate invocation (rt, os) = (.ok events, rt', os')) :
    ∃ a, invocationMut rt invocation = .ok a ∧ events = [.terminationRequested invocation terminationSignal] ∧
      rt' = { rt with active := some { a with terminating := true, pendingInput := [], stdin := false } } := by
  unfold terminate at h
  split at h
  · cases h
  · rename_i a hmut
    split at h
    · cases h
    · split at h
      · cases h
      · rename_i s hsignal
        have hactive : s.active = { a with terminating := true } := congrArg (·.2.active) hsignal.symm
        cases h
        rw [hactive]
        exact ⟨a, hmut, rfl, rfl⟩

/-- **A termination** that is the first of its invocation is reported once. -/
theorem terminate_answered (hlaw : Lawful sha256 last base) (hfollows : rt.Follows last base)
    (hlt : last < command) {invocation : Nat} (hfresh : (ofEvents base).terminated invocation = false)
    (hcaused : invocation ∈ received.filterMap terminatedBy)
    (h : terminate invocation (rt, os) = (.ok events, rt', os')) :
    rt'.limits = rt.limits ∧ Answered sha256 base command received events rt' := by
  obtain ⟨a, hmut, rfl, rfl⟩ := terminate_ok h
  obtain ⟨hactive, rfl⟩ := invocationMut_ok hmut
  obtain ⟨hacc, hnext⟩ := (hfollows a hactive).terminates sha256 hlt.le (by omega) terminationSignal hfresh
  refine ⟨rfl, answered_single hlaw hlt.le hacc (fun b hb => ?_) hcaused⟩
  cases hb
  exact hnext

/-! ## Starts -/

theorem discardFailedRoot_same (rt : Runtime) (os : Os) (path : Text) (failure : LaunchFailure) (detail : Text) :
    (discardFailedRoot rt os path failure detail).2.1.limits = rt.limits ∧
      (discardFailedRoot rt os path failure detail).2.1.active = rt.active := by
  unfold discardFailedRoot
  split
  · exact ⟨rfl, rfl⟩
  · exact ⟨rfl, rfl⟩

/-- How a start ends: it fails and changes no invocation, or it begins one on an idle runtime. -/
def Launched (rt rt' : Runtime) (invocation : Nat) (identity : Workload.LaunchIdentity)
    (r : Except (LaunchFailure × Text) Event) : Prop :=
  rt'.limits = rt.limits ∧ ((∃ failure, r = .error failure ∧ rt'.active = rt.active) ∨
    ∃ pid, rt.active = none ∧ r = .ok (.workloadStarted invocation identity) ∧
      rt'.active = some { id := invocation, pid := pid })

theorem launch_launched {invocation : Nat} {identity : Workload.LaunchIdentity}
    {r : Except (LaunchFailure × Text) Event} (hidle : rt.active = none)
    (h : launch rt os invocation identity = (r, rt', os')) : Launched rt rt' invocation identity r := by
  unfold launch at h
  split at h
  · cases h
    exact ⟨rfl, .inl ⟨_, rfl, rfl⟩⟩
  · dsimp only at h
    split at h
    case h_7 => cases h; exact ⟨rfl, .inr ⟨_, hidle, rfl, rfl⟩⟩
    case h_1 => cases h; exact ⟨rfl, .inl ⟨_, rfl, rfl⟩⟩
    case h_2 => cases h; exact ⟨rfl, .inl ⟨_, rfl, rfl⟩⟩
    case h_3 => cases h; exact ⟨rfl, .inl ⟨_, rfl, rfl⟩⟩
    all_goals
      rw [Prod.mk.injEq, Prod.mk.injEq] at h
      obtain ⟨rfl, rfl, -⟩ := h
      obtain ⟨hl, ha⟩ := discardFailedRoot_same rt _ _ _ _
      exact ⟨hl, .inl ⟨_, rfl, ha⟩⟩

theorem accept_launched {invocation : Nat} {identity : Workload.LaunchIdentity}
    {r : Except (LaunchFailure × Text) Event} (h : accept rt os invocation identity = (r, rt', os')) :
    Launched rt rt' invocation identity r := by
  unfold accept at h
  split at h
  · cases h
    exact ⟨rfl, .inl ⟨_, rfl, rfl⟩⟩
  · rename_i hidle
    split at h
    · cases h
      exact ⟨rfl, .inl ⟨_, rfl, rfl⟩⟩
    · have hl : Launched { rt with lastInvocation := some invocation } rt' invocation identity r :=
        launch_launched (by simpa using hidle) h
      exact hl

theorem startInner_launched {invocation : Nat} {identity : Workload.LaunchIdentity}
    {r : Except (LaunchFailure × Text) Event} (h : startInner rt os invocation identity = (r, rt', os')) :
    Launched rt rt' invocation identity r := by
  unfold startInner at h
  split at h
  · exact accept_launched h
  · split at h
    · have hl : Launched { rt with pendingRemoval := none } rt' invocation identity r := accept_launched h
      exact hl
    · cases h
      exact ⟨rfl, .inl ⟨_, rfl, rfl⟩⟩

/-- **A start** of an invocation that the checker does not know is reported once, as a start or as a failure. -/
theorem start_answered (hlaw : Lawful sha256 last base) (hfollows : rt.Follows last base) (hlt : last < command)
    {invocation : Nat} {identity : Workload.LaunchIdentity} (hstarted : (ofEvents base).started invocation = false)
    (hfailed : (ofEvents base).launchFailed invocation = false)
    (hcaused : invocation ∈ received.filterMap startedBy)
    (h : start invocation identity (rt, os) = (.ok events, rt', os')) :
    rt'.limits = rt.limits ∧ Answered sha256 base command received events rt' := by
  have hpos : 1 ≤ command := by omega
  unfold start at h
  split at h
  · rename_i event rt1 os1 hinner
    cases h
    obtain ⟨hl, ⟨_, herr, -⟩ | ⟨pid, hidle, hok, hactive⟩⟩ := startInner_launched hinner
    · cases herr
    · cases hok
      obtain ⟨hacc, hnext⟩ := follows_start rt.limits identity pid (hlaw.mono hlt.le) hpos hstarted
      refine ⟨hl, answered_single hlaw hlt.le hacc (fun b hb => ?_) hcaused⟩
      rw [hactive] at hb
      cases hb
      rw [hl]
      exact hnext
  · rename_i failure detail rt1 os1 hinner
    cases h
    obtain ⟨hl, ⟨_, -, hactive⟩ | ⟨_, -, hok, -⟩⟩ := startInner_launched hinner
    · have hacc : Accepted sha256 command base
          (eventFrame (base.length + 1) command (.launchFailed invocation failure detail)) :=
        ⟨rfl, rfl, ⟨hpos, Nat.le_refl _⟩, ⟨hfailed, (unknown_of_not_started hlaw.sound hstarted).exited⟩, trivial⟩
      refine ⟨hl, answered_single hlaw hlt.le hacc (fun b hb => ?_) hcaused⟩
      rw [hactive] at hb
      rw [hl]
      exact (hfollows b hb).unrelated hlt.le hacc trivial
    · cases hok

end Operations

end SimFerret.Guest
