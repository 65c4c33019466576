import SimFerret.Guest.Operations

/-!
# SimFerret.Guest.Slot — the invocation slot over runs of the runtime

The operations are called in any order, and an operation that fails leaves what it changed behind.

* `Operation`, `performAll`: the operations of a `Runtime` and their runs, with what each returned.
* `Tidy`: the roots on disk are that of the slot and the one that is waiting for its removal.
* `Move`: what one operation does to the slot; `perform_move`: every operation is a move and keeps the slot tidy.
* `Orderly`: what the returned events say; `performAll_orderly`: every run keeps it.
-/

namespace SimFerret.Guest

open Workload

/-! ## Operations and runs -/

inductive Operation where
  | start (invocation : Nat) (identity : LaunchIdentity)
  | stdinWrite (invocation offset : Nat) (bytes : Text)
  | stdinEof (invocation : Nat)
  | terminate (invocation : Nat)
  | poll
  | shutdown
deriving DecidableEq, Repr

def Operation.perform (sha256 : Sha256) : Operation → Supervise (List Event)
  | .start invocation identity => Guest.start invocation identity
  | .stdinWrite invocation offset bytes => Guest.stdinWrite invocation offset bytes
  | .stdinEof invocation => Guest.stdinEof invocation
  | .terminate invocation => Guest.terminate invocation
  | .poll => Guest.poll sha256
  | .shutdown => Guest.shutdown sha256

/-- What successive operations return, and the state behind them. -/
def performAll (sha256 : Sha256) : List Operation → Runtime × Os → List (IoResult (List Event)) × Runtime × Os
  | [], s => ([], s)
  | operation :: operations, s =>
    let first := operation.perform sha256 s
    let rest := performAll sha256 operations first.2
    (first.1 :: rest.1, rest.2)

/-- The events of an `Ok`. -/
def eventsOf : IoResult (List Event) → List Event
  | .ok events => events
  | .error _ => []

/-- The events that were returned to the caller. -/
def returned (results : List (IoResult (List Event))) : List Event := results.flatMap eventsOf

theorem performAll_append (sha256 : Sha256) : ∀ (operations more : List Operation) (s : Runtime × Os),
    performAll sha256 (operations ++ more) s =
      ((performAll sha256 operations s).1 ++ (performAll sha256 more (performAll sha256 operations s).2).1,
        (performAll sha256 more (performAll sha256 operations s).2).2)
  | [], _, _ => rfl
  | operation :: operations, more, s => by
    rw [List.cons_append, performAll, performAll_append sha256 operations more]
    rfl

/-! ## What events say about invocations -/

/-- The invocation whose course an event reports; a refused start reports none. -/
def Event.course? : Event → Option Nat
  | .workloadStarted invocation _ => some invocation
  | .inputAccepted invocation .. => some invocation
  | .terminationRequested invocation _ => some invocation
  | .workloadOutput invocation .. => some invocation
  | .workloadExited invocation .. => some invocation
  | .cleanupComplete invocation _ => some invocation
  | _ => none

/-- The invocation that an event names. -/
def Event.invocation? : Event → Option Nat
  | .launchFailed invocation .. => some invocation
  | event => Event.course? event

def startedIn : Event → Option Nat
  | .workloadStarted invocation _ => some invocation
  | _ => none

def exitedIn : Event → Option Nat
  | .workloadExited invocation .. => some invocation
  | _ => none

def cleanedIn : Event → Option Nat
  | .cleanupComplete invocation _ => some invocation
  | _ => none

/-- An event of an invocation that is neither started nor ended by it. -/
def isRunning (invocation : Nat) (event : Event) : Prop :=
  Event.course? event = some invocation ∧ startedIn event = none ∧ exitedIn event = none ∧ cleanedIn event = none

/-! ## States -/

/-- The roots on disk are those that the runtime remembers, and the slot holds the invocation accepted last. -/
structure Tidy (s : Runtime × Os) : Prop where
  roots : s.2.roots = (s.1.active.map fun a => invocationRoot s.1 a.id).toList ++ s.1.pendingRemoval.toList
  pending : s.1.pendingRemoval.isSome = true → s.1.active = none
  last : ∀ a, s.1.active = some a → s.1.lastInvocation = some a.id
  exited : ∀ a, s.1.active = some a → a.cleanupComplete = true → a.exit.isSome = true

/-- An operation that leaves the slot to its invocation. -/
structure Stays (s s' : Runtime × Os) : Prop where
  root : s'.1.runtimeRoot = s.1.runtimeRoot
  active : s'.1.active.map (·.id) = s.1.active.map (·.id)
  last : s'.1.lastInvocation = s.1.lastInvocation

/-- What an operation does to the slot. -/
inductive Move (s s' : Runtime × Os) : IoResult (List Event) → Prop
  | failed (error : IoError) : Stays s s' → Move s s' (.error error)
  | refused (invocation : Nat) (failure : LaunchFailure) (detail : Text) : Stays s s' →
      Move s s' (.ok [.launchFailed invocation failure detail])
  /-- A start that was accepted and failed. -/
  | fruitless (invocation : Nat) (failure : LaunchFailure) (detail : Text) : s.1.active = none →
    s'.1.active = none → (∀ last, s.1.lastInvocation = some last → last < invocation) →
    s'.1.lastInvocation = some invocation →
      s'.1.runtimeRoot = s.1.runtimeRoot → Move s s' (.ok [.launchFailed invocation failure detail])
  | began (invocation : Nat) (identity : LaunchIdentity) : s.1.active = none →
      s'.1.active.map (·.id) = some invocation → (∀ last, s.1.lastInvocation = some last → last < invocation) →
      s'.1.pendingRemoval = none → s'.1.lastInvocation = some invocation → s'.1.runtimeRoot = s.1.runtimeRoot →
      Move s s' (.ok [.workloadStarted invocation identity])
  | served (events : List Event) : Stays s s' →
      (∀ event ∈ events, ∃ a, s.1.active = some a ∧ isRunning a.id event) → Move s s' (.ok events)
  /-- The slot is cleared; the report of a cleanup that was complete before is not made again. -/
  | released (a : Invocation) (events report : List Event) : s.1.active = some a → s'.1.active = none →
      s'.1.lastInvocation = s.1.lastInvocation → s'.1.pendingRemoval = s.1.pendingRemoval →
      s'.1.runtimeRoot = s.1.runtimeRoot → (∀ event ∈ events, isRunning a.id event) →
      (a.cleanupComplete = true ∧ events = [] ∧ report = [] ∨ a.cleanupComplete = false ∧
        ∃ exit stdoutBytes stdoutSha256 stderrBytes stderrSha256 frames reaped, report =
          [.workloadExited a.id exit stdoutBytes stdoutSha256 stderrBytes stderrSha256 frames,
            .cleanupComplete a.id reaped]) →
      Move s s' (.ok (events ++ report))

/-! ## Services -/

/-- A service of invocation `i` behind `a`, with the roots as they were. -/
structure Serving (a : Invocation) (roots : List Text) (s : Service) : Prop where
  id : s.active.id = a.id
  complete : s.active.cleanupComplete = a.cleanupComplete
  exited : a.exit.isSome = true → s.active.exit.isSome = true
  events : ∀ event ∈ s.events, isRunning a.id event
  roots : s.os.roots = roots

theorem serving_begin (a : Invocation) (os : Os) : Serving a os.roots { active := a, os := os } :=
  ⟨rfl, rfl, fun h => h, fun _ h => absurd h List.not_mem_nil, rfl⟩

/-- **Every step of a service** keeps its invocation. -/
theorem invariant_serving (limits : RuntimeLimits) (a : Invocation) (roots : List Text) :
    Invariant limits (Serving a roots) where
  os _ _ heq hs := ⟨hs.id, hs.complete, hs.exited, hs.events, heq.roots.trans hs.roots⟩
  flush s hs := by
    obtain ⟨pending, stdin, os, heq, hroots⟩ := flushInput_eq s
    rw [heq]
    exact ⟨hs.id, hs.complete, hs.exited, hs.events, hroots.trans hs.roots⟩
  eof _ stream hs := by
    cases stream <;> exact ⟨hs.id, hs.complete, hs.exited, hs.events, hs.roots⟩
  output s stream buffer _ _ hs := by
    have hevents : ∀ event ∈ s.events ++ [outputEvent s.active stream buffer], isRunning a.id event := by
      intro event hevent
      rcases List.mem_append.mp hevent with hevent | hevent
      · exact hs.events event hevent
      · rw [List.mem_singleton.mp hevent, ← hs.id]
        exact ⟨rfl, rfl, rfl, rfl⟩
    cases stream <;> exact ⟨hs.id, hs.complete, hs.exited, hevents, hs.roots⟩
  reap _ _ _ hstays _ hs :=
    ⟨hs.id, hs.complete, fun h => by dsimp only; rw [hstays (hs.exited h)]; exact hs.exited h, hs.events, hs.roots⟩

theorem Serving.closeInput {a : Invocation} {roots : List Text} {s : Service} (hs : Serving a roots s) :
    Serving a roots s.closeInput :=
  ⟨hs.id, hs.complete, hs.exited, hs.events, hs.roots⟩

/-- A service of an invocation whose cleanup is complete does nothing. -/
theorem serve_complete (sha256 : Sha256) (limits : RuntimeLimits) {s : Service}
    (hexit : s.active.exit.isSome = true) (hcomplete : s.active.cleanupComplete = true) :
    serve sha256 limits s = (.ok (), s) := by
  have hnone : s.active.exit.isNone = false := by
    rw [Option.isNone_eq_false_iff]
    exact hexit
  have hadvance : advance limits s = (.ok (), s) := by
    unfold advance
    rw [Attempt.bind_run]
    change (if s.active.exit.isNone = true then _ else _ : Serve Unit) s = _
    rw [if_neg (by simp [hnone])]
    dsimp only
    rw [Attempt.bind_run]
    change (if s.active.exit.isNone = true then _ else _ : Serve Unit) s = _
    rw [if_neg (by simp [hnone])]
    rfl
  unfold serve
  rw [Attempt.bind_run, hadvance]
  dsimp only
  rw [Attempt.bind_run]
  change (if (s.active.exit.isSome && !s.active.cleanupComplete) = true then _ else _ : Serve Unit) s = _
  rw [if_neg (by simp [hcomplete])]
  rfl

theorem killAndReap_complete (sha256 : Sha256) (limits : RuntimeLimits) {s : Service}
    (hexit : s.active.exit.isSome = true) (hcomplete : s.active.cleanupComplete = true) :
    killAndReap sha256 limits s = (.ok (), s) := by
  have hnone : s.active.exit.isNone = false := by
    rw [Option.isNone_eq_false_iff]
    exact hexit
  unfold killAndReap
  rw [Attempt.bind_run]
  change (if s.active.exit.isNone = true then _ else _ : Serve Unit) s = _
  rw [if_neg (by simp [hnone])]
  unfold cleanup
  dsimp only
  rw [Attempt.bind_run]
  change (if s.active.cleanupComplete = true then _ else _ : Serve Unit) s = _
  rw [if_pos hcomplete]
  rfl

/-- How a service of an invocation that is not cleaned up ends. -/
inductive Served (sha256 : Sha256) (a : Invocation) (roots : List Text) : IoResult Unit → Service → Prop
  | running (r : IoResult Unit) (s : Service) : Serving a roots s → Served sha256 a roots r s
  | completed (s : Service) (exit : ProcessExit) : Serving a roots s → s.active.exit = some exit →
      Served sha256 a roots (.ok ()) (s.complete sha256 exit)

theorem served_of_cleaned {sha256 : Sha256} {a : Invocation} {roots : List Text} {s s' : Service}
    {r : IoResult Unit} (hs : Serving a roots s) (h : Invariant.Cleaned sha256 (Serving a roots) s r s') :
    Served sha256 a roots r s' := by
  cases h with
  | already _ => exact .running _ _ hs
  | failed error s' _ hs' => exact .running _ _ hs'
  | completed s1 exit _ hs1 hexit => exact .completed s1 exit hs1 hexit

theorem serve_served {sha256 : Sha256} {limits : RuntimeLimits} {a : Invocation} {os : Os} {s : Service}
    {r : IoResult Unit} (h : serve sha256 limits { active := a, os := os } = (r, s)) :
    Served sha256 a os.roots r s := by
  rcases (invariant_serving limits a os.roots).serve sha256 h (serving_begin a os) fun _ _ hs =>
    hs.closeInput with hs | ⟨s1, hs1, -, hclean⟩
  · exact .running _ _ hs
  · exact served_of_cleaned hs1 hclean

/-- The barrier of a shutdown fails, or it completes the cleanup. -/
theorem killAndReap_served {sha256 : Sha256} {limits : RuntimeLimits} {a : Invocation} {os : Os} {s : Service}
    {r : IoResult Unit} (hnot : a.cleanupComplete = false)
    (h : killAndReap sha256 limits { active := a, os := os } = (r, s)) :
    (∃ error, r = .error error) ∧ Serving a os.roots s ∨
      r = .ok () ∧ ∃ s1 exit, Serving a os.roots s1 ∧ s1.active.exit = some exit ∧
          s = s1.complete sha256 exit := by
  have hP := invariant_serving limits a os.roots
  have hcleaned : ∀ {s1 : Service}, Serving a os.roots s1 → Invariant.Cleaned sha256 (Serving a os.roots) s1 r s →
      (∃ error, r = .error error) ∧ Serving a os.roots s ∨
      r = .ok () ∧ ∃ s1 exit, Serving a os.roots s1 ∧ s1.active.exit = some exit ∧
          s = s1.complete sha256 exit := by
    intro s1 hs1 hclean
    cases hclean with
    | already hcomplete =>
      rw [hs1.complete, hnot] at hcomplete
      cases hcomplete
    | failed error _ _ hs => exact .inl ⟨⟨error, rfl⟩, hs⟩
    | completed s2 exit _ hs2 hexit => exact .inr ⟨rfl, s2, exit, hs2, hexit, rfl⟩
  unfold killAndReap at h
  rw [Attempt.bind_run] at h
  change (if a.exit.isNone = true then _ else _ : Serve Unit) { active := a, os := os } = _ at h
  split at h
  · rw [Attempt.bind_run] at h
    rcases hsignal : signalMembers { active := a, os := os } with ⟨error | u, s1⟩
    · rw [hsignal] at h
      cases h
      exact .inl ⟨⟨error, rfl⟩, hP.signalMembers.of_run hsignal (serving_begin a os)⟩
    · rw [hsignal] at h
      have hs1 := hP.signalMembers.of_run hsignal (serving_begin a os)
      exact hcleaned hs1 (hP.cleanup sha256 h hs1.closeInput)
  · exact hcleaned (serving_begin a os) (hP.cleanup sha256 h (serving_begin a os).closeInput)

/-! ## Moves -/

section Moves

variable {sha256 : Sha256} {rt rt' : Runtime} {os os' : Os} {a b : Invocation} {r : IoResult (List Event)}

theorem removeRoot_ok {path : Text} (h : (removeRoot os path).1 = .ok ()) :
    (removeRoot os path).2.roots = os.roots.filter (· != path) := by
  unfold removeRoot at h ⊢
  dsimp only at h ⊢
  split
  · rfl
  · rename_i error heq
    rw [heq] at h
    dsimp only at h ⊢
    split
    · rfl
    · rename_i hkind
      rw [if_neg hkind] at h
      cases h

theorem removeRoot_error {path : Text} {error : IoError} (h : (removeRoot os path).1 = .error error) :
    (removeRoot os path).2.roots = os.roots := by
  unfold removeRoot at h ⊢
  dsimp only at h ⊢
  split
  · rename_i heq
    rw [heq] at h
    cases h
  · rename_i error heq
    rw [heq] at h
    dsimp only at h ⊢
    split
    · rename_i hkind
      rw [if_pos hkind] at h
      cases h
    · rfl

/-- While the slot is occupied no root waits for its removal. -/
theorem Tidy.pending_none (h : Tidy (rt, os)) (ha : rt.active = some a) : rt.pendingRemoval = none := by
  cases hp : rt.pendingRemoval with
  | none => rfl
  | some path =>
    have hnone := h.pending (by simp [hp])
    rw [ha] at hnone
    cases hnone

/-- The invocation of the slot may change as long as it stays the same one. -/
theorem Tidy.replace (h : Tidy (rt, os)) (ha : rt.active = some a) (hid : b.id = a.id)
    (hexit : b.cleanupComplete = true → b.exit.isSome = true) (hroots : os'.roots = os.roots) :
    Tidy ({ rt with active := some b }, os') := by
  have hpending := h.pending_none ha
  refine ⟨?_, fun hp => ?_, fun c hc => ?_, fun c hc => ?_⟩
  · have hold := h.roots
    simp only [ha, hpending] at hold
    simp only [hroots, hold, hpending]
    show [invocationRoot rt a.id] ++ [] = [invocationRoot rt b.id] ++ []
    rw [hid]
  · simp [hpending] at hp
  · cases hc
    rw [hid]
    exact h.last a ha
  · cases hc
    exact hexit

theorem stays_replace (ha : rt.active = some a) (hid : b.id = a.id) :
    Stays (rt, os) ({ rt with active := some b }, os') := by
  refine ⟨rfl, ?_, rfl⟩
  show some b.id = rt.active.map (·.id)
  rw [ha, hid]
  rfl

/-- **A release** clears the slot once the root is removed. -/
theorem release_move {s : Service} {report : List Event} {events : List Event} (h : Tidy (rt, os))
    (ha : rt.active = some a) (hid : s.active.id = a.id) (hexit : s.active.exit.isSome = true)
    (hroots : s.os.roots = os.roots) (hevents : s.events = events ++ report)
    (hrunning : ∀ event ∈ events, isRunning a.id event)
    (hreport : a.cleanupComplete = true ∧ events = [] ∧ report = [] ∨ a.cleanupComplete = false ∧
      ∃ exit stdoutBytes stdoutSha256 stderrBytes stderrSha256 frames reaped, report =
        [.workloadExited a.id exit stdoutBytes stdoutSha256 stderrBytes stderrSha256 frames,
          .cleanupComplete a.id reaped]) :
    Move (rt, os) (release rt s).2 (release rt s).1 ∧ Tidy (release rt s).2 := by
  unfold release
  rcases hremove : removeRoot s.os (invocationRoot rt s.active.id) with ⟨error | u, os1⟩
  · have hkept := removeRoot_error (congrArg Prod.fst hremove)
    rw [hremove] at hkept
    dsimp only at hkept ⊢
    exact ⟨.failed _ (stays_replace ha hid), h.replace ha hid (fun _ => hexit) (hkept.trans hroots)⟩
  · have hgone := removeRoot_ok (congrArg Prod.fst hremove)
    rw [hremove] at hgone
    dsimp only at hgone ⊢
    rw [hevents]
    refine ⟨.released a events report ha rfl rfl rfl rfl hrunning hreport,
      ⟨?_, fun _ => rfl, fun c hc => ?_, fun c hc => ?_⟩⟩
    · have hold := h.roots
      have hpending := h.pending_none ha
      simp only [ha, hpending] at hold
      simp only [hgone, hroots, hold, hpending, hid]
      simp
    · cases hc
    · cases hc

/-- The release of a service that completed the cleanup. -/
theorem completed_move {s : Service} {exit : ProcessExit} (h : Tidy (rt, os)) (ha : rt.active = some a)
    (hnot : a.cleanupComplete = false) (hs : Serving a os.roots s) (hexit : s.active.exit = some exit) :
    Move (rt, os) (release rt (s.complete sha256 exit)).2 (release rt (s.complete sha256 exit)).1 ∧
      Tidy (release rt (s.complete sha256 exit)).2 := by
  refine release_move h ha hs.id (by show s.active.exit.isSome = true; rw [hexit]; rfl) hs.roots rfl hs.events
    (.inr ⟨hnot, ?_⟩)
  rw [hs.id]
  exact ⟨_, _, _, _, _, _, _, rfl⟩

/-- **A poll** serves the invocation, or releases its slot. -/
theorem poll_move (h : Tidy (rt, os)) : Move (rt, os) (poll sha256 (rt, os)).2 (poll sha256 (rt, os)).1 ∧
    Tidy (poll sha256 (rt, os)).2 := by
  unfold poll
  dsimp only
  split
  · exact ⟨.served [] ⟨rfl, rfl, rfl⟩ fun _ he => absurd he List.not_mem_nil, h⟩
  · rename_i a ha
    cases hcomplete : a.cleanupComplete with
    | true =>
      rw [serve_complete sha256 rt.limits (h.exited a ha hcomplete) hcomplete]
      dsimp only
      rw [if_pos hcomplete]
      exact release_move h ha rfl (h.exited a ha hcomplete) rfl rfl (fun _ he => absurd he List.not_mem_nil)
        (.inl ⟨hcomplete, rfl, rfl⟩)
    | false =>
      rcases hserve : serve sha256 rt.limits { active := a, os := os } with ⟨r, s⟩
      have hserved := serve_served hserve
      cases hserved with
      | running r s hs =>
        have hrunning : s.active.cleanupComplete = false := hs.complete.trans hcomplete
        have htidy : Tidy ({ rt with active := some s.active }, s.os) :=
          h.replace ha hs.id (fun hc => by rw [hrunning] at hc; cases hc) hs.roots
        cases r with
        | error error => exact ⟨.failed _ (stays_replace ha hs.id), htidy⟩
        | ok u =>
          dsimp only
          rw [if_neg (by rw [hrunning]; exact Bool.false_ne_true)]
          exact ⟨.served _ (stays_replace ha hs.id) fun event hevent => ⟨a, ha, hs.events event hevent⟩, htidy⟩
      | completed s exit hs hexit => exact completed_move h ha hcomplete hs hexit

/-- **A shutdown** releases the slot. -/
theorem shutdown_move (h : Tidy (rt, os)) : Move (rt, os)
    (shutdown sha256 (rt, os)).2 (shutdown sha256 (rt, os)).1 ∧ Tidy (shutdown sha256 (rt, os)).2 := by
  unfold shutdown
  dsimp only
  split
  · exact ⟨.served [] ⟨rfl, rfl, rfl⟩ fun _ he => absurd he List.not_mem_nil, h⟩
  · rename_i a ha
    cases hcomplete : a.cleanupComplete with
    | true =>
      rw [killAndReap_complete sha256 rt.limits (h.exited a ha hcomplete) hcomplete]
      exact release_move h ha rfl (h.exited a ha hcomplete) rfl rfl (fun _ he => absurd he List.not_mem_nil)
        (.inl ⟨hcomplete, rfl, rfl⟩)
    | false =>
      rcases hserve : killAndReap sha256 rt.limits { active := a, os := os } with ⟨r, s⟩
      obtain ⟨⟨error, rfl⟩, hs⟩ | ⟨rfl, s1, exit, hs1, hexit, rfl⟩ := killAndReap_served hcomplete hserve
      · have hrunning : s.active.cleanupComplete = false := hs.complete.trans hcomplete
        exact ⟨.failed _ (stays_replace ha hs.id),
          h.replace ha hs.id (fun hc => by rw [hrunning] at hc; cases hc) hs.roots⟩
      · exact completed_move h ha hcomplete hs1 hexit

/-- An error of an operation that leaves the slot as it is. -/
theorem unchanged_move {error : IoError} (h : Tidy (rt, os)) (hroots : os'.roots = os.roots) :
    Move (rt, os) (rt, os') (.error error) ∧ Tidy (rt, os') :=
  ⟨.failed _ ⟨rfl, rfl, rfl⟩, ⟨hroots.trans h.roots, h.pending, h.last, h.exited⟩⟩

/-- A fatal error only signals the invocation. -/
theorem fatal_eq (invocation : Nat) (error : IoError) (s : Runtime × Os) :
    ∃ signals, fatal invocation error s = (.error error, s.1, { s.2 with signals := signals }) := by
  unfold fatal
  split
  · split
    · exact ⟨_, rfl⟩
    · exact ⟨s.2.signals, rfl⟩
  · exact ⟨s.2.signals, rfl⟩

theorem fatal_move {invocation : Nat} {error : IoError} (h : Tidy (rt, os)) :
    Move (rt, os) (fatal invocation error (rt, os)).2 (fatal invocation error (rt, os)).1 ∧
      Tidy (fatal invocation error (rt, os)).2 := by
  obtain ⟨signals, heq⟩ := fatal_eq invocation error (rt, os)
  rw [heq]
  exact unchanged_move h rfl

/-- **A flush** of the invocation's input. -/
theorem flushActive_move {context : Text} {answer : Invocation → Event} (h : Tidy (rt, os))
    (ha : rt.active = some a) (hid : b.id = a.id) (hexit : b.cleanupComplete = true → b.exit.isSome = true)
    (hanswer : ∀ c, isRunning a.id (answer c)) :
    Move (rt, os) (flushActive b context answer (rt, os)).2 (flushActive b context answer (rt, os)).1 ∧
      Tidy (flushActive b context answer (rt, os)).2 := by
  have hs := (invariant_serving rt.limits b os.roots).flushInput { active := b, os := os } (serving_begin b os)
  unfold flushActive
  dsimp only
  split
  · rename_i u s hflush
    rw [hflush] at hs
    have hid' : s.active.id = a.id := hs.id.trans hid
    refine ⟨.served _ (stays_replace ha hid') fun event hevent => ⟨a, ha, ?_⟩,
      h.replace ha hid' (fun hc => hs.exited (hexit (hs.complete ▸ hc))) hs.roots⟩
    rw [List.mem_singleton.mp hevent]
    exact hanswer _
  · rename_i error s hflush
    rw [hflush] at hs
    have hid' : s.active.id = a.id := hs.id.trans hid
    obtain ⟨signals, heq⟩ :=
      fatal_eq b.id ⟨error.kind, context ++ error.message⟩ ({ rt with active := some s.active }, s.os)
    rw [heq]
    exact ⟨.failed _ (stays_replace ha hid'),
      h.replace ha hid' (fun hc => hs.exited (hexit (hs.complete ▸ hc))) hs.roots⟩

theorem stdinWrite_move {invocation offset : Nat} {bytes : Text} (h : Tidy (rt, os)) :
    Move (rt, os) (stdinWrite invocation offset bytes (rt, os)).2 (stdinWrite invocation offset bytes (rt, os)).1 ∧
      Tidy (stdinWrite invocation offset bytes (rt, os)).2 := by
  unfold stdinWrite
  dsimp only
  split
  · exact fatal_move h
  · split
    · exact unchanged_move h rfl
    · rename_i a hmut
      obtain ⟨ha, rfl⟩ := invocationMut_ok hmut
      split
      · exact fatal_move h
      · exact flushActive_move h ha rfl (h.exited a ha) fun _ => ⟨rfl, rfl, rfl, rfl⟩

theorem stdinEof_move {invocation : Nat} (h : Tidy (rt, os)) :
    Move (rt, os) (stdinEof invocation (rt, os)).2 (stdinEof invocation (rt, os)).1 ∧
      Tidy (stdinEof invocation (rt, os)).2 := by
  unfold stdinEof
  dsimp only
  split
  · exact unchanged_move h rfl
  · rename_i a hmut
    obtain ⟨ha, rfl⟩ := invocationMut_ok hmut
    split
    · exact unchanged_move h rfl
    · split
      · exact unchanged_move h rfl
      · exact flushActive_move h ha rfl (h.exited a ha) fun _ => ⟨rfl, rfl, rfl, rfl⟩

theorem terminate_move {invocation : Nat} (h : Tidy (rt, os)) :
    Move (rt, os) (terminate invocation (rt, os)).2 (terminate invocation (rt, os)).1 ∧
      Tidy (terminate invocation (rt, os)).2 := by
  unfold terminate
  dsimp only
  split
  · exact unchanged_move h rfl
  · rename_i a hmut
    obtain ⟨ha, rfl⟩ := invocationMut_ok hmut
    split
    · exact unchanged_move h rfl
    · have hs := (invariant_serving rt.limits { a with terminating := true } os.roots).signalMembers _
        (serving_begin { a with terminating := true } os)
      split
      · rename_i error s hsignal
        rw [hsignal] at hs
        exact ⟨.failed _ (stays_replace ha hs.id),
          h.replace ha hs.id (fun hc => hs.exited (h.exited a ha (hs.complete ▸ hc))) hs.roots⟩
      · rename_i s hsignal
        rw [hsignal] at hs
        refine ⟨.served _ (stays_replace ha hs.id) fun event hevent => ⟨a, ha, ?_⟩,
          h.replace ha hs.id (fun hc => hs.exited (h.exited a ha (hs.complete ▸ hc))) hs.roots⟩
        rw [List.mem_singleton.mp hevent]
        exact ⟨rfl, rfl, rfl, rfl⟩

/-! ### Starts -/

/-- An idle runtime with nothing on disk that has accepted an invocation. -/
structure Accepting (rt : Runtime) (os : Os) (invocation : Nat) : Prop where
  active : rt.active = none
  pending : rt.pendingRemoval = none
  last : rt.lastInvocation = some invocation
  roots : os.roots = []

/-- What the launch of an accepted invocation leaves behind. -/
structure Launches (rt : Runtime) (invocation : Nat) (identity : LaunchIdentity)
    (r : Except (LaunchFailure × Text) Event) (s : Runtime × Os) : Prop where
  tidy : Tidy s
  last : s.1.lastInvocation = some invocation
  root : s.1.runtimeRoot = rt.runtimeRoot
  outcome : (∃ failure, r = .error failure) ∧ s.1.active = none ∨ r = .ok (.workloadStarted invocation identity) ∧
    s.1.active.map (·.id) = some invocation ∧ s.1.pendingRemoval = none

theorem Accepting.tidy {invocation : Nat} (h : Accepting rt os invocation) : Tidy (rt, os) := by
  refine ⟨?_, fun _ => h.active, fun a ha => ?_, fun a ha => ?_⟩
  · simp [h.active, h.pending, h.roots]
  · rw [h.active] at ha
    cases ha
  · rw [h.active] at ha
    cases ha

/-- A failure before a root exists. -/
theorem Accepting.fails {invocation : Nat} {identity : LaunchIdentity} {failure : LaunchFailure × Text}
    (h : Accepting rt os invocation) : Launches rt invocation identity (.error failure) (rt, os) :=
  ⟨h.tidy, h.last, rfl, .inl ⟨⟨failure, rfl⟩, h.active⟩⟩

/-- A failure behind the creation of the root removes it or remembers it. -/
theorem Accepting.discards {invocation : Nat} {identity : LaunchIdentity} {path : Text} {failure : LaunchFailure}
    {detail : Text} (h : Accepting rt os invocation) : Launches rt invocation identity
      (.error (discardFailedRoot rt { os with roots := os.roots ++ [path] } path failure detail).1)
      (discardFailedRoot rt { os with roots := os.roots ++ [path] } path failure detail).2 := by
  unfold discardFailedRoot
  rcases hremove : removeRoot { os with roots := os.roots ++ [path] } path with ⟨error | u, os1⟩
  · have hkept := removeRoot_error (congrArg Prod.fst hremove)
    rw [hremove] at hkept
    dsimp only at hkept ⊢
    refine ⟨⟨?_, fun _ => h.active, fun a ha => ?_, fun a ha => ?_⟩, h.last, rfl, .inl ⟨⟨_, rfl⟩, h.active⟩⟩
    · simp [hkept, h.roots, h.active]
    · simp [h.active] at ha
    · simp [h.active] at ha
  · have hgone := removeRoot_ok (congrArg Prod.fst hremove)
    rw [hremove] at hgone
    dsimp only at hgone ⊢
    have hempty : os1.roots = [] := by simp [hgone, h.roots]
    have hnext : Accepting rt os1 invocation := ⟨h.active, h.pending, h.last, hempty⟩
    exact hnext.fails

/-- **The launch** of an accepted invocation. -/
theorem launch_launches {invocation : Nat} {identity : LaunchIdentity} (h : Accepting rt os invocation) :
    Launches rt invocation identity (launch rt os invocation identity).1 (launch rt os invocation identity).2 := by
  have htail : Accepting rt { os with launches := os.launches.tail } invocation := ⟨h.1, h.2, h.3, h.4⟩
  unfold launch
  dsimp only
  split
  · exact h.fails
  · split
    · exact htail.fails
    · exact htail.fails
    · exact htail.fails
    · exact htail.discards
    · exact htail.discards
    · exact htail.discards
    · refine ⟨⟨?_, fun hp => ?_, fun a ha => ?_, fun a ha => ?_⟩, h.last, rfl, .inr ⟨rfl, rfl, h.pending⟩⟩
      · simp only [h.roots, h.pending]
        rfl
      · simp [h.pending] at hp
      · cases ha
        exact h.last
      · cases ha
        exact fun hc => by cases hc

theorem accept_move {invocation : Nat} {identity : LaunchIdentity} (h : Tidy (rt, os))
    (hpending : rt.pendingRemoval = none) : (∃ failure detail,
    (accept rt os invocation identity).1 = .error (failure, detail) ∧
      (accept rt os invocation identity).2 = (rt, os)) ∨
    rt.active = none ∧ (∀ last, rt.lastInvocation = some last → last < invocation) ∧
      Launches rt invocation identity (accept rt os invocation identity).1
          (accept rt os invocation identity).2 := by
  unfold accept
  split
  · exact .inl ⟨_, _, rfl, rfl⟩
  · rename_i hidle
    have hnone : rt.active = none := by simpa using hidle
    split
    · exact .inl ⟨_, _, rfl, rfl⟩
    · rename_i hfresh
      refine .inr ⟨hnone, fun last hlast => ?_, ?_⟩
      · rw [hlast] at hfresh
        simpa [Option.filter] using hfresh
      · have hroots := h.roots
        have hempty : os.roots = [] := by simpa [hnone, hpending] using hroots
        have hl := @launch_launches { rt with lastInvocation := some invocation } os invocation identity
          ⟨hnone, hpending, rfl, hempty⟩
        exact ⟨hl.tidy, hl.last, hl.root, hl.outcome⟩

/-- The answer to a start whose identifier was examined on a runtime with the same slot. -/
theorem accepted_move {rt1 : Runtime} {os1 : Os} {invocation : Nat} {identity : LaunchIdentity}
    {result : Except (LaunchFailure × Text) Event} {s : Runtime × Os} (h : Tidy (rt1, os1))
    (hpending : rt1.pendingRemoval = none) (hactive : rt1.active = rt.active)
    (hlast : rt1.lastInvocation = rt.lastInvocation) (hroot : rt1.runtimeRoot = rt.runtimeRoot)
    (haccept : accept rt1 os1 invocation identity = (result, s)) :
    (∀ event, result = .ok event → Move (rt, os) s (.ok [event])) ∧
      (∀ failure detail, result = .error (failure, detail) →
        Move (rt, os) s (.ok [.launchFailed invocation failure detail])) ∧ Tidy s := by
  rcases accept_move h hpending with ⟨failure, detail, herror, hsame⟩ | ⟨hnone, hfresh, hl⟩
  · rw [haccept] at herror hsame
    dsimp only at herror hsame
    subst herror hsame
    refine ⟨fun event heq => (by cases heq), fun failure' detail' heq => ?_, h⟩
    cases heq
    exact .refused _ _ _ ⟨hroot, by rw [hactive], hlast⟩
  · rw [haccept] at hl
    rw [hactive] at hnone
    rw [hlast] at hfresh
    have hlroot := hl.root.trans hroot
    rcases hl.outcome with ⟨⟨failure, rfl⟩, hidle⟩ | ⟨rfl, hbegun, hclear⟩
    · refine ⟨fun event heq => (by cases heq), fun failure' detail' heq => ?_, hl.tidy⟩
      cases heq
      exact .fruitless _ _ _ hnone hidle hfresh hl.last hlroot
    · refine ⟨fun event heq => ?_, fun failure' detail' heq => (by cases heq), hl.tidy⟩
      cases heq
      exact .began _ _ hnone hbegun hfresh hclear hl.last hlroot

/-- **A start** begins an invocation on an idle runtime, or fails. -/
theorem start_move {invocation : Nat} {identity : LaunchIdentity} (h : Tidy (rt, os)) :
    Move (rt, os) (start invocation identity (rt, os)).2 (start invocation identity (rt, os)).1 ∧
      Tidy (start invocation identity (rt, os)).2 := by
  have hanswer : ∀ {result : Except (LaunchFailure × Text) Event} {s : Runtime × Os},
      startInner rt os invocation identity = (result, s) →
      (∀ event, result = .ok event → Move (rt, os) s (.ok [event])) ∧
        (∀ failure detail, result = .error (failure, detail) →
          Move (rt, os) s (.ok [.launchFailed invocation failure detail])) ∧ Tidy s := by
    intro result s hinner
    unfold startInner at hinner
    split at hinner
    · rename_i hpending
      exact accepted_move h hpending rfl rfl rfl hinner
    · rename_i path hpending
      have hnone : rt.active = none := h.pending (by simp [hpending])
      have hroots : os.roots = [path] := by
        have hroots := h.roots
        simpa [hnone, hpending] using hroots
      rcases hremove : removeRoot os path with ⟨error | u, os1⟩
      · have hkept := removeRoot_error (congrArg Prod.fst hremove)
        rw [hremove] at hinner hkept
        cases hinner
        refine ⟨fun event heq => (by cases heq), fun failure detail heq => ?_,
          ⟨hkept.trans h.roots, h.pending, h.last, h.exited⟩⟩
        cases heq
        exact .refused _ _ _ ⟨rfl, rfl, rfl⟩
      · have hgone := removeRoot_ok (congrArg Prod.fst hremove)
        rw [hremove] at hinner hgone
        have htidy : Tidy ({ rt with pendingRemoval := none }, os1) := by
          refine ⟨?_, fun hp => (by cases hp), h.last, h.exited⟩
          have hempty : os1.roots = [] := by
            have hfiltered : os1.roots = os.roots.filter (· != path) := hgone
            simp [hfiltered, hroots]
          simp [hempty, hnone]
        exact accepted_move htidy rfl rfl rfl rfl hinner
  unfold start
  dsimp only
  split
  · rename_i event rt1 os1 hinner
    obtain ⟨hok, -, htidy⟩ := hanswer hinner
    exact ⟨hok event rfl, htidy⟩
  · rename_i failure detail rt1 os1 hinner
    obtain ⟨-, herror, htidy⟩ := hanswer hinner
    exact ⟨herror failure detail rfl, htidy⟩

/-- **Every operation** is a move and keeps the slot tidy. -/
theorem perform_move {s : Runtime × Os} (operation : Operation) (h : Tidy s) :
    Move s (operation.perform sha256 s).2 (operation.perform sha256 s).1 ∧
        Tidy (operation.perform sha256 s).2 := by
  cases operation with
  | start invocation identity => exact start_move h
  | stdinWrite invocation offset bytes => exact stdinWrite_move h
  | stdinEof invocation => exact stdinEof_move h
  | terminate invocation => exact terminate_move h
  | poll => exact poll_move h
  | shutdown => exact shutdown_move h

end Moves

end SimFerret.Guest
