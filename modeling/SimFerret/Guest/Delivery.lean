import SimFerret.Guest.History

/-!
# SimFerret.Guest.Delivery — what reaches the standard input of a child

The frames that pass the checks of `stdin_write` are queued, and three operations drain or drop the queue.  The
pipe may take any part of it at any time.

* `acceptedInput`, `acceptedInputs`: the bytes that passed the checks.
* `flushInput_delivers`: a flush moves bytes from the queue to the pipe, in order.
* `Delivers`: the pipe, the queue and the counters of an invocation against the accepted bytes.
* `perform_feeds`: every operation keeps it; `performAll_delivers`: **what any run of operations delivers**.
-/

namespace SimFerret.Guest

open Workload

/-! ## The accepted bytes -/

/-- The data of a frame that passes the checks of `stdin_write`. -/
def acceptedInput (operation : Operation) (s : Runtime × Os) : Bytes :=
  match operation with
  | .stdinWrite invocation offset bytes =>
    match inputData s.1.limits bytes, invocationMut s.1 invocation with
    | .ok data, .ok active =>
      match checkInput s.1.limits active offset data with
      | .ok () => data
      | .error _ => []
    | _, _ => []
  | _ => []

/-- The data of all such frames of a run, in order. -/
def acceptedInputs (sha256 : Sha256) : List Operation → Runtime × Os → Bytes
  | [], _ => []
  | operation :: operations, s =>
    acceptedInput operation s ++ acceptedInputs sha256 operations (operation.perform sha256 s).2

/-- The operation is a termination that succeeded. -/
def Operation.terminates (operation : Operation) (result : IoResult (List Event)) : Bool :=
  match operation, result with
  | .terminate _, .ok _ => true
  | _, _ => false

/-- A termination of the run succeeded. -/
def wasTerminated (sha256 : Sha256) : List Operation → Runtime × Os → Bool
  | [], _ => false
  | operation :: operations, s =>
    operation.terminates (operation.perform sha256 s).1 ||
      wasTerminated sha256 operations (operation.perform sha256 s).2

/-- The operations on an invocation that has started. -/
def Operation.ongoing : Operation → Bool
  | .start .. => false
  | .shutdown => false
  | _ => true

/-- The offset that an accepted input reports. -/
def acceptedOffset : Event → Option Nat
  | .inputAccepted _ offset _ _ => some offset
  | _ => none

theorem acceptedInputs_append (sha256 : Sha256) : ∀ (operations more : List Operation) (s : Runtime × Os),
    acceptedInputs sha256 (operations ++ more) s =
      acceptedInputs sha256 operations s ++ acceptedInputs sha256 more (performAll sha256 operations s).2
  | [], _, _ => rfl
  | operation :: operations, more, s => by
    rw [List.cons_append, acceptedInputs, acceptedInputs, acceptedInputs_append sha256 operations more,
      List.append_assoc]
    rfl

/-! ## A flush -/

/-- The loop loses no byte and repeats none. -/
theorem flushed_append : ∀ (writes : List WriteAnswer) (pending : Bytes),
    flushed writes pending ++ (flushLoop writes pending).2.1 = pending
  | writes, [] => by
    rw [flushed, flushLoop]
    rfl
  | [], byte :: pending => rfl
  | answer :: writes, byte :: pending => by
    cases answer with
    | interrupted => exact flushed_append writes (byte :: pending)
    | wouldBlock => rfl
    | failure error => rfl
    | accepted count =>
      cases count with
      | zero => rfl
      | succ count =>
        have ih := flushed_append writes ((byte :: pending).drop (count + 1))
        rw [flushed, flushLoop, List.append_assoc, ih]
        · exact List.take_append_drop _ _
        all_goals simp

/-- What a flush does: bytes move from the queue to the pipe, and the pipe is closed only behind all of them. -/
structure Flushed (s s' : Service) : Prop where
  active : ∃ pending stdin, s'.active = { s.active with pendingInput := pending, stdin := stdin }
  events : s'.events = s.events
  moved : s'.os.input ++ s'.active.pendingInput = s.os.input ++ s.active.pendingInput
  grown : ∃ more, s'.os.input = s.os.input ++ more
  shut : s.active.stdin = false → s' = s
  ended : s'.os.inputEnd = s.os.inputEnd ∧ s'.active.stdin = s.active.stdin ∨
    s'.os.inputEnd = some s'.os.input ∧ s'.active.pendingInput = [] ∧ s.active.eofRequested = true

theorem flushInput_delivers (s : Service) : Flushed s (flushInput s).2 := by
  cases hstdin : s.active.stdin with
  | false =>
    have heq : (flushInput s).2 = s := by
      unfold flushInput
      rw [hstdin]
      rfl
    rw [heq]
    exact ⟨⟨_, _, rfl⟩, rfl, rfl, ⟨[], (List.append_nil _).symm⟩, fun _ => rfl, .inl ⟨rfl, rfl⟩⟩
  | true =>
    have hmoved := flushed_append s.os.writes s.active.pendingInput
    set pending := (flushLoop s.os.writes s.active.pendingInput).2.1 with hpending
    set input := s.os.input ++ flushed s.os.writes s.active.pendingInput with hinput
    have heq : (flushInput s).2 = { s with
        active := { s.active with pendingInput := pending, stdin := !(pending.isEmpty && s.active.eofRequested) }
        os := { s.os with
          writes := (flushLoop s.os.writes s.active.pendingInput).2.2
          input := input
          inputEnd := if pending.isEmpty && s.active.eofRequested then some input else s.os.inputEnd } } := by
      unfold flushInput
      rw [hstdin]
      rfl
    rw [heq]
    refine ⟨⟨_, _, rfl⟩, rfl, ?_, ⟨_, hinput⟩, fun h => absurd (hstdin.symm.trans h) (by simp), ?_⟩
    · rw [hinput, List.append_assoc, hmoved]
    · cases hcloses : pending.isEmpty && s.active.eofRequested with
      | false => exact .inl ⟨rfl, hstdin.symm⟩
      | true =>
        rw [Bool.and_eq_true, List.isEmpty_iff] at hcloses
        exact .inr ⟨rfl, hcloses.1, hcloses.2⟩

/-! ## An invocation and its pipe -/

/-- The pipe, the queue and the counters of an invocation; `stop` is what the pipe had taken when a termination
succeeded. -/
structure Delivers (accepted : Bytes) (stop : Option Bytes) (a : Invocation) (os : Os) : Prop where
  offset : a.inputOffset = accepted.length
  bytes : a.inputBytes = accepted.length
  sent : os.input <+: accepted
  queue : stop = none → os.input ++ a.pendingInput = accepted
  stopped : ∀ taken, stop = some taken → os.input = taken ∧ a.terminating = true ∧ a.stdin = false
  ended : ∀ bytes, os.inputEnd = some bytes → a.eofRequested = true ∧ bytes = accepted
  closed : a.stdin = false → stop.isSome = true ∨ os.inputEnd.isSome = true ∨ a.exit.isSome = true

/-- A service of such an invocation; a service accepts no input. -/
structure Feeding (accepted : Bytes) (stop : Option Bytes) (s : Service) : Prop where
  delivers : Delivers accepted stop s.active s.os
  events : ∀ event ∈ s.events, acceptedOffset event = none

/-- Calls that leave the pipe alone. -/
theorem Delivers.call {accepted : Bytes} {stop : Option Bytes} {a : Invocation} {os os' : Os}
    (h : Delivers accepted stop a os) (hinput : os'.input = os.input) (hend : os'.inputEnd = os.inputEnd) :
    Delivers accepted stop a os' := by
  obtain ⟨h1, h2, h3, h4, h5, h6, h7⟩ := h
  rw [← hinput] at h3 h4 h5
  rw [← hend] at h6 h7
  exact ⟨h1, h2, h3, h4, h5, h6, h7⟩

theorem Delivers.flush {accepted : Bytes} {stop : Option Bytes} {s s' : Service}
    (h : Delivers accepted stop s.active s.os) (hflushed : Flushed s s') :
    Delivers accepted stop s'.active s'.os := by
  cases stop with
  | some taken =>
    rw [hflushed.shut (h.stopped taken rfl).2.2]
    exact h
  | none =>
    obtain ⟨pending, stdin, hactive⟩ := hflushed.active
    have hqueue : s'.os.input ++ s'.active.pendingInput = accepted := hflushed.moved.trans (h.queue rfl)
    refine ⟨?_, ?_, ⟨_, hqueue⟩, fun _ => hqueue, fun _ hsome => (by cases hsome), fun bytes hbytes => ?_,
      fun hclosed => ?_⟩
    · rw [hactive]
      exact h.offset
    · rw [hactive]
      exact h.bytes
    · obtain ⟨hend, -⟩ | ⟨hend, hempty, heof⟩ := hflushed.ended
      · rw [hend] at hbytes
        rw [hactive]
        exact h.ended bytes hbytes
      · rw [hend] at hbytes
        rw [hempty, List.append_nil] at hqueue
        rw [hactive]
        exact ⟨heof, (Option.some.inj hbytes).symm.trans hqueue⟩
    · obtain ⟨hend, hstdin⟩ | ⟨hend, -, -⟩ := hflushed.ended
      · rw [hstdin] at hclosed
        rw [hend, hactive]
        exact h.closed hclosed
      · rw [hend]
        exact .inr (.inl rfl)

/-- **Every step of a service** keeps what was delivered and what is queued. -/
theorem invariant_feeding (limits : RuntimeLimits) (accepted : Bytes) (stop : Option Bytes) :
    Invariant limits (Feeding accepted stop) where
  os _ _ heq hs := ⟨hs.delivers.call heq.input heq.inputEnd, hs.events⟩
  flush s hs := by
    have hflushed := flushInput_delivers s
    refine ⟨hs.delivers.flush hflushed, ?_⟩
    rw [hflushed.events]
    exact hs.events
  eof s stream hs := by
    obtain ⟨⟨h1, h2, h3, h4, h5, h6, h7⟩, hevents⟩ := hs
    cases stream <;> exact ⟨⟨h1, h2, h3, h4, h5, h6, h7⟩, hevents⟩
  output s stream buffer _ _ hs := by
    obtain ⟨⟨h1, h2, h3, h4, h5, h6, h7⟩, hevents⟩ := hs
    have hmore : ∀ event ∈ s.events ++ [outputEvent s.active stream buffer], acceptedOffset event = none := by
      intro event hevent
      rcases List.mem_append.mp hevent with hevent | hevent
      · exact hevents event hevent
      · rw [List.mem_singleton.mp hevent]
        rfl
    cases stream <;> exact ⟨⟨h1, h2, h3, h4, h5, h6, h7⟩, hmore⟩
  reap s exit count hstays _ hs := by
    obtain ⟨⟨h1, h2, h3, h4, h5, h6, h7⟩, hevents⟩ := hs
    refine ⟨⟨h1, h2, h3, h4, h5, h6, fun hclosed => ?_⟩, hevents⟩
    obtain hstop | hend | hexit := h7 hclosed
    · exact .inl hstop
    · exact .inr (.inl hend)
    · refine .inr (.inr ?_)
      dsimp only
      rw [hstays hexit]
      exact hexit

theorem Feeding.closeInput {accepted : Bytes} {stop : Option Bytes} {s : Service}
    (hexit : s.active.exit.isSome = true) (hs : Feeding accepted stop s) : Feeding accepted stop s.closeInput := by
  obtain ⟨⟨h1, h2, h3, h4, h5, h6, -⟩, hevents⟩ := hs
  exact ⟨⟨h1, h2, h3, h4, fun taken htaken => ⟨(h5 taken htaken).1, (h5 taken htaken).2.1, rfl⟩, h6,
    fun _ => .inr (.inr hexit)⟩, hevents⟩

theorem Feeding.complete {sha256 : Sha256} {accepted : Bytes} {stop : Option Bytes} {s : Service}
    {exit : ProcessExit} (hs : Feeding accepted stop s) : Feeding accepted stop (s.complete sha256 exit) := by
  obtain ⟨⟨h1, h2, h3, h4, h5, h6, h7⟩, hevents⟩ := hs
  refine ⟨⟨h1, h2, h3, h4, h5, h6, h7⟩, fun event hevent => ?_⟩
  rcases List.mem_append.mp hevent with hevent | hevent
  · exact hevents event hevent
  · rcases List.mem_pair.mp hevent with rfl | rfl <;> rfl

theorem serve_feeding {sha256 : Sha256} {limits : RuntimeLimits} {accepted : Bytes} {stop : Option Bytes}
    {s s' : Service} {r : IoResult Unit} (h : serve sha256 limits s = (r, s')) (hs : Feeding accepted stop s) :
    Feeding accepted stop s' := by
  rcases (invariant_feeding limits accepted stop).serve sha256 h hs fun _ hexit hs => hs.closeInput hexit with
    hs' | ⟨s1, hs1, -, hclean⟩
  · exact hs'
  · cases hclean with
    | already _ => exact hs1
    | failed _ _ _ hs' => exact hs'
    | completed s2 exit _ hs2 _ => exact hs2.complete

/-! ## The operations -/

/-- The runtime and its system behind operations that accepted these bytes. -/
structure Fed (limits : RuntimeLimits) (accepted : Bytes) (stop : Option Bytes) (s : Runtime × Os) : Prop where
  limits_eq : s.1.limits = limits
  bound : limits.inputBytes < u64Size - 1 → accepted.length ≤ limits.inputBytes
  sent : s.2.input <+: accepted
  stopped : ∀ taken, stop = some taken → s.2.input = taken
  ended : ∀ bytes, s.2.inputEnd = some bytes → bytes = accepted
  invocation : ∀ a, s.1.active = some a → Delivers accepted stop a s.2

section Operations

variable {sha256 : Sha256} {limits : RuntimeLimits} {accepted : Bytes} {stop : Option Bytes}
  {rt : Runtime} {os : Os} {a b : Invocation}

/-- An invocation that delivers takes the slot. -/
theorem Delivers.fed (h : Delivers accepted stop b os) (hlimits : rt.limits = limits)
    (hbound : limits.inputBytes < u64Size - 1 → accepted.length ≤ limits.inputBytes) :
    Fed limits accepted stop ({ rt with active := some b }, os) := by
  refine ⟨hlimits, hbound, h.sent, fun taken htaken => (h.stopped taken htaken).1,
    fun bytes hbytes => (h.ended bytes hbytes).2, fun c hc => ?_⟩
  cases hc
  exact h

/-- Calls that leave the pipe alone. -/
theorem Fed.call {s : Runtime × Os} (h : Fed limits accepted stop s) {os' : Os} (hinput : os'.input = s.2.input)
    (hend : os'.inputEnd = s.2.inputEnd) : Fed limits accepted stop (s.1, os') := by
  refine ⟨h.limits_eq, h.bound, ?_, fun taken htaken => ?_, fun bytes hbytes => ?_, fun a ha => ?_⟩
  · rw [show (s.1, os').2.input = _ from hinput]
    exact h.sent
  · exact hinput.trans (h.stopped taken htaken)
  · exact h.ended bytes (hend ▸ hbytes)
  · exact (h.invocation a ha).call hinput hend

theorem Fed.fatal {s : Runtime × Os} (h : Fed limits accepted stop s) (invocation : Nat) (error : IoError) :
    Fed limits accepted stop (fatal invocation error s).2 := by
  obtain ⟨signals, heq⟩ := fatal_eq invocation error s
  rw [heq]
  exact h.call rfl rfl

theorem removeRoot_input (os : Os) (path : Text) : (removeRoot os path).2.writes = os.writes ∧
    (removeRoot os path).2.input = os.input ∧ (removeRoot os path).2.inputEnd = os.inputEnd := by
  unfold removeRoot
  dsimp only
  split
  · exact ⟨rfl, rfl, rfl⟩
  · split
    · exact ⟨rfl, rfl, rfl⟩
    · exact ⟨rfl, rfl, rfl⟩

/-- **A flush of the invocation**: its pipe takes what it takes, and the answer is about the invocation behind
it. -/
theorem flushActive_fed {context : Text} {answer : Invocation → Event} (h : Delivers accepted stop b os)
    (hlimits : rt.limits = limits) (hbound : limits.inputBytes < u64Size - 1 →
      accepted.length ≤ limits.inputBytes) :
    Fed limits accepted stop (flushActive b context answer (rt, os)).2 ∧
      ∀ event ∈ eventsOf (flushActive b context answer (rt, os)).1,
        ∃ c : Invocation, event = answer c ∧ c.inputOffset = accepted.length := by
  have hflush := h.flush (s := { active := b, os := os }) (flushInput_delivers { active := b, os := os })
  unfold flushActive
  dsimp only
  rcases hrun : flushInput { active := b, os := os } with ⟨error | u, s⟩
  · rw [hrun] at hflush
    refine ⟨(hflush.fed hlimits hbound).fatal _ _, fun event hevent => ?_⟩
    obtain ⟨signals, heq⟩ :=
      fatal_eq b.id ⟨error.kind, context ++ error.message⟩ ({ rt with active := some s.active }, s.os)
    dsimp only at hevent
    rw [heq] at hevent
    cases hevent
  · rw [hrun] at hflush
    refine ⟨hflush.fed hlimits hbound, fun event hevent => ⟨s.active, List.mem_singleton.mp hevent, hflush.offset⟩⟩

/-- The checks of `stdin_write`. -/
theorem checkInput_ok {offset : Nat} {data : Bytes} (h : checkInput limits a offset data = .ok ()) :
    a.terminating = false ∧ a.eofRequested = false ∧ a.stdin = true ∧ a.inputOffset = offset ∧
      saturatingAdd a.inputBytes data.length ≤ limits.inputBytes := by
  unfold checkInput at h
  obtain ⟨_, hopen, h⟩ := bind_eq_ok.mp h
  obtain ⟨_, hoffset, hbytes⟩ := bind_eq_ok.mp h
  rw [require_eq_ok] at hopen hoffset hbytes
  simp only [Bool.not_eq_true', Bool.or_eq_false_iff, Bool.not_eq_false'] at hopen
  exact ⟨hopen.1.1, hopen.1.2, hopen.2, beq_iff_eq.mp hoffset, of_decide_eq_true hbytes⟩

/-- What an operation leaves: the accepted bytes grow, and a stop stays. -/
structure Feeds (limits : RuntimeLimits) (accepted : Bytes) (stop : Option Bytes) (ends : Bool) (s' : Runtime × Os)
    (events : List Event) : Prop where
  fed : ∃ stop', Fed limits accepted stop' s' ∧ stop'.isSome = (stop.isSome || ends) ∧
    ∀ taken, stop = some taken → stop' = some taken
  offsets : ∀ event ∈ events, ∀ offset, acceptedOffset event = some offset → offset = accepted.length

theorem Fed.feeds {s : Runtime × Os} (h : Fed limits accepted stop s) {events : List Event}
    (hevents : ∀ event ∈ events, ∀ offset, acceptedOffset event = some offset → offset = accepted.length) :
    Feeds limits accepted stop false s events :=
  ⟨⟨stop, h, (Bool.or_false _).symm, fun _ htaken => htaken⟩, hevents⟩

theorem offsets_of_error {r : IoResult (List Event)} {error : IoError} (h : r = .error error) :
    ∀ event ∈ eventsOf r, ∀ offset, acceptedOffset event = some offset → offset = accepted.length := by
  rw [h]
  exact fun _ hevent => absurd hevent List.not_mem_nil

/-- A failed operation accepts nothing. -/
theorem Fed.fails {s : Runtime × Os} (h : Fed limits accepted stop s) (invocation : Nat) (error : IoError) :
    Feeds limits (accepted ++ []) stop false (Guest.fatal invocation error s).2
      (eventsOf (Guest.fatal invocation error s).1) := by
  obtain ⟨signals, heq⟩ := fatal_eq invocation error s
  rw [List.append_nil]
  exact (h.fatal invocation error).feeds (offsets_of_error (congrArg Prod.fst heq))

/-- **A stdin frame** is queued whole, or nothing of it is. -/
theorem stdinWrite_feeds (h : Fed limits accepted stop (rt, os)) (invocation offset : Nat) (bytes : Text) :
    Feeds limits (accepted ++ acceptedInput (.stdinWrite invocation offset bytes) (rt, os)) stop false
      (stdinWrite invocation offset bytes (rt, os)).2
          (eventsOf (stdinWrite invocation offset bytes (rt, os)).1) := by
  unfold stdinWrite acceptedInput
  dsimp only
  rcases hdata : inputData rt.limits bytes with error | data
  · exact h.fails _ _
  rcases hmut : invocationMut rt invocation with error | a
  · dsimp only
    rw [List.append_nil]
    exact h.feeds (offsets_of_error rfl)
  dsimp only
  rcases hcheck : checkInput rt.limits a offset data with error | u
  · exact h.fails _ _
  -- the frame is accepted: the pipe is still open
  obtain ⟨hactive, -⟩ := invocationMut_ok hmut
  have hdelivers := h.invocation a hactive
  have hlimits : rt.limits = limits := h.limits_eq
  obtain ⟨hterminating, heof, hstdin, -, hbytes⟩ := checkInput_ok hcheck
  have hstop : stop = none := by
    cases stop with
    | none => rfl
    | some taken => exact absurd ((hdelivers.stopped taken rfl).2.1.symm.trans hterminating) (by simp)
  have hopen : os.inputEnd = none := by
    cases hend : os.inputEnd with
    | none => rfl
    | some bytes => exact absurd ((hdelivers.ended bytes hend).1.symm.trans heof) (by simp)
  subst hstop
  dsimp only
  set b : Invocation := { a with
    inputOffset := a.inputOffset + data.length
    inputBytes := a.inputBytes + data.length
    pendingInput := a.pendingInput ++ data } with hb
  have hqueue : os.input ++ b.pendingInput = accepted ++ data := by
    rw [← hdelivers.queue rfl, List.append_assoc]
  have hqueued : Delivers (accepted ++ data) none b os := by
    refine ⟨?_, ?_, ⟨_, hqueue⟩, fun _ => hqueue, fun _ hsome => (by cases hsome), fun bytes hend => ?_,
      fun hshut => ?_⟩
    · rw [List.length_append, ← hdelivers.offset]
    · rw [List.length_append, ← hdelivers.bytes]
    · rw [hopen] at hend
      cases hend
    · exact absurd (hshut.symm.trans hstdin) (by simp)
  have hbound : limits.inputBytes < u64Size - 1 → (accepted ++ data).length ≤ limits.inputBytes := by
    intro hsmall
    rw [hlimits, hdelivers.bytes] at hbytes
    rw [List.length_append]
    unfold saturatingAdd at hbytes
    omega
  obtain ⟨hfed, hanswer⟩ := @flushActive_fed limits (accepted ++ data) none rt os b "cannot write workload input: "
    (fun active => .inputAccepted invocation active.inputOffset data.length false) hqueued hlimits hbound
  refine hfed.feeds fun event hevent reported hreported => ?_
  obtain ⟨c, rfl, hoffset⟩ := hanswer event hevent
  exact (Option.some.inj hreported).symm.trans hoffset

/-- **An end of input** is requested once. -/
theorem stdinEof_feeds (h : Fed limits accepted stop (rt, os)) (invocation : Nat) :
    Feeds limits (accepted ++ []) stop false (stdinEof invocation (rt, os)).2
      (eventsOf (stdinEof invocation (rt, os)).1) := by
  rw [List.append_nil]
  unfold stdinEof
  dsimp only
  rcases hmut : invocationMut rt invocation with error | a
  · exact h.feeds (offsets_of_error rfl)
  dsimp only
  split
  · exact h.feeds (offsets_of_error rfl)
  split
  · exact h.feeds (offsets_of_error rfl)
  obtain ⟨hactive, -⟩ := invocationMut_ok hmut
  obtain ⟨h1, h2, h3, h4, h5, h6, h7⟩ := h.invocation a hactive
  have hrequested : Delivers accepted stop { a with eofRequested := true } os :=
    ⟨h1, h2, h3, h4, h5, fun bytes hend => ⟨rfl, (h6 bytes hend).2⟩, h7⟩
  obtain ⟨hfed, hanswer⟩ := @flushActive_fed limits accepted stop rt os { a with eofRequested := true }
    "cannot flush workload input: " (fun active => .inputAccepted invocation active.inputOffset 0 true) hrequested
    h.limits_eq h.bound
  refine hfed.feeds fun event hevent reported hreported => ?_
  obtain ⟨c, rfl, hoffset⟩ := hanswer event hevent
  exact (Option.some.inj hreported).symm.trans hoffset

/-- **A termination** that succeeds drops the queue and closes the pipe. -/
theorem terminate_feeds (h : Fed limits accepted stop (rt, os)) (invocation : Nat) :
    Feeds limits (accepted ++ []) stop
      ((Operation.terminate invocation).terminates (terminate invocation (rt, os)).1)
      (terminate invocation (rt, os)).2 (eventsOf (terminate invocation (rt, os)).1) := by
  rw [List.append_nil]
  unfold terminate
  dsimp only
  rcases hmut : invocationMut rt invocation with error | a
  · exact h.feeds (offsets_of_error rfl)
  dsimp only
  split
  · exact h.feeds (offsets_of_error rfl)
  obtain ⟨hactive, -⟩ := invocationMut_ok hmut
  obtain ⟨h1, h2, h3, h4, h5, h6, h7⟩ := h.invocation a hactive
  have hsignalled : Delivers accepted stop { a with terminating := true } os :=
    ⟨h1, h2, h3, h4, fun taken htaken => ⟨(h5 taken htaken).1, rfl, (h5 taken htaken).2.2⟩, h6, h7⟩
  have hdropped : Delivers accepted (some os.input)
      { a with terminating := true, pendingInput := [], stdin := false } os :=
    ⟨h1, h2, h3, fun hnone => (by cases hnone), fun taken htaken => ⟨Option.some.inj htaken, rfl, rfl⟩, h6,
      fun _ => .inl rfl⟩
  rcases hsignal : signalMembers { active := { a with terminating := true }, os := os } with ⟨error | u, s⟩
  · -- the signal failed, and the queue stays
    obtain rfl : _ = s := congrArg Prod.snd hsignal
    have hcalled := @Delivers.call _ _ _ _ { os with signals := os.signals.tail } hsignalled rfl rfl
    exact (hcalled.fed h.limits_eq h.bound).feeds (offsets_of_error rfl)
  · obtain rfl : _ = s := congrArg Prod.snd hsignal
    have hcalled := @Delivers.call _ _ _ _ { os with signals := os.signals.tail } hdropped rfl rfl
    refine ⟨⟨some os.input, hcalled.fed h.limits_eq h.bound, (Bool.or_true _).symm,
      fun taken htaken => congrArg some (h.stopped taken htaken)⟩, ?_⟩
    intro event hevent offset hoffset
    rw [List.mem_singleton.mp hevent] at hoffset
    cases hoffset

/-- Cleared or kept, the slot is as delivered as the service was. -/
theorem release_feeds {s : Service} (hs : Feeding accepted stop s) (hlimits : rt.limits = limits)
    (hbound : limits.inputBytes < u64Size - 1 → accepted.length ≤ limits.inputBytes) :
    Feeds limits accepted stop false (release rt s).2 (eventsOf (release rt s).1) := by
  obtain ⟨-, hinput, hend⟩ := removeRoot_input s.os (invocationRoot rt s.active.id)
  unfold release
  rcases hremove : removeRoot s.os (invocationRoot rt s.active.id) with ⟨error | u, os1⟩
  · rw [hremove] at hinput hend
    exact ((hs.delivers.call hinput hend).fed hlimits hbound).feeds (offsets_of_error rfl)
  · rw [hremove] at hinput hend
    have hcalled := (hs.delivers.call hinput hend).fed hlimits hbound
    have hgone : Fed limits accepted stop ({ rt with active := none }, os1) :=
      ⟨hlimits, hbound, hcalled.sent, hcalled.stopped, hcalled.ended, fun a ha => (by cases ha)⟩
    refine hgone.feeds fun event hevent offset hoffset => ?_
    rw [hs.events event hevent] at hoffset
    cases hoffset

/-- **A poll** flushes the queue, and its barrier closes the pipe of a primary that has exited. -/
theorem poll_feeds (h : Fed limits accepted stop (rt, os)) :
    Feeds limits (accepted ++ []) stop false (poll sha256 (rt, os)).2 (eventsOf (poll sha256 (rt, os)).1) := by
  rw [List.append_nil]
  unfold poll
  cases hactive : rt.active with
  | none =>
    exact h.feeds fun _ hevent => absurd hevent List.not_mem_nil
  | some a =>
    dsimp only
    have hbegin : Feeding accepted stop { active := a, os := os } :=
      ⟨h.invocation a hactive, fun _ hevent => absurd hevent List.not_mem_nil⟩
    rcases hserve : serve sha256 rt.limits { active := a, os := os } with ⟨error | u, s⟩
    · exact ((serve_feeding hserve hbegin).delivers.fed h.limits_eq h.bound).feeds (offsets_of_error rfl)
    · have hs := serve_feeding hserve hbegin
      dsimp only
      split
      · exact release_feeds hs h.limits_eq h.bound
      · refine (hs.delivers.fed h.limits_eq h.bound).feeds fun event hevent offset hoffset => ?_
        rw [hs.events event hevent] at hoffset
        cases hoffset

/-- **Every operation on a started invocation.** -/
theorem perform_feeds {s : Runtime × Os} (h : Fed limits accepted stop s) (operation : Operation)
    (hongoing : operation.ongoing = true) : Feeds limits (accepted ++ acceptedInput operation s) stop
      (operation.terminates (operation.perform sha256 s).1) (operation.perform sha256 s).2
      (eventsOf (operation.perform sha256 s).1) := by
  cases operation with
  | start invocation identity => cases hongoing
  | stdinWrite invocation offset bytes => exact stdinWrite_feeds h invocation offset bytes
  | stdinEof invocation => exact stdinEof_feeds h invocation
  | terminate invocation => exact terminate_feeds h invocation
  | poll => exact poll_feeds h
  | shutdown => cases hongoing

end Operations

/-! ## Runs -/

/-- **Every run**, by induction on the operations. -/
theorem performAll_fed (sha256 : Sha256) {limits : RuntimeLimits} : ∀ (operations : List Operation)
    {accepted : Bytes} {stop : Option Bytes} {s : Runtime × Os}, Fed limits accepted stop s →
    (∀ operation ∈ operations, operation.ongoing = true) →
    ∃ stop', Fed limits (accepted ++ acceptedInputs sha256 operations s) stop' (performAll sha256 operations s).2 ∧
      stop'.isSome = (stop.isSome || wasTerminated sha256 operations s) ∧ ∀ taken, stop = some taken →
        stop' = some taken
  | [], accepted, stop, s, h, _ => by
    refine ⟨stop, ?_, (Bool.or_false _).symm, fun _ htaken => htaken⟩
    rw [acceptedInputs, List.append_nil]
    exact h
  | operation :: operations, accepted, stop, s, h, hongoing => by
    obtain ⟨hfirst, hrest⟩ := List.forall_mem_cons.mp hongoing
    obtain ⟨stop1, hfed, hends, hstays⟩ := (@perform_feeds sha256 limits accepted stop s h operation hfirst).fed
    obtain ⟨stop2, hfed2, hends2, hstays2⟩ := performAll_fed sha256 operations hfed hrest
    refine ⟨stop2, ?_, ?_, fun taken htaken => hstays2 taken (hstays taken htaken)⟩
    · rw [List.append_assoc] at hfed2
      exact hfed2
    · rw [hends2, hends, wasTerminated, Bool.or_assoc]

/-- A launch that succeeds makes new pipes. -/
theorem launch_fresh {rt rt' : Runtime} {os os' : Os} {invocation : Nat} {identity : LaunchIdentity}
    {event : Event} (h : launch rt os invocation identity = (.ok event, rt', os')) :
    (∃ pid, rt'.active = some { id := invocation, pid := pid }) ∧ os'.input = [] ∧ os'.inputEnd = none := by
  unfold launch at h
  dsimp only at h
  split at h
  · cases h
  · split at h
    · cases h
    · cases h
    · cases h
    · cases h
    · cases h
    · cases h
    · cases h
      exact ⟨⟨_, rfl⟩, rfl, rfl⟩

theorem accept_fresh {rt rt' : Runtime} {os os' : Os} {invocation : Nat} {identity : LaunchIdentity}
    {event : Event} (h : accept rt os invocation identity = (.ok event, rt', os')) :
    (∃ pid, rt'.active = some { id := invocation, pid := pid }) ∧ os'.input = [] ∧ os'.inputEnd = none := by
  unfold accept at h
  split at h
  · cases h
  · split at h
    · cases h
    · exact launch_fresh h

theorem startInner_fresh {rt rt' : Runtime} {os os' : Os} {invocation : Nat} {identity : LaunchIdentity}
    {event : Event} (h : startInner rt os invocation identity = (.ok event, rt', os')) :
    (∃ pid, rt'.active = some { id := invocation, pid := pid }) ∧ os'.input = [] ∧ os'.inputEnd = none := by
  unfold startInner at h
  split at h
  · exact accept_fresh h
  · split at h
    · exact accept_fresh h
    · cases h

/-- Behind a start that succeeded nothing was accepted yet. -/
theorem start_fed {s0 s : Runtime × Os} {invocation : Nat} {identity launched : LaunchIdentity}
    (h : start invocation identity s0 = (.ok [.workloadStarted invocation launched], s)) :
    Fed s.1.limits [] none s := by
  obtain ⟨rt, os⟩ := s
  unfold start at h
  split at h
  · rename_i event rt1 os1 hinner
    cases h
    obtain ⟨⟨pid, hactive⟩, hinput, hend⟩ := startInner_fresh hinner
    refine ⟨rfl, fun _ => Nat.zero_le _, ?_, fun _ hsome => (by cases hsome), fun bytes hbytes => ?_,
      fun a ha => ?_⟩
    · exact ⟨[], by rw [hinput]; rfl⟩
    · exact absurd (hend.symm.trans hbytes) (by simp)
    · obtain rfl : _ = a := Option.some.inj (hactive.symm.trans ha)
      refine ⟨rfl, rfl, ⟨[], by rw [hinput]; rfl⟩, fun _ => ?_, fun _ hsome => (by cases hsome),
        fun bytes hbytes => ?_, fun hshut => (by cases hshut)⟩
      · rw [hinput]
        rfl
      · exact absurd (hend.symm.trans hbytes) (by simp)
  · cases h

/-- **Stdin delivery**: behind any run of operations on a started invocation, whatever its pipe did, the child
got a first part of the accepted bytes, and the queue is the rest of them until a termination succeeds.  A limit of
`usize::MAX` is no limit: the saturating sum of `stdin_write` never exceeds it. -/
theorem performAll_delivers (sha256 : Sha256) {s0 s : Runtime × Os} {invocation : Nat}
    {identity launched : LaunchIdentity}
    (hstart : start invocation identity s0 = (.ok [.workloadStarted invocation launched], s))
    (operations : List Operation) (hongoing : ∀ operation ∈ operations, operation.ongoing = true) :
    let accepted := acceptedInputs sha256 operations s
    let s' := (performAll sha256 operations s).2
    s'.2.input <+: accepted ∧
      (s.1.limits.inputBytes < u64Size - 1 → accepted.length ≤ s.1.limits.inputBytes) ∧
      (∀ bytes, s'.2.inputEnd = some bytes → bytes = accepted) ∧
      (∀ a, s'.1.active = some a → a.inputOffset = accepted.length ∧
        (wasTerminated sha256 operations s = false → s'.2.input ++ a.pendingInput = accepted) ∧
        (a.stdin = false → wasTerminated sha256 operations s = true ∨ s'.2.inputEnd.isSome = true ∨
          a.exit.isSome = true)) ∧
      (∀ before operation after, operations = before ++ operation :: after →
        ∀ event ∈ eventsOf (operation.perform sha256 (performAll sha256 before s).2).1, ∀ offset,
          acceptedOffset event = some offset → offset = (acceptedInputs sha256 (before ++ [operation]) s).length) ∧
      ∀ before operation after, operations = before ++ operation :: after →
        operation.terminates (operation.perform sha256 (performAll sha256 before s).2).1 = true →
        s'.2.input = (operation.perform sha256 (performAll sha256 before s).2).2.2.input := by
  intro accepted s'
  have hbegin := start_fed hstart
  obtain ⟨stop, hfed, hends, -⟩ := performAll_fed sha256 operations hbegin hongoing
  rw [List.nil_append] at hfed
  refine ⟨hfed.sent, hfed.bound, hfed.ended, fun a ha => ?_, fun before operation after hsplit => ?_,
    fun before operation after hsplit hterminates => ?_⟩
  · have hdelivers := hfed.invocation a ha
    refine ⟨hdelivers.offset, fun hnever => hdelivers.queue ?_, fun hshut => ?_⟩
    · rw [hnever] at hends
      exact Option.isNone_iff_eq_none.mp (by rw [← Option.not_isSome, hends]; rfl)
    · obtain hstop | hrest := hdelivers.closed hshut
      · rw [hends] at hstop
        exact .inl hstop
      · exact .inr hrest
  · -- the operation answers from the state behind the earlier ones
    have hbefore : ∀ earlier ∈ before, earlier.ongoing = true := fun earlier hearlier =>
      hongoing earlier (by rw [hsplit]; exact List.mem_append_left _ hearlier)
    have hoperation : operation.ongoing = true := hongoing operation (by rw [hsplit]; simp)
    obtain ⟨stop1, hfed1, -, -⟩ := performAll_fed sha256 before hbegin hbefore
    have hfeeds := @perform_feeds sha256 _ _ _ _ hfed1 operation hoperation
    rw [acceptedInputs_append, acceptedInputs, acceptedInputs, List.append_nil]
    exact hfeeds.offsets
  · -- what follows the termination writes nothing
    have hbefore : ∀ earlier ∈ before, earlier.ongoing = true := fun earlier hearlier =>
      hongoing earlier (by rw [hsplit]; exact List.mem_append_left _ hearlier)
    have hoperation : operation.ongoing = true := hongoing operation (by rw [hsplit]; simp)
    have hafter : ∀ later ∈ after, later.ongoing = true := fun later hlater =>
      hongoing later (by rw [hsplit]; simp [hlater])
    obtain ⟨stop1, hfed1, -, -⟩ := performAll_fed sha256 before hbegin hbefore
    obtain ⟨stop2, hfed2, hends2, -⟩ := (@perform_feeds sha256 _ _ _ _ hfed1 operation hoperation).fed
    rw [hterminates, Bool.or_true, Option.isSome_iff_exists] at hends2
    obtain ⟨taken, rfl⟩ := hends2
    obtain ⟨stop3, hfed3, -, hstays⟩ := performAll_fed sha256 after hfed2 hafter
    have hfinal := hfed3.stopped taken (hstays taken rfl)
    rw [hfed2.stopped taken rfl, ← hfinal]
    show (performAll sha256 operations s).2.2.input = _
    rw [hsplit, performAll_append]
    rfl

/-- A pipe that takes two bytes at first. -/
def pipeOs : Os :=
  { launches := [.spawned 7], writes := [.accepted 2, .wouldBlock, .accepted 1, .interrupted, .accepted 9] }

/-- The state behind the start. -/
def pipeStarted : Runtime × Os := (start 1 slotLaunch ({ runtimeRoot := "/run" }, pipeOs)).2

def pipeOperations : List Operation := [.stdinWrite 1 0 "68656c6c6f", .poll, .stdinEof 1]

theorem performAll_delivers_sample :
    (performAll childSha256 pipeOperations pipeStarted).2.2.input <+:
      acceptedInputs childSha256 pipeOperations pipeStarted ∧
      (performAll childSha256 pipeOperations pipeStarted).2.2.inputEnd = some [104, 101, 108, 108, 111] := by
  have hstart : start 1 slotLaunch ({ runtimeRoot := "/run" }, pipeOs) =
      (.ok [.workloadStarted 1 slotLaunch], pipeStarted) := Prod.ext (by decide +kernel) rfl
  have hrun := performAll_delivers childSha256 hstart pipeOperations (by decide)
  exact ⟨hrun.1, by decide +kernel⟩

end SimFerret.Guest
