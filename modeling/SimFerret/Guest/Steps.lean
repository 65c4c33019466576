import SimFerret.Guest.Agent

/-!
# SimFerret.Guest.Steps — the steps of a service

A service of an invocation, whether it returns or fails, is made of five kinds of steps.

* `Invariant`: a property of services that each of these steps keeps.
* `Invariant.advance`, `Invariant.barrierLoop`: the loops keep it too, by induction on what the calls return.
* `Invariant.cleanup`, `Invariant.serve`: so does a service, unless it completes the cleanup.
-/

namespace SimFerret.Guest

open Attempt

/-- No root is removed and nothing is written to the child. -/
structure Untouched (os os' : Os) : Prop where
  roots : os'.roots = os.roots
  writes : os'.writes = os.writes
  input : os'.input = os.input
  inputEnd : os'.inputEnd = os.inputEnd

/-- A property that every step of a service keeps. -/
structure Invariant (limits : RuntimeLimits) (P : Service → Prop) : Prop where
  /-- Any other call of the operating system. -/
  os : ∀ (s : Service) (os : Os), Untouched s.os os → P s → P { s with os := os }
  /-- Input written to the child; its pipe may be closed behind it. -/
  flush : ∀ s : Service, P s → P (flushInput s).2
  eof : ∀ (s : Service) (stream : OutputStream), P s →
    P { s with active := s.active.setState stream { s.active.state stream with eof := true } }
  output : ∀ (s : Service) (stream : OutputStream) (buffer : Bytes), buffer.length ≤ limits.outputFrameBytes →
    saturatingAdd (s.active.state stream).bytes buffer.length ≤ limits.outputBytes → P s →
    P { s with
      active := takeOutput s.active stream buffer
      events := s.events ++ [outputEvent s.active stream buffer] }
  /-- Some children reaped; a recorded exit stays and a new one is that of a reaped child. -/
  reap : ∀ (s : Service) (exit : Option ProcessExit) (count : Nat),
    (s.active.exit.isSome = true → exit = s.active.exit) →
    (exit.isSome = true → s.active.exit.isSome = true ∨ 0 < count) → P s →
    P { s with active := { s.active with exit := exit, reaped := s.active.reaped + count } }

/-- The write end of the input pipe is dropped. -/
def Service.closeInput (s : Service) : Service := { s with active := { s.active with stdin := false } }

/-- What a flush of the input changes. -/
theorem flushInput_eq (s : Service) : ∃ pending stdin os, (flushInput s).2 =
    { s with active := { s.active with pendingInput := pending, stdin := stdin }, os := os } ∧
      os.roots = s.os.roots := by
  unfold flushInput
  split
  · exact ⟨s.active.pendingInput, s.active.stdin, s.os, rfl, rfl⟩
  · exact ⟨_, _, _, rfl, rfl⟩

/-- The computation keeps the property, whether it returns or fails. -/
def Keeps (P : Service → Prop) {α : Type} (x : Serve α) : Prop := Along (fun s s' => P s → P s') x

section Keeps

variable {limits : RuntimeLimits} {P : Service → Prop} {α β : Type}

theorem Keeps.bind {x : Serve α} {f : α → Serve β} (hx : Keeps P x) (hf : ∀ a, Keeps P (f a)) :
    Keeps P (x >>= f) :=
  Along.bind (fun h h' hs => h' (h hs)) hx hf

theorem Keeps.pure (a : α) : Keeps P (pure a : Serve α) := Along.pure (fun _ => id) a

theorem Keeps.throw (error : IoError) : Keeps P (throw error : Serve α) := Along.throw (fun _ => id) error

theorem keeps_active : Keeps P active := fun _ => id

namespace Invariant

variable (hP : Invariant limits P)
include hP

theorem flushInput : Keeps P flushInput := hP.flush

theorem pollOnce : Keeps P pollOnce := fun s hs => hP.os s _ ⟨rfl, rfl, rfl, rfl⟩ hs

theorem signalMembers : Keeps P signalMembers := fun s hs => hP.os s _ ⟨rfl, rfl, rfl, rfl⟩ hs

theorem membersRemain : Keeps P membersRemain := fun s hs => hP.os s _ ⟨rfl, rfl, rfl, rfl⟩ hs

theorem waitForOutput : Keeps P waitForOutput := by
  intro s hs
  unfold Guest.waitForOutput
  dsimp only
  split
  · exact hP.os s _ ⟨rfl, rfl, rfl, rfl⟩ hs
  · exact hs

/-! ### Output -/

/-- **The drain loop**, by induction on the reads. -/
theorem drainLoop {stream : OutputStream} {maxFrames maxBytes : Nat} {os : Os} :
    ∀ {reads reads' : List ReadAnswer} {drained size : Nat} {a a' : Invocation} {events events' : List Event}
      {r : IoResult (Nat × Nat)},
    Guest.drainLoop limits stream maxFrames maxBytes reads drained size a events = (r, a', events', reads') →
    P ⟨a, os, events⟩ → P ⟨a', os, events'⟩ := by
  intro reads
  induction reads with
  | nil =>
    intro reads' drained size a a' events events' r h hs
    unfold Guest.drainLoop at h
    split at h <;> cases h <;> exact hs
  | cons answer reads ih =>
    intro reads' drained size a a' events events' r h hs
    unfold Guest.drainLoop at h
    split at h
    · cases answer with
      | interrupted => exact ih h hs
      | wouldBlock =>
        cases h
        exact hs
      | failure error =>
        cases h
        exact hs
      | endOfFile =>
        cases h
        exact hP.eof ⟨a, os, events⟩ stream hs
      | data bytes =>
        dsimp only at h
        split at h
        · cases h
          exact hP.eof ⟨a, os, events⟩ stream hs
        · split at h
          · cases h
            exact hs
          · rename_i hbound
            refine ih h (hP.output ⟨a, os, events⟩ stream _ ?_ (Nat.not_lt.mp hbound) hs)
            exact (List.length_take_le _ bytes).trans (Nat.min_le_left _ _)
    · cases h
      exact hs

theorem drainStream (stream : OutputStream) (maxFrames maxBytes : Nat) :
    Keeps P (drainStream limits stream maxFrames maxBytes) := by
  intro s hs
  unfold Guest.drainStream
  split
  · exact hs
  · split
    · exact hP.eof s stream hs
    · exact hP.os _ _ (by exact ⟨rfl, rfl, rfl, rfl⟩) (hP.drainLoop rfl hs)

theorem drainTurn (stream : OutputStream) (frames bytes : Nat) :
    Keeps P (drainTurn limits stream frames bytes) := by
  unfold Guest.drainTurn
  dsimp only
  split
  · exact Keeps.pure _
  · exact (hP.drainStream _ _ _).bind fun _ => Keeps.pure _

theorem batchLoop : ∀ rounds frames bytes, Keeps P (batchLoop limits rounds frames bytes)
  | 0, _, _ => Keeps.pure _
  | rounds + 1, frames, bytes => by
    unfold Guest.batchLoop
    refine (hP.drainTurn _ _ _).bind fun first => ?_
    cases first with
    | none => exact Keeps.pure _
    | some first =>
      refine (hP.drainTurn _ _ _).bind fun second => ?_
      cases second with
      | none => exact Keeps.pure _
      | some second =>
        dsimp only
        split
        · exact Keeps.pure _
        · exact batchLoop rounds second.1 second.2

theorem drainBatch : Keeps P (drainBatch limits) := hP.batchLoop _ _ _

theorem drainReady : Keeps P (drainReady limits) := by
  refine keeps_active.bind fun a => ?_
  split
  · refine hP.pollOnce.bind fun ready => ?_
    split
    · exact Keeps.pure _
    · exact hP.drainBatch
  · exact hP.drainBatch

end Invariant

/-! ### Children -/

theorem recordReaped_eq (a : Invocation) (pid : Int) (status : WaitStatus) :
    ∃ exit, recordReaped a pid status = { a with exit := exit } ∧ (a.exit.isSome = true → exit = a.exit) := by
  unfold recordReaped
  split
  · exact ⟨a.exit, rfl, fun _ => rfl⟩
  · rename_i h
    rw [not_or] at h
    cases status
    · exact ⟨_, rfl, fun hsome => absurd hsome h.2⟩
    · exact ⟨_, rfl, fun hsome => absurd hsome h.2⟩
    · exact ⟨_, rfl, fun hsome => absurd hsome h.2⟩

/-- **The reap loop** changes only the exit, and an exit that it records is one of the children it counted. -/
theorem reapLoop_spec : ∀ {waits waits' : List (Int × WaitStatus)} {count count' : Nat} {a a' : Invocation},
    reapLoop waits count a = (count', a', waits') →
      count ≤ count' ∧ ∃ exit, a' = { a with exit := exit } ∧ (a.exit.isSome = true → exit = a.exit) ∧
        (exit.isSome = true → a.exit.isSome = true ∨ count < count')
  | [], _, count, count', a, a', h => by
    cases h
    exact ⟨Nat.le_refl _, a.exit, rfl, fun _ => rfl, .inl⟩
  | (pid, status) :: waits, waits', count, count', a, a', h => by
    unfold reapLoop at h
    split at h
    · cases h
      exact ⟨Nat.le_refl _, a.exit, rfl, fun _ => rfl, .inl⟩
    · obtain ⟨exit, heq, hkeep⟩ := recordReaped_eq a pid status
      rw [heq] at h
      obtain ⟨hle, final, hfinal, hstays, -⟩ := reapLoop_spec h
      refine ⟨(Nat.le_succ count).trans hle, final, hfinal, fun hsome => ?_, fun _ => .inr hle⟩
      have hexit := hkeep hsome
      exact (hstays (by dsimp only; rw [hexit]; exact hsome)).trans hexit

namespace Invariant

variable (hP : Invariant limits P)
include hP

theorem reapChildren : Keeps P reapChildren := by
  intro s hs
  obtain ⟨-, exit, heq, hstays, hexit⟩ := reapLoop_spec (Eq.refl (reapLoop s.os.waits 0 s.active))
  unfold Guest.reapChildren
  dsimp only
  rw [heq]
  exact hP.os _ _ (by exact ⟨rfl, rfl, rfl, rfl⟩) (hP.reap s exit _ hstays hexit hs)

/-! ### The cleanup barrier -/

theorem barrierRound : Keeps P (barrierRound limits) := by
  refine hP.signalMembers.bind fun _ => hP.reapChildren.bind fun _ => hP.drainBatch.bind fun _ => ?_
  exact hP.membersRemain.bind fun _ => keeps_active.bind fun _ => Keeps.pure _

/-- **The cleanup barrier**, by induction on the answers of its deadline. -/
theorem barrierLoop : ∀ deadlines, Keeps P (barrierLoop limits deadlines)
  | [] => by
    refine hP.barrierRound.bind fun complete => ?_
    split
    · exact Keeps.pure _
    · exact Keeps.throw _
  | ahead :: deadlines => by
    refine hP.barrierRound.bind fun complete => ?_
    split
    · exact Keeps.pure _
    · refine Keeps.bind (fun s hs => hP.os s _ ⟨rfl, rfl, rfl, rfl⟩ hs) fun _ => ?_
      split
      · exact Keeps.throw _
      · exact hP.waitForOutput.bind fun _ => barrierLoop deadlines

theorem advance : Keeps P (advance limits) := by
  have hrest : Keeps P (do
      if (← active).exit.isNone then
        Guest.flushInput
        Guest.drainReady limits
        Guest.reapChildren) := by
    refine keeps_active.bind fun a => ?_
    split
    · exact hP.flushInput.bind fun _ => hP.drainReady.bind fun _ => hP.reapChildren
    · exact Keeps.pure _
  refine keeps_active.bind fun a => ?_
  dsimp only
  split
  · exact hP.reapChildren.bind fun _ => hrest
  · exact hrest

/-- A service that ran the cleanup: it was complete before, it failed, or it completed now. -/
inductive Cleaned (sha256 : Sha256) (P : Service → Prop) (s : Service) : IoResult Unit → Service → Prop
  | already : s.active.cleanupComplete = true → Cleaned sha256 P s (.ok ()) s
  | failed (error : IoError) (s' : Service) : s.active.cleanupComplete = false → P s' →
    Cleaned sha256 P s (.error error) s'
  | completed (s1 : Service) (exit : ProcessExit) : s.active.cleanupComplete = false → P s1 →
      s1.active.exit = some exit → Cleaned sha256 P s (.ok ()) (s1.complete sha256 exit)

theorem barrier {s : Service} (hclosed : P s.closeInput) : P (barrier limits s).2 := by
  have hrest : Keeps P (do
      let s ← get
      Guest.barrierLoop limits s.os.deadlines
      Guest.reapChildren) := by
    exact Keeps.bind (fun s hs => hs) fun t => (hP.barrierLoop _).bind fun _ => hP.reapChildren
  exact hrest s.closeInput hclosed

/-- **The cleanup** of an invocation. -/
theorem cleanup (sha256 : Sha256) {s s' : Service} {r : IoResult Unit} (h : cleanup sha256 limits s = (r, s'))
    (hclosed : P s.closeInput) : Cleaned sha256 P s r s' := by
  unfold Guest.cleanup at h
  rw [bind_run] at h
  change (if s.active.cleanupComplete = true then _ else _ : Serve Unit) s = _ at h
  split at h
  · rename_i hcomplete
    cases h
    exact .already hcomplete
  · rename_i hnot
    rw [Bool.not_eq_true] at hnot
    rw [bind_run] at h
    have hs1 := hP.barrier hclosed
    rcases hb : Guest.barrier limits s with ⟨_ | u, s1⟩
    · rw [hb] at h hs1
      cases h
      exact .failed _ _ hnot hs1
    · rw [hb] at h hs1
      dsimp only at h
      rw [bind_run, show active s1 = (.ok s1.active, s1) from rfl] at h
      cases hexit : s1.active.exit with
      | none =>
        simp only [hexit] at h
        cases h
        exact .failed _ _ hnot hs1
      | some exit =>
        simp only [hexit] at h
        cases h
        exact .completed s1 exit hnot hs1 hexit

/-- **The service of a live invocation** keeps the property, or runs the cleanup from a state that has it. -/
theorem serve (sha256 : Sha256) {s s' : Service} {r : IoResult Unit}
    (h : serve sha256 limits s = (r, s')) (hs : P s)
    (hclose : ∀ s : Service, s.active.exit.isSome = true → P s → P s.closeInput) :
    P s' ∨ ∃ s1, P s1 ∧ s1.active.exit.isSome = true ∧ Cleaned sha256 P s1 r s' := by
  unfold Guest.serve at h
  rw [bind_run] at h
  rcases ha : Guest.advance limits s with ⟨_ | u, s1⟩
  · rw [ha] at h
    cases h
    exact .inl (hP.advance.of_run ha hs)
  · have hs1 := hP.advance.of_run ha hs
    rw [ha] at h
    dsimp only at h
    rw [bind_run] at h
    change (if (s1.active.exit.isSome && !s1.active.cleanupComplete) = true then _ else _ : Serve Unit) s1 = _ at h
    split at h
    · rename_i hexit
      rw [Bool.and_eq_true] at hexit
      exact .inr ⟨s1, hs1, hexit.1, hP.cleanup sha256 h (hclose s1 hexit.1 hs1)⟩
    · cases h
      exact .inl hs1

end Invariant

end Keeps

end SimFerret.Guest
