import SimFerret.Guest.Delivery

/-!
# SimFerret.Guest.Refusal — a primary that exits while input is queued

`poll` reaps, then writes, then drains; the primary can exit between any two of its calls.  A write to a pipe whose
readers are gone fails with `EPIPE`.

* `reaped`, `advance_eq`: a poll writes only when its first reap found no exit.
* `ExitsAfter`: when the primary exits, against the `waitpid` calls of the first reap.
* `FailsByWrite`: the poll returns the error of its write.
* `poll_refused_iff`: **a poll survives the refusal exactly when its first reap sees the exit**.
-/

namespace SimFerret.Guest

open Attempt

/-! ## The first reap -/

/-- The service behind the first reap of a poll. -/
def reaped (s : Service) : Service := if s.active.exit.isNone then (reapChildren s).2 else s

theorem advance_eq (limits : RuntimeLimits) (s : Service) : advance limits s =
    if (reaped s).active.exit.isNone then (do
      flushInput
      drainReady limits
      reapChildren : Serve Unit) (reaped s)
    else (.ok (), reaped s) := by
  have hrest : ∀ t : Service, (do
      if (← active).exit.isNone then
        flushInput
        drainReady limits
        reapChildren : Serve Unit) t = if t.active.exit.isNone then (do
          flushInput
          drainReady limits
          reapChildren : Serve Unit) t else (.ok (), t) := by
    intro t
    rw [bind_run]
    change (if t.active.exit.isNone = true then _ else _ : Serve Unit) t = _
    split
    · rfl
    · rfl
  unfold advance
  rw [bind_run]
  change (if s.active.exit.isNone = true then _ else _ : Serve Unit) s = _
  by_cases hnone : s.active.exit.isNone = true
  · rw [if_pos hnone, show reaped s = (reapChildren s).2 from if_pos hnone]
    exact hrest _
  · rw [if_neg hnone, show reaped s = s from if_neg hnone]
    exact hrest s

/-- The calls that a reap makes: those that return a child, and the one that ends the loop. -/
def reapCalls (waits : List (Int × WaitStatus)) : Nat :=
    (waits.takeWhile fun answer => decide (0 < answer.1)).length + 1

theorem recordReaped_pid (a : Invocation) (pid : Int)
    (status : WaitStatus) : (recordReaped a pid status).pid = a.pid := by
  obtain ⟨exit, heq, -⟩ := recordReaped_eq a pid status
  rw [heq]

/-- A reap that is not told of the primary records no exit. -/
theorem reapLoop_unseen : ∀ {waits : List (Int × WaitStatus)} {count : Nat} {a : Invocation},
    (∀ answer ∈ waits.takeWhile fun answer => decide (0 < answer.1), answer.1 ≠ a.pid) →
    (reapLoop waits count a).2.1.exit = a.exit
  | [], _, _, _ => rfl
  | (pid, status) :: waits, count, a, h => by
    unfold reapLoop
    split
    · rfl
    · rename_i hpid
      rw [List.takeWhile_cons_of_pos (by simpa using hpid)] at h
      obtain ⟨hfirst, hrest⟩ := List.forall_mem_cons.mp h
      have hsame : recordReaped a pid status = a := by
        unfold recordReaped
        rw [if_pos (.inl hfirst)]
      rw [hsame]
      exact reapLoop_unseen hrest

/-- A reap that is told of the primary's exit records it. -/
theorem reapLoop_seen : ∀ {waits : List (Int × WaitStatus)} {count : Nat} {a : Invocation} {status : WaitStatus},
    status ≠ .other → (a.pid, status) ∈ (waits.takeWhile fun answer => decide (0 < answer.1)) →
    (reapLoop waits count a).2.1.exit.isSome = true
  | [], _, _, _, _, h => absurd h List.not_mem_nil
  | (pid, first) :: waits, count, a, status, hstatus, h => by
    unfold reapLoop
    split
    · rename_i hpid
      rw [List.takeWhile_cons_of_neg (by simpa using hpid)] at h
      exact absurd h List.not_mem_nil
    · rename_i hpid
      rw [List.takeWhile_cons_of_pos (by simpa using hpid)] at h
      rcases List.mem_cons.mp h with hhead | htail
      · -- the exit is recorded now, or one was recorded before
        obtain ⟨-, exit, heq, hstays, -⟩ :=
          reapLoop_spec (Eq.refl (reapLoop waits (count + 1) (recordReaped a pid first)))
        have hsome : (recordReaped a pid first).exit.isSome = true := by
          cases hhead
          unfold recordReaped
          split
          · rename_i hor
            exact hor.resolve_left fun hne => hne rfl
          · cases first with
            | exited code => rfl
            | signaled signal => rfl
            | other => exact absurd rfl hstatus
        rw [heq]
        dsimp only
        rw [hstays hsome]
        exact hsome
      · refine reapLoop_seen hstatus ?_
        rw [recordReaped_pid]
        exact htail

/-! ## The interleaving -/

/-- The primary exits when `calls` of the `waitpid` calls of a poll were made: none of these returns it, and a
reap that is still running does not end before it was returned with its exit. -/
structure ExitsAfter (a : Invocation) (waits : List (Int × WaitStatus)) (calls : Nat) : Prop where
  unseen : ∀ answer ∈ waits.take calls, answer.1 ≠ a.pid
  seen : calls < reapCalls waits → ∃ status, status ≠ WaitStatus.other ∧
    (a.pid, status) ∈ (waits.takeWhile fun answer => decide (0 < answer.1)).drop calls

/-- The pipe refuses what is queued: the readers are gone when it is written. -/
def Refused (a : Invocation) (os : Os) : Prop :=
  a.stdin = true ∧ ∃ error, (flushLoop os.writes a.pendingInput).1 = .error error ∧ error.kind = .brokenPipe

/-- The poll makes the write that is refused and returns its error. -/
def FailsByWrite (sha256 : Sha256) (rt : Runtime) (os : Os) (a : Invocation) : Prop :=
  ∃ error, (flushLoop os.writes a.pendingInput).1 = .error error ∧ (poll sha256 (rt, os)).1 = .error error ∧
    (poll sha256 (rt, os)).2.2.writes = (flushLoop os.writes a.pendingInput).2.2

/-! ## The poll -/

section Poll

variable {sha256 : Sha256} {limits : RuntimeLimits} {rt : Runtime} {os : Os} {a : Invocation}

/-- What the first reap keeps. -/
theorem reaped_keeps (s : Service) : (reaped s).active.id = s.active.id ∧
    (reaped s).active.stdin = s.active.stdin ∧ (reaped s).active.pendingInput = s.active.pendingInput ∧
    (reaped s).active.cleanupComplete = s.active.cleanupComplete ∧ (reaped s).os.writes = s.os.writes := by
  unfold reaped
  split
  · obtain ⟨-, exit, heq, -⟩ := reapLoop_spec (Eq.refl (reapLoop s.os.waits 0 s.active))
    unfold reapChildren
    dsimp only
    rw [heq]
    exact ⟨rfl, rfl, rfl, rfl, rfl⟩
  · exact ⟨rfl, rfl, rfl, rfl, rfl⟩

/-- **The first reap sees the exit** exactly when it happened before the reap ended. -/
theorem reaped_exit {calls : Nat} (hexits : ExitsAfter a os.waits calls) :
    (reaped { active := a, os := os }).active.exit.isSome = true ↔
        a.exit.isSome = true ∨ calls < reapCalls os.waits := by
  unfold reaped
  cases hexit : a.exit with
  | some exit =>
    refine ⟨fun _ => .inl rfl, fun _ => ?_⟩
    rw [if_neg (by simp)]
    exact Option.isSome_of_eq_some hexit
  | none =>
    rw [if_pos (by rfl)]
    show (reapLoop os.waits 0 a).2.1.exit.isSome = true ↔ _
    constructor
    · intro hsome
      refine .inr (by_contra fun hlate => ?_)
      have hunseen := @reapLoop_unseen os.waits 0 a fun answer hanswer => by
        refine hexits.unseen answer ?_
        have hpre := List.takeWhile_prefix (fun answer : Int × WaitStatus => decide (0 < answer.1)) (l := os.waits)
        have htake := List.prefix_iff_eq_take.mp hpre
        rw [htake] at hanswer
        refine List.take_subset_take_left _ ?_ hanswer
        unfold reapCalls at hlate
        omega
      rw [hunseen, hexit] at hsome
      cases hsome
    · rintro (hsome | hearly)
      · cases hsome
      · obtain ⟨status, hstatus, hmem⟩ := hexits.seen hearly
        exact reapLoop_seen hstatus (List.mem_of_mem_drop hmem)

/-- The service of an invocation whose exit the first reap saw is the cleanup. -/
theorem serve_exited {s : Service} (h : (reaped s).active.exit.isSome = true) : serve sha256 limits s =
    if (reaped s).active.cleanupComplete then (.ok (), reaped s) else cleanup sha256 limits (reaped s) := by
  have hadvance : advance limits s = (.ok (), reaped s) := by
    rw [advance_eq, if_neg (by rw [Option.isNone_iff_eq_none]; exact Option.isSome_iff_ne_none.mp h)]
  unfold serve
  rw [bind_run, hadvance]
  dsimp only
  rw [bind_run]
  change (if ((reaped s).active.exit.isSome && !(reaped s).active.cleanupComplete) = true then
    _ else _ : Serve Unit) (reaped s) = _
  rw [h, Bool.true_and]
  cases (reaped s).active.cleanupComplete with
  | true => rfl
  | false => rfl

/-- Otherwise a refused write ends it. -/
theorem serve_refused {s : Service} (h : (reaped s).active.exit.isSome = false) {error : IoError}
    (hopen : s.active.stdin = true) (hrefused : (flushLoop s.os.writes s.active.pendingInput).1 = .error error) :
    ∃ s', serve sha256 limits s = (.error error, s') ∧
      s'.os.writes = (flushLoop s.os.writes s.active.pendingInput).2.2 := by
  obtain ⟨-, hstdin, hpending, -, hwrites⟩ := reaped_keeps s
  have hflush : (flushInput (reaped s)).1 = .error error ∧
      (flushInput (reaped s)).2.os.writes = (flushLoop s.os.writes s.active.pendingInput).2.2 := by
    unfold flushInput
    rw [hstdin, hopen, hpending, hwrites]
    exact ⟨hrefused, rfl⟩
  refine ⟨(flushInput (reaped s)).2, ?_, hflush.2⟩
  have hrun : flushInput (reaped s) = (.error error, (flushInput (reaped s)).2) := Prod.ext hflush.1 rfl
  have hadvance : advance limits s = (.error error, (flushInput (reaped s)).2) := by
    rw [advance_eq, if_pos (by rw [← Option.not_isSome, h]; rfl), bind_run, hrun]
  unfold serve
  rw [bind_run, hadvance]

/-- An error of the loop is the answer to a write. -/
theorem flushLoop_error : ∀ {writes : List WriteAnswer} {pending : Bytes} {error : IoError},
    (flushLoop writes pending).1 = .error error → (flushLoop writes pending).2.2.length < writes.length
  | writes, [], error, h => by
    rw [flushLoop] at h
    cases h
  | [], byte :: pending, error, h => by cases h
  | answer :: writes, byte :: pending, error, h => by
    cases answer with
    | interrupted =>
      have ih := @flushLoop_error writes (byte :: pending) error h
      exact ih.trans (Nat.lt_succ_self writes.length)
    | wouldBlock => cases h
    | failure error => exact Nat.lt_succ_self _
    | accepted count =>
      cases count with
      | zero => exact Nat.lt_succ_self _
      | succ count =>
        have hstep : flushLoop (.accepted (count + 1) :: writes) (byte :: pending) =
            flushLoop writes ((byte :: pending).drop (count + 1)) := by
          rw [flushLoop]
          all_goals simp
        rw [hstep] at h ⊢
        exact (flushLoop_error h).trans (Nat.lt_succ_self _)

/-- A closed pipe is not written to. -/
theorem invariant_unwritten (limits : RuntimeLimits) (writes : List WriteAnswer) (id : Nat) :
    Invariant limits fun s => s.active.stdin = false ∧ s.os.writes = writes ∧ s.active.id = id where
  os _ _ heq hs := ⟨hs.1, heq.writes.trans hs.2.1, hs.2.2⟩
  flush s hs := by
    rw [(flushInput_delivers s).shut hs.1]
    exact hs
  eof _ stream hs := by
    cases stream <;> exact hs
  output _ stream _ _ _ hs := by
    cases stream <;> exact hs
  reap _ _ _ _ _ hs := hs

/-- The cleanup of an exit writes nothing to the child. -/
theorem cleanup_writes {s s' : Service} {r : IoResult Unit} (h : cleanup sha256 limits s = (r, s')) :
    s'.os.writes = s.os.writes ∧ (s.active.cleanupComplete = false → r = .ok () →
      ∃ event ∈ s'.events, exitedIn event = some s.active.id) := by
  have hclean := (invariant_unwritten limits s.os.writes s.active.id).cleanup sha256 h ⟨rfl, rfl, rfl⟩
  cases hclean with
  | already hcomplete => exact ⟨rfl, fun hnot => absurd (hnot.symm.trans hcomplete) (by simp)⟩
  | failed error _ _ hs => exact ⟨hs.2.1, fun _ hok => by cases hok⟩
  | completed s1 exit _ hs1 _ =>
    exact ⟨hs1.2.1, fun _ _ => ⟨_, List.mem_append_right _ List.mem_cons_self, congrArg some hs1.2.2⟩⟩

theorem poll_of_serve {s : Service} {r : IoResult Unit} (hactive : rt.active = some a)
    (h : serve sha256 rt.limits { active := a, os := os } = (r, s)) :
    (poll sha256 (rt, os)).2.2.writes = s.os.writes ∧ (∀ error, r = .error error →
      (poll sha256 (rt, os)).1 = .error error) ∧
      ∀ events, (poll sha256 (rt, os)).1 = .ok events → r = .ok () ∧ events = s.events := by
  unfold poll
  rw [hactive]
  dsimp only
  rw [h]
  cases r with
  | error error =>
    refine ⟨rfl, fun other heq => ?_, fun events hok => ?_⟩
    · cases heq
      rfl
    · cases hok
  | ok u =>
    dsimp only
    split
    · obtain ⟨hwrites, -⟩ := removeRoot_input s.os (invocationRoot rt s.active.id)
      unfold release
      rcases hremove : removeRoot s.os (invocationRoot rt s.active.id) with ⟨error | u, os1⟩
      · rw [hremove] at hwrites
        refine ⟨hwrites, fun other heq => ?_, fun events hok => ?_⟩
        · cases heq
        · cases hok
      · rw [hremove] at hwrites
        refine ⟨hwrites, fun other heq => ?_, fun events hok => ⟨rfl, (Except.ok.inj hok).symm⟩⟩
        cases heq
    · refine ⟨rfl, fun other heq => ?_, fun events hok => ⟨rfl, (Except.ok.inj hok).symm⟩⟩
      cases heq

end Poll

/-- The poll does not fail because of its write, and reports the exit through the cleanup barrier. -/
def SurvivesExit (sha256 : Sha256) (rt : Runtime) (os : Os) (a : Invocation) : Prop :=
  ¬ FailsByWrite sha256 rt os a ∧ (a.cleanupComplete = false → ∀ events, (poll sha256 (rt, os)).1 = .ok events →
    ∃ event ∈ events, exitedIn event = some a.id)

/-- **A primary that exits with queued input** is reported by the poll exactly when its exit was recorded
before, or it happens before the first reap of the poll ends. -/
theorem poll_refused_iff (sha256 : Sha256) {rt : Runtime} {os : Os} {a : Invocation} {calls : Nat}
    (hactive : rt.active = some a) (hexits : ExitsAfter a os.waits calls) (hrefused : Refused a os) :
    SurvivesExit sha256 rt os a ↔ a.exit.isSome = true ∨ calls < reapCalls os.waits := by
  obtain ⟨hopen, error, herror, -⟩ := hrefused
  rw [← reaped_exit hexits]
  obtain ⟨hid, -, -, hcomplete, hwrites⟩ := reaped_keeps { active := a, os := os }
  constructor
  · intro hsurvives
    by_contra hnot
    rw [Bool.not_eq_true] at hnot
    obtain ⟨s, hserve, hconsumed⟩ := @serve_refused sha256 rt.limits { active := a, os := os } hnot error
      hopen herror
    obtain ⟨hpoll, hfails, -⟩ := poll_of_serve hactive hserve
    exact hsurvives.1 ⟨error, herror, hfails error rfl, hpoll.trans hconsumed⟩
  · intro hexit
    have hserve := @serve_exited sha256 rt.limits { active := a, os := os } hexit
    rcases hrun : serve sha256 rt.limits { active := a, os := os } with ⟨r, s⟩
    obtain ⟨hpoll, -, hok⟩ := poll_of_serve hactive hrun
    rw [hrun] at hserve
    have hkept : s.os.writes = os.writes ∧ (a.cleanupComplete = false → r = .ok () →
        ∃ event ∈ s.events, exitedIn event = some a.id) := by
      rw [← hid]
      split at hserve
      · rename_i hdone
        cases hserve
        rw [hcomplete] at hdone
        exact ⟨hwrites, fun hnot => absurd (hnot.symm.trans hdone) (by simp)⟩
      · obtain ⟨hsame, hreports⟩ := cleanup_writes hserve.symm
        exact ⟨hsame.trans hwrites, fun hnot => hreports (hcomplete.trans hnot)⟩
    refine ⟨?_, fun hnot events hevents => ?_⟩
    · -- no answer to a write was used up
      rintro ⟨other, hother, -, hconsumed⟩
      have hlt := flushLoop_error hother
      rw [← hconsumed, hpoll, hkept.1] at hlt
      exact absurd hlt (Nat.lt_irrefl _)
    · obtain ⟨hr, heq⟩ := hok events hevents
      rw [heq]
      exact hkept.2 hnot hr

/-- An invocation with one queued byte. -/
def queuedInvocation : Invocation := { id := 1, pid := 7, pendingInput := [120] }

/-- The primary exits, and its end of the pipe closes, before the poll. -/
def exitedOs : Os :=
  { waits := [(7, .exited 0)], writes := [.failure ⟨.brokenPipe, "Broken pipe (os error 32)"⟩]
    reads := [.endOfFile, .endOfFile] }

/-- The primary exits, and its end of the pipe closes, between the first reap of the poll and its write. -/
def racedOs : Os :=
  { waits := [(0, .other), (7, .exited 0)], writes := [.failure ⟨.brokenPipe, "Broken pipe (os error 32)"⟩] }

theorem poll_refused_iff_sample :
    SurvivesExit childSha256 { runtimeRoot := "/run", active := some queuedInvocation } exitedOs
        queuedInvocation := by
  have hexits : ExitsAfter queuedInvocation exitedOs.waits 0 :=
    ⟨fun _ h => absurd h List.not_mem_nil, fun _ => ⟨.exited 0, by decide, by decide⟩⟩
  exact (poll_refused_iff childSha256 rfl hexits ⟨rfl, _, rfl, rfl⟩).mpr (.inr (by decide))

/-- **The poll takes the exit for a failure of the infrastructure.** -/
theorem poll_loses_exit : queuedInvocation.exit = none ∧ ExitsAfter queuedInvocation racedOs.waits 1 ∧
    Refused queuedInvocation racedOs ∧
    (poll childSha256 ({ runtimeRoot := "/run", active := some queuedInvocation }, racedOs)).1 =
      .error ⟨.brokenPipe, "Broken pipe (os error 32)"⟩ ∧
    ¬ SurvivesExit childSha256 { runtimeRoot := "/run", active := some queuedInvocation } racedOs
        queuedInvocation := by
  have hfails : (poll childSha256 ({ runtimeRoot := "/run", active := some queuedInvocation }, racedOs)).1 =
      .error ⟨.brokenPipe, "Broken pipe (os error 32)"⟩ := by decide +kernel
  refine ⟨rfl, ⟨by decide, fun h => absurd h (by decide)⟩, ⟨rfl, _, rfl, rfl⟩, hfails, fun hsurvives => ?_⟩
  exact hsurvives.1 ⟨_, rfl, hfails, by decide +kernel⟩

end SimFerret.Guest
