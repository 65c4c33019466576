import SimFerret.Guest.Contract
import SimFerret.Guest.Steps

/-!
# SimFerret.Guest.Service — the service of an invocation keeps the contract

The events that one service collects are emitted behind it, all for the last command received, so `log` is what the
checker will have seen once they are.

* `Tracks`: the log is lawful and the invocation is in step with it.
* `invariant_tracks`: every step of a service keeps this.
* `serve_tracks`: a service keeps the invocation in step, or completes its cleanup.
-/

namespace SimFerret.Guest

open Checker WorkloadTrace Attempt

/-! ## The frames of a list of events -/

/-- The frames of events emitted one after another for one command. -/
def framesOf (command : Nat) : Nat → List Event → List EventFrame
  | _, [] => []
  | next, event :: events => eventFrame next command event :: framesOf command (next + 1) events

theorem length_framesOf (command : Nat) : ∀ (next : Nat) (events : List Event),
    (framesOf command next events).length = events.length
  | _, [] => rfl
  | next, _ :: events => congrArg (· + 1) (length_framesOf command (next + 1) events)

theorem framesOf_append (command : Nat) : ∀ (next : Nat) (events more : List Event),
    framesOf command next (events ++ more) = framesOf command next events ++
      framesOf command (next + events.length) more
  | next, [], more => by simp [framesOf]
  | next, event :: events, more => by
    have ih := framesOf_append command (next + 1) events more
    rw [List.length_cons, show next + (events.length + 1) = next + 1 + events.length by omega]
    exact congrArg (eventFrame next command event :: ·) ih

theorem event_mem_of_mem_framesOf {command : Nat} {f : EventFrame} : ∀ {next : Nat} {events : List Event},
    f ∈ framesOf command next events → f.event ∈ events
  | _, [], h => absurd h List.not_mem_nil
  | next, event :: events, h => by
    rcases List.mem_cons.mp h with rfl | h
    · exact List.mem_cons_self
    · exact List.mem_cons_of_mem _ (event_mem_of_mem_framesOf h)

/-- The frames emitted so far, and those of the events behind them. -/
def log (base : List EventFrame) (command : Nat) (events : List Event) : List EventFrame :=
  base ++ framesOf command (base.length + 1) events

theorem length_log (base : List EventFrame) (command : Nat) (events : List Event) :
    (log base command events).length = base.length + events.length := by
  rw [log, List.length_append, length_framesOf]

theorem log_nil (base : List EventFrame) (command : Nat) : log base command [] = base := List.append_nil _

theorem log_append (base : List EventFrame) (command : Nat) (events more : List Event) :
    log base command (events ++ more) =
      log base command events ++ framesOf command ((log base command events).length + 1) more := by
  rw [log, framesOf_append, length_log, log, List.append_assoc, Nat.add_right_comm]

/-! ## Operations of one service -/

section Service

variable (sha256 : Sha256) (limits : RuntimeLimits) (base : List EventFrame) (command : Nat)

/-- The log is lawful, and the invocation is in step with it. -/
structure InStep (a : Invocation) (events : List Event) : Prop where
  lawful : Lawful sha256 command (log base command events)
  follows : Follows limits command (log base command events) a
  caused : ∀ event ∈ events, Caused [] false event

/-- The invocation is in step as long as the event identifiers fit in their machine type. -/
def Tracks (s : Service) : Prop :=
  (log base command s.events).length < u64Size → InStep sha256 limits base command s.active s.events

variable {sha256 limits base command}

/-- A step that emits nothing and changes nothing that the checker sees. -/
theorem Tracks.agrees {s s' : Service} (h : Tracks sha256 limits base command s) (hevents : s'.events = s.events)
    (hagree : Agrees s.active s'.active) : Tracks sha256 limits base command s' := by
  intro hlen
  rw [hevents] at hlen ⊢
  have hs := h hlen
  exact ⟨hs.lawful, hs.follows.agrees hagree, hs.caused⟩

theorem Agrees.refl (a : Invocation) : Agrees a a :=
  ⟨rfl, fun _ => ⟨rfl, rfl, rfl⟩, rfl, rfl, rfl, rfl, rfl, rfl, rfl, fun h => h⟩

/-- Whether a stream is at its end is the agent's own business. -/
theorem agrees_eof (a : Invocation) (stream : OutputStream) :
    Agrees a (a.setState stream { a.state stream with eof := true }) := by
  refine ⟨?_, fun other => ?_, ?_, ?_, ?_, ?_, ?_, ?_, ?_, ?_⟩
  case refine_2 => cases stream <;> cases other <;> exact ⟨rfl, rfl, rfl⟩
  case refine_10 => cases stream <;> exact id
  all_goals cases stream <;> rfl

theorem flushInput_agrees (s : Service) : Agrees s.active (flushInput s).2.active := by
  unfold flushInput
  split
  · exact Agrees.refl _
  · exact ⟨rfl, fun stream => by cases stream <;> exact ⟨rfl, rfl, rfl⟩, rfl, rfl, rfl, rfl, rfl, rfl, rfl, id⟩

theorem agrees_flush (a : Invocation) (pending : Bytes) (stdin : Bool) :
    Agrees a { a with pendingInput := pending, stdin := stdin } :=
  ⟨rfl, fun stream => by cases stream <;> exact ⟨rfl, rfl, rfl⟩, rfl, rfl, rfl, rfl, rfl, rfl, rfl, fun h => h⟩

theorem agrees_reap (a : Invocation) (exit : Option ProcessExit) (count : Nat)
    (hexit : exit.isSome = true → a.exit.isSome = true ∨ 0 < count) :
    Agrees a { a with exit := exit, reaped := a.reaped + count } := by
  refine ⟨rfl, fun stream => ?_, rfl, rfl, rfl, rfl, rfl, rfl, rfl, fun hold hsome => ?_⟩
  · cases stream <;> exact ⟨rfl, rfl, rfl⟩
  · rcases hexit hsome with h | h
    · exact Nat.le_add_right_of_le (hold h)
    · exact Nat.le_trans h (Nat.le_add_left _ _)

/-- An output frame is emitted in step with the invocation. -/
theorem Tracks.output (hlimits : limits.Valid) (hcommand : 1 ≤ command) {s : Service} {stream : OutputStream}
    {buffer : Bytes} (hbuffer : buffer.length ≤ limits.outputFrameBytes)
    (hbound : saturatingAdd (s.active.state stream).bytes buffer.length ≤ limits.outputBytes)
    (hs : Tracks sha256 limits base command s) : Tracks sha256 limits base command { s with
      active := takeOutput s.active stream buffer, events :=
        s.events ++ [outputEvent s.active stream buffer] } := by
  intro hlen
  rw [length_log, List.length_append, List.length_singleton] at hlen
  have hstep := hs (by rw [length_log]; exact Nat.lt_of_succ_lt hlen)
  have hout := hlimits.output
  have hbytes : (s.active.state stream).bytes + buffer.length ≤ limits.outputBytes := by
    unfold saturatingAdd at hbound
    omega
  obtain ⟨hacc, hfollows⟩ := hstep.follows.output sha256 hlimits hcommand hbuffer hbytes
    (by rw [length_log]; exact hlen)
  refine ⟨?_, ?_, fun event hevent => ?_⟩
  · rw [log_append]
    exact hstep.lawful.snoc hacc
  · rw [log_append]
    exact hfollows
  · rcases List.mem_append.mp hevent with hevent | hevent
    · exact hstep.caused event hevent
    · rw [List.mem_singleton.mp hevent]
      trivial

/-- **Every step of a service** keeps the invocation in step. -/
theorem invariant_tracks (hlimits : limits.Valid) (hcommand : 1 ≤ command) :
    Invariant limits (Tracks sha256 limits base command) where
  os _ _ _ hs := hs.agrees rfl (Agrees.refl _)
  flush s hs := by
    obtain ⟨pending, stdin, os, heq, -⟩ := flushInput_eq s
    rw [heq]
    exact hs.agrees rfl (agrees_flush s.active pending stdin)
  eof s stream hs := hs.agrees rfl (agrees_eof s.active stream)
  output _ _ _ hbuffer hbound hs := hs.output hlimits hcommand hbuffer hbound
  reap s exit count _ hexit hs := hs.agrees rfl (agrees_reap s.active exit count hexit)

theorem Tracks.closeInput {s : Service} (hs : Tracks sha256 limits base command s) :
    Tracks sha256 limits base command s.closeInput :=
  hs.agrees rfl (agrees_flush s.active s.active.pendingInput false)

/-- The log of a completed invocation. -/
def Completed (sha256 : Sha256) (base : List EventFrame) (command : Nat) (s : Service) : Prop :=
  s.active.cleanupComplete = true ∧ ((log base command s.events).length < u64Size →
    Lawful sha256 command (log base command s.events) ∧ ∀ event ∈ s.events, Caused [] false event)

/-- **The cleanup** ends an invocation that is in step with its exit and its cleanup. -/
theorem cleaned_completes (hcommand : 1 ≤ command) {s s' : Service} (hs : Tracks sha256 limits base command s)
    (h : Invariant.Cleaned sha256 (Tracks sha256 limits base command) s (.ok ()) s') :
    Completed sha256 base command s' := by
  cases h with
  | already hcomplete => exact ⟨hcomplete, fun hlen => ⟨(hs hlen).lawful, (hs hlen).caused⟩⟩
  | completed s1 exit _ hs1 hexit =>
    refine ⟨rfl, fun hlen => ?_⟩
    unfold Service.complete at hlen ⊢
    dsimp only at hlen ⊢
    have hstep := hs1 (Nat.lt_of_le_of_lt (by simp only [length_log, List.length_append]; omega) hlen)
    refine ⟨?_, fun event hevent => ?_⟩
    · rw [log_append]
      exact hstep.follows.exits hstep.lawful hcommand hexit
    · rcases List.mem_append.mp hevent with hevent | hevent
      · exact hstep.caused event hevent
      · rcases List.mem_pair.mp hevent with rfl | rfl
        · trivial
        · trivial

/-- **The service of a live invocation** keeps it in step or completes its cleanup. -/
theorem serve_tracks (hlimits : limits.Valid) (hcommand : 1 ≤ command) {s s' : Service} {u : Unit}
    (h : serve sha256 limits s = (.ok u, s')) (hs : Tracks sha256 limits base command s) :
    Tracks sha256 limits base command s' ∨ Completed sha256 base command s' := by
  rcases (invariant_tracks hlimits hcommand).serve sha256 h hs fun _ _ hs =>
    hs.closeInput with hs' | ⟨s1, hs1, -, hclean⟩
  · exact .inl hs'
  · exact .inr (cleaned_completes hcommand hs1 hclean)

end Service

end SimFerret.Guest
