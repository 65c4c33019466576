import SimFerret.Checker.Soundness

/-!
# SimFerret.Checker.Growth — what later frames cannot take back

A frame changes the streams of one invocation by an output or an input, so whatever both keep holds along every
fold.

* `streams_foldl`: the invariant rule.
* `lines_foldl`, `openLine_foldl`, `stderr_foldl`: complete lines stay, an open line stays open or becomes one
  more line, an error output stays on record.
* `bound_ofEvents`: a line beyond the bound is on record.
* `exited_push`, `launchFailures_foldl`: only an exit ends an invocation, and a failed launch stays one.
* `stamped_ofEvents`: a line is begun and completed by frames received so far.
-/

namespace SimFerret.Checker

open WorkloadTrace

namespace WorkloadTrace

/-- A frame is refused as a whole or recorded. -/
theorem push_cases (t : WorkloadTrace) (frame : EventFrame) :
    (∃ v, t.push frame = t.violate v) ∨ t.push frame = t.record frame ∨ ∃ v,
        t.push frame = (t.violate v).record frame := by
  by_cases h : t.Admits frame
  · exact .inr (.inl (push_of_admits h))
  · rcases push_of_not_admits h with ⟨v, -, heq⟩ | ⟨_, _, v, -, -, heq⟩ | ⟨_, _, _, _, _, -, -, heq, -⟩ |
      ⟨_, _, _, _, -, -, heq⟩
    · exact .inl ⟨v, heq⟩
    · exact .inr (.inr ⟨v, heq⟩)
    · exact .inr (.inl heq)
    · exact .inr (.inl heq)

/-- The streams of an invocation after a recorded frame. -/
theorem streams_record (t : WorkloadTrace) (frame : EventFrame) (k : Nat) :
    (t.record frame).streams k = t.streams k ∨
    (isOutputOf frame k = true ∧ ∃ stream offset sequence data,
      (t.record frame).streams k = (t.streams k).push frame.eventId k stream offset sequence data) ∨
    ∃ offset bytes eof,
      (t.record frame).streams k = (t.streams k).pushInput k frame.eventId frame.commandId offset bytes eof := by
  unfold record
  cases hev : frame.event
  case workloadOutput invocation stream offset sequence bytes =>
    dsimp only
    split
    · exact .inl rfl
    · rename_i data _
      rw [streams_setStreams]
      split
      · rename_i heq
        rw [← heq]
        exact .inr (.inl ⟨by simp [isOutputOf, hev], stream, offset, sequence, data, rfl⟩)
      · exact .inl rfl
  case inputAccepted invocation offset bytes eof =>
    dsimp only
    rw [streams_setStreams]
    split
    · rename_i heq
      rw [← heq]
      exact .inr (.inr ⟨offset, bytes, eof, rfl⟩)
    · exact .inl rfl
  all_goals exact .inl rfl

/-- The streams of an invocation after any frame. -/
theorem streams_push (t : WorkloadTrace) (frame : EventFrame) (k : Nat) :
    (t.push frame).streams k = t.streams k ∨
    (isOutputOf frame k = true ∧ ∃ stream offset sequence data,
      (t.push frame).streams k = (t.streams k).push frame.eventId k stream offset sequence data) ∨
    ∃ offset bytes eof,
      (t.push frame).streams k = (t.streams k).pushInput k frame.eventId frame.commandId offset bytes eof := by
  rcases t.push_cases frame with ⟨v, heq⟩ | heq | ⟨v, heq⟩
  · rw [heq]
    exact .inl rfl
  · rw [heq]
    exact t.streams_record frame k
  · rw [heq]
    exact (t.violate v).streams_record frame k

section Invariant

variable {P : InvocationStreams → Prop} {k : Nat}
  (hout : ∀ s eventId stream offset sequence data, P s → P (s.push eventId k stream offset sequence data))
  (hin : ∀ s eventId commandId offset bytes eof, P s → P (s.pushInput k eventId commandId offset bytes eof))
include hout hin

theorem streams_invariant {t : WorkloadTrace} (frame : EventFrame) (h : P (t.streams k)) :
    P ((t.push frame).streams k) := by
  rcases t.streams_push frame k with heq | ⟨-, stream, offset, sequence, data, heq⟩ | ⟨offset, bytes, eof, heq⟩
  · rw [heq]
    exact h
  · rw [heq]
    exact hout _ _ _ _ _ _ h
  · rw [heq]
    exact hin _ _ _ _ _ _ h

/-- What outputs and inputs keep, every fold keeps. -/
theorem streams_foldl : ∀ (frames : List EventFrame) {t : WorkloadTrace}, P (t.streams k) →
    P ((frames.foldl push t).streams k)
  | [], _, h => h
  | frame :: frames, _, h => streams_foldl frames (streams_invariant hout hin frame h)

end Invariant

end WorkloadTrace

namespace InvocationStreams

theorem stdout_push (s : InvocationStreams) (eventId invocation : Nat) (stream : OutputStream)
    (offset sequence : Nat) (data : Bytes) : (s.push eventId invocation stream offset sequence data).stdout =
      if OutputStream.stdout = stream then s.stdout.push eventId offset data else s.stdout := by
  have h := (s.push_spec eventId invocation stream offset sequence data).streams .stdout
  cases stream
  · exact h
  · exact h

theorem stderr_push (s : InvocationStreams) (eventId invocation : Nat) (stream : OutputStream)
    (offset sequence : Nat) (data : Bytes) : (s.push eventId invocation stream offset sequence data).stderr =
      if OutputStream.stderr = stream then s.stderr.push eventId offset data else s.stderr := by
  have h := (s.push_spec eventId invocation stream offset sequence data).streams .stderr
  cases stream
  · exact h
  · exact h

theorem stdout_pushInput (s : InvocationStreams) (invocation eventId commandId offset bytes : Nat) (eof : Bool) :
    (s.pushInput invocation eventId commandId offset bytes eof).stdout = s.stdout :=
  (s.pushInput_spec invocation eventId commandId offset bytes eof).streams .stdout

theorem stderr_pushInput (s : InvocationStreams) (invocation eventId commandId offset bytes : Nat) (eof : Bool) :
    (s.pushInput invocation eventId commandId offset bytes eof).stderr = s.stderr :=
  (s.pushInput_spec invocation eventId commandId offset bytes eof).streams .stderr

end InvocationStreams

/-! ## Open lines -/

/-- More than `n` lines have begun: the open line counts when it has a byte. -/
def LineStream.Exceeds (l : LineStream) (n : Nat) : Prop :=
  n ≤ l.lines.length ∧ (l.lines.length = n → l.pending ≠ [])

theorem LineStream.exceeds_push {l : LineStream} {n : Nat} (h : l.Exceeds n) (eventId offset : Nat)
    (data : Bytes) : (l.push eventId offset data).Exceeds n := by
  obtain ⟨added, hlines, -, raws, rest, hparts, htexts, hpending⟩ := drain_spec eventId
    ((l.pending ++ data).splitOn newline) (l.extend eventId offset data) (List.splitOn_ne_nil _ _)
  change (l.push eventId offset data).lines = l.lines ++ added at hlines
  change (l.push eventId offset data).pending = rest at hpending
  refine ⟨by rw [hlines, List.length_append]; exact Nat.le_add_right_of_le h.1, fun heq => ?_⟩
  rw [hlines, List.length_append] at heq
  -- no line was completed, so the bytes of the open line are still pending
  have hn := h.1
  have hadded : added = [] := List.length_eq_zero_iff.mp (by omega)
  have hraws : raws = [] := by
    rw [hadded] at htexts
    exact List.map_eq_nil_iff.mp htexts.symm
  have hjoin := joinLines_splitOn hparts
  rw [hraws] at hjoin
  rw [hpending, ← show l.pending ++ data = rest from hjoin]
  exact List.append_ne_nil_of_left_ne_nil (h.2 (by omega)) data

theorem openLine_foldl {t : WorkloadTrace} {k n : Nat} (frames : List EventFrame)
    (h : (t.streams k).stdout.Exceeds n) : ((frames.foldl push t).streams k).stdout.Exceeds n := by
  refine @streams_foldl (fun s => s.stdout.Exceeds n) k ?_ ?_ frames t h
  · intro s eventId stream offset sequence data hs
    rw [InvocationStreams.stdout_push]
    split
    · exact LineStream.exceeds_push hs _ _ _
    · exact hs
  · intro s eventId commandId offset bytes eof hs
    rw [InvocationStreams.stdout_pushInput]
    exact hs

/-! ## Lines, bounds and error output -/

theorem lines_foldl {t : WorkloadTrace} {k : Nat} (frames : List EventFrame) :
    t.stdoutLines k <+: (frames.foldl push t).stdoutLines k := by
  refine @streams_foldl (fun s => t.stdoutLines k <+: s.stdout.lines) k ?_ ?_ frames t (List.prefix_refl _)
  · intro s eventId stream offset sequence data hs
    rw [InvocationStreams.stdout_push]
    split
    · obtain ⟨added, hlines, -⟩ := s.stdout.lines_push eventId offset data
      rw [hlines]
      exact hs.trans (List.prefix_append _ _)
    · exact hs
  · intro s eventId commandId offset bytes eof hs
    rw [InvocationStreams.stdout_pushInput]
    exact hs

theorem stderr_foldl {t : WorkloadTrace} {k : Nat} (frames : List EventFrame)
    (h : (t.streams k).stderr.bytes ≠ []) : ((frames.foldl push t).streams k).stderr.bytes ≠ [] := by
  refine @streams_foldl (fun s => s.stderr.bytes ≠ []) k ?_ ?_ frames t h
  · intro s eventId stream offset sequence data hs
    rw [InvocationStreams.stderr_push]
    split
    · rw [LineStream.bytes_push]
      exact List.append_ne_nil_of_left_ne_nil hs data
    · exact hs
  · intro s eventId commandId offset bytes eof hs
    rw [InvocationStreams.stderr_pushInput]
    exact hs

theorem streams_default (k : Nat) : ({} : WorkloadTrace).streams k = {} := by
  unfold WorkloadTrace.streams
  rw [Std.ExtTreeMap.getElem?_empty]
  rfl

theorem bound_ofEvents (events : List EventFrame) (k : Nat) : ((ofEvents events).streams k).BoundRecorded := by
  refine @streams_foldl InvocationStreams.BoundRecorded k ?_ ?_ events {} ?_
  · exact fun s eventId stream offset sequence data hs =>
      (s.push_spec eventId k stream offset sequence data).bound hs
  · exact fun s eventId commandId offset bytes eof hs =>
      (s.pushInput_spec k eventId commandId offset bytes eof).bound hs
  · rw [streams_default]
    rintro (h | h)
    · exact absurd h Bool.false_ne_true
    · exact absurd h Bool.false_ne_true

/-- An exceeded response bound is a violation. -/
theorem violation_of_overBoundLine {events : List EventFrame} {k : Nat}
    (h : (ofEvents events).overBoundLine k = true) : ∃ v, v ∈ (ofEvents events).allViolations := by
  rw [overBoundLine, Bool.or_eq_true] at h
  obtain ⟨v, hv, -⟩ := bound_ofEvents events k h
  exact ⟨v, mem_allViolations.mpr (.inr ⟨k, hv⟩)⟩

/-! ## Exits and launch failures -/

theorem exits_record (t : WorkloadTrace) (frame : EventFrame) :
    (t.record frame).exits = t.exits ++ (exitOf frame).toList := by
  unfold record exitOf
  cases frame.event
  case workloadOutput => dsimp only; split <;> exact (List.append_nil _).symm
  case workloadExited => rfl
  all_goals exact (List.append_nil _).symm

/-- Only the exit of an invocation makes it exited. -/
theorem exited_push {t : WorkloadTrace} {frame : EventFrame} {k : Nat} (hk : ¬ Exits frame k)
    (h : t.exited k = false) : (t.push frame).exited k = false := by
  have hrec : ∀ t0 : WorkloadTrace, t0.exited k = false → (t0.record frame).exited k = false := by
    intro t0 h0
    rw [exited, exits_record, List.any_append, Bool.or_eq_false_iff]
    refine ⟨h0, ?_⟩
    rw [List.any_eq_false]
    intro r hr hinv
    exact hk ⟨r, Option.mem_toList.mp hr, by simpa using hinv⟩
  rcases t.push_cases frame with ⟨v, heq⟩ | heq | ⟨v, heq⟩
  · rw [heq]
    exact h
  · rw [heq]
    exact hrec t h
  · rw [heq]
    exact hrec (t.violate v) h

theorem exited_foldl {k : Nat} : ∀ (frames : List EventFrame) {t : WorkloadTrace}, (∀ f ∈ frames, ¬ Exits f k) →
    t.exited k = false → (frames.foldl push t).exited k = false
  | [], _, _, h => h
  | frame :: frames, _, hk, h =>
    exited_foldl frames (fun f hf => hk f (List.mem_cons_of_mem _ hf))
      (exited_push (hk frame List.mem_cons_self) h)

theorem launchFailures_record (t : WorkloadTrace) (frame : EventFrame) :
    t.launchFailures <+: (t.record frame).launchFailures := by
  unfold record
  cases frame.event
  case workloadOutput => dsimp only; split <;> exact List.prefix_refl _
  case launchFailed => exact List.prefix_append _ _
  all_goals exact List.prefix_refl _

theorem launchFailures_foldl : ∀ (frames : List EventFrame) {t : WorkloadTrace},
    t.launchFailures <+: (frames.foldl push t).launchFailures
  | [], _ => List.prefix_refl _
  | frame :: frames, t => by
    have hstep : t.launchFailures <+: (t.push frame).launchFailures := by
      rcases t.push_cases frame with ⟨v, heq⟩ | heq | ⟨v, heq⟩
      · rw [heq]
        exact List.prefix_refl _
      · rw [heq]
        exact launchFailures_record t frame
      · rw [heq]
        exact launchFailures_record (t.violate v) frame
    exact hstep.trans (launchFailures_foldl frames)

/-! ## The events of a line -/

/-- Every line was begun before it was completed, and all of it by the event `last`. -/
structure LineStream.Stamped (l : LineStream) (last : Nat) : Prop where
  lines : ∀ line ∈ l.lines, line.firstEventId ≤ line.eventId ∧ line.eventId ≤ last
  open_line : ∀ first, l.lineEvent = some first → first ≤ last

theorem LineStream.Stamped.mono {l : LineStream} {m n : Nat} (h : l.Stamped m) (hmn : m ≤ n) : l.Stamped n :=
  ⟨fun line hline => ⟨(h.lines line hline).1, (h.lines line hline).2.trans hmn⟩,
    fun first hfirst => (h.open_line first hfirst).trans hmn⟩

theorem LineStream.stamped_complete {l : LineStream} {eventId : Nat} (h : l.Stamped eventId) (line : Bytes)
    (more : Bool) : (l.complete eventId line more).Stamped eventId := by
  refine ⟨fun x hx => ?_, fun first hfirst => ?_⟩
  · rcases List.mem_append.mp hx with hx | hx
    · exact h.lines x hx
    · rw [List.mem_singleton.mp hx]
      refine ⟨?_, Nat.le_refl _⟩
      show l.lineEvent.getD eventId ≤ eventId
      cases hl : l.lineEvent with
      | none => exact Nat.le_refl _
      | some first => exact h.open_line first hl
  · change (if more then some eventId else none) = some first at hfirst
    split at hfirst
    · cases hfirst
      exact Nat.le_refl _
    · cases hfirst

theorem LineStream.stamped_drain (eventId : Nat) : ∀ (parts : List Bytes) {l : LineStream}, l.Stamped eventId →
    (l.drain eventId parts).Stamped eventId
  | [], _, h => h
  | [_], _, h => ⟨h.lines, h.open_line⟩
  | line :: second :: next, _, h => by
    rw [drain]
    exact stamped_drain eventId (second :: next) (stamped_complete h line _)

theorem LineStream.stamped_push {l : LineStream} {last eventId : Nat} (h : l.Stamped last) (hle : last ≤ eventId)
    (offset : Nat) (data : Bytes) : (l.push eventId offset data).Stamped eventId := by
  apply stamped_drain
  refine ⟨(h.mono hle).lines, fun first hfirst => ?_⟩
  change (if l.pending = [] ∧ data ≠ [] then some eventId else l.lineEvent) = some first at hfirst
  split at hfirst
  · cases hfirst
    exact Nat.le_refl _
  · exact (h.mono hle).open_line first hfirst

/-- The lines of a trace were begun and completed by the frames folded into it. -/
theorem stamped_ofEvents {k : Nat} : ∀ {events : List EventFrame} {last : Nat}, Increasing events →
    (∀ f ∈ events, f.eventId ≤ last) → ((ofEvents events).streams k).stdout.Stamped last := by
  intro events
  induction events using List.reverseRecOn with
  | nil =>
    intro last _ _
    rw [show ofEvents [] = {} from rfl, streams_default]
    exact ⟨fun line hline => absurd hline List.not_mem_nil, fun first hfirst => by cases hfirst⟩
  | append_singleton events frame ih =>
    intro last hinc hlast
    have hsplit := hinc.split.1
    have hbefore := ih (List.pairwise_append.mp hinc).1 fun f hf => (hsplit f hf).le
    rw [ofEvents_snoc]
    refine LineStream.Stamped.mono (m := frame.eventId) ?_ (hlast frame (by simp))
    rcases (ofEvents events).streams_push frame k with heq | ⟨-, stream, offset, sequence, data, heq⟩ |
      ⟨offset, bytes, eof, heq⟩
    · rw [heq]
      exact hbefore
    · rw [heq, InvocationStreams.stdout_push]
      split
      · exact LineStream.stamped_push hbefore (Nat.le_refl _) offset data
      · exact hbefore
    · rw [heq, InvocationStreams.stdout_pushInput]
      exact hbefore

/-- An output frame of the invocation completed each of its lines. -/
theorem line_completed {k : Nat} : ∀ {events : List EventFrame}, ∀ line ∈ (ofEvents events).stdoutLines k,
    ∃ f ∈ events, f.eventId = line.eventId ∧ isOutputOf f k = true := by
  intro events
  induction events using List.reverseRecOn with
  | nil =>
    intro line hline
    rw [stdoutLines, show ofEvents [] = {} from rfl, streams_default] at hline
    exact absurd hline List.not_mem_nil
  | append_singleton events frame ih =>
    intro line hline
    have hold : line ∈ (ofEvents events).stdoutLines k → ∃ f ∈ events ++ [frame], f.eventId = line.eventId ∧
        isOutputOf f k = true := by
      intro h
      obtain ⟨f, hf, hrest⟩ := ih line h
      exact ⟨f, List.mem_append_left _ hf, hrest⟩
    rw [stdoutLines, ofEvents_snoc] at hline
    rcases (ofEvents events).streams_push frame k with heq | ⟨hout, stream, offset, sequence, data, heq⟩ |
      ⟨offset, bytes, eof, heq⟩
    · rw [heq] at hline
      exact hold hline
    · rw [heq, InvocationStreams.stdout_push] at hline
      split at hline
      · obtain ⟨added, hadded, hids⟩ := ((ofEvents events).streams k).stdout.lines_push frame.eventId offset data
        rw [hadded] at hline
        rcases List.mem_append.mp hline with h | h
        · exact hold h
        · exact ⟨frame, by simp, (hids line h).symm, hout⟩
      · exact hold hline
    · rw [heq, InvocationStreams.stdout_pushInput] at hline
      exact hold hline

end SimFerret.Checker
