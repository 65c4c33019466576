import Mathlib.Algebra.Order.BigOperators.Group.List
import SimFerret.Checker.Growth
import SimFerret.Checker.Relabel
import SimFerret.Driver.Conforming

/-!
# SimFerret.Driver.Passable — the smallest bounds a run can meet

`observedOutage` asks for an acknowledgement between the activation and the line that answers it, so the line is
at least two events behind the activation.  A guest that holds the first line of the restarted invocation back
until it has taken the first input meets that bound, and the liveness bound of the restart with it.

* `outage_distance`: a passing run needs an outage bound of two.
* `hurriedEvents`: the events of a conforming guest with the restart as short as it can be; `ofEvents_hurried`:
  their trace is that of the conforming guest but for the events of two lines and of one input.
* `passable_iff`: **the scenarios that some run can pass**.
-/

namespace SimFerret.Driver

open Checker Workload RunContext

/-! ## The hurried restart -/

/-- A frame without bytes. -/
theorem push_nothing {s : InvocationStreams} (hpending : s.stdout.pending = [])
    (hbound : s.stdoutOverBound = false) (hoffset : s.stdout.offset < u64Size)
    (hsequence : s.sequence + 1 < u64Size) (eventId invocation : Nat) :
    s.push eventId invocation .stdout s.stdout.offset (s.sequence + 1) [] =
      { s with sequence := s.sequence + 1, frames := s.frames + 1 } := by
  have hseq : checkedAdd s.sequence 1 = some (s.sequence + 1) := checkedAdd_eq_some.mpr ⟨rfl, hsequence⟩
  have hsat : saturatingAdd s.stdout.offset 0 = s.stdout.offset := saturatingAdd_of_lt hoffset
  have hstdout : (⟨s.stdout.bytes, [], s.stdout.lines, s.stdout.offset, s.stdout.lineEvent⟩ : LineStream) =
      s.stdout := by
    rw [← hpending]
  simp [InvocationStreams.push, InvocationStreams.checkFrame, InvocationStreams.violateIf, hseq,
    InvocationStreams.stream, hpending, InvocationStreams.setStream, LineStream.extend,
      InvocationStreams.drainLines, InvocationStreams.checkOpenLine, hsat, hbound]
  exact hstdout

section Hurried

variable (run : RunContext)

/-- The echo line of the restarted invocation and the line it answers. -/
def restartInput (choices : WorkloadChoicePlan) : Text := utf8 "echo " ++ echoToken choices.seed 2 ++ utf8 "\n"
def restartLine (choices : WorkloadChoicePlan) : Text := utf8 "echo value=" ++ echoToken choices.seed 2

/-- One of the frames of the hurried restart. -/
def hurriedFrame (done : List WorkloadStep) (command index : Nat) (event : Event) : EventFrame :=
  run.frame ((run.guest.command (done.length + command), event), (run.answers done).length + index)

/-- The second invocation starts, takes its first input, writes its first two lines at once, and then an empty
frame. -/
def hurriedRestart (done : List WorkloadStep) : List EventFrame :=
  let offset := (emitted run.choices done 2).length
  let sequence := (done.flatMap (responses run.choices 2)).length
  let lines := LineStream.joinLines [readyLine, restartLine run.choices]
  [hurriedFrame run done 1 0 (.workloadStarted 2 run.launch),
    hurriedFrame run done 2 1 (.inputAccepted 2
      (accepted run.choices done 2 + (restartInput run.choices).length) (restartInput run.choices).length false),
    hurriedFrame run done 2 2 (.workloadOutput 2 .stdout offset (sequence + 1) (encodeBytes lines)),
    hurriedFrame run done 2 3 (.workloadOutput 2 .stdout (offset + lines.length) (sequence + 2) (encodeBytes []))]

/-- The ready line is two events behind the start and the acknowledgement one; the echo is in the frame of the
ready line. -/
def hurry (start : Nat) : Relabelling where
  line eventId := if eventId = start + 1 ∨ eventId = start + 3 then start + 2 else eventId
  input eventId := if eventId = start + 2 then start + 1 else eventId

theorem hurry_fixes {start eventId : Nat} (h : eventId ≤ start ∨ start + 4 ≤ eventId) :
    (hurry start).Fixes eventId := by
  refine ⟨if_neg ?_, if_neg ?_⟩
  · omega
  · omega

/-- No input is moved behind the line that answers it. -/
theorem hurry_order (start acknowledged first : Nat) (h : acknowledged < first) :
    (hurry start).input acknowledged < (hurry start).line first := by
  unfold hurry
  dsimp only
  split_ifs <;> omega

variable {run} {done : List WorkloadStep} {t : WorkloadTrace}

/-- A step with a response or an input is answered with two events. -/
theorem length_answer {k : Nat} {step : WorkloadStep}
    (h : responses run.choices k step ≠ [] ∨ inputs run.choices k step ≠ []) :
    (run.answer done step).length = 2 := by
  have hdialogue : ∀ triple, step.dialogue run.choices = some triple → (run.answer done step).length = 2 := by
    rintro ⟨j, input, response⟩ hsome
    have hspec : Dialogue run done step j input response := dialogue_spec hsome
    rw [hspec.answer]
    rfl
  cases hsome : step.dialogue run.choices with
  | some triple => exact hdialogue triple hsome
  | none =>
    have hinputs : inputs run.choices k step = [] := by simp only [inputs, hsome]
    cases step with
    | start j => rfl
    | _ => exact absurd h (by simp [responses, hsome, hinputs])

theorem lineRecord_lt {k : Nat} {line : CompletedLine} (h : line ∈ recorded (run.lineRecords k) [] done) :
    line.eventId < run.eventAt done ∧ line.firstEventId < run.eventAt done := by
  obtain ⟨earlier, step, later, rfl, hmem⟩ := mem_recorded.mp h
  obtain ⟨text, htext, rfl⟩ := List.mem_map.mp hmem
  have hlength := @length_answer run earlier k step (.inl (List.ne_nil_of_mem htext))
  have hstep := @eventAt_snoc run earlier step
  have hle := @eventAt_le run (earlier ++ [step]) later
  rw [List.append_assoc, List.singleton_append] at hle
  rw [List.nil_append]
  exact ⟨by dsimp only; omega, by dsimp only; omega⟩

theorem dataRecord_lt {k eventId : Nat} (h : eventId ∈ recorded (run.dataRecords k) [] done) :
    eventId < run.eventAt done := by
  obtain ⟨earlier, step, later, rfl, hmem⟩ := mem_recorded.mp h
  obtain ⟨text, htext, rfl⟩ := List.mem_map.mp hmem
  have hlength := @length_answer run earlier k step (.inr (List.ne_nil_of_mem htext))
  have hstep := @eventAt_snoc run earlier step
  have hle := @eventAt_le run (earlier ++ [step]) later
  rw [List.append_assoc, List.singleton_append] at hle
  rw [List.nil_append]
  omega

theorem relabel_lineRecords (run : RunContext) (done : List WorkloadStep) (k : Nat) :
    (recorded (run.lineRecords k) [] done).map (CompletedLine.relabel (hurry (run.eventAt done)).line) =
      recorded (run.lineRecords k) [] done := by
  refine (List.map_congr_left fun line hline => ?_).trans (List.map_id _)
  obtain ⟨hlast, hfirst⟩ := lineRecord_lt hline
  unfold CompletedLine.relabel
  rw [(hurry_fixes (.inl hlast.le)).line, (hurry_fixes (.inl hfirst.le)).line]
  rfl

theorem relabel_dataRecords (run : RunContext) (done : List WorkloadStep) (k : Nat) :
    (recorded (run.dataRecords k) [] done).map (hurry (run.eventAt done)).input =
        recorded (run.dataRecords k) [] done :=
  (List.map_congr_left fun _ hmem => (hurry_fixes (.inl (dataRecord_lt hmem).le)).input).trans (List.map_id _)

/-- What was recorded before the restart keeps its events. -/
theorem relabel_before (h : run.Follows done t) : t.relabel (hurry (run.eventAt done)) = t := by
  have hstreams : ∀ k, (t.streams k).relabel (hurry (run.eventAt done)) = t.streams k := fun k => by
    rw [h.streams]
    simp only [streamsOf, InvocationStreams.relabel, LineStream.relabel, relabel_lineRecords, relabel_dataRecords,
      List.map_nil, Option.map_none]
  have hinvocations : t.invocations.map (fun _ s => s.relabel (hurry (run.eventAt done))) = t.invocations := by
    refine Std.ExtTreeMap.ext_getElem? fun k => ?_
    rw [Std.ExtTreeMap.getElem?_map]
    have hk := hstreams k
    unfold WorkloadTrace.streams at hk
    cases hget : t.invocations[k]? with
    | none => rfl
    | some s =>
      rw [hget] at hk
      exact congrArg some hk
  unfold WorkloadTrace.relabel
  rw [hinvocations]

/-- The streams of the second invocation after the hurried restart. -/
theorem streams_hurried (hready : IsLine readyLine) (hline : IsLine (restartLine run.choices))
    (hclosed : .stdinEof 2 ∉ done)
    (hcount : Countable run.choices (done ++ [.start 2] ++ [.echo 2])) :
    let lines := LineStream.joinLines [readyLine, restartLine run.choices]
    let offset := (emitted run.choices done 2).length
    let sequence := (done.flatMap (responses run.choices 2)).length
    ((((run.streamsOf done 2).pushInput 2 (run.eventAt done + 1) (run.guest.command (done.length + 2))
      (accepted run.choices done 2 + (restartInput run.choices).length)
      (restartInput run.choices).length false).push
        (run.eventAt done + 2) 2 .stdout offset (sequence + 1) lines).push
        (run.eventAt done + 3) 2 .stdout (offset + lines.length) (sequence + 2) []) =
      (run.streamsOf (done ++ [.start 2] ++ [.echo 2]) 2).relabel (hurry (run.eventAt done)) := by
  intro lines offset sequence
  have hstart : responses run.choices 2 (.start 2) = [readyLine] := rfl
  have hecho : responses run.choices 2 (.echo 2) = [restartLine run.choices] := rfl
  have hin : inputs run.choices 2 (.start 2) = [] := rfl
  have hin' : inputs run.choices 2 (.echo 2) = [restartInput run.choices] := rfl
  obtain ⟨haccepted, hemitted⟩ := hcount 2
  have hsequence := lt_of_le_of_lt (length_responses_le run.choices (done ++ [.start 2] ++ [.echo 2]) 2) hemitted
  rw [List.flatMap_append, List.flatMap_append, List.length_append, List.length_append,
    List.flatMap_singleton, hstart, List.flatMap_singleton, hecho] at hsequence
  rw [emitted_snoc, emitted_snoc, hstart, hecho, List.append_assoc, List.length_append] at hemitted
  rw [accepted_snoc, accepted_snoc, hin, hin'] at haccepted
  have hjoin : LineStream.joinLines [readyLine] ++ LineStream.joinLines [restartLine run.choices] = lines := by
    simp [lines, LineStream.joinLines]
  rw [hjoin] at hemitted
  have hadmits : (run.streamsOf done 2).AdmitsInput (run.guest.command (done.length + 2))
      (accepted run.choices done 2 + (restartInput run.choices).length)
      (restartInput run.choices).length false := by
    have hinput : restartInput run.choices ≠ [] := fun heq => by cases heq
    refine ⟨checkedAdd_eq_some.mpr ⟨rfl, by simpa [streamsOf] using haccepted⟩, by simp [hinput], ?_,
      fun previous hlast => ?_⟩
    · simpa [streamsOf] using hclosed
    · exact lt_trans (commands_lt (List.mem_of_getLast? hlast)) (run.guest.increasing (Nat.lt_succ_self _))
  set s1 := (run.streamsOf done 2).pushInput 2 (run.eventAt done + 1) (run.guest.command (done.length + 2))
    (accepted run.choices done 2 + (restartInput run.choices).length)
    (restartInput run.choices).length false with hs1
  rw [pushInput_admitted hadmits] at hs1
  have hstdout : s1.stdout = (run.streamsOf done 2).stdout := by rw [hs1]
  have hoffset : s1.stdout.offset = offset := by rw [hstdout]; rfl
  have hsequence1 : s1.sequence = sequence := by rw [hs1]; rfl
  have hnumbers : sequence + 2 < u64Size := hsequence
  have hpush := @push_joined s1 readyLine [restartLine run.choices] (by simp [hready, hline])
    (by rw [hstdout]; rfl) (by rw [hoffset]; exact hemitted) (by omega) (run.eventAt done + 2) 2
  rw [hoffset, hsequence1] at hpush
  rw [hpush]
  refine (push_nothing rfl rfl hemitted hnumbers (run.eventAt done + 3) 2).trans ?_
  rw [streamsOf_line hecho (by simp), streamsOf_line hstart (by simp), hin, hin']
  -- the two lines and the input at their other events
  have hevent : run.eventAt (done ++ [.start 2]) = run.eventAt done + 2 := eventAt_snoc _ _
  have hready' : CompletedLine.relabel (hurry (run.eventAt done)).line
      ⟨readyLine, run.eventAt done + 1, run.eventAt done + 1⟩ =
        ⟨readyLine, run.eventAt done + 2, run.eventAt done + 2⟩ := by
    simp [CompletedLine.relabel, hurry]
  have hecho' : CompletedLine.relabel (hurry (run.eventAt done)).line
      ⟨restartLine run.choices, run.eventAt done + 2 + 1, run.eventAt done + 2 + 1⟩ =
        ⟨restartLine run.choices, run.eventAt done + 2, run.eventAt done + 2⟩ := by
    simp [CompletedLine.relabel, hurry]
  have hinput' : (hurry (run.eventAt done)).input (run.eventAt done + 2) = run.eventAt done + 1 := if_pos rfl
  have hwhole : LineStream.joinLines [readyLine, restartLine run.choices] = lines := rfl
  have hlines : lines = LineStream.joinLines [readyLine] ++ (restartLine run.choices ++ [newline]) := by
    rw [← hjoin, joinLines_singleton (restartLine run.choices)]
  have hlength : offset + lines.length = (emitted run.choices done 2).length +
      (LineStream.joinLines [readyLine]).length + ((restartLine run.choices).length + 1) := by
    rw [hlines, List.length_append, List.length_append, List.length_singleton, Nat.add_assoc]
  have hsum : sequence = (done.map fun step => (responses run.choices 2 step).length).sum := List.length_flatMap
  simp [InvocationStreams.relabel, LineStream.relabel, hs1, streamsOf, recorded_snoc, lineRecords, dataRecords,
    commandRecords, emitted_snoc, accepted_snoc, hstart, hin, hevent, relabel_lineRecords,
      relabel_dataRecords, hready', hecho', hinput', ← hlines, ← hlength, hsum, hwhole]

/-- **The hurried restart** leaves what the start and the echo leave, but for the events of two lines and of one
input. -/
theorem push_hurriedRestart (h : run.Follows done t) (hstart : Allowed run.choices done (.start 2))
    (hecho : Allowed run.choices (done ++ [.start 2]) (.echo 2))
    (hcount : Countable run.choices (done ++ [.start 2]))
    (hcount' : Countable run.choices (done ++ [.start 2] ++ [.echo 2])) :
    (hurriedRestart run done).foldl WorkloadTrace.push t =
      ((run.stepFrames (done ++ [.start 2]) (.echo 2)).foldl WorkloadTrace.push
        ((run.stepFrames done (.start 2)).foldl WorkloadTrace.push t)).relabel (hurry (run.eventAt done)) := by
  have hready : IsLine readyLine := ⟨by decide, by decide, by decide⟩
  obtain ⟨k, input, response, hdialogue, hrunning, hinput, hline⟩ := hecho
  obtain ⟨rfl, rfl, rfl⟩ : k = 2 ∧ input = restartInput run.choices ∧ response = restartLine run.choices := by
    cases hdialogue
    exact ⟨rfl, rfl, rfl⟩
  obtain ⟨hnot, hterminate, hclosed⟩ := hstart
  -- the conforming guest
  have hfollows := follows_start h ⟨hnot, hterminate, hclosed⟩ hcount hready
  obtain ⟨s, hechoed⟩ := push_dialogue hfollows hdialogue hrunning hinput hline hcount'
  rw [hechoed, push_start h ⟨hnot, hterminate, hclosed⟩ hcount hready]
  set u : WorkloadTrace := { t with starts := t.starts ++ [⟨2, run.launch, run.eventAt done⟩] } with hu
  have hkept : u.relabel (hurry (run.eventAt done)) = u := by
    have ht : u.relabel (hurry (run.eventAt done)) =
        { t.relabel (hurry (run.eventAt done)) with
          starts := t.starts ++ [⟨2, run.launch, run.eventAt done⟩] } := rfl
    rw [ht, relabel_before h]
  rw [WorkloadTrace.setStreams_setStreams, WorkloadTrace.setStreams_setStreams,
    WorkloadTrace.relabel_setStreams, hkept, ← streams_hurried hready hline hclosed hcount']
  -- the hurried one
  have hstarted : u.started 2 = true := by simp [WorkloadTrace.started, hu]
  have hexited : u.exited 2 = false := h.exited hterminate hclosed
  have hterminated : u.terminated 2 = false := h.terminated hterminate
  have hstreams : u.streams 2 = run.streamsOf done 2 := h.streams 2
  have hbound : (LineStream.joinLines [readyLine, restartLine run.choices]).length ≤ maxOutputFrameBytes := by
    have hlong := hline.bounded
    have hlong' := hready.bounded
    have hlength : (LineStream.joinLines [readyLine, restartLine run.choices]).length =
        readyLine.length + 1 + ((restartLine run.choices).length + 1) := by
      simp [LineStream.joinLines]
      omega
    unfold maxResponseLineBytes at hlong hlong'
    unfold maxOutputFrameBytes
    omega
  have hfirst : t.push (hurriedFrame run done 1 0 (.workloadStarted 2 run.launch)) = u := by
    have hstart : t.started 2 = false := by
      rw [← Bool.not_eq_true, h.started]
      exact hnot
    simp [WorkloadTrace.push, hurriedFrame, frame, hstart, hu, eventAt]
  have hout : ∀ (s : InvocationStreams) {frame : EventFrame} {offset sequence : Nat} {data : Bytes},
      frame.event = .workloadOutput 2 .stdout offset sequence (encodeBytes data) →
        data.length ≤ maxOutputFrameBytes →
      (u.setStreams 2 s).push frame = u.setStreams 2 (s.push frame.eventId 2 .stdout offset sequence data) := by
    intro s frame offset sequence data hevent hdata
    rw [@push_output (u.setStreams 2 s) _ _ _ _ _ _ hevent hstarted hexited hdata,
      WorkloadTrace.streams_setStreams, if_pos rfl, WorkloadTrace.setStreams_setStreams]
  unfold hurriedRestart
  dsimp only [List.foldl_cons, List.foldl_nil]
  rw [hfirst, push_input rfl hstarted hexited hterminated, hout _ rfl hbound, hout _ rfl (Nat.zero_le _), hstreams]
  rfl

/-! ## The events of the hurried guest -/

theorem map_eventId_events (run : RunContext) (steps : List WorkloadStep) :
    (run.events steps).map EventFrame.eventId = List.range' run.guest.firstEvent (run.answers steps).length := by
  have hframe : EventFrame.eventId ∘ run.frame = (run.guest.firstEvent + ·) ∘ Prod.snd := rfl
  rw [events, List.map_map, hframe, ← List.map_map, List.zipIdx_map_snd, List.map_add_range', Nat.add_zero]

theorem events_prefix (run : RunContext) (done rest : List WorkloadStep) :
    run.events done <+: run.events (done ++ rest) := by
  induction rest using List.reverseRecOn with
  | nil => simp only [List.append_nil, List.prefix_refl]
  | append_singleton rest step ih =>
    rw [← List.append_assoc, events_snoc]
    exact ih.trans (List.prefix_append _ _)

/-- The frames that answer the steps behind others. -/
def laterEvents (run : RunContext) (done rest : List WorkloadStep) : List EventFrame :=
  (run.events (done ++ rest)).drop (run.events done).length

theorem events_append (run : RunContext) (done rest : List WorkloadStep) :
    run.events (done ++ rest) = run.events done ++ laterEvents run done rest := by
  obtain ⟨later, hlater⟩ := events_prefix run done rest
  rw [laterEvents, ← hlater, List.drop_left]

theorem le_laterEvents {rest : List WorkloadStep} {frame : EventFrame} (h : frame ∈ laterEvents run done rest) :
    run.eventAt done ≤ frame.eventId := by
  have hid := List.mem_map_of_mem (f := EventFrame.eventId) h
  have hlength := congrArg List.length (map_eventId_events run done)
  rw [List.length_map, List.length_range'] at hlength
  rw [laterEvents, List.map_drop, map_eventId_events, List.drop_range', List.mem_range'_1, hlength,
    Nat.mul_one] at hid
  exact hid.1

/-- **The events of the hurried guest**: those of the conforming one, with the hurried restart. -/
def hurriedEvents (run : RunContext) (done rest : List WorkloadStep) : List EventFrame :=
  run.events done ++ hurriedRestart run done ++ laterEvents run (done ++ [.start 2] ++ [.echo 2]) rest

/-- They are numbered as those of the conforming guest. -/
theorem map_eventId_hurried (run : RunContext) (done rest : List WorkloadStep) :
    (hurriedEvents run done rest).map EventFrame.eventId =
      (run.events (done ++ [.start 2] ++ [.echo 2] ++ rest)).map EventFrame.eventId := by
  have hanswers : (run.answers (done ++ [.start 2] ++ [.echo 2])).length = (run.answers done).length + 4 := by
    have hstart := @eventAt_snoc run done (.start 2)
    have hecho := @eventAt_snoc run (done ++ [.start 2]) (.echo 2)
    have hlength : (run.answer done (.start 2)).length = 2 := rfl
    have hlength' : (run.answer (done ++ [.start 2]) (.echo 2)).length = 2 := rfl
    unfold eventAt at hstart hecho
    omega
  have hrestart : (hurriedRestart run done).map EventFrame.eventId = List.range' (run.eventAt done) 4 := rfl
  rw [events_append, hurriedEvents, List.map_append, List.map_append, List.map_append, map_eventId_events,
    map_eventId_events, hanswers, hrestart, eventAt, List.range'_append_1]

/-- **The trace of the hurried guest** is that of the conforming one with other events. -/
theorem ofEvents_hurried {rest : List WorkloadStep} (hpeer : run.scenario.fixturePeer = fixturePeer)
    (horderly : Orderly run.choices (done ++ [.start 2] ++ [.echo 2] ++ rest))
    (hcount : ∀ before, before <+: done ++ [.start 2] ++ [.echo 2] ++ rest → Countable run.choices before) :
    WorkloadTrace.ofEvents (hurriedEvents run done rest) =
      (WorkloadTrace.ofEvents (run.events (done ++ [.start 2] ++ [.echo 2] ++ rest))).relabel
          (hurry (run.eventAt done)) := by
  have hsplit : done ++ [.start 2] ++ [.echo 2] ++ rest = done ++ .start 2 :: .echo 2 :: rest := by simp
  have hfollows : run.Follows done (WorkloadTrace.ofEvents (run.events done)) := by
    refine follows_events hpeer (fun earlier step later heq =>
      horderly earlier step (later ++ .start 2 :: .echo 2 :: rest)
      ?_) fun before hbefore => hcount before ?_
    · rw [hsplit, heq]
      simp
    · rw [hsplit]
      exact hbefore.trans (List.prefix_append _ _)
  have hbase := push_hurriedRestart hfollows (horderly done (.start 2) (.echo 2 :: rest) hsplit)
    (horderly (done ++ [.start 2]) (.echo 2) rest (by simp))
    (hcount _ ⟨[.echo 2] ++ rest, by simp⟩) (hcount _ ⟨rest, rfl⟩)
  have hfixes : ∀ f ∈ laterEvents run (done ++ [.start 2] ++ [.echo 2]) rest,
      (hurry (run.eventAt done)).Fixes f.eventId := by
    intro f hf
    have hle := le_laterEvents hf
    have hstart : run.eventAt (done ++ [.start 2]) = run.eventAt done + 2 := eventAt_snoc _ _
    have hecho : run.eventAt (done ++ [.start 2] ++ [.echo 2]) = run.eventAt (done ++ [.start 2]) + 2 :=
      eventAt_snoc _ _
    exact hurry_fixes (.inr (by omega))
  rw [hurriedEvents, WorkloadTrace.ofEvents_append, WorkloadTrace.ofEvents_append, hbase, events_append,
    WorkloadTrace.ofEvents_append, WorkloadTrace.foldl_relabel _ _ hfixes, events_snoc, events_snoc,
    WorkloadTrace.ofEvents_append, WorkloadTrace.ofEvents_append]

end Hurried

/-! ## The evaluators on the hurried run -/

section Records

variable {run : RunContext} {n payloadBytes : Nat} {t : WorkloadTrace}

/-- A transition other than the fault is answered wholly before the restart or behind it. -/
theorem apart_from_restart (h : PlanBounds run.choices n) {index : Nat}
    (hne : index ≠ run.choices.processFaultRequestIndex) :
    run.eventAt (stepsBefore run.choices index) + 5 ≤ run.eventAt (beforeRestart run.choices) ∨
      run.eventAt (beforeRestart run.choices) + 4 ≤ run.eventAt (stepsBefore run.choices index) := by
  have hspawn := @eventAt_beforeTermination run
  have hterminate := @eventAt_beforeRestart run
  rcases Nat.lt_or_gt_of_ne hne with hlt | hgt
  · left
    have hle := @eventAt_le run (stepsBefore run.choices index)
      (requestBlock run.choices index ++ (List.range' (index + 1)
        (run.choices.processFaultRequestIndex - (index + 1))).flatMap (requestBlock run.choices))
    rw [← stepsBefore_split run.choices hlt] at hle
    omega
  · right
    have hstart : run.eventAt (beforeRestart run.choices ++ [.start 2]) =
        run.eventAt (beforeRestart run.choices) + 2 :=
      eventAt_snoc _ _
    have hecho : run.eventAt (beforeRestart run.choices ++ [.start 2] ++ [.echo 2]) =
        run.eventAt (beforeRestart run.choices ++ [.start 2]) + 2 := eventAt_snoc _ _
    obtain ⟨rest, hrest⟩ : ∃ rest, stepsBefore run.choices index =
        beforeRestart run.choices ++ [.start 2] ++ [.echo 2] ++ rest := by
      rw [stepsBefore_split run.choices hgt, requestBlock_fault h]
      simp [beforeRestart, beforeTermination, faultSteps]
    have hle := @eventAt_le run (beforeRestart run.choices ++ [.start 2] ++ [.echo 2]) rest
    rw [← hrest] at hle
    omega

/-- The answer to the first request of a phase keeps its events. -/
theorem keepsAnswer_transition (h : Planned run.choices n payloadBytes)
    (hf : run.Follows (workloadSteps run.choices) t)
    {index : Nat} {transition : WorkloadStep} (hindex : index < n)
    (hone : ∀ done, (run.answer done transition).length = 1)
    (hblock : requestBlock run.choices index = [transition, .request (servingInvocation run.choices index) index])
    (hne : index ≠ run.choices.processFaultRequestIndex) :
    KeepsAnswer (hurry (run.eventAt (beforeRestart run.choices))) t (networkLine run.choices index) := by
  intro line acknowledged hfound
  rw [answer_after_transition h hf hindex hone hblock] at hfound
  cases hfound
  have hapart := apart_from_restart h.bounds hne
  have hline : (hurry (run.eventAt (beforeRestart run.choices))).Fixes
      (run.eventAt (stepsBefore run.choices index) + 2) := hurry_fixes (by omega)
  have hinput : (hurry (run.eventAt (beforeRestart run.choices))).Fixes
      (run.eventAt (stepsBefore run.choices index) + 1) := hurry_fixes (by omega)
  refine ⟨?_, hinput.input⟩
  unfold CompletedLine.relabel
  rw [hline.line]

theorem observedOutage_hurried (h : Planned run.choices n payloadBytes)
    (hf : run.Follows (workloadSteps run.choices) t) (hbound : 2 ≤ run.scenario.outageEventBound) :
    (observedOutage (t.relabel (hurry (run.eventAt (beforeRestart run.choices)))) run.scenario
      run.choices).isSome = true := by
  have hlt := h.bounds.activation_lt
  obtain ⟨request, hrequest⟩ := h.exists_request (lt_trans hlt h.bounds.restoration_lt)
  have hline := networkLine_eq hrequest (show requestPhase _ run.choices.outageActivationRequestIndex
    run.choices.restorationRequestIndex = .outage by simp [requestPhase, hlt])
  have hkeeps := keepsAnswer_transition h hf (lt_trans hlt h.bounds.restoration_lt) (fun _ => rfl)
    (requestBlock_activation h.bounds) h.bounds.fault_ne_activation.symm
  rw [← hline] at hkeeps
  rw [observedOutage_relabel (firstOfPhase_eq h.bounds).1 hrequest hkeeps]
  exact observedOutage_conforming h hf hbound

theorem observedRecovery_hurried (h : Planned run.choices n payloadBytes)
    (hf : run.Follows (workloadSteps run.choices) t) (hbound : 2 ≤ run.scenario.livenessEventBound) :
    (observedRecovery (t.relabel (hurry (run.eventAt (beforeRestart run.choices)))) run.scenario
      run.choices).isSome = true := by
  have hlt := h.bounds.activation_lt
  obtain ⟨request, hrequest⟩ := h.exists_request h.bounds.restoration_lt
  have hline := networkLine_eq hrequest (show requestPhase _ run.choices.outageActivationRequestIndex
    run.choices.restorationRequestIndex = .recovery by simp [requestPhase, Nat.not_lt.mpr hlt.le])
  have hkeeps := keepsAnswer_transition h hf h.bounds.restoration_lt (fun _ => rfl)
    (requestBlock_restoration h.bounds) h.bounds.fault_ne_restoration.symm
  rw [← hline] at hkeeps
  rw [observedRecovery_relabel (firstOfPhase_eq h.bounds).2 hrequest hkeeps]
  exact observedRecovery_conforming h hf hbound

/-- The echo is two events behind the restart. -/
theorem observedRestart_hurried (h : Planned run.choices n payloadBytes)
    (hf : run.Follows (workloadSteps run.choices) t) (hbound : 2 ≤ run.scenario.livenessEventBound) :
    (observedRestart (t.relabel (hurry (run.eventAt (beforeRestart run.choices)))) run.scenario
      run.choices).isSome = true := by
  have hstarts : (t.relabel (hurry (run.eventAt (beforeRestart run.choices)))).starts = t.starts := rfl
  have hecho : ((t.relabel (hurry (run.eventAt (beforeRestart run.choices)))).stdoutLines 2).find?
      (·.text == utf8 "echo value=" ++ echoToken run.choices.seed 2) =
        some ⟨utf8 "echo value=" ++ echoToken run.choices.seed 2, run.eventAt (beforeRestart run.choices) + 2,
          run.eventAt (beforeRestart run.choices) + 2⟩ := by
    have htext : (fun line : CompletedLine => line.text == utf8 "echo value=" ++ echoToken run.choices.seed 2) ∘
        CompletedLine.relabel (hurry (run.eventAt (beforeRestart run.choices))).line =
          fun line => line.text == utf8 "echo value=" ++ echoToken run.choices.seed 2 := rfl
    rw [WorkloadTrace.stdoutLines_relabel, List.find?_map, htext, restartLine_eq h hf]
    simp [CompletedLine.relabel, hurry]
  simp [observedRestart, hstarts, starts_eq h.bounds hf, hecho, -WorkloadTrace.stdoutLines_relabel]
  omega

/-- **The hurried run passes.** -/
theorem evaluateTrace_hurried (h : Planned run.choices n payloadBytes)
    (hf : run.Follows (workloadSteps run.choices) t)
    (houtage : 2 ≤ run.scenario.outageEventBound) (hliveness : 2 ≤ run.scenario.livenessEventBound) :
    (evaluateTrace run.sha256 (t.relabel (hurry (run.eventAt (beforeRestart run.choices))))
      run.scenario run.choices run.launch).passed = true := by
  obtain ⟨outage, hobserved⟩ := Option.isSome_iff_exists.mp (observedOutage_hurried h hf houtage)
  obtain ⟨recovery, hrecovery⟩ := Option.isSome_iff_exists.mp (observedRecovery_hurried h hf hliveness)
  obtain ⟨restart, hrestart⟩ := Option.isSome_iff_exists.mp (observedRestart_hurried h hf hliveness)
  obtain ⟨safety, hsafety⟩ := exists_eq_ok (processSafety_conforming h hf)
  obtain ⟨integrity, hintegrity⟩ := exists_eq_ok (responseIntegrity_conforming h hf)
  have hescaped : ∀ line, t.anyStdoutLine escapedDescendantLine = some line →
      (hurry (run.eventAt (beforeRestart run.choices))).line line.eventId = line.eventId := by
    intro line hline
    rw [escapedLine_eq h hf] at hline
    cases hline
    have hspawn := @eventAt_beforeTermination run
    have hterminate := @eventAt_beforeRestart run
    exact (hurry_fixes (.inl (by dsimp only; omega))).line
  have hrestoration : restorationOfScenario (t.relabel (hurry (run.eventAt (beforeRestart run.choices))))
      run.scenario = restorationOfScenario t run.scenario := rfl
  simp only [evaluateTrace, processSafety_relabel hsafety hescaped,
    responseIntegrity_relabel hintegrity (hurry_order _), controlledOutage, hobserved, restorationResult,
      hrestoration, restorationOfScenario_eq h.bounds hf, boundedRecovery, hrecovery, hrestart, List.all_cons,
      List.all_nil, assertion, Bool.and_self]

end Records

/-! ## The scenarios that a run can pass -/

/-- The outage line is two events behind the activation: its acknowledgement is between them. -/
theorem outage_distance {sha256 : Sha256} {events : List EventFrame} {scenario : WorkloadScenario}
    {choices : WorkloadChoicePlan} {launch : LaunchIdentity} (hinc : Increasing events)
    (hpass : (evaluateWorkload sha256 events scenario choices launch).passed = true) :
    2 ≤ scenario.outageEventBound := by
  obtain ⟨⟨_, hsafety⟩, ⟨_, hintegrity⟩, ⟨_, houtage⟩, -⟩ := evaluateTrace_passed hpass
  obtain ⟨_, _, _, _, hsafe⟩ := processSafety_ok hsafety
  obtain ⟨hfirst, hsecond, -⟩ := responseIntegrity_ok hintegrity
  obtain ⟨observed, hobserved⟩ : ∃ observed,
      observedOutage (WorkloadTrace.ofEvents events) scenario choices = some observed := by
    unfold controlledOutage at houtage
    cases hobserved : observedOutage (WorkloadTrace.ofEvents events) scenario choices with
    | none =>
      rw [hobserved] at houtage
      cases houtage
    | some observed => exact ⟨observed, rfl⟩
  unfold observedOutage at hobserved
  obtain ⟨⟨_, activationId⟩, -, hobserved⟩ := Option.bind_eq_some_iff.mp hobserved
  obtain ⟨_, -, hobserved⟩ := Option.bind_eq_some_iff.mp hobserved
  obtain ⟨_, -, hobserved⟩ := Option.bind_eq_some_iff.mp hobserved
  obtain ⟨⟨line, acknowledged⟩, hfound, hobserved⟩ := Option.bind_eq_some_iff.mp hobserved
  have hconditions := (Option.ite_none_right_eq_some.mp hobserved).1
  simp only [Bool.and_eq_true, decide_eq_true_eq] at hconditions
  obtain ⟨⟨⟨hacknowledged, -⟩, -⟩, hdistance⟩ := hconditions
  obtain ⟨⟨k, s⟩, hentry, hpair⟩ := List.mem_flatMap.mp (List.mem_of_find?_eq_some hfound)
  rw [← mem_invocations hentry] at hpair
  obtain ⟨hline, hinput⟩ := List.of_mem_zip hpair
  -- the line was begun behind its acknowledgement
  have hlast : ∀ f ∈ events, f.eventId ≤ (events.map EventFrame.eventId).sum := fun f hf =>
    List.le_sum_of_mem (List.mem_map_of_mem hf)
  have hstamped := ((stamped_ofEvents hinc hlast).lines line (List.mem_of_mem_drop hline)).1
  have hresponses : Responses (WorkloadTrace.ofEvents events) choices k := by
    obtain ⟨f, hf, -, hout⟩ := line_completed line (List.mem_of_mem_drop hline)
    have hsound := WorkloadTrace.sound_of_clean hsafe.clean
    obtain ⟨pre, post, rfl, x, hx, hstarts⟩ := exists_start hsound hf (.inl (.inl hout))
    have hstarted := (started_iff hsound).mpr ⟨x, List.mem_append_left _ hx, hstarts⟩
    obtain ⟨start, hstart, hk⟩ := List.any_eq_true.mp hstarted
    have hmem := List.mem_map_of_mem (f := fun s : StartRecord => (s.invocation, s.launch)) hstart
    rw [hsafe.starts, beq_iff_eq.mp hk] at hmem
    simp only [List.mem_cons, Prod.mk.injEq, List.not_mem_nil, or_false] at hmem
    rcases hmem with ⟨rfl, -⟩ | ⟨rfl, -⟩
    · exact hfirst
    · exact hsecond
  have hanswer : acknowledged < line.firstEventId := by
    refine hresponses.acknowledged (acknowledged, line) ?_
    have hswap := List.mem_map_of_mem (f := Prod.swap) hpair
    rwa [WorkloadTrace.linesWithAck, List.zip_swap] at hswap
  omega

/-- Some frames with increasing identifiers pass. -/
def Passable (sha256 : Sha256) (scenario : WorkloadScenario) (seed : UInt64) (launch : LaunchIdentity) : Prop :=
  ∃ events, Increasing events ∧ (∀ f ∈ events, f.eventId < u64Size) ∧
    (evaluateWorkload sha256 events scenario (scenario.choices seed) launch).passed = true

theorem length_answers (run : RunContext) (steps : List WorkloadStep) :
    (run.answers steps).length ≤ 1 + 3 * steps.length := by
  induction steps using List.reverseRecOn with
  | nil => exact Nat.le_refl _
  | append_singleton steps step ih =>
    have hanswer : (run.answer steps step).length ≤ 3 := by
      cases hdialogue : step.dialogue run.choices with
      | some triple =>
        have hspec : Dialogue run steps step triple.1 triple.2.1 triple.2.2 := dialogue_spec hdialogue
        rw [hspec.answer]
        exact Nat.le_succ 2
      | none => cases step <;> simp [RunContext.answer, hdialogue]
    have hsnoc := @eventAt_snoc run steps step
    unfold eventAt at hsnoc
    rw [List.length_append, List.length_singleton]
    omega

/-- The conforming guest that counts its commands and events from one. -/
def countingGuest : ConformingGuest where
  firstEvent := 1
  command := (· + 1)
  increasing _ _ h := Nat.succ_lt_succ h
  diagnostics _ := {}
  reaped := 1
  reaped_ne := Nat.one_ne_zero

/-- The hurried guest meets an outage bound of two. -/
theorem passable_of_two_le (sha256 : Sha256) {scenario : WorkloadScenario} (hvalid : scenario.validate = .ok ())
    (seed : UInt64) (launch : LaunchIdentity) (houtage : 2 ≤ scenario.outageEventBound) :
    Passable sha256 scenario seed launch := by
  set run : RunContext := ⟨sha256, scenario, seed, scenario.choices seed, rfl, launch, countingGuest⟩ with hrun
  have hplanned : Planned run.choices scenario.requestCount scenario.payloadBytes := planned_choices hvalid seed
  have hshape := WorkloadScenario.validate_shape hvalid
  obtain ⟨rest, hbefore⟩ := plan_around_fault hplanned.bounds
  have hplan : beforeRestart run.choices ++ [.start 2] ++ [.echo 2] ++ (.state 2 :: rest ++ [.stdinEof 2]) =
      workloadSteps run.choices := by
    rw [workloadSteps_eq hplanned.bounds, hbefore, beforeRestart]
    simp
  have horderly := orderly_workloadSteps hplanned
  have hcount : ∀ before, before <+: workloadSteps run.choices → Countable run.choices before :=
    fun _ hbefore => countable_plan hplanned hbefore
  have hf : run.Follows (workloadSteps run.choices)
      (WorkloadTrace.ofEvents (run.events (workloadSteps run.choices))) :=
    follows_events hshape.peer_eq horderly hcount
  have hids := map_eventId_hurried run (beforeRestart run.choices) (.state 2 :: rest ++ [.stdinEof 2])
  rw [hplan, map_eventId_events] at hids
  refine ⟨hurriedEvents run (beforeRestart run.choices) (.state 2 :: rest ++ [.stdinEof 2]), ?_,
    fun f hmem => ?_, ?_⟩
  · rw [Increasing, ← List.pairwise_map (f := EventFrame.eventId), hids]
    exact List.pairwise_lt_range'
  · have hid := List.mem_map_of_mem (f := EventFrame.eventId) hmem
    rw [hids, List.mem_range'_1] at hid
    have hlength := length_answers run (workloadSteps run.choices)
    have hsteps := length_stepsBefore run.choices scenario.requestCount
    have hrequests := hshape.requests_le
    rw [workloadSteps_eq hplanned.bounds, List.length_append, List.length_singleton] at hlength
    rw [workloadSteps_eq hplanned.bounds] at hid
    have hfirst : run.guest.firstEvent = 1 := rfl
    unfold maxRequestCount at hrequests
    unfold u64Size
    omega
  · rw [evaluateWorkload, ofEvents_hurried hshape.peer_eq (by rw [hplan]; exact horderly)
      (by rw [hplan]; exact hcount), hplan]
    exact evaluateTrace_hurried hplanned hf houtage hshape.liveness_ge

/-- **The scenarios that a run can pass** are those with an outage bound of at least two: the validator accepts one
more. -/
theorem passable_iff (sha256 : Sha256) {scenario : WorkloadScenario} (hvalid : scenario.validate = .ok ())
    (seed : UInt64) (launch : LaunchIdentity) : Passable sha256 scenario seed launch ↔
      2 ≤ scenario.outageEventBound := by
  refine ⟨?_, passable_of_two_le sha256 hvalid seed launch⟩
  rintro ⟨events, hinc, -, hpass⟩
  exact outage_distance hinc hpass

/-- The sample scenario with the smallest bounds that pass. -/
def hurriedScenario : WorkloadScenario := { sampleScenario with outageEventBound := 2, livenessEventBound := 2 }

theorem passable_iff_sample : hurriedScenario.validate = .ok () ∧
    Passable sampleSha256 hurriedScenario 8 sampleLaunch := by
  have hvalid : hurriedScenario.validate = .ok () := by decide +kernel
  exact ⟨hvalid, (passable_iff sampleSha256 hvalid 8 sampleLaunch).mpr (by decide)⟩

/-- The sample scenario with the smallest bounds that are accepted. -/
def impassableScenario : WorkloadScenario := { sampleScenario with outageEventBound := 1, livenessEventBound := 2 }

theorem impassable_accepted : impassableScenario.validate = .ok () ∧
    ¬ Passable sampleSha256 impassableScenario 8 sampleLaunch := by
  refine ⟨by decide +kernel, ?_⟩
  rintro ⟨events, hinc, -, hpass⟩
  exact absurd (outage_distance hinc hpass) (by decide)

end SimFerret.Driver
