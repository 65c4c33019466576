import SimFerret.Checker.Evaluate

/-!
# SimFerret.Checker.Relabel — the events of lines and inputs

The checks of the fold read bytes, offsets and numbers, never the events that the lines and the inputs of a
stream were recorded at.  So the fold of later frames commutes with a change of these events.

* `Relabelling`: other events for the lines and for the inputs.
* `push_relabel`, `foldl_relabel`: frames whose own events are fixed commute with it.
* `processSafety_relabel`, `responseIntegrity_relabel`: what the evaluators check survives.
-/

namespace SimFerret.Checker

open Workload (LaunchIdentity)

/-- Other events for the lines and for the inputs. -/
structure Relabelling where
  line : Nat → Nat
  input : Nat → Nat

/-- An event keeps its identifier. -/
structure Relabelling.Fixes (r : Relabelling) (eventId : Nat) : Prop where
  line : r.line eventId = eventId
  input : r.input eventId = eventId

def CompletedLine.relabel (f : Nat → Nat) (line : CompletedLine) : CompletedLine :=
  ⟨line.text, f line.eventId, f line.firstEventId⟩

namespace LineStream

def relabel (f : Nat → Nat) (l : LineStream) : LineStream :=
  { l with lines := l.lines.map (CompletedLine.relabel f), lineEvent := l.lineEvent.map f }

variable {f : Nat → Nat} {eventId : Nat}

theorem extend_relabel (h : f eventId = eventId) (l : LineStream) (offset : Nat) (data : Bytes) :
    (l.relabel f).extend eventId offset data = (l.extend eventId offset data).relabel f := by
  unfold extend relabel
  by_cases hstart : l.pending = [] ∧ data ≠ []
  · simp [hstart, h]
  · simp only [if_neg hstart]

theorem complete_relabel (h : f eventId = eventId) (l : LineStream) (line : Bytes) (more : Bool) :
    (l.relabel f).complete eventId line more = (l.complete eventId line more).relabel f := by
  unfold complete relabel
  cases l.lineEvent <;> cases more <;> simp [h, CompletedLine.relabel]

end LineStream

namespace InvocationStreams

def relabel (r : Relabelling) (s : InvocationStreams) : InvocationStreams :=
  { s with
    stdout := s.stdout.relabel r.line
    stderr := s.stderr.relabel r.line
    dataInputEvents := s.dataInputEvents.map r.input }

variable {r : Relabelling} {eventId : Nat}

@[simp] theorem stream_relabel (s : InvocationStreams) (stream : OutputStream) :
    (s.relabel r).stream stream = (s.stream stream).relabel r.line := by
  cases stream <;> rfl

@[simp] theorem setStream_relabel (s : InvocationStreams) (stream : OutputStream) (l : LineStream) :
    (s.relabel r).setStream stream (l.relabel r.line) = (s.setStream stream l).relabel r := by
  cases stream <;> rfl

theorem checkFrame_relabel (s : InvocationStreams) (invocation : Nat) (stream : OutputStream)
    (offset sequence : Nat) : (s.relabel r).checkFrame eventId invocation stream offset sequence =
      (s.checkFrame eventId invocation stream offset sequence).relabel r := by
  cases stream <;> rfl

theorem completeLine_relabel (h : r.line eventId = eventId) (s : InvocationStreams) (invocation : Nat)
    (stream : OutputStream) (line : Bytes) (more : Bool) :
    (s.relabel r).completeLine invocation eventId stream line more =
      (s.completeLine invocation eventId stream line more).relabel r := by
  unfold completeLine
  dsimp only
  cases stream with
  | stdout =>
    by_cases hlong : (Utf8.lossy line).length > maxResponseLineBytes
    · simp [relabel, setStream, violateIf, stream, hlong, LineStream.complete_relabel h]
    · simp [relabel, setStream, violateIf, stream, hlong, LineStream.complete_relabel h]
  | stderr => simp [relabel, setStream, violateIf, stream, LineStream.complete_relabel h]

theorem drainLines_relabel (h : r.line eventId = eventId) (invocation : Nat) (stream : OutputStream) :
    ∀ (parts : List Bytes) (s : InvocationStreams), (s.relabel r).drainLines invocation eventId stream parts =
      (s.drainLines invocation eventId stream parts).relabel r
  | [], _ => rfl
  | [rest], s => by cases stream <;> rfl
  | line :: second :: next, s => by
    rw [drainLines, drainLines, completeLine_relabel h, drainLines_relabel h invocation stream (second :: next)]

theorem checkOpenLine_relabel (s : InvocationStreams) (invocation : Nat) (stream : OutputStream) :
    (s.relabel r).checkOpenLine invocation stream = (s.checkOpenLine invocation stream).relabel r := by
  unfold checkOpenLine
  rw [apply_ite (relabel r)]
  rfl

/-- An output frame whose event is fixed. -/
theorem push_relabel (h : r.line eventId = eventId) (s : InvocationStreams) (invocation : Nat)
    (stream : OutputStream) (offset sequence : Nat)
    (data : Bytes) : (s.relabel r).push eventId invocation stream offset sequence data =
      (s.push eventId invocation stream offset sequence data).relabel r := by
  unfold push
  dsimp only
  rw [checkFrame_relabel, stream_relabel, LineStream.extend_relabel h, setStream_relabel, drainLines_relabel h,
    checkOpenLine_relabel]
  rfl

/-- An accepted input whose event is fixed. -/
theorem pushInput_relabel (h : r.input eventId = eventId) (s : InvocationStreams)
    (invocation commandId offset bytes : Nat) (eof : Bool) :
    (s.relabel r).pushInput invocation eventId commandId offset bytes eof =
      (s.pushInput invocation eventId commandId offset bytes eof).relabel r := by
  have hviolations : (s.relabel r).inputViolations invocation eventId commandId offset bytes eof =
      s.inputViolations invocation eventId commandId offset bytes eof := rfl
  unfold pushInput
  rw [hviolations]
  cases eof with
  | true => rfl
  | false => simp [relabel, h]

end InvocationStreams

namespace WorkloadTrace

def relabel (r : Relabelling) (t : WorkloadTrace) : WorkloadTrace :=
  { t with invocations := t.invocations.map fun _ s => s.relabel r }

variable {r : Relabelling}

@[simp] theorem streams_relabel (t : WorkloadTrace)
    (k : Nat) : (t.relabel r).streams k = (t.streams k).relabel r := by
  unfold streams relabel
  rw [Std.ExtTreeMap.getElem?_map]
  cases t.invocations[k]? <;> rfl

theorem relabel_setStreams (t : WorkloadTrace) (k : Nat) (s : InvocationStreams) :
    (t.setStreams k s).relabel r = (t.relabel r).setStreams k (s.relabel r) := by
  unfold relabel setStreams
  congr 1
  ext j
  simp only [Std.ExtTreeMap.getElem?_map, Std.ExtTreeMap.getElem?_insert]
  split_ifs <;> rfl

theorem setStreams_setStreams (t : WorkloadTrace) (k : Nat) (s s' : InvocationStreams) :
    (t.setStreams k s).setStreams k s' = t.setStreams k s' := by
  unfold setStreams
  congr 1
  ext j
  simp only [Std.ExtTreeMap.getElem?_insert]
  split_ifs <;> rfl

theorem push_relabel (t : WorkloadTrace) {frame : EventFrame} (h : r.Fixes frame.eventId) :
    (t.relabel r).push frame = (t.push frame).relabel r := by
  unfold push
  cases frame.event with
  | workloadStarted invocation launch =>
    have hstarted : (t.relabel r).started invocation = t.started invocation := rfl
    dsimp only
    rw [hstarted]
    cases t.started invocation <;> rfl
  | workloadExited => simp only [apply_ite (relabel r)]; rfl
  | terminationRequested => simp only [apply_ite (relabel r)]; rfl
  | cleanupComplete invocation reaped =>
    have hexits : (t.relabel r).exits = t.exits := rfl
    dsimp only
    rw [hexits]
    cases t.exits.find? (·.invocation == invocation) <;> simp only [apply_ite (relabel r)] <;> rfl
  | launchFailed => simp only [apply_ite (relabel r)]; rfl
  | networkConfigured interface cidr gateway =>
    have hconfigured : (t.relabel r).configured = t.configured := rfl
    dsimp only
    rw [hconfigured]
    cases t.configured <;> simp only [apply_ite (relabel r)] <;> rfl
  | outageActivated peerCidr rule =>
    have hactivations : (t.relabel r).activations = t.activations := rfl
    dsimp only
    rw [hactivations]
    cases t.activations.head? <;> simp only [apply_ite (relabel r)] <;> rfl
  | networkRestored peerCidr =>
    have hrestorations : (t.relabel r).restorations = t.restorations := rfl
    dsimp only
    rw [hrestorations]
    cases t.restorations.head? <;> rfl
  | workloadOutput invocation stream offset sequence bytes =>
    dsimp only
    rw [streams_relabel]
    cases decodeBytes bytes maxOutputFrameBytes with
    | error error => simp only [apply_ite (relabel r)]; rfl
    | ok data =>
      simp only [apply_ite (relabel r), relabel_setStreams, InvocationStreams.push_relabel h.line]
      rfl
  | inputAccepted invocation offset bytes eof =>
    dsimp only
    rw [streams_relabel]
    simp only [apply_ite (relabel r), relabel_setStreams, InvocationStreams.pushInput_relabel h.input]
    rfl
  | _ => rfl

/-- **Frames with fixed events commute with the change**, by induction on the frames. -/
theorem foldl_relabel : ∀ (frames : List EventFrame) (t : WorkloadTrace), (∀ f ∈ frames, r.Fixes f.eventId) →
    frames.foldl push (t.relabel r) = (frames.foldl push t).relabel r
  | [], _, _ => rfl
  | frame :: frames, t, h => by
    rw [List.foldl_cons, List.foldl_cons, push_relabel t (h frame List.mem_cons_self)]
    exact foldl_relabel frames _ fun f hf => h f (List.mem_cons_of_mem _ hf)

/-! ## What is read from the trace -/

@[simp] theorem stdoutLines_relabel (t : WorkloadTrace) (k : Nat) :
    (t.relabel r).stdoutLines k = (t.stdoutLines k).map (CompletedLine.relabel r.line) := by
  rw [stdoutLines, streams_relabel]
  rfl

@[simp] theorem stderrLines_relabel (t : WorkloadTrace) (k : Nat) :
    (t.relabel r).stderrLines k = (t.stderrLines k).map (CompletedLine.relabel r.line) := by
  rw [stderrLines, streams_relabel]
  rfl

@[simp] theorem allViolations_relabel (t : WorkloadTrace) : (t.relabel r).allViolations = t.allViolations := by
  unfold allViolations relabel
  rw [Std.ExtTreeMap.toList_map, List.flatMap_map]
  rfl

/-- A search by text finds the same line with its other events. -/
theorem find?_relabel {α : Type} {f : InvocationStreams → List α} {g : α → α} {p : α → Bool} (t : WorkloadTrace)
    (hf : ∀ s : InvocationStreams, f (s.relabel r) = (f s).map g) (hp : ∀ a, p (g a) = p a) :
    ((t.relabel r).invocations.toList.flatMap fun entry => f entry.2).find? p =
      ((t.invocations.toList.flatMap fun entry => f entry.2).find? p).map g := by
  have hmap : (t.relabel r).invocations.toList.flatMap (fun entry => f entry.2) =
      (t.invocations.toList.flatMap fun entry => f entry.2).map g := by
    unfold relabel
    rw [Std.ExtTreeMap.toList_map, List.flatMap_map, List.map_flatMap]
    simp only [hf]
  rw [hmap, List.find?_map]
  exact congrArg (Option.map g ∘ (List.find? · _)) (funext hp)

theorem anyStdoutLine_relabel (t : WorkloadTrace) (wanted : Text) :
    (t.relabel r).anyStdoutLine wanted = (t.anyStdoutLine wanted).map (CompletedLine.relabel r.line) :=
  t.find?_relabel (f := fun s => s.stdout.lines) (g := CompletedLine.relabel r.line) (fun _ => rfl) fun _ => rfl

theorem stdoutLineWithAck_relabel (t : WorkloadTrace) (wanted : Text) : (t.relabel r).stdoutLineWithAck wanted =
    (t.stdoutLineWithAck wanted).map (Prod.map (CompletedLine.relabel r.line) r.input) := by
  refine t.find?_relabel (fun s => ?_) fun _ => rfl
  show ((s.stdout.lines.map _).drop 1).zip (s.dataInputEvents.map _) = _
  rw [← List.map_drop, List.zip_map]
  rfl

end WorkloadTrace

/-! ## The evaluators -/

section Evaluators

variable {r : Relabelling} {t : WorkloadTrace} {choices : WorkloadChoicePlan}

/-- The processes stay safe when the line of the escaped descendant keeps its event. -/
theorem processSafety_relabel {launch : LaunchIdentity} {detail : Text}
    (h : processSafety t choices launch = .ok detail)
    (hescaped : ∀ line, t.anyStdoutLine escapedDescendantLine = some line → r.line line.eventId = line.eventId) :
    processSafety (t.relabel r) choices launch = .ok detail := by
  unfold processSafety at h
  obtain ⟨_, hclean, h⟩ := bind_eq_ok.mp h
  obtain ⟨_, h1, h⟩ := bind_eq_ok.mp h
  obtain ⟨_, h2, h⟩ := bind_eq_ok.mp h
  obtain ⟨_, h3, h⟩ := bind_eq_ok.mp h
  obtain ⟨_, h4, h⟩ := bind_eq_ok.mp h
  obtain ⟨_, h5, h⟩ := bind_eq_ok.mp h
  obtain ⟨_, h6, h⟩ := bind_eq_ok.mp h
  obtain ⟨_, h7, h⟩ := bind_eq_ok.mp h
  obtain ⟨_, h8, h⟩ := bind_eq_ok.mp h
  obtain ⟨_, h9, h⟩ := bind_eq_ok.mp h
  obtain ⟨_, h10, h⟩ := bind_eq_ok.mp h
  obtain ⟨_, h11, h⟩ := bind_eq_ok.mp h
  obtain ⟨_, h12, h⟩ := bind_eq_ok.mp h
  obtain ⟨escaped, hline, h⟩ := bind_eq_ok.mp h
  obtain ⟨_, h13, h⟩ := bind_eq_ok.mp h
  obtain ⟨_, h14, h⟩ := bind_eq_ok.mp h
  obtain ⟨_, h15, h⟩ := bind_eq_ok.mp h
  obtain ⟨_, h16, h⟩ := bind_eq_ok.mp h
  obtain ⟨_, hstale, h⟩ := bind_eq_ok.mp h
  obtain ⟨_, hfresh, h⟩ := bind_eq_ok.mp h
  have hline' : demandSome ((t.relabel r).anyStdoutLine escapedDescendantLine)
      "the first invocation never reported an escaped descendant" = .ok (escaped.relabel r.line) := by
    rw [WorkloadTrace.anyStdoutLine_relabel, demandSome_eq_ok.mp hline]
    rfl
  have hevent : (escaped.relabel r.line).eventId = escaped.eventId := hescaped escaped (demandSome_eq_ok.mp hline)
  have hcount : ∀ k, ((t.relabel r).stdoutLines k).countP (·.text == freshStateLine) =
      (t.stdoutLines k).countP (·.text == freshStateLine) := fun k => by
    rw [WorkloadTrace.stdoutLines_relabel, List.countP_map]
    rfl
  have hstale' : (((t.relabel r).stdoutLines 1 ++ (t.relabel r).stdoutLines 2).find? fun line =>
      stateLinePrefix.isPrefixOf line.text && line.text != freshStateLine) = none := by
    rw [WorkloadTrace.stdoutLines_relabel, WorkloadTrace.stdoutLines_relabel, ← List.map_append, List.find?_map,
      Option.map_eq_none_iff]
    exact demandNone_eq_ok.mp hstale
  unfold processSafety
  rw [WorkloadTrace.allViolations_relabel, hstale', hcount, hcount]
  refine bind_eq_ok.mpr ⟨_, hclean, bind_eq_ok.mpr ⟨_, h1, bind_eq_ok.mpr ⟨_, h2, bind_eq_ok.mpr ⟨_, h3, ?_⟩⟩⟩⟩
  refine bind_eq_ok.mpr ⟨_, h4, bind_eq_ok.mpr ⟨_, h5, bind_eq_ok.mpr ⟨_, h6, bind_eq_ok.mpr ⟨_, h7, ?_⟩⟩⟩⟩
  refine bind_eq_ok.mpr ⟨_, h8, bind_eq_ok.mpr ⟨_, h9, bind_eq_ok.mpr ⟨_, h10, bind_eq_ok.mpr ⟨_, h11, ?_⟩⟩⟩⟩
  refine bind_eq_ok.mpr ⟨_, h12, bind_eq_ok.mpr ⟨_, hline', bind_eq_ok.mpr ⟨_, hevent ▸ h13, ?_⟩⟩⟩
  exact bind_eq_ok.mpr ⟨_, h14, bind_eq_ok.mpr ⟨_, h15, bind_eq_ok.mpr ⟨_, h16, bind_eq_ok.mpr ⟨_, rfl,
    bind_eq_ok.mpr ⟨_, hfresh, h⟩⟩⟩⟩⟩

theorem invocationResponses_relabel {k : Nat} {u : Unit} (h : invocationResponses t choices k = .ok u)
    (horder : ∀ acknowledged first, acknowledged < first → r.input acknowledged < r.line first) :
    invocationResponses (t.relabel r) choices k = .ok u := by
  unfold invocationResponses at h
  obtain ⟨_, hlength, h⟩ := bind_eq_ok.mp h
  obtain ⟨_, htexts, h⟩ := bind_eq_ok.mp h
  obtain ⟨_, hinputs, hacks⟩ := bind_eq_ok.mp h
  have hdata : ((t.relabel r).streams k).dataInputEvents = (t.streams k).dataInputEvents.map r.input := by
    rw [WorkloadTrace.streams_relabel]
    rfl
  have heofs : ((t.relabel r).streams k).eofInputs = (t.streams k).eofInputs := by
    rw [WorkloadTrace.streams_relabel]
    rfl
  have htexts' : (((t.relabel r).stdoutLines k).zip (expectedLines choices k)).findIdx?
      (fun pair => pair.1.text != pair.2) = none := by
    rw [WorkloadTrace.stdoutLines_relabel, List.zip_map_left, List.findIdx?_map]
    exact demandNone_eq_ok.mp htexts
  have hacks' : ((((t.streams k).dataInputEvents.map r.input).zip (((t.relabel r).stdoutLines k).drop 1)).findIdx?
      fun pair => pair.2.firstEventId ≤ pair.1) = none := by
    rw [WorkloadTrace.stdoutLines_relabel, ← List.map_drop, List.zip_map, List.findIdx?_map,
      List.findIdx?_eq_none_iff]
    intro pair hpair
    have hlt := List.findIdx?_eq_none_iff.mp (demandNone_eq_ok.mp hacks) pair hpair
    rw [decide_eq_false_iff_not, not_le] at hlt
    exact decide_eq_false (not_le.mpr (horder _ _ hlt))
  have hlength' : ((t.relabel r).stdoutLines k).length = (t.stdoutLines k).length := by
    rw [WorkloadTrace.stdoutLines_relabel, List.length_map]
  unfold invocationResponses
  dsimp only
  rw [hdata, heofs, hlength', List.length_map]
  exact bind_eq_ok.mpr ⟨(), hlength, bind_eq_ok.mpr ⟨(), demandNone_eq_ok.mpr htexts', bind_eq_ok.mpr ⟨(), hinputs,
    demandNone_eq_ok.mpr hacks'⟩⟩⟩

theorem exitTotals_relabel (sha256 : Sha256) (exit : ExitRecord) :
    exitTotals sha256 (t.relabel r) exit = exitTotals sha256 t exit := by
  unfold exitTotals
  rw [WorkloadTrace.streams_relabel]
  rfl

/-- The responses stay sound when no input is moved behind a line that answers it. -/
theorem responseIntegrity_relabel {sha256 : Sha256} {detail : Text}
    (h : responseIntegrity sha256 t choices = .ok detail)
    (horder : ∀ acknowledged first, acknowledged < first → r.input acknowledged < r.line first) :
    responseIntegrity sha256 (t.relabel r) choices = .ok detail := by
  unfold responseIntegrity at h
  obtain ⟨_, h1, h⟩ := bind_eq_ok.mp h
  obtain ⟨_, h2, h⟩ := bind_eq_ok.mp h
  obtain ⟨_, hstderr, h⟩ := bind_eq_ok.mp h
  obtain ⟨_, hexits, h⟩ := bind_eq_ok.mp h
  have hstderr' : ((t.relabel r).stderrLines 1).head?.or ((t.relabel r).stderrLines 2).head? = none := by
    rw [WorkloadTrace.stderrLines_relabel, WorkloadTrace.stderrLines_relabel, List.head?_map, List.head?_map,
      ← Option.map_or, Option.map_eq_none_iff]
    exact demandNone_eq_ok.mp hstderr
  have hexits' : (t.relabel r).exits.forM (exitTotals sha256 (t.relabel r)) = .ok () := by
    rw [show exitTotals sha256 (t.relabel r) = exitTotals sha256 t from funext (exitTotals_relabel sha256)]
    exact hexits
  unfold responseIntegrity
  rw [WorkloadTrace.allViolations_relabel]
  exact bind_eq_ok.mpr ⟨_, invocationResponses_relabel h1 horder,
    bind_eq_ok.mpr ⟨_, invocationResponses_relabel h2 horder,
    bind_eq_ok.mpr ⟨(), demandNone_eq_ok.mpr hstderr', bind_eq_ok.mpr ⟨_, hexits', h⟩⟩⟩⟩

/-- The line and the acknowledgement that a text is found with keep their events. -/
def KeepsAnswer (r : Relabelling) (t : WorkloadTrace) (wanted : Text) : Prop :=
  ∀ line acknowledged, t.stdoutLineWithAck wanted = some (line, acknowledged) →
    line.relabel r.line = line ∧ r.input acknowledged = acknowledged

theorem KeepsAnswer.eq {wanted : Text} (h : KeepsAnswer r t wanted) :
    (t.relabel r).stdoutLineWithAck wanted = t.stdoutLineWithAck wanted := by
  rw [WorkloadTrace.stdoutLineWithAck_relabel]
  cases hfound : t.stdoutLineWithAck wanted with
  | none => rfl
  | some pair =>
    obtain ⟨hline, hinput⟩ := h pair.1 pair.2 hfound
    exact congrArg some (Prod.ext hline hinput)

theorem observedOutage_relabel {scenario : WorkloadScenario} {index : Nat} {request : PlannedRequest}
    (hindex : firstOfPhase choices .outage = some index) (hrequest : choices.requests[index]? = some request)
    (h : KeepsAnswer r t (expectedNetworkLine request .outage)) :
    observedOutage (t.relabel r) scenario choices = observedOutage t scenario choices := by
  unfold observedOutage
  simp only [hindex, hrequest, Option.bind_eq_bind, Option.bind_some, h.eq]
  rfl

theorem observedRecovery_relabel {scenario : WorkloadScenario} {index : Nat} {request : PlannedRequest}
    (hindex : firstOfPhase choices .recovery = some index) (hrequest : choices.requests[index]? = some request)
    (h : KeepsAnswer r t (expectedNetworkLine request .recovery)) :
    observedRecovery (t.relabel r) scenario choices = observedRecovery t scenario choices := by
  unfold observedRecovery
  simp only [hindex, hrequest, Option.bind_eq_bind, Option.bind_some, h.eq]
  rfl

end Evaluators

end SimFerret.Checker
