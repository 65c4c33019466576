import SimFerret.Driver.Controller

/-!
# SimFerret.Driver.Run — what the driver sends, receives and consumes

`Ran commands frames lines c c'` says what happened between two controllers: the commands that were sent, the
frames that were folded and the invocations whose lines were consumed, each in order.

* `receiveLoop_ok`, `drainLoop_ok`, `lineLoop_ok`: the loops.
* `exchange_ok`, `runStep_ran`: one step of the plan.
* `runSteps_split`, `runSteps_stopped`, `runSteps_ran`: whole plans.
-/

namespace SimFerret.Driver

open Checker Workload
open WorkloadTrace (ofEvents)

/-! ## Controllers -/

/-- The trace folds the received frames, both identifiers count from one, and only complete lines were consumed. -/
structure WorkloadController.Valid (c : WorkloadController) : Prop where
  trace : c.trace = ofEvents c.rawEvents
  nextEventId : c.nextEventId = c.rawEvents.length + 1
  eventIds : c.rawEvents.map EventFrame.eventId = List.range' 1 c.rawEvents.length
  nextCommandId : c.nextCommandId = c.sent.length + 1
  commandIds : c.sent.map CommandFrame.commandId = List.range' 1 c.sent.length
  consumed : ∀ k, c.consumed k ≤ c.trace.stdoutLineCount k

/-- What happened between two controllers. -/
structure Ran (commands : List Command) (frames : List EventFrame) (lines : List Nat) (c c' : WorkloadController) :
    Prop where
  valid : c.Valid → c'.Valid
  received : c'.rawEvents = c.rawEvents ++ frames
  sent : ∃ more, c'.sent = c.sent ++ more ∧ more.map CommandFrame.command = commands
  consumed : ∀ k, c'.consumed k = c.consumed k + lines.count k

theorem Ran.refl (c : WorkloadController) : Ran [] [] [] c c :=
  ⟨id, (List.append_nil _).symm, ⟨[], (List.append_nil _).symm, rfl⟩, fun _ => rfl⟩

theorem Ran.trans {m m' : List Command} {f f' : List EventFrame} {l l' : List Nat} {c c1 c2 : WorkloadController}
    (h : Ran m f l c c1) (h' : Ran m' f' l' c1 c2) : Ran (m ++ m') (f ++ f') (l ++ l') c c2 := by
  refine ⟨fun hv => h'.valid (h.valid hv), ?_, ?_, fun k => ?_⟩
  · rw [h'.received, h.received, List.append_assoc]
  · obtain ⟨more, hmore, rfl⟩ := h.sent
    obtain ⟨more', hmore', rfl⟩ := h'.sent
    exact ⟨more ++ more', by rw [hmore', hmore, List.append_assoc], List.map_append⟩
  · rw [h'.consumed, h.consumed, List.count_append, Nat.add_assoc]

/-- A sent command stays sent. -/
theorem Ran.mem_sent {m : List Command} {f : List EventFrame} {l : List Nat} {c c' : WorkloadController}
    (h : Ran m f l c c') {command : CommandFrame} (hc : command ∈ c.sent) : command ∈ c'.sent := by
  obtain ⟨more, hmore, -⟩ := h.sent
  rw [hmore]
  exact List.mem_append_left _ hc

theorem map_range'_snoc {α : Type} {l : List α} {a : α} {g : α → Nat} (h : l.map g = List.range' 1 l.length)
    (ha : g a = l.length + 1) : (l ++ [a]).map g = List.range' 1 (l ++ [a]).length := by
  rw [List.map_append, h, List.length_append, List.length_singleton, List.range'_1_concat, List.map_singleton, ha,
    Nat.add_comm 1]

theorem absorb_ok {c c' : WorkloadController} {frame : EventFrame} :
    c.absorb frame = .ok c' ↔ (frame.protocolVersion = protocolVersion ∧ frame.eventId = c.nextEventId ∧
      frame.commandId ≠ 0 ∧ frame.commandId < c.nextCommandId) ∧ c' = c.fold frame := by
  unfold WorkloadController.absorb
  split
  · rename_i h
    constructor
    · intro heq
      cases heq
    · rintro ⟨⟨h1, h2, h3, h4⟩, -⟩
      rcases h with h | h | h | h
      · exact absurd h1 h
      · exact absurd h2 h
      · exact absurd h h3
      · omega
  · rename_i h
    simp only [not_or, not_not, not_le] at h
    rw [Except.ok.injEq, eq_comm]
    exact ⟨fun heq => ⟨h, heq⟩, And.right⟩

theorem ran_absorb {c c' : WorkloadController} {frame : EventFrame} (h : c.absorb frame = .ok c') :
    Ran [] [frame] [] c c' := by
  obtain ⟨⟨-, hid, -, -⟩, rfl⟩ := absorb_ok.mp h
  refine ⟨fun hv => ⟨?_, ?_, ?_, hv.nextCommandId, hv.commandIds, fun k => ?_⟩, rfl,
    ⟨[], (List.append_nil _).symm, rfl⟩, fun _ => rfl⟩
  · show c.trace.push frame = ofEvents (c.rawEvents ++ [frame])
    rw [WorkloadTrace.ofEvents_snoc, hv.trace]
  · show c.nextEventId + 1 = (c.rawEvents ++ [frame]).length + 1
    rw [hv.nextEventId, List.length_append, List.length_singleton]
  · exact map_range'_snoc hv.eventIds (hid.trans hv.nextEventId)
  · exact (hv.consumed k).trans (lines_foldl [frame]).length_le

theorem ran_record (c : WorkloadController) (command : Command) : Ran [command] [] [] c (c.record command) := by
  refine ⟨fun hv => ⟨hv.trace, hv.nextEventId, hv.eventIds, ?_, ?_, hv.consumed⟩, (List.append_nil _).symm,
    ⟨[_], rfl, rfl⟩, fun _ => rfl⟩
  · show c.nextCommandId + 1 = (c.sent ++ [_]).length + 1
    rw [hv.nextCommandId, List.length_append, List.length_singleton]
  · exact map_range'_snoc hv.commandIds hv.nextCommandId

/-- The two locals of the drive do not matter to what ran. -/
theorem ran_locals (c : WorkloadController) (offsets : Std.ExtTreeMap Nat Nat) (outageActive : Bool) :
    Ran [] [] [] c { c with offsets := offsets, outageActive := outageActive } :=
  ⟨fun hv => ⟨hv.1, hv.2, hv.3, hv.4, hv.5, hv.6⟩, (List.append_nil _).symm, ⟨[], (List.append_nil _).symm, rfl⟩,
    fun _ => rfl⟩

/-- The identifiers of the received frames increase. -/
theorem WorkloadController.Valid.increasing {c : WorkloadController} (h : c.Valid) : Increasing c.rawEvents := by
  have hsorted : (c.rawEvents.map EventFrame.eventId).Pairwise (· < ·) := by
    rw [h.eventIds]
    exact List.pairwise_lt_range' ..
  exact List.pairwise_map.mp hsorted

theorem WorkloadController.Valid.eventId_le {c : WorkloadController} (h : c.Valid) :
    ∀ f ∈ c.rawEvents, f.eventId ≤ c.rawEvents.length := by
  intro f hf
  have hmem : f.eventId ∈ List.range' 1 c.rawEvents.length := h.eventIds ▸ List.mem_map_of_mem hf
  rw [List.mem_range'_1] at hmem
  omega

/-- A frame received after a controller has an identifier past its count. -/
theorem Ran.eventId_gt {m : List Command} {f : List EventFrame} {l : List Nat} {c c' : WorkloadController}
    (h : Ran m f l c c') (hv : c.Valid) : ∀ x ∈ f, c.rawEvents.length < x.eventId := by
  intro x hx
  obtain ⟨pre, post, rfl⟩ := List.append_of_mem hx
  have hids := (h.valid hv).eventIds
  rw [h.received, ← List.append_assoc] at hids
  have hget : ((c.rawEvents ++ pre ++ x :: post).map EventFrame.eventId)[(c.rawEvents ++ pre).length]? =
      some x.eventId := by simp
  rw [hids, List.getElem?_range'] at hget
  · simp only [List.length_append, Option.some.injEq] at hget
    omega
  · simp

/-! ## Loops -/

theorem lift_ok {α : Type} {c : WorkloadController} {x : IoResult α} {a : α} : c.lift x = .ok a ↔ x = .ok a := by
  cases x with
  | ok b => simp [WorkloadController.lift, Except.mapError]
  | error e => simp [WorkloadController.lift, Except.mapError]

theorem receiveLoop_ok {α : Type} {body : EventFrame → WorkloadController → IoResult (Option α)} {a : α}
    {queue' : List Delivery} {c' : WorkloadController} : ∀ {queue : List Delivery} {c : WorkloadController},
    receiveLoop body queue c = .ok (a, queue', c') →
    ∃ frames last, Ran [] (frames ++ [last]) [] c c' ∧ body last c' = .ok (some a) ∧
      ∀ f ∈ frames, ∃ cf, body f cf = .ok none
  | [], c, h => by cases h
  | .quiet :: queue, c, h => by cases h
  | .closed :: queue, c, h => by cases h
  | .failure error :: queue, c, h => by cases h
  | .event frame :: queue, c, h => by
    rw [receiveLoop] at h
    obtain ⟨c1, habsorb, h⟩ := bind_eq_ok.mp h
    obtain ⟨result, hbody, h⟩ := bind_eq_ok.mp h
    rw [lift_ok] at habsorb hbody
    have hran := ran_absorb habsorb
    cases result with
    | some b =>
      cases h
      exact ⟨[], frame, hran, hbody, fun f hf => absurd hf List.not_mem_nil⟩
    | none =>
      obtain ⟨frames, last, hrest, hlast, hall⟩ := receiveLoop_ok h
      refine ⟨frame :: frames, last, hran.trans hrest, hlast, fun f hf => ?_⟩
      rcases List.mem_cons.mp hf with rfl | hf
      · exact ⟨c1, hbody⟩
      · exact hall f hf

theorem drainLoop_ok {u : Unit} {queue' : List Delivery} {c' : WorkloadController} :
    ∀ {queue : List Delivery} {c : WorkloadController}, drainLoop queue c = .ok (u, queue', c') →
    ∃ frames, Ran [] frames [] c c'
  | [], c, h => by cases h
  | .closed :: queue, c, h => by cases h
  | .failure error :: queue, c, h => by cases h
  | .quiet :: queue, c, h => by
    cases h
    exact ⟨[], .refl _⟩
  | .event frame :: queue, c, h => by
    rw [drainLoop] at h
    obtain ⟨c1, habsorb, h⟩ := bind_eq_ok.mp h
    obtain ⟨frames, hrest⟩ := drainLoop_ok h
    exact ⟨frame :: frames, (ran_absorb (lift_ok.mp habsorb)).trans hrest⟩

/-- The controller after a line of an invocation was consumed. -/
def WorkloadController.takeLine (c : WorkloadController) (invocation : Nat) : WorkloadController :=
  { c with consumedLines := c.consumedLines.insert invocation (c.consumed invocation + 1) }

theorem consumed_takeLine (c : WorkloadController) (k j : Nat) :
    (c.takeLine k).consumed j = c.consumed j + [k].count j := by
  show ((c.consumedLines.insert k (c.consumed k + 1))[j]?).getD 0 = _
  rw [Std.ExtTreeMap.getElem?_insert, List.count_singleton]
  by_cases h : k = j
  · subst h
    simp
  · simp [h, WorkloadController.consumed]

theorem ran_takeLine {c : WorkloadController} {k : Nat} (h : c.consumed k < c.trace.stdoutLineCount k) :
    Ran [] [] [k] c (c.takeLine k) := by
  refine ⟨fun hv => ⟨hv.1, hv.2, hv.3, hv.4, hv.5, fun j => ?_⟩, (List.append_nil _).symm,
    ⟨[], (List.append_nil _).symm, rfl⟩, consumed_takeLine c k⟩
  rw [consumed_takeLine, List.count_singleton]
  show _ ≤ c.trace.stdoutLineCount j
  split
  · rename_i hj
    rw [← beq_iff_eq.mp hj]
    exact h
  · exact hv.consumed j

/-- A wait that found its line consumed it. -/
theorem nextLine_some {k : Nat} {expected : Text} {c c' : WorkloadController} {matched : Bool}
    (h : nextLine k expected c = some (matched, c')) :
    (matched = false ∧ c' = c) ∨ (c' = c.takeLine k ∧ c.consumed k < c.trace.stdoutLineCount k) := by
  unfold nextLine at h
  split at h
  · cases h
    exact .inl ⟨rfl, rfl⟩
  · split at h
    · rename_i hlt
      cases h
      exact .inr ⟨rfl, hlt⟩
    · split at h
      · cases h
        exact .inl ⟨rfl, rfl⟩
      · cases h

theorem lineLoop_ok {k : Nat} {expected : Text} {matched : Bool} {queue' : List Delivery}
    {c' : WorkloadController} : ∀ {queue : List Delivery} {c : WorkloadController},
    lineLoop k expected queue c = .ok (matched, queue', c') →
    ∃ frames lines, Ran [] frames lines c c' ∧
      (matched = true → lines = [k])
  | queue, c, h => by
    rw [lineLoop.eq_def] at h
    split at h
    · rename_i m c1 hnext
      cases h
      rcases nextLine_some hnext with ⟨rfl, rfl⟩ | ⟨rfl, hlt⟩
      · exact ⟨[], [], .refl _, fun h => absurd h Bool.false_ne_true⟩
      · exact ⟨[], [k], ran_takeLine hlt, fun _ => rfl⟩
    · match queue, h with
      | .event frame :: queue, h =>
        obtain ⟨c1, habsorb, h⟩ := bind_eq_ok.mp h
        obtain ⟨frames, lines, hrest, hmatched⟩ := lineLoop_ok h
        exact ⟨frame :: frames, lines, (ran_absorb (lift_ok.mp habsorb)).trans hrest, hmatched⟩

/-! ## Operations -/

section Operations

variable {s s' : List Delivery × WorkloadController}

theorem controller_ok {c : WorkloadController} (h : controller s = .ok (c, s')) : c = s.2 ∧ s' = s := by
  cases h
  exact ⟨rfl, rfl⟩

theorem update_ok {f : WorkloadController → WorkloadController} {u : Unit} (h : update f s = .ok (u, s')) :
    s'.2 = f s.2 := by
  cases h
  rfl

theorem drain_ok {u : Unit} (h : drain s = .ok (u, s')) : ∃ frames, Ran [] frames [] s.2 s'.2 := drainLoop_ok h

theorem issue_ok {command : Command} {id : Nat} (h : issue command s = .ok (id, s')) :
    id = s.2.nextCommandId ∧ s'.2 = s.2.record command := by
  unfold issue at h
  split at h
  · cases h
  · cases h
    exact ⟨rfl, rfl⟩

theorem isHealthy_ok {k : Nat} {b : Bool} (h : isHealthy k s = .ok (b, s')) : s' = s ∧ b = s.2.healthy k := by
  unfold isHealthy at h
  obtain ⟨t, s1, hget, h⟩ := Action.bind_ok.mp h
  obtain ⟨rfl, rfl⟩ := controller_ok hget
  obtain ⟨rfl, rfl⟩ := Action.pure_ok.mp h
  exact ⟨rfl, rfl⟩

theorem live_ok {k : Nat} {b : Bool} (h : live k s = .ok (b, s')) :
    (∃ frames, Ran [] frames [] s.2 s'.2) ∧ (b = true → s'.2.trace.exited k = false) := by
  unfold live at h
  obtain ⟨_, s1, hdrain, h⟩ := Action.bind_ok.mp h
  obtain ⟨t, s2, hget, h⟩ := Action.bind_ok.mp h
  obtain ⟨rfl, rfl⟩ := controller_ok hget
  obtain ⟨rfl, rfl⟩ := Action.pure_ok.mp h
  refine ⟨drain_ok hdrain, fun hb => ?_⟩
  rw [Bool.not_eq_true', Bool.or_eq_false_iff] at hb
  exact hb.1

theorem expectBody_some {id : Nat} {description : Text} {allow : Bool} {predicate : Event → Bool}
    {frame r : EventFrame} {c : WorkloadController}
    (h : expectBody id description allow predicate frame c = .ok (some r)) :
    r = frame ∧ predicate frame.event = true ∧ frame.commandId = id := by
  unfold expectBody at h
  split at h
  · rename_i hpred
    obtain ⟨_, hid, h⟩ := bind_eq_ok.mp h
    rw [require_eq_ok, beq_iff_eq] at hid
    cases h
    exact ⟨rfl, hpred, hid⟩
  · obtain ⟨_, -, h⟩ := bind_eq_ok.mp h
    obtain ⟨_, -, h⟩ := bind_eq_ok.mp h
    cases h

theorem expectBody_none {id : Nat} {description : Text} {allow : Bool} {predicate : Event → Bool}
    {frame : EventFrame} {c : WorkloadController}
    (h : expectBody id description allow predicate frame c = .ok none) :
    (isWorkloadOutput frame.event || (allow && isTerminalWorkloadEvent frame.event)) = true := by
  unfold expectBody at h
  split at h
  · obtain ⟨_, -, h⟩ := bind_eq_ok.mp h
    cases h
  · obtain ⟨_, -, h⟩ := bind_eq_ok.mp h
    obtain ⟨_, hkind, -⟩ := bind_eq_ok.mp h
    exact require_eq_ok.mp hkind

theorem expect_ok {id : Nat} {description : Text} {allow : Bool} {predicate : Event → Bool} {frame : EventFrame}
    (h : expect id description allow predicate s = .ok (frame, s')) :
    ∃ frames, Ran [] (frames ++ [frame]) [] s.2 s'.2 ∧ predicate frame.event = true ∧ frame.commandId = id ∧
      ∀ f ∈ frames, (isWorkloadOutput f.event || (allow && isTerminalWorkloadEvent f.event)) = true := by
  obtain ⟨frames, last, hran, hlast, hall⟩ := receiveLoop_ok h
  obtain ⟨rfl, hpred, hid⟩ := expectBody_some hlast
  refine ⟨frames, hran, hpred, hid, fun f hf => ?_⟩
  obtain ⟨cf, hcf⟩ := hall f hf
  exact expectBody_none hcf

theorem inputBody_true {id k start sent : Nat} {frame : EventFrame} {c : WorkloadController}
    (hlast : inputBody id k start sent frame c = .ok (some true)) :
    frame.commandId = id ∧ frame.event = .inputAccepted k (start + sent) sent false := by
  unfold inputBody at hlast
  split at hlast
  · rename_i actual offset bytes eof hev
    obtain ⟨_, hid, hlast⟩ := bind_eq_ok.mp hlast
    obtain ⟨_, hfields, -⟩ := bind_eq_ok.mp hlast
    rw [require_eq_ok, beq_iff_eq] at hid
    simp only [require_eq_ok, Bool.and_eq_true, beq_iff_eq, Bool.not_eq_true'] at hfields
    obtain ⟨⟨⟨rfl, rfl⟩, rfl⟩, rfl⟩ := hfields
    exact ⟨hid, hev⟩
  · split at hlast
    · cases hlast
    · cases hlast
  · split at hlast
    · cases hlast
    · cases hlast
  · cases hlast
  · cases hlast

theorem awaitInputAccepted_ok {id k start sent : Nat} {accepted : Bool}
    (h : awaitInputAccepted id k start sent s = .ok (accepted, s')) :
    ∃ frames last, Ran [] (frames ++ [last]) [] s.2 s'.2 ∧
      (accepted = true → last.commandId = id ∧ last.event = .inputAccepted k (start + sent) sent false) := by
  obtain ⟨frames, last, hran, hlast, -⟩ := receiveLoop_ok h
  exact ⟨frames, last, hran, fun haccepted => inputBody_true (haccepted ▸ hlast)⟩

/-- The acknowledgement of a command line is among the frames. -/
def Acknowledged (sent : List CommandFrame) (frames : List EventFrame) (k : Nat) (text : Text) : Prop :=
  ∃ command ∈ sent, ∃ ack ∈ frames, (∃ offset, command.command = .stdinWrite k offset (encodeBytes text)) ∧
    ack.commandId = command.commandId ∧ ∃ offset, ack.event = .inputAccepted k offset text.length false

theorem writeStdin_ok {k : Nat} {text : Text} {written : Bool} (h : writeStdin k text s = .ok (written, s')) :
    ∃ commands frames, Ran commands frames [] s.2 s'.2 ∧
      (commands = [] ∨ ∃ offset, commands = [.stdinWrite k offset (encodeBytes text)]) ∧
      (written = true → Acknowledged s'.2.sent frames k text) := by
  unfold writeStdin at h
  obtain ⟨_, s1, hdrain, h⟩ := Action.bind_ok.mp h
  obtain ⟨b, s2, hhealthy, h⟩ := Action.bind_ok.mp h
  obtain ⟨rfl, rfl⟩ := isHealthy_ok hhealthy
  obtain ⟨drained, hdrained⟩ := drain_ok hdrain
  split at h
  · obtain ⟨rfl, rfl⟩ := Action.pure_ok.mp h
    exact ⟨[], drained, hdrained, .inl rfl, fun h => absurd h Bool.false_ne_true⟩
  · obtain ⟨t, s3, hget, h⟩ := Action.bind_ok.mp h
    obtain ⟨rfl, rfl⟩ := controller_ok hget
    obtain ⟨id, s4, hissue, h⟩ := Action.bind_ok.mp h
    obtain ⟨rfl, hsent⟩ := issue_ok hissue
    obtain ⟨accepted, s5, hawait, h⟩ := Action.bind_ok.mp h
    obtain ⟨frames, last, hran, hlast⟩ := awaitInputAccepted_ok hawait
    have hrecord := ran_record s3.2 (.stdinWrite k (s3.2.offset k) (encodeBytes text))
    rw [← hsent] at hrecord
    have hall := (hdrained.trans hrecord).trans hran
    cases accepted with
    | false =>
      obtain ⟨rfl, rfl⟩ := Action.pure_ok.mp h
      exact ⟨_, _, hall, .inr ⟨_, rfl⟩, fun h => absurd h Bool.false_ne_true⟩
    | true =>
      obtain ⟨_, s6, hupdate, h⟩ := Action.bind_ok.mp h
      obtain ⟨rfl, rfl⟩ := Action.pure_ok.mp h
      have hs6 := update_ok hupdate
      obtain ⟨hid, hev⟩ := hlast rfl
      refine ⟨_, _, hall.trans (hs6 ▸ ran_locals s5.2 _ _), .inr ⟨_, rfl⟩, fun _ => ?_⟩
      refine ⟨⟨protocolVersion, s3.2.nextCommandId, .stdinWrite k (s3.2.offset k) (encodeBytes text)⟩, ?_, last,
        by simp, ⟨_, rfl⟩, hid, _, hev⟩
      rw [hs6]
      apply hran.mem_sent
      rw [hsent]
      exact List.mem_append_right _ List.mem_cons_self

theorem exchange_ok {k : Nat} {text expected : Text} {stopped : Bool}
    (h : exchange k text expected s = .ok (stopped, s')) :
    ∃ commands frames lines, Ran commands frames lines s.2 s'.2 ∧
      (commands = [] ∨ ∃ offset, commands = [.stdinWrite k offset (encodeBytes text)]) ∧
      (stopped = false → lines = [k] ∧ Acknowledged s'.2.sent frames k text) := by
  unfold exchange at h
  obtain ⟨written, s1, hwrite, h⟩ := Action.bind_ok.mp h
  obtain ⟨commands, frames, hran, hcommands, hack⟩ := writeStdin_ok hwrite
  cases written with
  | false =>
    obtain ⟨rfl, rfl⟩ := Action.pure_ok.mp h
    exact ⟨commands, frames, [], hran, hcommands, fun h => by cases h⟩
  | true =>
    obtain ⟨matched, s2, hwait, h⟩ := Action.bind_ok.mp h
    obtain ⟨rfl, rfl⟩ := Action.pure_ok.mp h
    obtain ⟨frames', lines, hran', hmatched⟩ := lineLoop_ok hwait
    have hall := hran.trans hran'
    rw [List.append_nil] at hall
    refine ⟨commands, frames ++ frames', lines, hall, hcommands, fun hstop => ?_⟩
    rw [Bool.not_eq_false'] at hstop
    refine ⟨hmatched hstop, ?_⟩
    obtain ⟨command, hcommand, ack, hmem, hrest⟩ := hack rfl
    exact ⟨command, hran'.mem_sent hcommand, ack, List.mem_append_left _ hmem, hrest⟩

theorem not_exits_of_output {frame : EventFrame} {k : Nat} (h : isWorkloadOutput frame.event = true) :
    ¬ Exits frame k := by
  rintro ⟨r, hr, -⟩
  rw [(exitOf_eq_some.mp hr).1] at h
  cases h

theorem exitBody_none {id k : Nat} {frame : EventFrame} {c : WorkloadController}
    (h : exitBody id k frame c = .ok none) : ¬ Exits frame k := by
  rintro ⟨r, hr, rfl⟩
  rw [exitBody, (exitOf_eq_some.mp hr).1] at h
  dsimp only at h
  rw [if_pos rfl] at h
  obtain ⟨_, -, h⟩ := bind_eq_ok.mp h
  cases h

theorem exitBody_false {id k : Nat} {frame : EventFrame} {c : WorkloadController}
    (h : exitBody id k frame c = .ok (some false)) : c.exitWaitFailed k = true ∧ ¬ Exits frame k := by
  unfold exitBody at h
  split at h
  · split at h
    · obtain ⟨_, -, h⟩ := bind_eq_ok.mp h
      cases h
    · cases h
  · rename_i hev
    refine ⟨?_, not_exits_of_output (by rw [hev]; rfl)⟩
    by_contra hfailed
    rw [if_neg hfailed] at h
    cases h
  · split at h
    · cases h
    · cases h

theorem exitBody_true {id k : Nat} {frame : EventFrame} {c : WorkloadController}
    (h : exitBody id k frame c = .ok (some true)) :
    ∃ status stdoutBytes stdoutSha256 stderrBytes stderrSha256 count,
      frame.event = .workloadExited k status stdoutBytes stdoutSha256 stderrBytes stderrSha256 count := by
  unfold exitBody at h
  split at h
  · rename_i actual status stdoutBytes stdoutSha256 stderrBytes stderrSha256 count hev
    split at h
    · rename_i heq
      exact ⟨status, stdoutBytes, stdoutSha256, stderrBytes, stderrSha256, count, heq ▸ hev⟩
    · cases h
  · split at h
    · cases h
    · cases h
  · split at h
    · cases h
    · cases h

/-- A wait that gave up saw a failure, and no exit before it. -/
theorem awaitExit_ok {id k : Nat} {done : Bool} (h : awaitExit id k s = .ok (done, s')) :
    ∃ frames, Ran [] frames [] s.2 s'.2 ∧
      (done = false → s'.2.exitWaitFailed k = true ∧ ∀ f ∈ frames, ¬ Exits f k) := by
  unfold awaitExit at h
  split at h
  · rename_i hfailed
    cases h
    exact ⟨[], .refl _, fun _ => ⟨hfailed, fun f hf => absurd hf List.not_mem_nil⟩⟩
  · obtain ⟨frames, last, hran, hlast, hall⟩ := receiveLoop_ok h
    refine ⟨frames ++ [last], hran, ?_⟩
    rintro rfl
    obtain ⟨hfailed, hexit⟩ := exitBody_false hlast
    refine ⟨hfailed, fun f hf => ?_⟩
    rcases List.mem_append.mp hf with hf | hf
    · obtain ⟨cf, hcf⟩ := hall f hf
      exact exitBody_none hcf
    · rw [List.mem_singleton.mp hf]
      exact hexit

theorem awaitEnd_ok {id k : Nat} {stopped : Bool} (h : awaitEnd id k s = .ok (stopped, s')) :
    ∃ frames, Ran [] frames [] s.2 s'.2 ∧
      (stopped = true → s'.2.exitWaitFailed k = true ∧ ∀ f ∈ frames, ¬ Exits f k) := by
  unfold awaitEnd at h
  obtain ⟨done, s1, hawait, h⟩ := Action.bind_ok.mp h
  obtain ⟨frames, hran, hdone⟩ := awaitExit_ok hawait
  cases done with
  | false =>
    obtain ⟨rfl, rfl⟩ := Action.pure_ok.mp h
    exact ⟨frames, hran, fun _ => hdone rfl⟩
  | true =>
    obtain ⟨frame, s2, hexpect, h⟩ := Action.bind_ok.mp h
    obtain ⟨rfl, rfl⟩ := Action.pure_ok.mp h
    obtain ⟨frames', hran', -⟩ := expect_ok hexpect
    exact ⟨_, hran.trans hran', fun h => by cases h⟩

/-- A command and the wait for its typed answer. -/
theorem issue_expect_ok {command : Command} {description : Text} {allow : Bool} {predicate : Event → Bool}
    {s1 : List Delivery × WorkloadController} {id : Nat} {frame : EventFrame}
    (hissue : issue command s = .ok (id, s1))
    (hexpect : expect id description allow predicate s1 = .ok (frame, s')) :
    ∃ frames, Ran [command] (frames ++ [frame]) [] s.2 s'.2 ∧ predicate frame.event = true ∧
      ∀ f ∈ frames, (isWorkloadOutput f.event || (allow && isTerminalWorkloadEvent f.event)) = true := by
  obtain ⟨rfl, hsent⟩ := issue_ok hissue
  obtain ⟨frames, hran, hpred, -, hall⟩ := expect_ok hexpect
  exact ⟨frames, (hsent ▸ ran_record s.2 command).trans hran, hpred, hall⟩

theorem restoreNetwork_ok {scenario : WorkloadScenario} {u : Unit} (h : restoreNetwork scenario s = .ok (u, s')) :
    ∃ frames frame, Ran [.restoreNetwork (peerCidr scenario)] (frames ++ [frame]) [] s.2 s'.2 ∧
      frame.event = .networkRestored (peerCidr scenario) := by
  unfold restoreNetwork at h
  obtain ⟨id, s1, hissue, h⟩ := Action.bind_ok.mp h
  obtain ⟨frame, s2, hexpect, h⟩ := Action.bind_ok.mp h
  obtain ⟨-, rfl⟩ := Action.pure_ok.mp h
  obtain ⟨frames, hran, hpred, -⟩ := issue_expect_ok hissue hexpect
  refine ⟨frames, frame, hran, ?_⟩
  split at hpred
  · rename_i hev
    rw [hev, beq_iff_eq.mp hpred]
  · cases hpred

end Operations

/-! ## Steps -/

/-- The invocation whose line a completed step consumes. -/
def WorkloadStep.lines : WorkloadStep → List Nat
  | .echo k | .state k | .spawnDescendant k | .start k | .request k _ => [k]
  | .terminate _ | .activate | .restore | .stdinEof _ => []

/-- The invocation that a completed step writes a line to. -/
def WorkloadStep.writes : WorkloadStep → List Nat
  | .echo k | .state k | .spawnDescendant k | .request k _ => [k]
  | .start _ | .terminate _ | .activate | .restore | .stdinEof _ => []

/-- The invocation that a step sends input or its end to. -/
def WorkloadStep.inputs : WorkloadStep → List Nat
  | .echo k | .state k | .spawnDescendant k | .request k _ | .stdinEof k => [k]
  | .start _ | .terminate _ | .activate | .restore => []

/-- The invocation an input command addresses. -/
def inputInvocation : Command → Option Nat
  | .stdinWrite k _ _ => some k
  | .stdinEof k => some k
  | _ => none

/-- What one step of the plan does. -/
structure StepRan (step : WorkloadStep) (stopped : Bool) (commands : List Command) (frames : List EventFrame)
    (lines : List Nat) (c c' : WorkloadController) : Prop where
  ran : Ran commands frames lines c c'
  inputs : (commands.filterMap inputInvocation).Sublist step.inputs
  lines_eq : stopped = false → lines = step.lines
  acknowledged : stopped = false → ∀ k, step.writes.count k ≤ (dataInputs frames k).length

theorem Acknowledged.data {sent : List CommandFrame} {frames : List EventFrame} {k : Nat} {text : Text}
    (h : Acknowledged sent frames k text) (j : Nat) : [k].count j ≤ (dataInputs frames j).length := by
  obtain ⟨_, -, ack, hmem, -, -, offset, hev⟩ := h
  rw [List.count_singleton]
  split
  · rename_i hk
    rw [beq_iff_eq] at hk
    subst hk
    have : ack ∈ frames.filter (isInputOf · k false) := List.mem_filter.mpr ⟨hmem, by simp [isInputOf, hev]⟩
    rw [dataInputs, List.length_map]
    exact List.length_pos_of_mem this
  · exact Nat.zero_le _

section Steps

variable {scenario : WorkloadScenario} {choices : WorkloadChoicePlan} {launch : LaunchIdentity}
  {s s' : List Delivery × WorkloadController} {stopped : Bool}

/-- What ends the input of an invocation: the drive stops before the command is sent, or the command is
acknowledged while the invocation runs and the wait for the exit gives up or not. -/
theorem stdinEof_ok {k : Nat} (h : runStep scenario choices launch (.stdinEof k) s = .ok (stopped, s')) :
    (stopped = true ∧ ∃ frames, Ran [] frames [] s.2 s'.2) ∨
    ∃ frames, Ran [.stdinEof k] frames [] s.2 s'.2 ∧
      (stopped = true → s'.2.exitWaitFailed k = true ∧ (s.2.Valid → s'.2.trace.exited k = false)) := by
  obtain ⟨alive, s1, hlive, h⟩ := Action.bind_ok.mp h
  obtain ⟨⟨drained, hdrained⟩, halive⟩ := live_ok hlive
  cases alive with
  | false =>
    obtain ⟨rfl, rfl⟩ := Action.pure_ok.mp h
    exact .inl ⟨rfl, drained, hdrained⟩
  | true =>
    obtain ⟨healthy, s2, hhealthy, h⟩ := Action.bind_ok.mp h
    obtain ⟨rfl, -⟩ := isHealthy_ok hhealthy
    cases healthy with
    | false =>
      obtain ⟨rfl, rfl⟩ := Action.pure_ok.mp h
      exact .inl ⟨rfl, drained, hdrained⟩
    | true =>
      obtain ⟨c, s3, hget, h⟩ := Action.bind_ok.mp h
      obtain ⟨rfl, rfl⟩ := controller_ok hget
      obtain ⟨id, s4, hissue, h⟩ := Action.bind_ok.mp h
      obtain ⟨frame, s5, hexpect, h⟩ := Action.bind_ok.mp h
      obtain ⟨frames, hran, hpred, hall⟩ := issue_expect_ok hissue hexpect
      obtain ⟨frames', hran', hend⟩ := awaitEnd_ok h
      refine .inr ⟨_, (hdrained.trans hran).trans hran', fun hstop => ⟨(hend hstop).1, fun hv => ?_⟩⟩
      have hv3 := hdrained.valid hv
      rw [((hran.trans hran').valid hv3).trace, (hran.trans hran').received, WorkloadTrace.ofEvents_append,
        ← hv3.trace]
      -- the frames since the liveness check are outputs, the acknowledgement and what the wait read past
      refine exited_foldl _ (fun f hf => ?_) (halive rfl)
      rcases List.mem_append.mp hf with hf | hf
      · rcases List.mem_append.mp hf with hf | hf
        · exact not_exits_of_output (by simpa using hall f hf)
        · rw [List.mem_singleton.mp hf]
          rintro ⟨r, hr, -⟩
          rw [(exitOf_eq_some.mp hr).1] at hpred
          cases hpred
      · exact (hend hstop).2 f hf

/-- A step that is an exchange. -/
theorem stepRan_exchange {step : WorkloadStep} {k : Nat} {text expected : Text}
    (h : exchange k text expected s = .ok (stopped, s')) (hlines : step.lines = [k]) (hwrites : step.writes = [k])
    (hinputs : step.inputs = [k]) : ∃ commands frames lines,
      StepRan step stopped commands frames lines s.2 s'.2 := by
  obtain ⟨commands, frames, lines, hran, hcommands, hdone⟩ := exchange_ok h
  refine ⟨commands, frames, lines, hran, ?_, fun hs => ?_, fun hs j => ?_⟩
  · rw [hinputs]
    rcases hcommands with rfl | ⟨offset, rfl⟩
    · exact List.nil_sublist _
    · exact List.Sublist.refl _
  · rw [hlines]
    exact (hdone hs).1
  · rw [hwrites]
    exact (hdone hs).2.data j

/-- **What one step of the plan does.** -/
theorem runStep_ran {step : WorkloadStep} (h : runStep scenario choices launch step s = .ok (stopped, s')) :
    ∃ commands frames lines, StepRan step stopped commands frames lines s.2 s'.2 := by
  cases step with
  | echo k => exact stepRan_exchange h rfl rfl rfl
  | state k => exact stepRan_exchange h rfl rfl rfl
  | spawnDescendant k => exact stepRan_exchange h rfl rfl rfl
  | request k index =>
    cases hrequest : choices.requests[index]? with
    | none =>
      rw [runStep, hrequest] at h
      exact absurd (lift_ok.mp h) (by simp)
    | some request =>
      rw [runStep, hrequest] at h
      exact stepRan_exchange h rfl rfl rfl
  | start k =>
    obtain ⟨id, s1, hissue, h⟩ := Action.bind_ok.mp h
    obtain ⟨frame, s2, hexpect, h⟩ := Action.bind_ok.mp h
    obtain ⟨matched, s3, hwait, h⟩ := Action.bind_ok.mp h
    obtain ⟨rfl, rfl⟩ := Action.pure_ok.mp h
    obtain ⟨frames, hran, -⟩ := issue_expect_ok hissue hexpect
    obtain ⟨frames', lines, hran', hmatched⟩ := lineLoop_ok hwait
    refine ⟨_, _, _, hran.trans hran', List.Sublist.refl _, fun hs => ?_, fun _ _ => Nat.zero_le _⟩
    exact hmatched (by simpa using hs)
  | activate =>
    obtain ⟨id, s1, hissue, h⟩ := Action.bind_ok.mp h
    obtain ⟨frame, s2, hexpect, h⟩ := Action.bind_ok.mp h
    obtain ⟨_, s3, hupdate, h⟩ := Action.bind_ok.mp h
    obtain ⟨rfl, rfl⟩ := Action.pure_ok.mp h
    obtain ⟨frames, hran, -⟩ := issue_expect_ok hissue hexpect
    have hlocal := ran_locals s2.2 s2.2.offsets true
    rw [← show s'.2 = _ from update_ok hupdate] at hlocal
    exact ⟨_, _, _, hran.trans hlocal, List.Sublist.refl _, fun _ => rfl, fun _ _ => Nat.zero_le _⟩
  | restore =>
    obtain ⟨_, s1, hrestore, h⟩ := Action.bind_ok.mp h
    obtain ⟨_, s2, hupdate, h⟩ := Action.bind_ok.mp h
    obtain ⟨rfl, rfl⟩ := Action.pure_ok.mp h
    obtain ⟨frames, frame, hran, -⟩ := restoreNetwork_ok hrestore
    have hlocal := ran_locals s1.2 s1.2.offsets false
    rw [← show s'.2 = _ from update_ok hupdate] at hlocal
    exact ⟨_, _, _, hran.trans hlocal, List.Sublist.refl _, fun _ => rfl, fun _ _ => Nat.zero_le _⟩
  | terminate k =>
    obtain ⟨alive, s1, hlive, h⟩ := Action.bind_ok.mp h
    obtain ⟨⟨drained, hdrained⟩, -⟩ := live_ok hlive
    cases alive with
    | false =>
      obtain ⟨rfl, rfl⟩ := Action.pure_ok.mp h
      exact ⟨_, _, _, hdrained, List.nil_sublist _, fun _ => rfl, fun _ _ => Nat.zero_le _⟩
    | true =>
      obtain ⟨healthy, s2, hhealthy, h⟩ := Action.bind_ok.mp h
      obtain ⟨rfl, -⟩ := isHealthy_ok hhealthy
      cases healthy with
      | false =>
        obtain ⟨rfl, rfl⟩ := Action.pure_ok.mp h
        exact ⟨_, _, _, hdrained, List.nil_sublist _, fun _ => rfl, fun _ _ => Nat.zero_le _⟩
      | true =>
        obtain ⟨id, s3, hissue, h⟩ := Action.bind_ok.mp h
        obtain ⟨frame, s4, hexpect, h⟩ := Action.bind_ok.mp h
        obtain ⟨frames, hran, -⟩ := issue_expect_ok hissue hexpect
        obtain ⟨frames', hran', -⟩ := awaitEnd_ok h
        exact ⟨_, _, _, (hdrained.trans hran).trans hran', List.Sublist.refl _, fun _ => rfl,
          fun _ _ => Nat.zero_le _⟩
  | stdinEof k =>
    rcases stdinEof_ok h with ⟨rfl, frames, hran⟩ | ⟨frames, hran, -⟩
    · exact ⟨_, _, _, hran, List.nil_sublist _, fun _ => rfl, fun _ _ => Nat.zero_le _⟩
    · exact ⟨_, _, _, hran, List.Sublist.refl _, fun _ => rfl, fun _ _ => Nat.zero_le _⟩

/-! ## Plans -/

/-- A plan that ran past a step ran the steps before it, the step and the steps behind it. -/
theorem runSteps_split {step : WorkloadStep} {post : List WorkloadStep} :
    ∀ {pre : List WorkloadStep} {s : List Delivery × WorkloadController},
    runSteps scenario choices launch (pre ++ step :: post) s = .ok (false, s') →
    ∃ s1 s2, runSteps scenario choices launch pre s = .ok (false, s1) ∧
      runStep scenario choices launch step s1 = .ok (false, s2) ∧
      runSteps scenario choices launch post s2 = .ok (false, s')
  | [], s, h => by
    obtain ⟨b, s1, hstep, h⟩ := Action.bind_ok.mp h
    cases b with
    | true =>
      obtain ⟨hb, -⟩ := Action.pure_ok.mp h
      cases hb
    | false => exact ⟨s, s1, rfl, hstep, h⟩
  | first :: pre, s, h => by
    obtain ⟨b, s0, hfirst, h⟩ := Action.bind_ok.mp h
    cases b with
    | true =>
      obtain ⟨hb, -⟩ := Action.pure_ok.mp h
      cases hb
    | false =>
      obtain ⟨s1, s2, hpre, hstep, hpost⟩ := runSteps_split h
      exact ⟨s1, s2, Action.bind_ok.mpr ⟨false, s0, hfirst, hpre⟩, hstep, hpost⟩

/-- A plan that stopped ran to the step that stopped it. -/
theorem runSteps_stopped : ∀ {steps : List WorkloadStep} {s : List Delivery × WorkloadController},
    runSteps scenario choices launch steps s = .ok (true, s') →
    ∃ pre step post s1, steps = pre ++ step :: post ∧ runSteps scenario choices launch pre s = .ok (false, s1) ∧
      runStep scenario choices launch step s1 = .ok (true, s')
  | [], s, h => by
    obtain ⟨hb, -⟩ := Action.pure_ok.mp h
    cases hb
  | step :: steps, s, h => by
    obtain ⟨b, s1, hstep, h⟩ := Action.bind_ok.mp h
    cases b with
    | true =>
      obtain ⟨-, rfl⟩ := Action.pure_ok.mp h
      exact ⟨[], step, steps, s, rfl, rfl, hstep⟩
    | false =>
      obtain ⟨pre, last, post, s2, rfl, hpre, hlast⟩ := runSteps_stopped h
      exact ⟨step :: pre, last, post, s2, rfl, Action.bind_ok.mpr ⟨false, s1, hstep, hpre⟩, hlast⟩

/-- **What a plan that was not stopped does.** -/
theorem runSteps_ran : ∀ {steps : List WorkloadStep} {s : List Delivery × WorkloadController},
    runSteps scenario choices launch steps s = .ok (false, s') →
    ∃ commands frames, Ran commands frames (steps.flatMap WorkloadStep.lines) s.2 s'.2 ∧
      (commands.filterMap inputInvocation).Sublist (steps.flatMap WorkloadStep.inputs) ∧
      ∀ k, (steps.flatMap WorkloadStep.writes).count k ≤ (dataInputs frames k).length
  | [], s, h => by
    obtain ⟨-, rfl⟩ := Action.pure_ok.mp h
    exact ⟨[], [], .refl _, List.Sublist.refl _, fun _ => Nat.zero_le _⟩
  | step :: steps, s, h => by
    obtain ⟨b, s1, hstep, h⟩ := Action.bind_ok.mp h
    cases b with
    | true =>
      obtain ⟨hb, -⟩ := Action.pure_ok.mp h
      cases hb
    | false =>
      obtain ⟨commands, frames, lines, hran⟩ := runStep_ran hstep
      obtain ⟨commands', frames', hran', hinputs', hdata'⟩ := runSteps_ran h
      obtain rfl := hran.lines_eq rfl
      refine ⟨commands ++ commands', frames ++ frames', hran.ran.trans hran', ?_, fun k => ?_⟩
      · rw [List.filterMap_append]
        exact hran.inputs.append hinputs'
      · have h1 := hran.acknowledged rfl k
        have h2 := hdata' k
        rw [List.flatMap_cons, List.count_append, dataInputs, List.filter_append, List.map_append,
          List.length_append]
        exact Nat.add_le_add h1 h2

end Steps

/-! ## The opening and the end of a run -/

section Ends

variable {scenario : WorkloadScenario} {s s' : List Delivery × WorkloadController} {u : Unit}

theorem configureNetwork_ok (h : configureNetwork scenario s = .ok (u, s')) :
    ∃ frames, Ran [.configureNetwork networkInterface guestCidr scenario.fixturePeer] frames [] s.2 s'.2 := by
  unfold configureNetwork at h
  obtain ⟨id, s1, hissue, h⟩ := Action.bind_ok.mp h
  obtain ⟨frame, s2, hexpect, h⟩ := Action.bind_ok.mp h
  obtain ⟨-, rfl⟩ := Action.pure_ok.mp h
  obtain ⟨frames, hran, -⟩ := issue_expect_ok hissue hexpect
  exact ⟨_, hran⟩

theorem finishEvents_ok (h : finishEvents s = .ok (u, s')) : s'.2 = s.2 := by
  unfold finishEvents at h
  split at h
  · cases h
    rfl
  all_goals cases h

/-- What follows the steps sends no input. -/
theorem closeRun_ok {stopped : Bool} (h : closeRun scenario stopped s = .ok (u, s')) :
    ∃ commands frames, Ran commands frames [] s.2 s'.2 ∧ commands.filterMap inputInvocation = [] := by
  have hshutdown : ∀ {s0 : List Delivery × WorkloadController}, (do
      let shutdown ← issue .shutdown
      awaitStopped shutdown
      finishEvents : Drive Unit) s0 = .ok (u, s') → ∃ frames, Ran [.shutdown] frames [] s0.2 s'.2 := by
    intro s0 h
    obtain ⟨id, s1, hissue, h⟩ := Action.bind_ok.mp h
    obtain ⟨-, hsent⟩ := issue_ok hissue
    obtain ⟨_, s2, hstopped, h⟩ := Action.bind_ok.mp h
    obtain ⟨frames, last, hran, -⟩ := receiveLoop_ok hstopped
    rw [finishEvents_ok h]
    exact ⟨_, (hsent ▸ ran_record s0.2 .shutdown).trans hran⟩
  unfold closeRun at h
  obtain ⟨c, s1, hget, h⟩ := Action.bind_ok.mp h
  obtain ⟨rfl, rfl⟩ := controller_ok hget
  split at h
  · obtain ⟨_, s2, hdrain, h⟩ := Action.bind_ok.mp h
    obtain ⟨_, s3, hrestore, h⟩ := Action.bind_ok.mp h
    obtain ⟨drained, hdrained⟩ := drain_ok hdrain
    obtain ⟨frames, frame, hrestored, -⟩ := restoreNetwork_ok hrestore
    obtain ⟨frames', hran⟩ := hshutdown h
    exact ⟨_, _, (hdrained.trans hrestored).trans hran, rfl⟩
  · obtain ⟨frames', hran⟩ := hshutdown h
    exact ⟨_, _, hran, rfl⟩

end Ends

end SimFerret.Driver
