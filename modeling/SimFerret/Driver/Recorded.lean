import SimFerret.Driver.Replayed
import SimFerret.Driver.Run

/-!
# SimFerret.Driver.Recorded — a recorded workload run, replayed (`run.rs`)

A workload replay issues nothing: it reads the recorded number of events and evaluates the frames that it read.

* `Noted`: the events that the driver kept are those of the frames that it received.
* `driveWorkloadScenario_recorded`: **what a workload run leaves**, whatever the VM did.
* `replayWorkloadEvents_recorded`, `evaluateWorkload_likewise`: its replay reads the same events and comes to
  the same report.
-/

namespace SimFerret.Driver

open Checker Workload Action
open WorkloadTrace (ofEvents)

/-! ## What the driver notes -/

/-- The events are those of the received frames, which are numbered and came through the channel. -/
structure Noted (channel : List Delivery) (s : List Delivery × WorkloadController) : Prop where
  events : s.2.events = s.2.rawEvents.map EventFrame.normalize
  numbered : Numbered 1 s.2.rawEvents
  eventId : s.2.nextEventId = 1 + s.2.rawEvents.length
  received : ∀ frame ∈ s.2.rawEvents, .event frame ∈ channel
  queued : s.1 ⊆ channel

theorem noted_start (queue : List Delivery) (sends : List (IoResult Unit)) :
    Noted queue (queue, { sends := sends }) :=
  ⟨rfl, numbered_nil 1, rfl, fun _ h => absurd h List.not_mem_nil, List.Subset.refl _⟩

/-- What else changes does not matter. -/
theorem Noted.of_eq {channel queue : List Delivery} {s : List Delivery × WorkloadController}
    {c : WorkloadController} (h : Noted channel s) (hqueue : queue ⊆ s.1) (hevents : c.events = s.2.events)
    (hraw : c.rawEvents = s.2.rawEvents) (hid : c.nextEventId = s.2.nextEventId) : Noted channel (queue, c) where
  events := by
    show c.events = c.rawEvents.map EventFrame.normalize
    rw [hevents, hraw]
    exact h.events
  numbered := by
    show Numbered 1 c.rawEvents
    rw [hraw]
    exact h.numbered
  eventId := by
    show c.nextEventId = 1 + c.rawEvents.length
    rw [hid, hraw]
    exact h.eventId
  received frame hframe := h.received frame (hraw ▸ hframe)
  queued := List.Subset.trans hqueue h.queued

/-- A part of a drive that notes what it receives. -/
def Keeping (s s' : List Delivery × WorkloadController) : Prop := ∀ channel, Noted channel s → Noted channel s'

section Keeping

variable {α β : Type} {x : Drive α} {channel : List Delivery}

theorem Keeping.after {f : α → Drive β} (hx : Along Keeping x) (hf : ∀ a, Along Keeping (f a)) :
    Along Keeping (x >>= f) :=
  Along.bind (R := Keeping) (fun h h' channel hnoted => h' channel (h channel hnoted)) hx hf

theorem keeping_pure (a : α) : Along Keeping (pure a : Drive α) := Along.pure (fun _ _ h => h) a

theorem noted_absorb {c c' : WorkloadController} {frame : EventFrame} {queue : List Delivery}
    (h : c.absorb frame = .ok c') (hnoted : Noted channel (.event frame :: queue, c)) :
    Noted channel (queue, c') := by
  obtain ⟨⟨hversion, hid, -, -⟩, rfl⟩ := absorb_ok.mp h
  obtain ⟨hframe, hqueue⟩ := List.cons_subset.mp hnoted.queued
  refine ⟨?_, hnoted.numbered.append (numbered_singleton hversion (hid.trans hnoted.eventId)), ?_, ?_, hqueue⟩
  · show c.events ++ [frame.normalize] = (c.rawEvents ++ [frame]).map EventFrame.normalize
    rw [List.map_append, hnoted.events, List.map_singleton]
  · show c.nextEventId + 1 = 1 + (c.rawEvents ++ [frame]).length
    rw [hnoted.eventId, List.length_append, List.length_singleton, Nat.add_assoc]
  · intro heard hheard
    rcases List.mem_append.mp hheard with hheard | hheard
    · exact hnoted.received heard hheard
    · rwa [List.mem_singleton.mp hheard]

theorem noted_receiveLoop {body : EventFrame → WorkloadController → IoResult (Option α)} {a : α}
    {rest : List Delivery} {c' : WorkloadController} : ∀ {queue : List Delivery} {c : WorkloadController},
    receiveLoop body queue c = .ok (a, rest, c') → Noted channel (queue, c) → Noted channel (rest, c')
  | .event frame :: queue, c, h, hnoted => by
    rw [receiveLoop] at h
    obtain ⟨c₁, habsorb, h⟩ := bind_eq_ok.mp h
    obtain ⟨result, -, h⟩ := bind_eq_ok.mp h
    have hnoted₁ := noted_absorb (lift_ok.mp habsorb) hnoted
    cases result with
    | some b =>
      cases h
      exact hnoted₁
    | none => exact noted_receiveLoop h hnoted₁
  | [], _, h, _ => by cases h
  | .quiet :: _, _, h, _ => by cases h
  | .closed :: _, _, h, _ => by cases h
  | .failure _ :: _, _, h, _ => by cases h

theorem noted_drainLoop {u : Unit} {rest : List Delivery} {c' : WorkloadController} :
    ∀ {queue : List Delivery} {c : WorkloadController}, drainLoop queue c = .ok (u, rest, c') →
      Noted channel (queue, c) → Noted channel (rest, c')
  | .event frame :: queue, c, h, hnoted => by
    rw [drainLoop] at h
    obtain ⟨c₁, habsorb, h⟩ := bind_eq_ok.mp h
    exact noted_drainLoop h (noted_absorb (lift_ok.mp habsorb) hnoted)
  | .quiet :: _, _, h, hnoted => by
    cases h
    exact hnoted.of_eq (List.subset_cons_self _ _) rfl rfl rfl
  | [], _, h, _ => by cases h
  | .closed :: _, _, h, _ => by cases h
  | .failure _ :: _, _, h, _ => by cases h

theorem noted_lineLoop {k : Nat} {expected : Text} {matched : Bool} {rest : List Delivery}
    {c' : WorkloadController} : ∀ {queue : List Delivery} {c : WorkloadController},
    lineLoop k expected queue c = .ok (matched, rest, c') →
      Noted channel (queue, c) → Noted channel (rest, c')
  | queue, c, h, hnoted => by
    rw [lineLoop.eq_def] at h
    split at h
    · rename_i answer c₁ hnext
      cases h
      rcases nextLine_some hnext with ⟨-, rfl⟩ | ⟨rfl, -⟩
      · exact hnoted
      · exact hnoted.of_eq (List.Subset.refl _) rfl rfl rfl
    · match queue, h with
      | .event frame :: queue, h =>
        obtain ⟨c₁, habsorb, h⟩ := bind_eq_ok.mp h
        exact noted_lineLoop h (noted_absorb (lift_ok.mp habsorb) hnoted)

theorem keeping_receiveLoop (body : EventFrame → WorkloadController → IoResult (Option α)) :
    Along Keeping (fun s => receiveLoop body s.1 s.2) := fun _ _ _ h _ => noted_receiveLoop h

theorem keeping_drain : Along Keeping drain := fun _ _ _ h _ => noted_drainLoop h

theorem keeping_waitForLine (k : Nat) (expected : Text) : Along Keeping (waitForLine k expected) :=
  fun _ _ _ h _ => noted_lineLoop h

theorem keeping_controller : Along Keeping controller := by
  intro s c s' h channel hnoted
  obtain ⟨-, rfl⟩ := controller_ok h
  exact hnoted

theorem keeping_isHealthy (k : Nat) : Along Keeping (isHealthy k) := by
  intro s b s' h channel hnoted
  obtain ⟨rfl, -⟩ := isHealthy_ok h
  exact hnoted

theorem keeping_issue (command : Command) : Along Keeping (issue command) := by
  intro s id s' h channel hnoted
  unfold issue at h
  split at h
  · cases h
  · cases h
    exact hnoted.of_eq (List.Subset.refl _) rfl rfl rfl

/-- A change of the locals of the drive. -/
theorem keeping_update {f : WorkloadController → WorkloadController} (hf : ∀ c, (f c).events = c.events ∧
    (f c).rawEvents = c.rawEvents ∧ (f c).nextEventId = c.nextEventId) : Along Keeping (update f) := by
  intro s u s' h channel hnoted
  cases h
  obtain ⟨hevents, hraw, hid⟩ := hf s.2
  exact hnoted.of_eq (List.Subset.refl _) hevents hraw hid

theorem keeping_live (k : Nat) : Along Keeping (live k) :=
  Keeping.after keeping_drain fun _ => Keeping.after keeping_controller fun _ => keeping_pure _

theorem keeping_awaitExit (id k : Nat) : Along Keeping (awaitExit id k) := by
  intro s done s' h channel hnoted
  unfold awaitExit at h
  split at h
  · cases h
    exact hnoted
  · exact noted_receiveLoop h hnoted

theorem keeping_awaitEnd (id k : Nat) : Along Keeping (awaitEnd id k) := by
  refine Keeping.after (keeping_awaitExit id k) fun done => ?_
  split
  · exact keeping_pure _
  · exact Keeping.after (keeping_receiveLoop _) fun _ => keeping_pure _

theorem keeping_finishEvents : Along Keeping finishEvents := by
  intro s u s' h channel hnoted
  unfold finishEvents at h
  split at h
  · next queue hqueue =>
    cases h
    exact hnoted.of_eq (hqueue ▸ List.subset_cons_self _ _) rfl rfl rfl
  all_goals cases h

end Keeping

section Drive

variable {sha256 : Sha256} {scenario : WorkloadScenario} {choices : WorkloadChoicePlan} {launch : LaunchIdentity}

theorem keeping_exchange (k : Nat) (text expected : Text) : Along Keeping (exchange k text expected) := by
  have hwrite : Along Keeping (writeStdin k text) := by
    refine Keeping.after keeping_drain fun _ => Keeping.after (keeping_isHealthy k) fun healthy => ?_
    split
    · exact keeping_pure _
    refine Keeping.after keeping_controller fun c => Keeping.after (keeping_issue _) fun id => ?_
    refine Keeping.after (keeping_receiveLoop _) fun accepted => ?_
    split
    · exact keeping_pure _
    · refine Keeping.after (keeping_update ?_) fun _ => keeping_pure _
      exact fun c => ⟨rfl, rfl, rfl⟩
  refine Keeping.after hwrite fun wrote => ?_
  split
  · exact keeping_pure _
  · exact Keeping.after (keeping_waitForLine k expected) fun _ => keeping_pure _

theorem keeping_restoreNetwork : Along Keeping (restoreNetwork scenario) :=
  Keeping.after (keeping_issue _) fun _ => Keeping.after (keeping_receiveLoop _) fun _ => keeping_pure _

/-- **One step of the plan** notes what it receives. -/
theorem keeping_runStep (step : WorkloadStep) : Along Keeping (runStep scenario choices launch step) := by
  have hactive : ∀ active, Along Keeping (update fun c => { c with outageActive := active }) := fun active =>
    keeping_update fun c => ⟨rfl, rfl, rfl⟩
  cases step with
  | echo k => exact keeping_exchange _ _ _
  | state k => exact keeping_exchange _ _ _
  | spawnDescendant k => exact keeping_exchange _ _ _
  | request k index =>
    rw [runStep]
    split
    · intro s a s' h
      cases h
    · exact keeping_exchange _ _ _
  | activate =>
    exact Keeping.after (keeping_issue _) fun _ => Keeping.after (keeping_receiveLoop _) fun _ =>
      Keeping.after (hactive true) fun _ => keeping_pure _
  | restore =>
    exact Keeping.after keeping_restoreNetwork fun _ => Keeping.after (hactive false) fun _ => keeping_pure _
  | start k =>
    exact Keeping.after (keeping_issue _) fun _ => Keeping.after (keeping_receiveLoop _) fun _ =>
      Keeping.after (keeping_waitForLine _ _) fun _ => keeping_pure _
  | terminate k =>
    refine Keeping.after (keeping_live k) fun alive => ?_
    split
    · exact keeping_pure _
    refine Keeping.after (keeping_isHealthy k) fun healthy => ?_
    split
    · exact keeping_pure _
    exact Keeping.after (keeping_issue _) fun _ => Keeping.after (keeping_receiveLoop _) fun _ =>
      keeping_awaitEnd _ _
  | stdinEof k =>
    refine Keeping.after (keeping_live k) fun alive => ?_
    split
    · exact keeping_pure _
    refine Keeping.after (keeping_isHealthy k) fun healthy => ?_
    split
    · exact keeping_pure _
    exact Keeping.after keeping_controller fun _ => Keeping.after (keeping_issue _) fun _ =>
      Keeping.after (keeping_receiveLoop _) fun _ => keeping_awaitEnd _ _

theorem keeping_runSteps (steps : List WorkloadStep) : Along Keeping (runSteps scenario choices launch steps) := by
  induction steps with
  | nil => exact keeping_pure _
  | cons step steps ih =>
    refine Keeping.after (keeping_runStep step) fun stopped => ?_
    split
    · exact keeping_pure _
    · exact ih

theorem keeping_runPlan : Along Keeping (runPlan scenario choices launch) := by
  have hconfigure : Along Keeping (configureNetwork scenario) :=
    Keeping.after (keeping_issue _) fun _ => Keeping.after (keeping_receiveLoop _) fun _ => keeping_pure _
  exact Keeping.after hconfigure fun _ => keeping_runSteps _

theorem keeping_closeRun {stopped : Bool} : Along Keeping (closeRun scenario stopped) := by
  have hstop : Along Keeping (do
      let shutdown ← issue .shutdown
      awaitStopped shutdown
      finishEvents) :=
    Keeping.after (keeping_issue _) fun _ => Keeping.after (keeping_receiveLoop _) fun _ => keeping_finishEvents
  refine Keeping.after keeping_controller fun c => ?_
  split
  · exact Keeping.after keeping_drain fun _ => Keeping.after keeping_restoreNetwork fun _ => hstop
  · exact hstop

/-- The event that ends the wait for the shutdown. -/
theorem shutdownBody_some {id : Nat} {frame : EventFrame} {c : WorkloadController}
    (h : shutdownBody id frame c = .ok (some ())) : frame.event = .agentStopped := by
  unfold shutdownBody at h
  obtain ⟨_, -, h⟩ := bind_eq_ok.mp h
  split at h
  · assumption
  · cases h
  · cases h
  · split at h
    · cases h
    · cases h

/-- A run ends with the event of the shutdown. -/
theorem closeRun_stopped {stopped : Bool} {s s' : List Delivery × WorkloadController}
    (h : closeRun scenario stopped s = .ok ((), s')) : ∃ frames last, s'.2.rawEvents = frames ++ [last] ∧
      last.event = .agentStopped := by
  have hstop : ∀ {s₀ : List Delivery × WorkloadController}, (do
      let shutdown ← issue .shutdown
      awaitStopped shutdown
      finishEvents : Drive Unit) s₀ = .ok ((), s') →
      ∃ frames last, s'.2.rawEvents = frames ++ [last] ∧ last.event = .agentStopped := by
    intro s₀ h
    obtain ⟨id, s₁, -, h⟩ := bind_ok.mp h
    obtain ⟨_, s₂, hawait, hfinish⟩ := bind_ok.mp h
    obtain ⟨frames, last, hran, hlast, -⟩ := receiveLoop_ok hawait
    refine ⟨s₁.2.rawEvents ++ frames, last, ?_, shutdownBody_some hlast⟩
    rw [finishEvents_ok hfinish, hran.received, List.append_assoc]
  obtain ⟨c, s₁, -, h⟩ := bind_ok.mp h
  split at h
  · obtain ⟨_, s₂, -, h⟩ := bind_ok.mp h
    obtain ⟨_, s₃, -, h⟩ := bind_ok.mp h
    exact hstop h
  · exact hstop h

/-- The report of the checker has its profile. -/
theorem evaluateTrace_valid (t : WorkloadTrace) :
    validProfile (evaluateTrace sha256 t scenario choices launch) workloadProfile = true := by
  have hname : ∀ name (result : Except Text Text), (assertion name result).name = name := by
    rintro name (detail | detail) <;> rfl
  simp only [validProfile, evaluateTrace, List.map_cons, List.map_nil, hname, beq_self_eq_true, Bool.and_true]
  decide

/-- A recorded workload run. -/
structure WorkloadRecorded (sha256 : Sha256) (scenario : WorkloadScenario) (choices : WorkloadChoicePlan)
    (launch : LaunchIdentity) (frames : List EventFrame) (report : AssertionReport) : Prop where
  numbered : Numbered 1 frames
  stopped : (frames.getLast?).map EventFrame.event = some .agentStopped
  valid : validProfile report workloadProfile = true
  report_eq : evaluateWorkload sha256 frames scenario choices launch = report

/-- **What a workload run leaves**, whatever the VM did. -/
theorem driveWorkloadScenario_recorded {sends : List (IoResult Unit)} {queue : List Delivery}
    {s : List Delivery × WorkloadController} {events : List NormalizedEvent} {report : AssertionReport}
    (h : driveWorkloadScenario sha256 scenario choices launch (queue, { sends := sends }) =
      .ok ((events, report), s)) : ∃ frames, (∀ frame ∈ frames, .event frame ∈ queue) ∧
      frames.map EventFrame.normalize = events ∧
      WorkloadRecorded sha256 scenario choices launch frames report := by
  obtain ⟨stopped, s₁, hplan, h⟩ := bind_ok.mp h
  obtain ⟨_, s₂, hclose, h⟩ := bind_ok.mp h
  obtain ⟨c, s₃, hc, h⟩ := bind_ok.mp h
  obtain ⟨rfl, rfl⟩ := controller_ok hc
  obtain ⟨hvalue, rfl⟩ := pure_ok.mp h
  obtain ⟨rfl, rfl⟩ := Prod.mk.inj hvalue
  have hnoted := keeping_closeRun _ _ _ hclose queue (keeping_runPlan _ _ _ hplan queue (noted_start queue sends))
  obtain ⟨frames, last, hraw, hlast⟩ := closeRun_stopped hclose
  refine ⟨s.2.rawEvents, hnoted.received, hnoted.events.symm, hnoted.numbered, ?_, evaluateTrace_valid _, rfl⟩
  rw [hraw, List.getLast?_concat, Option.map_some, hlast]

end Drive

/-! ## The replay -/

section Replay

variable {sha256 : Sha256} {scenario : WorkloadScenario} {choices : WorkloadChoicePlan} {launch : LaunchIdentity}
  {frames frames' : List EventFrame} {tail : List Delivery}

/-- The trace does not look at the diagnostics. -/
theorem push_normalize {frame frame' : EventFrame} (h : frame'.normalize = frame.normalize) (t : WorkloadTrace) :
    t.push frame' = t.push frame := by
  obtain ⟨version, eventId, commandId, event, diagnostics⟩ := frame
  obtain ⟨version', eventId', commandId', event', diagnostics'⟩ := frame'
  obtain ⟨rfl, rfl, rfl, rfl⟩ := NormalizedEvent.mk.inj h
  rfl

theorem foldl_push_likewise : ∀ {frames frames' : List EventFrame} (t : WorkloadTrace), Likewise frames frames' →
    frames'.foldl WorkloadTrace.push t = frames.foldl WorkloadTrace.push t
  | [], [], _, _ => rfl
  | frame :: frames, frame' :: frames', t, h => by
    obtain ⟨hfirst, hrest⟩ := List.cons.inj h
    rw [List.foldl_cons, List.foldl_cons, push_normalize hfirst]
    exact foldl_push_likewise _ hrest
  | [], _ :: _, _, h => by cases h
  | _ :: _, [], _, h => by cases h

/-- **The report of a workload run does not look at the diagnostics.** -/
theorem evaluateWorkload_likewise (h : Likewise frames frames') :
    evaluateWorkload sha256 frames' scenario choices launch =
        evaluateWorkload sha256 frames scenario choices launch :=
  congrArg (fun t => evaluateTrace sha256 t scenario choices launch) (foldl_push_likewise _ h)

theorem replayLoop_recorded : ∀ {frames' : List EventFrame} {first : Nat} (index : Nat), Numbered first frames' →
    replayLoop index (frames'.map EventFrame.normalize) (frames'.map .event ++ tail) = .ok (frames', tail)
  | [], _, _, _ => rfl
  | frame :: frames', first, index, h => by
    have hrest : Numbered (first + 1) frames' := fun i other hget => by
      obtain ⟨hversion, hid⟩ := h (i + 1) other hget
      exact ⟨hversion, by omega⟩
    have henvelope : (frame.protocolVersion == protocolVersion &&
        frame.eventId == frame.normalize.eventId) = true := by
      rw [(h 0 frame rfl).1]
      exact Bool.and_eq_true_iff.mpr ⟨beq_self_eq_true _, beq_self_eq_true frame.eventId⟩
    rw [List.map_cons, List.map_cons, List.cons_append, replayLoop]
    refine bind_eq_ok.mpr ⟨(), require_eq_ok.mpr henvelope,
      bind_eq_ok.mpr ⟨(), require_eq_ok.mpr (beq_self_eq_true _), ?_⟩⟩
    exact bind_eq_ok.mpr ⟨_, replayLoop_recorded (index + 1) hrest, rfl⟩

theorem Numbered.likewise {first : Nat} (h : Numbered first frames) (hlike : Likewise frames frames') :
    Numbered first frames' := by
  intro index frame' hget
  have hnormal : (frames.map EventFrame.normalize)[index]? = some frame'.normalize := by
    rw [← hlike, List.getElem?_map, hget, Option.map_some]
  rw [List.getElem?_map, Option.map_eq_some_iff] at hnormal
  obtain ⟨frame, hframe, heq⟩ := hnormal
  obtain ⟨hversion, hid⟩ := h index frame hframe
  exact ⟨(congrArg NormalizedEvent.protocolVersion heq).symm.trans hversion,
    (congrArg NormalizedEvent.eventId heq).symm.trans hid⟩

/-- **The replay of a recorded workload run** reads its events again. -/
theorem replayWorkloadEvents_recorded {report : AssertionReport}
    (h : WorkloadRecorded sha256 scenario choices launch frames report) (hlike : Likewise frames frames') :
    replayWorkloadEvents (frames.map EventFrame.normalize)
        (frames'.map .event ++ .closed :: tail) = .ok (frames', tail) := by
  obtain ⟨last, hlast, hstopped⟩ := Option.map_eq_some_iff.mp h.stopped
  have hends : (frames.map EventFrame.normalize).getLast? = some last.normalize := by
    rw [List.getLast?_map, hlast, Option.map_some]
  have hevent : (last.normalize.event == .agentStopped) = true := beq_iff_eq.mpr hstopped
  rw [replayWorkloadEvents, hends]
  refine bind_eq_ok.mpr ⟨last.normalize, rfl, bind_eq_ok.mpr ⟨(), require_eq_ok.mpr hevent, ?_⟩⟩
  rw [← hlike]
  exact bind_eq_ok.mpr ⟨_, replayLoop_recorded 0 (h.numbered.likewise hlike), rfl⟩

/-- **What a replay read**: as many frames as were recorded, each with the recorded event. -/
theorem replayLoop_reads : ∀ {recorded : List NormalizedEvent} {index : Nat} {queue rest : List Delivery}
    {frames : List EventFrame}, replayLoop index recorded queue = .ok (frames, rest) →
      queue = frames.map .event ++ rest ∧ frames.map EventFrame.normalize = recorded
  | [], _, _, _, _, h => by
    obtain ⟨rfl, rfl⟩ := Prod.mk.inj (Except.ok.inj h)
    exact ⟨rfl, rfl⟩
  | expected :: recorded, index, .event frame :: queue, rest, frames, h => by
    obtain ⟨_, -, h⟩ := bind_eq_ok.mp h
    obtain ⟨_, hsame, h⟩ := bind_eq_ok.mp h
    obtain ⟨⟨more, queue'⟩, hloop, h⟩ := bind_eq_ok.mp h
    obtain ⟨rfl, rfl⟩ := Prod.mk.inj (pure_eq_ok.mp h)
    obtain ⟨rfl, hmore⟩ := replayLoop_reads hloop
    exact ⟨rfl, by rw [List.map_cons, eq_of_beq (require_eq_ok.mp hsame), hmore]⟩
  | _ :: _, _, [], _, _, h => by cases h
  | _ :: _, _, .quiet :: _, _, _, h => by cases h
  | _ :: _, _, .closed :: _, _, _, h => by cases h
  | _ :: _, _, .failure _ :: _, _, _, h => by cases h

theorem finishReads_ok {queue rest : List Delivery} : finishReads queue = .ok rest ↔ queue = .closed :: rest := by
  constructor
  · intro h
    match queue, h with
    | .closed :: _, h => exact congrArg (Delivery.closed :: ·) (Except.ok.inj h)
    | [], h => cases h
    | .quiet :: _, h => cases h
    | .event _ :: _, h => cases h
    | .failure _ :: _, h => cases h
  · rintro rfl
    rfl

theorem replayWorkloadEvents_reads {expected : List NormalizedEvent} {queue rest : List Delivery}
    (h : replayWorkloadEvents expected queue = .ok (frames, rest)) :
    queue = frames.map .event ++ .closed :: rest ∧ frames.map EventFrame.normalize = expected := by
  obtain ⟨last, -, h⟩ := bind_eq_ok.mp h
  obtain ⟨_, -, h⟩ := bind_eq_ok.mp h
  obtain ⟨⟨more, queue'⟩, hloop, h⟩ := bind_eq_ok.mp h
  obtain ⟨closed, hfinish, h⟩ := bind_eq_ok.mp h
  obtain ⟨rfl, rfl⟩ := Prod.mk.inj (pure_eq_ok.mp h)
  obtain ⟨hqueue, hevents⟩ := replayLoop_reads hloop
  rw [finishReads_ok.mp hfinish] at hqueue
  exact ⟨hqueue, hevents⟩

end Replay

end SimFerret.Driver
