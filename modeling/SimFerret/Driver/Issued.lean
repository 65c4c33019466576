import SimFerret.Driver.Exchange
import SimFerret.Driver.Schedule

/-!
# SimFerret.Driver.Issued — the commands that a workload run can send (`run.rs`)

* `Sends P n x`: wherever it ends, `x` sent at most `n` commands, all of them in `P`.
* `Issuable`: the commands of a plan.
* `driveWorkloadScenario_sends`: **a run sends one command for each step of its plan and three more, whatever
  the VM does**.
-/

namespace SimFerret.Driver

open Checker Workload Action

/-! ## Counting commands -/

/-- The exchange has at most `limit` commands, numbered up to `limit` and all of them in `P`. -/
structure Within (P : Command → Prop) (limit : Nat) (transcript : List Exchanged) : Prop where
  few : (commandsIn transcript).length ≤ limit
  version : ∀ frame ∈ commandsIn transcript, frame.protocolVersion = protocolVersion
  numbered : ∀ frame ∈ commandsIn transcript, frame.commandId ≤ limit
  each : ∀ frame ∈ commandsIn transcript, P frame.command

/-- What holds of the controller while it sends. -/
structure Sent (P : Command → Prop) (limit : Nat) (c : WorkloadController) : Prop where
  within : Within P limit c.transcript
  next : c.nextCommandId ≤ limit + 1

/-- Wherever it ends, the code sent at most `n` commands, all of them in `P`. -/
def Sends {α : Type} (P : Command → Prop) (n : Nat) (x : Drive α) : Prop :=
  ∀ limit s, Sent P limit s.2 → Ends (Leaves (Within P (limit + n))) x s fun _ s' => Sent P (limit + n) s'.2

section Sends

variable {P : Command → Prop} {α β : Type} {x : Drive α} {n m limit : Nat}

theorem receptive_within (P : Command → Prop) (limit : Nat) : Receptive (Within P limit) := by
  intro transcript frame h
  have hsame := commandsIn_received transcript [frame]
  rw [List.map_singleton] at hsame
  constructor
  all_goals rw [hsame]
  · exact h.few
  · exact h.version
  · exact h.numbered
  · exact h.each

theorem Within.mono {limit' : Nat} {transcript : List Exchanged} (h : Within P limit transcript)
    (hle : limit ≤ limit') : Within P limit' transcript :=
  ⟨h.few.trans hle, h.version, fun frame hframe => (h.numbered frame hframe).trans hle, h.each⟩

theorem Sent.mono {limit' : Nat} {c : WorkloadController} (h : Sent P limit c) (hle : limit ≤ limit') :
    Sent P limit' c :=
  ⟨h.within.mono hle, h.next.trans (Nat.succ_le_succ hle)⟩

theorem Sent.heard {frames : List EventFrame} {c c' : WorkloadController} (h : Sent P limit c)
    (hheard : Heard frames c c') : Sent P limit c' :=
  ⟨hheard.keeps (receptive_within P limit) h.within, hheard.nextCommandId ▸ h.next⟩

theorem Sends.mono (h : Sends P n x) (hle : n ≤ m) : Sends P m x := by
  intro limit s hs
  obtain ⟨herror, hok⟩ := h limit s hs
  exact ⟨fun e he => (herror e he).mono (Nat.add_le_add_left hle limit),
    fun a s' ha => (hok a s' ha).mono (Nat.add_le_add_left hle limit)⟩

theorem Sends.bind {f : α → Drive β} (h : Sends P n x) (hf : ∀ a, Sends P m (f a)) : Sends P (n + m)
    (x >>= f) := by
  intro limit s hs
  obtain ⟨herror, hok⟩ := h limit s hs
  have hx : Ends (Leaves (Within P (limit + (n + m)))) x s fun _ s' => Sent P (limit + n) s'.2 :=
    ⟨fun e he => (herror e he).mono (by omega), hok⟩
  refine hx.bind fun a s' ha => ?_
  rw [← Nat.add_assoc]
  exact hf a (limit + n) s' ha

/-- What sends nothing may come first. -/
theorem Sends.after {f : α → Drive β} (h : Sends P 0 x) (hf : ∀ a, Sends P n (f a)) : Sends P n (x >>= f) := by
  have hbind := h.bind hf
  rwa [Nat.zero_add] at hbind

theorem sends_pure (a : α) : Sends P 0 (pure a : Drive α) := fun _ _ hs => ends_pure hs

/-- What only receives sends nothing. -/
theorem sends_of_heard (h : ∀ limit s, Within P limit s.2.transcript →
    Ends (Leaves (Within P limit)) x s fun _ s' => ∃ frames, Heard frames s.2 s'.2) : Sends P 0 x := by
  intro limit s hs
  refine (h limit s hs.within).mono fun a s' ha => ?_
  obtain ⟨frames, hheard⟩ := ha
  exact hs.heard hheard

theorem Sent.record {c : WorkloadController} {command : Command} (h : Sent P limit c) (hcommand : P command) :
    Sent P (limit + 1) (c.record command) := by
  have hmem : ∀ frame, frame ∈ commandsIn (c.record command).transcript →
      frame ∈ commandsIn c.transcript ∨ frame = ⟨protocolVersion, c.nextCommandId, command⟩ := by
    intro frame hframe
    change frame ∈ commandsIn (c.transcript ++ [.sent _]) at hframe
    rw [commandsIn_sent] at hframe
    simpa using hframe
  refine ⟨⟨?_, fun frame hframe => ?_, fun frame hframe => ?_, fun frame hframe => ?_⟩, Nat.succ_le_succ h.next⟩
  · show (commandsIn (c.transcript ++ [.sent _])).length ≤ _
    rw [commandsIn_sent, List.length_append]
    exact Nat.succ_le_succ h.within.few
  · rcases hmem frame hframe with hold | rfl
    · exact h.within.version frame hold
    · rfl
  · rcases hmem frame hframe with hold | rfl
    · exact (h.within.numbered frame hold).trans (Nat.le_succ limit)
    · exact h.next
  · rcases hmem frame hframe with hold | rfl
    · exact h.within.each frame hold
    · exact hcommand

theorem sends_issue {command : Command} (h : P command) : Sends P 1 (issue command) := by
  intro limit s hs
  have hrecord := hs.record h
  constructor
  · intro e he
    unfold issue at he
    split at he
    · cases he
      exact hrecord.within
    · cases he
  · intro id s' hok
    rw [(issue_ok hok).2]
    exact hrecord

theorem sends_controller : Sends P 0 controller := by
  intro limit s hs
  refine (controller_ends s).mono fun c s' ha => ?_
  obtain ⟨-, rfl⟩ := ha
  exact hs

theorem sends_isHealthy (k : Nat) : Sends P 0 (isHealthy k) := by
  intro limit s hs
  refine (isHealthy_ends k).mono fun c s' ha => ?_
  subst ha
  exact hs

/-- A change of the two locals of the drive. -/
theorem sends_update {f : WorkloadController → WorkloadController}
    (hf : ∀ c, (f c).transcript = c.transcript ∧ (f c).nextCommandId = c.nextCommandId) :
    Sends P 0 (update f) := by
  intro limit s hs
  obtain ⟨htranscript, hnext⟩ := hf s.2
  exact ends_of_ok rfl ⟨htranscript ▸ hs.within, hnext ▸ hs.next⟩

theorem sends_drain : Sends P 0 drain :=
  sends_of_heard fun limit _ hs => drainLoop_ends (receptive_within P limit) hs

theorem sends_receiveLoop (body : EventFrame → WorkloadController → IoResult (Option α)) :
    Sends P 0 (fun s => receiveLoop body s.1 s.2) := by
  refine sends_of_heard fun limit s hs => (receiveLoop_ends (receptive_within P limit) hs).mono fun a s' ha => ?_
  obtain ⟨frames, last, hheard, -⟩ := ha
  exact ⟨frames ++ [last], hheard⟩

theorem sends_waitForLine (k : Nat) (expected : Text) : Sends P 0 (waitForLine k expected) :=
  sends_of_heard fun limit _ hs => lineLoop_ends (receptive_within P limit) hs

theorem sends_awaitEnd (id k : Nat) : Sends P 0 (awaitEnd id k) := by
  refine sends_of_heard fun limit s hs => (awaitEnd_ends (receptive_within P limit) hs).mono fun a s' ha => ?_
  obtain ⟨frames, hheard, -⟩ := ha
  exact ⟨frames, hheard⟩

theorem sends_finishEvents : Sends P 0 finishEvents := by
  intro limit s hs
  exact (finishEvents_ends hs.within).mono fun _ s' hs' => hs' ▸ hs

theorem sends_live (k : Nat) : Sends P 0 (live k) :=
  sends_drain.after fun _ => sends_controller.after fun _ => sends_pure _

end Sends

/-! ## The commands of a plan -/

/-- The commands that a step may send, its offset left open. -/
inductive WorkloadStep.Issues (scenario : WorkloadScenario) (choices : WorkloadChoicePlan)
    (launch : LaunchIdentity) : WorkloadStep → Command → Prop where
  | write {step : WorkloadStep} {k : Nat} {input response : Text} (offset : Nat)
      (h : step.dialogue choices = some (k, input, response)) :
      Issues scenario choices launch step (.stdinWrite k offset (encodeBytes input))
  | start (k : Nat) : Issues scenario choices launch (.start k) (.start k launch)
  | terminate (k : Nat) : Issues scenario choices launch (.terminate k) (.terminate k)
  | stdinEof (k : Nat) : Issues scenario choices launch (.stdinEof k) (.stdinEof k)
  | activate : Issues scenario choices launch .activate (.activateOutage (peerCidr scenario))
  | restore : Issues scenario choices launch .restore (.restoreNetwork (peerCidr scenario))

/-- The commands that a run may send. -/
inductive Issuable (scenario : WorkloadScenario) (choices : WorkloadChoicePlan) (launch : LaunchIdentity) :
    Command → Prop where
  | configure : Issuable scenario choices launch
      (.configureNetwork networkInterface guestCidr scenario.fixturePeer)
  | step {step : WorkloadStep} {command : Command} (hstep : step ∈ workloadSteps choices)
      (h : step.Issues scenario choices launch command) : Issuable scenario choices launch command
  | restore : Issuable scenario choices launch (.restoreNetwork (peerCidr scenario))
  | shutdown : Issuable scenario choices launch .shutdown

section Plan

variable {P : Command → Prop} {scenario : WorkloadScenario} {choices : WorkloadChoicePlan}
  {launch : LaunchIdentity}

theorem sends_writeStdin {k : Nat} {text : Text} (h : ∀ offset, P (.stdinWrite k offset (encodeBytes text))) :
    Sends P 1 (writeStdin k text) := by
  refine sends_drain.after fun _ => (sends_isHealthy k).after fun healthy => ?_
  split
  · exact (sends_pure _).mono (Nat.zero_le 1)
  · refine sends_controller.after fun c => (sends_issue (h _)).bind (m := 0) fun id => ?_
    refine (sends_receiveLoop _).after fun accepted => ?_
    split
    · exact sends_pure _
    · refine Sends.after (sends_update ?_) fun _ => sends_pure _
      exact fun c => ⟨rfl, rfl⟩

theorem sends_exchange {k : Nat} {text expected : Text}
    (h : ∀ offset, P (.stdinWrite k offset (encodeBytes text))) :
    Sends P 1 (exchange k text expected) := by
  refine (sends_writeStdin h).bind (m := 0) fun wrote => ?_
  split
  · exact sends_pure _
  · exact (sends_waitForLine k expected).after fun _ => sends_pure _

theorem sends_restoreNetwork (h : P (.restoreNetwork (peerCidr scenario))) : Sends P 1 (restoreNetwork scenario) :=
  (sends_issue h).bind (m := 0) fun _ => (sends_receiveLoop _).after fun _ => sends_pure _

/-- A command that closes the input of an invocation, and the wait for its end. -/
theorem sends_close {command : Command} {k : Nat} {description : Text} {predicate : Event → Bool} (h : P command) :
    Sends P 1 (do
      let id ← issue command
      let _ ← expect id description false predicate
      awaitEnd id k) :=
  (sends_issue h).bind (m := 0) fun id => (sends_receiveLoop _).after fun _ => sends_awaitEnd id k

/-- **One step of the plan** sends at most one command. -/
theorem sends_runStep {step : WorkloadStep} (h : ∀ command, step.Issues scenario choices launch command →
    P command) : Sends P 1 (runStep scenario choices launch step) := by
  have hline : ∀ {k input response}, step.dialogue choices = some (k, input, response) →
      Sends P 1 (runStep scenario choices launch step) := by
    intro k input response hdialogue
    rw [runStep_dialogue hdialogue]
    exact sends_exchange fun offset => h _ (.write offset hdialogue)
  cases step with
  | echo k => exact hline rfl
  | state k => exact hline rfl
  | spawnDescendant k => exact hline rfl
  | request k index =>
    cases hrequest : choices.requests[index]? with
    | some request => exact hline (by rw [WorkloadStep.dialogue, hrequest]; rfl)
    | none =>
      intro limit s hs
      refine ends_of_error (e := ⟨⟨.other, "index out of bounds"⟩, s.2.transcript⟩) ?_
        (hs.within.mono (Nat.le_succ limit))
      rw [runStep, hrequest]
      rfl
  | start k =>
    refine (sends_issue (h _ (.start k))).bind (m := 0) fun id => (sends_receiveLoop _).after fun _ => ?_
    exact (sends_waitForLine k readyLine).after fun _ => sends_pure _
  | activate =>
    refine (sends_issue (h _ .activate)).bind (m := 0) fun id => (sends_receiveLoop _).after fun _ => ?_
    refine Sends.after (sends_update ?_) fun _ => sends_pure _
    exact fun c => ⟨rfl, rfl⟩
  | restore =>
    refine (sends_restoreNetwork (h _ .restore)).bind (m := 0) fun _ => ?_
    refine Sends.after (sends_update ?_) fun _ => sends_pure _
    exact fun c => ⟨rfl, rfl⟩
  | terminate k =>
    refine (sends_live k).after fun alive => ?_
    split
    · exact (sends_pure _).mono (Nat.zero_le 1)
    refine (sends_isHealthy k).after fun healthy => ?_
    split
    · exact (sends_pure _).mono (Nat.zero_le 1)
    exact sends_close (h _ (.terminate k))
  | stdinEof k =>
    refine (sends_live k).after fun alive => ?_
    split
    · exact (sends_pure _).mono (Nat.zero_le 1)
    refine (sends_isHealthy k).after fun healthy => ?_
    split
    · exact (sends_pure _).mono (Nat.zero_le 1)
    exact sends_controller.after fun c => sends_close (h _ (.stdinEof k))

/-- The steps send at most one command each, by induction on them. -/
theorem sends_runSteps {steps : List WorkloadStep}
    (h : ∀ step ∈ steps, ∀ command, step.Issues scenario choices launch command → P command) :
    Sends P steps.length (runSteps scenario choices launch steps) := by
  induction steps with
  | nil => exact sends_pure _
  | cons step steps ih =>
    rw [List.forall_mem_cons] at h
    rw [List.length_cons, Nat.add_comm]
    refine (sends_runStep h.1).bind fun stopped => ?_
    split
    · exact (sends_pure _).mono (Nat.zero_le _)
    · exact ih h.2

theorem sends_closeRun {stopped : Bool} (hrestore : P (.restoreNetwork (peerCidr scenario)))
    (hshutdown : P .shutdown) : Sends P 2 (closeRun scenario stopped) := by
  have hstop : Sends P 1 (do
      let shutdown ← issue .shutdown
      awaitStopped shutdown
      finishEvents) :=
    (sends_issue hshutdown).bind (m := 0) fun _ => (sends_receiveLoop _).after fun _ => sends_finishEvents
  refine sends_controller.after fun c => ?_
  split
  · exact sends_drain.after fun _ => (sends_restoreNetwork hrestore).bind fun _ => hstop
  · exact hstop.mono (by omega)

/-- **A run sends one command for each step of its plan and three more**, whatever the VM does. -/
theorem driveWorkloadScenario_sends (sha256 : Sha256) (scenario : WorkloadScenario) (choices : WorkloadChoicePlan)
    (launch : LaunchIdentity) : Sends (Issuable scenario choices launch) ((workloadSteps choices).length + 3)
      (driveWorkloadScenario sha256 scenario choices launch) := by
  have hplan : Sends (Issuable scenario choices launch) (1 + (workloadSteps choices).length)
      (runPlan scenario choices launch) := by
    refine Sends.bind (n := 1) ?_ fun _ => sends_runSteps fun step hstep command h => .step hstep h
    exact (sends_issue .configure).bind (m := 0) fun _ => (sends_receiveLoop _).after fun _ => sends_pure _
  refine (hplan.bind (m := 2) fun stopped => ?_).mono (by omega)
  refine (sends_closeRun .restore .shutdown).bind (m := 0) fun _ => ?_
  exact sends_controller.after fun c => sends_pure _

end Plan

end SimFerret.Driver
