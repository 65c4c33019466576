import SimFerret.Lib.Action
import SimFerret.Driver.Run

/-!
# SimFerret.Driver.Exchange — what a workload run exchanges, wherever it ends

* `commandsIn`: the commands of a transcript.
* `Heard`: the controller only received frames.
* `Receptive`: a property of transcripts that does not look at what is received; every wait of the driver keeps it.
* `receiveLoop_ends`, `drainLoop_ends`, `lineLoop_ends`: the three loops; the other waits rest on them.
-/

namespace SimFerret.Driver

open Checker Workload Action

/-! ## Transcripts -/

def Exchanged.command : Exchanged → Option CommandFrame
  | .sent frame => some frame
  | .received _ => none

/-- The commands of a transcript. -/
def commandsIn (transcript : List Exchanged) : List CommandFrame := transcript.filterMap Exchanged.command

section

variable {transcript : List Exchanged} {frames : List EventFrame} {frame : CommandFrame}

theorem commandsIn_sent (transcript : List Exchanged) (frame : CommandFrame) :
    commandsIn (transcript ++ [.sent frame]) = commandsIn transcript ++ [frame] := by
  simp [commandsIn, Exchanged.command]

theorem commandsIn_received (transcript : List Exchanged) (frames : List EventFrame) :
    commandsIn (transcript ++ frames.map .received) = commandsIn transcript := by
  induction frames with
  | nil => simp
  | cons first rest ih =>
    simp only [commandsIn, List.map_cons, List.filterMap_append, List.filterMap_cons, Exchanged.command] at ih ⊢
    exact ih

end

/-! ## Receiving -/

/-- A failed drive leaves an exchange in `I`. -/
def Leaves (I : List Exchanged → Prop) (interruption : Interruption) : Prop := I interruption.transcript

/-- What is received does not matter. -/
def Receptive (I : List Exchanged → Prop) : Prop :=
  ∀ transcript frame, I transcript → I (transcript ++ [.received frame])

/-- The controller only received frames. -/
structure Heard (frames : List EventFrame) (c c' : WorkloadController) : Prop where
  transcript : c'.transcript = c.transcript ++ frames.map .received
  outage : c'.outageActive = c.outageActive
  offsets : c'.offsets = c.offsets
  nextCommandId : c'.nextCommandId = c.nextCommandId

section Receive

variable {I : List Exchanged → Prop} {c c' : WorkloadController} {s : List Delivery × WorkloadController}

theorem Heard.refl (c : WorkloadController) : Heard [] c c := ⟨by simp, rfl, rfl, rfl⟩

theorem Heard.trans {frames more : List EventFrame} {c'' : WorkloadController} (h : Heard frames c c')
    (h' : Heard more c' c'') : Heard (frames ++ more) c c'' := by
  refine ⟨?_, h'.outage.trans h.outage, h'.offsets.trans h.offsets, h'.nextCommandId.trans h.nextCommandId⟩
  rw [h'.transcript, h.transcript, List.map_append, List.append_assoc]

theorem heard_fold (c : WorkloadController) (frame : EventFrame) : Heard [frame] c (c.fold frame) :=
  ⟨rfl, rfl, rfl, rfl⟩

theorem heard_absorb {frame : EventFrame} (h : c.absorb frame = .ok c') : Heard [frame] c c' := by
  obtain ⟨-, rfl⟩ := absorb_ok.mp h
  exact heard_fold c frame

/-- What is received leaves the exchange in `I`. -/
theorem Heard.keeps {frames : List EventFrame} (h : Heard frames c c') (hI : Receptive I)
    (hstart : I c.transcript) : I c'.transcript := by
  rw [h.transcript]
  clear h
  induction frames using List.reverseRecOn with
  | nil => rwa [List.map_nil, List.append_nil]
  | append_singleton frames frame ih =>
    rw [List.map_append, ← List.append_assoc]
    exact hI _ frame ih

/-- One turn of a wait. -/
theorem receiveLoop_event {α : Type} (body : EventFrame → WorkloadController → IoResult (Option α))
    (frame : EventFrame) (queue : List Delivery) (c : WorkloadController) :
    receiveLoop body (.event frame :: queue) c =
      match c.absorb frame with
      | .error error => .error ⟨error, c.transcript⟩
      | .ok c₁ =>
        match body frame c₁ with
        | .error error => .error ⟨error, c₁.transcript⟩
        | .ok (some a) => .ok (a, queue, c₁)
        | .ok none => receiveLoop body queue c₁ := by
  rw [receiveLoop]
  cases c.absorb frame with
  | error e => rfl
  | ok c₁ =>
    show (c₁.lift (body frame c₁) >>= _) = _
    dsimp only
    cases body frame c₁ with
    | error e => rfl
    | ok result => cases result <;> rfl

/-- The loop of every wait: what was received, and the frame that ended it. -/
theorem receiveLoop_ends {α : Type} {body : EventFrame → WorkloadController → IoResult (Option α)}
    (hI : Receptive I) :
    ∀ {queue : List Delivery} {c : WorkloadController}, I c.transcript →
    Ends (Leaves I) (fun s => receiveLoop body s.1 s.2) (queue, c) fun a s' =>
      ∃ frames last, Heard (frames ++ [last]) c s'.2 ∧ body last s'.2 = .ok (some a)
  | [], _, h => ends_of_error rfl h
  | .quiet :: _, _, h => ends_of_error rfl h
  | .closed :: _, _, h => ends_of_error rfl h
  | .failure _ :: _, _, h => ends_of_error rfl h
  | .event frame :: queue, c, h => by
    have hturn := receiveLoop_event body frame queue c
    cases habsorb : c.absorb frame with
    | error e =>
      rw [habsorb] at hturn
      exact @ends_of_error _ _ _ _ _ _ _ _ hturn h
    | ok c₁ =>
      have hheard := heard_absorb habsorb
      simp only [habsorb] at hturn
      cases hbody : body frame c₁ with
      | error e =>
        rw [hbody] at hturn
        exact @ends_of_error _ _ _ _ _ _ _ _ hturn (hheard.keeps hI h)
      | ok result =>
        rw [hbody] at hturn
        cases result with
        | some a => exact ends_of_ok hturn ⟨[], frame, hheard, hbody⟩
        | none =>
          refine Ends.of_eq (t := (queue, c₁)) hturn ((receiveLoop_ends hI (hheard.keeps hI h)).mono ?_)
          rintro a s' ⟨frames, last, hrest, hlast⟩
          exact ⟨frame :: frames, last, hheard.trans hrest, hlast⟩

theorem drainLoop_ends (hI : Receptive I) : ∀ {queue : List Delivery} {c : WorkloadController}, I c.transcript →
    Ends (Leaves I) drain (queue, c) fun _ s' => ∃ frames, Heard frames c s'.2
  | [], _, h => ends_of_error rfl h
  | .closed :: _, _, h => ends_of_error rfl h
  | .failure _ :: _, _, h => ends_of_error rfl h
  | .quiet :: _, c, _ => ends_of_ok rfl ⟨[], .refl c⟩
  | .event frame :: queue, c, h => by
    cases habsorb : c.absorb frame with
    | error e =>
      have hturn : drain (.event frame :: queue, c) = .error ⟨e, c.transcript⟩ := by
        simp only [drain, drainLoop, habsorb]
        rfl
      exact @ends_of_error _ _ _ _ _ _ _ _ hturn h
    | ok c₁ =>
      have hturn : drain (.event frame :: queue, c) = drain (queue, c₁) := by
        simp only [drain, drainLoop, habsorb]
        rfl
      have hheard := heard_absorb habsorb
      refine Ends.of_eq hturn ((drainLoop_ends hI (hheard.keeps hI h)).mono ?_)
      rintro _ s' ⟨frames, hrest⟩
      exact ⟨frame :: frames, hheard.trans hrest⟩

theorem lineLoop_ends {k : Nat} {expected : Text} (hI : Receptive I) : ∀ {queue : List Delivery}
    {c : WorkloadController}, I c.transcript → Ends (Leaves I) (waitForLine k expected) (queue, c) fun _ s' =>
    ∃ frames, Heard frames c s'.2
  | queue, c, h => by
    cases hnext : nextLine k expected c with
    | some result =>
      obtain ⟨matched, c₁⟩ := result
      have hturn : waitForLine k expected (queue, c) = .ok (matched, queue, c₁) := by
        rw [waitForLine, lineLoop.eq_def, hnext]
      refine ends_of_ok hturn ⟨[], ?_⟩
      rcases nextLine_some hnext with ⟨-, rfl⟩ | ⟨rfl, -⟩
      · exact .refl _
      · exact ⟨by simp [WorkloadController.takeLine], rfl, rfl, rfl⟩
    | none =>
      have hturn : waitForLine k expected (queue, c) = lineLoop k expected queue c := rfl
      rw [lineLoop.eq_def, hnext] at hturn
      obtain - | ⟨delivery, queue⟩ := queue
      · exact @ends_of_error _ _ _ _ _ _ _ _ hturn h
      cases delivery with
      | quiet => exact @ends_of_error _ _ _ _ _ _ _ _ hturn h
      | closed => exact @ends_of_error _ _ _ _ _ _ _ _ hturn h
      | failure error => exact @ends_of_error _ _ _ _ _ _ _ _ hturn h
      | event frame =>
        dsimp only at hturn
        cases habsorb : c.absorb frame with
        | error e =>
          simp only [habsorb] at hturn
          exact @ends_of_error _ _ _ _ _ _ _ _ hturn h
        | ok c₁ =>
          simp only [habsorb] at hturn
          have hheard := heard_absorb habsorb
          refine Ends.of_eq (t := (queue, c₁)) hturn ((lineLoop_ends hI (hheard.keeps hI h)).mono ?_)
          rintro _ s' ⟨frames, hrest⟩
          exact ⟨frame :: frames, hheard.trans hrest⟩

/-- The frame that an `expect` returns. -/
theorem expect_ends {id : Nat} {description : Text} {allow : Bool} {predicate : Event → Bool}
    (hI : Receptive I) (h : I s.2.transcript) : Ends (Leaves I)
    (expect id description allow predicate) s fun frame s' =>
      ∃ frames, Heard (frames ++ [frame]) s.2 s'.2 ∧ predicate frame.event = true ∧ frame.commandId = id := by
  refine (receiveLoop_ends hI h).mono fun frame s' hs' => ?_
  obtain ⟨frames, last, hheard, hlast⟩ := hs'
  obtain ⟨rfl, hpredicate, hid⟩ := expectBody_some hlast
  exact ⟨frames, hheard, hpredicate, hid⟩

/-- The acknowledgement of a write, unless the invocation ended first. -/
theorem awaitInputAccepted_ends {id k start sent : Nat} (hI : Receptive I) (h : I s.2.transcript) :
    Ends (Leaves I) (awaitInputAccepted id k start sent) s fun accepted s' => ∃ frames last,
      Heard (frames ++ [last]) s.2 s'.2 ∧
        (accepted = true → last.commandId = id ∧ last.event = .inputAccepted k (start + sent) sent false) := by
  refine (receiveLoop_ends hI h).mono fun accepted s' hs' => ?_
  obtain ⟨frames, last, hheard, hlast⟩ := hs'
  exact ⟨frames, last, hheard, fun haccepted => inputBody_true (haccepted ▸ hlast)⟩

/-- The exit that a wait saw, unless it gave up. -/
theorem awaitExit_ends {id k : Nat} (hI : Receptive I) (h : I s.2.transcript) :
    Ends (Leaves I) (awaitExit id k) s fun done s' => ∃ frames, Heard frames s.2 s'.2 ∧
      (done = true → ∃ seen last, frames = seen ++ [last] ∧
        ∃ status stdoutBytes stdoutSha256 stderrBytes stderrSha256 count,
          last.event = .workloadExited k status stdoutBytes stdoutSha256 stderrBytes stderrSha256 count) := by
  by_cases hfailed : s.2.exitWaitFailed k = true
  · refine ends_of_ok (a := false) (by rw [awaitExit, if_pos hfailed]) ⟨[], .refl _, fun hdone => ?_⟩
    exact absurd hdone Bool.false_ne_true
  · refine Ends.of_eq (y := fun s => receiveLoop (exitBody id k) s.1 s.2) (t := s)
      (by rw [awaitExit, if_neg hfailed]) ((receiveLoop_ends hI h).mono fun done s' hs' => ?_)
    obtain ⟨frames, last, hheard, hlast⟩ := hs'
    refine ⟨frames ++ [last], hheard, fun hdone => ⟨frames, last, rfl, ?_⟩⟩
    subst hdone
    exact exitBody_true hlast

theorem controller_ends (s : List Delivery × WorkloadController) :
    Ends (Leaves I) controller s fun c s' => c = s.2 ∧ s' = s :=
  ends_of_ok rfl ⟨rfl, rfl⟩

theorem isHealthy_ends (k : Nat) :
    Ends (Leaves I) (isHealthy k) s fun _ s' => s' = s :=
  ends_of_ok rfl rfl

/-- The exit and the cleanup barrier that a wait for the end saw, unless it gave up. -/
theorem awaitEnd_ends {id k : Nat} (hI : Receptive I) (h : I s.2.transcript) :
    Ends (Leaves I) (awaitEnd id k) s fun stopped s' => ∃ frames, Heard frames s.2 s'.2 ∧
      (stopped = false → ∃ seen exit middle cleanup, frames = seen ++ exit :: (middle ++ [cleanup]) ∧
        (∃ status stdoutBytes stdoutSha256 stderrBytes stderrSha256 count,
          exit.event = .workloadExited k status stdoutBytes stdoutSha256 stderrBytes stderrSha256 count) ∧
        cleanup.commandId = id ∧ ∃ invocation reaped, cleanup.event = .cleanupComplete invocation reaped) := by
  refine (awaitExit_ends hI h).bind fun exited s₁ hs₁ => ?_
  obtain ⟨frames, hheard, hexit⟩ := hs₁
  cases exited with
  | false => exact ends_pure ⟨frames, hheard, fun hgo => by cases hgo⟩
  | true =>
    obtain ⟨seen, last, rfl, hlast⟩ := hexit rfl
    refine (expect_ends hI (hheard.keeps hI h)).bind fun cleanup s₂ hs₂ => ?_
    obtain ⟨middle, hheard', hpredicate, hid⟩ := hs₂
    refine ends_pure ⟨_, hheard.trans hheard', fun _ => ⟨seen, last, middle, cleanup, by simp, hlast, hid, ?_⟩⟩
    split at hpredicate
    · rename_i invocation reaped heq
      exact ⟨invocation, reaped, heq⟩
    · cases hpredicate

theorem finishEvents_ends (h : I s.2.transcript) : Ends (Leaves I) finishEvents s fun _ s' => s'.2 = s.2 := by
  obtain ⟨queue, c⟩ := s
  match queue with
  | [] => exact ends_of_error rfl h
  | .closed :: queue => exact ends_of_ok rfl rfl
  | .event frame :: queue => exact ends_of_error rfl h
  | .quiet :: queue => exact ends_of_error rfl h
  | .failure error :: queue => exact ends_of_error rfl h

end Receive

end SimFerret.Driver
