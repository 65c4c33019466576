import SimFerret.Driver.NetworkVerdict
import SimFerret.Guest.Gate

/-!
# SimFerret.Driver.Discipline — the network drive respects the agent's flags

The drive keeps its own copy of what the agent tracks.  The results hold of every run: whatever the VM returns and
wherever the drive ends.

* `Accepts`: no command sent so far is refused for the agent's flags; `Kept`: a part of the drive keeps it.
* `driveScenarioInner_kept`: a whole network run keeps it.
-/

namespace SimFerret.Driver

open Checker Workload Action
open Guest (Flags)

/-! ## Network runs -/

section Network

/-- The commands of a list of frames, none of them refused. -/
def Accepts (sent : List CommandFrame) : Prop := ({} : Flags).Admissible (sent.map CommandFrame.command)

/-- The controller of a recording, and what its commands made of the flags. -/
structure Kept (flags : Flags) (c : Controller) : Prop where
  sends : c.sendCommands = true
  accepts : Accepts c.sent
  flags : ({} : Flags).after (c.sent.map CommandFrame.command) = flags

variable {flags : Flags} {s : List Delivery × Controller}

theorem accept_ok {c c' : Controller} {command : Command} {id index : Nat} {frame : EventFrame}
    (h : c.accept command id index frame = .ok c') : c' = c.push frame := by
  obtain ⟨_, -, h⟩ := bind_eq_ok.mp h
  obtain ⟨_, -, h⟩ := bind_eq_ok.mp h
  obtain ⟨_, -, h⟩ := bind_eq_ok.mp h
  exact (pure_eq_ok.mp h).symm

/-- Reception leaves the commands alone. -/
theorem receiveResponses_kept {command : Command} {id : Nat} : ∀ {left index : Nat} {received : List EventFrame}
    {queue : List Delivery} {c : Controller}, Kept flags c →
    Ends (fun e => Accepts e.sent) (Controller.receiveResponses command id left index received) (queue, c)
      fun _ s' => Kept flags s'.2
  | 0, _, _, _, _, h => ends_pure h
  | left + 1, index, received, .event frame :: queue, c, h => by
    cases haccept : c.accept command id index frame with
    | error e => exact ends_of_error (by simp only [Controller.receiveResponses, haccept]; rfl) h.accepts
    | ok next =>
      obtain rfl := accept_ok haccept
      refine Ends.of_eq (by simp only [Controller.receiveResponses, haccept]; rfl)
        (@receiveResponses_kept command id left (index + 1) (received ++ [frame]) queue (c.push frame) ?_)
      exact ⟨h.sends, h.accepts, h.flags⟩
  | left + 1, _, _, [], _, h => ends_of_error rfl h.accepts
  | left + 1, _, _, .quiet :: _, _, h => ends_of_error rfl h.accepts
  | left + 1, _, _, .closed :: _, _, h => ends_of_error rfl h.accepts
  | left + 1, _, _, .failure _ :: _, _, h => ends_of_error rfl h.accepts

/-- A command that the flags admit. -/
theorem issue_kept {command : Command} (h : Kept flags s.2) (hgate : flags.gate command = .ok ()) :
    Ends (fun e => Accepts e.sent) (Controller.issue command) s fun _ s' => Kept (flags.next command) s'.2 := by
  obtain ⟨queue, c⟩ := s
  have hsent : (c.record command).sent = c.sent ++ [⟨protocolVersion, c.nextCommandId, command⟩] := by
    have hsends : c.sendCommands = true := h.sends
    simp [Controller.record, hsends]
  have hrecord : Kept (flags.next command) (c.record command) := by
    refine ⟨h.sends, ?_, ?_⟩
    · rw [Accepts, hsent, List.map_append]
      exact Flags.Admissible.snoc h.accepts (by rw [h.flags]; exact hgate)
    · rw [hsent, List.map_append]
      exact (Flags.after_snoc _ _ _).trans (by rw [h.flags])
  cases hsend : c.sends.headD (.ok ()) with
  | error e => exact ends_of_error (by simp only [Controller.issue, if_pos h.sends, hsend]; rfl) hrecord.accepts
  | ok u =>
    exact Ends.of_eq (by simp only [Controller.issue, if_pos h.sends, hsend]; rfl) (receiveResponses_kept hrecord)

theorem issueAll_kept : ∀ {commands : List Command} {flags : Flags} {s : List Delivery × Controller},
    Kept flags s.2 → flags.Admissible commands →
    Ends (fun e => Accepts e.sent) (issueAll commands) s fun _ s' => Kept (flags.after commands) s'.2
  | [], _, _, h, _ => ends_pure h
  | command :: commands, flags, s, h, hadmissible => by
    refine (issue_kept h (hadmissible [] command commands rfl)).bind fun _ s' hs' => ?_
    refine issueAll_kept hs' fun earlier c later heq => ?_
    exact hadmissible (command :: earlier) c later (by rw [heq]; rfl)

/-- The flags when the block of a request begins, and when the request is made. -/
def blockFlags (choices : ChoicePlan) (index : Nat) : Flags :=
  ⟨true, decide (choices.outageActivationRequestIndex < index) && decide (index ≤ choices.restorationRequestIndex)⟩

def requestFlags (choices : ChoicePlan) (index : Nat) : Flags := ⟨true, inOutage choices index⟩

theorem requestFlags_eq (choices : ChoicePlan) (index : Nat) :
    requestFlags choices index = blockFlags choices (index + 1) := by
  have hactive : choices.outageActivationRequestIndex ≤ index ↔
      choices.outageActivationRequestIndex < index + 1 := by omega
  have hrestored : index < choices.restorationRequestIndex ↔ index + 1 ≤ choices.restorationRequestIndex := by
    omega
  rw [requestFlags, blockFlags, inOutage, decide_eq_decide.mpr hactive, decide_eq_decide.mpr hrestored]

/-- The transitions in front of a request are admitted and leave the flags of the request. -/
theorem admissible_transitions {choices : ChoicePlan} {peer : Text} {index : Nat}
    (hlt : choices.outageActivationRequestIndex < choices.restorationRequestIndex) :
    (blockFlags choices index).Admissible (transitions choices peer index) ∧
      (blockFlags choices index).after (transitions choices peer index) = requestFlags choices index := by
  have hsingle : ∀ {f : Flags} {command : Command}, f.gate command = .ok () → f.Admissible [command] :=
    fun h => Flags.Admissible.snoc Flags.admissible_nil h
  rcases eq_or_ne index choices.outageActivationRequestIndex with rfl | hne
  · have hlist : transitions choices peer choices.outageActivationRequestIndex =
        [.activateOutage (peer ++ utf8 "/32")] := by
      rw [transitions, if_pos rfl, if_neg (by omega)]
      rfl
    rw [hlist]
    exact ⟨hsingle (by simp [blockFlags, Flags.gate, require, bind, Except.bind]),
      by simp [blockFlags, requestFlags, inOutage, Flags.after, Flags.next, hlt]⟩
  · rcases eq_or_ne index choices.restorationRequestIndex with rfl | hne'
    · have hlist : transitions choices peer choices.restorationRequestIndex =
          [.restoreNetwork (peer ++ utf8 "/32")] := by
        rw [transitions, if_neg hne, if_pos rfl]
        rfl
      rw [hlist]
      exact ⟨hsingle (by simp [blockFlags, Flags.gate, require, bind, Except.bind, hlt]),
        by simp [blockFlags, requestFlags, inOutage, Flags.after, Flags.next]⟩
    · have hlist : transitions choices peer index = [] := by
        rw [transitions, if_neg hne, if_neg hne']
        rfl
      rw [hlist]
      refine ⟨Flags.admissible_nil, ?_⟩
      show blockFlags choices index = requestFlags choices index
      have hactive : choices.outageActivationRequestIndex < index ↔
          choices.outageActivationRequestIndex ≤ index := by omega
      have hrestored : index ≤ choices.restorationRequestIndex ↔ index < choices.restorationRequestIndex := by
        omega
      rw [blockFlags, requestFlags, inOutage, decide_eq_decide.mpr hactive, decide_eq_decide.mpr hrestored]

/-- The requests from `index` on, by induction on them. -/
theorem requestLoop_kept {choices : ChoicePlan} {peer : Text}
    (hlt : choices.outageActivationRequestIndex < choices.restorationRequestIndex) :
    ∀ {requests : List PlannedRequest} {index : Nat} {s : List Delivery × Controller},
      Kept (blockFlags choices index) s.2 → Ends (fun e => Accepts e.sent)
      (requestLoop choices peer index requests) s
        fun _ s' => Kept (blockFlags choices (index + requests.length)) s'.2
  | [], _, _, h => ends_pure h
  | request :: requests, index, s, h => by
    obtain ⟨hadmissible, hafter⟩ := @admissible_transitions choices peer index hlt
    refine (issueAll_kept h hadmissible).bind fun _ s₁ h₁ => ?_
    rw [hafter] at h₁
    refine (issue_kept h₁ rfl).bind fun _ s₂ h₂ => ?_
    have h₂ : Kept (requestFlags choices index) s₂.2 := h₂
    rw [requestFlags_eq] at h₂
    have hrest := @requestLoop_kept choices peer hlt requests _ _ h₂
    rw [Nat.add_right_comm] at hrest
    exact hrest

theorem talkLift_kept {α : Type} {x : IoResult α} (h : Kept flags s.2) :
    Ends (fun e => Accepts e.sent) (talkLift x) s fun _ s' => Kept flags s'.2 := by
  cases x with
  | ok a => exact ends_of_ok rfl h
  | error e => exact ends_of_error rfl h.accepts

theorem finishTalk_kept (h : Kept flags s.2) : Ends (fun e => Accepts e.sent) finishTalk s fun _ s' =>
    Kept flags s'.2 := by
  obtain ⟨queue, c⟩ := s
  match queue with
  | [] => exact ends_of_error rfl h.accepts
  | .closed :: queue => exact ends_of_ok rfl h
  | .event frame :: queue => exact ends_of_error rfl h.accepts
  | .quiet :: queue => exact ends_of_error rfl h.accepts
  | .failure error :: queue => exact ends_of_error rfl h.accepts

theorem closeScenario_kept {scenario : Scenario} (h : Kept flags s.2) (houtage : flags.outageActive = false) :
    Ends (fun e => Accepts e.sent) (closeScenario scenario) s fun _ s' => Kept flags s'.2 := by
  have hshutdown : flags.gate .shutdown = .ok () := by
    rw [Flags.gate, houtage]
    rfl
  refine (ends_of_ok rfl h : Ends _ talkController s fun c s' => Kept flags s'.2).bind fun c s₁ h₁ => ?_
  refine (issue_kept h₁ rfl).bind fun checked s₂ h₂ => ?_
  have hstop : ∀ {s₃ : List Delivery × Controller} {host : AssertionReport}, Kept flags s₃.2 →
      Ends (fun e => Accepts e.sent) (do
        let _ ← Controller.issue .shutdown
        finishTalk
        let c ← talkController
        talkLift c.complete
        return (c.events, host)) s₃ fun _ s' => Kept flags s'.2 := by
    intro s₃ host h₃
    refine (issue_kept h₃ hshutdown).bind fun _ s₄ h₄ => (finishTalk_kept h₄).bind fun _ s₅ h₅ => ?_
    refine (ends_of_ok rfl h₅ : Ends _ talkController s₅ fun c s' => Kept flags s'.2).bind fun c s₆ h₆ => ?_
    exact (talkLift_kept h₆).bind fun _ s₇ h₇ => ends_pure h₇
  cases checked with
  | nil => exact (talkLift_kept h₂).bind fun _ s₃ h₃ => hstop h₃
  | cons frame rest => exact (talkLift_kept h₂).bind fun _ s₃ h₃ => hstop h₃

/-- **A network run is disciplined**, whatever the VM does. -/
theorem driveScenarioInner_kept {scenario : Scenario} {choices : ChoicePlan} (hplan : NetworkPlan choices)
    (queue : List Delivery) (sends : List (IoResult Unit)) :
    Ends (fun e => Accepts e.sent) (driveScenarioInner scenario choices) (queue, { sends := sends })
      fun _ s' => Accepts s'.2.sent := by
  have hstart : Kept {} ({ sends := sends } : Controller) := ⟨rfl, Flags.admissible_nil, rfl⟩
  refine (issue_kept (s := (queue, { sends := sends })) hstart rfl).bind fun _ s₁ h₁ => ?_
  have h₁ : Kept (blockFlags choices 0) s₁.2 := by
    rw [blockFlags, decide_eq_false (Nat.not_lt_zero _)]
    exact h₁
  refine (requestLoop_kept hplan.activation_lt h₁).bind fun _ s₂ h₂ => ?_
  refine (closeScenario_kept h₂ ?_).mono fun _ s₃ h₃ => h₃.accepts
  have hlt := hplan.restoration_lt
  simp [blockFlags]
  omega

end Network

end SimFerret.Driver
