import SimFerret.Driver.Discipline
import SimFerret.Driver.Divergence

/-!
# SimFerret.Driver.Replayed — a recorded drive, replayed

A replay drives the same code without sending, and requires every event to be the recorded one.  The frames of
the replayed guest may differ in their diagnostics.

* `Took`: the frames that a part of a drive read, numbered and kept in order.
* `Mirrors`: a replaying controller stands where a recording one stood.
* `Mirrored`: what a part of the drive did in the recording, it does again.
* `driveScenarioInner_replayed`: **whatever a network drive recorded, its replay accepts**, with the same events
  and report.
-/

namespace SimFerret.Driver

open Checker Action

/-! ## The frames of a drive -/

/-- The envelopes of consecutive frames. -/
def Numbered (first : Nat) (frames : List EventFrame) : Prop :=
  ∀ index frame, frames[index]? = some frame → frame.protocolVersion = protocolVersion ∧
    frame.eventId = first + index

theorem numbered_nil (first : Nat) : Numbered first [] := fun index frame h => by simp at h

theorem numbered_singleton {first : Nat} {frame : EventFrame} (hversion : frame.protocolVersion = protocolVersion)
    (hid : frame.eventId = first) : Numbered first [frame] := by
  intro index other h
  obtain ⟨rfl, rfl⟩ : index = 0 ∧ other = frame := by
    cases index with
    | zero => exact ⟨rfl, (Option.some.inj h).symm⟩
    | succ index => simp at h
  exact ⟨hversion, hid⟩

theorem Numbered.append {first : Nat} {frames more : List EventFrame} (h : Numbered first frames)
    (hmore : Numbered (first + frames.length) more) : Numbered first (frames ++ more) := by
  intro index frame hindex
  by_cases hlt : index < frames.length
  · rw [List.getElem?_append_left hlt] at hindex
    exact h index frame hindex
  · rw [List.getElem?_append_right (by omega)] at hindex
    obtain ⟨hversion, hid⟩ := hmore _ frame hindex
    exact ⟨hversion, by omega⟩

/-- What a part of a drive read from the channel. -/
structure Took (frames : List EventFrame) (s s' : List Delivery × Controller) : Prop where
  queue : s.1 = frames.map .event ++ s'.1
  raw : s'.2.rawEvents = s.2.rawEvents ++ frames
  events : s'.2.events = s.2.events ++ frames.map EventFrame.normalize
  eventId : s'.2.nextEventId = s.2.nextEventId + frames.length
  numbered : Numbered s.2.nextEventId frames
  expected : s'.2.expectedEvents = s.2.expectedEvents

/-- A run that read some frames. -/
def Reading (s s' : List Delivery × Controller) : Prop := ∃ frames, Took frames s s'

section Reading

variable {s s' s'' : List Delivery × Controller} {frames more : List EventFrame}

theorem took_nil (s : List Delivery × Controller) : Took [] s s :=
  ⟨rfl, (List.append_nil _).symm, (List.append_nil _).symm, rfl, numbered_nil _, rfl⟩

theorem Took.trans (h : Took frames s s') (h' : Took more s' s'') : Took (frames ++ more) s s'' where
  queue := by rw [h.queue, h'.queue, List.map_append, List.append_assoc]
  raw := by rw [h'.raw, h.raw, List.append_assoc]
  events := by rw [h'.events, h.events, List.map_append, List.append_assoc]
  eventId := by rw [h'.eventId, h.eventId, List.length_append, Nat.add_assoc]
  numbered := h.numbered.append (h.eventId ▸ h'.numbered)
  expected := h'.expected.trans h.expected

theorem Reading.trans (h : Reading s s') (h' : Reading s' s'') : Reading s s'' := by
  obtain ⟨frames, h⟩ := h
  obtain ⟨more, h'⟩ := h'
  exact ⟨frames ++ more, h.trans h'⟩

/-- The frames that were read are those that the channel lost. -/
theorem Took.unique (h : Took frames s s') (hqueue : s.1 = more.map .event ++ s'.1) : frames = more := by
  have hcancel := List.append_cancel_right (h.queue.symm.trans hqueue)
  exact List.map_injective_iff.mpr (fun _ _ heq => Delivery.event.inj heq) hcancel

/-- An accepted frame has the next envelope. -/
theorem accept_envelope {c c' : Controller} {command : Command} {id index : Nat} {frame : EventFrame}
    (h : c.accept command id index frame = .ok c') :
    frame.protocolVersion = protocolVersion ∧ frame.commandId = id ∧ frame.eventId = c.nextEventId := by
  obtain ⟨_, henvelope, -⟩ := bind_eq_ok.mp h
  have henvelope := require_eq_ok.mp henvelope
  simpa [and_assoc] using henvelope

/-- An accepted frame is the answer at its place. -/
theorem accept_answers {c c' : Controller} {command : Command} {id index : Nat} {frame : EventFrame}
    (h : c.accept command id index frame = .ok c') : answersCommand command index frame.event = true := by
  obtain ⟨_, -, h⟩ := bind_eq_ok.mp h
  obtain ⟨_, hvalid, -⟩ := bind_eq_ok.mp h
  exact require_eq_ok.mp hvalid

theorem took_receiveResponses {command : Command} {id : Nat} : ∀ {left index : Nat}
    {received answers : List EventFrame} {queue rest : List Delivery} {c c' : Controller},
    Controller.receiveResponses command id left index received (queue, c) = .ok (answers, rest, c') →
    ∃ frames, Took frames (queue, c) (rest, c') ∧ answers = received ++ frames ∧ frames.length = left ∧
      ∀ i frame, frames[i]? = some frame → answersCommand command (index + i) frame.event = true
  | 0, _, received, _, _, _, _, _, h => by
    obtain ⟨rfl, hstate⟩ := pure_ok.mp h
    exact ⟨[], hstate ▸ took_nil _, (List.append_nil _).symm, rfl, fun i frame hget => by simp at hget⟩
  | left + 1, index, received, answers, .event frame :: queue, rest, c, c', h => by
    cases haccept : c.accept command id index frame with
    | error e =>
      simp only [Controller.receiveResponses, haccept] at h
      cases h
    | ok next =>
      simp only [Controller.receiveResponses, haccept] at h
      obtain ⟨hversion, -, hid⟩ := accept_envelope haccept
      have hanswer := accept_answers haccept
      obtain rfl := accept_ok haccept
      obtain ⟨frames, htook, hanswers, hlength, hrest⟩ := took_receiveResponses h
      have hone : Took [frame] (.event frame :: queue, c) (queue, c.push frame) :=
        ⟨rfl, rfl, rfl, rfl, numbered_singleton hversion hid, rfl⟩
      refine ⟨frame :: frames, hone.trans htook, by rw [hanswers, List.append_assoc]; rfl,
        by rw [List.length_cons, hlength], ?_⟩
      intro i other hget
      cases i with
      | zero =>
        obtain rfl : frame = other := Option.some.inj hget
        exact hanswer
      | succ i =>
        have hother := hrest i other hget
        rwa [Nat.add_assoc, Nat.add_comm 1 i] at hother
  | _ + 1, _, _, _, [], _, _, _, h => by cases h
  | _ + 1, _, _, _, .quiet :: _, _, _, _, h => by cases h
  | _ + 1, _, _, _, .closed :: _, _, _, _, h => by cases h
  | _ + 1, _, _, _, .failure _ :: _, _, _, _, h => by cases h

theorem took_issue {command : Command} {answers : List EventFrame} {queue rest : List Delivery} {c c' : Controller}
    (h : Controller.issue command (queue, c) = .ok (answers, rest, c')) :
    Took answers (queue, c) (rest, c') ∧ answers.length = responseCount command ∧
      ∀ i frame, answers[i]? = some frame → answersCommand command i frame.event = true := by
  cases hsend : (if c.sendCommands then c.sends.headD (.ok ()) else .ok () : IoResult Unit) with
  | error e =>
    simp only [Controller.issue, hsend] at h
    cases h
  | ok _ =>
    simp only [Controller.issue, hsend] at h
    obtain ⟨frames, htook, hanswers, hlength, hanswer⟩ := took_receiveResponses h
    obtain rfl : answers = frames := hanswers
    refine ⟨⟨htook.queue, htook.raw, htook.events, htook.eventId, htook.numbered, htook.expected⟩, hlength, ?_⟩
    simpa only [Nat.zero_add] using hanswer

/-- A list of commands, each with its answers. -/
theorem took_issueAll : ∀ {commands : List Command} {queue rest : List Delivery} {c c' : Controller},
    issueAll commands (queue, c) = .ok ((), rest, c') →
    ∃ frames, Took frames (queue, c) (rest, c') ∧ frames.length = (commands.map responseCount).sum
  | [], _, _, _, _, h => by
    obtain ⟨-, hstate⟩ := pure_ok.mp h
    exact ⟨[], hstate ▸ took_nil _, rfl⟩
  | command :: commands, _, _, _, _, h => by
    obtain ⟨answers, ⟨queue₁, c₁⟩, hissue, h⟩ := bind_ok.mp h
    obtain ⟨htook, hlength, -⟩ := took_issue hissue
    obtain ⟨frames, hrest, hcount⟩ := took_issueAll h
    exact ⟨_, htook.trans hrest, by rw [List.length_append, hlength, hcount, List.map_cons, List.sum_cons]⟩

theorem took_requestLoop {choices : ChoicePlan} {peer : Text} : ∀ {requests : List PlannedRequest} {index : Nat}
    {queue rest : List Delivery} {c c' : Controller},
    requestLoop choices peer index requests (queue, c) = .ok ((), rest, c') →
    ∃ frames, Took frames (queue, c) (rest, c') ∧ frames.length + transitionsBelow choices index =
      2 * requests.length + transitionsBelow choices (index + requests.length)
  | [], _, _, _, _, _, h => by
    obtain ⟨-, hstate⟩ := pure_ok.mp h
    exact ⟨[], hstate ▸ took_nil _, by simp⟩
  | request :: requests, index, _, _, _, _, h => by
    obtain ⟨_, ⟨queue₁, c₁⟩, htransitions, h⟩ := bind_ok.mp h
    obtain ⟨answers, ⟨queue₂, c₂⟩, hissue, h⟩ := bind_ok.mp h
    obtain ⟨frames, htook, hcount⟩ := took_issueAll htransitions
    obtain ⟨hanswers, hlength, -⟩ := took_issue hissue
    obtain ⟨more, hrest, hmore⟩ := took_requestLoop h
    refine ⟨_, (htook.trans hanswers).trans hrest, ?_⟩
    have hstep : ((transitions choices peer index).map responseCount).sum + transitionsBelow choices index =
        transitionsBelow choices (index + 1) := by
      simp only [transitions, transitionsBelow]
      split_ifs <;> simp [responseCount] <;> omega
    have hrequest : responseCount (requestCommand choices index request) = 2 := rfl
    rw [List.length_append, List.length_append, hcount, hlength, hrequest, List.length_cons]
    have hindex : index + (requests.length + 1) = index + 1 + requests.length := by omega
    rw [hindex]
    omega

theorem reading_issue (command : Command) : Along Reading (Controller.issue command) :=
  fun _ _ _ h => ⟨_, (took_issue h).1⟩

theorem reading_issueAll (commands : List Command) : Along Reading (issueAll commands) := by
  intro s _ s' h
  obtain ⟨frames, htook, -⟩ := took_issueAll h
  exact ⟨frames, htook⟩

theorem reading_requestLoop (choices : ChoicePlan) (peer : Text) (index : Nat) (requests : List PlannedRequest) :
    Along Reading (requestLoop choices peer index requests) := by
  intro s _ s' h
  obtain ⟨frames, htook, -⟩ := took_requestLoop h
  exact ⟨frames, htook⟩

end Reading

/-! ## Two controllers -/

/-- The replaying controller `c'` stands where the recording one stood. -/
structure Mirrors (recorded : List NormalizedEvent) (c c' : Controller) : Prop where
  commandId : c'.nextCommandId = c.nextCommandId
  eventId : c'.nextEventId = c.nextEventId
  events : c'.events = c.events
  raw : c'.rawEvents.map EventFrame.normalize = c.rawEvents.map EventFrame.normalize
  recording : c.expectedEvents = none
  expected : c'.expectedEvents = some recorded
  silent : c'.sendCommands = false

/-- Two lists of frames that differ in their diagnostics alone. -/
def Likewise (frames frames' : List EventFrame) : Prop :=
    frames'.map EventFrame.normalize = frames.map EventFrame.normalize

/-- What `x` did in a recording, `y` does in a replay of it. -/
def Mirrored {α β : Type} (R : α → β → Prop) (x : Talk α) (y : Talk β) : Prop :=
  ∀ frames s a s₁, x s = .ok (a, s₁) → Took frames s s₁ → ∀ recorded frames' tail c', Likewise frames frames' →
    s₁.2.events <+: recorded → Mirrors recorded s.2 c' →
    ∃ b c₁', y (frames'.map .event ++ tail, c') = .ok (b, tail, c₁') ∧ Mirrors recorded s₁.2 c₁' ∧ R a b

section Mirrored

variable {α β γ δ : Type} {R : α → β → Prop} {S : γ → δ → Prop} {x : Talk α} {y : Talk β}
  {recorded : List NormalizedEvent} {c c' : Controller}

theorem Likewise.append {frames more frames' more' : List EventFrame} (h : Likewise frames frames')
    (hmore : Likewise more more') : Likewise (frames ++ more) (frames' ++ more') := by
  rw [Likewise, List.map_append, List.map_append, h, hmore]

/-- Frames like a concatenation are a concatenation. -/
theorem Likewise.split {frames more frames' : List EventFrame} (h : Likewise (frames ++ more) frames') :
    ∃ front back, frames' = front ++ back ∧ Likewise frames front ∧ Likewise more back := by
  rw [Likewise, List.map_append, List.map_eq_append_iff] at h
  obtain ⟨front, back, rfl, hfront, hback⟩ := h
  exact ⟨front, back, rfl, hfront, hback⟩

theorem mirrored_pure {a : α} {b : β} (h : R a b) : Mirrored R (pure a) (pure b) := by
  intro frames s value s₁ hrun htook recorded frames' tail c' hlike _ hmirrors
  obtain ⟨rfl, rfl⟩ := pure_ok.mp hrun
  obtain rfl : frames = [] := (took_nil s₁).unique htook.queue |>.symm
  obtain rfl : frames' = [] := List.map_eq_nil_iff.mp hlike
  exact ⟨b, c', rfl, hmirrors, h⟩

theorem Mirrored.bind {f : α → Talk γ} {g : β → Talk δ} (hreads : Along Reading x)
    (hreads' : ∀ a, Along Reading (f a)) (hx : Mirrored R x y) (hf : ∀ a b, R a b → Mirrored S (f a) (g b)) :
    Mirrored S (x >>= f) (y >>= g) := by
  intro frames s value s₂ hrun htook recorded frames' tail c' hlike hstarts hmirrors
  obtain ⟨a, s₁, hfirst, hsecond⟩ := bind_ok.mp hrun
  obtain ⟨front, hfront⟩ := hreads s a s₁ hfirst
  obtain ⟨back, hback⟩ := hreads' a s₁ value s₂ hsecond
  obtain rfl := htook.unique (hfront.trans hback).queue
  obtain ⟨front', back', rfl, hlikeFront, hlikeBack⟩ := hlike.split
  have hstarts₁ : s₁.2.events <+: recorded := by
    refine List.IsPrefix.trans ?_ hstarts
    rw [hback.events]
    exact List.prefix_append _ _
  obtain ⟨b, c₁, hy, hmirrors₁, hvalue⟩ :=
    hx front s a s₁ hfirst hfront recorded front' (back'.map .event ++ tail) c' hlikeFront
    hstarts₁ hmirrors
  obtain ⟨value', c₂, hg, hmirrors₂, hvalue'⟩ :=
    hf a b hvalue back s₁ value s₂ hsecond hback recorded back' tail c₁ hlikeBack
    hstarts hmirrors₁
  refine ⟨value', c₂, ?_, hmirrors₂, hvalue'⟩
  rw [List.map_append, List.append_assoc]
  exact (bind_of_ok hy).trans hg

/-- A frame that is accepted again. -/
theorem Mirrors.accept {command : Command} {id index : Nat} {frame frame' : EventFrame} {next : Controller}
    (h : Mirrors recorded c c') (haccept : c.accept command id index frame = .ok next)
    (hlike : frame'.normalize = frame.normalize) (hstarts : c.events ++ [frame.normalize] <+: recorded) :
    c'.accept command id index frame' = .ok (c'.push frame') ∧ Mirrors recorded (c.push frame)
        (c'.push frame') := by
  obtain ⟨hversion, hcommand, hid⟩ := accept_envelope haccept
  have hfields : frame'.protocolVersion = frame.protocolVersion ∧ frame'.commandId = frame.commandId ∧
      frame'.eventId = frame.eventId ∧ frame'.event = frame.event :=
    ⟨congrArg NormalizedEvent.protocolVersion hlike, congrArg NormalizedEvent.commandId hlike,
      congrArg NormalizedEvent.eventId hlike, congrArg NormalizedEvent.event hlike⟩
  obtain ⟨_, -, hrest⟩ := bind_eq_ok.mp haccept
  obtain ⟨_, hvalid, -⟩ := bind_eq_ok.mp hrest
  have hvalid' : validateResponse command index frame' = .ok () := by
    rw [validateResponse, hfields.2.2.2]
    exact hvalid
  have hnext : recorded[c'.events.length]? = some frame.normalize := by
    obtain ⟨more, rfl⟩ := hstarts
    rw [h.events, List.append_assoc, List.getElem?_append_right le_rfl, Nat.sub_self]
    rfl
  have hcompare : c'.compare frame'.normalize = .ok () := by
    rw [Controller.compare, h.expected]
    simp only [hnext, hlike, beq_self_eq_true]
    rfl
  refine ⟨?_, h.commandId, congrArg (· + 1) h.eventId, ?_, ?_, h.recording, h.expected, h.silent⟩
  · refine bind_eq_ok.mpr ⟨(), require_eq_ok.mpr ?_,
      bind_eq_ok.mpr ⟨(), hvalid', bind_eq_ok.mpr ⟨(), hcompare, rfl⟩⟩⟩
    rw [hfields.1, hfields.2.1, hfields.2.2.1, hversion, hcommand, hid, h.eventId]
    simp
  · show c'.events ++ [frame'.normalize] = c.events ++ [frame.normalize]
    rw [h.events, hlike]
  · show (c'.rawEvents ++ [frame']).map EventFrame.normalize = (c.rawEvents ++ [frame]).map EventFrame.normalize
    rw [List.map_append, List.map_append, h.raw, List.map_singleton, List.map_singleton, hlike]

theorem mirrored_receiveResponses {command : Command} {id : Nat} : ∀ {left index : Nat}
    {received received' : List EventFrame}, Likewise received received' →
    Mirrored Likewise (Controller.receiveResponses command id left index received)
      (Controller.receiveResponses command id left index received')
  | 0, _, _, _, h => mirrored_pure h
  | left + 1, index, received, received', h => by
    rintro frames ⟨queue, c⟩ answers ⟨rest, c₁⟩ hrun htook recorded frames' tail c' hlike hstarts hmirrors
    match queue, hrun, htook with
    | .event frame :: queue, hrun, htook =>
      cases haccept : c.accept command id index frame with
      | error e =>
        simp only [Controller.receiveResponses, haccept] at hrun
        cases hrun
      | ok next =>
        simp only [Controller.receiveResponses, haccept] at hrun
        obtain rfl := accept_ok haccept
        obtain ⟨more, hmore, -⟩ := took_receiveResponses hrun
        obtain ⟨hversion, -, hid⟩ := accept_envelope haccept
        have hone : Took [frame] (.event frame :: queue, c) (queue, c.push frame) :=
          ⟨rfl, rfl, rfl, rfl, numbered_singleton hversion hid, rfl⟩
        obtain rfl := htook.unique (hone.trans hmore).queue
        obtain ⟨front', back', rfl, hlikeFront, hlikeBack⟩ := hlike.split
        obtain ⟨frame', rfl⟩ : ∃ frame', front' = [frame'] := by
          rw [← List.length_eq_one_iff, ← List.length_map (f := EventFrame.normalize), hlikeFront]
          rfl
        have hnormal : frame'.normalize = frame.normalize := (List.cons.inj hlikeFront).1
        have hstarts₁ : c.events ++ [frame.normalize] <+: recorded := by
          refine List.IsPrefix.trans ?_ hstarts
          rw [hmore.events]
          exact List.prefix_append _ _
        obtain ⟨haccept', hmirrors'⟩ := hmirrors.accept haccept hnormal hstarts₁
        obtain ⟨answers', c₁', hrun', hmirrors₁, hanswers⟩ :=
          mirrored_receiveResponses (h.append hlikeFront) more _ _ _ hrun hmore
          recorded back' tail (c'.push frame') hlikeBack hstarts hmirrors'
        refine ⟨answers', c₁', ?_, hmirrors₁, hanswers⟩
        have hstep : Controller.receiveResponses command id (left + 1) index received'
            ((.event frame' :: (back'.map .event ++ tail) :
            List Delivery), c') = Controller.receiveResponses command id left (index + 1) (received' ++ [frame'])
              (back'.map .event ++ tail, c'.push frame') := by
          rw [receiveResponses_event, haccept']
          rfl
        exact hstep.trans hrun'
    | [], hrun, _ => cases hrun
    | .quiet :: _, hrun, _ => cases hrun
    | .closed :: _, hrun, _ => cases hrun
    | .failure _ :: _, hrun, _ => cases hrun

theorem mirrored_issue (command : Command) : Mirrored Likewise (Controller.issue command)
    (Controller.issue command) := by
  rintro frames ⟨queue, c⟩ answers ⟨rest, c₁⟩ hrun htook recorded frames' tail c' hlike hstarts hmirrors
  cases hsend : (if c.sendCommands then c.sends.headD (.ok ()) else .ok () : IoResult Unit) with
  | error e =>
    simp only [Controller.issue, hsend] at hrun
    cases hrun
  | ok _ =>
    simp only [Controller.issue, hsend] at hrun
    have hbegun : Mirrors recorded (c.record command) (c'.record command) :=
      ⟨congrArg (· + 1) hmirrors.commandId, hmirrors.eventId, hmirrors.events, hmirrors.raw, hmirrors.recording,
        hmirrors.expected, hmirrors.silent⟩
    have htook' : Took frames (queue, c.record command) (rest, c₁) :=
      ⟨htook.queue, htook.raw, htook.events, htook.eventId, htook.numbered, htook.expected⟩
    obtain ⟨answers', c₁', hrun', hmirrors₁, hanswers⟩ := @mirrored_receiveResponses command c.nextCommandId
      (responseCount command) 0 [] [] rfl frames _ _ _ hrun htook' recorded frames' tail _ hlike hstarts hbegun
    refine ⟨answers', c₁', ?_, hmirrors₁, hanswers⟩
    have hsilent : (if c'.sendCommands then c'.sends.headD (.ok ()) else .ok () : IoResult Unit) = .ok () := by
      rw [hmirrors.silent]
      rfl
    simp only [Controller.issue, hsilent, hmirrors.commandId]
    exact hrun'

theorem mirrored_issueAll : ∀ (commands : List Command), Mirrored Eq (issueAll commands) (issueAll commands)
  | [] => mirrored_pure rfl
  | command :: commands =>
    Mirrored.bind (reading_issue command) (fun _ => reading_issueAll commands) (mirrored_issue command)
      fun _ _ _ => mirrored_issueAll commands

theorem mirrored_requestLoop (choices : ChoicePlan) (peer : Text) : ∀ (requests : List PlannedRequest)
    (index : Nat), Mirrored Eq (requestLoop choices peer index requests) (requestLoop choices peer index requests)
  | [], _ => mirrored_pure rfl
  | request :: requests, index => by
    have hreads : ∀ _ : List EventFrame, Along Reading (requestLoop choices peer (index + 1) requests) := fun _ =>
      reading_requestLoop choices peer (index + 1) requests
    have hrest : Mirrored Eq (do
        let _ ← Controller.issue (requestCommand choices index request)
        requestLoop choices peer (index + 1) requests) (do
        let _ ← Controller.issue (requestCommand choices index request)
        requestLoop choices peer (index + 1) requests) :=
      Mirrored.bind (reading_issue _) hreads (mirrored_issue _) fun _ _ _ =>
        mirrored_requestLoop choices peer requests (index + 1)
    refine Mirrored.bind (reading_issueAll _) (fun _ => ?_) (mirrored_issueAll _) fun _ _ _ => hrest
    exact Along.bind (R := Reading) Reading.trans (reading_issue _) hreads

end Mirrored

/-! ## The whole drive -/

section Whole

variable {scenario : Scenario} {choices : ChoicePlan} {s s' : List Delivery × Controller}
  {events : List NormalizedEvent} {report : AssertionReport}

/-- The end of a run, behind the comparison of the two reports. -/
def stopScenario (host : AssertionReport) : Talk (List NormalizedEvent × AssertionReport) := do
  let _ ← Controller.issue .shutdown
  finishTalk
  let c ← talkController
  talkLift c.complete
  return (c.events, host)

theorem talkLift_eq_ok {α : Type} {x : IoResult α} {a : α} : talkLift x s = .ok (a, s') ↔ x = .ok a ∧ s' = s := by
  cases x with
  | error e =>
    constructor
    · intro h
      cases h
    · rintro ⟨h, -⟩
      cases h
  | ok b =>
    show Except.ok (b, s) = Except.ok (a, s') ↔ _
    rw [Except.ok.injEq, Except.ok.injEq, Prod.mk.injEq, eq_comm (a := s)]

theorem finishTalk_ok : finishTalk s = .ok ((), s') ↔ s.1 = .closed :: s'.1 ∧ s.2 = s'.2 := by
  obtain ⟨queue, c⟩ := s
  obtain ⟨rest, c'⟩ := s'
  constructor
  · intro h
    match queue, h with
    | .closed :: _, h =>
      cases h
      exact ⟨rfl, rfl⟩
    | [], h => cases h
    | .quiet :: _, h => cases h
    | .event _ :: _, h => cases h
    | .failure _ :: _, h => cases h
  · rintro ⟨hqueue, hstate⟩
    obtain rfl : queue = .closed :: rest := hqueue
    obtain rfl : c = c' := hstate
    rfl

theorem stopScenario_ok : stopScenario report s = .ok ((events, report), s') ↔ ∃ stopped s₁,
    Controller.issue .shutdown s = .ok (stopped, s₁) ∧ s₁.1 = .closed :: s'.1 ∧ s₁.2 = s'.2 ∧
      s'.2.complete = .ok () ∧ s'.2.events = events := by
  constructor
  · intro h
    obtain ⟨stopped, s₁, hstop, h⟩ := bind_ok.mp h
    obtain ⟨_, s₂, hfinish, h⟩ := bind_ok.mp h
    obtain ⟨c, s₃, hc, h⟩ := bind_ok.mp h
    cases hc
    obtain ⟨_, s₄, hcomplete, h⟩ := bind_ok.mp h
    obtain ⟨hvalue, rfl⟩ := pure_ok.mp h
    obtain ⟨hcomplete, rfl⟩ := talkLift_eq_ok.mp hcomplete
    obtain ⟨hqueue, hstate⟩ := finishTalk_ok.mp hfinish
    exact ⟨stopped, s₁, hstop, hqueue, hstate, hcomplete, (congrArg Prod.fst hvalue).symm⟩
  · rintro ⟨stopped, s₁, hstop, hqueue, hstate, hcomplete, rfl⟩
    refine (bind_of_ok hstop).trans ((bind_of_ok (finishTalk_ok.mpr ⟨hqueue, hstate⟩)).trans ?_)
    refine (bind_of_ok (show talkController s' = .ok (s'.2, s') from rfl)).trans ?_
    exact bind_of_ok (talkLift_eq_ok.mpr ⟨hcomplete, rfl⟩)

theorem stopScenario_report {host : AssertionReport} (h : stopScenario host s = .ok ((events, report), s')) :
    report = host := by
  obtain ⟨_, _, -, h⟩ := bind_ok.mp h
  obtain ⟨_, _, -, h⟩ := bind_ok.mp h
  obtain ⟨_, _, -, h⟩ := bind_ok.mp h
  obtain ⟨_, _, -, h⟩ := bind_ok.mp h
  exact congrArg Prod.snd (pure_ok.mp h).1

theorem checkReport_ok {host : AssertionReport} {event : Event} :
    checkReport host event = .ok () ↔ event = .assertionsEvaluated host := by
  constructor
  · intro h
    cases event with
    | assertionsEvaluated guest => rw [eq_of_beq (require_eq_ok.mp h)]
    | _ => cases h
  · rintro rfl
    exact require_eq_ok.mpr (beq_self_eq_true host)

/-- What follows the requests, step by step. -/
theorem closeScenario_ok : closeScenario scenario s = .ok ((events, report), s') ↔ ∃ frame more s₁,
    Controller.issue (.check scenario.outageEventBound scenario.livenessEventBound) s = .ok (frame :: more, s₁) ∧
      frame.event = .assertionsEvaluated report ∧
      report = evaluate s.2.rawEvents scenario.outageEventBound scenario.livenessEventBound ∧
      stopScenario report s₁ = .ok ((events, report), s') := by
  constructor
  · intro h
    obtain ⟨c, s₀, hc, h⟩ := bind_ok.mp h
    cases hc
    obtain ⟨checked, s₁, hcheck, h⟩ := bind_ok.mp h
    cases checked with
    | nil =>
      obtain ⟨_, _, hfailed, -⟩ := bind_ok.mp h
      cases (talkLift_eq_ok.mp hfailed).1
    | cons frame more =>
      obtain ⟨_, s₂, hmatch, hstop⟩ := bind_ok.mp h
      obtain ⟨hreported, rfl⟩ := talkLift_eq_ok.mp hmatch
      have hreported := checkReport_ok.mp hreported
      have hstop : stopScenario (evaluate s.2.rawEvents scenario.outageEventBound scenario.livenessEventBound) s₂ =
        .ok ((events, report), s') := hstop
      have hreport := stopScenario_report hstop
      exact ⟨frame, more, s₂, hcheck, hreport ▸ hreported, hreport, hreport ▸ hstop⟩
  · rintro ⟨frame, more, s₁, hcheck, hevent, hreport, hstop⟩
    refine (bind_of_ok (show talkController s = .ok (s.2, s) from rfl)).trans ((bind_of_ok hcheck).trans ?_)
    have hmatch : checkReport (evaluate s.2.rawEvents scenario.outageEventBound scenario.livenessEventBound)
        frame.event = .ok () :=
      checkReport_ok.mpr (hreport ▸ hevent)
    refine (bind_of_ok (talkLift_eq_ok.mpr ⟨hmatch, rfl⟩)).trans ?_
    rw [← hreport]
    exact hstop

/-! ### What a recording fixes -/

/-- A recorded network run. -/
structure Recorded (scenario : Scenario) (choices : ChoicePlan) (frames : List EventFrame)
    (report : AssertionReport) : Prop where
  numbered : Numbered 1 frames
  count : frames.length = 2 * choices.requests.length + 5
  valid : validReport report = true
  report_eq : evaluate frames scenario.outageEventBound scenario.livenessEventBound = report

/-- The report does not look at the diagnostics. -/
theorem evaluate_likewise {frames frames' : List EventFrame} (h : Likewise frames frames')
    (outageEventBound livenessEventBound : Nat) :
    evaluate frames' outageEventBound livenessEventBound =
        evaluate frames outageEventBound livenessEventBound := by
  have hbare : frames'.map EventFrame.bare = frames.map EventFrame.bare := by
    have hcompose : ∀ l : List EventFrame, l.map EventFrame.bare =
        (l.map EventFrame.normalize).map NormalizedEvent.frame :=
      fun l => by rw [List.map_map]; rfl
    rw [hcompose, hcompose, h]
  rw [← evaluate_normalize frames', hbare, evaluate_normalize]

theorem answers_shutdown {index : Nat} {event : Event} (h : answersCommand .shutdown index event = true) :
    event = .agentStopped := by
  unfold answersCommand at h
  split at h <;> simp_all

/-- A controller that has accepted nothing. -/
structure Controller.Fresh (c : Controller) : Prop where
  raw : c.rawEvents = []
  events : c.events = []
  eventId : c.nextEventId = 1

/-- **A run that ends**, recorded or replayed: its frames are numbered, the plan tells how many there are, and
its report is theirs. -/
theorem driveScenarioInner_recorded {queue rest : List Delivery} {start c : Controller}
    (hplan : PlacedTransitions choices) (hfresh : start.Fresh)
    (h : driveScenarioInner scenario choices (queue, start) = .ok ((events, report), rest, c)) :
    ∃ frames, queue = frames.map .event ++ .closed :: rest ∧ frames.map EventFrame.normalize = events ∧
      Recorded scenario choices frames report := by
  obtain ⟨configured, s₁, hconfigure, h⟩ := bind_ok.mp h
  obtain ⟨_, s₂, hrequests, h⟩ := bind_ok.mp h
  obtain ⟨frame, more, s₃, hcheck, hevent, hreport, h⟩ := closeScenario_ok.mp h
  obtain ⟨stopped, s₄, hstop, hqueue, hstate, -, hevents⟩ := stopScenario_ok.mp h
  obtain ⟨htook₁, hlength₁, -⟩ := took_issue hconfigure
  obtain ⟨requests, htook₂, hlength₂⟩ := took_requestLoop hrequests
  obtain ⟨htook₃, hlength₃, hanswer⟩ := took_issue hcheck
  obtain ⟨htook₄, hlength₄, hstopped⟩ := took_issue hstop
  have htook := ((htook₁.trans htook₂).trans htook₃).trans htook₄
  have hlength₁ : configured.length = 1 := hlength₁
  have hlength₃ : (frame :: more).length = 1 := hlength₃
  have hlength₄ : stopped.length = 1 := hlength₄
  have hcount : requests.length = 2 * choices.requests.length + 2 := by
    have hactivation := hplan.activation_lt
    have hrestoration := hplan.restoration_lt
    simp only [transitionsBelow] at hlength₂
    split_ifs at hlength₂ <;> omega
  have hvalid : validReport report = true := by
    have hanswer := hanswer 0 frame rfl
    rwa [hevent] at hanswer
  have hshutdown : ∀ other ∈ stopped, other.event.isReported = false := by
    intro other hother
    obtain ⟨i, hget⟩ := List.mem_iff_getElem?.mp hother
    rw [answers_shutdown (hstopped i other hget)]
    rfl
  refine ⟨_, ?_, ?_, hfresh.eventId ▸ htook.numbered, ?_, hvalid, ?_⟩
  · rw [← hqueue]
    exact htook.queue
  · rw [← hevents, ← hstate, htook.events, hfresh.events, List.nil_append]
  · simp only [List.length_append]
    omega
  · have hraw := (htook₁.trans htook₂).raw
    rw [hfresh.raw, List.nil_append] at hraw
    rw [hreport, hraw, List.append_assoc (configured ++ requests)]
    refine evaluate_append (fun other hother => ?_) _ _
    rcases List.mem_append.mp hother with hother | hother
    · obtain rfl : more = [] := List.eq_nil_of_length_eq_zero (by simpa using hlength₃)
      rw [List.mem_singleton.mp hother, hevent]
      rfl
    · exact hshutdown other hother

/-- **The replay of a recorded run** returns what the recording did, for a guest whose frames differ in their
diagnostics. -/
theorem driveScenarioInner_replayed {sends : List (IoResult Unit)} {queue rest tail : List Delivery}
    {c : Controller} {frames' : List EventFrame} (tables : UnicodeTables)
    (h : driveScenarioInner scenario choices (queue, { sends := sends }) = .ok ((events, report), rest, c))
    (hframes' : frames'.map EventFrame.normalize = events) :
    ∃ c', driveScenarioInner scenario choices (frames'.map .event ++ .closed :: tail,
      { sendCommands := false, expectedEvents := some events, tables := tables }) =
          .ok ((events, report), tail, c') := by
  obtain ⟨configured, s₁, hconfigure, h⟩ := bind_ok.mp h
  obtain ⟨_, s₂, hrequests, h⟩ := bind_ok.mp h
  obtain ⟨frame, more, s₃, hcheck, hevent, hreport, h⟩ := closeScenario_ok.mp h
  obtain ⟨stopped, s₄, hstop, hqueue, hstate, -, hevents⟩ := stopScenario_ok.mp h
  obtain ⟨htook₁, -⟩ := took_issue hconfigure
  obtain ⟨requests, htook₂, -⟩ := took_requestLoop hrequests
  obtain ⟨htook₃, -⟩ := took_issue hcheck
  obtain ⟨htook₄, -⟩ := took_issue hstop
  have hsplit : Likewise (configured ++ (requests ++ ((frame :: more) ++ stopped))) frames' := by
    have hall : s₄.2.events = _ := (((htook₁.trans htook₂).trans htook₃).trans htook₄).events
    rw [hstate, hevents] at hall
    refine hframes'.trans (hall.trans (congrArg (List.map EventFrame.normalize) ?_))
    simp only [List.append_assoc]
  obtain ⟨configured', rest₁, rfl, hlike₁, hsplit⟩ := hsplit.split
  obtain ⟨requests', rest₂, rfl, hlike₂, hsplit⟩ := hsplit.split
  obtain ⟨checked', stopped', rfl, hlike₃, hlike₄⟩ := hsplit.split
  have hstarts₄ : s₄.2.events <+: events := by
    refine ⟨[], ?_⟩
    rw [List.append_nil, hstate, hevents]
  have hstarts₃ : s₃.2.events <+: events :=
    (htook₄.events ▸ List.prefix_append _ _ : s₃.2.events <+: s₄.2.events).trans hstarts₄
  have hstarts₂ : s₂.2.events <+: events :=
    (htook₃.events ▸ List.prefix_append _ _ : s₂.2.events <+: s₃.2.events).trans hstarts₃
  have hstarts₁ : s₁.2.events <+: events :=
    (htook₂.events ▸ List.prefix_append _ _ : s₁.2.events <+: s₂.2.events).trans hstarts₂
  have hstart : Mirrors events { sends := sends }
      { sendCommands := false, expectedEvents := some events, tables := tables } :=
    ⟨rfl, rfl, rfl, rfl, rfl, rfl, rfl⟩
  obtain ⟨_, c₁, hrun₁, hmirrors₁, -⟩ := mirrored_issue _ _ _ _ _ hconfigure htook₁ events configured'
    (requests'.map .event ++ (checked'.map .event ++ (stopped'.map .event ++ .closed :: tail))) _ hlike₁
      hstarts₁ hstart
  obtain ⟨_, c₂, hrun₂, hmirrors₂, -⟩ := mirrored_requestLoop _ _ _ _ _ _ _ _ hrequests htook₂ events requests'
    (checked'.map .event ++ (stopped'.map .event ++ .closed :: tail)) _ hlike₂ hstarts₂ hmirrors₁
  obtain ⟨answers₃, c₃, hrun₃, hmirrors₃, hchecked⟩ := mirrored_issue _ _ _ _ _ hcheck htook₃ events checked'
    (stopped'.map .event ++ .closed :: tail) _ hlike₃ hstarts₃ hmirrors₂
  obtain ⟨answers₄, c₄, hrun₄, hmirrors₄, -⟩ :=
    mirrored_issue _ _ _ _ _ hstop htook₄ events stopped' (.closed :: tail) _ hlike₄
    hstarts₄ hmirrors₃
  obtain ⟨frame', more', rfl⟩ : ∃ frame' more', answers₃ = frame' :: more' := by
    cases answers₃ with
    | nil => cases hchecked
    | cons frame' more' => exact ⟨frame', more', rfl⟩
  have hevent' : frame'.event = .assertionsEvaluated report := by
    rw [← hevent]
    exact congrArg NormalizedEvent.event (List.cons.inj hchecked).1
  have hreport' : report = evaluate c₂.rawEvents scenario.outageEventBound scenario.livenessEventBound :=
    hreport.trans (evaluate_likewise hmirrors₂.raw _ _).symm
  have hevents₄ : c₄.events = events := by
    rw [hmirrors₄.events, hstate, hevents]
  have hcomplete : c₄.complete = .ok () := by
    rw [Controller.complete, hmirrors₄.expected, hevents₄]
    exact require_eq_ok.mpr (beq_self_eq_true _)
  refine ⟨c₄, ?_⟩
  rw [List.map_append, List.map_append, List.map_append, List.append_assoc, List.append_assoc, List.append_assoc]
  refine (bind_of_ok hrun₁).trans ((bind_of_ok hrun₂).trans
    (closeScenario_ok.mpr ⟨frame', more', _, hrun₃, hevent', hreport', ?_⟩))
  exact stopScenario_ok.mpr ⟨answers₄, _, hrun₄, rfl, rfl, hcomplete, hevents₄⟩

end Whole

end SimFerret.Driver
