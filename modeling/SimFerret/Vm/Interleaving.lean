import SimFerret.Lib.PrefixCode
import SimFerret.Vm.Serial

/-!
# SimFerret.Vm.Interleaving — what holds of the serial control channel in every interleaving

Nothing between the parties is lost: the bytes that were written are those that were consumed and those under
way, and every acknowledgement that was counted, queued, sent or is owed belongs to a byte that was consumed.

* `CommandWriter.Consistent`, `GuestPort.Consistent`, `EventReader.Hears`: the three parts of the invariant,
  with one lemma for each kind of move.
* `serialRun_exact`: **commands and events arrive as they were sent, and no acknowledgement is counted twice**.
-/

namespace SimFerret

open Workload

/-! ## Lines -/

/-- Each value is one line of text, without a zero byte, and is read back. -/
structure Textual {T : Type} (codec : Codec T) : Prop where
  carries : ∀ value body, codec.toVec value = .ok body → Carries codec value
  nul : ∀ value body, codec.toVec value = .ok body → serialAck ∉ body
  nonempty : ∀ value body, codec.toVec value = .ok body → body ≠ []

section Lines

variable {T : Type} (codec : Codec T)

/-- The writers take the value. -/
def Sendable (value : T) : Prop := ∃ body, codec.toVec value = .ok body ∧ body.length ≤ maxFrameLength

/-- The lines of values. -/
def linesOf (values : List T) : Bytes := values.flatMap fun value => lined (bodyOf codec value)

variable {codec} {values : List T} {value : T}

theorem linesOf_append (values more : List T) : linesOf codec (values ++ more) = linesOf codec values ++
    linesOf codec more :=
  List.flatMap_append

theorem linesOf_cons (value : T) (values : List T) :
    linesOf codec (value :: values) = bodyOf codec value ++ frameEnd :: linesOf codec values := by
  rw [linesOf, List.flatMap_cons, lined, List.append_assoc]
  rfl

theorem Sendable.body (h : Sendable codec value) :
    codec.toVec value = .ok (bodyOf codec value) ∧ (bodyOf codec value).length ≤ maxFrameLength := by
  obtain ⟨body, hbody, hlength⟩ := h
  have heq : bodyOf codec value = body := by
    rw [bodyOf, hbody]
    rfl
  exact ⟨heq ▸ hbody, heq ▸ hlength⟩

/-- The lines in a part of the stream are those of the first values, and the rest is within the limit. -/
theorem lines_of_part (htext : Textual codec) {taken : Bytes} (hsend : ∀ value ∈ values, Sendable codec value)
    (h : taken <+: linesOf codec values) : ∃ front rest, values = front ++ rest ∧
      completeLines frameEnd taken = front.map (bodyOf codec) ∧
        (unfinishedLine frameEnd taken).length ≤ maxFrameLength := by
  induction values generalizing taken with
  | nil =>
    have hnil : taken = [] := List.prefix_nil.mp h
    subst hnil
    exact ⟨[], [], rfl, rfl, Nat.zero_le _⟩
  | cons value values ih =>
    obtain ⟨hbody, hlength⟩ := (hsend value List.mem_cons_self).body
    have hline := (htext.carries _ _ hbody).line
    rw [linesOf_cons] at h
    by_cases hshort : taken.length ≤ (bodyOf codec value).length
    · have hpart := List.prefix_of_prefix_length_le h (List.prefix_append _ _) hshort
      have hnot : frameEnd ∉ taken := fun hmem => hline (hpart.subset hmem)
      refine ⟨[], value :: values, rfl, completeLines_unbroken hnot, ?_⟩
      rw [unfinishedLine_unbroken hnot]
      omega
    · have hsplit : bodyOf codec value ++ frameEnd :: linesOf codec values =
          (bodyOf codec value ++ [frameEnd]) ++ linesOf codec values := by simp
      rw [hsplit] at h
      have hpart := List.prefix_of_prefix_length_le (List.prefix_append _ _) h (by simp; omega)
      obtain ⟨more, rfl⟩ := hpart
      obtain ⟨front, rest, rfl, hcomplete, hrest⟩ :=
        ih (fun v hv => hsend v (List.mem_cons_of_mem _ hv)) ((List.prefix_append_right_inj _).mp h)
      rw [List.append_assoc, List.singleton_append]
      refine ⟨value :: front, rest, rfl, ?_, ?_⟩
      · rw [completeLines_line hline, hcomplete, List.map_cons]
      · rw [unfinishedLine_line hline]
        exact hrest

end Lines

/-- Commands are read back from their lines. -/
theorem decodeLines_bodies {codec : Codec CommandFrame} (htext : Textual codec) {frames : List CommandFrame}
    (hsend : ∀ frame ∈ frames, Sendable codec frame) : decodeLines codec (frames.map (bodyOf codec)) = frames := by
  induction frames with
  | nil => rfl
  | cons frame frames ih =>
    obtain ⟨hbody, -⟩ := (hsend frame List.mem_cons_self).body
    rw [List.map_cons, decodeLines_frame (htext.nonempty _ _ hbody) (htext.carries _ _ hbody).fromSlice,
      ih fun other hother => hsend other (List.mem_cons_of_mem _ hother)]

/-! ## The writer -/

/-- What the writer has written and counted. -/
structure CommandWriter.Consistent (codec : Codec CommandFrame) (requests : List CommandFrame)
    (writer : CommandWriter) : Prop where
  order : writer.completed ++ (writer.current.toList.map Writing.frame ++ writer.requests) = requests
  sendable : ∀ frame ∈ writer.completed ++ writer.current.toList.map Writing.frame, Sendable codec frame
  /-- Between two commands every byte is acknowledged. -/
  idle : writer.current = none → writer.written = linesOf codec writer.completed ∧
    writer.acknowledged = writer.written.length
  /-- Within one, what is missing is what is written of the chunk. -/
  busy : ∀ writing, writer.current = some writing →
    writer.written ++ (writing.unwritten ++ writing.rest) = linesOf codec (writer.completed ++ [writing.frame]) ∧
      writer.acknowledged + writing.missing = writer.written.length + writing.unwritten.length ∧
      writing.missing ≤ commandWriteChunkBytes

theorem commandLine_ok {codec : Codec CommandFrame} {frame : CommandFrame} {bytes : Bytes}
    (h : commandLine codec frame = .ok bytes) : bytes = lined (bodyOf codec frame) ∧ Sendable codec frame := by
  rw [commandLine] at h
  split at h
  · cases h
  next body hbody =>
    split_ifs at h with hlong
    have hsend : Sendable codec frame := ⟨body, hbody, Nat.not_lt.mp hlong⟩
    refine ⟨?_, hsend⟩
    rw [← Except.ok.inj h, ← Except.ok.inj (hbody.symm.trans hsend.body.1)]

namespace CommandWriter

variable {codec : Codec CommandFrame} {requests : List CommandFrame} {writer writer' : CommandWriter}

/-- A move of the writer keeps it consistent; it completes a frame only when it is idle behind it. -/
structure Moves (codec : Codec CommandFrame) (requests : List CommandFrame) (writer writer' : CommandWriter)
    (bytes : Bytes) (count : Nat) : Prop where
  consistent : writer'.Consistent codec requests
  written : writer'.written = writer.written ++ bytes
  acknowledged : writer'.acknowledged = writer.acknowledged + count
  completed : writer'.completed = writer.completed ∨ writer'.current = none

/-- The chunks of a frame go on where the written ones end. -/
theorem busy_nextChunk {frame : CommandFrame} {bytes written : Bytes} {acknowledged : Nat}
    {completed : List CommandFrame} (hstream : written ++ bytes = linesOf codec (completed ++ [frame]))
    (hcount : acknowledged = written.length) : written ++
    ((nextChunk frame bytes).unwritten ++ (nextChunk frame bytes).rest) = linesOf codec (completed ++ [frame]) ∧
      acknowledged + (nextChunk frame bytes).missing = written.length + (nextChunk frame bytes).unwritten.length ∧
      (nextChunk frame bytes).missing ≤ commandWriteChunkBytes := by
  refine ⟨?_, by rw [hcount]; rfl, ?_⟩
  · rw [nextChunk, List.take_append_drop, hstream]
  · rw [nextChunk, List.length_take]
    exact Nat.min_le_left _ _

theorem Consistent.start (hw : writer.Consistent codec requests)
    (h : writer.start codec = some writer') : Moves codec requests writer writer' [] 0 := by
  rw [CommandWriter.start] at h
  split at h
  next frame rest hfailed hcurrent hrequests =>
    have horder := hw.order
    have hsendable := hw.sendable
    rw [hcurrent] at horder hsendable
    rw [hrequests] at horder
    split at h
    next error hline =>
      obtain rfl := Option.some.inj h
      exact ⟨⟨hw.order, hw.sendable, hw.idle, hw.busy⟩, (List.append_nil _).symm, rfl, .inl rfl⟩
    next bytes hline =>
      obtain rfl := Option.some.inj h
      obtain ⟨rfl, hsend⟩ := commandLine_ok hline
      obtain ⟨hwritten, hcount⟩ := hw.idle hcurrent
      refine ⟨⟨horder, ?_, ?_, ?_⟩, (List.append_nil _).symm, rfl, .inl rfl⟩
      · intro other hother
        rcases List.mem_append.mp hother with hother | hother
        · exact hsendable other (List.mem_append_left _ hother)
        · rw [List.mem_singleton.mp hother]
          exact hsend
      · intro hnone
        cases hnone
      · rintro writing ⟨⟩
        refine busy_nextChunk ?_ hcount
        rw [hwritten, linesOf_append, linesOf_cons]
        rfl
  next => cases h

theorem Consistent.write {byte : UInt8} (hw : writer.Consistent codec requests)
    (h : writer.write = some (byte, writer')) : Moves codec requests writer writer' [byte] 0 := by
  rw [CommandWriter.write] at h
  split at h
  next frame first unwritten missing rest hfailed hcurrent =>
    obtain ⟨rfl, rfl⟩ := Prod.mk.inj (Option.some.inj h)
    obtain ⟨hstream, hcount, hmissing⟩ := hw.busy _ hcurrent
    refine ⟨⟨?_, ?_, ?_, ?_⟩, rfl, rfl, .inl rfl⟩
    · have horder := hw.order
      rwa [hcurrent] at horder
    · have hsendable := hw.sendable
      rwa [hcurrent] at hsendable
    · intro hnone
      cases hnone
    · rintro writing ⟨⟩
      refine ⟨?_, ?_, hmissing⟩
      · rw [← hstream]
        simp
      · have hcount : writer.acknowledged + missing = writer.written.length + (unwritten.length + 1) := hcount
        show writer.acknowledged + missing = (writer.written ++ [first]).length + unwritten.length
        rw [List.length_append, List.length_singleton]
        omega
  next => cases h

theorem Consistent.acknowledge (hw : writer.Consistent codec requests) (h : writer.acknowledge = some writer') :
    Moves codec requests writer writer' [] 1 := by
  rw [CommandWriter.acknowledge] at h
  split at h
  next frame missing rest hfailed hcurrent =>
    obtain rfl := Option.some.inj h
    obtain ⟨hstream, hcount, hmissing⟩ := hw.busy _ hcurrent
    refine ⟨⟨?_, ?_, ?_, ?_⟩, (List.append_nil _).symm, rfl, .inl rfl⟩
    · have horder := hw.order
      rwa [hcurrent] at horder
    · have hsendable := hw.sendable
      rwa [hcurrent] at hsendable
    · intro hnone
      cases hnone
    · rintro writing ⟨⟩
      have hcount : writer.acknowledged + (missing + 1) = writer.written.length + 0 := hcount
      refine ⟨hstream, ?_, Nat.le_of_succ_le hmissing⟩
      show writer.acknowledged + 1 + missing = writer.written.length + 0
      omega
  next => cases h

theorem Consistent.advance (hw : writer.Consistent codec requests) (h : writer.advance = some writer') :
    Moves codec requests writer writer' [] 0 := by
  rw [CommandWriter.advance] at h
  split at h
  next frame hfailed hcurrent =>
    obtain rfl := Option.some.inj h
    obtain ⟨hstream, hcount, -⟩ := hw.busy _ hcurrent
    have horder := hw.order
    have hsendable := hw.sendable
    rw [hcurrent] at horder hsendable
    refine ⟨⟨?_, ?_, fun _ => ⟨?_, ?_⟩, ?_⟩, (List.append_nil _).symm, rfl, .inr rfl⟩
    · rw [← horder]
      simp
    · simpa using hsendable
    · simpa using hstream
    · simpa using hcount
    · intro writing hnone
      cases hnone
  next frame byte rest hfailed hcurrent =>
    obtain rfl := Option.some.inj h
    obtain ⟨hstream, hcount, -⟩ := hw.busy _ hcurrent
    refine ⟨⟨?_, ?_, ?_, ?_⟩, (List.append_nil _).symm, rfl, .inl rfl⟩
    · have horder := hw.order
      rwa [hcurrent] at horder
    · have hsendable := hw.sendable
      rwa [hcurrent] at hsendable
    · intro hnone
      cases hnone
    · rintro writing ⟨⟩
      exact busy_nextChunk hstream hcount
  next => cases h

theorem Consistent.fail {error : IoError} (hw : writer.Consistent codec requests)
    (h : writer.fail error = some writer') : Moves codec requests writer writer' [] 0 := by
  rw [CommandWriter.fail] at h
  split at h
  · obtain rfl := Option.some.inj h
    exact ⟨⟨hw.order, hw.sendable, hw.idle, hw.busy⟩, (List.append_nil _).symm, rfl, .inl rfl⟩
  · cases h

end CommandWriter

/-- What was written is part of the lines of the commands so far. -/
theorem CommandWriter.Consistent.part {codec : Codec CommandFrame} {requests : List CommandFrame}
    {writer : CommandWriter} (h : writer.Consistent codec requests) :
    writer.written <+: linesOf codec (writer.completed ++ writer.current.toList.map Writing.frame) := by
  cases hcurrent : writer.current with
  | none =>
    have hwritten := (h.idle hcurrent).1
    simp only [hwritten, Option.toList_none, List.map_nil, List.append_nil, List.prefix_refl]
  | some writing => exact ⟨_, (h.busy writing hcurrent).1⟩

/-! ## The guest -/

/-- The guest hands out the commands of the lines that it consumed. -/
structure GuestPort.Consistent (codec : Codec CommandFrame) (guest : GuestPort) : Prop where
  buffer : guest.buffer = ⟨unfinishedLine frameEnd guest.consumed, (unfinishedLine frameEnd guest.consumed).length⟩
  frames : guest.frames = decodeLines codec (completeLines frameEnd guest.consumed)
  sound : guest.failed = none

namespace GuestPort

variable {codec : Codec CommandFrame} {guest : GuestPort} {bytes : Bytes}

/-- What consuming does not touch. -/
theorem consume_same (bytes : Bytes) (guest : GuestPort) :
    (guest.consume codec bytes).consumed = guest.consumed ++ bytes ∧
      (guest.consume codec bytes).owed = guest.owed + bytes.length ∧
      (guest.consume codec bytes).events = guest.events ∧ (guest.consume codec bytes).unsent = guest.unsent ∧
      (guest.consume codec bytes).closed = guest.closed := by
  rw [consume]
  dsimp only
  split <;> exact ⟨rfl, rfl, rfl, rfl, rfl⟩

/-- What writing an event does not touch. -/
theorem write_same {codec : Codec EventFrame} {event : EventFrame} {guest' : GuestPort}
    (h : guest.write codec event = some guest') :
    (guest'.consumed = guest.consumed ∧ guest'.buffer = guest.buffer ∧ guest'.frames = guest.frames ∧
      guest'.failed = guest.failed) ∧ guest'.owed = guest.owed := by
  rw [write] at h
  split at h
  · cases h
  · split_ifs at h
    obtain rfl := Option.some.inj h
    exact ⟨⟨rfl, rfl, rfl, rfl⟩, rfl⟩

/-- Part of a stream of commands is consumed without an error. -/
theorem Consistent.consume (htext : Textual codec) (hg : guest.Consistent codec) {values : List CommandFrame}
    (hsend : ∀ value ∈ values, Sendable codec value) (h : guest.consumed ++ bytes <+: linesOf codec values) :
    (guest.consume codec bytes).Consistent codec := by
  obtain ⟨front, rest, rfl, hcomplete, hrest⟩ := lines_of_part htext hsend h
  have hinspected : guest.buffer.Inspected := by
    rw [hg.buffer]
    exact ⟨Nat.le_refl _, by rw [List.take_length]; exact not_mem_unfinishedLine _ _⟩
  have hbytes : guest.buffer.bytes = unfinishedLine frameEnd guest.consumed := by rw [hg.buffer]
  have hreadable : ∀ line ∈ completeLines frameEnd (guest.consumed ++ bytes), Readable codec line := by
    intro line hline
    rw [hcomplete] at hline
    obtain ⟨frame, hframe, rfl⟩ := List.mem_map.mp hline
    obtain ⟨hbody, hlength⟩ := (hsend frame (List.mem_append_left _ hframe)).body
    exact .inr ⟨hlength, frame, (htext.carries _ _ hbody).fromSlice⟩
  have hlines : ∀ line ∈ completeLines frameEnd (guest.buffer.bytes ++ bytes), Readable codec line := by
    intro line hline
    rw [hbytes] at hline
    refine hreadable line ?_
    rw [completeLines_append]
    exact List.mem_append_right _ hline
  rw [unfinishedLine_append, ← hbytes] at hrest
  have hextend := extendLines_ok hinspected hlines hrest
  rw [hbytes, ← unfinishedLine_append] at hextend
  rw [GuestPort.consume, hextend]
  refine ⟨rfl, ?_, hg.sound⟩
  show guest.frames ++ decodeLines codec (completeLines frameEnd
    (unfinishedLine frameEnd guest.consumed ++ bytes)) =
    decodeLines codec (completeLines frameEnd (guest.consumed ++ bytes))
  have hsplit := completeLines_append frameEnd guest.consumed bytes
  rw [hg.frames, hsplit, decodeLines_append]

end GuestPort

/-! ## The events -/

/-- The reader takes the line of the event. -/
structure Passes (codec : Codec EventFrame) (event : EventFrame) : Prop where
  carries : Carries codec event
  short : (bodyOf codec event).length ≤ maxFrameLength
  nul : serialAck ∉ bodyOf codec event

/-- What the reader has not handed out is in its body, under way, or not sent. -/
structure EventReader.Hears (codec : Codec EventFrame) (guest : GuestPort) (replies : Bytes)
    (reader : EventReader) : Prop where
  passes : ∀ event ∈ guest.events, Passes codec event
  coming : ∃ coming, guest.events = reader.events ++ coming ∧
    reader.body ++ (replies.filter (· ≠ serialAck) ++ guest.unsent) = linesOf codec coming
  body : frameEnd ∉ reader.body
  unsent : serialAck ∉ guest.unsent
  /-- The reader ends behind the last byte of a guest that is closed. -/
  finished : ∀ result, reader.finished = some result →
    guest.closed = true ∧ replies = [] ∧ (guest.unsent = [] → result = .ok ())

namespace EventReader

variable {codec : Codec EventFrame} {guest guest' : GuestPort} {reader : EventReader} {byte : UInt8}
  {replies : Bytes}

/-- In front of the newline of a line stands its body. -/
theorem body_of_lines {coming : List EventFrame} {body rest : Bytes}
    (hpasses : ∀ event ∈ coming, Passes codec event)
    (hbody : frameEnd ∉ body) (h : body ++ frameEnd :: rest = linesOf codec coming) :
    ∃ event later, coming = event :: later ∧ body = bodyOf codec event ∧ rest = linesOf codec later := by
  cases coming with
  | nil => simp [linesOf] at h
  | cons event later =>
    rw [linesOf_cons] at h
    have hline := (hpasses event List.mem_cons_self).carries.line
    have hends := delimits_terminated (P := fun line => frameEnd ∉ line) (f := id) fun _ h => h
    obtain ⟨hsame, hrest⟩ := hends body (bodyOf codec event) hbody hline rest (linesOf codec later)
      (by simpa using h)
    exact ⟨event, later, rfl, hsame, hrest⟩

/-- A byte that does not end the line is within the limit. -/
theorem short_of_lines {coming : List EventFrame} {body rest : Bytes}
    (hpasses : ∀ event ∈ coming, Passes codec event)
    (hbody : frameEnd ∉ body) (hbyte : byte ≠ frameEnd) (h : body ++ byte :: rest = linesOf codec coming) :
    body.length < maxFrameLength := by
  cases coming with
  | nil => simp [linesOf] at h
  | cons event later =>
    rw [linesOf_cons] at h
    have hshort := (hpasses event List.mem_cons_self).short
    rcases List.append_eq_append_iff.mp h with ⟨more, hmore, htail⟩ | ⟨more, hmore, htail⟩
    · cases more with
      | nil => exact absurd (List.cons.inj htail).1 hbyte
      | cons first more =>
        have hlength := congrArg List.length hmore
        simp only [List.length_append, List.length_cons] at hlength
        omega
    · cases more with
      | nil => exact absurd (List.cons.inj htail).1.symm hbyte
      | cons first more =>
        rw [hmore, ← (List.cons.inj htail).1] at hbody
        exact absurd (List.mem_append_right _ List.mem_cons_self) hbody

/-- What the guest does beside writing leaves the reader where it is. -/
theorem Hears.same (h : reader.Hears codec guest replies) (hevents : guest'.events = guest.events)
    (hunsent : guest'.unsent = guest.unsent) (hclosed : guest.closed = true → guest'.closed = true) :
    reader.Hears codec guest' replies where
  passes := hevents ▸ h.passes
  coming := by
    rw [hevents, hunsent]
    exact h.coming
  body := h.body
  unsent := hunsent ▸ h.unsent
  finished result hend := by
    obtain ⟨hclosed', hreplies, hresult⟩ := h.finished result hend
    exact ⟨hclosed hclosed', hreplies, hunsent ▸ hresult⟩

/-- A reader that waits for a byte of the guest has not ended. -/
theorem Hears.running (h : reader.Hears codec guest replies) (hopen : guest.closed = false) :
    reader.finished = none := by
  cases hend : reader.finished with
  | none => rfl
  | some result =>
    rw [(h.finished result hend).1] at hopen
    cases hopen

/-- A reader that has not ended may say what it likes of its end. -/
theorem not_ended {P : IoResult Unit → Prop} (h : reader.finished = none) :
    ∀ result, reader.finished = some result → P result := by
  intro result hend
  rw [h] at hend
  cases hend

theorem Hears.hear (h : reader.Hears codec guest (byte :: replies)) (hrunning : reader.finished = none) :
    (reader.hear codec byte).Hears codec guest replies ∧ (reader.hear codec byte).finished = none := by
  obtain ⟨coming, hevents, hcoming⟩ := h.coming
  have hpasses : ∀ event ∈ coming, Passes codec event := by
    intro event hevent
    apply h.passes
    rw [hevents]
    exact List.mem_append_right _ hevent
  rw [EventReader.hear]
  split_ifs with hack hend hlong
  · rw [List.filter_cons_of_neg (by simpa using hack)] at hcoming
    exact ⟨⟨h.passes, ⟨coming, hevents, hcoming⟩, h.body, h.unsent, not_ended hrunning⟩, hrunning⟩
  · subst hend
    rw [List.filter_cons_of_pos (by simp; decide), List.cons_append] at hcoming
    obtain ⟨event, later, rfl, hbody, hrest⟩ := body_of_lines hpasses h.body hcoming
    rw [hbody, (hpasses event List.mem_cons_self).carries.fromSlice]
    refine ⟨⟨h.passes, ⟨later, ?_, hrest⟩, List.not_mem_nil, h.unsent, not_ended hrunning⟩, hrunning⟩
    rw [hevents]
    simp
  · rw [List.filter_cons_of_pos (by simpa using hack), List.cons_append] at hcoming
    exact absurd (short_of_lines hpasses h.body hend hcoming) (by omega)
  · rw [List.filter_cons_of_pos (by simpa using hack), List.cons_append] at hcoming
    refine ⟨⟨h.passes, ⟨coming, hevents, ?_⟩, ?_, h.unsent, not_ended hrunning⟩, hrunning⟩
    · rw [← hcoming]
      simp
    · have hbody := h.body
      simp only [List.mem_append, List.mem_singleton, not_or]
      exact ⟨hbody, Ne.symm hend⟩

/-- An acknowledgement may stand anywhere. -/
theorem Hears.ack (h : reader.Hears codec guest replies) (hopen : guest.closed = false) (owed : Nat) :
    reader.Hears codec { guest with owed } (replies ++ [serialAck]) where
  passes := h.passes
  coming := by
    rw [List.filter_append]
    simpa using h.coming
  body := h.body
  unsent := h.unsent
  finished := not_ended (h.running hopen)

/-- A byte of an event is no acknowledgement. -/
theorem Hears.send {unsent : Bytes} (h : reader.Hears codec guest replies) (hopen : guest.closed = false)
    (hunsent : guest.unsent = byte :: unsent) : reader.Hears codec { guest with unsent } (replies ++ [byte]) where
  passes := h.passes
  coming := by
    have hnul := h.unsent
    rw [hunsent, List.mem_cons, not_or] at hnul
    obtain ⟨coming, hevents, hcoming⟩ := h.coming
    refine ⟨coming, hevents, ?_⟩
    rw [← hcoming, hunsent, List.filter_append, List.filter_cons_of_pos (by simpa using Ne.symm hnul.1)]
    simp
  body := h.body
  unsent hmem := by
    apply h.unsent
    rw [hunsent]
    exact List.mem_cons_of_mem _ hmem
  finished := not_ended (h.running hopen)

/-- An event that is written comes behind the others. -/
theorem Hears.write {event : EventFrame} (h : reader.Hears codec guest replies) (hopen : guest.closed = false)
    (hpasses : Sendable codec event → Passes codec event) (hwrite : guest.write codec event = some guest') :
    reader.Hears codec guest' replies := by
  rw [GuestPort.write] at hwrite
  split at hwrite
  · cases hwrite
  next body hbody =>
    split_ifs at hwrite with hlong
    obtain rfl := Option.some.inj hwrite
    have hsend : Sendable codec event := ⟨body, hbody, Nat.not_lt.mp hlong⟩
    have hsame : body = bodyOf codec event := Except.ok.inj (hbody.symm.trans hsend.body.1)
    subst hsame
    refine ⟨?_, ?_, h.body, ?_, not_ended (h.running hopen)⟩
    · intro other hother
      rcases List.mem_append.mp hother with hother | hother
      · exact h.passes other hother
      · rw [List.mem_singleton.mp hother]
        exact hpasses hsend
    · obtain ⟨coming, hevents, hcoming⟩ := h.coming
      refine ⟨coming ++ [event], ?_, ?_⟩
      · show guest.events ++ [event] = reader.events ++ (coming ++ [event])
        rw [hevents, List.append_assoc]
      · rw [linesOf_append, linesOf_cons, ← hcoming]
        simp [lined, linesOf]
    · show serialAck ∉ guest.unsent ++ lined (bodyOf codec event)
      simp only [lined, List.mem_append, List.mem_singleton, not_or]
      exact ⟨h.unsent, (hpasses hsend).nul, by decide⟩

/-- Lines of which nothing but an unbroken rest is left are none. -/
theorem Hears.drained (h : reader.Hears codec guest []) (hunsent : guest.unsent = []) :
    reader.body = [] ∧ reader.events = guest.events := by
  obtain ⟨coming, hevents, hcoming⟩ := h.coming
  rw [hunsent, List.filter_nil, List.append_nil, List.append_nil] at hcoming
  cases coming with
  | nil => exact ⟨hcoming, by rw [hevents, List.append_nil]⟩
  | cons event later =>
    refine absurd ?_ h.body
    rw [hcoming, linesOf_cons]
    exact List.mem_append_right _ List.mem_cons_self

theorem Hears.close (h : reader.Hears codec guest []) (hclosed : guest.closed = true) :
    reader.close.Hears codec guest [] where
  passes := h.passes
  coming := h.coming
  body := h.body
  unsent := h.unsent
  finished result hend := by
    refine ⟨hclosed, rfl, fun hunsent => ?_⟩
    rw [EventReader.close, if_pos (h.drained hunsent).1] at hend
    exact (Option.some.inj hend).symm

end EventReader

/-! ## The system -/

/-- The invariant: each party is consistent, and nothing is lost between them. -/
structure SerialLine.Kept (commandCodec : Codec CommandFrame) (eventCodec : Codec EventFrame)
    (requests : List CommandFrame) (s : SerialLine) : Prop where
  writer : s.writer.Consistent commandCodec requests
  guest : s.guest.Consistent commandCodec
  reader : s.reader.Hears eventCodec s.guest s.replies
  /-- What was written is consumed or under way. -/
  stream : s.writer.written = s.guest.consumed ++ s.commands
  /-- An acknowledgement that was counted, is queued, under way or owed belongs to a byte that was consumed. -/
  acks : s.writer.acknowledged + s.acknowledgements + s.replies.count serialAck + s.guest.owed ≤
    s.guest.consumed.length
  passed : linesOf commandCodec s.writer.completed <+: s.guest.consumed

namespace SerialLine.Kept

variable {commandCodec : Codec CommandFrame} {events : Codec EventFrame} {requests : List CommandFrame}
  {s s' : SerialLine}

theorem begin (requests : List CommandFrame) : (SerialLine.begin requests).Kept commandCodec events requests where
  writer := ⟨rfl, by simp [SerialLine.begin], fun _ => ⟨rfl, rfl⟩, by rintro writing ⟨⟩⟩
  guest := ⟨rfl, rfl, rfl⟩
  reader := ⟨by simp [SerialLine.begin], ⟨[], rfl, rfl⟩, List.not_mem_nil, List.not_mem_nil, by rintro result ⟨⟩⟩
  stream := rfl
  acks := Nat.le_refl _
  passed := List.prefix_refl _

/-- A writer that is idle has every acknowledgement, so that its bytes are consumed. -/
theorem idle (h : s.Kept commandCodec events requests) (hidle : s.writer.current = none) :
    s.acknowledgements = 0 ∧ s.replies.count serialAck = 0 ∧ s.guest.owed = 0 ∧ s.commands = [] := by
  obtain ⟨-, hcount⟩ := h.writer.idle hidle
  have hacks := h.acks
  have hstream := congrArg List.length h.stream
  rw [List.length_append] at hstream
  refine ⟨by omega, by omega, by omega, List.eq_nil_of_length_eq_zero ?_⟩
  omega

/-- A move of the writer. -/
theorem move {writer' : CommandWriter} {bytes : Bytes} {count : Nat} (h : s.Kept commandCodec events requests)
    (hmove : CommandWriter.Moves commandCodec requests s.writer writer' bytes count)
    (hcount : count ≤ s.acknowledgements) : SerialLine.Kept commandCodec events requests { s with
      writer := writer'
      commands := s.commands ++ bytes
      acknowledgements := s.acknowledgements - count } := by
  have hacks := h.acks
  have hstream : writer'.written = s.guest.consumed ++ (s.commands ++ bytes) := by
    rw [hmove.written, h.stream, List.append_assoc]
  refine ⟨hmove.consistent, h.guest, h.reader, hstream, ?_, ?_⟩
  · dsimp only
    rw [hmove.acknowledged]
    omega
  · show linesOf commandCodec writer'.completed <+: s.guest.consumed
    rcases hmove.completed with hsame | hidle
    · rw [hsame]
      exact h.passed
    · -- the last byte is acknowledged, and thus consumed
      obtain ⟨hwritten, hcounted⟩ := hmove.consistent.idle hidle
      rw [hmove.acknowledged] at hcounted
      have hlength := congrArg List.length hstream
      rw [List.length_append] at hlength
      have hnil : s.commands ++ bytes = [] := List.eq_nil_of_length_eq_zero (by omega)
      simp only [← hwritten, hstream, hnil, List.append_nil, List.prefix_refl]

/-- A move of the writer that neither writes nor counts. -/
theorem move_still {writer' : CommandWriter} (h : s.Kept commandCodec events requests)
    (hmove : CommandWriter.Moves commandCodec requests s.writer writer' [] 0) :
    SerialLine.Kept commandCodec events requests { s with writer := writer' } := by
  have hmoved := h.move hmove (Nat.zero_le _)
  rwa [List.append_nil] at hmoved

theorem hear {byte : UInt8} {replies : Bytes} (h : s.Kept commandCodec events requests)
    (hrunning : s.reader.finished = none) (hreplies : s.replies = byte :: replies) :
    SerialLine.Kept commandCodec events requests { s with
      replies
      reader := s.reader.hear events byte
      acknowledgements := s.acknowledgements + if byte = serialAck ∧ s.writer.failed = none then 1 else 0 } where
  writer := h.writer
  guest := h.guest
  reader := ((hreplies ▸ h.reader).hear hrunning).1
  stream := h.stream
  acks := by
    have hacks := h.acks
    rw [hreplies, List.count_cons] at hacks
    dsimp only
    split_ifs with hack
    · rw [if_pos (by simpa using hack.1)] at hacks
      omega
    · omega
  passed := h.passed

/-- The guest reads some of the bytes under way. -/
theorem consume (htext : Textual commandCodec) (count : Nat) (h : s.Kept commandCodec events requests) :
    SerialLine.Kept commandCodec events requests { s with
      guest := s.guest.consume commandCodec (s.commands.take count)
      commands := s.commands.drop count } := by
  obtain ⟨hconsumed, howed, hevents, hunsent, hclosed⟩ :=
    @GuestPort.consume_same commandCodec (s.commands.take count) s.guest
  have hsplit : s.writer.written = (s.guest.consumed ++ s.commands.take count) ++ s.commands.drop count := by
    rw [h.stream, List.append_assoc, List.take_append_drop]
  refine ⟨h.writer, ?_, ?_, ?_, ?_, ?_⟩
  · refine h.guest.consume htext h.writer.sendable (List.IsPrefix.trans ⟨_, hsplit.symm⟩ h.writer.part)
  · exact h.reader.same hevents hunsent fun hopen => hclosed.trans hopen
  · show s.writer.written =
      (s.guest.consume commandCodec (s.commands.take count)).consumed ++ s.commands.drop count
    rw [hconsumed, hsplit]
  · have hacks := h.acks
    dsimp only
    rw [hconsumed, howed, List.length_append]
    omega
  · show _ <+: (s.guest.consume commandCodec (s.commands.take count)).consumed
    rw [hconsumed]
    exact h.passed.trans (List.prefix_append _ _)

/-- The guest goes on without consuming: what it sends is an acknowledgement, or belongs to an event. -/
theorem sending {guest' : GuestPort} {replies : Bytes} (h : s.Kept commandCodec events requests)
    (hsame : guest'.consumed = s.guest.consumed ∧ guest'.buffer = s.guest.buffer ∧ guest'.frames = s.guest.frames ∧
      guest'.failed = s.guest.failed) (hreader : s.reader.Hears events guest' replies)
    (hacks : replies.count serialAck + guest'.owed = s.replies.count serialAck + s.guest.owed) :
    SerialLine.Kept commandCodec events requests { s with guest := guest', replies } where
  writer := h.writer
  guest := by
    obtain ⟨hconsumed, hbuffer, hframes, hfailed⟩ := hsame
    have hguest := h.guest
    refine ⟨?_, ?_, hfailed.trans hguest.sound⟩
    · rw [hbuffer, hconsumed, hguest.buffer]
    · rw [hframes, hconsumed, hguest.frames]
  reader := hreader
  stream := hsame.1 ▸ h.stream
  acks := by
    have hkept := h.acks
    dsimp only
    rw [hsame.1]
    omega
  passed := hsame.1 ▸ h.passed

/-- One move keeps the invariant. -/
theorem step (htext : Textual commandCodec) (move : SerialMove) (h : s.Kept commandCodec events requests)
    (hpasses : ∀ event, move = .writeEvent event → Sendable events event → Passes events event)
    (hstep : serialStep commandCodec events s move = some s') : s'.Kept commandCodec events requests := by
  cases move with
  | start =>
    obtain ⟨writer, hwriter, rfl⟩ := Option.map_eq_some_iff.mp hstep
    exact h.move_still (h.writer.start hwriter)
  | write =>
    obtain ⟨⟨byte, writer⟩, hwriter, rfl⟩ := Option.map_eq_some_iff.mp hstep
    exact h.move (h.writer.write hwriter) (Nat.zero_le _)
  | acknowledge =>
    rw [serialStep] at hstep
    split_ifs at hstep with hnone
    obtain ⟨writer, hwriter, rfl⟩ := Option.map_eq_some_iff.mp hstep
    have hmoved := h.move (h.writer.acknowledge hwriter) (Nat.one_le_iff_ne_zero.mpr hnone)
    rwa [List.append_nil] at hmoved
  | advance =>
    obtain ⟨writer, hwriter, rfl⟩ := Option.map_eq_some_iff.mp hstep
    exact h.move_still (h.writer.advance hwriter)
  | fail error =>
    obtain ⟨writer, hwriter, rfl⟩ := Option.map_eq_some_iff.mp hstep
    exact h.move_still (h.writer.fail hwriter)
  | hear =>
    rw [serialStep] at hstep
    split at hstep
    next byte replies hrunning hreplies =>
      obtain rfl := Option.some.inj hstep
      exact h.hear hrunning hreplies
    next => cases hstep
  | endOfStream =>
    rw [serialStep] at hstep
    split_ifs at hstep with hend
    obtain ⟨-, hreplies, hclosed⟩ := hend
    obtain rfl := Option.some.inj hstep
    refine ⟨h.writer, h.guest, ?_, h.stream, h.acks, h.passed⟩
    have hreader := h.reader
    rw [hreplies] at hreader
    show s.reader.close.Hears events s.guest s.replies
    rw [hreplies]
    exact hreader.close hclosed
  | consume count =>
    rw [serialStep] at hstep
    split_ifs at hstep with hcannot
    obtain rfl := Option.some.inj hstep
    exact h.consume htext count
  | sendAck =>
    rw [serialStep] at hstep
    split_ifs at hstep with hcannot
    obtain rfl := Option.some.inj hstep
    rw [not_or, Bool.not_eq_true] at hcannot
    refine h.sending ⟨rfl, rfl, rfl, rfl⟩ (h.reader.ack hcannot.1 _) ?_
    have howed := hcannot.2
    rw [List.count_append, List.count_singleton_self]
    dsimp only
    omega
  | writeEvent event =>
    rw [serialStep] at hstep
    split_ifs at hstep with hclosed
    obtain ⟨guest, hguest, rfl⟩ := Option.map_eq_some_iff.mp hstep
    have hreader := h.reader.write (Bool.not_eq_true _ ▸ hclosed) (hpasses event rfl) hguest
    obtain ⟨hsame, howed⟩ := GuestPort.write_same hguest
    exact h.sending hsame hreader (by rw [howed])
  | sendByte =>
    rw [serialStep] at hstep
    split at hstep
    next byte unsent hopen hunsent =>
      obtain rfl := Option.some.inj hstep
      have hnul := h.reader.unsent
      rw [hunsent, List.mem_cons, not_or] at hnul
      refine h.sending ⟨rfl, rfl, rfl, rfl⟩ (h.reader.send hopen hunsent) ?_
      rw [List.count_append, List.count_singleton, if_neg (by simpa using Ne.symm hnul.1), Nat.add_zero]
    next => cases hstep
  | close =>
    obtain rfl := Option.some.inj hstep
    exact h.sending ⟨rfl, rfl, rfl, rfl⟩ (h.reader.same rfl rfl fun _ => rfl) rfl

/-- A run keeps the invariant. -/
theorem run (htext : Textual commandCodec) (moves : List SerialMove) (h : s.Kept commandCodec events requests)
    (hpasses : ∀ event, .writeEvent event ∈ moves → Sendable events event → Passes events event)
    (hrun : serialRun commandCodec events moves s = some s') : s'.Kept commandCodec events requests := by
  induction moves generalizing s with
  | nil =>
    obtain rfl := Option.some.inj hrun
    exact h
  | cons move moves ih =>
    rw [serialRun, List.foldlM_cons] at hrun
    obtain ⟨middle, hstep, hrest⟩ := Option.bind_eq_some_iff.mp hrun
    refine ih (h.step htext move (fun event heq => hpasses event ?_) hstep)
      (fun event hevent => hpasses event ?_) hrest
    · rw [heq]
      exact List.mem_cons_self
    · exact List.mem_cons_of_mem _ hevent

end SerialLine.Kept

/-! ## What the parties see -/

/-- The lines of values are complete. -/
theorem completeLines_linesOf {T : Type} {codec : Codec T} {values : List T}
    (hlines : ∀ value ∈ values, frameEnd ∉ bodyOf codec value) :
    completeLines frameEnd (linesOf codec values) = values.map (bodyOf codec) := by
  induction values with
  | nil => rfl
  | cons value values ih =>
    rw [linesOf_cons, completeLines_line (hlines value List.mem_cons_self),
      ih fun other hother => hlines other (List.mem_cons_of_mem _ hother), List.map_cons]

/-- What holds of the channel whatever the order of the moves. -/
structure SerialLine.Faithful (codec : Codec CommandFrame) (requests : List CommandFrame)
    (s : SerialLine) : Prop where
  /-- The reader returns the events that the guest wrote, in order, -/
  events : s.reader.events <+: s.guest.events
  /-- all of them once their bytes have come, -/
  arrived : s.replies = [] → s.guest.unsent = [] → s.reader.events = s.guest.events
  /-- and ends with an error only where the guest closed within a line. -/
  ended : ∀ result, s.reader.finished = some result → s.guest.closed = true ∧
    (s.guest.unsent = [] → result = .ok ())
  window : s.writer.written.length ≤ s.writer.acknowledged + commandWriteChunkBytes
  honest : s.writer.acknowledged ≤ s.guest.consumed.length
  /-- A frame is `Ok` only when every byte of it is consumed. -/
  consumed : linesOf codec s.writer.completed <+: s.guest.consumed
  /-- Between two commands no acknowledgement is queued, under way or owed. -/
  clean : s.writer.current = none → s.acknowledgements = 0 ∧ serialAck ∉ s.replies ∧ s.guest.owed = 0 ∧
    s.commands = []
  received : s.writer.completed <+: s.guest.frames ∧ s.guest.frames <+: requests
  sound : s.guest.failed = none

namespace SerialLine.Kept

variable {commandCodec : Codec CommandFrame} {events : Codec EventFrame} {requests : List CommandFrame}
  {s : SerialLine}

/-- What is written beyond the acknowledgements is within one chunk. -/
theorem window (h : s.Kept commandCodec events requests) :
    s.writer.written.length ≤ s.writer.acknowledged + commandWriteChunkBytes := by
  cases hcurrent : s.writer.current with
  | none =>
    have hcount := (h.writer.idle hcurrent).2
    omega
  | some writing =>
    obtain ⟨-, hcount, hmissing⟩ := h.writer.busy writing hcurrent
    omega

/-- The guest has the completed commands, and at most the one that is being written beside them. -/
theorem received (htext : Textual commandCodec) (h : s.Kept commandCodec events requests) :
    s.writer.completed <+: s.guest.frames ∧ s.guest.frames <+: requests := by
  have hsend := h.writer.sendable
  have hcompleted : ∀ frame ∈ s.writer.completed, Sendable commandCodec frame :=
    fun frame hframe => hsend frame (List.mem_append_left _ hframe)
  have hpart := List.IsPrefix.trans ⟨_, h.stream.symm⟩ h.writer.part
  constructor
  · obtain ⟨more, hmore⟩ := h.passed
    have hlines := fun frame hframe => (htext.carries _ _ (hcompleted frame hframe).body.1).line
    rw [h.guest.frames, ← hmore, completeLines_append, decodeLines_append, completeLines_linesOf hlines,
      decodeLines_bodies htext hcompleted]
    exact List.prefix_append _ _
  · obtain ⟨front, rest, hvalues, hcomplete, -⟩ := lines_of_part htext hsend hpart
    have hfront : s.guest.frames = front := by
      rw [h.guest.frames, hcomplete, decodeLines_bodies htext fun frame hframe => hsend frame ?_]
      rw [hvalues]
      exact List.mem_append_left _ hframe
    rw [hfront, ← h.writer.order, ← List.append_assoc, hvalues, List.append_assoc]
    exact List.prefix_append _ _

theorem faithful (htext : Textual commandCodec) (h : s.Kept commandCodec events requests) :
    s.Faithful commandCodec requests where
  events := by
    obtain ⟨coming, hevents, -⟩ := h.reader.coming
    exact ⟨coming, hevents.symm⟩
  arrived hreplies hunsent := by
    have hreader := h.reader
    rw [hreplies] at hreader
    exact (hreader.drained hunsent).2
  ended result hend := by
    obtain ⟨hclosed, -, hresult⟩ := h.reader.finished result hend
    exact ⟨hclosed, hresult⟩
  window := h.window
  honest := by
    have hacks := h.acks
    omega
  consumed := h.passed
  clean hidle := by
    obtain ⟨hqueued, hreplies, howed, hcommands⟩ := h.idle hidle
    exact ⟨hqueued, List.count_eq_zero.mp hreplies, howed, hcommands⟩
  received := h.received htext
  sound := h.guest.sound

end SerialLine.Kept

/-- One call of `read_serial_frames` is a `consume` of what it read, and as many acknowledgements. -/
theorem consume_readSerialFrames {codec : Codec CommandFrame} {guest : GuestPort} {buffer : SerialBuffer}
    {wire wire' : Link} {frames : List CommandFrame}
    (h : readSerialFrames codec (guest.buffer, wire) = (.ok (some frames), buffer, wire')) :
    ∃ bytes, wire.incoming = bytes ++ wire'.incoming ∧
      wire'.outgoing = wire.outgoing ++ List.replicate bytes.length serialAck ∧
      (bytes = [] ∧ frames = [] ∧ buffer = guest.buffer ∨ guest.consume codec bytes = { guest with
        buffer
        frames := guest.frames ++ frames
        consumed := guest.consumed ++ bytes
        owed := guest.owed + bytes.length }) := by
  obtain ⟨bytes, hin, hout, -, hframes⟩ := readSerialFrames_some h
  refine ⟨bytes, hin, hout, hframes.imp_right fun hextend => ?_⟩
  rw [GuestPort.consume, hextend]
  rfl

/-- **The serial channel is exact.**  Whatever the order in which the writer, the reader and the guest move, and
wherever the acknowledgements stand among the events: the events are read as they were written, no more than one
chunk is without its acknowledgements, and every acknowledgement is counted towards the command whose bytes it
answers. -/
theorem serialRun_exact (codec : Codec CommandFrame) (htext : Textual codec) (derived : Codec EventFrame)
    (hevents : Textual derived) (custom : Bytes → Text → JsonError) (requests : List CommandFrame)
    (moves : List SerialMove) (hreal : ∀ event, .writeEvent event ∈ moves → event.event.Real) (s : SerialLine)
    (hrun : serialRun codec (eventCodec derived custom) moves (SerialLine.begin requests) = some s) :
    s.Faithful codec requests := by
  refine SerialLine.Kept.faithful htext ((SerialLine.Kept.begin requests).run htext moves
    (fun event hevent hsend => ?_) hrun)
  obtain ⟨hbody, hlength⟩ := hsend.body
  exact ⟨carries_eventCodec custom (hevents.carries _ _ hbody) (hreal event hevent), hlength,
    hevents.nul _ _ hbody⟩

theorem textual_sampleCodec {T : Type} [DecidableEq T] {value : T} {json : Text} (hline : frameEnd ∉ json)
    (hnul : serialAck ∉ json) (hnonempty : json ≠ []) : Textual (sampleCodec value json) := by
  have hsame : ∀ given body, (sampleCodec value json).toVec given = .ok body → given = value ∧ body = json := by
    intro given body h
    rw [sampleCodec] at h
    dsimp only at h
    split_ifs at h with hgiven
    exact ⟨hgiven, (Except.ok.inj h).symm⟩
  refine ⟨fun given body h => ?_, fun given body h => ?_, fun given body h => ?_⟩ <;>
    obtain ⟨rfl, rfl⟩ := hsame given body h
  · exact carries_sampleCodec hline
  · exact hnul
  · exact hnonempty

/-- A chunk whose acknowledgements stand between the bytes of an event. -/
def sampleChunk (count : Nat) : List SerialMove :=
  List.replicate count .write ++ [.consume count] ++
    (List.replicate count [.sendAck, .sendByte, .hear, .hear]).flatten ++
      List.replicate count .acknowledge ++ [.advance]

theorem not_mem_sampleChunk (event : EventFrame) (count : Nat) : .writeEvent event ∉ sampleChunk count := by
  simp [sampleChunk]

def sampleMoves : List SerialMove :=
  [.writeEvent sampleExitFrame, .start] ++ sampleChunk 16 ++ sampleChunk 16 ++ sampleChunk 16 ++ sampleChunk 16 ++
    sampleChunk ((sampleCommandJson.length + 1) % 16) ++
    (List.replicate (sampleExitJson.length - sampleCommandJson.length) [.sendByte, .hear]).flatten

theorem serialRun_exact_sample :
    ∃ s, serialRun (sampleCodec sampleCommand sampleCommandJson)
        (eventCodec (sampleCodec sampleExitFrame sampleExitJson) fun _ _ => ⟨.data, 1, 1⟩) sampleMoves
        (SerialLine.begin [sampleCommand]) = some s ∧
      s.writer.completed = [sampleCommand] ∧ s.reader.events = [sampleExitFrame] ∧
      s.Faithful (sampleCodec sampleCommand sampleCommandJson) [sampleCommand] := by
  have hrun : ((serialRun (sampleCodec sampleCommand sampleCommandJson)
      (eventCodec (sampleCodec sampleExitFrame sampleExitJson) fun _ _ => ⟨.data, 1, 1⟩) sampleMoves
      (SerialLine.begin [sampleCommand])).map fun s => (s.writer.completed, s.reader.events)) =
        some ([sampleCommand], [sampleExitFrame]) := by decide +kernel
  obtain ⟨s, hs, hends⟩ := Option.map_eq_some_iff.mp hrun
  obtain ⟨hcompleted, hevents⟩ := Prod.mk.inj hends
  have hcommands := @textual_sampleCodec _ _ sampleCommand sampleCommandJson (by decide +kernel)
    (by decide +kernel) (by decide +kernel)
  have hexits := @textual_sampleCodec _ _ sampleExitFrame sampleExitJson (by decide +kernel) (by decide +kernel)
    (by decide +kernel)
  refine ⟨s, hs, hcompleted, hevents, serialRun_exact _ hcommands _ hexits _ [sampleCommand] sampleMoves ?_ s hs⟩
  intro event hevent
  have hrest : ∀ count, .writeEvent event ∉ (List.replicate count [SerialMove.sendByte, .hear]).flatten := by simp
  have hsample : event = sampleExitFrame := by
    simpa only [sampleMoves, List.mem_append, not_mem_sampleChunk, hrest, or_false, List.mem_cons,
      List.not_mem_nil, SerialMove.writeEvent.injEq, reduceCtorEq] using hevent
  rw [hsample]
  exact ⟨by decide, by decide⟩

end SimFerret
