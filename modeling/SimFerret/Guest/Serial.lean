import SimFerret.Frames
import SimFerret.Lib.Lines

/-!
# SimFerret.Guest.Serial — the agent's reader of the control channel (`agent.rs`)

The agent reads whatever control bytes there are, acknowledges each, and hands out the command frames of the
lines that are complete; what stands behind the last newline waits in a `SerialBuffer`.

* `readSerialFrames`: one read, and the frames that it completes.
* `SerialFraming`: what a sequence of reads hands out, and what it leaves in the buffer.
* `readSerialFrames_exact`: **the frames do not depend on how the stream is cut into reads**, and they are those
  of the reader of one byte at a time.
-/

namespace SimFerret

open Transport Workload

/-- Line-delimited control frames, without rescanning bytes that have been inspected. -/
structure SerialBuffer where
  bytes : Bytes := []
  scanned : Nat := 0

/-- The buffer of `read_serial_frames`. -/
def serialChunk : Nat := 4096

def closedInsideFrame : IoError := ⟨.unexpectedEof, "the control channel closed inside a frame"⟩

/-- An answer to each of the bytes, and one flush. -/
def acknowledgeAll (bytes : Bytes) : Io UInt8 IoError Unit := do
  bytes.forM fun _ => (writeAll ioFailures [serialAck] : Io UInt8 IoError Unit)
  flush

section

variable (codec : Codec CommandFrame)

/-- The loop of `read_serial_frames`. -/
def drainLines (buffer : SerialBuffer) (frames : List CommandFrame) :
    IoResult (List CommandFrame) × SerialBuffer :=
  match _h : (buffer.bytes.drop buffer.scanned).findIdx? (· == frameEnd) with
  | none => (.ok frames, { buffer with scanned := buffer.bytes.length })
  | some offset =>
    let index := buffer.scanned + offset
    let line := buffer.bytes.take (index + 1)
    let buffer' : SerialBuffer := { bytes := buffer.bytes.drop (index + 1), scanned := 0 }
    let body := line.take (line.length - 1)
    if body = [] then drainLines buffer' frames
    else if body.length > maxFrameLength then (.error (frameTooLong .invalidData), buffer')
    else
      match codec.fromSlice body with
      | .error error => (.error (jsonError "malformed command frame" error), buffer')
      | .ok frame => drainLines buffer' (frames ++ [frame])
termination_by buffer.bytes.length
decreasing_by
  all_goals
    have hlt := (List.findIdx?_eq_some_iff_findIdx_eq.mp _h).1
    simp only [List.length_drop] at hlt ⊢
    omega

/-- What `read_serial_frames` does with the bytes of a read. -/
def extendLines (buffer : SerialBuffer) (bytes : Bytes) : IoResult (Option (List CommandFrame)) × SerialBuffer :=
  match drainLines codec { buffer with bytes := buffer.bytes ++ bytes } [] with
  | (.error error, buffer') => (.error error, buffer')
  | (.ok frames, buffer') =>
    if buffer'.bytes.length > maxFrameLength then (.error (frameTooLong .invalidData), buffer')
    else (.ok (some frames), buffer')

/-- One call, with the buffer beside the transport. -/
def readSerialFrames (state : SerialBuffer × Link) : IoResult (Option (List CommandFrame)) × SerialBuffer × Link :=
  match (read serialChunk state.2 : IoResult Bytes × Link) with
  | (.error error, wire) =>
    if error.kind = .interrupted ∨ error.kind = .wouldBlock then (.ok (some []), state.1, wire)
    else (.error error, state.1, wire)
  | (.ok [], wire) =>
    if state.1.bytes ≠ [] then (.error closedInsideFrame, state.1, wire) else (.ok none, state.1, wire)
  | (.ok (byte :: rest), wire) =>
    match acknowledgeAll (byte :: rest) wire with
    | (.error error, wire') => (.error error, state.1, wire')
    | (.ok (), wire') =>
      ((extendLines codec state.1 (byte :: rest)).1, (extendLines codec state.1 (byte :: rest)).2, wire')

/-! ## Lines of frames -/

/-- A line that the reader takes. -/
def Readable (line : Bytes) : Prop :=
  line = [] ∨ line.length ≤ maxFrameLength ∧ ∃ frame, codec.fromSlice line = .ok frame

/-- The frames of the lines that are not empty. -/
def decodeLines (lines : List Bytes) : List CommandFrame :=
  (lines.filter (· ≠ [])).filterMap fun line => (codec.fromSlice line).toOption

theorem decodeLines_append (lines more : List Bytes) :
    decodeLines codec (lines ++ more) = decodeLines codec lines ++ decodeLines codec more := by
  rw [decodeLines, List.filter_append, List.filterMap_append]
  rfl

variable {codec}

theorem decodeLines_frame {line : Bytes} {frame : CommandFrame} (hline : line ≠ [])
    (hframe : codec.fromSlice line = .ok frame) (lines : List Bytes) :
    decodeLines codec (line :: lines) = frame :: decodeLines codec lines := by
  rw [decodeLines, List.filter_cons_of_pos (by simpa using hline), List.filterMap_cons, hframe]
  rfl

/-! ## The loop -/

theorem drainLines_unbroken {bytes : Bytes} (hbytes : frameEnd ∉ bytes) (scanned : Nat)
    (frames : List CommandFrame) : drainLines codec ⟨bytes, scanned⟩ frames =
    (.ok frames, ⟨bytes, bytes.length⟩) := by
  have hnone : (bytes.drop scanned).findIdx? (· == frameEnd) = none := by
    rw [List.findIdx?_eq_none_iff]
    intro byte hbyte
    rw [beq_eq_false_iff_ne]
    rintro rfl
    exact hbytes (List.mem_of_mem_drop hbyte)
  rw [drainLines]
  split
  next => rfl
  next heq =>
    rw [hnone] at heq
    cases heq

theorem drainLines_line {line : Bytes} (hline : frameEnd ∉ line) {scanned : Nat} (hscanned : scanned ≤ line.length)
    (rest : Bytes) (frames : List CommandFrame) : drainLines codec ⟨line ++ frameEnd :: rest, scanned⟩ frames =
      if line = [] then drainLines codec ⟨rest, 0⟩ frames
      else if line.length > maxFrameLength then (.error (frameTooLong .invalidData), ⟨rest, 0⟩)
      else match codec.fromSlice line with
        | .error error => (.error (jsonError "malformed command frame" error), ⟨rest, 0⟩)
        | .ok frame => drainLines codec ⟨rest, 0⟩ (frames ++ [frame]) := by
  have hsome : ((line ++ frameEnd :: rest).drop scanned).findIdx? (· == frameEnd) =
      some (line.length - scanned) := by
    have hnot : ∀ byte ∈ line.drop scanned, (byte == frameEnd) = false := by
      intro byte hbyte
      rw [beq_eq_false_iff_ne]
      rintro rfl
      exact hline (List.mem_of_mem_drop hbyte)
    rw [List.drop_append_of_le_length hscanned, List.findIdx?_append, List.findIdx?_eq_none_iff.mpr hnot]
    simp [List.findIdx?_cons]
  have htake : (line ++ frameEnd :: rest).take (line.length + 1) = line ++ [frameEnd] := by
    rw [List.take_length_add_append]
    rfl
  have hdrop : (line ++ frameEnd :: rest).drop (line.length + 1) = rest := by
    rw [List.drop_length_add_append]
    rfl
  rw [drainLines]
  split <;> rename_i heq <;> rw [hsome] at heq <;> cases heq
  have hindex : scanned + (line.length - scanned) = line.length := by omega
  simp only [hindex, htake, hdrop, List.length_append, List.length_singleton, Nat.add_sub_cancel, List.take_left]

/-- What has been inspected is in the buffer and has no newline. -/
structure SerialBuffer.Inspected (buffer : SerialBuffer) : Prop where
  within : buffer.scanned ≤ buffer.bytes.length
  unbroken : frameEnd ∉ buffer.bytes.take buffer.scanned

theorem inspected_zero (bytes : Bytes) : SerialBuffer.Inspected ⟨bytes, 0⟩ := ⟨Nat.zero_le _, List.not_mem_nil⟩

theorem SerialBuffer.Inspected.le_line {line rest : Bytes} {scanned : Nat}
    (h : SerialBuffer.Inspected ⟨line ++ frameEnd :: rest, scanned⟩) : scanned ≤ line.length := by
  by_contra hlt
  refine h.unbroken (List.mem_take_iff_getElem.mpr ⟨line.length, ?_, ?_⟩)
  · have hwithin := h.within
    simp only [List.length_append, List.length_cons] at hwithin ⊢
    omega
  · simp

theorem SerialBuffer.Inspected.extend {buffer : SerialBuffer} (h : buffer.Inspected) (bytes : Bytes) :
    SerialBuffer.Inspected ⟨buffer.bytes ++ bytes, buffer.scanned⟩ := by
  refine ⟨?_, ?_⟩
  · rw [List.length_append]
    exact Nat.le_add_right_of_le h.within
  · rw [List.take_append_of_le_length h.within]
    exact h.unbroken

/-- What the loop does with the lines of the buffer, and what it leaves. -/
structure Drained (codec : Codec CommandFrame) (bytes : Bytes) (frames : List CommandFrame)
    (result : IoResult (List CommandFrame) × SerialBuffer) : Prop where
  ok : (∀ line ∈ completeLines frameEnd bytes, Readable codec line) →
    result = (.ok (frames ++ decodeLines codec (completeLines frameEnd bytes)),
      ⟨unfinishedLine frameEnd bytes, (unfinishedLine frameEnd bytes).length⟩)
  readable : ∀ out, result.1 = .ok out → ∀ line ∈ completeLines frameEnd bytes, Readable codec line
  failed : ∀ error, result.1 = .error error → result.2.scanned = 0

/-- A line that cannot be read ends the loop. -/
theorem drained_unreadable {line rest : Bytes} (hline : frameEnd ∉ line) (hbad : ¬ Readable codec line)
    (frames : List CommandFrame) (error : IoError) :
    Drained codec (line ++ frameEnd :: rest) frames (.error error, ⟨rest, 0⟩) where
  ok h := absurd (h line (by rw [completeLines_line hline]; exact List.mem_cons_self)) hbad
  readable _ h := nomatch h
  failed _ _ := rfl

/-- A line that can be read leaves the loop to the rest. -/
theorem Drained.line {line rest : Bytes} {frames : List CommandFrame}
    {result : IoResult (List CommandFrame) × SerialBuffer} (hline : frameEnd ∉ line)
    (hreadable : Readable codec line) (h : Drained codec rest (frames ++ decodeLines codec [line]) result) :
    Drained codec (line ++ frameEnd :: rest) frames result where
  ok hlines := by
    rw [completeLines_line hline] at hlines ⊢
    rw [h.ok fun line hl => hlines line (List.mem_cons_of_mem _ hl), unfinishedLine_line hline, List.append_assoc,
      ← decodeLines_append, List.singleton_append]
  readable out hout := by
    rw [completeLines_line hline]
    exact List.forall_mem_cons.mpr ⟨hreadable, h.readable out hout⟩
  failed := h.failed

theorem drainLines_drained (bytes : Bytes) (scanned : Nat) (h : SerialBuffer.Inspected ⟨bytes, scanned⟩)
    (frames : List CommandFrame) : Drained codec bytes frames (drainLines codec ⟨bytes, scanned⟩ frames) := by
  induction bytes using line_induction frameEnd generalizing scanned frames with
  | unbroken bytes hbytes =>
    rw [drainLines_unbroken hbytes]
    refine ⟨fun _ => ?_, fun _ _ line hline => ?_, ?_⟩
    · rw [completeLines_unbroken hbytes, unfinishedLine_unbroken hbytes]
      simp [decodeLines]
    · rw [completeLines_unbroken hbytes] at hline
      exact absurd hline List.not_mem_nil
    · rintro _ ⟨⟩
  | line line rest hline ih =>
    rw [drainLines_line hline h.le_line]
    have hrest := ih 0 (inspected_zero rest)
    by_cases hempty : line = []
    · subst hempty
      rw [if_pos rfl]
      exact Drained.line hline (.inl rfl) (by simpa [decodeLines] using hrest frames)
    rw [if_neg hempty]
    by_cases hlong : line.length > maxFrameLength
    · rw [if_pos hlong]
      refine drained_unreadable hline ?_ frames _
      rintro (hnil | ⟨hle, -⟩)
      · exact hempty hnil
      · omega
    rw [if_neg hlong]
    cases hframe : codec.fromSlice line with
    | error error =>
      refine drained_unreadable hline ?_ frames _
      rintro (hnil | ⟨-, frame, hok⟩)
      · exact hempty hnil
      · rw [hframe] at hok
        cases hok
    | ok frame =>
      refine Drained.line hline (.inr ⟨by omega, frame, hframe⟩) ?_
      rw [decodeLines_frame hempty hframe]
      exact hrest _

/-! ## One call -/

variable {buffer buffer' : SerialBuffer} {bytes : Bytes} {wire wire' : Link}

theorem extendLines_ok (h : buffer.Inspected)
    (hlines : ∀ line ∈ completeLines frameEnd (buffer.bytes ++ bytes), Readable codec line)
    (hrest : (unfinishedLine frameEnd (buffer.bytes ++ bytes)).length ≤ maxFrameLength) :
    extendLines codec buffer bytes =
      (.ok (some (decodeLines codec (completeLines frameEnd (buffer.bytes ++ bytes)))),
      ⟨unfinishedLine frameEnd (buffer.bytes ++ bytes),
          (unfinishedLine frameEnd (buffer.bytes ++ bytes)).length⟩) := by
  have hdrained := @drainLines_drained codec _ _ (h.extend bytes) []
  simp only [extendLines, hdrained.ok hlines, if_neg (Nat.not_lt.mpr hrest), List.nil_append]

/-- Frames are handed out only where every line can be read and the rest is within the limit. -/
theorem readable_of_extendLines (h : buffer.Inspected) {out : Option (List CommandFrame)}
    (hrun : extendLines codec buffer bytes = (.ok out, buffer')) :
    (∀ line ∈ completeLines frameEnd (buffer.bytes ++ bytes), Readable codec line) ∧
      (unfinishedLine frameEnd (buffer.bytes ++ bytes)).length ≤ maxFrameLength := by
  have hdrained := @drainLines_drained codec _ _ (h.extend bytes) []
  rcases hloop : drainLines codec { buffer with bytes := buffer.bytes ++ bytes } [] with ⟨_ | frames, left⟩
  · simp only [extendLines, hloop] at hrun
    cases hrun
  · have hlines := hdrained.readable frames (by rw [hloop])
    refine ⟨hlines, ?_⟩
    simp only [extendLines, hdrained.ok hlines] at hrun
    split at hrun
    · cases hrun
    · omega

theorem inspected_extendLines (h : buffer.Inspected) (bytes : Bytes) :
    (extendLines codec buffer bytes).2.Inspected := by
  have hdrained := @drainLines_drained codec _ _ (h.extend bytes) []
  rcases hloop : drainLines codec { buffer with bytes := buffer.bytes ++ bytes } [] with ⟨error | frames, left⟩
  · have hzero := hdrained.failed error (by rw [hloop])
    rw [hloop] at hzero
    simp only [extendLines, hloop]
    exact ⟨hzero ▸ Nat.zero_le _, hzero ▸ List.not_mem_nil⟩
  · have hok := hdrained.ok (hdrained.readable frames (by rw [hloop]))
    rw [hloop] at hok
    obtain ⟨-, rfl⟩ := Prod.mk.inj hok
    have hleft : SerialBuffer.Inspected ⟨unfinishedLine frameEnd (buffer.bytes ++ bytes),
        (unfinishedLine frameEnd (buffer.bytes ++ bytes)).length⟩ :=
      ⟨Nat.le_refl _, by rw [List.take_length]; exact not_mem_unfinishedLine _ _⟩
    simp only [extendLines, hloop]
    split <;> exact hleft

theorem acknowledgeAll_cons (byte : UInt8) (bytes : Bytes) : acknowledgeAll (byte :: bytes) =
    (writeAll ioFailures [serialAck] : Io UInt8 IoError Unit) >>= fun _ => acknowledgeAll bytes := by
  rw [acknowledgeAll, List.forM_eq_forM, List.forM_cons, bind_assoc]
  rfl

theorem sameInput_acknowledgeAll (bytes : Bytes) (wire : Link) : wire.SameInput (acknowledgeAll bytes wire).2 := by
  induction bytes generalizing wire with
  | nil => exact sameInput_flush wire
  | cons byte bytes ih =>
    have hwrite := sameInput_writeAll ioFailures [serialAck] wire
    rw [acknowledgeAll_cons, Attempt.bind_run]
    rcases hrun : writeAll ioFailures [serialAck] wire with ⟨_ | _, wire1⟩ <;> rw [hrun] at hwrite
    · exact hwrite
    · exact hwrite.trans (ih wire1)

/-- Every byte is answered once. -/
theorem outgoing_acknowledgeAll (bytes : Bytes) (wire : Link) {wire' : Link}
    (h : acknowledgeAll bytes wire = (.ok (), wire')) :
    wire'.outgoing = wire.outgoing ++ List.replicate bytes.length serialAck := by
  induction bytes generalizing wire with
  | nil =>
    have hflush := outgoing_flush wire
    rw [show flush wire = (.ok (), wire') from h] at hflush
    rw [hflush, List.length_nil, List.replicate_zero, List.append_nil]
  | cons byte bytes ih =>
    rw [acknowledgeAll_cons, Attempt.bind_run] at h
    rcases hrun : writeAll ioFailures [serialAck] wire with ⟨_ | _, wire1⟩ <;> rw [hrun] at h
    · cases h
    · rw [ih wire1 h, outgoing_writeAll _ _ _ hrun, List.append_assoc, List.length_cons, List.replicate_succ,
        List.singleton_append]

theorem acknowledgeAll_accepts (bytes : Bytes) (wire : Link) (hwire : wire.Accepts ioFailures) :
    ∃ wire', acknowledgeAll bytes wire = (.ok (), wire') ∧ wire'.Accepts ioFailures := by
  induction bytes generalizing wire with
  | nil => exact flush_accepts hwire
  | cons byte bytes ih =>
    obtain ⟨wire1, hrun1, haccepts1⟩ := writeAll_accepts [serialAck] wire hwire
    obtain ⟨wire', hrun', haccepts'⟩ := ih wire1 haccepts1
    refine ⟨wire', ?_, haccepts'⟩
    rw [acknowledgeAll_cons, Attempt.bind_run, hrun1]
    exact hrun'

theorem inspected_readSerialFrames {state : SerialBuffer × Link} (h : state.1.Inspected) :
    (readSerialFrames codec state).2.1.Inspected := by
  unfold readSerialFrames
  split
  · split <;> exact h
  · split <;> exact h
  · split
    · exact h
    · exact inspected_extendLines h _

/-- A call that hands out frames: the bytes that it read, each answered, and what it did with them. -/
theorem readSerialFrames_some {frames : List CommandFrame}
    (h : readSerialFrames codec (buffer, wire) = (.ok (some frames), buffer', wire')) :
    ∃ bytes, wire.incoming = bytes ++ wire'.incoming ∧
      wire'.outgoing = wire.outgoing ++ List.replicate bytes.length serialAck ∧ wire'.size < wire.size ∧
      (bytes = [] ∧ frames = [] ∧ buffer' = buffer ∨
          extendLines codec buffer bytes = (.ok (some frames), buffer')) := by
  unfold readSerialFrames at h
  split at h
  next error wire1 hread =>
    split at h
    · cases h
      obtain ⟨hin, hout⟩ := failed_read hread
      exact ⟨[], hin.symm, by rw [hout]; simp, size_of_failed_read hread, .inl ⟨rfl, rfl, rfl⟩⟩
    · cases h
  next hread => split at h <;> cases h
  next byte rest wire1 hread =>
    split at h
    · cases h
    next wire2 hack =>
      obtain ⟨hin, hout⟩ := incoming_of_read hread
      have hsame := sameInput_acknowledgeAll (byte :: rest) wire1
      rw [hack] at hsame
      obtain ⟨hframes, hstate⟩ := Prod.mk.inj h
      obtain ⟨hbuffer, rfl⟩ := Prod.mk.inj hstate
      refine ⟨byte :: rest, ?_, ?_, ?_, .inr (Prod.ext hframes hbuffer)⟩
      · rw [hin, hsame.1]
      · rw [outgoing_acknowledgeAll _ _ hack, hout]
      · exact hsame.size.symm ▸ size_of_read hread

/-! ## Runs of calls -/

/-- The reader before its first call. -/
def serialStart (wire : Link) : SerialBuffer × Link := ({}, wire)

/-- What the calls of a run have read, answered, handed out and kept. -/
structure Received (codec : Codec CommandFrame) (wire : Link) (taken : Bytes) (results : List (List CommandFrame))
    (state : SerialBuffer × Link) : Prop where
  stream : wire.incoming = taken ++ state.2.incoming
  /-- One answer for each byte. -/
  answered : state.2.outgoing = wire.outgoing ++ List.replicate taken.length serialAck
  frames : results.flatten = decodeLines codec (completeLines frameEnd taken)
  /-- The buffer is what stands behind the last newline, all of it inspected. -/
  buffer : state.1 = ⟨unfinishedLine frameEnd taken, (unfinishedLine frameEnd taken).length⟩
  readable : ∀ line ∈ completeLines frameEnd taken, Readable codec line
  bounded : (unfinishedLine frameEnd taken).length ≤ maxFrameLength

theorem received_start (codec : Codec CommandFrame) (wire : Link) :
    Received codec wire [] [] (serialStart wire) where
  stream := rfl
  answered := (List.append_nil _).symm
  frames := rfl
  buffer := rfl
  readable _ h := absurd h List.not_mem_nil
  bounded := Nat.zero_le _

theorem Received.inspected {taken : Bytes} {results : List (List CommandFrame)} {state : SerialBuffer × Link}
    (h : Received codec wire taken results state) : state.1.Inspected := by
  rw [h.buffer]
  refine ⟨Nat.le_refl _, ?_⟩
  rw [List.take_length]
  exact not_mem_unfinishedLine _ _

/-- One more call. -/
theorem Received.call {taken : Bytes} {results : List (List CommandFrame)} {state state' : SerialBuffer × Link}
    {frames : List CommandFrame} (h : Received codec wire taken results state)
    (hcall : readSerialFrames codec state = (.ok (some frames), state')) :
    ∃ bytes, Received codec wire (taken ++ bytes) (results ++ [frames]) state' := by
  obtain ⟨bytes, hin, hout, -, hframes⟩ := readSerialFrames_some hcall
  have hstream : wire.incoming = taken ++ bytes ++ state'.2.incoming := by rw [h.stream, hin, List.append_assoc]
  have hanswered : state'.2.outgoing = wire.outgoing ++ List.replicate (taken ++ bytes).length serialAck := by
    rw [hout, h.answered, List.append_assoc, List.replicate_append_replicate, List.length_append]
  refine ⟨bytes, ?_⟩
  rcases hframes with ⟨rfl, rfl, hbuffer⟩ | hrun
  · rw [List.append_nil] at hstream hanswered ⊢
    refine ⟨hstream, hanswered, ?_, hbuffer.trans h.buffer, h.readable, h.bounded⟩
    rw [List.flatten_append, h.frames]
    exact List.append_nil _
  · -- the unfinished line and the bytes of this call hold the lines that it completes
    obtain ⟨hreadable, hbounded⟩ := readable_of_extendLines h.inspected hrun
    have hok := extendLines_ok h.inspected hreadable hbounded
    have hbytes : state.1.bytes = unfinishedLine frameEnd taken := by rw [h.buffer]
    rw [hbytes] at hok hreadable hbounded
    rw [← unfinishedLine_append] at hok hbounded
    obtain ⟨hout, hbuffer⟩ := Prod.mk.inj (hrun.symm.trans hok)
    refine ⟨hstream, hanswered, ?_, hbuffer, ?_, hbounded⟩
    · rw [completeLines_append, decodeLines_append, List.flatten_append, h.frames,
        Option.some.inj (Except.ok.inj hout)]
      simp
    · rw [completeLines_append]
      exact List.forall_mem_append.mpr ⟨h.readable, hreadable⟩

theorem received_of_took {results : List (List CommandFrame)} {state : SerialBuffer × Link}
    (h : Took (readSerialFrames codec) (serialStart wire) results state) :
    ∃ taken, Received codec wire taken results state := by
  induction h with
  | none => exact ⟨[], received_start codec wire⟩
  | next _ hcall ih =>
    obtain ⟨taken, hreceived⟩ := ih
    obtain ⟨bytes, hreceived'⟩ := hreceived.call hcall
    exact ⟨taken ++ bytes, hreceived'⟩

/-- A call at the end of the stream, or with a line that is not complete. -/
theorem readSerialFrames_none {state state' : SerialBuffer × Link}
    (h : readSerialFrames codec state = (.ok none, state')) : state.2.incoming = [] ∧ state.1.bytes = [] := by
  unfold readSerialFrames at h
  split at h
  · split at h <;> cases h
  next hread =>
    split at h
    · cases h
    next hempty => exact ⟨ended_of_read (by decide) hread, not_not.mp hempty⟩
  · split at h
    · cases h
    · obtain ⟨hout, -⟩ := Prod.mk.inj h
      exact absurd hout (by
        unfold extendLines
        split
        · rintro ⟨⟩
        · split <;> rintro ⟨⟩)

/-- A stream of reads ends. -/
theorem exists_serial_yields (codec : Codec CommandFrame) (state : SerialBuffer × Link) :
    ∃ results outcome, Yields (readSerialFrames codec) state results outcome := by
  refine exists_yields (fun state => state.2.size) (fun state frames state' h => ?_) state
  obtain ⟨-, -, -, hsize, -⟩ := readSerialFrames_some h
  exact hsize

/-! ## Streams that are read whole -/

/-- A descriptor whose reads are interrupted, find nothing yet or take what they can, and that accepts the
answers. -/
structure Polled (wire : Link) : Prop where
  idle : ∀ e, .error e ∈ wire.reads → e.kind = .interrupted ∨ e.kind = .wouldBlock
  accepts : wire.Accepts ioFailures

/-- The stream `chunks`, cut into these reads. -/
def cutInto (chunks : List Bytes) : Link where
  incoming := chunks.flatten
  reads := chunks.map fun bytes => .ok (bytes.length - 1)

/-- Every way of cutting a stream into reads is the tape of a descriptor. -/
theorem read_cutInto {chunk : Bytes} (hchunk : chunk ≠ [] ∧ chunk.length ≤ serialChunk) (chunks : List Bytes) :
    (read serialChunk (cutInto (chunk :: chunks)) : IoResult Bytes × Link) = (.ok chunk, cutInto chunks) := by
  have hpos := List.length_pos_iff.mpr hchunk.1
  have hlen : min serialChunk (chunk.length - 1 + 1) = chunk.length := by
    have hle := hchunk.2
    omega
  simp only [Transport.read, cutInto, List.map_cons, hlen, List.flatten_cons, List.take_left, List.drop_left]

theorem polled_cutInto (chunks : List Bytes) : Polled (cutInto chunks) where
  idle e he := by
    obtain ⟨bytes, -, hbytes⟩ := List.mem_map.mp he
    cases hbytes
  accepts := ⟨fun _ h => absurd h List.not_mem_nil, List.not_mem_nil, fun _ => List.not_mem_nil⟩

/-- Every complete line is empty or a command frame within the limit, and so long is what follows them. -/
structure Admissible (codec : Codec CommandFrame) (stream : Bytes) : Prop where
  readable : ∀ line ∈ completeLines frameEnd stream, Readable codec line
  bounded : (unfinishedLine frameEnd stream).length ≤ maxFrameLength

theorem Admissible.front {front rest : Bytes} (h : Admissible codec (front ++ rest)) : Admissible codec front where
  readable line hline := h.readable line (by
    rw [completeLines_append]
    exact List.mem_append_left _ hline)
  bounded := by
    obtain ⟨line, hline, hle⟩ := unfinishedLine_le frameEnd front rest
    rcases List.mem_append.mp hline with hcomplete | hlast
    · rcases h.readable line hcomplete with rfl | ⟨hlen, -⟩
      · exact hle.trans (Nat.zero_le _)
      · exact hle.trans hlen
    · rw [List.mem_singleton.mp hlast] at hle
      exact hle.trans h.bounded

/-- What `None` and the error at the end of the stream depend on. -/
def serialEnd (stream : Bytes) : IoResult Unit :=
  if unfinishedLine frameEnd stream = [] then .ok () else .error closedInsideFrame

/-- A call on a stream of frames hands out more of them, or finds the end. -/
theorem readSerialFrames_polled {taken : Bytes} {results : List (List CommandFrame)} {state : SerialBuffer × Link}
    (h : Received codec wire taken results state) (hpolled : Polled state.2)
    (hstream : Admissible codec wire.incoming) :
    (∃ frames state', readSerialFrames codec state = (.ok (some frames), state') ∧ Polled state'.2) ∨
      state.2.incoming = [] ∧ ∃ state', readSerialFrames codec state =
        (if state.1.bytes ≠ [] then .error closedInsideFrame else .ok none, state') := by
  rcases hread : (read serialChunk state.2 : IoResult Bytes × Link) with ⟨e | _ | ⟨byte, rest⟩, wire1⟩
  · have hidle := hpolled.idle e (mem_reads_of_failed_read hread)
    refine .inl ⟨[], (state.1, wire1), ?_, fun e he => hpolled.idle e ((tapes_of_read hread).1 _ he),
      hpolled.accepts.of_read hread⟩
    simp only [readSerialFrames, hread, if_pos hidle]
  · refine .inr ⟨ended_of_read (by decide) hread, (state.1, wire1), ?_⟩
    simp only [readSerialFrames, hread]
    split <;> rfl
  · obtain ⟨hin, -⟩ := incoming_of_read hread
    obtain ⟨wire2, hack, haccepts⟩ := acknowledgeAll_accepts (byte :: rest) wire1 (hpolled.accepts.of_read hread)
    have hsame := sameInput_acknowledgeAll (byte :: rest) wire1
    rw [hack] at hsame
    have hfront : Admissible codec (taken ++ byte :: rest) := by
      rw [h.stream, hin, ← List.append_assoc] at hstream
      exact hstream.front
    have hbytes : state.1.bytes = unfinishedLine frameEnd taken := by rw [h.buffer]
    have hrun := @extendLines_ok codec state.1 (byte :: rest) h.inspected
      (fun line hline => hfront.readable line (by
        rw [completeLines_append, ← hbytes]
        exact List.mem_append_right _ hline))
      (by
        rw [hbytes, ← unfinishedLine_append]
        exact hfront.bounded)
    refine .inl ⟨decodeLines codec (completeLines frameEnd (state.1.bytes ++ byte :: rest)),
      ((extendLines codec state.1 (byte :: rest)).2, wire2), ?_,
      fun e he => hpolled.idle e ((tapes_of_read hread).1 _ (hsame.2 ▸ he)), haccepts⟩
    simp only [readSerialFrames, hread, hack, hrun]

/-- The calls that follow hand out what has not been handed out yet. -/
theorem yields_received {taken : Bytes} {results : List (List CommandFrame)} (state : SerialBuffer × Link)
    (h : Received codec wire taken results state) (hpolled : Polled state.2)
    (hstream : Admissible codec wire.incoming) : ∃ more,
    Yields (readSerialFrames codec) state more (serialEnd wire.incoming) ∧
      (results ++ more).flatten = decodeLines codec (completeLines frameEnd wire.incoming) := by
  rcases readSerialFrames_polled h hpolled hstream with ⟨frames, state', hcall, hpolled'⟩ | ⟨hnil, state', hcall⟩
  · obtain ⟨-, -, -, hless, -⟩ := readSerialFrames_some hcall
    obtain ⟨bytes, hreceived⟩ := h.call hcall
    obtain ⟨more, hyields, hmore⟩ := yields_received state' hreceived hpolled' hstream
    refine ⟨frames :: more, .item hcall hyields, ?_⟩
    rwa [List.append_assoc, List.singleton_append] at hmore
  · have htaken : wire.incoming = taken := by rw [h.stream, hnil, List.append_nil]
    have hbytes : state.1.bytes = unfinishedLine frameEnd taken := by rw [h.buffer]
    refine ⟨[], ?_, by rw [htaken, List.append_nil, h.frames]⟩
    rw [serialEnd, htaken]
    rw [hbytes] at hcall
    by_cases hempty : unfinishedLine frameEnd taken = []
    · rw [if_neg (not_not.mpr hempty)] at hcall
      rw [if_pos hempty]
      exact .ended hcall
    · rw [if_pos hempty] at hcall
      rw [if_neg hempty]
      exact .failed hcall
termination_by state.2.size

/-! ## One byte at a time -/

/-- The reader of one byte at a time over a stream of frames. -/
theorem lineReader_yields (acknowledged : Bool) (stream : Bytes) (hstream : Admissible codec stream)
    (hempty : [] ∉ completeLines frameEnd stream) (wire : Link) (hwire : wire.Steady ioFailures)
    (hin : wire.incoming = stream) :
    ∃ outcome, Yields (lineReader acknowledged codec) wire
      (decodeLines codec (completeLines frameEnd stream)) outcome ∧
      (outcome = .ok () ↔ unfinishedLine frameEnd stream = []) := by
  induction stream using line_induction frameEnd generalizing wire with
  | unbroken stream hunbroken =>
    have hbounded := hstream.bounded
    rw [completeLines_unbroken hunbroken]
    rw [unfinishedLine_unbroken hunbroken] at hbounded ⊢
    by_cases hnil : stream = []
    · obtain ⟨wire', hrun⟩ := @lineReader_nil _ codec acknowledged _ hwire (hin.trans hnil)
      exact ⟨.ok (), .ended hrun, fun _ => hnil, fun _ => rfl⟩
    · obtain ⟨wire', hrun⟩ :=
        @readLine_truncated _ acknowledged [] _ hunbroken (by rw [List.length_nil]; omega) hnil hwire hin
      refine ⟨_, .failed (lineReader_error acknowledged hrun), ?_, fun h => absurd h hnil⟩
      rintro ⟨⟩
  | line line rest hline ih =>
    rw [completeLines_line hline] at hempty ⊢
    rw [unfinishedLine_line hline]
    have hrest : Admissible codec rest := by
      refine ⟨fun l hl => hstream.readable l ?_, ?_⟩
      · rw [completeLines_line hline]
        exact List.mem_cons_of_mem _ hl
      · have hbounded := hstream.bounded
        rwa [unfinishedLine_line hline] at hbounded
    obtain ⟨hnonempty, hmore⟩ := not_or.mp (List.mem_cons.not.mp hempty)
    rcases hstream.readable line (by rw [completeLines_line hline]; exact List.mem_cons_self) with hnil |
      ⟨hlen, frame, hframe⟩
    · exact absurd hnil.symm hnonempty
    obtain ⟨wire', hrun, hsteady, hwire'⟩ :=
      @readLine_line _ acknowledged [] _ _ hline (by rw [List.length_nil]; omega) hwire hin
    obtain ⟨outcome, hyields, hend⟩ := ih hrest hmore wire' hsteady hwire'
    refine ⟨outcome, ?_, hend⟩
    rw [decodeLines_frame (Ne.symm hnonempty) hframe]
    refine .item ?_ hyields
    rw [lineReader, Attempt.bind_run, hrun]
    exact frameValue_ok hframe

/-! ## Exactness -/

/-- The calls of `read_serial_frames` on a descriptor, up to the end of the stream or the first error. -/
structure SerialFraming (codec : Codec CommandFrame) (wire : Link) : Prop where
  /-- After every call: one answer for each byte read, the frames of the complete lines, and the rest in the
  buffer. -/
  received : ∀ results state, Took (readSerialFrames codec) (serialStart wire) results state →
    ∃ taken, Received codec wire taken results state
  /-- What has been inspected has no newline, also behind a call that fails. -/
  inspected : ∀ results state, Took (readSerialFrames codec) (serialStart wire) results state →
    state.1.Inspected ∧ (readSerialFrames codec state).2.1.Inspected
  /-- Whatever each call reads, together they hand out the frames of the stream. -/
  whole : Polled wire → Admissible codec wire.incoming → ∃ results,
    Yields (readSerialFrames codec) (serialStart wire) results (serialEnd wire.incoming) ∧
      results.flatten = decodeLines codec (completeLines frameEnd wire.incoming)
  /-- A read that finds the end of the stream is `None` unless the stream ended within a line. -/
  ended : ∀ results state wire', Took (readSerialFrames codec) (serialStart wire) results state →
    read serialChunk state.2 = (.ok [], wire') →
    ((readSerialFrames codec state).1 = .ok none ↔ unfinishedLine frameEnd wire.incoming = [])
  /-- A line over the limit, complete or not, is an error however it is read. -/
  tooLong : (∃ line ∈ wire.incoming.splitOn frameEnd, maxFrameLength < line.length) →
    ∃ results error, Yields (readSerialFrames codec) (serialStart wire) results (.error error)
  /-- The reader of one byte at a time hands out the same frames, where no line is empty. -/
  byBytes : Polled wire → Admissible codec wire.incoming → [] ∉ completeLines frameEnd wire.incoming →
    ∀ wire' : Link, wire'.Steady ioFailures → wire'.incoming = wire.incoming → ∃ results outcome outcome',
      Yields (readSerialFrames codec) (serialStart wire) results outcome ∧
        Yields (readAcknowledgedLineFrame codec) wire' results.flatten outcome' ∧
          (outcome = .ok () ↔ outcome' = .ok ())

theorem serial_whole (hpolled : Polled wire) (hstream : Admissible codec wire.incoming) : ∃ results,
    Yields (readSerialFrames codec) (serialStart wire) results (serialEnd wire.incoming) ∧
      results.flatten = decodeLines codec (completeLines frameEnd wire.incoming) :=
  yields_received (serialStart wire) (received_start codec wire) hpolled hstream

theorem serial_ended {results : List (List CommandFrame)} {state : SerialBuffer × Link}
    (h : Took (readSerialFrames codec) (serialStart wire) results state)
    (hread : read serialChunk state.2 = (.ok [], wire')) :
    (readSerialFrames codec state).1 = .ok none ↔ unfinishedLine frameEnd wire.incoming = [] := by
  obtain ⟨taken, hreceived⟩ := received_of_took h
  have htaken : wire.incoming = taken := by rw [hreceived.stream, ended_of_read (by decide) hread, List.append_nil]
  have hbytes : state.1.bytes = unfinishedLine frameEnd taken := by rw [hreceived.buffer]
  simp only [readSerialFrames, hread, hbytes, htaken]
  split
  next hsome => exact iff_of_false (by rintro ⟨⟩) hsome
  next hnone => exact ⟨fun _ => not_not.mp hnone, fun _ => rfl⟩

/-- A stream that is read to its end has no line over the limit. -/
theorem serial_tooLong (h : ∃ line ∈ wire.incoming.splitOn frameEnd, maxFrameLength < line.length) :
    ∃ results error, Yields (readSerialFrames codec) (serialStart wire) results (.error error) := by
  obtain ⟨results, outcome, hyields⟩ := exists_serial_yields codec (serialStart wire)
  cases outcome with
  | error error => exact ⟨results, error, hyields⟩
  | ok u =>
    obtain ⟨line, hline, hlong⟩ := h
    obtain ⟨state, state', htook, hended, -⟩ := hyields.took
    obtain ⟨taken, hreceived⟩ := received_of_took htook
    obtain ⟨hnil, -⟩ := readSerialFrames_none (hended rfl)
    rw [hreceived.stream, hnil, List.append_nil, splitOn_eq_lines] at hline
    rcases List.mem_append.mp hline with hcomplete | hlast
    · rcases hreceived.readable line hcomplete with rfl | ⟨hlen, -⟩
      · exact absurd hlong (Nat.not_lt_zero _)
      · omega
    · have hbounded := hreceived.bounded
      rw [← List.mem_singleton.mp hlast] at hbounded
      omega

/-- **Guest control framing does not depend on how the stream is read.** -/
theorem readSerialFrames_exact (codec : Codec CommandFrame) (wire : Link) : SerialFraming codec wire where
  received _ _ h := received_of_took h
  inspected results state h := by
    obtain ⟨taken, hreceived⟩ := received_of_took h
    exact ⟨hreceived.inspected, inspected_readSerialFrames hreceived.inspected⟩
  whole := serial_whole
  ended _ _ _ := serial_ended
  tooLong := serial_tooLong
  byBytes hpolled hstream hempty wire' hsteady hin := by
    obtain ⟨results, hyields, hframes⟩ := serial_whole hpolled hstream
    obtain ⟨outcome', hyields', hend⟩ := lineReader_yields true wire.incoming hstream hempty wire' hsteady hin
    refine ⟨results, _, outcome', hyields, hframes ▸ hyields', ?_⟩
    rw [hend, serialEnd]
    split
    next hnil => exact ⟨fun _ => hnil, fun _ => rfl⟩
    next hsome => exact iff_of_false (by rintro ⟨⟩) hsome

/-- Two command frames; the first read ends within the first line, the second within the second. -/
def sampleReads : List Bytes :=
  [sampleCommandJson.take 20, sampleCommandJson.drop 20 ++ [frameEnd] ++ sampleCommandJson.take 5,
    sampleCommandJson.drop 5 ++ [frameEnd]]

theorem readSerialFrames_exact_sample :
    read serialChunk (cutInto sampleReads) = ((.ok (sampleCommandJson.take 20) : IoResult Bytes),
      cutInto sampleReads.tail) ∧ ∃ results,
      Yields (readSerialFrames (sampleCodec sampleCommand sampleCommandJson)) (serialStart (cutInto sampleReads))
        results (.ok ()) ∧
      results.flatten = [sampleCommand, sampleCommand] ∧
      Yields (readAcknowledgedLineFrame (sampleCodec sampleCommand sampleCommandJson))
        { incoming := sampleReads.flatten } [sampleCommand, sampleCommand] (.ok ()) := by
  have hexact := readSerialFrames_exact (sampleCodec sampleCommand sampleCommandJson) (cutInto sampleReads)
  have hlines : completeLines frameEnd (cutInto sampleReads).incoming =
      [sampleCommandJson, sampleCommandJson] := by
    decide +kernel
  have hrest : unfinishedLine frameEnd (cutInto sampleReads).incoming = [] := by decide +kernel
  have hstream : Admissible (sampleCodec sampleCommand sampleCommandJson) (cutInto sampleReads).incoming := by
    refine ⟨fun line hline => .inr ?_, by rw [hrest]; exact Nat.zero_le _⟩
    obtain rfl : line = sampleCommandJson := by simpa [hlines] using hline
    exact ⟨by decide +kernel, sampleCommand, by simp [sampleCodec]⟩
  obtain ⟨results, hyields, hframes⟩ := hexact.whole (polled_cutInto _) hstream
  rw [serialEnd, if_pos hrest] at hyields
  have hflat : results.flatten = [sampleCommand, sampleCommand] := by
    rw [hframes, hlines]
    decide +kernel
  obtain ⟨_, _, outcome, hsame, hbytes, hended⟩ := hexact.byBytes (polled_cutInto _) hstream
    (by rw [hlines]; decide +kernel) { incoming := sampleReads.flatten } (by constructor <;> simp) rfl
  obtain ⟨rfl, rfl⟩ := hyields.unique hsame
  obtain rfl := hended.mp rfl
  exact ⟨read_cutInto (by decide +kernel) _, results, hyields, hflat, hflat ▸ hbytes⟩

end

end SimFerret
