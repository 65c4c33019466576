import SimFerret.Lib.Transport
import SimFerret.Protocol
import SimFerret.Workload.Crates

/-!
# SimFerret.Frames — the two framings of the control channel (`protocol.rs`)

A frame is the JSON body of a value, behind its length or in front of a newline.  `serde_json` is a `Codec`.

* `writeFrame`, `readFrame`: a big-endian `u32` length and the body.
* `writeLineFrame`, `readLineFrame`, `readAcknowledgedLineFrame`: the body and a newline; the last reader
  answers every byte with `SERIAL_ACK`.
* `ExactFraming`: what one writer and one reader do to a sequence of values.
* `frames_exact`: **every writer and reader of the protocol is exact**, and a body over the limit passes none of
  them.
-/

namespace SimFerret

open Transport Workload

def serialAck : UInt8 := 0

/-- `b'\n'`. -/
def frameEnd : UInt8 := 10

abbrev Link := Wire UInt8 IoError

/-- The errors of `std::io` that the loops of the standard library look for and make. -/
def ioFailures : Failures IoError where
  interrupted error := error.kind == .interrupted
  unexpectedEof := ⟨.unexpectedEof, "failed to fill whole buffer"⟩
  writeZero := ⟨.writeZero, "failed to write whole buffer"⟩

/-- `u32::to_be_bytes`. -/
def beBytes (n : Nat) : Bytes :=
  [UInt8.ofNat (n / 2 ^ 24), UInt8.ofNat (n / 2 ^ 16), UInt8.ofNat (n / 2 ^ 8), UInt8.ofNat n]

/-- `u32::from_be_bytes`. -/
def fromBeBytes (bytes : Bytes) : Nat := bytes.foldl (fun value byte => value * 256 + byte.toNat) 0

theorem fromBeBytes_beBytes {n : Nat} (h : n < 2 ^ 32) : fromBeBytes (beBytes n) = n := by
  simp only [fromBeBytes, beBytes, List.foldl_cons, List.foldl_nil, UInt8.toNat_ofNat']
  omega

/-! ## Writers and readers -/

section

variable {T : Type}

def frameTooLong (kind : ErrorKind) : IoError := ⟨kind, "frame exceeds maximum length"⟩

/-- `serde_json::to_vec` and the limit, as both writers begin. -/
def frameBody (codec : Codec T) (value : T) : Io UInt8 IoError Bytes := do
  match codec.toVec value with
  | .error message => throw ⟨.other, message⟩
  | .ok body =>
    if body.length > maxFrameLength then throw (frameTooLong .invalidInput) else pure body

/-- The value of a body, as every reader ends. -/
def frameValue (codec : Codec T) (body : Bytes) : Io UInt8 IoError (Option T) :=
  match codec.fromSlice body with
  | .ok value => pure (some value)
  | .error error => throw (jsonError "malformed frame" error)

def writeFrame (codec : Codec T) (value : T) : Io UInt8 IoError Unit := do
  let body ← frameBody codec value
  (writeAll ioFailures (beBytes body.length) : Io UInt8 IoError Unit)
  (writeAll ioFailures body : Io UInt8 IoError Unit)
  flush

def writeLineFrame (codec : Codec T) (value : T) : Io UInt8 IoError Unit := do
  let body ← frameBody codec value
  (writeAll ioFailures body : Io UInt8 IoError Unit)
  (writeAll ioFailures [frameEnd] : Io UInt8 IoError Unit)
  flush

/-- The first byte of a length, or the end of the stream. -/
def readFirst (wire : Link) : IoResult (Option UInt8) × Link :=
  match _h : (read 1 wire : IoResult Bytes × Link) with
  | (.ok [], wire') => (.ok none, wire')
  | (.ok (byte :: _), wire') => (.ok (some byte), wire')
  | (.error e, wire') => if ioFailures.interrupted e then readFirst wire' else (.error e, wire')
termination_by wire.size
decreasing_by exact size_of_failed_read _h

def readFrame (codec : Codec T) : Io UInt8 IoError (Option T) := do
  match ← (readFirst : Io UInt8 IoError (Option UInt8)) with
  | none => pure none
  | some first =>
    let rest ← (readExact ioFailures 3 : Io UInt8 IoError Bytes)
    let length := fromBeBytes (first :: rest)
    if length > maxFrameLength then throw (frameTooLong .invalidData)
    else
      let body ← (readExact ioFailures length : Io UInt8 IoError Bytes)
      frameValue codec body

/-- The answer to one byte. -/
def acknowledge : Io UInt8 IoError Unit := do
  (writeAll ioFailures [serialAck] : Io UInt8 IoError Unit)
  flush

theorem size_acknowledge (wire : Link) : (acknowledge wire).2.size = wire.size := by
  have hwrite := size_writeAll ioFailures [serialAck] wire
  rw [acknowledge, Attempt.bind_run]
  rcases hrun : writeAll ioFailures [serialAck] wire with ⟨_ | _, wire'⟩ <;> rw [hrun] at hwrite
  · exact hwrite
  · exact (size_flush wire').trans hwrite

theorem size_of_acknowledged {acknowledged : Bool} {wire wire' : Link} {r : IoResult Unit}
    (h : (if acknowledged then acknowledge wire else (.ok (), wire) : IoResult Unit × Link) = (r, wire')) :
    wire'.size = wire.size := by
  cases acknowledged with
  | true =>
    have hsize := size_acknowledge wire
    rw [if_pos rfl] at h
    rwa [h] at hsize
  | false =>
    cases h
    rfl

/-- The loop of the line readers: the bytes in front of the newline, or the end of the stream. -/
def readLine (acknowledged : Bool) (body : Bytes) (wire : Link) : IoResult (Option Bytes) × Link :=
  match _h : (read 1 wire : IoResult Bytes × Link) with
  | (.ok [], wire') =>
    if body = [] then (.ok none, wire') else (.error ⟨.unexpectedEof, "truncated line-delimited frame"⟩, wire')
  | (.ok (byte :: _), wire') =>
    match _hack : (if acknowledged then acknowledge wire' else (.ok (), wire') : IoResult Unit × Link) with
    | (.error e, wire'') => (.error e, wire'')
    | (.ok (), wire'') =>
      if byte = frameEnd then (.ok (some body), wire'')
      else if body.length ≥ maxFrameLength then (.error (frameTooLong .invalidData), wire'')
      else readLine acknowledged (body ++ [byte]) wire''
  | (.error e, wire') => if ioFailures.interrupted e then readLine acknowledged body wire' else (.error e, wire')
termination_by wire.size
decreasing_by
  · exact (size_of_acknowledged _hack).symm ▸ size_of_read _h
  · exact size_of_failed_read _h

/-- A line reader. -/
def lineReader (acknowledged : Bool) (codec : Codec T) : Io UInt8 IoError (Option T) := do
  match ← (readLine acknowledged [] : Io UInt8 IoError (Option Bytes)) with
  | none => pure none
  | some body => frameValue codec body

def readLineFrame (codec : Codec T) : Io UInt8 IoError (Option T) := lineReader false codec

def readAcknowledgedLineFrame (codec : Codec T) : Io UInt8 IoError (Option T) := lineReader true codec

end

/-! ## What deserialization checks -/

/-- `deserialize_exit_code`. -/
def deserializeExitCode (code : Int) : Except Text Int :=
  if 0 ≤ code ∧ code ≤ 255 then .ok code else .error "a process exit code must be between 0 and 255"

/-- `deserialize_signal`. -/
def deserializeSignal (signal : Int) : Except Text Int :=
  if 1 ≤ signal ∧ signal ≤ 64 then .ok signal else .error "a process termination signal must be between 1 and 64"

def ProcessExit.deserialize : ProcessExit → Except Text ProcessExit
  | .exited code => (deserializeExitCode code).map .exited
  | .signaled signal => (deserializeSignal signal).map .signaled

/-- The wait statuses that Linux reports. -/
def ProcessExit.Real : ProcessExit → Prop
  | .exited code => 0 ≤ code ∧ code ≤ 255
  | .signaled signal => 1 ≤ signal ∧ signal ≤ 64

theorem ProcessExit.deserialize_of_real {exit : ProcessExit} (h : exit.Real) : exit.deserialize = .ok exit := by
  cases exit with
  | exited code =>
    have hcode : 0 ≤ code ∧ code ≤ 255 := h
    rw [deserialize, deserializeExitCode, if_pos hcode, Except.map]
  | signaled signal =>
    have hsignal : 1 ≤ signal ∧ signal ≤ 64 := h
    rw [deserialize, deserializeSignal, if_pos hsignal, Except.map]

/-- The checks that deserializing an event makes. -/
def Event.deserialize : Event → Except Text Event
  | .workloadExited invocation exit stdoutBytes stdoutSha256 stderrBytes stderrSha256 frames =>
    exit.deserialize.map fun exit =>
      .workloadExited invocation exit stdoutBytes stdoutSha256 stderrBytes stderrSha256 frames
  | event => .ok event

/-- The exit record of an event is one that Linux reports. -/
def Event.Real : Event → Prop
  | .workloadExited _ exit _ _ _ _ _ => exit.Real
  | _ => True

theorem Event.deserialize_of_real {event : Event} (h : event.Real) : event.deserialize = .ok event := by
  cases event with
  | workloadExited invocation exit stdoutBytes stdoutSha256 stderrBytes stderrSha256 frames =>
    have hexit : exit.Real := h
    rw [deserialize, ProcessExit.deserialize_of_real hexit, Except.map]
  | _ => rfl

theorem ProcessExit.real_of_deserialize {raw exit : ProcessExit} (h : raw.deserialize = .ok exit) : exit.Real := by
  cases raw with
  | exited code =>
    rw [deserialize, deserializeExitCode] at h
    split at h
    next hcode =>
      obtain rfl := Except.ok.inj h
      exact hcode
    next => cases h
  | signaled signal =>
    rw [deserialize, deserializeSignal] at h
    split at h
    next hsignal =>
      obtain rfl := Except.ok.inj h
      exact hsignal
    next => cases h

/-- What was read has an exit record that Linux reports. -/
theorem Event.real_of_deserialize {raw event : Event} (h : raw.deserialize = .ok event) : event.Real := by
  cases raw with
  | workloadExited invocation exit stdoutBytes stdoutSha256 stderrBytes stderrSha256 frames =>
    rw [deserialize] at h
    cases hexit : exit.deserialize with
    | error message =>
      rw [hexit] at h
      cases h
    | ok read =>
      rw [hexit] at h
      obtain rfl := Except.ok.inj h
      exact ProcessExit.real_of_deserialize hexit
  | _ =>
    obtain rfl := Except.ok.inj h
    trivial

/-- A derived codec with a check in its reader; `custom` is where `serde_json` reports an error that such a
check raised. -/
def checkedCodec {T : Type} (derived : Codec T) (custom : Bytes → Text → JsonError)
    (check : T → Except Text T) : Codec T where
  toVec := derived.toVec
  fromSlice body :=
    match derived.fromSlice body with
    | .error error => .error error
    | .ok value =>
      match check value with
      | .error message => .error (custom body message)
      | .ok value => .ok value

theorem checkedCodec_ok {T : Type} {derived : Codec T} (custom : Bytes → Text → JsonError)
    {check : T → Except Text T} {body : Bytes} {value : T} (hslice : derived.fromSlice body = .ok value)
    (hcheck : check value = .ok value) : (checkedCodec derived custom check).fromSlice body = .ok value := by
  simp only [checkedCodec, hslice, hcheck]

/-- The codec of event frames, with the checks of the exit record. -/
def eventCodec (derived : Codec EventFrame) (custom : Bytes → Text → JsonError) : Codec EventFrame :=
  checkedCodec derived custom fun frame => frame.event.deserialize.map fun event => { frame with event }

/-- The codec of recorded events, with the same checks. -/
def normalizedCodec (derived : Codec NormalizedEvent) (custom : Bytes → Text → JsonError) :
    Codec NormalizedEvent :=
  checkedCodec derived custom fun normalized => normalized.event.deserialize.map fun event =>
    { normalized with event }

/-! ## Bodies -/

section

variable {T : Type}

/-- `serde_json` writes the value on one line and reads it back. -/
def Carries (codec : Codec T) (value : T) : Prop :=
  ∃ body, codec.toVec value = .ok body ∧ codec.fromSlice body = .ok value ∧ frameEnd ∉ body

/-- The body of a value. -/
def bodyOf (codec : Codec T) (value : T) : Bytes := (codec.toVec value).toOption.getD []

/-- A body as `write_frame` sends it. -/
def framed (body : Bytes) : Bytes := beBytes body.length ++ body

/-- A body as `write_line_frame` sends it. -/
def lined (body : Bytes) : Bytes := body ++ [frameEnd]

theorem Carries.toVec {codec : Codec T} {value : T} (h : Carries codec value) :
    codec.toVec value = .ok (bodyOf codec value) := by
  obtain ⟨body, hbody, -⟩ := h
  rw [bodyOf, hbody]
  rfl

theorem Carries.fromSlice {codec : Codec T} {value : T} (h : Carries codec value) :
    codec.fromSlice (bodyOf codec value) = .ok value := by
  obtain ⟨body, hbody, hslice, -⟩ := h
  rw [bodyOf, hbody]
  exact hslice

theorem Carries.line {codec : Codec T} {value : T} (h : Carries codec value) : frameEnd ∉ bodyOf codec value := by
  obtain ⟨body, hbody, -, hline⟩ := h
  rw [bodyOf, hbody]
  exact hline

theorem carries_eventCodec {derived : Codec EventFrame} (custom : Bytes → Text → JsonError) {frame : EventFrame}
    (h : Carries derived frame) (hevent : frame.event.Real) : Carries (eventCodec derived custom) frame := by
  obtain ⟨body, hbody, hslice, hline⟩ := h
  refine ⟨body, hbody, checkedCodec_ok custom hslice ?_, hline⟩
  rw [Event.deserialize_of_real hevent]
  rfl

/-! ## Writers -/

variable {codec : Codec T} {value : T} {wire : Link}

theorem frameBody_ok {body : Bytes} (hbody : codec.toVec value = .ok body) (hlen : body.length ≤ maxFrameLength) :
    frameBody codec value wire = (.ok body, wire) := by
  rw [frameBody, hbody]
  show (if body.length > maxFrameLength then _ else _ : Io UInt8 IoError Bytes) wire = _
  rw [if_neg (by omega)]
  rfl

theorem frameBody_refused {body : Bytes} (hbody : codec.toVec value = .ok body)
    (hlen : maxFrameLength < body.length) : frameBody codec value wire =
    (.error (frameTooLong .invalidInput), wire) := by
  rw [frameBody, hbody]
  show (if body.length > maxFrameLength then _ else _ : Io UInt8 IoError Bytes) wire = _
  rw [if_pos (by omega)]
  rfl

/-- Two buffers and a flush. -/
theorem writeTwo_steady (first second : Bytes) (hwire : wire.Steady ioFailures) :
    ∃ wire', (do
      (writeAll ioFailures first : Io UInt8 IoError Unit)
      (writeAll ioFailures second : Io UInt8 IoError Unit)
      flush : Io UInt8 IoError Unit) wire = (.ok (), wire') ∧ wire'.outgoing = wire.outgoing ++ (first ++ second) ∧
        wire'.Steady ioFailures := by
  obtain ⟨wire1, hrun1, hout1, hsteady1, -⟩ := writeAll_steady ioFailures first wire hwire
  obtain ⟨wire2, hrun2, hout2, hsteady2, -⟩ := writeAll_steady ioFailures second wire1 hsteady1
  obtain ⟨wire3, hrun3, hsteady3, -, hout3⟩ := flush_steady hsteady2
  refine ⟨wire3, ?_, by rw [hout3, hout2, hout1, List.append_assoc], hsteady3⟩
  rw [Attempt.bind_run, hrun1]
  show ((writeAll ioFailures second : Io UInt8 IoError Unit) >>= fun _ => flush) wire1 = _
  rw [Attempt.bind_run, hrun2]
  exact hrun3

theorem writeLineFrame_steady {body : Bytes} (hbody : codec.toVec value = .ok body)
    (hlen : body.length ≤ maxFrameLength) (hwire : wire.Steady ioFailures) : ∃ wire',
    writeLineFrame codec value wire = (.ok (), wire') ∧
      wire'.outgoing = wire.outgoing ++ lined body ∧ wire'.Steady ioFailures := by
  rw [writeLineFrame, Attempt.bind_run, frameBody_ok hbody hlen]
  exact writeTwo_steady body [frameEnd] hwire

theorem writeFrame_steady {body : Bytes} (hbody : codec.toVec value = .ok body)
    (hlen : body.length ≤ maxFrameLength) (hwire : wire.Steady ioFailures) : ∃ wire',
    writeFrame codec value wire = (.ok (), wire') ∧
      wire'.outgoing = wire.outgoing ++ framed body ∧ wire'.Steady ioFailures := by
  rw [writeFrame, Attempt.bind_run, frameBody_ok hbody hlen]
  exact writeTwo_steady (beBytes body.length) body hwire

end

/-! ## The line loop over a steady transport -/

section

variable {wire wire' : Link} {acknowledged : Bool} {body : Bytes}

theorem acknowledged_steady (acknowledged : Bool) (hwire : wire.Steady ioFailures) :
    ∃ wire', (if acknowledged then acknowledge wire else (.ok (), wire) : IoResult Unit × Link) = (.ok (), wire') ∧
      wire'.Steady ioFailures ∧ wire'.incoming = wire.incoming := by
  cases acknowledged with
  | false => exact ⟨wire, rfl, hwire, rfl⟩
  | true =>
    obtain ⟨wire1, hrun1, -, hsteady1, hin1⟩ := writeAll_steady ioFailures [serialAck] wire hwire
    obtain ⟨wire2, hrun2, hsteady2, hin2, -⟩ := flush_steady hsteady1
    refine ⟨wire2, ?_, hsteady2, hin2.trans hin1⟩
    rw [if_pos rfl, acknowledge, Attempt.bind_run, hrun1]
    exact hrun2

theorem readLine_interrupted {e : IoError} (h : read 1 wire = (.error e, wire'))
    (he : ioFailures.interrupted e = true) : readLine acknowledged body wire =
    readLine acknowledged body wire' := by
  rw [readLine]
  split <;> rename_i heq <;> rw [h] at heq <;> cases heq
  rw [if_pos he]

theorem readLine_ended (h : read 1 wire = (.ok [], wire')) :
    readLine acknowledged body wire = if body = [] then (.ok none, wire')
      else (.error ⟨.unexpectedEof, "truncated line-delimited frame"⟩, wire') := by
  rw [readLine]
  split <;> rename_i heq <;> rw [h] at heq <;> cases heq
  rfl

theorem readLine_byte {wire'' : Link} {byte : UInt8} {rest : Bytes} (h : read 1 wire = (.ok (byte :: rest), wire'))
    (hack : (if acknowledged then acknowledge wire' else (.ok (), wire') : IoResult Unit × Link) =
      (.ok (), wire'')) : readLine acknowledged body wire = if byte = frameEnd then (.ok (some body), wire'')
      else if body.length ≥ maxFrameLength then (.error (frameTooLong .invalidData), wire'')
      else readLine acknowledged (body ++ [byte]) wire'' := by
  rw [readLine]
  split <;> rename_i heq <;> rw [h] at heq <;> cases heq
  split <;> rename_i heq <;> rw [hack] at heq <;> cases heq
  rfl

/-- The loop at the end of the stream. -/
theorem readLine_nil (acknowledged : Bool) (body : Bytes) (wire : Link) (hwire : wire.Steady ioFailures)
    (hnil : wire.incoming = []) : ∃ wire', wire'.Steady ioFailures ∧
      readLine acknowledged body wire = if body = [] then (.ok none, wire')
        else (.error ⟨.unexpectedEof, "truncated line-delimited frame"⟩, wire') := by
  rcases read_steady hwire Nat.one_pos with ⟨e, wire1, hread, he, hsteady, hin, -⟩ |
    ⟨chunk, wire1, hread, hchunk, -, -, hsteady, -⟩
  · have hless := size_of_failed_read hread
    obtain ⟨wire', hsteady', hrun⟩ := readLine_nil acknowledged body wire1 hsteady (hin.trans hnil)
    exact ⟨wire', hsteady', (readLine_interrupted hread he).trans hrun⟩
  · rw [hnil] at hchunk
    obtain ⟨rfl, -⟩ := List.append_eq_nil_iff.mp hchunk
    exact ⟨wire1, hsteady, readLine_ended hread⟩
termination_by wire.size

/-- The loop at a byte. -/
theorem readLine_cons (acknowledged : Bool) (body : Bytes) (byte : UInt8) (rest : Bytes) (wire : Link)
    (hwire : wire.Steady ioFailures) (hin : wire.incoming = byte :: rest) : ∃ wire', wire'.Steady ioFailures ∧
      wire'.incoming = rest ∧
      readLine acknowledged body wire = if byte = frameEnd then (.ok (some body), wire')
        else if body.length ≥ maxFrameLength then (.error (frameTooLong .invalidData), wire')
        else readLine acknowledged (body ++ [byte]) wire' := by
  rcases read_steady hwire Nat.one_pos with ⟨e, wire1, hread, he, hsteady, hin1, -⟩ |
    ⟨chunk, wire1, hread, hchunk, hlen, hnil, hsteady, -⟩
  · have hless := size_of_failed_read hread
    obtain ⟨wire', hsteady', hin', hrun⟩ :=
      readLine_cons acknowledged body byte rest wire1 hsteady (hin1.trans hin)
    exact ⟨wire', hsteady', hin', (readLine_interrupted hread he).trans hrun⟩
  · rw [hin] at hchunk
    obtain ⟨first, more, rfl⟩ := List.exists_cons_of_ne_nil fun h => List.cons_ne_nil _ _ (hin ▸ hnil h)
    obtain rfl : more = [] := List.eq_nil_of_length_eq_zero (by simpa using hlen)
    obtain ⟨rfl, hrest⟩ := List.cons.inj hchunk
    obtain ⟨wire2, hack, hsteady2, hin2⟩ := acknowledged_steady acknowledged hsteady
    exact ⟨wire2, hsteady2, hin2.trans hrest, readLine_byte hread hack⟩
termination_by wire.size

/-- A line within the limit is read whole. -/
theorem readLine_line {line rest : Bytes} (hline : frameEnd ∉ line)
    (hlen : body.length + line.length ≤ maxFrameLength)
    (hwire : wire.Steady ioFailures) (hin : wire.incoming = line ++ frameEnd :: rest) :
    ∃ wire', readLine acknowledged body wire = (.ok (some (body ++ line)), wire') ∧ wire'.Steady ioFailures ∧
      wire'.incoming = rest := by
  induction line generalizing body wire with
  | nil =>
    obtain ⟨wire', hsteady, hrest, hrun⟩ := readLine_cons acknowledged body frameEnd rest wire hwire hin
    exact ⟨wire', by rw [hrun, if_pos rfl, List.append_nil], hsteady, hrest⟩
  | cons byte line ih =>
    obtain ⟨hbyte, hline⟩ := not_or.mp (List.mem_cons.not.mp hline)
    rw [List.length_cons] at hlen
    obtain ⟨wire1, hsteady, hrest, hrun⟩ := readLine_cons acknowledged body byte _ wire hwire hin
    obtain ⟨wire', hrun', hsteady', hrest'⟩ := @ih wire1 (body ++ [byte]) hline (by simp; omega) hsteady hrest
    refine ⟨wire', ?_, hsteady', hrest'⟩
    rw [hrun, if_neg (Ne.symm hbyte), if_neg (by omega), hrun', List.append_assoc, List.singleton_append]

/-- A line that the stream ends within is an error. -/
theorem readLine_truncated {line : Bytes} (hline : frameEnd ∉ line)
    (hlen : body.length + line.length ≤ maxFrameLength)
    (hsome : body ++ line ≠ []) (hwire : wire.Steady ioFailures) (hin : wire.incoming = line) :
    ∃ wire', readLine acknowledged body wire = (.error ⟨.unexpectedEof, "truncated line-delimited frame"⟩,
        wire') := by
  induction line generalizing body wire with
  | nil =>
    obtain ⟨wire', -, hrun⟩ := readLine_nil acknowledged body wire hwire hin
    exact ⟨wire', by rw [hrun, if_neg (by simpa using hsome)]⟩
  | cons byte line ih =>
    obtain ⟨hbyte, hline⟩ := not_or.mp (List.mem_cons.not.mp hline)
    rw [List.length_cons] at hlen
    obtain ⟨wire1, hsteady, hrest, hrun⟩ := readLine_cons acknowledged body byte _ wire hwire hin
    obtain ⟨wire', hrun'⟩ := @ih wire1 (body ++ [byte]) hline (by simp; omega) (by simp) hsteady hrest
    exact ⟨wire', by rw [hrun, if_neg (Ne.symm hbyte), if_neg (by omega), hrun']⟩

/-- A line over the limit is refused, whatever stands behind it. -/
theorem readLine_tooLong {line rest : Bytes} (hline : frameEnd ∉ line) (hbody : body.length ≤ maxFrameLength)
    (hlen : maxFrameLength < body.length + line.length) (hwire : wire.Steady ioFailures)
    (hin : wire.incoming = line ++ rest) :
    ∃ wire', readLine acknowledged body wire = (.error (frameTooLong .invalidData), wire') := by
  induction line generalizing body wire with
  | nil =>
    rw [List.length_nil] at hlen
    omega
  | cons byte line ih =>
    obtain ⟨hbyte, hline⟩ := not_or.mp (List.mem_cons.not.mp hline)
    rw [List.length_cons] at hlen
    obtain ⟨wire1, hsteady, hrest, hrun⟩ := readLine_cons acknowledged body byte _ wire hwire hin
    rw [if_neg (Ne.symm hbyte)] at hrun
    by_cases hfull : body.length ≥ maxFrameLength
    · exact ⟨wire1, by rw [hrun, if_pos hfull]⟩
    · obtain ⟨wire', hrun'⟩ := @ih wire1 (body ++ [byte]) hline (by simp; omega) (by simp; omega) hsteady hrest
      exact ⟨wire', by rw [hrun, if_neg hfull, hrun']⟩

end

/-! ## The length prefix over a steady transport -/

section

variable {wire wire' : Link}

theorem readFirst_interrupted {e : IoError} (h : read 1 wire = (.error e, wire'))
    (he : ioFailures.interrupted e = true) : readFirst wire = readFirst wire' := by
  rw [readFirst]
  split <;> rename_i heq <;> rw [h] at heq <;> cases heq
  rw [if_pos he]

theorem readFirst_read {chunk : Bytes} (h : read 1 wire = (.ok chunk, wire')) :
    readFirst wire = (.ok chunk.head?, wire') := by
  rw [readFirst]
  split <;> rename_i heq <;> rw [h] at heq <;> cases heq <;> rfl

theorem readFirst_steady (wire : Link) (hwire : wire.Steady ioFailures) : ∃ wire', wire'.Steady ioFailures ∧
    readFirst wire = (.ok wire.incoming.head?, wire') ∧ wire'.incoming = wire.incoming.tail := by
  rcases read_steady hwire Nat.one_pos with ⟨e, wire1, hread, he, hsteady, hin, -⟩ |
    ⟨chunk, wire1, hread, hchunk, hlen, hnil, hsteady, -⟩
  · have hless := size_of_failed_read hread
    obtain ⟨wire', hsteady', hrun, hin'⟩ := readFirst_steady wire1 hsteady
    rw [hin] at hrun hin'
    exact ⟨wire', hsteady', (readFirst_interrupted hread he).trans hrun, hin'⟩
  · refine ⟨wire1, hsteady, ?_⟩
    rw [readFirst_read hread]
    rcases chunk with _ | ⟨first, more⟩
    · rw [List.nil_append] at hchunk
      rw [hchunk, hnil rfl]
      exact ⟨rfl, rfl⟩
    · obtain rfl : more = [] := List.eq_nil_of_length_eq_zero (by simpa using hlen)
      rw [← hchunk]
      exact ⟨rfl, rfl⟩
termination_by wire.size

variable {T : Type} {codec : Codec T}

theorem readFrame_first {first : UInt8} (h : readFirst wire = (.ok (some first), wire')) :
    readFrame codec wire = ((readExact ioFailures 3 : Io UInt8 IoError Bytes) >>= fun rest =>
      if fromBeBytes (first :: rest) > maxFrameLength then throw (frameTooLong .invalidData)
      else (readExact ioFailures (fromBeBytes (first :: rest)) : Io UInt8 IoError Bytes) >>= frameValue codec :
        Io UInt8 IoError (Option T)) wire' := by
  rw [readFrame, Attempt.bind_run, h]

/-- What `read_frame` does once the stream has begun. -/
theorem readFrame_steady {first : UInt8} {stream : Bytes} (hwire : wire.Steady ioFailures)
    (hin : wire.incoming = first :: stream) : ∃ wire1 wire2, wire1.Steady ioFailures ∧ wire2.Steady ioFailures ∧
      (stream.length < 3 → readFrame codec wire = (.error ioFailures.unexpectedEof, wire1)) ∧
      (3 ≤ stream.length →
        let length := fromBeBytes (first :: stream.take 3)
        (maxFrameLength < length → readFrame codec wire = (.error (frameTooLong .invalidData), wire1)) ∧
        (length ≤ maxFrameLength → stream.length - 3 < length →
          readFrame codec wire = (.error ioFailures.unexpectedEof, wire2)) ∧
        (length ≤ maxFrameLength → length ≤ stream.length - 3 →
          readFrame codec wire = frameValue codec ((stream.drop 3).take length) wire2 ∧
          wire2.incoming = (stream.drop 3).drop length)) := by
  obtain ⟨wire0, hsteady0, hrun0, hin0⟩ := readFirst_steady wire hwire
  rw [hin, List.head?_cons] at hrun0
  rw [hin, List.tail_cons] at hin0
  obtain ⟨wire1, hsteady1, -, henough1, hshort1⟩ := readExact_steady ioFailures 3 wire0 hsteady0
  rw [hin0] at henough1 hshort1
  obtain ⟨wire2, hsteady2, -, henough2, hshort2⟩ :=
    readExact_steady ioFailures (fromBeBytes (first :: stream.take 3)) wire1 hsteady1
  refine ⟨wire1, wire2, hsteady1, hsteady2, ?_, ?_⟩
  · intro hlen
    rw [readFrame_first hrun0, Attempt.bind_run, hshort1 hlen]
  · intro hlen length
    obtain ⟨hrun1, hin1⟩ := henough1 hlen
    rw [hin1, List.length_drop] at henough2 hshort2
    have hreduce : readFrame codec wire = (if length > maxFrameLength then throw (frameTooLong .invalidData)
        else (readExact ioFailures length : Io UInt8 IoError Bytes) >>= frameValue codec :
          Io UInt8 IoError (Option T)) wire1 := by
      rw [readFrame_first hrun0, Attempt.bind_run, hrun1]
    refine ⟨fun hlong => ?_, fun hfits hmissing => ?_, fun hfits henough => ?_⟩
    · rw [hreduce, if_pos hlong]
      rfl
    · rw [hreduce, if_neg (by omega), Attempt.bind_run, hshort2 hmissing]
    · obtain ⟨hrun2, hin2⟩ := henough2 henough
      rw [hreduce, if_neg (by omega), Attempt.bind_run, hrun2]
      exact ⟨rfl, hin2⟩

theorem readFrame_nil (hwire : wire.Steady ioFailures) (hnil : wire.incoming = []) :
    ∃ wire', readFrame codec wire = (.ok none, wire') := by
  obtain ⟨wire', -, hrun, -⟩ := readFirst_steady wire hwire
  rw [hnil] at hrun
  refine ⟨wire', ?_⟩
  rw [readFrame, Attempt.bind_run, hrun]
  rfl

end

/-! ## Exactness -/

section

variable {T : Type}

/-- What a writer and a reader do to a sequence of values, whatever each call of their transports moves. -/
structure Exact (writer : T → Io UInt8 IoError Unit) (reader : Io UInt8 IoError (Option T)) (encode : T → Bytes)
    (values : List T) : Prop where
  /-- The writer sends the encoded values in order. -/
  written : ∀ wire : Link, wire.Steady ioFailures → ∃ wire', values.forM writer wire = (.ok (), wire') ∧
    wire'.outgoing = wire.outgoing ++ values.flatMap encode
  /-- The reader hands out the values and then finds the end of the stream. -/
  read : ∀ wire : Link, wire.Steady ioFailures → wire.incoming = values.flatMap encode →
    Yields reader wire values (.ok ())
  /-- A stream that ends within an encoded value is an error behind the values before it. -/
  cut : ∀ earlier value later, values = earlier ++ value :: later → ∀ n, 0 < n → n < (encode value).length →
    ∀ wire : Link, wire.Steady ioFailures → wire.incoming = earlier.flatMap encode ++ (encode value).take n →
    ∃ error : IoError, error.kind = .unexpectedEof ∧ Yields reader wire earlier (.error error)

/-- A body over the limit is not sent, and a stream that carries one is an error behind the values before it. -/
structure Bounded (codec : Codec T) (writer : T → Io UInt8 IoError Unit) (reader : Io UInt8 IoError (Option T))
    (encode : Bytes → Bytes) (values : List T) : Prop where
  notSent : ∀ value body, codec.toVec value = .ok body → maxFrameLength < body.length →
    ∀ wire, writer value wire = (.error (frameTooLong .invalidInput), wire)
  notRead : ∀ body, frameEnd ∉ body → maxFrameLength < body.length → body.length < 2 ^ 32 → ∀ rest,
    ∀ wire : Link, wire.Steady ioFailures →
    wire.incoming = values.flatMap (fun value => encode (bodyOf codec value)) ++ (encode body ++ rest) →
    Yields reader wire values (.error (frameTooLong .invalidData))

/-- The protocol's writers and readers on a sequence of values. -/
structure ExactFraming (codec : Codec T) (values : List T) : Prop where
  lines : Exact (writeLineFrame codec) (readLineFrame codec) (fun value => lined (bodyOf codec value)) values
  acknowledgedLines :
    Exact (writeLineFrame codec) (readAcknowledgedLineFrame codec) (fun value => lined (bodyOf codec value)) values
  lengths : Exact (writeFrame codec) (readFrame codec) (fun value => framed (bodyOf codec value)) values
  boundedLines : Bounded codec (writeLineFrame codec) (readLineFrame codec) lined values
  boundedAcknowledgedLines : Bounded codec (writeLineFrame codec) (readAcknowledgedLineFrame codec) lined values
  boundedLengths : Bounded codec (writeFrame codec) (readFrame codec) framed values

variable {codec : Codec T} {values : List T}

theorem written_of_steady {writer : T → Io UInt8 IoError Unit} {encode : T → Bytes}
    (h : ∀ value ∈ values, ∀ wire : Link, wire.Steady ioFailures → ∃ wire', writer value wire = (.ok (), wire') ∧
      wire'.outgoing = wire.outgoing ++ encode value ∧ wire'.Steady ioFailures)
    {wire : Link} (hwire : wire.Steady ioFailures) : ∃ wire', values.forM writer wire = (.ok (), wire') ∧
      wire'.outgoing = wire.outgoing ++ values.flatMap encode := by
  induction values generalizing wire with
  | nil => exact ⟨wire, rfl, (List.append_nil _).symm⟩
  | cons value values ih =>
    obtain ⟨wire1, hrun1, hout1, hsteady1⟩ := h value List.mem_cons_self wire hwire
    obtain ⟨wire', hrun', hout'⟩ := ih (fun v hv => h v (List.mem_cons_of_mem _ hv)) hsteady1
    refine ⟨wire', ?_, by rw [hout', hout1, List.append_assoc, List.flatMap_cons]⟩
    show (writer value >>= fun _ => values.forM writer) wire = _
    rw [Attempt.bind_run, hrun1]
    exact hrun'

/-! ## Lines -/

theorem frameValue_ok {body : Bytes} {value : T} {wire : Link} (h : codec.fromSlice body = .ok value) :
    frameValue codec body wire = (.ok (some value), wire) := by
  rw [frameValue, h]
  rfl

theorem lineReader_reads (acknowledged : Bool) {value : T} (hcarries : Carries codec value)
    (hlen : (bodyOf codec value).length ≤ maxFrameLength) :
    Reads ioFailures (lineReader acknowledged codec) (lined (bodyOf codec value)) value := by
  intro wire rest hwire hin
  rw [lined, List.append_assoc, List.singleton_append] at hin
  obtain ⟨wire', hrun, hsteady, hrest⟩ :=
    @readLine_line _ acknowledged [] _ _ hcarries.line (by simpa using hlen) hwire hin
  refine ⟨wire', ?_, hsteady, hrest⟩
  rw [lineReader, Attempt.bind_run, hrun]
  exact frameValue_ok hcarries.fromSlice

theorem lineReader_nil (acknowledged : Bool) {wire : Link} (hwire : wire.Steady ioFailures)
    (hnil : wire.incoming = []) : ∃ wire', lineReader acknowledged codec wire = (.ok none, wire') := by
  obtain ⟨wire', -, hrun⟩ := readLine_nil acknowledged [] wire hwire hnil
  refine ⟨wire', ?_⟩
  rw [lineReader, Attempt.bind_run, hrun]
  rfl

theorem lineReader_error (acknowledged : Bool) {wire wire' : Link} {e : IoError}
    (h : readLine acknowledged [] wire = (.error e, wire')) :
    lineReader acknowledged codec wire = (.error e, wire') := by
  rw [lineReader, Attempt.bind_run, h]

theorem exact_lines (acknowledged : Bool)
    (hvalues : ∀ value ∈ values, Carries codec value ∧ (bodyOf codec value).length ≤ maxFrameLength) :
    Exact (writeLineFrame codec) (lineReader acknowledged codec)
        (fun value => lined (bodyOf codec value)) values where
  written _ hwire := written_of_steady
    (fun value hvalue _ hwire => writeLineFrame_steady (hvalues value hvalue).1.toVec (hvalues value hvalue).2
      hwire) hwire
  read wire hwire hin := by
    refine yields_of_reads (fun v hv => lineReader_reads acknowledged (hvalues v hv).1 (hvalues v hv).2)
      ?_ wire hwire (hin.trans (List.append_nil _).symm)
    intro wire hwire hnil
    obtain ⟨wire', hrun⟩ := @lineReader_nil _ codec acknowledged _ hwire hnil
    exact .ended hrun
  cut := by
    rintro earlier value later rfl n hpos hn wire hwire hin
    obtain ⟨hcarries, hlen⟩ := hvalues value (by simp)
    refine ⟨⟨.unexpectedEof, "truncated line-delimited frame"⟩, rfl,
      @yields_of_reads _ _ _ _ _ _ ((lined (bodyOf codec value)).take n) _ _
      (fun v hv => ?_) (fun wire hwire hin => ?_) wire hwire hin⟩
    · obtain ⟨hv, hvlen⟩ := hvalues v (List.mem_append_left _ hv)
      exact lineReader_reads acknowledged hv hvlen
    · rw [lined, List.length_append, List.length_singleton] at hn
      rw [lined, List.take_append_of_le_length (by omega)] at hin
      have hline : frameEnd ∉ (bodyOf codec value).take n := fun h => hcarries.line (List.mem_of_mem_take h)
      have hsome : (bodyOf codec value).take n ≠ [] := by
        intro hnil
        have := congrArg List.length hnil
        simp only [List.length_take, List.length_nil] at this
        omega
      obtain ⟨wire', hrun⟩ := @readLine_truncated _ acknowledged [] _ hline
        (by simp only [List.length_nil, List.length_take]; omega) hsome hwire hin
      exact .failed (lineReader_error acknowledged hrun)

theorem bounded_lines (acknowledged : Bool)
    (hvalues : ∀ value ∈ values, Carries codec value ∧ (bodyOf codec value).length ≤ maxFrameLength) :
    Bounded codec (writeLineFrame codec) (lineReader acknowledged codec) lined values where
  notSent value body hbody hlen wire := by
    rw [writeLineFrame, Attempt.bind_run, frameBody_refused hbody hlen]
  notRead body hline hlen _ rest wire hwire hin := by
    refine yields_of_reads (fun v hv => lineReader_reads acknowledged (hvalues v hv).1 (hvalues v hv).2) ?_
      wire hwire hin
    intro wire hwire hin
    rw [lined, List.append_assoc] at hin
    obtain ⟨wire', hrun⟩ := @readLine_tooLong _ acknowledged [] _ _ hline (Nat.zero_le _)
      (by simpa using hlen) hwire hin
    exact .failed (lineReader_error acknowledged hrun)

/-! ## Lengths -/

theorem framed_eq (body : Bytes) : framed body = UInt8.ofNat (body.length / 2 ^ 24) ::
    ((beBytes body.length).tail ++ body) := rfl

theorem framed_length {body : Bytes} (h : body.length < 2 ^ 32) :
    fromBeBytes (UInt8.ofNat (body.length / 2 ^ 24) :: (beBytes body.length).tail) = body.length :=
      fromBeBytes_beBytes h

/-- The three bytes of a length that follow the first, and what is behind them. -/
theorem take_lengthTail (n : Nat) (rest : Bytes) : ((beBytes n).tail ++ rest).take 3 = (beBytes n).tail ∧
    ((beBytes n).tail ++ rest).drop 3 = rest ∧ ((beBytes n).tail ++ rest).length = rest.length + 3 :=
  ⟨rfl, rfl, rfl⟩

theorem readFrame_reads {value : T} (hcarries : Carries codec value)
    (hlen : (bodyOf codec value).length ≤ maxFrameLength) :
    Reads ioFailures (readFrame codec) (framed (bodyOf codec value)) value := by
  intro wire rest hwire hin
  rw [framed_eq, List.cons_append, List.append_assoc] at hin
  obtain ⟨_, wire', -, hsteady, -, hrun⟩ := @readFrame_steady _ _ codec _ _ hwire hin
  obtain ⟨htake, hdrop, hlength⟩ := take_lengthTail (bodyOf codec value).length (bodyOf codec value ++ rest)
  have hbound : maxFrameLength < 2 ^ 32 := by decide
  rw [htake, hdrop, hlength, framed_length (by omega)] at hrun
  obtain ⟨-, -, hread⟩ := hrun (by omega)
  obtain ⟨hread, hrest⟩ := hread hlen (by simp)
  rw [List.take_left] at hread
  rw [List.drop_left] at hrest
  exact ⟨wire', hread.trans (frameValue_ok hcarries.fromSlice), hsteady, hrest⟩

theorem readFrame_cut {body : Bytes} (hlen : body.length ≤ maxFrameLength) {n : Nat} (hpos : 0 < n)
    (hn : n < (framed body).length) {wire : Link} (hwire : wire.Steady ioFailures)
    (hin : wire.incoming = (framed body).take n) : ∃ wire',
      readFrame codec wire = (.error ioFailures.unexpectedEof, wire') := by
  obtain ⟨m, rfl⟩ := Nat.exists_eq_succ_of_ne_zero hpos.ne'
  obtain ⟨-, -, htotal⟩ := take_lengthTail body.length body
  rw [framed_eq, List.length_cons, htotal] at hn
  rw [framed_eq, List.take_succ_cons] at hin
  obtain ⟨wire1, wire2, -, -, hshort, hrun⟩ := @readFrame_steady _ _ codec _ _ hwire hin
  rw [List.length_take, htotal] at hshort hrun
  by_cases hpre : m < 3
  · exact ⟨wire1, hshort (by omega)⟩
  · have htake : (((beBytes body.length).tail ++ body).take m).take 3 = (beBytes body.length).tail := by
      rw [List.take_take, Nat.min_eq_left (by omega)]
      exact (take_lengthTail body.length body).1
    have hbound : maxFrameLength < 2 ^ 32 := by decide
    rw [htake, framed_length (by omega)] at hrun
    obtain ⟨-, hmissing, -⟩ := hrun (by omega)
    exact ⟨wire2, hmissing hlen (by omega)⟩

theorem exact_lengths
    (hvalues : ∀ value ∈ values, Carries codec value ∧ (bodyOf codec value).length ≤ maxFrameLength) :
    Exact (writeFrame codec) (readFrame codec) (fun value => framed (bodyOf codec value)) values where
  written _ hwire := written_of_steady
    (fun value hvalue _ hwire => writeFrame_steady (hvalues value hvalue).1.toVec (hvalues value hvalue).2
      hwire) hwire
  read wire hwire hin := by
    refine yields_of_reads (fun v hv => readFrame_reads (hvalues v hv).1 (hvalues v hv).2) ?_ wire hwire
      (hin.trans (List.append_nil _).symm)
    intro wire hwire hnil
    obtain ⟨wire', hrun⟩ := @readFrame_nil _ _ codec hwire hnil
    exact .ended hrun
  cut := by
    rintro earlier value later rfl n hpos hn wire hwire hin
    refine ⟨ioFailures.unexpectedEof, rfl, @yields_of_reads _ _ _ _ _ _ ((framed (bodyOf codec value)).take n) _ _
      (fun v hv => ?_) (fun wire hwire hin => ?_) wire hwire hin⟩
    · obtain ⟨hv, hvlen⟩ := hvalues v (List.mem_append_left _ hv)
      exact readFrame_reads hv hvlen
    · obtain ⟨wire', hrun⟩ := @readFrame_cut _ codec _ (hvalues value (by simp)).2 _ hpos hn _ hwire hin
      exact .failed hrun

theorem bounded_lengths
    (hvalues : ∀ value ∈ values, Carries codec value ∧ (bodyOf codec value).length ≤ maxFrameLength) :
    Bounded codec (writeFrame codec) (readFrame codec) framed values where
  notSent value body hbody hlen wire := by
    rw [writeFrame, Attempt.bind_run, frameBody_refused hbody hlen]
  notRead body _ hlen hword rest wire hwire hin := by
    refine yields_of_reads (fun v hv => readFrame_reads (hvalues v hv).1 (hvalues v hv).2) ?_ wire hwire hin
    intro wire hwire hin
    rw [framed_eq, List.cons_append, List.append_assoc] at hin
    obtain ⟨wire', _, -, -, -, hrun⟩ := @readFrame_steady _ _ codec _ _ hwire hin
    obtain ⟨htake, -, hlength⟩ := take_lengthTail body.length (body ++ rest)
    rw [htake, hlength, framed_length hword] at hrun
    exact .failed ((hrun (by omega)).1 hlen)

/-- The three framings of one wire type. -/
theorem exactFraming
    (hvalues : ∀ value ∈ values, Carries codec value ∧ (bodyOf codec value).length ≤ maxFrameLength) :
    ExactFraming codec values where
  lines := exact_lines false hvalues
  acknowledgedLines := exact_lines true hvalues
  lengths := exact_lengths hvalues
  boundedLines := bounded_lines false hvalues
  boundedAcknowledgedLines := bounded_lines true hvalues
  boundedLengths := bounded_lengths hvalues

end

/-- **The control channel is exact.**  Commands, and events whose exit records Linux can report, pass both
framings as they are, whatever each call of the transport moves; a stream cut within a frame ends in an error
behind the frames before it; and a body over the limit is neither sent nor read. -/
theorem frames_exact :
    (∀ (codec : Codec CommandFrame) (frames : List CommandFrame),
      (∀ frame ∈ frames, Carries codec frame ∧ (bodyOf codec frame).length ≤ maxFrameLength) →
      ExactFraming codec frames) ∧
    ∀ (derived : Codec EventFrame) (custom : Bytes → Text → JsonError) (frames : List EventFrame),
      (∀ frame ∈ frames, frame.event.Real) →
      (∀ frame ∈ frames, Carries derived frame ∧ (bodyOf derived frame).length ≤ maxFrameLength) →
      ExactFraming (eventCodec derived custom) frames := by
  constructor
  · intro codec frames hframes
    exact exactFraming hframes
  · intro derived custom frames hreal hframes
    refine exactFraming fun frame hframe => ⟨?_, (hframes frame hframe).2⟩
    exact carries_eventCodec custom (hframes frame hframe).1 (hreal frame hframe)

/-- `serde_json` as far as one value is concerned. -/
def sampleCodec {T : Type} [DecidableEq T] (value : T) (json : Text) : Codec T where
  toVec given := if given = value then .ok json else .error "not part of the sample"
  fromSlice body := if body = json then .ok value else .error ⟨.syntaxError, 1, 1⟩

theorem carries_sampleCodec {T : Type} [DecidableEq T] {value : T} {json : Text} (h : frameEnd ∉ json) :
    Carries (sampleCodec value json) value := ⟨json, if_pos rfl, if_pos rfl, h⟩

def sampleCommand : CommandFrame := ⟨1, 9, .shutdown⟩

def sampleCommandJson : Text :=
  "\x7b\"protocol_version\":1,\"command_id\":9,\"command\":\x7b\"type\":\"shutdown\"\x7d\x7d"

def sampleExitFrame : EventFrame := ⟨1, 1, 1, .workloadExited 1 (.exited 255) 0 [] 0 [] 0, {}⟩

def sampleExitJson : Text :=
  "\x7b\"protocol_version\":1,\"event_id\":1,\"command_id\":1," ++
  "\"event\":\x7b\"type\":\"workload_exited\",\"invocation\":1," ++
  "\"exit\":\x7b\"kind\":\"exited\",\"code\":255\x7d," ++
  "\"stdout_bytes\":0,\"stdout_sha256\":\"\",\"stderr_bytes\":0,\"stderr_sha256\":\"\",\"frames\":0\x7d\x7d"

theorem frames_exact_sample :
    ExactFraming (sampleCodec sampleCommand sampleCommandJson) [sampleCommand, sampleCommand] ∧
    ExactFraming (eventCodec (sampleCodec sampleExitFrame sampleExitJson) fun _ _ => ⟨.data, 1, 1⟩)
        [sampleExitFrame] := by
  constructor
  · refine frames_exact.1 _ _ fun frame hframe => ?_
    obtain rfl : frame = sampleCommand := by simpa using hframe
    exact ⟨carries_sampleCodec (by decide +kernel), by decide +kernel⟩
  · refine frames_exact.2 _ _ _ (fun frame hframe => ?_) fun frame hframe => ?_ <;>
      obtain rfl : frame = sampleExitFrame := by simpa using hframe
    · exact ⟨by decide, by decide⟩
    · exact ⟨carries_sampleCodec (by decide +kernel), by decide +kernel⟩

end SimFerret
