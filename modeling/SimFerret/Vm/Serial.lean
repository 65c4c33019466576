import SimFerret.Guest.Serial

/-!
# SimFerret.Vm.Serial — the parties of the serial control channel (`vm.rs`, `agent.rs`)

A thread of the host writes commands in chunks and waits for the acknowledgements of each chunk; another one
reads the replies, in which acknowledgements and the lines of events are mixed; the guest consumes commands, and
owes one acknowledgement for each byte.

* `CommandWriter`: `write_serial_command` and the loop around it.  `EventReader`: `read_serial_event` and its loop.
* `GuestPort`: the guest, which may put its acknowledgements anywhere into its events.
* `SerialLine`: the three and what is between them; `serialStep`: one move of one of them.
-/

namespace SimFerret

open Workload

/-- `COMMAND_WRITE_CHUNK_BYTES`. -/
def commandWriteChunkBytes : Nat := 16

/-! ## The command writer -/

/-- A frame within `write_serial_command`. -/
structure Writing where
  frame : CommandFrame
  /-- What is left of the chunk. -/
  unwritten : Bytes
  /-- The acknowledgements that the chunk still waits for. -/
  missing : Nat
  /-- The chunks behind it. -/
  rest : Bytes

structure CommandWriter where
  requests : List CommandFrame
  current : Option Writing := none
  /-- The frames for which `write_serial_command` returned `Ok`. -/
  completed : List CommandFrame := []
  /-- The error that ended the thread. -/
  failed : Option IoError := none
  written : Bytes := []
  /-- The acknowledgements that it took from the channel. -/
  acknowledged : Nat := 0

/-- The bytes that `write_serial_command` sends. -/
def commandLine (codec : Codec CommandFrame) (frame : CommandFrame) : IoResult Bytes :=
  match codec.toVec frame with
  | .error message => .error ⟨.other, message⟩
  | .ok body => if body.length > maxFrameLength then .error (frameTooLong .invalidInput) else .ok (lined body)

/-- The first of `bytes.chunks(COMMAND_WRITE_CHUNK_BYTES)`. -/
def nextChunk (frame : CommandFrame) (bytes : Bytes) : Writing where
  frame := frame
  unwritten := bytes.take commandWriteChunkBytes
  missing := (bytes.take commandWriteChunkBytes).length
  rest := bytes.drop commandWriteChunkBytes

namespace CommandWriter

/-- The next request. -/
def start (codec : Codec CommandFrame) (writer : CommandWriter) : Option CommandWriter :=
  match writer.failed, writer.current, writer.requests with
  | none, none, frame :: requests =>
    match commandLine codec frame with
    | .error error => some { writer with failed := some error }
    | .ok bytes => some { writer with requests, current := some (nextChunk frame bytes) }
  | _, _, _ => none

/-- `write_all` moves a byte of the chunk. -/
def write (writer : CommandWriter) : Option (UInt8 × CommandWriter) :=
  match writer.failed, writer.current with
  | none, some ⟨frame, byte :: unwritten, missing, rest⟩ =>
    some (byte, { writer with
      current := some ⟨frame, unwritten, missing, rest⟩
      written := writer.written ++ [byte] })
  | _, _ => none

/-- A `recv_timeout` that returns. -/
def acknowledge (writer : CommandWriter) : Option CommandWriter :=
  match writer.failed, writer.current with
  | none, some ⟨frame, [], missing + 1, rest⟩ =>
    some { writer with current := some ⟨frame, [], missing, rest⟩, acknowledged := writer.acknowledged + 1 }
  | _, _ => none

/-- The end of a chunk: the next one, or `Ok`. -/
def advance (writer : CommandWriter) : Option CommandWriter :=
  match writer.failed, writer.current with
  | none, some ⟨frame, [], 0, []⟩ => some { writer with current := none, completed := writer.completed ++ [frame] }
  | none, some ⟨frame, [], 0, byte :: rest⟩ =>
    some { writer with current := some (nextChunk frame (byte :: rest)) }
  | _, _ => none

/-- A write or a flush that fails, or an acknowledgement channel without a sender. -/
def fail (error : IoError) (writer : CommandWriter) : Option CommandWriter :=
  match writer.failed, writer.current with
  | none, some _ => some { writer with failed := some error }
  | _, _ => none

end CommandWriter

/-! ## The event reader -/

structure EventReader where
  /-- The body of the frame that is being read. -/
  body : Bytes := []
  events : List EventFrame := []
  /-- The result that ended the thread. -/
  finished : Option (IoResult Unit) := none

namespace EventReader

variable (codec : Codec EventFrame)

/-- One byte of the loop of `read_serial_event`. -/
def hear (byte : UInt8) (reader : EventReader) : EventReader :=
  if byte = serialAck then reader
  else if byte = frameEnd then
    match codec.fromSlice reader.body with
    | .ok event => { reader with body := [], events := reader.events ++ [event] }
    | .error error =>
      { reader with body := [], finished := some (.error (jsonError "malformed event frame" error)) }
  else if reader.body.length ≥ maxFrameLength then
    { reader with finished := some (.error (frameTooLong .invalidData)) }
  else { reader with body := reader.body ++ [byte] }

/-- The end of the stream. -/
def close (reader : EventReader) : EventReader :=
  let result := if reader.body = [] then .ok () else .error ⟨.unexpectedEof, "truncated serial event frame"⟩
  { reader with finished := some result }

end EventReader

/-! ## The guest -/

structure GuestPort where
  buffer : SerialBuffer := {}
  /-- The commands that were handed out. -/
  frames : List CommandFrame := []
  failed : Option IoError := none
  consumed : Bytes := []
  /-- The acknowledgements that it has not sent. -/
  owed : Nat := 0
  /-- The events that it wrote. -/
  events : List EventFrame := []
  /-- What it has not sent of their lines. -/
  unsent : Bytes := []
  closed : Bool := false

namespace GuestPort

/-- `read_serial_frames` with the bytes of one read. -/
def consume (codec : Codec CommandFrame) (bytes : Bytes) (guest : GuestPort) : GuestPort :=
  let guest := { guest with consumed := guest.consumed ++ bytes, owed := guest.owed + bytes.length }
  match extendLines codec guest.buffer bytes with
  | (.ok frames, buffer) => { guest with buffer, frames := guest.frames ++ frames.getD [] }
  | (.error error, buffer) => { guest with buffer, failed := some error }

/-- `write_line_frame`, for a frame that it does not refuse. -/
def write (codec : Codec EventFrame) (event : EventFrame) (guest : GuestPort) : Option GuestPort :=
  match codec.toVec event with
  | .error _ => none
  | .ok body =>
    if body.length > maxFrameLength then none
    else some { guest with events := guest.events ++ [event], unsent := guest.unsent ++ lined body }

end GuestPort

/-! ## The channel -/

structure SerialLine where
  writer : CommandWriter
  reader : EventReader := {}
  guest : GuestPort := {}
  /-- From the writer to the guest. -/
  commands : Bytes := []
  /-- From the guest to the reader. -/
  replies : Bytes := []
  /-- From the reader to the writer. -/
  acknowledgements : Nat := 0

/-- The channel before the first command. -/
def SerialLine.begin (requests : List CommandFrame) : SerialLine where
  writer := { requests }

inductive SerialMove where
  | start
  | write
  | acknowledge
  | advance
  | fail (error : IoError)
  | hear
  | endOfStream
  /-- The guest reads so many bytes. -/
  | consume (count : Nat)
  | sendAck
  | writeEvent (event : EventFrame)
  | sendByte
  | close

section

variable (commandCodec : Codec CommandFrame) (eventCodec : Codec EventFrame)

/-- One move; `none` where the party cannot make it. -/
def serialStep (s : SerialLine) : SerialMove → Option SerialLine
  | .start => (s.writer.start commandCodec).map fun writer => { s with writer }
  | .write => s.writer.write.map fun out => { s with writer := out.2, commands := s.commands ++ [out.1] }
  | .acknowledge =>
    if s.acknowledgements = 0 then none
    else s.writer.acknowledge.map fun writer => { s with writer, acknowledgements := s.acknowledgements - 1 }
  | .advance => s.writer.advance.map fun writer => { s with writer }
  | .fail error => (s.writer.fail error).map fun writer => { s with writer }
  | .hear =>
    match s.reader.finished, s.replies with
    | none, byte :: replies => some { s with
        replies
        reader := s.reader.hear eventCodec byte
        -- a writer that has ended holds no receiver
        acknowledgements := s.acknowledgements + if byte = serialAck ∧ s.writer.failed = none then 1 else 0 }
    | _, _ => none
  | .endOfStream =>
    if s.reader.finished.isNone ∧ s.replies = [] ∧
      s.guest.closed then some { s with reader := s.reader.close } else none
  | .consume count =>
    if s.guest.closed ∨ s.guest.failed ≠ none ∨ count = 0 ∨ serialChunk < count ∨
      s.commands.length < count then none
    else some { s with
      guest := s.guest.consume commandCodec (s.commands.take count)
      commands := s.commands.drop count }
  | .sendAck =>
    if s.guest.closed ∨ s.guest.owed = 0 then none
    else some { s with guest := { s.guest with owed := s.guest.owed - 1 }, replies := s.replies ++ [serialAck] }
  | .writeEvent event =>
    if s.guest.closed then none else (s.guest.write eventCodec event).map fun guest => { s with guest }
  | .sendByte =>
    match s.guest.closed, s.guest.unsent with
    | false, byte :: unsent => some { s with guest := { s.guest with unsent }, replies := s.replies ++ [byte] }
    | _, _ => none
  | .close => some { s with guest := { s.guest with closed := true } }

/-- A run of moves, in any order. -/
def serialRun (moves : List SerialMove) (s : SerialLine) : Option SerialLine :=
  moves.foldlM (serialStep commandCodec eventCodec) s

end

end SimFerret
