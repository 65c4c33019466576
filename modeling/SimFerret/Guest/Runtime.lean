import SimFerret.Lib.Attempt
import SimFerret.Protocol

/-!
# SimFerret.Guest.Runtime — the supervisor of workload processes (`runtime.rs`)

The operating system is a record of tapes, one for each kind of call, each holding what the successive calls
return. Past the end of a tape nothing happens: a read would block, no child has exited, a bounded wait has run
out.  Every loop of the source makes a call in each round, so it is a recursion on a tape.  What an operation
changed before it returns an error stays changed.

* `Invocation`, `Runtime`: the states; a `Sha256` hasher is the bytes it was fed.
* `flushInput`, `drainStream`, `drainBatch`, `reapChildren`, `cleanup`: the parts of `poll`.
* `Runtime.start`, `stdinWrite`, `stdinEof`, `terminate`, `poll`, `shutdown`.
-/

namespace SimFerret.Guest

open Workload

def maxServiceFrames : Nat := 64
def maxServiceBytes : Nat := 64 * 1024

/-! ## The operating system -/

/-- What `read` on an output pipe returns. -/
inductive ReadAnswer where
  /-- Bytes that were in the pipe; the call takes at most what its buffer holds. -/
  | data (bytes : Bytes)
  | endOfFile
  | interrupted
  | wouldBlock
  | failure (error : IoError)
deriving DecidableEq, Repr

/-- What `write` on the input pipe returns. -/
inductive WriteAnswer where
  /-- A number of bytes; the call writes at most what it was given. -/
  | accepted (count : Nat)
  | interrupted
  | wouldBlock
  | failure (error : IoError)
deriving DecidableEq, Repr

/-- A `waitpid` status as the `libc` macros read it. -/
inductive WaitStatus where
  | exited (code : Int)
  | signaled (signal : Int)
  | other
deriving DecidableEq, Repr

/-- How far `start_inner` gets once an invocation was accepted. -/
inductive LaunchAnswer where
  | noRuntimeRoot (error : Text)
  | rootExists
  | noRoot (error : Text)
  | notMaterialized (error : Text)
  | notVerified (failure : LaunchFailure) (detail : Text)
  | notSpawned (failure : LaunchFailure) (detail : Text)
  | spawned (pid : Int)
deriving DecidableEq, Repr

structure Os where
  reads : List ReadAnswer := []
  writes : List WriteAnswer := []
  /-- `waitpid`: the child and its status; no positive identifier is no exited child. -/
  waits : List (Int × WaitStatus) := []
  /-- `poll_once`. -/
  polls : List (IoResult Bool) := []
  /-- `signal_members`. -/
  signals : List (IoResult Unit) := []
  /-- `members_remain`. -/
  members : List (IoResult Bool) := []
  /-- Whether the deadline of the cleanup barrier is still ahead, once for each round. -/
  deadlines : List Bool := []
  launches : List LaunchAnswer := []
  /-- Removals of an invocation root. -/
  removals : List (IoResult Unit) := []
  /-- `configure_network` and `set_outage`. -/
  network : List (IoResult Unit) := []
  /-- `tftp_request`: the response, or an error with its errno. -/
  responses : List (Except (IoError × Option Int) (Text × Text)) := []
  /-- Writes of event frames. -/
  frames : List (IoResult Unit) := []
  /-- The invocation roots on disk. -/
  roots : List Text := []
  /-- What the child's standard input took. -/
  input : Bytes := []
  /-- What it had taken when an end of input closed it. -/
  inputEnd : Option Bytes := none
deriving Repr

/-! ## States -/

structure RuntimeLimits where
  inputBytes : Nat := maxInvocationInputBytes
  outputBytes : Nat := maxInvocationOutputBytes
  inputFrameBytes : Nat := maxStdinFrameBytes
  outputFrameBytes : Nat := maxOutputFrameBytes
deriving DecidableEq, Repr

structure StreamState where
  offset : Nat := 0
  bytes : Nat := 0
  /-- The bytes that the hasher was fed. -/
  hashed : Bytes := []
  eof : Bool := false
deriving DecidableEq, Repr

/-- An invocation; an owned descriptor is whether it is still open. -/
structure Invocation where
  id : Nat
  pid : Int
  stdin : Bool := true
  stdout : Bool := true
  stderr : Bool := true
  stdoutState : StreamState := {}
  stderrState : StreamState := {}
  inputOffset : Nat := 0
  inputBytes : Nat := 0
  /-- Input accepted into the bounded queue but not yet written to the child. -/
  pendingInput : Bytes := []
  eofRequested : Bool := false
  terminating : Bool := false
  sequence : Nat := 0
  frames : Nat := 0
  exit : Option ProcessExit := none
  reaped : Nat := 0
  cleanupComplete : Bool := false
deriving DecidableEq, Repr

def Invocation.state (a : Invocation) : OutputStream → StreamState
  | .stdout => a.stdoutState
  | .stderr => a.stderrState

def Invocation.setState (a : Invocation) (stream : OutputStream) (state : StreamState) : Invocation :=
  match stream with
  | .stdout => { a with stdoutState := state }
  | .stderr => { a with stderrState := state }

/-- Whether the read end of an output pipe is open. -/
def Invocation.isOpen (a : Invocation) : OutputStream → Bool
  | .stdout => a.stdout
  | .stderr => a.stderr

structure Runtime where
  runtimeRoot : Text
  limits : RuntimeLimits := {}
  active : Option Invocation := none
  lastInvocation : Option Nat := none
  pendingRemoval : Option Text := none
deriving Repr

/-- The checks of `validate_limits` on the fields of the model. -/
def validateLimits (limits : RuntimeLimits) : IoResult Unit := do
  require (limits.inputFrameBytes != 0 && limits.inputFrameBytes ≤ maxStdinFrameBytes &&
      limits.outputFrameBytes != 0 && limits.outputFrameBytes ≤ maxOutputFrameBytes)
    (invalid "runtime frame limits must be positive and within the protocol bounds")
  require (limits.inputFrameBytes ≤ limits.inputBytes && limits.outputFrameBytes ≤ limits.outputBytes)
    (invalid "runtime byte limits must cover at least one whole frame")

/-- The runtime behind a template that passed its own checks. -/
def Runtime.new (runtimeRoot : Text) (limits : RuntimeLimits) : IoResult Runtime := do
  validateLimits limits
  pure { runtimeRoot := runtimeRoot, limits := limits }

/-! ## One service of an invocation -/

/-- What the service of an invocation works on. -/
structure Service where
  active : Invocation
  os : Os
  events : List Event := []

abbrev Serve (α : Type) := ExceptT IoError (StateM Service) α

def active : Serve Invocation := fun s => (.ok s.active, s)

def update (f : Invocation → Invocation) : Serve Unit := fun s => (.ok (), { s with active := f s.active })

/-- The loop of `flush_input` that writes the queue: its result, and the queue and the tape behind it. -/
def flushLoop : List WriteAnswer → Bytes → IoResult Unit × Bytes × List WriteAnswer
  | writes, [] => (.ok (), [], writes)
  | [], pending => (.ok (), pending, [])
  | .interrupted :: writes, pending => flushLoop writes pending
  | .wouldBlock :: writes, pending => (.ok (), pending, writes)
  | .failure error :: writes, pending => (.error error, pending, writes)
  | .accepted 0 :: writes, pending => (.error ⟨.writeZero, "workload input pipe closed"⟩, pending, writes)
  | .accepted count :: writes, pending => flushLoop writes (pending.drop count)

/-- The bytes that the pipe takes in this loop. -/
def flushed : List WriteAnswer → Bytes → Bytes
  | _, [] => []
  | [], _ => []
  | .interrupted :: writes, pending => flushed writes pending
  | .accepted (count + 1) :: writes, pending =>
    pending.take (count + 1) ++ flushed writes (pending.drop (count + 1))
  | _ :: _, _ => []

/-- Write as much queued input as the pipe accepts, and close the child's standard input once the queue is empty
and end of input was requested. -/
def flushInput : Serve Unit := fun s =>
  if !s.active.stdin then (.ok (), s)
  else
    let (result, pending, writes) := flushLoop s.os.writes s.active.pendingInput
    let input := s.os.input ++ flushed s.os.writes s.active.pendingInput
    let closes := pending.isEmpty && s.active.eofRequested
    (result, { s with
      active := { s.active with pendingInput := pending, stdin := s.active.stdin && !closes }
      os :=
        { s.os with writes := writes, input := input, inputEnd := if closes then some input else s.os.inputEnd } })

/-- The event of one output frame. -/
def outputEvent (a : Invocation) (stream : OutputStream) (buffer : Bytes) : Event :=
  .workloadOutput a.id stream (a.state stream).offset (a.sequence + 1) (encodeBytes buffer)

/-- The invocation after one output frame. -/
def takeOutput (a : Invocation) (stream : OutputStream) (buffer : Bytes) : Invocation :=
  let state := a.state stream
  { a.setState stream { state with
      offset := state.offset + buffer.length
      bytes := state.bytes + buffer.length
      hashed := state.hashed ++ buffer } with
    sequence := a.sequence + 1
    frames := a.frames + 1 }

/-- The loop of `drain_stream`: the frames and bytes drained so far, and the service behind it. -/
def drainLoop (limits : RuntimeLimits) (stream : OutputStream) (maxFrames maxBytes : Nat) :
    List ReadAnswer → Nat → Nat → Invocation → List Event →
      IoResult (Nat × Nat) × Invocation × List Event × List ReadAnswer
  | reads, drained, size, a, events =>
    if drained < maxFrames ∧ size < maxBytes ∧ min limits.outputFrameBytes (maxBytes - size) ≠ 0 then
      match reads with
      | [] => (.ok (drained, size), a, events, [])
      | .interrupted :: reads => drainLoop limits stream maxFrames maxBytes reads drained size a events
      | .wouldBlock :: reads => (.ok (drained, size), a, events, reads)
      | .failure error :: reads => (.error error, a, events, reads)
      | .endOfFile :: reads =>
        (.ok (drained, size), a.setState stream { a.state stream with eof := true }, events, reads)
      | .data bytes :: reads =>
        let buffer := bytes.take (min limits.outputFrameBytes (maxBytes - size))
        if buffer = [] then
          (.ok (drained, size), a.setState stream { a.state stream with eof := true }, events, reads)
        else if saturatingAdd (a.state stream).bytes buffer.length > limits.outputBytes then
          (.error ⟨.invalidData, "invocation output exceeds the configured bound"⟩, a, events, reads)
        else
          drainLoop limits stream maxFrames maxBytes reads (drained + 1) (size + buffer.length)
            (takeOutput a stream buffer) (events ++ [outputEvent a stream buffer])
    else (.ok (drained, size), a, events, reads)

/-- Drain one stream up to a number of frames and bytes. -/
def drainStream (limits : RuntimeLimits) (stream : OutputStream) (maxFrames maxBytes : Nat) : Serve (Nat × Nat) :=
  fun s =>
    if (s.active.state stream).eof then (.ok (0, 0), s)
    else if !s.active.isOpen stream then
      (.ok (0, 0), { s with active := s.active.setState stream { s.active.state stream with eof := true } })
    else
      let (drained, a, events, reads) :=
        drainLoop limits stream maxFrames maxBytes s.os.reads 0 0 s.active s.events
      (drained, { s with active := a, events := events, os := { s.os with reads := reads } })

/-- One stream's turn in a round of `drain_batch`: the totals behind it, or `none` when the budget is spent. -/
def drainTurn (limits : RuntimeLimits) (stream : OutputStream)
    (frames bytes : Nat) : Serve (Option (Nat × Nat)) := do
  let remainingFrames := maxServiceFrames - frames
  let remainingBytes := maxServiceBytes - bytes
  if remainingFrames = 0 ∨ remainingBytes = 0 then return none
  let (drained, size) ← drainStream limits stream ((remainingFrames + 1) / 2) ((remainingBytes + 1) / 2)
  return some (frames + drained, bytes + size)

/-- The rounds of `drain_batch`.  A round that goes on drained a frame, so there are at most `maxServiceFrames`. -/
def batchLoop (limits : RuntimeLimits) : Nat → Nat → Nat → Serve Unit
  | 0, _, _ => return ()
  | rounds + 1, frames, bytes => do
    let some (frames1, bytes1) ← drainTurn limits .stdout frames bytes | return ()
    let some (frames2, bytes2) ← drainTurn limits .stderr frames1 bytes1 | return ()
    if frames2 = frames then return ()
    batchLoop limits rounds frames2 bytes2

/-- Drain both streams fairly within one bounded batch. -/
def drainBatch (limits : RuntimeLimits) : Serve Unit := batchLoop limits (maxServiceFrames + 1) 0 0

/-- `poll_descriptors` is not empty. -/
def polls (a : Invocation) : Bool :=
  (!a.stdoutState.eof && a.stdout) || (!a.stderrState.eof && a.stderr)

def pollOnce : Serve Bool := fun s =>
  (s.os.polls.headD (.ok false), { s with os := { s.os with polls := s.os.polls.tail } })

/-- Poll the live output pipes once and drain a bounded, fair batch. -/
def drainReady (limits : RuntimeLimits) : Serve Unit := do
  if polls (← active) then
    if !(← pollOnce) then return ()
  drainBatch limits

/-- Record one reaped child: the primary's first status is its exit. -/
def recordReaped (a : Invocation) (pid : Int) (status : WaitStatus) : Invocation :=
  if pid ≠ a.pid ∨ a.exit.isSome then a
  else
    match status with
    | .exited code => { a with exit := some (.exited code) }
    | .signaled signal => { a with exit := some (.signaled signal) }
    | .other => { a with exit := none }

/-- The loop of `reap_children` with its count. -/
def reapLoop : List (Int × WaitStatus) → Nat → Invocation → Nat × Invocation × List (Int × WaitStatus)
  | [], reaped, a => (reaped, a, [])
  | (pid, status) :: waits, reaped, a =>
    if pid ≤ 0 then (reaped, a, waits) else reapLoop waits (reaped + 1) (recordReaped a pid status)

/-- `active.reaped += reap_children(active, scope)`. -/
def reapChildren : Serve Unit := fun s =>
  let (reaped, a, waits) := reapLoop s.os.waits 0 s.active
  (.ok (), { s with active := { a with reaped := a.reaped + reaped }, os := { s.os with waits := waits } })

def signalMembers : Serve Unit := fun s =>
  (s.os.signals.headD (.ok ()), { s with os := { s.os with signals := s.os.signals.tail } })

def membersRemain : Serve Bool := fun s =>
  (s.os.members.headD (.ok false), { s with os := { s.os with members := s.os.members.tail } })

/-- Wait for output readiness or a short timeout; a failed wait is ignored. -/
def waitForOutput : Serve Unit := fun s =>
  (.ok (), if polls s.active then { s with os := { s.os with polls := s.os.polls.tail } } else s)

/-- One round of the cleanup barrier: whether no member remains and both pipes are drained. -/
def barrierRound (limits : RuntimeLimits) : Serve Bool := do
  signalMembers
  reapChildren
  drainBatch limits
  let members ← membersRemain
  let a ← active
  return !members && a.stdoutState.eof && a.stderrState.eof

/-- The rounds of the cleanup barrier, over the answers of its deadline. -/
def barrierLoop (limits : RuntimeLimits) : List Bool → Serve Unit
  | [] => do
    if ← barrierRound limits then return ()
    throw ⟨.timedOut, "the workload cleanup barrier did not complete within its bound"⟩
  | ahead :: deadlines => do
    if ← barrierRound limits then return ()
    modify fun s => { s with os := { s.os with deadlines := deadlines } }
    if !ahead then throw ⟨.timedOut, "the workload cleanup barrier did not complete within its bound"⟩
    waitForOutput
    barrierLoop limits deadlines

/-- The cleanup barrier: kill every remaining member, reap until only the agent remains, and drain both pipes to
end of file; one final reap so that no member is left as a zombie. -/
def barrier (limits : RuntimeLimits) : Serve Unit := do
  update fun a => { a with stdin := false }
  let s ← get
  barrierLoop limits s.os.deadlines
  reapChildren

/-- The service behind a completed barrier: the exit and the cleanup are reported. -/
def Service.complete (sha256 : Sha256) (exit : ProcessExit) (s : Service) : Service :=
  { s with
    active := { s.active with cleanupComplete := true, stdout := false, stderr := false }
    events := s.events ++
      [.workloadExited s.active.id exit s.active.stdoutState.bytes (sha256Hex sha256 s.active.stdoutState.hashed)
          s.active.stderrState.bytes (sha256Hex sha256 s.active.stderrState.hashed) s.active.frames,
        .cleanupComplete s.active.id s.active.reaped] }

/-- Run the barrier and report it; a second call after completion emits nothing. -/
def cleanup (sha256 : Sha256) (limits : RuntimeLimits) : Serve Unit := do
  if (← active).cleanupComplete then return ()
  barrier limits
  match (← active).exit with
  | none => throw ⟨.other, "the workload primary process was not reaped"⟩
  | some exit => modify (Service.complete sha256 exit)

/-- Drain and reap an invocation that has not exited. -/
def advance (limits : RuntimeLimits) : Serve Unit := do
  if (← active).exit.isNone then reapChildren
  if (← active).exit.isNone then
    flushInput
    drainReady limits
    reapChildren

/-- The service of a live invocation by `poll`. -/
def serve (sha256 : Sha256) (limits : RuntimeLimits) : Serve Unit := do
  advance limits
  let a ← active
  if a.exit.isSome && !a.cleanupComplete then cleanup sha256 limits

/-! ## The runtime -/

/-- The state of the runtime and of the operating system around it. -/
abbrev Supervise (α : Type) := ExceptT IoError (StateM (Runtime × Os)) α

/-- `remove_dir_all` of an invocation root; a root that is gone is removed. -/
def removeRoot (os : Os) (path : Text) : IoResult Unit × Os :=
  let gone := { os with removals := os.removals.tail, roots := os.roots.filter (· != path) }
  match os.removals.headD (.ok ()) with
  | .ok () => (.ok (), gone)
  | .error error => if error.kind = .notFound then (.ok (), gone) else (.error error, { os with
      removals := os.removals.tail })

def invocationRoot (rt : Runtime) (invocation : Nat) : Text :=
  rt.runtimeRoot ++ utf8 "/invocation-" ++ decimal invocation

/-- `discard_failed_root`: the launch failure, and the root that could not be removed is remembered. -/
def discardFailedRoot (rt : Runtime) (os : Os) (path : Text) (failure : LaunchFailure) (detail : Text) :
    (LaunchFailure × Text) × Runtime × Os :=
  match removeRoot os path with
  | (.ok (), os) => ((failure, detail), rt, os)
  | (.error error, os) =>
    ((failure, detail ++ "; cannot remove the invocation root " ++ path ++ ": " ++ error.message),
      { rt with pendingRemoval := some path }, os)

/-- What follows the acceptance of an invocation identifier in `start_inner`. -/
def launch (rt : Runtime) (os : Os) (invocation : Nat) (identity : LaunchIdentity) :
    Except (LaunchFailure × Text) Event × Runtime × Os :=
  match validateLaunchIdentity identity with
  | .error error => (.error (.executable, error.message), rt, os)
  | .ok () =>
    let path := invocationRoot rt invocation
    let answer := os.launches.headD (.spawned 1)
    let os := { os with launches := os.launches.tail }
    -- The guard owns the root from the moment it exists.
    let created := { os with roots := os.roots ++ [path] }
    match answer with
    | .noRuntimeRoot error => (.error (.materialization, "cannot create the runtime root: " ++ error), rt, os)
    | .rootExists =>
      (.error (.invocationRepeated, "invocation root " ++ path ++ " already exists"), rt, os)
    | .noRoot error => (.error (.materialization, error), rt, os)
    | .notMaterialized error =>
      let (failed, rt, os) := discardFailedRoot rt created path .materialization error
      (.error failed, rt, os)
    | .notVerified failure detail =>
      let (failed, rt, os) := discardFailedRoot rt created path failure detail
      (.error failed, rt, os)
    | .notSpawned failure detail =>
      let (failed, rt, os) := discardFailedRoot rt created path failure detail
      (.error failed, rt, os)
    | .spawned pid =>
      (.ok (.workloadStarted invocation identity), { rt with active := some { id := invocation, pid := pid } },
        { created with input := [], inputEnd := none })

/-- The part of `start_inner` behind the pending removal. -/
def accept (rt : Runtime) (os : Os) (invocation : Nat) (identity : LaunchIdentity) :
    Except (LaunchFailure × Text) Event × Runtime × Os :=
  if rt.active.isSome then (.error (.invocationActive, "an invocation is already active"), rt, os)
  else match rt.lastInvocation.filter fun last => decide (invocation ≤ last) with
    | some last => (.error (.invocationRepeated, "invocation " ++ decimal invocation ++
        " is not greater than the last accepted invocation " ++ decimal last), rt, os)
    | none => launch { rt with lastInvocation := some invocation } os invocation identity

def startInner (rt : Runtime) (os : Os) (invocation : Nat) (identity : LaunchIdentity) :
    Except (LaunchFailure × Text) Event × Runtime × Os :=
  match rt.pendingRemoval with
  | none => accept rt os invocation identity
  | some path =>
    match removeRoot os path with
    | (.ok (), os) => accept { rt with pendingRemoval := none } os invocation identity
    | (.error error, os) => (.error (.materialization, "the previous invocation root " ++ path ++
        " could not be removed: " ++ error.message), rt, os)

/-- Start one invocation; every failure is a `launch-failed` event. -/
def start (invocation : Nat) (identity : LaunchIdentity) : Supervise (List Event) := fun s =>
  match startInner s.1 s.2 invocation identity with
  | (.ok event, rt, os) => (.ok [event], rt, os)
  | (.error (failure, detail), rt, os) => (.ok [.launchFailed invocation failure detail], rt, os)

def invocationMut (rt : Runtime) (invocation : Nat) : IoResult Invocation :=
  match rt.active with
  | some active =>
    if active.id = invocation then .ok active
    else .error ⟨.invalidInput, "invocation " ++ decimal invocation ++ " does not match the active invocation " ++
      decimal active.id⟩
  | none => .error ⟨.invalidInput, "invocation " ++ decimal invocation ++ " is not active"⟩

/-- `fatal`: a protocol or transport failure kills the invocation; a failed signal is ignored. -/
def fatal (invocation : Nat) (error : IoError) : Supervise (List Event) := fun s =>
  match s.1.active with
  | some active =>
    if active.id = invocation ∧ active.exit.isNone then
      (.error error, s.1, { s.2 with signals := s.2.signals.tail })
    else (.error error, s)
  | none => (.error error, s)

/-- Replace the invocation, flush its input and answer; a failed flush is fatal with the caller's context. -/
def flushActive (active : Invocation) (context : Text) (answer : Invocation → Event) :
    Supervise (List Event) := fun s =>
  match flushInput { active := active, os := s.2 } with
  | (.ok _, service) => (.ok [answer service.active], { s.1 with active := some service.active }, service.os)
  | (.error error, service) =>
    fatal active.id ⟨error.kind, context ++ error.message⟩ ({ s.1 with active := some service.active }, service.os)

/-- The checks of `stdin_write` on the invocation. -/
def checkInput (limits : RuntimeLimits) (active : Invocation) (offset : Nat) (data : Bytes) : IoResult Unit := do
  require (!(active.terminating || active.eofRequested || !active.stdin))
    ⟨.invalidInput, "workload stdin is closed"⟩
  require (active.inputOffset == offset) (invalidData ("stdin offset " ++ decimal offset ++
    " is not contiguous with " ++ decimal active.inputOffset))
  require (saturatingAdd active.inputBytes data.length ≤ limits.inputBytes)
    (invalidData "invocation input exceeds the configured bound")

/-- The data of a stdin frame. -/
def inputData (limits : RuntimeLimits) (bytes : Text) : IoResult Bytes := do
  let data ← decodeBytes bytes limits.inputFrameBytes
  require (!data.isEmpty) (invalidData "a stdin frame must not be empty")
  pure data

/-- Accept one bounded, strictly contiguous stdin frame. -/
def stdinWrite (invocation offset : Nat) (bytes : Text) : Supervise (List Event) := fun s =>
  match inputData s.1.limits bytes with
  | .error error => fatal invocation error s
  | .ok data =>
    match invocationMut s.1 invocation with
    | .error error => (.error error, s)
    | .ok active =>
      match checkInput s.1.limits active offset data with
      | .error error => fatal invocation error s
      | .ok () => flushActive { active with
          inputOffset := active.inputOffset + data.length
          inputBytes := active.inputBytes + data.length
          pendingInput := active.pendingInput ++ data } "cannot write workload input: "
          (fun active => .inputAccepted invocation active.inputOffset data.length false) s

/-- Request end of input. -/
def stdinEof (invocation : Nat) : Supervise (List Event) := fun s =>
  match invocationMut s.1 invocation with
  | .error error => (.error error, s)
  | .ok active =>
    if active.terminating then (.error ⟨.invalidInput, "the invocation is being terminated"⟩, s)
    else if active.eofRequested then (.error ⟨.invalidInput, "end of input was already requested"⟩, s)
    else flushActive { active with eofRequested := true } "cannot flush workload input: "
      (fun active => .inputAccepted invocation active.inputOffset 0 true) s

/-- Request unconditional termination of the invocation. -/
def terminate (invocation : Nat) : Supervise (List Event) := fun s =>
  match invocationMut s.1 invocation with
  | .error error => (.error error, s)
  | .ok active =>
    if active.exit.isSome then (.error ⟨.invalidInput, "the invocation has already exited"⟩, s)
    else
      -- The signal is delivered before the child's standard input is closed.
      match signalMembers { active := { active with terminating := true }, os := s.2 } with
      | (.error error, service) => (.error error, { s.1 with active := some service.active }, service.os)
      | (.ok (), service) => (.ok [.terminationRequested invocation terminationSignal],
          { s.1 with active := some { service.active with pendingInput := [], stdin := false } }, service.os)

/-- A completed barrier releases the single-workload slot once the root is removed. -/
def release (rt : Runtime) (service : Service) : IoResult (List Event) × Runtime × Os :=
  match removeRoot service.os (invocationRoot rt service.active.id) with
  | (.ok (), os) => (.ok service.events, { rt with active := none }, os)
  | (.error error, os) => (.error (invalid ("cannot remove the invocation root " ++
      invocationRoot rt service.active.id ++ ": " ++ error.message)),
        { rt with active := some service.active }, os)

/-- Drain live output and advance the invocation. -/
def poll (sha256 : Sha256) : Supervise (List Event) := fun s =>
  match s.1.active with
  | none => (.ok [], s)
  | some active =>
    match serve sha256 s.1.limits { active := active, os := s.2 } with
    | (.error error, service) => (.error error, { s.1 with active := some service.active }, service.os)
    | (.ok _, service) =>
      if service.active.cleanupComplete then release s.1 service
      else (.ok service.events, { s.1 with active := some service.active }, service.os)

/-- The barrier of `shutdown`: a primary that has not exited is signalled first. -/
def killAndReap (sha256 : Sha256) (limits : RuntimeLimits) : Serve Unit := do
  if (← active).exit.isNone then signalMembers
  cleanup sha256 limits

/-- Terminate and reap any active invocation, then report the barrier. -/
def shutdown (sha256 : Sha256) : Supervise (List Event) := fun s =>
  match s.1.active with
  | none => (.ok [], s)
  | some active =>
    match killAndReap sha256 s.1.limits { active := active, os := s.2 } with
    | (.error error, service) => (.error error, { s.1 with active := some service.active }, service.os)
    | (.ok _, service) => release s.1 service

/-- The digests of what the children of the samples write, and of the empty string. -/
def childSha256 : Sha256 := fun bytes =>
  let hex : Text :=
    if bytes = [] then "e3b0c44298fc1c149afbf4c8996fb92427ae41e4649b934ca495991b7852b855"
    else if bytes = utf8 "hi\n" then "98ea6e4f216f2fb4b69fff9b3a44842c38686ca685f3f55dc48c5d3fb1107be4"
    else []
  match decodePairs hex with
  | .ok digest => digest
  | .error _ => []

end SimFerret.Guest
