import SimFerret.Workload.Spec

/-!
# SimFerret.Protocol — commands, events and the hexadecimal byte codec (`protocol.rs`)

The frames that the host and the guest exchange, the report of `assertions.rs` that one of them carries, and the
codec of the byte strings inside them.

* `decodeBytes_encodeBytes`: what the guest encodes, the host decodes.
-/

namespace SimFerret

open Workload (LaunchIdentity)

def protocolVersion : Nat := 1
def maxFrameLength : Nat := 1024 * 1024
def maxRequestDataLength : Nat := 64 * 1024

/-- The largest byte string one `stdin-write` command may carry. -/
def maxStdinFrameBytes : Nat := 4096
/-- The largest byte string one output frame may carry. -/
def maxOutputFrameBytes : Nat := 4096
def maxInvocationInputBytes : Nat := 16 * 2 ^ 20
def maxInvocationOutputBytes : Nat := 16 * 2 ^ 20
/-- `SIGKILL`. -/
def terminationSignal : Int := 9

inductive RequestPhase where
  | preOutage | outage | recovery
deriving DecidableEq, Repr

inductive Command where
  | configureNetwork (interface guestCidr gateway : Text)
  | activateOutage (peerCidr : Text)
  | restoreNetwork (peerCidr : Text)
  | request (requestId payload : Text) (phase : RequestPhase)
  | check (outageEventBound livenessEventBound : Nat)
  | start (invocation : Nat) (launch : LaunchIdentity)
  | stdinWrite (invocation offset : Nat) (bytes : Text)
  | stdinEof (invocation : Nat)
  | terminate (invocation : Nat)
  | shutdown
deriving DecidableEq, Repr

structure CommandFrame where
  protocolVersion : Nat
  commandId : Nat
  command : Command
deriving DecidableEq, Repr

inductive OutputStream where
  | stdout | stderr
deriving DecidableEq, Repr

def OutputStream.name : OutputStream → Text
  | .stdout => "stdout"
  | .stderr => "stderr"

inductive ProcessExit where
  | exited (code : Int)
  | signaled (signal : Int)
deriving DecidableEq, Repr

/-- Typed reasons a workload child could not be launched. -/
inductive LaunchFailure where
  | noRuntime | invocationActive | invocationRepeated | materialization | executable
  | workingDirectory | pipe | fork | setup
deriving DecidableEq, Repr

inductive RequestError where
  | administrativeProhibited | transport | invalidResponse
deriving DecidableEq, Repr

/-! ## Reports (`assertions.rs`) -/

inductive AssertionName where
  | safety | controlledOutage | restoration | boundedRecovery | processSafety | responseIntegrity
deriving DecidableEq, Repr

structure AssertionResult where
  name : AssertionName
  passed : Bool
  detail : Text
deriving DecidableEq, Repr

structure AssertionReport where
  passed : Bool
  assertions : List AssertionResult
deriving DecidableEq, Repr

/-- The assertion names a network-fixture run reports, in order. -/
def networkProfile : List AssertionName := [.safety, .controlledOutage, .restoration, .boundedRecovery]

/-- The assertion names a workload-driven run reports, in order. -/
def workloadProfile : List AssertionName :=
  [.processSafety, .responseIntegrity, .controlledOutage, .restoration, .boundedRecovery]

/-! ## Events -/

inductive Event where
  | agentReady
  | networkConfigured (interface guestCidr gateway : Text)
  | outageActivated (peerCidr rule : Text)
  | networkRestored (peerCidr : Text)
  | requestAttempted (requestId payload : Text) (phase : RequestPhase)
  | requestSucceeded (requestId requestPayload responseId responsePayload : Text) (phase : RequestPhase)
  | requestUnavailable (requestId : Text) (phase : RequestPhase) (error : RequestError) (errno : Option Int)
  | assertionsEvaluated (report : AssertionReport)
  | workloadStarted (invocation : Nat) (launch : LaunchIdentity)
  | inputAccepted (invocation offset bytes : Nat) (eof : Bool)
  | terminationRequested (invocation : Nat) (signal : Int)
  | workloadOutput (invocation : Nat) (stream : OutputStream) (offset sequence : Nat) (bytes : Text)
  | workloadExited (invocation : Nat) (exit : ProcessExit) (stdoutBytes : Nat) (stdoutSha256 : Text)
      (stderrBytes : Nat) (stderrSha256 : Text) (frames : Nat)
  | launchFailed (invocation : Nat) (failure : LaunchFailure) (detail : Text)
  | cleanupComplete (invocation reaped : Nat)
  | agentStopped
deriving DecidableEq, Repr

/-- The non-semantic fields of a frame. -/
structure DiagnosticFields where
  guestPid : Option Nat := none
  hostReceivedAtUnixNanos : Option Nat := none
  temporaryPath : Option Text := none
deriving DecidableEq, Repr

structure EventFrame where
  protocolVersion : Nat
  eventId : Nat
  commandId : Nat
  event : Event
  diagnostics : DiagnosticFields := {}
deriving DecidableEq, Repr

structure NormalizedEvent where
  protocolVersion : Nat
  eventId : Nat
  commandId : Nat
  event : Event
deriving DecidableEq, Repr

/-- Removes the non-semantic fields. -/
def EventFrame.normalize (frame : EventFrame) : NormalizedEvent :=
  ⟨frame.protocolVersion, frame.eventId, frame.commandId, frame.event⟩

/-! ## Names and coordinates -/

def Command.kind : Command → Text
  | .configureNetwork .. => "configure_network"
  | .activateOutage .. => "activate_outage"
  | .restoreNetwork .. => "restore_network"
  | .request .. => "request"
  | .check .. => "check"
  | .start .. => "start"
  | .stdinWrite .. => "stdin_write"
  | .stdinEof .. => "stdin_eof"
  | .terminate .. => "terminate"
  | .shutdown => "shutdown"

def Event.kind : Event → Text
  | .agentReady => "agent_ready"
  | .networkConfigured .. => "network_configured"
  | .outageActivated .. => "outage_activated"
  | .networkRestored .. => "network_restored"
  | .requestAttempted .. => "request_attempted"
  | .requestSucceeded .. => "request_succeeded"
  | .requestUnavailable .. => "request_unavailable"
  | .assertionsEvaluated .. => "assertions_evaluated"
  | .workloadStarted .. => "workload_started"
  | .inputAccepted .. => "input_accepted"
  | .terminationRequested .. => "termination_requested"
  | .workloadOutput .. => "workload_output"
  | .workloadExited .. => "workload_exited"
  | .launchFailed .. => "launch_failed"
  | .cleanupComplete .. => "cleanup_complete"
  | .agentStopped => "agent_stopped"

/-- A signed decimal. -/
def decimalInt (n : Int) : Text := if n < 0 then "-" ++ decimal n.natAbs else decimal n.natAbs

def boolText (b : Bool) : Text := if b then "true" else "false"

/-- `{:?}` of `LaunchFailure`. -/
def launchFailureDebug : LaunchFailure → Text
  | .noRuntime => "NoRuntime"
  | .invocationActive => "InvocationActive"
  | .invocationRepeated => "InvocationRepeated"
  | .materialization => "Materialization"
  | .executable => "Executable"
  | .workingDirectory => "WorkingDirectory"
  | .pipe => "Pipe"
  | .fork => "Fork"
  | .setup => "Setup"

/-- `{:?}` of `RequestPhase`. -/
def requestPhaseDebug : RequestPhase → Text
  | .preOutage => "PreOutage"
  | .outage => "Outage"
  | .recovery => "Recovery"

/-- `{:?}` of `RequestError`. -/
def requestErrorDebug : RequestError → Text
  | .administrativeProhibited => "AdministrativeProhibited"
  | .transport => "Transport"
  | .invalidResponse => "InvalidResponse"

/-- `{:?}` of `Option<i32>`. -/
def errnoDebug : Option Int → Text
  | none => "None"
  | some errno => "Some(" ++ decimalInt errno ++ ")"

/-- The value-free coordinates of one event. -/
def Event.describe : Event → Text
  | .workloadStarted invocation _ => "workload_started(invocation " ++ decimal invocation ++ ")"
  | .inputAccepted invocation offset bytes eof =>
    "input_accepted(invocation " ++ decimal invocation ++ ", offset " ++
      decimal offset ++ ", bytes " ++ decimal bytes ++ ", eof " ++ boolText eof ++ ")"
  | .terminationRequested invocation signal =>
    "termination_requested(invocation " ++ decimal invocation ++ ", signal " ++ decimalInt signal ++ ")"
  | .workloadOutput invocation stream offset sequence bytes =>
    "workload_output(invocation " ++ decimal invocation ++
      ", stream " ++ stream.name ++ ", offset " ++ decimal offset ++ ", sequence " ++ decimal sequence ++
      ", hex_bytes " ++ decimal bytes.length ++ ")"
  | .workloadExited invocation _ stdoutBytes _ stderrBytes _ frames => "workload_exited(invocation " ++
      decimal invocation ++ ", stdout_bytes " ++ decimal stdoutBytes ++ ", stderr_bytes " ++ decimal stderrBytes ++
      ", frames " ++ decimal frames ++ ")"
  | .launchFailed invocation failure _ =>
    "launch_failed(invocation " ++ decimal invocation ++ ", failure " ++ launchFailureDebug failure ++ ")"
  | .cleanupComplete invocation reaped =>
    "cleanup_complete(invocation " ++ decimal invocation ++ ", reaped " ++ decimal reaped ++ ")"
  | .requestAttempted _ _ phase => "request_attempted(phase " ++ requestPhaseDebug phase ++ ")"
  | .requestSucceeded _ _ _ _ phase => "request_succeeded(phase " ++ requestPhaseDebug phase ++ ")"
  | .requestUnavailable _ phase error errno => "request_unavailable(phase " ++ requestPhaseDebug phase ++
      ", error " ++ requestErrorDebug error ++ ", errno " ++ errnoDebug errno ++ ")"
  | .assertionsEvaluated report => "assertions_evaluated(passed " ++ boolText report.passed ++ ")"
  | event => event.kind

def requireVersion (version : Nat) : IoResult Unit :=
  require (version == protocolVersion) (invalidData ("unsupported protocol version " ++ decimal version))

/-! ## The byte codec -/

/-- The hexadecimal digit of a nibble. -/
def nibbleDigit (nibble : UInt8) : UInt8 := if nibble < 10 then nibble + 48 else nibble + 87

/-- `hex` of `tree.rs` and `encode_bytes`: the lowercase hexadecimal form of exact bytes. -/
def encodeBytes (bytes : Bytes) : Text :=
  bytes.flatMap fun byte : UInt8 => [nibbleDigit (byte >>> 4), nibbleDigit (byte &&& 0xf)]

/-- `Sha256::digest`, the digest function of the `sha2` crate. -/
abbrev Sha256 := Bytes → Bytes

/-- `sha256` of `checker.rs` and `sha256_bytes` of `tree.rs`: the digest in lowercase hexadecimal. -/
def sha256Hex (sha256 : Sha256) (bytes : Bytes) : Text := encodeBytes (sha256 bytes)

def hexDigit (byte : UInt8) : IoResult UInt8 :=
  if 48 ≤ byte && byte ≤ 57 then .ok (byte - 48)
  else if 97 ≤ byte && byte ≤ 102 then .ok (byte - 97 + 10)
  else .error (invalidData "byte frame contains a non-hexadecimal character")

/-- The loop of `decode_bytes` over the pairs of digits. -/
def decodePairs : Text → IoResult Bytes
  | high :: low :: rest => do
    let high ← hexDigit high
    let low ← hexDigit low
    let bytes ← decodePairs rest
    pure (((high <<< 4) ||| low) :: bytes)
  | _ => .ok []

/-- Decode the lowercase hexadecimal form of at most `limit` exact bytes. -/
def decodeBytes (text : Text) (limit : Nat) : IoResult Bytes :=
  if text.length % 2 ≠ 0 ∨ text.length > min (limit * 2) (u64Size - 1) then
    .error (invalidData ("byte frame must encode at most " ++ decimal limit ++ " bytes"))
  else decodePairs text

theorem length_encodeBytes : ∀ bytes : Bytes, (encodeBytes bytes).length = 2 * bytes.length
  | [] => rfl
  | byte :: rest => by
    have ih := length_encodeBytes rest
    simp only [encodeBytes, List.flatMap_cons, List.length_append, List.length_cons, List.length_nil] at ih ⊢
    omega

/-- The two digits of a byte decode to it. -/
theorem hexDigit_nibbles (byte : UInt8) :
    hexDigit (nibbleDigit (byte >>> 4)) = .ok (byte >>> 4) ∧
      hexDigit (nibbleDigit (byte &&& 0xf)) = .ok (byte &&& 0xf) ∧
      ((byte >>> 4) <<< 4) ||| (byte &&& 0xf) = byte := by
  have hall : ∀ n : Fin 256, hexDigit (nibbleDigit (UInt8.ofFin n >>> 4)) = .ok (UInt8.ofFin n >>> 4) ∧
      hexDigit (nibbleDigit (UInt8.ofFin n &&& 0xf)) = .ok (UInt8.ofFin n &&& 0xf) ∧
      ((UInt8.ofFin n >>> 4) <<< 4) ||| (UInt8.ofFin n &&& 0xf) = UInt8.ofFin n := by
    decide +kernel
  exact hall byte.toFin

theorem decodePairs_encodeBytes : ∀ bytes : Bytes, decodePairs (encodeBytes bytes) = .ok bytes
  | [] => rfl
  | byte :: rest => by
    obtain ⟨hhigh, hlow, hbyte⟩ := hexDigit_nibbles byte
    have ih := decodePairs_encodeBytes rest
    show decodePairs (nibbleDigit (byte >>> 4) :: nibbleDigit (byte &&& 0xf) :: encodeBytes rest) = _
    rw [decodePairs, hhigh, hlow, ih]
    show Except.ok ((((byte >>> 4) <<< 4) ||| (byte &&& 0xf)) :: rest) = _
    rw [hbyte]

/-- A byte string whose digits fit the address space decodes within its bound. -/
theorem decodeBytes_of_le {bytes : Bytes} {limit : Nat} (h : bytes.length ≤ limit)
    (hfits : 2 * bytes.length < u64Size) : decodeBytes (encodeBytes bytes) limit = .ok bytes := by
  have hlen := length_encodeBytes bytes
  unfold decodeBytes
  rw [if_neg (by omega), decodePairs_encodeBytes]

/-- **What the guest encodes, the host decodes.** -/
theorem decodeBytes_encodeBytes {bytes : Bytes} {limit : Nat} (h : bytes.length ≤ limit)
    (hlimit : limit * 2 < u64Size) : decodeBytes (encodeBytes bytes) limit = .ok bytes :=
  decodeBytes_of_le h (by omega)

theorem decodeBytes_long {bytes : Bytes} {limit : Nat} (h : limit < bytes.length) :
    decodeBytes (encodeBytes bytes) limit =
      .error (invalidData ("byte frame must encode at most " ++ decimal limit ++ " bytes")) := by
  have hlen := length_encodeBytes bytes
  unfold decodeBytes
  rw [if_pos (by omega)]

/-- A digit that is read is the digit of its value. -/
theorem nibbleDigit_hexDigit {byte nibble : UInt8} (h : hexDigit byte = .ok nibble) :
    nibble < 16 ∧ nibbleDigit nibble = byte := by
  have hall : ∀ n : Fin 256, (hexDigit (UInt8.ofFin n)).toOption.all
      (fun nibble => nibble < 16 && nibbleDigit nibble == UInt8.ofFin n) = true := by
    decide +kernel
  have hbyte := hall byte.toFin
  rw [UInt8.ofFin_toFin, h] at hbyte
  have hboth : (decide (nibble < 16) && nibbleDigit nibble == byte) = true := hbyte
  simpa using hboth

theorem nibbles_of_byte {high low : UInt8} (hhigh : high < 16) (hlow : low < 16) :
    ((high <<< 4) ||| low) >>> 4 = high ∧ ((high <<< 4) ||| low) &&& 0xf = low := by
  have hall : ∀ h l : Fin 16, ((UInt8.ofNat h <<< 4) ||| UInt8.ofNat l) >>> 4 = UInt8.ofNat h ∧
      ((UInt8.ofNat h <<< 4) ||| UInt8.ofNat l) &&& 0xf = UInt8.ofNat l := by
    decide +kernel
  have hboth := hall ⟨high.toNat, hhigh⟩ ⟨low.toNat, hlow⟩
  simpa using hboth

/-- Only the encoding of a byte string decodes to it. -/
theorem encodeBytes_decodePairs : ∀ {text : Text} {bytes : Bytes}, text.length % 2 = 0 →
    decodePairs text = .ok bytes → encodeBytes bytes = text
  | [], bytes, _, h => by
    cases h
    rfl
  | [_], _, hlen, _ => absurd hlen Nat.one_ne_zero
  | high :: low :: rest, bytes, hlen, h => by
    rw [decodePairs] at h
    obtain ⟨first, hfirst, h⟩ := bind_eq_ok.mp h
    obtain ⟨second, hsecond, h⟩ := bind_eq_ok.mp h
    obtain ⟨more, hmore, h⟩ := bind_eq_ok.mp h
    rw [pure_eq_ok] at h
    subst h
    obtain ⟨hhigh, hhighDigit⟩ := nibbleDigit_hexDigit hfirst
    obtain ⟨hlow, hlowDigit⟩ := nibbleDigit_hexDigit hsecond
    obtain ⟨hup, hdown⟩ := nibbles_of_byte hhigh hlow
    have hrest : rest.length % 2 = 0 := by
      simp only [List.length_cons] at hlen
      omega
    have ih := encodeBytes_decodePairs hrest hmore
    show nibbleDigit (((first <<< 4) ||| second) >>> 4) :: nibbleDigit (((first <<< 4) ||| second) &&& 0xf) ::
      encodeBytes more = _
    rw [hup, hdown, hhighDigit, hlowDigit, ih]

/-- A text that is accepted is the encoding of at most `limit` bytes. -/
theorem decodeBytes_ok {text : Text} {limit : Nat} {bytes : Bytes} (h : decodeBytes text limit = .ok bytes) :
    encodeBytes bytes = text ∧ bytes.length ≤ limit := by
  unfold decodeBytes at h
  split at h
  · cases h
  · rename_i hguard
    rw [not_or, not_not] at hguard
    have hencoded := encodeBytes_decodePairs hguard.1 h
    have hlen := length_encodeBytes bytes
    rw [hencoded] at hlen
    exact ⟨hencoded, by omega⟩

/-- **The byte codec is canonical.** Every byte string decodes within its bound and no bound below its length;
only the encoding of a byte string decodes to it. A text in memory is shorter than the address space. -/
theorem byteCodec_canonical :
    (∀ (bytes : Bytes) (limit : Nat), (encodeBytes bytes).length < u64Size →
      (bytes.length ≤ limit → decodeBytes (encodeBytes bytes) limit = .ok bytes) ∧
      (limit < bytes.length → ∃ error, decodeBytes (encodeBytes bytes) limit = .error error)) ∧
    (∀ (text : Text) (limit : Nat) (bytes : Bytes), decodeBytes text limit = .ok bytes →
      encodeBytes bytes = text ∧ bytes.length ≤ limit) ∧
    (∀ (text : Text) (limit : Nat), text.length < u64Size →
      ((∃ bytes, decodeBytes text limit = .ok bytes) ↔ ∃ bytes, text = encodeBytes bytes ∧ bytes.length ≤ limit)) ∧
    ∀ (text text' : Text) (limit limit' : Nat) (bytes : Bytes), decodeBytes text limit = .ok bytes →
      decodeBytes text' limit' = .ok bytes → text = text' := by
  refine ⟨fun bytes limit hfits => ⟨fun hle => ?_, fun hlt => ⟨_, decodeBytes_long hlt⟩⟩, fun text limit bytes h =>
    decodeBytes_ok h, fun text limit hfits => ⟨?_, ?_⟩, fun text text' limit limit' bytes h h' => ?_⟩
  · rw [length_encodeBytes] at hfits
    exact decodeBytes_of_le hle hfits
  · rintro ⟨bytes, h⟩
    obtain ⟨hencoded, hle⟩ := decodeBytes_ok h
    exact ⟨bytes, hencoded.symm, hle⟩
  · rintro ⟨bytes, rfl, hle⟩
    rw [length_encodeBytes] at hfits
    exact ⟨bytes, decodeBytes_of_le hle hfits⟩
  · rw [← (decodeBytes_ok h).1, (decodeBytes_ok h').1]

theorem byteCodec_canonical_sample : decodeBytes (encodeBytes [0, 0xab]) 2 = .ok [0, 0xab] ∧
    (∃ error, decodeBytes (encodeBytes [0, 0xab]) 1 = .error error) ∧ encodeBytes [0xab] = "ab" := by
  obtain ⟨hcodec, hdecoded, -, -⟩ := byteCodec_canonical
  obtain ⟨hin, hout⟩ := hcodec [0, 0xab] 2 (by decide)
  exact ⟨hin (by decide), (hcodec [0, 0xab] 1 (by decide)).2 (by decide), (hdecoded "ab" 1 [0xab] (by rfl)).1⟩

end SimFerret
