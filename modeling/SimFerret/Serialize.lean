import SimFerret.Lib.Json
import SimFerret.Protocol

/-!
# SimFerret.Serialize — the JSON of a frame (`protocol.rs`, `assertions.rs`, `workload/spec.rs`)

What `#[derive(Serialize)]` writes under the `serde` attributes of each type, without blanks.

* `CommandFrame.toJson`, `EventFrame.toJson`: the body of a frame.
* `length_command_le`, `length_commandFrame_le`: the length of a command whose texts are plain and short.
-/

namespace SimFerret

open Json
open Workload (LaunchIdentity)

/-! ## Tags (`rename_all = "snake_case"`) -/

def RequestPhase.tag : RequestPhase → Text
  | .preOutage => "pre_outage"
  | .outage => "outage"
  | .recovery => "recovery"

def LaunchFailure.tag : LaunchFailure → Text
  | .noRuntime => "no_runtime"
  | .invocationActive => "invocation_active"
  | .invocationRepeated => "invocation_repeated"
  | .materialization => "materialization"
  | .executable => "executable"
  | .workingDirectory => "working_directory"
  | .pipe => "pipe"
  | .fork => "fork"
  | .setup => "setup"

def RequestError.tag : RequestError → Text
  | .administrativeProhibited => "administrative_prohibited"
  | .transport => "transport"
  | .invalidResponse => "invalid_response"

def AssertionName.tag : AssertionName → Text
  | .safety => "safety"
  | .controlledOutage => "controlled_outage"
  | .restoration => "restoration"
  | .boundedRecovery => "bounded_recovery"
  | .processSafety => "process_safety"
  | .responseIntegrity => "response_integrity"

/-! ## Values -/

/-- `null` for what is absent. -/
def optionJson {α : Type} (value : α → Text) : Option α → Text
  | none => "null"
  | some a => value a

section

variable (json : Literals)

def launchJson (launch : LaunchIdentity) : Text := object [
  ("executable", json.literal launch.executable),
  ("arguments", array (launch.arguments.map json.literal)),
  ("environment", array (launch.environment.map json.literal)),
  ("working_directory", json.literal launch.workingDirectory),
  ("uid", decimal launch.uid),
  ("gid", decimal launch.gid)]

/-- The fields of a command, behind its tag. -/
def Command.fields : Command → List (Text × Text)
  | .configureNetwork interface guestCidr gateway =>
    [("interface", json.literal interface), ("guest_cidr", json.literal guestCidr),
      ("gateway", json.literal gateway)]
  | .activateOutage peerCidr => [("peer_cidr", json.literal peerCidr)]
  | .restoreNetwork peerCidr => [("peer_cidr", json.literal peerCidr)]
  | .request requestId payload phase =>
    [("request_id", json.literal requestId), ("payload", json.literal payload), ("phase", json.literal phase.tag)]
  | .check outageEventBound livenessEventBound =>
    [("outage_event_bound", decimal outageEventBound), ("liveness_event_bound", decimal livenessEventBound)]
  | .start invocation launch => [("invocation", decimal invocation), ("launch", launchJson json launch)]
  | .stdinWrite invocation offset bytes =>
    [("invocation", decimal invocation), ("offset", decimal offset), ("bytes", json.literal bytes)]
  | .stdinEof invocation => [("invocation", decimal invocation)]
  | .terminate invocation => [("invocation", decimal invocation)]
  | .shutdown => []

/-- `tag = "type"`. -/
def Command.toJson (command : Command) : Text :=
    object (("type", json.literal command.kind) :: command.fields json)

def CommandFrame.toJson (frame : CommandFrame) : Text := object [
  ("protocol_version", decimal frame.protocolVersion),
  ("command_id", decimal frame.commandId),
  ("command", frame.command.toJson json)]

def AssertionResult.toJson (result : AssertionResult) : Text := object [
  ("name", json.literal result.name.tag),
  ("passed", boolText result.passed),
  ("detail", json.literal result.detail)]

def AssertionReport.toJson (report : AssertionReport) : Text := object [
  ("passed", boolText report.passed),
  ("assertions", array (report.assertions.map (AssertionResult.toJson json)))]

/-- `tag = "kind"`. -/
def ProcessExit.toJson : ProcessExit → Text
  | .exited code => object [("kind", json.literal "exited"), ("code", decimalInt code)]
  | .signaled signal => object [("kind", json.literal "signaled"), ("signal", decimalInt signal)]

/-- The fields of an event, behind its tag. -/
def Event.fields : Event → List (Text × Text)
  | .agentReady => []
  | .networkConfigured interface guestCidr gateway =>
    [("interface", json.literal interface), ("guest_cidr", json.literal guestCidr),
      ("gateway", json.literal gateway)]
  | .outageActivated peerCidr rule => [("peer_cidr", json.literal peerCidr), ("rule", json.literal rule)]
  | .networkRestored peerCidr => [("peer_cidr", json.literal peerCidr)]
  | .requestAttempted requestId payload phase =>
    [("request_id", json.literal requestId), ("payload", json.literal payload), ("phase", json.literal phase.tag)]
  | .requestSucceeded requestId requestPayload responseId responsePayload phase =>
    [("request_id", json.literal requestId), ("request_payload", json.literal requestPayload),
      ("response_id", json.literal responseId), ("response_payload", json.literal responsePayload),
      ("phase", json.literal phase.tag)]
  | .requestUnavailable requestId phase error errno =>
    [("request_id", json.literal requestId), ("phase", json.literal phase.tag), ("error", json.literal error.tag),
      ("errno", optionJson decimalInt errno)]
  | .assertionsEvaluated report => [("report", report.toJson json)]
  | .workloadStarted invocation launch => [("invocation", decimal invocation), ("launch", launchJson json launch)]
  | .inputAccepted invocation offset bytes eof =>
    [("invocation", decimal invocation), ("offset", decimal offset), ("bytes", decimal bytes),
      ("eof", boolText eof)]
  | .terminationRequested invocation signal => [("invocation", decimal invocation), ("signal", decimalInt signal)]
  | .workloadOutput invocation stream offset sequence bytes =>
    [("invocation", decimal invocation), ("stream", json.literal stream.name), ("offset", decimal offset),
      ("sequence", decimal sequence), ("bytes", json.literal bytes)]
  | .workloadExited invocation exit stdoutBytes stdoutSha256 stderrBytes stderrSha256 frames =>
    [("invocation", decimal invocation), ("exit", exit.toJson json), ("stdout_bytes", decimal stdoutBytes),
      ("stdout_sha256", json.literal stdoutSha256), ("stderr_bytes", decimal stderrBytes),
      ("stderr_sha256", json.literal stderrSha256), ("frames", decimal frames)]
  | .launchFailed invocation failure detail =>
    [("invocation", decimal invocation), ("failure", json.literal failure.tag), ("detail", json.literal detail)]
  | .cleanupComplete invocation reaped => [("invocation", decimal invocation), ("reaped", decimal reaped)]
  | .agentStopped => []

def Event.toJson (event : Event) : Text := object (("type", json.literal event.kind) :: event.fields json)

/-- A diagnostic field is left out when it is `None`. -/
def DiagnosticFields.toJson (diagnostics : DiagnosticFields) : Text := object (
  (diagnostics.guestPid.map fun pid => (utf8 "guest_pid", decimal pid)).toList ++
  (diagnostics.hostReceivedAtUnixNanos.map fun nanos =>
    (utf8 "host_received_at_unix_nanos", decimal nanos)).toList ++
  (diagnostics.temporaryPath.map fun path => (utf8 "temporary_path", json.literal path)).toList)

/-- The diagnostics are left out when they are empty. -/
def EventFrame.toJson (frame : EventFrame) : Text := object (
  ("protocol_version", decimal frame.protocolVersion) ::
  ("event_id", decimal frame.eventId) ::
  ("command_id", decimal frame.commandId) ::
  ("event", frame.event.toJson json) ::
  if frame.diagnostics = {} then [] else [("diagnostics", frame.diagnostics.toJson json)])

end

/-! ## Lengths -/

/-- A smaller number is no longer. -/
theorem length_decimal_mono {m n : Nat} (h : m ≤ n) : (decimal m).length ≤ (decimal n).length := by
  have hpos : 0 < (Nat.toDigits 10 n).length := Nat.length_toDigits_pos
  have hn : n < 10 ^ (Nat.toDigits 10 n).length :=
    (Nat.length_toDigits_le_iff (by omega) hpos).mp (Nat.le_refl _)
  rw [decimal, decimal, List.length_map, List.length_map]
  exact (Nat.length_toDigits_le_iff (by omega) hpos).mpr (h.trans_lt hn)

theorem length_decimal_le {n : Nat} (h : n < u64Size) : (decimal n).length ≤ 20 := by
  rw [decimal, List.length_map]
  refine (Nat.length_toDigits_le_iff (by omega) (by omega)).mpr (h.trans ?_)
  decide

section

variable {json : Literals}

/-- The length of a field: that of a `u64`, or that of a plain text and its quotes. -/
inductive ShortField (json : Literals) (limit : Nat) : Text × Text → Prop where
  | number {key : Text} {n : Nat} (hkey : key.length ≤ 20)
    (h : n < u64Size) : ShortField json limit (key, decimal n)
  | text {key text : Text} (hkey : key.length ≤ 20) (hplain : Json.Plain text) (h : text.length ≤ limit) :
      ShortField json limit (key, json.literal text)

theorem ShortField.length_le {limit : Nat} {field : Text × Text} (h : ShortField json limit field) :
    field.1.length + field.2.length ≤ limit + 40 := by
  cases h with
  | @number key n hkey h =>
    have := length_decimal_le h
    show key.length + (decimal n).length ≤ limit + 40
    omega
  | @text key text hkey hplain h =>
    show key.length + (json.literal text).length ≤ limit + 40
    rw [length_literal json hplain]
    omega

/-- Hexadecimal digits are plain. -/
theorem plain_encodeBytes (bytes : Bytes) : Json.Plain (encodeBytes bytes) := by
  have hall : ∀ n : Fin 256,
      Json.Plain [nibbleDigit (UInt8.ofFin n >>> 4), nibbleDigit (UInt8.ofFin n &&& 0xf)] := by decide +kernel
  intro b hb
  obtain ⟨byte, -, hb⟩ := List.mem_flatMap.mp hb
  exact hall byte.toFin b hb

theorem plain_kind (command : Command) : Json.Plain command.kind ∧ command.kind.length ≤ 17 := by
  cases command <;> rw [Command.kind] <;> decide

theorem length_fields_le (command : Command) : (command.fields json).length ≤ 3 := by
  cases command <;> simp [Command.fields]

/-- The length of a command of short fields. -/
theorem length_command_le {limit : Nat} {command : Command}
    (h : ∀ field ∈ command.fields json, ShortField json limit field)
    : (command.toJson json).length ≤ 4 * (limit + 45) := by
  have hfew : (command.fields json).length ≤ 3 := length_fields_le command
  obtain ⟨hplain, hkind⟩ := plain_kind command
  have hle : (command.toJson json).length ≤ 2 + ((command.fields json).length + 1) * (limit + 40 + 4) := by
    refine object_le fun field hfield => ?_
    rcases List.mem_cons.mp hfield with rfl | hfield
    · have htag : (utf8 "type").length = 4 := by decide
      show (utf8 "type").length + (json.literal command.kind).length ≤ limit + 40
      rw [htag, length_literal json hplain]
      omega
    · exact (h field hfield).length_le
  have hfour : ((command.fields json).length + 1) * (limit + 40 + 4) ≤ 4 * (limit + 40 + 4) :=
    Nat.mul_le_mul_right _ (Nat.succ_le_succ hfew)
  omega

/-- A frame is no longer than one with larger numbers and no shorter a command. -/
theorem length_commandFrame_mono {frame frame' : CommandFrame}
    (hversion : frame.protocolVersion ≤ frame'.protocolVersion) (hid : frame.commandId ≤ frame'.commandId)
    (hcommand : (frame.command.toJson json).length ≤ (frame'.command.toJson json).length) :
    (frame.toJson json).length ≤ (frame'.toJson json).length :=
  object_mono (.cons ⟨rfl, length_decimal_mono hversion⟩
    (.cons ⟨rfl, length_decimal_mono hid⟩ (.cons ⟨rfl, hcommand⟩ .nil)))

/-- The length of a frame around a command. -/
theorem length_commandFrame_le {limit : Nat} {frame : CommandFrame} (hversion : frame.protocolVersion < u64Size)
    (hid : frame.commandId < u64Size) (hcommand : (frame.command.toJson json).length ≤ limit) :
    (frame.toJson json).length ≤ 3 * (limit + 41) := by
  have hle : (frame.toJson json).length ≤ 2 + 3 * (limit + 36 + 4) := by
    have hkeys : (utf8 "protocol_version").length = 16 ∧ (utf8 "command_id").length = 10 ∧
        (utf8 "command").length = 7 := by decide
    have hversionLength := length_decimal_le hversion
    have hidLength := length_decimal_le hid
    refine object_le fun field hfield => ?_
    rcases List.mem_cons.mp hfield with rfl | hfield
    · show (utf8 "protocol_version").length + (decimal frame.protocolVersion).length ≤ limit + 36
      omega
    rcases List.mem_cons.mp hfield with rfl | hfield
    · show (utf8 "command_id").length + (decimal frame.commandId).length ≤ limit + 36
      omega
    · obtain rfl := List.mem_singleton.mp hfield
      show (utf8 "command").length + (frame.command.toJson json).length ≤ limit + 36
      omega
  omega

/-- A frame without diagnostics is no longer than one with larger numbers and no shorter an event. -/
theorem length_eventFrame_mono {version eventId eventId' commandId commandId' : Nat} {event event' : Event}
    (heventId : eventId ≤ eventId') (hcommandId : commandId ≤ commandId')
    (hevent : (event.toJson json).length ≤ (event'.toJson json).length) :
    ((⟨version, eventId, commandId, event, {}⟩ : EventFrame).toJson json).length ≤
      ((⟨version, eventId', commandId', event', {}⟩ : EventFrame).toJson json).length := by
  unfold EventFrame.toJson
  rw [if_pos rfl]
  exact object_mono (.cons ⟨rfl, Nat.le_refl _⟩ (.cons ⟨rfl, length_decimal_mono heventId⟩
    (.cons ⟨rfl, length_decimal_mono hcommandId⟩ (.cons ⟨rfl, hevent⟩ .nil))))

end

end SimFerret
