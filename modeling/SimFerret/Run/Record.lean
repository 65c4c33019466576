import SimFerret.Driver.Preflight
import SimFerret.Driver.Recorded
import SimFerret.Run.Artifacts
import SimFerret.Store.Publish
import SimFerret.Workload.Elf
import SimFerret.Workload.Image

/-!
# SimFerret.Run.Record — recording a run (`run.rs`)

* `Formats`: what the code takes from its libraries.  `Host`: what it finds on the machine it runs on.
* `Profile`: what a network run and a workload run do differently.  They share the rest.
* `record`: the whole of it, from the scenario to the published run.
-/

namespace SimFerret.Run

open Workload Driver

/-! ## The libraries -/

structure Formats where
  crates : Store.Crates
  /-- The text of a `Utf8Error`. -/
  utf8Error : Bytes → Text
  order : UnstableSort (Text × Bytes) Text Prod.fst
  tables : UnicodeTables
  literals : Json.Literals
  /-- `CARGO_PKG_VERSION` -/
  version : Text
  gzip : Bytes → Bytes
  /-- `toml::from_str` at the two scenarios -/
  tomlScenario : Text → Except TomlError Scenario
  tomlWorkloadScenario : Text → Except TomlError WorkloadScenario
  manifest : Codec Manifest
  lock : Codec WorkloadLock
  choices : Codec ChoicePlan
  workloadChoices : Codec WorkloadChoicePlan
  report : Codec AssertionReport
  /-- What `serde` derives for the recorded events, and where `serde_json` reports an error of their checks. -/
  derived : Codec NormalizedEvent
  custom : Bytes → Text → JsonError

namespace Formats

variable (formats : Formats)

abbrev event : Codec NormalizedEvent := normalizedCodec formats.derived formats.custom

abbrev sha256 : Sha256 := formats.crates.sha256

/-- The JSON round trips. -/
structure Faithful : Prop where
  manifest : formats.manifest.Faithful
  lock : formats.lock.Faithful
  choices : formats.choices.Faithful
  workloadChoices : formats.workloadChoices.Faithful
  report : formats.report.Faithful
  derived : FaithfulLines formats.derived

/-- The two `parse` functions; `read` gives them at most one byte more than they accept. -/
def parseScenario {σ : Type} (toml : Text → Except TomlError σ) (validate : σ → IoResult Unit)
    (source : Bytes) : IoResult σ := do
  require (source.length ≤ maxScenarioSourceBytes)
    (invalid ("scenario source must not exceed " ++ decimal maxScenarioSourceBytes ++ " bytes"))
  require (Utf8.valid source) (invalidData (formats.utf8Error source))
  let scenario ← mapError (tomlError "malformed scenario") (toml source)
  validate scenario
  return scenario

end Formats

def Scenario.parse (formats : Formats) : Bytes → IoResult Scenario :=
  formats.parseScenario formats.tomlScenario SimFerret.Scenario.validate

def WorkloadScenario.parse (formats : Formats) : Bytes → IoResult WorkloadScenario :=
  formats.parseScenario formats.tomlWorkloadScenario SimFerret.WorkloadScenario.validate

/-! ## The two kinds of runs -/

structure Profile (σ κ : Type) where
  parse : Bytes → IoResult σ
  name : σ → Text
  corruptResponses : σ → Bool
  choices : σ → UInt64 → κ
  requests : κ → List PlannedRequest
  codec : Codec κ
  /-- The control frames that the plan needs. -/
  fits : κ → IoResult Unit
  /-- The number of recorded events. -/
  counted : σ → List NormalizedEvent → IoResult Unit
  assertions : List AssertionName
  evaluate : σ → κ → List EventFrame → AssertionReport
  /-- A run of the VM, and a replay that expects its events. -/
  drive : σ → κ → Process → IoResult (List NormalizedEvent × AssertionReport)
  replay : σ → κ → List NormalizedEvent → Process → IoResult (List NormalizedEvent × AssertionReport)

section Profiles

variable (formats : Formats)

/-- The check of the number of recorded events. -/
def countEvents (scenario : Scenario) (events : List NormalizedEvent) : IoResult Unit := do
  let count ← okOr ((checkedMul scenario.requestCount 2).bind fun count => checkedAdd count 5)
    (invalidData "expected event count overflowed")
  require (events.length == count) (invalidData ("recorded event count is inconsistent with scenario: expected " ++
    decimal count ++ ", found " ++ decimal events.length))

/-- `drive_scenario`. -/
def driveScenario (scenario : Scenario) (choices : ChoicePlan) (process : Process) :
    IoResult (List NormalizedEvent × AssertionReport) :=
  ((driveScenarioInner scenario choices (process.queue, { sends := process.sends })).mapError (·.error)).map (·.1)

/-- `drive_replay_scenario`. -/
def driveReplayScenario (scenario : Scenario) (choices : ChoicePlan) (expected : List NormalizedEvent)
    (process : Process) : IoResult (List NormalizedEvent × AssertionReport) :=
  ((driveScenarioInner scenario choices (process.queue,
    { sendCommands := false, expectedEvents := some expected, tables := formats.tables })).mapError
      (·.error)).map (·.1)

def networkRun : Profile Scenario ChoicePlan where
  parse := Scenario.parse formats
  name := Scenario.name
  corruptResponses := Scenario.corruptResponses
  choices := Scenario.choices
  requests := ChoicePlan.requests
  codec := formats.choices
  fits := fun _ => .ok ()
  counted := countEvents
  assertions := networkProfile
  evaluate := fun scenario _ frames => evaluate frames scenario.outageEventBound scenario.livenessEventBound
  drive := driveScenario
  replay := driveReplayScenario formats

def workloadRun (launch : LaunchIdentity) : Profile WorkloadScenario WorkloadChoicePlan where
  parse := WorkloadScenario.parse formats
  name := WorkloadScenario.name
  corruptResponses := WorkloadScenario.corruptResponses
  choices := WorkloadScenario.choices
  requests := WorkloadChoicePlan.requests
  codec := formats.workloadChoices
  fits := validateWorkloadControlFrames formats.literals launch
  counted := fun _ _ => .ok ()
  assertions := workloadProfile
  evaluate := fun scenario choices frames => Checker.evaluateWorkload formats.sha256 frames scenario choices launch
  drive := fun scenario choices process =>
    ((driveWorkloadScenario formats.sha256 scenario choices launch (process.queue,
      { sends := process.sends })).mapError (·.error)).map (·.1)
  replay := fun scenario choices expected process => do
    let (frames, _) ← replayWorkloadEvents expected process.queue
    return (frames.map EventFrame.normalize,
      Checker.evaluateWorkload formats.sha256 frames scenario choices launch)

end Profiles

/-! ## The machine -/

/-- The operations of the file system that return nothing. -/
inductive Step where
  | root | staging | runtime | logs | write (name :
    Text) | fixture | removeFixture | imageCache | imageEntry | replayLog
  | publish
deriving DecidableEq, Repr

structure Host where
  /-- `fs::read`. -/
  read : Text → IoResult Bytes
  canonicalize : Text → IoResult Text
  step : Step → IoResult Unit
  /-- The time since the epoch. -/
  nanos : IoResult (BitVec 128)
  process : Store.Process
  /-- `RUNTIME_TEMP_COUNTER`. -/
  counter : Nat
  /-- The order in which a directory is listed. -/
  readdir : List (Text × Bytes) → List (Text × Bytes)
  readdir_perm : ∀ files, (readdir files).Perm files
  /-- The image cache, by file names. -/
  images : Text → Option Artifact
  assets : GuestImageAssets
  adapter : QemuAdapter
  /-- The workload store. -/
  store : Store.Disk
  /-- The run directories: what canonicalizing a path and opening what is there finds. -/
  runs : Text → IoResult Directory

structure GuestImage where
  name : Text
  path : Text
  contents : Bytes
  executableSha256 : Text
deriving DecidableEq, Repr

section Build

variable (formats : Formats) (host : Host)

/-- The cached image of a name. -/
def cachedImage (cache name : Text) (length : Nat) (digest : Text) (image : Artifact) : IoResult Bytes := do
  require (image != .special) (invalidData "a cached guest image entry has an unexpected file type")
  host.step .imageEntry
  let directory : Directory := ⟨cache, fun _ => .ok image⟩
  let actual ← sha256RegularFile formats.sha256 directory name length
  require (actual == digest)
    (invalidData ("cached guest image failed digest verification: " ++ joinPath cache name))
  openRegular directory name length

/-- The image under its name in the cache, where it is written if it is not there. -/
def storedImage (cache name : Text) (compressed : Bytes) (digest : Text) : IoResult Bytes :=
  match host.images name with
  | some image => cachedImage formats host cache name compressed.length digest image
  | none => do
    host.step .imageEntry
    return compressed

/-- `build_guest_image_with_assets`. -/
def buildGuestImage (executable runsDirectory : Text) (template : Option Bytes) : IoResult GuestImage := do
  let bytes ← host.read executable
  let archive ← guestArchive bytes host.assets template
  let compressed := formats.gzip archive
  let digest := sha256Hex formats.sha256 compressed
  let cache := joinPath runsDirectory ".images"
  host.step .imageCache
  let name := digest ++ utf8 ".cpio.gz"
  let contents ← storedImage formats host cache name compressed digest
  let path ← host.canonicalize (joinPath cache name)
  return ⟨name, path, contents, sha256Hex formats.sha256 bytes⟩

/-- The path of a `QmpDirectory`. -/
def runtimePath (runId : Text) : Text :=
  "/tmp/sf-" ++ decimal host.process.pid ++ "-" ++ decimal host.counter ++ "-" ++
    (sha256Hex formats.sha256 runId).take 16

/-- The cache behind a build. -/
def Host.imagesWith (image : GuestImage) : Text → Option Artifact := fun name =>
  (host.images name).or (if name = image.name then some (.file image.contents) else none)

end Build

/-! ## The recording -/

structure RunOptions where
  scenario : Text
  seed : UInt64
  runsDirectory : Text
  kernel : Text
  executable : Text
  workload : Option Store.Source

/-- `RecordOutcome`, with what the publication reads of the staging directory. -/
structure RecordOutcome where
  scenarioName : Text
  image : GuestImage
  identity : VmIdentity
  events : List NormalizedEvent
  assertions : AssertionReport
  workload : Option WorkloadIdentity
  scenarioBytes : Bytes
  choiceBytes : Bytes
  lockBytes : Option Bytes
  outputs : Text → IoResult Artifact

structure RunResult where
  runId : Text
  directory : Text
  assertions : AssertionReport

/-- A published run, and what it leaves of the store and of the image cache. -/
structure Published extends RunResult where
  run : Directory
  store : Store.Disk
  images : Text → Option Artifact

section Record

variable (formats : Formats) (host : Host) (options : RunOptions)

/-- The lock of a workload run, as it is written. -/
def writeLock (workload : Option WorkloadIdentity) : IoResult (Option Bytes) :=
  match workload with
  | none => pure none
  | some workload => do
    let bytes ← boundedJson formats.lock ⟨workloadLockVersion, workloadStoreName, workload⟩ maxWorkloadLockBytes
      "the workload lock"
    host.step (.write workloadLockPath)
    return some bytes

/-- The configuration of a recorded VM. -/
def recordConfig (staging runtime kernel : Text) (image : GuestImage) (network : NetworkConfig) :
    RecordConfig where
  kernel := kernel
  initramfs := image.path
  image := image.contents
  replayLog := joinPath staging "replay.bin"
  recording := .error ⟨.notFound, "No such file or directory (os error 2)"⟩
  qmpSocket := joinPath runtime "qmp.sock"
  serialLog := joinPath staging "logs/serial.log"
  qemuLog := joinPath staging "logs/qemu.log"
  network := some network

/-- What the two record paths share, from the materialized choices on. -/
def recordScenario {σ κ : Type} (profile : Profile σ κ) (scenario : σ) (scenarioBytes : Bytes)
    (runsDirectory staging runtime : Text) (template : Option Bytes) (workload : Option WorkloadIdentity) :
    IoResult RecordOutcome := do
  let choices := profile.choices scenario options.seed
  profile.fits choices
  let image ← buildGuestImage formats host options.executable runsDirectory template
  host.step .logs
  host.step (.write "scenario.toml")
  let choiceBytes ← jsonBytes profile.codec choices
  host.step (.write "choices.json")
  let lockBytes ← writeLock formats host workload
  host.step .fixture
  let entries := fixtureEntries (profile.requests choices) (profile.corruptResponses scenario)
  let network ← restrictedTftpRecord formats.sha256 formats.order (host.readdir entries)
    (sha256Hex formats.sha256 host.assets.busybox)
  let kernel ← host.canonicalize options.kernel
  let vm ← host.adapter.launchRecord formats.sha256 formats.order formats.utf8Error
    (recordConfig staging runtime kernel image network)
  let (events, assertions) ← profile.drive scenario choices vm.toProcess
  vm.toProcess.wait "QEMU"
  host.step .removeFixture
  return ⟨profile.name scenario, image, vm.identity, events, assertions, workload, scenarioBytes,
    choiceBytes, lockBytes, vm.outputs⟩

/-- The bytes of the scenario file, as far as they are read. -/
def readScenario : IoResult Bytes := do
  let source ← host.read options.scenario
  return source.take (maxScenarioSourceBytes + 1)

def recordNetworkScenario (staging runtime : Text) : IoResult (RecordOutcome × Store.Disk) := do
  let source ← readScenario host options
  let scenario ← Scenario.parse formats source
  let outcome ← recordScenario formats host options (networkRun formats) scenario source options.runsDirectory
    staging runtime none none
  return (outcome, host.store)

/-- The identity of a loaded workload. -/
def workloadIdentity (loaded : Store.LoadedWorkload) : WorkloadIdentity where
  sourceKind := loaded.sourceKind
  closureSha256 := loaded.closureSha256
  canonicalDigest := loaded.canonicalDigest
  templateSha256 := sha256Hex formats.sha256 loaded.template
  launch := loaded.launch

def recordWorkloadScenario (specification : Store.Source) (staging runtime : Text) :
    IoResult (RecordOutcome × Store.Disk) := do
  let source ← readScenario host options
  let scenario ← WorkloadScenario.parse formats source
  let runsDirectory ← host.canonicalize options.runsDirectory
  let ((assembled, _), store) :=
    (Store.assemble formats.crates formats.utf8Error host.process specification).run
      (Store.perform host.process.uid) 0 host.store
  let assembled ← assembled
  let loaded ← Store.evaluate (Store.load formats.crates) store
  let workload := workloadIdentity formats loaded
  require (assembled.sourceKind == workload.sourceKind && assembled.closureSha256 == workload.closureSha256 &&
      assembled.canonicalDigest == workload.canonicalDigest &&
        assembled.templateSha256 == workload.templateSha256 &&
      assembled.launch == workload.launch)
    (invalidData "workload assembly and independent verification disagreed")
  let outcome ← recordScenario formats host options (workloadRun formats loaded.launch) scenario source
    runsDirectory staging runtime (some loaded.template) (some workload)
  return (outcome, store)

/-- What lies in the staging directory: what was written, and what the emulator left. -/
def stagedEntry (written : List (Text × Bytes)) (outputs : Text → IoResult Artifact)
    (name : Text) : IoResult Artifact :=
  match written.lookup name with
  | some bytes => .ok (.file bytes)
  | none => outputs name

/-- What was written when the artifacts are digested. -/
def RecordOutcome.written (outcome : RecordOutcome) (eventBytes assertionBytes : Bytes) : List (Text × Bytes) :=
  [(utf8 "scenario.toml", outcome.scenarioBytes), (utf8 "choices.json", outcome.choiceBytes),
    (utf8 "events.jsonl", eventBytes), (utf8 "assertions.json", assertionBytes)] ++
    (outcome.lockBytes.map fun bytes => (workloadLockPath, bytes)).toList

/-- The manifest of a run. -/
def RecordOutcome.manifest (outcome : RecordOutcome) (runId semanticOutcomeSha256 : Text)
    (artifacts : Std.ExtTreeMap Text Text) : Manifest where
  version := manifestVersion
  runId := runId
  scenarioName := outcome.scenarioName
  seed := options.seed
  simferretVersion := formats.version
  simferretPath := options.executable
  simferretSha256 := outcome.image.executableSha256
  vm := outcome.identity
  initialStateSha256 := outcome.identity.initramfsSha256
  semanticOutcomeSha256 := semanticOutcomeSha256
  artifacts := artifacts
  workload := outcome.workload

/-- The tail of `record_with_adapter_and_assets`. -/
def publishRun (root runId staging : Text) (outcome : RecordOutcome)
    (store : Store.Disk) : IoResult Published := do
  let eventBytes ← encodeEvents formats.event outcome.events
  require (eventBytes.length ≤ maxSemanticArtifactBytes) (invalidData ("the recorded event stream is " ++
    decimal eventBytes.length ++ " bytes, which exceeds the " ++ decimal maxSemanticArtifactBytes ++
    "-byte replay limit, so the run would not be replayable"))
  host.step (.write "events.jsonl")
  let assertionBytes ← jsonBytes formats.report outcome.assertions
  require (assertionBytes.length ≤ maxSemanticArtifactBytes) (invalidData ("the assertion report is " ++
    decimal assertionBytes.length ++ " bytes, which exceeds the " ++ decimal maxSemanticArtifactBytes ++
      "-byte replay limit"))
  host.step (.write "assertions.json")
  let semantic := digestParts formats.sha256 [outcome.scenarioBytes, outcome.choiceBytes, eventBytes,
    assertionBytes]
  let written := outcome.written eventBytes assertionBytes
  let artifacts ← artifactDigests formats.sha256 ⟨staging,
    stagedEntry written outcome.outputs⟩ outcome.workload.isSome
  require (Utf8.valid options.executable) ⟨.invalidInput, "executable path is not UTF-8"⟩
  let manifest := outcome.manifest formats options runId semantic artifacts
  let manifestBytes ← boundedJson formats.manifest manifest maxManifestBytes "the run manifest"
  host.step (.write "manifest.json")
  host.step .publish
  let directory := joinPath root runId
  return {
    runId, directory, store
    assertions := outcome.assertions
    run := ⟨directory, stagedEntry ((utf8 "manifest.json", manifestBytes) :: written) outcome.outputs⟩
    images := host.imagesWith outcome.image }

/-- The run of the VM, of either kind. -/
def recordOutcome (staging runtime : Text) : IoResult (RecordOutcome × Store.Disk) :=
  match options.workload with
  | some specification => recordWorkloadScenario formats host options specification staging runtime
  | none => recordNetworkScenario formats host options staging runtime

/-- `record_with_adapter_and_assets`, up to the bundle that a failure leaves. -/
def record : IoResult Published := do
  let nanos ← host.nanos
  let runId := runIdAt nanos.toNat options.seed
  host.step .root
  let root ← host.canonicalize options.runsDirectory
  let staging := joinPath root ("." ++ runId ++ ".tmp-" ++ decimal host.process.pid)
  host.step .staging
  host.step .runtime
  let runtime := runtimePath formats host runId
  let (outcome, store) ← recordOutcome formats host options staging runtime
  publishRun formats host options root runId staging outcome store

end Record

end SimFerret.Run
