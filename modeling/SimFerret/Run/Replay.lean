import SimFerret.Run.Record

/-!
# SimFerret.Run.Replay — replaying a run (`run.rs`)

A replay checks the run directory on its own first, then launches the VM, and then compares what it did with the
recording.

* `recheck`: the checks of the recorded scenario, plan, events and report, which end in the digest of the outcome.
* `replayScenario`: what the two replay paths share.  `replay`: the whole of it.
-/

namespace SimFerret.Run

open Workload Driver

structure ReplayOptions where
  directory : Text
  kernel : Text
  executable : Text

structure ReplayResult where
  runId : Text
  eventCount : Nat
  semanticOutcomeSha256 : Text
  assertions : AssertionReport
deriving DecidableEq, Repr

/-- The envelopes of recorded events from `index` on. -/
def checkEnvelopes : Nat → List NormalizedEvent → IoResult Unit
  | _, [] => .ok ()
  | index, event :: events => do
    require (event.protocolVersion == protocolVersion && event.eventId == index + 1)
      (invalidData ("recorded event envelope is invalid at index " ++ decimal index ++ ": " ++
        event.event.describe ++ " at event " ++ decimal event.eventId))
    checkEnvelopes (index + 1) events

section Preflight

variable (formats : Formats) (directory : Directory)

def readRecordedEvents : IoResult (List NormalizedEvent × Bytes) := do
  let bytes ← readBounded directory "events.jsonl" maxSemanticArtifactBytes
  let events ← decodeEvents formats.event formats.utf8Error bytes
  checkEnvelopes 0 events
  return (events, bytes)

def readRecordedAssertions : IoResult (AssertionReport × Bytes) := do
  let bytes ← readBounded directory "assertions.json" maxSemanticArtifactBytes
  let report ← mapError (jsonError "malformed recorded assertions") (formats.report.fromSlice bytes)
  return (report, bytes)

/-- A recording, as it was read from its directory. -/
structure Recording (σ κ : Type) where
  scenario : σ
  scenarioBytes : Bytes
  choices : κ
  choiceBytes : Bytes
  events : List NormalizedEvent
  eventBytes : Bytes
  assertions : AssertionReport
  assertionBytes : Bytes

/-- The digest of an outcome. -/
def Recording.semantic {σ κ : Type} (recording : Recording σ κ) : Text :=
  digestParts formats.sha256 [recording.scenarioBytes, recording.choiceBytes, recording.eventBytes,
    recording.assertionBytes]

/-- What is checked of a recording before anything is built. -/
def recheck {σ κ : Type} [DecidableEq κ] (profile : Profile σ κ)
    (manifest : Manifest) : IoResult (Recording σ κ) := do
  let scenarioBytes ← readBounded directory "scenario.toml" maxScenarioSourceBytes
  let scenario ← profile.parse scenarioBytes
  require (profile.name scenario == manifest.scenarioName)
    (invalidData "the scenario name differs from the recorded manifest")
  let choiceBytes ← readBounded directory "choices.json" maxSemanticArtifactBytes
  let choices ← mapError (jsonError "malformed recorded choices") (profile.codec.fromSlice choiceBytes)
  require (choices = profile.choices scenario manifest.seed)
    (invalidData "recorded choice plan does not match the scenario and seed")
  profile.fits choices
  let (events, eventBytes) ← readRecordedEvents formats directory
  profile.counted scenario events
  let (assertions, assertionBytes) ← readRecordedAssertions formats directory
  require (validProfile assertions profile.assertions)
    (invalidData "recorded assertion report has an invalid shape")
  require (assertions == profile.evaluate scenario choices (events.map NormalizedEvent.frame))
    (invalidData "recorded assertion report does not match recorded events")
  let recording : Recording σ κ := ⟨scenario, scenarioBytes, choices, choiceBytes, events, eventBytes,
    assertions, assertionBytes⟩
  let digest := recording.semantic formats
  require (digest == manifest.semanticOutcomeSha256)
    (invalidData ("recorded semantic outcome digest mismatch: expected " ++
    manifest.semanticOutcomeSha256 ++ ", found " ++ digest))
  return recording

end Preflight

section Launch

variable (formats : Formats) (host : Host) (options : ReplayOptions) (directory : Directory) (manifest : Manifest)

/-- The guest image, which must be that of the recording. -/
def rebuildImage (runsDirectory : Text) (template : Option Bytes) : IoResult GuestImage := do
  let image ← buildGuestImage formats host options.executable runsDirectory template
  require (image.executableSha256 == manifest.simferretSha256)
    (invalidData ("SimFerret executable digest differs from recording: expected " ++ manifest.simferretSha256 ++
      ", found " ++ image.executableSha256))
  require (sha256Hex formats.sha256 image.contents == manifest.initialStateSha256)
    (invalidData "rebuilt initial state digest differs from recording")
  return image

/-- `copy_replay_log`; the index panics where the digest is absent. -/
def copyReplayLog : IoResult Bytes := do
  let copied ← copyRegularFile directory "replay.bin" (host.step .replayLog) maxReplayLogBytes
  let expected ← okOr manifest.artifacts[utf8 "replay.bin"]? ⟨.other, "panicked"⟩
  let found := sha256Hex formats.sha256 copied
  require (found == expected)
    (invalidData ("replay log changed while preparing replay: expected " ++ expected ++ ", found " ++
    found))
  return copied

/-- The configuration of a replayed VM. -/
def replayConfig (runtime kernel : Text) (image : GuestImage) (recording : Bytes) (network : NetworkConfig) :
    RecordConfig where
  kernel := kernel
  initramfs := image.path
  image := image.contents
  replayLog := joinPath runtime "replay.bin"
  recording := .ok (.file recording)
  qmpSocket := joinPath runtime "qmp.sock"
  serialLog := joinPath runtime "logs/serial.log"
  qemuLog := joinPath runtime "logs/qemu.log"
  network := some network

/-- `restricted_tftp_replay`, for the fixture of a plan. -/
def replayNetwork (requests : List PlannedRequest) (corruptResponses : Bool) : NetworkConfig :=
  restrictedTftp none (digestFixtureEntries formats.sha256 formats.order
    (fixtureEntries requests corruptResponses)) (sha256Hex formats.sha256 host.assets.busybox)

/-- What a replay did, compared with the recording. -/
def validateReplay {σ κ : Type} (recording : Recording σ κ) (events : List NormalizedEvent)
    (assertions : AssertionReport) : IoResult ReplayResult := do
  compareEvents recording.events events
  require (assertions == recording.assertions) (invalidData ("replayed assertion report diverged\nexpected: " ++
    debugText (recording.assertions.debug formats.tables) ++ "\nactual: " ++
      debugText (assertions.debug formats.tables)))
  let eventBytes ← encodeEvents formats.event events
  require (eventBytes == recording.eventBytes)
    (invalidData "replayed normalized event encoding is not byte-identical")
  let assertionBytes ← jsonBytes formats.report assertions
  require (assertionBytes == recording.assertionBytes)
    (invalidData "replayed assertion encoding is not byte-identical")
  let semantic := digestParts formats.sha256 [recording.scenarioBytes, recording.choiceBytes, eventBytes,
    assertionBytes]
  require (semantic == manifest.semanticOutcomeSha256)
    (invalidData ("semantic outcome digest diverged: expected " ++
    manifest.semanticOutcomeSha256 ++ ", found " ++ semantic))
  return ⟨manifest.runId, events.length, semantic, assertions⟩

/-- What stands between the checks of the recording and the launch. -/
def prepareReplay {σ κ : Type} (profile : Profile σ κ) (recording : Recording σ κ) (runsDirectory runtime : Text)
    (template : Option Bytes) : IoResult RecordConfig := do
  let image ← rebuildImage formats host options manifest runsDirectory template
  let log ← copyReplayLog formats host directory manifest
  require manifest.vm.network.isSome (invalidData "recording has no network identity")
  let network := replayNetwork formats host (profile.requests recording.choices)
    (profile.corruptResponses recording.scenario)
  QemuAdapter.compared (validateReplayNetworkIdentity (networkValue Unit) manifest.vm (some network.identity))
  let kernel ← host.canonicalize options.kernel
  return replayConfig runtime kernel image log network

/-- What the two replay paths share. -/
def replayScenario {σ κ : Type} [DecidableEq κ] (profile : Profile σ κ) (runsDirectory runtime : Text)
    (template : Option Bytes) : IoResult ReplayResult := do
  let recording ← recheck formats directory profile manifest
  let config ← prepareReplay formats host options directory manifest profile recording runsDirectory
    runtime template
  let vm ← host.adapter.launchReplay formats.sha256 formats.order formats.utf8Error config manifest.vm
  let (events, assertions) ← profile.replay recording.scenario recording.choices recording.events vm.toProcess
  vm.toProcess.wait "QEMU replay"
  validateReplay formats manifest recording events assertions

/-- The checks of the lock and of the store of a workload run. -/
def reloadWorkload (recorded : WorkloadIdentity) : IoResult Store.LoadedWorkload := do
  let lock ← readJson formats.lock directory workloadLockPath maxWorkloadLockBytes
  require (lock.version == workloadLockVersion)
    (invalidData ("unsupported workload lock version " ++ decimal lock.version))
  require (lock.store == workloadStoreName) (invalidData "the workload lock names an unsupported content store")
  require (lock.workload == recorded) (invalidData "the workload lock identity differs from the manifest")
  let loaded ← Store.evaluate (Store.load formats.crates) host.store
  require (workloadIdentity formats loaded == recorded)
    (invalidData "the re-derived workload identity differs from the recording")
  return loaded

def replayWorkloadScenario (recorded : WorkloadIdentity) (runsDirectory runtime : Text) :
    IoResult ReplayResult := do
  let loaded ← reloadWorkload formats host directory recorded
  replayScenario formats host options directory manifest (workloadRun formats loaded.launch) runsDirectory runtime
    (some loaded.template)

/-- The checks of the manifest. -/
def readManifest : IoResult Manifest := do
  let manifest ← readJson formats.manifest directory "manifest.json" maxManifestBytes
  validateManifest formats.version directory manifest
  validateArtifacts formats.sha256 directory manifest.artifacts
  require (manifest.workload.isSome == manifest.artifacts.contains workloadLockPath)
    (invalidData "the manifest workload identity and lock artifact disagree")
  return manifest

/-- `replay_with_adapter_and_assets`, up to the bundle that a failure leaves. -/
def replay : IoResult ReplayResult := do
  let directory ← host.runs options.directory
  let runsDirectory ← okOr (parentPath directory.path) (invalidData "run directory has no parent")
  host.step .runtime
  let runtime := runtimePath formats host "replay-attempt"
  host.step .logs
  let manifest ← readManifest formats directory
  match manifest.workload with
  | some recorded => replayWorkloadScenario formats host options directory manifest recorded runsDirectory runtime
  | none => replayScenario formats host options directory manifest (networkRun formats) runsDirectory runtime none

end Launch

end SimFerret.Run
