import SimFerret.Run.Complete

/-!
# SimFerret.Run.Sound — what a replay that returns has established

Nothing is assumed of the run directory, of the machine or of the VM.

* `Reenacted`: a VM in the recorded environment sent the recorded events.
* `replay_sound`: **a replay that returns has found this and a consistent directory**, under the digests of the
  manifest.
-/

namespace SimFerret.Run

open Workload Driver

/-! ## The replayed VM -/

section Reenacted

variable {formats : Formats} {host : Host} {options : ReplayOptions} {directory : Directory}
  {manifest : Manifest} {σ κ : Type} {profile : Profile σ κ} {recording : Recording σ κ}
  {runsDirectory runtime : Text} {template : Option Bytes} {result : ReplayResult}

/-- A guest image of the recorded parts, under the recorded digests. -/
structure Rebuilt (formats : Formats) (host : Host) (options : ReplayOptions) (manifest : Manifest)
    (template : Option Bytes) (image : Bytes) : Prop where
  parts : ∃ executable archive, host.read options.executable = .ok executable ∧
    guestArchive executable host.assets template = .ok archive ∧
      sha256Hex formats.sha256 executable = manifest.simferretSha256 ∧
      sha256Hex formats.sha256 (formats.gzip archive) = manifest.initialStateSha256
  digest : sha256Hex formats.sha256 image = manifest.initialStateSha256

/-- A VM in the recorded environment, started from the recorded log, that sent the recorded events and exited. -/
structure Reenacted (formats : Formats) (host : Host) (options : ReplayOptions) (directory : Directory)
    (manifest : Manifest) (profile : Profile σ κ) (template : Option Bytes) (recording : Recording σ κ)
    (config : RecordConfig) (process : Process) : Prop where
  image : Rebuilt formats host options manifest template config.image
  /-- The recorded network serves the files of the plan. -/
  network : manifest.vm.network = some (replayNetwork formats host (profile.requests recording.choices)
    (profile.corruptResponses recording.scenario)).identity
  log : ∃ log, directory.Holds "replay.bin" maxReplayLogBytes log ∧ config.recording = .ok (.file log) ∧
    manifest.artifacts[utf8 "replay.bin"]? = some (sha256Hex formats.sha256 log)
  environment : host.adapter.identity formats.sha256 formats.utf8Error config = .ok manifest.vm
  started : host.adapter.start config .replay [] = .ok process
  sent : ∃ (ready : EventFrame) (frames : List EventFrame) (tail : List Delivery),
    process.queue = .event ready :: (frames.map .event ++ .closed :: tail) ∧ ready.event = .agentReady ∧
      frames.map EventFrame.normalize = recording.events
  exited : process.status = .ok none

/-- Both copies of an image have its digest. -/
theorem storedImage_digest {cache name : Text} {compressed contents : Bytes}
    (h : storedImage formats host cache name compressed (sha256Hex formats.sha256 compressed) = .ok contents) :
    sha256Hex formats.sha256 contents = sha256Hex formats.sha256 compressed := by
  rw [storedImage] at h
  split at h
  · obtain ⟨-, size, -, -, -, hdigest⟩ := cachedImage_ok.mp h
    exact hdigest
  · obtain ⟨_, -, h⟩ := bind_eq_ok.mp h
    rw [← pure_eq_ok.mp h]

theorem rebuildImage_ok {image : GuestImage}
    (h : rebuildImage formats host options manifest runsDirectory template = .ok image) :
    Rebuilt formats host options manifest template image.contents := by
  obtain ⟨built, hbuild, h⟩ := bind_eq_ok.mp h
  obtain ⟨_, hexecutable, h⟩ := bind_eq_ok.mp h
  obtain ⟨_, hinitial, h⟩ := bind_eq_ok.mp h
  obtain rfl := pure_eq_ok.mp h
  obtain ⟨executable, hread, hbuild⟩ := bind_eq_ok.mp hbuild
  obtain ⟨archive, harchive, hbuild⟩ := bind_eq_ok.mp hbuild
  obtain ⟨_, -, hbuild⟩ := bind_eq_ok.mp hbuild
  obtain ⟨contents, hstored, hbuild⟩ := bind_eq_ok.mp hbuild
  obtain ⟨_, -, hbuild⟩ := bind_eq_ok.mp hbuild
  obtain rfl := pure_eq_ok.mp hbuild
  have hinitial := eq_of_beq (require_eq_ok.mp hinitial)
  exact ⟨⟨executable, archive, hread, harchive, eq_of_beq (require_eq_ok.mp hexecutable),
    (storedImage_digest hstored).symm.trans hinitial⟩, hinitial⟩

theorem copyReplayLog_ok {log : Bytes} (h : copyReplayLog formats host directory manifest = .ok log) :
    directory.Holds "replay.bin" maxReplayLogBytes log ∧
      manifest.artifacts[utf8 "replay.bin"]? = some (sha256Hex formats.sha256 log) := by
  obtain ⟨copied, hcopied, h⟩ := bind_eq_ok.mp h
  obtain ⟨expected, hexpected, h⟩ := bind_eq_ok.mp h
  obtain ⟨_, hsame, h⟩ := bind_eq_ok.mp h
  obtain rfl := pure_eq_ok.mp h
  refine ⟨(copyRegularFile_ok.mp hcopied).1, ?_⟩
  rw [okOr_eq_ok.mp hexpected, eq_of_beq (require_eq_ok.mp hsame)]

/-- Equal events are the only ones that compare. -/
theorem compareFrom_ok : ∀ {expected actual : List NormalizedEvent} {index : Nat},
    compareFrom index expected actual = .ok () → actual = expected
  | [], [], _, _ => rfl
  | expected :: recorded, actual :: events, index, h => by
    rw [compareFrom] at h
    split_ifs at h with heq
    rw [heq, compareFrom_ok h]
  | _ :: _, [], _, h => by cases h
  | [], _ :: _, _, h => by cases h

theorem validateReplay_ok {events : List NormalizedEvent} {assertions : AssertionReport}
    (h : validateReplay formats manifest recording events assertions = .ok result) :
    events = recording.events ∧ assertions = recording.assertions ∧
      result = ⟨manifest.runId, recording.events.length, manifest.semanticOutcomeSha256,
          recording.assertions⟩ := by
  obtain ⟨_, hevents, h⟩ := bind_eq_ok.mp h
  obtain ⟨_, hassertions, h⟩ := bind_eq_ok.mp h
  obtain ⟨_, -, h⟩ := bind_eq_ok.mp h
  obtain ⟨_, -, h⟩ := bind_eq_ok.mp h
  obtain ⟨_, -, h⟩ := bind_eq_ok.mp h
  obtain ⟨_, -, h⟩ := bind_eq_ok.mp h
  obtain ⟨_, hsemantic, h⟩ := bind_eq_ok.mp h
  obtain rfl := pure_eq_ok.mp h
  obtain rfl := compareFrom_ok hevents
  obtain rfl := eq_of_beq (require_eq_ok.mp hassertions)
  exact ⟨rfl, rfl, by rw [eq_of_beq (require_eq_ok.mp hsemantic)]⟩

/-- What a replay that returns has established. -/
def Established (formats : Formats) (host : Host) (options : ReplayOptions) (directory : Directory)
    (manifest : Manifest) (profile : Profile σ κ) (template : Option Bytes) (result : ReplayResult) : Prop :=
  ∃ recording config process, Consistent formats directory manifest profile recording ∧
    Reenacted formats host options directory manifest profile template recording config process ∧
    result = ⟨manifest.runId, recording.events.length, manifest.semanticOutcomeSha256, recording.assertions⟩

theorem replayScenario_sound [DecidableEq κ] (hlawful : profile.Lawful)
    (h : replayScenario formats host options directory manifest profile runsDirectory runtime template =
      .ok result) : Established formats host options directory manifest profile template result := by
  obtain ⟨recording, hrecheck, h⟩ := bind_eq_ok.mp h
  obtain ⟨config, hprepare, h⟩ := bind_eq_ok.mp h
  obtain ⟨vm, hlaunch, h⟩ := bind_eq_ok.mp h
  obtain ⟨⟨events, assertions⟩, hreplay, h⟩ := bind_eq_ok.mp h
  obtain ⟨_, hwait, h⟩ := bind_eq_ok.mp h
  have hconsistent := recheck_iff.mp hrecheck
  obtain ⟨rfl, rfl, rfl⟩ := validateReplay_ok h
  -- what was built for the VM
  obtain ⟨image, himage, hprepare⟩ := bind_eq_ok.mp hprepare
  obtain ⟨log, hlog, hprepare⟩ := bind_eq_ok.mp hprepare
  obtain ⟨_, -, hprepare⟩ := bind_eq_ok.mp hprepare
  obtain ⟨_, -, hprepare⟩ := bind_eq_ok.mp hprepare
  obtain ⟨kernel, -, hprepare⟩ := bind_eq_ok.mp hprepare
  obtain rfl := pure_eq_ok.mp hprepare
  obtain ⟨hholds, hdigest⟩ := copyReplayLog_ok hlog
  -- what the VM did
  obtain ⟨hsame, hidentity, process, ready, hstart, hqueue, hready, hstatus⟩ := QemuAdapter.launchReplay_ok hlaunch
  have hplan := hconsistent.plan
  rw [hplan] at hreplay
  obtain ⟨frames, tail, hread, hframes, -⟩ :=
    hlawful.reads _ _ manifest.seed hconsistent.parsed _ _ _ _ hreplay
  have hexited : process.status = .ok none := by
    rw [← hstatus]
    obtain ⟨status, hvm, hwait⟩ := bind_eq_ok.mp hwait
    cases status with
    | none => exact hvm
    | some text => cases hwait
  have hnetwork := (QemuAdapter.identity_ok hidentity).2
  exact ⟨recording, _, process, hconsistent,
    ⟨rebuildImage_ok himage, hsame ▸ hnetwork, ⟨log, hholds, rfl, hdigest⟩,
    hsame ▸ hidentity, hstart, ⟨ready, frames, tail, hqueue.trans (by rw [hread]), hready, hframes⟩, hexited⟩, rfl⟩

theorem reloadWorkload_ok {recorded : WorkloadIdentity} {loaded : Store.LoadedWorkload}
    (h : reloadWorkload formats host directory recorded = .ok loaded) :
    Store.evaluate (Store.load formats.crates) host.store = .ok loaded ∧
        workloadIdentity formats loaded = recorded := by
  obtain ⟨lock, -, h⟩ := bind_eq_ok.mp h
  obtain ⟨_, -, h⟩ := bind_eq_ok.mp h
  obtain ⟨_, -, h⟩ := bind_eq_ok.mp h
  obtain ⟨_, -, h⟩ := bind_eq_ok.mp h
  obtain ⟨found, hload, h⟩ := bind_eq_ok.mp h
  obtain ⟨_, hsame, h⟩ := bind_eq_ok.mp h
  obtain rfl := pure_eq_ok.mp h
  exact ⟨hload, eq_of_beq (require_eq_ok.mp hsame)⟩

theorem readManifest_ok (h : readManifest formats directory = .ok manifest) :
    readJson formats.manifest directory "manifest.json" maxManifestBytes = .ok manifest ∧
      validateManifest formats.version directory manifest = .ok () ∧
          Matches formats.sha256 directory manifest.artifacts := by
  obtain ⟨read, hread, h⟩ := bind_eq_ok.mp h
  obtain ⟨_, hvalid, h⟩ := bind_eq_ok.mp h
  obtain ⟨_, hmatched, h⟩ := bind_eq_ok.mp h
  obtain ⟨_, -, h⟩ := bind_eq_ok.mp h
  obtain rfl := pure_eq_ok.mp h
  exact ⟨hread, hvalid, validateArtifacts_iff.mp hmatched⟩

end Reenacted

/-- What a replay that returns has established of the run that its manifest describes. -/
theorem replay_established {formats : Formats} {host : Host} {options : ReplayOptions} {result : ReplayResult}
    (h : replay formats host options = .ok result) : ∃ directory manifest,
    host.runs options.directory = .ok directory ∧ readManifest formats directory = .ok manifest ∧
      (manifest.workload = none ∧ Established formats host options directory manifest (networkRun formats)
        none result ∨ ∃ loaded, Store.evaluate (Store.load formats.crates) host.store = .ok loaded ∧
          manifest.workload = some (workloadIdentity formats loaded) ∧
          Established formats host options directory manifest (workloadRun formats loaded.launch)
            (some loaded.template) result) := by
  obtain ⟨directory, hdirectory, h⟩ := bind_eq_ok.mp h
  obtain ⟨runsDirectory, -, h⟩ := bind_eq_ok.mp h
  obtain ⟨_, -, h⟩ := bind_eq_ok.mp h
  obtain ⟨_, -, h⟩ := bind_eq_ok.mp h
  obtain ⟨manifest, hmanifest, h⟩ := bind_eq_ok.mp h
  refine ⟨directory, manifest, hdirectory, hmanifest, ?_⟩
  cases hworkload : manifest.workload with
  | none =>
    rw [hworkload] at h
    exact Or.inl ⟨rfl, replayScenario_sound (networkRun_lawful formats) h⟩
  | some recorded =>
    rw [hworkload] at h
    obtain ⟨loaded, hreload, hscenario⟩ := bind_eq_ok.mp h
    obtain ⟨hload, hsame⟩ := reloadWorkload_ok hreload
    exact Or.inr ⟨loaded, hload, congrArg some hsame.symm,
      replayScenario_sound (workloadRun_lawful formats loaded.launch) hscenario⟩

/-- **A replay that returns is right**, whatever it was pointed at: every artifact has its digest in the
manifest, the files of the run agree with each other, and a VM in the recorded environment has sent the recorded
events. -/
theorem replay_sound (formats : Formats) (host : Host) (options : ReplayOptions) (result : ReplayResult)
    (h : replay formats host options = .ok result) : ∃ directory manifest,
    host.runs options.directory = .ok directory ∧ readManifest formats directory = .ok manifest ∧
      Matches formats.sha256 directory manifest.artifacts ∧
      (manifest.workload = none ∧ Established formats host options directory manifest (networkRun formats)
        none result ∨ ∃ loaded, Store.evaluate (Store.load formats.crates) host.store = .ok loaded ∧
          manifest.workload = some (workloadIdentity formats loaded) ∧
          Established formats host options directory manifest (workloadRun formats loaded.launch)
            (some loaded.template) result) := by
  obtain ⟨directory, manifest, hdirectory, hmanifest, hestablished⟩ := replay_established h
  exact ⟨directory, manifest, hdirectory, hmanifest, (readManifest_ok hmanifest).2.2, hestablished⟩

/-- The sample of a published run, whose VM sent what was recorded. -/
theorem replay_sound_sample : ∃ published result directory manifest,
    replay sampleFormats (laterHost published 78) laterOptions = .ok result ∧
      readManifest sampleFormats directory = .ok manifest ∧
        Matches sampleFormats.sha256 directory manifest.artifacts ∧
      result.eventCount = 11 := by
  obtain ⟨published, eventBytes, -, hrecord, hparent, hsample, -⟩ := sampleRun_published false
  obtain ⟨nanos, root, staging, runtime, outcome, store, houtcome, hpublish⟩ := record_ok hrecord
  obtain ⟨manifest, events, _, -, hread, hreplay⟩ := replayable_network sampleFormats_faithful houtcome hpublish
  obtain rfl : events = sampleEvents := congrArg Prod.fst (Except.ok.inj (hread.symm.trans hsample))
  have hreplayed := hreplay _ _ _ _ (@laterHost_resumes _ false hparent 78) (laterHost_emits published 78)
    (laterFrames_events 78)
  obtain ⟨directory, manifest', -, hmanifest, hmatches, -⟩ := replay_sound _ _ _ _ hreplayed
  exact ⟨published, _, directory, manifest', hreplayed, hmanifest, hmatches, rfl⟩

end SimFerret.Run
