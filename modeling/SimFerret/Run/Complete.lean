import SimFerret.Run.Profiles
import SimFerret.Run.Consistent
import SimFerret.Store.Image
import SimFerret.Store.Recovery

/-!
# SimFerret.Run.Complete — what was recorded is replayed

* `Recorded`, `Staged`: what a recording went through, and what its directory holds.
* `Resumes`: the machine of a replay, on which nothing that the recording used has changed.
* `record_replay`: **every published run is replayed**, by a VM that repeats its events with any diagnostics, to
  the recorded report and the digest of its outcome.
-/

namespace SimFerret.Run

open Workload Driver

/-! ## The recording -/

section Record

variable {formats : Formats} {host : Host} {options : RunOptions}

/-- What `recordScenario` went through. -/
structure Recorded {σ κ : Type} (formats : Formats) (host : Host) (options : RunOptions) (profile : Profile σ κ)
    (scenario : σ) (runsDirectory : Text) (template : Option Bytes) (outcome : RecordOutcome) : Prop where
  name : outcome.scenarioName = profile.name scenario
  parsed : profile.parse outcome.scenarioBytes = .ok scenario
  fits : profile.fits (profile.choices scenario options.seed) = .ok ()
  image : buildGuestImage formats host options.executable runsDirectory template = .ok outcome.image
  choices : jsonBytes profile.codec (profile.choices scenario options.seed) = .ok outcome.choiceBytes
  lock : writeLock formats host outcome.workload = .ok outcome.lockBytes
  launched : ∃ network vm config,
    restrictedTftpRecord formats.sha256 formats.order
      (host.readdir (fixtureEntries (profile.requests (profile.choices scenario options.seed))
        (profile.corruptResponses scenario)))
      (sha256Hex formats.sha256 host.assets.busybox) = .ok network ∧
    host.adapter.launchRecord formats.sha256 formats.order formats.utf8Error config = .ok vm ∧
    host.canonicalize options.kernel = .ok config.kernel ∧ config.image = outcome.image.contents ∧
    config.network = some network ∧ vm.identity = outcome.identity ∧
    profile.drive scenario (profile.choices scenario options.seed) vm.toProcess =
      .ok (outcome.events, outcome.assertions)

theorem recordScenario_ok {σ κ : Type} {profile : Profile σ κ} {scenario : σ} {scenarioBytes : Bytes}
    {runsDirectory staging runtime : Text} {template : Option Bytes} {workload : Option WorkloadIdentity}
    {outcome : RecordOutcome} (hparsed : profile.parse scenarioBytes = .ok scenario)
    (h : recordScenario formats host options profile scenario scenarioBytes runsDirectory staging runtime
      template workload = .ok outcome) :
    Recorded formats host options profile scenario runsDirectory template outcome ∧
        outcome.workload = workload := by
  obtain ⟨_, hfits, h⟩ := bind_eq_ok.mp h
  obtain ⟨image, himage, h⟩ := bind_eq_ok.mp h
  obtain ⟨_, -, h⟩ := bind_eq_ok.mp h
  obtain ⟨_, -, h⟩ := bind_eq_ok.mp h
  obtain ⟨choiceBytes, hchoices, h⟩ := bind_eq_ok.mp h
  obtain ⟨_, -, h⟩ := bind_eq_ok.mp h
  obtain ⟨lockBytes, hlock, h⟩ := bind_eq_ok.mp h
  obtain ⟨_, -, h⟩ := bind_eq_ok.mp h
  obtain ⟨network, hnetwork, h⟩ := bind_eq_ok.mp h
  obtain ⟨kernel, hkernel, h⟩ := bind_eq_ok.mp h
  obtain ⟨vm, hvm, h⟩ := bind_eq_ok.mp h
  obtain ⟨⟨events, assertions⟩, hdrive, h⟩ := bind_eq_ok.mp h
  obtain ⟨_, -, h⟩ := bind_eq_ok.mp h
  obtain ⟨_, -, h⟩ := bind_eq_ok.mp h
  obtain rfl := pure_eq_ok.mp h
  exact ⟨⟨rfl, hparsed, hfits, himage, hchoices, hlock, network, vm, _, hnetwork, hvm, hkernel, rfl, rfl, rfl,
    hdrive⟩, rfl⟩

/-- The directory of a published run. -/
structure Staged (formats : Formats) (options : RunOptions) (outcome : RecordOutcome) (runId : Text)
    (manifest : Manifest) (eventBytes assertionBytes : Bytes) (run : Directory) : Prop where
  events : encodeEvents formats.event outcome.events = .ok eventBytes
  assertions : jsonBytes formats.report outcome.assertions = .ok assertionBytes
  described : ∃ artifacts, manifest = outcome.manifest formats options runId
    (digestParts formats.sha256 [outcome.scenarioBytes, outcome.choiceBytes, eventBytes, assertionBytes]) artifacts
  manifestRead : readJson formats.manifest run "manifest.json" maxManifestBytes = .ok manifest
  matched : Matches formats.sha256 run manifest.artifacts
  locked : workloadLockPath ∈ manifest.artifacts ↔ outcome.workload.isSome = true
  scenarioHeld : ∃ length, run.entry "scenario.toml" = .ok (.regular length outcome.scenarioBytes)
  choicesHeld : run.entry "choices.json" = .ok (.file outcome.choiceBytes)
  eventsHeld : run.entry "events.jsonl" = .ok (.file eventBytes)
  assertionsHeld : run.entry "assertions.json" = .ok (.file assertionBytes)
  lockHeld : ∀ bytes, outcome.lockBytes = some bytes → run.entry workloadLockPath = .ok (.file bytes)

theorem manifest_not_artifact : utf8 "manifest.json" ∉ artifactNames ∧
    utf8 "manifest.json" ≠ workloadLockPath := by decide

theorem publishRun_ok (hfaithful : formats.Faithful) {root runId staging : Text} {outcome : RecordOutcome}
    {store : Store.Disk} {published : Published}
    (h : publishRun formats host options root runId staging outcome store = .ok published) :
    published.runId = runId ∧ published.assertions = outcome.assertions ∧
      published.run.path = joinPath root runId ∧ published.store = store ∧
      published.images = host.imagesWith outcome.image ∧ ∃ manifest eventBytes assertionBytes,
      Staged formats options outcome runId manifest eventBytes assertionBytes published.run := by
  obtain ⟨eventBytes, hevents, h⟩ := bind_eq_ok.mp h
  obtain ⟨_, -, h⟩ := bind_eq_ok.mp h
  obtain ⟨_, -, h⟩ := bind_eq_ok.mp h
  obtain ⟨assertionBytes, hassertions, h⟩ := bind_eq_ok.mp h
  obtain ⟨_, -, h⟩ := bind_eq_ok.mp h
  obtain ⟨_, -, h⟩ := bind_eq_ok.mp h
  obtain ⟨artifacts, hartifacts, h⟩ := bind_eq_ok.mp h
  obtain ⟨_, -, h⟩ := bind_eq_ok.mp h
  obtain ⟨manifestBytes, hmanifest, h⟩ := bind_eq_ok.mp h
  obtain ⟨_, -, h⟩ := bind_eq_ok.mp h
  obtain ⟨_, -, h⟩ := bind_eq_ok.mp h
  obtain rfl := pure_eq_ok.mp h
  obtain ⟨hmatches, hlocked⟩ := artifactDigests_matches formats.crates.sha256_length hartifacts
  obtain ⟨hjson, hsmall⟩ := boundedJson_ok hmanifest
  refine ⟨rfl, rfl, rfl, rfl, rfl, _, eventBytes, assertionBytes, hevents, hassertions, ⟨artifacts, rfl⟩, ?_,
    ?_, hlocked, ⟨_, rfl⟩, rfl, rfl, rfl, fun bytes hbytes => ?_⟩
  · exact readJson_of_holds hfaithful.manifest hjson (Directory.holds_file rfl hsmall)
  · refine hmatches.congr fun name hname => ?_
    have hne : (name == utf8 "manifest.json") = false := by
      rw [beq_eq_false_iff_ne]
      rintro rfl
      rcases hmatches.known _ hname with hname | hname
      · exact manifest_not_artifact.2 hname
      · exact manifest_not_artifact.1 hname
    show stagedEntry _ _ name = stagedEntry _ _ name
    rw [stagedEntry, stagedEntry, List.lookup_cons, hne]
  · show stagedEntry _ _ workloadLockPath = _
    rw [stagedEntry, RecordOutcome.written, hbytes]
    rfl

end Record

/-! ## The guest image and the fixture -/

section Again

variable {formats : Formats} {host host' : Host}

theorem cachedImage_ok {cache name digest : Text} {length : Nat} {image : Artifact} {contents : Bytes} :
    cachedImage formats host cache name length digest image = .ok contents ↔ host.step .imageEntry = .ok () ∧
      ∃ size, image = .regular size contents ∧ size ≤ length ∧ contents.length ≤ length ∧
        sha256Hex formats.sha256 contents = digest := by
  constructor
  · intro h
    obtain ⟨_, -, h⟩ := bind_eq_ok.mp h
    obtain ⟨_, hstep, h⟩ := bind_eq_ok.mp h
    obtain ⟨actual, hactual, h⟩ := bind_eq_ok.mp h
    obtain ⟨_, hdigest, hopen⟩ := bind_eq_ok.mp h
    obtain ⟨bytes, ⟨size, hentry, hsize, hbytes⟩, rfl⟩ := sha256RegularFile_ok.mp hactual
    obtain ⟨_, hopened, -⟩ := openRegular_ok.mp hopen
    obtain rfl := Except.ok.inj hentry
    obtain ⟨-, rfl⟩ := Artifact.regular.inj (Except.ok.inj hopened)
    exact ⟨hstep, size, rfl, hsize, hbytes, eq_of_beq (require_eq_ok.mp hdigest)⟩
  · rintro ⟨hstep, size, rfl, hsize, hbytes, rfl⟩
    let directory : Directory := ⟨cache, fun _ => .ok (.regular size contents)⟩
    have hread : sha256RegularFile formats.sha256 directory name length =
        .ok (sha256Hex formats.sha256 contents) :=
      sha256RegularFile_ok.mpr ⟨contents, ⟨size, rfl, hsize, hbytes⟩, rfl⟩
    refine bind_eq_ok.mpr ⟨(), rfl, bind_eq_ok.mpr ⟨(), hstep,
      bind_eq_ok.mpr ⟨_, hread, bind_eq_ok.mpr ⟨(), ?_, ?_⟩⟩⟩⟩
    · exact require_eq_ok.mpr (beq_self_eq_true _)
    · exact openRegular_ok.mpr ⟨size, rfl, hsize⟩

/-- A guest image is named by its digest. -/
theorem buildGuestImage_name {executable runsDirectory : Text} {template : Option Bytes} {image : GuestImage}
    (h : buildGuestImage formats host executable runsDirectory template = .ok image) :
    ∃ digest, validSha256 digest = true ∧ image.name = digest ++ utf8 ".cpio.gz" := by
  obtain ⟨bytes, -, h⟩ := bind_eq_ok.mp h
  obtain ⟨archive, -, h⟩ := bind_eq_ok.mp h
  obtain ⟨_, -, h⟩ := bind_eq_ok.mp h
  obtain ⟨_, -, h⟩ := bind_eq_ok.mp h
  obtain ⟨_, -, h⟩ := bind_eq_ok.mp h
  rw [← pure_eq_ok.mp h]
  exact ⟨_, validSha256_sha256Hex formats.crates.sha256_length (formats.gzip archive), rfl⟩

/-- A guest image that was built is built again, from the cache. -/
theorem buildGuestImage_again {executable executable' runsDirectory runsDirectory' path : Text}
    {template : Option Bytes} {image : GuestImage}
    (h : buildGuestImage formats host executable runsDirectory template = .ok image)
    (hsteps : ∀ step, host'.step step = .ok ()) (hread : host'.read executable' = host.read executable)
    (hassets : host'.assets = host.assets) (himages : host'.images = host.imagesWith image)
    (hpath : host'.canonicalize (joinPath (joinPath runsDirectory' ".images") image.name) = .ok path) :
    buildGuestImage formats host' executable' runsDirectory' template = .ok { image with path := path } := by
  obtain ⟨bytes, hbytes, h⟩ := bind_eq_ok.mp h
  obtain ⟨archive, harchive, h⟩ := bind_eq_ok.mp h
  obtain ⟨_, -, h⟩ := bind_eq_ok.mp h
  obtain ⟨contents, hcontents, h⟩ := bind_eq_ok.mp h
  obtain ⟨_, -, h⟩ := bind_eq_ok.mp h
  obtain rfl := pure_eq_ok.mp h
  refine bind_eq_ok.mpr ⟨bytes, hread.trans hbytes, bind_eq_ok.mpr ⟨archive, hassets ▸ harchive, ?_⟩⟩
  refine bind_eq_ok.mpr ⟨(), hsteps _, bind_eq_ok.mpr ⟨contents, ?_, bind_eq_ok.mpr ⟨path, hpath, rfl⟩⟩⟩
  rw [storedImage, himages, Host.imagesWith]
  rw [storedImage] at hcontents
  cases hcached : host.images (sha256Hex formats.sha256 (formats.gzip archive) ++ utf8 ".cpio.gz") with
  | some cached =>
    rw [hcached] at hcontents
    exact cachedImage_ok.mpr ⟨hsteps _, (cachedImage_ok.mp hcontents).2⟩
  | none =>
    rw [hcached] at hcontents
    obtain ⟨_, -, hcontents⟩ := bind_eq_ok.mp hcontents
    obtain rfl := pure_eq_ok.mp hcontents
    rw [Option.none_or, if_pos rfl]
    exact cachedImage_ok.mpr ⟨hsteps _, _, rfl, Nat.le_refl _, Nat.le_refl _, rfl⟩

/-- **The network of a recording is that of its plan.** -/
theorem replayNetwork_identity {requests : List PlannedRequest} {corruptResponses : Bool} {network : NetworkConfig}
    (hserved : Served requests) (hassets : host'.assets = host.assets)
    (h : restrictedTftpRecord formats.sha256 formats.order
      (host.readdir (fixtureEntries requests corruptResponses))
      (sha256Hex formats.sha256 host.assets.busybox) = .ok network) :
    (replayNetwork formats host' requests corruptResponses).identity = network.identity := by
  obtain ⟨entries, hentries, h⟩ := bind_eq_ok.mp h
  obtain rfl := pure_eq_ok.mp h
  have hdistinct : ((fixtureEntries requests corruptResponses).map Prod.fst).Nodup := by
    rw [map_fst_fixtureEntries]
    exact hserved.distinct
  have hperm := host.readdir_perm (fixtureEntries requests corruptResponses)
  have hread : entries.Perm (fixtureEntries requests corruptResponses) := by
    refine (readFixtureEntries_perm ?_ (fun file hfile => ?_) hentries).trans hperm
    · exact ((hperm.map Prod.fst).nodup_iff).mpr hdistinct
    · have hname : file.1 ∈ requests.map PlannedRequest.requestId := by
        rw [← map_fst_fixtureEntries requests corruptResponses]
        exact List.mem_map_of_mem (hperm.mem_iff.mp hfile)
      obtain ⟨request, hrequest, hname⟩ := List.mem_map.mp hname
      exact hname ▸ hserved.names request hrequest
  have hsort := (formats.order.sort_eq_iff hdistinct).mpr hread.symm
  rw [replayNetwork, hassets, digestFixtureEntries, fixtureMessage, hsort]
  rfl

end Again

/-! ## The checks of the recording -/

section Recheck

variable {formats : Formats} {host : Host} {options : RunOptions} {outcome : RecordOutcome} {runId : Text}
  {manifest : Manifest} {eventBytes assertionBytes : Bytes} {run : Directory}

/-- An artifact is held within its limit. -/
theorem Matches.holds_of_entry {artifacts : Std.ExtTreeMap Text Text} {name : Text} {length : Nat} {bytes : Bytes}
    (h : Matches formats.sha256 run artifacts) (hname : name ∈ artifacts)
    (hentry : run.entry name = .ok (.regular length bytes)) : run.Holds name (artifactLimit name) bytes := by
  obtain ⟨digest, hdigest⟩ := Option.isSome_iff_exists.mp (Std.ExtTreeMap.mem_iff_isSome_getElem?.mp hname)
  obtain ⟨bytes', ⟨length', hentry', hlength, hbytes⟩, -⟩ := h.holds name digest hdigest
  rw [hentry] at hentry'
  obtain ⟨rfl, rfl⟩ := Artifact.regular.inj (Except.ok.inj hentry')
  exact ⟨length, hentry, hlength, hbytes⟩

theorem fromSlice_of_jsonBytes {α : Type} {codec : Codec α} {value : α} {bytes : Bytes} (hcodec : codec.Faithful)
    (h : jsonBytes codec value = .ok bytes) : codec.fromSlice bytes = .ok value := by
  obtain ⟨body, hbody, h⟩ := bind_eq_ok.mp h
  obtain rfl := pure_eq_ok.mp h
  exact hcodec value body (mapError_eq_ok.mp hbody)

/-- What the checks read of a recording. -/
def RecordOutcome.recording {σ κ : Type} (outcome : RecordOutcome) (scenario : σ) (choices : κ)
    (eventBytes assertionBytes : Bytes) : Recording σ κ :=
  ⟨scenario, outcome.scenarioBytes, choices, outcome.choiceBytes, outcome.events, eventBytes,
    outcome.assertions, assertionBytes⟩

/-- **A published recording is consistent.** -/
theorem consistent_recorded {σ κ : Type} {profile : Profile σ κ} {scenario : σ} {runsDirectory : Text}
    {template : Option Bytes} (hfaithful : formats.Faithful) (hcodec : profile.codec.Faithful)
    (hlawful : profile.Lawful)
    (hrecorded : Recorded formats host options profile scenario runsDirectory template outcome)
    (hstaged : Staged formats options outcome runId manifest eventBytes assertionBytes run) :
    Consistent formats run manifest profile
      (outcome.recording scenario (profile.choices scenario options.seed) eventBytes assertionBytes) := by
  obtain ⟨network, vm, config, -, -, -, -, -, -, hdrive⟩ := hrecorded.launched
  have hrepeated := hlawful.repeats _ _ options.seed hrecorded.parsed _ _ _ hdrive
  have hreal := (hlawful.receives _ _ options.seed hrecorded.parsed).real hdrive
  have hmem : ∀ name ∈ artifactNames, name ∈ manifest.artifacts := hstaged.matched.required
  obtain ⟨artifacts, hmanifest⟩ := hstaged.described
  obtain ⟨length, hscenario⟩ := hstaged.scenarioHeld
  exact {
    scenario := hstaged.matched.holds_of_entry (hmem _ (by decide)) hscenario
    parsed := hrecorded.parsed
    name := by rw [hmanifest]; exact hrecorded.name.symm
    choices := hstaged.matched.holds_of_entry (hmem _ (by decide)) hstaged.choicesHeld
    planned := fromSlice_of_jsonBytes hcodec hrecorded.choices
    plan := by rw [hmanifest]; rfl
    fits := hrecorded.fits
    events := hstaged.matched.holds_of_entry (hmem _ (by decide)) hstaged.eventsHeld
    decoded := decodeEvents_encodeEvents hfaithful.derived _ _ hreal hstaged.events
    numbered := hrepeated.numbered
    counted := hrepeated.counted
    assertions := hstaged.matched.holds_of_entry (hmem _ (by decide)) hstaged.assertionsHeld
    reported := fromSlice_of_jsonBytes hfaithful.report hstaged.assertions
    shaped := hrepeated.valid
    evaluated := hrepeated.evaluated.symm
    semantic := by rw [hmanifest]; rfl }

/-- **The manifest of a published run passes its checks.** -/
theorem readManifest_recorded {root : Text} {nanos : BitVec 128} (hpath : run.path = joinPath root runId)
    (hrunId : runId = runIdAt nanos.toNat options.seed)
    (hstaged : Staged formats options outcome runId manifest eventBytes assertionBytes run)
    (hexecutable : validSha256 outcome.image.executableSha256 = true)
    (hinitramfs : validSha256 outcome.identity.initramfsSha256 = true)
    (hworkload : ∀ workload, outcome.workload = some workload → workload.validate = .ok ()) :
    readManifest formats run = .ok manifest := by
  have hvalidId : validRunId runId = true := hrunId ▸ validRunId_runIdAt nanos options.seed
  have hname : fileName run.path = some runId := by
    obtain ⟨hslash, hne⟩ := runIdAt_name nanos options.seed
    rw [hpath, hrunId]
    exact fileName_joinPath hslash hne
  have hsemantic := validSha256_sha256Hex formats.crates.sha256_length
    (partsMessage [outcome.scenarioBytes, outcome.choiceBytes, eventBytes, assertionBytes])
  have hread := hstaged.manifestRead
  have hmatched := validateArtifacts_iff.mpr hstaged.matched
  have hlocked := hstaged.locked
  obtain ⟨artifacts, rfl⟩ := hstaged.described
  refine bind_eq_ok.mpr ⟨_, hread, bind_eq_ok.mpr ⟨(), ?_,
    bind_eq_ok.mpr ⟨(), hmatched, bind_eq_ok.mpr ⟨(), require_eq_ok.mpr ?_, rfl⟩⟩⟩⟩
  · refine bind_eq_ok.mpr ⟨(), rfl, bind_eq_ok.mpr ⟨(), require_eq_ok.mpr hvalidId,
      bind_eq_ok.mpr ⟨(), require_eq_ok.mpr ?_, ?_⟩⟩⟩
    · exact beq_iff_eq.mpr hname
    refine bind_eq_ok.mpr ⟨(), require_eq_ok.mpr (beq_self_eq_true _), ?_⟩
    refine bind_eq_ok.mpr ⟨(), require_eq_ok.mpr (beq_self_eq_true _), ?_⟩
    refine bind_eq_ok.mpr ⟨(), require_eq_ok.mpr ?_, ?_⟩
    · simp only [RecordOutcome.manifest, List.all_cons, List.all_nil, hexecutable, hinitramfs, Bool.true_and,
        Bool.and_true]
      exact hsemantic
    · split
      · rfl
      · next workload hsome => exact hworkload workload hsome
  · rw [beq_iff_eq, Bool.eq_iff_iff, Std.ExtTreeMap.contains_iff_mem]
    exact hlocked.symm

end Recheck

/-! ## The replay -/

/-- The machine of a replay: nothing that the recording used has changed, and its own operations succeed. -/
structure Resumes (host : Host) (options : RunOptions) (published : Published) (host' : Host)
    (options' : ReplayOptions) : Prop where
  directory : host'.runs options'.directory = .ok published.run
  steps : ∀ step, host'.step step = .ok ()
  executable : host'.read options'.executable = host.read options.executable
  assets : host'.assets = host.assets
  kernel : host'.canonicalize options'.kernel = host.canonicalize options.kernel
  images : host'.images = published.images
  cache : ∀ runsDirectory digest, parentPath published.run.path = some runsDirectory → validSha256 digest →
    (published.images (digest ++ utf8 ".cpio.gz")).isSome → ∃ path,
      host'.canonicalize (joinPath (joinPath runsDirectory ".images") (digest ++ utf8 ".cpio.gz")) = .ok path ∧
        path.head? = some slash ∧ Utf8.valid path = true
  store : host'.store = published.store
  installation : QemuAdapter.SameInstallation host.adapter host'.adapter
  temporary : host'.adapter.temporary = .ok ()

/-- The VM of a replay is ready, sends the frames, closes its channel and exits with success. -/
structure Emits (adapter : QemuAdapter) (frames : List EventFrame) (tail : List Delivery) : Prop where
  started : ∀ config, ∃ process ready, adapter.start config .replay [] = .ok process ∧
    process.queue = .event ready :: (frames.map .event ++ .closed :: tail) ∧ process.status = .ok none ∧
    ready.protocolVersion = protocolVersion ∧ ready.eventId = 0 ∧ ready.commandId = 0 ∧ ready.event = .agentReady

section Replay

variable {formats : Formats} {host host' : Host} {options : RunOptions} {options' : ReplayOptions}
  {published : Published} {outcome : RecordOutcome} {runId : Text} {manifest : Manifest}
  {eventBytes assertionBytes : Bytes} {run : Directory}
  {runtime runsDirectory : Text} {template : Option Bytes} {σ κ : Type} {profile : Profile σ κ} {scenario : σ}

theorem isAscii_runtimePath (name : Text) : IsAscii (runtimePath formats host name) := by
  have hdigest : IsAscii ((sha256Hex formats.sha256 name).take 16) := by
    intro byte hbyte
    have hhex := List.mem_of_mem_take hbyte
    rw [sha256Hex, encodeBytes_eq_hex] at hhex
    obtain ⟨nibble, hnibble, rfl⟩ := mem_hex hhex
    have hall : ∀ n : Fin 256, UInt8.ofFin n < 16 → lowerDigit (UInt8.ofFin n) < 128 := by decide +kernel
    exact hall nibble.toFin hnibble
  have hprefix : IsAscii (utf8 "/tmp/sf-" ++ decimal host.process.pid ++ utf8 "-" ++ decimal host.counter ++
      utf8 "-") := by
    refine .append (.append (.append (.append ?_ (isAscii_decimal _)) ?_) (isAscii_decimal _)) ?_
    · decide
    · decide
    · decide
  exact hprefix.append hdigest

/-- The outputs of a replay have paths that QEMU takes. -/
theorem validatePaths_replayConfig {name kernel : Text} {image : GuestImage} {log : Bytes}
    {network : NetworkConfig} (hkernel : kernel.head? = some slash ∧ Utf8.valid kernel = true)
    (himage : image.path.head? = some slash ∧ Utf8.valid image.path = true) :
    (replayConfig (runtimePath formats host name) kernel image log network).validatePaths = .ok () := by
  have hjoined : ∀ file : Text, IsAscii file → (joinPath (runtimePath formats host name) file).head? = some slash ∧
      Utf8.valid (joinPath (runtimePath formats host name) file) = true := by
    intro file hfile
    have hruntime : IsAscii (runtimePath formats host name) := isAscii_runtimePath name
    have hascii : IsAscii (joinPath (runtimePath formats host name) file) := by
      rw [joinPath]
      split
      · exact hruntime.append hfile
      · exact hruntime.append (fun byte hbyte => by
          rcases List.mem_cons.mp hbyte with rfl | hbyte
          · decide
          · exact hfile byte hbyte)
    refine ⟨?_, Utf8.valid_of_ascii hascii⟩
    rw [joinPath]
    split <;> rfl
  refine forM_eq_ok.mpr fun path hpath => require_eq_ok.mpr ?_
  have hboth : path.head? = some slash ∧ Utf8.valid path = true := by
    simp only [replayConfig, List.mem_cons, List.not_mem_nil, or_false] at hpath
    rcases hpath with rfl | rfl | rfl | rfl | rfl | rfl
    · exact hkernel
    · exact himage
    · exact hjoined _ (by decide)
    · exact hjoined _ (by decide)
    · exact hjoined _ (by decide)
    · exact hjoined _ (by decide)
  rw [hboth.1, hboth.2]
  rfl

/-- What an accepted launch checked of two paths. -/
theorem validatePaths_ok {config : RecordConfig} (h : config.validatePaths = .ok ()) :
    (config.kernel.head? = some slash ∧ Utf8.valid config.kernel = true) := by
  have hkernel := require_eq_ok.mp (forM_eq_ok.mp h config.kernel List.mem_cons_self)
  rw [Bool.and_eq_true, beq_iff_eq] at hkernel
  exact hkernel

theorem compareEvents_self (events : List NormalizedEvent) : compareEvents events events = .ok () := by
  have hsame := compareFrom_append events [] [] 0
  rw [List.append_nil] at hsame
  exact hsame

/-- The guest image of a recording is built again. -/
theorem rebuildImage_recorded {runsDirectory' : Text}
    (hrecorded : Recorded formats host options profile scenario runsDirectory template outcome)
    (hstaged : Staged formats options outcome runId manifest eventBytes assertionBytes run)
    (hresumes : Resumes host options published host' options') (hrun : published.run = run)
    (himages : published.images = host.imagesWith outcome.image)
    (hparent : parentPath run.path = some runsDirectory')
    (hinitramfs : outcome.identity.initramfsSha256 = sha256Hex formats.sha256 outcome.image.contents) :
    ∃ path, (path.head? = some slash ∧ Utf8.valid path = true) ∧
      rebuildImage formats host' options' manifest runsDirectory' template =
          .ok { outcome.image with path := path } := by
  obtain ⟨digest, hdigest, hname⟩ := buildGuestImage_name hrecorded.image
  have hcached : (published.images outcome.image.name).isSome := by
    rw [himages, Host.imagesWith, if_pos rfl, Option.isSome_or]
    simp
  obtain ⟨path, hpath, hplain⟩ := hresumes.cache runsDirectory' digest (hrun ▸ hparent) hdigest (hname ▸ hcached)
  rw [← hname] at hpath
  have hbuilt := buildGuestImage_again hrecorded.image hresumes.steps hresumes.executable hresumes.assets
    (hresumes.images.trans himages) hpath
  obtain ⟨artifacts, rfl⟩ := hstaged.described
  refine ⟨path, hplain, bind_eq_ok.mpr ⟨_, hbuilt,
    bind_eq_ok.mpr ⟨(), require_eq_ok.mpr (beq_self_eq_true _), ?_⟩⟩⟩
  exact bind_eq_ok.mpr ⟨(), require_eq_ok.mpr (beq_iff_eq.mpr hinitramfs.symm), rfl⟩

/-- The replay log of a published run is copied. -/
theorem copyReplayLog_staged (hstaged : Staged formats options outcome runId manifest eventBytes
    assertionBytes run) (hsteps : ∀ step, host'.step step = .ok ()) : ∃ log,
    copyReplayLog formats host' run manifest = .ok log := by
  obtain ⟨digest, hdigest⟩ := Option.isSome_iff_exists.mp (Std.ExtTreeMap.mem_iff_isSome_getElem?.mp
    (hstaged.matched.required (utf8 "replay.bin") (by decide)))
  obtain ⟨log, hlog, hsame⟩ := hstaged.matched.holds _ _ hdigest
  refine ⟨log, bind_eq_ok.mpr ⟨log, copyRegularFile_ok.mpr ⟨hlog, hsteps _⟩,
    bind_eq_ok.mpr ⟨digest, okOr_eq_ok.mpr hdigest, ?_⟩⟩⟩
  exact bind_eq_ok.mpr ⟨(), require_eq_ok.mpr (beq_iff_eq.mpr hsame.symm), rfl⟩

/-- The recorded events and their report are what was recorded. -/
theorem validateReplay_staged {choices : κ}
    (hstaged : Staged formats options outcome runId manifest eventBytes assertionBytes run) :
    validateReplay formats manifest (outcome.recording scenario choices eventBytes assertionBytes) outcome.events
      outcome.assertions = .ok ⟨runId, outcome.events.length, manifest.semanticOutcomeSha256,
          outcome.assertions⟩ := by
  obtain ⟨artifacts, rfl⟩ := hstaged.described
  refine bind_eq_ok.mpr ⟨(), compareEvents_self _, bind_eq_ok.mpr ⟨(), require_eq_ok.mpr (beq_self_eq_true _), ?_⟩⟩
  refine bind_eq_ok.mpr ⟨eventBytes, hstaged.events,
    bind_eq_ok.mpr ⟨(), require_eq_ok.mpr (beq_self_eq_true _), ?_⟩⟩
  refine bind_eq_ok.mpr ⟨assertionBytes, hstaged.assertions,
    bind_eq_ok.mpr ⟨(), require_eq_ok.mpr (beq_self_eq_true _), ?_⟩⟩
  exact bind_eq_ok.mpr ⟨(), require_eq_ok.mpr (beq_self_eq_true _), rfl⟩

/-- **The replay of a published recording**, from the checks on. -/
theorem replayScenario_recorded [DecidableEq κ] (name : Text) {runsDirectory' : Text} {frames : List EventFrame}
    {tail : List Delivery} (hfaithful : formats.Faithful) (hcodec : profile.codec.Faithful)
    (hlawful : profile.Lawful)
    (hrecorded : Recorded formats host options profile scenario runsDirectory template outcome)
    (hstaged : Staged formats options outcome runId manifest eventBytes assertionBytes run)
    (hresumes : Resumes host options published host' options') (hrun : published.run = run)
    (himages : published.images = host.imagesWith outcome.image)
    (hparent : parentPath run.path = some runsDirectory')
    (hemits : Emits host'.adapter frames tail) (hframes : frames.map EventFrame.normalize = outcome.events) :
    replayScenario formats host' options' run manifest profile runsDirectory'
      (runtimePath formats host' name) template =
      .ok ⟨runId, outcome.events.length, manifest.semanticOutcomeSha256, outcome.assertions⟩ := by
  obtain ⟨network, vm, config, hnetwork, hlaunched, hkernel, himage, hconfigured, hidentity, hdrive⟩ :=
    hrecorded.launched
  obtain ⟨hvm, -, hpaths⟩ := QemuAdapter.launch_ok hlaunched
  obtain ⟨hinitramfs, hrecordedNetwork⟩ := QemuAdapter.identity_ok hvm
  rw [hidentity] at hinitramfs hrecordedNetwork
  rw [himage] at hinitramfs
  rw [hconfigured, Option.map_some] at hrecordedNetwork
  have hserved := hlawful.served _ _ options.seed hrecorded.parsed
  have hsame := replayNetwork_identity hserved hresumes.assets hnetwork
  obtain ⟨path, hplain, hrebuilt⟩ := rebuildImage_recorded hrecorded hstaged hresumes hrun himages
    hparent hinitramfs
  obtain ⟨log, hcopied⟩ := copyReplayLog_staged hstaged hresumes.steps
  let config' := replayConfig (runtimePath formats host' name) config.kernel
    { outcome.image with path := path } log (replayNetwork formats host'
    (profile.requests (profile.choices scenario options.seed)) (profile.corruptResponses scenario))
  have hprepared : prepareReplay formats host' options' run manifest profile
      (outcome.recording scenario (profile.choices scenario options.seed) eventBytes assertionBytes) runsDirectory'
      (runtimePath formats host' name) template = .ok config' := by
    obtain ⟨artifacts, rfl⟩ := hstaged.described
    refine bind_eq_ok.mpr ⟨_, hrebuilt, bind_eq_ok.mpr ⟨log, hcopied,
      bind_eq_ok.mpr ⟨(), require_eq_ok.mpr ?_, ?_⟩⟩⟩
    · show outcome.identity.network.isSome = true
      rw [hrecordedNetwork]
      rfl
    refine bind_eq_ok.mpr ⟨(), ?_, bind_eq_ok.mpr ⟨config.kernel, hresumes.kernel.trans hkernel, rfl⟩⟩
    show QemuAdapter.compared (validateIdentity _ _ outcome.identity.network (some _)) = .ok ()
    rw [hrecordedNetwork, ← hsame]
    exact QemuAdapter.compared_self _ _ _
  -- the launch
  obtain ⟨process, ready, hstart, hqueue, hstatus, hready⟩ := hemits.started config'
  have henvironment : QemuAdapter.SameEnvironment config config' :=
    ⟨rfl, himage.symm, by rw [hconfigured, Option.map_some, ← hsame]; rfl⟩
  have hlaunch := QemuAdapter.launchReplay_of_record hlaunched hresumes.installation henvironment
    (validatePaths_replayConfig (validatePaths_ok hpaths) hplain) (fun network hnetwork => by cases hnetwork; rfl)
    hresumes.temporary ⟨_, _, rfl⟩ hstart hqueue hready
  have hrepeated := hlawful.repeats _ _ options.seed hrecorded.parsed _ _ _ hdrive
  have hagain := hrepeated.again (process.behind hqueue) frames tail rfl hframes
  have hvmIdentity : manifest.vm = vm.identity := by
    obtain ⟨artifacts, rfl⟩ := hstaged.described
    exact hidentity.symm
  have hchecked := recheck_iff.mpr (consistent_recorded hfaithful hcodec hlawful hrecorded hstaged)
  rw [← hvmIdentity] at hlaunch
  refine bind_eq_ok.mpr ⟨_, hchecked, bind_eq_ok.mpr ⟨config', hprepared, bind_eq_ok.mpr ⟨_, hlaunch, ?_⟩⟩⟩
  refine bind_eq_ok.mpr ⟨_, hagain, bind_eq_ok.mpr ⟨(), ?_, validateReplay_staged hstaged⟩⟩
  show (process.behind hqueue).wait _ = .ok ()
  rw [Process.wait, show (process.behind hqueue).status = .ok none from hstatus]
  rfl

end Replay

/-! ## Every published run -/

section Published

variable {formats : Formats} {host : Host} {options : RunOptions} {published : Published}

theorem parentPath_joinPath {root name : Text} (hname : slash ∉ name) (hne : name ≠ []) : ∃ parent,
    parentPath (joinPath root name) = some parent := by
  have hends : ∃ front, joinPath root name = front ++ name := by
    rw [joinPath]
    split
    · exact ⟨root, rfl⟩
    · exact ⟨root ++ [slash], by rw [List.append_assoc, List.singleton_append]⟩
  obtain ⟨front, hends⟩ := hends
  have hroot : joinPath root name ≠ [slash] := by
    rw [hends]
    intro heq
    rcases List.append_eq_singleton_iff.mp heq with ⟨-, rfl⟩ | ⟨-, hnil⟩
    · exact hname List.mem_cons_self
    · exact hne hnil
  rw [parentPath, if_neg hroot]
  split
  · exact ⟨_, rfl⟩
  · exact ⟨_, rfl⟩

/-- What a recording of either kind is. -/
theorem record_ok (h : record formats host options = .ok published) : ∃ nanos : BitVec 128,
    ∃ root staging runtime outcome store, recordOutcome formats host options staging runtime =
    .ok (outcome, store) ∧ publishRun formats host options root (runIdAt nanos.toNat options.seed) staging
    outcome store = .ok published := by
  obtain ⟨nanos, -, h⟩ := bind_eq_ok.mp h
  obtain ⟨_, -, h⟩ := bind_eq_ok.mp h
  obtain ⟨root, -, h⟩ := bind_eq_ok.mp h
  obtain ⟨_, -, h⟩ := bind_eq_ok.mp h
  obtain ⟨_, -, h⟩ := bind_eq_ok.mp h
  obtain ⟨⟨outcome, store⟩, houtcome, h⟩ := bind_eq_ok.mp h
  exact ⟨nanos, root, _, _, outcome, store, houtcome, h⟩

/-- The digests in the manifest of a recording. -/
theorem Recorded.digests_valid {σ κ : Type} {profile : Profile σ κ} {scenario : σ} {runsDirectory : Text}
    {template : Option Bytes} {outcome : RecordOutcome}
    (h : Recorded formats host options profile scenario runsDirectory template outcome) :
    validSha256 outcome.image.executableSha256 = true ∧ validSha256 outcome.identity.initramfsSha256 = true := by
  constructor
  · obtain ⟨bytes, -, himage⟩ := bind_eq_ok.mp h.image
    obtain ⟨_, -, himage⟩ := bind_eq_ok.mp himage
    obtain ⟨_, -, himage⟩ := bind_eq_ok.mp himage
    obtain ⟨_, -, himage⟩ := bind_eq_ok.mp himage
    obtain ⟨_, -, himage⟩ := bind_eq_ok.mp himage
    rw [← pure_eq_ok.mp himage]
    exact validSha256_sha256Hex formats.crates.sha256_length bytes
  · obtain ⟨network, vm, config, -, hlaunched, -, -, -, hidentity, -⟩ := h.launched
    obtain ⟨hvm, -, -⟩ := QemuAdapter.launch_ok hlaunched
    rw [← hidentity, (QemuAdapter.identity_ok hvm).1]
    exact validSha256_sha256Hex formats.crates.sha256_length _

/-- The lock of a published workload run names the workload that its store loads. -/
theorem reloadWorkload_recorded {outcome : RecordOutcome} {runId : Text} {manifest : Manifest}
    {eventBytes assertionBytes : Bytes} {run : Directory} {host' : Host} {loaded : Store.LoadedWorkload}
    (hfaithful : formats.Faithful)
    (hstaged : Staged formats options outcome runId manifest eventBytes assertionBytes run)
    (hworkload : outcome.workload = some (workloadIdentity formats loaded))
    (hlock : writeLock formats host outcome.workload = .ok outcome.lockBytes)
    (hload : Store.evaluate (Store.load formats.crates) host'.store = .ok loaded) :
    reloadWorkload formats host' run (workloadIdentity formats loaded) = .ok loaded := by
  rw [hworkload, writeLock] at hlock
  obtain ⟨bytes, hbytes, hlock⟩ := bind_eq_ok.mp hlock
  obtain ⟨_, -, hlock⟩ := bind_eq_ok.mp hlock
  obtain ⟨hjson, hsmall⟩ := boundedJson_ok hbytes
  have hheld := hstaged.lockHeld bytes (pure_eq_ok.mp hlock).symm
  have hread := readJson_of_holds hfaithful.lock hjson (Directory.holds_file hheld hsmall)
  refine bind_eq_ok.mpr ⟨_, hread, bind_eq_ok.mpr ⟨(), require_eq_ok.mpr (beq_self_eq_true _), ?_⟩⟩
  refine bind_eq_ok.mpr ⟨(), require_eq_ok.mpr (beq_self_eq_true _),
    bind_eq_ok.mpr ⟨(), require_eq_ok.mpr (beq_self_eq_true _), ?_⟩⟩
  exact bind_eq_ok.mpr ⟨loaded, hload, bind_eq_ok.mpr ⟨(), require_eq_ok.mpr (beq_self_eq_true _), rfl⟩⟩

/-- Wherever nothing has changed, the replay of a run returns its report and the digest of its outcome. -/
def Replayable (formats : Formats) (host : Host) (options : RunOptions) (published : Published) : Prop :=
  ∃ manifest events eventBytes, readManifest formats published.run = .ok manifest ∧
    readRecordedEvents formats published.run = .ok (events, eventBytes) ∧
    ∀ host' options' frames tail, Resumes host options published host' options' → Emits host'.adapter frames tail →
      frames.map EventFrame.normalize = events → replay formats host' options' =
        .ok ⟨published.runId, events.length, manifest.semanticOutcomeSha256, published.assertions⟩

section Kinds

variable {nanos : BitVec 128} {root staging runtime : Text} {outcome : RecordOutcome} {store : Store.Disk}

theorem replayable_network (hfaithful : formats.Faithful)
    (hrecord : recordNetworkScenario formats host options staging runtime = .ok (outcome, store))
    (hpublish : publishRun formats host options root (runIdAt nanos.toNat options.seed) staging outcome store =
      .ok published) : Replayable formats host options published := by
  obtain ⟨hrunId, hassertions, hpath, -, himages, manifest, eventBytes, assertionBytes, hstaged⟩ :=
    publishRun_ok hfaithful hpublish
  obtain ⟨hslash, hne⟩ := runIdAt_name nanos options.seed
  obtain ⟨parent, hparent⟩ : ∃ parent, parentPath published.run.path = some parent :=
    hpath ▸ parentPath_joinPath hslash hne
  have hworkload : manifest.workload = outcome.workload := by
    obtain ⟨artifacts, rfl⟩ := hstaged.described
    rfl
  obtain ⟨source, -, hrecord⟩ := bind_eq_ok.mp hrecord
  obtain ⟨scenario, hscenario, hrecord⟩ := bind_eq_ok.mp hrecord
  obtain ⟨recorded, houtcome, hrecord⟩ := bind_eq_ok.mp hrecord
  obtain ⟨rfl, -⟩ := Prod.mk.inj (pure_eq_ok.mp hrecord)
  obtain ⟨hrecorded, hnone⟩ := recordScenario_ok hscenario houtcome
  have hlawful := networkRun_lawful formats
  obtain ⟨hexecutable, hinitramfs⟩ := hrecorded.digests_valid
  have hmanifest := readManifest_recorded hpath rfl hstaged hexecutable hinitramfs fun workload hsome => by
    rw [hnone] at hsome
    cases hsome
  have hconsistent := consistent_recorded hfaithful hfaithful.choices hlawful hrecorded hstaged
  refine ⟨manifest, _, _, hmanifest, hconsistent.readEvents,
    fun host' options' frames tail hresumes hemits hframes => ?_⟩
  have hreplayed := replayScenario_recorded "replay-attempt" hfaithful hfaithful.choices hlawful hrecorded
    hstaged hresumes rfl himages hparent hemits hframes
  rw [hrunId, hassertions]
  refine bind_eq_ok.mpr ⟨_, hresumes.directory, bind_eq_ok.mpr ⟨parent, okOr_eq_ok.mpr hparent, ?_⟩⟩
  refine bind_eq_ok.mpr ⟨(), hresumes.steps _,
    bind_eq_ok.mpr ⟨(), hresumes.steps _, bind_eq_ok.mpr ⟨manifest, hmanifest, ?_⟩⟩⟩
  rw [hworkload, hnone]
  exact hreplayed

theorem replayable_workload (hfaithful : formats.Faithful) {specification : Store.Source}
    (hrecord : recordWorkloadScenario formats host options specification staging runtime = .ok (outcome, store))
    (hpublish : publishRun formats host options root (runIdAt nanos.toNat options.seed) staging outcome store =
      .ok published) : Replayable formats host options published := by
  obtain ⟨hrunId, hassertions, hpath, hstore, himages, manifest, eventBytes, assertionBytes, hstaged⟩ :=
    publishRun_ok hfaithful hpublish
  obtain ⟨hslash, hne⟩ := runIdAt_name nanos options.seed
  obtain ⟨parent, hparent⟩ : ∃ parent, parentPath published.run.path = some parent :=
    hpath ▸ parentPath_joinPath hslash hne
  have hworkload : manifest.workload = outcome.workload := by
    obtain ⟨artifacts, rfl⟩ := hstaged.described
    rfl
  obtain ⟨source, -, hrecord⟩ := bind_eq_ok.mp hrecord
  obtain ⟨scenario, hscenario, hrecord⟩ := bind_eq_ok.mp hrecord
  obtain ⟨runsDirectory, -, hrecord⟩ := bind_eq_ok.mp hrecord
  obtain ⟨assembled, -, hrecord⟩ := bind_eq_ok.mp hrecord
  obtain ⟨loaded, hload, hrecord⟩ := bind_eq_ok.mp hrecord
  obtain ⟨_, -, hrecord⟩ := bind_eq_ok.mp hrecord
  obtain ⟨recorded, houtcome, hrecord⟩ := bind_eq_ok.mp hrecord
  obtain ⟨rfl, hstored⟩ := Prod.mk.inj (pure_eq_ok.mp hrecord)
  obtain ⟨hrecorded, hloaded⟩ := recordScenario_ok hscenario houtcome
  have hlawful := workloadRun_lawful formats loaded.launch
  obtain ⟨hexecutable, hinitramfs⟩ := hrecorded.digests_valid
  have hmanifest := readManifest_recorded hpath rfl hstaged hexecutable hinitramfs fun workload hsome => by
    obtain rfl := Option.some.inj (hloaded.symm.trans hsome)
    exact loaded_valid hload
  have hconsistent := consistent_recorded hfaithful hfaithful.workloadChoices hlawful hrecorded hstaged
  refine ⟨manifest, _, _, hmanifest, hconsistent.readEvents,
    fun host' options' frames tail hresumes hemits hframes => ?_⟩
  have hreload := reloadWorkload_recorded hfaithful hstaged hloaded hrecorded.lock
    (by rw [hresumes.store, hstore, ← hstored]; exact hload)
  have hreplayed := replayScenario_recorded "replay-attempt" hfaithful hfaithful.workloadChoices hlawful
    hrecorded hstaged hresumes rfl himages hparent hemits hframes
  rw [hrunId, hassertions]
  refine bind_eq_ok.mpr ⟨_, hresumes.directory, bind_eq_ok.mpr ⟨parent, okOr_eq_ok.mpr hparent, ?_⟩⟩
  refine bind_eq_ok.mpr ⟨(), hresumes.steps _,
    bind_eq_ok.mpr ⟨(), hresumes.steps _, bind_eq_ok.mpr ⟨manifest, hmanifest, ?_⟩⟩⟩
  rw [hworkload, hloaded]
  exact bind_eq_ok.mpr ⟨loaded, hreload, hreplayed⟩

end Kinds

/-- **Every published run is replayed**, to the recorded report and the digest of its outcome. -/
theorem record_replay (formats : Formats) (hfaithful : formats.Faithful) (host : Host) (options : RunOptions)
    (published : Published) (h : record formats host options = .ok published) : ∃ manifest events eventBytes,
    readManifest formats published.run = .ok manifest ∧
      readRecordedEvents formats published.run = .ok (events, eventBytes) ∧
      ∀ host' options' frames tail, Resumes host options published host' options' →
        Emits host'.adapter frames tail → frames.map EventFrame.normalize = events →
        replay formats host' options' =
          .ok ⟨published.runId, events.length, manifest.semanticOutcomeSha256, published.assertions⟩ := by
  obtain ⟨nanos, root, staging, runtime, outcome, store, houtcome, hpublish⟩ := record_ok h
  rw [recordOutcome] at houtcome
  split at houtcome
  · exact replayable_workload hfaithful houtcome hpublish
  · exact replayable_network hfaithful houtcome hpublish

end Published

/-! ## A sample run -/

def sampleToml : Text :=
    utf8 "version = 1\nname = \"sample\"\nrequest_count = 3\npayload_bytes = 1\nfixture_peer = \"10.0.2.2\"\n" ++
    utf8 "outage_event_bound = 1\nliveness_event_bound = 2\n"

/-- Three requests, and the tightest bounds. -/
def sampleScenario : Scenario :=
  { version := scenarioVersion, name := "sample", requestCount := 3, payloadBytes := 1, fixturePeer := "10.0.2.2"
    outageEventBound := 1, livenessEventBound := 2, corruptResponses := false }

def sampleChoices : ChoicePlan := sampleScenario.choices 7

def choicesJson : Text := List.flatten [
    utf8 "\x7b\n  \"version\": 1,\n  \"seed\": 7,\n  \"outage_activation_request_index\": 1,\n",
    utf8 "  \"restoration_request_index\": 2,\n  \"requests\": [\n    \x7b\n",
    utf8 "      \"request_id\": \"request-0000-e6984080bab12a02\",\n      \"payload\": \"cb\"\n    \x7d,\n",
    utf8 "    \x7b\n      \"request_id\": \"request-0001-73d33b666a1e21da\",\n      \"payload\": \"11\"\n",
    utf8 "    \x7d,\n    \x7b\n      \"request_id\": \"request-0002-77cbc4a133c2d0f6\",\n",
    utf8 "      \"payload\": \"fe\"\n    \x7d\n  ]\n\x7d"]

def sampleReport : AssertionReport := evaluate (planFrames sampleChoices false) 1 2

def reportJson : Text := List.flatten [
    utf8 "\x7b\n  \"passed\": true,\n  \"assertions\": [\n    \x7b\n      \"name\": \"safety\",\n",
    utf8 "      \"passed\": true,\n      \"detail\": \"matching pre-outage response observed at event 3\"\n",
    utf8 "    \x7d,\n    \x7b\n      \"name\": \"controlled_outage\",\n      \"passed\": true,\n",
    utf8 "      \"detail\": \"request event 5 was administratively prohibited after 1 event(s)\"\n    \x7d,\n",
    utf8 "    \x7b\n      \"name\": \"restoration\",\n      \"passed\": true,\n",
    utf8 "      \"detail\": \"network restoration was confirmed at event 7\"\n    \x7d,\n    \x7b\n",
    utf8 "      \"name\": \"bounded_recovery\",\n      \"passed\": true,\n",
    utf8 "      \"detail\": \"matching recovery response event 9 arrived after 2 event(s)\"\n    \x7d\n  ]\n",
    utf8 "\x7d"]

/-- What the guest sends, if it does what it is told. -/
def sampleFrames : List EventFrame :=
  planFrames sampleChoices false ++
    [Guest.eventFrame 10 7 (.assertionsEvaluated sampleReport), Guest.eventFrame 11 8 .agentStopped]

def sampleEvents : List NormalizedEvent := sampleFrames.map EventFrame.normalize

def sampleVm : VmIdentity where
  qemu := ⟨"/usr/bin/qemu-system-x86_64", "d959ea0c51cd226e1a8264bed6b15aeaa82801ba07b82d519f01071a11533427"⟩
  qemuVersion := "QEMU emulator version 9.2.4"
  kernel := ⟨"/boot/vmlinuz", "7da1e327763706e75c15f13019bc2afa4b17f8b6b9a8b6ec6ffbc7de1eb87428"⟩
  initramfsSha256 := "b10e0f287ed5c355a86c5407db053f8010aacd5b7c3c948e3af28cef0bd4a939"
  machine := machine
  cpu := cpu
  memoryMib := memoryMib
  vcpus := 1
  accelerator := "tcg"
  firmware := [⟨"/usr/share/qemu/bios-256k.bin",
    "5f7702fe116ba1d927a4ee58a50ba1bc8cf45d1da86c7a29a478aafd20d7850e"⟩,
    ⟨"/usr/share/qemu/linuxboot_dma.bin", "c829da07247525568e4c16bec1ec93e104048d16d548c7cd49ad98884a1c915f"⟩]
  devices := ["isa-serial:diagnostics", "isa-serial:agent"]
  network := some (restrictedTftp none "0a6cd893a8cfe3e3a365e377b359d40819317f4e56773baac332f71815fdf0e8"
    "4bf5122f344554c53bde2ebb8cd2b7e3d1600ad631c385a5d7cce23c7785459a").identity

def sampleManifest : Manifest where
  version := manifestVersion
  runId := "run-00000000000000000000000000000001-0000000000000007"
  scenarioName := "sample"
  seed := 7
  simferretVersion := "0.1.0"
  simferretPath := "/usr/bin/simferret"
  simferretSha256 := "727676303a1c1decf423daa363ab62303ac4e7b75fe50b172cdb63b7da01f5f5"
  vm := sampleVm
  initialStateSha256 := sampleVm.initramfsSha256
  semanticOutcomeSha256 := "b4290bc74439417860c4864a90506ea9914c013540f76ae0b0d6c31e290ee9f6"
  artifacts := .ofList [
    (utf8 "scenario.toml", utf8 "dc1df7b1038afd45e517801e1dac9f4dde315d0fbae6edcd44d7f9488079bfba"),
    (utf8 "choices.json", utf8 "0e2380586bac8a3f92befdf659b7754e7d9afdcd1c9aec020bf208f7d2341a4c"),
    (utf8 "replay.bin", utf8 "ac203c9843b5bd8c883e07039ff82820c94422010be6108bb82403ca25376a22"),
    (utf8 "events.jsonl", utf8 "a88dc7882ec71dc39270ba57d4c66850b3ca692234dc2db2d2b4c22f1e94e80d"),
    (utf8 "assertions.json", utf8 "380907082fb9208bfd69b2c1a5ea48267dbb74b667bd6740844705a6eec7258e"),
    (utf8 "logs/qemu.log", utf8 "e3b0c44298fc1c149afbf4c8996fb92427ae41e4649b934ca495991b7852b855"),
    (utf8 "logs/serial.log", utf8 "e3b0c44298fc1c149afbf4c8996fb92427ae41e4649b934ca495991b7852b855")]
  workload := none

/-- The manifest of the same run at another time, with another log. -/
def secondManifest : Manifest :=
  { sampleManifest with
    runId := "run-00000000000000000000000000000002-0000000000000007"
    artifacts := sampleManifest.artifacts.insert "replay.bin"
      "48c422bfe2cfb2f37b6c17f3bff470b2ec0d69bc92d8a6091232ff124371b322" }

def manifestJson (manifest : Manifest) : Text := List.flatten [
    utf8 "\x7b\n  \"version\": 1,\n  \"run_id\": \"", manifest.runId, utf8 "\",\n",
    utf8 "  \"scenario_name\": \"sample\",\n  \"seed\": 7,\n  \"simferret_version\": \"0.1.0\",\n",
    utf8 "  \"simferret_path\": \"/usr/bin/simferret\",\n",
    utf8 "  \"simferret_sha256\": \"727676303a1c1decf423daa363ab62303ac4e7b75fe50b172cdb63b7da01f5f5\",\n",
    utf8 "  \"vm\": \x7b\n    \"qemu\": \x7b\n      \"path\": \"/usr/bin/qemu-system-x86_64\",\n",
    utf8 "      \"sha256\": \"d959ea0c51cd226e1a8264bed6b15aeaa82801ba07b82d519f01071a11533427\"\n    \x7d,\n",
    utf8 "    \"qemu_version\": \"QEMU emulator version 9.2.4\",\n    \"kernel\": \x7b\n",
    utf8 "      \"path\": \"/boot/vmlinuz\",\n",
    utf8 "      \"sha256\": \"7da1e327763706e75c15f13019bc2afa4b17f8b6b9a8b6ec6ffbc7de1eb87428\"\n    \x7d,\n",
    utf8 "    \"initramfs_sha256\": \"b10e0f287ed5c355a86c5407db053f8010aacd5b7c3c948e3af28cef0bd4a939\",\n",
    utf8 "    \"machine\": \"pc-i440fx-9.2\",\n    \"cpu\": \"qemu64\",\n    \"memory_mib\": 128,\n",
    utf8 "    \"vcpus\": 1,\n    \"accelerator\": \"tcg\",\n    \"firmware\": [\n      \x7b\n",
    utf8 "        \"path\": \"/usr/share/qemu/bios-256k.bin\",\n",
    utf8 "        \"sha256\": \"5f7702fe116ba1d927a4ee58a50ba1bc8cf45d1da86c7a29a478aafd20d7850e\"\n",
    utf8 "      \x7d,\n      \x7b\n        \"path\": \"/usr/share/qemu/linuxboot_dma.bin\",\n",
    utf8 "        \"sha256\": \"c829da07247525568e4c16bec1ec93e104048d16d548c7cd49ad98884a1c915f\"\n",
    utf8 "      \x7d\n    ],\n    \"devices\": [\n      \"isa-serial:diagnostics\",\n",
    utf8 "      \"isa-serial:agent\"\n    ],\n    \"network\": \x7b\n      \"nic\": \x7b\n",
    utf8 "        \"model\": \"rtl8139\",\n        \"mac_address\": \"52:54:00:12:34:56\",\n",
    utf8 "        \"bus\": \"pci.0\",\n        \"pci_address\": \"0x3\",\n        \"option_rom\": false\n",
    utf8 "      \x7d,\n      \"backend\": \x7b\n        \"kind\": \"user\",\n        \"id\": \"simnet\",\n",
    utf8 "        \"restricted\": true\n      \x7d,\n      \"replay_filter\": \x7b\n",
    utf8 "        \"kind\": \"filter-replay\",\n        \"id\": \"simnet-replay\",\n",
    utf8 "        \"backend_id\": \"simnet\",\n        \"queue\": \"all\"\n      \x7d,\n",
    utf8 "      \"addressing\": \x7b\n        \"guest_cidr\": \"10.0.2.15/24\",\n",
    utf8 "        \"gateway\": \"10.0.2.2\",\n        \"peer\": \"10.0.2.2\"\n      \x7d,\n",
    utf8 "      \"route\": \x7b\n        \"destination\": \"0.0.0.0/0\",\n        \"gateway\": \"10.0.2.2\",\n",
    utf8 "        \"interface\": \"eth0\"\n      \x7d,\n      \"fixture\": \x7b\n",
    utf8 "        \"transport\": \"tftp\",\n        \"behavior\": \"immutable-files\",\n",
    utf8 "        \"content_sha256\": \"0a6cd893a8cfe3e3a365e377b359d40819317f4e56773baac332f71815fdf0e8\"\n",
    utf8 "      \x7d,\n      \"fault\": \x7b\n        \"mechanism\": \"prohibit-route\",\n",
    utf8 "        \"direction\": \"outbound\",\n        \"peer_cidr\": \"10.0.2.2/32\",\n",
    utf8 "        \"rule\": \"prohibit 10.0.2.2/32\",\n        \"tool\": \x7b\n",
    utf8 "          \"path\": \"/bin/busybox\",\n",
    utf8 "          \"sha256\": \"4bf5122f344554c53bde2ebb8cd2b7e3d1600ad631c385a5d7cce23c7785459a\"\n",
    utf8 "        \x7d\n      \x7d\n    \x7d\n  \x7d,\n",
    utf8 "  \"initial_state_sha256\": \"b10e0f287ed5c355a86c5407db053f8010aacd5b7c3c948e3af28cef0bd4a939\",\n",
    utf8 "  \"semantic_outcome_sha256\": \"b4290bc74439417860c4864a90506ea9914c013540f76ae0b0d6c31e290ee9f6\",",
    utf8 "\n  \"artifacts\": \x7b\n",
    utf8 "    \"assertions.json\": \"380907082fb9208bfd69b2c1a5ea48267dbb74b667bd6740844705a6eec7258e\",\n",
    utf8 "    \"choices.json\": \"0e2380586bac8a3f92befdf659b7754e7d9afdcd1c9aec020bf208f7d2341a4c\",\n",
    utf8 "    \"events.jsonl\": \"a88dc7882ec71dc39270ba57d4c66850b3ca692234dc2db2d2b4c22f1e94e80d\",\n",
    utf8 "    \"logs/qemu.log\": \"e3b0c44298fc1c149afbf4c8996fb92427ae41e4649b934ca495991b7852b855\",\n",
    utf8 "    \"logs/serial.log\": \"e3b0c44298fc1c149afbf4c8996fb92427ae41e4649b934ca495991b7852b855\",\n",
    utf8 "    \"replay.bin\": \"", manifest.artifacts.getD "replay.bin" [], utf8 "\",\n",
    utf8 "    \"scenario.toml\": \"dc1df7b1038afd45e517801e1dac9f4dde315d0fbae6edcd44d7f9488079bfba\"\n",
    utf8 "  \x7d\n\x7d"]

/-- The compressed image of the sample executable. -/
def sampleImage : Bytes := [
    31, 139, 8, 0, 0, 0, 0, 0, 0, 255, 51, 48, 55, 48, 55, 48, 52, 128, 0, 48, 109, 98, 152, 154, 98, 128,
      29, 24, 226, 16, 39, 4, 140, 96, 12, 61, 6, 3, 122, 216, 103, 2, 99, 36, 101, 230, 49, 48, 208, 217, 206,
      148, 212, 50, 122, 217, 105, 1, 99, 228, 230, 167, 148, 230, 164, 22, 211, 203, 94, 83, 24, 163, 160, 40,
      63, 153, 222, 225, 91, 92, 73, 55,
    127, 194, 237, 44, 201, 45, 192, 106, 167, 5, 241, 118, 18, 235, 134, 100, 24, 3, 152, 118, 245, 147,
      74, 139, 43, 147, 242, 43, 128, 118, 51, 226, 176, 63, 209, 4, 171, 41, 228, 219, 159, 6, 99, 64, 211,
      148, 126, 110, 102, 166, 94, 118, 62, 208, 122, 6, 38, 58, 185, 193, 16, 94, 94, 192, 220, 96, 97, 104,
      108, 153, 92, 0, 114, 6, 51, 133, 241,
    96, 158, 72, 156, 27, 16, 105, 60, 51, 47, 179, 132, 129, 161, 222, 213, 199, 141, 137, 17, 20, 11, 16,
      192, 196, 96, 7, 142, 147, 10, 6, 7, 48, 223, 129, 1, 19, 56, 48, 88, 48, 192, 116, 128, 104, 86, 52, 89,
      100, 186, 10, 202, 131, 209, 12, 2, 16, 234, 245, 63, 108, 254, 197, 23, 120, 68, 250, 15, 29, 36, 193,
      24, 33, 65, 142, 158, 62, 174, 65,
    138, 138, 138, 32, 251, 1, 153, 1, 219, 170, 32, 6, 0, 0]

/-- The SHA-256 of each message of the sample, told apart by their lengths. -/
def runSha256 (message : Bytes) : Bytes :=
  Store.digestOf <| match message.length with
    | 0 => 0xe3b0c44298fc1c149afbf4c8996fb92427ae41e4649b934ca495991b7852b855
    | 1 => 0x4bf5122f344554c53bde2ebb8cd2b7e3d1600ad631c385a5d7cce23c7785459a
    | 6 => 0xac203c9843b5bd8c883e07039ff82820c94422010be6108bb82403ca25376a22
    | 8 => 0x48c422bfe2cfb2f37b6c17f3bff470b2ec0d69bc92d8a6091232ff124371b322
    | 9 => 0xd959ea0c51cd226e1a8264bed6b15aeaa82801ba07b82d519f01071a11533427
    | 10 => 0x7da1e327763706e75c15f13019bc2afa4b17f8b6b9a8b6ec6ffbc7de1eb87428
    | 13 => 0x5f7702fe116ba1d927a4ee58a50ba1bc8cf45d1da86c7a29a478aafd20d7850e
    | 14 => 0x316b613b8bde96fda535b0830c2cfc7f11eae1a54d9962ba55f75f1796f9511e
    | 20 => 0xc829da07247525568e4c16bec1ec93e104048d16d548c7cd49ad98884a1c915f
    | 53 => 0xc826a2b6d8220982625f950985cd985dd1bd0dad9d7988fc8fcf4655c60391e3
    | 122 => 0x727676303a1c1decf423daa363ab62303ac4e7b75fe50b172cdb63b7da01f5f5
    | 138 => 0xdc1df7b1038afd45e517801e1dac9f4dde315d0fbae6edcd44d7f9488079bfba
    | 252 => 0xb10e0f287ed5c355a86c5407db053f8010aacd5b7c3c948e3af28cef0bd4a939
    | 325 => 0x0a6cd893a8cfe3e3a365e377b359d40819317f4e56773baac332f71815fdf0e8
    | 390 => 0x0e2380586bac8a3f92befdf659b7754e7d9afdcd1c9aec020bf208f7d2341a4c
    | 596 => 0x380907082fb9208bfd69b2c1a5ea48267dbb74b667bd6740844705a6eec7258e
    | 2239 => 0xa88dc7882ec71dc39270ba57d4c66850b3ca692234dc2db2d2b4c22f1e94e80d
    | 3395 => 0xb4290bc74439417860c4864a90506ea9914c013540f76ae0b0d6c31e290ee9f6
    | _ => 0

/-- The codec of a type that a network run does not use. -/
def unusedCodec {α : Type} : Codec α := ⟨fun _ => .error "not part of the sample",
    fun _ => .error ⟨.syntaxError, 1, 1⟩⟩

def sampleFormats : Formats where
  crates := { Store.sampleCrates with
    sha256 := runSha256
    sha256_length message := by rw [runSha256, Store.digestOf, List.length_map, List.length_range] }
  utf8Error _ := "invalid utf-8"
  order := insertionOrder
  tables := asciiTables
  literals := sampleLiterals
  version := "0.1.0"
  gzip _ := sampleImage
  tomlScenario text := if text = sampleToml then .ok sampleScenario else .error none
  tomlWorkloadScenario _ := .error none
  manifest := Store.tableCodec [sampleManifest, secondManifest] manifestJson
  lock := unusedCodec
  choices := Store.sampleCodec sampleChoices choicesJson
  workloadChoices := unusedCodec
  report := Store.sampleCodec sampleReport reportJson
  derived := Store.tableCodec sampleEvents fun event => event.frame.toJson sampleLiterals
  custom _ _ := ⟨.data, 1, 1⟩

/-- The frames as a guest with the pid sends them. -/
def laterFrames (pid : Nat) : List EventFrame :=
  sampleFrames.map fun frame => { frame with diagnostics := { guestPid := some pid } }

/-- No event of the sample has an exit record. -/
theorem laterFrames_decoded (pid : Nat) : ∀ frame ∈ laterFrames pid,
    frame.event.deserialize = .ok frame.event := by
  intro frame hframe
  obtain ⟨sample, hsample, rfl⟩ := List.mem_map.mp hframe
  have hall : ∀ sample ∈ sampleFrames, sample.event.deserialize = .ok sample.event := by decide +kernel
  exact hall sample hsample

/-- A VM that sends the frames with the pid of the guest. -/
def sampleProcess (pid : Nat) : Process where
  queue := .event (Guest.eventFrame 0 0 .agentReady) :: ((laterFrames pid).map .event ++ [.closed])
  sends := []
  status := .ok none
  outputs name := .ok (.file (if name = utf8 "replay.bin" then utf8 "replay" else []))
  decoded frame hframe := by
    simp only [List.mem_cons, List.mem_append, List.mem_map, List.not_mem_nil, or_false, reduceCtorEq,
      Delivery.event.injEq] at hframe
    rcases hframe with rfl | ⟨sent, hsent, rfl⟩
    · exact ⟨.agentReady, rfl⟩
    · exact ⟨_, laterFrames_decoded pid sent hsent⟩

def sampleAdapter (pid : Nat) : QemuAdapter where
  executable := "/usr/bin/qemu-system-x86_64"
  bios := "/usr/share/qemu/bios-256k.bin"
  linuxboot := "/usr/share/qemu/linuxboot_dma.bin"
  files path := okOr ([(utf8 "/usr/bin/qemu-system-x86_64", utf8 "\x7fELF qemu"),
    (utf8 "/boot/vmlinuz", utf8 "\x7fELF linux"), (utf8 "/usr/share/qemu/bios-256k.bin", utf8 "bios-256k-9.2"),
    (utf8 "/usr/share/qemu/linuxboot_dma.bin", utf8 "linuxboot option rom")].lookup path) ⟨.notFound,
      "no such file"⟩
  version := .ok (true, "QEMU emulator version 9.2.4\n")
  temporary := .ok ()
  start _ _ _ := .ok (sampleProcess pid)

def sampleHost : Host where
  read path :=
    okOr ([(utf8 "/srv/sample.toml", sampleToml), (utf8 "/usr/bin/simferret", Store.sampleExecutable)].lookup path)
    ⟨.notFound, "no such file"⟩
  canonicalize path := .ok path
  step _ := .ok ()
  nanos := .ok 1
  process := ⟨1000, 4711, id⟩
  counter := 0
  readdir := id
  readdir_perm _ := .refl _
  images _ := none
  assets := Store.sampleAssets
  adapter := sampleAdapter 77
  store := .absent
  runs _ := .error ⟨.notFound, "no such directory"⟩

/-- A later time, at which the VM leaves another log. -/
def secondHost : Host :=
  { sampleHost with
    nanos := .ok 2
    adapter := { sampleAdapter 77 with
      start := fun _ _ _ => .ok { sampleProcess 77 with
        outputs := fun name => .ok (.file (if name = utf8 "replay.bin" then utf8 "replay 2" else [])) } } }

def recordingHost (again : Bool) : Host := if again then secondHost else sampleHost

def sampleOptions : RunOptions := ⟨"/srv/sample.toml", 7, "/srv/runs", "/boot/vmlinuz", "/usr/bin/simferret", none⟩

def laterOptions : ReplayOptions := ⟨"/srv/runs/sample", "/boot/vmlinuz", "/usr/bin/simferret"⟩

/-- The same machine later, with another pid in the guest. -/
def laterHost (published : Published) (pid : Nat) : Host :=
  { sampleHost with
    images := published.images
    adapter := sampleAdapter pid
    store := published.store
    runs := fun _ => .ok published.run }

def sampleLog (again : Bool) : Bytes := if again then utf8 "replay 2" else utf8 "replay"

/-- What the artifacts of the sample hold, in the order of their names. -/
def sampleContents (again : Bool) : List Bytes :=
  [sampleToml, choicesJson ++ [10], sampleLog again, sampleEvents.flatMap fun event =>
    event.frame.toJson sampleLiterals ++ [10], reportJson ++ [10], [], [], []]

set_option synthInstance.maxSize 256 in
theorem sampleRun : ∀ again, (record sampleFormats (recordingHost again) sampleOptions).toOption.map
    (fun published => (parentPath published.run.path,
    (readRecordedEvents sampleFormats published.run).toOption.map (·.1),
      (readManifest sampleFormats published.run).toOption.map Manifest.semanticOutcomeSha256,
      (artifactSet true).map fun name => (published.run.entry name).toOption)) =
      some (some (utf8 "/srv/runs"), some sampleEvents, some sampleManifest.semanticOutcomeSha256,
        (sampleContents again).map fun contents => some (.file contents)) := by
  rintro (_ | _) <;> decide +kernel

theorem isAscii_digest {digest : Text} (h : validSha256 digest = true) : IsAscii digest := by
  intro byte hbyte
  have hhex := List.all_eq_true.mp (Bool.and_eq_true_iff.mp h).2 byte hbyte
  rw [Bool.or_eq_true, isAsciiDigit, Bool.and_eq_true, Bool.and_eq_true] at hhex
  rcases hhex with ⟨-, hdigit⟩ | ⟨-, hletter⟩
  · exact UInt8.lt_of_le_of_lt (of_decide_eq_true hdigit) (by decide)
  · exact UInt8.lt_of_le_of_lt (of_decide_eq_true hletter) (by decide)

theorem sampleFormats_faithful : sampleFormats.Faithful := by
  refine ⟨Store.faithful_tableCodec (by decide +kernel), fun _ _ h => ?_, Store.faithful_sampleCodec _ _,
    fun _ _ h => ?_, Store.faithful_sampleCodec _ _, fun event line h => ?_⟩
  · cases h
  · cases h
  have hlines : ∀ event ∈ sampleEvents,
      sampleFormats.derived.fromSlice (event.frame.toJson sampleLiterals) = .ok event ∧
      Fixture.IsLine (event.frame.toJson sampleLiterals) ∧
          Utf8.valid (event.frame.toJson sampleLiterals) = true := by
    decide +kernel
  have hmem : event ∈ sampleEvents := by
    by_contra hnot
    rw [show sampleFormats.derived.toVec event = .error (utf8 "not part of the sample") from if_neg hnot] at h
    cases h
  rw [show sampleFormats.derived.toVec event = .ok (event.frame.toJson sampleLiterals) from if_pos hmem] at h
  rw [← Except.ok.inj h]
  exact hlines event hmem

/-- Nothing has changed on the later machine. -/
theorem laterHost_resumes {published : Published} {again : Bool}
    (hparent : parentPath published.run.path = some (utf8 "/srv/runs")) (pid : Nat) :
    Resumes (recordingHost again) sampleOptions published (laterHost published pid) laterOptions := by
  have hcache : ∀ runsDirectory digest, parentPath published.run.path = some runsDirectory →
      validSha256 digest = true →
      (joinPath (joinPath runsDirectory ".images") (digest ++ utf8 ".cpio.gz")).head? = some slash ∧
        Utf8.valid (joinPath (joinPath runsDirectory ".images") (digest ++ utf8 ".cpio.gz")) = true := by
    intro runsDirectory digest hsome hdigest
    obtain rfl := Option.some.inj (hparent.symm.trans hsome)
    have hjoined : joinPath (joinPath "/srv/runs" ".images") (digest ++ utf8 ".cpio.gz") =
        utf8 "/srv/runs/.images/" ++ (digest ++ utf8 ".cpio.gz") := rfl
    have hfront : IsAscii (utf8 "/srv/runs/.images/") := by decide +kernel
    have hend : IsAscii (utf8 ".cpio.gz") := by decide +kernel
    rw [hjoined]
    exact ⟨rfl, Utf8.valid_of_ascii (hfront.append ((isAscii_digest hdigest).append hend))⟩
  cases again <;>
    exact ⟨rfl, fun _ => rfl, rfl, rfl, rfl, rfl,
      fun _ _ hsome hdigest _ => ⟨_, rfl, hcache _ _ hsome hdigest⟩, rfl,
      ⟨rfl, rfl, rfl, rfl, rfl⟩, rfl⟩

theorem laterHost_emits (published : Published) (pid : Nat) :
    Emits (laterHost published pid).adapter (laterFrames pid) [] := by
  exact ⟨fun _ => ⟨sampleProcess pid, Guest.eventFrame 0 0 .agentReady, rfl, rfl, rfl, rfl, rfl, rfl, rfl⟩⟩

theorem laterFrames_events (pid : Nat) : (laterFrames pid).map EventFrame.normalize = sampleEvents := by
  rw [laterFrames, List.map_map]
  rfl

theorem sampleRun_published (again : Bool) : ∃ published eventBytes manifest,
    record sampleFormats (recordingHost again) sampleOptions = .ok published ∧
    parentPath published.run.path = some (utf8 "/srv/runs") ∧
      readRecordedEvents sampleFormats published.run = .ok (sampleEvents, eventBytes) ∧
      readManifest sampleFormats published.run = .ok manifest ∧
      manifest.semanticOutcomeSha256 = sampleManifest.semanticOutcomeSha256 ∧
      ((artifactSet true).map fun name => (published.run.entry name).toOption) =
        (sampleContents again).map fun contents => some (.file contents) := by
  obtain ⟨published, hrecord, hrun⟩ := exists_ok_of_map (sampleRun again)
  obtain ⟨hparent, hrun⟩ := Prod.mk.inj hrun
  obtain ⟨hevents, hrun⟩ := Prod.mk.inj hrun
  obtain ⟨hmanifest, hcontents⟩ := Prod.mk.inj hrun
  obtain ⟨⟨events, eventBytes⟩, hread, rfl⟩ := exists_ok_of_map hevents
  obtain ⟨manifest, hmanifest, hsemantic⟩ := exists_ok_of_map hmanifest
  exact ⟨published, eventBytes, manifest, hrecord, hparent, hread, hmanifest, hsemantic, hcontents⟩

/-- The sample, recorded with one pid in the guest and replayed with another. -/
theorem record_replay_sample : ∃ published manifest,
    record sampleFormats sampleHost sampleOptions = .ok published ∧
    readManifest sampleFormats published.run = .ok manifest ∧
      replay sampleFormats (laterHost published 78) laterOptions =
        .ok ⟨published.runId, 11, manifest.semanticOutcomeSha256, published.assertions⟩ := by
  obtain ⟨published, eventBytes, -, hrecord, hparent, hsample, -⟩ := sampleRun_published false
  obtain ⟨manifest, events, _, hmanifest, hread, hreplay⟩ :=
    record_replay sampleFormats sampleFormats_faithful sampleHost sampleOptions published hrecord
  obtain rfl : events = sampleEvents := congrArg Prod.fst (Except.ok.inj (hread.symm.trans hsample))
  exact ⟨published, manifest, hrecord, hmanifest,
    hreplay _ _ _ _ (@laterHost_resumes _ false hparent 78) (laterHost_emits published 78) (laterFrames_events 78)⟩

end SimFerret.Run
