import SimFerret.Driver.Divergence
import SimFerret.Fixture
import SimFerret.Lib.Lines
import SimFerret.Vm.Launch
import SimFerret.Workload.Crates

/-!
# SimFerret.Run.Artifacts — what a run directory holds, and how it is read (`run.rs`)

* `Directory`: a run directory, by what opening each name in it finds.
* `artifactDigests`, `validateArtifacts`: the digests of the artifacts, as they are taken and as they are checked.
* `encodeEvents`, `decodeEvents`: the recorded events, one to a line.
* `Manifest`, `validateManifest`: the manifest.
* `validateArtifacts_iff`, `decodeEvents_encodeEvents`: **what is checked is what was written**.
-/

namespace SimFerret.Run

open Workload Driver

def manifestVersion : Nat := 1
def maxManifestBytes : Nat := 1024 * 1024
def maxSemanticArtifactBytes : Nat := 8 * 1024 * 1024
def maxDiagnosticArtifactBytes : Nat := 16 * 1024 * 1024
def maxReplayLogBytes : Nat := 1024 * 1024 * 1024
def maxScenarioSourceBytes : Nat := 1024 * 1024
def workloadLockVersion : Nat := 1
def workloadLockPath : Text := "workload.lock"
def maxWorkloadLockBytes : Nat := 1024 * 1024
def workloadStoreName : Text := ".workload-store"

def artifactNames : List Text :=
  ["scenario.toml", "choices.json", "replay.bin", "events.jsonl", "assertions.json", "logs/qemu.log",
    "logs/serial.log"]

def artifactLimit (name : Text) : Nat :=
  if name = utf8 "scenario.toml" then maxScenarioSourceBytes
  else if name = utf8 "choices.json" ∨ name = utf8 "events.jsonl" ∨
    name = utf8 "assertions.json" then maxSemanticArtifactBytes
  else if name = utf8 "logs/qemu.log" ∨ name = utf8 "logs/serial.log" then maxDiagnosticArtifactBytes
  else if name = utf8 "replay.bin" then maxReplayLogBytes
  else if name = workloadLockPath then maxWorkloadLockBytes
  else 0

/-! ## Paths -/

/-- `Path::join` with a relative path. -/
def joinPath (base name : Text) : Text := if base.getLast? = some slash then base ++ name else base ++
    slash :: name

/-- `Path::file_name` of a canonical path. -/
def fileName (path : Text) : Option Text :=
  let last := (path.splitOn slash).getLastD []
  if last.isEmpty then none else some last

/-- `Path::parent` of a canonical path. -/
def parentPath (path : Text) : Option Text :=
  if path = [slash] then none
  else match ((path.splitOn slash).dropLast) with
    | [[]] => some [slash]
    | parts => some ([slash].intercalate parts)

/-- A run directory: its canonical path, and what opening a name in it finds. -/
structure Directory where
  path : Text
  entry : Text → IoResult Artifact

/-! ## Reading -/

/-- `open_regular`, with what reading the file to its end gives. -/
def openRegular (directory : Directory) (name : Text) (limit : Nat) : IoResult Bytes := do
  match ← directory.entry name with
  | .special => .error (invalidData ("replay input is not a regular file: " ++ joinPath directory.path name))
  | .regular length contents => do
    require (length ≤ limit) (invalidData ("replay input exceeds " ++ decimal limit ++ " byte limit: " ++
      joinPath directory.path name))
    pure contents

def readBounded (directory : Directory) (name : Text) (limit : Nat) : IoResult Bytes := do
  let contents ← openRegular directory name limit
  let bytes := contents.take (limit + 1)
  require (bytes.length ≤ limit)
    (invalidData ("artifact exceeds " ++ decimal limit ++ " byte validation limit: " ++
    joinPath directory.path name))
  return bytes

/-- `sha256_regular_file`; nothing behind the limit is read. -/
def sha256RegularFile (sha256 : Sha256) (directory : Directory) (name : Text) (limit : Nat) : IoResult Text := do
  let contents ← openRegular directory name limit
  require (contents.length ≤ limit) (invalidData ("replay input exceeds " ++ decimal limit ++ " byte limit: " ++
    joinPath directory.path name))
  return sha256Hex sha256 contents

/-- `copy_regular_file`, with the operations on the destination. -/
def copyRegularFile (directory : Directory) (name : Text) (destination : IoResult Unit)
    (limit : Nat) : IoResult Bytes := do
  let contents ← openRegular directory name limit
  destination
  let copied := contents.take (limit + 1)
  require (copied.length ≤ limit) (invalidData ("replay input exceeds " ++ decimal limit ++ " byte limit: " ++
    joinPath directory.path name))
  return copied

/-- `read_json`. -/
def readJson {α : Type} (codec : Codec α) (directory : Directory) (name : Text) (limit : Nat) : IoResult α := do
  let bytes ← readBounded directory name limit
  mapError (jsonError "malformed recorded artifact") (codec.fromSlice bytes)

/-! ## Writing -/

def jsonBytes {α : Type} (codec : Codec α) (value : α) : IoResult Bytes := do
  let bytes ← mapError (fun error => ⟨.other, error⟩) (codec.toVec value)
  return bytes ++ [10]

/-- The bytes of `write_private_bounded_json`. -/
def boundedJson {α : Type} (codec : Codec α) (value : α) (limit : Nat) (what : Text) : IoResult Bytes := do
  let bytes ← jsonBytes codec value
  require (bytes.length ≤ limit)
    (invalidData (what ++ " is " ++ decimal bytes.length ++ " bytes, which exceeds the " ++
    decimal limit ++ "-byte replay limit"))
  return bytes

def encodeEvents (codec : Codec NormalizedEvent) : List NormalizedEvent → IoResult Bytes
  | [] => .ok []
  | event :: events => do
    let bytes ← mapError (fun error => ⟨.other, error⟩) (codec.toVec event)
    let rest ← encodeEvents codec events
    return bytes ++ 10 :: rest

/-- The lines of `decode_events` from `index` on. -/
def decodeLines (codec : Codec NormalizedEvent) : Nat → List Text → IoResult (List NormalizedEvent)
  | _, [] => .ok []
  | index, line :: lines => do
    let event ← mapError (jsonError ("invalid normalized event at line " ++ decimal (index + 1)))
      (codec.fromSlice line)
    let events ← decodeLines codec (index + 1) lines
    return event :: events

def decodeEvents (codec : Codec NormalizedEvent) (utf8Error : Bytes → Text)
    (bytes : Bytes) : IoResult (List NormalizedEvent) := do
  require (Utf8.valid bytes) (invalidData (utf8Error bytes))
  decodeLines codec 0 (textLines bytes)

/-! ## The digests of the artifacts -/

/-- The artifacts of a run; a workload run has its lock. -/
def artifactSet (workload : Bool) : List Text := artifactNames ++ if workload then [workloadLockPath] else []

def artifactDigests (sha256 : Sha256) (directory : Directory)
    (workload : Bool) : IoResult (Std.ExtTreeMap Text Text) := do
  let digests ← (artifactSet workload).mapM fun name => do
    let digest ← sha256RegularFile sha256 directory name (artifactLimit name)
    return (name, digest)
  return .ofList digests

/-- One turn of `validate_artifacts`. -/
def validateArtifact (sha256 : Sha256) (directory : Directory) (artifact : Text × Text) : IoResult Unit := do
  require (validSha256 artifact.2) (invalidData ("manifest has an invalid digest for " ++ artifact.1))
  let actual ← sha256RegularFile sha256 directory artifact.1 (artifactLimit artifact.1)
  require (actual == artifact.2)
    (invalidData ("artifact digest mismatch for " ++ artifact.1 ++ ": expected " ++ artifact.2 ++
    ", found " ++ actual))

def validateArtifacts (sha256 : Sha256) (directory : Directory) (expected : Std.ExtTreeMap Text Text) :
    IoResult Unit := do
  require (artifactNames.all expected.contains &&
      expected.keys.all fun name => name == workloadLockPath || artifactNames.contains name)
    (invalidData "manifest artifact set does not match the replay contract")
  expected.toList.forM (validateArtifact sha256 directory)

/-! ## Run identifiers -/

/-- `new_run_id` at a time. -/
def runIdAt (nanos : Nat) (seed : UInt64) : Text := "run-" ++ hexPadded 32 nanos ++ "-" ++ hexPadded 16 seed.toNat

/-- `str::split_once` at a byte. -/
def splitOnce (separator : UInt8) (text : Text) : Option (Text × Text) :=
  match text.dropWhile (· != separator) with
  | [] => none
  | _ :: rest => some (text.takeWhile (· != separator), rest)

def isLowerHex (byte : UInt8) : Bool := isAsciiDigit byte || (97 ≤ byte && byte ≤ 102)

def validRunId (runId : Text) : Bool :=
  match (stripStart "run-" runId).bind (splitOnce 45) with
  | none => false
  | some (timestamp, seed) => timestamp.length == 32 && seed.length == 16 && (timestamp ++ seed).all isLowerHex

/-! ## The manifest -/

structure WorkloadIdentity where
  sourceKind : SourceKind
  closureSha256 : Text
  canonicalDigest : Text
  templateSha256 : Text
  launch : LaunchIdentity
deriving DecidableEq, Repr

structure WorkloadLock where
  version : Nat
  store : Text
  workload : WorkloadIdentity
deriving DecidableEq, Repr

structure Manifest where
  version : Nat
  runId : Text
  scenarioName : Text
  seed : UInt64
  simferretVersion : Text
  simferretPath : Text
  simferretSha256 : Text
  vm : VmIdentity
  initialStateSha256 : Text
  semanticOutcomeSha256 : Text
  artifacts : Std.ExtTreeMap Text Text
  workload : Option WorkloadIdentity
deriving BEq, ReflBEq, LawfulBEq

instance : DecidableEq Manifest := instDecidableEqOfLawfulBEq

/-- The checks of the workload of a manifest. -/
def WorkloadIdentity.validate (workload : WorkloadIdentity) : IoResult Unit := do
  require ([workload.closureSha256, workload.canonicalDigest, workload.templateSha256].all validSha256)
    (invalidData "manifest workload identity contains an invalid SHA-256 digest")
  (validateLaunchIdentity workload.launch).mapError fun error =>
    invalidData ("manifest workload launch is invalid: " ++ error.message)

def validateManifest (version : Text) (directory : Directory) (manifest : Manifest) : IoResult Unit := do
  require (manifest.version == manifestVersion)
    (invalidData ("unsupported manifest version " ++ decimal manifest.version))
  require (validRunId manifest.runId) (invalidData "manifest contains an invalid run ID")
  require (fileName directory.path == some manifest.runId)
    (invalidData "manifest run ID does not match the run directory name")
  require (manifest.simferretVersion == version)
    (invalidData ("the SimFerret version differs from the recording; expected " ++ version))
  require (manifest.initialStateSha256 == manifest.vm.initramfsSha256)
    (invalidData "manifest initial state does not match VM initramfs identity")
  require ([manifest.simferretSha256, manifest.initialStateSha256, manifest.semanticOutcomeSha256].all validSha256)
    (invalidData "manifest contains an invalid SHA-256 digest")
  match manifest.workload with
  | none => pure ()
  | some workload => workload.validate

/-! ## What is read -/

/-- A regular file within a limit. -/
def Directory.Holds (directory : Directory) (name : Text) (limit : Nat) (bytes : Bytes) : Prop :=
  ∃ length, directory.entry name = .ok (.regular length bytes) ∧ length ≤ limit ∧ bytes.length ≤ limit

section Read

variable {sha256 : Sha256} {directory directory' : Directory} {name : Text} {limit : Nat} {bytes bytes' : Bytes}

theorem Directory.Holds.congr (h : directory.Holds name limit bytes)
    (hsame : directory'.entry name = directory.entry name) : directory'.Holds name limit bytes := by
  rwa [Directory.Holds, hsame]

theorem Directory.holds_file (hentry : directory.entry name = .ok (.file bytes)) (h : bytes.length ≤ limit) :
    directory.Holds name limit bytes := ⟨bytes.length, hentry, h, h⟩

theorem openRegular_ok : openRegular directory name limit = .ok bytes ↔
    ∃ length, directory.entry name = .ok (.regular length bytes) ∧ length ≤ limit := by
  constructor
  · intro h
    obtain ⟨found, hentry, h⟩ := bind_eq_ok.mp h
    cases found with
    | special => cases h
    | regular length contents =>
      obtain ⟨_, hlength, h⟩ := bind_eq_ok.mp h
      obtain rfl := pure_eq_ok.mp h
      exact ⟨length, hentry, of_decide_eq_true (require_eq_ok.mp hlength)⟩
  · rintro ⟨length, hentry, hlength⟩
    refine bind_eq_ok.mpr ⟨_, hentry, bind_eq_ok.mpr ⟨(), require_eq_ok.mpr (decide_eq_true hlength), rfl⟩⟩

/-- Reading up to a limit, and one byte more. -/
theorem take_within : (bytes.take (limit + 1)).length ≤ limit ↔ bytes.length ≤ limit := by
  rw [List.length_take]
  omega

theorem readBounded_ok : readBounded directory name limit = .ok bytes ↔ directory.Holds name limit bytes := by
  constructor
  · intro h
    obtain ⟨contents, hopen, h⟩ := bind_eq_ok.mp h
    obtain ⟨_, hwithin, h⟩ := bind_eq_ok.mp h
    obtain ⟨length, hentry, hlength⟩ := openRegular_ok.mp hopen
    have hcontents := take_within.mp (of_decide_eq_true (require_eq_ok.mp hwithin))
    rw [List.take_of_length_le (by omega)] at h
    obtain rfl := pure_eq_ok.mp h
    exact ⟨length, hentry, hlength, hcontents⟩
  · rintro ⟨length, hentry, hlength, hbytes⟩
    refine bind_eq_ok.mpr ⟨bytes, openRegular_ok.mpr ⟨length, hentry, hlength⟩, bind_eq_ok.mpr ⟨(), ?_, ?_⟩⟩
    · exact require_eq_ok.mpr (decide_eq_true (take_within.mpr hbytes))
    · rw [List.take_of_length_le (by omega)]
      rfl

theorem sha256RegularFile_ok {digest : Text} : sha256RegularFile sha256 directory name limit = .ok digest ↔
    ∃ bytes, directory.Holds name limit bytes ∧ digest = sha256Hex sha256 bytes := by
  constructor
  · intro h
    obtain ⟨contents, hopen, h⟩ := bind_eq_ok.mp h
    obtain ⟨_, hwithin, h⟩ := bind_eq_ok.mp h
    obtain ⟨length, hentry, hlength⟩ := openRegular_ok.mp hopen
    exact ⟨contents, ⟨length, hentry, hlength, of_decide_eq_true (require_eq_ok.mp hwithin)⟩,
      (pure_eq_ok.mp h).symm⟩
  · rintro ⟨bytes, ⟨length, hentry, hlength, hbytes⟩, rfl⟩
    refine bind_eq_ok.mpr ⟨bytes, openRegular_ok.mpr ⟨length, hentry, hlength⟩, bind_eq_ok.mpr ⟨(), ?_, rfl⟩⟩
    exact require_eq_ok.mpr (decide_eq_true hbytes)

theorem copyRegularFile_ok {destination : IoResult Unit} :
    copyRegularFile directory name destination limit = .ok bytes ↔
    directory.Holds name limit bytes ∧ destination = .ok () := by
  constructor
  · intro h
    obtain ⟨contents, hopen, h⟩ := bind_eq_ok.mp h
    obtain ⟨_, hdestination, h⟩ := bind_eq_ok.mp h
    obtain ⟨_, hwithin, h⟩ := bind_eq_ok.mp h
    refine ⟨readBounded_ok.mp (bind_eq_ok.mpr ⟨contents, hopen, bind_eq_ok.mpr ⟨(), ?_, h⟩⟩), hdestination⟩
    exact require_eq_ok.mpr (require_eq_ok.mp hwithin)
  · rintro ⟨hholds, rfl⟩
    obtain ⟨contents, hopen, h⟩ := bind_eq_ok.mp (readBounded_ok.mpr hholds)
    obtain ⟨_, hwithin, h⟩ := bind_eq_ok.mp h
    refine bind_eq_ok.mpr ⟨contents, hopen, bind_eq_ok.mpr ⟨(), rfl, bind_eq_ok.mpr ⟨(), ?_, h⟩⟩⟩
    exact require_eq_ok.mpr (require_eq_ok.mp hwithin)

/-- A value that was written is read. -/
theorem readJson_of_holds {α : Type} {codec : Codec α} {value : α} (hcodec : codec.Faithful)
    (hbytes : jsonBytes codec value = .ok bytes) (h : directory.Holds name limit bytes) :
    readJson codec directory name limit = .ok value := by
  obtain ⟨body, hbody, hbytes⟩ := bind_eq_ok.mp hbytes
  obtain rfl := pure_eq_ok.mp hbytes
  refine bind_eq_ok.mpr ⟨_, readBounded_ok.mpr h, ?_⟩
  rw [hcodec value body (mapError_eq_ok.mp hbody)]
  rfl

theorem boundedJson_ok {α : Type} {codec : Codec α} {value : α} {what : Text}
    (h : boundedJson codec value limit what = .ok bytes) :
    jsonBytes codec value = .ok bytes ∧ bytes.length ≤ limit := by
  obtain ⟨_, hbytes, h⟩ := bind_eq_ok.mp h
  obtain ⟨_, hlength, h⟩ := bind_eq_ok.mp h
  obtain rfl := pure_eq_ok.mp h
  exact ⟨hbytes, of_decide_eq_true (require_eq_ok.mp hlength)⟩

end Read

/-! ## The events, one to a line -/

/-- What is written on a line is read back from it. -/
def FaithfulLines {α : Type} (codec : Codec α) : Prop :=
  ∀ value line, codec.toVec value = .ok line → codec.fromSlice line = .ok value ∧ Fixture.IsLine line ∧
    Utf8.valid line = true

section Events

variable {derived : Codec NormalizedEvent}

theorem textLines_line {line rest : Text} (h : Fixture.IsLine line) :
    textLines (line ++ 10 :: rest) = line :: textLines rest := by
  have hne := List.splitOn_ne_nil (10 : UInt8) rest
  have hchomp : (if line.getLast? = some 13 then line.dropLast else line) = line := if_neg h.2
  rw [textLines, textLines, splitOn_line h.1, List.dropLast_cons_of_ne_nil hne, List.map_cons, hchomp,
    List.cons_append, List.getLast?_cons_of_ne_nil hne]

/-- **The recorded events are read as they were written**, if their exit records are what Linux reports. -/
theorem decodeEvents_encodeEvents (hderived : FaithfulLines derived) (custom : Bytes → Text → JsonError)
    (utf8Error : Bytes → Text) {events : List NormalizedEvent} (hreal : ∀ event ∈ events, event.event.Real)
    {bytes : Bytes} (h : encodeEvents (normalizedCodec derived custom) events = .ok bytes) :
    decodeEvents (normalizedCodec derived custom) utf8Error bytes = .ok events := by
  have hlines : ∀ {events : List NormalizedEvent} {bytes : Bytes} (index : Nat),
      (∀ event ∈ events, event.event.Real) → encodeEvents (normalizedCodec derived custom) events = .ok bytes →
      Utf8.valid bytes = true ∧ decodeLines (normalizedCodec derived custom) index (textLines bytes) =
      .ok events := by
    intro events
    induction events with
    | nil =>
      intro bytes index _ h
      obtain rfl := Except.ok.inj h
      exact ⟨rfl, rfl⟩
    | cons event events ih =>
      intro bytes index hreal h
      obtain ⟨hevent, hevents⟩ := List.forall_mem_cons.mp hreal
      obtain ⟨line, hline, h⟩ := bind_eq_ok.mp h
      obtain ⟨rest, hrest, h⟩ := bind_eq_ok.mp h
      obtain rfl := pure_eq_ok.mp h
      obtain ⟨hslice, hisLine, hvalid⟩ := hderived event line (mapError_eq_ok.mp hline)
      have hread : (normalizedCodec derived custom).fromSlice line = .ok event :=
        checkedCodec_ok custom hslice (by rw [Event.deserialize_of_real hevent]; rfl)
      obtain ⟨hvalidRest, hreadRest⟩ := ih (index + 1) hevents hrest
      refine ⟨?_, ?_⟩
      · rw [Utf8.valid_append hvalid]
        have hnewline : Utf8.valid [10] = true := rfl
        exact (Utf8.valid_append hnewline (b := rest)).trans hvalidRest
      · rw [textLines_line hisLine, decodeLines]
        exact bind_eq_ok.mpr ⟨event, mapError_eq_ok.mpr hread, bind_eq_ok.mpr ⟨events, hreadRest, rfl⟩⟩
  obtain ⟨hvalid, hread⟩ := hlines 0 hreal h
  exact bind_eq_ok.mpr ⟨(), require_eq_ok.mpr hvalid, hread⟩

end Events

/-! ## The digests of the artifacts -/

section Digests

variable {sha256 : Sha256} {directory directory' : Directory} {expected : Std.ExtTreeMap Text Text}
  {workload : Bool}

theorem encodeBytes_eq_hex (bytes : Bytes) : encodeBytes bytes = hex bytes := by
  have hdigit : ∀ nibble, nibbleDigit nibble = lowerDigit nibble := fun nibble => by
    rw [nibbleDigit, lowerDigit, UInt8.add_comm nibble 48, UInt8.add_comm nibble 87]
  rw [encodeBytes, hex]
  simp only [hdigit]

/-- A digest is written as the manifest wants it. -/
theorem validSha256_hex {digest : Bytes} (h : digest.length = 32) : validSha256 (hex digest) = true := by
  rw [validSha256, Bool.and_eq_true, beq_iff_eq, length_hex, h, List.all_eq_true]
  refine ⟨rfl, fun byte hbyte => ?_⟩
  obtain ⟨nibble, hnibble, rfl⟩ := mem_hex hbyte
  have hall : ∀ n : Fin 256, UInt8.ofFin n < 16 →
    isLowerHex (lowerDigit (UInt8.ofFin n)) = true := by decide +kernel
  exact hall nibble.toFin hnibble

theorem validSha256_sha256Hex (hlength : ∀ bytes, (sha256 bytes).length = 32) (bytes : Bytes) :
    validSha256 (sha256Hex sha256 bytes) = true := by
  rw [sha256Hex, encodeBytes_eq_hex]
  exact validSha256_hex (hlength bytes)

/-- The artifacts of a manifest, as its directory holds them. -/
structure Matches (sha256 : Sha256) (directory : Directory) (expected : Std.ExtTreeMap Text Text) : Prop where
  required : ∀ name ∈ artifactNames, name ∈ expected
  known : ∀ name, name ∈ expected → name = workloadLockPath ∨ name ∈ artifactNames
  valid : ∀ name digest : Text, expected[name]? = some digest → validSha256 digest = true
  holds : ∀ name digest : Text, expected[name]? = some digest →
    ∃ bytes, directory.Holds name (artifactLimit name) bytes ∧ digest = sha256Hex sha256 bytes

/-- **A directory is accepted exactly if it holds the artifacts of its manifest.** -/
theorem validateArtifacts_iff : validateArtifacts sha256 directory expected = .ok () ↔
    Matches sha256 directory expected := by
  have hset : (artifactNames.all expected.contains && expected.keys.all fun name => name == workloadLockPath ||
      artifactNames.contains name) = true ↔ (∀ name ∈ artifactNames, name ∈ expected) ∧
        ∀ name, name ∈ expected → name = workloadLockPath ∨ name ∈ artifactNames := by
    simp only [Bool.and_eq_true, List.all_eq_true, Std.ExtTreeMap.mem_keys, Bool.or_eq_true, beq_iff_eq,
      List.contains_iff_mem, Std.ExtTreeMap.contains_iff_mem]
  have hone : ∀ artifact : Text × Text, validateArtifact sha256 directory artifact = .ok () ↔
      validSha256 artifact.2 = true ∧ ∃ bytes, directory.Holds artifact.1 (artifactLimit artifact.1) bytes ∧
      artifact.2 = sha256Hex sha256 bytes := by
    intro artifact
    constructor
    · intro h
      obtain ⟨_, hvalid, h⟩ := bind_eq_ok.mp h
      obtain ⟨actual, hactual, h⟩ := bind_eq_ok.mp h
      obtain ⟨bytes, hholds, rfl⟩ := sha256RegularFile_ok.mp hactual
      exact ⟨require_eq_ok.mp hvalid, bytes, hholds, (eq_of_beq (require_eq_ok.mp h)).symm⟩
    · rintro ⟨hvalid, bytes, hholds, heq⟩
      refine bind_eq_ok.mpr ⟨(), require_eq_ok.mpr hvalid,
        bind_eq_ok.mpr ⟨_, sha256RegularFile_ok.mpr ⟨bytes, hholds, rfl⟩, ?_⟩⟩
      exact require_eq_ok.mpr (beq_iff_eq.mpr heq.symm)
  constructor
  · intro h
    obtain ⟨_, hsame, h⟩ := bind_eq_ok.mp h
    obtain ⟨hrequired, hknown⟩ := hset.mp (require_eq_ok.mp hsame)
    have hall := forM_eq_ok.mp h
    have hget : ∀ name digest : Text, expected[name]? = some digest →
        validateArtifact sha256 directory (name, digest) = .ok () :=
      fun name digest hget => hall _ (Std.ExtTreeMap.mem_toList_iff_getElem?_eq_some.mpr hget)
    exact ⟨hrequired, hknown, fun name digest h => ((hone _).mp (hget name digest h)).1,
      fun name digest h => ((hone _).mp (hget name digest h)).2⟩
  · intro h
    refine bind_eq_ok.mpr ⟨(), require_eq_ok.mpr (hset.mpr ⟨h.required, h.known⟩), forM_eq_ok.mpr ?_⟩
    rintro ⟨name, digest⟩ hmem
    have hget := Std.ExtTreeMap.mem_toList_iff_getElem?_eq_some.mp hmem
    exact (hone _).mpr ⟨h.valid name digest hget, h.holds name digest hget⟩

theorem mem_artifactSet {name : Text} : name ∈ artifactSet workload ↔ name ∈ artifactNames ∨ workload = true ∧
    name = workloadLockPath := by
  rw [artifactSet, List.mem_append]
  cases workload <;> simp

theorem lock_not_mem : workloadLockPath ∉ artifactNames := by decide

/-- What each artifact is recorded with. -/
theorem digests_ok : ∀ {names : List Text} {digests : List (Text × Text)}, (names.mapM fun name => do
      let digest ← sha256RegularFile sha256 directory name (artifactLimit name)
      return (name, digest)) = .ok digests →
    digests.map Prod.fst = names ∧ ∀ artifact ∈ digests, ∃ bytes,
      directory.Holds artifact.1 (artifactLimit artifact.1) bytes ∧ artifact.2 = sha256Hex sha256 bytes
  | [], digests, h => by
    obtain rfl := pure_eq_ok.mp h
    exact ⟨rfl, fun _ hartifact => absurd hartifact List.not_mem_nil⟩
  | name :: names, digests, h => by
    rw [List.mapM_cons] at h
    obtain ⟨first, hfirst, h⟩ := bind_eq_ok.mp h
    obtain ⟨rest, hrest, h⟩ := bind_eq_ok.mp h
    obtain rfl := pure_eq_ok.mp h
    obtain ⟨digest, hdigest, hfirst⟩ := bind_eq_ok.mp hfirst
    obtain rfl := pure_eq_ok.mp hfirst
    obtain ⟨hnames, hholds⟩ := digests_ok hrest
    refine ⟨by rw [List.map_cons, hnames], fun artifact hartifact => ?_⟩
    rcases List.mem_cons.mp hartifact with rfl | hartifact
    · exact sha256RegularFile_ok.mp hdigest
    · exact hholds artifact hartifact

/-- **The digests of a directory are accepted for it.** -/
theorem artifactDigests_matches (hlength : ∀ bytes, (sha256 bytes).length = 32)
    (h : artifactDigests sha256 directory workload = .ok expected) :
    Matches sha256 directory expected ∧ (workloadLockPath ∈ expected ↔ workload = true) := by
  obtain ⟨digests, hdigests, h⟩ := bind_eq_ok.mp h
  obtain rfl := pure_eq_ok.mp h
  obtain ⟨hnames, hholds⟩ := digests_ok hdigests
  have hmem : ∀ name, name ∈ Std.ExtTreeMap.ofList digests ↔ name ∈ artifactNames ∨ workload = true ∧
      name = workloadLockPath := by
    intro name
    rw [Std.ExtTreeMap.mem_ofList, hnames, List.contains_iff_mem, mem_artifactSet]
  have hnodup : (artifactSet workload).Nodup := by
    cases workload <;> decide
  have hdistinct : digests.Pairwise fun a b => ¬ compare a.1 b.1 = .eq := by
    rw [← hnames, List.Nodup, List.pairwise_map] at hnodup
    exact hnodup.imp fun hne heq => hne (Std.LawfulEqCmp.eq_of_compare heq)
  have hget : ∀ name digest : Text, (Std.ExtTreeMap.ofList digests)[name]? = some digest →
      (name, digest) ∈ digests := by
    intro name digest hdigest
    have hname : name ∈ digests.map Prod.fst := by
      rw [← List.contains_iff_mem, ← @Std.ExtTreeMap.mem_ofList _ _ compare,
        Std.ExtTreeMap.mem_iff_isSome_getElem?, hdigest]
      rfl
    obtain ⟨artifact, hartifact, rfl⟩ := List.mem_map.mp hname
    rw [Std.ExtTreeMap.getElem?_ofList_of_mem Std.ReflCmp.compare_self hdistinct hartifact] at hdigest
    rwa [← Option.some.inj hdigest]
  refine ⟨⟨fun name hname => (hmem name).mpr (Or.inl hname), fun name hname => ?_, fun name digest hdigest => ?_,
    fun name digest hdigest => hholds _ (hget name digest hdigest)⟩, ?_⟩
  · rcases (hmem name).mp hname with hname | ⟨-, hname⟩
    · exact Or.inr hname
    · exact Or.inl hname
  · obtain ⟨bytes, -, heq⟩ := hholds _ (hget name digest hdigest)
    rw [show digest = _ from heq]
    exact validSha256_sha256Hex hlength bytes
  · rw [hmem]
    have hlock := lock_not_mem
    simp [hlock]

/-- What a directory holds does not depend on where it lies. -/
theorem Matches.congr (h : Matches sha256 directory expected)
    (hsame : ∀ name, name ∈ expected → directory'.entry name = directory.entry name) :
    Matches sha256 directory' expected := by
  refine ⟨h.required, h.known, h.valid, fun name digest hdigest => ?_⟩
  obtain ⟨bytes, hholds, heq⟩ := h.holds name digest hdigest
  refine ⟨bytes, hholds.congr (hsame name ?_), heq⟩
  rw [Std.ExtTreeMap.mem_iff_isSome_getElem?, hdigest]
  rfl

end Digests

/-! ## Names of runs -/

section Names

theorem isLowerHex_hexPadded (width n : Nat) : ∀ byte ∈ hexPadded width n, isLowerHex byte = true := by
  intro byte hbyte
  rcases List.mem_append.mp hbyte with hbyte | hbyte
  · rw [List.eq_of_mem_replicate hbyte]
    rfl
  · obtain ⟨c, hc, rfl⟩ := List.mem_map.mp hbyte
    obtain ⟨d, hd, rfl⟩ := mem_toDigits (by omega) n hc
    have hall : ∀ d < 16, isLowerHex (charByte (Nat.digitChar d)) = true := by decide
    exact hall d hd

theorem splitOnce_append {separator : UInt8} {front rest : Text} (h : separator ∉ front) :
    splitOnce separator (front ++ separator :: rest) = some (front, rest) := by
  have hfront : ∀ byte ∈ front, (byte != separator) = true := by
    intro byte hbyte
    rw [bne_iff_ne]
    rintro rfl
    exact h hbyte
  have hstop : (separator != separator) = false := bne_self_eq_false separator
  rw [splitOnce, List.dropWhile_append_of_pos hfront, List.takeWhile_append_of_pos hfront,
    List.dropWhile_cons, hstop, List.takeWhile_cons, hstop]
  simp

/-- A run is recorded under a valid name. -/
theorem validRunId_runIdAt (nanos : BitVec 128) (seed : UInt64) :
    validRunId (runIdAt nanos.toNat seed) = true := by
  have hdash : (45 : UInt8) ∉ hexPadded 32 nanos.toNat := fun hmem => by
    have hhex := isLowerHex_hexPadded _ _ _ hmem
    revert hhex
    decide
  have hstrip : stripStart "run-" (runIdAt nanos.toNat seed) =
      some (hexPadded 32 nanos.toNat ++ 45 :: hexPadded 16 seed.toNat) := by
    rw [Fixture.stripStart_eq_some, runIdAt, List.append_assoc, List.append_assoc]
    rfl
  rw [validRunId, hstrip, Option.bind_some, splitOnce_append hdash]
  simp only [length_hexPadded (by omega : 0 < 32) nanos.isLt,
    length_hexPadded (by omega : 0 < 16) seed.toNat_lt, beq_self_eq_true, Bool.true_and,
    List.all_append, Bool.and_eq_true, List.all_eq_true]
  exact ⟨isLowerHex_hexPadded _ _, isLowerHex_hexPadded _ _⟩

theorem runIdAt_name (nanos : BitVec 128) (seed : UInt64) : slash ∉ runIdAt nanos.toNat seed ∧
    runIdAt nanos.toNat seed ≠ [] := by
  refine ⟨fun hslash => ?_, List.cons_ne_nil _ _⟩
  have hhex : slash ∉ hexPadded 32 nanos.toNat ∧ slash ∉ hexPadded 16 seed.toNat :=
    ⟨fun hmem => absurd (isLowerHex_hexPadded _ _ _ hmem) (by decide),
      fun hmem => absurd (isLowerHex_hexPadded _ _ _ hmem) (by decide)⟩
  rw [runIdAt] at hslash
  simp only [List.mem_append, hhex.1, hhex.2, or_false] at hslash
  exact absurd hslash (by decide)

theorem fileName_joinPath {base name : Text} (hname : slash ∉ name)
    (hne : name ≠ []) : fileName (joinPath base name) = some name := by
  have hlast : ∀ front : Text, ((front ++ slash :: name).splitOn slash).getLastD [] = name := by
    intro front
    rw [List.splitOn_append_cons_self, List.splitOn_eq_singleton hname, List.getLastD_concat]
  have hwhole : (((joinPath base name).splitOn slash).getLastD []) = name := by
    rw [joinPath]
    split
    · next hroot =>
      obtain ⟨front, rfl⟩ := List.getLast?_eq_some_iff.mp hroot
      rw [List.append_assoc]
      exact hlast front
    · exact hlast base
  rw [fileName, hwhole]
  exact if_neg (by simpa using hne)

end Names

end SimFerret.Run
