import Mathlib.Data.List.Sort
import SimFerret.Workload.Oci
import SimFerret.Store.Root

/-!
# SimFerret.Store.Closure — raw closures and the graphs they record (`workload/store.rs`)

The records of the store, the graph of a source, and the graph that replay re-derives from retained objects.
-/

namespace SimFerret.Store

open Workload

def canonicalFormatVersion : Nat := 1
def extractionPolicyVersion : Nat := 1
def layerApplicationPolicyVersion : Nat := 1
def templateFormatVersion : Nat := 1
def closureVersion : Nat := 1
def derivedLockVersion : Nat := 1

def maxCacheMetadataBytes : Nat := 4 * 2 ^ 20
def maxTemplateBytes : Nat := maxExpandedLayerBytes + maxViewEntries * (maxPathBytes + 128)

def rawClosurePath : Text := "raw/closure.json"

/-! ## Records -/

structure Policy where
  canonicalFormat : Nat
  extraction : Nat
  layerApplication : Nat
  templateFormat : Nat
deriving DecidableEq, Repr

def Policy.current : Policy :=
  ⟨canonicalFormatVersion, extractionPolicyVersion, layerApplicationPolicyVersion, templateFormatVersion⟩

structure Limits where
  specificationBytes : Nat
  layoutBytes : Nat
  indexBytes : Nat
  manifestBytes : Nat
  configBytes : Nat
  layerBytes : Nat
  expandedLayerBytes : Nat
  fileBytes : Nat
  entries : Nat
  layers : Nat
  pathBytes : Nat
  symlinkTargetBytes : Nat
  symlinkHops : Nat
  rawObjects : Nat
  viewEntries : Nat
  cacheMetadataBytes : Nat
  templateBytes : Nat
  arguments : Nat
  argumentBytes : Nat
  environmentEntries : Nat
  environmentEntryBytes : Nat
  environmentBytes : Nat
deriving DecidableEq, Repr

def Limits.current : Limits where
  specificationBytes := maxSpecificationBytes
  layoutBytes := maxLayoutBytes
  indexBytes := maxIndexBytes
  manifestBytes := maxManifestBytes
  configBytes := maxConfigBytes
  layerBytes := maxLayerBytes
  expandedLayerBytes := maxExpandedLayerBytes
  fileBytes := maxFileBytes
  entries := maxEntries
  layers := maxLayers
  pathBytes := maxPathBytes
  symlinkTargetBytes := maxSymlinkTargetBytes
  symlinkHops := maxSymlinkHops
  rawObjects := maxRawObjects
  viewEntries := maxViewEntries
  cacheMetadataBytes := maxCacheMetadataBytes
  templateBytes := maxTemplateBytes
  arguments := maxArguments
  argumentBytes := maxArgumentBytes
  environmentEntries := maxEnvironmentEntries
  environmentEntryBytes := maxEnvironmentEntryBytes
  environmentBytes := maxEnvironmentBytes

structure ObjectRecord where
  role : Text
  digest : Text
  bytes : Nat
deriving DecidableEq, Repr

structure Closure where
  version : Nat
  kind : SourceKind
  manifestDigest : Option Text
  policy : Policy
  limits : Limits
  objects : List ObjectRecord
  layers : List LayerEvidence
  launch : LaunchIdentity
  canonicalDigest : Text
  treeSha256 : Text
  templateSha256 : Text
  entries : Nat
  expandedBytes : Nat
deriving DecidableEq, Repr

structure DerivedLock where
  version : Nat
  canonicalDigest : Text
  treeSha256 : Text
  templateSha256 : Text
  closureSha256 : Text
  rawClosure : Text
deriving DecidableEq, Repr

structure WorkloadGraph where
  kind : SourceKind
  manifestDigest : Option Text
  objects : List (Text × Bytes)
  tree : Tree
  launch : LaunchIdentity
  layers : List LayerEvidence

structure BinaryInput where
  installPath : Text
  arguments : List Text
  environment : List Text
  workingDirectory : Text
  uid : Nat
  gid : Nat
deriving DecidableEq, Repr

/-- The libraries with the JSON codecs of the store's records. -/
structure Crates extends Libraries where
  closure : Codec Closure
  lock : Codec DerivedLock
  specification : Codec CanonicalBinarySpec

/-- The JSON round trips. -/
structure Crates.Faithful (crates : Crates) : Prop where
  closure : crates.closure.Faithful
  lock : crates.lock.Faithful
  specification : crates.specification.Faithful

def canonicalJson {α : Type} (codec : Codec α) (value : α) : IoResult Bytes := do
  let bytes ← mapError (fun error => invalid ("cannot serialize canonical metadata: " ++ error))
    (codec.toVec value)
  pure (bytes ++ [10])

/-! ## Objects by role -/

/-- `sort_by(|left, right| left.0.cmp(&right.0))`. -/
def sortRoles (objects : List (Text × Bytes)) : List (Text × Bytes) :=
  objects.insertionSort fun left right => left.1 ≤ right.1

/-- The digits after `layer-`. -/
def layerIndex (role : Text) : Option Text :=
  if (utf8 "layer-").isPrefixOf role then some (role.drop 6) else none

def roleLimit (role : Text) : Option Nat :=
  if role = utf8 "oci-layout" then some maxLayoutBytes
  else if role = utf8 "index.json" then some maxIndexBytes
  else if role = utf8 "manifest" then some maxManifestBytes
  else if role = utf8 "config" then some maxConfigBytes
  else if role = utf8 "executable" then some maxFileBytes
  else if role = utf8 "workload-specification" then some maxSpecificationBytes
  else match layerIndex role with
    | some index => if !index.isEmpty && index.all isAsciiDigit then some maxLayerBytes else none
    | none => none

/-- `format!("layer-{position}")`. -/
def layerRole (position : Nat) : Text := "layer-" ++ decimal position

def ociRoles (objects : OciObjects) : List (Text × Bytes) :=
  sortRoles ([(utf8 "oci-layout", objects.layout), (utf8 "index.json", objects.index),
    (utf8 "manifest", objects.manifest), (utf8 "config", objects.config)] ++
    objects.layers.mapIdx fun position layer => (layerRole position, layer))

def expectedOciRoles (layerCount : Nat) : List Text :=
  [utf8 "config", utf8 "index.json", utf8 "manifest", utf8 "oci-layout"] ++ (List.range layerCount).map layerRole

/-! ## Graphs -/

def binaryTreeAndLaunch (executable : Bytes) (input : BinaryInput) : IoResult (Tree × LaunchIdentity) := do
  require (input.uid != 0 && input.gid != 0) (invalid "root credentials are not supported")
  require (input.uid != reservedOwner && input.gid != reservedOwner)
    (invalid "the reserved owner identifier is not a launch credential")
  require (input.installPath == binaryInstallPath)
    (invalid ("binary install path must be " ++ quoted binaryInstallPath))
  let install ← normalizeLayerPath input.installPath
  require (install != rootPath) (invalid "binary install path must name a file")
  require (Utf8.valid install) (invalid "binary install path is not UTF-8")
  let executableText := slash :: install
  let arguments ← normalizeArguments input.arguments "arguments"
  require (arguments.head? == some executableText)
    (invalid "binary argument vector must begin with the installed executable")
  let environment ← normalizeEnvironment input.environment
  let tree := (ancestors install).foldl Tree.insertDefaultDirectory (Tree.new.insertDefaultDirectory rootPath)
  let tree := tree.insert install (Entry.file executable 0o755 input.uid input.gid 0)
  let workingDirectory ← normalizeWorkingDirectory (some input.workingDirectory) tree
  validateCanonicalTree tree maxViewEntries maxExpandedLayerBytes
  let launch : LaunchIdentity := ⟨executableText, arguments, environment, workingDirectory, input.uid, input.gid⟩
  validateLaunchIdentity launch
  pure (tree, launch)

/-- The objects of a binary workload, sorted by role. -/
def binaryObjects (executable specification : Bytes) : List (Text × Bytes) :=
  sortRoles [(utf8 "executable", executable), (utf8 "workload-specification", specification)]

/-- `binary_graph` once its executable was read. -/
def binaryGraphOf (crates : Crates) (source : BinarySource) (executable : Bytes) : IoResult WorkloadGraph := do
  validateStaticElf executable
  let (uid, gid) ← normalizeRequiredUser source.user
  let install ← normalizeLayerPath binaryInstallPath
  let arguments ← normalizeArguments source.arguments "args"
  let environment ← normalizeEnvironment source.environment
  let input : BinaryInput :=
    ⟨binaryInstallPath, (slash :: install) :: arguments, environment, source.workingDirectory, uid, gid⟩
  let (tree, launch) ← binaryTreeAndLaunch executable input
  let canonical : CanonicalBinarySpec :=
    ⟨workloadSpecVersion, .binary, input.installPath, launch.arguments, launch.environment,
      launch.workingDirectory, uid, gid⟩
  let specification ← canonicalJson crates.specification canonical
  pure ⟨.binary, none, binaryObjects executable specification, tree, launch, []⟩

/-- `oci_graph` once its objects were read. -/
def ociGraphOf (crates : Crates) (objects : OciObjects) : IoResult WorkloadGraph := do
  let graph ← parseGraph crates.toLibraries objects
  pure ⟨.oci, some objects.manifestDigest, ociRoles objects, graph.tree, graph.launch, graph.layers⟩

/-- The objects of a closure by role: a `BTreeMap<String, Vec<u8>>`, in the order its roles were inserted. -/
abbrev Objects := List (Text × Bytes)

/-- `objects[role]`. -/
def objectOf (objects : Objects) (role : Text) : Option Bytes := objects.lookup role

def replayBinary (crates : Crates) (objects : Objects) : IoResult WorkloadGraph := do
  let specification ← okOr (objectOf objects "workload-specification")
    (invalid "binary closure has no workload-specification object")
  let executable ← okOr (objectOf objects "executable") (invalid "binary closure has no executable object")
  require (objects.length == 2) (invalid "binary closure names unexpected objects")
  let canonical ← mapError (jsonError "malformed canonical specification")
    (crates.specification.fromSlice specification)
  require (canonical.version == workloadSpecVersion && canonical.kind == .binary)
    (invalid "canonical specification is not a version-1 binary")
  validateStaticElf executable
  let input : BinaryInput := ⟨canonical.installPath, canonical.arguments, canonical.environment,
    canonical.workingDirectory, canonical.uid, canonical.gid⟩
  let (tree, launch) ← binaryTreeAndLaunch executable input
  pure ⟨.binary, none, sortRoles objects, tree, launch, []⟩

def replayOci (crates : Crates) (closure : Closure) (objects : Objects) : IoResult WorkloadGraph := do
  let rawDigest ← okOr closure.manifestDigest (invalid "OCI closure has no manifest digest")
  let hex ← mapError (fun _ => invalid "the OCI closure manifest digest is not a sha256 digest")
    (parseDigest rawDigest)
  let expected := expectedOciRoles closure.layers.length
  require (objects.length == expected.length && expected.all fun role => (objectOf objects role).isSome)
    (invalid "OCI closure names unexpected objects")
  let layers ← (List.range closure.layers.length).mapM fun position =>
    okOr (objectOf objects (layerRole position)) (invalid "OCI closure is missing a layer object")
  let object := fun role => (objectOf objects role).getD []
  let graph ← parseGraph crates.toLibraries
    ⟨object "oci-layout", object "index.json", object "manifest", object "config", layers, digestPrefix ++ hex⟩
  pure ⟨.oci, some (digestPrefix ++ hex), sortRoles objects, graph.tree, graph.launch, graph.layers⟩

/-- The graph of a closure, from its verified objects alone. -/
def replayGraph (crates : Crates) (closure : Closure) (objects : Objects) : IoResult WorkloadGraph :=
  match closure.kind with
  | .binary => replayBinary crates objects
  | .oci => replayOci crates closure objects

end SimFerret.Store
