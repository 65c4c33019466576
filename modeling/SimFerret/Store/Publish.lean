import SimFerret.Store.Closure

/-!
# SimFerret.Store.Publish — assembling, publishing and loading a workload (`workload/store.rs`, `workload/oci.rs`)

* `prepare`: what `publish` computes before it touches the store.
* `publish`: the candidate written in the order raw objects, derived entry, closure.
* `load`: the closure read back and everything re-derived from its objects.
* `assemble`: the graph of a source, published.
-/

namespace SimFerret.Store

open Workload

structure AssembledWorkload where
  sourceKind : SourceKind
  closureSha256 : Text
  canonicalDigest : Text
  treeSha256 : Text
  templateSha256 : Text
  entries : Nat
  expandedBytes : Nat
  rawObjects : Nat
  launch : LaunchIdentity
deriving DecidableEq, Repr

structure LoadedWorkload where
  sourceKind : SourceKind
  closureSha256 : Text
  canonicalDigest : Text
  tree : Tree
  template : Bytes
  launch : LaunchIdentity

/-- `map_err`. -/
def mapErr {α : Type} (f : IoError → IoError) (x : Action α) : Action α := do
  match ← x.attempt with
  | .ok a => pure a
  | .error e => fail (f e)

def readRequired (root : Root) (path : Text) (limit : Nat) (what : Text) : Action Bytes :=
  mapErr (fun error => if error.kind = .notFound then invalid (what ++ " is missing") else error)
    (root.readFile path limit)

/-! ## The candidate -/

/-- What a publication writes. -/
structure Candidate where
  graph : WorkloadGraph
  closure : Closure
  closureBytes : Bytes
  treeBytes : Bytes
  template : Bytes

/-- The record of one object of a graph. -/
def objectRecord (crates : Crates) (index : Nat) (role : Text) (data : Bytes) : IoResult ObjectRecord := do
  let limit ← okOr (roleLimit role)
    (invalid ("assembled raw closure object " ++ decimal index ++ " names an unknown role"))
  require (data.length ≤ limit)
    (invalid ("raw object " ++ decimal index ++ " exceeds its " ++ decimal limit ++ "-byte policy limit"))
  pure ⟨role, digestPrefix ++ crates.digest data, data.length⟩

/-- The record loop from `index` on. -/
def objectRecords (crates : Crates) : Nat → List (Text × Bytes) → IoResult (List ObjectRecord)
  | _, [] => .ok []
  | index, (role, data) :: rest => do
    let record ← objectRecord crates index role data
    let records ← objectRecords crates (index + 1) rest
    pure (record :: records)

def prepare (crates : Crates) (graph : WorkloadGraph) : IoResult Candidate := do
  validateCanonicalTree graph.tree maxViewEntries maxExpandedLayerBytes
  validateOverlayCompatibility graph.tree graph.launch
  let treeBytes := graph.tree.encode crates.sha256
  require (treeBytes.length ≤ maxCacheMetadataBytes)
    (invalid ("canonical tree manifest exceeds " ++ decimal maxCacheMetadataBytes ++ " bytes"))
  let template ← graph.tree.template guestTemplateRoot
  require (template.length ≤ maxTemplateBytes)
    (invalid ("guest template exceeds " ++ decimal maxTemplateBytes ++ " bytes"))
  require (graph.objects.length ≤ maxRawObjects)
    (invalid ("raw closure has more than " ++ decimal maxRawObjects ++ " objects"))
  let records ← objectRecords crates 0 graph.objects
  let closure : Closure :=
    { version := closureVersion
      kind := graph.kind
      manifestDigest := graph.manifestDigest
      policy := Policy.current
      limits := Limits.current
      objects := records
      layers := graph.layers
      launch := graph.launch
      canonicalDigest := graph.tree.canonicalDigest crates.sha256
      treeSha256 := crates.digest treeBytes
      templateSha256 := crates.digest template
      entries := graph.tree.len
      expandedBytes := graph.tree.expandedBytes }
  let closureBytes ← canonicalJson crates.closure closure
  require (closureBytes.length ≤ maxCacheMetadataBytes)
    (invalid ("raw closure record exceeds " ++ decimal maxCacheMetadataBytes ++ " bytes"))
  pure ⟨graph, closure, closureBytes, treeBytes, template⟩

/-- `closure_sha256`. -/
def Candidate.closureSha256 (crates : Crates) (candidate : Candidate) : Text :=
    crates.digest candidate.closureBytes

/-- The lock of a candidate's derived entry. -/
def Candidate.lock (crates : Crates) (candidate : Candidate) : DerivedLock where
  version := derivedLockVersion
  canonicalDigest := candidate.closure.canonicalDigest
  treeSha256 := candidate.closure.treeSha256
  templateSha256 := candidate.closure.templateSha256
  closureSha256 := candidate.closureSha256 crates
  rawClosure := rawClosurePath

/-- What `publish` returns for a candidate. -/
def Candidate.assembled (crates : Crates) (candidate : Candidate) : AssembledWorkload where
  sourceKind := candidate.graph.kind
  closureSha256 := candidate.closureSha256 crates
  canonicalDigest := candidate.closure.canonicalDigest
  treeSha256 := candidate.closure.treeSha256
  templateSha256 := candidate.closure.templateSha256
  entries := candidate.graph.tree.len
  expandedBytes := candidate.graph.tree.expandedBytes
  rawObjects := candidate.graph.objects.length
  launch := candidate.graph.launch

/-! ## Publishing -/

def differentClosure : IoError :=
  invalid "store already contains a different raw closure; use a separate store per workload"

/-- `raw/sha256/{digest}`. -/
def objectPath (digest : Text) : Text := "raw/sha256/" ++ digest

/-- `derived/{canonical_digest}`. -/
def derivedPath (canonicalDigest : Text) : Text := "derived/" ++ canonicalDigest

def writeObject (crates : Crates) (process : Process) (root : Root) (data : Bytes) : Action Unit := do
  let digest := crates.digest data
  match ← root.readFileIfExists (objectPath digest) data.length with
  | some existing =>
    require (existing == data) (invalid ("existing raw object " ++ digest ++ " is corrupt"))
    root.requirePrivateFile process (objectPath digest)
  | none => root.writeFileAtomic process (objectPath digest) data

def publishClosure (process : Process) (root : Root) (bytes : Bytes) : Action Unit := do
  if ← root.publishExclusive process rawClosurePath bytes then pure ()
  else do
    let existing ← root.readFile rawClosurePath maxCacheMetadataBytes
    require (existing == bytes) differentClosure
    root.requirePrivateFile process rawClosurePath

/-- The files of a derived entry. -/
def derivedNames : List Text := [utf8 "tree.bin", utf8 "template.cpio", utf8 "lock.json"]

/-- `format!("{base}/{name}")`. -/
def joinName (base name : Text) : Text := base ++ [slash] ++ name

def requirePrivateDerived (process : Process) (root : Root) (canonicalDigest : Text) : Action Unit := do
  root.requirePrivateDirectory process (derivedPath canonicalDigest)
  Routine.forEach (fun name => root.requirePrivateFile process (joinName (derivedPath canonicalDigest) name))
    derivedNames

/-- `let _ = …`. -/
def ignored (x : Action Unit) : Action Unit := do
  let _ ← x.attempt
  pure ()

def cleanupStaging (root : Root) (staging : Text) : Action Unit := do
  Routine.forEach (fun name => ignored (root.removeFileIfExists (joinName staging name))) derivedNames
  ignored (root.removeDirectoryIfExists staging)

def publishDerived (crates : Crates) (process : Process) (root : Root) (candidate : Candidate) : Action Unit := do
  let lockBytes ← canonicalJson crates.lock (candidate.lock crates)
  require (lockBytes.length ≤ maxCacheMetadataBytes)
    (invalid ("derived lock exceeds " ++ decimal maxCacheMetadataBytes ++ " bytes"))
  let _ ← root.openOrCreateDirectory process "derived"
  let name ← drawStagingName process candidate.closure.canonicalDigest
  let staging := derivedPath name
  root.createDirectory staging
  let written ← Routine.attempt do
    root.writeFileAtomic process (joinName staging "tree.bin") candidate.treeBytes
    root.writeFileAtomic process (joinName staging "template.cpio") candidate.template
    root.writeFileAtomic process (joinName staging "lock.json") lockBytes
  match written with
  | .error e =>
    cleanupStaging root staging
    fail e
  | .ok () =>
    let destination := derivedPath candidate.closure.canonicalDigest
    match ← (root.rename staging destination).attempt with
    | .ok () => pure ()
    | .error e =>
      cleanupStaging root staging
      if ← root.entryExists destination then pure () else fail e

def verifyDerived (crates : Crates) (root : Root) (canonicalDigest : Text) (treeBytes : Bytes)
    (templateSha256 closureSha256 treeSha256 : Text) : Action Unit := do
  let base := derivedPath canonicalDigest
  let storedTree ← readRequired root (joinName base "tree.bin") maxCacheMetadataBytes "derived tree manifest"
  require (storedTree == treeBytes) (invalid "derived cache entry does not match the raw closure")
  let storedTemplate ← mapErr
    (fun error => if error.kind = .notFound then invalid "derived guest template is missing" else error)
    (root.sha256File crates.digest (joinName base "template.cpio") maxTemplateBytes)
  require (storedTemplate == templateSha256) (invalid "derived guest template does not match the raw closure")
  let lockBytes ← readRequired root (joinName base "lock.json") maxCacheMetadataBytes "derived lock"
  let lock ← (mapError (jsonError "malformed derived lock")
    (crates.lock.fromSlice lockBytes) : IoResult DerivedLock)
  require (lock == ⟨derivedLockVersion, canonicalDigest, treeSha256, templateSha256, closureSha256,
    rawClosurePath⟩) (invalid "derived cache entry does not name this raw closure")

def publish (crates : Crates) (process : Process) (graph : WorkloadGraph) : Action AssembledWorkload := do
  let candidate ← (prepare crates graph : IoResult Candidate)
  -- the closure is published last, so that it never names a derived entry that does not exist
  syscall .createStore fromErrno
  let root ← Root.openPrivate process
  match ← root.readFileIfExists rawClosurePath maxCacheMetadataBytes with
  | some existing => require (existing == candidate.closureBytes) differentClosure
  | none => pure ()
  let _ ← root.openOrCreateDirectory process "raw/sha256"
  Routine.forEach (fun object => writeObject crates process root object.2) graph.objects
  publishDerived crates process root candidate
  requirePrivateDerived process root candidate.closure.canonicalDigest
  verifyDerived crates root candidate.closure.canonicalDigest candidate.treeBytes candidate.closure.templateSha256
    (candidate.closureSha256 crates) candidate.closure.treeSha256
  publishClosure process root candidate.closureBytes
  pure (candidate.assembled crates)

/-! ## Loading -/

/-- One record of `read_objects`, added to the objects of the records before it. -/
def readObject (crates : Crates) (root : Root) (index : Nat) (record : ObjectRecord) (objects : Objects) :
    Action Objects := do
  let limit ← okOr (roleLimit record.role)
    (invalid ("raw closure object " ++ decimal index ++ " names an unknown role"))
  require (record.bytes ≤ limit)
    (invalid ("raw object " ++ decimal index ++ " exceeds the " ++ decimal limit ++ "-byte policy limit"))
  let hex ← (parseDigest record.digest : IoResult Text)
  require (objectOf objects record.role).isNone
    (invalid ("raw closure object " ++ decimal index ++ " repeats the role of an earlier object"))
  let data ← readRequired root (objectPath hex) record.bytes ("raw object " ++ record.digest)
  require (data.length == record.bytes && crates.digest data == hex)
    (invalid ("raw object " ++ record.digest ++ " does not match its recorded identity"))
  pure (objects ++ [(record.role, data)])

/-- The record loop from `index` on. -/
def readRecords (crates : Crates) (root : Root) : Nat → List ObjectRecord → Objects → Action Objects
  | _, [], objects => pure objects
  | index, record :: rest, objects => do
    let objects ← readObject crates root index record objects
    readRecords crates root (index + 1) rest objects

def readObjects (crates : Crates) (root : Root) (closure : Closure) : Action Objects := do
  require (closure.objects.length ≤ maxRawObjects)
    (invalid ("raw closure has more than " ++ decimal maxRawObjects ++ " objects"))
  readRecords crates root 0 closure.objects []

/-- What a closure re-derives to, from its verified objects. -/
structure Rederived where
  tree : Tree
  treeBytes : Bytes
  template : Bytes

/-- The checks of `load` on the re-derived graph. -/
def rederive (crates : Crates) (closure : Closure) (objects : Objects) : IoResult Rederived := do
  let graph ← replayGraph crates closure objects
  validateOverlayCompatibility graph.tree graph.launch
  require (graph.launch == closure.launch) (invalid "re-derived launch identity does not match the raw closure")
  require (graph.layers == closure.layers) (invalid "re-derived layer evidence does not match the raw closure")
  require (graph.tree.canonicalDigest crates.sha256 == closure.canonicalDigest)
    (invalid "re-derived canonical digest does not match the raw closure")
  let treeBytes := graph.tree.encode crates.sha256
  require (crates.digest treeBytes == closure.treeSha256)
    (invalid "re-derived tree manifest does not match the raw closure")
  let template ← graph.tree.template guestTemplateRoot
  require (crates.digest template == closure.templateSha256)
    (invalid "re-derived guest template does not match the raw closure")
  require (graph.tree.len == closure.entries && graph.tree.expandedBytes == closure.expandedBytes)
    (invalid "re-derived canonical tree does not match the raw closure")
  pure ⟨graph.tree, treeBytes, template⟩

def load (crates : Crates) : Action LoadedWorkload := do
  let root ← Root.open
  let closureBytes ← readRequired root rawClosurePath maxCacheMetadataBytes ("raw closure " ++ rawClosurePath)
  let closureSha256 := crates.digest closureBytes
  let closure ← (mapError (jsonError "malformed raw closure")
    (crates.closure.fromSlice closureBytes) : IoResult Closure)
  require (closure.version == closureVersion)
    (invalid ("unsupported raw closure version " ++ decimal closure.version))
  require (closure.policy == Policy.current) (invalid "raw closure was recorded under a different policy version")
  require (closure.limits == Limits.current) (invalid "raw closure was recorded under different limits")
  let objects ← readObjects crates root closure
  let derived ← (rederive crates closure objects : IoResult Rederived)
  verifyDerived crates root closure.canonicalDigest derived.treeBytes closure.templateSha256 closureSha256
    closure.treeSha256
  pure ⟨closure.kind, closureSha256, closure.canonicalDigest, derived.tree, derived.template, closure.launch⟩

/-! ## Sources -/

/-- A workload specification and the directory it lies in. -/
structure Source where
  /-- the specification's path, as diagnostics quote it -/
  path : Text
  specification : Except Errno Node
  directory : Disk

/-- A routine that only reads, on a directory nothing else touches. -/
def evaluate {α : Type} (x : Action α) (directory : Disk) : IoResult α := ((x 0).run (perform 0) directory).1.1

def specificationTooLarge : IoError :=
  invalid ("workload specification must not exceed " ++ decimal maxSpecificationBytes ++ " bytes")

/-- `WorkloadSpec::read`. -/
def readSpecification (crates : Crates) (utf8Error : Bytes → Text) (source : Source) : IoResult WorkloadSpec :=
  match source.specification with
  | .error e => .error (invalid ("cannot open workload specification " ++ quoted source.path ++ ": " ++ e.text))
  | .ok (.file _ data) =>
    if data.length > maxSpecificationBytes then .error specificationTooLarge
    else WorkloadSpec.parse crates.toLibraries utf8Error data
  | .ok _ => .error (invalid ("workload specification " ++ quoted source.path ++ " is not a regular file"))

/-- The `Debug` name of the kinds a source can fail with. -/
def kindName : ErrorKind → Text
  | .notFound => "NotFound"
  | .invalidInput => "InvalidInput"
  | .notADirectory => "NotADirectory"
  | .filesystemLoop => "FilesystemLoop"
  | _ => "Other"

/-- Reduce a source-locator failure to the field it belongs to and the error's category. -/
def sourceLocatorError (field : Text) (error : IoError) : IoError :=
  ⟨error.kind, field ++ " is unavailable (" ++ kindName error.kind ++ ")"⟩

def binaryGraph (crates : Crates) (root : Root) (source : BinarySource) : Action WorkloadGraph := do
  let executable ← mapErr (sourceLocatorError "the workload executable") (root.readFile source.path maxFileBytes)
  (binaryGraphOf crates source executable : IoResult WorkloadGraph)

def readSourceFile (root : Root) (path : Text) (limit : Nat) : Action Bytes :=
  mapErr (fun error => if error.kind = .notFound then invalid ("missing source object " ++ quoted path) else error)
    (root.readFile path limit)

def blobPath (digest : Text) : IoResult Text := do
  let hex ← parseDigest digest
  pure ("blobs/sha256/" ++ hex)

/-- The layer objects of a manifest, from `position` on. -/
def readLayers (root : Root) : Nat → List Value → Action (List Bytes)
  | _, [] => pure []
  | position, value :: rest => do
    let descriptor ← (parseDescriptor value (layerName position) : IoResult Descriptor)
    let path ← (blobPath descriptor.digest : IoResult Text)
    let layer ← readSourceFile root path maxLayerBytes
    let layers ← readLayers root (position + 1) rest
    pure (layer :: layers)

/-- `oci::read_objects`: the exact raw closure of one selected image. -/
def readImage (crates : Crates) (root : Root) (manifestDigest : Text) : Action OciObjects := do
  let layout ← readSourceFile root "oci-layout" maxLayoutBytes
  let index ← readSourceFile root "index.json" maxIndexBytes
  let indexValue ← (parseJson crates.toLibraries index "index" : IoResult Value)
  let descriptor ← (selectManifestDescriptor indexValue manifestDigest : IoResult Descriptor)
  let path ← (blobPath descriptor.digest : IoResult Text)
  let manifest ← readSourceFile root path maxManifestBytes
  (verifyDescriptor crates.toLibraries descriptor manifest "manifest" : IoResult Unit)
  let manifestValue ← (parseJson crates.toLibraries manifest "manifest" : IoResult Value)
  let manifestObject ← (asObject manifestValue "manifest" : IoResult Map)
  let configValue ← okOr (manifestObject.get "config") (invalid "manifest has no config descriptor")
  let configDescriptor ← (parseDescriptor configValue "config" : IoResult Descriptor)
  let path ← (blobPath configDescriptor.digest : IoResult Text)
  let config ← readSourceFile root path maxConfigBytes
  (verifyDescriptor crates.toLibraries configDescriptor config "config" : IoResult Unit)
  let layerValues ← okOr ((manifestObject.get "layers").bind Value.asArray) (invalid "manifest has no layer list")
  require (layerValues.length ≤ maxLayers) (invalid ("manifest has more than " ++ decimal maxLayers ++ " layers"))
  require (4 + layerValues.length ≤ maxRawObjects)
    (invalid ("raw closure has more than " ++ decimal maxRawObjects ++ " objects"))
  let layers ← readLayers root 0 layerValues
  pure ⟨layout, index, manifest, config, layers, manifestDigest⟩

def ociGraph (crates : Crates) (root : Root) (source : OciSource) : Action WorkloadGraph := do
  let layout ← mapErr (sourceLocatorError "the workload layout directory") (root.openDirectory source.layout)
  let objects ← readImage crates layout source.manifestDigest
  (ociGraphOf crates objects : IoResult WorkloadGraph)

/-- The graph of a specification's source. -/
def sourceGraph (crates : Crates) (spec : WorkloadSpec) : Action WorkloadGraph := do
  let root ← Root.open
  match spec.source with
  | .binary source => binaryGraph crates root source
  | .oci source => ociGraph crates root source

/-- Read one specification, normalize its source, and publish it. -/
def assemble (crates : Crates) (utf8Error : Bytes → Text) (process : Process) (source : Source) :
    Action AssembledWorkload := do
  let spec ← (readSpecification crates utf8Error source : IoResult WorkloadSpec)
  let graph ← (evaluate (sourceGraph crates spec) source.directory : IoResult WorkloadGraph)
  publish crates process graph

end SimFerret.Store
