import SimFerret.Workload.Crates

/-!
# SimFerret.Workload.Oci — the OCI image graph (`workload/oci.rs`)

`parseGraph` re-derives the canonical tree and the launch identity from raw objects; assembly and replay share
it.  The recorded manifest digest reaches the graph only through the descriptor it selects.
-/

namespace SimFerret.Workload

def maxLayoutBytes : Nat := 2 ^ 20
def maxIndexBytes : Nat := 4 * 2 ^ 20
def maxManifestBytes : Nat := 2 ^ 20
def maxConfigBytes : Nat := 2 ^ 20
def maxLayerBytes : Nat := 64 * 2 ^ 20
def maxLayers : Nat := 16
def maxRawObjects : Nat := 64

def layoutVersion : Text := "1.0.0"
def manifestMediaType : Text := "application/vnd.oci.image.manifest.v1+json"
def configMediaType : Text := "application/vnd.oci.image.config.v1+json"
def plainLayerMediaType : Text := "application/vnd.oci.image.layer.v1.tar"
def gzipLayerMediaType : Text := "application/vnd.oci.image.layer.v1.tar+gzip"

structure LayerEvidence where
  mediaType : Text
  digest : Text
  diffId : Text
  bytes : Nat
  expandedBytes : Nat
deriving DecidableEq, Repr

structure OciObjects where
  layout : Bytes
  index : Bytes
  manifest : Bytes
  config : Bytes
  layers : List Bytes
  manifestDigest : Text
deriving DecidableEq, Repr

structure OciGraph where
  tree : Tree
  launch : LaunchIdentity
  layers : List LayerEvidence

structure Descriptor where
  mediaType : Option Text
  digest : Text
  size : Int
deriving DecidableEq, Repr

/-! ## JSON accessors -/

def parseJson (libraries : Libraries) (bytes : Bytes) (what : Text) : IoResult Value :=
  mapError (jsonError ("malformed " ++ what ++ " JSON")) (libraries.json bytes)

def asObject (value : Value) (what : Text) : IoResult Map :=
  okOr value.asObject (invalid (what ++ " is not a JSON object"))

def requiredString (map : Map) (key what : Text) : IoResult Text :=
  okOr ((map.get key).bind Value.asStr) (invalid (what ++ " has no " ++ key ++ " string"))

def requiredInteger (map : Map) (key what : Text) : IoResult Int :=
  okOr ((map.get key).bind Value.asI64) (invalid (what ++ " has no " ++ key ++ " integer"))

/-- `filter(|value| !value.is_null())`. -/
def notNull (value : Option Value) : Option Value := value.filter fun value => !value.isNull

/-- `optional_string` and `optional_string_value`. -/
def optionalStringValue (value : Option Value) (what : Text) : IoResult (Option Text) :=
  match notNull value with
  | none => .ok none
  | some value =>
    match value.asStr with
    | some text => .ok (some text)
    | none => .error (invalid (what ++ " is not a string"))

def optionalString (map : Map) (key : Text) : IoResult (Option Text) := optionalStringValue (map.get key) key

def stringList (value : Option Value) (what : Text) : IoResult (List Text) :=
  match notNull value with
  | none => .ok []
  | some value => do
    let array ← okOr value.asArray (invalid (what ++ " must be a list of strings"))
    array.mapM fun item => okOr item.asStr (invalid (what ++ " must be a list of strings"))

/-! ## Descriptors -/

def parseDescriptor (value : Value) (what : Text) : IoResult Descriptor := do
  let object ← asObject value (what ++ " descriptor")
  let digest ← requiredString object "digest" (what ++ " descriptor")
  let hex ← parseDigest digest
  let size ← requiredInteger object "size" (what ++ " descriptor")
  require (decide (0 ≤ size)) (invalid (what ++ " descriptor declares a negative size"))
  let mediaType ← optionalString object "mediaType"
  require (notNull (object.get "urls")).isNone (invalid (what ++ " descriptor declares URLs"))
  require (notNull (object.get "data")).isNone (invalid (what ++ " descriptor carries embedded data"))
  pure ⟨mediaType, digestPrefix ++ hex, size⟩

def verifyDescriptor (libraries : Libraries) (descriptor : Descriptor) (data : Bytes) (what : Text) :
    IoResult Unit := do
  require (descriptor.size == data.length) (invalid (what ++ " descriptor size does not match stored bytes"))
  require (descriptor.digest == digestPrefix ++ libraries.digest data)
    (invalid (what ++ " descriptor digest does not match stored bytes"))

/-- The extensions that make a platform or a config unsupported. -/
def platformExtensions : List Text := [utf8 "variant", utf8 "os.version", utf8 "os.features"]

/-- `value.get("digest")` spells the digest. -/
def spells (manifestDigest : Text) (value : Value) : Bool :=
  (value.get "digest").bind Value.asStr == some manifestDigest

def selectManifestDescriptor (index : Value) (manifestDigest : Text) : IoResult Descriptor := do
  let index ← asObject index "index"
  let schemaVersion ← requiredInteger index "schemaVersion" "index"
  require (schemaVersion == 2) (invalid "unsupported index schema version")
  let manifests ← okOr ((index.get "manifests").bind Value.asArray) (invalid "index has no manifest list")
  match manifests.filter (spells manifestDigest) with
  | [] => .error (invalid "index has no descriptor for the recorded manifest")
  | [selected] =>
    let descriptor ← parseDescriptor selected "selected"
    require (descriptor.mediaType == some manifestMediaType)
      (invalid "the selected descriptor is not an OCI image manifest")
    let platform ← okOr ((selected.get "platform").bind Value.asObject)
      (invalid "selected descriptor has no platform")
    require (((platform.get "architecture").bind Value.asStr == some (utf8 "amd64")) &&
        ((platform.get "os").bind Value.asStr == some (utf8 "linux")))
      (invalid "selected descriptor is not linux/amd64")
    platformExtensions.forM fun extension =>
      require (platform.get extension).isNone (invalid ("selected descriptor declares " ++ extension))
    pure descriptor
  | selected =>
    .error (invalid ("index has " ++ decimal selected.length ++ " descriptors for the recorded manifest"))

/-! ## The launch identity -/

/-- The launch fields that the profile does not support. -/
def rejectUnsupported (oci : Map) : IoResult Unit := do
  match notNull (oci.get "Volumes") with
  | none => pure ()
  | some volumes =>
    let volumes ← asObject volumes "Volumes"
    require volumes.isEmpty (invalid "the Volumes launch field is not supported")
  match notNull (oci.get "StopSignal") with
  | none => pure ()
  | some signal =>
    let signal ← okOr signal.asStr (invalid "StopSignal must be a string")
    require signal.isEmpty (invalid "the StopSignal launch field is not supported")
  match notNull (oci.get "ArgsEscaped") with
  | none => pure ()
  | some escaped =>
    let escaped ← okOr escaped.asBool (invalid "ArgsEscaped must be a boolean")
    require (!escaped) (invalid "the ArgsEscaped launch field is not supported")

/-- The environment of an image config. -/
def imageEnvironment (value : Option Value) : IoResult (List Text) :=
  match notNull value with
  | none => .ok []
  | some value => do
    let array ← okOr value.asArray (invalid "config environment is not a list")
    let entries ← array.mapM fun item => okOr item.asStr (invalid "config environment is not a list of strings")
    normalizeEnvironment entries

def normalizeLaunch (config : Map) (tree : Tree) : IoResult LaunchIdentity := do
  let architecture ← requiredString config "architecture" "config"
  let os ← if architecture = utf8 "amd64" then requiredString config "os" "config" else pure []
  require (architecture == utf8 "amd64" && os == utf8 "linux") (invalid "selected config is not linux/amd64")
  platformExtensions.forM fun extension =>
    require (config.get extension).isNone (invalid ("selected config declares " ++ extension))
  let oci ← match notNull (config.get "config") with
    | some value => do pure (some (← asObject value "config launch section"))
    | none => pure none
  match oci with
  | some oci => rejectUnsupported oci
  | none => pure ()
  let field := fun key => oci.bind fun (oci : Map) => oci.get key
  let entrypoint ← stringList (field "Entrypoint") "Entrypoint"
  let cmd ← stringList (field "Cmd") "Cmd"
  require (!(entrypoint ++ cmd).isEmpty) (invalid "workload has no executable")
  let arguments ← normalizeArguments (entrypoint ++ cmd) "arguments"
  let executable := arguments.headD []
  require (executable.head? == some slash) (invalid "the executable argument must be an absolute path")
  let relative ← mapError (fun _ => invalid "the executable argument is not a valid in-root path")
    (normalizeLayerPath (trimStartSlashes executable))
  let entry ← okOr (tree.get relative) (invalid "the executable argument is not a file in the workload")
  require (entry.kind == .file) (invalid "the executable argument is not a file in the workload")
  require (entry.mode &&& 0o111 != 0) (invalid "the executable argument is not executable")
  let user ← optionalStringValue (field "User") "User"
  let (uid, gid) ← normalizeUser user
  let environment ← imageEnvironment (field "Env")
  let directory ← optionalStringValue (field "WorkingDir") "WorkingDir"
  let workingDirectory ← normalizeWorkingDirectory directory tree
  let launch : LaunchIdentity := ⟨slash :: Utf8.lossy relative, arguments, environment, workingDirectory, uid, gid⟩
  validateLaunchIdentity launch
  pure launch

/-! ## Layers -/

def expandLayer (libraries : Libraries) (data : Bytes) (mediaType : Text) : IoResult Bytes :=
  if mediaType = plainLayerMediaType then do
    require (data.length ≤ maxExpandedLayerBytes) (invalid "layer expansion limit")
    pure data
  else if mediaType ≠ gzipLayerMediaType then
    .error (invalid "the layer has an unsupported media type; expected an OCI tar or tar+gzip layer")
  else do
    let expanded ← mapError (fun error => invalid ("malformed gzip layer: " ++ error))
      (libraries.gunzip data (maxExpandedLayerBytes + 1))
    require (expanded.length ≤ maxExpandedLayerBytes) (invalid "layer expansion limit")
    pure expanded

/-- `format!("layer {position}")`. -/
def layerName (position : Nat) : Text := "layer " ++ decimal position

/-- One layer: its descriptor, its bytes and its DiffID, applied to the tree. -/
def graphLayer (libraries : Libraries) (position : Nat) (value : Value) (data : Bytes) (diffId : Value)
    (tree : Tree) : IoResult (Tree × LayerEvidence) := do
  let descriptor ← parseDescriptor value (layerName position)
  let mediaType ← okOr descriptor.mediaType (invalid (layerName position ++ " has no media type"))
  require (mediaType == plainLayerMediaType || mediaType == gzipLayerMediaType)
    (invalid (layerName position ++ " has an unsupported media type; expected an OCI tar or tar+gzip layer"))
  verifyDescriptor libraries descriptor data (layerName position)
  let expanded ← expandLayer libraries data mediaType
  let diffId ← okOr diffId.asStr (invalid "config diff_id is not a string")
  let diffId ← parseDigest diffId
  require (libraries.digest expanded == diffId)
    (invalid (layerName position ++ " DiffID does not match uncompressed bytes"))
  let members ← parseLayer libraries.tar expanded position
  let tree ← applyLayer tree members
  validateCanonicalTree tree maxViewEntries maxExpandedLayerBytes
  pure (tree, ⟨mediaType, descriptor.digest, digestPrefix ++ diffId, data.length, expanded.length⟩)

/-- The layer loop from `position` on. -/
def graphLayers (libraries : Libraries) : Nat → List (Value × Bytes × Value) → Tree → List LayerEvidence →
    IoResult (Tree × List LayerEvidence)
  | _, [], tree, evidence => .ok (tree, evidence)
  | position, (value, data, diffId) :: rest, tree, evidence => do
    let (tree, layer) ← graphLayer libraries position value data diffId tree
    graphLayers libraries (position + 1) rest tree (evidence ++ [layer])

/-- `parse_graph` after the manifest was selected and verified. -/
def parseManifest (libraries : Libraries) (objects : OciObjects) : IoResult OciGraph := do
  let manifest ← parseJson libraries objects.manifest "manifest"
  let manifest ← asObject manifest "manifest"
  let schemaVersion ← requiredInteger manifest "schemaVersion" "manifest"
  require (schemaVersion == 2) (invalid "unsupported manifest schema version")
  let mediaType ← requiredString manifest "mediaType" "manifest"
  require (mediaType == manifestMediaType) (invalid "manifest media type is unsupported")
  let config ← okOr (manifest.get "config") (invalid "manifest has no config descriptor")
  let configDescriptor ← parseDescriptor config "config"
  verifyDescriptor libraries configDescriptor objects.config "config"
  require (configDescriptor.mediaType == some configMediaType) (invalid "config media type is unsupported")
  let config ← parseJson libraries objects.config "config"
  let config ← asObject config "config"
  let layerValues ← okOr ((manifest.get "layers").bind Value.asArray) (invalid "manifest has no layer list")
  require (!layerValues.isEmpty) (invalid "manifest has no layers")
  require (layerValues.length ≤ maxLayers)
    (invalid ("manifest has more than " ++ decimal maxLayers ++ " layers"))
  require (layerValues.length == objects.layers.length)
    (invalid "raw layer count does not match the manifest layer count")
  let rootfs ← okOr (notNull (config.get "rootfs")) (invalid "config has no rootfs")
  let rootfs ← asObject rootfs "config rootfs"
  let kind ← requiredString rootfs "type" "config rootfs"
  require (kind == utf8 "layers") (invalid "config rootfs type is not layers")
  let diffIds ← okOr ((rootfs.get "diff_ids").bind Value.asArray) (invalid "config rootfs has no diff_ids")
  require (diffIds.length == layerValues.length) (invalid "config diff_id count does not match layer count")
  let (tree, layers) ← graphLayers libraries 0 (layerValues.zip (objects.layers.zip diffIds)) Tree.new []
  let tree ← canonicalRoot tree
  validateSymlinks tree
  let launch ← normalizeLaunch config tree
  pure ⟨tree, launch, layers⟩

/-- The descriptor that the recorded digest selects, checked against the manifest. -/
def selectManifest (libraries : Libraries) (objects : OciObjects) : IoResult Unit := do
  let index ← parseJson libraries objects.index "index"
  let descriptor ← selectManifestDescriptor index objects.manifestDigest
  verifyDescriptor libraries descriptor objects.manifest "manifest"

/-- Re-derive the canonical tree and normalized launch from verified raw objects. -/
def parseGraph (libraries : Libraries) (objects : OciObjects) : IoResult OciGraph := do
  let layout ← parseJson libraries objects.layout "oci-layout"
  let layout ← asObject layout "oci-layout"
  let version ← requiredString layout "imageLayoutVersion" "oci-layout"
  require (version == layoutVersion) (invalid "unsupported image layout version; expected \"1.0.0\"")
  selectManifest libraries objects
  parseManifest libraries objects

end SimFerret.Workload
