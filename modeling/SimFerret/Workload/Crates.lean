import SimFerret.Workload.Archive
import SimFerret.Workload.Checks

/-!
# SimFerret.Workload.Crates — what the assembler takes from its libraries

`serde_json`, `toml`, `sha2`, `flate2` and `tar` are parameters.  Their failures reach the source's own
diagnostics only as a category and a location (`diagnostics.rs`).

* `Value`: `serde_json::Value`, with the accessors the source uses.
* `Libraries`: the functions called.  A digest has 32 bytes.
* `WorkloadSpec.parse`: the specification (`workload/spec.rs`), over the documents that `toml` hands back.
-/

namespace SimFerret.Workload

/-! ## Diagnostics -/

/-- `serde_json::error::Category`. -/
inductive Category where
  | io | syntaxError | data | eof
deriving DecidableEq, Repr

structure JsonError where
  category : Category
  line : Nat
  column : Nat
deriving DecidableEq, Repr

/-- Reduce one `serde_json` failure to a category and a location. -/
def jsonError (context : Text) (error : JsonError) : IoError :=
  let category : Text := match error.category with
    | .io => "an I/O failure"
    | .syntaxError => "a syntax error"
    | .data => "a data error"
    | .eof => "unexpected end of input"
  invalid (context ++ ": " ++ category ++ " at line " ++ decimal error.line ++ " column " ++ decimal error.column)

/-- The span of a TOML failure. -/
abbrev TomlError := Option (Nat × Nat)

def tomlError (context : Text) (error : TomlError) : IoError :=
  match error with
  | some (start, stop) =>
    invalid (context ++ ": invalid document at byte offset " ++ decimal start ++ ".." ++ decimal stop)
  | none => invalid (context ++ ": invalid document")

/-- `map_err`. -/
def mapError {ε α : Type} (f : ε → IoError) (x : Except ε α) : IoResult α :=
  match x with
  | .ok a => .ok a
  | .error e => .error (f e)

theorem mapError_eq_ok {ε α : Type} {f : ε → IoError} {x : Except ε α} {a : α} : mapError f x = .ok a ↔
    x = .ok a := by
  cases x <;> simp [mapError]

/-! ## JSON values -/

/-- `serde_json::Value`; a number is kept as `as_i64` gives it. -/
inductive Value where
  | null
  | bool (value : Bool)
  | number (asI64 : Option Int)
  | string (value : Text)
  | array (values : List Value)
  | object (entries : List (Text × Value))

/-- `serde_json::Map<String, Value>`. -/
abbrev Map := List (Text × Value)

namespace Value

def asStr : Value → Option Text
  | string value => some value
  | _ => none

def asI64 : Value → Option Int
  | number value => value
  | _ => none

def asBool : Value → Option Bool
  | bool value => some value
  | _ => none

def asArray : Value → Option (List Value)
  | array values => some values
  | _ => none

def asObject : Value → Option Map
  | object entries => some entries
  | _ => none

def isNull : Value → Bool
  | null => true
  | _ => false

/-- `Value::get`: a member of an object, and nothing of anything else. -/
def get (value : Value) (key : Text) : Option Value :=
  match value with
  | object entries => entries.lookup key
  | _ => none

end Value

/-- `Map::get`. -/
def Map.get (map : Map) (key : Text) : Option Value := List.lookup key map

/-! ## The libraries -/

structure KindProbe where
  version : Nat
  kind : SourceKind

structure BinaryDocument where
  version : Nat
  kind : SourceKind
  path : Text
  args : List Text
  env : List Text
  workingDirectory : Text
  user : Text

structure OciDocument where
  version : Nat
  kind : SourceKind
  layout : Text
  manifestDigest : Text

/-- `serde_json::to_vec` and `serde_json::from_slice` at one type. -/
structure Codec (α : Type) where
  toVec : α → Except Text Bytes
  fromSlice : Bytes → Except JsonError α

/-- What is written is read back, also with the newline that `canonical_json` appends. -/
def Codec.Faithful {α : Type} (codec : Codec α) : Prop :=
  ∀ value bytes, codec.toVec value = .ok bytes → codec.fromSlice (bytes ++ [10]) = .ok value

structure Libraries where
  /-- `Sha256::digest` -/
  sha256 : Bytes → Bytes
  sha256_length : ∀ bytes, (sha256 bytes).length = 32
  /-- `toml::from_str` at the three document types -/
  tomlProbe : Text → Except TomlError KindProbe
  tomlBinary : Text → Except TomlError BinaryDocument
  tomlOci : Text → Except TomlError OciDocument
  /-- `serde_json::from_slice::<Value>` -/
  json : Bytes → Except JsonError Value
  /-- `MultiGzDecoder::new(data).take(limit).read_to_end(…)` -/
  gunzip : Bytes → Nat → Except Text Bytes
  tar : TarReader

/-- `sha256_bytes`. -/
def Libraries.digest (libraries : Libraries) (bytes : Bytes) : Text := sha256Bytes libraries.sha256 bytes

/-! ## The specification -/

/-- Parse one specification; `utf8Error` is the text of its `Utf8Error`. -/
def WorkloadSpec.parse (libraries : Libraries) (utf8Error : Bytes → Text)
    (source : Bytes) : IoResult WorkloadSpec := do
  require (source.length ≤ maxSpecificationBytes)
    (invalid ("workload specification must not exceed " ++ decimal maxSpecificationBytes ++ " bytes"))
  require (Utf8.valid source) (invalid ("workload specification is not UTF-8: " ++ utf8Error source))
  let probe ← mapError (tomlError "malformed workload specification") (libraries.tomlProbe source)
  require (probe.version == workloadSpecVersion)
    (invalid ("unsupported workload specification version " ++ decimal probe.version))
  match probe.kind with
  | .binary =>
    let document ← mapError (tomlError "malformed binary workload") (libraries.tomlBinary source)
    require (document.kind == .binary) (invalid "binary workload must declare kind = \"binary\"")
    validateLocator "path" document.path
    require (!document.user.isEmpty) (invalid "binary workload must declare an explicit nonzero uid:gid user")
    let _ ← normalizeArguments document.args "args"
    let _ ← normalizeEnvironment document.env
    pure ⟨document.version, .binary
      ⟨document.path, document.args, document.env, document.workingDirectory, document.user⟩⟩
  | .oci =>
    let document ← mapError (tomlError "malformed OCI workload") (libraries.tomlOci source)
    require (document.kind == .oci) (invalid "OCI workload must declare kind = \"oci\"")
    validateLocator "layout" document.layout
    let _ ← parseDigest document.manifestDigest
    pure ⟨document.version, .oci ⟨document.layout, document.manifestDigest⟩⟩

/-! ## Digests -/

theorem length_digest (libraries : Libraries) (bytes : Bytes) : (libraries.digest bytes).length = 64 := by
  unfold Libraries.digest sha256Bytes
  rw [length_hex, libraries.sha256_length]

/-- A digest is read back from its prefixed form as it is. -/
theorem parseDigest_hex {bytes : Bytes} (h : bytes.length = 32) :
    parseDigest (digestPrefix ++ hex bytes) = .ok (hex bytes) := by
  have hpre : digestPrefix.isPrefixOf (digestPrefix ++ hex bytes) = true :=
    List.isPrefixOf_iff_prefix.mpr (List.prefix_append _ _)
  have hdigits : ∀ b ∈ hex bytes, isAsciiHexdigit b = true ∧ toAsciiLowercase b = b := by
    intro b hb
    obtain ⟨nibble, hn, rfl⟩ := mem_hex hb
    have hall : ∀ n : Fin 256, UInt8.ofFin n < 16 → isAsciiHexdigit (lowerDigit (UInt8.ofFin n)) = true ∧
        toAsciiLowercase (lowerDigit (UInt8.ofFin n)) = lowerDigit (UInt8.ofFin n) := by decide +kernel
    exact hall nibble.toFin hn
  have hlower : (hex bytes).map toAsciiLowercase = hex bytes := by
    conv_rhs => rw [← List.map_id (hex bytes)]
    exact List.map_congr_left fun b hb => (hdigits b hb).2
  unfold parseDigest
  simp only [hpre, if_true, List.drop_left', length_hex, h, hlower]
  rw [if_neg]
  simp only [ne_eq, not_true_eq_false, false_or, Bool.not_eq_false, List.all_eq_true]
  exact fun b hb => (hdigits b hb).1

end SimFerret.Workload
