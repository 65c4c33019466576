import SimFerret.Workload.Symlink
import SimFerret.Lib.Utf8

/-!
# SimFerret.Workload.Spec — the workload specification and its launch identity (`workload/spec.rs`)

The normalizing functions keep the texts of their errors, with the field names the callers give them.  What the
TOML crate hands over, and the use that the source makes of it, is in `SimFerret.Workload.Crates`.
-/

namespace SimFerret.Workload

def workloadSpecVersion : Nat := 1
def maxSpecificationBytes : Nat := 2 ^ 20
def maxArguments : Nat := 256
def maxArgumentBytes : Nat := 4096
def maxEnvironmentEntries : Nat := 256
def maxEnvironmentEntryBytes : Nat := 4096
def maxEnvironmentBytes : Nat := 64 * 1024

/-- `RESERVED_OWNER`: `(uid_t)-1` means "leave unchanged". -/
def reservedOwner : Nat := 2 ^ 32 - 1

/-- The default when an OCI config declares no user. -/
def defaultUser : Text := "65534:65534"

/-- The one fixed canonical install path for a standalone binary workload. -/
def binaryInstallPath : Text := "bin/simferret-workload"

inductive SourceKind where
  | binary | oci
deriving DecidableEq, Repr

structure BinarySource where
  path : Text
  arguments : List Text
  environment : List Text
  workingDirectory : Text
  user : Text
deriving DecidableEq, Repr

structure OciSource where
  layout : Text
  manifestDigest : Text
deriving DecidableEq, Repr

inductive WorkloadSource where
  | binary (source : BinarySource)
  | oci (source : OciSource)
deriving DecidableEq, Repr

structure WorkloadSpec where
  version : Nat
  source : WorkloadSource
deriving DecidableEq, Repr

/-- The normalized launch identity shared by both source forms. -/
structure LaunchIdentity where
  executable : Text
  arguments : List Text
  environment : List Text
  workingDirectory : Text
  uid : Nat
  gid : Nat
deriving DecidableEq, Repr

/-- The canonical binary specification retained as raw closure evidence. -/
structure CanonicalBinarySpec where
  version : Nat
  kind : SourceKind
  installPath : Text
  arguments : List Text
  environment : List Text
  workingDirectory : Text
  uid : Nat
  gid : Nat
deriving DecidableEq, Repr

/-! ## Text -/

/-- `str::split_once('=')`, its first half. -/
def splitOnceName (entry : Text) : Option Text :=
  if 61 ∈ entry then some (entry.takeWhile (· != 61)) else none

/-- `trim_start_matches('/')`. -/
def trimStartSlashes (value : Text) : Text := value.dropWhile (· == slash)

/-- `trim_matches('/')`. -/
def trimSlashes (value : Text) : Text := (trimStartSlashes (trimStartSlashes value).reverse).reverse

def isAsciiDigit (byte : UInt8) : Bool := 48 ≤ byte && byte ≤ 57

def isAsciiHexdigit (byte : UInt8) : Bool :=
  isAsciiDigit byte || (97 ≤ byte && byte ≤ 102) || (65 ≤ byte && byte ≤ 70)

def toAsciiLowercase (byte : UInt8) : UInt8 := if 65 ≤ byte && byte ≤ 90 then byte + 32 else byte

/-- `str::parse::<u32>` of a nonempty string of digits. -/
def parseU32 (digits : Text) : Option Nat :=
  let value := digits.foldl (fun acc digit => acc * 10 + (digit - 48).toNat) 0
  if value < 2 ^ 32 then some value else none

/-! ## Digests, locators and launch fields -/

def digestPrefix : Text := "sha256:"

def digestError : IoError := invalid "the digest must be a sha256: prefixed lowercase hex digest"

/-- The lowercase hexadecimal part of a `sha256:` digest. -/
def parseDigest (value : Text) : IoResult Text :=
  if digestPrefix.isPrefixOf value then
    let hex := value.drop digestPrefix.length
    if hex.length ≠ 64 ∨ hex.all isAsciiHexdigit = false then .error digestError
    else .ok (hex.map toAsciiLowercase)
  else .error digestError

def validateLocator (field value : Text) : IoResult Unit := do
  require (!value.isEmpty) (invalid (field ++ " must not be empty"))
  require (value.head? != some slash) (invalid (field ++ " must be relative to the workload specification"))
  require (!value.contains 0) (invalid (field ++ " contains a NUL byte"))
  (value.splitOn slash).forM fun component => do
    require (component != utf8 "..") (invalid (field ++ " must not escape the workload specification directory"))
    require (!component.isEmpty) (invalid (field ++ " must not contain an empty path component"))

def normalizeArguments (values : List Text) (field : Text) : IoResult (List Text) := do
  require (values.length ≤ maxArguments)
    (invalid (field ++ " must not contain more than " ++ decimal maxArguments ++ " entries"))
  values.forM fun value => do
    require (value.length ≤ maxArgumentBytes)
      (invalid ("an entry of " ++ field ++ " exceeds " ++ decimal maxArgumentBytes ++ " bytes"))
    require (!value.contains 0) (invalid ("an entry of " ++ field ++ " contains a NUL byte"))
  pure values

/-- The entry loop of `normalize_environment`, with the running total and the names seen. -/
def checkEnvironment : Nat → Nat → List Text → List Text → IoResult Unit
  | _, _, _, [] => .ok ()
  | index, total, seen, entry :: rest => do
    require (entry.length ≤ maxEnvironmentEntryBytes)
      (invalid ("environment entry exceeds " ++ decimal maxEnvironmentEntryBytes ++ " bytes"))
    require (total + entry.length ≤ maxEnvironmentBytes)
      (invalid ("environment must not exceed " ++ decimal maxEnvironmentBytes ++ " bytes"))
    require (!entry.contains 0) (invalid "environment entry contains a NUL byte")
    let name ← okOr (splitOnceName entry) (invalid ("environment entry " ++ decimal index ++ " is not NAME=VALUE"))
    require (!name.isEmpty) (invalid ("environment entry " ++ decimal index ++ " is not NAME=VALUE"))
    require (!seen.contains name) (invalid ("environment entry " ++ decimal index ++ " repeats an earlier name"))
    checkEnvironment (index + 1) (total + entry.length) (seen ++ [name]) rest

def normalizeEnvironment (values : List Text) : IoResult (List Text) := do
  require (values.length ≤ maxEnvironmentEntries)
    (invalid ("environment must not contain more than " ++ decimal maxEnvironmentEntries ++ " entries"))
  checkEnvironment 0 0 [] values
  pure values

def userError : IoError := invalid "the user must be an explicit nonzero uid:gid pair"

def parseUser (value : Text) : IoResult (Nat × Nat) :=
  match value.splitOn 58 with
  | [uid, gid] => do
    require (!uid.isEmpty && !gid.isEmpty && uid.all isAsciiDigit && gid.all isAsciiDigit) userError
    let uid ← okOr (parseU32 uid) (invalid "the user uid is out of range")
    let gid ← okOr (parseU32 gid) (invalid "the user gid is out of range")
    require (uid != 0 && gid != 0) (invalid "root credentials are not supported")
    require (uid != reservedOwner && gid != reservedOwner)
      (invalid "the reserved owner identifier is not a credential")
    pure (uid, gid)
  | _ => .error userError

def normalizeUser (value : Option Text) : IoResult (Nat × Nat) :=
  match value with
  | none | some [] => parseUser defaultUser
  | some value => parseUser value

def normalizeRequiredUser (value : Text) : IoResult (Nat × Nat) :=
  if value = [] then .error (invalid "user must be an explicit nonzero uid:gid pair") else parseUser value

def validateLaunchPath (field value : Text) : IoResult Unit := do
  require (value.head? == some slash) (invalid (field ++ " must be an absolute in-root path"))
  require (!value.contains 0) (invalid (field ++ " contains a NUL byte"))
  require (!(value.splitOn slash).contains (utf8 "..")) (invalid (field ++ " escapes the workload root"))

/-- The environment loop of `validate_launch_identity`. -/
def checkLaunchEnvironment : Nat → List Text → List Text → IoResult Unit
  | _, _, [] => .ok ()
  | total, names, entry :: rest => do
    require (entry.length ≤ maxEnvironmentEntryBytes)
      (invalid ("a workload environment entry exceeds " ++ decimal maxEnvironmentEntryBytes ++ " bytes"))
    require (total + entry.length ≤ maxEnvironmentBytes)
      (invalid ("the workload environment exceeds " ++ decimal maxEnvironmentBytes ++ " bytes"))
    require (!entry.contains 0) (invalid "a workload environment entry contains a NUL byte")
    let name ← okOr (splitOnceName entry) (invalid "a workload environment entry is not NAME=VALUE")
    require (!name.isEmpty) (invalid "a workload environment entry is not NAME=VALUE")
    require (!names.contains name) (invalid "the workload environment has a duplicate name")
    checkLaunchEnvironment (total + entry.length) (names ++ [name]) rest

/-- Validate one already-normalized launch identity against the profile bounds. -/
def validateLaunchIdentity (launch : LaunchIdentity) : IoResult Unit := do
  validateLaunchPath "executable" launch.executable
  require (!launch.arguments.isEmpty) (invalid "the workload argument vector is empty")
  require (launch.arguments.length ≤ maxArguments)
    (invalid ("the workload argument vector exceeds " ++ decimal maxArguments ++ " entries"))
  launch.arguments.forM fun argument => do
    require (argument.length ≤ maxArgumentBytes)
      (invalid ("a workload argument exceeds " ++ decimal maxArgumentBytes ++ " bytes"))
    require (!argument.contains 0) (invalid "a workload argument contains a NUL byte")
  validateLaunchPath "the first workload argument" (launch.arguments.headD [])
  require (launch.environment.length ≤ maxEnvironmentEntries)
    (invalid ("the workload environment exceeds " ++ decimal maxEnvironmentEntries ++ " entries"))
  checkLaunchEnvironment 0 [] launch.environment
  validateLaunchPath "the workload working directory" launch.workingDirectory
  require (launch.uid != 0 && launch.gid != 0) (invalid "root credentials are not supported")
  require (launch.uid != reservedOwner && launch.gid != reservedOwner)
    (invalid "the reserved owner identifier is not a credential")

/-- The working directory as an in-root path. -/
def workingDirectoryPath (value : Text) : IoResult Bytes :=
  if trimSlashes value = [] then .ok rootPath
  else match normalizeLayerPath (trimSlashes value) with
    | .ok relative => .ok relative
    | .error _ => .error (invalid "the working directory is not a valid in-root path")

/-- Treat absence or an empty string as `/`; otherwise require an absolute path to a directory of the tree that
traverses no symbolic link. -/
def normalizeWorkingDirectory (value : Option Text) (tree : Tree) : IoResult Text := do
  let value : Text := match value with
    | none | some [] => "/"
    | some value => value
  require (value.head? == some slash) (invalid "the working directory must be absolute")
  let relative ← workingDirectoryPath value
  require ((ancestors relative ++ [relative]).all fun ancestor => (tree.get ancestor).all (·.kind != .symlink))
    (invalid "the working directory traverses a symbolic link")
  require (relative == rootPath || (tree.get relative).map Entry.kind == some .directory)
    (invalid "the working directory is not a directory in the workload")
  if relative = rootPath then pure (utf8 "/")
  else do
    require (Utf8.valid relative) (invalid "the working directory is not UTF-8")
    pure (slash :: relative)

end SimFerret.Workload
