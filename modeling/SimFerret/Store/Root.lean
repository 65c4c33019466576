import SimFerret.Store.Disk
import SimFerret.Workload.Path

/-!
# SimFerret.Store.Root — bounded file access beneath one opened directory (`workload/root.rs`)

Every method is a routine of system calls.  The counter of a routine is `TEMP_COUNTER` as one run sees it: its
`n`-th `fetch_add` returns `process.ticket n`, whatever other threads of the process draw in between.
-/

namespace SimFerret.Store

open Workload (slash)

/-- A routine of system calls that may fail. -/
abbrev Action := Routine Op Op.Reply IoError

/-- The process a routine runs in. -/
structure Process where
  uid : Nat
  pid : Nat
  ticket : Nat → Nat

/-- `Err(error)`. -/
def fail {α : Type} (error : IoError) : Action α := monadLift (Except.error error : IoResult α)

/-! ## Errors -/

/-- `{text:?}` of a text that needs no escape. -/
def quoted (text : Text) : Text := utf8 "\"" ++ text ++ utf8 "\""

/-- The `?` conversion of an `Errno`. -/
def fromErrno (error : Errno) : IoError :=
  { kind := match error with
      | .noent => .notFound
      | .exist => .alreadyExists
      | .notdir => .notADirectory
      | .isdir => .isADirectory
      | .notempty => .directoryNotEmpty
      | .loop => .filesystemLoop
      | .inval => .invalidInput
      | .other _ => .other
    message := error.text }

def describe (path : Text) (error : Errno) : IoError :=
  { kind := match error with
      | .noent => .notFound
      | .loop | .notdir | .inval => .invalidInput
      | _ => .other
    message := "cannot access " ++ quoted path ++ ": " ++ error.text }

/-- One system call, its outcome inspected by the caller. -/
def kernel (op : Op) : Action (Except Errno op.Value) := Routine.call op

/-- One system call, its error described. -/
def syscall (op : Op) (error : Errno → IoError) : Action op.Value := do
  match ← kernel op with
  | .ok value => pure value
  | .error e => fail (error e)

def notFound (relative : Text) : IoError := ⟨.notFound, "cannot open file " ++ quoted relative⟩

def exceeds (relative : Text) (limit : Nat) : IoError :=
  invalid (quoted relative ++ " exceeds " ++ decimal limit ++ " bytes")

/-! ## Paths -/

/-- One round of `components`. -/
def componentStep (relative : Text) (result : List Text) (component : Text) : IoResult (List Text) :=
  if component = [] ∨ component = utf8 "." then .ok result
  else if component = utf8 ".." then
    .error (invalid ("path " ++ quoted relative ++ " must not escape its opened root"))
  else if 0 ∈ component then .error (invalid ("path " ++ quoted relative ++ " contains a NUL byte"))
  else .ok (result ++ [component])

def components (relative : Text) : IoResult (List Text) :=
  if relative = [] then .error (invalid "invalid empty path")
  else (relative.splitOn slash).foldlM (componentStep relative) []

def splitRelative (relative : Text) : IoResult (List Text × Text) := do
  let parts ← components relative
  match parts.getLast? with
  | some name => pure (parts.dropLast, name)
  | none => .error (invalid ("invalid empty path " ++ quoted relative))

/-- `.{name}.staging.{pid}.{counter}`. -/
def stagingName (name : Text) (pid counter : Nat) : Text :=
  "." ++ name ++ ".staging." ++ decimal pid ++ "." ++ decimal counter

def drawStagingName (process : Process) (name : Text) : Action Text := do
  let n ← Routine.draw
  pure (stagingName name process.pid (process.ticket n))

/-! ## Opening -/

/-- An opened directory. -/
structure Root where
  fd : Path
deriving DecidableEq, Repr

namespace Root

def «open» : Action Root := do
  syscall .openStore fromErrno
  pure ⟨[]⟩

def requirePrivate (process : Process) (stat : Stat) (relative : Text) : IoResult Unit := do
  require (stat.uid == process.uid) (invalid (quoted relative ++ " is not owned by the current user"))
  require (stat.mode &&& 0o077 == 0) (invalid (quoted relative ++ " is not owner-only"))

def openPrivate (process : Process) : Action Root := do
  let root ← «open»
  let stat ← syscall (.fstat root.fd) fromErrno
  requirePrivate process stat "the workload store"
  pure root

def openBeneath : Path → List Text → Action Path
  | current, [] => pure current
  | current, component :: rest => do
    syscall (.openDirectory current component) (describe component)
    openBeneath (current ++ [component]) rest

def openDirectory (root : Root) (relative : Text) : Action Root := do
  let parts ← components relative
  let fd ← openBeneath root.fd parts
  pure ⟨fd⟩

/-- The regular file at a path, or nothing if it or a directory on the way to it is missing. -/
def openRegular (root : Root) (relative : Text) : Action (Option (Stat × Bytes)) := do
  let (parent, name) ← splitRelative relative
  match ← (openBeneath root.fd parent).attempt with
  | .error e => if e.kind = .notFound then pure none else fail e
  | .ok directory =>
    match ← kernel (.openFile directory name) with
    | .error .noent => pure none
    | .error e => fail (describe relative e)
    | .ok (.file stat data) => pure (some (stat, data))
    | .ok _ => fail (invalid (quoted relative ++ " is not a regular file"))

def readFileIfExists (root : Root) (relative : Text) (limit : Nat) : Action (Option Bytes) := do
  match ← root.openRegular relative with
  | some (_, data) =>
    require (data.length ≤ limit) (exceeds relative limit)
    pure (some data)
  | none => pure none

def readFile (root : Root) (relative : Text) (limit : Nat) : Action Bytes := do
  match ← root.readFileIfExists relative limit with
  | some data => pure data
  | none => fail (notFound relative)

/-- Hash one bounded regular file without retaining it. -/
def sha256File (sha256Bytes : Bytes → Text) (root : Root) (relative : Text) (limit : Nat) : Action Text := do
  match ← root.openRegular relative with
  | some (_, data) =>
    require (data.length ≤ limit) (exceeds relative limit)
    pure (sha256Bytes data)
  | none => fail (notFound relative)

def requirePrivateDirectory (process : Process) (root : Root) (relative : Text) : Action Unit := do
  let directory ← root.openDirectory relative
  let stat ← syscall (.fstat directory.fd) fromErrno
  requirePrivate process stat relative

def requirePrivateFile (process : Process) (root : Root) (relative : Text) : Action Unit := do
  match ← root.openRegular relative with
  | some (stat, _) => requirePrivate process stat relative
  | none => fail (notFound relative)

/-- `Root::exists`. -/
def entryExists (root : Root) (relative : Text) : Action Bool := do
  let (parent, name) ← splitRelative relative
  let directory ← openBeneath root.fd parent
  match ← kernel (.statat directory name) with
  | .ok () => pure true
  | .error .noent => pure false
  | .error e => fail (describe relative e)

/-! ## Creating -/

def openOrCreateBeneath (process : Process) (relative : Text) : Path → List Text → Action Path
  | current, [] => pure current
  | current, component :: rest => do
    match ← kernel (.mkdirat current component) with
    | .ok () => pure ()
    | .error .exist => pure ()
    | .error e => fail (describe relative e)
    syscall (.openDirectory current component) (describe relative)
    let stat ← syscall (.fstat (current ++ [component])) fromErrno
    requirePrivate process stat relative
    openOrCreateBeneath process relative (current ++ [component]) rest

def openOrCreateDirectory (process : Process) (root : Root) (relative : Text) : Action Path := do
  let parts ← components relative
  openOrCreateBeneath process relative root.fd parts

def createDirectory (root : Root) (relative : Text) : Action Unit := do
  let (parent, name) ← splitRelative relative
  let directory ← openBeneath root.fd parent
  syscall (.mkdirat directory name) (describe relative)

/-- `let _ = unlinkat(…)`. -/
def discard (directory : Path) (name : Text) : Action Unit := do
  let _ ← kernel (.unlink directory name)
  pure ()

def writeStagingFile (process : Process) (directory : Path) (name : Text) (data : Bytes) : Action Text := do
  let temporary ← drawStagingName process name
  syscall (.createFile directory temporary) (describe temporary)
  let written ← Routine.attempt do
    syscall (.write (directory ++ [temporary]) data) fromErrno
    syscall (.sync (directory ++ [temporary])) fromErrno
  match written with
  | .ok () => pure temporary
  | .error e =>
    discard directory temporary
    fail e

/-- Publish one file through a staging name; `false` when the destination already existed. -/
def publishExclusive (process : Process) (root : Root) (relative : Text) (data : Bytes) : Action Bool := do
  let (parent, name) ← splitRelative relative
  let directory ← openOrCreateBeneath process relative root.fd parent
  let temporary ← writeStagingFile process directory name data
  match ← kernel (.renameNoreplace (directory ++ [temporary]) (directory ++ [name])) with
  | .ok () => pure true
  | .error .exist =>
    discard directory temporary
    pure false
  | .error e =>
    discard directory temporary
    fail (describe relative e)

/-- Publish one file, replacing any existing entry. -/
def writeFileAtomic (process : Process) (root : Root) (relative : Text) (data : Bytes) : Action Unit := do
  let (parent, name) ← splitRelative relative
  let directory ← openOrCreateBeneath process relative root.fd parent
  let temporary ← writeStagingFile process directory name data
  match ← kernel (.renameat (directory ++ [temporary]) (directory ++ [name])) with
  | .ok () => pure ()
  | .error e =>
    discard directory temporary
    fail (describe relative e)

def rename (root : Root) (source target : Text) : Action Unit := do
  let (sourceParent, sourceName) ← splitRelative source
  let (targetParent, targetName) ← splitRelative target
  let sourceDirectory ← openBeneath root.fd sourceParent
  let targetDirectory ← openBeneath root.fd targetParent
  syscall (.renameat (sourceDirectory ++ [sourceName]) (targetDirectory ++ [targetName])) (describe target)

/-! ## Removing -/

/-- `remove_file_if_exists` and `remove_directory_if_exists`: a missing entry is no error. -/
def removeIfExists (op : Path → Text → Op) (root : Root) (relative : Text) : Action Unit := do
  let (parent, name) ← splitRelative relative
  let directory ← openBeneath root.fd parent
  match ← kernel (op directory name) with
  | .ok _ => pure ()
  | .error .noent => pure ()
  | .error e => fail (describe relative e)

def removeFileIfExists : Root → Text → Action Unit := removeIfExists .unlink

def removeDirectoryIfExists : Root → Text → Action Unit := removeIfExists .removeDirectory

end Root

/-! ## Paths and their components -/

/-- What a path component is made of. -/
structure Component (c : Text) : Prop where
  ne_nil : c ≠ []
  ne_dot : c ≠ utf8 "."
  ne_dots : c ≠ utf8 ".."
  no_slash : slash ∉ c
  no_nul : 0 ∉ c

instance (c : Text) : Decidable (Component c) :=
  decidable_of_iff (c ≠ [] ∧ c ≠ utf8 "." ∧ c ≠ utf8 ".." ∧ slash ∉ c ∧ 0 ∉ c)
    ⟨fun ⟨h1, h2, h3, h4, h5⟩ => ⟨h1, h2, h3, h4, h5⟩, fun ⟨h1, h2, h3, h4, h5⟩ => ⟨h1, h2, h3, h4, h5⟩⟩

/-- `components.join("/")`. -/
def joinPath (path : Path) : Text := [slash].intercalate path

theorem componentStep_of_component {relative c : Text} {result : List Text} (h : Component c) :
    componentStep relative result c = .ok (result ++ [c]) := by
  simp [componentStep, h.ne_nil, h.ne_dot, h.ne_dots, h.no_nul]

theorem foldlM_componentStep {relative : Text} : ∀ {cs result : List Text}, (∀ c ∈ cs, Component c) →
    cs.foldlM (componentStep relative) result = .ok (result ++ cs)
  | [], result, _ => by simp [pure, Except.pure]
  | c :: cs, result, h => by
    rw [List.foldlM_cons, componentStep_of_component (h c List.mem_cons_self)]
    change cs.foldlM (componentStep relative) (result ++ [c]) = _
    rw [foldlM_componentStep fun c' hc' => h c' (List.mem_cons_of_mem c hc')]
    simp

theorem components_joinPath {path : Path} (hne : path ≠ []) (h : ∀ c ∈ path, Component c) :
    components (joinPath path) = .ok path := by
  have hsplit : (joinPath path).splitOn slash = path :=
    List.splitOn_intercalate slash (fun c hc => (h c hc).no_slash) hne
  have hjoin : joinPath path ≠ [] := by
    intro hnil
    rw [hnil] at hsplit
    rw [show ([] : Text).splitOn slash = [[]] from rfl] at hsplit
    exact (h [] (hsplit ▸ List.mem_singleton_self _)).ne_nil rfl
  unfold components
  rw [if_neg hjoin, hsplit, foldlM_componentStep h]
  simp

theorem splitRelative_joinPath {parent : Path} {name : Text} (h : ∀ c ∈ parent ++ [name], Component c) :
    splitRelative (joinPath (parent ++ [name])) = .ok (parent, name) := by
  unfold splitRelative
  rw [components_joinPath (by simp) h]
  simp [bind, Except.bind, pure, Except.pure]

theorem digit_ne {b : UInt8} {n : Nat} (h : b ∈ decimal n) : b ≠ slash ∧ b ≠ 0 := by
  obtain ⟨c, hc, rfl⟩ := List.mem_map.mp h
  obtain ⟨d, hd, rfl⟩ := mem_toDigits (by omega) n hc
  have hall : ∀ d : Fin 10, charByte (Nat.digitChar d) ≠ slash ∧ charByte (Nat.digitChar d) ≠ 0 := by decide
  exact hall ⟨d, hd⟩

/-- A staging name is hidden. -/
theorem head_stagingName (name : Text) (pid counter : Nat) : (stagingName name pid counter).head? = some 46 := by
  simp [stagingName, show utf8 "." = [46] from rfl]

theorem component_stagingName {name : Text} (h : Component name) (pid counter : Nat) :
    Component (stagingName name pid counter) := by
  have hlen : 11 ≤ (stagingName name pid counter).length := by
    simp only [stagingName, List.length_append, show (utf8 ".").length = 1 from rfl,
      show (utf8 ".staging.").length = 9 from rfl]
    omega
  have hmem : ∀ b ∈ stagingName name pid counter, b ∈ name ∨ b ∈ utf8 ".staging." ∨ b ∈ decimal pid ∨
      b ∈ decimal counter ∨ b = 46 := by
    intro b hb
    simp only [stagingName, List.mem_append, show utf8 "." = [46] from rfl, List.mem_singleton] at hb
    tauto
  have hmarker : (utf8 ".staging.").all (fun b => b ≠ slash ∧ b ≠ 0) = true := by decide
  have hbyte : ∀ b ∈ stagingName name pid counter, b ≠ slash ∧ b ≠ 0 := by
    intro b hb
    rcases hmem b hb with h1 | h1 | h1 | h1 | rfl
    · exact ⟨fun hs => h.no_slash (hs ▸ h1), fun hs => h.no_nul (hs ▸ h1)⟩
    · exact of_decide_eq_true (List.all_eq_true.mp hmarker b h1)
    · exact digit_ne h1
    · exact digit_ne h1
    · decide
  refine ⟨?_, ?_, ?_, fun hs => (hbyte _ hs).1 rfl, fun hs => (hbyte _ hs).2 rfl⟩
  · intro hc
    rw [hc] at hlen
    simp at hlen
  · intro hc
    rw [hc] at hlen
    exact absurd hlen (by decide)
  · intro hc
    rw [hc] at hlen
    exact absurd hlen (by decide)

end SimFerret.Store
