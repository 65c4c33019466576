import SimFerret.Lib.Program
import SimFerret.Prelude

/-!
# SimFerret.Store.Disk — the file system beneath an opened directory

A disk maps paths, as lists of components below the opened directory, to nodes.  `Op` is one system call of
`workload/root.rs`; `exec` is what the kernel does for it.

A directory descriptor is the path it was opened at: the only directories that are ever renamed are staging
directories, and none is held open across its rename.  A file opened for reading is the node it named at that
moment: no file is written after it was renamed into place.

* `perform`: an operation carried out, its error as its reply.
* `Does`: an operation carried out, refused for any reason with nothing changed, or a write torn.
-/

namespace SimFerret.Store

/-- Components below the opened directory, outermost first. -/
abbrev Path := List Text

/-- The permission bits and the owner of a node. -/
structure Stat where
  mode : Nat
  uid : Nat
deriving DecidableEq, Repr

inductive Node where
  | directory (stat : Stat)
  | file (stat : Stat) (data : Bytes)
  | symlink
  | special (stat : Stat)
deriving DecidableEq, Repr

structure Disk where
  nodes : List (Path × Node)
deriving DecidableEq, Repr

namespace Disk

/-- A directory that does not exist yet. -/
def absent : Disk := ⟨[]⟩

def get (d : Disk) (path : Path) : Option Node := d.nodes.lookup path

def set (d : Disk) (path : Path) (node : Node) : Disk := ⟨(path, node) :: d.nodes⟩

def erase (d : Disk) (path : Path) : Disk := ⟨d.nodes.filter fun entry => entry.1 != path⟩

/-- No node lies below `path`. -/
def childless (d : Disk) (path : Path) : Bool :=
  d.nodes.all fun entry => !(path.isPrefixOf entry.1) || entry.1 == path

/-- The subtree at `source` becomes the subtree at `target`; whatever was at `target` is gone. -/
def move (d : Disk) (source target : Path) : Disk :=
  ⟨(d.nodes.filter fun entry => !(target.isPrefixOf entry.1)).map fun entry =>
    (if source.isPrefixOf entry.1 then target ++ entry.1.drop source.length else entry.1, entry.2)⟩

def isDirectory (d : Disk) (path : Path) : Bool :=
  match d.get path with
  | some (.directory _) => true
  | _ => false

/-- Data written to an open file; a file that was unlinked is written without a name. -/
def write (d : Disk) (path : Path) (data : Bytes) : Disk :=
  match d.get path with
  | some (.file stat old) => d.set path (.file stat (old ++ data))
  | _ => d

theorem get_set (d : Disk) (path p : Path) (node : Node) :
    (d.set path node).get p = if p = path then some node else d.get p := by
  unfold get set
  by_cases h : p = path
  · simp [h]
  · have : (p == path) = false := by simpa using h
    simp [List.lookup_cons, this, h]

theorem get_erase (d : Disk) (path p : Path) :
    (d.erase path).get p = if p = path then none else d.get p := by
  unfold get erase
  induction d.nodes with
  | nil => simp
  | cons entry rest ih =>
    obtain ⟨key, node⟩ := entry
    by_cases hk : key = path
    · subst hk
      by_cases hp : p = key
      · simpa [hp] using ih
      · have : (p == key) = false := by simpa using hp
        simpa [List.lookup_cons, this, hp] using ih
    · by_cases hp : p = key
      · subst hp
        simp [hk]
      · have : (p == key) = false := by simpa using hp
        simpa [List.lookup_cons, hk, this] using ih

/-- A node below a childless path does not exist. -/
theorem get_of_childless {d : Disk} {path p : Path} (h : d.childless path = true) (hp : path <+: p)
    (hne : p ≠ path) : d.get p = none := by
  unfold childless at h
  rw [List.all_eq_true] at h
  unfold get
  rw [List.lookup_eq_none_iff]
  intro entry hentry
  have := h entry hentry
  simp only [Bool.or_eq_true, Bool.not_eq_true', beq_iff_eq] at this
  rw [bne_iff_ne]
  rintro rfl
  rcases this with hpre | heq
  · rw [List.isPrefixOf_iff_prefix.mpr hp] at hpre
    cases hpre
  · exact hne heq

theorem childless_of_get {d : Disk} {path : Path} (h : ∀ p, path <+: p → p ≠ path → d.get p = none) :
    d.childless path = true := by
  unfold childless
  rw [List.all_eq_true]
  intro entry hentry
  by_cases hpre : path.isPrefixOf entry.1 = true
  · by_cases heq : entry.1 = path
    · simp [heq]
    · have := h entry.1 (List.isPrefixOf_iff_prefix.mp hpre) heq
      unfold get at this
      rw [List.lookup_eq_none_iff] at this
      have hself := this entry hentry
      simp at hself
  · simp [hpre]

/-- Where each node is after a move between two separate subtrees. -/
theorem get_move {d : Disk} {source target : Path} (h : ¬ source <+: target) (h' : ¬ target <+: source)
    (p : Path) : (d.move source target).get p =
      if target <+: p then d.get (source ++ p.drop target.length)
      else if source <+: p then none else d.get p := by
  have hsep : ∀ q, source <+: q → ¬ target <+: q := fun q hs ht =>
    (List.prefix_or_prefix_of_prefix hs ht).elim h h'
  unfold get move
  induction d.nodes with
  | nil => simp
  | cons entry rest ih =>
    obtain ⟨key, node⟩ := entry
    by_cases ht : target <+: key
    · have hs : ¬ source <+: key := fun hs => hsep key hs ht
      -- the node is dropped, and no path it could answer for is read from it
      rw [List.filter_cons_of_neg (by simp [ht]), ih, List.lookup_cons, List.lookup_cons]
      have h1 : (source ++ p.drop target.length == key) = false := by
        rw [beq_eq_false_iff_ne]
        rintro rfl
        exact hs (List.prefix_append _ _)
      rw [h1]
      by_cases hp : target <+: p
      · simp [hp]
      · have h2 : (p == key) = false := by
          rw [beq_eq_false_iff_ne]
          rintro rfl
          exact hp ht
        simp [hp, h2]
    · have hkeep : target.isPrefixOf key = false := by
        rw [← Bool.not_eq_true, List.isPrefixOf_iff_prefix]
        exact ht
      rw [List.filter_cons_of_pos (by simp [hkeep]), List.map_cons, List.lookup_cons, ih, List.lookup_cons,
        List.lookup_cons]
      by_cases hs : source <+: key
      · obtain ⟨tail, rfl⟩ := hs
        have hpre : source.isPrefixOf (source ++ tail) = true := by simp
        simp only [hpre, if_true, List.drop_left']
        by_cases hp : target <+: p
        · obtain ⟨rest', rfl⟩ := hp
          have h3 : (target ++ rest' == target ++ tail) = (source ++ rest' == source ++ tail) := by
            rw [Bool.eq_iff_iff]
            simp
          simp [h3]
        · have h4 : (p == target ++ tail) = false := by
            rw [beq_eq_false_iff_ne]
            rintro rfl
            exact hp (List.prefix_append _ _)
          rw [h4]
          by_cases hsp : source <+: p
          · simp [hp, hsp]
          · have h5 : (p == source ++ tail) = false := by
              rw [beq_eq_false_iff_ne]
              rintro rfl
              exact hsp (List.prefix_append _ _)
            simp [hp, hsp, h5]
      · have hpre : source.isPrefixOf key = false := by
          rw [← Bool.not_eq_true, List.isPrefixOf_iff_prefix]
          exact hs
        simp only [hpre, Bool.false_eq_true, if_false]
        have h1 : (source ++ p.drop target.length == key) = false := by
          rw [beq_eq_false_iff_ne]
          rintro rfl
          exact hs (List.prefix_append _ _)
        rw [h1]
        by_cases hp : target <+: p
        · have h2 : (p == key) = false := by
            rw [beq_eq_false_iff_ne]
            rintro rfl
            exact ht hp
          simp [hp, h2]
        · by_cases hsp : source <+: p
          · have h2 : (p == key) = false := by
              rw [beq_eq_false_iff_ne]
              rintro rfl
              exact hs hsp
            simp [hp, hsp, h2]
          · simp [hp, hsp]

end Disk

/-! ## System calls -/

inductive Errno where
  | noent | exist | notdir | isdir | notempty | loop | inval
  | other (text : Text)
deriving DecidableEq, Repr

/-- The `Display` of an `Errno`. -/
def Errno.text : Errno → Text
  | noent => "No such file or directory (os error 2)"
  | exist => "File exists (os error 17)"
  | notdir => "Not a directory (os error 20)"
  | isdir => "Is a directory (os error 21)"
  | notempty => "Directory not empty (os error 39)"
  | loop => "Too many levels of symbolic links (os error 40)"
  | inval => "Invalid argument (os error 22)"
  | other text => text

/-- The system calls of `Root` and of the store's creation, with the flags the source passes. -/
inductive Op where
  /-- `DirBuilder::new().recursive(true).mode(0o700).create(store)` -/
  | createStore
  /-- `open(store, O_DIRECTORY | O_NOFOLLOW)` -/
  | openStore
  /-- `openat(dir, name, O_DIRECTORY | O_NOFOLLOW)` -/
  | openDirectory (dir : Path) (name : Text)
  /-- `fstat` of an open directory -/
  | fstat (dir : Path)
  /-- `openat(dir, name, O_RDONLY | O_NOFOLLOW | O_NONBLOCK)` with `fstat` and the reads of what it opened -/
  | openFile (dir : Path) (name : Text)
  /-- `statat(dir, name, AT_SYMLINK_NOFOLLOW)` -/
  | statat (dir : Path) (name : Text)
  /-- `mkdirat(dir, name, 0o700)` -/
  | mkdirat (dir : Path) (name : Text)
  /-- `openat(dir, name, O_WRONLY | O_CREAT | O_EXCL | O_NOFOLLOW, 0o600)` -/
  | createFile (dir : Path) (name : Text)
  /-- `write_all` to the file created at `path` -/
  | write (path : Path) (data : Bytes)
  /-- `fsync` of the file created at `path` -/
  | sync (path : Path)
  /-- `renameat` -/
  | renameat (source target : Path)
  /-- `renameat2(…, RENAME_NOREPLACE)` -/
  | renameNoreplace (source target : Path)
  /-- `unlinkat(dir, name, 0)` -/
  | unlink (dir : Path) (name : Text)
  /-- `unlinkat(dir, name, AT_REMOVEDIR)` -/
  | removeDirectory (dir : Path) (name : Text)
deriving DecidableEq, Repr

/-- What a successful call returns. -/
@[reducible] def Op.Value : Op → Type
  | fstat _ => Stat
  | openFile _ _ => Node
  | _ => Unit

abbrev Op.Reply (op : Op) : Type := Except Errno op.Value

/-- Create a node that does not exist, in a directory that does. -/
def Disk.create (d : Disk) (dir : Path) (name : Text) (node : Node) : Except Errno (Unit × Disk) :=
  if (d.get (dir ++ [name])).isSome then .error .exist
  else if d.isDirectory dir then .ok ((), d.set (dir ++ [name]) node)
  else .error .noent

/-- Whether `renameat` may put `node` where `existing` is: a directory replaces an empty directory, anything else
replaces anything but a directory. -/
def replaces (node : Node) (existing : Option Node) (empty : Bool) : Except Errno Unit :=
  match node, existing with
  | _, none => .ok ()
  | .directory _, some (.directory _) => if empty then .ok () else .error .notempty
  | .directory _, some _ => .error .notdir
  | _, some (.directory _) => .error .isdir
  | _, some _ => .ok ()

def Disk.rename (d : Disk) (source target : Path) : Except Errno (Unit × Disk) :=
  match d.get source with
  | none => .error .noent
  | some node =>
    if source = target then .ok ((), d)
    else if source.isPrefixOf target then .error .inval
    else if target.isPrefixOf source then .error .notempty
    else if !d.isDirectory target.dropLast then .error .noent
    else match replaces node (d.get target) (d.childless target) with
      | .ok () => .ok ((), d.move source target)
      | .error e => .error e

/-- What the kernel does for a process of user `uid`. -/
def exec (uid : Nat) : (op : Op) → Disk → Except Errno (op.Value × Disk)
  | .createStore, d =>
    match d.get [] with
    | none => .ok ((), d.set [] (.directory ⟨0o700, uid⟩))
    | some (.directory _) => .ok ((), d)
    | some _ => .error .exist
  | .openStore, d =>
    match d.get [] with
    | none => .error .noent
    | some (.directory _) => .ok ((), d)
    | some _ => .error .notdir
  | .openDirectory dir name, d =>
    match d.get (dir ++ [name]) with
    | none => .error .noent
    | some (.directory _) => .ok ((), d)
    | some _ => .error .notdir
  | .fstat dir, d =>
    match d.get dir with
    | some (.directory stat) => .ok (stat, d)
    | _ => .error .noent
  | .openFile dir name, d =>
    match d.get (dir ++ [name]) with
    | none => .error .noent
    | some .symlink => .error .loop
    | some node => .ok (node, d)
  | .statat dir name, d => if (d.get (dir ++ [name])).isSome then .ok ((), d) else .error .noent
  | .mkdirat dir name, d => d.create dir name (.directory ⟨0o700, uid⟩)
  | .createFile dir name, d => d.create dir name (.file ⟨0o600, uid⟩ [])
  | .write path data, d => .ok ((), d.write path data)
  | .sync _, d => .ok ((), d)
  | .renameat source target, d => d.rename source target
  | .renameNoreplace source target, d =>
    if (d.get target).isSome then .error .exist else d.rename source target
  | .unlink dir name, d =>
    match d.get (dir ++ [name]) with
    | none => .error .noent
    | some (.directory _) => .error .isdir
    | some _ => .ok ((), d.erase (dir ++ [name]))
  | .removeDirectory dir name, d =>
    match d.get (dir ++ [name]) with
    | none => .error .noent
    | some (.directory _) =>
      if d.childless (dir ++ [name]) then .ok ((), d.erase (dir ++ [name])) else .error .notempty
    | some _ => .error .notdir

/-- One operation carried out, its error as its reply. -/
def perform (uid : Nat) (op : Op) (d : Disk) : op.Reply × Disk :=
  match exec uid op d with
  | .ok (value, d') => (.ok value, d')
  | .error e => (.error e, d)

/-- One operation where anything may go wrong: it is carried out, or refused with any error and nothing changed,
or it is a write that fails after a part of its data. -/
inductive Does (uid : Nat) : (op : Op) → Disk → op.Reply → Disk → Prop
  | done {op : Op} {d d' : Disk} {value : op.Value} (h : exec uid op d = .ok (value, d')) :
  Does uid op d (.ok value) d'
  | failed (op : Op) (d : Disk) (e : Errno) : Does uid op d (.error e) d
  | torn (path : Path) (data : Bytes) (n : Nat) (d : Disk) (e : Errno) :
      Does uid (.write path data) d (.error e) (d.write path (data.take n))

theorem does_perform (uid : Nat) (op : Op) (d : Disk) :
    Does uid op d (perform uid op d).1 (perform uid op d).2 := by
  unfold perform
  cases h : exec uid op d with
  | ok out => exact .done h
  | error e => exact .failed op d e

/-- An operation that changes nothing but the named node, or moves a subtree. -/
theorem Disk.create_ok {d d' : Disk} {dir : Path} {name : Text} {node : Node} {u : Unit}
    (h : d.create dir name node = .ok (u, d')) :
    d.get (dir ++ [name]) = none ∧ d.isDirectory dir = true ∧ d' = d.set (dir ++ [name]) node := by
  unfold Disk.create at h
  split_ifs at h with h1 h2
  cases h
  exact ⟨by simpa using h1, h2, rfl⟩

theorem Disk.rename_ok {d d' : Disk} {source target : Path} {u : Unit} (h : d.rename source target = .ok (u, d'))
    (hne : source ≠ target) :
    ∃ node, d.get source = some node ∧ ¬ source <+: target ∧ ¬ target <+: source ∧
      d.isDirectory target.dropLast = true ∧ replaces node (d.get target) (d.childless target) = .ok () ∧
      d' = d.move source target := by
  unfold Disk.rename at h
  cases hs : d.get source with
  | none => simp [hs] at h
  | some node =>
    simp only [hs, hne, if_false, List.isPrefixOf_iff_prefix] at h
    split_ifs at h with h1 h2 h3
    cases hr : replaces node (d.get target) (d.childless target) with
    | error e =>
      rw [hr] at h
      cases h
    | ok v =>
      rw [hr] at h
      cases h
      exact ⟨node, rfl, h1, h2, by simpa using h3, hr, rfl⟩

theorem isDirectory_iff {d : Disk} {path : Path} : d.isDirectory path = true ↔
    ∃ stat, d.get path = some (.directory stat) := by
  unfold Disk.isDirectory
  split <;> simp_all

end SimFerret.Store
