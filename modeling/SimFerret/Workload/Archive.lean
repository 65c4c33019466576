import SimFerret.Workload.Layer
import SimFerret.Workload.Spec

/-!
# SimFerret.Workload.Archive — layer archives and the canonical tree (`workload/oci.rs`)

The `tar` crate hands over header fields (`TarEntry`); `parseLayer` is the source's use of them.

* `parseLayer_ok`: an accepted archive has canonical names and well-formed entries.
* `CanonicalTree`: the invariant of an assembled tree.
* `foldLayers_canonical`: folding accepted layers from the empty tree and closing the root establishes it.
-/

namespace SimFerret.Workload

open Hierarchy

def maxFileBytes : Nat := 16 * 2 ^ 20
def maxEntries : Nat := 4096

/-- `tar::EntryType`. -/
inductive EntryType where
  | regular | link | symlink | char | block | directory | fifo | continuous
  | gnuLongName | gnuLongLink | gnuSparse | xGlobalHeader | xHeader | other (flag : UInt8)
deriving DecidableEq, Repr

/-- One header as the raw iterator of the `tar` crate hands it over; a field that does not parse is `none`. -/
structure TarEntry where
  entryType : EntryType
  size : Nat
  rawFilePosition : Nat
  pathBytes : Bytes
  mode : Option Nat
  uid : Option Nat
  gid : Option Nat
  mtime : Option Nat
  headerSize : Option Nat
  linkName : Option Bytes
  contents : Option Bytes
deriving Repr

/-- `tar::Archive::entries().raw(true)`: `none` if the archive cannot be opened, and a `none` in the list for a
header that cannot be read. -/
abbrev TarReader := Bytes → Option (List (Option TarEntry))

/-- `invalid(format!("layer {layer} member {member} {what}"))`. -/
def memberError (layer member : Nat) (what : Text) : IoError :=
  invalid ("layer " ++ decimal layer ++ " member " ++ decimal member ++ " " ++ what)

/-- Reject a metadata-only member that declares a data record. -/
def rejectDeclaredSize (entry : TarEntry) (layer member : Nat) : IoResult Unit := do
  let size ← okOr entry.headerSize (memberError layer member "has a malformed size field")
  require (size == 0) (memberError layer member "declares a nonzero size")

/-- The entry that a header describes, by its type. -/
def memberEntry (entry : TarEntry) (layer member mode uid gid mtime : Nat) : IoResult Entry :=
  match entry.entryType with
  | .directory => do
    rejectDeclaredSize entry layer member
    pure (Entry.directory mode (uid % 2 ^ 32) (gid % 2 ^ 32) (mtime % 2 ^ 32))
  | .symlink => do
    rejectDeclaredSize entry layer member
    let target ← okOr entry.linkName (memberError layer member "is a symbolic link with no target")
    validateSymlinkSyntax target
    pure (Entry.symlink target (uid % 2 ^ 32) (gid % 2 ^ 32) (mtime % 2 ^ 32))
  | .regular => do
    let size ← okOr entry.headerSize (memberError layer member "has a malformed size field")
    require (size ≤ maxFileBytes)
      (memberError layer member ("is a file over " ++ decimal maxFileBytes ++ " bytes"))
    let data ← okOr entry.contents (memberError layer member "is an unreadable file")
    require (data.length == size) (memberError layer member "is a truncated file")
    pure (Entry.file data mode (uid % 2 ^ 32) (gid % 2 ^ 32) (mtime % 2 ^ 32))
  | .link => .error (memberError layer member "is a hard link, which is unsupported")
  | .char | .block | .fifo => .error (memberError layer member "has an unsupported file type")
  | .gnuSparse => .error (memberError layer member "is a sparse file, which is unsupported")
  | .gnuLongName | .gnuLongLink | .xHeader | .xGlobalHeader =>
    .error (memberError layer member "carries unsupported extended metadata")
  | .continuous | .other _ => .error (memberError layer member "has an unsupported file type")

/-- The checks of one header that lead to a member. -/
def parseMember (entry : TarEntry) (layer member : Nat) : IoResult Member := do
  let name ← normalizeLayerPath entry.pathBytes
  let mode ← okOr entry.mode (memberError layer member "has a malformed mode field")
  require (mode ≤ 0o7777) (memberError layer member "has an unsupported mode")
  require (mode &&& 0o6000 == 0) (memberError layer member "is setuid or setgid")
  let uid ← okOr entry.uid (memberError layer member "has a malformed uid field")
  let gid ← okOr entry.gid (memberError layer member "has a malformed gid field")
  let mtime ← okOr entry.mtime (memberError layer member "has a malformed mtime field")
  require (uid < reservedOwner && gid < reservedOwner) (memberError layer member "has an out-of-range ownership")
  require (mtime ≤ 2 ^ 32 - 1) (memberError layer member "has an out-of-range timestamp")
  let entry ← memberEntry entry layer member mode uid gid mtime
  pure ⟨name, entry⟩

/-- The physical end of a member: its header, its data and any padding. -/
def endOfMember (entry : TarEntry) : IoResult Nat := do
  let size ← okOr (checkedAdd entry.size 511) (invalid "malformed layer archive: member size overflow")
  okOr (checkedAdd entry.rawFilePosition (size / 512 * 512))
    (invalid "malformed layer archive: member size overflow")

/-- The member loop from position `member` on: the members and the end of the last one. -/
def parseMembers (layer : Nat) : Nat → Nat → List (Option TarEntry) → IoResult (List Member × Nat)
  | _, endOfLast, [] => .ok ([], endOfLast)
  | member, _, header :: rest => do
    let entry ← okOr header (memberError layer member "has a malformed header")
    let endOfLast ← endOfMember entry
    let parsed ← parseMember entry layer member
    require (member + 1 ≤ maxEntries) (invalid ("layer exceeds " ++ decimal maxEntries ++ " entries"))
    let (members, endOfLast) ← parseMembers layer (member + 1) endOfLast rest
    pure (parsed :: members, endOfLast)

def missingTerminator : IoError := invalid "layer archive is missing its end-of-archive marker"

def parseLayer (tar : TarReader) (expanded : Bytes) (layer : Nat) : IoResult (List Member) := do
  let entries ← okOr (tar expanded) (invalid ("layer " ++ decimal layer ++ " has a malformed archive header"))
  let (members, endOfLast) ← parseMembers layer 0 0 entries
  let terminatorEnd ← okOr (checkedAdd endOfLast 1024) missingTerminator
  require (terminatorEnd ≤ expanded.length) missingTerminator
  require (((expanded.drop endOfLast).take 1024).all (· == 0)) missingTerminator
  pure members

/-! ## Accepted members -/

/-- The fields that an entry of each kind carries. -/
def Entry.Carries (e : Entry) : Prop :=
  match e.kind with
  | .directory => e.data = none ∧ e.target = none
  | .file => e.data.isSome ∧ e.target = none
  | .symlink => e.data = none ∧ e.mode = symlinkMode ∧
      ∃ target, e.target = some target ∧ target ≠ [] ∧ target.head? ≠ some slash ∧ 0 ∉ target

/-- A well-formed entry: its own fields, no special mode bits, real owners. -/
structure Entry.WellFormed (e : Entry) : Prop where
  carries : e.Carries
  mode_le : e.mode ≤ 0o7777
  mode_plain : e.mode &&& 0o6000 = 0
  uid_lt : e.uid < reservedOwner
  gid_lt : e.gid < reservedOwner

theorem wellFormed_defaultDirectory : Entry.defaultDirectory.WellFormed :=
  ⟨⟨rfl, rfl⟩, by decide, by decide, by decide, by decide⟩

theorem memberEntry_ok {entry : TarEntry} {layer member mode uid gid mtime : Nat} {e : Entry}
    (hmode : mode ≤ 0o7777) (hplain : mode &&& 0o6000 = 0) (huid : uid < reservedOwner)
    (hgid : gid < reservedOwner) (h : memberEntry entry layer member mode uid gid mtime = .ok e) :
    e.WellFormed := by
  have huid' : uid % 2 ^ 32 < reservedOwner := lt_of_le_of_lt (Nat.mod_le _ _) huid
  have hgid' : gid % 2 ^ 32 < reservedOwner := lt_of_le_of_lt (Nat.mod_le _ _) hgid
  unfold memberEntry at h
  split at h
  · obtain ⟨_, -, h⟩ := bind_eq_ok.mp h
    rw [pure_eq_ok] at h
    subst h
    exact ⟨⟨rfl, rfl⟩, hmode, hplain, huid', hgid'⟩
  · obtain ⟨_, -, h⟩ := bind_eq_ok.mp h
    obtain ⟨target, -, h⟩ := bind_eq_ok.mp h
    obtain ⟨_, hsyntax, h⟩ := bind_eq_ok.mp h
    rw [pure_eq_ok] at h
    subst h
    obtain ⟨h1, h2, h3, -⟩ := validateSymlinkSyntax_ok hsyntax
    exact ⟨⟨rfl, rfl, target, rfl, h1, h3, h2⟩, show symlinkMode ≤ 0o7777 by decide,
      show symlinkMode &&& 0o6000 = 0 by decide, huid', hgid'⟩
  · obtain ⟨size, -, h⟩ := bind_eq_ok.mp h
    obtain ⟨_, -, h⟩ := bind_eq_ok.mp h
    obtain ⟨data, -, h⟩ := bind_eq_ok.mp h
    obtain ⟨_, -, h⟩ := bind_eq_ok.mp h
    rw [pure_eq_ok] at h
    subst h
    exact ⟨⟨rfl, rfl⟩, hmode, hplain, huid', hgid'⟩
  all_goals exact absurd h (by simp)

theorem parseMember_ok {entry : TarEntry} {layer index : Nat} {m : Member}
    (h : parseMember entry layer index = .ok m) : CanonicalPath m.name ∧ m.entry.WellFormed := by
  unfold parseMember at h
  obtain ⟨name, hname, h⟩ := bind_eq_ok.mp h
  obtain ⟨mode, -, h⟩ := bind_eq_ok.mp h
  obtain ⟨_, hmode, h⟩ := bind_eq_ok.mp h
  obtain ⟨_, hplain, h⟩ := bind_eq_ok.mp h
  obtain ⟨uid, -, h⟩ := bind_eq_ok.mp h
  obtain ⟨gid, -, h⟩ := bind_eq_ok.mp h
  obtain ⟨mtime, -, h⟩ := bind_eq_ok.mp h
  obtain ⟨_, howner, h⟩ := bind_eq_ok.mp h
  obtain ⟨_, -, h⟩ := bind_eq_ok.mp h
  obtain ⟨e, he, h⟩ := bind_eq_ok.mp h
  rw [pure_eq_ok] at h
  subst h
  simp only [require_eq_ok, Bool.and_eq_true, decide_eq_true_eq, beq_iff_eq] at hmode hplain howner
  exact ⟨normalizeLayerPath_canonical hname, memberEntry_ok hmode hplain howner.1 howner.2 he⟩

/-- Every member of an archive comes from a header, by induction on the headers. -/
theorem parseMembers_mem {layer : Nat} : ∀ {entries : List (Option TarEntry)} {index endOfLast endOfLast' : Nat}
    {members : List Member}, parseMembers layer index endOfLast entries = .ok (members, endOfLast') →
      ∀ m ∈ members, ∃ entry index, parseMember entry layer index = .ok m
  | [], index, endOfLast, endOfLast', members, h => by
    cases h
    simp
  | header :: rest, index, endOfLast, endOfLast', members, h => by
    unfold parseMembers at h
    obtain ⟨entry, -, h⟩ := bind_eq_ok.mp h
    obtain ⟨_, -, h⟩ := bind_eq_ok.mp h
    obtain ⟨parsed, hparsed, h⟩ := bind_eq_ok.mp h
    obtain ⟨_, -, h⟩ := bind_eq_ok.mp h
    obtain ⟨⟨others, _⟩, hrest, h⟩ := bind_eq_ok.mp h
    cases h
    intro m hm
    rcases List.mem_cons.mp hm with rfl | hm
    · exact ⟨entry, index, hparsed⟩
    · exact parseMembers_mem hrest m hm

theorem parseLayer_mem {tar : TarReader} {expanded : Bytes} {layer : Nat} {members : List Member}
    (h : parseLayer tar expanded layer = .ok members) :
    ∀ m ∈ members, ∃ entry index, parseMember entry layer index = .ok m := by
  unfold parseLayer at h
  obtain ⟨entries, -, h⟩ := bind_eq_ok.mp h
  obtain ⟨⟨parsed, endOfLast⟩, hparsed, h⟩ := bind_eq_ok.mp h
  obtain ⟨_, -, h⟩ := bind_eq_ok.mp h
  obtain ⟨_, -, h⟩ := bind_eq_ok.mp h
  obtain ⟨_, -, h⟩ := bind_eq_ok.mp h
  cases h
  exact parseMembers_mem hparsed

/-- **Accepted archives hand over canonical names and well-formed entries.** -/
theorem parseLayer_ok {tar : TarReader} {expanded : Bytes} {layer : Nat} {members : List Member}
    (h : parseLayer tar expanded layer = .ok members) :
    ∀ m ∈ members, CanonicalPath m.name ∧ m.entry.WellFormed := by
  intro m hm
  obtain ⟨entry, index, hmember⟩ := parseLayer_mem h m hm
  exact parseMember_ok hmember

/-! ## The canonical tree -/

/-- A canonical path none of whose components is a marker. -/
def PlainPath (path : Bytes) : Prop :=
  CanonicalPath path ∧ ∀ c ∈ components path, ¬ markerPrefix <+: c

/-- The canonical tree invariant. -/
structure CanonicalTree (tree : Tree) : Prop where
  root : ∃ d, tree.get rootPath = some d ∧ d.IsDir
  closed : ∀ p e, tree.get p = some e → ∀ a, Below a p → ∃ d, tree.get a = some d ∧ d.IsDir
  path_plain : ∀ p e, tree.get p = some e → PlainPath p
  wellFormed : ∀ p e, tree.get p = some e → e.WellFormed

/-- The last step of the layer fold in `parse_graph`. -/
def canonicalRoot (tree : Tree) : IoResult Tree :=
  let tree := tree.insertDefaultDirectory rootPath
  if (tree.get rootPath).map Entry.kind ≠ some .directory then
    .error (invalid "canonical root must be a directory")
  else .ok tree

/-- On a canonical path `splitMarker` looks at the components. -/
theorem nameComponents_of_canonical {path : Bytes} (h : CanonicalPath path) :
    nameComponents path = components path := by
  unfold nameComponents components
  split_ifs with hroot
  · subst hroot
    decide
  · apply List.filter_eq_self.mpr
    intro c hc
    have hplain := h.plain c (by simpa [components, hroot] using hc)
    simp [hplain.1, hplain.2.1]

/-- An addition has no marker among its components. -/
theorem Member.IsAddition.plain {m : Member} (hadd : m.IsAddition) (hname : CanonicalPath m.name) :
    PlainPath m.name := by
  refine ⟨hname, ?_⟩
  rw [← nameComponents_of_canonical hname]
  unfold Member.IsAddition splitMarker at hadd
  cases hl : (nameComponents m.name).getLast? with
  | none =>
    rw [List.getLast?_eq_none_iff] at hl
    simp [hl]
  | some base =>
    rw [hl] at hadd
    dsimp only at hadd
    split_ifs at hadd with hparents hopaque _ hmarker
    · simp at hadd
    · simp at hadd
    obtain ⟨parents, hsplit⟩ := List.getLast?_eq_some_iff.mp hl
    rw [hsplit, List.dropLast_concat, List.any_eq_true] at hparents
    intro c hc hpre
    rw [hsplit, List.mem_append, List.mem_singleton] at hc
    rcases hc with hc | rfl
    · exact hparents ⟨c, hc, List.isPrefixOf_iff_prefix.mpr hpre⟩
    · exact hmarker (List.isPrefixOf_iff_prefix.mpr hpre)

theorem PlainPath.of_below {a p : Bytes} (hp : PlainPath p) (h : Below a p) : PlainPath a :=
  ⟨hp.1.of_below h, fun c hc => hp.2 c (components_of_below h c hc)⟩

/-- What every tree of the layer fold satisfies: the canonical invariant without its root. -/
structure LayeredTree (tree : Tree) : Prop where
  closed : tree.Closed
  entries : ∀ p e, tree.get p = some e → PlainPath p ∧ e.WellFormed

theorem layeredTree_new : LayeredTree Tree.new :=
  ⟨closed_new, fun p e hp => by simp [Tree.get_new] at hp⟩

/-- **An accepted layer keeps the invariant.** -/
theorem layeredTree_applyLayer {lower tree : Tree} {members : List Member} (hlower : LayeredTree lower)
    (hmembers : ∀ m ∈ members, CanonicalPath m.name ∧ m.entry.WellFormed)
    (h : applyLayer lower members = .ok tree) : LayeredTree tree := by
  refine ⟨closed_applyLayer hlower.closed h, ?_⟩
  refine (applyLayer_ok h).2.entries ?_ ?_
  · -- the markers only remove entries
    intro p e hp
    rw [view_removeMarkers] at hp
    split_ifs at hp
    exact hlower.entries p e hp
  · intro a ha
    obtain ⟨m, hm, rfl⟩ := List.mem_map.mp ha
    obtain ⟨hmem, hadd⟩ := mem_additionsOf.mp hm
    obtain ⟨hname, hentry⟩ := hmembers m hmem
    have hplain := hadd.plain hname
    exact ⟨⟨hplain, hentry⟩, fun q hq => ⟨hplain.of_below hq, wellFormed_defaultDirectory⟩⟩

theorem plainPath_root : PlainPath rootPath := ⟨canonicalPath_root, by simp [components]⟩

theorem not_below_root (a : Bytes) : ¬ Below a rootPath := fun h => (mem_ancestors.mp h).1 rfl

/-- Closing the root turns the layered invariant into the canonical one. -/
theorem canonicalTree_canonicalRoot {tree tree' : Tree} (hinv : LayeredTree tree)
    (h : canonicalRoot tree = .ok tree') : CanonicalTree tree' := by
  unfold canonicalRoot at h
  dsimp only at h
  split_ifs at h with hroot
  cases h
  rw [not_not] at hroot
  obtain ⟨d, hd, hkind⟩ := Option.map_eq_some_iff.mp hroot
  have hget := Tree.get_insertDefaultDirectory tree rootPath
  have hold : ∀ p e, (tree.insertDefaultDirectory rootPath).get p = some e →
      p = rootPath ∧ e = Entry.defaultDirectory ∨ tree.get p = some e := by
    intro p e hp
    rw [hget] at hp
    split_ifs at hp with hc
    · exact .inl ⟨hc.1.symm, (Option.some.inj hp).symm⟩
    · exact .inr hp
  refine ⟨⟨d, hd, hkind⟩, ?_, ?_, ?_⟩
  · intro p e hp a ha
    rcases hold p e hp with ⟨rfl, -⟩ | hp
    · exact absurd ha (not_below_root a)
    · obtain ⟨x, hx, hdir⟩ := hinv.closed p e hp a ha
      refine ⟨x, ?_, hdir⟩
      rw [hget, show tree.get a = some x from hx]
      simp
  · intro p e hp
    rcases hold p e hp with ⟨rfl, -⟩ | hp
    · exact plainPath_root
    · exact (hinv.entries p e hp).1
  · intro p e hp
    rcases hold p e hp with ⟨-, rfl⟩ | hp
    · exact wellFormed_defaultDirectory
    · exact (hinv.entries p e hp).2

/-- **The canonical tree invariant**: folding layers that `parseLayer` can produce over the empty tree and
closing the root gives a canonical tree. -/
theorem foldLayers_canonical {tar : TarReader} {layers : List (List Member)} {tree tree' : Tree}
    (hlayers : ∀ members ∈ layers, ∃ expanded layer, parseLayer tar expanded layer = .ok members)
    (hfold : layers.foldlM applyLayer Tree.new = .ok tree) (hroot : canonicalRoot tree = .ok tree') :
    CanonicalTree tree' := by
  refine canonicalTree_canonicalRoot ?_ hroot
  refine foldlM_invariant ?_ layeredTree_new hfold
  intro members hmem lower next hlower hstep
  obtain ⟨expanded, layer, hparse⟩ := hlayers members hmem
  exact layeredTree_applyLayer hlower (parseLayer_ok hparse) hstep

/-- A ustar header of a member that root owns: name, mode, size, checksum and type flag. -/
def ustarHeader (name mode size checksum flag : Text) : Bytes :=
  [(100, name), (8, mode), (8, utf8 "0000000"), (8, utf8 "0000000"), (12, size), (12, utf8 "00000000000"),
    (8, checksum), (1, flag), (100, []), (8, utf8 "ustar\x0000"), (64, []), (8, utf8 "0000000"),
    (8, utf8 "0000000"), (167, [])].flatMap
      fun (width, text) => text ++ List.replicate (width - text.length) 0

/-- A directory with a file in it. -/
def lowerArchive : Bytes :=
  ustarHeader "./etc/" "0000755" "00000000000" "010115\x00 " "5" ++
  ustarHeader "etc/motd" "0000644" "00000000006" "010642\x00 " "0" ++ utf8 "hello\n" ++ List.replicate 506 0 ++
  List.replicate 1024 0

/-- A marker that removes the file. -/
def upperArchive : Bytes :=
  ustarHeader "etc/.wh.motd" "0000644" "00000000000" "011327\x00 " "0" ++ List.replicate 1024 0

/-- What `tar` reads from the two archives. -/
def sampleTar : TarReader := fun expanded =>
  if expanded = lowerArchive then some
    [some ⟨.directory, 0, 512, utf8 "./etc/", some 0o755, some 0, some 0, some 0, some 0, none, some []⟩,
      some ⟨.regular, 6, 1024, utf8 "etc/motd", some 0o644, some 0, some 0, some 0, some 6, none,
        some (utf8 "hello\n")⟩]
  else if expanded = upperArchive then some
    [some ⟨.regular, 0, 512, utf8 "etc/.wh.motd", some 0o644, some 0, some 0, some 0, some 0, none, some []⟩]
  else none

theorem foldLayers_canonical_sample : ∃ lower upper tree tree',
    parseLayer sampleTar lowerArchive 0 = .ok lower ∧ parseLayer sampleTar upperArchive 1 = .ok upper ∧
      [lower, upper].foldlM applyLayer Tree.new = .ok tree ∧ canonicalRoot tree = .ok tree' ∧
      tree'.contains "etc" = true ∧ tree'.contains "etc/motd" = false ∧ CanonicalTree tree' := by
  have hrun : (do
      let lower ← parseLayer sampleTar lowerArchive 0
      let upper ← parseLayer sampleTar upperArchive 1
      let tree ← [lower, upper].foldlM applyLayer Tree.new
      canonicalRoot tree).toOption.map (fun (tree' : Tree) => (tree'.contains "etc", tree'.contains "etc/motd")) =
        some (true, false) := by decide +kernel
  obtain ⟨tree', h, hcontains⟩ := exists_ok_of_map hrun
  obtain ⟨lower, hlower, h⟩ := bind_eq_ok.mp h
  obtain ⟨upper, hupper, h⟩ := bind_eq_ok.mp h
  obtain ⟨tree, hfold, hroot⟩ := bind_eq_ok.mp h
  obtain ⟨hkept, hremoved⟩ := Prod.mk.inj hcontains
  refine ⟨lower, upper, tree, tree', hlower, hupper, hfold, hroot, hkept, hremoved,
    @foldLayers_canonical sampleTar _ _ _ (fun members hmem => ?_) hfold hroot⟩
  rcases List.mem_pair.mp hmem with rfl | rfl
  · exact ⟨_, _, hlower⟩
  · exact ⟨_, _, hupper⟩

end SimFerret.Workload
