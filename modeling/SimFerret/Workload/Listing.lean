import Mathlib.Data.List.Forall2
import SimFerret.Workload.Image

/-!
# SimFerret.Workload.Listing — a template decodes to its tree (`workload/tree.rs`)

A template lists the root first and then every other path in byte order, so a path such as `!data`, which byte
order puts before the root sentinel, still follows the root.

* `Listing`: the order of a template.  The root comes first, and every entry after its parent.
* `Describes`: a decoded record is an entry of the tree.
* `template_decodes`: what a reader finds in a template.
-/

namespace SimFerret.Workload

open Newc

variable {tree : Tree} {rootName : Text}

/-- The entries in the order of a template. -/
def listing (tree : Tree) : List (Bytes × Entry) :=
  (tree.get rootPath).toList.map (fun root => (rootPath, root)) ++ tree.iter.filter fun x => x.1 != rootPath

/-- The name of a path in an archive below `rootName`. -/
def nameOf (rootName : Text) (path : Bytes) : Bytes :=
  if path = rootPath then rootName else rootName ++ [slash] ++ path

/-- The type bits of a mode. -/
def typeBits : EntryKind → Nat
  | .directory => 0o040000
  | .file => 0o100000
  | .symlink => 0o120000

/-- What the archive keeps of an entry: the data of a file, the target of a link. -/
def Entry.contents (e : Entry) : Bytes :=
  match e.kind with
  | .directory => []
  | .file => e.fileBytes
  | .symlink => e.linkTarget

/-- Every ancestor of a path is a directory of the tree, and contents have the size of a `u32` field. -/
structure Tree.Rooted (tree : Tree) : Prop where
  root : ∃ d, tree.get rootPath = some d ∧ d.IsDir
  closed : ∀ path entry, tree.get path = some entry → ∀ a, Below a path → ∃ d, tree.get a = some d ∧ d.IsDir
  contents_lt : ∀ path entry, tree.get path = some entry → entry.contents.length < 2 ^ 32

/-- The order of a template: the root, then the other paths in byte order, each after its parent directory. -/
structure Listing (tree : Tree) (order : List (Bytes × Entry)) : Prop where
  complete : ∀ path entry, (path, entry) ∈ order ↔ tree.get path = some entry
  rootFirst : ∃ root rest, order = (rootPath, root) :: rest ∧ rest.Pairwise fun a b => a.1 < b.1
  parentBefore : ∀ earlier path entry later, order = earlier ++ (path, entry) :: later →
    ∀ parent, parentOf path = some parent → ∃ d, (parent, d) ∈ earlier ∧ d.IsDir

/-- A decoded record says what the tree has at a path. -/
structure Describes (rootName : Text) (x : Bytes × Entry) (record : NewcEntry) : Prop where
  name : record.name = nameOf rootName x.1
  mode : record.mode = typeBits x.2.kind ||| x.2.mode
  exact : x.2.mode ≤ 0o7777 → record.mode &&& 0o170000 = typeBits x.2.kind ∧ record.mode &&& 0o7777 = x.2.mode
  uid : record.uid = x.2.uid
  gid : record.gid = x.2.gid
  mtime : record.mtime = x.2.mtime
  contents : record.contents = x.2.contents

/-! ## The order -/

/-- The order of the map is the order of the bytes. -/
theorem lt_of_compare : ∀ {a b : Bytes}, compare a b = .lt → a < b
  | [], [], h => by cases h
  | [], y :: b, _ => List.nil_lt_cons y b
  | _ :: _, [], h => by cases h
  | x :: a, y :: b, h => by
    rw [List.compare_cons_cons, Ordering.then_eq_lt] at h
    rw [List.cons_lt_cons_iff]
    rcases h with h | ⟨heq, h⟩
    · exact .inl (Std.compare_eq_lt.mp h)
    · exact .inr ⟨Std.LawfulEqOrd.eq_of_compare heq, lt_of_compare h⟩

theorem pairwise_iter (tree : Tree) : tree.iter.Pairwise fun a b => a.1 < b.1 :=
  Std.ExtTreeMap.ordered_keys_toList.imp lt_of_compare

/-- A path is behind every proper prefix of it. -/
theorem lt_append_cons (a : Bytes) (y : UInt8) (b : Bytes) : a < a ++ y :: b := by
  induction a with
  | nil => exact List.nil_lt_cons y b
  | cons x a ih => exact List.cons_lt_cons_iff.mpr (.inr ⟨rfl, ih⟩)

theorem listing_eq {root : Entry} (hroot : tree.get rootPath = some root) :
    listing tree = (rootPath, root) :: tree.iter.filter fun x => x.1 != rootPath := by
  rw [listing, hroot]
  rfl

theorem mem_listing {path : Bytes} {entry : Entry} : (path, entry) ∈ listing tree ↔
    tree.get path = some entry := by
  have hiter : (path, entry) ∈ tree.iter ↔ tree.get path = some entry :=
    Std.ExtTreeMap.mem_toList_iff_getElem?_eq_some
  rw [listing, List.mem_append, List.mem_filter, hiter, bne_iff_ne, List.mem_map]
  constructor
  · rintro (⟨root, hroot, heq⟩ | ⟨hget, -⟩)
    · obtain ⟨rfl, rfl⟩ := Prod.mk.inj heq
      exact Option.mem_toList.mp hroot
    · exact hget
  · intro hget
    by_cases hpath : path = rootPath
    · subst hpath
      exact .inl ⟨entry, Option.mem_toList.mpr hget, rfl⟩
    · exact .inr ⟨hget, hpath⟩

/-- **The order of a template**: the parent of a path is a proper prefix of it, or the root. -/
theorem listing_ordered (h : tree.Rooted) : Listing tree (listing tree) := by
  obtain ⟨root, hroot, hdir⟩ := h.root
  have hrest : (tree.iter.filter fun x => x.1 != rootPath).Pairwise fun a b => a.1 < b.1 :=
    (pairwise_iter tree).filter _
  refine ⟨fun path entry => mem_listing, ⟨root, _, listing_eq hroot, hrest⟩, ?_⟩
  intro earlier path entry later horder parent hparent
  have hget : tree.get path = some entry := mem_listing.mp (horder ▸ List.mem_append_right _ List.mem_cons_self)
  obtain ⟨d, hd, hddir⟩ := h.closed path entry hget parent (by
    rw [Below, ancestors_eq, hparent]
    exact List.mem_cons_self)
  refine ⟨d, ?_, hddir⟩
  rw [listing_eq hroot] at horder
  cases earlier with
  | nil =>
    -- the first entry is the root, which has no parent
    rw [List.nil_append, List.cons.injEq, Prod.mk.injEq] at horder
    rw [← horder.1.1, parentOf_root] at hparent
    cases hparent
  | cons first earlier =>
    rw [List.cons_append, List.cons.injEq] at horder
    obtain ⟨rfl, horder⟩ := horder
    by_cases hs : slash ∈ path
    · obtain ⟨q, r, hpath, -, hq⟩ := parentOf_of_mem hs
      obtain rfl : q = parent := Option.some.inj (hq.symm.trans hparent)
      have hbefore : q < path := hpath ▸ lt_append_cons q slash r
      have hmem := mem_listing.mpr hd
      rw [listing_eq hroot] at hmem
      rcases List.mem_cons.mp hmem with heq | hmem
      · rw [heq]
        exact List.mem_cons_self
      rw [horder] at hmem hrest
      rcases List.mem_append.mp hmem with hmem | hmem
      · exact List.mem_cons_of_mem _ hmem
      -- a parent at or behind its child would not be in byte order
      exfalso
      rcases List.mem_cons.mp hmem with heq | hmem
      · exact List.lt_irrefl q ((Prod.mk.inj heq).1 ▸ hbefore)
      · have hafter := (List.pairwise_cons.mp (List.pairwise_append.mp hrest).2.1).1 _ hmem
        exact List.lt_irrefl q (List.lt_trans hbefore hafter)
    · have hne : path ≠ rootPath := by
        rintro rfl
        rw [parentOf_root] at hparent
        cases hparent
      rw [parentOf_of_not_mem hne hs] at hparent
      obtain rfl := Option.some.inj hparent
      rw [hroot] at hd
      rw [Option.some.inj hd]
      exact List.mem_cons_self

/-! ## Decoding -/

/-- A numeral of type bits and one of permission bits do not overlap. -/
theorem mode_parts {kind : EntryKind} {mode : Nat} (h : mode ≤ 0o7777) :
    (typeBits kind ||| mode) &&& 0o170000 = typeBits kind ∧ (typeBits kind ||| mode) &&& 0o7777 = mode := by
  have hlow : mode &&& 0o7777 = mode := Nat.and_two_pow_sub_one_of_lt_two_pow (n := 12) (by omega)
  have hhigh : mode &&& 0o170000 = 0 := by
    rw [← hlow, Nat.and_assoc, show 0o7777 &&& 0o170000 = 0 by decide, Nat.and_zero]
  rw [Nat.and_or_distrib_right, Nat.and_or_distrib_right, hhigh, hlow]
  cases kind <;> simp [typeBits]

theorem templateEntry_eq (name : Bytes) (entry : Entry) : templateEntry name entry =
    ⟨name, 1, typeBits entry.kind ||| entry.mode, entry.uid, entry.gid, 1, entry.mtime, entry.contents⟩ := by
  unfold templateEntry typeBits Entry.contents
  cases entry.kind <;> rfl

theorem describes_templateEntry (rootName : Text) (x : Bytes × Entry) :
    Describes rootName x (templateEntry (nameOf rootName x.1) x.2) := by
  rw [templateEntry_eq]
  exact ⟨rfl, rfl, mode_parts, rfl, rfl, rfl, rfl⟩

/-- The entries of a template are those of the listing, in its order. -/
theorem workloadEntries_eq (rootName : Text) (tree : Tree) :
    workloadEntries rootName tree = (listing tree).map fun x => templateEntry (nameOf rootName x.1) x.2 := by
  unfold workloadEntries listing
  rw [List.map_append, List.map_map]
  congr 1
  refine List.map_congr_left fun x hx => ?_
  have hne : x.1 ≠ rootPath := bne_iff_ne.mp (List.mem_filter.mp hx).2
  rw [nameOf, if_neg hne]

/-- A record is written when its name fits. -/
theorem appendTemplateEntry_ok (output : Bytes) {name : Bytes} {entry : Entry} (hname : name.length + 1 < 2 ^ 32)
    (hcontents : entry.contents.length < 2 ^ 32) : ∃ out, appendTemplateEntry output name entry = .ok out := by
  have hcpio : ∀ mode contents, contents.length < 2 ^ 32 →
      ∃ out, appendCpio output name mode entry.uid entry.gid entry.mtime contents = .ok out := by
    intro mode contents hlength
    exact ⟨_, bind_eq_ok.mpr ⟨(), require_eq_ok.mpr (decide_eq_true hlength),
      bind_eq_ok.mpr ⟨(), require_eq_ok.mpr (decide_eq_true hname), rfl⟩⟩⟩
  unfold appendTemplateEntry
  unfold Entry.contents at hcontents
  cases hkind : entry.kind with
  | directory => exact hcpio _ [] (by decide)
  | file =>
    rw [hkind] at hcontents
    exact hcpio _ _ hcontents
  | symlink =>
    rw [hkind] at hcontents
    exact hcpio _ _ hcontents

theorem foldlM_entry_ok (rootName : Text) : ∀ {l : List (Bytes × Entry)} (output : Bytes),
    (∀ x ∈ l, (rootName ++ [slash] ++ x.1).length + 1 < 2 ^ 32 ∧ x.2.contents.length < 2 ^ 32) →
    ∃ out, l.foldlM (fun output (path, entry) => appendTemplateEntry output (rootName ++ [slash] ++ path) entry)
      output = .ok out
  | [], output, _ => ⟨output, rfl⟩
  | x :: l, output, h => by
    obtain ⟨mid, hmid⟩ := appendTemplateEntry_ok output (h x List.mem_cons_self).1 (h x List.mem_cons_self).2
    obtain ⟨out, hout⟩ := foldlM_entry_ok rootName mid fun y hy => h y (List.mem_cons_of_mem _ hy)
    refine ⟨out, ?_⟩
    rw [List.foldlM_cons]
    exact bind_eq_ok.mpr ⟨mid, hmid, hout⟩

/-- The names of a tree fit the name field of a record. -/
def Tree.NamesFit (tree : Tree) (rootName : Text) : Prop :=
  ∀ path entry, tree.get path = some entry → (nameOf rootName path).length + 1 < 2 ^ 32

theorem templateEntries_ok (h : tree.Rooted) (hnames : tree.NamesFit rootName) :
    ∃ out, tree.templateEntries rootName = .ok out := by
  obtain ⟨root, hroot, hdir⟩ := h.root
  have hrootName := hnames rootPath root hroot
  rw [nameOf, if_pos rfl] at hrootName
  obtain ⟨first, hfirst⟩ := appendTemplateEntry_ok [] hrootName (h.contents_lt rootPath root hroot)
  obtain ⟨out, hout⟩ := foldlM_entry_ok rootName (l := tree.iter.filter fun x =>
      x.1 != rootPath) first fun x hx => by
    obtain ⟨hmem, hne⟩ := List.mem_filter.mp hx
    have hget : tree.get x.1 = some x.2 := Std.ExtTreeMap.mem_toList_iff_getElem?_eq_some.mp hmem
    have hname := hnames x.1 x.2 hget
    rw [nameOf, if_neg (bne_iff_ne.mp hne)] at hname
    exact ⟨hname, h.contents_lt x.1 x.2 hget⟩
  refine ⟨out, bind_eq_ok.mpr ⟨root, okOr_eq_ok.mpr hroot,
    bind_eq_ok.mpr ⟨(), ?_, bind_eq_ok.mpr ⟨first, hfirst, hout⟩⟩⟩⟩
  rw [require_eq_ok, beq_iff_eq]
  exact hdir

/-- **A template decodes to its tree**: the records are the entries in the order of the listing, and the entries
alone can stand behind the records of another archive. -/
theorem template_decodes (h : tree.Rooted) (hfits : tree.Fits) (hnames : tree.NamesFit rootName) :
    Listing tree (listing tree) ∧ ∃ records entries,
      List.Forall₂ (Describes rootName) (listing tree) records ∧
      tree.templateEntries rootName = .ok entries ∧ 4 ∣ entries.length ∧
      tree.template rootName = .ok (entries ++ newcRecord trailerEntry) ∧
      readNewc (entries ++ newcRecord trailerEntry) = some (records ++ [trailerEntry]) ∧
      ∀ before earlier, readNewc before = some earlier →
          readNewc (before ++ entries) = some (earlier ++ records) := by
  obtain ⟨entries, hentries⟩ := templateEntries_ok h hnames
  have hencodes := encodes_templateEntries hfits hentries
  have hread : readNewc entries = some (workloadEntries rootName tree) := by
    rw [hencodes.1]
    exact readNewc_archiveOf hencodes.2
  have htrailer : trailerEntry.Fits := by decide
  refine ⟨listing_ordered h, workloadEntries rootName tree, entries, ?_, hentries, hencodes.dvd_length, ?_, ?_,
    fun before earlier hbefore => readNewc_append hbefore hread⟩
  · rw [workloadEntries_eq, List.forall₂_map_right_iff]
    exact List.forall₂_same.mpr fun x _ => describes_templateEntry rootName x
  · -- the trailer is one more record
    obtain ⟨out, hout⟩ : ∃ out, appendCpio entries (utf8 "TRAILER!!!") 0 0 0 0 [] = .ok out := ⟨_, rfl⟩
    have htemplate : tree.template rootName = .ok out := bind_eq_ok.mpr ⟨entries, hentries, hout⟩
    rw [htemplate, (encodes_template hfits htemplate).1, hencodes.1, archiveOf, List.flatMap_append,
      List.flatMap_singleton]
    rfl
  · refine readNewc_append hread ?_
    have hone : readNewc (archiveOf [trailerEntry]) = some [trailerEntry] :=
      readNewc_archiveOf fun entry hentry => List.mem_singleton.mp hentry ▸ htrailer
    rwa [archiveOf, List.flatMap_singleton] at hone

theorem appendCpio_nameTooLong (output : Bytes) {name : Bytes} (mode uid gid mtime : Nat)
    (hname : 2 ^ 32 ≤ name.length + 1) :
    appendCpio output name mode uid gid mtime [] = .error (invalid "guest template name is too large") := by
  have hlong : decide (name.length + 1 < 2 ^ 32) = false := decide_eq_false (by omega)
  unfold appendCpio
  rw [hlong]
  rfl

/-- A root name that does not fit the name field is refused. -/
theorem template_nameTooLong {root : Entry} (hroot : tree.get rootPath = some root) (hdir : root.IsDir)
    (hname : 2 ^ 32 ≤ rootName.length + 1) :
    tree.template rootName = .error (invalid "guest template name is too large") := by
  have hkind : root.kind = .directory := hdir
  have hfirst : appendTemplateEntry [] rootName root = .error (invalid "guest template name is too large") := by
    unfold appendTemplateEntry
    rw [hkind]
    exact appendCpio_nameTooLong [] _ _ _ _ hname
  have hcheck : okOr (tree.get rootPath) (invalid "canonical tree has no root entry") = .ok root :=
    okOr_eq_ok.mpr hroot
  have hrequire : require (root.kind == .directory) (invalid "canonical root must be a directory") = .ok () := by
    rw [hkind]
    rfl
  unfold Tree.template Tree.templateEntries
  rw [hcheck]
  show (require (root.kind == .directory) (invalid "canonical root must be a directory") >>= _) >>= _ = _
  rw [hrequire]
  show (appendTemplateEntry [] rootName root >>= _) >>= _ = _
  rw [hfirst]
  rfl

/-! ### Trees -/

/-- A root directory alone. -/
def rootTree (mode : Nat) : Tree := Tree.new.insert rootPath (Entry.directory mode 0 0 0)

theorem rootTree_get {mode : Nat} {path : Bytes} {entry : Entry} (h : (rootTree mode).get path = some entry) :
    path = rootPath ∧ entry = Entry.directory mode 0 0 0 := by
  rw [rootTree, Tree.get_insert, Tree.get_new] at h
  split_ifs at h with hpath
  exact ⟨hpath.symm, (Option.some.inj h).symm⟩

theorem rootTree_rooted (mode : Nat) : (rootTree mode).Rooted where
  root := ⟨Entry.directory mode 0 0 0, by rw [rootTree, Tree.get_insert, if_pos rfl], rfl⟩
  closed path entry hget a ha := by
    obtain ⟨rfl, -⟩ := rootTree_get hget
    rw [Below, ancestors_root] at ha
    cases ha
  contents_lt path entry hget := by
    obtain ⟨-, rfl⟩ := rootTree_get hget
    exact Nat.two_pow_pos 32

theorem rootTree_fits {mode : Nat} (h : mode < 2 ^ 32) : (rootTree mode).Fits := by
  intro path entry hget
  obtain ⟨-, rfl⟩ := rootTree_get hget
  exact ⟨h, Nat.two_pow_pos 32, Nat.two_pow_pos 32, Nat.two_pow_pos 32⟩

/-- A root name can be too long for the name field, and a mode with type bits of its own hides the type. -/
theorem template_limits :
    ((rootTree 0o755).Rooted ∧ (rootTree 0o755).Fits ∧ (0 : UInt8) ∉ List.replicate (2 ^ 32 - 1) 97 ∧
      (rootTree 0o755).template (List.replicate (2 ^ 32 - 1) 97) =
        .error (invalid "guest template name is too large")) ∧
    ((rootTree 0o100755).Rooted ∧ (rootTree 0o100755).Fits ∧
      ((rootTree 0o100755).template "workload").toOption.bind readNewc =
        some [{ name := "workload", mode := 0o140755 }, trailerEntry]) := by
  refine ⟨⟨rootTree_rooted _, rootTree_fits (by decide), ?_, ?_⟩, rootTree_rooted _, rootTree_fits (by decide), ?_⟩
  · rw [List.mem_replicate]
    exact fun h => absurd h.2 (by decide)
  · refine @template_nameTooLong _ _ (Entry.directory 0o755 0 0 0) ?_ rfl ?_
    · rw [rootTree, Tree.get_insert, if_pos rfl]
    · rw [List.length_replicate]
      decide
  · decide +kernel

/-- Names that byte order puts before the root sentinel, and between a directory and what is below it. -/
def siblingTree : Tree :=
  ((((rootTree 0o755).insert "!data" (Entry.file "x" 0o644 1 2 3)).insert "a" Entry.defaultDirectory).insert "a-b"
    (Entry.symlink "a/x" 0 0 4)).insert "a/x" (Entry.file "payload" 0o755 0 0 5)

theorem siblingTree_get {path : Bytes} {entry : Entry} (h : siblingTree.get path = some entry) :
    (path, entry) ∈ [(utf8 "a/x", Entry.file "payload" 0o755 0 0 5), (utf8 "a-b", Entry.symlink "a/x" 0 0 4),
      (utf8 "a", Entry.defaultDirectory), (utf8 "!data", Entry.file "x" 0o644 1 2 3),
      (rootPath, Entry.directory 0o755 0 0 0)] := by
  unfold siblingTree rootTree at h
  rw [Tree.get_insert, Tree.get_insert, Tree.get_insert, Tree.get_insert, Tree.get_insert, Tree.get_new] at h
  simp only [List.mem_cons, Prod.mk.injEq, List.not_mem_nil, or_false]
  split_ifs at h with h1 h2 h3 h4 h5
  · exact .inl ⟨h1.symm, (Option.some.inj h).symm⟩
  · exact .inr (.inl ⟨h2.symm, (Option.some.inj h).symm⟩)
  · exact .inr (.inr (.inl ⟨h3.symm, (Option.some.inj h).symm⟩))
  · exact .inr (.inr (.inr (.inl ⟨h4.symm, (Option.some.inj h).symm⟩)))
  · exact .inr (.inr (.inr (.inr ⟨h5.symm, (Option.some.inj h).symm⟩)))

theorem siblingTree_rooted : siblingTree.Rooted := by
  have hcheck : ∀ x ∈ [(utf8 "a/x", Entry.file "payload" 0o755 0 0 5), (utf8 "a-b", Entry.symlink "a/x" 0 0 4),
      (utf8 "a", Entry.defaultDirectory), (utf8 "!data", Entry.file "x" 0o644 1 2 3),
      (rootPath, Entry.directory 0o755 0 0 0)], x.2.contents.length < 2 ^ 32 ∧
      ∀ a ∈ ancestors x.1, (siblingTree.get a).map Entry.kind = some .directory := by decide +kernel
  refine ⟨⟨Entry.directory 0o755 0 0 0, by decide +kernel, rfl⟩, fun path entry hget a ha => ?_,
    fun path entry hget => ?_⟩
  · have hkind := (hcheck _ (siblingTree_get hget)).2 a ha
    obtain ⟨d, hd, hdir⟩ := Option.map_eq_some_iff.mp hkind
    exact ⟨d, hd, hdir⟩
  · exact (hcheck _ (siblingTree_get hget)).1

theorem siblingTree_fits : siblingTree.Fits ∧ siblingTree.NamesFit "workload" := by
  have hcheck : ∀ x ∈ [(utf8 "a/x", Entry.file "payload" 0o755 0 0 5), (utf8 "a-b", Entry.symlink "a/x" 0 0 4),
      (utf8 "a", Entry.defaultDirectory), (utf8 "!data", Entry.file "x" 0o644 1 2 3),
      (rootPath, Entry.directory 0o755 0 0 0)], (x.2.mode < 2 ^ 32 ∧ x.2.uid < 2 ^ 32 ∧ x.2.gid < 2 ^ 32 ∧
      x.2.mtime < 2 ^ 32) ∧ (nameOf "workload" x.1).length + 1 < 2 ^ 32 := by decide +kernel
  refine ⟨fun path entry hget => ?_, fun path entry hget => (hcheck _ (siblingTree_get hget)).2⟩
  obtain ⟨hmode, huid, hgid, hmtime⟩ := (hcheck _ (siblingTree_get hget)).1
  exact ⟨hmode, huid, hgid, hmtime⟩

theorem template_decodes_siblings : Listing siblingTree (listing siblingTree) ∧ ∃ records entries,
    List.Forall₂ (Describes "workload") (listing siblingTree) records ∧
    siblingTree.templateEntries "workload" = .ok entries ∧
    readNewc (entries ++ newcRecord trailerEntry) = some (records ++ [trailerEntry]) := by
  obtain ⟨hlisting, records, entries, hrecords, hentries, -, -, hread, -⟩ :=
    template_decodes siblingTree_rooted siblingTree_fits.1 siblingTree_fits.2
  exact ⟨hlisting, records, entries, hrecords, hentries, hread⟩

/-- The order of the sample: the root, `!data`, `a`, `a-b`, `a/x`. -/
example : (listing siblingTree).map Prod.fst = [rootPath, utf8 "!data", utf8 "a", utf8 "a-b", utf8 "a/x"] := by
  decide +kernel

end SimFerret.Workload
