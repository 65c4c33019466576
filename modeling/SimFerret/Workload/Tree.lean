import Std.Data.ExtTreeMap
import SimFerret.Workload.Path

/-!
# SimFerret.Workload.Tree — the canonical workload filesystem (`workload/tree.rs`)

The canonical tree is a map from normalized in-root path to one entry, ordered by the bytes of the path.
`Tree.view` reads a tree as a `Hierarchy.View`; `view_removeSubtree`, `view_removeChildren` and
`view_insertAncestors` say that each operation of the source is the operation of the same name on views, with
the byte-prefix tests of the source replaced by `Below`.
-/

namespace SimFerret.Workload

open Hierarchy

inductive EntryKind where
  | directory | file | symlink
deriving DecidableEq, Repr

def defaultDirectoryMode : Nat := 0o755
/-- A Linux symbolic link has no settable mode. -/
def symlinkMode : Nat := 0o777

structure Entry where
  kind : EntryKind
  mode : Nat
  uid : Nat
  gid : Nat
  mtime : Nat
  data : Option Bytes
  target : Option Bytes
deriving DecidableEq, Repr

namespace Entry

def directory (mode uid gid mtime : Nat) : Entry :=
  ⟨.directory, mode, uid, gid, mtime, none, none⟩

def defaultDirectory : Entry := directory defaultDirectoryMode 0 0 0

def file (data : Bytes) (mode uid gid mtime : Nat) : Entry :=
  ⟨.file, mode, uid, gid, mtime, some data, none⟩

def symlink (target : Bytes) (uid gid mtime : Nat) : Entry :=
  ⟨.symlink, symlinkMode, uid, gid, mtime, none, some target⟩

/-- File bytes for a regular-file entry; an entry without data is empty. -/
def fileBytes (e : Entry) : Bytes := e.data.getD []

/-- Link target for a symbolic-link entry. -/
def linkTarget (e : Entry) : Bytes := e.target.getD []

/-- The entry is a directory. -/
def IsDir (e : Entry) : Prop := e.kind = .directory

instance (e : Entry) : Decidable e.IsDir := inferInstanceAs (Decidable (e.kind = .directory))

theorem isDir_defaultDirectory : defaultDirectory.IsDir := rfl

end Entry

structure Tree where
  entries : Std.ExtTreeMap Bytes Entry

namespace Tree

def new : Tree := ⟨∅⟩

def get (t : Tree) (path : Bytes) : Option Entry := t.entries[path]?

def contains (t : Tree) (path : Bytes) : Bool := t.entries.contains path

def insert (t : Tree) (path : Bytes) (entry : Entry) : Tree := ⟨t.entries.insert path entry⟩

def insertDefaultDirectory (t : Tree) (path : Bytes) : Tree :=
  ⟨t.entries.insertIfNew path Entry.defaultDirectory⟩

def len (t : Tree) : Nat := t.entries.size

/-- The entries in byte order of their paths. -/
def iter (t : Tree) : List (Bytes × Entry) := t.entries.toList

/-- Remove `path` and every descendant; a root request removes everything. -/
def removeSubtree (t : Tree) (path : Bytes) : Tree :=
  let pre := subtreePrefix path
  ⟨t.entries.filter fun candidate _ =>
    !(candidate == path || (!pre.isEmpty && pre.isPrefixOf candidate) || path == rootPath)⟩

/-- Remove every descendant of `path` while keeping `path` itself. -/
def removeChildren (t : Tree) (path : Bytes) : Tree :=
  let pre := subtreePrefix path
  ⟨t.entries.filter fun candidate _ =>
    candidate == rootPath || (!pre.isEmpty && !pre.isPrefixOf candidate)⟩

def expandedBytes (t : Tree) : Nat :=
  (t.iter.filterMap fun e => e.2.data.map List.length).sum

/-- A tree as a partial map. -/
def view (t : Tree) : View Bytes Entry := t.get

@[ext] theorem ext {s t : Tree} (h : ∀ path, s.get path = t.get path) : s = t := by
  cases s; cases t
  exact congrArg Tree.mk (Std.ExtTreeMap.ext_getElem? h)

theorem get_new (path : Bytes) : new.get path = none := Std.ExtTreeMap.getElem?_empty

theorem get_insert (t : Tree) (path p : Bytes) (entry : Entry) :
    (t.insert path entry).get p = if path = p then some entry else t.get p := by
  unfold get insert
  rw [Std.ExtTreeMap.getElem?_insert]
  simp

theorem get_insertDefaultDirectory (t : Tree) (path p : Bytes) :
    (t.insertDefaultDirectory path).get p =
      if path = p ∧ t.get p = none then some Entry.defaultDirectory else t.get p := by
  unfold get insertDefaultDirectory
  rw [Std.ExtTreeMap.getElem?_insertIfNew]
  by_cases h : path = p
  · subst h
    have hm : path ∈ t.entries ↔ ¬ t.entries[path]? = none := by
      rw [Std.ExtTreeMap.mem_iff_isSome_getElem?]
      exact Option.isSome_iff_ne_none
    simp only [Std.ReflCmp.compare_self, true_and, hm, not_not]
  · simp [h]

theorem subtreePrefix_test {path p : Bytes} :
    (p = path ∨ (subtreePrefix path ≠ [] ∧ subtreePrefix path <+: p) ∨ path = rootPath) ↔
      (p = path ∨ Below path p) := by
  unfold Below subtreePrefix
  rw [mem_ancestors]
  by_cases hr : path = rootPath
  · subst hr
    by_cases hp : p = rootPath <;> simp [hp]
  · have hroot : path ++ [slash] <+: p → p ≠ rootPath := by
      rintro h rfl
      exact not_prefix_of_not_mem (by decide) h
    simp only [hr, if_false, or_false, false_or]
    constructor
    · rintro (h | ⟨-, h⟩)
      · exact .inl h
      · exact .inr ⟨hroot h, h⟩
    · rintro (h | ⟨-, h⟩)
      · exact .inl h
      · exact .inr ⟨by simp, h⟩

/-- `remove_subtree` removes a path and what is below it. -/
theorem view_removeSubtree (t : Tree) (path : Bytes) :
    (t.removeSubtree path).view = dropSubtree Below path t.view := by
  funext p
  unfold dropSubtree view get removeSubtree
  rw [Std.ExtTreeMap.getElem?_filter']
  have htest := @subtreePrefix_test path p
  cases hp : t.entries[p]? with
  | none => simp
  | some e =>
    by_cases hb : p = path ∨ Below path p
    · rw [if_pos hb]
      rcases htest.mpr hb with h | ⟨h1, h2⟩ | h
      · simp [h]
      · simp [List.isPrefixOf_iff_prefix, h1, h2]
      · simp [h]
    · rw [if_neg hb]
      rw [← htest, not_or, not_or] at hb
      obtain ⟨h1, h2, h3⟩ := hb
      have h2' : (!(subtreePrefix path).isEmpty && (subtreePrefix path).isPrefixOf p) = false := by
        rw [← Bool.not_eq_true]
        simpa [List.isPrefixOf_iff_prefix] using h2
      simp [h1, h3, h2']

/-- `remove_children` removes what is strictly below a path. -/
theorem view_removeChildren (t : Tree) (path : Bytes) :
    (t.removeChildren path).view = dropChildren Below path t.view := by
  funext p
  unfold dropChildren view get removeChildren
  rw [Std.ExtTreeMap.getElem?_filter']
  have hb : Below path p ↔ p ≠ rootPath ∧ (path = rootPath ∨ path ++ [slash] <+: p) := mem_ancestors
  cases hp : t.entries[p]? with
  | none => simp
  | some e =>
    simp only [hb, Option.filter_some]
    by_cases hroot : p = rootPath
    · simp [hroot]
    · by_cases hr : path = rootPath
      · simp [hroot, hr, subtreePrefix]
      · by_cases hpre : path ++ [slash] <+: p
        · simp [hroot, hr, subtreePrefix, hpre, List.isPrefixOf_iff_prefix]
        · have hpre' : (path ++ [slash]).isPrefixOf p = false := by
            rw [← Bool.not_eq_true, List.isPrefixOf_iff_prefix]
            exact hpre
          simp [hroot, hr, subtreePrefix, hpre, hpre']

theorem view_insertAncestors (n : Bytes) : ∀ (chain : List Bytes) (t : Tree),
    (∀ a ∈ chain, Below a n) → (∀ a, Below a n → a ∈ chain ∨ (t.get a).isSome) →
    (chain.foldl insertDefaultDirectory t).view =
      fillAncestors Below Entry.defaultDirectory n t.view
  | [], t, _, h => by
    funext p
    simp only [List.not_mem_nil, false_or] at h
    simp only [List.foldl_nil, fillAncestors]
    split_ifs with hc
    · have := h p hc.1
      rw [show t.get p = none from hc.2] at this
      simp at this
    · rfl
  | a :: chain, t, hsub, h => by
    have hstep : ∀ p, (t.insertDefaultDirectory a).get p =
        if a = p ∧ t.get p = none then some Entry.defaultDirectory else t.get p :=
      get_insertDefaultDirectory t a
    rw [List.foldl_cons, view_insertAncestors n chain (t.insertDefaultDirectory a)
      (fun b hb => hsub b (List.mem_cons_of_mem _ hb))]
    · funext p
      unfold fillAncestors view
      rw [hstep]
      by_cases hap : a = p
      · subst hap
        have ha : Below a n := hsub a List.mem_cons_self
        cases hg : t.get a <;> simp [ha]
      · simp [hap]
    · intro b hb
      rcases h b hb with hm | hm
      · rcases List.mem_cons.mp hm with rfl | hm
        · right
          rw [hstep]
          cases hg : t.get b <;> simp
        · exact .inl hm
      · right
        rw [hstep]
        split_ifs
        · rfl
        · exact hm

end Tree

end SimFerret.Workload
