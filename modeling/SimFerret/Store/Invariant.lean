import Mathlib.Data.List.Induction
import SimFerret.Store.Publish

/-!
# SimFerret.Store.Invariant — the consistent store and what a run may do to it

A name that starts with a dot is hidden; a path with a hidden component is staged, any other path is published.

* `Consistent`: every published raw object, derived entry and closure is complete, and belongs to a known
  candidate.
* `Transition`: a change that leaves published nodes as they are, keeps the store consistent, and touches only
  some of the staged paths.
* `transition_create`, `transition_write`, `transition_erase`, `transition_rename`, `transition_entry`: the
  changes that a publication makes.
-/

namespace SimFerret.Store

open Workload

/-! ## Names -/

def Hidden (c : Text) : Prop := c.head? = some 46

instance (c : Text) : Decidable (Hidden c) := inferInstanceAs (Decidable (c.head? = some 46))

def Staged (path : Path) : Prop := ∃ c ∈ path, Hidden c

instance (path : Path) : Decidable (Staged path) := inferInstanceAs (Decidable (∃ c ∈ path, Hidden c))

def rawDirectory : Path := [utf8 "raw"]
def objectsDirectory : Path := [utf8 "raw", utf8 "sha256"]
def derivedDirectory : Path := [utf8 "derived"]
def closureAt : Path := [utf8 "raw", utf8 "closure.json"]
def objectAt (digest : Text) : Path := [utf8 "raw", utf8 "sha256", digest]
def entryAt (name : Text) : Path := [utf8 "derived", name]
def entryFile (name file : Text) : Path := [utf8 "derived", name, file]

/-- The directories that publication creates under their own names. -/
def storeDirectories : List Path := [[], rawDirectory, objectsDirectory, derivedDirectory]

/-- A path at or below the name `name` of a store directory. -/
def Beneath (name : Text) (path : Path) : Prop := ∃ dir ∈ storeDirectories, ∃ rest, path = dir ++ name :: rest

theorem Beneath.staged {name : Text} {path : Path} (h : Beneath name path) (hn : Hidden name) : Staged path := by
  obtain ⟨dir, -, rest, rfl⟩ := h
  exact ⟨name, by simp, hn⟩

theorem not_staged_store {path : Path} (h : path ∈ storeDirectories) : ¬ Staged path :=
  (by decide : ∀ path ∈ storeDirectories, ¬ Staged path) path h

/-- The hidden name that a path lies beneath is the first of its hidden components. -/
theorem Beneath.unique {name other : Text} {path : Path} (h : Beneath name path) (h' : Beneath other path)
    (hn : Hidden name) (ho : Hidden other) : name = other := by
  obtain ⟨dir, hdir, rest, rfl⟩ := h
  obtain ⟨dir', hdir', rest', heq⟩ := h'
  have hfind : ∀ dir ∈ storeDirectories, ∀ (name : Text) (rest : Path), Hidden name →
      (dir ++ name :: rest).find? (fun c => decide (Hidden c)) = some name := by
    intro dir hdir name rest hn
    rw [List.find?_append, List.find?_cons_of_pos (by simpa using hn), List.find?_eq_none.mpr]
    · rfl
    · intro c hc
      simpa using fun hh => not_staged_store hdir ⟨c, hc, hh⟩
  have := hfind dir hdir name rest hn
  rw [heq, hfind dir' hdir' other rest' ho] at this
  exact (Option.some.inj this).symm

theorem Beneath.not_entry {name visible : Text} {path : Path} (h : Beneath name path) (hn : Hidden name)
    (hv : ¬ Hidden visible) : ¬ entryAt visible <+: path := by
  rintro ⟨rest, rfl⟩
  obtain ⟨dir, hdir, rest', heq⟩ := h
  simp only [storeDirectories, rawDirectory, objectsDirectory, derivedDirectory, List.mem_cons, List.not_mem_nil,
    or_false] at hdir
  have hne : utf8 "derived" ≠ utf8 "raw" := by decide
  rcases hdir with rfl | rfl | rfl | rfl
  · simp only [entryAt, List.cons_append, List.nil_append, List.cons.injEq] at heq
    exact absurd (heq.1 ▸ hn) (by decide)
  · simp [entryAt, hne] at heq
  · simp [entryAt, hne] at heq
  · simp only [entryAt, List.cons_append, List.nil_append, List.cons.injEq, true_and] at heq
    exact hv (heq.1 ▸ hn)

/-! ## The invariant -/

/-- A node that only user `uid` can use. -/
def Private (uid : Nat) : Node → Prop
  | .directory stat => stat.uid = uid ∧ stat.mode &&& 0o077 = 0
  | .file stat _ => stat.uid = uid ∧ stat.mode &&& 0o077 = 0
  | _ => False

/-- A file as a publication of user `uid` writes it. -/
abbrev ownFile (uid : Nat) (data : Bytes) : Node := .file ⟨0o600, uid⟩ data

/-- A directory as a publication of user `uid` makes it. -/
abbrev ownDirectory (uid : Nat) : Node := .directory ⟨0o700, uid⟩

/-- The derived entry under `name` was written for the candidate. -/
structure Holds (crates : Crates) (uid : Nat) (candidate : Candidate) (name : Text) (d : Disk) : Prop where
  tree : d.get (entryFile name "tree.bin") = some (ownFile uid candidate.treeBytes)
  template : d.get (entryFile name "template.cpio") = some (ownFile uid candidate.template)
  lock : ∃ lockBytes, canonicalJson crates.lock (candidate.lock crates) = .ok lockBytes ∧
    lockBytes.length ≤ maxCacheMetadataBytes ∧ d.get (entryFile name "lock.json") = some (ownFile uid lockBytes)

/-- The derived entry of the candidate's canonical digest matches its closure. -/
structure Verified (crates : Crates) (uid : Nat) (candidate : Candidate) (d : Disk) : Prop where
  entry : d.get (entryAt candidate.closure.canonicalDigest) = some (ownDirectory uid)
  tree : d.get (entryFile candidate.closure.canonicalDigest "tree.bin") = some (ownFile uid candidate.treeBytes)
  template : ∃ template, d.get (entryFile candidate.closure.canonicalDigest "template.cpio") =
      some (ownFile uid template) ∧
    crates.digest template = candidate.closure.templateSha256 ∧ template.length ≤ maxTemplateBytes
  lock : ∃ lockBytes, d.get (entryFile candidate.closure.canonicalDigest "lock.json") =
      some (ownFile uid lockBytes) ∧
    crates.lock.fromSlice lockBytes = .ok (candidate.lock crates) ∧ lockBytes.length ≤ maxCacheMetadataBytes

/-- Every raw object of the candidate is in the store. -/
def Retained (crates : Crates) (uid : Nat) (candidate : Candidate) (d : Disk) : Prop :=
  ∀ object ∈ candidate.graph.objects, d.get (objectAt (crates.digest object.2)) = some (ownFile uid object.2)

structure Consistent (crates : Crates) (uid : Nat) (known : Candidate → Prop) (d : Disk) : Prop where
  closed : ∀ path c node, d.get (path ++ [c]) = some node → d.isDirectory path = true
  owned : ∀ path node, d.get path = some node → Private uid node
  directories : ∀ path ∈ storeDirectories, ∀ node, d.get path = some node → ∃ stat, node = .directory stat
  objects : ∀ digest node, ¬ Hidden digest → d.get (objectAt digest) = some node →
    ∃ candidate, known candidate ∧ ∃ object ∈ candidate.graph.objects,
      digest = crates.digest object.2 ∧ node = ownFile uid object.2
  entries : ∀ name node, ¬ Hidden name → d.get (entryAt name) = some node →
    node = ownDirectory uid ∧ ∃ candidate, known candidate ∧ name = candidate.closure.canonicalDigest ∧
      Holds crates uid candidate name d
  closure : ∀ node, d.get closureAt = some node →
    ∃ candidate, known candidate ∧ node = ownFile uid candidate.closureBytes ∧ Verified crates uid candidate d ∧
      Retained crates uid candidate d

/-! ## Published nodes last -/

/-- Published nodes are left as they are. -/
def Kept (d d' : Disk) : Prop := ∀ path node, ¬ Staged path → d.get path = some node → d'.get path = some node

/-- A fact about published nodes that exist. -/
def Lasting (fact : Disk → Prop) : Prop := ∀ d d', Kept d d' → fact d → fact d'

theorem lasting_get {path : Path} (h : ¬ Staged path) (node : Node) : Lasting fun d => d.get path = some node :=
  fun _ _ hk hg => hk path node h hg

section Lasting

variable {crates : Crates} {uid : Nat} {candidate : Candidate}

theorem not_hidden_hex {bytes : Bytes} : ¬ Hidden (hex bytes) := by
  intro h
  have hmem : (46 : UInt8) ∈ hex bytes := List.mem_of_mem_head? h
  obtain ⟨nibble, hn, hb⟩ := mem_hex hmem
  have := (lowerDigit_range hn).1
  rw [← hb] at this
  exact absurd this (by decide)

theorem not_staged_object {digest : Text} (h : ¬ Hidden digest) : ¬ Staged (objectAt digest) := by
  simp only [Staged, objectAt, List.mem_cons, List.not_mem_nil, or_false, exists_eq_or_imp, exists_eq_left, not_or]
  exact ⟨by decide, by decide, h⟩

theorem not_staged_entry {name : Text} (h : ¬ Hidden name) : ¬ Staged (entryAt name) := by
  simp only [Staged, entryAt, List.mem_cons, List.not_mem_nil, or_false, exists_eq_or_imp, exists_eq_left, not_or]
  exact ⟨by decide, h⟩

theorem not_staged_entryFile {name file : Text} (h : ¬ Hidden name) (hf : ¬ Hidden file) :
    ¬ Staged (entryFile name file) := by
  simp only [Staged, entryFile, List.mem_cons, List.not_mem_nil, or_false, exists_eq_or_imp,
    exists_eq_left, not_or]
  exact ⟨by decide, h, hf⟩

theorem not_staged_closure : ¬ Staged closureAt := by decide

theorem Holds.lasts {name : Text} {d d' : Disk} (hn : ¬ Hidden name) (hk : Kept d d')
    (h : Holds crates uid candidate name d) : Holds crates uid candidate name d' where
  tree := hk _ _ (not_staged_entryFile hn (by decide)) h.tree
  template := hk _ _ (not_staged_entryFile hn (by decide)) h.template
  lock := by
    obtain ⟨lockBytes, h1, h2, h3⟩ := h.lock
    exact ⟨lockBytes, h1, h2, hk _ _ (not_staged_entryFile hn (by decide)) h3⟩

/-- The name of a candidate's derived entry is published. -/
def Named (candidate : Candidate) : Prop :=
  ¬ Hidden candidate.closure.canonicalDigest ∧ Component candidate.closure.canonicalDigest

theorem Verified.lasts {d d' : Disk} (hn : Named candidate) (hk : Kept d d')
    (h : Verified crates uid candidate d) : Verified crates uid candidate d' where
  entry := hk _ _ (not_staged_entry hn.1) h.entry
  tree := hk _ _ (not_staged_entryFile hn.1 (by decide)) h.tree
  template := by
    obtain ⟨template, h1, h2⟩ := h.template
    exact ⟨template, hk _ _ (not_staged_entryFile hn.1 (by decide)) h1, h2⟩
  lock := by
    obtain ⟨lockBytes, h1, h2⟩ := h.lock
    exact ⟨lockBytes, hk _ _ (not_staged_entryFile hn.1 (by decide)) h1, h2⟩

theorem Retained.lasts {d d' : Disk} (hk : Kept d d') (h : Retained crates uid candidate d) :
    Retained crates uid candidate d' :=
  fun object ho => hk _ _ (not_staged_object not_hidden_hex) (h object ho)

end Lasting

/-! ## Closed disks -/

/-- Nothing lies below a path that is no directory. -/
theorem get_below {d : Disk} (hclosed : ∀ path c node, d.get (path ++ [c]) = some node → d.isDirectory path = true)
    {path : Path} (h : d.isDirectory path = false) : ∀ (rest : Path), rest ≠ [] → d.get (path ++ rest) = none := by
  intro rest
  induction rest using List.reverseRecOn with
  | nil => exact fun h => absurd rfl h
  | append_singleton rest c ih =>
    intro _
    rw [← List.append_assoc]
    cases hg : d.get (path ++ rest ++ [c]) with
    | none => rfl
    | some node =>
      have hdir := hclosed _ _ _ hg
      by_cases hr : rest = []
      · rw [hr, List.append_nil] at hdir
        rw [h] at hdir
        cases hdir
      · obtain ⟨stat, hs⟩ := isDirectory_iff.mp hdir
        rw [ih hr] at hs
        cases hs

/-- A file moved between two names is under the one and no longer under the other. -/
theorem get_move_file {d : Disk}
    (hclosed : ∀ path c node, d.get (path ++ [c]) = some node → d.isDirectory path = true) {source target : Path}
    (h : ¬ source <+: target) (h' : ¬ target <+: source) (hs : d.isDirectory source = false)
    (ht : d.isDirectory target = false) (p : Path) :
    (d.move source target).get p = if p = target then d.get source else if p = source then none else d.get p := by
  rw [Disk.get_move h h']
  by_cases hp : p = target
  · subst hp
    simp
  · by_cases hpt : target <+: p
    · obtain ⟨rest, rfl⟩ := hpt
      have hrest : rest ≠ [] := fun hr => hp (by simp [hr])
      have hne : target ++ rest ≠ source := fun he => h' (he ▸ List.prefix_append _ _)
      simp [hrest, hne, get_below hclosed hs rest hrest, get_below hclosed ht rest hrest]
    · by_cases hps : source <+: p
      · obtain ⟨rest, rfl⟩ := hps
        by_cases hr : rest = []
        · subst hr
          simp only [List.append_nil] at hp hpt ⊢
          simp [hp, hpt]
        · simp [hp, hpt, hr, get_below hclosed hs rest hr]
      · have hne : p ≠ source := fun he => hps (he ▸ List.prefix_rfl)
        simp [hp, hpt, hps, hne]

/-- What renaming a file does. -/
theorem renamed_file {d d' : Disk} {u : Unit}
    (hclosed : ∀ path c node, d.get (path ++ [c]) = some node → d.isDirectory path = true) {source target : Path}
    {stat : Stat} {data : Bytes} (hr : d.rename source target = .ok (u, d')) (hne : source ≠ target)
    (hsource : d.get source = some (.file stat data)) :
    d.isDirectory target = false ∧ d.isDirectory target.dropLast = true ∧
      ∀ p, d'.get p = if p = target then some (.file stat data) else if p = source then none else d.get p := by
  obtain ⟨node, hnode, h1, h2, hparent, hrep, rfl⟩ := Disk.rename_ok hr hne
  rw [hsource] at hnode
  cases hnode
  have htarget : d.isDirectory target = false := by
    rw [← Bool.not_eq_true, isDirectory_iff]
    rintro ⟨st, hst⟩
    rw [hst] at hrep
    cases hrep
  have hfile : d.isDirectory source = false := by
    simp [Disk.isDirectory, hsource]
  refine ⟨htarget, hparent, fun p => ?_⟩
  rw [get_move_file hclosed h1 h2 hfile htarget, hsource]

theorem closed_renamed {d d' : Disk}
    (hclosed : ∀ path c node, d.get (path ++ [c]) = some node → d.isDirectory path = true) {source target : Path}
    {stat : Stat} {data : Bytes} (hsource : d.get source = some (.file stat data))
    (htarget : d.isDirectory target = false) (hparent : d.isDirectory target.dropLast = true)
    (hget : ∀ p, d'.get p = if p = target then some (.file stat data) else if p = source then none else d.get p) :
    ∀ path c node, d'.get (path ++ [c]) = some node → d'.isDirectory path = true := by
  intro path c node hg
  have hdir : d.isDirectory path = true := by
    rw [hget] at hg
    split_ifs at hg with h1 h2
    · rw [← h1, List.dropLast_concat] at hparent
      exact hparent
    · exact hclosed path c node hg
  obtain ⟨st, hst⟩ := isDirectory_iff.mp hdir
  refine isDirectory_iff.mpr ⟨st, ?_⟩
  rw [hget, if_neg, if_neg, hst]
  · rintro rfl
    rw [hsource] at hst
    cases hst
  · rintro rfl
    rw [hdir] at htarget
    cases htarget

/-! ## Transitions -/

/-- A change of a consistent store that keeps it consistent, leaves published nodes, and touches nothing at or
below a hidden name outside `touch`. -/
def Transition (crates : Crates) (uid : Nat) (known : Candidate → Prop) (touch : Path → Prop)
    (d d' : Disk) : Prop :=
  Consistent crates uid known d →
    Kept d d' ∧ (∀ name, Hidden name → ∀ path, Beneath name path → ¬ touch path → d'.get path = d.get path) ∧
      Consistent crates uid known d'

section Transitions

variable {crates : Crates} {uid : Nat} {known : Candidate → Prop} {touch : Path → Prop}

theorem Kept.refl (d : Disk) : Kept d d := fun _ _ _ h => h

theorem Kept.trans {d d' d'' : Disk} (h : Kept d d') (h' : Kept d' d'') : Kept d d'' :=
  fun path node hs hg => h' path node hs (h path node hs hg)

theorem Transition.refl (d : Disk) : Transition crates uid known touch d d :=
  fun hd => ⟨Kept.refl d, fun _ _ _ _ _ => rfl, hd⟩

theorem Transition.trans {d d' d'' : Disk} (h : Transition crates uid known touch d d')
    (h' : Transition crates uid known touch d' d'') : Transition crates uid known touch d d'' := by
  intro hd
  obtain ⟨hk, ho, hc⟩ := h hd
  obtain ⟨hk', ho', hc'⟩ := h' hc
  exact ⟨hk.trans hk', fun name hn path hb ht => (ho' name hn path hb ht).trans (ho name hn path hb ht), hc'⟩

theorem Transition.mono {touch' : Path → Prop} {d d' : Disk}
    (ht : ∀ name, Hidden name → ∀ path, Beneath name path → touch path → touch' path)
    (h : Transition crates uid known touch d d') : Transition crates uid known touch' d d' := by
  intro hd
  obtain ⟨hk, ho, hc⟩ := h hd
  exact ⟨hk, fun name hn path hb hno => ho name hn path hb fun htouch => hno (ht name hn path hb htouch), hc⟩

/-- What a publication may add under the published names. -/
def Addition (crates : Crates) (uid : Nat) (known : Candidate → Prop) (d' : Disk) (path : Path) : Prop :=
  (path ∈ storeDirectories ∧ ∃ stat, d'.get path = some (.directory stat)) ∨
  (∃ candidate, known candidate ∧ ∃ object ∈ candidate.graph.objects, path = objectAt (crates.digest object.2) ∧
    d'.get path = some (ownFile uid object.2)) ∨
  (∃ candidate, known candidate ∧ entryAt candidate.closure.canonicalDigest <+: path ∧
    d'.get (entryAt candidate.closure.canonicalDigest) = some (ownDirectory uid) ∧
    Holds crates uid candidate candidate.closure.canonicalDigest d') ∨
  (path = closureAt ∧ ∃ candidate, known candidate ∧ d'.get path = some (ownFile uid candidate.closureBytes) ∧
    Verified crates uid candidate d' ∧ Retained crates uid candidate d')

theorem entry_not_under {name : Text} {path : Path} (h : entryAt name <+: path) :
    path ∉ storeDirectories ∧ path ≠ closureAt ∧ ∀ digest, path ≠ objectAt digest := by
  obtain ⟨rest, rfl⟩ := h
  have hne : utf8 "derived" ≠ utf8 "raw" := by decide
  refine ⟨?_, ?_, fun digest => ?_⟩
  · simp [storeDirectories, entryAt, rawDirectory, objectsDirectory, derivedDirectory, hne]
  · simp [entryAt, closureAt, hne]
  · simp [entryAt, objectAt, hne]

/-- Each kind of path takes only its own kind of addition. -/
theorem Addition.directory {d' : Disk} {path : Path} (hp : path ∈ storeDirectories)
    (h : Addition crates uid known d' path) : ∃ stat, d'.get path = some (.directory stat) := by
  rcases h with ⟨-, h⟩ | ⟨_, _, object, _, rfl, -⟩ | ⟨_, _, hpre, -⟩ | ⟨rfl, -⟩
  · exact h
  · simp [storeDirectories, objectAt, rawDirectory, objectsDirectory, derivedDirectory] at hp
  · exact absurd hp (entry_not_under hpre).1
  · exact absurd hp (by decide)

theorem Addition.object {d' : Disk} {digest : Text} (h : Addition crates uid known d' (objectAt digest)) :
    ∃ candidate, known candidate ∧ ∃ object ∈ candidate.graph.objects, digest = crates.digest object.2 ∧
      d'.get (objectAt digest) = some (ownFile uid object.2) := by
  rcases h with ⟨hp, -⟩ | ⟨candidate, hk, object, ho, hpath, hg⟩ | ⟨_, _, hpre, -⟩ | ⟨hp, -⟩
  · simp [storeDirectories, objectAt, rawDirectory, objectsDirectory, derivedDirectory] at hp
  · exact ⟨candidate, hk, object, ho, by simpa [objectAt] using hpath, hg⟩
  · exact absurd rfl ((entry_not_under hpre).2.2 digest)
  · simp [objectAt, closureAt] at hp

theorem Addition.entry {d' : Disk} {name : Text} (h : Addition crates uid known d' (entryAt name)) :
    d'.get (entryAt name) = some (ownDirectory uid) ∧ ∃ candidate, known candidate ∧
      name = candidate.closure.canonicalDigest ∧ Holds crates uid candidate name d' := by
  have hself := entry_not_under (List.prefix_refl (entryAt name))
  rcases h with ⟨hp, -⟩ | ⟨_, _, object, _, hpath, -⟩ | ⟨candidate, hk, hpre, hg, hh⟩ | ⟨hp, -⟩
  · exact absurd hp hself.1
  · exact absurd hpath (hself.2.2 _)
  · have heq : candidate.closure.canonicalDigest = name := by
      have := hpre.eq_of_length (by simp [entryAt])
      simpa [entryAt] using this
    rw [heq] at hg hh
    exact ⟨hg, candidate, hk, heq.symm, hh⟩
  · exact absurd hp hself.2.1

theorem Addition.closure {d' : Disk} (h : Addition crates uid known d' closureAt) :
    ∃ candidate, known candidate ∧ d'.get closureAt = some (ownFile uid candidate.closureBytes) ∧
      Verified crates uid candidate d' ∧ Retained crates uid candidate d' := by
  rcases h with ⟨hp, -⟩ | ⟨_, _, object, _, hpath, -⟩ | ⟨_, _, hpre, -⟩ | ⟨-, h⟩
  · exact absurd hp (by decide)
  · simp [objectAt, closureAt] at hpath
  · exact absurd rfl (entry_not_under hpre).2.1
  · exact h

variable (hnamed : ∀ candidate, known candidate → Named candidate)

include hnamed

/-- A change whose published part is additions keeps the store consistent. -/
theorem consistent_of_additions {d d' : Disk} (hd : Consistent crates uid known d)
    (hclosed : ∀ path c node, d'.get (path ++ [c]) = some node → d'.isDirectory path = true)
    (howned : ∀ path node, d'.get path = some node → Private uid node)
    (hpub : ∀ path, ¬ Staged path → d'.get path = d.get path ∨
      d.get path = none ∧ Addition crates uid known d' path) :
    Kept d d' ∧ Consistent crates uid known d' := by
  have hkept : Kept d d' := by
    intro path node hs hg
    rcases hpub path hs with h | ⟨h, -⟩
    · rw [h, hg]
    · rw [hg] at h
      cases h
  refine ⟨hkept, hclosed, howned, ?_, ?_, ?_, ?_⟩
  · intro path hp node hg
    rcases hpub path (not_staged_store hp) with h | ⟨-, h⟩
    · rw [h] at hg
      exact hd.directories path hp node hg
    · obtain ⟨stat, hstat⟩ := h.directory hp
      rw [hstat] at hg
      cases hg
      exact ⟨stat, rfl⟩
  · intro digest node hh hg
    rcases hpub _ (not_staged_object hh) with h | ⟨-, h⟩
    · rw [h] at hg
      exact hd.objects digest node hh hg
    · obtain ⟨candidate, hk, object, ho, hdigest, hnode⟩ := h.object
      rw [hnode] at hg
      cases hg
      exact ⟨candidate, hk, object, ho, hdigest, rfl⟩
  · intro name node hh hg
    rcases hpub _ (not_staged_entry hh) with h | ⟨-, h⟩
    · rw [h] at hg
      obtain ⟨hnode, candidate, hk, hname, hholds⟩ := hd.entries name node hh hg
      exact ⟨hnode, candidate, hk, hname, hholds.lasts hh hkept⟩
    · obtain ⟨hnode, hrest⟩ := h.entry
      rw [hnode] at hg
      cases hg
      exact ⟨rfl, hrest⟩
  · intro node hg
    rcases hpub _ not_staged_closure with h | ⟨-, h⟩
    · rw [h] at hg
      obtain ⟨candidate, hk, hnode, hv, hr⟩ := hd.closure node hg
      exact ⟨candidate, hk, hnode, hv.lasts (hnamed candidate hk) hkept, hr.lasts hkept⟩
    · obtain ⟨candidate, hk, hnode, hv, hr⟩ := h.closure
      rw [hnode] at hg
      cases hg
      exact ⟨candidate, hk, rfl, hv, hr⟩

/-- A new private node in an existing directory, staged or a store directory. -/
theorem transition_create {d d' : Disk} {dir : Path} {name : Text} {node : Node} {u : Unit}
    (h : d.create dir name node = .ok (u, d')) (hprivate : Private uid node)
    (hpath : Staged (dir ++ [name]) ∧ touch (dir ++ [name]) ∨
      dir ++ [name] ∈ storeDirectories ∧ ∃ stat, node = .directory stat) :
    Transition crates uid known touch d d' := by
  intro hd
  obtain ⟨hnone, hdir, rfl⟩ := Disk.create_ok h
  have hget := Disk.get_set d (dir ++ [name])
  have hclosed : ∀ path c n, (d.set (dir ++ [name]) node).get (path ++ [c]) = some n →
      (d.set (dir ++ [name]) node).isDirectory path = true := by
    intro path c n hg
    rw [hget] at hg
    have hparent : d.isDirectory path = true := by
      split_ifs at hg with he
      · obtain ⟨rfl, -⟩ := List.append_inj' he rfl
        exact hdir
      · exact hd.closed path c n hg
    obtain ⟨stat, hstat⟩ := isDirectory_iff.mp hparent
    refine isDirectory_iff.mpr ⟨stat, ?_⟩
    rw [hget, if_neg, hstat]
    rintro rfl
    rw [hnone] at hstat
    cases hstat
  have howned : ∀ path n, (d.set (dir ++ [name]) node).get path = some n → Private uid n := by
    intro path n hg
    rw [hget] at hg
    split_ifs at hg with he
    · cases hg
      exact hprivate
    · exact hd.owned path n hg
  have hagree := consistent_of_additions hnamed hd hclosed howned fun path hs => by
    by_cases he : path = dir ++ [name]
    · subst he
      rcases hpath with ⟨hst, -⟩ | ⟨hmem, stat, rfl⟩
      · exact absurd hst hs
      · exact .inr ⟨hnone, .inl ⟨hmem, stat, by rw [hget, if_pos rfl]⟩⟩
    · exact .inl (by rw [hget, if_neg he])
  refine ⟨hagree.1, fun other hn path hb ht => ?_, hagree.2⟩
  rw [hget, if_neg]
  rintro rfl
  rcases hpath with ⟨-, htouch⟩ | ⟨hmem, -⟩
  · exact ht htouch
  · exact not_staged_store hmem (hb.staged hn)

/-- Data written to a staged file. -/
theorem transition_write {d : Disk} {path : Path} {data : Bytes} (hs : Staged path) (ht : touch path) :
    Transition crates uid known touch d (d.write path data) := by
  intro hd
  unfold Disk.write
  split
  · rename_i stat old hold
    have hget := Disk.get_set d path
    have hdirs : ∀ p, d.isDirectory p = true → (d.set path (.file stat (old ++ data))).isDirectory p = true := by
      intro p hp
      obtain ⟨st, hst⟩ := isDirectory_iff.mp hp
      refine isDirectory_iff.mpr ⟨st, ?_⟩
      rw [hget, if_neg, hst]
      rintro rfl
      rw [hold] at hst
      cases hst
    have hagree : Kept d (d.set path (.file stat (old ++ data))) ∧
        Consistent crates uid known (d.set path (.file stat (old ++ data))) := consistent_of_additions hnamed hd
      (fun p c n hg => by
        rw [hget] at hg
        split_ifs at hg with he
        · exact hdirs p (hd.closed p c (.file stat old) (he ▸ hold))
        · exact hdirs p (hd.closed p c n hg))
      (fun p n hg => by
        rw [hget] at hg
        split_ifs at hg with he
        · cases hg
          have hfile : Private uid (.file stat old) := hd.owned path _ hold
          exact hfile
        · exact hd.owned p n hg)
      (fun p hp => .inl (by rw [hget, if_neg fun he : p = path => hp (he ▸ hs)]))
    refine ⟨hagree.1, fun _ _ p _ hn => ?_, hagree.2⟩
    rw [hget, if_neg]
    rintro rfl
    exact hn ht
  · exact Transition.refl d hd

/-- A staged node with nothing below it removed. -/
theorem transition_erase {d : Disk} {path : Path} (hs : Staged path) (ht : touch path)
    (hempty : d.isDirectory path = false ∨ d.childless path = true) :
    Transition crates uid known touch d (d.erase path) := by
  intro hd
  have hget := Disk.get_erase d path
  have hbelow : ∀ c, d.get (path ++ [c]) = none := by
    intro c
    rcases hempty with h | h
    · exact get_below hd.closed h [c] (by simp)
    · exact Disk.get_of_childless h (List.prefix_append _ _) (by simp)
  have hagree : Kept d (d.erase path) ∧ Consistent crates uid known (d.erase path) :=
    consistent_of_additions hnamed hd (fun p c n hg => by
      rw [hget] at hg
      split_ifs at hg with he
      obtain ⟨stat, hstat⟩ := isDirectory_iff.mp (hd.closed p c n hg)
      refine isDirectory_iff.mpr ⟨stat, ?_⟩
      rw [hget, if_neg, hstat]
      rintro rfl
      rw [hbelow c] at hg
      cases hg)
    (fun p n hg => by
      rw [hget] at hg
      split_ifs at hg with he
      exact hd.owned p n hg)
    (fun p hp => .inl (by rw [hget, if_neg fun he : p = path => hp (he ▸ hs)]))
  refine ⟨hagree.1, fun _ _ p _ hn => ?_, hagree.2⟩
  rw [hget, if_neg]
  rintro rfl
  exact hn ht

/-- A staged file renamed: to a staged name, to a published name as an addition, or over an equal file. -/
theorem transition_rename {d d' : Disk} {u : Unit} {source target : Path} {stat : Stat} {data : Bytes}
    (hr : d.rename source target = .ok (u, d')) (hne : source ≠ target)
    (hsource : d.get source = some (.file stat data)) (hs : Staged source) (ht : touch source)
    (htarget : Staged target ∧ touch target ∨ ¬ Staged target ∧ (d.get target = some (.file stat data) ∨
      d.get target = none ∧ (d'.get target = some (.file stat data) → Kept d d' →
        Addition crates uid known d' target))) :
    Transition crates uid known touch d d' := by
  intro hd
  obtain ⟨hdir, hparent, hget⟩ := renamed_file hd.closed hr hne hsource
  have howned : ∀ path n, d'.get path = some n → Private uid n := by
    intro path n hg
    rw [hget] at hg
    split_ifs at hg with h1 h2
    · cases hg
      exact hd.owned source _ hsource
    · exact hd.owned path n hg
  have hkept : Kept d d' := by
    intro path node hp hg
    rw [hget]
    split_ifs with h1 h2
    · subst h1
      rcases htarget with ⟨hst, -⟩ | ⟨-, h | ⟨h, -⟩⟩
      · exact absurd hst hp
      · rw [← h, hg]
      · rw [hg] at h
        cases h
    · exact absurd (h2 ▸ hs) hp
    · exact hg
  have hagree := consistent_of_additions hnamed hd (closed_renamed hd.closed hsource hdir hparent hget) howned
    fun path hp => by
      by_cases h1 : path = target
      · subst h1
        have hnew : d'.get path = some (.file stat data) := by rw [hget, if_pos rfl]
        rcases htarget with ⟨hst, -⟩ | ⟨-, h | ⟨h, hadd⟩⟩
        · exact absurd hst hp
        · exact .inl (hnew.trans h.symm)
        · exact .inr ⟨h, hadd hnew hkept⟩
      · left
        rw [hget, if_neg h1, if_neg fun h2 : path = source => hp (h2 ▸ hs)]
  refine ⟨hagree.1, fun name hname path hb hn => ?_, hagree.2⟩
  rw [hget, if_neg, if_neg]
  · rintro rfl
    exact hn ht
  · rintro rfl
    rcases htarget with ⟨-, h⟩ | ⟨h, -⟩
    · exact hn h
    · exact h (hb.staged hname)

/-- A finished staging directory renamed to the name of its derived entry. -/
theorem transition_entry {d d' : Disk} {u : Unit} {name : Text} {candidate : Candidate} (hk : known candidate)
    (hr : d.rename (entryAt name) (entryAt candidate.closure.canonicalDigest) = .ok (u, d')) (hh : Hidden name)
    (ht : ∀ rest, touch (entryAt name ++ rest)) (hdir : d.get (entryAt name) = some (ownDirectory uid))
    (hholds : Holds crates uid candidate name d) : Transition crates uid known touch d d' := by
  intro hd
  have hvisible := (hnamed candidate hk).1
  have hname : name ≠ candidate.closure.canonicalDigest := fun he => hvisible (he ▸ hh)
  have hne : entryAt name ≠ entryAt candidate.closure.canonicalDigest := by simpa [entryAt] using hname
  obtain ⟨node, hnode, h1, h2, hparent, hrep, rfl⟩ := Disk.rename_ok hr hne
  rw [hdir] at hnode
  cases hnode
  have hget := Disk.get_move (d := d) h1 h2
  have hlen : (entryAt candidate.closure.canonicalDigest).length = (entryAt name).length := rfl
  -- an existing entry is never empty, so the rename can only have created it
  have hnone : d.get (entryAt candidate.closure.canonicalDigest) = none := by
    cases hg : d.get (entryAt candidate.closure.canonicalDigest) with
    | none => rfl
    | some other =>
      obtain ⟨rfl, other, -, -, hfull⟩ := hd.entries _ _ hvisible hg
      rw [hg] at hrep
      unfold replaces at hrep
      split_ifs at hrep with hempty
      have := Disk.get_of_childless hempty (List.prefix_append _ [utf8 "tree.bin"]) (by simp)
      rw [show entryAt candidate.closure.canonicalDigest ++ [utf8 "tree.bin"] =
        entryFile candidate.closure.canonicalDigest "tree.bin" from rfl, hfull.tree] at this
      cases this
  have hnodir : d.isDirectory (entryAt candidate.closure.canonicalDigest) =
    false := by simp [Disk.isDirectory, hnone]
  have hbelow : ∀ path, entryAt candidate.closure.canonicalDigest <+: path → d.get path = none := by
    rintro path ⟨rest, rfl⟩
    by_cases hrest : rest = []
    · rw [hrest, List.append_nil, hnone]
    · exact get_below hd.closed hnodir rest hrest
  have hmoved : ∀ rest, (d.move (entryAt name) (entryAt candidate.closure.canonicalDigest)).get
      (entryAt candidate.closure.canonicalDigest ++ rest) = d.get (entryAt name ++ rest) := by
    intro rest
    rw [hget, if_pos (List.prefix_append _ _), List.drop_left']
    rfl
  have hother : ∀ path, ¬ Staged path → ¬ entryAt candidate.closure.canonicalDigest <+: path →
      (d.move (entryAt name) (entryAt candidate.closure.canonicalDigest)).get path = d.get path := by
    intro path hp hpre
    rw [hget, if_neg hpre, if_neg]
    rintro ⟨rest, rfl⟩
    exact hp ⟨name, by simp [entryAt], hh⟩
  have hclosed : ∀ path c n, (d.move (entryAt name) (entryAt candidate.closure.canonicalDigest)).get
      (path ++ [c]) = some n → (d.move (entryAt name) (entryAt candidate.closure.canonicalDigest)).isDirectory
      path = true := by
    intro path c n hg
    by_cases hpre : entryAt candidate.closure.canonicalDigest <+: path ++ [c]
    · rcases List.prefix_concat_iff.mp hpre with heq | hpre
      · -- the entry itself: its parent is the directory that holds both names
        obtain ⟨rfl, -⟩ := List.append_inj' (show derivedDirectory ++
          [candidate.closure.canonicalDigest] = path ++ [c] from heq) rfl
        obtain ⟨st, hst⟩ := isDirectory_iff.mp hparent
        refine isDirectory_iff.mpr ⟨st, ?_⟩
        rw [hother _ (by decide) fun hp => by simpa [entryAt, derivedDirectory] using hp.length_le]
        exact hst
      · obtain ⟨rest, rfl⟩ := hpre
        rw [List.append_assoc, hmoved, ← List.append_assoc] at hg
        obtain ⟨st, hst⟩ := isDirectory_iff.mp (hd.closed _ _ _ hg)
        exact isDirectory_iff.mpr ⟨st, by rw [hmoved, hst]⟩
    · rw [hget, if_neg hpre] at hg
      split_ifs at hg with hsrc
      obtain ⟨st, hst⟩ := isDirectory_iff.mp (hd.closed _ _ _ hg)
      refine isDirectory_iff.mpr ⟨st, ?_⟩
      rw [hget, if_neg, if_neg, hst]
      · exact fun hp => hsrc (hp.trans (List.prefix_append _ _))
      · exact fun hp => hpre (hp.trans (List.prefix_append _ _))
  have howned : ∀ path n, (d.move (entryAt name) (entryAt candidate.closure.canonicalDigest)).get path = some n →
      Private uid n := by
    intro path n hg
    rw [hget] at hg
    split_ifs at hg
    · exact hd.owned _ n hg
    · exact hd.owned _ n hg
  have hfiles : Holds crates uid candidate candidate.closure.canonicalDigest
      (d.move (entryAt name) (entryAt candidate.closure.canonicalDigest)) := by
    obtain ⟨lockBytes, h3, h4, h5⟩ := hholds.lock
    exact ⟨(hmoved [utf8 "tree.bin"]).trans hholds.tree, (hmoved [utf8 "template.cpio"]).trans hholds.template,
      lockBytes, h3, h4, (hmoved [utf8 "lock.json"]).trans h5⟩
  have hagree := consistent_of_additions hnamed hd hclosed howned fun path hp => by
    by_cases hpre : entryAt candidate.closure.canonicalDigest <+: path
    · refine .inr ⟨hbelow path hpre, .inr (.inr (.inl ⟨candidate, hk, hpre, ?_, hfiles⟩))⟩
      have := hmoved []
      rwa [List.append_nil, List.append_nil, hdir] at this
    · exact .inl (hother path hp hpre)
  refine ⟨hagree.1, fun other hother' path hb hn => ?_, hagree.2⟩
  rw [hget, if_neg (hb.not_entry hother' hvisible), if_neg]
  rintro ⟨rest, rfl⟩
  exact hn (ht rest)

end Transitions

end SimFerret.Store
