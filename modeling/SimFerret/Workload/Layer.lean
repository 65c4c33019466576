import SimFerret.Workload.Tree

/-!
# SimFerret.Workload.Layer — whiteouts, opaque markers and layer application (`workload/oci.rs`)

`splitMarker` and `applyLayer` are the functions of the source; the passes of `apply_layer` have names of their own
(`splitMembers`, `checkMarkers`, `removeMarked`, `addMember`, `checkOpaque`).

* `layerMeaning`: what the OCI overlay says the layered view holds, path by path.
* `applyLayer_overlay`: an accepted layer over a closed tree gives exactly `layerMeaning`.
* `closed_applyLayer`: an accepted layer keeps the tree closed under proper ancestors.
* `applyLayer_keeps_iff`: no addition is lost if and only if no non-directory addition is above another.
* `applyLayer_perm`: the order of the archive's members is not significant.
-/

namespace SimFerret.Workload

open Hierarchy

/-- One parsed archive member. -/
structure Member where
  name : Bytes
  entry : Entry
deriving DecidableEq, Repr

inductive Marker where
  | whiteout (target : Bytes)
  | opaqueDir (target : Bytes)
deriving DecidableEq, Repr

def markerPrefix : Bytes := ".wh."
def opaqueBase : Bytes := ".wh..wh..opq"

def isEmptyFile (entry : Entry) : Bool := entry.data.all List.isEmpty

/-- The parts of a member name that name something. -/
def nameComponents (name : Bytes) : List Bytes :=
  (name.splitOn slash).filter fun part => !part.isEmpty && part != rootPath

/-- Classify a member by its basename. -/
def splitMarker (member : Member) : IoResult (Option Marker) :=
  match (nameComponents member.name).getLast? with
  | none => .ok none
  | some base =>
    if (nameComponents member.name).dropLast.any (markerPrefix.isPrefixOf ·) then
      .error (invalid "a whiteout marker is not a basename")
    else
      let parent := (parentOf member.name).getD rootPath
      if base = opaqueBase then
        if member.entry.kind ≠ .file ∨ isEmptyFile member.entry = false then
          .error (invalid "an opaque marker must be an empty regular file")
        else .ok (some (.opaqueDir parent))
      else if markerPrefix.isPrefixOf base then
        if member.entry.kind ≠ .file ∨ isEmptyFile member.entry = false then
          .error (invalid "a whiteout marker must be an empty regular file")
        else
          let target := base.drop 4
          if target = [] ∨ target = rootPath ∨ target = utf8 ".." ∨ slash ∈ target ∨ 0 ∈ target then
            .error (invalid "invalid whiteout marker target")
          else .ok (some (.whiteout (joinPath parent target)))
      else .ok none

/-- The first loop of `apply_layer`: duplicates are refused, markers and additions are told apart. -/
def splitMembers : List Bytes → List Member → IoResult (List Marker × List Member)
  | _, [] => .ok ([], [])
  | seen, member :: rest =>
    if member.name ∈ seen then .error (invalid "a layer contains duplicate normalized paths")
    else do
      let marker ← splitMarker member
      let (markers, additions) ← splitMembers (member.name :: seen) rest
      match marker with
      | none => pure (markers, member :: additions)
      | some marker => pure (marker :: markers, additions)

/-- The directories that the additions of a layer bring themselves. -/
def providedDirectories (additions : List Member) : List Bytes :=
  additions.flatMap fun member =>
    (if member.entry.kind = .directory then [member.name] else []) ++ ancestors member.name

/-- The paths a marker traverses; an opaque marker applies to its target directory itself. -/
def Marker.chain : Marker → List Bytes
  | .whiteout target => ancestors target
  | .opaqueDir target => target :: ancestors target

/-- A marker may not traverse a lower symbolic link that this layer does not replace by a directory. -/
def checkMarkers (tree : Tree) (additions : List Member) (markers : List Marker) : IoResult Unit :=
  require (markers.all fun marker => marker.chain.all fun ancestor =>
      (tree.get ancestor).all (·.kind != .symlink) || (providedDirectories additions).contains ancestor)
    (invalid "a layer marker traverses a symbolic link")

def removeMarked (tree : Tree) : Marker → Tree
  | .whiteout target => tree.removeSubtree target
  | .opaqueDir target => tree.removeChildren target

/-- One round of the loop over the additions. -/
def addMember (tree : Tree) (member : Member) : IoResult Tree := do
  require ((ancestors member.name).all fun ancestor => (tree.get ancestor).all (·.kind == .directory))
    (invalid "a layer path traverses a non-directory ancestor")
  let tree := (ancestors member.name).foldl Tree.insertDefaultDirectory tree
  let existing : Option EntryKind := (tree.get member.name).map Entry.kind
  let tree : Tree :=
    match member.entry.kind with
    | .directory =>
      if existing.isSome ∧ existing ≠ some .directory then tree.removeSubtree member.name else tree
    | _ => if existing = some .directory then tree.removeSubtree member.name else tree
  pure (tree.insert member.name member.entry)

/-- Opacity is checked after the additions. -/
def checkOpaque (tree : Tree) (markers : List Marker) : IoResult Unit :=
  require (markers.all fun
      | .whiteout _ => true
      | .opaqueDir target => (tree.get target).all (·.kind == .directory))
    (invalid "an opaque marker targets a non-directory entry")

def applyLayer (tree : Tree) (members : List Member) : IoResult Tree := do
  let (markers, additions) ← splitMembers [] members
  checkMarkers tree additions markers
  let tree ← additions.foldlM addMember (markers.foldl removeMarked tree)
  checkOpaque tree markers
  pure tree

/-! ## The passes -/

/-- A member that `splitMarker` does not classify as a marker. -/
def Member.IsAddition (member : Member) : Prop := splitMarker member = .ok none

instance (member : Member) : Decidable member.IsAddition :=
  match h : splitMarker member with
  | .ok none => .isTrue h
  | .ok (some _) => .isFalse (by simp [Member.IsAddition, h])
  | .error _ => .isFalse (by simp [Member.IsAddition, h])

/-- The marker of a member, if it is one. -/
def Member.marker? (member : Member) : Option Marker :=
  match splitMarker member with
  | .ok marker => marker
  | .error _ => none

def additionsOf (members : List Member) : List Member := members.filter fun m => decide m.IsAddition

def markersOf (members : List Member) : List Marker := members.filterMap Member.marker?

/-- An accepted first loop gives the additions and the markers in archive order, and distinct names. -/
theorem splitMembers_ok : ∀ {seen : List Bytes} {members additions : List Member} {markers : List Marker},
    splitMembers seen members = .ok (markers, additions) →
      markers = markersOf members ∧ additions = additionsOf members ∧
        (members.map Member.name).Nodup ∧ ∀ m ∈ members, m.name ∉ seen
  | seen, [], additions, markers, h => by
    cases h
    simp [markersOf, additionsOf]
  | seen, member :: rest, additions, markers, h => by
    unfold splitMembers at h
    split_ifs at h with hseen
    obtain ⟨marker, hmarker, h⟩ := bind_eq_ok.mp h
    obtain ⟨⟨ms, as⟩, hrest, h⟩ := bind_eq_ok.mp h
    obtain ⟨hm, ha, hnd, hdisj⟩ := splitMembers_ok hrest
    have hnames : ((member :: rest).map Member.name).Nodup ∧ ∀ m ∈ member :: rest, m.name ∉ seen := by
      rw [List.map_cons, List.nodup_cons]
      refine ⟨⟨fun hmem => ?_, hnd⟩, fun m hm => ?_⟩
      · obtain ⟨m, hm, hname⟩ := List.mem_map.mp hmem
        exact hdisj m hm (by simp [hname])
      · rcases List.mem_cons.mp hm with rfl | hm
        · exact hseen
        · exact fun hs => hdisj m hm (List.mem_cons_of_mem _ hs)
    cases marker with
    | none =>
      have hadd : member.IsAddition := hmarker
      rw [pure_eq_ok, Prod.mk.injEq] at h
      obtain ⟨rfl, rfl⟩ := h
      refine ⟨?_, ?_, hnames⟩
      · simp [markersOf, Member.marker?, hmarker, hm]
      · simp [additionsOf, hadd, ha]
    | some marker =>
      have hadd : ¬ member.IsAddition := by simp [Member.IsAddition, hmarker]
      rw [pure_eq_ok, Prod.mk.injEq] at h
      obtain ⟨rfl, rfl⟩ := h
      refine ⟨?_, ?_, hnames⟩
      · simp [markersOf, Member.marker?, hmarker, hm]
      · simp [additionsOf, hadd, ha]

/-- The additions of a layer as paths with their entries. -/
def pairsOf (additions : List Member) : List (Bytes × Entry) := additions.map fun m => (m.name, m.entry)

theorem pairsOf_names (additions : List Member) :
    (pairsOf additions).map Prod.fst = additions.map Member.name := by
  simp [pairsOf]

/-- One accepted round of the loop is one accepted addition of the hierarchy. -/
theorem addMember_ok {tree tree' : Tree} {member : Member} (h : addMember tree member = .ok tree') :
    Accepts Below Entry.IsDir member.name tree.view ∧
      tree'.view = add Below Entry.IsDir Entry.defaultDirectory member.name member.entry tree.view := by
  unfold addMember at h
  obtain ⟨_, hacc, h⟩ := bind_eq_ok.mp h
  rw [require_eq_ok, List.all_eq_true] at hacc
  rw [pure_eq_ok] at h
  have haccepts : Accepts Below Entry.IsDir member.name tree.view := by
    intro a ha x hx
    have := hacc a ha
    rw [show tree.get a = some x from hx] at this
    simpa [Entry.IsDir] using this
  refine ⟨haccepts, ?_⟩
  set filled := (ancestors member.name).foldl Tree.insertDefaultDirectory tree with hfilled
  have hview : filled.view = fillAncestors Below Entry.defaultDirectory member.name tree.view :=
    Tree.view_insertAncestors member.name _ tree (fun a ha => ha) (fun a ha => .inl ha)
  -- the two arms of the source drop the subtree exactly when the kinds clash
  have hevict : ∀ kept : Tree,
      (kept = match member.entry.kind with
        | .directory =>
          if ((filled.get member.name).map Entry.kind).isSome ∧
              (filled.get member.name).map Entry.kind ≠ some .directory then
            filled.removeSubtree member.name else filled
        | _ => if (filled.get member.name).map Entry.kind = some .directory then
            filled.removeSubtree member.name else filled) →
      kept.view = evict Below Entry.IsDir member.name member.entry filled.view := by
    rintro kept rfl
    unfold evict Clash
    cases hx : filled.get member.name with
    | none =>
      have hnone : filled.view member.name = none := hx
      cases member.entry.kind <;> simp [hnone]
    | some x =>
      have hsome : filled.view member.name = some x := hx
      cases hk : member.entry.kind <;> cases hkx : x.kind <;>
        simp [hsome, Entry.IsDir, hk, hkx, Tree.view_removeSubtree]
  subst h
  funext p
  unfold add
  rw [← hview, ← hevict _ rfl]
  show (Tree.insert _ _ _).get p = _
  rw [Tree.get_insert]
  by_cases hp : p = member.name
  · simp [hp]
  · rw [if_neg (fun h => hp h.symm), if_neg hp]
    rfl

/-- The accepted loop over the additions is an accepted list of additions. -/
theorem foldlM_addMember {m : View Bytes Entry} : ∀ {additions done : List Member} {tree tree' : Tree},
    Added Below Entry.IsDir Entry.defaultDirectory m (pairsOf done) tree.view →
    additions.foldlM addMember tree = .ok tree' →
      Added Below Entry.IsDir Entry.defaultDirectory m (pairsOf (done ++ additions)) tree'.view
  | [], done, tree, tree', hdone, h => by
    rw [List.foldlM_nil, pure_eq_ok] at h
    rw [List.append_nil, ← h]
    exact hdone
  | member :: rest, done, tree, tree', hdone, h => by
    rw [List.foldlM_cons] at h
    obtain ⟨mid, hmid, h⟩ := bind_eq_ok.mp h
    obtain ⟨hacc, hview⟩ := addMember_ok hmid
    have hstep : Added Below Entry.IsDir Entry.defaultDirectory m (pairsOf (done ++ [member])) mid.view := by
      rw [hview, pairsOf, List.map_append]
      exact .snoc hdone hacc
    have := foldlM_addMember hstep h
    rwa [List.append_assoc, List.singleton_append] at this

/-- What a marker removes from the lower view. -/
def Marker.Removes : Marker → Bytes → Prop
  | .whiteout target, p => p = target ∨ Below target p
  | .opaqueDir target, p => Below target p

instance : ∀ (marker : Marker) (p : Bytes), Decidable (marker.Removes p)
  | .whiteout target, p => inferInstanceAs (Decidable (p = target ∨ Below target p))
  | .opaqueDir target, p => inferInstanceAs (Decidable (Below target p))

theorem view_removeMarked (tree : Tree) (marker : Marker) (p : Bytes) :
    (removeMarked tree marker).view p = if marker.Removes p then none else tree.view p := by
  cases marker with
  | whiteout target =>
    rw [removeMarked, Tree.view_removeSubtree, dropSubtree]
    simp only [Marker.Removes]
    congr
  | opaqueDir target =>
    rw [removeMarked, Tree.view_removeChildren, dropChildren]
    simp only [Marker.Removes]
    congr

/-- The marker loop removes what some marker removes. -/
theorem view_removeMarkers (p : Bytes) : ∀ (markers : List Marker) (tree : Tree),
    (markers.foldl removeMarked tree).view p =
      if ∃ marker ∈ markers, marker.Removes p then none else tree.view p
  | [], tree => by simp
  | marker :: markers, tree => by
    rw [List.foldl_cons, view_removeMarkers p markers, view_removeMarked]
    by_cases h1 : marker.Removes p
    · simp [h1]
    · simp [h1]

/-- Every entry's proper ancestors are present and are directories. -/
def Tree.Closed (tree : Tree) : Prop := Hierarchy.Closed Below Entry.IsDir tree.view

theorem closed_removeMarkers : ∀ {markers : List Marker} {tree : Tree}, tree.Closed →
    (markers.foldl removeMarked tree).Closed
  | [], _, h => h
  | .whiteout target :: markers, tree, h => by
    rw [List.foldl_cons]
    apply closed_removeMarkers
    show Hierarchy.Closed _ _ (tree.removeSubtree target).view
    rw [Tree.view_removeSubtree]
    exact closed_dropSubtree h target
  | .opaqueDir target :: markers, tree, h => by
    rw [List.foldl_cons]
    apply closed_removeMarkers
    show Hierarchy.Closed _ _ (tree.removeChildren target).view
    rw [Tree.view_removeChildren]
    exact closed_dropChildren h target

/-- An accepted layer: distinct names, the markers removed from the lower tree, then the additions one by one. -/
theorem applyLayer_ok {lower tree : Tree} {members : List Member} (h : applyLayer lower members = .ok tree) :
    (members.map Member.name).Nodup ∧
      Added Below Entry.IsDir Entry.defaultDirectory ((markersOf members).foldl removeMarked lower).view
        (pairsOf (additionsOf members)) tree.view := by
  unfold applyLayer at h
  obtain ⟨⟨markers, additions⟩, hsplit, h⟩ := bind_eq_ok.mp h
  obtain ⟨_, -, h⟩ := bind_eq_ok.mp h
  obtain ⟨tree', hadd, h⟩ := bind_eq_ok.mp h
  obtain ⟨_, -, h⟩ := bind_eq_ok.mp h
  rw [pure_eq_ok] at h
  subst h
  obtain ⟨rfl, rfl, hnd, -⟩ := splitMembers_ok hsplit
  exact ⟨hnd, @foldlM_addMember _ _ [] _ _ .nil hadd⟩

theorem closed_applyLayer {lower tree : Tree} {members : List Member} (hlower : lower.Closed)
    (h : applyLayer lower members = .ok tree) : tree.Closed :=
  (applyLayer_ok h).2.closed Entry.isDir_defaultDirectory (closed_removeMarkers hlower)

/-! ## What a layer means -/

/-- `p` is not below a non-directory addition of the layer. -/
def Unshadowed (members : List Member) (p : Bytes) : Prop :=
  ∀ a ∈ additionsOf members, ¬ a.entry.IsDir → ¬ Below a.name p

instance (members : List Member) (p : Bytes) : Decidable (Unshadowed members p) :=
  inferInstanceAs (Decidable (∀ a ∈ additionsOf members, ¬ a.entry.IsDir → ¬ Below a.name p))

/-- The OCI overlay: the addition at `p`; else the lower entry that no marker removes and no non-directory addition
shadows; else an implicit directory above an addition; else nothing. -/
def layerMeaning (lower : Tree) (members : List Member) (p : Bytes) : Option Entry :=
  match (additionsOf members).find? (·.name == p) with
  | some addition => some addition.entry
  | none =>
    if (lower.get p).isSome ∧ (¬ ∃ marker ∈ markersOf members, marker.Removes p) ∧ Unshadowed members p then
      lower.get p
    else if ∃ a ∈ additionsOf members, Below p a.name then some Entry.defaultDirectory
    else none

/-- No non-directory addition is a proper ancestor of another addition. -/
def SeparatedLayer (members : List Member) : Prop :=
  ∀ a ∈ members, ∀ b ∈ members, a.IsAddition → b.IsAddition → Below a.name b.name → a.entry.IsDir

instance (members : List Member) : Decidable (SeparatedLayer members) :=
  inferInstanceAs (Decidable (∀ a ∈ members, ∀ b ∈ members, a.IsAddition → b.IsAddition → Below a.name b.name →
    a.entry.IsDir))

theorem mem_additionsOf {members : List Member} {m : Member} :
    m ∈ additionsOf members ↔ m ∈ members ∧ m.IsAddition := by
  simp [additionsOf]

theorem SeparatedLayer.pairs {members : List Member} (h : SeparatedLayer members) :
    Separated Below Entry.IsDir (pairsOf (additionsOf members)) := by
  intro a ha b hb hbelow
  obtain ⟨ma, hma, rfl⟩ := List.mem_map.mp ha
  obtain ⟨mb, hmb, rfl⟩ := List.mem_map.mp hb
  obtain ⟨h1, h2⟩ := mem_additionsOf.mp hma
  obtain ⟨h3, h4⟩ := mem_additionsOf.mp hmb
  exact h ma h1 mb h3 h2 h4 hbelow

/-- The declarative reading is the overlay of the additions over what the markers leave. -/
theorem overlay_eq_layerMeaning {lower : Tree} {members : List Member}
    (hnd : ((additionsOf members).map Member.name).Nodup) (p : Bytes) :
    overlay Below Entry.IsDir Entry.defaultDirectory (pairsOf (additionsOf members))
        ((markersOf members).foldl removeMarked lower).view p =
      layerMeaning lower members p := by
  unfold layerMeaning
  cases hf : (additionsOf members).find? (·.name == p) with
  | some a =>
    have hname : a.name = p := by simpa using List.find?_some hf
    exact overlay_of_mem (pairsOf_names _ ▸ hnd)
      (List.mem_map.mpr ⟨a, List.mem_of_find?_eq_some hf, by rw [hname]⟩)
  | none =>
    have hp : p ∉ (pairsOf (additionsOf members)).map Prod.fst := by
      rw [pairsOf_names]
      intro hmem
      obtain ⟨a, ha, rfl⟩ := List.mem_map.mp hmem
      simpa using List.find?_eq_none.mp hf a ha
    have hclear : Clear Below Entry.IsDir (pairsOf (additionsOf members)) p ↔ Unshadowed members p := by
      simp [Clear, Unshadowed, pairsOf]
    have himp : (∃ a ∈ pairsOf (additionsOf members), Below p a.1) ↔
        ∃ a ∈ additionsOf members, Below p a.name := by
      simp [pairsOf]
    rw [overlay_of_not_mem hp, view_removeMarkers]
    simp only [hclear, himp]
    show (if _ then _ else _) = (if _ then lower.view p else _)
    by_cases hrm : ∃ marker ∈ markersOf members, marker.Removes p
    · simp [hrm]
    · simp only [hrm, if_false, not_false_eq_true, true_and]
      rfl

/-- **Layer application is the OCI overlay.** -/
theorem applyLayer_overlay {lower tree : Tree} {members : List Member} (hlower : lower.Closed)
    (h : applyLayer lower members = .ok tree) (hsep : SeparatedLayer members) :
    (∀ p, tree.get p = layerMeaning lower members p) ∧
      ∀ m ∈ members, m.IsAddition → tree.get m.name = some m.entry := by
  obtain ⟨hnd, hadded⟩ := applyLayer_ok h
  have hnd' : ((additionsOf members).map Member.name).Nodup :=
    hnd.sublist (List.Sublist.map _ List.filter_sublist)
  have hview := hadded.eq_overlay Entry.isDir_defaultDirectory (closed_removeMarkers hlower) hsep.pairs
    (pairsOf_names _ ▸ hnd')
  have hmeaning : ∀ p, tree.get p = layerMeaning lower members p := fun p =>
    (congrFun hview p).trans (overlay_eq_layerMeaning hnd' p)
  refine ⟨hmeaning, fun m hm hadd => ?_⟩
  -- the name of an addition is found, and distinct names leave no other member under it
  have hmem := mem_additionsOf.mpr ⟨hm, hadd⟩
  rw [hmeaning m.name, ← overlay_eq_layerMeaning hnd']
  exact overlay_of_mem (pairsOf_names _ ▸ hnd') (List.mem_map.mpr ⟨m, hmem, rfl⟩)

/-- **Archive order is not significant**: two accepted orders of the same members over a closed tree give one
tree. -/
theorem applyLayer_perm {lower tree tree' : Tree} {members members' : List Member} (hlower : lower.Closed)
    (hperm : members.Perm members') (h : applyLayer lower members = .ok tree)
    (h' : applyLayer lower members' = .ok tree') : tree = tree' := by
  obtain ⟨hnd, hadded⟩ := applyLayer_ok h
  obtain ⟨-, hadded'⟩ := applyLayer_ok h'
  -- the markers remove the same part of the lower tree in either order
  have hmarked : ((markersOf members').foldl removeMarked lower).view =
      ((markersOf members).foldl removeMarked lower).view := by
    funext p
    have hmem : ∀ marker, marker ∈ markersOf members' ↔ marker ∈ markersOf members :=
      fun marker => (hperm.filterMap Member.marker?).symm.mem_iff
    rw [view_removeMarkers, view_removeMarkers]
    simp only [hmem]
  rw [hmarked] at hadded'
  have hadditions : (pairsOf (additionsOf members)).Perm (pairsOf (additionsOf members')) := by
    unfold pairsOf additionsOf
    exact (hperm.filter _).map _
  have hnames : ((pairsOf (additionsOf members)).map Prod.fst).Nodup := by
    rw [pairsOf_names]
    exact hnd.sublist (List.Sublist.map _ List.filter_sublist)
  have hview := Added.perm (fun _ _ _ => below_forest) Entry.isDir_defaultDirectory hadditions hadded hadded'
    (closed_removeMarkers hlower) hnames
  exact Tree.ext fun path => congrFun hview path

/-- **An accepted layer loses no addition** if and only if none of its non-directories is a proper ancestor of
another of its additions. -/
theorem applyLayer_keeps_iff {lower tree : Tree} {members : List Member}
    (h : applyLayer lower members = .ok tree) : (∀ m ∈ members, m.IsAddition → tree.get m.name = some m.entry) ↔
    SeparatedLayer members := by
  obtain ⟨hnd, hadded⟩ := applyLayer_ok h
  have hnames : ((pairsOf (additionsOf members)).map Prod.fst).Nodup := by
    rw [pairsOf_names]
    exact hnd.sublist (List.Sublist.map _ List.filter_sublist)
  have hkept : (∀ m ∈ members, m.IsAddition → tree.get m.name = some m.entry) ↔
      ∀ b ∈ pairsOf (additionsOf members), tree.view b.1 = some b.2 := by
    simp only [pairsOf, List.forall_mem_map, mem_additionsOf, and_imp]
    rfl
  have hseparated : Separated Below Entry.IsDir (pairsOf (additionsOf members)) ↔ SeparatedLayer members := by
    refine ⟨fun hs a ha b hb haa hba hab => ?_, SeparatedLayer.pairs⟩
    exact hs (a.name, a.entry) (List.mem_map_of_mem (mem_additionsOf.mpr ⟨ha, haa⟩)) (b.name, b.entry)
      (List.mem_map_of_mem (mem_additionsOf.mpr ⟨hb, hba⟩)) hab
  rw [hkept, ← hseparated]
  exact hadded.keeps_iff Entry.isDir_defaultDirectory hnames

theorem closed_new : Tree.new.Closed := by
  intro p e hp
  rw [show Tree.new.view p = none from Tree.get_new p] at hp
  simp at hp

/-- A base layer with a directory, two files in it and a file in an implicit directory. -/
def sampleBase : List Member :=
  [⟨utf8 "etc", Entry.directory 0o750 0 0 0⟩, ⟨utf8 "etc/old", Entry.file [1] 0o644 0 0 0⟩,
    ⟨utf8 "etc/keep", Entry.file [2] 0o644 0 0 0⟩, ⟨utf8 "bin/app", Entry.file [3] 0o755 0 0 0⟩]

/-- A layer that whites out a file it adds again, and replaces a directory by a file. -/
def sampleLayer : List Member :=
  [⟨utf8 "etc/old", Entry.file [4] 0o600 0 0 0⟩, ⟨utf8 "etc/.wh.old", Entry.file [] 0o644 0 0 0⟩,
    ⟨utf8 "bin", Entry.file [5] 0o644 0 0 0⟩, ⟨utf8 "usr/lib/x", Entry.file [6] 0o644 0 0 0⟩]

def sampleLower : Tree := (applyLayer Tree.new sampleBase).toOption.getD Tree.new

theorem sampleLower_ok : applyLayer Tree.new sampleBase = .ok sampleLower := by
  obtain ⟨tree, h⟩ := exists_eq_ok (show (applyLayer Tree.new sampleBase).isOk = true by decide +kernel)
  rw [sampleLower, h]
  rfl

theorem applyLayer_overlay_sample :
    sampleLower.Closed ∧ SeparatedLayer sampleLayer ∧ ∃ tree, applyLayer sampleLower sampleLayer = .ok tree ∧
      tree.get (utf8 "etc/old") = some (Entry.file [4] 0o600 0 0 0) ∧
      tree.get (utf8 "etc/keep") = some (Entry.file [2] 0o644 0 0 0) ∧
      tree.get (utf8 "bin/app") = none ∧ tree.get (utf8 "usr/lib") = some Entry.defaultDirectory := by
  have hclosed : sampleLower.Closed := closed_applyLayer closed_new sampleLower_ok
  have hsep : SeparatedLayer sampleLayer := by decide +kernel
  obtain ⟨tree, h⟩ := exists_eq_ok (show (applyLayer sampleLower sampleLayer).isOk = true by decide +kernel)
  have hget := (applyLayer_overlay hclosed h hsep).1
  refine ⟨hclosed, hsep, tree, h, ?_, ?_, ?_, ?_⟩
  · rw [hget]; decide +kernel
  · rw [hget]; decide +kernel
  · rw [hget]; decide +kernel
  · rw [hget]; decide +kernel

/-- The members of the sample layer, its marker and its additions in another order. -/
theorem applyLayer_perm_sample : ∃ tree tree', applyLayer sampleLower sampleLayer = .ok tree ∧
    applyLayer sampleLower sampleLayer.reverse = .ok tree' ∧ tree = tree' := by
  have hclosed : sampleLower.Closed := closed_applyLayer closed_new sampleLower_ok
  obtain ⟨tree, h⟩ := exists_eq_ok (show (applyLayer sampleLower sampleLayer).isOk = true by decide +kernel)
  obtain ⟨tree', h'⟩ := exists_eq_ok (show (applyLayer sampleLower sampleLayer.reverse).isOk =
    true by decide +kernel)
  exact ⟨tree, tree', h, h', applyLayer_perm hclosed (List.reverse_perm sampleLayer).symm h h'⟩

theorem applyLayer_keeps_sample : ∃ tree, applyLayer sampleLower sampleLayer = .ok tree ∧
    ∀ m ∈ sampleLayer, m.IsAddition → tree.get m.name = some m.entry := by
  obtain ⟨tree, h⟩ := exists_eq_ok (show (applyLayer sampleLower sampleLayer).isOk = true by decide +kernel)
  exact ⟨tree, h, (applyLayer_keeps_iff h).mpr (by decide +kernel)⟩

/-- A file in a directory that the layer does not name, and then a file in the place of the directory. -/
def shadowingLayer : List Member :=
  [⟨utf8 "etc/old", Entry.file [1] 0o644 0 0 0⟩, ⟨utf8 "etc", Entry.file [2] 0o644 0 0 0⟩]

/-- The layer is accepted and its first member is lost; in the other order it is refused. -/
theorem applyLayer_loses : (applyLayer sampleLower shadowingLayer.reverse).isOk = false ∧
    ¬ ∀ (lower tree : Tree) (members : List Member), applyLayer lower members = .ok tree →
      ∀ m ∈ members, m.IsAddition → tree.get m.name = some m.entry := by
  refine ⟨by decide +kernel, fun hclaim => ?_⟩
  obtain ⟨tree, h⟩ := exists_eq_ok (show (applyLayer sampleLower shadowingLayer).isOk = true by decide +kernel)
  have hkept := hclaim _ _ _ h ⟨utf8 "etc/old", Entry.file [1] 0o644 0 0 0⟩ (by decide) (by decide +kernel)
  have hlost : (applyLayer sampleLower shadowingLayer).toOption.bind (·.get (utf8 "etc/old")) = none := by
    decide +kernel
  rw [h] at hlost
  have hnone : tree.get (utf8 "etc/old") = none := hlost
  rw [hkept] at hnone
  cases hnone

end SimFerret.Workload
