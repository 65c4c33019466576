import Mathlib.Data.List.Infix
import SimFerret.Workload.Path

/-!
# SimFerret.Workload.PathLaws — paths as lists of components

A canonical path is its components joined by separators, and the root is the path of none.  The functions on
byte strings are then functions on lists: `normalize_layer_path` filters, `parent_of` drops the last component,
`ancestors` goes through the prefixes.

* `joinComponents`, with `joinComponents_components` and `components_joinComponents`: the two ways round.
* `ancestors_joinComponents`: the chain of the parents.
* `normalizeLayerPath_laws`: **normalization, the chain and the join agree with the components**.
-/

namespace SimFerret.Workload

/-- The path with these components. -/
def joinComponents (parts : List Bytes) : Bytes := if parts = [] then rootPath else [slash].intercalate parts

/-- The components of a raw path that are kept. -/
def keptComponents (raw : Bytes) : List Bytes := (raw.splitOn slash).filter fun part => part ≠ [] ∧ part ≠ rootPath

/-- The byte strings of the proper prefixes of a list of components, from the longest to the one of one
component. -/
def properPrefixes (parts : List Bytes) : List Bytes := (parts.inits.tail.dropLast.reverse).map [slash].intercalate

/-! ## There and back -/

/-- Plain components, as one gets them from a path. -/
def PlainParts (parts : List Bytes) : Prop := ∀ part ∈ parts, PlainComponent part ∧ slash ∉ part

theorem joinComponents_components (path : Bytes) : joinComponents (components path) = path := by
  by_cases hroot : path = rootPath
  · rw [components, if_pos hroot, hroot]
    rfl
  · rw [components, if_neg hroot, joinComponents, if_neg (List.splitOn_ne_nil slash path)]
    exact List.intercalate_splitOn slash

theorem joinComponents_ne_root {parts : List Bytes} (h : PlainParts parts) (hne : parts ≠ []) :
    joinComponents parts ≠ rootPath := by
  rw [joinComponents, if_neg hne]
  intro heq
  have hsplit := List.splitOn_intercalate slash (fun part hp => (h part hp).2) hne
  have hroot : rootPath.splitOn slash = [rootPath] := by decide
  rw [heq, hroot] at hsplit
  exact (h rootPath (hsplit ▸ List.mem_singleton_self _)).1.2.1 rfl

theorem components_joinComponents {parts : List Bytes} (h : PlainParts parts) :
    components (joinComponents parts) = parts := by
  by_cases hne : parts = []
  · subst hne
    rfl
  · rw [components, if_neg (joinComponents_ne_root h hne), joinComponents, if_neg hne]
    exact List.splitOn_intercalate slash (fun part hp => (h part hp).2) hne

/-- The components of a canonical path are plain. -/
theorem CanonicalPath.plainParts {path : Bytes} (h : CanonicalPath path) : PlainParts (components path) := by
  intro part hpart
  refine ⟨h.plain part hpart, ?_⟩
  rw [components] at hpart
  split_ifs at hpart with hroot
  · exact absurd hpart List.not_mem_nil
  · exact (mem_splitOn hpart).1

/-! ## Normalization -/

/-- The component loop keeps what the filter keeps, and accepts no `..`. -/
theorem layerParts_eq_ok {parts kept : List Bytes} :
    layerParts parts = .ok kept ↔
      kept = (parts.filter fun part => part ≠ [] ∧ part ≠ rootPath) ∧ utf8 ".." ∉ parts := by
  induction parts generalizing kept with
  | nil => simp [layerParts, eq_comm]
  | cons part rest ih =>
    have hdots : utf8 ".." ≠ [] ∧ utf8 ".." ≠ rootPath := by decide
    rw [layerParts]
    split_ifs with hskip hdot
    · have hne : utf8 ".." ≠ part := by
        rintro rfl
        exact hskip.elim hdots.1 hdots.2
      have hfilter : ¬ (part ≠ [] ∧ part ≠ rootPath) := by tauto
      rw [ih, List.filter_cons_of_neg (by simpa using hfilter), List.mem_cons, not_or]
      tauto
    · subst hdot
      constructor
      · intro h
        cases h
      · rintro ⟨-, hnot⟩
        exact absurd List.mem_cons_self hnot
    · have hfilter : part ≠ [] ∧ part ≠ rootPath := not_or.mp hskip
      rw [bind_eq_ok, List.filter_cons_of_pos (by simpa using hfilter), List.mem_cons, not_or]
      constructor
      · rintro ⟨parts, hparts, hkept⟩
        rw [pure_eq_ok] at hkept
        obtain ⟨rfl, hnot⟩ := ih.mp hparts
        exact ⟨hkept.symm, fun h => hdot h.symm, hnot⟩
      · rintro ⟨rfl, -, hnot⟩
        exact ⟨_, ih.mpr ⟨rfl, hnot⟩, rfl⟩

/-- What an accepted path becomes. -/
theorem normalizeLayerPath_eq {raw path : Bytes} (h : normalizeLayerPath raw = .ok path) :
    path = joinComponents (keptComponents raw) ∧ PlainParts (keptComponents raw) := by
  rw [normalizeLayerPath] at h
  split_ifs at h
  obtain ⟨parts, hparts, h⟩ := bind_eq_ok.mp h
  obtain ⟨hkept, hnot⟩ := layerParts_eq_ok.mp hparts
  have hplain : PlainParts parts := by
    intro part hpart
    rw [hkept, List.mem_filter] at hpart
    have hne : part ≠ [] ∧ part ≠ rootPath := by simpa using hpart.2
    refine ⟨⟨hne.1, hne.2, ?_⟩, (mem_splitOn hpart.1).1⟩
    rintro rfl
    exact hnot hpart.1
  dsimp only at h
  split_ifs at h
  all_goals
    rw [pure_eq_ok] at h
    rw [← h, joinComponents, keptComponents, ← hkept]
    exact ⟨by simp_all, hplain⟩

/-- A canonical path is left as it is. -/
theorem normalizeLayerPath_of_canonical {path : Bytes} (h : CanonicalPath path) :
    normalizeLayerPath path = .ok path := by
  have hplain := h.plainParts
  have hempty : path ≠ [] := by
    rintro rfl
    exact (hplain [] (by decide)).1.1 rfl
  have hshort := h.short
  have hparts : layerParts (path.splitOn slash) = .ok (components path) := by
    rw [layerParts_eq_ok, components]
    split_ifs with hroot
    · subst hroot
      decide
    · rw [components, if_neg hroot] at hplain
      refine ⟨(List.filter_eq_self.mpr fun part hpart => ?_).symm, fun hdots => (hplain _ hdots).1.2.2 rfl⟩
      exact decide_eq_true ⟨(hplain part hpart).1.1, (hplain part hpart).1.2.1⟩
  rw [normalizeLayerPath, if_neg (not_or.mpr ⟨hempty, h.noNul⟩), if_neg h.relative, hparts]
  show (if (joinComponents (components path)).length >
    maxPathBytes then _ else pure (joinComponents (components path)))
    = Except.ok path
  rw [joinComponents_components, if_neg (by omega)]
  rfl

/-- The canonical paths are those that normalization leaves as they are. -/
theorem canonicalPath_iff {path : Bytes} : CanonicalPath path ↔ normalizeLayerPath path = .ok path :=
  ⟨normalizeLayerPath_of_canonical, normalizeLayerPath_canonical⟩

/-! ## Parents -/

variable {parts : List Bytes} {part : Bytes}

theorem joinComponents_singleton (part : Bytes) : joinComponents [part] = part := by
  rw [joinComponents, if_neg (List.cons_ne_nil _ _), List.intercalate_singleton]

/-- The last component stands behind the others and a separator. -/
theorem joinComponents_snoc (hne : parts ≠ []) :
    joinComponents (parts ++ [part]) = joinComponents parts ++ slash :: part := by
  rw [joinComponents, joinComponents, if_neg hne,
    if_neg (List.append_ne_nil_of_right_ne_nil _ (List.cons_ne_nil _ _))]
  induction parts with
  | nil => exact absurd rfl hne
  | cons first rest ih =>
    cases rest with
    | nil => simp
    | cons second rest =>
      rw [List.cons_append, List.cons_append, List.intercalate_cons_cons, List.intercalate_cons_cons,
        ← List.cons_append, ih (List.cons_ne_nil _ _)]
      simp only [List.append_assoc]

/-- The parent has all components but the last. -/
theorem parentOf_snoc (h : PlainParts (parts ++ [part])) :
    parentOf (joinComponents (parts ++ [part])) = some (joinComponents parts) := by
  have hpart := h part (List.mem_append_right _ (List.mem_singleton_self part))
  by_cases hne : parts = []
  · subst hne
    rw [List.nil_append, joinComponents_singleton]
    exact parentOf_of_not_mem hpart.1.2.1 hpart.2
  · rw [joinComponents_snoc hne]
    have hmem : slash ∈ joinComponents parts ++ slash :: part := by simp
    obtain ⟨q, r, hsplit, hr, hq⟩ := parentOf_of_mem hmem
    -- Both ways of writing the path split it at its last separator.
    have hsame := congrArg (List.splitOn slash) hsplit
    rw [List.splitOn_append_cons_self, List.splitOn_append_cons_self, List.splitOn_eq_singleton hpart.2,
      List.splitOn_eq_singleton hr] at hsame
    have hfront := congrArg [slash].intercalate (List.append_inj_left' hsame rfl)
    rw [List.intercalate_splitOn, List.intercalate_splitOn] at hfront
    rw [hq, hfront]

/-- The join puts the last component back. -/
theorem joinPath_snoc (h : PlainParts parts) : joinPath (joinComponents parts) part =
    joinComponents (parts ++ [part]) := by
  by_cases hne : parts = []
  · subst hne
    rw [List.nil_append, joinComponents_singleton]
    exact if_pos rfl
  · rw [joinPath, if_neg (joinComponents_ne_root h hne), joinComponents_snoc hne, List.append_assoc,
      List.singleton_append]

/-! ## The chain of the parents -/

/-- The prefixes of a longer list, without the empty one. -/
theorem inits_snoc_tail (parts : List Bytes) (part : Bytes) :
    (parts ++ [part]).inits.tail = parts.inits.tail ++ [parts ++ [part]] := by
  have hne : parts.inits ≠ [] := by cases parts <;> simp
  have hinits : (parts ++ [part]).inits = parts.inits ++ [parts ++ [part]] := by simp
  rw [hinits, List.tail_append_of_ne_nil hne]

theorem properPrefixes_snoc (hne : parts ≠ []) :
    properPrefixes (parts ++ [part]) = joinComponents parts :: properPrefixes parts := by
  obtain ⟨front, last, rfl⟩ := (List.eq_nil_or_concat' parts).resolve_left hne
  rw [properPrefixes, inits_snoc_tail, List.dropLast_concat, properPrefixes, inits_snoc_tail front,
    List.dropLast_concat, List.reverse_append, List.map_append, joinComponents, if_neg hne]
  rfl

/-- The ancestors are the proper prefixes, and then the root. -/
theorem ancestors_joinComponents (h : PlainParts parts) (hne : parts ≠ []) :
    ancestors (joinComponents parts) = properPrefixes parts ++ [rootPath] := by
  induction parts using List.reverseRecOn with
  | nil => exact absurd rfl hne
  | append_singleton parts part ih =>
    have hparts : PlainParts parts := fun p hp => h p (List.mem_append_left _ hp)
    rw [ancestors_eq, parentOf_snoc h]
    by_cases hempty : parts = []
    · subst hempty
      show joinComponents [] :: ancestors rootPath = _
      rw [ancestors_root]
      rfl
    · show joinComponents parts :: ancestors (joinComponents parts) = _
      rw [ih hparts hempty, properPrefixes_snoc hempty, List.cons_append]

theorem components_ne_nil {path : Bytes} (h : path ≠ rootPath) : components path ≠ [] := by
  rw [components, if_neg h]
  exact List.splitOn_ne_nil slash path

/-- The loop ends within as many rounds as the path has bytes, and two more. -/
theorem ancestorsLoop_enough {path : Bytes} {fuel : Nat} (h : path.length + 2 ≤ fuel) :
    ancestorsLoop fuel path = ancestors path := by
  obtain ⟨rest, rfl⟩ : ∃ rest, fuel = rest + 1 := ⟨fuel - 1, by omega⟩
  have hrounds : rounds path ≤ path.length + 1 := by
    rw [rounds]
    split <;> omega
  exact ancestorsLoop_eq rest (path.length + 1) path (by omega) hrounds

/-- **The laws of normalized paths.**

* An accepted path is the root or plain components joined by separators, and normalizing it again changes
  nothing; two accepted inputs become one path exactly when they keep the same components.
* The loop of `ancestors` ends, with the proper component prefixes and then the root; the root has no ancestors.
* Joining a parent and the last component gives the path back. -/
theorem normalizeLayerPath_laws :
    (∀ raw path, normalizeLayerPath raw = .ok path →
      (∃ parts, PlainParts parts ∧ path = joinComponents parts) ∧ normalizeLayerPath path = .ok path) ∧
      (∀ raw raw' path path', normalizeLayerPath raw = .ok path → normalizeLayerPath raw' = .ok path' →
        (path = path' ↔ keptComponents raw = keptComponents raw')) ∧
      (∀ path, CanonicalPath path → ∀ fuel, path.length + 2 ≤ fuel →
        ancestorsLoop fuel path =
          if path = rootPath then [] else properPrefixes (components path) ++ [rootPath]) ∧
      ∀ path, CanonicalPath path → path ≠ rootPath →
        ∃ parent last, parentOf path = some parent ∧ (components path).getLast? = some last ∧
          joinPath parent last = path := by
  refine ⟨fun raw path h => ?_, fun raw raw' path path' h h' => ?_, fun path h fuel hfuel => ?_,
    fun path h hroot => ?_⟩
  · obtain ⟨heq, hplain⟩ := normalizeLayerPath_eq h
    exact ⟨⟨_, hplain, heq⟩, normalizeLayerPath_of_canonical (normalizeLayerPath_canonical h)⟩
  · obtain ⟨rfl, hplain⟩ := normalizeLayerPath_eq h
    obtain ⟨rfl, hplain'⟩ := normalizeLayerPath_eq h'
    constructor
    · intro heq
      rw [← components_joinComponents hplain, heq, components_joinComponents hplain']
    · exact congrArg joinComponents
  · rw [ancestorsLoop_enough hfuel]
    split_ifs with hroot
    · rw [hroot, ancestors_root]
    · have hchain := ancestors_joinComponents h.plainParts (components_ne_nil hroot)
      rwa [joinComponents_components] at hchain
  · have hplain := h.plainParts
    obtain ⟨front, last, hparts⟩ := (List.eq_nil_or_concat' _).resolve_left (components_ne_nil hroot)
    have hpath := joinComponents_components path
    rw [hparts] at hplain hpath
    refine ⟨joinComponents front, last, ?_, ?_, ?_⟩
    · rw [← hpath]
      exact parentOf_snoc hplain
    · rw [hparts, List.getLast?_concat]
    · rw [joinPath_snoc fun part hpart => hplain part (List.mem_append_left _ hpart), hpath]

theorem normalizeLayerPath_laws_sample :
    normalizeLayerPath (utf8 "./usr//lib/") = .ok (utf8 "usr/lib") ∧
      normalizeLayerPath (utf8 "usr/lib") = .ok (utf8 "usr/lib") ∧
      keptComponents (utf8 "./usr//lib/") = keptComponents (utf8 "usr/lib") ∧
      ancestorsLoop 9 (utf8 "usr/lib") =
        (if utf8 "usr/lib" = rootPath then [] else properPrefixes (components (utf8 "usr/lib")) ++ [rootPath]) ∧
      ∃ parent last, parentOf (utf8 "usr/lib") = some parent ∧
        (components (utf8 "usr/lib")).getLast? = some last ∧ joinPath parent last = utf8 "usr/lib" := by
  obtain ⟨hform, hsame, hchain, hjoin⟩ := normalizeLayerPath_laws
  have hraw : normalizeLayerPath (utf8 "./usr//lib/") = .ok (utf8 "usr/lib") := by decide
  have hidem := (hform _ _ hraw).2
  have hcanonical := canonicalPath_iff.mpr hidem
  exact ⟨hraw, hidem, (hsame _ _ _ _ hraw hidem).mp rfl, hchain _ hcanonical 9 (by decide),
    hjoin _ hcanonical (by decide)⟩

/-- The root has no parent, and so no ancestors, not even itself. -/
theorem ancestors_root_not_root :
    CanonicalPath rootPath ∧ ancestors rootPath ≠ properPrefixes (components rootPath) ++ [rootPath] := by
  refine ⟨canonicalPath_root, ?_⟩
  rw [ancestors_root]
  exact (List.cons_ne_nil _ _).symm

end SimFerret.Workload
