import SimFerret.Prelude
import SimFerret.Lib.Hierarchy

/-!
# SimFerret.Workload.Path — normalized in-root paths (`workload/tree.rs`)

Paths are raw bytes, `.` is the root sentinel.  `parentOf`, `ancestors`, `joinPath`, `subtreePrefix` and
`normalizeLayerPath` are the functions of the source.

* `mem_ancestors`: the ancestor chain that the loop builds is the byte-prefix relation the removals test.
* `Below`: the strict order of proper ancestors, for `SimFerret.Lib.Hierarchy`; `below_forest`: its paths form a
  forest.
* `normalizeLayerPath_canonical`: what an accepted layer path looks like.
-/

namespace SimFerret.Workload

/-- `b'/'`. -/
def slash : UInt8 := 47

/-- `ROOT_PATH`. -/
def rootPath : Bytes := "."

def maxPathBytes : Nat := 1024

/-- The prefix that every path below `path` starts with; empty for the root. -/
def subtreePrefix (path : Bytes) : Bytes :=
  if path = rootPath then [] else path ++ [slash]

/-- The parent of a canonical path, or `none` for the root. -/
def parentOf (path : Bytes) : Option Bytes :=
  if path = rootPath then none
  else match rposition (· == slash) path with
    | some index => some (path.take index)
    | none => some rootPath

/-- The loop of `ancestors`, cut off after `fuel` rounds. -/
def ancestorsLoop : Nat → Bytes → List Bytes
  | 0, _ => []
  | fuel + 1, path =>
    match parentOf path with
    | none => []
    | some value => value :: ancestorsLoop fuel value

/-- The chain of ancestors from the immediate parent up to the root.  Each round shortens the path or reaches the
root, so `path.length + 2` rounds are enough (`ancestors_eq`). -/
def ancestors (path : Bytes) : List Bytes := ancestorsLoop (path.length + 2) path

def joinPath (parent name : Bytes) : Bytes :=
  if parent = rootPath then name else parent ++ [slash] ++ name

/-! ## The ancestor chain -/

theorem parentOf_root : parentOf rootPath = none := by simp [parentOf]

theorem parentOf_of_not_mem {path : Bytes} (h : path ≠ rootPath) (hs : slash ∉ path) :
    parentOf path = some rootPath := by
  have hr : rposition (· == slash) path = none := by
    rw [rposition_eq_none]
    intro x hx
    simp only [beq_eq_false_iff_ne]
    rintro rfl
    exact hs hx
  simp [parentOf, h, hr]

/-- A path with a separator is its parent, a separator and a last component. -/
theorem parentOf_of_mem {path : Bytes} (hs : slash ∈ path) :
    ∃ q r, path = q ++ slash :: r ∧ slash ∉ r ∧ parentOf path = some q := by
  have hne : path ≠ rootPath := by
    rintro rfl
    revert hs
    decide
  cases hr : rposition (· == slash) path with
  | none =>
    have := rposition_eq_none.mp hr slash hs
    simp at this
  | some i =>
    obtain ⟨x, r, hp, hx, hrest⟩ := rposition_eq_some hr
    simp only [beq_iff_eq] at hx
    subst hx
    refine ⟨path.take i, r, hp, fun hm => ?_, by simp [parentOf, hne, hr]⟩
    simpa using hrest slash hm

/-- The rounds left from `path`. -/
def rounds (path : Bytes) : Nat := if path = rootPath then 0 else path.length + 1

theorem rounds_parentOf {path q : Bytes} (h : parentOf path = some q) : rounds q < rounds path := by
  have hne : path ≠ rootPath := by rintro rfl; simp [parentOf_root] at h
  have hr : rounds path = path.length + 1 := by simp [rounds, hne]
  by_cases hs : slash ∈ path
  · obtain ⟨q', r, hp, -, hq⟩ := parentOf_of_mem hs
    rw [hq] at h
    cases h
    have hl : path.length = q.length + (r.length + 1) := by rw [hp]; simp
    unfold rounds at *
    split <;> omega
  · rw [parentOf_of_not_mem hne hs] at h
    cases h
    simp [rounds, hne]

theorem ancestorsLoop_eq : ∀ (n k : Nat) (path : Bytes), rounds path ≤ n → rounds path ≤ k →
    ancestorsLoop (n + 1) path = ancestorsLoop (k + 1) path
  | n, k, path, hn, hk => by
    unfold ancestorsLoop
    cases hp : parentOf path with
    | none => rfl
    | some q =>
      have hq := rounds_parentOf hp
      match n, k with
      | 0, _ => omega
      | _, 0 => omega
      | n + 1, k + 1 =>
        simp only [List.cons.injEq, true_and]
        exact ancestorsLoop_eq n k q (by omega) (by omega)

/-- The loop runs to its end. -/
theorem ancestors_eq (path : Bytes) :
    ancestors path = match parentOf path with
      | none => []
      | some value => value :: ancestors value := by
  have hr : ∀ p : Bytes, rounds p ≤ p.length + 1 := fun p => by unfold rounds; split <;> omega
  unfold ancestors
  rw [ancestorsLoop]
  cases hp : parentOf path with
  | none => rfl
  | some q =>
    have hq := rounds_parentOf hp
    simp only [List.cons.injEq, true_and]
    exact ancestorsLoop_eq _ _ q (by have := hr path; omega) (hr q)

theorem ancestors_root : ancestors rootPath = [] := by rw [ancestors_eq, parentOf_root]

/-- `q ++ "/"` is a prefix of no path without separator. -/
theorem not_prefix_of_not_mem {path q : Bytes} (hs : slash ∉ path) : ¬ q ++ [slash] <+: path := by
  rintro ⟨t, rfl⟩
  exact hs (by simp)

/-- **The chain is the prefix relation**: the ancestors of `path` are the root and the byte prefixes of `path` that
end before a separator. -/
theorem mem_ancestors : ∀ {path q : Bytes},
    q ∈ ancestors path ↔ path ≠ rootPath ∧ (q = rootPath ∨ q ++ [slash] <+: path) := by
  intro path
  induction hn : rounds path using Nat.strong_induction_on generalizing path with
  | _ n ih =>
    intro q
    rw [ancestors_eq]
    by_cases hroot : path = rootPath
    · subst hroot; simp [parentOf_root]
    by_cases hs : slash ∈ path
    · obtain ⟨q', r, hp, hr, hq'⟩ := parentOf_of_mem hs
      have hlt := rounds_parentOf hq'
      rw [hq']
      simp only [List.mem_cons, ih _ (hn ▸ hlt) rfl, hroot, ne_eq, not_false_eq_true, true_and]
      -- a prefix ending before a separator is `q'` or ends inside `q'`
      have hpre : q ++ [slash] <+: path ↔ q = q' ∨ q ++ [slash] <+: q' := by
        constructor
        · rintro ⟨t, ht⟩
          rw [hp] at ht
          simp only [List.append_assoc, List.cons_append, List.nil_append] at ht
          rcases List.append_eq_append_iff.mp ht with ⟨c, hc1, hc2⟩ | ⟨c, hc1, hc2⟩
          · cases c with
            | nil => left; simpa using hc1.symm
            | cons x c =>
              right
              simp only [List.cons_append, List.cons.injEq] at hc2
              obtain ⟨rfl, -⟩ := hc2
              exact ⟨c, by rw [hc1]; simp⟩
          · cases c with
            | nil => left; simpa using hc1
            | cons x c =>
              exfalso
              simp only [List.cons_append, List.cons.injEq] at hc2
              apply hr
              rw [hc2.2]
              simp
        · rintro (rfl | h)
          · exact ⟨r, by rw [hp]; simp⟩
          · exact h.trans ⟨slash :: r, hp.symm⟩
      rw [hpre]
      by_cases hq'root : q' = rootPath
      · subst hq'root
        have hno : ¬ q ++ [slash] <+: rootPath := not_prefix_of_not_mem (by decide)
        simp [hno]
      · simp only [hq'root, not_false_eq_true, true_and]
        constructor
        · rintro (h | h | h)
          · exact .inr (.inl h)
          · exact .inl h
          · exact .inr (.inr h)
        · rintro (h | h | h)
          · exact .inr (.inl h)
          · exact .inl h
          · exact .inr (.inr h)
    · rw [parentOf_of_not_mem hroot hs]
      have hno : ¬ q ++ [slash] <+: path := not_prefix_of_not_mem hs
      simp [ancestors_root, hroot, hno]

/-- `a` is a proper ancestor of `p`. -/
def Below (a p : Bytes) : Prop := a ∈ ancestors p

instance (a p : Bytes) : Decidable (Below a p) := inferInstanceAs (Decidable (a ∈ ancestors p))

instance : IsStrictOrder Bytes Below where
  irrefl p h := by
    obtain ⟨hne, h | h⟩ := mem_ancestors.mp h
    · exact hne h
    · simpa using h.length_le
  trans a b c hab hbc := by
    obtain ⟨hb, ha⟩ := mem_ancestors.mp hab
    obtain ⟨hc, h | h⟩ := mem_ancestors.mp hbc
    · exact absurd h hb
    · refine mem_ancestors.mpr ⟨hc, ha.imp id fun h' => ?_⟩
      exact (h'.trans (List.prefix_append b [slash])).trans h

/-- Two proper ancestors of one path are on one chain. -/
theorem below_forest {a b p : Bytes} (ha : Below a p) (hb : Below b p) (hne : a ≠ b) : Below a b ∨ Below b a := by
  have hstep : ∀ {x y : Bytes}, x ++ [slash] <+: y ++ [slash] → x ≠ y → Below x y := by
    intro x y h hxy
    have hpre : x ++ [slash] <+: y := by
      rcases List.prefix_concat_iff.mp h with heq | h
      · exact absurd (List.append_inj_left' heq rfl) hxy
      · exact h
    refine mem_ancestors.mpr ⟨?_, .inr hpre⟩
    rintro rfl
    have hmem : slash ∈ rootPath := hpre.mem (by simp)
    exact absurd hmem (by decide)
  obtain ⟨hp, ha⟩ := mem_ancestors.mp ha
  obtain ⟨-, hb⟩ := mem_ancestors.mp hb
  rcases ha with rfl | ha
  · exact .inl (mem_ancestors.mpr ⟨fun h => hne h.symm, .inl rfl⟩)
  · rcases hb with rfl | hb
    · exact .inr (mem_ancestors.mpr ⟨hne, .inl rfl⟩)
    · rcases List.prefix_or_prefix_of_prefix ha hb with h | h
      · exact .inl (hstep h hne)
      · exact .inr (hstep h (Ne.symm hne))

/-! ## Layer paths -/

/-- The component loop of `normalize_layer_path`. -/
def layerParts : List Bytes → IoResult (List Bytes)
  | [] => .ok []
  | part :: rest =>
    if part = [] ∨ part = rootPath then layerParts rest
    else if part = utf8 ".." then
      .error (invalid "layer paths must not contain '..' components")
    else do
      let parts ← layerParts rest
      pure (part :: parts)

/-- Normalize one archive path exactly once. -/
def normalizeLayerPath (raw : Bytes) : IoResult Bytes :=
  if raw = [] ∨ 0 ∈ raw then
    .error (invalid "a layer path is empty or contains a NUL byte")
  else if raw.head? = some slash then
    .error (invalid "absolute layer paths are unsupported")
  else do
    let parts ← layerParts (raw.splitOn slash)
    let path := if parts = [] then rootPath else [slash].intercalate parts
    if path.length > maxPathBytes then
      .error (invalid ("layer path is longer than " ++ decimal maxPathBytes ++ " bytes"))
    else pure path

/-- The components of a path; the root has none. -/
def components (path : Bytes) : List Bytes :=
  if path = rootPath then [] else path.splitOn slash

/-- A component that a canonical path may have. -/
def PlainComponent (c : Bytes) : Prop := c ≠ [] ∧ c ≠ rootPath ∧ c ≠ utf8 ".."

/-- A canonical path: plain components, no NUL, not absolute, at most `maxPathBytes` bytes. -/
structure CanonicalPath (path : Bytes) : Prop where
  plain : ∀ c ∈ components path, PlainComponent c
  noNul : 0 ∉ path
  relative : path.head? ≠ some slash
  short : path.length ≤ maxPathBytes

theorem canonicalPath_root : CanonicalPath rootPath := by
  refine ⟨by simp [components], by decide, by decide, by decide⟩

/-- The parts kept are the plain ones among the parts given. -/
theorem layerParts_ok : ∀ {parts kept : List Bytes}, layerParts parts = .ok kept →
    (∀ c ∈ kept, PlainComponent c) ∧ kept.Sublist parts
  | [], kept, h => by
    cases h
    simp
  | part :: rest, kept, h => by
    unfold layerParts at h
    split_ifs at h with hskip hdots
    · obtain ⟨h1, h2⟩ := layerParts_ok h
      exact ⟨h1, h2.cons part⟩
    · obtain ⟨parts, hp, hk⟩ := bind_eq_ok.mp h
      rw [pure_eq_ok] at hk
      subst hk
      obtain ⟨h1, h2⟩ := layerParts_ok hp
      refine ⟨fun c hc => ?_, h2.cons_cons part⟩
      rcases List.mem_cons.mp hc with rfl | hc
      · rw [not_or] at hskip
        exact ⟨hskip.1, hskip.2, hdots⟩
      · exact h1 c hc

/-- A part of a split has no separator and only bytes of the list. -/
theorem mem_splitOn {sep : UInt8} : ∀ {raw part : Bytes}, part ∈ raw.splitOn sep →
    sep ∉ part ∧ ∀ x ∈ part, x ∈ raw
  | [], part, h => by
    simp only [List.splitOn_nil, List.mem_singleton] at h
    subst h
    simp
  | y :: raw, part, h => by
    rw [List.splitOn_cons_eq_if_modifyHead] at h
    split_ifs at h with hy
    · rcases List.mem_cons.mp h with rfl | h
      · simp
      · obtain ⟨h1, h2⟩ := mem_splitOn h
        exact ⟨h1, fun x hx => List.mem_cons_of_mem _ (h2 x hx)⟩
    · cases hsp : raw.splitOn sep with
      | nil => exact absurd hsp (List.splitOn_ne_nil sep raw)
      | cons hd tl =>
        rw [hsp, List.modifyHead_cons] at h
        rcases List.mem_cons.mp h with rfl | h
        · obtain ⟨h1, h2⟩ := @mem_splitOn sep raw hd (by rw [hsp]; simp)
          have hne : sep ≠ y := by rintro rfl; simp at hy
          refine ⟨by simp [h1, hne], fun x hx => ?_⟩
          rcases List.mem_cons.mp hx with rfl | hx
          · simp
          · exact List.mem_cons_of_mem _ (h2 x hx)
        · obtain ⟨h1, h2⟩ := @mem_splitOn sep raw part (by rw [hsp]; simp [h])
          exact ⟨h1, fun x hx => List.mem_cons_of_mem _ (h2 x hx)⟩

theorem mem_intercalate {sep x : UInt8} : ∀ {parts : List Bytes},
    x ∈ [sep].intercalate parts → x = sep ∨ ∃ part ∈ parts, x ∈ part
  | [], h => by simp at h
  | [part], h => by
    simp only [List.intercalate_singleton] at h
    exact .inr ⟨part, by simp, h⟩
  | part :: next :: rest, h => by
    rw [List.intercalate_cons_cons, List.mem_append, List.mem_append] at h
    rcases h with (h | h) | h
    · exact .inr ⟨part, by simp, h⟩
    · exact .inl (by simpa using h)
    · rcases mem_intercalate h with h | ⟨q, hq, hx⟩
      · exact .inl h
      · exact .inr ⟨q, List.mem_cons_of_mem _ hq, hx⟩

theorem head_intercalate {sep : UInt8} {parts : List Bytes} (h : ∀ part ∈ parts, part ≠ [] ∧ sep ∉ part) :
    ([sep].intercalate parts).head? ≠ some sep := by
  have key : ∀ (part rest : Bytes), part ≠ [] ∧ sep ∉ part → (part ++ rest).head? ≠ some sep := by
    rintro (_ | ⟨y, part⟩) rest ⟨h1, h2⟩
    · exact absurd rfl h1
    · simp only [List.cons_append, List.head?_cons, ne_eq, Option.some.injEq]
      rintro rfl
      simp at h2
  match parts, h with
  | [], _ => simp
  | [part], h =>
    have := key part [] (h part (by simp))
    rw [List.append_nil] at this
    rwa [List.intercalate_singleton]
  | part :: next :: rest, h =>
    rw [List.intercalate_cons_cons, List.append_assoc]
    exact key part _ (h part (by simp))

/-- **Accepted layer paths are canonical.** -/
theorem normalizeLayerPath_canonical {raw path : Bytes} (h : normalizeLayerPath raw = .ok path) :
    CanonicalPath path := by
  unfold normalizeLayerPath at h
  split_ifs at h with hnul habs
  obtain ⟨parts, hparts, h⟩ := bind_eq_ok.mp h
  rw [not_or] at hnul
  obtain ⟨hplain, hsub⟩ := layerParts_ok hparts
  dsimp only at h
  split_ifs at h with hempty hlong hlong
  · rw [pure_eq_ok] at h
    exact h ▸ canonicalPath_root
  · rw [pure_eq_ok] at h
    subst h
    have hmem : ∀ part ∈ parts, slash ∉ part ∧ ∀ x ∈ part, x ∈ raw :=
      fun part hp => mem_splitOn (hsub.subset hp)
    have hsplit := List.splitOn_intercalate slash (fun part hp => (hmem part hp).1) hempty
    refine ⟨fun c hc => ?_, fun h0 => ?_, ?_, by omega⟩
    · unfold components at hc
      split_ifs at hc with hroot
      · simp at hc
      · rw [hsplit] at hc
        exact hplain c hc
    · rcases mem_intercalate h0 with h0 | ⟨part, hp, h0⟩
      · exact absurd h0 (by decide)
      · exact hnul.2 ((hmem part hp).2 0 h0)
    · exact head_intercalate (fun part hp => ⟨(hplain part hp).1, (hmem part hp).1⟩)

/-- The components of a proper ancestor are components of the path. -/
theorem components_of_below {a p : Bytes} (h : Below a p) : ∀ c ∈ components a, c ∈ components p := by
  obtain ⟨hp, rfl | ⟨t, ht⟩⟩ := mem_ancestors.mp h
  · simp [components]
  · intro c hc
    unfold components at hc ⊢
    split_ifs at hc with ha
    · simp at hc
    · rw [if_neg hp, ← ht, List.append_assoc, List.singleton_append, List.splitOn_append_cons_self]
      exact List.mem_append_left _ hc

/-- **Canonical paths are closed under ancestors.** -/
theorem CanonicalPath.of_below {a p : Bytes} (hp : CanonicalPath p) (h : Below a p) :
    CanonicalPath a := by
  by_cases hroot : a = rootPath
  · exact hroot ▸ canonicalPath_root
  obtain ⟨-, hr | ⟨t, ht⟩⟩ := mem_ancestors.mp h
  · exact absurd hr hroot
  · subst ht
    refine ⟨fun c hc => hp.plain c (components_of_below h c hc), fun h0 => hp.noNul (by simp [h0]), ?_, ?_⟩
    · intro hs
      apply hp.relative
      cases a with
      | nil => simp at hs
      | cons x a => simpa using hs
    · have := hp.short
      simp at this
      omega

end SimFerret.Workload
