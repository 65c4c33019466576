import Mathlib.Algebra.BigOperators.Group.List.Basic
import Mathlib.Algebra.Ring.Nat
import Mathlib.Tactic.Common

/-!
# SimFerret.Lib.Json — compact JSON, and how long it is

* `object`, `array`: values without blanks.
* `Literals`: how strings are written; only that a plain text is written as it is matters here.
* `object_mono`: an object with the same keys and no longer values is no longer.
* `object_le`: a bound from the number of fields.
-/

namespace Json

/-- A text that a literal writes as it is. -/
def Plain (text : List UInt8) : Prop := ∀ b ∈ text, 0x20 ≤ b ∧ b < 0x7f ∧ b ≠ 0x22 ∧ b ≠ 0x5c

instance (text : List UInt8) : Decidable (Plain text) := List.decidableBAll _ text

/-- String literals. -/
structure Literals where
  literal : List UInt8 → List UInt8
  literal_plain : ∀ text, Plain text → literal text = 0x22 :: (text ++ [0x22])

/-- One member of an object. -/
def member (field : List UInt8 × List UInt8) : List UInt8 := 0x22 :: (field.1 ++ 0x22 :: 0x3a :: field.2)

/-- An object, with the keys and the written values of its members. -/
def object (fields : List (List UInt8 × List UInt8)) : List UInt8 :=
  0x7b :: ([0x2c].intercalate (fields.map member) ++ [0x7d])

/-- An array of written values. -/
def array (values : List (List UInt8)) : List UInt8 := 0x5b :: ([0x2c].intercalate values ++ [0x5d])

section

variable {fields fields' : List (List UInt8 × List UInt8)}

theorem length_literal (json : Literals) {text : List UInt8} (h : Plain text) :
    (json.literal text).length = text.length + 2 := by
  rw [json.literal_plain text h, List.length_cons, List.length_append, List.length_singleton]

theorem length_member (field : List UInt8 × List UInt8) :
    (member field).length = field.1.length + field.2.length + 3 := by
  simp only [member, List.length_cons, List.length_append]
  omega

/-- With a separator behind each part, all parts count alike. -/
theorem length_intercalate (sep : UInt8) {parts : List (List UInt8)} (h : parts ≠ []) :
    ([sep].intercalate parts).length + 1 = (parts.map fun part => part.length + 1).sum := by
  induction parts with
  | nil => exact absurd rfl h
  | cons part parts ih =>
    cases parts with
    | nil => simp [List.intercalate]
    | cons next parts =>
      have hrest := ih (List.cons_ne_nil _ _)
      rw [List.map_cons, List.sum_cons, ← hrest, List.intercalate, List.intersperse_cons_cons, List.flatten_cons,
        List.flatten_cons, List.length_append, List.length_append, List.length_singleton, List.intercalate]
      omega

/-- The length of an object that has a member. -/
theorem length_object (h : fields ≠ []) :
    (object fields).length = 1 + (fields.map fun field => field.1.length + field.2.length + 4).sum := by
  have hne : fields.map member ≠ [] := fun hnil => h (List.map_eq_nil_iff.mp hnil)
  have hparts := length_intercalate 0x2c hne
  rw [List.map_map] at hparts
  have hmembers : (fields.map ((fun part : List UInt8 => part.length + 1) ∘ member)) =
      fields.map fun field => field.1.length + field.2.length + 4 :=
    List.map_congr_left fun field _ => congrArg (· + 1) (length_member field)
  rw [hmembers] at hparts
  rw [object, List.length_cons, List.length_append, List.length_singleton]
  omega

/-- An object with the same keys and no longer values is no longer. -/
theorem object_mono (h : List.Forall₂ (fun a b => a.1 = b.1 ∧ a.2.length ≤ b.2.length) fields fields') :
    (object fields).length ≤ (object fields').length := by
  have hsum : (fields.map fun field => field.1.length + field.2.length + 4).sum ≤
      (fields'.map fun field => field.1.length + field.2.length + 4).sum := by
    induction h with
    | nil => exact Nat.le_refl _
    | cons hfield _ ih =>
      simp only [List.map_cons, List.sum_cons, hfield.1]
      have := hfield.2
      omega
  cases h with
  | nil => exact Nat.le_refl _
  | cons hfield hfields =>
    rw [length_object (List.cons_ne_nil _ _), length_object (List.cons_ne_nil _ _)]
    exact Nat.add_le_add_left hsum 1

/-- A bound from the number of fields. -/
theorem object_le {bound : Nat} (h : ∀ field ∈ fields, field.1.length + field.2.length ≤ bound) :
    (object fields).length ≤ 2 + fields.length * (bound + 4) := by
  have hsum : (fields.map fun field => field.1.length + field.2.length + 4).sum ≤ fields.length * (bound + 4) := by
    induction fields with
    | nil => exact Nat.zero_le _
    | cons field fields ih =>
      rw [List.forall_mem_cons] at h
      have hfields := ih h.2
      rw [List.map_cons, List.sum_cons, List.length_cons, Nat.succ_mul]
      omega
  by_cases hne : fields = []
  · subst hne
    simp [object, List.intercalate]
  · rw [length_object hne]
    omega

end

end Json
