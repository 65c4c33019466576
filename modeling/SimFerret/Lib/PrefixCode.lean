import Mathlib.Tactic.Common

/-!
# SimFerret.Lib.PrefixCode — encodings that say where they end

A record format concatenates the encodings of its fields, and a log the encodings of its records, with no count
and no separator.  That nothing is ambiguous rests on every encoding saying where it ends.

`Delimits P f key`: if the encodings of two values in `P`, each followed by anything, are the same bytes, then
the values have the same `key`, and what follows is the same.

* `delimits_fixed`: encodings of one length.
* `delimits_terminated`: encodings that end in an element they do not contain before.
* `Delimits.append`: two fields, the second of which may depend on the key of the first.
* `Delimits.flatMap`: a sequence of records.
-/

/-- The encoding `f` of a value in `P` says where it ends, and determines the `key` of the value. -/
def Delimits {α σ κ : Type} (P : α → Prop) (f : α → List σ) (key : α → κ) : Prop :=
  ∀ a b, P a → P b → ∀ r s, f a ++ r = f b ++ s → key a = key b ∧ r = s

section

variable {α β σ κ ι : Type} {P Q : α → Prop} {f g : α → List σ} {key : α → κ} {more : α → ι}

/-- Encodings of one length determine themselves. -/
theorem delimits_fixed {width : Nat} (h : ∀ a, P a → (f a).length = width) : Delimits P f f := by
  intro a b ha hb r s heq
  exact List.append_inj heq (by rw [h a ha, h b hb])

/-- What ends in an element that it does not contain before determines itself. -/
theorem delimits_terminated [BEq σ] [LawfulBEq σ] {sep : σ} (h : ∀ a, P a → sep ∉ f a) :
    Delimits P (fun a => f a ++ [sep]) f := by
  intro a b ha hb r s heq
  simp only [List.append_assoc, List.singleton_append] at heq
  have hsplit := congrArg (List.splitOn sep) heq
  simp only [List.splitOn_append_cons_self, List.splitOn_eq_singleton (h a ha), List.splitOn_eq_singleton (h b hb),
    List.singleton_append, List.cons.injEq] at hsplit
  rw [hsplit.1] at heq
  exact ⟨hsplit.1, by simpa using heq⟩

namespace Delimits

theorem of_key (h : Delimits P f key) (hkey : ∀ a b, P a → P b → key a = key b → more a = more b) :
    Delimits P f more := by
  intro a b ha hb r s heq
  obtain ⟨hab, hrs⟩ := h a b ha hb r s heq
  exact ⟨hkey a b ha hb hab, hrs⟩

theorem mono (h : Delimits P f key) (hQ : ∀ a, Q a → P a) : Delimits Q f key :=
  fun a b ha hb => h a b (hQ a ha) (hQ b hb)

theorem comap (h : Delimits P f key) (project : β → α) :
    Delimits (fun b => P (project b)) (fun b => f (project b)) (fun b => key (project b)) :=
  fun a b => h (project a) (project b)

/-- Two fields; how the second is encoded may depend on what the first says. -/
theorem append (h : Delimits P f key) (h' : ∀ k, Delimits (fun a => P a ∧ key a = k) g more) :
    Delimits P (fun a => f a ++ g a) (fun a => (key a, more a)) := by
  intro a b ha hb r s heq
  rw [List.append_assoc, List.append_assoc] at heq
  obtain ⟨hkey, hrest⟩ := h a b ha hb _ _ heq
  obtain ⟨hmore, hrs⟩ := h' (key b) a b ⟨ha, hkey⟩ ⟨hb, rfl⟩ r s hrest
  exact ⟨Prod.ext hkey hmore, hrs⟩

/-- Two fields, each encoded in its own way. -/
theorem append_plain (h : Delimits P f key) (h' : Delimits P g more) :
    Delimits P (fun a => f a ++ g a) (fun a => (key a, more a)) :=
  h.append fun _ => h'.mono fun _ ha => ha.1

/-- A whole sequence: its encoding determines how many records there are, and the key of each. -/
theorem flatMap (h : Delimits P f key) (hne : ∀ a, P a → f a ≠ []) (xs ys : List α) (hxs : ∀ x ∈ xs, P x)
    (hys : ∀ y ∈ ys, P y) (heq : xs.flatMap f = ys.flatMap f) : xs.map key = ys.map key := by
  induction xs generalizing ys with
  | nil =>
    cases ys with
    | nil => rfl
    | cons y ys =>
      rw [List.flatMap_nil, List.flatMap_cons, eq_comm, List.append_eq_nil_iff] at heq
      exact absurd heq.1 (hne y (hys y List.mem_cons_self))
  | cons x xs ih =>
    cases ys with
    | nil =>
      rw [List.flatMap_nil, List.flatMap_cons, List.append_eq_nil_iff] at heq
      exact absurd heq.1 (hne x (hxs x List.mem_cons_self))
    | cons y ys =>
      rw [List.flatMap_cons, List.flatMap_cons] at heq
      obtain ⟨hkey, hrest⟩ := h x y (hxs x List.mem_cons_self) (hys y List.mem_cons_self) _ _ heq
      rw [List.map_cons, List.map_cons, hkey, ih ys (fun a ha => hxs a (List.mem_cons_of_mem _ ha))
        (fun a ha => hys a (List.mem_cons_of_mem _ ha)) hrest]

end Delimits

end
