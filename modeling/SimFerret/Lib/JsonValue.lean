import Mathlib.Data.List.Forall2
import Mathlib.Data.List.Nodup
import Mathlib.Tactic.Common

/-!
# SimFerret.Lib.JsonValue — JSON values and the places inside them

Numbers are a parameter, with their own equality.  An object is a map that is ordered by its keys.

* `Value.same`: equality, `Value.Sorted`: every object inside is such a map.
* `Value.get?`: the value at the end of steps by key and by index.
* `same_object`: two objects are equal when the members of one are those of the other.
* `not_unequal_of_same`: equal values are equal wherever one looks.
-/

namespace Json

/-- A JSON value. -/
inductive Value (Key Number : Type) where
  | null
  | bool (b : Bool)
  | number (n : Number)
  | string (s : Key)
  | array (items : List (Value Key Number))
  | object (members : List (Key × Value Key Number))

/-- A step from a value to one inside it. -/
inductive Step (Key : Type) where
  | key (name : Key)
  | index (i : Nat)
deriving DecidableEq, Repr

/-- The value of a key. -/
def lookup {Key α : Type} [DecidableEq Key] (members : List (Key × α)) (name : Key) : Option α :=
  (members.find? fun member => member.1 = name).map Prod.snd

namespace Value

variable {Key Number : Type} [DecidableEq Key] [BEq Number]

mutual

/-- The values are equal. -/
def same : Value Key Number → Value Key Number → Bool
  | .null, .null => true
  | .bool b, .bool b' => b == b'
  | .number n, .number n' => n == n'
  | .string s, .string s' => s = s'
  | .array items, .array items' => sameItems items items'
  | .object members, .object members' => sameMembers members members'
  | _, _ => false

def sameItems : List (Value Key Number) → List (Value Key Number) → Bool
  | [], [] => true
  | item :: rest, item' :: rest' => same item item' && sameItems rest rest'
  | _, _ => false

def sameMembers : List (Key × Value Key Number) → List (Key × Value Key Number) → Bool
  | [], [] => true
  | (name, value) :: rest, (name', value') :: rest' => name = name' && same value value' && sameMembers rest rest'
  | _, _ => false

end

mutual

/-- Every object is ordered by its keys. -/
def Sorted [LT Key] : Value Key Number → Prop
  | .array items => SortedItems items
  | .object members => (members.map Prod.fst).Pairwise (· < ·) ∧ SortedMembers members
  | _ => True

def SortedItems [LT Key] : List (Value Key Number) → Prop
  | [] => True
  | item :: rest => Sorted item ∧ SortedItems rest

def SortedMembers [LT Key] : List (Key × Value Key Number) → Prop
  | [] => True
  | (_, value) :: rest => Sorted value ∧ SortedMembers rest

end

/-- The value behind one step. -/
def child : Value Key Number → Step Key → Option (Value Key Number)
  | .array items, .index i => items[i]?
  | .object members, .key name => lookup members name
  | _, _ => none

/-- The value at the end of the steps. -/
def get? (value : Value Key Number) : List (Step Key) → Option (Value Key Number)
  | [] => some value
  | step :: rest => (value.child step).bind fun inner => get? inner rest

/-- Of two values that may be missing, at least one is there, and they are not equal. -/
def Unequal (x y : Option (Value Key Number)) : Prop :=
  (x ≠ none ∨ y ≠ none) ∧ ∀ v w, x = some v → y = some w → v.same w = false

theorem sameItems_iff : ∀ {items items' : List (Value Key Number)},
    sameItems items items' = true ↔ List.Forall₂ (fun a b => same a b = true) items items'
  | [], [] => by simp [sameItems]
  | [], _ :: _ => by simp [sameItems]
  | _ :: _, [] => by simp [sameItems]
  | item :: rest, item' :: rest' => by
    rw [sameItems, Bool.and_eq_true, List.forall₂_cons, sameItems_iff]

theorem sameMembers_iff : ∀ {members members' : List (Key × Value Key Number)},
    sameMembers members members' = true ↔ List.Forall₂ (fun a b => a.1 = b.1 ∧
    same a.2 b.2 = true) members members'
  | [], [] => by simp [sameMembers]
  | [], _ :: _ => by simp [sameMembers]
  | _ :: _, [] => by simp [sameMembers]
  | (name, value) :: rest, (name', value') :: rest' => by
    rw [sameMembers, Bool.and_eq_true, Bool.and_eq_true, decide_eq_true_iff, List.forall₂_cons, sameMembers_iff]

omit [DecidableEq Key] [BEq Number] in
theorem sortedItems_iff [LT Key] : ∀ {items : List (Value Key Number)}, SortedItems items ↔
    ∀ item ∈ items, item.Sorted
  | [] => by simp [SortedItems]
  | item :: rest => by rw [SortedItems, List.forall_mem_cons, sortedItems_iff]

omit [DecidableEq Key] [BEq Number] in
theorem sortedMembers_iff [LT Key] : ∀ {members : List (Key × Value Key Number)},
    SortedMembers members ↔ ∀ member ∈ members, member.2.Sorted
  | [] => by simp [SortedMembers]
  | (name, value) :: rest => by rw [SortedMembers, List.forall_mem_cons, sortedMembers_iff]

/-! ## Members by their keys -/

section Members

variable {α β : Type} {members : List (Key × α)} {name : Key}

theorem lookup_mem {a : α} (h : lookup members name = some a) : (name, a) ∈ members := by
  rw [lookup, Option.map_eq_some_iff] at h
  obtain ⟨member, hfind, rfl⟩ := h
  have hname : member.1 = name := by simpa using List.find?_some hfind
  rw [← hname]
  exact List.mem_of_find?_eq_some hfind

theorem lookup_eq_none : lookup members name = none ↔ name ∉ members.map Prod.fst := by
  rw [lookup, Option.map_eq_none_iff, List.find?_eq_none]
  simp only [decide_eq_true_iff, List.mem_map, not_exists, not_and]

/-- A key that occurs once has its one value. -/
theorem lookup_of_mem {a : α} (hnodup : (members.map Prod.fst).Nodup) (h : (name, a) ∈ members) :
    lookup members name = some a := by
  cases hl : lookup members name with
  | none => exact absurd (List.mem_map_of_mem h) (lookup_eq_none.mp hl)
  | some b =>
    have heq := List.inj_on_of_nodup_map hnodup (lookup_mem hl) h rfl
    rw [(Prod.mk.inj heq).2]

/-- Lists whose keys agree, position by position, relate when the values of equal keys do. -/
theorem forall₂_of_keys {members' : List (Key × β)} {R : α → β → Prop}
    (hkeys : members.map Prod.fst = members'.map Prod.fst) (hnodup : (members'.map Prod.fst).Nodup)
    (h : ∀ member ∈ members, ∃ b, lookup members' member.1 = some b ∧ R member.2 b) :
    List.Forall₂ (fun a b => a.1 = b.1 ∧ R a.2 b.2) members members' := by
  have hnames : List.Forall₂ (fun a b => a.1 = b.1) members members' := by
    have heq : List.Forall₂ Eq (members.map Prod.fst) (members'.map Prod.fst) := hkeys ▸ List.forall₂_refl _
    rwa [List.forall₂_map_left_iff, List.forall₂_map_right_iff] at heq
  rw [List.forall₂_iff_zip] at hnames ⊢
  refine ⟨hnames.1, fun {a b} hmem => ?_⟩
  have hname := hnames.2 hmem
  obtain ⟨hma, hmb⟩ := List.of_mem_zip hmem
  obtain ⟨c, hc, hr⟩ := h a hma
  rw [hname, lookup_of_mem hnodup hmb] at hc
  exact ⟨hname, Option.some.inj hc ▸ hr⟩

variable [LT Key] [Std.Asymm (LT.lt : Key → Key → Prop)]

omit [DecidableEq Key] in
theorem nodup_of_ordered {names : List Key} (h : names.Pairwise (· < ·)) : names.Nodup := by
  refine h.imp fun {a b} hlt heq => ?_
  subst heq
  exact Std.Asymm.asymm a a hlt hlt

omit [DecidableEq Key] in
/-- Ordered keys are equal when they are the same keys. -/
theorem eq_of_ordered {names names' : List Key} (h : names.Pairwise (· < ·)) (h' : names'.Pairwise (· < ·))
    (hmem : ∀ name, name ∈ names ↔ name ∈ names') : names = names' := by
  have hperm : names.Perm names' :=
    (List.perm_ext_iff_of_nodup (nodup_of_ordered h) (nodup_of_ordered h')).mpr hmem
  exact hperm.eq_of_pairwise (fun a b _ _ hab hba => absurd hba (Std.Asymm.asymm a b hab)) h h'

end Members

section Objects

variable [LT Key] [Std.Asymm (LT.lt : Key → Key → Prop)] {members members' : List (Key × Value Key Number)}

/-- Objects are equal exactly when every member of the first is one of the second, and the second has no other. -/
theorem same_object (h : (members.map Prod.fst).Pairwise (· < ·)) (h' : (members'.map Prod.fst).Pairwise (· < ·)) :
    same (.object members) (.object members') = true ↔
      (∀ member ∈ members, ∃ value, lookup members' member.1 = some value ∧ same member.2 value = true) ∧
        ∀ name ∈ members'.map Prod.fst, name ∈ members.map Prod.fst := by
  rw [same, sameMembers_iff]
  constructor
  · intro hall
    have hkeys : members.map Prod.fst = members'.map Prod.fst := by
      rw [← List.forall₂_eq_eq_eq, List.forall₂_map_left_iff, List.forall₂_map_right_iff]
      exact hall.imp fun _ _ hab => hab.1
    refine ⟨fun member hmem => ?_, fun name hname => hkeys ▸ hname⟩
    obtain ⟨i, hi, hget⟩ := List.getElem_of_mem hmem
    have hi' : i < members'.length := hall.length_eq ▸ hi
    have hrel := (List.forall₂_iff_get.mp hall).2 i hi hi'
    simp only [List.get_eq_getElem, hget] at hrel
    refine ⟨members'[i].2, ?_, hrel.2⟩
    exact lookup_of_mem (nodup_of_ordered h') (hrel.1 ▸ List.getElem_mem hi')
  · rintro ⟨hall, hback⟩
    have hforth : ∀ name ∈ members.map Prod.fst, name ∈ members'.map Prod.fst := by
      intro name hname
      obtain ⟨member, hmem, rfl⟩ := List.mem_map.mp hname
      obtain ⟨value, hvalue, -⟩ := hall member hmem
      exact List.mem_map.mpr ⟨_, lookup_mem hvalue, rfl⟩
    have hkeys := eq_of_ordered h h' fun name => ⟨hforth name, hback name⟩
    exact forall₂_of_keys (R := fun v w => same v w = true) hkeys (nodup_of_ordered h') hall

/-! ## Equal values are equal inside -/

variable {a b : Value Key Number}

theorem same_child (ha : a.Sorted) (hb : b.Sorted) (h : a.same b = true) (step : Step Key) :
    (a.child step = none ∧ b.child step = none) ∨
      ∃ v w, a.child step = some v ∧ b.child step = some w ∧ v.Sorted ∧ w.Sorted ∧ v.same w = true := by
  cases a with
  | array items =>
    cases b with
    | array items' =>
      cases step with
      | key name => exact .inl ⟨rfl, rfl⟩
      | index i =>
        have hall := sameItems_iff.mp h
        cases hi : items[i]? with
        | none =>
          have hlen := hall.length_eq ▸ List.getElem?_eq_none_iff.mp hi
          exact .inl ⟨hi, List.getElem?_eq_none_iff.mpr hlen⟩
        | some v =>
          obtain ⟨hlt, rfl⟩ := List.getElem?_eq_some_iff.mp hi
          have hlt' : i < items'.length := hall.length_eq ▸ hlt
          refine .inr ⟨items[i], items'[i], hi, List.getElem?_eq_getElem hlt', ?_, ?_, ?_⟩
          · exact sortedItems_iff.mp ha _ (List.getElem_mem hlt)
          · exact sortedItems_iff.mp hb _ (List.getElem_mem hlt')
          · exact (List.forall₂_iff_get.mp hall).2 i hlt hlt'
    | _ => cases h
  | object members =>
    cases b with
    | object members' =>
      cases step with
      | index i => exact .inl ⟨rfl, rfl⟩
      | key name =>
        have hall := (same_object ha.1 hb.1).mp h
        cases hl : lookup members name with
        | none =>
          refine .inl ⟨hl, lookup_eq_none.mpr fun hname => ?_⟩
          exact lookup_eq_none.mp hl (hall.2 name hname)
        | some v =>
          obtain ⟨w, hw, hsame⟩ := hall.1 _ (lookup_mem hl)
          refine .inr ⟨v, w, hl, hw, ?_, ?_, hsame⟩
          · exact sortedMembers_iff.mp ha.2 _ (lookup_mem hl)
          · exact sortedMembers_iff.mp hb.2 _ (lookup_mem hw)
    | _ => cases h
  | _ => cases b <;> first | exact .inl ⟨rfl, rfl⟩ | cases h

/-- Nothing inside two equal values tells them apart. -/
theorem not_unequal_of_same (ha : a.Sorted) (hb : b.Sorted) (h : a.same b = true) (steps : List (Step Key)) :
    ¬ Unequal (a.get? steps) (b.get? steps) := by
  induction steps generalizing a b with
  | nil =>
    intro hne
    have hfalse := hne.2 a b rfl rfl
    rw [h] at hfalse
    cases hfalse
  | cons step rest ih =>
    rw [get?, get?]
    rcases same_child ha hb h step with ⟨hna, hnb⟩ | ⟨v, w, hv, hw, hsv, hsw, hsame⟩
    · rw [hna, hnb]
      rintro ⟨hsome | hsome, -⟩ <;> exact hsome rfl
    · rw [hv, hw]
      exact ih hsv hsw hsame

end Objects

end Value

end Json
