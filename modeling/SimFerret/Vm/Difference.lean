import SimFerret.Lib.JsonValue
import SimFerret.Lib.Machine
import SimFerret.Prelude

/-!
# SimFerret.Vm.Difference — the first field in which two recorded environments differ (`vm.rs`)

The search goes through two JSON values side by side: the members of an object in the order of the expected one,
the items of an array by their index, then what only the actual value has.

* `firstIdentityDifference`, with `firstMember` and `firstItem` for its two loops.
* `render`: the text of the steps below a path.
* `firstIdentityDifference_spec`: nothing is found in equal values only, and what is found is where they differ.
* `validateIdentity_not_faults`: the diagnostic of two different identities does not panic.
-/

namespace SimFerret

open Json

/-- `serde_json::Number`; its floating point numbers come with their own equality. -/
inductive Number (F : Type) where
  | posInt (n : Nat)
  | negInt (n : Int)
  | float (x : F)
deriving BEq

/-- What `serde_json` builds: its maps are ordered. -/
abbrev JsonValue (F : Type) := {value : Value Text (Number F) // value.Sorted}

variable {F : Type} [BEq F]

/-- `{path}.{name}` and `{path}[{index}]`. -/
def renderStep : Step Text → Text
  | .key name => utf8 "." ++ name
  | .index i => utf8 "[" ++ decimal i ++ utf8 "]"

/-- The text of the steps below a path. -/
def render (steps : List (Step Text)) : Text := steps.flatMap renderStep

mutual

/-- `first_identity_difference`. -/
def firstIdentityDifference (path : Text) : Value Text (Number F) → Value Text (Number F) → Option Text
  | .object expected, .object actual =>
    (firstMember path actual expected).or
      ((actual.find? fun member => (lookup expected member.1).isNone).map fun member =>
        path ++ renderStep (.key member.1))
  | .array expected, .array actual =>
    (firstItem path actual 0 expected).or
      (actual[expected.length]?.map fun _ => path ++ renderStep (.index expected.length))
  | expected, actual => if expected.same actual then none else some path

/-- `for (name, expected_value) in expected`. -/
def firstMember (path : Text) (actual : List (Text × Value Text (Number F))) :
    List (Text × Value Text (Number F)) → Option Text
  | [] => none
  | (name, expectedValue) :: rest =>
    let child := path ++ renderStep (.key name)
    (lookup actual name).elim (some child) fun actualValue =>
      (firstIdentityDifference child expectedValue actualValue).or (firstMember path actual rest)

/-- `for (index, expected_value) in expected.iter().enumerate()`. -/
def firstItem (path : Text) (actual : List (Value Text (Number F))) (index : Nat) :
    List (Value Text (Number F)) → Option Text
  | [] => none
  | expectedValue :: rest =>
    let child := path ++ renderStep (.index index)
    actual[index]?.elim (some child) fun actualValue =>
      (firstIdentityDifference child expectedValue actualValue).or (firstItem path actual (index + 1) rest)

end

/-! ## What is found is where the values differ -/

/-- `found` names a place below `path` where `x` and `y` differ. -/
def Names (path found : Text) (x y : List (Step Text) → Option (Value Text (Number F))) : Prop :=
  ∃ steps, found = path ++ render steps ∧ Value.Unequal (x steps) (y steps)

/-- A search that found nothing compared equal values, and one that found something names where they differ. -/
def Searched (path : Text) (found : Option Text) (expected actual : Value Text (Number F)) : Prop :=
  found.elim (expected.same actual = true) fun q => Names path q expected.get? actual.get?

theorem renderStep_append (path : Text) (step : Step Text) (steps : List (Step Text)) :
    path ++ renderStep step ++ render steps = path ++ render (step :: steps) := by
  rw [render, render, List.flatMap_cons, List.append_assoc]

/-- What differs behind a step differs. -/
theorem Names.behind {path found : Text} {step : Step Text} {expected actual v : Value Text (Number F)}
    (hv : expected.child step = some v)
    (h : Names (path ++ renderStep step) found v.get? fun steps => (actual.child step).bind fun w =>
      w.get? steps) : Names path found expected.get? actual.get? := by
  obtain ⟨steps, rfl, hne⟩ := h
  refine ⟨step :: steps, renderStep_append path step steps, ?_⟩
  rw [Value.get?, hv]
  exact hne

/-- A value that only one side has. -/
theorem Value.unequal_missing (v : Value Text (Number F)) : Value.Unequal (some v) none :=
  ⟨.inl (Option.some_ne_none v), fun _ _ _ h => absurd h (Option.some_ne_none _).symm⟩

theorem searched_leaf {path : Text} {found : Option Text} {expected actual : Value Text (Number F)}
    (h : found = if expected.same actual then none else some path) : Searched path found expected actual := by
  cases hsame : expected.same actual with
  | true =>
    rw [h, hsame]
    exact hsame
  | false =>
    rw [h, hsame]
    refine ⟨[], (List.append_nil path).symm, .inl (Option.some_ne_none _), fun v w hv hw => ?_⟩
    rw [← Option.some.inj hv, ← Option.some.inj hw]
    exact hsame

/-- The loop over the members that are left. -/
def MembersSearched (path : Text) (actual rest : List (Text × Value Text (Number F)))
    (found : Option Text) : Prop :=
  found.elim (∀ member ∈ rest, ∃ w, lookup actual member.1 = some w ∧ member.2.same w = true) fun q =>
    ∃ member ∈ rest, Names (path ++ renderStep (.key member.1)) q member.2.get? fun steps =>
      (lookup actual member.1).bind fun w => w.get? steps

/-- The loop over the items that are left, from an index on. -/
def ItemsSearched (path : Text) (actual : List (Value Text (Number F))) (index : Nat)
    (rest : List (Value Text (Number F))) (found : Option Text) : Prop :=
  found.elim (∀ j v, rest[j]? = some v → ∃ w, actual[index + j]? = some w ∧ v.same w = true) fun q =>
    ∃ j v, rest[j]? = some v ∧ Names (path ++ renderStep (.index (index + j))) q v.get? fun steps =>
      actual[index + j]?.bind fun w => w.get? steps

/-- One member, then those behind it. -/
theorem MembersSearched.cons {path name : Text} {v : Value Text (Number F)} {found : Option Text}
    {actual rest : List (Text × Value Text (Number F))}
    (hv : ∀ w, lookup actual name = some w →
      Searched (path ++ renderStep (.key name)) (firstIdentityDifference (path ++ renderStep (.key name)) v w) v w)
    (hrest : MembersSearched path actual rest found) :
    MembersSearched path actual ((name, v) :: rest)
      ((lookup actual name).elim (some (path ++ renderStep (.key name)))
      fun w => (firstIdentityDifference (path ++ renderStep (.key name)) v w).or found) := by
  cases hl : lookup actual name with
  | none =>
    refine ⟨(name, v), List.mem_cons_self, [], (List.append_nil _).symm, ?_⟩
    rw [hl]
    exact Value.unequal_missing v
  | some w =>
    have hw := hv w hl
    show MembersSearched _ _ _ ((firstIdentityDifference (path ++ renderStep (.key name)) v w).or found)
    cases hd : firstIdentityDifference (path ++ renderStep (.key name)) v w with
    | some q =>
      rw [hd] at hw
      refine ⟨(name, v), List.mem_cons_self, ?_⟩
      rw [hl]
      exact hw
    | none =>
      rw [hd] at hw
      rw [Option.none_or]
      cases found with
      | some q =>
        obtain ⟨member, hmem, hnames⟩ := hrest
        exact ⟨member, List.mem_cons_of_mem _ hmem, hnames⟩
      | none =>
        intro member hmem
        rcases List.mem_cons.mp hmem with rfl | hmem
        · exact ⟨w, hl, hw⟩
        · exact hrest member hmem

/-- One item, then those behind it. -/
theorem ItemsSearched.cons {path : Text} {index : Nat} {v : Value Text (Number F)} {found : Option Text}
    {actual rest : List (Value Text (Number F))}
    (hv : ∀ w, actual[index]? = some w →
      Searched (path ++ renderStep (.index index))
        (firstIdentityDifference (path ++ renderStep (.index index)) v w) v w)
    (hrest : ItemsSearched path actual (index + 1) rest found) :
    ItemsSearched path actual index (v :: rest) (actual[index]?.elim (some (path ++ renderStep (.index index)))
      fun w => (firstIdentityDifference (path ++ renderStep (.index index)) v w).or found) := by
  have hshift : ∀ j, index + 1 + j = index + (j + 1) := fun j => by omega
  cases hl : actual[index]? with
  | none =>
    refine ⟨0, v, rfl, [], (List.append_nil _).symm, ?_⟩
    rw [Nat.add_zero, hl]
    exact Value.unequal_missing v
  | some w =>
    have hw := hv w hl
    show ItemsSearched _ _ _ _ ((firstIdentityDifference (path ++ renderStep (.index index)) v w).or found)
    cases hd : firstIdentityDifference (path ++ renderStep (.index index)) v w with
    | some q =>
      rw [hd] at hw
      refine ⟨0, v, rfl, ?_⟩
      rw [Nat.add_zero, hl]
      exact hw
    | none =>
      rw [hd] at hw
      rw [Option.none_or]
      cases found with
      | some q =>
        obtain ⟨j, u, hj, hnames⟩ := hrest
        rw [hshift] at hnames
        exact ⟨j + 1, u, hj, hnames⟩
      | none =>
        intro j u hj
        cases j with
        | zero =>
          rw [← Option.some.inj hj]
          exact ⟨w, hl, hw⟩
        | succ j =>
          rw [← hshift]
          exact hrest j u hj

theorem searched_object {path : Text} {expected actual : List (Text × Value Text (Number F))} {found : Option Text}
    (he : (Value.object expected).Sorted) (ha : (Value.object actual).Sorted)
    (hfound : MembersSearched path actual expected found) :
    Searched path (found.or ((actual.find? fun member => (lookup expected member.1).isNone).map fun member =>
      path ++ renderStep (.key member.1))) (.object expected) (.object actual) := by
  have hnodup := Value.nodup_of_ordered he.1
  cases found with
  | some q =>
    obtain ⟨member, hmem, hnames⟩ := hfound
    have hchild : (Value.object expected).child (.key member.1) = some member.2 := Value.lookup_of_mem hnodup hmem
    exact Names.behind hchild hnames
  | none =>
    rw [Option.none_or]
    cases hfind : actual.find? fun member => (lookup expected member.1).isNone with
    | some member =>
      -- A member that only the actual object has.
      have hout : (lookup expected member.1).isNone = true := by simpa using List.find?_some hfind
      have hnone := Option.isNone_iff_eq_none.mp hout
      have hsome := Value.lookup_of_mem (Value.nodup_of_ordered ha.1) (List.mem_of_find?_eq_some hfind)
      refine ⟨[.key member.1], by rw [render, List.flatMap_singleton], ?_⟩
      show Value.Unequal ((lookup expected member.1).bind _) ((lookup actual member.1).bind _)
      rw [hnone, hsome]
      exact ⟨.inr (Option.some_ne_none _), fun _ _ h => absurd h (Option.some_ne_none _).symm⟩
    | none =>
      refine (Value.same_object he.1 ha.1).mpr ⟨hfound, fun name hname => ?_⟩
      obtain ⟨member, hmem, rfl⟩ := List.mem_map.mp hname
      have hin := List.find?_eq_none.mp hfind member hmem
      by_contra hout
      exact hin (Option.isNone_iff_eq_none.mpr (Value.lookup_eq_none.mpr hout))

theorem searched_array {path : Text} {expected actual : List (Value Text (Number F))} {found : Option Text}
    (hfound : ItemsSearched path actual 0 expected found) :
    Searched path (found.or (actual[expected.length]?.map fun _ => path ++ renderStep (.index expected.length)))
      (.array expected) (.array actual) := by
  cases found with
  | some q =>
    obtain ⟨j, v, hj, hnames⟩ := hfound
    rw [Nat.zero_add] at hnames
    have hchild : (Value.array expected).child (.index j) = some v := hj
    exact Names.behind hchild hnames
  | none =>
    rw [Option.none_or]
    have hsame : ∀ (j : Nat) v, expected[j]? = some v → ∃ w, actual[j]? = some w ∧ Value.same v w = true := by
      intro j v hj
      have hw := hfound j v hj
      rwa [Nat.zero_add] at hw
    cases hlast : actual[expected.length]? with
    | some w =>
      -- An item that only the actual array has.
      refine ⟨[.index expected.length], by rw [render, List.flatMap_singleton], ?_⟩
      show Value.Unequal (expected[expected.length]?.bind _) (actual[expected.length]?.bind _)
      rw [List.getElem?_eq_none (Nat.le_refl _), hlast]
      exact ⟨.inr (Option.some_ne_none _), fun _ _ h => absurd h (Option.some_ne_none _).symm⟩
    | none =>
      have hle := List.getElem?_eq_none_iff.mp hlast
      have hat : ∀ j (h : j < expected.length), ∃ (h' : j < actual.length), expected[j].same actual[j] = true := by
        intro j h
        obtain ⟨w, hw, hvw⟩ := hsame j _ (List.getElem?_eq_getElem h)
        obtain ⟨h', rfl⟩ := List.getElem?_eq_some_iff.mp hw
        exact ⟨h', hvw⟩
      have hge : expected.length ≤ actual.length := by
        by_contra hlt
        obtain ⟨h', -⟩ := hat actual.length (by omega)
        omega
      refine Value.sameItems_iff.mpr (List.forall₂_iff_get.mpr ⟨by omega, fun j h h' => ?_⟩)
      exact (hat j h).2

mutual

theorem firstIdentityDifference_searched (path : Text) : ∀ expected actual : Value Text (Number F),
    expected.Sorted → actual.Sorted →
      Searched path (firstIdentityDifference path expected actual) expected actual
  | .object expected, actual, he, ha => by
    cases actual with
    | object actual => exact searched_object he ha (firstMember_searched path actual ha expected he.2)
    | _ => exact searched_leaf rfl
  | .array expected, actual, he, ha => by
    cases actual with
    | array actual => exact searched_array (firstItem_searched path actual ha 0 expected he)
    | _ => exact searched_leaf rfl
  | .null, actual, _, _ => by cases actual <;> exact searched_leaf rfl
  | .bool b, actual, _, _ => by cases actual <;> exact searched_leaf rfl
  | .number n, actual, _, _ => by cases actual <;> exact searched_leaf rfl
  | .string s, actual, _, _ => by cases actual <;> exact searched_leaf rfl

theorem firstMember_searched (path : Text) (actual : List (Text × Value Text (Number F)))
    (ha : (Value.object actual).Sorted) : ∀ rest : List (Text × Value Text (Number F)),
      Value.SortedMembers rest → MembersSearched path actual rest (firstMember path actual rest)
  | [], _ => fun _ hmem => absurd hmem List.not_mem_nil
  | (_, v) :: rest, hs =>
    .cons (fun w hw => firstIdentityDifference_searched _ v w hs.1
      (Value.sortedMembers_iff.mp ha.2 _ (Value.lookup_mem hw))) (firstMember_searched path actual ha rest hs.2)

theorem firstItem_searched (path : Text) (actual : List (Value Text (Number F)))
    (ha : (Value.array actual).Sorted) : ∀ (index : Nat) (rest : List (Value Text (Number F))),
    Value.SortedItems rest → ItemsSearched path actual index rest (firstItem path actual index rest)
  | index, [], _ => fun j v hj => by cases hj
  | index, v :: rest, hs =>
    .cons (fun w hw => firstIdentityDifference_searched _ v w hs.1
      (Value.sortedItems_iff.mp ha _ (List.mem_of_getElem? hw)))
        (firstItem_searched path actual ha (index + 1) rest hs.2)

end

/-- **The search is complete.**  It finds nothing exactly in equal values, and a place it names is one where at
most one of the two values has something or where they have different things. -/
theorem firstIdentityDifference_spec (path : Text) (expected actual : JsonValue F) :
    (firstIdentityDifference path expected.1 actual.1 = none ↔ expected.1.same actual.1 = true) ∧
      ∀ q, firstIdentityDifference path expected.1 actual.1 = some q →
          Names path q expected.1.get? actual.1.get? := by
  have h := firstIdentityDifference_searched path expected.1 actual.1 expected.2 actual.2
  refine ⟨⟨fun hnone => ?_, fun hsame => ?_⟩, fun q hq => ?_⟩
  · rw [hnone] at h
    exact h
  · cases hd : firstIdentityDifference path expected.1 actual.1 with
    | none => rfl
    | some q =>
      rw [hd] at h
      obtain ⟨steps, -, hne⟩ := h
      exact absurd hne (Value.not_unequal_of_same expected.2 actual.2 hsame steps)
  · rw [hq] at h
    exact h

/-! ## The diagnostics -/

section Diagnostics

variable {ι : Type} [DecidableEq ι] (toValue : ι → Except Text (JsonValue F))

/-- `serde_json::to_value(identity).map_err(io::Error::other)`. -/
def identityValue (identity : ι) : IoResult (JsonValue F) :=
    (toValue identity).mapError fun message => ⟨.other, message⟩

/-- What both validations do with two identities that should be equal. -/
def validateIdentity (path : Text) (expected actual : ι) : Machine IoError Unit :=
  if expected = actual then pure () else do
    let expected ← liftM (identityValue toValue expected)
    let actual ← liftM (identityValue toValue actual)
    let field ← Machine.expect (firstIdentityDifference path expected.1 actual.1)
    liftM (Except.error (invalidData (utf8 "replay environment identity differs at " ++ field)) : IoResult Unit)

variable {toValue} {path : Text} {expected actual : ι} {v w : JsonValue F}

/-- What was found is what the error names. -/
theorem returns_validateIdentity {q : Text} (hne : expected ≠ actual) (hv : toValue expected = .ok v)
    (hw : toValue actual = .ok w) (hq : firstIdentityDifference path v.1 w.1 = some q) :
    (validateIdentity toValue path expected actual).Returns
      (.error (invalidData (utf8 "replay environment identity differs at " ++ q))) := by
  have hexpected : (liftM (identityValue toValue expected) : Machine IoError (JsonValue F)).Returns (.ok v) := by
    rw [identityValue, hv]
    rfl
  have hactual : (liftM (identityValue toValue actual) : Machine IoError (JsonValue F)).Returns (.ok w) := by
    rw [identityValue, hw]
    rfl
  rw [validateIdentity, if_neg hne]
  apply Machine.returns_bind_ok hexpected
  apply Machine.returns_bind_ok hactual
  exact Machine.returns_bind_ok (Machine.returns_expect hq) (Machine.returns_error _)

/-- Where the two serializations are not equal, the code does not panic. -/
theorem validateIdentity_not_faults
    (h : ∀ v w, toValue expected = .ok v → toValue actual = .ok w → v.1.same w.1 = false) :
    ¬ (validateIdentity toValue path expected actual).Faults := by
  by_cases heq : expected = actual
  · rw [validateIdentity, if_pos heq]
    exact (Machine.returns_pure ()).not_faults
  cases hv : toValue expected with
  | error message =>
    rw [validateIdentity, if_neg heq, identityValue, hv]
    exact (Machine.returns_bind (g := fun _ => .ok ()) (Machine.returns_error _) fun _ h => by cases h).not_faults
  | ok v =>
    cases hw : toValue actual with
    | error message =>
      have hexpected : (liftM (identityValue toValue expected) : Machine IoError (JsonValue F)).Returns
          (.ok v) := by
        rw [identityValue, hv]
        rfl
      rw [validateIdentity, if_neg heq]
      refine (Machine.returns_bind_ok hexpected ?_ : Machine.Returns _ (.error ⟨.other, message⟩)).not_faults
      rw [identityValue, hw]
      exact Machine.returns_bind (g := fun _ => .ok ()) (Machine.returns_error _) fun _ h => by cases h
    | ok w =>
      have hdiffer := h v w hv hw
      cases hq : firstIdentityDifference path v.1 w.1 with
      | some q => exact (returns_validateIdentity heq hv hw hq).not_faults
      | none =>
        rw [(firstIdentityDifference_spec path v w).1.mp hq] at hdiffer
        cases hdiffer

/-- Where different identities have different serializations, the check accepts equal identities, and names a
difference between others. -/
theorem validateIdentity_decides (hok : ∀ identity, ∃ v, toValue identity = .ok v)
    (hdiffer : ∀ v w, toValue expected = .ok v → toValue actual = .ok w → v.1.same w.1 = true →
      expected = actual) : expected = actual ∧ (validateIdentity toValue path expected actual).Returns (.ok ()) ∨
      expected ≠ actual ∧ ∃ v w q, toValue expected = .ok v ∧ toValue actual = .ok w ∧
        Names path q v.1.get? w.1.get? ∧ (validateIdentity toValue path expected actual).Returns
          (.error (invalidData (utf8 "replay environment identity differs at " ++ q))) := by
  by_cases heq : expected = actual
  · refine .inl ⟨heq, ?_⟩
    rw [validateIdentity, if_pos heq]
    exact Machine.returns_pure ()
  obtain ⟨v, hv⟩ := hok expected
  obtain ⟨w, hw⟩ := hok actual
  have hspec := firstIdentityDifference_spec path v w
  cases hq : firstIdentityDifference path v.1 w.1 with
  | none => exact absurd (hdiffer v w hv hw (hspec.1.mp hq)) heq
  | some q => exact .inr ⟨heq, v, w, q, hv, hw, hspec.2 q hq, returns_validateIdentity heq hv hw hq⟩

end Diagnostics

end SimFerret
