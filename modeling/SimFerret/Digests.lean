import Mathlib.Data.List.Nodup
import Mathlib.Data.List.Sort
import SimFerret.Protocol
import SimFerret.Workload.Identity

/-!
# SimFerret.Digests — what the digests of a run are taken of (`run.rs`, `vm.rs`)

* `digestParts`: the digest of a sequence of byte strings, each behind its length.
* `digestFixtureEntries`: the digest of a fixture, its entries in the order of their names.
* `digests_unambiguous`: **equal messages are of equal sequences, and of the same fixture**.
-/

namespace SimFerret

open Workload (be64 delimits_be64)

/-- `sort_unstable_by` with the comparison of a key: which of two elements with one key comes first is not
specified. -/
structure UnstableSort (α κ : Type) [LE κ] (key : α → κ) where
  sort : List α → List α
  perm : ∀ l, (sort l).Perm l
  sorted : ∀ l, (sort l).Pairwise fun a b => key a ≤ key b

section Order

variable {α κ : Type} [LE κ] [Std.Antisymm (LE.le : κ → κ → Prop)] {key : α → κ} (order : UnstableSort α κ key)

/-- Where the keys are distinct, the order is. -/
theorem UnstableSort.sort_eq_iff {l l' : List α} (h : (l.map key).Nodup) : order.sort l = order.sort l' ↔
    l.Perm l' := by
  constructor
  · intro heq
    exact (order.perm l).symm.trans (heq ▸ order.perm l')
  · intro hperm
    have hsame : (order.sort l).Perm (order.sort l') := (order.perm l).trans (hperm.trans (order.perm l').symm)
    refine hsame.eq_of_pairwise ?_ (order.sorted l) (order.sorted l')
    intro a b ha hb hab hba
    have hla := (order.perm l).mem_iff.mp ha
    have hlb := hperm.mem_iff.mpr ((order.perm l').mem_iff.mp hb)
    exact List.inj_on_of_nodup_map h hla hlb (Std.Antisymm.antisymm _ _ hab hba)

end Order

/-! ## The messages -/

/-- `u64::to_le_bytes`. -/
def le64 (n : Nat) : Bytes := (be64 n).reverse

/-- A byte string behind its big-endian length. -/
def digestPart (part : Bytes) : Bytes := be64 part.length ++ part

/-- What `digest_parts` feeds to SHA-256. -/
def partsMessage (parts : List Bytes) : Bytes := parts.flatMap digestPart

def digestParts (sha256 : Sha256) (parts : List Bytes) : Text := sha256Hex sha256 (partsMessage parts)

/-- One entry of a fixture: its name and its contents, each behind its little-endian length. -/
def fixtureEntry (entry : Text × Bytes) : Bytes :=
  le64 entry.1.length ++ entry.1 ++ le64 entry.2.length ++ entry.2

/-- What `digest_fixture_entries` feeds to SHA-256. -/
def fixtureMessage (order : UnstableSort (Text × Bytes) Text Prod.fst) (entries : List (Text × Bytes)) : Bytes :=
  let entries := order.sort entries
  utf8 "simferret-tftp-fixture-v1\x00" ++ le64 entries.length ++ entries.flatMap fixtureEntry

def digestFixtureEntries (sha256 : Sha256) (order : UnstableSort (Text × Bytes) Text Prod.fst)
    (entries : List (Text × Bytes)) : Text :=
  sha256Hex sha256 (fixtureMessage order entries)

/-! ## Where a field ends -/

theorem delimits_le64 : Delimits (fun n => n < u64Size) le64 id := by
  have hlength : ∀ n, n < u64Size → (le64 n).length = 8 := fun _ _ => rfl
  refine (delimits_fixed hlength).of_key fun a b ha hb heq => ?_
  have hbytes : be64 a ++ [] = be64 b ++ [] := by
    rw [List.append_nil, List.append_nil]
    exact List.reverse_injective heq
  exact (delimits_be64 a b ha hb [] [] hbytes).1

/-- A byte string behind its length, whatever encodes the length. -/
theorem delimits_framed {encode : Nat → Bytes} (h : Delimits (fun n => n < u64Size) encode id) :
    Delimits (fun value : Bytes => value.length < u64Size) (fun value => encode value.length ++ value) id := by
  have hlength := h.comap (List.length : Bytes → Nat)
  refine (hlength.append fun width => delimits_fixed fun value hvalue => hvalue.2).of_key fun a b _ _ heq => ?_
  exact (Prod.mk.inj heq).2

/-- A name and contents whose lengths the code can write. -/
def EntryFits (entry : Text × Bytes) : Prop := entry.1.length < u64Size ∧ entry.2.length < u64Size

instance (entry : Text × Bytes) : Decidable (EntryFits entry) := inferInstanceAs (Decidable (_ ∧ _))

theorem delimits_fixtureEntry : Delimits EntryFits fixtureEntry id := by
  have hname := (delimits_framed delimits_le64).comap (Prod.fst : Text × Bytes → Text)
  have hcontents := (delimits_framed delimits_le64).comap (Prod.snd : Text × Bytes → Bytes)
  have hboth := (hname.mono fun entry (h : EntryFits entry) => h.1).append_plain
    (hcontents.mono fun entry h => h.2)
  intro a b ha hb r s heq
  have hsplit : ∀ entry, fixtureEntry entry =
      (le64 entry.1.length ++ entry.1) ++ (le64 entry.2.length ++ entry.2) := fun entry => List.append_assoc _ _ _
  rw [hsplit, hsplit] at heq
  obtain ⟨hkey, hrest⟩ := hboth a b ha hb r s heq
  exact ⟨hkey, hrest⟩

theorem framed_ne_nil (n : Nat) (rest : Bytes) : be64 n ++ rest ≠ [] ∧ le64 n ++ rest ≠ [] :=
  ⟨List.cons_ne_nil _ _, List.cons_ne_nil _ _⟩

/-- **The messages are unambiguous**: equal messages of `digest_parts` are of equal lists, equal messages of
`digest_fixture_entries` are of the same entries in some order. -/
theorem digests_unambiguous (order : UnstableSort (Text × Bytes) Text Prod.fst) :
    (∀ parts parts' : List Bytes, (∀ part ∈ parts, part.length < u64Size) →
      (∀ part ∈ parts', part.length < u64Size) → (partsMessage parts = partsMessage parts' ↔ parts = parts')) ∧
    ∀ entries entries' : List (Text × Bytes), (entries.map Prod.fst).Nodup → (entries'.map Prod.fst).Nodup →
      (∀ entry ∈ entries, EntryFits entry) → (∀ entry ∈ entries', EntryFits entry) →
      (fixtureMessage order entries = fixtureMessage order entries' ↔ entries.Perm entries') := by
  constructor
  · intro parts parts' hparts hparts'
    refine ⟨fun heq => ?_, fun heq => heq ▸ rfl⟩
    have hkeys := (delimits_framed delimits_be64).flatMap (fun part _ =>
      (framed_ne_nil _ part).1) parts parts' hparts hparts' heq
    rwa [List.map_id, List.map_id] at hkeys
  · intro entries entries' hnames _ hfits hfits'
    rw [← order.sort_eq_iff hnames]
    refine ⟨fun heq => ?_, fun heq => ?_⟩
    · have hsame : (order.sort entries).flatMap fixtureEntry = (order.sort entries').flatMap fixtureEntry := by
        have hlengths : (utf8 "simferret-tftp-fixture-v1\x00" ++ le64 (order.sort entries).length).length =
            (utf8 "simferret-tftp-fixture-v1\x00" ++ le64 (order.sort entries').length).length := rfl
        exact (List.append_inj heq hlengths).2
      have hne : ∀ entry, EntryFits entry → fixtureEntry entry ≠ [] := fun entry _ => List.cons_ne_nil _ _
      have hkeys := delimits_fixtureEntry.flatMap hne (order.sort entries) (order.sort entries')
        (fun entry hentry => hfits entry ((order.perm _).mem_iff.mp hentry))
        (fun entry hentry => hfits' entry ((order.perm _).mem_iff.mp hentry)) hsame
      rwa [List.map_id, List.map_id] at hkeys
    · rw [fixtureMessage, fixtureMessage, heq]

/-- Insertion is such a sort. -/
def insertionOrder : UnstableSort (Text × Bytes) Text Prod.fst where
  sort entries := entries.insertionSort fun left right => left.1 ≤ right.1
  perm entries := List.perm_insertionSort _ entries
  sorted entries := by
    have htotal : Std.Total fun left right : Text × Bytes => left.1 ≤ right.1 :=
      ⟨fun left right => Std.Total.total left.1 right.1⟩
    have htrans : IsTrans (Text × Bytes) fun left right => left.1 ≤ right.1 :=
      ⟨fun _ _ _ hab hbc => Trans.trans hab hbc⟩
    exact List.pairwise_insertionSort _ entries

def sampleFixture : List (Text × Bytes) := [("request-0002", [98, 10]), ("request-0001", [97, 10])]

theorem digests_unambiguous_sample : partsMessage [[1], [2, 3]] ≠ partsMessage [[1, 2], [3]] ∧
    fixtureMessage insertionOrder sampleFixture = fixtureMessage insertionOrder sampleFixture.reverse := by
  obtain ⟨hparts, hfixtures⟩ := digests_unambiguous insertionOrder
  constructor
  · rw [ne_eq, hparts [[1], [2, 3]] [[1, 2], [3]] (by decide) (by decide)]
    decide
  · exact (hfixtures sampleFixture sampleFixture.reverse (by decide) (by decide) (by decide) (by decide)).mpr
      (List.reverse_perm sampleFixture).symm

end SimFerret
