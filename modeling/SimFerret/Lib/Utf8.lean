import Mathlib.Data.List.Basic
import Mathlib.Tactic.Common

/-!
# SimFerret.Lib.Utf8 — lossy decoding of bytes that should be UTF-8

A byte string is read one scalar at a time; a maximal ill-formed part becomes U+FFFD.

* `scalarLength`: how many bytes the scalar at the head of a byte string takes, or how many bytes of it are ill
  formed.
* `lossy`: the bytes of the decoded text.
* `lossy_of_ascii`, `eq_of_lossy_ascii`: ASCII is decoded to itself, and nothing else is decoded to ASCII.
* `length_le_lossy`: decoding never shortens.
* `valid_induction`, `valid_split`: a well-formed text is a sequence of scalars, and may be cut between them.
* `valid_lossy`, `lossy_of_valid`: what is decoded is well formed, and what is well formed is decoded to itself.
* `scalars`: the scalars of a text; `codePoint_injective`: a scalar is known by its number.
-/

namespace Utf8

/-- A continuation byte. -/
def isContinuation (b : UInt8) : Bool := 0x80 ≤ b && b ≤ 0xbf

/-- The second bytes that the lead byte of a longer scalar allows, and how many bytes follow the second. -/
def leadRange (b : UInt8) : Option (UInt8 × UInt8 × Nat) :=
  if 0xc2 ≤ b && b ≤ 0xdf then some (0x80, 0xbf, 0)
  else if b == 0xe0 then some (0xa0, 0xbf, 1)
  else if b == 0xed then some (0x80, 0x9f, 1)
  else if 0xe1 ≤ b && b ≤ 0xef then some (0x80, 0xbf, 1)
  else if b == 0xf0 then some (0x90, 0xbf, 2)
  else if 0xf1 ≤ b && b ≤ 0xf3 then some (0x80, 0xbf, 2)
  else if b == 0xf4 then some (0x80, 0x8f, 2)
  else none

/-- How many of the next `want` bytes are continuation bytes, counted up to the first that is not. -/
def continuations : Nat → List UInt8 → Nat
  | 0, _ => 0
  | _ + 1, [] => 0
  | want + 1, b :: rest => if isContinuation b then continuations want rest + 1 else 0

/-- The part at the head of `b :: rest`: `(true, n)` for a scalar of `n` bytes, `(false, n)` for an ill-formed
part of `n` bytes. -/
def scalarLength (b : UInt8) (rest : List UInt8) : Bool × Nat :=
  if b < 0x80 then (true, 1)
  else match leadRange b, rest with
    | some (lo, hi, want), c :: rest' =>
      if lo ≤ c && c ≤ hi then (continuations want rest' == want, continuations want rest' + 2) else (false, 1)
    | _, _ => (false, 1)

/-- The encoding of U+FFFD. -/
def replacement : List UInt8 := [0xef, 0xbf, 0xbd]

/-- Decode with `skip` bytes of the current part still to be passed over. -/
def lossyFrom : Nat → List UInt8 → List UInt8
  | _, [] => []
  | skip + 1, _ :: rest => lossyFrom skip rest
  | 0, b :: rest =>
    match scalarLength b rest with
    | (true, n) => (b :: rest).take n ++ lossyFrom (n - 1) rest
    | (false, n) => replacement ++ lossyFrom (n - 1) rest

/-- The text that a byte string decodes to, with U+FFFD for every ill-formed part. -/
def lossy (bytes : List UInt8) : List UInt8 := lossyFrom 0 bytes

/-- Well-formedness with `skip` bytes of the current scalar still to be passed over. -/
def validFrom : Nat → List UInt8 → Bool
  | _, [] => true
  | skip + 1, _ :: rest => validFrom skip rest
  | 0, b :: rest =>
    match scalarLength b rest with
    | (true, n) => validFrom (n - 1) rest
    | (false, _) => false

/-- The byte string is well-formed UTF-8. -/
def valid (bytes : List UInt8) : Bool := validFrom 0 bytes

theorem continuations_le : ∀ (want : Nat) (rest : List UInt8), continuations want rest ≤ want ∧
    continuations want rest ≤ rest.length
  | 0, rest => ⟨Nat.le_refl _, Nat.zero_le _⟩
  | want + 1, [] => ⟨Nat.zero_le _, Nat.le_refl _⟩
  | want + 1, b :: rest => by
    obtain ⟨h1, h2⟩ := continuations_le want rest
    rw [continuations]
    split
    · exact ⟨by omega, by rw [List.length_cons]; omega⟩
    · exact ⟨Nat.zero_le _, Nat.zero_le _⟩

/-- A part has a byte, and an ill-formed part has at most three. -/
theorem scalarLength_bounds {b : UInt8} {rest : List UInt8} {ok : Bool} {n : Nat}
    (h : scalarLength b rest = (ok, n)) : 0 < n ∧ (ok = false → n ≤ 3) := by
  have hone : (true, 1) = (ok, n) ∨ (false, 1) = (ok, n) → 0 < n ∧ (ok = false → n ≤ 3) := by
    rintro (h | h)
    all_goals
      cases h
      exact ⟨Nat.one_pos, fun _ => by omega⟩
  unfold scalarLength at h
  split at h
  · exact hone (.inl h)
  · split at h
    · rename_i lo hi want c rest' hlead
      split at h
      · have hle := (continuations_le want rest').1
        have hwant : want ≤ 2 := by
          unfold leadRange at hlead
          split_ifs at hlead
          all_goals
            cases hlead
            omega
        cases h
        refine ⟨by omega, fun hok => ?_⟩
        have hne : continuations want rest' ≠ want := by simpa using hok
        omega
      · exact hone (.inr h)
    · exact hone (.inr h)

theorem lossyFrom_ascii {b : UInt8} (hb : b < 0x80) (rest : List UInt8) :
    lossyFrom 0 (b :: rest) = b :: lossyFrom 0 rest := by
  simp [lossyFrom, scalarLength, hb]

/-- ASCII is decoded to itself. -/
theorem lossy_of_ascii : ∀ {bytes : List UInt8}, (∀ b ∈ bytes, b < 0x80) → lossy bytes = bytes
  | [], _ => rfl
  | b :: rest, h => by
    rw [lossy, lossyFrom_ascii (h b List.mem_cons_self)]
    exact congrArg (b :: ·) (lossy_of_ascii fun c hc => h c (List.mem_cons_of_mem _ hc))

theorem valid_of_ascii : ∀ {bytes : List UInt8}, (∀ b ∈ bytes, b < 0x80) → valid bytes = true
  | [], _ => rfl
  | b :: rest, h => by
    have hb := h b List.mem_cons_self
    rw [valid, validFrom]
    simp only [scalarLength, hb, if_true]
    exact valid_of_ascii fun c hc => h c (List.mem_cons_of_mem _ hc)

/-- Only ASCII is decoded to ASCII. -/
theorem eq_of_lossy_ascii : ∀ {bytes : List UInt8}, (∀ b ∈ lossy bytes, b < 0x80) → bytes = lossy bytes
  | [], _ => rfl
  | b :: rest, h => by
    by_cases hb : b < 0x80
    · rw [lossy, lossyFrom_ascii hb] at h ⊢
      exact congrArg (b :: ·) (eq_of_lossy_ascii fun c hc => h c (List.mem_cons_of_mem _ hc))
    · -- a scalar that starts with `b` keeps `b`, an ill-formed part leaves a replacement
      exfalso
      rw [lossy, lossyFrom] at h
      cases hs : scalarLength b rest with
      | mk ok n =>
        rw [hs] at h
        cases ok with
        | true =>
          have hn : 0 < n := (scalarLength_bounds hs).1
          have hmem : b ∈ (b :: rest).take n := by
            cases n with
            | zero => omega
            | succ n => simp
          exact hb (h b (List.mem_append_left _ hmem))
        | false =>
          exact absurd (h 0xef (by simp [replacement])) (by decide)

example : lossy [0x61, 0xff, 0x62] = [0x61, 0xef, 0xbf, 0xbd, 0x62] := by decide

/-- **Lossy decoding never shortens.** -/
theorem length_le_lossyFrom : ∀ (bytes : List UInt8) (skip : Nat),
    bytes.length ≤ (lossyFrom skip bytes).length + skip
  | [], skip => by simp
  | b :: rest, skip + 1 => by
    have ih := length_le_lossyFrom rest skip
    rw [lossyFrom, List.length_cons]
    omega
  | b :: rest, 0 => by
    rw [lossyFrom]
    cases hs : scalarLength b rest with
    | mk ok n =>
      have ih := length_le_lossyFrom rest (n - 1)
      obtain ⟨hpos, hn⟩ := scalarLength_bounds hs
      cases ok with
      | true =>
        simp only [List.length_append, List.length_take, List.length_cons]
        omega
      | false =>
        have hn := hn rfl
        simp only [List.length_append, List.length_cons]
        have hthree : replacement.length = 3 := rfl
        omega

theorem length_le_lossy (bytes : List UInt8) : bytes.length ≤ (lossy bytes).length := length_le_lossyFrom bytes 0

/-! ## Well-formed texts

A well-formed text is a sequence of scalars, and only a scalar's first byte is no continuation byte. -/

/-- The bytes of one scalar. -/
def IsScalar (s : List UInt8) : Prop := ∃ b rest, s = b :: rest ∧ scalarLength b rest = (true, rest.length + 1)

theorem not_continuation_of_lt {b : UInt8} (h : b < 0x80) : isContinuation b = false := by
  simp only [isContinuation, Bool.and_eq_false_iff, decide_eq_false_iff_not, UInt8.le_iff_toNat_le]
  rw [UInt8.lt_iff_toNat_lt] at h
  omega

theorem not_continuation_of_lead {b : UInt8} {range : UInt8 × UInt8 × Nat} (h : leadRange b = some range) :
    isContinuation b = false := by
  unfold leadRange at h
  simp only [isContinuation, Bool.and_eq_false_iff, decide_eq_false_iff_not, UInt8.le_iff_toNat_le]
  split_ifs at h with h1 h2 h3 h4 h5 h6 h7
  all_goals
    simp only [Bool.and_eq_true, decide_eq_true_eq, beq_iff_eq, UInt8.le_iff_toNat_le] at *
    first
    | (subst_vars; decide)
    | (right
       simp at *
       omega)

theorem lead_bounds {b lo hi : UInt8} {want : Nat} (h : leadRange b = some (lo, hi, want)) : 0x80 ≤ lo ∧
    hi ≤ 0xbf := by
  unfold leadRange at h
  split_ifs at h
  all_goals
    cases h
    decide

/-- The bytes behind the continuation bytes that were counted do not matter. -/
theorem continuations_append {want : Nat} {rest : List UInt8} (h : continuations want rest = want)
    (more : List UInt8) : continuations want (rest ++ more) = want := by
  induction want generalizing rest with
  | zero => rfl
  | succ want ih =>
    cases rest with
    | nil => cases h
    | cons c rest =>
      rw [List.cons_append, continuations]
      rw [continuations] at h
      split at h
      next hc => rw [if_pos hc, ih (Nat.succ.inj h)]
      next => cases h

theorem continuations_take {want : Nat} {rest : List UInt8} (h : continuations want rest = want) :
    continuations want (rest.take want) = want ∧ ∀ c ∈ rest.take want, isContinuation c = true := by
  induction want generalizing rest with
  | zero => exact ⟨rfl, by simp⟩
  | succ want ih =>
    cases rest with
    | nil => cases h
    | cons c rest =>
      rw [continuations] at h
      split at h
      next hc =>
        obtain ⟨htake, hall⟩ := ih (Nat.succ.inj h)
        rw [List.take_succ_cons, continuations, if_pos hc, htake]
        exact ⟨rfl, List.forall_mem_cons.mpr ⟨hc, hall⟩⟩
      next => cases h

/-- A scalar ends where it says, whatever stands behind it, and all but its first byte are continuation bytes. -/
theorem scalarLength_true {b : UInt8} {rest : List UInt8} {n : Nat} (h : scalarLength b rest = (true, n)) :
    n ≤ rest.length + 1 ∧ isContinuation b = false ∧ (∀ c ∈ rest.take (n - 1), isContinuation c = true) ∧
      ∀ more, scalarLength b (rest.take (n - 1) ++ more) = (true, n) := by
  unfold scalarLength at h
  split at h
  next hb =>
    obtain ⟨-, rfl⟩ := Prod.mk.inj h
    refine ⟨by omega, not_continuation_of_lt hb, by simp, fun more => ?_⟩
    unfold scalarLength
    rw [if_pos hb]
  next hb =>
    split at h
    next lo hi want c rest hlead =>
      split at h
      next hc =>
        obtain ⟨hall, rfl⟩ := Prod.mk.inj h
        have hall : continuations want rest = want := by simpa using hall
        obtain ⟨htake, hmem⟩ := continuations_take hall
        obtain ⟨hlo, hhi⟩ := lead_bounds hlead
        have hle := (continuations_le want rest).2
        rw [hall] at hle ⊢
        refine ⟨by rw [List.length_cons]; omega, not_continuation_of_lead hlead, ?_, fun more => ?_⟩
        · rw [show want + 2 - 1 = want + 1 by omega, List.take_succ_cons]
          refine List.forall_mem_cons.mpr ⟨?_, hmem⟩
          simp only [Bool.and_eq_true, decide_eq_true_eq, isContinuation] at hc ⊢
          exact ⟨UInt8.le_trans hlo hc.1, UInt8.le_trans hc.2 hhi⟩
        · rw [show want + 2 - 1 = want + 1 by omega, List.take_succ_cons, List.cons_append]
          unfold scalarLength
          rw [if_neg hb, hlead]
          simp only [if_pos hc, continuations_append htake, beq_self_eq_true]
      next => cases h
    next => cases h

theorem validFrom_eq (skip : Nat) (text : List UInt8) : validFrom skip text = valid (text.drop skip) := by
  induction skip generalizing text with
  | zero => rfl
  | succ skip ih =>
    cases text with
    | nil => simp [valid, validFrom]
    | cons b rest => rw [validFrom, ih, List.drop_succ_cons]

/-- A text that is not empty starts with a scalar. -/
theorem valid_cons_iff {b : UInt8} {rest : List UInt8} :
    valid (b :: rest) = true ↔ ∃ n, scalarLength b rest = (true, n) ∧ valid (rest.drop (n - 1)) = true := by
  rw [valid, validFrom]
  rcases hs : scalarLength b rest with ⟨ok, n⟩
  cases ok with
  | false => simp
  | true => simp [validFrom_eq]

theorem IsScalar.ne_nil {s : List UInt8} (h : IsScalar s) : s ≠ [] := by
  obtain ⟨b, rest, rfl, -⟩ := h
  exact List.cons_ne_nil _ _

theorem valid_scalar_append {s text : List UInt8} (hs : IsScalar s) : valid (s ++ text) = valid text := by
  obtain ⟨b, rest, rfl, hlen⟩ := hs
  obtain ⟨-, -, -, hmore⟩ := scalarLength_true hlen
  have hs := hmore text
  rw [Nat.add_sub_cancel, List.take_length] at hs
  rw [List.cons_append, valid, validFrom, hs]
  simp only [validFrom_eq, Nat.add_sub_cancel, List.drop_left]

/-- The scalars of a well-formed text. -/
theorem valid_induction {motive : ∀ text, valid text = true → Prop} (nil : motive [] rfl)
    (scalar : ∀ s text (hs : IsScalar s) (h : valid text = true), motive text h →
      motive (s ++ text) ((valid_scalar_append hs).trans h)) (text : List UInt8) (h : valid text = true) :
    motive text h := by
  induction hn : text.length using Nat.strongRecOn generalizing text with
  | _ n ih =>
    cases text with
    | nil => exact nil
    | cons b rest =>
      obtain ⟨k, hlen, hvalid⟩ := valid_cons_iff.mp h
      obtain ⟨hle, -, -, hmore⟩ := scalarLength_true hlen
      have hpos := (scalarLength_bounds hlen).1
      have hscalar : IsScalar (b :: rest.take (k - 1)) := by
        refine ⟨b, _, rfl, ?_⟩
        have hself := hmore []
        rw [List.append_nil] at hself
        rw [hself, List.length_take]
        congr 1
        omega
      have hmotive := scalar _ _ hscalar hvalid (ih (rest.drop (k - 1)).length (by
        rw [← hn, List.length_drop, List.length_cons]
        omega) _ hvalid rfl)
      simp only [List.cons_append, List.take_append_drop] at hmotive
      exact hmotive

theorem valid_append {a b : List UInt8} (ha : valid a = true) : valid (a ++ b) = valid b := by
  induction a, ha using valid_induction with
  | nil => rfl
  | scalar s text hs _ ih => rw [List.append_assoc, valid_scalar_append hs, ih]

/-- A byte that starts a well-formed text is no continuation byte. -/
theorem not_continuation_of_valid {b : UInt8} {rest : List UInt8} (h : valid (b :: rest) = true) :
    isContinuation b = false := by
  obtain ⟨n, hlen, -⟩ := valid_cons_iff.mp h
  exact (scalarLength_true hlen).2.1

theorem IsScalar.continuation {s front behind : List UInt8} (hs : IsScalar s) (h : s = front ++ behind)
    (hfront : front ≠ []) : ∀ c ∈ behind, isContinuation c = true := by
  obtain ⟨b, rest, rfl, hlen⟩ := hs
  obtain ⟨-, -, hrest, -⟩ := scalarLength_true hlen
  rw [Nat.add_sub_cancel, List.take_length] at hrest
  obtain ⟨first, more, rfl⟩ := List.exists_cons_of_ne_nil hfront
  rw [List.cons_append] at h
  intro c hc
  exact hrest c ((List.cons.inj h).2 ▸ List.mem_append_right _ hc)

/-- **A text may be cut in front of any byte that is no continuation byte.** -/
theorem valid_split {text : List UInt8} (h : valid text = true) {a b : List UInt8} (htext : text = a ++ b)
    (hb : ∀ c ∈ b.head?, isContinuation c = false) : valid a = true ∧ valid b = true := by
  induction text, h using valid_induction generalizing a with
  | nil =>
    obtain ⟨rfl, rfl⟩ := List.append_eq_nil_iff.mp htext.symm
    exact ⟨rfl, rfl⟩
  | scalar s text hs hvalid ih =>
    rcases List.append_eq_append_iff.mp htext with ⟨front, rfl, hrest⟩ | ⟨behind, hsplit, rfl⟩
    · obtain ⟨hfront, hvalidb⟩ := ih hrest
      exact ⟨by rw [valid_scalar_append hs, hfront], hvalidb⟩
    · by_cases ha : a = []
      · subst ha
        rw [List.nil_append] at hsplit
        subst hsplit
        exact ⟨rfl, by rw [valid_scalar_append hs, hvalid]⟩
      · cases behind with
        | nil =>
          rw [List.append_nil] at hsplit
          subst hsplit
          have hself : valid (s ++ []) = valid [] := valid_scalar_append hs
          rw [List.append_nil] at hself
          exact ⟨hself, hvalid⟩
        | cons c behind =>
          have hc := hs.continuation hsplit ha c List.mem_cons_self
          rw [hb c rfl] at hc
          cases hc

theorem lossyFrom_eq (skip : Nat) (bytes : List UInt8) : lossyFrom skip bytes = lossy (bytes.drop skip) := by
  induction skip generalizing bytes with
  | zero => rfl
  | succ skip ih =>
    cases bytes with
    | nil => simp [lossy, lossyFrom]
    | cons b rest => rw [lossyFrom, ih, List.drop_succ_cons]

theorem isScalar_replacement : IsScalar replacement := ⟨0xef, [0xbf, 0xbd], rfl, rfl⟩

theorem isScalar_take {b : UInt8} {rest : List UInt8} {n : Nat} (h : scalarLength b rest = (true, n)) :
    IsScalar ((b :: rest).take n) := by
  obtain ⟨hle, -, -, hmore⟩ := scalarLength_true h
  have hpos := (scalarLength_bounds h).1
  obtain ⟨k, rfl⟩ : ∃ k, n = k + 1 := ⟨n - 1, by omega⟩
  refine ⟨b, rest.take k, List.take_succ_cons, ?_⟩
  have hself := hmore []
  rw [List.append_nil, Nat.add_sub_cancel] at hself
  rw [hself, List.length_take]
  congr 1
  omega

/-- **What is decoded is well formed.** -/
theorem valid_lossy (bytes : List UInt8) : valid (lossy bytes) = true := by
  induction hn : bytes.length using Nat.strongRecOn generalizing bytes with
  | _ k ih =>
    cases bytes with
    | nil => rfl
    | cons b rest =>
      have hrest : ∀ n, valid (lossy (rest.drop n)) = true := by
        intro n
        refine ih _ ?_ _ rfl
        rw [← hn, List.length_drop, List.length_cons]
        omega
      rw [lossy, lossyFrom]
      rcases hs : scalarLength b rest with ⟨ok, n⟩
      cases ok with
      | true =>
        simp only [lossyFrom_eq]
        rw [valid_scalar_append (isScalar_take hs), hrest]
      | false =>
        simp only [lossyFrom_eq]
        rw [valid_scalar_append isScalar_replacement, hrest]

/-- The scalars of the bytes, with `skip` bytes of the current one still to be passed over; a byte that starts
no scalar stands with those that were read as part of it. -/
def scalarsFrom : Nat → List UInt8 → List (List UInt8)
  | _, [] => []
  | skip + 1, _ :: rest => scalarsFrom skip rest
  | 0, b :: rest =>
    let n := (scalarLength b rest).2
    (b :: rest).take n :: scalarsFrom (n - 1) rest

def scalars (text : List UInt8) : List (List UInt8) := scalarsFrom 0 text

theorem flatten_scalarsFrom (skip : Nat) (text : List UInt8) :
    (scalarsFrom skip text).flatten = text.drop skip := by
  induction text generalizing skip with
  | nil => simp [scalarsFrom]
  | cons b rest ih =>
    cases skip with
    | succ skip => rw [scalarsFrom, ih, List.drop_succ_cons]
    | zero =>
      rcases hlen : scalarLength b rest with ⟨ok, n⟩
      obtain ⟨k, rfl⟩ : ∃ k, n = k + 1 := ⟨n - 1, by have := (scalarLength_bounds hlen).1; omega⟩
      rw [scalarsFrom, hlen, List.flatten_cons, ih, Nat.add_sub_cancel, List.take_succ_cons, List.cons_append,
        List.take_append_drop, List.drop_zero]

/-- The scalars of a text make it up. -/
theorem flatten_scalars (text : List UInt8) : (scalars text).flatten = text := flatten_scalarsFrom 0 text

theorem scalarsFrom_append (s text : List UInt8) : scalarsFrom s.length (s ++ text) = scalars text := by
  induction s with
  | nil => rfl
  | cons b s ih => rw [List.length_cons, List.cons_append, scalarsFrom, ih]

theorem scalars_scalar_append {s text : List UInt8}
    (hs : IsScalar s) : scalars (s ++ text) = s :: scalars text := by
  obtain ⟨b, rest, rfl, hlen⟩ := hs
  have hs := (scalarLength_true hlen).2.2.2 text
  rw [Nat.add_sub_cancel, List.take_length] at hs
  rw [List.cons_append, scalars, scalarsFrom, hs, Nat.add_sub_cancel, scalarsFrom_append, List.take_succ_cons,
    List.take_left]

theorem isScalar_of_mem_scalars {text : List UInt8} (h : valid text = true) : ∀ s ∈ scalars text, IsScalar s := by
  induction text, h using valid_induction with
  | nil => exact fun s hs => absurd hs List.not_mem_nil
  | scalar s text hs _ ih =>
    rw [scalars_scalar_append hs]
    exact List.forall_mem_cons.mpr ⟨hs, ih⟩

/-- A scalar says where it ends. -/
theorem IsScalar.append_inj {s t r r' : List UInt8} (hs : IsScalar s) (ht : IsScalar t) (h : s ++ r = t ++ r') :
    s = t ∧ r = r' := by
  obtain ⟨b, rest, rfl, hlen⟩ := hs
  obtain ⟨c, rest', rfl, hlen'⟩ := ht
  have hmore := (scalarLength_true hlen).2.2.2 r
  have hmore' := (scalarLength_true hlen').2.2.2 r'
  rw [Nat.add_sub_cancel, List.take_length] at hmore hmore'
  obtain ⟨rfl, htail⟩ := List.cons.inj h
  have hrest : rest ++ r = rest' ++ r' := htail
  rw [hrest, hmore'] at hmore
  have hlength : rest'.length + 1 = rest.length + 1 := congrArg Prod.snd hmore
  exact List.append_inj h (by rw [List.length_cons, List.length_cons, hlength])

/-! ## Code points -/

/-- The code point of the bytes of one scalar. -/
def codePoint : List UInt8 → Nat
  | [] => 0
  | lead :: rest =>
    let payload := match rest.length with
      | 0 => lead.toNat
      | 1 => lead.toNat % 32
      | 2 => lead.toNat % 16
      | _ => lead.toNat % 8
    rest.foldl (fun value byte => value * 64 + byte.toNat % 64) payload

/-- The bounds on the first two bytes of a longer scalar. -/
theorem lead_shape {b lo hi : UInt8} {want : Nat} (h : leadRange b = some (lo, hi, want)) :
    (want = 0 ∧ 194 ≤ b.toNat ∧ b.toNat ≤ 223) ∨
      (want = 1 ∧ 224 ≤ b.toNat ∧ b.toNat ≤ 239 ∧ (b.toNat = 224 → 160 ≤ lo.toNat)) ∨
      (want = 2 ∧ 240 ≤ b.toNat ∧ b.toNat ≤ 244 ∧ (b.toNat = 240 → 144 ≤ lo.toNat)) := by
  unfold leadRange at h
  split_ifs at h with h1 h2 h3 h4 h5 h6 h7
  all_goals
    simp only [Bool.and_eq_true, decide_eq_true_eq, beq_iff_eq, UInt8.le_iff_toNat_le] at *
    cases h
    first
    | (subst_vars; decide)
    | (simp at *
       omega)

theorem isContinuation_iff {b : UInt8} : isContinuation b = true ↔ 128 ≤ b.toNat ∧ b.toNat ≤ 191 := by
  simp only [isContinuation, Bool.and_eq_true, decide_eq_true_eq, UInt8.le_iff_toNat_le]
  rfl

/-- The bytes of a scalar. -/
theorem IsScalar.shape {s : List UInt8} (hs : IsScalar s) :
    (∃ b, s = [b] ∧ b.toNat < 128) ∨
      (∃ b c, s = [b, c] ∧ (194 ≤ b.toNat ∧ b.toNat ≤ 223) ∧ (128 ≤ c.toNat ∧ c.toNat ≤ 191)) ∨
      (∃ b c d, s = [b, c, d] ∧ (224 ≤ b.toNat ∧ b.toNat ≤ 239) ∧ (b.toNat = 224 → 160 ≤ c.toNat) ∧
        (128 ≤ c.toNat ∧ c.toNat ≤ 191) ∧ (128 ≤ d.toNat ∧ d.toNat ≤ 191)) ∨
      ∃ b c d e, s = [b, c, d, e] ∧ (240 ≤ b.toNat ∧ b.toNat ≤ 244) ∧ (b.toNat = 240 → 144 ≤ c.toNat) ∧
        (128 ≤ c.toNat ∧ c.toNat ≤ 191) ∧ (128 ≤ d.toNat ∧ d.toNat ≤ 191) ∧ 128 ≤ e.toNat ∧ e.toNat ≤ 191 := by
  obtain ⟨b, rest, rfl, hlen⟩ := hs
  have htail := (scalarLength_true hlen).2.2.1
  rw [Nat.add_sub_cancel, List.take_length] at htail
  unfold scalarLength at hlen
  split at hlen
  next hb =>
    obtain rfl : rest = [] := List.eq_nil_of_length_eq_zero (Nat.succ.inj (congrArg Prod.snd hlen)).symm
    exact .inl ⟨b, rfl, UInt8.lt_iff_toNat_lt.mp hb⟩
  next hb =>
    split at hlen
    next lo hi want c rest hlead =>
      split at hlen
      next hc =>
        simp only [Bool.and_eq_true, decide_eq_true_eq, UInt8.le_iff_toNat_le] at hc
        obtain ⟨hall, hcount⟩ := Prod.mk.inj hlen
        rw [beq_iff_eq] at hall
        rw [hall, List.length_cons] at hcount
        obtain ⟨hcontinuation, hrest⟩ := List.forall_mem_cons.mp fun x hx => isContinuation_iff.mp (htail x hx)
        rcases lead_shape hlead with ⟨rfl, hbounds⟩ | ⟨rfl, hlow, hhigh, hspecial⟩ | ⟨rfl, hlow, hhigh, hspecial⟩
        · obtain rfl : rest = [] := List.eq_nil_of_length_eq_zero (by omega)
          exact .inr (.inl ⟨b, c, rfl, hbounds, hcontinuation⟩)
        · obtain ⟨d, rfl⟩ := List.length_eq_one_iff.mp (show rest.length = 1 by omega)
          exact .inr (.inr (.inl ⟨b, c, d, rfl, ⟨hlow, hhigh⟩, fun h => Nat.le_trans (hspecial h) hc.1,
            hcontinuation, hrest d List.mem_cons_self⟩))
        · obtain ⟨d, e, rfl⟩ := List.length_eq_two.mp (show rest.length = 2 by omega)
          exact .inr (.inr (.inr ⟨b, c, d, e, rfl, ⟨hlow, hhigh⟩, fun h => Nat.le_trans (hspecial h) hc.1,
            hcontinuation, hrest d List.mem_cons_self, hrest e (by simp)⟩))
      next => cases hlen
    next => cases hlen

/-- An ASCII byte stands alone. -/
theorem IsScalar.eq_singleton {s : List UInt8} (hs : IsScalar s) {b : UInt8} (hb : b ∈ s) (hlt : b.toNat < 128) :
    s = [b] := by
  rcases hs.shape with ⟨a, rfl, -⟩ | ⟨a, c, rfl, ha, hc⟩ | ⟨a, c, d, rfl, ha, -, hc, hd⟩ |
    ⟨a, c, d, e, rfl, ha, -, hc, hd, he⟩
  all_goals
    simp only [List.mem_cons, List.not_mem_nil, or_false] at hb
  · rw [hb]
  · rcases hb with rfl | rfl <;> omega
  · rcases hb with rfl | rfl | rfl <;> omega
  · rcases hb with rfl | rfl | rfl | rfl <;> omega

/-- The code point determines the scalar. -/
theorem codePoint_injective {s t : List UInt8} (hs : IsScalar s) (ht : IsScalar t)
    (h : codePoint s = codePoint t) : s = t := by
  rcases hs.shape with ⟨b, rfl, hb⟩ | ⟨b, c, rfl, hb, hc⟩ | ⟨b, c, d, rfl, hb, hbc, hc, hd⟩ |
    ⟨b, c, d, e, rfl, hb, hbc, hc, hd, he⟩
  all_goals
    rcases ht.shape with ⟨b', rfl, hb'⟩ | ⟨b', c', rfl, hb', hc'⟩ | ⟨b', c', d', rfl, hb', hbc', hc', hd'⟩ |
      ⟨b', c', d', e', rfl, hb', hbc', hc', hd', he'⟩
  all_goals
    simp only [codePoint, List.length_cons, List.length_nil, List.foldl_cons, List.foldl_nil] at h
    simp only [List.cons.injEq, and_true, reduceCtorEq, and_false, ← UInt8.toNat_inj]
    omega

end Utf8
