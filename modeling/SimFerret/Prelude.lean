import Mathlib.Data.List.Induction
import Mathlib.Data.List.Basic
import Mathlib.Tactic.IntervalCases

/-!
# SimFerret.Prelude — the Rust standard library the model is written in

* `Bytes`, `Text`: a `Vec<u8>` and a `String`; a Rust string is its UTF-8 bytes, so string literals enter through
  the coercion `utf8`.
* `IoError`, `IoResult`: `io::Error` with its kind and its text.
* `checkedAdd`, `saturatingAdd`: the `u64` additions whose overflow the code handles; a counter that the code
  adds to without a check is a plain `Nat`.
* `decimal`, `hexPadded`, `decimalPadded`: the `{}`, `{:016x}` and `{:04}` formats.
* `rposition`: the last match of a predicate in a slice.
-/

namespace SimFerret

/-- `Vec<u8>`. -/
abbrev Bytes := List UInt8

/-- A Rust `String`, as its UTF-8 bytes. -/
abbrev Text := List UInt8

/-- The bytes of a string literal. -/
def utf8 (s : String) : Text := s.toUTF8.data.toList

instance : Coe String Text := ⟨utf8⟩

/-! ## Errors -/

/-- The `io::ErrorKind` values the modelled code builds or inspects. -/
inductive ErrorKind where
  | invalidInput | invalidData | notFound | unexpectedEof | unsupported | timedOut | writeZero
  | interrupted | wouldBlock | brokenPipe | alreadyExists | notADirectory | isADirectory | directoryNotEmpty
  | filesystemLoop | permissionDenied | other
deriving DecidableEq, Repr

/-- `io::Error`. -/
structure IoError where
  kind : ErrorKind
  message : Text
deriving DecidableEq, Repr

/-- `io::Result`. -/
abbrev IoResult := Except IoError

/-- `invalid` of `workload/root.rs` and `scenario.rs`. -/
def invalid (message : Text) : IoError := ⟨.invalidInput, message⟩

/-- `invalid_data` of `run.rs`. -/
def invalidData (message : Text) : IoError := ⟨.invalidData, message⟩

/-- `if !condition { return Err(error) }`. -/
def require (condition : Bool) (error : IoError) : IoResult Unit :=
  if condition then .ok () else .error error

@[simp] theorem require_eq_ok {c : Bool} {e : IoError} {u : Unit} :
    require c e = .ok u ↔ c = true := by
  unfold require; split <;> simp_all

/-- A result whose value was computed is that value. -/
theorem exists_ok_of_map {ε α β : Type} {x : Except ε α} {f : α → β} {b : β} (h : x.toOption.map f = some b) :
    ∃ a, x = .ok a ∧ f a = b := by
  cases x with
  | error e => cases h
  | ok a => exact ⟨a, rfl, Option.some.inj h⟩

/-- A `Result` chain that returned `Ok` ran each of its steps to `Ok`. -/
theorem bind_eq_ok {α β ε : Type} {x : Except ε α} {f : α → Except ε β} {b : β} :
    (x >>= f) = .ok b ↔ ∃ a, x = .ok a ∧ f a = .ok b := by
  cases x with
  | error e => simp [bind, Except.bind]
  | ok a => simp [bind, Except.bind]

theorem pure_eq_ok {α ε : Type} {a b : α} : (pure a : Except ε α) = .ok b ↔ a = b := by
  simp [pure, Except.pure]

theorem exists_eq_ok {α ε : Type} {x : Except ε α} (h : x.isOk = true) : ∃ a, x = .ok a := by
  cases x with
  | error e => exact absurd h Bool.false_ne_true
  | ok a => exact ⟨a, rfl⟩

/-- `Option::ok_or_else` and `map_err(|_| …)`. -/
def okOr {α : Type} (value : Option α) (error : IoError) : IoResult α :=
  match value with
  | some a => .ok a
  | none => .error error

theorem okOr_eq_ok {α : Type} {value : Option α} {error : IoError} {a : α} :
    okOr value error = .ok a ↔ value = some a := by
  cases value <;> simp [okOr]

/-- What every accepted step keeps, an accepted fold keeps. -/
theorem foldlM_invariant {α β ε : Type} {step : β → α → Except ε β} {Inv : β → Prop} :
    ∀ {l : List α} {b b' : β}, (∀ a ∈ l, ∀ b b', Inv b → step b a = .ok b' → Inv b') →
      Inv b → l.foldlM step b = .ok b' → Inv b'
  | [], b, b', _, hb, h => by
    rw [List.foldlM_nil, pure_eq_ok] at h
    exact h ▸ hb
  | a :: l, b, b', hstep, hb, h => by
    rw [List.foldlM_cons] at h
    obtain ⟨mid, hmid, h⟩ := bind_eq_ok.mp h
    exact foldlM_invariant (fun a' ha' => hstep a' (List.mem_cons_of_mem _ ha'))
      (hstep a List.mem_cons_self b mid hb hmid) h

/-- A loop is accepted exactly when every element is. -/
theorem forM_eq_ok {α ε : Type} {f : α → Except ε Unit} : ∀ {l : List α} {u : Unit},
    l.forM f = .ok u ↔ ∀ a ∈ l, f a = .ok ()
  | [], u => ⟨fun _ a ha => absurd ha List.not_mem_nil, fun _ => rfl⟩
  | b :: l, u => by
    rw [show (b :: l).forM f = (f b >>= fun _ => l.forM f) from rfl, bind_eq_ok]
    constructor
    · rintro ⟨_, hb, hl⟩ a ha
      rcases List.mem_cons.mp ha with rfl | ha
      · exact hb
      · exact forM_eq_ok.mp hl a ha
    · intro h
      exact ⟨(), h b List.mem_cons_self, forM_eq_ok.mpr fun a ha => h a (List.mem_cons_of_mem _ ha)⟩

/-! ## Machine arithmetic -/

/-- The number of `u64` values; `usize` has as many on the supported targets. -/
def u64Size : Nat := 2 ^ 64

/-- `u64::checked_add`. -/
def checkedAdd (a b : Nat) : Option Nat := if a + b < u64Size then some (a + b) else none

/-- `u64::saturating_add`. -/
def saturatingAdd (a b : Nat) : Nat := min (a + b) (u64Size - 1)

theorem checkedAdd_eq_some {a b c : Nat} :
    checkedAdd a b = some c ↔ a + b = c ∧ a + b < u64Size := by
  unfold checkedAdd
  split <;> simp <;> omega

theorem saturatingAdd_of_lt {a b : Nat} (h : a + b < u64Size) : saturatingAdd a b = a + b := by
  unfold saturatingAdd; omega

/-! ## Formatting -/

/-- The byte of an ASCII character. -/
def charByte (c : Char) : UInt8 := c.val.toUInt8

/-- `format!("{n}")`. -/
def decimal (n : Nat) : Text := (Nat.toDigits 10 n).map charByte

/-- Left-pad with `'0'` to `width`. -/
def padZeros (width : Nat) (digits : Text) : Text :=
  List.replicate (width - digits.length) 48 ++ digits

/-- `format!("{n:04}")` and the like. -/
def decimalPadded (width n : Nat) : Text := padZeros width (decimal n)

/-- `format!("{n:016x}")` and the like. -/
def hexPadded (width n : Nat) : Text := padZeros width ((Nat.toDigits 16 n).map charByte)

/-! ## Searching -/

/-- `iter().rposition(pred)`: the index of the last match. -/
def rposition {α : Type} (pred : α → Bool) : List α → Option Nat
  | [] => none
  | x :: xs =>
    match rposition pred xs with
    | some i => some (i + 1)
    | none => if pred x then some 0 else none

theorem rposition_eq_none {α : Type} {pred : α → Bool} :
    ∀ {l : List α}, rposition pred l = none ↔ ∀ x ∈ l, pred x = false
  | [] => by simp [rposition]
  | x :: xs => by
    have ih := @rposition_eq_none α pred xs
    unfold rposition
    cases h : rposition pred xs with
    | some i =>
      have : ¬ ∀ y ∈ xs, pred y = false := fun hc => by simp [ih.mpr hc] at h
      simp only [reduceCtorEq, false_iff]
      exact fun hc => this (fun y hy => hc y (List.mem_cons_of_mem _ hy))
    | none =>
      have := ih.mp h
      by_cases hx : pred x
      · simp [hx]
      · simp only [hx, Bool.false_eq_true, if_false, true_iff]
        intro y hy
        rcases List.mem_cons.mp hy with rfl | hy
        · simpa using hx
        · exact this y hy

/-- The last match splits the list; nothing after it matches. -/
theorem rposition_eq_some {α : Type} {pred : α → Bool} :
    ∀ {l : List α} {i : Nat}, rposition pred l = some i →
      ∃ x r, l = l.take i ++ x :: r ∧ pred x = true ∧ ∀ y ∈ r, pred y = false
  | [], _, h => by simp [rposition] at h
  | x :: xs, i, h => by
    unfold rposition at h
    cases hr : rposition pred xs with
    | some j =>
      rw [hr] at h
      cases h
      obtain ⟨y, r, hl, hy, hrest⟩ := rposition_eq_some hr
      exact ⟨y, r, by rw [List.take_succ_cons, List.cons_append, ← hl], hy, hrest⟩
    | none =>
      rw [hr] at h
      by_cases hx : pred x
      · simp only [hx, if_true, Option.some.injEq] at h
        subst h
        exact ⟨x, xs, by simp, hx, rposition_eq_none.mp hr⟩
      · simp [hx] at h

/-- The only match is the first. -/
theorem find?_of_unique {α : Type} {p : α → Bool} {l : List α} {a : α} (hmem : a ∈ l) (ha : p a = true)
    (hall : ∀ b ∈ l, p b = true → b = a) : l.find? p = some a := by
  cases hfind : l.find? p with
  | none => exact absurd ha (by simpa using List.find?_eq_none.mp hfind a hmem)
  | some b => rw [hall b (List.mem_of_find?_eq_some hfind) (List.find?_some hfind)]

/-- A search finds what the only element it accepts has. -/
theorem findSome?_of_unique {α β : Type} {f : α → Option β} {l : List α} {x : α} {b : β} (hx : x ∈ l)
    (hf : f x = some b) (hunique : ∀ y ∈ l, ∀ b', f y = some b' → b' = b) : l.findSome? f = some b := by
  cases h : l.findSome? f with
  | none => rw [List.findSome?_eq_none_iff.mp h x hx] at hf; cases hf
  | some b' =>
    obtain ⟨y, hy, hfy⟩ := List.exists_of_findSome?_eq_some h
    rw [hunique y hy b' hfy]

/-- What holds at every place of a list holds at every place of the list with one more element, if it holds at
that. -/
theorem forall_split_snoc {α : Type} {P : List α → α → Prop} {l : List α} {a : α}
    (h : ∀ earlier x later, l = earlier ++ x :: later → P earlier x) (ha : P l a) :
    ∀ earlier x later, l ++ [a] = earlier ++ x :: later → P earlier x := by
  intro earlier x later heq
  induction later using List.reverseRecOn with
  | nil =>
    obtain ⟨rfl, hlast⟩ := List.append_inj' heq rfl
    obtain ⟨rfl, -⟩ := List.cons_eq_cons.mp hlast
    exact ha
  | append_singleton later last _ =>
    rw [← List.cons_append, ← List.append_assoc] at heq
    exact h earlier x later (List.append_inj' heq rfl).1

/-! ## ASCII texts -/

/-- Every byte is below `0x80`. -/
def IsAscii (t : Text) : Prop := ∀ b ∈ t, b < 128

instance (t : Text) : Decidable (IsAscii t) := List.decidableBAll (· < 128) t

theorem IsAscii.append {s t : Text} (hs : IsAscii s) (ht : IsAscii t) : IsAscii (s ++ t) := by
  intro b hb
  rcases List.mem_append.mp hb with h | h
  · exact hs b h
  · exact ht b h

theorem charByte_digitChar {d : Nat} (h : d < 16) : charByte (Nat.digitChar d) < 128 := by
  interval_cases d <;> decide

theorem mem_toDigits {b : Nat} (hb : 1 < b) {c : Char} :
    ∀ n, c ∈ Nat.toDigits b n → ∃ d < b, c = Nat.digitChar d := by
  intro n
  induction n using Nat.strong_induction_on with
  | _ n ih =>
    intro h
    rw [Nat.toDigits_eq_if hb] at h
    split_ifs at h with hn
    · exact ⟨n, hn, by simpa using h⟩
    · rcases List.mem_append.mp h with h | h
      · exact ih _ (Nat.div_lt_self (by omega) hb) h
      · exact ⟨n % b, Nat.mod_lt _ (by omega), by simpa using h⟩

theorem isAscii_toDigits {b n : Nat} (hb : 1 < b) (hb' : b ≤ 16) :
    IsAscii ((Nat.toDigits b n).map charByte) := by
  intro x hx
  obtain ⟨c, hc, rfl⟩ := List.mem_map.mp hx
  obtain ⟨d, hd, rfl⟩ := mem_toDigits hb n hc
  exact charByte_digitChar (by omega)

theorem isAscii_padZeros {width : Nat} {t : Text} (h : IsAscii t) : IsAscii (padZeros width t) := by
  refine IsAscii.append (fun b hb => ?_) h
  rw [List.eq_of_mem_replicate hb]
  decide

theorem isAscii_decimal (n : Nat) : IsAscii (decimal n) := isAscii_toDigits (by omega) (by omega)

theorem isAscii_decimalPadded (width n : Nat) : IsAscii (decimalPadded width n) :=
  isAscii_padZeros (isAscii_decimal n)

theorem isAscii_hexPadded (width n : Nat) : IsAscii (hexPadded width n) :=
  isAscii_padZeros (isAscii_toDigits (by omega) (by omega))

/-! ## Numerals -/

/-- The digits of a number are `0`..`9` and `a`..`f`. -/
theorem mem_digits {base n : Nat} {b : UInt8} (hb : 1 < base) (hb' : base ≤ 16)
    (h : b ∈ (Nat.toDigits base n).map charByte) : 48 ≤ b ∧ b < 103 := by
  obtain ⟨c, hc, rfl⟩ := List.mem_map.mp h
  obtain ⟨d, hd, rfl⟩ := mem_toDigits hb n hc
  have hall : ∀ d < 16, 48 ≤ charByte (Nat.digitChar d) ∧ charByte (Nat.digitChar d) < 103 := by decide
  exact hall d (by omega)

/-- The value of a decimal numeral. -/
def digitsValue (digits : Text) : Nat := digits.foldl (fun acc digit => acc * 10 + (digit - 48).toNat) 0

theorem digitsValue_decimal (n : Nat) : digitsValue (decimal n) = n := by
  have hdigit : ∀ d < 10, (charByte (Nat.digitChar d) - 48).toNat = d := by decide
  induction n using Nat.strong_induction_on with
  | _ n ih =>
    unfold digitsValue decimal
    rw [Nat.toDigits_eq_if (by omega)]
    split_ifs with hn
    · simpa using hdigit n hn
    · have hrec := ih (n / 10) (Nat.div_lt_self (by omega) (by omega))
      unfold digitsValue decimal at hrec
      rw [List.map_append, List.foldl_append, hrec]
      have hmod := hdigit (n % 10) (Nat.mod_lt _ (by omega))
      simp only [List.map_cons, List.map_nil, List.foldl_cons, List.foldl_nil, hmod]
      omega

theorem digitsValue_decimalPadded (width n : Nat) : digitsValue (decimalPadded width n) = n := by
  have hzeros : ∀ k, (List.replicate k (48 : UInt8)).foldl (fun acc digit =>
      acc * 10 + (digit - 48).toNat) 0 = 0 := by
    intro k
    induction k with
    | zero => rfl
    | succ k ih => rw [List.replicate_succ', List.foldl_append, ih]; rfl
  have hvalue := digitsValue_decimal n
  unfold digitsValue at hvalue ⊢
  rw [decimalPadded, padZeros, List.foldl_append, hzeros, hvalue]

theorem length_padZeros {width : Nat} {digits : Text} (h : digits.length ≤ width) :
    (padZeros width digits).length = width := by
  rw [padZeros, List.length_append, List.length_replicate]
  omega

theorem length_decimalPadded {width n : Nat} (hw : 0 < width)
    (h : n < 10 ^ width) : (decimalPadded width n).length = width := by
  refine length_padZeros ?_
  rw [decimal, List.length_map]
  exact (Nat.length_toDigits_le_iff (by omega) hw).mpr h

theorem length_hexPadded {width n : Nat} (hw : 0 < width)
    (h : n < 16 ^ width) : (hexPadded width n).length = width := by
  refine length_padZeros ?_
  rw [List.length_map]
  exact (Nat.length_toDigits_le_iff (by omega) hw).mpr h

theorem digitsValue_snoc (digits : Text) (digit : UInt8) :
    digitsValue (digits ++ [digit]) = digitsValue digits * 10 + (digit - 48).toNat := by
  rw [digitsValue, List.foldl_append]
  rfl

theorem digit_byte {digit : UInt8} (hlow : 48 ≤ digit) (hhigh : digit ≤ 57) : (digit - 48).toNat < 10 ∧
    charByte (Nat.digitChar (digit - 48).toNat) = digit ∧ ((digit - 48).toNat = 0 → digit = 48) := by
  have hall : ∀ n : Fin 256, 48 ≤ UInt8.ofFin n → UInt8.ofFin n ≤ 57 → (UInt8.ofFin n - 48).toNat < 10 ∧
      charByte (Nat.digitChar (UInt8.ofFin n - 48).toNat) = UInt8.ofFin n ∧
      ((UInt8.ofFin n - 48).toNat = 0 → UInt8.ofFin n = 48) := by decide +kernel
  exact hall digit.toFin hlow hhigh

/-- A numeral without a leading zero is the decimal form of its value. -/
theorem decimal_digitsValue (digits : Text) (hdigits : ∀ b ∈ digits, 48 ≤ b ∧ b ≤ 57) (hne : digits ≠ [])
    (hhead : digits.head? ≠ some 48) : 0 < digitsValue digits ∧ decimal (digitsValue digits) = digits := by
  induction digits using List.reverseRecOn with
  | nil => exact absurd rfl hne
  | append_singleton digits digit ih =>
    obtain ⟨hlt, hchar, hzero⟩ := digit_byte (hdigits digit (by simp)).1 (hdigits digit (by simp)).2
    rw [digitsValue_snoc]
    by_cases hnil : digits = []
    · subst hnil
      have hpos : 0 < (digit - 48).toNat := Nat.pos_of_ne_zero fun h => hhead (by rw [hzero h]; rfl)
      refine ⟨by simpa [digitsValue] using hpos, ?_⟩
      show decimal (digitsValue [] * 10 + (digit - 48).toNat) = [digit]
      rw [show digitsValue [] * 10 + (digit - 48).toNat = (digit - 48).toNat by simp [digitsValue], decimal,
        Nat.toDigits_of_lt_base hlt, List.map_singleton, hchar]
    · have hhead' : digits.head? ≠ some 48 := by
        rw [← List.head?_append_of_ne_nil _ hnil]
        exact hhead
      obtain ⟨hpos, hdecimal⟩ := ih (fun b hb => hdigits b (List.mem_append_left _ hb)) hnil hhead'
      refine ⟨by omega, ?_⟩
      rw [decimal, Nat.toDigits_eq_if (by omega), if_neg (by omega), List.map_append, List.map_singleton,
        show (digitsValue digits * 10 + (digit - 48).toNat) / 10 = digitsValue digits by omega,
        show (digitsValue digits * 10 + (digit - 48).toNat) % 10 = (digit - 48).toNat by omega, hchar]
      exact congrArg (· ++ [digit]) hdecimal

end SimFerret
