import SimFerret.Prelude

/-!
# SimFerret.Lib.Newc — the `newc` archive format

A `newc` archive is a sequence of records, each a header of thirteen hexadecimal fields, a name and contents,
padded to a multiple of four bytes.

* `newcRecord`, `archiveOf`: the bytes of an entry and of a list of entries.
* `readNewc`: a reader that walks all bytes of an archive.
* `readNewc_archiveOf`: **the reader reads back what was written**.
* `readNewc_append`: archives can be concatenated.
-/

namespace SimFerret.Newc

/-- One entry of an archive; the device numbers and the checksum are zero. -/
structure NewcEntry where
  name : Bytes
  ino : Nat := 1
  mode : Nat
  uid : Nat := 0
  gid : Nat := 0
  nlink : Nat := 1
  mtime : Nat := 0
  contents : Bytes := []
deriving DecidableEq, Repr

/-- The bytes that take a position to a multiple of four. -/
def padding (length : Nat) : Nat := (4 - length % 4) % 4

/-! ## Writing -/

def NewcEntry.header (entry : NewcEntry) : List Nat :=
  [entry.ino, entry.mode, entry.uid, entry.gid, entry.nlink, entry.mtime, entry.contents.length, 0, 0, 0, 0,
    entry.name.length + 1, 0]

def newcRecord (entry : NewcEntry) : Bytes :=
  utf8 "070701" ++ (entry.header.flatMap (hexPadded 8) ++ (entry.name ++ 0 ::
    (List.replicate (padding (110 + (entry.name.length + 1))) 0 ++
      (entry.contents ++ List.replicate (padding entry.contents.length) 0))))

def archiveOf (entries : List NewcEntry) : Bytes := entries.flatMap newcRecord

/-- Every field of the header fits its eight digits. -/
def NewcEntry.Fits (entry : NewcEntry) : Prop := ∀ field ∈ entry.header, field < 2 ^ 32

instance (entry : NewcEntry) : Decidable entry.Fits := List.decidableBAll _ _

/-! ## Reading -/

/-- The value of a hexadecimal digit. -/
def hexDigit (digit : UInt8) : Option Nat :=
  if 48 ≤ digit ∧ digit ≤ 57 then some (digit - 48).toNat
  else if 97 ≤ digit ∧ digit ≤ 102 then some (digit - 87).toNat
  else if 65 ≤ digit ∧ digit ≤ 70 then some (digit - 55).toNat
  else none

def readHex (digits : Bytes) : Option Nat :=
  digits.foldlM (fun value digit => (hexDigit digit).map (value * 16 + ·)) 0

/-- The next `count` fields, and what follows them. -/
def readFields : Nat → Bytes → Option (List Nat × Bytes)
  | 0, bytes => some ([], bytes)
  | count + 1, bytes =>
    if bytes.length < 8 then none
    else do
      let field ← readHex (bytes.take 8)
      let (fields, rest) ← readFields count (bytes.drop 8)
      pure (field :: fields, rest)

/-- The name and the contents behind a header. -/
def readBody (fields : List Nat) (rest : Bytes) : Option (NewcEntry × Bytes) :=
  match fields with
  | [ino, mode, uid, gid, nlink, mtime, fileSize, _, _, _, _, nameSize, _] =>
    let nameEnd := nameSize + padding (110 + nameSize)
    let contentsEnd := fileSize + padding fileSize
    if nameSize = 0 ∨ rest.length < nameEnd + contentsEnd ∨ rest[nameSize - 1]? ≠ some 0 then none
    else some (⟨rest.take (nameSize - 1), ino, mode, uid, gid, nlink, mtime, (rest.drop nameEnd).take fileSize⟩,
      rest.drop (nameEnd + contentsEnd))
  | _ => none

/-- The next entry, and what follows it. -/
def readEntry (bytes : Bytes) : Option (NewcEntry × Bytes) := do
  if bytes.take 6 ≠ utf8 "070701" then none
  let (fields, rest) ← readFields 13 (bytes.drop 6)
  readBody fields rest

def readEntries : Nat → Bytes → Option (List NewcEntry)
  | _, [] => some []
  | 0, _ :: _ => none
  | rounds + 1, byte :: bytes => do
    let (entry, rest) ← readEntry (byte :: bytes)
    let entries ← readEntries rounds rest
    pure (entry :: entries)

/-- All entries of an archive, the trailer among them; there are no more of them than bytes. -/
def readNewc (bytes : Bytes) : Option (List NewcEntry) := readEntries bytes.length bytes

/-! ## The round trip -/

theorem padding_spec (length : Nat) : 4 ∣ length + padding length := by
  unfold padding
  omega

theorem readHex_snoc (digits : Bytes) (digit : UInt8) : readHex (digits ++ [digit]) =
    (readHex digits).bind fun value => (hexDigit digit).map (value * 16 + ·) := by
  unfold readHex
  rw [List.foldlM_append]
  refine Option.bind_congr' rfl fun value _ => ?_
  rw [List.foldlM_cons]
  cases hexDigit digit <;> rfl

theorem readHex_toDigits (n : Nat) : readHex ((Nat.toDigits 16 n).map charByte) = some n := by
  have hdigit : ∀ d < 16, hexDigit (charByte (Nat.digitChar d)) = some d := by decide
  induction n using Nat.strong_induction_on with
  | _ n ih =>
    rw [Nat.toDigits_eq_if (by omega)]
    split_ifs with hn
    · show readHex ([] ++ [charByte (Nat.digitChar n)]) = some n
      rw [readHex_snoc, hdigit n hn]
      simp [readHex]
    · rw [List.map_append, List.map_singleton, readHex_snoc, ih (n / 16) (Nat.div_lt_self (by omega) (by omega)),
        hdigit (n % 16) (Nat.mod_lt _ (by omega))]
      simp only [Option.bind_some, Option.map_some, Option.some.injEq]
      omega

/-- Padded numerals are read back. -/
theorem readHex_hexPadded {width n : Nat} : readHex (hexPadded width n) = some n := by
  have hzeros : ∀ k, readHex (List.replicate k 48) = some 0 := by
    intro k
    induction k with
    | zero => rfl
    | succ k ih => rw [List.replicate_succ', readHex_snoc, ih]; rfl
  have hvalue := readHex_toDigits n
  have hstart := hzeros (width - ((Nat.toDigits 16 n).map charByte).length)
  unfold readHex at hvalue hstart ⊢
  rw [hexPadded, padZeros, List.foldlM_append, hstart]
  exact hvalue

theorem readFields_header {fields : List Nat} (h : ∀ field ∈ fields, field < 2 ^ 32) (rest : Bytes) :
    readFields fields.length (fields.flatMap (hexPadded 8) ++ rest) = some (fields, rest) := by
  induction fields with
  | nil => rfl
  | cons field fields ih =>
    have hlength : (hexPadded 8 field).length = 8 := length_hexPadded (by omega) (h field List.mem_cons_self)
    rw [List.length_cons, List.flatMap_cons, List.append_assoc, readFields,
      if_neg (by rw [List.length_append]; omega), List.take_left' hlength, List.drop_left' hlength,
        readHex_hexPadded, ih fun x hx => h x (List.mem_cons_of_mem _ hx)]
    rfl

/-- What stands behind the header of a record. -/
theorem readBody_record (entry : NewcEntry) (more : Bytes) : readBody entry.header (entry.name ++ 0 ::
    (List.replicate (padding (110 + (entry.name.length + 1))) 0 ++
      (entry.contents ++ List.replicate (padding entry.contents.length) 0)) ++ more) = some (entry, more) := by
  obtain ⟨name, ino, mode, uid, gid, nlink, mtime, contents⟩ := entry
  generalize hpad : padding (110 + (name.length + 1)) = before
  generalize hpad' : padding contents.length = behind
  have hbytes : name ++ 0 :: (List.replicate before 0 ++ (contents ++ List.replicate behind 0)) ++ more =
      (name ++ 0 :: List.replicate before 0) ++ ((contents ++ List.replicate behind 0) ++ more) := by simp
  have hname : (name ++ 0 :: List.replicate before (0 : UInt8)).length = name.length + 1 + before := by
    simp only [List.length_append, List.length_cons, List.length_replicate]
    omega
  have hcontents : (contents ++ List.replicate behind (0 : UInt8)).length = contents.length + behind := by simp
  unfold readBody NewcEntry.header
  simp only [hpad, hpad', hbytes]
  rw [if_neg]
  · rw [List.drop_left' hname, ← List.drop_drop, List.drop_left' hname, List.drop_left' hcontents,
      List.append_assoc, List.append_assoc, List.take_left' (by omega), List.take_left' rfl]
  · simp only [not_or, not_lt, not_not]
    refine ⟨by omega, ?_, by simp⟩
    rw [List.length_append, @List.length_append _ _ more, hname, hcontents]
    omega

theorem readEntry_newcRecord {entry : NewcEntry} (h : entry.Fits) (more : Bytes) :
    readEntry (newcRecord entry ++ more) = some (entry, more) := by
  have hfields := readFields_header h (entry.name ++ 0 ::
    (List.replicate (padding (110 + (entry.name.length + 1))) 0 ++
      (entry.contents ++ List.replicate (padding entry.contents.length) 0)) ++ more)
  have hmagic : (utf8 "070701").length = 6 := by decide
  unfold readEntry newcRecord
  rw [List.append_assoc, List.take_left' hmagic, List.drop_left' hmagic, if_neg (by simp), List.append_assoc]
  show (readFields entry.header.length _).bind _ = _
  rw [hfields]
  exact readBody_record entry more

/-- A record holds more than its header. -/
theorem length_newcRecord (entry : NewcEntry) : 0 < (newcRecord entry).length := by
  have hmagic : (utf8 "070701").length = 6 := by decide
  rw [newcRecord, List.length_append]
  omega

/-- Enough rounds read an archive to its end, by induction on its entries. -/
theorem readEntries_archiveOf : ∀ {entries : List NewcEntry} {rounds : Nat}, (∀ entry ∈ entries, entry.Fits) →
    (archiveOf entries).length ≤ rounds → readEntries rounds (archiveOf entries) = some entries
  | [], rounds, _, _ => by
    cases rounds <;> rfl
  | entry :: entries, rounds, h, hrounds => by
    have hpos := length_newcRecord entry
    have hsplit : archiveOf (entry :: entries) = newcRecord entry ++ archiveOf entries := rfl
    rw [hsplit, List.length_append] at hrounds
    obtain ⟨rounds, rfl⟩ : ∃ k, rounds = k + 1 := ⟨rounds - 1, by omega⟩
    have hread := readEntry_newcRecord (h entry List.mem_cons_self) (archiveOf entries)
    have hrest := @readEntries_archiveOf entries rounds (fun x hx => h x (List.mem_cons_of_mem _ hx)) (by omega)
    rw [hsplit]
    cases hbytes : newcRecord entry ++ archiveOf entries with
    | nil => rw [List.append_eq_nil_iff.mp hbytes |>.1] at hpos; cases hpos
    | cons byte bytes =>
      rw [hbytes] at hread
      rw [readEntries, hread]
      show (readEntries rounds (archiveOf entries)).bind _ = _
      rw [hrest]
      rfl

/-- **The reader reads back what was written.** -/
theorem readNewc_archiveOf {entries : List NewcEntry} (h : ∀ entry ∈ entries, entry.Fits) :
    readNewc (archiveOf entries) = some entries := readEntries_archiveOf h le_rfl

/-! ## Concatenation -/

theorem readFields_append {more : Bytes} : ∀ {count : Nat} {bytes : Bytes} {fields : List Nat} {rest : Bytes},
    readFields count bytes = some (fields, rest) → readFields count (bytes ++ more) = some (fields, rest ++ more)
  | 0, bytes, fields, rest, h => by
    cases h
    rfl
  | count + 1, bytes, fields, rest, h => by
    unfold readFields at h ⊢
    split_ifs at h with hshort
    rw [if_neg (by rw [List.length_append]; omega), List.take_append_of_le_length (by omega),
      List.drop_append_of_le_length (by omega)]
    obtain ⟨field, hfield, h⟩ := Option.bind_eq_some_iff.mp h
    obtain ⟨next, hnext, h⟩ := Option.bind_eq_some_iff.mp h
    cases h
    refine Option.bind_eq_some_iff.mpr ⟨field, hfield,
      Option.bind_eq_some_iff.mpr ⟨_, readFields_append hnext, rfl⟩⟩

theorem readBody_append {fields : List Nat} {bytes rest more : Bytes} {entry : NewcEntry}
    (h : readBody fields bytes = some (entry, rest)) :
    readBody fields (bytes ++ more) = some (entry, rest ++ more) := by
  unfold readBody at h ⊢
  split at h
  next ino mode uid gid nlink mtime fileSize _ _ _ _ nameSize _ =>
    have hpad := padding_spec (110 + nameSize)
    simp only at h ⊢
    split_ifs at h with hbad
    simp only [not_or, not_lt, not_not] at hbad
    obtain ⟨hname, hlength, hnul⟩ := hbad
    cases h
    rw [if_neg, List.take_append_of_le_length (by omega), List.drop_append_of_le_length (by omega),
      List.drop_append_of_le_length (by omega), List.take_append_of_le_length (by rw [List.length_drop]; omega)]
    simp only [not_or, not_lt, not_not]
    refine ⟨hname, by rw [List.length_append]; omega, ?_⟩
    rw [List.getElem?_append_left (by omega)]
    exact hnul
  next => cases h

theorem readEntry_append {bytes rest more : Bytes} {entry : NewcEntry} (h : readEntry bytes = some (entry, rest)) :
    readEntry (bytes ++ more) = some (entry, rest ++ more) := by
  unfold readEntry at h ⊢
  have hmagic : bytes.take 6 = utf8 "070701" := by
    by_contra hne
    rw [if_pos hne] at h
    cases h
  have hlong : 6 ≤ bytes.length := by
    have hlength := congrArg List.length hmagic
    rw [List.length_take, show (utf8 "070701").length = 6 by decide] at hlength
    omega
  rw [if_neg (by rw [not_not]; exact hmagic)] at h
  rw [List.take_append_of_le_length hlong, List.drop_append_of_le_length hlong,
    if_neg (by rw [not_not]; exact hmagic)]
  obtain ⟨parsed, hfields, h⟩ := Option.bind_eq_some_iff.mp h
  exact Option.bind_eq_some_iff.mpr ⟨_, readFields_append hfields, readBody_append h⟩

/-- More rounds read the same entries. -/
theorem readEntries_mono : ∀ {rounds : Nat} {bytes : Bytes} {entries : List NewcEntry} (more : Nat),
    readEntries rounds bytes = some entries → readEntries (rounds + more) bytes = some entries
  | rounds, [], entries, more, h => by
    cases rounds <;> cases more <;> exact h
  | 0, byte :: bytes, entries, more, h => by cases h
  | rounds + 1, byte :: bytes, entries, more, h => by
    rw [Nat.add_right_comm]
    obtain ⟨parsed, hentry, h⟩ := Option.bind_eq_some_iff.mp h
    obtain ⟨others, hothers, h⟩ := Option.bind_eq_some_iff.mp h
    exact Option.bind_eq_some_iff.mpr ⟨parsed, hentry,
      Option.bind_eq_some_iff.mpr ⟨others, readEntries_mono more hothers, h⟩⟩

theorem readEntries_append {more : Bytes} {others : List NewcEntry} {moreRounds : Nat}
    (hmore : readEntries moreRounds more = some others) : ∀ {rounds : Nat} {bytes : Bytes}
    {entries : List NewcEntry}, readEntries rounds bytes = some entries →
    readEntries (rounds + moreRounds) (bytes ++ more) = some (entries ++ others)
  | rounds, [], entries, h => by
    have hnil : entries = [] := by cases rounds <;> exact (Option.some.inj h).symm
    rw [hnil, Nat.add_comm]
    exact readEntries_mono rounds hmore
  | 0, byte :: bytes, entries, h => by cases h
  | rounds + 1, byte :: bytes, entries, h => by
    rw [Nat.add_right_comm]
    obtain ⟨parsed, hentry, h⟩ := Option.bind_eq_some_iff.mp h
    obtain ⟨next, hnext, h⟩ := Option.bind_eq_some_iff.mp h
    cases h
    exact Option.bind_eq_some_iff.mpr ⟨_, readEntry_append hentry,
      Option.bind_eq_some_iff.mpr ⟨_, readEntries_append hmore hnext, rfl⟩⟩

/-- **Archives can be concatenated**, whatever wrote them. -/
theorem readNewc_append {bytes more : Bytes} {entries others : List NewcEntry} (h : readNewc bytes = some entries)
    (hmore : readNewc more = some others) : readNewc (bytes ++ more) = some (entries ++ others) := by
  unfold readNewc
  rw [List.length_append]
  exact readEntries_append hmore h

end SimFerret.Newc
