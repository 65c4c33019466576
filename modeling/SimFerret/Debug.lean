import SimFerret.Lib.Newc
import SimFerret.Lib.PrefixCode
import SimFerret.Lib.Utf8
import SimFerret.Protocol

/-!
# SimFerret.Debug — the texts of `{:?}` and `{:#?}`

The standard library's `Debug` of a string, and the pretty form of the derived `Debug` of the types of
`protocol.rs`.

* `escapeDebugExt`: one character, as a literal writes it.
* `debugStr`: a string; `debugStr_injective`: **two strings that are written alike are the same**.
* `debugStruct`, `debugTuple`, `debugList`: the lines of a value; `debugText_injective`: its text determines them.
* `NormalizedEvent.debug`: the lines of an event; `NormalizedEvent.debugText_inj`: **its text determines them**.
-/

namespace SimFerret

open Workload (LaunchIdentity)

/-- The Unicode properties that `char::escape_debug` asks for. -/
structure UnicodeTables where
  graphemeExtended : Nat → Bool
  printable : Nat → Bool

/-- The tables, as far as ASCII goes. -/
def asciiTables : UnicodeTables where
  graphemeExtended _ := false
  printable c := decide (0x20 ≤ c ∧ c < 0x7f)

/-! ## Characters -/

/-- `char::escape_unicode`. -/
def escapeUnicode (c : Nat) : Text := "\\u\x7b" ++ ((Nat.toDigits 16 c).map charByte ++ "\x7d")

/-- `char::escape_debug_ext`, of the bytes of one character; a double quote is always escaped. -/
def escapeDebugExt (tables : UnicodeTables) (graphemes singleQuote : Bool) (scalar : List UInt8) : Text :=
  if scalar = [0] then "\\0"
  else if scalar = [9] then "\\t"
  else if scalar = [13] then "\\r"
  else if scalar = [10] then "\\n"
  else if scalar = [92] then "\\\\"
  else if scalar = [34] then "\\\""
  else if singleQuote ∧ scalar = [39] then "\\'"
  else if graphemes && tables.graphemeExtended (Utf8.codePoint scalar) then escapeUnicode (Utf8.codePoint scalar)
  else if tables.printable (Utf8.codePoint scalar) then scalar
  else escapeUnicode (Utf8.codePoint scalar)

/-- Whether `impl Debug for str` looks at a byte at all. -/
def needsEscape (b : UInt8) : Bool := b > 0x7e || b < 0x20 || b == 92 || b == 34

/-- One character of a string literal. -/
def debugChar (tables : UnicodeTables) (scalar : List UInt8) : Text :=
  if scalar.any needsEscape then escapeDebugExt tables true false scalar else scalar

/-- `impl Debug for str`. -/
def debugStr (tables : UnicodeTables) (text : Text) : Text :=
  "\"" ++ (Utf8.scalars text).flatMap (debugChar tables) ++ "\""

section

variable {tables : UnicodeTables}

/-- The characters with an escape of their own. -/
def shortEscapes : List (List UInt8 × Text) :=
  [([0], "\\0"), ([9], "\\t"), ([13], "\\r"), ([10], "\\n"), ([92], "\\\\"), ([34], "\\\"")]

/-- How a literal may write a character. -/
theorem debugChar_cases (tables : UnicodeTables) (scalar : List UInt8) :
    debugChar tables scalar = scalar ∧ scalar ≠ [92] ∧ scalar ≠ [10] ∨
      (scalar, debugChar tables scalar) ∈ shortEscapes ∨
      debugChar tables scalar = escapeUnicode (Utf8.codePoint scalar) := by
  by_cases hplain : scalar.any needsEscape = true
  · rw [debugChar, if_pos hplain, escapeDebugExt]
    split_ifs with h0 h9 h13 h10 h92 h34 hquote hgrapheme hprintable
    · exact .inr (.inl (by rw [h0]; decide))
    · exact .inr (.inl (by rw [h9]; decide))
    · exact .inr (.inl (by rw [h13]; decide))
    · exact .inr (.inl (by rw [h10]; decide))
    · exact .inr (.inl (by rw [h92]; decide))
    · exact .inr (.inl (by rw [h34]; decide))
    · exact hquote.1.elim
    · exact .inr (.inr rfl)
    · exact .inl ⟨rfl, h92, h10⟩
    · exact .inr (.inr rfl)
  · rw [debugChar, if_neg hplain]
    refine .inl ⟨rfl, ?_, ?_⟩
    · rintro rfl
      exact hplain (by decide)
    · rintro rfl
      exact hplain (by decide)

/-- A character other than a backslash starts with another byte. -/
theorem scalar_append_ne {s r x : List UInt8} (hs : Utf8.IsScalar s) (hne : s ≠ [92]) : s ++ r ≠ 92 :: x := by
  intro h
  have hback : Utf8.IsScalar [92] := ⟨92, [], rfl, rfl⟩
  have h : s ++ r = [92] ++ x := h
  exact hne (hs.append_inj hback h).1

theorem escapeUnicode_eq (c : Nat) :
    escapeUnicode c = [92, 117, 123] ++ ((Nat.toDigits 16 c).map charByte ++ [125]) := by
  rw [escapeUnicode, show utf8 "\\u\x7b" = [92, 117, 123] by decide, show utf8 "\x7d" = [125] by decide]

/-- A numbered character says which one it is, and where it ends. -/
theorem escapeUnicode_delimits : Delimits (fun _ => True) escapeUnicode id := by
  have hfree : ∀ n, 125 ∉ (Nat.toDigits 16 n).map charByte := by
    intro n hmem
    exact absurd (mem_digits (by omega) (by omega) hmem).2 (by decide)
  intro c c' _ _ r s h
  rw [escapeUnicode_eq, escapeUnicode_eq, List.append_assoc _ _ r, List.append_assoc _ _ s] at h
  obtain ⟨hdigits, hrest⟩ := delimits_terminated (fun n (_ : True) => hfree n) c c' trivial trivial r s
    (List.append_cancel_left h)
  have hvalue := congrArg Newc.readHex hdigits
  simp only [Newc.readHex_toDigits, Option.some.injEq] at hvalue
  exact ⟨hvalue, hrest⟩

/-- A short escape is a backslash and a letter other than that of a numbered character. -/
theorem shortEscape_eq {s w : List UInt8} (h : (s, w) ∈ shortEscapes) : ∃ x, w = [92, x] ∧ x ≠ 117 := by
  have hall : ∀ p ∈ shortEscapes, p.2 = [92, p.2.getLastD 0] ∧ p.2.getLastD 0 ≠ 117 := by decide
  exact ⟨w.getLastD 0, hall (s, w) h⟩

theorem shortEscape_injective {s t w : List UInt8} (hs : (s, w) ∈ shortEscapes) (ht : (t, w) ∈ shortEscapes) :
    s = t := by
  have hall : ∀ p ∈ shortEscapes, ∀ q ∈ shortEscapes, p.2 = q.2 → p.1 = q.1 := by decide
  exact hall (s, w) hs (t, w) ht rfl

/-- A character in a literal says which one it is, and where it ends. -/
theorem debugChar_delimits : Delimits Utf8.IsScalar (debugChar tables) id := by
  intro s t hs ht r r' h
  rcases debugChar_cases tables s with ⟨hw, hback, -⟩ | hw | hw
  · rw [hw] at h
    rcases debugChar_cases tables t with ⟨hw', -, -⟩ | hw' | hw'
    · rw [hw'] at h
      exact hs.append_inj ht h
    · obtain ⟨x, hx, -⟩ := shortEscape_eq hw'
      rw [hx] at h
      exact absurd h (scalar_append_ne hs hback)
    · rw [hw', escapeUnicode_eq] at h
      exact absurd h (scalar_append_ne hs hback)
  · obtain ⟨x, hx, hne⟩ := shortEscape_eq hw
    rcases debugChar_cases tables t with ⟨hw', hback', -⟩ | hw' | hw'
    · rw [hx, hw'] at h
      exact absurd h.symm (scalar_append_ne ht hback')
    · obtain ⟨y, hy, -⟩ := shortEscape_eq hw'
      obtain ⟨heq, hrest⟩ := List.append_inj h (by rw [hx, hy]; rfl)
      rw [← heq] at hw'
      exact ⟨shortEscape_injective hw hw', hrest⟩
    · rw [hx, hw', escapeUnicode_eq] at h
      simp only [List.cons_append, List.cons.injEq] at h
      exact absurd h.2.1 hne
  · rcases debugChar_cases tables t with ⟨hw', hback', -⟩ | hw' | hw'
    · rw [hw, hw', escapeUnicode_eq] at h
      exact absurd h.symm (scalar_append_ne ht hback')
    · obtain ⟨x, hx, hne⟩ := shortEscape_eq hw'
      rw [hw, hx, escapeUnicode_eq] at h
      simp only [List.cons_append, List.cons.injEq] at h
      exact absurd h.2.1.symm hne
    · rw [hw, hw'] at h
      obtain ⟨hpoint, hrest⟩ := escapeUnicode_delimits _ _ trivial trivial r r' h
      exact ⟨Utf8.codePoint_injective hs ht hpoint, hrest⟩

theorem debugChar_ne_nil {s : List UInt8} (hs : Utf8.IsScalar s) : debugChar tables s ≠ [] := by
  rcases debugChar_cases tables s with ⟨hw, -, -⟩ | hw | hw
  · rw [hw]
    exact hs.ne_nil
  · obtain ⟨x, hx, -⟩ := shortEscape_eq hw
    rw [hx]
    exact List.cons_ne_nil _ _
  · rw [hw, escapeUnicode_eq]
    exact List.cons_ne_nil _ _

/-- **A literal determines the string.** -/
theorem debugStr_injective {s t : Text} (hs : Utf8.valid s = true) (ht : Utf8.valid t = true)
    (h : debugStr tables s = debugStr tables t) : s = t := by
  have hbody : (Utf8.scalars s).flatMap (debugChar tables) = (Utf8.scalars t).flatMap (debugChar tables) :=
    List.append_cancel_left (List.append_cancel_right h)
  have hkeys := debugChar_delimits.flatMap (fun _ => debugChar_ne_nil) _ _ (Utf8.isScalar_of_mem_scalars hs)
    (Utf8.isScalar_of_mem_scalars ht) hbody
  rw [List.map_id, List.map_id] at hkeys
  rw [← Utf8.flatten_scalars s, hkeys, Utf8.flatten_scalars]

/-- A character in a literal has no line break. -/
theorem newline_notMem_debugChar {s : List UInt8} (hs : Utf8.IsScalar s) : 10 ∉ debugChar tables s := by
  intro hmem
  rcases debugChar_cases tables s with ⟨hw, -, hnewline⟩ | hw | hw
  · rw [hw] at hmem
    exact hnewline (hs.eq_singleton hmem (by decide))
  · have hall : ∀ p ∈ shortEscapes, (10 : UInt8) ∉ p.2 := by decide
    exact hall _ hw hmem
  · rw [hw, escapeUnicode_eq] at hmem
    rcases List.mem_append.mp hmem with hmem | hmem
    · exact absurd hmem (by decide)
    · rcases List.mem_append.mp hmem with hmem | hmem
      · exact absurd (mem_digits (by omega) (by omega) hmem).1 (by decide)
      · exact absurd hmem (by decide)

/-- A string literal is one line. -/
theorem newline_notMem_debugStr {s : Text} (hs : Utf8.valid s = true) : 10 ∉ debugStr tables s := by
  intro hmem
  rcases List.mem_append.mp hmem with hmem | hmem
  · rcases List.mem_append.mp hmem with hmem | hmem
    · exact absurd hmem (by decide)
    · obtain ⟨scalar, hscalar, hmem⟩ := List.mem_flatMap.mp hmem
      exact newline_notMem_debugChar (Utf8.isScalar_of_mem_scalars hs scalar hscalar) hmem
  · exact absurd hmem (by decide)

end

/-! ## Values

A value is printed on one line or on several; what stands inside it is indented. -/

/-- What follows a value inside another: the comma at the end of its last line. -/
def withComma : List Text → List Text
  | [] => []
  | [line] => [line ++ ","]
  | line :: lines => line :: withComma lines

/-- What stands before a value inside another, at the start of its first line. -/
def withLabel (label : Text) : List Text → List Text
  | [] => []
  | line :: lines => (label ++ line) :: lines

/-- One value inside another, with its label and its comma, one level further in. -/
def debugEntry (label : Text) (value : List Text) : List Text :=
  (withLabel label (withComma value)).map fun line => "    " ++ line

/-- One field of a struct. -/
def debugField (field : Text × List Text) : List Text := debugEntry (field.1 ++ ": ") field.2

/-- `debug_struct`, with the name and the value of each field; a variant without fields is its name. -/
def debugStruct (name : Text) (fields : List (Text × List Text)) : List Text :=
  if fields.isEmpty then [name]
  else (name ++ " \x7b") :: fields.flatMap debugField ++ [utf8 "\x7d"]

/-- `debug_tuple`, of one field. -/
def debugTuple (name : Text) (value : List Text) : List Text := (name ++ "(") :: debugEntry [] value ++ [utf8 ")"]

/-- `debug_list`. -/
def debugList (values : List (List Text)) : List Text :=
  if values.isEmpty then ["[]"] else utf8 "[" :: values.flatMap (debugEntry []) ++ [utf8 "]"]

/-- The text of the lines. -/
def debugText (lines : List Text) : Text := [10].intercalate lines

/-- The text determines the lines. -/
theorem debugText_injective {lines lines' : List Text} (hne : lines ≠ []) (hne' : lines' ≠ [])
    (hlines : ∀ line ∈ lines, 10 ∉ line) (hlines' : ∀ line ∈ lines', 10 ∉ line)
    (h : debugText lines = debugText lines') : lines = lines' := by
  rw [← List.splitOn_intercalate 10 hlines hne, ← List.splitOn_intercalate 10 hlines' hne']
  exact congrArg (List.splitOn 10) h

section

variable {name label : Text} {value value' : List Text}

/-- No line of a value has a break in it. -/
def Unbroken (lines : List Text) : Prop := ∀ line ∈ lines, 10 ∉ line

theorem unbroken_singleton {line : Text} : Unbroken [line] ↔ 10 ∉ line := List.forall_mem_singleton

theorem unbroken_append {lines lines' : List Text} : Unbroken (lines ++ lines') ↔
    Unbroken lines ∧ Unbroken lines' :=
  List.forall_mem_append

theorem unbroken_cons {line : Text} {lines : List Text} : Unbroken (line :: lines) ↔ 10 ∉ line ∧ Unbroken lines :=
  List.forall_mem_cons

theorem unbroken_withComma (h : Unbroken value) : Unbroken (withComma value) := by
  induction value with
  | nil => exact h
  | cons line lines ih =>
    obtain ⟨hline, hlines⟩ := unbroken_cons.mp h
    cases lines with
    | nil =>
      rw [withComma, unbroken_singleton, List.mem_append]
      rintro (hmem | hmem)
      · exact hline hmem
      · exact absurd hmem (by decide)
    | cons next lines => exact unbroken_cons.mpr ⟨hline, ih hlines⟩

theorem unbroken_debugEntry (hlabel : 10 ∉ label) (h : Unbroken value) : Unbroken (debugEntry label value) := by
  have hspaces : (10 : UInt8) ∉ utf8 "    " := by decide
  have hcomma := unbroken_withComma h
  intro line hline
  obtain ⟨inner, hinner, rfl⟩ := List.mem_map.mp hline
  rw [List.mem_append, not_or]
  refine ⟨hspaces, ?_⟩
  cases hlines : withComma value with
  | nil =>
    rw [hlines] at hinner
    cases hinner
  | cons first lines =>
    rw [hlines, withLabel] at hinner
    rw [hlines, unbroken_cons] at hcomma
    rcases List.mem_cons.mp hinner with rfl | hinner
    · rw [List.mem_append, not_or]
      exact ⟨hlabel, hcomma.1⟩
    · exact hcomma.2 inner hinner

/-- The labels and the values of the fields have no break in them. -/
def UnbrokenFields : List (Text × List Text) → Prop
  | [] => True
  | (label, value) :: fields => (10 ∉ label ∧ Unbroken value) ∧ UnbrokenFields fields

theorem unbroken_fields {fields : List (Text × List Text)} (h : UnbrokenFields fields) :
    Unbroken (fields.flatMap debugField) := by
  have hcolon : (10 : UInt8) ∉ utf8 ": " := by decide
  induction fields with
  | nil => exact fun line hline => absurd hline List.not_mem_nil
  | cons field fields ih =>
    obtain ⟨⟨hlabel, hvalue⟩, hfields⟩ := h
    rw [List.flatMap_cons, unbroken_append]
    refine ⟨unbroken_debugEntry ?_ hvalue, ih hfields⟩
    rw [List.mem_append, not_or]
    exact ⟨hlabel, hcolon⟩

theorem unbroken_debugStruct {fields : List (Text × List Text)} (hname : 10 ∉ name)
    (hfields : UnbrokenFields fields) : Unbroken (debugStruct name fields) := by
  have hopen : (10 : UInt8) ∉ utf8 " \x7b" := by decide
  have hclose : (10 : UInt8) ∉ utf8 "\x7d" := by decide
  unfold debugStruct
  split
  · exact unbroken_singleton.mpr hname
  · rw [List.cons_append, unbroken_cons, unbroken_append, unbroken_singleton, List.mem_append, not_or]
    exact ⟨⟨hname, hopen⟩, unbroken_fields hfields, hclose⟩

theorem unbroken_debugList {values : List (List Text)} (h : ∀ value ∈ values, Unbroken value) :
    Unbroken (debugList values) := by
  unfold debugList
  split
  · exact unbroken_singleton.mpr (by decide)
  · rw [List.cons_append, unbroken_cons, unbroken_append, unbroken_singleton]
    refine ⟨by decide, fun line hline => ?_, by decide⟩
    obtain ⟨value, hvalue, hline⟩ := List.mem_flatMap.mp hline
    exact unbroken_debugEntry List.not_mem_nil (h value hvalue) line hline

theorem withComma_ne_nil {line : Text} {lines : List Text} : withComma (line :: lines) ≠ [] := by
  cases lines with
  | nil => exact List.cons_ne_nil _ _
  | cons next lines => exact List.cons_ne_nil _ _

theorem withComma_injective (h : withComma value = withComma value') : value = value' := by
  induction value generalizing value' with
  | nil =>
    cases value' with
    | nil => rfl
    | cons line' lines' => exact absurd h.symm withComma_ne_nil
  | cons line lines ih =>
    cases lines with
    | nil =>
      cases value' with
      | nil => cases h
      | cons line' lines' =>
        cases lines' with
        | nil =>
          rw [withComma, withComma] at h
          rw [List.append_cancel_right (List.cons.inj h).1]
        | cons next' lines' => exact absurd (List.cons.inj h).2.symm withComma_ne_nil
    | cons next lines =>
      cases value' with
      | nil => cases h
      | cons line' lines' =>
        cases lines' with
        | nil => exact absurd (List.cons.inj h).2 withComma_ne_nil
        | cons next' lines' => rw [(List.cons.inj h).1, ih (List.cons.inj h).2]

/-- What stands inside a value determines the value it is. -/
theorem debugEntry_injective (h : debugEntry label value = debugEntry label value') : value = value' := by
  have hindent : Function.Injective fun line : Text => utf8 "    " ++ line :=
    fun line line' => List.append_cancel_left
  have hlabel := List.map_injective_iff.mpr hindent h
  apply withComma_injective
  cases hv : withComma value with
  | nil =>
    cases hv' : withComma value' with
    | nil => rfl
    | cons first lines =>
      rw [hv, hv'] at hlabel
      cases hlabel
  | cons first lines =>
    cases hv' : withComma value' with
    | nil =>
      rw [hv, hv'] at hlabel
      cases hlabel
    | cons first' lines' =>
      rw [hv, hv'] at hlabel
      obtain ⟨hfirst, hlines⟩ := List.cons.inj hlabel
      rw [List.append_cancel_left hfirst, hlines]

theorem length_withComma (value : List Text) : (withComma value).length = value.length := by
  induction value with
  | nil => rfl
  | cons line lines ih =>
    cases lines with
    | nil => rfl
    | cons next lines => exact congrArg (· + 1) ih

theorem length_debugEntry (label : Text) (value : List Text) : (debugEntry label value).length = value.length := by
  have hlength := length_withComma value
  rw [debugEntry, List.length_map]
  cases h : withComma value with
  | nil => rw [← hlength, h]; rfl
  | cons first lines => rw [← hlength, h]; rfl

/-- Two values of one struct type have the same fields. -/
theorem debugStruct_inj {field field' : Text × List Text} {fields fields' : List (Text × List Text)}
    (h : debugStruct name (field :: fields) = debugStruct name (field' :: fields')) :
    (field :: fields).flatMap debugField = (field' :: fields').flatMap debugField :=
  List.append_cancel_right (List.cons.inj h).2

/-- A field that takes as many lines in both is the same in both. -/
theorem fields_inj {fields fields' : List (Text × List Text)}
    (h : ((label, value) :: fields).flatMap debugField = ((label, value') :: fields').flatMap debugField)
    (hlength : value.length = value'.length) :
    value = value' ∧ fields.flatMap debugField = fields'.flatMap debugField := by
  obtain ⟨hvalue, hfields⟩ := List.append_inj h (by
    rw [debugField, debugField, length_debugEntry, length_debugEntry, hlength])
  exact ⟨debugEntry_injective hvalue, hfields⟩

/-- The last field. -/
theorem last_field_inj (h : [(label, value)].flatMap debugField = [(label, value')].flatMap debugField) :
    value = value' :=
  debugEntry_injective (List.append_cancel_right h)

/-- A list is known by its values, where those are printed on as many lines each. -/
theorem debugList_injective {values values' : List (List Text)} {width : Nat} (hpos : 0 < width)
    (h : ∀ value ∈ values, value.length = width) (h' : ∀ value ∈ values', value.length = width)
    (heq : debugList values = debugList values') : values = values' := by
  have hlength : ∀ values : List (List Text), values ≠ [] → (∀ value ∈ values, value.length = width) →
      1 < (debugList values).length := by
    intro values hne hvalues
    rw [debugList, if_neg (by simpa using hne)]
    simp
  have hentries : values.flatMap (debugEntry []) = values'.flatMap (debugEntry []) := by
    by_cases hne : values = []
    · by_cases hne' : values' = []
      · rw [hne, hne']
      · have hlong := hlength values' hne' h'
        rw [← heq, hne] at hlong
        exact absurd hlong (by decide)
    · by_cases hne' : values' = []
      · have hlong := hlength values hne h
        rw [heq, hne'] at hlong
        exact absurd hlong (by decide)
      · rw [debugList, debugList, if_neg (by simpa using hne), if_neg (by simpa using hne'), List.cons_append,
          List.cons_append] at heq
        exact List.append_cancel_right (List.cons.inj heq).2
  have hfixed : Delimits (fun value : List Text => value.length = width) (debugEntry []) (debugEntry []) :=
    delimits_fixed fun value hvalue => (length_debugEntry [] value).trans hvalue
  have hself : Delimits (fun value : List Text => value.length = width) (debugEntry []) id :=
    hfixed.of_key fun _ _ _ _ => debugEntry_injective
  have hkeys := hself.flatMap (fun value hvalue => by
    rw [← List.length_pos_iff, length_debugEntry, hvalue]
    exact hpos) values values' h h' hentries
  rwa [List.map_id, List.map_id] at hkeys

end

/-! ## The types of `protocol.rs` -/

/-- `{:?}` of `AssertionName`. -/
def assertionNameDebug : AssertionName → Text
  | .safety => "Safety"
  | .controlledOutage => "ControlledOutage"
  | .restoration => "Restoration"
  | .boundedRecovery => "BoundedRecovery"
  | .processSafety => "ProcessSafety"
  | .responseIntegrity => "ResponseIntegrity"

/-- `{:?}` of `OutputStream`. -/
def outputStreamDebug : OutputStream → Text
  | .stdout => "Stdout"
  | .stderr => "Stderr"

/-- A number, on one line. -/
def debugNat (n : Nat) : List Text := [decimal n]

def debugInt (n : Int) : List Text := [decimalInt n]

def debugBool (b : Bool) : List Text := [boolText b]

def debugOption (value : Option (List Text)) : List Text :=
  match value with
  | none => ["None"]
  | some lines => debugTuple "Some" lines

def ProcessExit.debug : ProcessExit → List Text
  | .exited code => debugStruct "Exited" [("code", debugInt code)]
  | .signaled signal => debugStruct "Signaled" [("signal", debugInt signal)]

section

variable (tables : UnicodeTables)

/-- A string, on one line. -/
def debugString (text : Text) : List Text := [debugStr tables text]

def debugLaunch (launch : LaunchIdentity) : List Text :=
  debugStruct "LaunchIdentity" [("executable", debugString tables launch.executable),
    ("arguments", debugList (launch.arguments.map (debugString tables))),
    ("environment", debugList (launch.environment.map (debugString tables))),
    ("working_directory", debugString tables launch.workingDirectory),
    ("uid", debugNat launch.uid), ("gid", debugNat launch.gid)]

def AssertionResult.debug (result : AssertionResult) : List Text :=
  debugStruct "AssertionResult" [("name", [assertionNameDebug result.name]), ("passed", debugBool result.passed),
    ("detail", debugString tables result.detail)]

def AssertionReport.debug (report : AssertionReport) : List Text :=
  debugStruct "AssertionReport" [("passed", debugBool report.passed),
    ("assertions", debugList (report.assertions.map (AssertionResult.debug tables)))]

def Event.debug : Event → List Text
  | .agentReady => debugStruct "AgentReady" []
  | .networkConfigured interface guestCidr gateway => debugStruct "NetworkConfigured"
      [("interface", debugString tables interface), ("guest_cidr", debugString tables guestCidr),
        ("gateway", debugString tables gateway)]
  | .outageActivated peerCidr rule => debugStruct "OutageActivated"
      [("peer_cidr", debugString tables peerCidr), ("rule", debugString tables rule)]
  | .networkRestored peerCidr => debugStruct "NetworkRestored" [("peer_cidr", debugString tables peerCidr)]
  | .requestAttempted requestId payload phase => debugStruct "RequestAttempted"
      [("request_id", debugString tables requestId), ("payload", debugString tables payload),
        ("phase", [requestPhaseDebug phase])]
  | .requestSucceeded requestId requestPayload responseId responsePayload phase => debugStruct "RequestSucceeded"
      [("request_id", debugString tables requestId), ("request_payload", debugString tables requestPayload),
        ("response_id", debugString tables responseId), ("response_payload", debugString tables responsePayload),
        ("phase", [requestPhaseDebug phase])]
  | .requestUnavailable requestId phase error errno => debugStruct "RequestUnavailable"
      [("request_id", debugString tables requestId), ("phase", [requestPhaseDebug phase]),
        ("error", [requestErrorDebug error]), ("errno", debugOption (errno.map debugInt))]
  | .assertionsEvaluated report => debugStruct "AssertionsEvaluated" [("report", report.debug tables)]
  | .workloadStarted invocation launch => debugStruct "WorkloadStarted"
      [("invocation", debugNat invocation), ("launch", debugLaunch tables launch)]
  | .inputAccepted invocation offset bytes eof => debugStruct "InputAccepted"
      [("invocation", debugNat invocation), ("offset", debugNat offset), ("bytes", debugNat bytes),
        ("eof", debugBool eof)]
  | .terminationRequested invocation signal => debugStruct "TerminationRequested"
      [("invocation", debugNat invocation), ("signal", debugInt signal)]
  | .workloadOutput invocation stream offset sequence bytes => debugStruct "WorkloadOutput"
      [("invocation", debugNat invocation), ("stream", [outputStreamDebug stream]), ("offset", debugNat offset),
        ("sequence", debugNat sequence), ("bytes", debugString tables bytes)]
  | .workloadExited invocation exit stdoutBytes stdoutSha256 stderrBytes stderrSha256 frames =>
    debugStruct "WorkloadExited"
      [("invocation", debugNat invocation), ("exit", exit.debug), ("stdout_bytes", debugNat stdoutBytes),
        ("stdout_sha256", debugString tables stdoutSha256), ("stderr_bytes", debugNat stderrBytes),
        ("stderr_sha256", debugString tables stderrSha256), ("frames", debugNat frames)]
  | .launchFailed invocation failure detail => debugStruct "LaunchFailed"
      [("invocation", debugNat invocation), ("failure", [launchFailureDebug failure]),
        ("detail", debugString tables detail)]
  | .cleanupComplete invocation reaped => debugStruct "CleanupComplete"
      [("invocation", debugNat invocation), ("reaped", debugNat reaped)]
  | .agentStopped => debugStruct "AgentStopped" []

def NormalizedEvent.debug (event : NormalizedEvent) : List Text :=
  debugStruct "NormalizedEvent" [("protocol_version", debugNat event.protocolVersion),
    ("event_id", debugNat event.eventId), ("command_id", debugNat event.commandId),
    ("event", event.event.debug tables)]

end

/-! ## What a dump tells -/

section

variable {tables : UnicodeTables}

/-- The strings of an event. -/
def Event.texts : Event → List Text
  | .networkConfigured interface guestCidr gateway => [interface, guestCidr, gateway]
  | .outageActivated peerCidr rule => [peerCidr, rule]
  | .networkRestored peerCidr => [peerCidr]
  | .requestAttempted requestId payload _ => [requestId, payload]
  | .requestSucceeded requestId requestPayload responseId responsePayload _ =>
    [requestId, requestPayload, responseId, responsePayload]
  | .requestUnavailable requestId _ _ _ => [requestId]
  | .assertionsEvaluated report => report.assertions.map (·.detail)
  | .workloadStarted _ launch =>
    launch.executable :: launch.workingDirectory :: (launch.arguments ++ launch.environment)
  | .workloadOutput _ _ _ _ bytes => [bytes]
  | .workloadExited _ _ _ stdoutSha256 _ stderrSha256 _ => [stdoutSha256, stderrSha256]
  | .launchFailed _ _ detail => [detail]
  | _ => []

/-- The strings of an event are UTF-8, as every `String` is. -/
def Event.Encoded (event : Event) : Prop := ∀ text ∈ event.texts, Utf8.valid text = true

theorem decimal_injective {n m : Nat} (h : decimal n = decimal m) : n = m := by
  rw [← digitsValue_decimal n, h, digitsValue_decimal]

theorem newline_notMem_decimal (n : Nat) : 10 ∉ decimal n :=
  fun hmem => absurd (mem_digits (by omega) (by omega) hmem).1 (by decide)

theorem decimalInt_injective {n m : Int} (h : decimalInt n = decimalInt m) : n = m := by
  have hminus : ∀ n m, utf8 "-" ++ decimal n ≠ decimal m := by
    intro n m heq
    have hmem : (45 : UInt8) ∈ decimal m := heq ▸ List.mem_cons_self
    exact absurd (mem_digits (by omega) (by omega) hmem).1 (by decide)
  unfold decimalInt at h
  split at h
  next hn =>
    split at h
    next hm =>
      have habs := decimal_injective (List.append_cancel_left h)
      omega
    next hm => exact absurd h (hminus _ _)
  next hn =>
    split at h
    next hm => exact absurd h.symm (hminus _ _)
    next hm =>
      have habs := decimal_injective h
      omega

theorem newline_notMem_decimalInt (n : Int) : 10 ∉ decimalInt n := by
  unfold decimalInt
  split
  · rw [List.mem_append, not_or]
    exact ⟨by decide, newline_notMem_decimal _⟩
  · exact newline_notMem_decimal _

theorem unbroken_debugNat (n : Nat) : Unbroken (debugNat n) := unbroken_singleton.mpr (newline_notMem_decimal n)

theorem unbroken_debugBool (b : Bool) : Unbroken (debugBool b) := by
  cases b with
  | false => exact unbroken_singleton.mpr (by decide)
  | true => exact unbroken_singleton.mpr (by decide)

theorem unbroken_debugString {text : Text} (h : Utf8.valid text = true) : Unbroken (debugString tables text) :=
  unbroken_singleton.mpr (newline_notMem_debugStr h)

theorem unbroken_assertionName (name : AssertionName) : Unbroken [assertionNameDebug name] := by
  cases name <;> exact unbroken_singleton.mpr (by decide)

theorem AssertionResult.unbroken_debug {result : AssertionResult} (h : Utf8.valid result.detail = true) :
    Unbroken (result.debug tables) := by
  exact unbroken_debugStruct (by decide) ⟨⟨by decide, unbroken_assertionName _⟩, ⟨by decide, unbroken_debugBool _⟩,
    ⟨by decide, unbroken_debugString h⟩, trivial⟩

theorem AssertionReport.unbroken_debug {report : AssertionReport}
    (h : ∀ result ∈ report.assertions, Utf8.valid result.detail = true) : Unbroken (report.debug tables) := by
  refine unbroken_debugStruct (by decide) ⟨⟨by decide, unbroken_debugBool _⟩, ⟨by decide, ?_⟩, trivial⟩
  refine unbroken_debugList fun value hvalue => ?_
  obtain ⟨result, hresult, rfl⟩ := List.mem_map.mp hvalue
  exact AssertionResult.unbroken_debug (h result hresult)

theorem debugString_injective {s t : Text} (hs : Utf8.valid s = true) (ht : Utf8.valid t = true)
    (h : debugString tables s = debugString tables t) : s = t :=
  debugStr_injective hs ht (List.cons.inj h).1

theorem debugBool_injective {b b' : Bool} (h : debugBool b = debugBool b') : b = b' := by
  cases b <;> cases b' <;> first | rfl | exact absurd h (by decide)

theorem AssertionResult.debug_injective {result result' : AssertionResult} (h : Utf8.valid result.detail = true)
    (h' : Utf8.valid result'.detail = true) (heq : result.debug tables = result'.debug tables) :
    result = result' := by
  obtain ⟨name, passed, detail⟩ := result
  obtain ⟨name', passed', detail'⟩ := result'
  rw [AssertionResult.debug, AssertionResult.debug] at heq
  obtain ⟨hname, hrest⟩ := fields_inj (debugStruct_inj heq) rfl
  obtain ⟨hpassed, hdetail⟩ := fields_inj hrest rfl
  have hnames : ∀ name name', [assertionNameDebug name] = [assertionNameDebug name'] → name = name' := by
    intro name name' heq
    cases name <;> cases name' <;> first | rfl | exact absurd heq (by decide)
  obtain rfl : name = name' := hnames _ _ hname
  obtain rfl : passed = passed' := debugBool_injective hpassed
  obtain rfl : detail = detail' := debugString_injective h h' (last_field_inj hdetail)
  rfl

theorem AssertionReport.debug_injective {report report' : AssertionReport}
    (h : ∀ result ∈ report.assertions, Utf8.valid result.detail = true)
    (h' : ∀ result ∈ report'.assertions, Utf8.valid result.detail = true)
    (heq : report.debug tables = report'.debug tables) : report = report' := by
  obtain ⟨passed, assertions⟩ := report
  obtain ⟨passed', assertions'⟩ := report'
  rw [AssertionReport.debug, AssertionReport.debug] at heq
  obtain ⟨hpassed, hassertions⟩ := fields_inj (debugStruct_inj heq) rfl
  have hfive : ∀ results : List AssertionResult,
      ∀ value ∈ results.map (AssertionResult.debug tables), value.length = 5 := by
    intro results value hvalue
    obtain ⟨result, -, rfl⟩ := List.mem_map.mp hvalue
    rfl
  have hmap := debugList_injective (by omega) (hfive _) (hfive _) (last_field_inj hassertions)
  have hlist : ∀ results results' : List AssertionResult, (∀ result ∈ results, Utf8.valid result.detail = true) →
      (∀ result ∈ results', Utf8.valid result.detail = true) →
      results.map (AssertionResult.debug tables) = results'.map (AssertionResult.debug tables) →
          results = results' := by
    intro results
    induction results with
    | nil => exact fun results' _ _ heq => (List.map_eq_nil_iff.mp heq.symm).symm
    | cons result results ih =>
      intro results' hvalid hvalid' heq
      cases results' with
      | nil => cases heq
      | cons result' results' =>
        obtain ⟨hresult, hresults⟩ := List.cons.inj heq
        rw [List.forall_mem_cons] at hvalid hvalid'
        rw [AssertionResult.debug_injective hvalid.1 hvalid'.1 hresult, ih results' hvalid.2 hvalid'.2 hresults]
  obtain rfl : passed = passed' := debugBool_injective hpassed
  obtain rfl : assertions = assertions' := hlist _ _ h h' hmap
  rfl

theorem unbroken_debugInt (n : Int) : Unbroken (debugInt n) := unbroken_singleton.mpr (newline_notMem_decimalInt n)

theorem unbroken_debugStrings {texts : List Text} (h : ∀ text ∈ texts, Utf8.valid text = true) :
    Unbroken (debugList (texts.map (debugString tables))) := by
  refine unbroken_debugList fun value hvalue => ?_
  obtain ⟨text, htext, rfl⟩ := List.mem_map.mp hvalue
  exact unbroken_debugString (h text htext)

theorem unbroken_debugErrno (errno : Option Int) : Unbroken (debugOption (errno.map debugInt)) := by
  cases errno with
  | none => exact unbroken_singleton.mpr (by decide)
  | some errno =>
    rw [Option.map_some, debugOption, debugTuple, List.cons_append, unbroken_cons, unbroken_append,
      unbroken_singleton]
    exact ⟨by decide, unbroken_debugEntry List.not_mem_nil (unbroken_debugInt errno), by decide⟩

theorem unbroken_debugLaunch {launch : LaunchIdentity} (hexecutable : Utf8.valid launch.executable = true)
    (hdirectory : Utf8.valid launch.workingDirectory = true)
    (hlists : ∀ text ∈ launch.arguments ++ launch.environment, Utf8.valid text = true) :
    Unbroken (debugLaunch tables launch) := by
  obtain ⟨harguments, henvironment⟩ := List.forall_mem_append.mp hlists
  exact unbroken_debugStruct (by decide) ⟨⟨by decide, unbroken_debugString hexecutable⟩,
    ⟨by decide, unbroken_debugStrings harguments⟩, ⟨by decide, unbroken_debugStrings henvironment⟩,
    ⟨by decide, unbroken_debugString hdirectory⟩, ⟨by decide, unbroken_debugNat _⟩,
    ⟨by decide, unbroken_debugNat _⟩, trivial⟩

theorem ProcessExit.unbroken_debug (exit : ProcessExit) : Unbroken exit.debug := by
  cases exit <;> exact unbroken_debugStruct (by decide) ⟨⟨by decide, unbroken_debugInt _⟩, trivial⟩

theorem unbroken_phase (phase : RequestPhase) : Unbroken [requestPhaseDebug phase] := by
  cases phase <;> exact unbroken_singleton.mpr (by decide)

theorem unbroken_requestError (error : RequestError) : Unbroken [requestErrorDebug error] := by
  cases error <;> exact unbroken_singleton.mpr (by decide)

theorem unbroken_stream (stream : OutputStream) : Unbroken [outputStreamDebug stream] := by
  cases stream <;> exact unbroken_singleton.mpr (by decide)

theorem unbroken_failure (failure : LaunchFailure) : Unbroken [launchFailureDebug failure] := by
  cases failure <;> exact unbroken_singleton.mpr (by decide)

/-- Every field of an event is printed without a break in a line. -/
theorem Event.unbroken_debug {event : Event} (h : event.Encoded) : Unbroken (event.debug tables) := by
  unfold Event.Encoded at h
  cases event
  all_goals
    refine unbroken_debugStruct (by decide) ?_
    simp only [UnbrokenFields, and_true]
  all_goals
    simp only [Event.texts, List.forall_mem_cons, List.not_mem_nil, IsEmpty.forall_iff, implies_true, and_true,
      List.forall_mem_map] at h
    and_intros
  all_goals first
  | decide
  | exact unbroken_debugNat _
  | exact unbroken_debugInt _
  | exact unbroken_debugBool _
  | exact unbroken_phase _
  | exact unbroken_requestError _
  | exact unbroken_stream _
  | exact unbroken_failure _
  | exact unbroken_debugErrno _
  | exact ProcessExit.unbroken_debug _
  | exact AssertionReport.unbroken_debug h
  | exact unbroken_debugLaunch h.1 h.2.1 h.2.2
  | (refine unbroken_debugString ?_
     simp only [h])

/-- **The text of an event determines its lines.** -/
theorem NormalizedEvent.debugText_inj {a b : NormalizedEvent} (ha : a.event.Encoded) (hb : b.event.Encoded)
    (h : debugText (a.debug tables) = debugText (b.debug tables)) : a.debug tables = b.debug tables := by
  have hunbroken : ∀ event : NormalizedEvent, event.event.Encoded → Unbroken (event.debug tables) := by
    intro event hevent
    exact unbroken_debugStruct (by decide) ⟨⟨by decide, unbroken_debugNat _⟩, ⟨by decide, unbroken_debugNat _⟩,
      ⟨by decide, unbroken_debugNat _⟩, ⟨by decide, Event.unbroken_debug hevent⟩, trivial⟩
  exact debugText_injective (List.cons_ne_nil _ _) (List.cons_ne_nil _ _) (hunbroken a ha) (hunbroken b hb) h

/-- The dump of an event has that of its contents in it. -/
theorem NormalizedEvent.debug_inj {a b : NormalizedEvent} (h : a.debug tables = b.debug tables) :
    a.event.debug tables = b.event.debug tables := by
  rw [NormalizedEvent.debug, NormalizedEvent.debug] at h
  obtain ⟨-, h⟩ := fields_inj (debugStruct_inj h) rfl
  obtain ⟨-, h⟩ := fields_inj h rfl
  obtain ⟨-, h⟩ := fields_inj h rfl
  exact last_field_inj h

end

end SimFerret
