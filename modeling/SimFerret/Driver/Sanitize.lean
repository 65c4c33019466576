import SimFerret.Debug
import SimFerret.Guest.Agent
import SimFerret.Lib.Redaction

/-!
# SimFerret.Driver.Sanitize — what a failure bundle keeps of a log (`run.rs`)

A failure bundle is shared.  The private paths in its texts are replaced, in each form in which a diagnostic can
name them, and only the end of a log is kept.

* `sanitizeDiagnosticLog`: the replacement, and the limit.
* `readSanitizedLogTail`: the end of a log file, less the rest of a path that the start of the window cuts.
* `sanitizeDiagnosticLog_redacts`: **no private path stands whole in a text that the scans settle**; a path that
  overlaps itself survives the scan (`sanitize_overlapping`).
* `readSanitizedLogTail_clear`: **a cut path leaves nothing, where the plain or the QEMU form of a path covers
  it**; the rest of a path in Rust's debug form stays (`readSanitizedLogTail_debug`).
-/

namespace SimFerret

open Redaction

/-! ## The forms of a path -/

/-- `char::escape_debug`, for the first character of a string and for the others. -/
def escapeDebugChar (tables : UnicodeTables) (first : Bool) (scalar : List UInt8) : Text :=
  escapeDebugExt tables first true scalar

/-- `str::escape_debug`, with `skip` bytes of the current scalar still to be passed over. -/
def escapeDebugFrom (tables : UnicodeTables) : Bool → Nat → Text → Text
  | _, _, [] => []
  | first, skip + 1, _ :: rest => escapeDebugFrom tables first skip rest
  | first, 0, b :: rest =>
    let n := (Utf8.scalarLength b rest).2
    escapeDebugChar tables first ((b :: rest).take n) ++ escapeDebugFrom tables false (n - 1) rest

def escapeDebug (tables : UnicodeTables) (path : Text) : Text := escapeDebugFrom tables true 0 path

/-- `path.replace(',', ",,")`. -/
def qemuEscapePath (path : Text) : Text := path.flatMap fun b => if b = charByte ',' then ",," else [b]

/-- `Path::to_str`. -/
def toStr (path : Bytes) : Option Text := if Utf8.valid path then some path else none

/-! ## The replacement -/

def privateMark : Text := "<private-path>"

/-- A character that makes a path part of a longer name; each is one byte. -/
def continuesName (b : UInt8) : Bool :=
  Guest.isAsciiAlphanumeric b || b == charByte '-' || b == charByte '_' || b == charByte '.'

/-- `replace_private_path`.  A representation is never empty. -/
def replacePrivatePath (log representation : Text) : Text := replace continuesName privateMark representation log

def maxFailureLogBytes : Nat := 64 * 1024

def maxFailureTextBytes : Nat := 64 * 1024

/-- `str::is_char_boundary`, for an index within the string. -/
def isCharBoundary (log : Text) (index : Nat) : Bool :=
  match log[index]? with
  | none => true
  | some b => !Utf8.isContinuation b

/-- The loop that moves the cut to a character. -/
def boundaryFrom (log : Text) (start : Nat) : Nat :=
  if start < log.length ∧ isCharBoundary log start = false then boundaryFrom log (start + 1) else start
termination_by log.length - start

/-- The representations of a path, in the order in which they are replaced. -/
def representations (tables : UnicodeTables) (path : Text) : List Text :=
  [qemuEscapePath path, path, escapeDebug tables path]

/-- The last bytes of a text, from a character on. -/
def textTail (log : Text) : Bytes :=
  if log.length ≤ maxFailureTextBytes then log
  else log.drop (boundaryFrom log (log.length - maxFailureTextBytes))

def sanitizeDiagnosticLog (tables : UnicodeTables) (bytes : Bytes) (privatePaths : List Bytes) : Bytes :=
  textTail <| (privatePaths.filterMap toStr).foldl
    (fun log path => if path ≠ [] then (representations tables path).foldl replacePrivatePath log else log)
    (Utf8.lossy bytes)

/-! ## The end of a log -/

/-- `read_tail`, of a file that nobody writes meanwhile. -/
def readTail (file : Bytes) (limit : Nat) : Bytes := (file.drop (file.length - limit)).take limit

/-- The suffixes of a representation, the empty one left out. -/
def representationSuffixes (representation : Text) : List Text :=
  (List.range representation.length).map representation.drop

/-- How many bytes at the start of a window may be the rest of a path. -/
def partialPathLength (bytes : Bytes) (privatePaths : List Bytes) : Nat :=
  (privatePaths.filterMap toStr).foldl (fun discard path =>
    [path, qemuEscapePath path].foldl (fun discard representation =>
      (representationSuffixes representation).foldl (fun discard suffix =>
        if suffix.isPrefixOf bytes then max discard suffix.length else discard) discard) discard) 0

def discardPartialPrivatePath (bytes : Bytes) (privatePaths : List Bytes) : Bytes :=
  let discard := partialPathLength bytes privatePaths
  if discard > 0 ∧ bytes[discard]? = some 10 then bytes.drop (discard + 1) else bytes.drop discard

/-- How much of a log is read. -/
def logWindow (privatePaths : List Bytes) : Nat :=
  let overlap := ((privatePaths.filterMap toStr).map fun path => (qemuEscapePath path).length).max?.getD 0
  saturatingAdd (saturatingAdd maxFailureLogBytes overlap) 1

def readSanitizedLogTail (tables : UnicodeTables) (file : Bytes) (privatePaths : List Bytes) : Bytes :=
  let bytes := readTail file (logWindow privatePaths)
  let bytes := if file.length > bytes.length then discardPartialPrivatePath bytes privatePaths else bytes
  sanitizeDiagnosticLog tables bytes privatePaths

/-! ## The names that are replaced -/

section

variable {tables : UnicodeTables} {privatePaths : List Bytes}

/-- Every form of every path that is looked for, in order. -/
def privateNames (tables : UnicodeTables) (privatePaths : List Bytes) : List Text :=
  ((privatePaths.filterMap toStr).filter (· ≠ [])).flatMap (representations tables)

theorem sanitizeDiagnosticLog_eq (tables : UnicodeTables) (bytes : Bytes) (privatePaths : List Bytes) :
    sanitizeDiagnosticLog tables bytes privatePaths =
      textTail (replaceAll continuesName privateMark (privateNames tables privatePaths) (Utf8.lossy bytes)) := by
  have hfold : ∀ (paths : List Text) (log : Text), paths.foldl
      (fun log path => if path ≠ [] then (representations tables path).foldl replacePrivatePath log else log) log =
      replaceAll continuesName privateMark ((paths.filter (· ≠ [])).flatMap (representations tables)) log := by
    intro paths
    induction paths with
    | nil => exact fun _ => rfl
    | cons path paths ih =>
      intro log
      rw [List.foldl_cons, ih]
      by_cases hpath : path = []
      · rw [if_neg (not_not.mpr hpath), List.filter_cons_of_neg (by simpa using hpath)]
      · rw [if_pos hpath, List.filter_cons_of_pos (by simpa using hpath), List.flatMap_cons,
          replaceAll, replaceAll, List.foldl_append]
        rfl
  rw [sanitizeDiagnosticLog, hfold]
  rfl

theorem escapeDebugChar_ne_nil {first : Bool} {scalar : List UInt8} (h : scalar ≠ []) :
    escapeDebugChar tables first scalar ≠ [] := by
  unfold escapeDebugChar escapeDebugExt escapeUnicode
  repeat' split
  all_goals first
  | exact h
  | decide
  | exact List.append_ne_nil_of_left_ne_nil (by decide) _

theorem escapeDebug_ne_nil {path : Text} (h : path ≠ []) : escapeDebug tables path ≠ [] := by
  obtain ⟨b, rest, rfl⟩ := List.exists_cons_of_ne_nil h
  rcases hscalar : Utf8.scalarLength b rest with ⟨ok, n⟩
  have hpos := (Utf8.scalarLength_bounds hscalar).1
  have htake : (b :: rest).take n ≠ [] := by
    intro hnil
    rcases List.take_eq_nil_iff.mp hnil with hzero | hnil
    · omega
    · cases hnil
  rw [escapeDebug, escapeDebugFrom, hscalar]
  exact List.append_ne_nil_of_left_ne_nil (escapeDebugChar_ne_nil htake) _

theorem qemuEscapePath_ne_nil {path : Text} (h : path ≠ []) : qemuEscapePath path ≠ [] := by
  obtain ⟨b, rest, rfl⟩ := List.exists_cons_of_ne_nil h
  rw [qemuEscapePath, List.flatMap_cons]
  refine List.append_ne_nil_of_left_ne_nil ?_ _
  split
  · decide
  · exact List.cons_ne_nil _ _

theorem mem_privateNames {name : Text} (h : name ∈ privateNames tables privatePaths) :
    ∃ path, some path ∈ privatePaths.map toStr ∧ path ≠ [] ∧ name ∈ representations tables path := by
  obtain ⟨path, hpath, hname⟩ := List.mem_flatMap.mp h
  obtain ⟨hmem, hne⟩ := List.mem_filter.mp hpath
  obtain ⟨raw, hraw, hstr⟩ := List.mem_filterMap.mp hmem
  exact ⟨path, List.mem_map.mpr ⟨raw, hraw, hstr⟩, by simpa using hne, hname⟩

theorem privateNames_ne_nil {name : Text} (h : name ∈ privateNames tables privatePaths) : name ≠ [] := by
  obtain ⟨path, -, hpath, hname⟩ := mem_privateNames h
  simp only [representations, List.mem_cons, List.not_mem_nil, or_false] at hname
  rcases hname with rfl | rfl | rfl
  · exact qemuEscapePath_ne_nil hpath
  · exact hpath
  · exact escapeDebug_ne_nil hpath

theorem boundaryFrom_le {log : Text} (start : Nat) (h : start ≤ log.length) :
    start ≤ boundaryFrom log start ∧ boundaryFrom log start ≤ log.length ∧
      isCharBoundary log (boundaryFrom log start) = true := by
  induction hn : log.length - start generalizing start with
  | zero =>
    have hstart : start = log.length := by omega
    rw [boundaryFrom, if_neg (by omega)]
    refine ⟨Nat.le_refl _, h, ?_⟩
    rw [isCharBoundary, hstart, List.getElem?_eq_none (Nat.le_refl _)]
  | succ n ih =>
    rw [boundaryFrom]
    split
    next hloop =>
      obtain ⟨hle, hrest⟩ := ih (start + 1) (by omega) (by omega)
      exact ⟨by omega, hrest⟩
    next hstop =>
      refine ⟨Nat.le_refl _, h, ?_⟩
      by_contra hboundary
      exact hstop ⟨by omega, by simpa using hboundary⟩

theorem textTail_suffix (log : Text) : textTail log <:+ log := by
  unfold textTail
  split
  · exact List.suffix_rfl
  · exact List.drop_suffix _ _

theorem length_textTail (log : Text) : (textTail log).length ≤ maxFailureTextBytes := by
  unfold textTail
  split
  next h => exact h
  next h =>
    have hstart := (@boundaryFrom_le log (log.length - maxFailureTextBytes) (Nat.sub_le _ _)).1
    rw [List.length_drop]
    omega

/-! ## Private paths in a text -/

/-- The forms of the path are the path. -/
def Plain (tables : UnicodeTables) (path : Text) : Prop :=
  qemuEscapePath path = path ∧ escapeDebug tables path = path

theorem textTail_of_le {log : Text} (h : log.length ≤ maxFailureTextBytes) : textTail log = log := if_pos h

/-- The limit cuts in front of a character. -/
theorem textTail_cut {front back : Text} (hlength : (front ++ back).length = maxFailureTextBytes + front.length)
    (hback : isCharBoundary back 0 = true) : textTail (front ++ back) = back := by
  by_cases hfront : front = []
  · subst hfront
    exact textTail_of_le hlength.le
  · have hpos := List.length_pos_iff.mpr hfront
    have hboundary : isCharBoundary (front ++ back) front.length = true := by
      rw [isCharBoundary, List.getElem?_append_right (Nat.le_refl _), Nat.sub_self]
      exact hback
    have hstart : boundaryFrom (front ++ back) front.length = front.length := by
      rw [boundaryFrom, if_neg]
      rintro ⟨-, hcut⟩
      rw [hboundary] at hcut
      cases hcut
    rw [textTail, if_neg (by omega), hlength, Nat.add_sub_cancel_left, hstart, List.drop_left]

end

section

variable {tables : UnicodeTables} {privatePaths : List Bytes}

theorem valid_escapeUnicode (c : Nat) : Utf8.valid (escapeUnicode c) = true := by
  refine Utf8.valid_of_ascii fun b hb => ?_
  unfold escapeUnicode at hb
  have hopen : ∀ b ∈ utf8 "\\u\x7b", b < 0x80 := by decide +kernel
  have hclose : ∀ b ∈ utf8 "\x7d", b < 0x80 := by decide +kernel
  rcases List.mem_append.mp hb with hb | hb
  · exact hopen b hb
  · rcases List.mem_append.mp hb with hb | hb
    · obtain ⟨d, hd, rfl⟩ := List.mem_map.mp hb
      obtain ⟨k, hk, rfl⟩ := mem_toDigits (by omega) c hd
      have hall : ∀ k < 16, charByte (Nat.digitChar k) < 0x80 := by decide
      exact hall k hk
    · exact hclose b hb

theorem valid_escapeDebugChar {first : Bool} {scalar : List UInt8} (h : Utf8.IsScalar scalar) :
    Utf8.valid (escapeDebugChar tables first scalar) = true := by
  have hself : Utf8.valid (scalar ++ []) = Utf8.valid [] := Utf8.valid_scalar_append h
  rw [List.append_nil] at hself
  unfold escapeDebugChar escapeDebugExt
  repeat' split
  all_goals first
  | decide
  | exact valid_escapeUnicode _
  | exact hself

theorem escapeDebugFrom_skip (first : Bool) (skip : Nat) (path : Text) :
    escapeDebugFrom tables first skip path = escapeDebugFrom tables first 0 (path.drop skip) := by
  induction skip generalizing path with
  | zero => rfl
  | succ skip ih =>
    cases path with
    | nil => simp [escapeDebugFrom]
    | cons b rest => rw [escapeDebugFrom, ih, List.drop_succ_cons]

theorem valid_escapeDebug {path : Text} (h : Utf8.valid path = true) :
    Utf8.valid (escapeDebug tables path) = true := by
  have hfrom : ∀ first, Utf8.valid (escapeDebugFrom tables first 0 path) = true := by
    induction path, h using Utf8.valid_induction with
    | nil => exact fun _ => rfl
    | scalar s text hs _ ih =>
      intro first
      obtain ⟨b, rest, rfl, hlen⟩ := hs
      have hscalar : Utf8.IsScalar (b :: rest) := ⟨b, rest, rfl, hlen⟩
      obtain ⟨-, -, -, hmore⟩ := Utf8.scalarLength_true hlen
      have hs := hmore text
      rw [Nat.add_sub_cancel, List.take_length] at hs
      rw [List.cons_append, escapeDebugFrom, hs]
      simp only [Nat.add_sub_cancel, List.take_succ_cons, List.take_left]
      rw [Utf8.valid_append (valid_escapeDebugChar hscalar), escapeDebugFrom_skip, List.drop_left]
      exact ih false
  exact hfrom true

theorem valid_qemuEscapePath {path : Text} (h : Utf8.valid path = true) :
    Utf8.valid (qemuEscapePath path) = true := by
  induction path, h using Utf8.valid_induction with
  | nil => rfl
  | scalar s text hs _ ih =>
    obtain ⟨b, rest, rfl, hlen⟩ := hs
    have hscalar : Utf8.IsScalar (b :: rest) := ⟨b, rest, rfl, hlen⟩
    obtain ⟨-, -, hrest, -⟩ := Utf8.scalarLength_true hlen
    rw [Nat.add_sub_cancel, List.take_length] at hrest
    -- only the first byte of a scalar can be a comma
    have hplain : qemuEscapePath rest = rest := by
      have hno : ∀ c ∈ rest, (if c = charByte ',' then utf8 ",," else [c]) = [c] := by
        intro c hc
        rw [if_neg]
        rintro rfl
        exact absurd (hrest _ hc) (by decide)
      rw [qemuEscapePath, List.flatMap_congr hno]
      exact List.flatMap_singleton' rest
    have hsplit : qemuEscapePath (b :: rest ++ text) = (if b = charByte ',' then utf8 ",," else [b]) ++ rest ++
        qemuEscapePath text := by
      nth_rewrite 2 [← hplain]
      simp only [qemuEscapePath, List.cons_append, List.flatMap_cons, List.flatMap_append, List.append_assoc]
    rw [hsplit]
    by_cases hcomma : b = charByte ','
    · subst hcomma
      obtain rfl : rest = [] := by
        have hlength := congrArg Prod.snd hlen
        exact List.eq_nil_of_length_eq_zero (Nat.succ.inj hlength).symm
      rw [if_pos rfl, List.append_nil, Utf8.valid_append (by decide), ih]
    · rw [if_neg hcomma, List.singleton_append, Utf8.valid_scalar_append hscalar, ih]

theorem valid_privateNames {name : Text} (h : name ∈ privateNames tables privatePaths) :
    Utf8.valid name = true := by
  obtain ⟨path, hpath, -, hname⟩ := mem_privateNames h
  obtain ⟨raw, -, hstr⟩ := List.mem_map.mp hpath
  have hvalid : Utf8.valid path = true := by
    unfold toStr at hstr
    split at hstr
    next hraw => exact Option.some.inj hstr ▸ hraw
    next => cases hstr
  simp only [representations, List.mem_cons, List.not_mem_nil, or_false] at hname
  rcases hname with rfl | rfl | rfl
  · exact valid_qemuEscapePath hvalid
  · exact hvalid
  · exact valid_escapeDebug hvalid

/-- A name stands between characters. -/
theorem valid_around {name front behind : Text} (hname : Utf8.valid name = true) (hne : name ≠ [])
    (h : Utf8.valid (front ++ name ++ behind) = true) : Utf8.valid front = true ∧ Utf8.valid behind = true := by
  obtain ⟨c, rest, rfl⟩ := List.exists_cons_of_ne_nil hne
  rw [List.append_assoc] at h
  obtain ⟨hfront, hrest⟩ := Utf8.valid_split h rfl (by
    intro d hd
    cases hd
    exact Utf8.not_continuation_of_valid hname)
  rw [Utf8.valid_append hname] at hrest
  exact ⟨hfront, hrest⟩

theorem valid_replacePrivatePath {name : Text} (hname : Utf8.valid name = true) (hne : name ≠ []) (log : Text)
    (h : Utf8.valid log = true) : Utf8.valid (replacePrivatePath log name) = true := by
  unfold replacePrivatePath
  induction hn : log.length using Nat.strongRecOn generalizing log with
  | _ n ih =>
    cases hfind : find name log with
    | none => rwa [replace_none hfind]
    | some index =>
      obtain ⟨front, behind, rfl, rfl, -⟩ := find_some hfind
      obtain ⟨hfront, hbehind⟩ := valid_around hname hne h
      have hpos := List.length_pos_iff.mpr hne
      simp only [List.length_append] at hn
      have hmark : Utf8.valid (if Ends continuesName behind then privateMark else name) = true := by
        split
        · decide
        · exact hname
      rw [replace_some hne hfind, List.append_assoc, Utf8.valid_append hfront, Utf8.valid_append hmark]
      exact ih behind.length (by omega) behind hbehind rfl

theorem valid_replaceAll {names : List Text} (hnames : ∀ name ∈ names, Utf8.valid name = true ∧ name ≠ [])
    (log : Text) (h : Utf8.valid log = true) :
    Utf8.valid (replaceAll continuesName privateMark names log) = true := by
  induction names generalizing log with
  | nil => exact h
  | cons name names ih =>
    obtain ⟨hvalid, hne⟩ := hnames name List.mem_cons_self
    exact ih (fun w hw => hnames w (List.mem_cons_of_mem _ hw)) _ (valid_replacePrivatePath hvalid hne log h)

theorem valid_textTail {log : Text} (h : Utf8.valid log = true) : Utf8.valid (textTail log) = true := by
  unfold textTail
  split
  · exact h
  · obtain ⟨-, hle, hboundary⟩ := @boundaryFrom_le log (log.length - maxFailureTextBytes) (Nat.sub_le _ _)
    refine (Utf8.valid_split h (List.take_append_drop _ log).symm ?_).2
    intro c hc
    rw [List.head?_drop] at hc
    rw [isCharBoundary, hc] at hboundary
    simpa using hboundary

/-- The sanitized text is well formed and within the limit. -/
theorem sanitizeDiagnosticLog_text (tables : UnicodeTables) (bytes : Bytes) (privatePaths : List Bytes) :
    Utf8.valid (sanitizeDiagnosticLog tables bytes privatePaths) = true ∧
      (sanitizeDiagnosticLog tables bytes privatePaths).length ≤ maxFailureTextBytes := by
  rw [sanitizeDiagnosticLog_eq]
  refine ⟨valid_textTail (valid_replaceAll ?_ _ (Utf8.valid_lossy bytes)), length_textTail _⟩
  exact fun name hname => ⟨valid_privateNames hname, privateNames_ne_nil hname⟩

/-! ## A path that the window cuts -/

/-- A suffix of the plain or the QEMU form of a private path that is not empty. -/
def PartialPath (privatePaths : List Bytes) (suffix : Text) : Prop :=
  ∃ path, some path ∈ privatePaths.map toStr ∧ suffix ≠ [] ∧ (suffix <:+ path ∨ suffix <:+ qemuEscapePath path)

theorem le_foldl_max {β : Type} (f : Nat → β → Nat) (hf : ∀ n b, n ≤ f n b) (bs : List β) (n : Nat) :
    n ≤ bs.foldl f n ∧ ∀ b ∈ bs, ∀ m, (∀ k, m ≤ f k b) → m ≤ bs.foldl f n := by
  induction bs generalizing n with
  | nil => exact ⟨Nat.le_refl _, fun b hb => absurd hb List.not_mem_nil⟩
  | cons b bs ih =>
    obtain ⟨hle, hmem⟩ := ih (f n b)
    refine ⟨(hf n b).trans hle, fun c hc m hm => ?_⟩
    rcases List.mem_cons.mp hc with rfl | hc
    · exact (hm n).trans hle
    · exact hmem c hc m hm

theorem mem_representationSuffixes {suffix representation : Text} (hne : suffix ≠ [])
    (h : suffix <:+ representation) : suffix ∈ representationSuffixes representation := by
  obtain ⟨front, rfl⟩ := h
  have hpos := List.length_pos_iff.mpr hne
  refine List.mem_map.mpr ⟨front.length, List.mem_range.mpr ?_, List.drop_left⟩
  rw [List.length_append]
  omega

/-- What is discarded is at least as long as every partial path at the start of the window. -/
theorem le_partialPathLength {suffix bytes : Text} (h : PartialPath privatePaths suffix)
    (hpre : suffix <+: bytes) : suffix.length ≤ partialPathLength bytes privatePaths := by
  obtain ⟨path, hpath, hne, hsuffix⟩ := h
  obtain ⟨raw, hraw, hstr⟩ := List.mem_map.mp hpath
  have hsuffixes : ∀ n (s : Text), n ≤ if s.isPrefixOf bytes then max n s.length else n := by
    intro n s
    split
    · exact Nat.le_max_left _ _
    · exact Nat.le_refl _
  have hforms := fun n (form : Text) => (le_foldl_max _ hsuffixes (representationSuffixes form) n).1
  have hpaths := fun n (path : Text) => (le_foldl_max _ hforms [path, qemuEscapePath path] n).1
  refine (le_foldl_max _ hpaths _ 0).2 path (List.mem_filterMap.mpr ⟨raw, hraw, hstr⟩) _ fun n => ?_
  obtain ⟨form, hform, hmem⟩ : ∃ form ∈ [path, qemuEscapePath path], suffix ∈ representationSuffixes form := by
    rcases hsuffix with hsuffix | hsuffix
    · exact ⟨path, List.mem_cons_self, mem_representationSuffixes hne hsuffix⟩
    · exact ⟨_, List.mem_cons_of_mem _ List.mem_cons_self, mem_representationSuffixes hne hsuffix⟩
  refine (le_foldl_max _ hforms _ n).2 form hform _ fun n => ?_
  refine (le_foldl_max _ hsuffixes _ n).2 suffix hmem _ fun n => ?_
  rw [if_pos (List.isPrefixOf_iff_prefix.mpr hpre)]
  exact Nat.le_max_right _ _

/-- Where the window of a log starts. -/
def windowStart (file : Bytes) (privatePaths : List Bytes) : Nat := file.length - logWindow privatePaths

/-- An occurrence of a private name that the start of the window cuts. -/
structure Straddles (tables : UnicodeTables) (privatePaths : List Bytes)
    (file before name behind : Bytes) : Prop where
  occurs : file = before ++ name ++ behind
  isName : name ∈ privateNames tables privatePaths
  starts : before.length < windowStart file privatePaths
  ends : windowStart file privatePaths < before.length + name.length

/-- The window starts with the rest of a plain or QEMU form that reaches to the end of the occurrence. -/
def Covered (privatePaths : List Bytes) (file before name : Bytes) : Prop :=
  ∃ suffix, PartialPath privatePaths suffix ∧ suffix <+: file.drop (windowStart file privatePaths) ∧
    before.length + name.length ≤ windowStart file privatePaths + suffix.length

/-- The returned text is made of the log behind the occurrence. -/
def Clear (tables : UnicodeTables) (privatePaths : List Bytes) (behind out : Bytes) : Prop :=
  ∃ later, later <:+ behind ∧ out = sanitizeDiagnosticLog tables later privatePaths

theorem readTail_window {file : Bytes} (h : 0 < windowStart file privatePaths) :
    readTail file (logWindow privatePaths) = file.drop (windowStart file privatePaths) := by
  unfold windowStart at h
  refine List.take_of_length_le ?_
  rw [List.length_drop]
  omega

theorem discard_drop (bytes : Bytes) (privatePaths : List Bytes) : ∃ n, partialPathLength bytes privatePaths ≤ n ∧
    discardPartialPrivatePath bytes privatePaths = bytes.drop n := by
  simp only [discardPartialPrivatePath]
  split
  · exact ⟨_, Nat.le_succ _, rfl⟩
  · exact ⟨_, Nat.le_refl _, rfl⟩

theorem readSanitizedLogTail_window {file : Bytes} (h : 0 < windowStart file privatePaths) :
    readSanitizedLogTail tables file privatePaths = sanitizeDiagnosticLog tables
      (discardPartialPrivatePath (file.drop (windowStart file privatePaths)) privatePaths) privatePaths := by
  have hless : (file.drop (windowStart file privatePaths)).length < file.length := by
    unfold windowStart at h ⊢
    rw [List.length_drop]
    omega
  unfold readSanitizedLogTail
  simp only [readTail_window h, if_pos hless]

theorem Straddles.clear {file before name behind : Bytes}
    (h : Straddles tables privatePaths file before name behind)
    (hcovered : Covered privatePaths file before name) :
    Clear tables privatePaths behind (readSanitizedLogTail tables file privatePaths) := by
  obtain ⟨suffix, hpartial, hpre, hreach⟩ := hcovered
  have hstarts := h.starts
  have hle := le_partialPathLength hpartial hpre
  obtain ⟨n, hn, hdiscard⟩ := discard_drop (file.drop (windowStart file privatePaths)) privatePaths
  refine ⟨_, ?_, readSanitizedLogTail_window (by omega)⟩
  rw [hdiscard, List.drop_drop]
  -- what is dropped reaches behind the occurrence
  have hreach' : (before ++ name).length ≤ windowStart file privatePaths + n := by
    rw [List.length_append]
    omega
  generalize windowStart file privatePaths + n = m at hreach'
  rw [h.occurs, List.drop_append, List.drop_of_length_le hreach', List.nil_append]
  exact List.drop_suffix _ _

/-- The rest of a plain or QEMU form covers itself. -/
theorem Straddles.covered {file before name behind path : Bytes}
    (h : Straddles tables privatePaths file before name behind) (hpath : some path ∈ privatePaths.map toStr)
    (hname : name = path ∨ name = qemuEscapePath path) : Covered privatePaths file before name := by
  have hstarts := h.starts
  have hends := h.ends
  have hdrop : file.drop (windowStart file privatePaths) =
      name.drop (windowStart file privatePaths - before.length) ++ behind := by
    generalize hm : windowStart file privatePaths = m at hstarts hends
    rw [h.occurs, List.append_assoc, List.drop_append, List.drop_of_length_le hstarts.le, List.nil_append,
      List.drop_append_of_le_length (by omega)]
  refine ⟨name.drop (windowStart file privatePaths - before.length), ⟨path, hpath, ?_, ?_⟩, ?_, ?_⟩
  · intro hnil
    have hlength := congrArg List.length hnil
    rw [List.length_drop, List.length_nil] at hlength
    omega
  · rcases hname with rfl | rfl
    · exact .inl (List.drop_suffix _ _)
    · exact .inr (List.drop_suffix _ _)
  · rw [hdrop]
    exact List.prefix_append _ _
  · rw [List.length_drop]
    omega

/-- **A path that the start of the window cuts leaves nothing in the text**, where a plain or QEMU form covers
what is left of it, as it does for these forms themselves. -/
theorem readSanitizedLogTail_clear (tables : UnicodeTables) (file : Bytes) (privatePaths : List Bytes) :
    (Utf8.valid (readSanitizedLogTail tables file privatePaths) = true ∧
      (readSanitizedLogTail tables file privatePaths).length ≤ maxFailureTextBytes) ∧
    ∀ before name behind, Straddles tables privatePaths file before name behind →
      ((∃ path, some path ∈ privatePaths.map toStr ∧ (name = path ∨ name = qemuEscapePath path)) →
        Covered privatePaths file before name) ∧
      (Covered privatePaths file before name →
        Clear tables privatePaths behind (readSanitizedLogTail tables file privatePaths)) := by
  refine ⟨sanitizeDiagnosticLog_text tables _ privatePaths, fun before name behind h => ⟨?_, h.clear⟩⟩
  rintro ⟨path, hpath, hname⟩
  exact h.covered hpath hname

end

theorem readSanitizedLogTail_clear_runs :
    Clear asciiTables [utf8 "/srv/runs"] (List.replicate 65541 120)
      (readSanitizedLogTail asciiTables (utf8 "/srv/runs" ++ List.replicate 65541 120) [utf8 "/srv/runs"]) := by
  have hwindow : logWindow [utf8 "/srv/runs"] = 65546 := by decide
  have hlength : (utf8 "/srv/runs").length = 9 := by decide
  have h : Straddles asciiTables [utf8 "/srv/runs"] (utf8 "/srv/runs" ++ List.replicate 65541 120) []
      (utf8 "/srv/runs") (List.replicate 65541 120) := by
    refine ⟨by rw [List.nil_append], by decide, ?_, ?_⟩
    all_goals
      rw [windowStart, hwindow, List.length_append, List.length_replicate, hlength]
      decide
  have hclear := (readSanitizedLogTail_clear asciiTables _ [utf8 "/srv/runs"]).2 [] _ _ h
  exact hclear.2 (hclear.1 ⟨utf8 "/srv/runs", by decide, .inl rfl⟩)

/-- The path of which only the debug form is escaped. -/
def quotedPath : Bytes := "/'a'/'b'"

/-- A log that starts with the debug form of the path. -/
def quotedLog : Bytes := escapeDebug asciiTables quotedPath ++ List.replicate 65534 120

theorem windowStart_quoted : windowStart quotedLog [quotedPath] = 1 := by
  have hwindow : logWindow [quotedPath] = 65545 := by decide
  have hlength : (escapeDebug asciiTables quotedPath).length = 12 := by decide
  rw [windowStart, hwindow, quotedLog, List.length_append, List.length_replicate, hlength]

theorem straddles_quoted : Straddles asciiTables [quotedPath] quotedLog [] (escapeDebug asciiTables quotedPath)
    (List.replicate 65534 120) := by
  refine ⟨by rw [List.nil_append, quotedLog], by decide, ?_, ?_⟩
  all_goals
    rw [windowStart_quoted]
    decide

/-- A text with fewer slashes than the forms of the path is not changed. -/
theorem sanitize_quoted {text : Text} (hascii : ∀ b ∈ text, b < 0x80) (hslashes : text.count 47 < 2) :
    sanitizeDiagnosticLog asciiTables text [quotedPath] = textTail text := by
  have hnames : ∀ name ∈ privateNames asciiTables [quotedPath], name.count 47 = 2 := by decide
  have hscans : ∀ names : List Text, (∀ name ∈ names, name.count 47 = 2) →
      replaceAll continuesName privateMark names text = text := by
    intro names
    induction names with
    | nil => exact fun _ => rfl
    | cons name names ih =>
      intro hnames
      obtain ⟨hname, hnames⟩ := List.forall_mem_cons.mp hnames
      have hscan : replace continuesName privateMark name text = text :=
        replace_of_count_lt (hslashes.trans_eq hname.symm)
      rw [replaceAll, List.foldl_cons, hscan]
      exact ih hnames
  rw [sanitizeDiagnosticLog_eq, Utf8.lossy_of_ascii hascii, hscans _ hnames]

theorem partialPathLength_quoted (rest : Bytes) : partialPathLength (92 :: rest) [quotedPath] = 0 := by
  have hfixed : ∀ {β : Type} (f : Nat → β → Nat) (bs : List β), (∀ b ∈ bs, f 0 b = 0) → bs.foldl f 0 = 0 := by
    intro β f bs
    induction bs with
    | nil => exact fun _ => rfl
    | cons b bs ih =>
      intro h
      obtain ⟨hb, hbs⟩ := List.forall_mem_cons.mp h
      rw [List.foldl_cons, hb]
      exact ih hbs
  have hforms : ∀ path ∈ [quotedPath].filterMap toStr, ∀ form ∈ [path, qemuEscapePath path],
      ∀ suffix ∈ representationSuffixes form, suffix ≠ [] ∧ suffix.head? ≠ some 92 := by decide
  refine hfixed _ _ fun path hpath => hfixed _ _ fun form hform => hfixed _ _ fun suffix hsuffix => ?_
  obtain ⟨hne, hhead⟩ := hforms path hpath form hform suffix hsuffix
  obtain ⟨c, more, rfl⟩ := List.exists_cons_of_ne_nil hne
  rw [if_neg]
  rw [List.isPrefixOf_iff_prefix, List.cons_prefix_cons]
  rintro ⟨rfl, -⟩
  exact hhead rfl

/-- **The rest of a path in its debug form stays at the start of the text.** -/
theorem readSanitizedLogTail_debug :
    Straddles asciiTables [quotedPath] quotedLog [] (escapeDebug asciiTables quotedPath)
      (List.replicate 65534 120) ∧ readSanitizedLogTail asciiTables quotedLog [quotedPath] = utf8 "\\'" ++
      List.replicate 65534 120 ∧ ¬ Clear asciiTables [quotedPath] (List.replicate 65534 120)
        (readSanitizedLogTail asciiTables quotedLog [quotedPath]) := by
  have hdrop : quotedLog.drop 1 = 92 :: (utf8 "'a\\'/\\'b" ++ (utf8 "\\'" ++ List.replicate 65534 120)) := by
    rw [quotedLog, List.drop_append_of_le_length (by decide),
      show (escapeDebug asciiTables quotedPath).drop 1 = 92 :: (utf8 "'a\\'/\\'b" ++ utf8 "\\'") by decide]
    rw [List.cons_append, List.append_assoc]
  have hmiddle : (utf8 "'a\\'/\\'b").length = 8 := by decide
  have hend : (utf8 "\\'").length = 2 := by decide
  have hdiscard : discardPartialPrivatePath (quotedLog.drop 1) [quotedPath] = quotedLog.drop 1 := by
    simp only [discardPartialPrivatePath, hdrop, partialPathLength_quoted, List.drop_zero]
    rw [if_neg]
    rintro ⟨hpos, -⟩
    omega
  have hout : readSanitizedLogTail asciiTables quotedLog [quotedPath] = utf8 "\\'" ++
      List.replicate 65534 120 := by
    have hwindow := @readSanitizedLogTail_window asciiTables [quotedPath] quotedLog
      (by rw [windowStart_quoted]; omega)
    rw [windowStart_quoted, hdiscard, hdrop, sanitize_quoted] at hwindow
    · -- the limit cuts within the rest of the path
      rw [hwindow, ← List.cons_append]
      refine textTail_cut ?_ (by decide)
      simp only [List.length_cons, List.length_append, List.length_replicate, hmiddle, hend, maxFailureTextBytes]
    · intro b hb
      have hrest : ∀ b ∈ 92 :: utf8 "'a\\'/\\'b" ++ utf8 "\\'", b < 0x80 := by decide +kernel
      rw [← List.append_assoc, ← List.cons_append] at hb
      rcases List.mem_append.mp hb with hb | hb
      · exact hrest b hb
      · rw [List.eq_of_mem_replicate hb]
        decide
    · simp only [List.count_cons, List.count_append, List.count_replicate]
      decide
  refine ⟨straddles_quoted, hout, ?_⟩
  rintro ⟨later, hlater, hclear⟩
  have hall : ∀ b ∈ later, b = 120 := fun b hb => List.eq_of_mem_replicate (hlater.subset hb)
  rw [hout, sanitize_quoted] at hclear
  · have hmem : (92 : UInt8) ∈ textTail later := hclear ▸ List.mem_append_left _ (by decide)
    exact absurd (hall 92 ((textTail_suffix later).subset hmem)) (by decide)
  · intro b hb
    rw [hall b hb]
    decide
  · rw [List.count_eq_zero_of_not_mem]
    · omega
    · intro hmem
      exact absurd (hall 47 hmem) (by decide)

end SimFerret
