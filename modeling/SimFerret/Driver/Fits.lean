import Mathlib.Algebra.Group.Action.Defs
import Mathlib.Algebra.Order.BigOperators.Group.List
import Mathlib.Data.List.Sort
import SimFerret.Driver.NetworkVerdict

/-!
# SimFerret.Driver.Fits — what a plan is made for

The consumers of a plan check sizes and characters in modules of their own: the agent, the TFTP client, the fixture
reader of the VM, and the standard input of the workload.

* `checkedChoices`, `checkedWorkloadChoices`: the plans, with every operation that could panic checked.
* `readFixtureEntries`: the fixture directory as the VM reads it (`vm.rs`).
* `FittingRequests`: no consumer refuses a request.
* `plans_fit`: **every plan of a validated scenario is made without a panic and fits its consumers.**
-/

namespace SimFerret.Driver

open Checker

/-! ## Checked plans

A subtraction, a remainder, a shift and an index return nothing where the source would panic. -/

def checkedSub (a b : Nat) : Option Nat := if b ≤ a then some (a - b) else none

def checkedRem (a b : Nat) : Option Nat := if b = 0 then none else some (a % b)

/-- `value >> shift` of a `u64`. -/
def checkedShiftRight (value : UInt64) (shift : Nat) : Option UInt64 :=
  if shift < 64 then some (value >>> UInt64.ofNat shift) else none

/-- `const HEX`. -/
def hexTable : Text := "0123456789abcdef"

def checkedHexBytesLoop : Nat → Nat → UInt64 → UInt64 → Option (UInt64 × Text)
  | 0, _, state, _ => some (state, [])
  | left + 1, index, state, value => do
    let (state, value) := if index % 8 = 0 then splitMix64Next state else (state, value)
    let byte := (← checkedShiftRight value (index % 8 * 8)).toUInt8
    let high ← hexTable[(byte >>> 4).toNat]?
    let low ← hexTable[(byte &&& 0xf).toNat]?
    let (state, text) ← checkedHexBytesLoop left (index + 1) state value
    return (state, high :: low :: text)

def checkedRequests (payloadBytes : Nat) : Nat → Nat → UInt64 → Option (List PlannedRequest)
  | 0, _, _ => some []
  | left + 1, index, state => do
    let (state, nonce) := splitMix64Next state
    let (state, payload) ← checkedHexBytesLoop payloadBytes 0 state 0
    let requests ← checkedRequests payloadBytes left (index + 1) state
    return ⟨requestIdText index nonce, payload⟩ :: requests

def checkedActivation (requestCount : Nat) (value : UInt64) : Option Nat := do
  return 1 + (← checkedRem value.toNat (← checkedSub requestCount 2))

def checkedRestoration (requestCount activation : Nat) (value : UInt64) : Option Nat := do
  return activation + 1 + (← checkedRem value.toNat (← checkedSub (← checkedSub requestCount activation) 1))

/-- `Scenario::choices`. -/
def checkedChoices (s : Scenario) (seed : UInt64) : Option ChoicePlan := do
  let (state, value) := splitMix64Next seed
  let activation ← checkedActivation s.requestCount value
  let (state, value) := splitMix64Next state
  let restoration ← checkedRestoration s.requestCount activation value
  return {
    version := choicePlanVersion
    seed
    outageActivationRequestIndex := activation
    restorationRequestIndex := restoration
    requests := ← checkedRequests s.payloadBytes s.requestCount 0 state }

/-- `WorkloadScenario::choices`. -/
def checkedWorkloadChoices (s : WorkloadScenario) (seed : UInt64) : Option WorkloadChoicePlan := do
  let (state, value) := splitMix64Next seed
  let activation ← checkedActivation s.requestCount value
  let (state, value) := splitMix64Next state
  let restoration ← checkedRestoration s.requestCount activation value
  let candidates := faultCandidates s.requestCount activation restoration
  let (state, value) := splitMix64Next state
  let fault ← candidates[← checkedRem value.toNat candidates.length]?
  return {
    version := workloadChoicePlanVersion
    seed
    processFaultRequestIndex := fault
    outageActivationRequestIndex := activation
    restorationRequestIndex := restoration
    requests := ← checkedRequests s.payloadBytes s.requestCount 0 state }

theorem checkedSub_of_le {a b : Nat} (h : b ≤ a) : checkedSub a b = some (a - b) := if_pos h

theorem checkedRem_of_pos {a b : Nat} (h : 0 < b) : checkedRem a b = some (a % b) :=
    if_neg (Nat.pos_iff_ne_zero.mp h)

/-- The table holds the digit of every nibble. -/
theorem hexTable_nibble (byte : UInt8) : hexTable[(byte >>> 4).toNat]? = some (nibbleDigit (byte >>> 4)) ∧
    hexTable[(byte &&& 0xf).toNat]? = some (nibbleDigit (byte &&& 0xf)) := by
  have hall : ∀ n : Fin 256, hexTable[(UInt8.ofFin n >>> 4).toNat]? = some (nibbleDigit (UInt8.ofFin n >>> 4)) ∧
      hexTable[(UInt8.ofFin n &&& 0xf).toNat]? = some (nibbleDigit (UInt8.ofFin n &&& 0xf)) := by
    decide +kernel
  exact hall byte.toFin

theorem checkedHexBytesLoop_eq : ∀ (left index : Nat) (state value : UInt64),
    checkedHexBytesLoop left index state value = some (hexBytesLoop left index state value)
  | 0, _, _, _ => rfl
  | left + 1, index, state, value => by
    have hshift : index % 8 * 8 < 64 := by omega
    rw [checkedHexBytesLoop, hexBytesLoop]
    simp only [checkedShiftRight, if_pos hshift, Option.bind_eq_bind, Option.bind_some, (hexTable_nibble _).1,
      (hexTable_nibble _).2, checkedHexBytesLoop_eq left]
    rfl

theorem checkedRequests_eq (payloadBytes : Nat) : ∀ (left index : Nat) (state : UInt64),
    checkedRequests payloadBytes left index state = some (plannedRequests payloadBytes left index state)
  | 0, _, _ => rfl
  | left + 1, index, state => by
    rw [checkedRequests, plannedRequests]
    simp only [checkedHexBytesLoop_eq, Option.bind_eq_bind, Option.bind_some, checkedRequests_eq payloadBytes left]
    rfl

theorem checkedActivation_eq {n : Nat} (hn : 3 ≤ n) (value : UInt64) :
    checkedActivation n value = some (activationIndex n value) := by
  rw [checkedActivation, checkedSub_of_le (by omega)]
  show (checkedRem value.toNat (n - 2)).bind _ = _
  rw [checkedRem_of_pos (by omega)]
  rfl

theorem checkedRestoration_eq {n a : Nat} (ha : a < n - 1) (value : UInt64) :
    checkedRestoration n a value = some (restorationIndex n a value) := by
  rw [checkedRestoration, checkedSub_of_le (by omega)]
  show (checkedSub (n - a) 1).bind _ = _
  rw [checkedSub_of_le (by omega)]
  show (checkedRem value.toNat (n - a - 1)).bind _ = _
  rw [checkedRem_of_pos (by omega)]
  rfl

/-- The plan of a validated scenario is made without a panic. -/
theorem checkedChoices_eq {s : Scenario} (h : s.validate = .ok ()) (seed : UInt64) :
    checkedChoices s seed = some (s.choices seed) := by
  have hn := (Scenario.validate_shape h).requests_ge
  rw [checkedChoices, Scenario.choices]
  rcases splitMix64Next seed with ⟨state, value⟩
  obtain ⟨-, hlast⟩ := activationIndex_bounds hn value
  simp only [checkedActivation_eq hn, Option.bind_eq_bind, Option.bind_some]
  rcases splitMix64Next state with ⟨state, value⟩
  simp only [checkedRestoration_eq hlast, checkedRequests_eq, Option.bind_some, Option.pure_def]

theorem checkedWorkloadChoices_eq {s : WorkloadScenario} (h : s.validate = .ok ()) (seed : UInt64) :
    checkedWorkloadChoices s seed = some (s.choices seed) := by
  have hn : 4 ≤ s.requestCount := (WorkloadScenario.validate_shape h).requests_ge
  have hthree : 3 ≤ s.requestCount := by omega
  rw [checkedWorkloadChoices, WorkloadScenario.choices]
  rcases splitMix64Next seed with ⟨state, value⟩
  obtain ⟨-, hlast⟩ := activationIndex_bounds hthree value
  simp only [checkedActivation_eq hthree, Option.bind_eq_bind, Option.bind_some]
  rcases splitMix64Next state with ⟨state, value⟩
  obtain ⟨hlt, -⟩ := restorationIndex_bounds hlast value
  have hpos := List.length_pos_iff.mpr (faultCandidates_ne_nil hn hlt)
  simp only [checkedRestoration_eq hlast, Option.bind_some]
  rcases splitMix64Next state with ⟨state, value⟩
  have hindex := Nat.mod_lt value.toNat hpos
  simp only [checkedRem_of_pos hpos, Option.bind_some, List.getElem?_eq_getElem hindex, checkedRequests_eq,
    Option.pure_def, List.getD_eq_getElem _ _ hindex]

/-! ## The fixture directory (`vm.rs`) -/

def maxFixtureFiles : Nat := 256
def maxFixtureFileBytes : Nat := 1024 * 1024
def maxFixtureBytes : Nat := 8 * 1024 * 1024

def invalidNetwork (message : Text) : IoError :=
  invalid (utf8 "unsafe or unsupported network configuration: " ++ message)

/-- The characters of a fixture filename. -/
def isFilenameByte (byte : UInt8) : Bool := Guest.isAsciiAlphanumeric byte || (utf8 "._-").contains byte

/-- `read_directory_names`: the names that `readdir` yields, behind those already taken. -/
def readDirectoryNames : List Text → List Text → IoResult (List Text)
  | [], names => .ok names
  | name :: rest, names =>
    if !Utf8.valid name then .error (invalidNetwork "fixture filenames must be valid UTF-8 path components")
    else if name == utf8 "." || name == utf8 ".." then readDirectoryNames rest names
    else if names.length = maxFixtureFiles then
      .error (invalidNetwork ("record fixture must contain no more than " ++ decimal maxFixtureFiles ++
        " regular files"))
    else if name.isEmpty || !name.all isFilenameByte then
      .error (invalidNetwork
        "fixture filenames may contain only ASCII letters, digits, dot, underscore, and hyphen")
    else readDirectoryNames rest (names ++ [name])

/-- The loop of `read_fixture_entries_from_handle`, with the bytes read so far. -/
def readEntries (files : List (Text × Bytes)) : List Text → Nat → IoResult (List (Text × Bytes))
  | [], _ => .ok []
  | name :: rest, total => do
    let file ← okOr (files.find? fun file => file.1 == name)
      ⟨.notFound, utf8 "fixture entry is not a readable regular file: " ++ name⟩
    require (file.2.length ≤ maxFixtureFileBytes) (invalidNetwork
      ("fixture entry must be a regular file no larger than " ++ decimal maxFixtureFileBytes ++
        " bytes: " ++ name))
    let total ← okOr (checkedAdd total file.2.length) (invalidNetwork "fixture size overflowed")
    require (total ≤ maxFixtureBytes)
      (invalidNetwork ("fixture contents must not exceed " ++ decimal maxFixtureBytes ++ " bytes"))
    let entries ← readEntries files rest total
    return (name, file.2) :: entries

/-- `read_fixture_entries` on a directory of regular files, in the order in which `readdir` yields them. -/
def readFixtureEntries (files : List (Text × Bytes)) : IoResult (List (Text × Bytes)) := do
  let names ← readDirectoryNames (files.map Prod.fst) []
  let names := names.insertionSort fun left right => left ≤ right
  require (!names.isEmpty)
    (invalidNetwork ("record fixture must contain between 1 and " ++ decimal maxFixtureFiles ++ " regular files"))
  readEntries files names 0

/-- An identifier is a filename that the VM takes. -/
theorem filename_of_identifier {name : Text} (h : IsIdentifier name) (hne : name ≠ []) : Utf8.valid name = true ∧
    (name == utf8 "." || name == utf8 "..") = false ∧ (name.isEmpty || !name.all isFilenameByte) = false := by
  have hall : ∀ n : Fin 256, (Guest.isAsciiAlphanumeric (UInt8.ofFin n) || UInt8.ofFin n == charByte '-') = true →
      UInt8.ofFin n < 0x80 ∧ UInt8.ofFin n ≠ 46 ∧ isFilenameByte (UInt8.ofFin n) = true := by
    decide +kernel
  have hbyte : ∀ b ∈ name, b < 0x80 ∧ b ≠ 46 ∧ isFilenameByte b = true := fun b hb => hall b.toFin (h b hb)
  have hdots : ∀ dots : Text, 46 ∈ dots → (name == dots) = false := by
    intro dots hmem
    refine beq_eq_false_iff_ne.mpr ?_
    rintro rfl
    exact (hbyte 46 hmem).2.1 rfl
  refine ⟨Utf8.valid_of_ascii fun b hb => (hbyte b hb).1, ?_, ?_⟩
  · rw [hdots (utf8 ".") (by decide), hdots (utf8 "..") (by decide)]
    rfl
  · have hchars : name.all isFilenameByte = true := List.all_eq_true.mpr fun b hb => (hbyte b hb).2.2
    rw [hchars, List.isEmpty_eq_false_iff.mpr hne]
    rfl

theorem readDirectoryNames_ok {names : List Text} (hnames : ∀ name ∈ names, IsIdentifier name ∧ name ≠ [])
    {taken : List Text} (hfew : taken.length + names.length ≤ maxFixtureFiles) :
    readDirectoryNames names taken = .ok (taken ++ names) := by
  induction names generalizing taken with
  | nil => rw [readDirectoryNames, List.append_nil]
  | cons name rest ih =>
    obtain ⟨hid, hne⟩ := hnames name List.mem_cons_self
    obtain ⟨hvalid, hdots, hchars⟩ := filename_of_identifier hid hne
    rw [List.length_cons] at hfew
    have hroom : taken.length ≠ maxFixtureFiles := by omega
    rw [readDirectoryNames, hvalid, hdots, hchars, if_neg (by decide), if_neg (by decide), if_neg hroom,
      if_neg (by decide), ih (fun other hother => hnames other (List.mem_cons_of_mem _ hother)) (by simp; omega),
      List.append_assoc, List.singleton_append]

theorem readEntries_ok {files : List (Text × Bytes)} (hnodup : (files.map Prod.fst).Nodup)
    (hsmall : ∀ file ∈ files, file.2.length ≤ maxFixtureFileBytes) {entries : List (Text × Bytes)}
    (hentries : ∀ entry ∈ entries, entry ∈ files) {total : Nat}
    (htotal : total + (entries.map fun entry => entry.2.length).sum ≤ maxFixtureBytes) :
    readEntries files (entries.map Prod.fst) total = .ok entries := by
  induction entries generalizing total with
  | nil => rfl
  | cons entry rest ih =>
    rw [List.map_cons, List.sum_cons] at htotal
    have hmem := hentries entry List.mem_cons_self
    have hfound : files.find? (fun file => file.1 == entry.1) = some entry := by
      refine find?_of_unique hmem (beq_self_eq_true _) fun other hother hsame => ?_
      exact List.inj_on_of_nodup_map hnodup hother hmem (eq_of_beq hsame)
    have hsum : checkedAdd total entry.2.length = some (total + entry.2.length) := by
      have hbound : maxFixtureBytes < u64Size := by decide
      exact if_pos (by omega)
    have hrest := @ih (fun other hother => hentries other (List.mem_cons_of_mem _ hother)) (total + entry.2.length)
      (by omega)
    have hlimit : total + entry.2.length ≤ maxFixtureBytes := by omega
    rw [List.map_cons, readEntries]
    simp only [hfound, hsum, hrest, okOr, require, decide_eq_true (hsmall entry hmem),
      decide_eq_true hlimit, if_true, bind, Except.bind, pure, Except.pure]

/-- The VM takes a directory of few, small files that are named by identifiers, whatever the order of their
names. -/
theorem readFixtureEntries_ok {files : List (Text × Bytes)} (hsome : files ≠ [])
    (hfew : files.length ≤ maxFixtureFiles) (hnames : ∀ file ∈ files, IsIdentifier file.1 ∧ file.1 ≠ [])
    (hnodup : (files.map Prod.fst).Nodup) (hsmall : ∀ file ∈ files, file.2.length ≤ maxFixtureFileBytes)
    (htotal : (files.map fun file => file.2.length).sum ≤ maxFixtureBytes) :
    ∃ entries, readFixtureEntries files = .ok entries ∧ entries.Perm files := by
  let sorted := files.insertionSort fun left right => left.1 ≤ right.1
  have hperm : sorted.Perm files := List.perm_insertionSort _ _
  have hread := @readDirectoryNames_ok (files.map Prod.fst)
    (by
      intro name hname
      obtain ⟨file, hfile, rfl⟩ := List.mem_map.mp hname
      exact hnames file hfile)
    [] (by simpa using hfew)
  have hsort : (files.map Prod.fst).insertionSort (fun left right => left ≤ right) = sorted.map Prod.fst :=
    (List.map_insertionSort _ _ Prod.fst files fun a _ b _ => Iff.rfl).symm
  have hne : (sorted.map Prod.fst).isEmpty = false := by
    rw [List.isEmpty_eq_false_iff]
    intro hnil
    exact hsome (List.length_eq_zero_iff.mp
      (hperm.length_eq.symm.trans (List.length_eq_zero_iff.mpr (List.map_eq_nil_iff.mp hnil))))
  refine ⟨sorted, ?_, hperm⟩
  rw [readFixtureEntries, hread]
  show (do
    require (!((files.map Prod.fst).insertionSort fun left right => left ≤ right).isEmpty) _
    readEntries files ((files.map Prod.fst).insertionSort fun left right => left ≤ right) 0) = _
  rw [hsort, hne]
  show readEntries files (sorted.map Prod.fst) 0 = _
  refine readEntries_ok hnodup hsmall (fun entry hentry => hperm.mem_iff.mp hentry) ?_
  rw [Nat.zero_add, (hperm.map fun file => file.2.length).sum_nat]
  exact htotal

/-! ## The requests of a plan -/

/-- No consumer refuses a request: the agent, the TFTP client and the fixture reader of the VM take it, and the
file of a request reads back as the request. -/
structure FittingRequests (requests : List PlannedRequest) : Prop where
  distinct : (requests.map PlannedRequest.requestId).Nodup
  validated : ∀ request ∈ requests, Guest.validateRequest request.requestId request.payload Guest.gateway = .ok ()
  transferred : ∀ corruptResponses, ∀ file ∈ fixtureEntries requests corruptResponses,
    file.2.length ≤ maxRequestDataLength
  served : ∀ corruptResponses, ∀ files, files.Perm (fixtureEntries requests corruptResponses) →
    ∃ entries, readFixtureEntries files = .ok entries ∧ entries.Perm files
  parsed : ∀ utf8Error, (fixtureEntries requests false).map (fun file => parseFixtureResponse utf8Error file.2) =
    requests.map fun request => .ok (request.requestId, request.payload)

section

variable {choices : ChoicePlan} {corruptResponses : Bool}

theorem getElem?_fixtureEntries {requests : List PlannedRequest} {index : Nat} {file : Text × Bytes}
    (h : (fixtureEntries requests corruptResponses)[index]? = some file) :
    ∃ request, requests[index]? = some request ∧ file = fixtureEntry corruptResponses index request := by
  rw [fixtureEntries, List.getElem?_mapIdx, Option.map_eq_some_iff] at h
  obtain ⟨request, hget, hfile⟩ := h
  exact ⟨request, hget, hfile.symm⟩

theorem NetworkPlan.index_lt (h : NetworkPlan choices) {index : Nat} {request : PlannedRequest}
    (hget : choices.requests[index]? = some request) : index < 10 ^ 4 := by
  have hlt := (List.getElem?_eq_some_iff.mp hget).1
  have hfew := h.few
  have hmax : maxRequestCount = 256 := rfl
  omega

theorem NetworkPlan.distinct (h : NetworkPlan choices) :
    (choices.requests.map PlannedRequest.requestId).Nodup := by
  refine List.nodup_iff_getElem?_ne_getElem?.mpr fun i j hij hj heq => ?_
  rw [List.length_map] at hj
  obtain ⟨other, hother⟩ : ∃ other, choices.requests[j]? = some other := ⟨_, List.getElem?_eq_getElem hj⟩
  obtain ⟨request, hrequest⟩ : ∃ request, choices.requests[i]? = some request :=
    ⟨_, List.getElem?_eq_getElem (hij.trans hj)⟩
  obtain ⟨⟨nonce, hid⟩, -⟩ := h.request i request hrequest
  obtain ⟨⟨nonce', hid'⟩, -⟩ := h.request j other hother
  simp only [List.getElem?_map, hrequest, hother, Option.map_some, Option.some.injEq, hid, hid'] at heq
  exact absurd (requestIdText_inj (h.index_lt hrequest) (h.index_lt hother) heq) (Nat.ne_of_lt hij)

/-- The size of the file of a request. -/
theorem NetworkPlan.length_fixtureEntry (h : NetworkPlan choices) {index : Nat} {request : PlannedRequest}
    (hget : choices.requests[index]? = some request) :
    (fixtureEntry corruptResponses index request).2.length ≤ request.payload.length + 60 := by
  obtain ⟨⟨nonce, hid⟩, -⟩ := h.request index request hget
  have hidLength : request.requestId.length = 29 := hid ▸ length_requestIdText (h.index_lt hget) nonce
  have hlabels : (utf8 "request_id=").length = 11 ∧ (utf8 "\npayload=").length = 9 ∧ (utf8 "\n").length = 1 ∧
      (utf8 "-corrupted").length = 10 := ⟨rfl, rfl, rfl, rfl⟩
  simp only [fixtureEntry, List.length_append, hlabels, hidLength]
  split
  · rw [List.length_append, hlabels.2.2.2]
    omega
  · omega

theorem map_fst_fixtureEntries (requests : List PlannedRequest) (corruptResponses : Bool) :
    (fixtureEntries requests corruptResponses).map Prod.fst = requests.map PlannedRequest.requestId := by
  apply List.ext_getElem?
  intro index
  simp only [fixtureEntries, List.getElem?_map, List.getElem?_mapIdx, Option.map_map]
  rfl

/-- The sizes of all files. -/
theorem NetworkPlan.total_fixtureEntries (h : NetworkPlan choices) {payloadLength : Nat}
    (hpayload : ∀ request ∈ choices.requests, request.payload.length = payloadLength) :
    ((fixtureEntries choices.requests corruptResponses).map fun file => file.2.length).sum ≤
      choices.requests.length * (payloadLength + 60) := by
  have hlength : (fixtureEntries choices.requests corruptResponses).length = choices.requests.length := by
    rw [fixtureEntries, List.length_mapIdx]
  rw [← hlength, ← List.length_map (f := fun file : Text × Bytes => file.2.length), ← smul_eq_mul]
  refine List.sum_le_card_nsmul _ _ fun size hsize => ?_
  obtain ⟨file, hfile, rfl⟩ := List.mem_map.mp hsize
  obtain ⟨index, hindex⟩ := List.mem_iff_getElem?.mp hfile
  obtain ⟨request, hget, rfl⟩ := getElem?_fixtureEntries hindex
  rw [← hpayload request (List.mem_of_getElem? hget)]
  exact h.length_fixtureEntry hget

/-- The requests of a plan within the budget fit. -/
theorem NetworkPlan.fitting (h : NetworkPlan choices) {payloadLength : Nat} (hsome : choices.requests ≠ [])
    (hpayload : ∀ request ∈ choices.requests, request.payload.length = payloadLength)
    (hbudget : choices.requests.length * payloadLength ≤ 2 * maxTotalPayloadBytes) :
    FittingRequests choices.requests where
  distinct := h.distinct
  validated request hrequest := by
    obtain ⟨index, hget⟩ := List.mem_iff_getElem?.mp hrequest
    exact h.validateRequest hget
  transferred corruptResponses file hfile := by
    obtain ⟨index, hindex⟩ := List.mem_iff_getElem?.mp hfile
    obtain ⟨request, hget, rfl⟩ := getElem?_fixtureEntries hindex
    have hlength := @NetworkPlan.length_fixtureEntry _ corruptResponses h _ _ hget
    have hbound := (h.request index request hget).2
    have hlimit : maxRequestDataLength = 65536 := rfl
    omega
  served corruptResponses files hperm := by
    have hfew := h.few
    have hmax : maxRequestCount = 256 ∧ maxFixtureFiles = 256 ∧ maxTotalPayloadBytes = 1048576 ∧
      maxFixtureBytes = 8388608 ∧ maxFixtureFileBytes = 1048576 ∧ maxRequestDataLength = 65536 :=
      ⟨rfl, rfl, rfl, rfl, rfl, rfl⟩
    have hlength : (fixtureEntries choices.requests corruptResponses).length = choices.requests.length := by
      rw [fixtureEntries, List.length_mapIdx]
    have hnames := map_fst_fixtureEntries choices.requests corruptResponses
    have hfile : ∀ file ∈ files, ∃ index request, choices.requests[index]? = some request ∧
        file = fixtureEntry corruptResponses index request := by
      intro file hfile
      obtain ⟨index, hindex⟩ := List.mem_iff_getElem?.mp (hperm.mem_iff.mp hfile)
      exact ⟨index, getElem?_fixtureEntries hindex⟩
    refine readFixtureEntries_ok ?_ ?_ ?_ ?_ ?_ ?_
    · rintro rfl
      rw [← hperm.length_eq, List.length_nil] at hlength
      exact hsome (List.length_eq_zero_iff.mp hlength.symm)
    · rw [hperm.length_eq, hlength]
      omega
    · intro file hmem
      obtain ⟨index, request, hget, rfl⟩ := hfile file hmem
      obtain ⟨⟨nonce, hid⟩, -⟩ := h.request index request hget
      have hidLength := length_requestIdText (h.index_lt hget) nonce
      show IsIdentifier request.requestId ∧ request.requestId ≠ []
      rw [hid]
      refine ⟨isIdentifier_requestIdText index nonce, fun hnil => ?_⟩
      rw [hnil] at hidLength
      cases hidLength
    · rw [(hperm.map Prod.fst).nodup_iff, hnames]
      exact h.distinct
    · intro file hmem
      obtain ⟨index, request, hget, rfl⟩ := hfile file hmem
      have hlength := @NetworkPlan.length_fixtureEntry _ corruptResponses h _ _ hget
      have hbound := (h.request index request hget).2
      omega
    · rw [(hperm.map fun file => file.2.length).sum_nat]
      refine (h.total_fixtureEntries hpayload).trans ?_
      rw [Nat.mul_add]
      omega
  parsed utf8Error := by
    apply List.ext_getElem?
    intro index
    rw [List.getElem?_map, List.getElem?_map, fixtureEntries, List.getElem?_mapIdx]
    cases hget : choices.requests[index]? with
    | none => rfl
    | some request =>
      have hread := @parseFixtureResponse_canonical utf8Error _ _ (h.printable_id hget)
        (h.printable request (List.mem_of_getElem? hget))
      simp only [Option.map_some, fixtureEntry, Bool.false_and, Bool.false_eq_true, if_false]
      rw [hread]

end

/-! ## The plans of validated scenarios -/

/-- The seeded digits of a payload. -/
def IsHex (text : Text) : Prop := ∀ b ∈ text, b ∈ hexTable

theorem isHex_hexBytesLoop : ∀ (left index : Nat) (state value : UInt64),
    IsHex (hexBytesLoop left index state value).2
  | 0, _, _, _ => by simp [hexBytesLoop, IsHex]
  | left + 1, index, state, value => by
    rw [hexBytesLoop]
    intro b hb
    simp only [List.mem_cons] at hb
    rcases hb with rfl | rfl | hb
    · exact List.mem_of_getElem? (hexTable_nibble _).1
    · exact List.mem_of_getElem? (hexTable_nibble _).2
    · exact isHex_hexBytesLoop left _ _ _ b hb

theorem isHex_payload {payloadBytes : Nat} : ∀ {left index : Nat} {state : UInt64},
    ∀ request ∈ plannedRequests payloadBytes left index state, IsHex request.payload
  | 0, _, _, request, h => by simp [plannedRequests] at h
  | left + 1, index, state, request, h => by
    rw [plannedRequests] at h
    rcases List.mem_cons.mp h with rfl | h
    · exact isHex_hexBytesLoop _ _ _ _
    · exact isHex_payload request h

theorem length_payload {payloadBytes left : Nat} {state : UInt64} :
    ∀ request ∈ plannedRequests payloadBytes left 0 state, request.payload.length = 2 * payloadBytes := by
  intro request hrequest
  obtain ⟨index, hget⟩ := List.mem_iff_getElem?.mp hrequest
  exact (getElem?_plannedRequests hget).2

/-- The plan of a workload scenario as the network fixture sees it. -/
def networkChoices (plan : WorkloadChoicePlan) : ChoicePlan :=
  ⟨plan.version, plan.seed, plan.outageActivationRequestIndex, plan.restorationRequestIndex, plan.requests⟩

theorem networkPlan_workloadChoices {scenario : WorkloadScenario} (h : scenario.validate = .ok ())
    (seed : UInt64) : NetworkPlan (networkChoices (scenario.choices seed)) := by
  have hplanned := planned_choices h seed
  have hbounds := hplanned.bounds
  have hlength := hbounds.requests_length
  refine ⟨⟨hbounds.activation_pos, hbounds.activation_lt, hlength ▸ hbounds.restoration_lt⟩,
    hlength ▸ hplanned.few, ?_, fun request hmem => printable_payload request hmem⟩
  intro index request hget
  obtain ⟨hid, hpayload⟩ := hplanned.request index request hget
  have hbound := hplanned.payload
  have hlimits : maxWorkloadPayloadBytes = 63 ∧ maxRequestDataLength = 65536 := ⟨rfl, rfl⟩
  exact ⟨hid, by omega⟩

theorem Scenario.fitting {s : Scenario} (h : s.validate = .ok ()) (seed : UInt64) :
    FittingRequests (s.choices seed).requests := by
  have hplan := networkPlan_choices h seed
  have hshape := Scenario.validate_shape h
  have hbudget := Scenario.validate_budget h
  have hlength : (s.choices seed).requests.length = s.requestCount := length_plannedRequests _ _ _ _
  have hthree := hshape.requests_ge
  refine @NetworkPlan.fitting _ hplan (2 * s.payloadBytes) ?_ (fun request hrequest =>
    length_payload request hrequest) ?_
  · intro hnil
    rw [hnil, List.length_nil] at hlength
    omega
  · rw [hlength, Nat.mul_left_comm]
    omega

theorem WorkloadScenario.fitting {s : WorkloadScenario} (h : s.validate = .ok ()) (seed : UInt64) :
    FittingRequests (s.choices seed).requests := by
  have hplan := networkPlan_workloadChoices h seed
  have hshape := WorkloadScenario.validate_shape h
  have hbudget := WorkloadScenario.validate_budget h
  have hlength := (WorkloadScenario.choices_bounds h seed).requests_length
  have hfour := hshape.requests_ge
  have hfewest : minWorkloadRequestCount = 4 := rfl
  refine @NetworkPlan.fitting _ hplan (2 * s.payloadBytes) ?_ (fun request hrequest =>
    length_payload request hrequest) ?_
  · intro hnil
    have hempty : (s.choices seed).requests.length = 0 := List.length_eq_zero_iff.mpr hnil
    omega
  · show (s.choices seed).requests.length * _ ≤ _
    rw [hlength, Nat.mul_left_comm]
    omega

/-- What the workload fixture takes of a request: a short token of hexadecimal digits, in one input frame. -/
structure FittingToken (request : PlannedRequest) : Prop where
  short : request.payload.length ≤ 126
  hex : IsHex request.payload
  line : (fetchLine request).length ≤ maxStdinFrameBytes

theorem WorkloadScenario.fittingToken {s : WorkloadScenario} (h : s.validate = .ok ()) (seed : UInt64) :
    ∀ request ∈ (s.choices seed).requests, FittingToken request := by
  intro request hrequest
  obtain ⟨index, hget⟩ := List.mem_iff_getElem?.mp hrequest
  have hplanned := planned_choices h seed
  obtain ⟨⟨nonce, hid⟩, hpayload⟩ := hplanned.request index request hget
  have hbound := hplanned.payload
  have hlimits : maxWorkloadPayloadBytes = 63 ∧ maxStdinFrameBytes = 4096 := ⟨rfl, rfl⟩
  have hidLength : request.requestId.length = 29 :=
    hid ▸ length_requestIdText ((networkPlan_workloadChoices h seed).index_lt hget) nonce
  have hlabels : (utf8 "fetch ").length = 6 ∧ (utf8 " ").length = 1 ∧ (utf8 "\n").length = 1 := ⟨rfl, rfl, rfl⟩
  refine ⟨by omega, isHex_payload request hrequest, ?_⟩
  simp only [fetchLine, List.length_append, hlabels, hidLength]
  omega

/-- **Every plan fits its consumers.**  For a validated scenario and any seed, nothing in `choices` can panic, the
transitions and the process fault fall where the run needs them, and no consumer refuses a request. -/
theorem plans_fit :
    (∀ s : Scenario, s.validate = .ok () → ∀ seed : UInt64, ∃ plan, checkedChoices s seed = some plan ∧
      plan = s.choices seed ∧
      1 ≤ plan.outageActivationRequestIndex ∧
      plan.outageActivationRequestIndex < plan.restorationRequestIndex ∧
      plan.restorationRequestIndex < s.requestCount ∧
      plan.requests.length = s.requestCount ∧ FittingRequests plan.requests) ∧
    ∀ s : WorkloadScenario, s.validate = .ok () → ∀ seed : UInt64, ∃ plan,
      checkedWorkloadChoices s seed = some plan ∧ plan = s.choices seed ∧ PlanBounds plan s.requestCount ∧
      FittingRequests plan.requests ∧ ∀ request ∈ plan.requests, FittingToken request := by
  constructor
  · intro s hvalid seed
    have hplan := networkPlan_choices hvalid seed
    have hlength : (s.choices seed).requests.length = s.requestCount := length_plannedRequests _ _ _ _
    exact ⟨s.choices seed, checkedChoices_eq hvalid seed, rfl, hplan.activation_pos, hplan.activation_lt,
      hlength ▸ hplan.restoration_lt, hlength, Scenario.fitting hvalid seed⟩
  · intro s hvalid seed
    exact ⟨s.choices seed, checkedWorkloadChoices_eq hvalid seed, rfl, WorkloadScenario.choices_bounds hvalid seed,
      WorkloadScenario.fitting hvalid seed, WorkloadScenario.fittingToken hvalid seed⟩

theorem plans_fit_sample :
    FittingRequests (sampleNetworkScenario.choices 7).requests ∧ PlanBounds (sampleScenario.choices 8) 4 := by
  obtain ⟨plan, -, rfl, -, -, -, -, hfits⟩ := plans_fit.1 sampleNetworkScenario (by decide +kernel) 7
  obtain ⟨plan, -, rfl, hbounds, -⟩ := plans_fit.2 sampleScenario (by decide +kernel) 8
  exact ⟨hfits, hbounds⟩

end SimFerret.Driver
