import SimFerret.Lib.Machine
import SimFerret.Workload.Image

/-!
# SimFerret.Workload.Elf — the two readers of an ELF header (`workload/mod.rs`, `run.rs`)

`validate_static_elf` checks an executable before it is published, `elf_has_interpreter` the agent's own.  Each
is given twice: over `Except` in `SimFerret.Workload.Checks` and `SimFerret.Workload.Image`, and here over
`Machine`, where a plain addition, an index and an `expect` can fault.

* `StaticElf`: the executables the guest can load, in terms of the fields of the headers.
* `validateStaticElf_iff`: what is accepted.
* `Native.returns_validateStaticElf`: no operation faults, whatever the header says.
* `Native.Agent.returns_elfHasInterpreter`, `Native.Agent.faults_elfHasInterpreter`: the agent's reader faults
  where the table starts at the very top of the address range, and only there.
-/

namespace SimFerret.Workload

/-- `isize::MAX`. -/
def isizeMax : Nat := 2 ^ 63 - 1

/-- A `&[u8]`; no slice is longer than `isize::MAX` bytes. -/
abbrev Slice := {bytes : Bytes // bytes.length ≤ isizeMax}

/-! ## The fields of the headers -/

/-- The little-endian field of `width` bytes at an offset. -/
def field (width : Nat) (bytes : Bytes) (offset : Nat) : Nat := fromLeBytes ((bytes.drop offset).take width)

/-- The fields of the ELF header that a reader uses. -/
structure ElfHeader where
  elfType : Nat
  machine : Nat
  entry : Nat
  tableOffset : Nat
  entrySize : Nat
  entryCount : Nat

def elfHeader (bytes : Bytes) : ElfHeader where
  elfType := field 2 bytes 16
  machine := field 2 bytes 18
  entry := field 8 bytes 24
  tableOffset := field 8 bytes 32
  entrySize := field 2 bytes 54
  entryCount := field 2 bytes 56

/-- The fields of a program header that a reader uses. -/
structure ProgramHeader where
  kind : Nat
  fileOffset : Nat
  address : Nat
  fileSize : Nat
  memorySize : Nat

def programHeader (bytes : Bytes) (offset : Nat) : ProgramHeader where
  kind := field 4 bytes offset
  fileOffset := field 8 bytes (offset + 8)
  address := field 8 bytes (offset + 16)
  fileSize := field 8 bytes (offset + 32)
  memorySize := field 8 bytes (offset + 40)

/-- `PT_LOAD`. -/
def ptLoad : Nat := 1

/-- `PT_INTERP`. -/
def ptInterp : Nat := 3

/-- The file offset of a header of the table. -/
def ElfHeader.headerOffset (header : ElfHeader) (index : Nat) : Nat :=
    header.tableOffset + index * header.entrySize

/-- The guest can map a segment of a file of this size. -/
structure ProgramHeader.Loadable (header : ProgramHeader) (size : Nat) : Prop where
  fits : header.fileSize ≤ header.memorySize
  inside : header.fileOffset + header.fileSize ≤ size
  congruent : header.fileSize ≠ 0 → header.fileOffset % guestPageBytes = header.address % guestPageBytes
  below : header.address < maxGuestUserAddress
  ends : header.address + header.memorySize ≤ maxGuestUserAddress
  above : header.memorySize ≠ 0 → minGuestMappingAddress ≤ header.address - header.address % guestPageBytes

/-- A 64-bit little-endian x86-64 ELF file. -/
structure Identified (bytes : Bytes) : Prop where
  size : 64 ≤ bytes.length
  magic : bytes.take 4 = [0x7f, 69, 76, 70]
  wide : bytes[4]? = some 2
  little : bytes[5]? = some 1
  machine : (elfHeader bytes).machine = 62

/-- A static executable the guest can load. -/
structure StaticElf (bytes : Bytes) : Prop where
  identified : Identified bytes
  fixed : (elfHeader bytes).elfType = 2
  entry : (elfHeader bytes).entry < maxGuestUserAddress
  entrySize : (elfHeader bytes).entrySize = 56
  entryCount : (elfHeader bytes).entryCount ≤ 1170
  table : (elfHeader bytes).tableOffset + 56 * (elfHeader bytes).entryCount ≤ bytes.length
  static : ∀ index < (elfHeader bytes).entryCount,
    (programHeader bytes ((elfHeader bytes).headerOffset index)).kind ≠ ptInterp
  loads : ∃ index < (elfHeader bytes).entryCount,
    (programHeader bytes ((elfHeader bytes).headerOffset index)).kind = ptLoad
  segments : ∀ index < (elfHeader bytes).entryCount,
    (programHeader bytes ((elfHeader bytes).headerOffset index)).kind = ptLoad →
    (programHeader bytes ((elfHeader bytes).headerOffset index)).Loadable bytes.length

/-! ## Reading a field -/

theorem fromLeBytes_lt (bytes : Bytes) : fromLeBytes bytes < 256 ^ bytes.length := by
  induction bytes with
  | nil => exact Nat.one_pos
  | cons byte bytes ih =>
    have hbyte := byte.toNat_lt
    show byte.toNat + 256 * fromLeBytes bytes < 256 ^ (bytes.length + 1)
    rw [Nat.pow_succ]
    omega

theorem field_lt (width : Nat) (bytes : Bytes) (offset : Nat) : field width bytes offset < 256 ^ width :=
  (fromLeBytes_lt _).trans_le (Nat.pow_le_pow_right (by omega) (List.length_take_le _ _))

theorem field_lt_u64Size (bytes : Bytes) (offset : Nat) : field 8 bytes offset < u64Size := field_lt 8 bytes offset

variable {width offset value : Nat}

theorem readUint_eq_ok (file : Slice) :
    readUint width file.1 offset = .ok value ↔ offset + width ≤ file.1.length ∧
        value = field width file.1 offset := by
  have hsize := file.2
  unfold readUint readExact
  rw [bind_eq_ok]
  constructor
  · rintro ⟨taken, htaken, hvalue⟩
    obtain ⟨stop, hstop, htaken⟩ := bind_eq_ok.mp htaken
    obtain ⟨_, hbound, htaken⟩ := bind_eq_ok.mp htaken
    obtain ⟨hstop, -⟩ := checkedAdd_eq_some.mp (okOr_eq_ok.mp hstop)
    have hbound := of_decide_eq_true (require_eq_ok.mp hbound)
    rw [pure_eq_ok] at htaken hvalue
    refine ⟨by omega, ?_⟩
    rw [← hvalue, ← htaken]
    rfl
  · rintro ⟨hbound, rfl⟩
    refine ⟨_, bind_eq_ok.mpr ⟨offset + width, okOr_eq_ok.mpr (checkedAdd_eq_some.mpr ⟨rfl, ?_⟩), bind_eq_ok.mpr
      ⟨(), require_eq_ok.mpr (decide_eq_true hbound), rfl⟩⟩, rfl⟩
    unfold isizeMax at hsize
    unfold u64Size
    omega

/-! ## What is accepted -/

section Acceptance

variable {β : Type} {b : β}

theorem require_bind_eq_ok {c : Bool} {e : IoError} {f : Unit → IoResult β} :
    (require c e >>= f) = .ok b ↔ c = true ∧ f () = .ok b := by
  rw [bind_eq_ok]
  constructor
  · rintro ⟨_, hc, hf⟩
    exact ⟨require_eq_ok.mp hc, hf⟩
  · rintro ⟨hc, hf⟩
    exact ⟨(), require_eq_ok.mpr hc, hf⟩

theorem checkedAdd_bind_eq_ok {x y : Nat} {e : IoError} {f : Nat → IoResult β} :
    (okOr (checkedAdd x y) e >>= f) = .ok b ↔ x + y < u64Size ∧ f (x + y) = .ok b := by
  rw [bind_eq_ok]
  constructor
  · rintro ⟨sum, hsum, hf⟩
    obtain ⟨rfl, hlt⟩ := checkedAdd_eq_some.mp (okOr_eq_ok.mp hsum)
    exact ⟨hlt, hf⟩
  · rintro ⟨hlt, hf⟩
    exact ⟨_, okOr_eq_ok.mpr (checkedAdd_eq_some.mpr ⟨rfl, hlt⟩), hf⟩

variable (file : Slice) {f : Nat → IoResult β}

theorem readUint_bind_eq_ok : (readUint width file.1 offset >>= f) = .ok b ↔
    offset + width ≤ file.1.length ∧ f (field width file.1 offset) = .ok b := by
  rw [bind_eq_ok]
  constructor
  · rintro ⟨value, hvalue, hf⟩
    obtain ⟨hbound, rfl⟩ := (readUint_eq_ok file).mp hvalue
    exact ⟨hbound, hf⟩
  · rintro ⟨hbound, hf⟩
    exact ⟨_, (readUint_eq_ok file).mpr ⟨hbound, rfl⟩, hf⟩

theorem readU16_bind_eq_ok : (readU16 file.1 offset >>= f) = .ok b ↔
    offset + 2 ≤ file.1.length ∧ f (field 2 file.1 offset) = .ok b := readUint_bind_eq_ok file

theorem readU32_bind_eq_ok : (readU32 file.1 offset >>= f) = .ok b ↔
    offset + 4 ≤ file.1.length ∧ f (field 4 file.1 offset) = .ok b := readUint_bind_eq_ok file

theorem readU64_bind_eq_ok : (readU64 file.1 offset >>= f) = .ok b ↔
    offset + 8 ≤ file.1.length ∧ f (field 8 file.1 offset) = .ok b := readUint_bind_eq_ok file

end Acceptance

theorem Slice.length_lt (file : Slice) : file.1.length < u64Size := by
  have hsize := file.2
  unfold isizeMax at hsize
  unfold u64Size
  omega

/-- The checks of a loadable segment whose header lies in the file. -/
theorem validateLoadable_iff (file : Slice) (h : offset + 56 ≤ file.1.length) :
    validateLoadable file.1 offset = .ok () ↔ (programHeader file.1 offset).Loadable file.1.length := by
  have hsize := file.length_lt
  have hlimit : maxGuestUserAddress < u64Size := by decide
  unfold validateLoadable
  simp only [readU64_bind_eq_ok, require_bind_eq_ok, checkedAdd_bind_eq_ok, require_eq_ok, Bool.and_eq_true,
    Bool.or_eq_true, decide_eq_true_eq, beq_iff_eq, or_iff_not_imp_left]
  constructor
  · rintro ⟨-, -, -, -, hfits, -, hinside, hcongruent, -, ⟨hbelow, hends⟩, habove⟩
    exact ⟨hfits, hinside, hcongruent, hbelow, hends, habove⟩
  · rintro ⟨hfits, hinside, hcongruent, hbelow, hends, habove⟩
    exact ⟨by omega, by omega, by omega, by omega, hfits, hinside.trans_lt hsize, hinside, hcongruent,
      hends.trans_lt hlimit, ⟨hbelow, hends⟩, habove⟩

/-- A program header that the loop passes. -/
def ProgramHeader.Admissible (header : ProgramHeader) (size : Nat) : Prop :=
  header.kind ≠ ptInterp ∧ (header.kind = ptLoad → header.Loadable size)

/-- The headers of a table from `index` on. -/
def headersFrom (bytes : Bytes) (tableOffset entrySize index remaining : Nat) : List ProgramHeader :=
  (List.range' index remaining).map fun index => programHeader bytes (tableOffset + index * entrySize)

/-- The loop over a table that lies in the file counts the loadable segments, provided it passes every header. -/
theorem validateHeaders_iff (file : Slice) (tableOffset : Nat) (remaining index loadable result : Nat)
    (htable : tableOffset + 56 * (index + remaining) ≤ file.1.length) :
    validateHeaders file.1 tableOffset 56 remaining index loadable = .ok result ↔
      (∀ header ∈ headersFrom file.1 tableOffset 56 index remaining, header.Admissible file.1.length) ∧
      result = loadable + (headersFrom file.1 tableOffset 56 index remaining).countP fun header =>
          header.kind = ptLoad := by
  have hsize := file.length_lt
  induction remaining generalizing index loadable with
  | zero =>
    show Except.ok loadable = Except.ok result ↔ _
    rw [Except.ok.injEq]
    exact ⟨fun h => ⟨fun _ hmem => absurd hmem List.not_mem_nil, h.symm⟩, fun h => h.2.symm⟩
  | succ remaining ih =>
    have hheaders : headersFrom file.1 tableOffset 56 index (remaining + 1) =
        programHeader file.1 (tableOffset + index * 56) ::
            headersFrom file.1 tableOffset 56 (index + 1) remaining := by
      rw [headersFrom, List.range'_succ, List.map_cons]
      rfl
    rw [hheaders, List.forall_mem_cons, List.countP_cons]
    unfold validateHeaders
    rw [checkedAdd_bind_eq_ok, readU32_bind_eq_ok]
    rw [and_iff_right (by omega), and_iff_right (by omega)]
    have htable : tableOffset + 56 * (index + 1 + remaining) ≤ file.1.length := by omega
    split
    next hkind =>
      have hkind : (programHeader file.1 (tableOffset + index * 56)).kind = ptLoad := hkind
      rw [bind_eq_ok, if_pos (decide_eq_true hkind), ← Nat.add_assoc, Nat.add_right_comm]
      constructor
      · rintro ⟨_, hsegment, h⟩
        obtain ⟨hall, hresult⟩ := (ih _ _ htable).mp h
        refine ⟨⟨⟨?_, fun _ => (validateLoadable_iff file (by omega)).mp hsegment⟩, hall⟩, hresult⟩
        rw [hkind]
        decide
      · rintro ⟨⟨hheader, hall⟩, hresult⟩
        exact ⟨(), (validateLoadable_iff file (by omega)).mpr (hheader.2 hkind),
          (ih _ _ htable).mpr ⟨hall, hresult⟩⟩
    next hkind => exact ⟨fun h => absurd h (by rintro ⟨⟩), fun h => absurd hkind h.1.1.1⟩
    next hload hinterp =>
      have hload : ¬ (programHeader file.1 (tableOffset + index * 56)).kind = ptLoad := hload
      rw [if_neg (by rw [decide_eq_true_eq]; exact hload), Nat.add_zero]
      refine (ih (index + 1) loadable htable).trans (and_congr_left' ?_)
      exact ⟨fun hall => ⟨⟨hinterp, fun h => absurd h hload⟩, hall⟩, fun h => h.2⟩

theorem mem_headersFrom {bytes : Bytes} {tableOffset entrySize count : Nat} {header : ProgramHeader} :
    header ∈ headersFrom bytes tableOffset entrySize 0 count ↔
      ∃ index < count, programHeader bytes (tableOffset + index * entrySize) = header := by
  simp only [headersFrom, List.mem_map, List.mem_range'_1, Nat.zero_le, Nat.zero_add, true_and]

/-- Acceptance, header by header. -/
theorem validateStaticElf_iff (file : Slice) : validateStaticElf file.1 = .ok () ↔ StaticElf file.1 := by
  have hsize := file.length_lt
  unfold validateStaticElf
  simp only [readU16_bind_eq_ok, readU64_bind_eq_ok, require_bind_eq_ok, checkedAdd_bind_eq_ok, Bool.and_eq_true,
    decide_eq_true_eq, beq_iff_eq]
  constructor
  · rintro ⟨⟨⟨⟨hlong, hmagic⟩, hwide⟩, hlittle⟩, -, hmachine, -, htype, -, -, -, hentrySize, hentryCount,
      -, htable, -, hentry, h⟩
    obtain ⟨loadable, hheaders, hloads⟩ := bind_eq_ok.mp h
    rw [hentrySize] at htable hheaders
    obtain ⟨hall, hcount⟩ :=
      (validateHeaders_iff file _ _ 0 0 loadable (by rw [Nat.zero_add]; exact htable)).mp hheaders
    have hall := fun index hindex => hall _ (mem_headersFrom.mpr ⟨index, hindex, rfl⟩)
    refine
      { identified := ⟨hlong, hmagic, hwide, hlittle, hmachine⟩
        fixed := htype
        entry := hentry
        entrySize := hentrySize
        entryCount := hentryCount
        table := htable
        static := ?_
        loads := ?_
        segments := ?_ }
    all_goals
      unfold ElfHeader.headerOffset
      rw [show (elfHeader file.1).entrySize = 56 from hentrySize]
    · exact fun index hindex => (hall index hindex).1
    · rw [require_eq_ok, bne_iff_ne, hcount, Nat.zero_add] at hloads
      obtain ⟨header, hmem, hkind⟩ := List.countP_pos_iff.mp (Nat.pos_of_ne_zero hloads)
      obtain ⟨index, hindex, rfl⟩ := mem_headersFrom.mp hmem
      exact ⟨index, hindex, of_decide_eq_true hkind⟩
    · exact fun index hindex => (hall index hindex).2
  · intro h
    have hlong := h.identified.size
    have htable := h.table
    have hadmissible : ∀ header ∈ headersFrom file.1 (elfHeader file.1).tableOffset 56 0
        (elfHeader file.1).entryCount, header.Admissible file.1.length := by
      intro header hmem
      obtain ⟨index, hindex, rfl⟩ := mem_headersFrom.mp hmem
      have hstatic := h.static index hindex
      have hsegment := h.segments index hindex
      unfold ElfHeader.headerOffset at hstatic hsegment
      rw [h.entrySize] at hstatic hsegment
      exact ⟨hstatic, hsegment⟩
    have hheaders := (validateHeaders_iff file _ _ 0 0 _ (by rw [Nat.zero_add]; exact htable)).mpr
      ⟨hadmissible, rfl⟩
    refine ⟨⟨⟨⟨hlong, h.identified.magic⟩, h.identified.wide⟩, h.identified.little⟩, by omega,
      h.identified.machine, by omega, h.fixed, by omega, by omega, by omega, h.entrySize, h.entryCount, ?_, ?_,
      by omega, h.entry, ?_⟩
    all_goals rw [show field 2 file.1 54 = 56 from h.entrySize]
    · exact htable.trans_lt hsize
    · exact htable
    · refine bind_eq_ok.mpr ⟨_, hheaders, ?_⟩
      obtain ⟨index, hindex, hkind⟩ := h.loads
      unfold ElfHeader.headerOffset at hkind
      rw [h.entrySize] at hkind
      rw [require_eq_ok, bne_iff_ne, Nat.zero_add]
      exact (List.countP_pos_iff.mpr ⟨_, mem_headersFrom.mpr ⟨index, hindex, rfl⟩, decide_eq_true hkind⟩).ne'

/-! ## The plain operations -/

/-- `usize::checked_mul`. -/
def checkedMul (a b : Nat) : Option Nat := if a * b < u64Size then some (a * b) else none

def badTable : IoError := invalid "invalid ELF program table"
def truncated : IoError := invalid "truncated ELF binary"

namespace Native

open Machine

/-- `bytes.get(start..stop)`. -/
def get (bytes : Bytes) (start stop : Nat) : Option Bytes :=
  if start ≤ stop ∧ stop ≤ bytes.length then some ((bytes.drop start).take (stop - start)) else none

/-- `u16::from_le_bytes([value[0], value[1]])`. -/
def u16Of (value : Bytes) : Machine IoError Nat := do
  let low ← index value 0
  let high ← index value 1
  pure (fromLeBytes [low, high])

/-- `from_le_bytes(value.try_into().expect(..))`. -/
def wordOf (width : Nat) (value : Bytes) : Machine IoError Nat := do
  let word ← expect (if value.length = width then some value else none)
  pure (fromLeBytes word)

/-- `usize::try_from` of a `u64`. -/
def toUsize (value : Nat) : Option Nat := if value < u64Size then some value else none

/-- The test that opens both readers, with `||` stopping at the first failure. -/
def identified (readU16 : Bytes → Nat → Machine IoError Nat) (bytes : Bytes) : Machine IoError Bool :=
  if bytes.length < 64 then pure false else do
  let magic ← slice bytes 4
  if magic ≠ [0x7f, 69, 76, 70] then pure false else do
  let wide ← index bytes 4
  if wide ≠ 2 then pure false else do
  let little ← index bytes 5
  if little ≠ 1 then pure false else do
  let machine ← readU16 bytes 18
  pure (machine == 62)

def readExact (bytes : Bytes) (offset length : Nat) : Machine IoError Bytes := do
  let stop ← okOr (checkedAdd offset length) truncated
  okOr (get bytes offset stop) truncated

def readU16 (bytes : Bytes) (offset : Nat) : Machine IoError Nat := readExact bytes offset 2 >>= u16Of
def readU32 (bytes : Bytes) (offset : Nat) : Machine IoError Nat := readExact bytes offset 4 >>= wordOf 4
def readU64 (bytes : Bytes) (offset : Nat) : Machine IoError Nat := readExact bytes offset 8 >>= wordOf 8

/-- `address & !(GUEST_PAGE_BYTES - 1)`. -/
def pageStart (address : Nat) : Nat := address &&& (u64Size - 1 - (guestPageBytes - 1))

/-- One loadable program header. -/
def validateLoadable (bytes : Bytes) (offset : Nat) : Machine IoError Unit := do
  let fileOffsetAt ← add u64Size offset 8
  let fileOffset ← readU64 bytes fileOffsetAt
  let addressAt ← add u64Size offset 16
  let address ← readU64 bytes addressAt
  let fileSizeAt ← add u64Size offset 32
  let fileSize ← readU64 bytes fileSizeAt
  let memorySizeAt ← add u64Size offset 40
  let memorySize ← readU64 bytes memorySizeAt
  require (fileSize ≤ memorySize) (invalid "ELF loadable segment is larger in the file than in memory")
  let segmentEnd ← okOr (checkedAdd fileOffset fileSize) badSegment
  require (segmentEnd ≤ bytes.length) (invalid "ELF loadable segment extends past the file")
  require (fileSize == 0 || fileOffset % guestPageBytes == address % guestPageBytes)
    (invalid "ELF loadable segment file offset and address are not page-congruent")
  let addressEnd ← okOr (checkedAdd address memorySize) badSegment
  require (address < maxGuestUserAddress && addressEnd ≤ maxGuestUserAddress)
    (invalid "ELF loadable segment is outside the guest user address space")
  require (memorySize == 0 || minGuestMappingAddress ≤ pageStart address)
    (invalid "ELF fixed-address segment is below the guest minimum mapping address")

/-- The number of `i32` values that are not negative: the count of loadable segments is an `i32`. -/
def i32Size : Nat := 2 ^ 31

def validateHeaders (bytes : Bytes) (tableOffset entrySize : Nat) : Nat → Nat → Nat → Machine IoError Nat
  | 0, _, loadable => pure loadable
  | remaining + 1, index, loadable => do
    let start ← okOr (checkedMul index entrySize) badTable
    let offset ← okOr (checkedAdd tableOffset start) badTable
    let kind ← readU32 bytes offset
    if kind = 1 then do
      let loadable ← add i32Size loadable 1
      validateLoadable bytes offset
      validateHeaders bytes tableOffset entrySize remaining (index + 1) loadable
    else if kind = 3 then
      (Except.error
        (invalid "binary workload must be statically linked; use an OCI source for a dynamic closure") :
        IoResult Nat)
    else validateHeaders bytes tableOffset entrySize remaining (index + 1) loadable

def validateStaticElf (bytes : Bytes) : Machine IoError Unit := do
  let accepted ← identified readU16 bytes
  require accepted notElf
  let elfType ← readU16 bytes 16
  require (elfType == 2) (invalid ("binary workload must be a fixed-address executable ELF file, " ++
    utf8 "not a relocatable, core, or static-PIE image"))
  let tableOffset ← readU64 bytes 32
  let tableOffset ← okOr (toUsize tableOffset) badTable
  let entrySize ← readU16 bytes 54
  let entryCount ← readU16 bytes 56
  require (entrySize == nativeProgramHeaderBytes) (invalid "invalid ELF program header size")
  require (entryCount ≤ maxProgramTableBytes / nativeProgramHeaderBytes)
    (invalid "ELF program table exceeds the loader limit")
  let tableSize ← okOr (checkedMul entrySize entryCount) badTable
  let tableEnd ← okOr (checkedAdd tableOffset tableSize) badTable
  require (tableEnd ≤ bytes.length) (invalid "ELF program table extends past the file")
  let entry ← readU64 bytes 24
  require (entry < maxGuestUserAddress) (invalid "ELF entry point is outside the guest user address space")
  let loadable ← validateHeaders bytes tableOffset entrySize entryCount 0 0
  require (loadable != 0) (invalid "binary workload has no loadable segment")

/-! ### The agent's reader, with its own field readers -/

namespace Agent

/-- `bytes.get(offset..offset + length)`. -/
def getRange (bytes : Bytes) (offset length : Nat) : Machine IoError Bytes := do
  let stop ← add u64Size offset length
  okOr (get bytes offset stop) truncated

def readU16 (bytes : Bytes) (offset : Nat) : Machine IoError Nat := getRange bytes offset 2 >>= u16Of
def readU32 (bytes : Bytes) (offset : Nat) : Machine IoError Nat := getRange bytes offset 4 >>= wordOf 4
def readU64 (bytes : Bytes) (offset : Nat) : Machine IoError Nat := getRange bytes offset 8 >>= wordOf 8

def elfHeadersHaveInterpreter (bytes : Bytes) (tableOffset entrySize : Nat) : Nat → Nat → Machine IoError Bool
  | 0, _ => pure false
  | remaining + 1, index => do
    let start ← okOr (checkedMul index entrySize) badTable
    let offset ← okOr (checkedAdd tableOffset start) badTable
    let kind ← readU32 bytes offset
    if kind = 3 then pure true else elfHeadersHaveInterpreter bytes tableOffset entrySize remaining (index + 1)

def elfHasInterpreter (bytes : Bytes) : Machine IoError Bool := do
  let accepted ← identified readU16 bytes
  require accepted (invalid "guest executable must be a little-endian x86-64 ELF binary")
  let tableOffset ← readU64 bytes 32
  let tableOffset ← okOr (toUsize tableOffset) badTable
  let entrySize ← readU16 bytes 54
  let entryCount ← readU16 bytes 56
  require (4 ≤ entrySize) (invalid "invalid ELF program header size")
  elfHeadersHaveInterpreter bytes tableOffset entrySize entryCount 0

end Agent

/-! ## No fault -/

variable {bytes : Bytes} {length : Nat}

theorem okOr_get (bytes : Bytes) (offset length : Nat) : okOr (get bytes offset (offset + length)) truncated =
    (do
      require (offset + length ≤ bytes.length) truncated
      pure ((bytes.drop offset).take length) : IoResult Bytes) := by
  unfold get
  by_cases h : offset + length ≤ bytes.length
  · rw [if_pos ⟨Nat.le_add_right _ _, h⟩, Nat.add_sub_cancel_left, decide_eq_true h]
    rfl
  · rw [if_neg fun h' => h h'.2, decide_eq_false h]
    rfl

theorem returns_readExact (bytes : Bytes) (offset length : Nat) :
    Returns (readExact bytes offset length) (Workload.readExact bytes offset length) := by
  refine returns_bind (returns_lift (okOr (checkedAdd offset length) truncated)) fun stop hstop => ?_
  obtain ⟨rfl, -⟩ := checkedAdd_eq_some.mp (okOr_eq_ok.mp hstop)
  rw [okOr_get]
  exact returns_lift _

theorem length_of_readExact {value : Bytes} (h : Workload.readExact bytes offset length = .ok value) :
    value.length = length := by
  obtain ⟨stop, hstop, h⟩ := bind_eq_ok.mp h
  obtain ⟨rfl, -⟩ := checkedAdd_eq_some.mp (okOr_eq_ok.mp hstop)
  obtain ⟨_, hbound, h⟩ := bind_eq_ok.mp h
  have hbound := of_decide_eq_true (require_eq_ok.mp hbound)
  rw [← pure_eq_ok.mp h, List.length_take, List.length_drop]
  omega

theorem returns_u16Of {value : Bytes} (h : value.length = 2) : Returns (u16Of value)
    (.ok (fromLeBytes value)) := by
  obtain ⟨low, high, rfl⟩ := List.length_eq_two.mp h
  exact returns_bind_ok (returns_index rfl) (returns_bind_ok (returns_index rfl) (returns_pure _))

theorem returns_wordOf {value : Bytes} (h : value.length = width) :
    Returns (wordOf width value) (.ok (fromLeBytes value)) :=
  returns_bind_ok (returns_expect (if_pos h)) (returns_pure _)

theorem returns_readU16 (bytes : Bytes) (offset : Nat) :
    Returns (readU16 bytes offset) (Workload.readU16 bytes offset) :=
  returns_bind (returns_readExact bytes offset 2) fun _ h => returns_u16Of (length_of_readExact h)

theorem returns_readU32 (bytes : Bytes) (offset : Nat) :
    Returns (readU32 bytes offset) (Workload.readU32 bytes offset) :=
  returns_bind (returns_readExact bytes offset 4) fun _ h => returns_wordOf (length_of_readExact h)

theorem returns_readU64 (bytes : Bytes) (offset : Nat) :
    Returns (readU64 bytes offset) (Workload.readU64 bytes offset) :=
  returns_bind (returns_readExact bytes offset 8) fun _ h => returns_wordOf (length_of_readExact h)

/-- Clearing the low bits rounds down. -/
theorem land_highMask (high low address : Nat) (h : address < 2 ^ (high + low)) :
    address &&& (2 ^ high - 1) * 2 ^ low = address - address % 2 ^ low := by
  rw [← Nat.div_mul_self_eq_mod_sub_self]
  apply Nat.eq_of_testBit_eq
  intro i
  rw [Nat.testBit_and, Nat.testBit_mul_two_pow, Nat.testBit_mul_two_pow, Nat.testBit_two_pow_sub_one,
    Nat.testBit_div_two_pow]
  by_cases hlow : low ≤ i
  · rw [Nat.sub_add_cancel hlow]
    by_cases hhigh : i - low < high
    · simp [hlow, hhigh]
    · have hzero : address.testBit i = false :=
        Nat.testBit_lt_two_pow (h.trans_le (Nat.pow_le_pow_right (by omega) (by omega)))
      simp [hzero]
  · simp [hlow]

theorem pageStart_eq {address : Nat} (h : address < u64Size) :
    pageStart address = address - address % guestPageBytes :=
  land_highMask 52 12 address h

theorem readU64_lt {value : Nat} (h : Workload.readU64 bytes offset = .ok value) : value < u64Size := by
  obtain ⟨word, hword, h⟩ := bind_eq_ok.mp h
  have hlt := fromLeBytes_lt word
  rw [length_of_readExact hword, pure_eq_ok.mp h] at hlt
  exact hlt

/-- The segment checks add small numbers to the offset of a header that lies in the file. -/
theorem returns_validateLoadable (file : Slice) (h : offset + 56 ≤ file.1.length) :
    Returns (validateLoadable file.1 offset) (Workload.validateLoadable file.1 offset) := by
  have hsize := file.length_lt
  refine returns_bind_ok (returns_add (by omega)) (returns_bind (returns_readU64 _ _) fun fileOffset _ => ?_)
  refine returns_bind_ok (returns_add (by omega)) (returns_bind (returns_readU64 _ _) fun address haddress => ?_)
  refine returns_bind_ok (returns_add (by omega)) (returns_bind (returns_readU64 _ _) fun fileSize _ => ?_)
  refine returns_bind_ok (returns_add (by omega)) (returns_bind (returns_readU64 _ _) fun memorySize _ => ?_)
  refine returns_bind (returns_lift _) fun _ _ => returns_bind (returns_lift _) fun segmentEnd _ => ?_
  refine returns_bind (returns_lift _) fun _ _ => returns_bind (returns_lift _) fun _ _ => ?_
  refine returns_bind (returns_lift _) fun addressEnd _ => returns_bind (returns_lift _) fun _ _ => ?_
  rw [pageStart_eq (readU64_lt haddress)]
  exact returns_lift _

/-- The loop over a table that lies in the file. -/
theorem returns_validateHeaders (file : Slice) (tableOffset : Nat) (remaining index loadable : Nat)
    (htable : tableOffset + 56 * (index + remaining) ≤ file.1.length) (hcount : loadable + remaining < i32Size) :
    Returns (validateHeaders file.1 tableOffset 56 remaining index loadable)
      (Workload.validateHeaders file.1 tableOffset 56 remaining index loadable) := by
  have hsize := file.length_lt
  induction remaining generalizing index loadable with
  | zero => exact returns_pure loadable
  | succ remaining ih =>
    have hstart : okOr (checkedMul index 56) badTable = .ok (index * 56) := by
      unfold checkedMul
      rw [if_pos (by omega)]
      rfl
    unfold validateHeaders Workload.validateHeaders
    rw [hstart]
    refine returns_bind_ok (returns_lift _) (returns_bind (returns_lift _) fun start hoffset => ?_)
    obtain ⟨rfl, -⟩ := checkedAdd_eq_some.mp (okOr_eq_ok.mp hoffset)
    refine returns_bind (returns_readU32 _ _) fun kind _ => ?_
    by_cases hload : kind = 1
    · subst hload
      rw [if_pos rfl]
      refine returns_bind_ok (returns_add (by omega)) ?_
      exact returns_bind (returns_validateLoadable file (by omega)) fun _ _ => ih _ _ (by omega) (by omega)
    rw [if_neg hload]
    by_cases hinterp : kind = 3
    · subst hinterp
      rw [if_pos rfl]
      exact returns_lift _
    rw [if_neg hinterp]
    split
    · exact absurd rfl hload
    · exact absurd rfl hinterp
    · exact ih _ _ (by omega) (by omega)

/-- One test of a chain of `||`. -/
theorem returns_unless {c : Prop} [Decidable c] {rest : Machine IoError Bool} {accepted : Bool}
    (hc : c → accepted = false) (hrest : ¬ c → Returns rest (.ok accepted)) :
    Returns (if c then pure false else rest) (.ok accepted) := by
  by_cases h : c
  · rw [if_pos h, hc h]
    exact returns_pure false
  · rw [if_neg h]
    exact hrest h

variable {β : Type} {accepted : Bool}

/-- The opening test stops before an index leaves the file. -/
theorem returns_identified (file : Slice) {native : Bytes → Nat → Machine IoError Nat}
    (hread : Returns (native file.1 18) (Workload.readU16 file.1 18)) (h : accepted = true ↔ Identified file.1) :
    Returns (identified native file.1) (.ok accepted) := by
  have hfalse : ¬ Identified file.1 → accepted = false :=
    fun hnot => Bool.eq_false_iff.mpr fun ha => hnot (h.mp ha)
  have hindex : ∀ i < file.1.length, ∃ byte, file.1[i]? = some byte := fun i hi => ⟨_, List.getElem?_eq_getElem hi⟩
  refine returns_unless (fun hshort => hfalse fun hid => absurd hid.size (by omega)) fun hlong => ?_
  obtain ⟨wide, hwide⟩ := hindex 4 (by omega)
  obtain ⟨little, hlittle⟩ := hindex 5 (by omega)
  rw [show Workload.readU16 file.1 18 = .ok _ from (readUint_eq_ok file).mpr ⟨by omega, rfl⟩] at hread
  refine returns_bind_ok (returns_slice (by omega)) (returns_unless ?_ fun hmagic => ?_)
  · exact fun hmagic => hfalse fun hid => hmagic hid.magic
  refine returns_bind_ok (returns_index hwide) (returns_unless ?_ fun hwide' => ?_)
  · exact fun hne => hfalse fun hid => hne (Option.some.inj (hwide.symm.trans hid.wide))
  refine returns_bind_ok (returns_index hlittle) (returns_unless ?_ fun hlittle' => returns_bind_ok hread ?_)
  · exact fun hne => hfalse fun hid => hne (Option.some.inj (hlittle.symm.trans hid.little))
  rw [not_not] at hmagic hwide' hlittle'
  subst hwide' hlittle'
  have hmachine : accepted = (field 2 file.1 18 == 62) := by
    rw [Bool.eq_iff_iff, h, beq_iff_eq]
    exact ⟨fun hid => hid.machine, fun hid => ⟨by omega, hmagic, hwide, hlittle, hid⟩⟩
  rw [hmachine]
  exact returns_pure _

/-- The opening test as the readers over `Except` make it. -/
theorem open_bind (file : Slice) (e : IoError) (rest : IoResult β) (h : accepted = true ↔ Identified file.1) :
    (do
      require (64 ≤ file.1.length && file.1.take 4 == [0x7f, 69, 76, 70] && file.1[4]? == some 2 &&
        file.1[5]? == some 1) e
      let machine ← Workload.readU16 file.1 18
      require (machine == 62) e
      rest) = (require accepted e >>= fun _ => rest) := by
  by_cases hopen : (64 ≤ file.1.length && file.1.take 4 == [0x7f, 69, 76, 70] && file.1[4]? == some 2 &&
      file.1[5]? == some 1) = true
  · rw [hopen]
    simp only [Bool.and_eq_true, decide_eq_true_eq, beq_iff_eq] at hopen
    obtain ⟨⟨⟨hlong, hmagic⟩, hwide⟩, hlittle⟩ := hopen
    rw [show Workload.readU16 file.1 18 = .ok (field 2 file.1 18) from (readUint_eq_ok file).mpr ⟨by omega, rfl⟩]
    have hmachine : accepted = (field 2 file.1 18 == 62) := by
      rw [Bool.eq_iff_iff, h, beq_iff_eq]
      exact ⟨fun hid => hid.machine, fun hid => ⟨hlong, hmagic, hwide, hlittle, hid⟩⟩
    rw [hmachine]
    rfl
  · have hfalse : accepted = false := by
      refine Bool.eq_false_iff.mpr fun ha => hopen ?_
      obtain ⟨hlong, hmagic, hwide, hlittle, -⟩ := h.mp ha
      rw [decide_eq_true hlong, hmagic, hwide, hlittle]
      rfl
    rw [Bool.eq_false_iff.mpr hopen, hfalse]
    rfl

/-- No operation of `validate_static_elf` faults, whatever the file. -/
theorem returns_validateStaticElf (file : Slice) :
    Returns (validateStaticElf file.1) (Workload.validateStaticElf file.1) := by
  classical
  have hsize := file.length_lt
  have hid : decide (Identified file.1) = true ↔ Identified file.1 := decide_eq_true_iff
  unfold validateStaticElf Workload.validateStaticElf
  rw [open_bind file notElf _ hid]
  refine returns_bind_ok (returns_identified file (returns_readU16 _ _) hid)
    (returns_bind (returns_lift _) fun _ _ => ?_)
  refine returns_bind (returns_readU16 _ _) fun elfType _ => returns_bind (returns_lift _) fun _ _ => ?_
  refine returns_bind (returns_readU64 _ _) fun tableOffset htable => ?_
  refine returns_bind_ok (a := tableOffset) ?_ ?_
  · rw [toUsize, if_pos (readU64_lt htable)]
    exact returns_lift _
  refine returns_bind (returns_readU16 _ _) fun entrySize _ =>
    returns_bind (returns_readU16 _ _) fun entryCount _ => ?_
  refine returns_bind (returns_lift _) fun _ hentrySize => returns_bind (returns_lift _) fun _ hentryCount => ?_
  rw [require_eq_ok, beq_iff_eq] at hentrySize
  subst hentrySize
  have hentryCount : entryCount ≤ 1170 := of_decide_eq_true (require_eq_ok.mp hentryCount)
  refine returns_bind_ok (a := nativeProgramHeaderBytes * entryCount) ?_ ?_
  · rw [checkedMul, if_pos (by unfold nativeProgramHeaderBytes u64Size; omega)]
    exact returns_lift _
  refine returns_bind (returns_lift _) fun tableEnd hend => ?_
  obtain ⟨rfl, -⟩ := checkedAdd_eq_some.mp (okOr_eq_ok.mp hend)
  refine returns_bind (returns_lift _) fun _ hinside => returns_bind (returns_readU64 _ _) fun entry _ => ?_
  have hinside := of_decide_eq_true (require_eq_ok.mp hinside)
  refine returns_bind (returns_lift _) fun _ _ => returns_bind ?_ fun loadable _ => returns_lift _
  refine returns_validateHeaders file _ _ 0 0 ?_ ?_
  · rw [Nat.zero_add]
    exact hinside
  · unfold i32Size
    omega

/-- A file is validated without a fault, and exactly the static executables are accepted. -/
theorem validateStaticElf_exact (file : Slice) :
    ¬ Faults (validateStaticElf file.1) ∧ (Returns (validateStaticElf file.1) (.ok ()) ↔ StaticElf file.1) := by
  have hreturns := returns_validateStaticElf file
  refine ⟨hreturns.not_faults, fun hok => ?_, fun hstatic => ?_⟩
  · exact (validateStaticElf_iff file).mp (hreturns.unique hok)
  · rw [(validateStaticElf_iff file).mpr hstatic] at hreturns
    exact hreturns

/-! ## The agent's reader -/

/-- The header checks of the agent's reader. -/
structure AgentHeader (bytes : Bytes) : Prop where
  identified : Identified bytes
  entrySize : 4 ≤ (elfHeader bytes).entrySize

/-- A header of the table is `PT_INTERP`, and it and the ones before it can be read. -/
def NamesInterpreter (bytes : Bytes) : Prop :=
  ∃ index < (elfHeader bytes).entryCount,
    (∀ earlier ≤ index, (elfHeader bytes).headerOffset earlier + 4 ≤ bytes.length) ∧
    (programHeader bytes ((elfHeader bytes).headerOffset index)).kind = ptInterp

namespace Agent

theorem returns_getRange (h : offset + length < u64Size) :
    Returns (getRange bytes offset length) (Workload.readExact bytes offset length) := by
  refine returns_bind_ok (returns_add h) ?_
  rw [okOr_get, Workload.readExact, show okOr (checkedAdd offset length) _ = .ok (offset + length) from
    okOr_eq_ok.mpr (checkedAdd_eq_some.mpr ⟨rfl, h⟩)]
  exact returns_lift _

theorem returns_readU16 (h : offset + 2 < u64Size) :
    Returns (readU16 bytes offset) (Workload.readU16 bytes offset) :=
  returns_bind (returns_getRange h) fun _ h => returns_u16Of (length_of_readExact h)

theorem returns_readU32 (h : offset + 4 < u64Size) :
    Returns (readU32 bytes offset) (Workload.readU32 bytes offset) :=
  returns_bind (returns_getRange h) fun _ h => returns_wordOf (length_of_readExact h)

theorem returns_readU64 (h : offset + 8 < u64Size) :
    Returns (readU64 bytes offset) (Workload.readU64 bytes offset) :=
  returns_bind (returns_getRange h) fun _ h => returns_wordOf (length_of_readExact h)

/-- A header that can be read lies far below the top of the address range, and so does the next one. -/
theorem returns_elfHeadersHaveInterpreter (file : Slice) {tableOffset entrySize : Nat}
    (hentrySize : entrySize < 2 ^ 16) (remaining index : Nat) (hindex : index + remaining < 2 ^ 16)
    (htable : remaining ≠ 0 → tableOffset + index * entrySize + 4 < u64Size) :
    Returns (elfHeadersHaveInterpreter file.1 tableOffset entrySize remaining index)
      (Workload.elfHeadersHaveInterpreter file.1 tableOffset entrySize remaining index) := by
  induction remaining generalizing index with
  | zero => exact returns_pure false
  | succ remaining ih =>
    have htable := htable (by omega)
    refine returns_bind (returns_lift _) fun start hstart => returns_bind (returns_lift _) fun offset hoffset => ?_
    obtain rfl : index * entrySize = start := by
      have hstart := okOr_eq_ok.mp hstart
      split at hstart
      · exact Option.some.inj hstart
      · cases hstart
    obtain ⟨rfl, -⟩ := checkedAdd_eq_some.mp (okOr_eq_ok.mp hoffset)
    refine returns_bind (returns_readU32 htable) fun kind hkind => ?_
    obtain ⟨hinside, -⟩ := (readUint_eq_ok file).mp hkind
    by_cases hinterp : kind = 3
    · rw [if_pos hinterp, if_pos hinterp]
      exact returns_pure true
    rw [if_neg hinterp, if_neg hinterp]
    refine ih (index + 1) (by omega) fun _ => ?_
    have hfile := file.2
    unfold isizeMax at hfile
    unfold u64Size
    rw [Nat.add_mul, Nat.one_mul]
    omega

/-- A table that starts where the first read leaves the address range makes the reader fault. -/
theorem faults_elfHeadersHaveInterpreter {tableOffset entrySize remaining : Nat} (hoffset : tableOffset < u64Size)
    (htable : u64Size ≤ tableOffset + 4) :
    Faults (elfHeadersHaveInterpreter bytes tableOffset entrySize (remaining + 1) 0) := by
  unfold elfHeadersHaveInterpreter
  refine faults_bind_ok (a := 0) ?_ (faults_bind_ok (a := tableOffset) ?_ (faults_bind (faults_bind ?_)))
  · rw [checkedMul, Nat.zero_mul, if_pos (by decide)]
    exact returns_lift _
  · rw [checkedAdd, Nat.add_zero, if_pos hoffset]
    exact returns_lift _
  · exact faults_bind (faults_add htable)

/-- One header of the loop. -/
theorem elfHeadersHaveInterpreter_step (file : Slice) {tableOffset entrySize remaining index : Nat} {b : Bool} :
    Workload.elfHeadersHaveInterpreter file.1 tableOffset entrySize (remaining + 1) index = .ok b ↔
      tableOffset + index * entrySize + 4 ≤ file.1.length ∧
      if field 4 file.1 (tableOffset + index * entrySize) = 3 then b = true
      else Workload.elfHeadersHaveInterpreter file.1 tableOffset entrySize remaining (index + 1) = .ok b := by
  have hsize := file.length_lt
  rw [Workload.elfHeadersHaveInterpreter, bind_eq_ok]
  constructor
  · rintro ⟨start, hstart, h⟩
    obtain rfl : index * entrySize = start := by
      have hstart := okOr_eq_ok.mp hstart
      split at hstart
      · exact Option.some.inj hstart
      · cases hstart
    rw [checkedAdd_bind_eq_ok, readU32_bind_eq_ok] at h
    obtain ⟨-, hinside, h⟩ := h
    refine ⟨hinside, ?_⟩
    by_cases hkind : field 4 file.1 (tableOffset + index * entrySize) = 3
    · rw [if_pos hkind] at h ⊢
      exact (Except.ok.inj h).symm
    · rw [if_neg hkind] at h ⊢
      exact h
  · rintro ⟨hinside, h⟩
    refine ⟨index * entrySize, okOr_eq_ok.mpr (if_pos (by omega)), ?_⟩
    rw [checkedAdd_bind_eq_ok, readU32_bind_eq_ok]
    refine ⟨by omega, hinside, ?_⟩
    by_cases hkind : field 4 file.1 (tableOffset + index * entrySize) = 3
    · rw [if_pos hkind] at h ⊢
      rw [h]
      rfl
    · rw [if_neg hkind] at h ⊢
      exact h

/-- The loop finds the first `PT_INTERP` before a header that cannot be read. -/
theorem elfHeadersHaveInterpreter_true (file : Slice) (tableOffset entrySize remaining index : Nat) :
    Workload.elfHeadersHaveInterpreter file.1 tableOffset entrySize remaining index = .ok true ↔
      ∃ found, index ≤ found ∧ found < index + remaining ∧
        (∀ earlier, index ≤ earlier → earlier ≤ found → tableOffset + earlier * entrySize + 4 ≤ file.1.length) ∧
        field 4 file.1 (tableOffset + found * entrySize) = 3 := by
  induction remaining generalizing index with
  | zero =>
    refine ⟨fun h => absurd h (by rintro ⟨⟩), ?_⟩
    rintro ⟨found, hle, hlt, -⟩
    omega
  | succ remaining ih =>
    rw [elfHeadersHaveInterpreter_step]
    by_cases hkind : field 4 file.1 (tableOffset + index * entrySize) = 3
    · rw [if_pos hkind]
      constructor
      · rintro ⟨hinside, -⟩
        refine ⟨index, le_refl _, by omega, fun earlier hle hle' => ?_, hkind⟩
        rw [Nat.le_antisymm hle' hle]
        exact hinside
      · rintro ⟨found, hle, -, hreadable, -⟩
        exact ⟨hreadable index (le_refl _) hle, rfl⟩
    · rw [if_neg hkind, ih]
      constructor
      · rintro ⟨hinside, found, hle, hlt, hreadable, hfound⟩
        refine ⟨found, by omega, by omega, fun earlier hearlier hle' => ?_, hfound⟩
        by_cases heq : earlier = index
        · rw [heq]
          exact hinside
        · exact hreadable earlier (by omega) hle'
      · rintro ⟨found, hle, hlt, hreadable, hfound⟩
        have hne : found ≠ index := fun heq => hkind (heq ▸ hfound)
        exact ⟨hreadable index (le_refl _) hle, found, by omega, by omega,
          fun earlier hearlier hle' => hreadable earlier (by omega) hle', hfound⟩

/-- The loop over headers that can be read and are no `PT_INTERP`. -/
theorem elfHeadersHaveInterpreter_false (file : Slice) (tableOffset entrySize remaining index : Nat)
    (h : ∀ i, index ≤ i → i < index + remaining → tableOffset + i * entrySize + 4 ≤ file.1.length ∧
      field 4 file.1 (tableOffset + i * entrySize) ≠ 3) :
    Workload.elfHeadersHaveInterpreter file.1 tableOffset entrySize remaining index = .ok false := by
  induction remaining generalizing index with
  | zero => rfl
  | succ remaining ih =>
    obtain ⟨hinside, hkind⟩ := h index (le_refl _) (by omega)
    rw [elfHeadersHaveInterpreter_step, if_neg hkind]
    exact ⟨hinside, ih (index + 1) fun i hle hlt => h i (by omega) (by omega)⟩

/-- The reader over `Except`, header and table. -/
theorem elfHasInterpreter_ok (file : Slice) {b : Bool} : Workload.elfHasInterpreter file.1 = .ok b ↔
    AgentHeader file.1 ∧ Workload.elfHeadersHaveInterpreter file.1 (elfHeader file.1).tableOffset
      (elfHeader file.1).entrySize (elfHeader file.1).entryCount 0 = .ok b := by
  unfold Workload.elfHasInterpreter
  simp only [readU16_bind_eq_ok, readU64_bind_eq_ok, require_bind_eq_ok, Bool.and_eq_true,
    decide_eq_true_eq, beq_iff_eq]
  constructor
  · rintro ⟨⟨⟨⟨hlong, hmagic⟩, hwide⟩, hlittle⟩, -, hmachine, -, -, -, hentrySize, h⟩
    exact ⟨⟨⟨hlong, hmagic, hwide, hlittle, hmachine⟩, hentrySize⟩, h⟩
  · rintro ⟨⟨⟨hlong, hmagic, hwide, hlittle, hmachine⟩, hentrySize⟩, h⟩
    exact ⟨⟨⟨⟨hlong, hmagic⟩, hwide⟩, hlittle⟩, by omega, hmachine, by omega, by omega, by omega, hentrySize, h⟩

theorem elfHasInterpreter_true (file : Slice) :
    Workload.elfHasInterpreter file.1 = .ok true ↔ AgentHeader file.1 ∧ NamesInterpreter file.1 := by
  rw [elfHasInterpreter_ok, elfHeadersHaveInterpreter_true]
  refine and_congr_right fun _ => ⟨?_, ?_⟩
  · rintro ⟨found, -, hlt, hreadable, hfound⟩
    exact ⟨found, by omega, fun earlier hle => hreadable earlier (Nat.zero_le _) hle, hfound⟩
  · rintro ⟨found, hlt, hreadable, hfound⟩
    exact ⟨found, Nat.zero_le _, by omega, fun earlier _ hle => hreadable earlier hle, hfound⟩

/-- The two readers agree on what the first accepts. -/
theorem elfHasInterpreter_of_static {file : Slice} (h : StaticElf file.1) :
    Workload.elfHasInterpreter file.1 = .ok false := by
  refine (elfHasInterpreter_ok file).mpr ⟨⟨h.identified, by rw [h.entrySize]; decide⟩, ?_⟩
  refine elfHeadersHaveInterpreter_false file _ _ _ 0 fun i _ hi => ⟨?_, h.static i (by omega)⟩
  have htable := h.table
  rw [h.entrySize]
  omega

/-- The table starts where the first read stays inside the address range. -/
def TableBelowTop (bytes : Bytes) : Prop :=
  AgentHeader bytes → (elfHeader bytes).entryCount ≠ 0 → (elfHeader bytes).tableOffset + 4 < u64Size

theorem returns_elfHasInterpreter (file : Slice) (h : TableBelowTop file.1) :
    Returns (elfHasInterpreter file.1) (Workload.elfHasInterpreter file.1) := by
  classical
  have hsize := file.length_lt
  have hid : decide (Identified file.1) = true ↔ Identified file.1 := decide_eq_true_iff
  unfold elfHasInterpreter Workload.elfHasInterpreter
  rw [open_bind file _ _ hid]
  refine returns_bind_ok (returns_identified file (returns_readU16 (by decide)) hid) ?_
  refine returns_bind (returns_lift _) fun _ hidentified => ?_
  refine returns_bind (returns_readU64 (by decide)) fun tableOffset htable => ?_
  refine returns_bind_ok (a := tableOffset) ?_ ?_
  · rw [toUsize, if_pos (readU64_lt htable)]
    exact returns_lift _
  refine returns_bind (returns_readU16 (by decide)) fun entrySize hentrySize => ?_
  refine returns_bind (returns_readU16 (by decide)) fun entryCount hentryCount => ?_
  refine returns_bind (returns_lift _) fun _ hheader => ?_
  obtain ⟨-, rfl⟩ := (readUint_eq_ok file).mp htable
  obtain ⟨-, rfl⟩ := (readUint_eq_ok file).mp hentrySize
  obtain ⟨-, rfl⟩ := (readUint_eq_ok file).mp hentryCount
  have hheader : AgentHeader file.1 :=
    ⟨hid.mp (require_eq_ok.mp hidentified), of_decide_eq_true (require_eq_ok.mp hheader)⟩
  refine returns_elfHeadersHaveInterpreter file (field_lt 2 _ _) _ 0 ?_ fun hcount => ?_
  · rw [Nat.zero_add]
    exact field_lt 2 _ _
  · rw [Nat.zero_mul, Nat.add_zero]
    exact h hheader hcount

theorem faults_elfHasInterpreter (file : Slice) (h : ¬ TableBelowTop file.1) :
    Faults (elfHasInterpreter file.1) := by
  classical
  rw [TableBelowTop, Classical.not_imp, Classical.not_imp, not_lt] at h
  obtain ⟨hheader, hcount, htable⟩ := h
  have hlong := hheader.identified.size
  have hid : decide (Identified file.1) = true ↔ Identified file.1 := decide_eq_true_iff
  have hfield : ∀ {width offset : Nat}, offset + width ≤ 64 →
      readUint width file.1 offset = .ok (field width file.1 offset) :=
    fun hinside => (readUint_eq_ok file).mpr ⟨by omega, rfl⟩
  have h16 : ∀ {offset : Nat}, offset + 2 ≤ 64 → Returns (readU16 file.1 offset)
      (.ok (field 2 file.1 offset)) := by
    intro offset hinside
    rw [← show Workload.readU16 file.1 offset = .ok _ from hfield hinside]
    exact returns_readU16 (by unfold u64Size; omega)
  have h64 : Returns (readU64 file.1 32) (.ok (field 8 file.1 32)) := by
    rw [← show Workload.readU64 file.1 32 = .ok _ from hfield (by omega)]
    exact returns_readU64 (by decide)
  refine faults_bind_ok (returns_identified file (returns_readU16 (by decide)) hid) ?_
  refine faults_bind_ok (a := ()) ?_ (faults_bind_ok h64 (faults_bind_ok (a := field 8 file.1 32) ?_ ?_))
  · rw [decide_eq_true hheader.identified]
    exact returns_lift _
  · rw [toUsize, if_pos (field_lt_u64Size _ _)]
    exact returns_lift _
  refine faults_bind_ok (h16 (by omega)) (faults_bind_ok (h16 (by omega)) (faults_bind_ok (a := ()) ?_ ?_))
  · rw [decide_eq_true (show 4 ≤ field 2 file.1 54 from hheader.entrySize)]
    exact returns_lift _
  · obtain ⟨remaining, hremaining⟩ := Nat.exists_eq_succ_of_ne_zero hcount
    rw [show field 2 file.1 56 = remaining + 1 from hremaining]
    exact faults_elfHeadersHaveInterpreter (field_lt_u64Size _ _) htable

end Agent

/-- What is asked of the agent's reader on a file: no fault, `PT_INTERP` found, agreement with the first reader. -/
structure ReadsInterpreter (file : Slice) : Prop where
  runs : ¬ Faults (Agent.elfHasInterpreter file.1)
  exact : Returns (Agent.elfHasInterpreter file.1) (.ok true) ↔ AgentHeader file.1 ∧ NamesInterpreter file.1
  agrees : Returns (validateStaticElf file.1) (.ok ()) → Returns (Agent.elfHasInterpreter file.1) (.ok false)

/-- The agent's reader does what is asked exactly where the table does not start at the top of the address
range. -/
theorem readsInterpreter_iff (file : Slice) : ReadsInterpreter file ↔ Agent.TableBelowTop file.1 := by
  constructor
  · intro h
    by_contra htop
    exact h.runs (Agent.faults_elfHasInterpreter file htop)
  · intro h
    have hreturns := Agent.returns_elfHasInterpreter file h
    refine ⟨hreturns.not_faults, ?_, fun hstatic => ?_⟩
    · rw [← Agent.elfHasInterpreter_true]
      refine ⟨hreturns.unique, fun htrue => ?_⟩
      rw [htrue] at hreturns
      exact hreturns
    · rw [Agent.elfHasInterpreter_of_static ((validateStaticElf_exact file).2.mp hstatic)] at hreturns
      exact hreturns

/-- A header whose program table starts one byte below the end of the address range. -/
def highTable : Slice :=
  ⟨[0x7f, 69, 76, 70, 2, 1] ++ List.replicate 10 0 ++ [2, 0, 62, 0] ++ List.replicate 12 0 ++
    List.replicate 8 0xff ++ List.replicate 14 0 ++ [56, 0, 1, 0] ++ List.replicate 6 0, by decide⟩

theorem highTable_faults : ¬ ReadsInterpreter highTable := by
  intro h
  have hfaults : Option.isNone (Agent.elfHasInterpreter highTable.1) = true := by decide +kernel
  exact h.runs (Option.isNone_iff_eq_none.mp hfaults)

end Native

end SimFerret.Workload
