import SimFerret.Workload.Template
import SimFerret.Workload.Spec

/-!
# SimFerret.Workload.Checks — the runtime overlay and the static executable (`workload/mod.rs`)
-/

namespace SimFerret.Workload

/-! ## The runtime overlay -/

def overlayTmp : Bytes := utf8 "tmp"
def overlayDev : Bytes := utf8 "dev"

def belowOrAt (path : Bytes) : Bool :=
  path == overlayTmp || path == overlayDev || (utf8 "tmp/").isPrefixOf path || (utf8 "dev/").isPrefixOf path

/-- Reject a canonical tree whose entries collide with the runtime overlay, or whose launch paths it would
replace. -/
def validateOverlayCompatibility (tree : Tree) (launch : LaunchIdentity) : IoResult Unit := do
  tree.iter.forM fun (path, entry) =>
    require (!(belowOrAt path && entry.kind != .directory))
      (invalid ("a workload entry below " ++ (if overlayTmp.isPrefixOf path then utf8 "/tmp" else utf8 "/dev") ++
        " collides with the runtime overlay"))
  require (!belowOrAt (trimStartSlashes launch.executable))
    (invalid "the workload executable is replaced by the runtime overlay")
  let workingDirectory := trimStartSlashes launch.workingDirectory
  require (!((utf8 "tmp/").isPrefixOf workingDirectory || (utf8 "dev/").isPrefixOf workingDirectory))
    (invalid "the workload working directory does not survive the runtime overlay")

/-! ## The static executable -/

def nativeProgramHeaderBytes : Nat := 56
def maxProgramTableBytes : Nat := 65536
def guestPageBytes : Nat := 4096
/-- The guest's user address-space limit. -/
def maxGuestUserAddress : Nat := 0x00007ffffffff000
/-- The lowest address the guest maps for a fixed-address executable. -/
def minGuestMappingAddress : Nat := 65536

def readExact (bytes : Bytes) (offset length : Nat) : IoResult Bytes := do
  let stop ← okOr (checkedAdd offset length) (invalid "truncated ELF binary")
  require (stop ≤ bytes.length) (invalid "truncated ELF binary")
  pure ((bytes.drop offset).take length)

/-- `from_le_bytes`. -/
def fromLeBytes (bytes : Bytes) : Nat := bytes.foldr (fun byte acc => byte.toNat + 256 * acc) 0

def readUint (width : Nat) (bytes : Bytes) (offset : Nat) : IoResult Nat := do
  let value ← readExact bytes offset width
  pure (fromLeBytes value)

def readU16 : Bytes → Nat → IoResult Nat := readUint 2
def readU32 : Bytes → Nat → IoResult Nat := readUint 4
def readU64 : Bytes → Nat → IoResult Nat := readUint 8

def notElf : IoError := invalid "binary workload must be a little-endian x86-64 Linux ELF executable"
def badSegment : IoError := invalid "invalid ELF loadable segment"

/-- One loadable program header. -/
def validateLoadable (bytes : Bytes) (offset : Nat) : IoResult Unit := do
  let fileOffset ← readU64 bytes (offset + 8)
  let address ← readU64 bytes (offset + 16)
  let fileSize ← readU64 bytes (offset + 32)
  let memorySize ← readU64 bytes (offset + 40)
  require (fileSize ≤ memorySize) (invalid "ELF loadable segment is larger in the file than in memory")
  let segmentEnd ← okOr (checkedAdd fileOffset fileSize) badSegment
  require (segmentEnd ≤ bytes.length) (invalid "ELF loadable segment extends past the file")
  require (fileSize == 0 || fileOffset % guestPageBytes == address % guestPageBytes)
    (invalid "ELF loadable segment file offset and address are not page-congruent")
  let addressEnd ← okOr (checkedAdd address memorySize) badSegment
  require (address < maxGuestUserAddress && addressEnd ≤ maxGuestUserAddress)
    (invalid "ELF loadable segment is outside the guest user address space")
  require (memorySize == 0 || minGuestMappingAddress ≤ address - address % guestPageBytes)
    (invalid "ELF fixed-address segment is below the guest minimum mapping address")

/-- The program header loop from `index` on, with the loadable segments seen so far. -/
def validateHeaders (bytes : Bytes) (tableOffset entrySize : Nat) : Nat → Nat → Nat → IoResult Nat
  | 0, _, loadable => .ok loadable
  | remaining + 1, index, loadable => do
    let offset ← okOr (checkedAdd tableOffset (index * entrySize)) (invalid "invalid ELF program table")
    match ← readU32 bytes offset with
    | 1 =>
      validateLoadable bytes offset
      validateHeaders bytes tableOffset entrySize remaining (index + 1) (loadable + 1)
    | 3 => .error (invalid "binary workload must be statically linked; use an OCI source for a dynamic closure")
    | _ => validateHeaders bytes tableOffset entrySize remaining (index + 1) loadable

/-- The opened binary is a little-endian x86-64 fixed-address ELF executable with no interpreter. -/
def validateStaticElf (bytes : Bytes) : IoResult Unit := do
  require (64 ≤ bytes.length && bytes.take 4 == [0x7f, 69, 76, 70] && bytes[4]? == some 2 &&
    bytes[5]? == some 1) notElf
  let machine ← readU16 bytes 18
  require (machine == 62) notElf
  let elfType ← readU16 bytes 16
  require (elfType == 2) (invalid ("binary workload must be a fixed-address executable ELF file, " ++
    utf8 "not a relocatable, core, or static-PIE image"))
  let tableOffset ← readU64 bytes 32
  let entrySize ← readU16 bytes 54
  let entryCount ← readU16 bytes 56
  require (entrySize == nativeProgramHeaderBytes) (invalid "invalid ELF program header size")
  require (entryCount ≤ maxProgramTableBytes / nativeProgramHeaderBytes)
    (invalid "ELF program table exceeds the loader limit")
  let tableEnd ← okOr (checkedAdd tableOffset (entrySize * entryCount)) (invalid "invalid ELF program table")
  require (tableEnd ≤ bytes.length) (invalid "ELF program table extends past the file")
  let entry ← readU64 bytes 24
  require (entry < maxGuestUserAddress) (invalid "ELF entry point is outside the guest user address space")
  let loadable ← validateHeaders bytes tableOffset entrySize entryCount 0 0
  require (loadable != 0) (invalid "binary workload has no loadable segment")

end SimFerret.Workload
