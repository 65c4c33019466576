import SimFerret.Workload.Symlink

/-!
# SimFerret.Workload.Template — the identity of a canonical tree and its guest template (`workload/tree.rs`)

`sha256` stands for `Sha256::digest`, whose digests have 32 bytes.
-/

namespace SimFerret.Workload

def maxViewEntries : Nat := 2 ^ 15
def maxExpandedLayerBytes : Nat := 256 * 2 ^ 20

def canonicalPrefix : Bytes := utf8 "simferret-canonical-filesystem-v1" ++ [0]

/-- The template root name: `GUEST_WORKLOAD_ROOT` without its leading separator. -/
def guestTemplateRoot : Text := "workload"

/-! ## Encoding -/

/-- One of `b"0123456789abcdef"`. -/
def lowerDigit (nibble : UInt8) : UInt8 := if nibble < 10 then 48 + nibble else 87 + nibble

def hex (bytes : Bytes) : Text := bytes.flatMap fun (byte : UInt8) =>
    [lowerDigit (byte >>> 4), lowerDigit (byte &&& 0xf)]

def sha256Bytes (sha256 : Bytes → Bytes) (bytes : Bytes) : Text := hex (sha256 bytes)

/-- `(value as u32).to_be_bytes()`. -/
def be32 (value : Nat) : Bytes := [24, 16, 8, 0].map fun shift => UInt8.ofNat (value >>> shift)

/-- `(value as u64).to_be_bytes()`. -/
def be64 (value : Nat) : Bytes := [56, 48, 40, 32, 24, 16, 8, 0].map fun shift => UInt8.ofNat (value >>> shift)

def putBytes32 (value : Bytes) : Bytes := be32 value.length ++ value

/-- One entry of `Tree::encode`. -/
def encodeEntry (sha256 : Bytes → Bytes) (path : Bytes) (entry : Entry) : Bytes :=
  (match entry.kind with
    | .directory => [68]
    | .file => [70]
    | .symlink => [76]) ++
  putBytes32 path ++ be32 entry.mode ++ be32 entry.uid ++ be32 entry.gid ++ be32 entry.mtime ++
  (match entry.kind with
    | .directory => []
    | .file => be64 entry.fileBytes.length ++ sha256 entry.fileBytes
    | .symlink => putBytes32 entry.linkTarget)

/-- An unambiguous serialization of every guest-visible decision. -/
def Tree.encode (sha256 : Bytes → Bytes) (t : Tree) : Bytes :=
  t.iter.flatMap fun (path, entry) => encodeEntry sha256 path entry

def Tree.canonicalDigest (sha256 : Bytes → Bytes) (t : Tree) : Text :=
  hex (sha256 (canonicalPrefix ++ t.encode sha256))

/-! ## The `newc` archive -/

/-- `while !output.len().is_multiple_of(4) { output.push(0) }`. -/
def alignFour (output : Bytes) : Bytes := output ++ List.replicate ((4 - output.length % 4) % 4) 0

def appendCpio (output name : Bytes) (mode uid gid mtime : Nat) (contents : Bytes) : IoResult Bytes := do
  require (contents.length < 2 ^ 32) (invalid "guest template file is too large")
  require (name.length + 1 < 2 ^ 32) (invalid "guest template name is too large")
  let fields := [1, mode, uid, gid, 1, mtime, contents.length, 0, 0, 0, 0, name.length + 1, 0]
  let header := utf8 "070701" ++ fields.flatMap (hexPadded 8)
  pure (alignFour (alignFour (output ++ header ++ name ++ [0]) ++ contents))

def appendTemplateEntry (output name : Bytes) (entry : Entry) : IoResult Bytes :=
  match entry.kind with
  | .directory => appendCpio output name (0o040000 ||| entry.mode) entry.uid entry.gid entry.mtime []
  | .file => appendCpio output name (0o100000 ||| entry.mode) entry.uid entry.gid entry.mtime entry.fileBytes
  | .symlink => appendCpio output name (0o120000 ||| entry.mode) entry.uid entry.gid entry.mtime entry.linkTarget

/-- The root entry first, then every other entry in byte order. -/
def Tree.templateEntries (t : Tree) (rootName : Text) : IoResult Bytes := do
  let root ← okOr (t.get rootPath) (invalid "canonical tree has no root entry")
  require (root.kind == .directory) (invalid "canonical root must be a directory")
  let output ← appendTemplateEntry [] rootName root
  (t.iter.filter fun (path, _) => path != rootPath).foldlM
    (fun output (path, entry) => appendTemplateEntry output (rootName ++ [slash] ++ path) entry) output

def Tree.template (t : Tree) (rootName : Text) : IoResult Bytes := do
  let output ← t.templateEntries rootName
  appendCpio output (utf8 "TRAILER!!!") 0 0 0 0 []

/-! ## Bounds -/

/-- Enforce the canonical tree bounds shared by assembly and replay. -/
def validateCanonicalTree (tree : Tree) (maxEntries maxExpandedBytes : Nat) : IoResult Unit := do
  require (tree.len ≤ maxEntries) (invalid ("canonical tree exceeds " ++ decimal maxEntries ++ " entries"))
  require (tree.expandedBytes ≤ maxExpandedBytes)
    (invalid ("canonical tree exceeds " ++ decimal maxExpandedBytes ++ " expanded bytes"))

/-! ## Digests as names -/

theorem mem_hex {bytes : Bytes} {b : UInt8} (h : b ∈ hex bytes) : ∃ nibble : UInt8, nibble < 16 ∧
    b = lowerDigit nibble := by
  unfold hex at h
  obtain ⟨byte, -, hb⟩ := List.mem_flatMap.mp h
  have hbound : byte >>> 4 < 16 ∧ byte &&& 0xf < 16 := by
    have hall : ∀ n : Fin 256, UInt8.ofFin n >>> 4 < 16 ∧ UInt8.ofFin n &&& 0xf < 16 := by decide +kernel
    exact hall byte.toFin
  rcases List.mem_cons.mp hb with rfl | hb
  · exact ⟨_, hbound.1, rfl⟩
  · rw [List.mem_singleton] at hb
    exact ⟨_, hbound.2, hb⟩

theorem length_hex (bytes : Bytes) : (hex bytes).length = 2 * bytes.length := by
  unfold hex
  induction bytes with
  | nil => rfl
  | cons byte rest ih =>
    rw [List.flatMap_cons, List.length_append, ih, List.length_cons]
    simp only [List.length_cons, List.length_nil]
    omega

/-- The value of a digit. -/
def digitNibble (digit : UInt8) : UInt8 := if digit < 58 then digit - 48 else digit - 87

theorem byte_of_digits (byte : UInt8) :
    digitNibble (lowerDigit (byte >>> 4)) * 16 + digitNibble (lowerDigit (byte &&& 0xf)) = byte := by
  have hall : ∀ n : Fin 256, digitNibble (lowerDigit (UInt8.ofFin n >>> 4)) * 16 +
      digitNibble (lowerDigit (UInt8.ofFin n &&& 0xf)) = UInt8.ofFin n := by decide +kernel
  exact hall byte.toFin

theorem hex_injective : ∀ {a b : Bytes}, hex a = hex b → a = b
  | [], [], _ => rfl
  | [], _ :: _, h => by cases h
  | _ :: _, [], h => by cases h
  | x :: a, y :: b, h => by
    have hcons : lowerDigit (x >>> 4) :: lowerDigit (x &&& 0xf) :: hex a =
        lowerDigit (y >>> 4) :: lowerDigit (y &&& 0xf) :: hex b := h
    rw [List.cons.injEq, List.cons.injEq] at hcons
    obtain ⟨hhigh, hlow, htail⟩ := hcons
    rw [hex_injective htail, ← byte_of_digits x, hhigh, hlow, byte_of_digits]

/-- A digit of a digest is a lowercase hexadecimal digit. -/
theorem lowerDigit_range {nibble : UInt8} (h : nibble < 16) :
    48 ≤ lowerDigit nibble ∧ lowerDigit nibble ≤ 102 ∧ (lowerDigit nibble ≤ 57 ∨ 97 ≤ lowerDigit nibble) := by
  have hall : ∀ n : Fin 256, UInt8.ofFin n < 16 → 48 ≤ lowerDigit (UInt8.ofFin n) ∧
      lowerDigit (UInt8.ofFin n) ≤ 102 ∧ (lowerDigit (UInt8.ofFin n) ≤ 57 ∨
      97 ≤ lowerDigit (UInt8.ofFin n)) := by decide +kernel
  exact hall nibble.toFin h

end SimFerret.Workload
