import SimFerret.Lib.PrefixCode
import SimFerret.Workload.Image

/-!
# SimFerret.Workload.Identity — what the canonical digest identifies (`workload/tree.rs`)

`Tree::encode` writes the entries one behind the other, without their number.  Each entry says where it ends, so
the bytes determine every decision of the tree but the contents of its files, of which they have the length and
the digest.

* `Entry.visible`: the decisions of an entry.
* `delimits_encodeEntry`: an entry says where it ends.
* `encode_unambiguous`: equal encodings are of trees with the same decisions; where the digest separates the byte
  strings it is taken of, equal canonical digests are of equal trees.
-/

namespace SimFerret.Workload

variable {sha256 : Bytes → Bytes}

/-- The decisions of an entry that its encoding has; a file's contents are there as a length and a digest. -/
structure Visible where
  kind : EntryKind
  mode : Nat
  uid : Nat
  gid : Nat
  mtime : Nat
  target : Option Bytes
  size : Option Nat
  digest : Option Bytes
deriving DecidableEq

def Entry.visible (sha256 : Bytes → Bytes) (e : Entry) : Visible where
  kind := e.kind
  mode := e.mode
  uid := e.uid
  gid := e.gid
  mtime := e.mtime
  target := e.target
  size := e.data.map List.length
  digest := e.data.map sha256

/-- An entry at a path, within the widths of its encoding: `u32` numbers, lengths and a `usize` number of bytes. -/
structure Codable (path : Bytes) (e : Entry) : Prop where
  fits : e.Fits
  path_lt : path.length < 2 ^ 32
  data_iff : e.data.isSome ↔ e.kind = .file
  target_iff : e.target.isSome ↔ e.kind = .symlink
  data_lt : e.fileBytes.length < u64Size
  target_lt : e.linkTarget.length < 2 ^ 32

def Tree.Codable (tree : Tree) : Prop := ∀ path entry, tree.get path = some entry → Workload.Codable path entry

/-- The byte strings that a canonical digest takes digests of. -/
def Tree.hashed (sha256 : Bytes → Bytes) (tree : Tree) : Set Bytes :=
  {message | message = canonicalPrefix ++ tree.encode sha256 ∨
    ∃ path entry, tree.get path = some entry ∧ entry.data = some message}

/-! ## Fields -/

/-- The number that big-endian bytes say. -/
def ofBeBytes (bytes : Bytes) : Nat := bytes.foldl (fun value byte => value * 256 + byte.toNat) 0

theorem ofBeBytes_be32 {n : Nat} (h : n < 2 ^ 32) : ofBeBytes (be32 n) = n := by
  simp only [ofBeBytes, be32, List.map_cons, List.map_nil, List.foldl_cons, List.foldl_nil, UInt8.toNat_ofNat',
    Nat.shiftRight_eq_div_pow]
  omega

theorem ofBeBytes_be64 {n : Nat} (h : n < u64Size) : ofBeBytes (be64 n) = n := by
  unfold u64Size at h
  simp only [ofBeBytes, be64, List.map_cons, List.map_nil, List.foldl_cons, List.foldl_nil, UInt8.toNat_ofNat',
    Nat.shiftRight_eq_div_pow]
  omega

theorem delimits_be32 : Delimits (fun n => n < 2 ^ 32) be32 id := by
  have hfixed : Delimits (fun n => n < 2 ^ 32) be32 be32 := delimits_fixed fun _ _ => (rfl : _ = 4)
  refine hfixed.of_key fun a b ha hb heq => ?_
  rw [id_eq, id_eq, ← ofBeBytes_be32 ha, heq, ofBeBytes_be32 hb]

theorem delimits_be64 : Delimits (fun n => n < u64Size) be64 id := by
  have hfixed : Delimits (fun n => n < u64Size) be64 be64 := delimits_fixed fun _ _ => (rfl : _ = 8)
  refine hfixed.of_key fun a b ha hb heq => ?_
  rw [id_eq, id_eq, ← ofBeBytes_be64 ha, heq, ofBeBytes_be64 hb]

theorem delimits_putBytes32 : Delimits (fun value : Bytes => value.length < 2 ^ 32) putBytes32 id := by
  have hlength := delimits_be32.comap (List.length : Bytes → Nat)
  refine (hlength.append fun width => delimits_fixed fun value hvalue => hvalue.2).of_key fun a b _ _ heq => ?_
  exact (Prod.mk.inj heq).2

/-! ## Entries -/

/-- The first byte of an entry. -/
def kindTag : EntryKind → Bytes
  | .directory => [68]
  | .file => [70]
  | .symlink => [76]

theorem delimits_kindTag : Delimits (fun _ => True) kindTag id := by
  have hlength : ∀ kind, (kindTag kind).length = 1 := fun kind => by cases kind <;> rfl
  have hfixed : Delimits (fun _ => True) kindTag kindTag := delimits_fixed fun kind _ => hlength kind
  refine hfixed.of_key fun a b _ _ heq => ?_
  cases a <;> cases b <;> first | rfl | exact absurd heq (by decide)

/-- What follows the numbers of an entry. -/
def encodeTail (sha256 : Bytes → Bytes) (entry : Entry) : Bytes :=
  match entry.kind with
  | .directory => []
  | .file => be64 entry.fileBytes.length ++ sha256 entry.fileBytes
  | .symlink => putBytes32 entry.linkTarget

theorem encodeEntry_eq (sha256 : Bytes → Bytes) (path : Bytes) (entry : Entry) :
    encodeEntry sha256 path entry = kindTag entry.kind ++ putBytes32 path ++ be32 entry.mode ++ be32 entry.uid ++
      be32 entry.gid ++ be32 entry.mtime ++ encodeTail sha256 entry := rfl

theorem encodeEntry_ne_nil (sha256 : Bytes → Bytes) (path : Bytes) (entry : Entry) :
    encodeEntry sha256 path entry ≠ [] := by
  rw [encodeEntry_eq]
  cases entry.kind <;> exact List.cons_ne_nil _ _

/-- The parts of an entry that its tail says. -/
def Entry.content (sha256 : Bytes → Bytes) (e : Entry) : Option Bytes × Option Nat × Option Bytes :=
  (e.target, e.data.map List.length, e.data.map sha256)

variable {path : Bytes} {e : Entry}

theorem Codable.data_eq (h : Codable path e) : e.data = if e.kind = .file then some e.fileBytes else none := by
  unfold Entry.fileBytes
  cases hdata : e.data with
  | none =>
    rw [if_neg]
    rw [← h.data_iff, hdata]
    exact Bool.false_ne_true
  | some data =>
    rw [if_pos (h.data_iff.mp (by rw [hdata]; rfl))]
    rfl

theorem Codable.target_eq (h : Codable path e) :
    e.target = if e.kind = .symlink then some e.linkTarget else none := by
  unfold Entry.linkTarget
  cases htarget : e.target with
  | none =>
    rw [if_neg]
    rw [← h.target_iff, htarget]
    exact Bool.false_ne_true
  | some target =>
    rw [if_pos (h.target_iff.mp (by rw [htarget]; rfl))]
    rfl

/-- The tail says where it ends once the kind is known. -/
theorem delimits_encodeTail (hlength : ∀ data, (sha256 data).length = 32) (kind : EntryKind) :
    Delimits (fun x : Bytes × Entry => Codable x.1 x.2 ∧ x.2.kind = kind) (fun x => encodeTail sha256 x.2)
      (fun x => x.2.content sha256) := by
  intro a b ha hb r s heq
  obtain ⟨ha, hakind⟩ := ha
  obtain ⟨hb, hbkind⟩ := hb
  change encodeTail sha256 a.2 ++ r = encodeTail sha256 b.2 ++ s at heq
  show (a.2.target, a.2.data.map List.length, a.2.data.map sha256) =
    (b.2.target, b.2.data.map List.length, b.2.data.map sha256) ∧ r = s
  rw [ha.data_eq, hb.data_eq, ha.target_eq, hb.target_eq]
  unfold encodeTail at heq
  rw [hakind, hbkind] at heq ⊢
  cases kind with
  | directory => exact ⟨rfl, heq⟩
  | file =>
    have hsize := delimits_be64.comap fun x : Bytes × Entry => x.2.fileBytes.length
    have hdigest : Delimits (fun _ => True) sha256 sha256 := delimits_fixed fun data _ => hlength data
    have hboth :=
      (hsize.append_plain ((hdigest.comap fun x : Bytes × Entry => x.2.fileBytes).mono fun _ _ => trivial))
    obtain ⟨hkey, hrs⟩ := hboth a b ha.data_lt hb.data_lt r s heq
    obtain ⟨hlen, hsha⟩ := Prod.mk.inj hkey
    refine ⟨?_, hrs⟩
    show (none, some a.2.fileBytes.length, some (sha256 a.2.fileBytes)) = _
    rw [show a.2.fileBytes.length = b.2.fileBytes.length from hlen, hsha]
    rfl
  | symlink =>
    have htarget := delimits_putBytes32.comap fun x : Bytes × Entry => x.2.linkTarget
    obtain ⟨hkey, hrs⟩ := htarget a b ha.target_lt hb.target_lt r s heq
    refine ⟨?_, hrs⟩
    show (some a.2.linkTarget, none, none) = _
    rw [show a.2.linkTarget = b.2.linkTarget from hkey]
    rfl

/-- **An entry says where it ends**, and determines its path and its decisions. -/
theorem delimits_encodeEntry (hlength : ∀ data, (sha256 data).length = 32) :
    Delimits (fun x : Bytes × Entry => Codable x.1 x.2) (fun x => encodeEntry sha256 x.1 x.2)
      (fun x => (x.1, x.2.visible sha256)) := by
  have hkind := (delimits_kindTag.comap fun x : Bytes × Entry => x.2.kind).mono
    fun x (_ : Codable x.1 x.2) => trivial
  have hpath := (delimits_putBytes32.comap fun x : Bytes × Entry => x.1).mono
    fun x (hx : Codable x.1 x.2) => hx.path_lt
  have hmode := (delimits_be32.comap fun x : Bytes × Entry => x.2.mode).mono
    fun x (hx : Codable x.1 x.2) => hx.fits.mode
  have huid := (delimits_be32.comap fun x : Bytes × Entry => x.2.uid).mono
    fun x (hx : Codable x.1 x.2) => hx.fits.uid
  have hgid := (delimits_be32.comap fun x : Bytes × Entry => x.2.gid).mono
    fun x (hx : Codable x.1 x.2) => hx.fits.gid
  have hmtime := (delimits_be32.comap fun x : Bytes × Entry => x.2.mtime).mono
    fun x (hx : Codable x.1 x.2) => hx.fits.mtime
  have howner := ((hkind.append_plain hpath).append_plain hmode).append_plain huid
  have hnumbers := (howner.append_plain hgid).append_plain hmtime
  have htail : ∀ key : ((((EntryKind × Bytes) × Nat) × Nat) × Nat) × Nat, Delimits
      (fun x : Bytes × Entry => Codable x.1 x.2 ∧
        (((((x.2.kind, x.1), x.2.mode), x.2.uid), x.2.gid), x.2.mtime) = key)
      (fun x => encodeTail sha256 x.2) (fun x => x.2.content sha256) :=
    fun key => (delimits_encodeTail hlength key.1.1.1.1.1).mono fun x hx => ⟨hx.1, by rw [← hx.2]⟩
  have hall := hnumbers.append htail
  refine hall.of_key fun a b _ _ heq => ?_
  simp only [Prod.mk.injEq, id_eq, Entry.content] at heq
  obtain ⟨⟨⟨⟨⟨⟨h1, h2⟩, h3⟩, h4⟩, h5⟩, h6⟩, h7, h8, h9⟩ := heq
  rw [Prod.mk.injEq, Entry.visible, Entry.visible, Visible.mk.injEq]
  exact ⟨h2, h1, h3, h4, h5, h6, h7, h8, h9⟩

/-! ## Trees -/

variable {a b : Tree}

theorem Tree.mem_iter {tree : Tree} {x : Bytes × Entry} : x ∈ tree.iter ↔ tree.get x.1 = some x.2 :=
  Std.ExtTreeMap.mem_toList_iff_getElem?_eq_some

/-- The entries of equal encodings, in order. -/
theorem iter_visible (hlength : ∀ data, (sha256 data).length = 32) (ha : a.Codable) (hb : b.Codable)
    (h : a.encode sha256 = b.encode sha256) :
    a.iter.map (fun x => (x.1, x.2.visible sha256)) = b.iter.map (fun x => (x.1, x.2.visible sha256)) :=
  (delimits_encodeEntry hlength).flatMap (fun x _ => encodeEntry_ne_nil sha256 x.1 x.2) a.iter b.iter
    (fun x hx => ha x.1 x.2 (Tree.mem_iter.mp hx)) (fun x hx => hb x.1 x.2 (Tree.mem_iter.mp hx)) h

/-- What one tree has at a path, the other has. -/
theorem visible_of_iter (h : a.iter.map (fun x => (x.1, x.2.visible sha256)) =
    b.iter.map (fun x => (x.1, x.2.visible sha256))) {entry : Entry} (hget : a.get path = some entry) :
    ∃ other, b.get path = some other ∧ other.visible sha256 = entry.visible sha256 := by
  have hmem : (path, entry.visible sha256) ∈ b.iter.map (fun x => (x.1, x.2.visible sha256)) := by
    rw [← h]
    exact List.mem_map.mpr ⟨(path, entry), Tree.mem_iter.mpr hget, rfl⟩
  obtain ⟨other, hother, hkey⟩ := List.mem_map.mp hmem
  obtain ⟨rfl, hvisible⟩ := Prod.mk.inj hkey
  exact ⟨other.2, Tree.mem_iter.mp hother, hvisible⟩

theorem map_visible_eq (h : a.iter.map (fun x => (x.1, x.2.visible sha256)) =
    b.iter.map (fun x => (x.1, x.2.visible sha256))) (path : Bytes) :
    (a.get path).map (Entry.visible sha256) = (b.get path).map (Entry.visible sha256) := by
  cases ha : a.get path with
  | some entry =>
    obtain ⟨other, hother, hvisible⟩ := visible_of_iter h ha
    rw [hother, Option.map_some, Option.map_some, hvisible]
  | none =>
    cases hb : b.get path with
    | none => rfl
    | some entry =>
      obtain ⟨other, hother, -⟩ := visible_of_iter h.symm hb
      rw [ha] at hother
      cases hother

/-- Two entries with the same decisions, whose contents the digest tells apart. -/
theorem Entry.eq_of_visible {e e' : Entry} (h : e.visible sha256 = e'.visible sha256)
    (hinj : ∀ data data', e.data = some data → e'.data = some data' → sha256 data = sha256 data' → data = data') :
    e = e' := by
  obtain ⟨kind, mode, uid, gid, mtime, data, target⟩ := e
  obtain ⟨kind', mode', uid', gid', mtime', data', target'⟩ := e'
  obtain ⟨rfl, rfl, rfl, rfl, rfl, rfl, -, hdigest⟩ := (Visible.mk.injEq ..).mp h
  have hdata : data = data' := by
    cases data with
    | none => exact (Option.map_eq_none_iff.mp hdigest.symm).symm
    | some contents =>
      obtain ⟨contents', rfl, hsha⟩ := Option.map_eq_some_iff.mp hdigest.symm
      rw [hinj contents contents' rfl rfl hsha.symm]
  rw [hdata]

/-- **The encoding is unambiguous**: its bytes determine every decision but the contents of the files, of which
they determine the length and the digest; where the digest tells the hashed strings apart, the canonical digest
determines the tree. -/
theorem encode_unambiguous (hlength : ∀ data, (sha256 data).length = 32) (ha : a.Codable) (hb : b.Codable) :
    (a.encode sha256 = b.encode sha256 →
      ∀ path, (a.get path).map (Entry.visible sha256) = (b.get path).map (Entry.visible sha256)) ∧
    (Set.InjOn sha256 (a.hashed sha256 ∪ b.hashed sha256) →
      a.canonicalDigest sha256 = b.canonicalDigest sha256 → a = b) := by
  refine ⟨fun h => map_visible_eq (iter_visible hlength ha hb h), fun hinj hdigest => ?_⟩
  have hencode : a.encode sha256 = b.encode sha256 := by
    have hhashed := hinj (.inl (.inl rfl)) (.inr (.inl rfl)) (hex_injective hdigest)
    exact List.append_cancel_left hhashed
  have hvisible := map_visible_eq (iter_visible hlength ha hb hencode)
  ext1 path
  have hpath := hvisible path
  cases hget : a.get path with
  | none =>
    rw [hget, Option.map_none, eq_comm, Option.map_eq_none_iff] at hpath
    exact hpath.symm
  | some entry =>
    rw [hget, Option.map_some, eq_comm, Option.map_eq_some_iff] at hpath
    obtain ⟨other, hother, hsame⟩ := hpath
    rw [hother, Entry.eq_of_visible hsame.symm fun data data' hdata hdata' =>
      hinj (.inl (.inr ⟨path, entry, hget, hdata⟩)) (.inr (.inr ⟨path, other, hother, hdata'⟩))]

/-! ### Two trees -/

/-- A directory with one file, built in two orders. -/
def fileTree : Tree := (Tree.new.insert rootPath Entry.defaultDirectory).insert "a"
    (Entry.file "payload" 0o644 1 2 3)
def fileTree' : Tree := (Tree.new.insert "a" (Entry.file "payload" 0o644 1 2 3)).insert rootPath
    Entry.defaultDirectory

/-- The SHA-256 of the two messages that their canonical digest takes digests of, told apart by their lengths. -/
def fileSha256 (message : Bytes) : Bytes :=
  let value := match message.length with
    | 7 => 0x239f59ed55e737c77147cf55ad0c1b030b6d7ee748a7426952f9b852d5a935e5
    | 118 => 0x698997f8269cc980cd9b55b0100d1c3172adcf5eb2eaca2b4bdaaf4ec1962ac5
    | _ => 0
  (List.range 32).map fun index => UInt8.ofNat (value >>> (8 * (31 - index)))

theorem fileTree_entries {tree : Tree} (h : tree = fileTree ∨ tree = fileTree') {entry : Entry}
    (hget : tree.get path = some entry) : path = rootPath ∧ entry = Entry.defaultDirectory ∨
      path = utf8 "a" ∧ entry = Entry.file "payload" 0o644 1 2 3 := by
  rcases h with rfl | rfl
  · rw [fileTree, Tree.get_insert, Tree.get_insert, Tree.get_new] at hget
    split_ifs at hget with hfile hroot
    · exact .inr ⟨hfile.symm, (Option.some.inj hget).symm⟩
    · exact .inl ⟨hroot.symm, (Option.some.inj hget).symm⟩
  · rw [fileTree', Tree.get_insert, Tree.get_insert, Tree.get_new] at hget
    split_ifs at hget with hroot hfile
    · exact .inl ⟨hroot.symm, (Option.some.inj hget).symm⟩
    · exact .inr ⟨hfile.symm, (Option.some.inj hget).symm⟩

theorem fileTree_codable {tree : Tree} (h : tree = fileTree ∨ tree = fileTree') : tree.Codable := by
  intro path entry hget
  rcases fileTree_entries h hget with ⟨rfl, rfl⟩ | ⟨rfl, rfl⟩
  · exact ⟨⟨by decide, by decide, by decide, by decide⟩, by decide, by decide, by decide, by decide, by decide⟩
  · exact ⟨⟨by decide, by decide, by decide, by decide⟩, by decide, by decide, by decide, by decide, by decide⟩

theorem fileTree_encode : fileTree.encode fileSha256 = fileTree'.encode fileSha256 := by decide +kernel

theorem fileSha256_separates : fileSha256 (canonicalPrefix ++ fileTree.encode fileSha256) ≠
    fileSha256 "payload" := by
  decide +kernel

theorem fileTree_hashed {message : Bytes}
    (h : message ∈ fileTree.hashed fileSha256 ∪ fileTree'.hashed fileSha256) :
    message = canonicalPrefix ++ fileTree.encode fileSha256 ∨ message = utf8 "payload" := by
  have hdata : ∀ {tree : Tree}, tree = fileTree ∨ tree = fileTree' → ∀ {path entry}, tree.get path = some entry →
      entry.data = some message → message = utf8 "payload" := by
    intro tree htree path entry hget hdata
    rcases fileTree_entries htree hget with ⟨rfl, rfl⟩ | ⟨rfl, rfl⟩
    · cases hdata
    · exact (Option.some.inj hdata).symm
  rcases h with (rfl | ⟨path, entry, hget, hmessage⟩) | (rfl | ⟨path, entry, hget, hmessage⟩)
  · exact .inl rfl
  · exact .inr (hdata (.inl rfl) hget hmessage)
  · rw [← fileTree_encode]
    exact .inl rfl
  · exact .inr (hdata (.inr rfl) hget hmessage)

theorem fileSha256_injOn : Set.InjOn fileSha256 (fileTree.hashed fileSha256 ∪ fileTree'.hashed fileSha256) := by
  intro message hmessage other hother heq
  rcases fileTree_hashed hmessage with rfl | rfl
  · rcases fileTree_hashed hother with rfl | rfl
    · rfl
    · exact absurd heq fileSha256_separates
  · rcases fileTree_hashed hother with rfl | rfl
    · exact absurd heq.symm fileSha256_separates
    · rfl

/-- The order in which a tree was built is no part of its identity. -/
theorem encode_unambiguous_files :
    (fileTree.get (utf8 "a")).map (Entry.visible fileSha256) =
      (fileTree'.get (utf8 "a")).map (Entry.visible fileSha256) ∧ fileTree = fileTree' := by
  have hlength : ∀ data, (fileSha256 data).length = 32 := fun data => by
    rw [fileSha256, List.length_map, List.length_range]
  have hboth := encode_unambiguous hlength (fileTree_codable (.inl rfl)) (fileTree_codable (.inr rfl))
  refine ⟨hboth.1 fileTree_encode _, hboth.2 fileSha256_injOn ?_⟩
  rw [Tree.canonicalDigest, Tree.canonicalDigest, fileTree_encode]

end SimFerret.Workload
