import SimFerret.Lib.Newc
import SimFerret.Workload.Checks
import SimFerret.Workload.Template

/-!
# SimFerret.Workload.Image — the archive of the guest image (`run.rs`)

The initramfs is the agent's own records, the workload template and a trailing record, appended byte by byte.
The agent's encoder and the encoder of the template are two functions of the source.

* `Encodes`: the bytes are the archive of these entries.
* `encodes_templateEntries`, `encodes_template`: the two encodings of a workload template.
* `readNewc_guestArchive`: what a reader finds in the image, whichever encoding is assembled into it.
-/

namespace SimFerret.Workload

open Newc

/-! ## The image -/

/-- Whether an executable names an interpreter. -/
def elfHeadersHaveInterpreter (bytes : Bytes) (tableOffset entrySize : Nat) : Nat → Nat → IoResult Bool
  | 0, _ => .ok false
  | remaining + 1, index => do
    let start ← okOr (if index * entrySize < u64Size then some (index * entrySize) else none)
      (invalid "invalid ELF program table")
    let offset ← okOr (checkedAdd tableOffset start) (invalid "invalid ELF program table")
    let kind ← readU32 bytes offset
    if kind = 3 then pure true else elfHeadersHaveInterpreter bytes tableOffset entrySize remaining (index + 1)

def elfHasInterpreter (bytes : Bytes) : IoResult Bool := do
  let notGuest := invalid "guest executable must be a little-endian x86-64 ELF binary"
  require (64 ≤ bytes.length && bytes.take 4 == [0x7f, 69, 76, 70] && bytes[4]? == some 2 &&
    bytes[5]? == some 1) notGuest
  let machine ← readU16 bytes 18
  require (machine == 62) notGuest
  let tableOffset ← readU64 bytes 32
  let entrySize ← readU16 bytes 54
  let entryCount ← readU16 bytes 56
  require (4 ≤ entrySize) (invalid "invalid ELF program header size")
  elfHeadersHaveInterpreter bytes tableOffset entrySize entryCount 0

structure GuestImageAssets where
  busybox : Bytes
  mii : Bytes
  rtl8139cp : Bytes

/-- `append_cpio` of `run.rs`: a record of the agent. -/
def appendAgentCpio (output : Bytes) (name : Text) (mode : Nat) (contents : Bytes) : IoResult Bytes := do
  require (contents.length < 2 ^ 32) (invalid "initramfs file too large")
  require (name.length + 1 < 2 ^ 32) (invalid "cpio name too large")
  let fields := [1, mode, 0, 0, 1, 0, contents.length, 0, 0, 0, 0, name.length + 1, 0]
  let header := utf8 "070701" ++ fields.flatMap (hexPadded 8)
  pure (alignFour (alignFour (output ++ header ++ name ++ [0]) ++ contents))

/-- The archive that `build_guest_image_with_assets` compresses. -/
def guestArchive (executable : Bytes) (assets : GuestImageAssets) (workloadTemplate : Option Bytes) :
    IoResult Bytes := do
  let interpreted ← elfHasInterpreter executable
  require (!interpreted) (invalid "simferret must be a statically linked x86_64 Linux executable for record mode")
  let archive ← appendAgentCpio [] "." 0o040755 []
  let archive ← appendAgentCpio archive "bin" 0o040755 []
  let archive ← appendAgentCpio archive "dev" 0o040755 []
  let archive ← appendAgentCpio archive "modules" 0o040755 []
  let archive ← appendAgentCpio archive "proc" 0o040755 []
  let archive ← appendAgentCpio archive "sys" 0o040755 []
  let archive ← appendAgentCpio archive "tmp" 0o040755 []
  let archive ← appendAgentCpio archive "bin/busybox" 0o100755 assets.busybox
  let archive ← appendAgentCpio archive "modules/mii.ko" 0o100644 assets.mii
  let archive ← appendAgentCpio archive "modules/8139cp.ko" 0o100644 assets.rtl8139cp
  let archive ← appendAgentCpio archive "init" 0o100755 executable
  appendAgentCpio (archive ++ workloadTemplate.getD []) "TRAILER!!!" 0 []

/-! ## What a reader should find -/

def agentEntries (executable : Bytes) (assets : GuestImageAssets) : List NewcEntry :=
  [{ name := ".", mode := 0o040755 }, { name := "bin", mode := 0o040755 }, { name := "dev", mode := 0o040755 },
    { name := "modules", mode := 0o040755 }, { name := "proc", mode := 0o040755 },
      { name := "sys", mode := 0o040755 },
    { name := "tmp", mode := 0o040755 }, { name := "bin/busybox", mode := 0o100755, contents := assets.busybox },
    { name := "modules/mii.ko", mode := 0o100644, contents := assets.mii },
    { name := "modules/8139cp.ko", mode := 0o100644, contents := assets.rtl8139cp },
    { name := "init", mode := 0o100755, contents := executable }]

def templateEntry (name : Bytes) (entry : Entry) : NewcEntry :=
  let (mode, contents) := match entry.kind with
    | .directory => (0o040000 ||| entry.mode, [])
    | .file => (0o100000 ||| entry.mode, entry.fileBytes)
    | .symlink => (0o120000 ||| entry.mode, entry.linkTarget)
  { name, mode, uid := entry.uid, gid := entry.gid, mtime := entry.mtime, contents }

/-- The root first, then every other entry of the tree in byte order, all below `rootName`. -/
def workloadEntries (rootName : Text) (tree : Tree) : List NewcEntry :=
  (tree.get rootPath).toList.map (templateEntry rootName) ++
    (tree.iter.filter fun (path, _) => path != rootPath).map fun (path, entry) =>
      templateEntry (rootName ++ [slash] ++ path) entry

def trailerEntry : NewcEntry := { name := "TRAILER!!!", mode := 0 }

/-- The numbers of an entry are those of `u32` fields. -/
structure Entry.Fits (e : Entry) : Prop where
  mode : e.mode < 2 ^ 32
  uid : e.uid < 2 ^ 32
  gid : e.gid < 2 ^ 32
  mtime : e.mtime < 2 ^ 32

def Tree.Fits (tree : Tree) : Prop := ∀ path entry, tree.get path = some entry → entry.Fits

/-! ## Records -/

/-- The bytes are the archive of these entries. -/
def Encodes (bytes : Bytes) (entries : List NewcEntry) : Prop :=
  bytes = archiveOf entries ∧ ∀ entry ∈ entries, entry.Fits

theorem encodes_nil : Encodes [] [] := ⟨rfl, by simp⟩

theorem Encodes.append {a b : Bytes} {entries more : List NewcEntry} (h : Encodes a entries)
    (h' : Encodes b more) : Encodes (a ++ b) (entries ++ more) := by
  refine ⟨?_, fun entry hentry => (List.mem_append.mp hentry).elim (h.2 entry) (h'.2 entry)⟩
  rw [h.1, h'.1]
  exact List.flatMap_append.symm

theorem alignFour_append {a b : Bytes} (h : 4 ∣ a.length) : alignFour (a ++ b) = a ++ alignFour b := by
  obtain ⟨k, hk⟩ := h
  unfold alignFour
  rw [List.append_assoc, List.length_append, hk, Nat.mul_add_mod]

theorem length_fields {fields : List Nat} (h : ∀ field ∈ fields, field < 2 ^ 32) :
    (fields.flatMap (hexPadded 8)).length = 8 * fields.length := by
  induction fields with
  | nil => rfl
  | cons field fields ih =>
    rw [List.flatMap_cons, List.length_append, ih fun x hx => h x (List.mem_cons_of_mem _ hx),
      length_hexPadded (by omega) (h field List.mem_cons_self), List.length_cons]
    omega

theorem dvd_length_alignFour (a : Bytes) : 4 ∣ (alignFour a).length := by
  unfold alignFour
  rw [List.length_append, List.length_replicate]
  exact padding_spec a.length

/-- A record that is aligned piece by piece. -/
theorem newcRecord_eq {entry : NewcEntry} (h : entry.Fits) : newcRecord entry =
    alignFour (alignFour (utf8 "070701" ++ entry.header.flatMap (hexPadded 8) ++ entry.name ++ [0]) ++
      entry.contents) := by
  have hmagic : (utf8 "070701").length = 6 := by decide
  have hfields : (entry.header.flatMap (hexPadded 8)).length = 104 := length_fields h
  have hhead : (utf8 "070701" ++ entry.header.flatMap (hexPadded 8) ++ entry.name ++ [0]).length =
      110 + (entry.name.length + 1) := by
    rw [List.length_append, List.length_append, List.length_append, hmagic, hfields, List.length_singleton]
    omega
  rw [alignFour_append (dvd_length_alignFour _), alignFour, alignFour, hhead, newcRecord]
  simp only [padding, List.append_assoc, List.singleton_append]
  rfl

theorem dvd_length_newcRecord {entry : NewcEntry} (h : entry.Fits) : 4 ∣ (newcRecord entry).length := by
  rw [newcRecord_eq h]
  exact dvd_length_alignFour _

/-- An archive ends where the next record may begin. -/
theorem Encodes.dvd_length {bytes : Bytes} {entries : List NewcEntry} (h : Encodes bytes entries) :
    4 ∣ bytes.length := by
  obtain ⟨rfl, hfits⟩ := h
  induction entries with
  | nil => exact Dvd.intro 0 rfl
  | cons entry entries ih =>
    rw [show archiveOf (entry :: entries) = newcRecord entry ++ archiveOf entries from rfl, List.length_append]
    exact Nat.dvd_add (dvd_length_newcRecord (hfits entry List.mem_cons_self))
      (ih fun x hx => hfits x (List.mem_cons_of_mem _ hx))

/-- What both encoders append is one record. -/
theorem Encodes.snoc {output : Bytes} {entries : List NewcEntry} {entry : NewcEntry} (h : Encodes output entries)
    (hfits : entry.Fits) : Encodes (alignFour (alignFour (output ++ (utf8 "070701" ++
      entry.header.flatMap (hexPadded 8)) ++ entry.name ++ [0]) ++ entry.contents)) (entries ++ [entry]) := by
  have hrecord : Encodes (newcRecord entry) [entry] :=
    ⟨(List.append_nil _).symm, fun x hx => List.mem_singleton.mp hx ▸ hfits⟩
  have hsplit : output ++ (utf8 "070701" ++ entry.header.flatMap (hexPadded 8)) ++ entry.name ++ [0] =
      output ++ (utf8 "070701" ++ entry.header.flatMap (hexPadded 8) ++ entry.name ++ [0]) := by
    simp only [List.append_assoc]
  rw [hsplit, alignFour_append h.dvd_length, List.append_assoc, alignFour_append h.dvd_length,
    ← newcRecord_eq hfits]
  exact h.append hrecord

theorem Encodes.cpio {output out name contents : Bytes} {entries : List NewcEntry} {mode uid gid mtime : Nat}
    (h : Encodes output entries) (hmode : mode < 2 ^ 32) (huid : uid < 2 ^ 32) (hgid : gid < 2 ^ 32)
    (hmtime : mtime < 2 ^ 32) (hout : appendCpio output name mode uid gid mtime contents = .ok out) :
    Encodes out (entries ++ [⟨name, 1, mode, uid, gid, 1, mtime, contents⟩]) := by
  unfold appendCpio at hout
  obtain ⟨_, hcontents, hout⟩ := bind_eq_ok.mp hout
  obtain ⟨_, hname, hout⟩ := bind_eq_ok.mp hout
  rw [require_eq_ok, decide_eq_true_eq] at hcontents hname
  cases hout
  refine @Encodes.snoc _ _ ⟨name, 1, mode, uid, gid, 1, mtime, contents⟩ h fun field hfield => ?_
  simp only [NewcEntry.header, List.mem_cons, List.not_mem_nil, or_false] at hfield
  omega

theorem Encodes.agent {output out : Bytes} {name : Text} {contents : Bytes} {entries : List NewcEntry}
    {mode : Nat} (h : Encodes output entries) (hmode : mode < 2 ^ 32)
    (hout : appendAgentCpio output name mode contents = .ok out) :
    Encodes out (entries ++ [⟨name, 1, mode, 0, 0, 1, 0, contents⟩]) := by
  unfold appendAgentCpio at hout
  obtain ⟨_, hcontents, hout⟩ := bind_eq_ok.mp hout
  obtain ⟨_, hname, hout⟩ := bind_eq_ok.mp hout
  rw [require_eq_ok, decide_eq_true_eq] at hcontents hname
  cases hout
  refine @Encodes.snoc _ _ ⟨name, 1, mode, 0, 0, 1, 0, contents⟩ h fun field hfield => ?_
  simp only [NewcEntry.header, List.mem_cons, List.not_mem_nil, or_false] at hfield
  omega

/-! ## Templates -/

theorem Encodes.entry {output out name : Bytes} {entry : Entry} {entries : List NewcEntry}
    (h : Encodes output entries) (hfits : entry.Fits) (hout : appendTemplateEntry output name entry = .ok out) :
    Encodes out (entries ++ [templateEntry name entry]) := by
  have hmode : ∀ bits < 2 ^ 32, bits ||| entry.mode < 2 ^ 32 :=
    fun bits hbits => Nat.or_lt_two_pow hbits hfits.mode
  unfold appendTemplateEntry at hout
  unfold templateEntry
  cases hkind : entry.kind with
  | directory =>
    rw [hkind] at hout
    exact h.cpio (hmode _ (by decide)) hfits.uid hfits.gid hfits.mtime hout
  | file =>
    rw [hkind] at hout
    exact h.cpio (hmode _ (by decide)) hfits.uid hfits.gid hfits.mtime hout
  | symlink =>
    rw [hkind] at hout
    exact h.cpio (hmode _ (by decide)) hfits.uid hfits.gid hfits.mtime hout

/-- The loop over the entries behind the root, by induction on them. -/
theorem Encodes.foldlM_entry {rootName : Text} : ∀ {l : List (Bytes × Entry)} {output out : Bytes}
    {entries : List NewcEntry}, Encodes output entries → (∀ x ∈ l, x.2.Fits) →
    l.foldlM (fun output (path, entry) => appendTemplateEntry output (rootName ++ [slash] ++ path) entry) output =
      .ok out → Encodes out (entries ++ l.map fun (path, entry) =>
        templateEntry (rootName ++ [slash] ++ path) entry)
  | [], output, out, entries, h, _, hout => by
    cases hout
    rwa [List.map_nil, List.append_nil]
  | (path, entry) :: l, output, out, entries, h, hfits, hout => by
    rw [List.foldlM_cons] at hout
    obtain ⟨mid, hmid, hout⟩ := bind_eq_ok.mp hout
    have hstep := h.entry (hfits _ List.mem_cons_self) hmid
    have hrest := Encodes.foldlM_entry hstep (fun x hx => hfits x (List.mem_cons_of_mem _ hx)) hout
    rwa [List.append_assoc] at hrest

variable {tree : Tree} {rootName : Text} {out : Bytes}

/-- **The entries alone** are the archive of the workload. -/
theorem encodes_templateEntries (hfits : tree.Fits) (h : tree.templateEntries rootName = .ok out) :
    Encodes out (workloadEntries rootName tree) := by
  unfold Tree.templateEntries at h
  obtain ⟨root, hroot, h⟩ := bind_eq_ok.mp h
  obtain ⟨_, _, h⟩ := bind_eq_ok.mp h
  obtain ⟨first, hfirst, h⟩ := bind_eq_ok.mp h
  rw [okOr_eq_ok] at hroot
  have hstart := encodes_nil.entry (hfits _ _ hroot) hfirst
  unfold workloadEntries
  rw [hroot]
  refine hstart.foldlM_entry (fun x hx => ?_) h
  exact hfits x.1 x.2 (Std.ExtTreeMap.mem_toList_iff_getElem?_eq_some.mp (List.mem_filter.mp hx).1)

/-- **The template** has a trailing record of its own. -/
theorem encodes_template (hfits : tree.Fits) (h : tree.template rootName = .ok out) :
    Encodes out (workloadEntries rootName tree ++ [trailerEntry]) := by
  obtain ⟨entries, hentries, h⟩ := bind_eq_ok.mp h
  exact (encodes_templateEntries hfits hentries).cpio (by decide) (by decide) (by decide) (by decide) h

/-! ## The image -/

variable {executable archive : Bytes} {assets : GuestImageAssets}

/-- **What a reader finds in the image**: the agent's entries, those of the assembled template, and a trailer. -/
theorem readNewc_guestArchive {template : Bytes} {entries : List NewcEntry} (htemplate : Encodes template entries)
    (h : guestArchive executable assets (some template) = .ok archive) :
    readNewc archive = some (agentEntries executable assets ++ entries ++ [trailerEntry]) := by
  unfold guestArchive at h
  obtain ⟨_, _, h⟩ := bind_eq_ok.mp h
  obtain ⟨_, _, h⟩ := bind_eq_ok.mp h
  obtain ⟨_, h1, h⟩ := bind_eq_ok.mp h
  obtain ⟨_, h2, h⟩ := bind_eq_ok.mp h
  obtain ⟨_, h3, h⟩ := bind_eq_ok.mp h
  obtain ⟨_, h4, h⟩ := bind_eq_ok.mp h
  obtain ⟨_, h5, h⟩ := bind_eq_ok.mp h
  obtain ⟨_, h6, h⟩ := bind_eq_ok.mp h
  obtain ⟨_, h7, h⟩ := bind_eq_ok.mp h
  obtain ⟨_, h8, h⟩ := bind_eq_ok.mp h
  obtain ⟨_, h9, h⟩ := bind_eq_ok.mp h
  obtain ⟨_, h10, h⟩ := bind_eq_ok.mp h
  obtain ⟨_, h11, h⟩ := bind_eq_ok.mp h
  have hdirectory : 0o040755 < 2 ^ 32 := by decide
  have hagent := ((((((encodes_nil.agent hdirectory h1).agent hdirectory h2).agent
    hdirectory h3).agent hdirectory h4).agent hdirectory h5).agent hdirectory
    h6).agent hdirectory h7
  have hfiles := (((hagent.agent (by decide) h8).agent (by decide) h9).agent (by decide)
    h10).agent (by decide) h11
  obtain ⟨hbytes, hfits⟩ := (hfiles.append htemplate).agent (by decide) h
  rw [hbytes, readNewc_archiveOf hfits]
  rfl

end SimFerret.Workload
