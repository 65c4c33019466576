import SimFerret.Store.Load
import SimFerret.Workload.Archive
import SimFerret.Workload.Image

/-!
# SimFerret.Store.Image — the guest image of a loaded workload

Recording and replay assemble `loaded.template` into the image.  That is the encoding with a trailing record of
its own.

* `replayGraph_fits`: the numbers of a re-derived tree are those of `u32` fields.
* `load_returns`: whatever `load` returns, its template is the encoding of its tree.
* `guestArchive_two_trailers`: **the image of a loaded workload has two trailing records**, one of them in the
  middle.
-/

namespace SimFerret.Workload

/-! ## The numbers of a tree -/

theorem fits_defaultDirectory : Entry.defaultDirectory.Fits := ⟨by decide, by decide, by decide, by decide⟩

theorem memberEntry_fits {entry : TarEntry} {layer index mode uid gid mtime : Nat} {e : Entry}
    (hmode : mode ≤ 0o7777) (h : memberEntry entry layer index mode uid gid mtime = .ok e) : e.Fits := by
  have hmode' : mode < 2 ^ 32 := by omega
  have hmod : ∀ n : Nat, n % 2 ^ 32 < 2 ^ 32 := fun n => Nat.mod_lt n (by decide)
  unfold memberEntry at h
  split at h
  · obtain ⟨_, -, h⟩ := bind_eq_ok.mp h
    cases h
    exact ⟨hmode', hmod _, hmod _, hmod _⟩
  · obtain ⟨_, -, h⟩ := bind_eq_ok.mp h
    obtain ⟨target, -, h⟩ := bind_eq_ok.mp h
    obtain ⟨_, -, h⟩ := bind_eq_ok.mp h
    cases h
    exact ⟨show symlinkMode < 2 ^ 32 by decide, hmod _, hmod _, hmod _⟩
  · obtain ⟨size, -, h⟩ := bind_eq_ok.mp h
    obtain ⟨_, -, h⟩ := bind_eq_ok.mp h
    obtain ⟨data, -, h⟩ := bind_eq_ok.mp h
    obtain ⟨_, -, h⟩ := bind_eq_ok.mp h
    cases h
    exact ⟨hmode', hmod _, hmod _, hmod _⟩
  all_goals exact absurd h (by simp)

theorem parseMember_fits {entry : TarEntry} {layer index : Nat} {m : Member}
    (h : parseMember entry layer index = .ok m) : m.entry.Fits := by
  unfold parseMember at h
  obtain ⟨name, -, h⟩ := bind_eq_ok.mp h
  obtain ⟨mode, -, h⟩ := bind_eq_ok.mp h
  obtain ⟨_, hmode, h⟩ := bind_eq_ok.mp h
  obtain ⟨_, -, h⟩ := bind_eq_ok.mp h
  obtain ⟨uid, -, h⟩ := bind_eq_ok.mp h
  obtain ⟨gid, -, h⟩ := bind_eq_ok.mp h
  obtain ⟨mtime, -, h⟩ := bind_eq_ok.mp h
  obtain ⟨_, -, h⟩ := bind_eq_ok.mp h
  obtain ⟨_, -, h⟩ := bind_eq_ok.mp h
  obtain ⟨e, he, h⟩ := bind_eq_ok.mp h
  rw [require_eq_ok, decide_eq_true_eq] at hmode
  cases h
  exact memberEntry_fits hmode he

theorem parseLayer_fits {tar : TarReader} {expanded : Bytes} {layer : Nat} {members : List Member}
    (h : parseLayer tar expanded layer = .ok members) : ∀ m ∈ members, m.entry.Fits := by
  intro m hm
  obtain ⟨entry, index, hmember⟩ := parseLayer_mem h m hm
  exact parseMember_fits hmember

theorem fits_new : Tree.new.Fits := fun path entry h => by
  rw [Tree.get_new] at h
  cases h

theorem Tree.Fits.insertDefaultDirectory {tree : Tree} (h : tree.Fits) (path : Bytes) :
    (tree.insertDefaultDirectory path).Fits := by
  intro p entry hp
  rw [Tree.get_insertDefaultDirectory] at hp
  split_ifs at hp with hc
  · cases hp
    exact fits_defaultDirectory
  · exact h p entry hp

theorem Tree.Fits.foldl_insertDefaultDirectory : ∀ (paths : List Bytes) {tree : Tree}, tree.Fits →
    (paths.foldl Tree.insertDefaultDirectory tree).Fits
  | [], _, h => h
  | path :: paths, _, h => foldl_insertDefaultDirectory paths (h.insertDefaultDirectory path)

theorem Tree.Fits.insert {tree : Tree} (h : tree.Fits) {path : Bytes} {entry : Entry} (hentry : entry.Fits) :
    (tree.insert path entry).Fits := by
  intro p x hp
  rw [Tree.get_insert] at hp
  split_ifs at hp with hc
  · cases hp
    exact hentry
  · exact h p x hp

/-- An accepted layer keeps the numbers in range. -/
theorem Tree.Fits.applyLayer {lower tree : Tree} {members : List Member} (hlower : lower.Fits)
    (hmembers : ∀ m ∈ members, m.entry.Fits) (h : applyLayer lower members = .ok tree) : tree.Fits := by
  show ∀ p e, tree.view p = some e → e.Fits
  refine (applyLayer_ok h).2.entries ?_ ?_
  · intro p e hp
    rw [view_removeMarkers] at hp
    split_ifs at hp
    exact hlower p e hp
  · intro a ha
    obtain ⟨m, hm, rfl⟩ := List.mem_map.mp ha
    exact ⟨hmembers m (mem_additionsOf.mp hm).1, fun _ _ => fits_defaultDirectory⟩

theorem graphLayers_fits {libraries : Libraries} : ∀ {layers : List (Value × Bytes × Value)} {position : Nat}
    {tree tree' : Tree} {evidence evidence' : List LayerEvidence}, tree.Fits →
    graphLayers libraries position layers tree evidence = .ok (tree', evidence') → tree'.Fits
  | [], _, tree, tree', _, _, hfits, h => by
    cases h
    exact hfits
  | (value, data, diffId) :: rest, position, tree, tree', evidence, evidence', hfits, h => by
    unfold graphLayers at h
    obtain ⟨⟨mid, layer⟩, hlayer, h⟩ := bind_eq_ok.mp h
    refine graphLayers_fits ?_ h
    unfold graphLayer at hlayer
    obtain ⟨_, _, hlayer⟩ := bind_eq_ok.mp hlayer
    obtain ⟨_, _, hlayer⟩ := bind_eq_ok.mp hlayer
    obtain ⟨_, _, hlayer⟩ := bind_eq_ok.mp hlayer
    obtain ⟨_, _, hlayer⟩ := bind_eq_ok.mp hlayer
    obtain ⟨_, _, hlayer⟩ := bind_eq_ok.mp hlayer
    obtain ⟨_, _, hlayer⟩ := bind_eq_ok.mp hlayer
    obtain ⟨_, _, hlayer⟩ := bind_eq_ok.mp hlayer
    obtain ⟨_, _, hlayer⟩ := bind_eq_ok.mp hlayer
    obtain ⟨members, hmembers, hlayer⟩ := bind_eq_ok.mp hlayer
    obtain ⟨applied, happlied, hlayer⟩ := bind_eq_ok.mp hlayer
    obtain ⟨_, _, hlayer⟩ := bind_eq_ok.mp hlayer
    cases hlayer
    exact hfits.applyLayer (parseLayer_fits hmembers) happlied

theorem canonicalRoot_fits {tree tree' : Tree} (hfits : tree.Fits) (h : canonicalRoot tree = .ok tree') :
    tree'.Fits := by
  unfold canonicalRoot at h
  dsimp only at h
  split_ifs at h
  cases h
  exact hfits.insertDefaultDirectory rootPath

theorem parseManifest_fits {libraries : Libraries} {objects : OciObjects} {graph : OciGraph}
    (h : parseManifest libraries objects = .ok graph) : graph.tree.Fits := by
  unfold parseManifest at h
  -- the documents, their descriptors and the lists of layers
  iterate 22 obtain ⟨_, _, h⟩ := bind_eq_ok.mp h
  obtain ⟨⟨layered, evidence⟩, hlayers, h⟩ := bind_eq_ok.mp h
  obtain ⟨tree, hroot, h⟩ := bind_eq_ok.mp h
  obtain ⟨_, _, h⟩ := bind_eq_ok.mp h
  obtain ⟨_, _, h⟩ := bind_eq_ok.mp h
  cases h
  exact canonicalRoot_fits (graphLayers_fits fits_new hlayers) hroot

theorem parseGraph_fits {libraries : Libraries} {objects : OciObjects} {graph : OciGraph}
    (h : parseGraph libraries objects = .ok graph) : graph.tree.Fits := by
  unfold parseGraph at h
  obtain ⟨_, _, h⟩ := bind_eq_ok.mp h
  obtain ⟨_, _, h⟩ := bind_eq_ok.mp h
  obtain ⟨_, _, h⟩ := bind_eq_ok.mp h
  obtain ⟨_, _, h⟩ := bind_eq_ok.mp h
  obtain ⟨_, _, h⟩ := bind_eq_ok.mp h
  exact parseManifest_fits h

end SimFerret.Workload

namespace SimFerret.Store

open Workload Newc

/-- A specification that was read has numbers of `u32` fields. -/
def NumbersFit (codec : Codec CanonicalBinarySpec) : Prop :=
  ∀ bytes canonical, codec.fromSlice bytes = .ok canonical → canonical.uid < 2 ^ 32 ∧ canonical.gid < 2 ^ 32

variable {crates : Crates}

theorem binaryTree_fits {executable : Bytes} {input : BinaryInput} {tree : Tree} {launch : LaunchIdentity}
    (huid : input.uid < 2 ^ 32) (hgid : input.gid < 2 ^ 32)
    (h : binaryTreeAndLaunch executable input = .ok (tree, launch)) : tree.Fits := by
  unfold binaryTreeAndLaunch at h
  -- the credentials, the install path, the arguments and the environment
  iterate 9 obtain ⟨_, _, h⟩ := bind_eq_ok.mp h
  obtain ⟨_, _, h⟩ := bind_eq_ok.mp h
  obtain ⟨_, _, h⟩ := bind_eq_ok.mp h
  obtain ⟨_, _, h⟩ := bind_eq_ok.mp h
  cases h
  exact ((fits_new.insertDefaultDirectory rootPath).foldl_insertDefaultDirectory _).insert
    ⟨show 0o755 < 2 ^ 32 by decide, huid, hgid, show 0 < 2 ^ 32 by decide⟩

theorem replayGraph_fits (hspec : NumbersFit crates.specification) {closure : Closure} {objects : Objects}
    {graph : WorkloadGraph} (h : replayGraph crates closure objects = .ok graph) : graph.tree.Fits := by
  unfold replayGraph at h
  split at h
  · unfold replayBinary at h
    obtain ⟨_, _, h⟩ := bind_eq_ok.mp h
    obtain ⟨_, _, h⟩ := bind_eq_ok.mp h
    obtain ⟨_, _, h⟩ := bind_eq_ok.mp h
    obtain ⟨canonical, hcanonical, h⟩ := bind_eq_ok.mp h
    obtain ⟨_, _, h⟩ := bind_eq_ok.mp h
    obtain ⟨_, _, h⟩ := bind_eq_ok.mp h
    obtain ⟨⟨tree, launch⟩, htree, h⟩ := bind_eq_ok.mp h
    cases h
    obtain ⟨huid, hgid⟩ := hspec _ _ (mapError_eq_ok.mp hcanonical)
    exact binaryTree_fits huid hgid htree
  · unfold replayOci at h
    obtain ⟨_, _, h⟩ := bind_eq_ok.mp h
    obtain ⟨_, _, h⟩ := bind_eq_ok.mp h
    obtain ⟨_, _, h⟩ := bind_eq_ok.mp h
    obtain ⟨_, _, h⟩ := bind_eq_ok.mp h
    obtain ⟨graph', hgraph, h⟩ := bind_eq_ok.mp h
    cases h
    exact parseGraph_fits hgraph

/-- **Whatever `load` returns**, its template is the encoding of its tree, with the trailing record. -/
theorem load_returns (hspec : NumbersFit crates.specification) {loaded : LoadedWorkload}
    (h : (load crates).Returns loaded) :
    loaded.tree.Fits ∧ loaded.tree.template guestTemplateRoot = .ok loaded.template := by
  unfold load at h
  obtain ⟨root, _, h⟩ := h.of_bind
  obtain ⟨closureBytes, _, h⟩ := h.of_bind
  obtain ⟨closure, _, h⟩ := h.of_bind
  obtain ⟨_, _, h⟩ := h.of_bind
  obtain ⟨_, _, h⟩ := h.of_bind
  obtain ⟨_, _, h⟩ := h.of_bind
  obtain ⟨objects, _, h⟩ := h.of_bind
  obtain ⟨derived, hderived, h⟩ := h.of_bind
  obtain ⟨_, _, h⟩ := h.of_bind
  obtain rfl := h.of_pure
  have hrederive := hderived.of_lift
  unfold rederive at hrederive
  obtain ⟨graph, hgraph, hrederive⟩ := bind_eq_ok.mp hrederive
  iterate 5 obtain ⟨_, _, hrederive⟩ := bind_eq_ok.mp hrederive
  obtain ⟨template, htemplate, hrederive⟩ := bind_eq_ok.mp hrederive
  obtain ⟨_, _, hrederive⟩ := bind_eq_ok.mp hrederive
  obtain ⟨_, _, hrederive⟩ := bind_eq_ok.mp hrederive
  cases hrederive
  exact ⟨replayGraph_fits hspec hgraph, htemplate⟩

/-! ## The image -/

/-- The image is one archive: the agent's entries, those of the workload, and one trailing record at the end. -/
def OneArchive (executable : Bytes) (assets : GuestImageAssets) (tree : Tree) (archive : Bytes) : Prop :=
  readNewc archive = some (agentEntries executable assets ++ workloadEntries guestTemplateRoot tree ++
    [trailerEntry])

/-- The template encoding puts its trailing record in front of the last one. -/
theorem guestArchive_template {tree : Tree} (hfits : tree.Fits) {template executable archive : Bytes}
    {assets : GuestImageAssets} (htemplate : tree.template guestTemplateRoot = .ok template)
    (h : guestArchive executable assets (some template) = .ok archive) :
    readNewc archive = some (agentEntries executable assets ++ workloadEntries guestTemplateRoot tree ++
      [trailerEntry, trailerEntry]) ∧ ¬ OneArchive executable assets tree archive := by
  have hread := readNewc_guestArchive (encodes_template hfits htemplate) h
  rw [← List.append_assoc, List.append_assoc, List.singleton_append] at hread
  refine ⟨hread, fun hone => ?_⟩
  rw [OneArchive, hread, Option.some.injEq] at hone
  have hlength := congrArg List.length hone
  simp at hlength

/-- With the entries alone, as the tests assemble them, it is one archive. -/
theorem guestArchive_entries {tree : Tree} (hfits : tree.Fits) {entries executable archive : Bytes}
    {assets : GuestImageAssets} (hentries : tree.templateEntries guestTemplateRoot = .ok entries)
    (h : guestArchive executable assets (some entries) = .ok archive) :
    OneArchive executable assets tree archive :=
  readNewc_guestArchive (encodes_templateEntries hfits hentries) h

/-- **The image of a loaded workload is never one archive**: a reader finds a second trailing record, between the
workload's entries and the last one. -/
theorem guestArchive_two_trailers (hspec : NumbersFit crates.specification) {loaded : LoadedWorkload}
    (hload : (load crates).Returns loaded) {executable archive : Bytes} {assets : GuestImageAssets}
    (h : guestArchive executable assets (some loaded.template) = .ok archive) :
    readNewc archive = some (agentEntries executable assets ++ workloadEntries guestTemplateRoot loaded.tree ++
      [trailerEntry, trailerEntry]) ∧ ¬ OneArchive executable assets loaded.tree archive := by
  obtain ⟨hfits, htemplate⟩ := load_returns hspec hload
  exact guestArchive_template hfits htemplate h

/-! ## A sample image -/

theorem evaluate_returns {α : Type} {x : Action α} {d : Disk} {a : α} (h : evaluate x d = .ok a) :
    x.Returns a := by
  have hrun := Prog.returns_run (perform 0) (x 0) d
  refine ⟨0, ((x 0).run (perform 0) d).1.2, ?_⟩
  rw [← h]
  exact hrun

theorem appendAgentCpio_built (output : Bytes) {name : Text} {contents : Bytes} (mode : Nat)
    (hcontents : contents.length < 2 ^ 32) (hname : name.length + 1 < 2 ^ 32) :
    ∃ out, appendAgentCpio output name mode contents = .ok out := by
  unfold appendAgentCpio
  rw [require_eq_ok (u := ()) |>.mpr (decide_eq_true hcontents),
    require_eq_ok (u := ()) |>.mpr (decide_eq_true hname)]
  exact ⟨_, rfl⟩

theorem built_bind {α β : Type} {x : IoResult α} {f : α → IoResult β} (hx : ∃ a, x = .ok a)
    (hf : ∀ a, x = .ok a → ∃ b, f a = .ok b) : ∃ b, (x >>= f) = .ok b := by
  obtain ⟨a, rfl⟩ := hx
  exact hf a rfl

/-- The image is built unless a file is too large or the executable names an interpreter. -/
theorem guestArchive_built {executable : Bytes} {assets : GuestImageAssets}
    (helf : elfHasInterpreter executable = .ok false)
    (hsizes : ∀ contents ∈ [executable, assets.busybox, assets.mii, assets.rtl8139cp], contents.length < 2 ^ 32)
    (template : Option Bytes) : ∃ archive, guestArchive executable assets template = .ok archive := by
  have hdirectory : ∀ (output : Bytes) (name : Text), name.length + 1 < 2 ^ 32 →
      ∃ out, appendAgentCpio output name 0o040755 [] = .ok out := fun output name =>
    appendAgentCpio_built output 0o040755 (by decide)
  unfold guestArchive
  refine built_bind ⟨false, helf⟩ fun interpreted hinterpreted => ?_
  cases helf.symm.trans hinterpreted
  refine built_bind ⟨(), rfl⟩ fun _ _ => ?_
  refine built_bind (hdirectory _ _ (by decide)) fun _ _ => built_bind (hdirectory _ _ (by decide)) fun _ _ => ?_
  refine built_bind (hdirectory _ _ (by decide)) fun _ _ => built_bind (hdirectory _ _ (by decide)) fun _ _ => ?_
  refine built_bind (hdirectory _ _ (by decide)) fun _ _ => built_bind (hdirectory _ _ (by decide)) fun _ _ => ?_
  refine built_bind (hdirectory _ _ (by decide)) fun _ _ => ?_
  refine built_bind (appendAgentCpio_built _ _ (hsizes _ (by simp)) (by decide)) fun _ _ => ?_
  refine built_bind (appendAgentCpio_built _ _ (hsizes _ (by simp)) (by decide)) fun _ _ => ?_
  refine built_bind (appendAgentCpio_built _ _ (hsizes _ (by simp)) (by decide)) fun _ _ => ?_
  refine built_bind (appendAgentCpio_built _ _ (hsizes _ (by simp)) (by decide)) fun _ _ => ?_
  exact appendAgentCpio_built _ _ (by decide) (by decide)

def sampleAssets : GuestImageAssets := ⟨[1], [2], [3]⟩

/-- The sample store loads, and the sample executable goes into an image. -/
theorem sampleStore_built : NumbersFit sampleCrates.specification ∧ ∃ loaded archive,
    (load sampleCrates).Returns loaded ∧
      guestArchive sampleExecutable sampleAssets (some loaded.template) = .ok archive := by
  obtain ⟨hload, -, -⟩ := sampleStore_loads
  obtain ⟨loaded, hloaded, -⟩ := exists_ok_of_map (hload sampleStore List.mem_cons_self)
  have hsizes : ∀ contents ∈ [sampleExecutable, sampleAssets.busybox, sampleAssets.mii, sampleAssets.rtl8139cp],
      contents.length < 2 ^ 32 := by decide +kernel
  obtain ⟨archive, harchive⟩ := guestArchive_built (show elfHasInterpreter sampleExecutable =
    .ok false by decide +kernel) hsizes (some loaded.template)
  refine ⟨fun bytes canonical h => ?_, loaded, archive, evaluate_returns hloaded, harchive⟩
  unfold sampleCrates sampleCodec at h
  dsimp only at h
  split_ifs at h
  cases h
  decide

theorem guestArchive_two_trailers_sample : ∃ loaded archive, (load sampleCrates).Returns loaded ∧
    guestArchive sampleExecutable sampleAssets (some loaded.template) = .ok archive ∧
    readNewc archive = some (agentEntries sampleExecutable sampleAssets ++
      workloadEntries guestTemplateRoot loaded.tree ++ [trailerEntry, trailerEntry]) := by
  obtain ⟨hspec, loaded, archive, hload, harchive⟩ := sampleStore_built
  exact ⟨loaded, archive, hload, harchive, (guestArchive_two_trailers hspec hload harchive).1⟩

/-- The image of the sample store is not one archive. -/
theorem sampleImage_two_archives : ¬ ∀ (crates : Crates), NumbersFit crates.specification →
    ∀ loaded, (load crates).Returns loaded → ∀ executable assets archive,
      guestArchive executable assets (some loaded.template) = .ok archive →
      OneArchive executable assets loaded.tree archive := by
  intro hclaim
  obtain ⟨hspec, loaded, archive, hload, harchive⟩ := sampleStore_built
  obtain ⟨hfits, htemplate⟩ := load_returns hspec hload
  exact (guestArchive_template hfits htemplate harchive).2 (hclaim _ hspec loaded hload _ _ archive harchive)

end SimFerret.Store
