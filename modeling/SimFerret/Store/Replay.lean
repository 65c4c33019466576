import SimFerret.Workload.PathLaws
import SimFerret.Store.Runs

/-!
# SimFerret.Store.Replay — the graph that replay re-derives from a published one

Assembly normalizes a source; replay normalizes what assembly recorded.

* `normalizeWorkingDirectory_again`: a normalized working directory is normalized already.
* `replayBinary_binaryGraphOf`: replay re-derives the graph of a binary.
* `replayOci_ociGraphOf`: it re-derives the graph of an image once the lowercase digest selects its manifest.
-/

namespace SimFerret.Store

open Workload

/-! ## Launch fields -/

theorem normalizeArguments_ok {values result : List Text} {field : Text}
    (h : normalizeArguments values field = .ok result) : result = values := by
  obtain ⟨_, _, h⟩ := bind_eq_ok.mp h
  obtain ⟨_, _, h⟩ := bind_eq_ok.mp h
  exact (pure_eq_ok.mp h).symm

theorem normalizeEnvironment_ok {values result : List Text} (h : normalizeEnvironment values = .ok result) :
    result = values := by
  obtain ⟨_, _, h⟩ := bind_eq_ok.mp h
  obtain ⟨_, _, h⟩ := bind_eq_ok.mp h
  exact (pure_eq_ok.mp h).symm

theorem trimStartSlashes_eq {value : Text} (h : value.head? ≠ some slash) : trimStartSlashes value = value := by
  cases value with
  | nil => rfl
  | cons first rest =>
    refine List.dropWhile_cons_of_neg ?_
    simpa using h

/-- A canonical path does not end in a separator. -/
theorem getLast?_canonical {path : Bytes} (h : CanonicalPath path) : path.getLast? ≠ some slash := by
  by_cases hroot : path = rootPath
  · rw [hroot]
    decide
  · have hplain := h.plainParts
    rw [← joinComponents_components path]
    obtain ⟨front, last, hparts⟩ := (List.eq_nil_or_concat' (Workload.components path)).resolve_left
      (components_ne_nil hroot)
    have hlast : PlainComponent last ∧ slash ∉ last := hplain last (by rw [hparts]; simp)
    have hend : ∀ bytes : Bytes, (bytes ++ last).getLast? ≠ some slash := by
      intro bytes hget
      rw [List.getLast?_append_of_ne_nil _ hlast.1.1] at hget
      exact hlast.2 (List.mem_of_getLast? hget)
    rw [hparts]
    by_cases hfront : front = []
    · subst hfront
      rw [List.nil_append, joinComponents_singleton]
      exact hend []
    · rw [joinComponents_snoc hfront, List.append_cons]
      exact hend _

theorem trimSlashes_canonical {path : Bytes} (h : CanonicalPath path) : trimSlashes (slash :: path) = path := by
  have hfront : trimStartSlashes (slash :: path) = path := by
    rw [trimStartSlashes, List.dropWhile_cons_of_pos (by simp)]
    exact trimStartSlashes_eq h.relative
  have hback : trimStartSlashes path.reverse = path.reverse := by
    refine trimStartSlashes_eq ?_
    rw [List.head?_reverse]
    exact getLast?_canonical h
  rw [trimSlashes, hfront, hback, List.reverse_reverse]

/-- What replay normalizes again stays as it is. -/
theorem normalizeWorkingDirectory_again {value : Option Text} {tree : Tree} {directory : Text}
    (h : normalizeWorkingDirectory value tree = .ok directory) :
    normalizeWorkingDirectory (some directory) tree = .ok directory := by
  obtain ⟨_, _, h⟩ := bind_eq_ok.mp h
  obtain ⟨relative, hrelative, h⟩ := bind_eq_ok.mp h
  obtain ⟨_, hlinks, h⟩ := bind_eq_ok.mp h
  obtain ⟨_, hkind, h⟩ := bind_eq_ok.mp h
  have hcanonical : CanonicalPath relative := by
    unfold workingDirectoryPath at hrelative
    split_ifs at hrelative with hroot
    · cases hrelative
      exact canonicalPath_root
    · split at hrelative
      next path hpath =>
        cases hrelative
        exact normalizeLayerPath_canonical hpath
      · cases hrelative
  by_cases hroot : relative = rootPath
  · rw [if_pos hroot] at h
    obtain rfl := pure_eq_ok.mp h
    subst hroot
    refine bind_eq_ok.mpr ⟨(), require_eq_ok.mpr (by decide), bind_eq_ok.mpr ⟨rootPath, ?_, ?_⟩⟩
    · exact if_pos (by decide)
    · exact bind_eq_ok.mpr ⟨(), hlinks, bind_eq_ok.mpr ⟨(), hkind, rfl⟩⟩
  · rw [if_neg hroot] at h
    obtain ⟨_, hvalid, h⟩ := bind_eq_ok.mp h
    obtain rfl := pure_eq_ok.mp h
    have hne : relative ≠ [] := by
      rintro rfl
      exact (hcanonical.plainParts [] (by decide)).1.1 rfl
    have hpath : workingDirectoryPath (slash :: relative) = .ok relative := by
      unfold workingDirectoryPath
      rw [trimSlashes_canonical hcanonical, if_neg hne, normalizeLayerPath_of_canonical hcanonical]
    refine bind_eq_ok.mpr ⟨(), require_eq_ok.mpr (by simp), bind_eq_ok.mpr ⟨relative, hpath, ?_⟩⟩
    refine bind_eq_ok.mpr ⟨(), hlinks, bind_eq_ok.mpr ⟨(), hkind, ?_⟩⟩
    rw [if_neg hroot]
    exact bind_eq_ok.mpr ⟨(), hvalid, rfl⟩

/-- The launch identity and the tree come out again. -/
theorem binaryTreeAndLaunch_again {executable : Bytes} {input : BinaryInput} {tree : Tree}
    {launch : LaunchIdentity} (h : binaryTreeAndLaunch executable input = .ok (tree, launch)) :
    launch.arguments = input.arguments ∧ launch.environment = input.environment ∧
      binaryTreeAndLaunch executable { input with workingDirectory := launch.workingDirectory } =
          .ok (tree, launch) := by
  obtain ⟨_, hroot, h⟩ := bind_eq_ok.mp h
  obtain ⟨_, hreserved, h⟩ := bind_eq_ok.mp h
  obtain ⟨_, hinstall, h⟩ := bind_eq_ok.mp h
  obtain ⟨install, hpath, h⟩ := bind_eq_ok.mp h
  obtain ⟨_, hfile, h⟩ := bind_eq_ok.mp h
  obtain ⟨_, hvalid, h⟩ := bind_eq_ok.mp h
  obtain ⟨arguments, harguments, h⟩ := bind_eq_ok.mp h
  obtain ⟨_, hhead, h⟩ := bind_eq_ok.mp h
  obtain ⟨environment, henvironment, h⟩ := bind_eq_ok.mp h
  obtain ⟨workingDirectory, hdirectory, h⟩ := bind_eq_ok.mp h
  obtain ⟨_, htree, h⟩ := bind_eq_ok.mp h
  obtain ⟨_, hlaunch, h⟩ := bind_eq_ok.mp h
  cases h
  refine ⟨normalizeArguments_ok harguments, normalizeEnvironment_ok henvironment, ?_⟩
  refine bind_eq_ok.mpr ⟨(), hroot, bind_eq_ok.mpr ⟨(), hreserved, bind_eq_ok.mpr ⟨(), hinstall, ?_⟩⟩⟩
  refine bind_eq_ok.mpr ⟨install, hpath, bind_eq_ok.mpr ⟨(), hfile, bind_eq_ok.mpr ⟨(), hvalid, ?_⟩⟩⟩
  refine bind_eq_ok.mpr ⟨arguments, harguments,
    bind_eq_ok.mpr ⟨(), hhead, bind_eq_ok.mpr ⟨environment, henvironment, ?_⟩⟩⟩
  refine bind_eq_ok.mpr ⟨workingDirectory, normalizeWorkingDirectory_again hdirectory, ?_⟩
  exact bind_eq_ok.mpr ⟨(), htree, bind_eq_ok.mpr ⟨(), hlaunch, rfl⟩⟩

/-! ## Objects by role -/

section Roles

variable {objects : Objects} {role : Text} {data : Bytes}

theorem objectOf_of_mem (hnodup : (objects.map Prod.fst).Nodup) (h : (role, data) ∈ objects) :
    objectOf objects role = some data := by
  induction objects with
  | nil => exact absurd h List.not_mem_nil
  | cons first objects ih =>
    rw [List.map_cons, List.nodup_cons] at hnodup
    rcases List.mem_cons.mp h with rfl | h
    · simp [objectOf]
    · have hne : role ≠ first.1 := fun heq => hnodup.1 (heq ▸ List.mem_map.mpr ⟨_, h, rfl⟩)
      have hskip : (role == first.1) = false := by simpa using hne
      rw [objectOf, List.lookup_cons, hskip]
      exact ih hnodup.2 h

theorem sortRoles_perm (objects : List (Text × Bytes)) : (sortRoles objects).Perm objects :=
  List.perm_insertionSort _ objects

/-- Sorting by role does not change what is found under a role. -/
theorem objectOf_sortRoles (hnodup : (objects.map Prod.fst).Nodup) (h : (role, data) ∈ objects) :
    objectOf (sortRoles objects) role = some data := by
  refine objectOf_of_mem ?_ ((sortRoles_perm objects).mem_iff.mpr h)
  exact ((sortRoles_perm objects).map Prod.fst).nodup_iff.mpr hnodup

theorem nodup_sortRoles (hnodup : (objects.map Prod.fst).Nodup) : ((sortRoles objects).map Prod.fst).Nodup :=
  ((sortRoles_perm objects).map Prod.fst).nodup_iff.mpr hnodup

theorem layerRole_injective {position other : Nat} (h : layerRole position = layerRole other) :
    position = other := by
  have hdigits := congrArg digitsValue (List.append_cancel_left h)
  rwa [digitsValue_decimal, digitsValue_decimal] at hdigits

/-- The objects of an image, as they were read. -/
def imageObjects (objects : OciObjects) : List (Text × Bytes) :=
  [(utf8 "oci-layout", objects.layout), (utf8 "index.json", objects.index), (utf8 "manifest", objects.manifest),
    (utf8 "config", objects.config)] ++ objects.layers.mapIdx fun position layer => (layerRole position, layer)

theorem nodup_imageObjects (objects : OciObjects) : ((imageObjects objects).map Prod.fst).Nodup := by
  have hlayers : ((objects.layers.mapIdx fun position layer => (layerRole position, layer)).map Prod.fst) =
      (List.range objects.layers.length).map layerRole := by
    refine List.ext_getElem (by simp) fun i h1 h2 => ?_
    simp
  have hnamed : ∀ name ∈ [utf8 "oci-layout", utf8 "index.json", utf8 "manifest", utf8 "config"],
      name.head? ≠ some 108 := by decide
  have hhead : ∀ position, (layerRole position).head? = some 108 := fun position => by
    rw [layerRole, show utf8 "layer-" = 108 :: utf8 "ayer-" by decide]
    rfl
  rw [imageObjects, List.map_append, hlayers, List.nodup_append]
  refine ⟨?_, ?_, ?_⟩
  · show [utf8 "oci-layout", utf8 "index.json", utf8 "manifest", utf8 "config"].Nodup
    decide
  · exact (List.nodup_range).map fun _ _ h => layerRole_injective h
  · intro name hname other hother heq
    obtain ⟨position, -, rfl⟩ := List.mem_map.mp hother
    exact hnamed name hname (heq ▸ hhead position)

end Roles

/-! ## Binaries -/

section Binary

variable {crates : Crates} {source : BinarySource} {executable : Bytes} {graph : WorkloadGraph}
  {candidate : Candidate}

theorem nodup_binaryRoles (executable specification : Bytes) :
    ([(utf8 "executable", executable), (utf8 "workload-specification", specification)].map Prod.fst).Nodup := by
  show [utf8 "executable", utf8 "workload-specification"].Nodup
  decide

/-- **Replay re-derives a binary's graph** from its executable and its canonical specification. -/
theorem replayBinary_binaryGraphOf (hfaithful : crates.Faithful)
    (h : binaryGraphOf crates source executable = .ok graph) :
    graph.kind = .binary ∧ (graph.objects.map Prod.fst).Nodup ∧
      ∃ again, replayBinary crates graph.objects = .ok again ∧ again.tree = graph.tree ∧
        again.launch = graph.launch ∧ again.layers = graph.layers := by
  obtain ⟨_, helf, h⟩ := bind_eq_ok.mp h
  obtain ⟨⟨uid, gid⟩, huser, h⟩ := bind_eq_ok.mp h
  obtain ⟨install, hinstall, h⟩ := bind_eq_ok.mp h
  obtain ⟨arguments, harguments, h⟩ := bind_eq_ok.mp h
  obtain ⟨environment, henvironment, h⟩ := bind_eq_ok.mp h
  obtain ⟨⟨tree, launch⟩, htree, h⟩ := bind_eq_ok.mp h
  obtain ⟨specification, hspecification, h⟩ := bind_eq_ok.mp h
  obtain rfl := pure_eq_ok.mp h
  obtain ⟨bytes, hbytes, hwritten⟩ := bind_eq_ok.mp hspecification
  obtain rfl := pure_eq_ok.mp hwritten
  obtain ⟨hargs, henv, hagain⟩ := binaryTreeAndLaunch_again htree
  have hparsed := hfaithful.specification _ _ (mapError_eq_ok.mp hbytes)
  have hroles := nodup_binaryRoles executable (bytes ++ [10])
  have hspec : objectOf (binaryObjects executable (bytes ++ [10])) "workload-specification" =
      some (bytes ++ [10]) :=
    objectOf_sortRoles hroles (by simp)
  have hexe : objectOf (binaryObjects executable (bytes ++ [10])) "executable" = some executable :=
    objectOf_sortRoles hroles (by simp)
  have hlength : (binaryObjects executable (bytes ++ [10])).length = 2 := (sortRoles_perm _).length_eq
  refine ⟨rfl, nodup_sortRoles hroles, ⟨.binary, none, sortRoles (binaryObjects executable (bytes ++ [10])),
    tree, launch, []⟩, ?_, rfl, rfl, rfl⟩
  refine bind_eq_ok.mpr ⟨_, okOr_eq_ok.mpr hspec, bind_eq_ok.mpr ⟨_, okOr_eq_ok.mpr hexe, ?_⟩⟩
  refine bind_eq_ok.mpr ⟨(), require_eq_ok.mpr (by simpa using hlength), ?_⟩
  refine bind_eq_ok.mpr ⟨_, mapError_eq_ok.mpr hparsed, bind_eq_ok.mpr ⟨(), require_eq_ok.mpr (by simp), ?_⟩⟩
  refine bind_eq_ok.mpr ⟨(), helf, bind_eq_ok.mpr ⟨(tree, launch), ?_, rfl⟩⟩
  rw [← hagain, hargs, henv]

end Binary

/-! ## Images -/

section Image

variable {crates : Crates} {objects : OciObjects} {graph : WorkloadGraph} {closure : Closure} {hexDigits : Text}

/-- The same image, its manifest digest spelled as replay spells it. -/
def respelled (objects : OciObjects) (hexDigits : Text) : OciObjects :=
    { objects with manifestDigest := digestPrefix ++ hexDigits }

theorem graphLayers_length {libraries : Libraries} {layers : List (Value × Bytes × Value)} {position : Nat}
    {tree tree' : Tree} {evidence evidence' : List LayerEvidence}
    (h : graphLayers libraries position layers tree evidence = .ok (tree', evidence')) :
    evidence'.length = evidence.length + layers.length := by
  induction layers generalizing position tree evidence with
  | nil =>
    cases h
    rfl
  | cons layer layers ih =>
    obtain ⟨⟨next, entry⟩, _, h⟩ := bind_eq_ok.mp h
    rw [ih h]
    simp only [List.length_append, List.length_cons, List.length_nil]
    omega

/-- One record of evidence for each layer. -/
theorem parseManifest_length {libraries : Libraries} {parsed : OciGraph}
    (h : parseManifest libraries objects = .ok parsed) : parsed.layers.length = objects.layers.length := by
  obtain ⟨_, _, h⟩ := bind_eq_ok.mp h
  obtain ⟨_, _, h⟩ := bind_eq_ok.mp h
  obtain ⟨_, _, h⟩ := bind_eq_ok.mp h
  obtain ⟨_, _, h⟩ := bind_eq_ok.mp h
  obtain ⟨_, _, h⟩ := bind_eq_ok.mp h
  obtain ⟨_, _, h⟩ := bind_eq_ok.mp h
  obtain ⟨_, _, h⟩ := bind_eq_ok.mp h
  obtain ⟨_, _, h⟩ := bind_eq_ok.mp h
  obtain ⟨_, _, h⟩ := bind_eq_ok.mp h
  obtain ⟨_, _, h⟩ := bind_eq_ok.mp h
  obtain ⟨_, _, h⟩ := bind_eq_ok.mp h
  obtain ⟨_, _, h⟩ := bind_eq_ok.mp h
  obtain ⟨layerValues, _, h⟩ := bind_eq_ok.mp h
  obtain ⟨_, _, h⟩ := bind_eq_ok.mp h
  obtain ⟨_, _, h⟩ := bind_eq_ok.mp h
  obtain ⟨_, hlayers, h⟩ := bind_eq_ok.mp h
  obtain ⟨_, _, h⟩ := bind_eq_ok.mp h
  obtain ⟨_, _, h⟩ := bind_eq_ok.mp h
  obtain ⟨_, _, h⟩ := bind_eq_ok.mp h
  obtain ⟨_, _, h⟩ := bind_eq_ok.mp h
  obtain ⟨diffIds, _, h⟩ := bind_eq_ok.mp h
  obtain ⟨_, hdiffIds, h⟩ := bind_eq_ok.mp h
  obtain ⟨⟨tree, evidence⟩, hgraph, h⟩ := bind_eq_ok.mp h
  obtain ⟨_, _, h⟩ := bind_eq_ok.mp h
  obtain ⟨_, _, h⟩ := bind_eq_ok.mp h
  obtain ⟨_, _, h⟩ := bind_eq_ok.mp h
  obtain rfl := pure_eq_ok.mp h
  have hlayers' : layerValues.length = objects.layers.length := by simpa using require_eq_ok.mp hlayers
  have hdiffIds' : diffIds.length = layerValues.length := by simpa using require_eq_ok.mp hdiffIds
  have hlength := graphLayers_length hgraph
  simp only [List.length_nil, List.length_zip] at hlength
  show evidence.length = _
  omega

theorem bind_of_eq_ok {α β : Type} {x : IoResult α} {a : α} (h : x = .ok a)
    (f : α → IoResult β) : (x >>= f) = f a := by
  rw [h]
  rfl

/-- The recorded digest reaches the graph only through the descriptor that it selects. -/
theorem parseGraph_respelled {libraries : Libraries} {parsed : OciGraph}
    (h : parseGraph libraries objects = .ok parsed) : parseGraph libraries (respelled objects hexDigits) =
      (selectManifest libraries (respelled objects hexDigits) >>= fun _ => .ok parsed) := by
  obtain ⟨layout, hlayout, h⟩ := bind_eq_ok.mp h
  obtain ⟨map, hmap, h⟩ := bind_eq_ok.mp h
  obtain ⟨version, hversion, h⟩ := bind_eq_ok.mp h
  obtain ⟨_, hsame, h⟩ := bind_eq_ok.mp h
  obtain ⟨_, -, hmanifest⟩ := bind_eq_ok.mp h
  have hmanifest' : parseManifest libraries (respelled objects hexDigits) = .ok parsed := hmanifest
  have hlayout' : parseJson libraries (respelled objects hexDigits).layout "oci-layout" = .ok layout := hlayout
  refine (bind_of_eq_ok hlayout' _).trans ?_
  refine (bind_of_eq_ok hmap _).trans ?_
  refine (bind_of_eq_ok hversion _).trans ?_
  refine (bind_of_eq_ok hsame _).trans ?_
  rw [hmanifest']

theorem mapM_ok {α β : Type} {f : α → IoResult β} {g : α → β} : ∀ {l : List α}, (∀ a ∈ l, f a = .ok (g a)) →
    l.mapM f = .ok (l.map g)
  | [], _ => rfl
  | a :: l, h => by
    rw [List.mapM_cons, h a List.mem_cons_self]
    show (l.mapM f >>= _) = _
    rw [mapM_ok fun b hb => h b (List.mem_cons_of_mem a hb)]
    rfl

theorem length_imageObjects (objects : OciObjects) :
    (imageObjects objects).length = 4 + objects.layers.length := by
  simp [imageObjects]
  omega

/-- **Replay of an image** takes back everything that assembly recorded, but for the digest: it is spelled in
lower case, and selects the manifest anew. -/
theorem replayOci_ociGraphOf (h : ociGraphOf crates objects = .ok graph)
    (hdigest : parseDigest objects.manifestDigest = .ok hexDigits)
    (hrecorded : closure.manifestDigest = some objects.manifestDigest) (hlayers : closure.layers = graph.layers) :
    replayOci crates closure graph.objects =
      (selectManifest crates.toLibraries (respelled objects hexDigits) >>= fun _ =>
        .ok ⟨.oci, some (digestPrefix ++ hexDigits), sortRoles graph.objects, graph.tree, graph.launch,
            graph.layers⟩) := by
  obtain ⟨parsed, hparsed, h⟩ := bind_eq_ok.mp h
  obtain rfl := pure_eq_ok.mp h
  have hcount : closure.layers.length = objects.layers.length := by
    obtain ⟨_, _, hrest⟩ := bind_eq_ok.mp hparsed
    obtain ⟨_, _, hrest⟩ := bind_eq_ok.mp hrest
    obtain ⟨_, _, hrest⟩ := bind_eq_ok.mp hrest
    obtain ⟨_, _, hrest⟩ := bind_eq_ok.mp hrest
    obtain ⟨_, _, hmanifest⟩ := bind_eq_ok.mp hrest
    rw [hlayers]
    exact parseManifest_length hmanifest
  have hfind : ∀ role data, (role, data) ∈ imageObjects objects → objectOf (ociRoles objects) role = some data :=
    fun role data hmem => objectOf_sortRoles (nodup_imageObjects objects) hmem
  have hlayout : objectOf (ociRoles objects) (utf8 "oci-layout") = some objects.layout :=
    hfind _ _ (by simp [imageObjects])
  have hindex : objectOf (ociRoles objects) (utf8 "index.json") = some objects.index :=
    hfind _ _ (by simp [imageObjects])
  have hmanifest : objectOf (ociRoles objects) (utf8 "manifest") = some objects.manifest :=
    hfind _ _ (by simp [imageObjects])
  have hconfig : objectOf (ociRoles objects) (utf8 "config") = some objects.config :=
    hfind _ _ (by simp [imageObjects])
  have hlayer : ∀ position (hposition : position < objects.layers.length),
      objectOf (ociRoles objects) (layerRole position) = some objects.layers[position] := by
    intro position hposition
    refine hfind _ _ (List.mem_append_right _ ?_)
    rw [List.mem_mapIdx]
    exact ⟨position, hposition, rfl⟩
  have hexpected : ((ociRoles objects).length == (expectedOciRoles closure.layers.length).length &&
      (expectedOciRoles closure.layers.length).all fun role =>
          (objectOf (ociRoles objects) role).isSome) = true := by
    have hlength : (ociRoles objects).length = 4 + objects.layers.length :=
      (sortRoles_perm _).length_eq.trans (length_imageObjects objects)
    rw [Bool.and_eq_true, List.all_eq_true]
    refine ⟨?_, fun role hrole => ?_⟩
    · rw [hlength, hcount]
      simp [expectedOciRoles]
      omega
    · rcases List.mem_append.mp hrole with hrole | hrole
      · simp only [List.mem_cons, List.not_mem_nil, or_false] at hrole
        rcases hrole with rfl | rfl | rfl | rfl
        · rw [hconfig]; rfl
        · rw [hindex]; rfl
        · rw [hmanifest]; rfl
        · rw [hlayout]; rfl
      · obtain ⟨position, hposition, rfl⟩ := List.mem_map.mp hrole
        rw [hcount, List.mem_range] at hposition
        rw [hlayer position hposition]
        rfl
  have hmany : (List.range closure.layers.length).mapM (fun position =>
      okOr (objectOf (ociRoles objects) (layerRole position)) (invalid "OCI closure is missing a layer object")) =
        .ok objects.layers := by
    rw [hcount, mapM_ok (g := fun position => objects.layers.getD position [])]
    · refine congrArg Except.ok (List.ext_getElem (by simp) fun i h1 h2 => ?_)
      simp [h2]
    · intro position hposition
      rw [hlayer position (List.mem_range.mp hposition)]
      simp [okOr, List.mem_range.mp hposition]
  have hgraph := @parseGraph_respelled objects hexDigits crates.toLibraries parsed hparsed
  have hobjects : (⟨(objectOf (ociRoles objects) "oci-layout").getD [],
      (objectOf (ociRoles objects) "index.json").getD [],
      (objectOf (ociRoles objects) "manifest").getD [], (objectOf (ociRoles objects) "config").getD [],
        objects.layers, digestPrefix ++ hexDigits⟩ : OciObjects) = respelled objects hexDigits := by
    rw [hlayout, hindex, hmanifest, hconfig]
    rfl
  refine (bind_of_eq_ok (okOr_eq_ok.mpr hrecorded) _).trans ?_
  refine (bind_of_eq_ok (mapError_eq_ok.mpr hdigest) _).trans ?_
  refine (bind_of_eq_ok (a := ()) (require_eq_ok.mpr hexpected) _).trans ?_
  refine (bind_of_eq_ok hmany _).trans ?_
  dsimp only
  rw [hobjects, hgraph]
  cases selectManifest crates.toLibraries (respelled objects hexDigits) <;> rfl

end Image

end SimFerret.Store
