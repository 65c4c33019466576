import SimFerret.Store.Recovery
import SimFerret.Store.Replay

/-!
# SimFerret.Store.Roundtrip — what was assembled is loaded

* `collisionless_of_ok`: a publication into an empty store that returns has met no two objects of one digest.
* `gives_load_rederived`, `gives_load_unreplayed`: loading a published store, by what replay makes of its objects.
* `assemble_load`: **a source that is assembled into an empty store is loaded with its identity, exactly if the
  image's index also selects the manifest under the canonical spelling of its digest**.
-/

namespace SimFerret.Store

open Workload

/-! ## Objects of one digest -/

section Collisions

variable {crates : Crates} {process : Process} {n m : Nat} {d d' : Disk} {data : Bytes}

/-- The directory of the objects is there, and each file in it was written under its digest. -/
structure Stocked (crates : Crates) (process : Process) (d : Disk) : Prop where
  closed : Closed d
  way : Way process.uid d objectsDirectory
  objects : ∀ data node, d.get (objectAt (crates.digest data)) = some node →
    ∃ other, crates.digest other = crates.digest data ∧ node = ownFile process.uid other

/-- Under the digest there is another object. -/
theorem gives_writeObject_corrupt {other : Bytes} (hclosed : Closed d) (hne : other ≠ data)
    (hget : d.get (objectAt (crates.digest data)) = some (ownFile process.uid other)) :
    ∃ e, Gives process.uid (writeObject crates process ⟨[]⟩ data) n d (.error e) n d := by
  have hsplit := splitRelative_objectPath (component_digest crates data)
  by_cases hlength : other.length ≤ data.length
  · refine ⟨_, Gives.bind (gives_readFileIfExists hsplit hclosed hget hlength) (Gives.lift_bind_error (if_neg ?_))⟩
    simpa using hne
  · exact ⟨_, Gives.bind_error (Gives.bind (gives_openRegular hsplit hclosed hget)
      (Gives.lift_bind_error (if_neg (by simpa using hlength))))⟩

/-- An object that was written is there, with those that were there before. -/
theorem Stocked.wrote (h : Stocked crates process d)
    (hok : Gives process.uid (writeObject crates process ⟨[]⟩ data) n d (.ok ()) m d') :
    Stocked crates process d' ∧ d'.get (objectAt (crates.digest data)) = some (ownFile process.uid data) ∧
      ∀ other node, d.get (objectAt (crates.digest other)) = some node →
          d'.get (objectAt (crates.digest other)) = some node := by
  cases hget : d.get (objectAt (crates.digest data)) with
  | none =>
    by_cases hfree : d.get (objectsDirectory ++ [stagingAt process (crates.digest data) n]) = none
    · obtain ⟨d₁, hgives, hclosed, hget₁⟩ := gives_writeObject h.closed h.way hget hfree
      obtain rfl := (hgives.unique hok).2
      refine ⟨⟨hclosed, h.way.of_get fun front _ hfront => ?_, fun other node hnode => ?_⟩,
        by rw [hget₁, if_pos rfl], fun other node hnode => ?_⟩
      · rw [hget₁, if_neg]
        rintro rfl
        exact absurd hfront.length_le (by simp [objectAt, objectsDirectory])
      · rw [hget₁] at hnode
        split_ifs at hnode with hsame
        · exact ⟨data, (objectAt_inj.mp hsame).symm, (Option.some.inj hnode).symm⟩
        · exact h.objects other node hnode
      · rw [hget₁, if_neg, hnode]
        intro hsame
        rw [hsame, hget] at hnode
        cases hnode
    · obtain ⟨e, hgives⟩ := gives_writeObject_taken h.way hget hfree
      cases (hgives.unique hok).1
  | some node =>
    obtain ⟨other, -, rfl⟩ := h.objects data node hget
    by_cases hsame : other = data
    · subst hsame
      obtain rfl := ((gives_writeObject_there h.closed hget).unique hok).2
      exact ⟨h, hget, fun _ _ hnode => hnode⟩
    · obtain ⟨e, hgives⟩ := @gives_writeObject_corrupt crates process n d data other h.closed hsame hget
      cases (hgives.unique hok).1

theorem Stocked.wroteAll {objects : List (Text × Bytes)} (h : Stocked crates process d)
    (hok : Gives process.uid (Routine.forEach (fun object => writeObject crates process ⟨[]⟩ object.2) objects)
      n d (.ok ()) m d') :
    (∀ object ∈ objects, d'.get (objectAt (crates.digest object.2)) = some (ownFile process.uid object.2)) ∧
      ∀ other node, d.get (objectAt (crates.digest other)) = some node →
          d'.get (objectAt (crates.digest other)) = some node := by
  induction objects generalizing n d with
  | nil =>
    obtain rfl := (Gives.unique hok (gives_pure ())).2
    exact ⟨fun _ hobject => absurd hobject List.not_mem_nil, fun _ _ hnode => hnode⟩
  | cons first objects ih =>
    obtain ⟨_, n₁, d₁, hfirst, hrest⟩ := Gives.of_bind hok
    obtain ⟨hstocked, hthere, hkept⟩ := h.wrote hfirst
    obtain ⟨hall, hlast⟩ := ih hstocked hrest
    refine ⟨fun object hobject => ?_, fun other node hnode => hlast other node (hkept other node hnode)⟩
    rcases List.mem_cons.mp hobject with rfl | hobject
    · exact hlast _ _ hthere
    · exact hall object hobject

/-- A store with nothing in it, or no store. -/
theorem Hollow.get_none (h : Hollow d) {path : Path} (hne : path ≠ []) : d.get path = none := by
  cases hget : d.get path with
  | none => rfl
  | some node => exact absurd (h path node hget).1 hne

theorem Hollow.resumable {candidate : Candidate} (h : Hollow d) (hroot : d.isDirectory [] = true)
    (hown : OwnedBy process.uid d) : Resumable crates process.uid candidate d := by
  have hnone : ∀ path : Path, path ≠ [] → d.get path = none := fun path hne => h.get_none hne
  refine ⟨⟨fun path c node hget => ?_, hroot, fun path _ => ?_⟩, fun _ _ => .inl (hnone _ (by simp [objectAt])),
    .inl (hnone _ (by simp [entryAt])), .inl (hnone _ (by decide))⟩
  · rw [hnone _ (by simp)] at hget
    cases hget
  · by_cases hpath : path = []
    · obtain ⟨stat, hget, hprivate⟩ := hown
      exact .inr ⟨stat, hpath ▸ hget, hprivate⟩
    · exact .inl (hnone path hpath)

/-- A publication that returns ran into an opened store of its user. -/
theorem publishInto_of_ok {graph : WorkloadGraph} {candidate : Candidate} {assembled : AssembledWorkload}
    (hprepare : prepare crates graph = .ok candidate) (hempty : Hollow d)
    (hok : Gives process.uid (publish crates process graph) n d (.ok assembled) m d') :
    ∃ d₁ k d₂, Hollow d₁ ∧ OwnedBy process.uid d₁ ∧
      Gives process.uid (publishInto crates process candidate ⟨[]⟩) n d₁ (.ok assembled) k d₂ := by
  have hrun : ∀ d₁ stat, exec process.uid .createStore d = .ok ((), d₁) → d₁.get [] = some (.directory stat) →
      stat.uid = process.uid → stat.mode &&& 0o077 = 0 → Hollow d₁ → ∃ d₁ k d₂, Hollow d₁ ∧
        OwnedBy process.uid d₁ ∧ Gives process.uid (publishInto crates process candidate ⟨[]⟩) n d₁
        (.ok assembled) k d₂ := by
    intro d₁ stat hcreate hroot huid hmode hhollow
    cases hinto : (publishInto crates process candidate ⟨[]⟩).run (perform process.uid) n d₁ with | mk out d₂ =>
    obtain ⟨r, k⟩ := out
    obtain rfl := ((gives_publish hprepare hcreate hroot huid hmode hinto).unique hok).1
    exact ⟨d₁, k, d₂, hhollow, ⟨stat, hroot, huid, hmode⟩, hinto⟩
  cases hroot : d.get [] with
  | none =>
    have hcreate : exec process.uid .createStore d = .ok ((), d.set [] (ownDirectory process.uid)) := by
      simp only [exec, hroot]
    refine hrun _ ⟨0o700, process.uid⟩ hcreate (by rw [Disk.get_set, if_pos rfl]) rfl
      (by decide : (0o700 : Nat) &&& 0o077 = 0) fun path node hget => ?_
    rw [Disk.get_set] at hget
    split_ifs at hget with hpath
    · exact ⟨hpath, _, (Option.some.inj hget).symm⟩
    · exact hempty path node hget
  | some node =>
    obtain ⟨-, stat, rfl⟩ := hempty [] node hroot
    by_cases hprivate : stat.uid = process.uid ∧ stat.mode &&& 0o077 = 0
    · have hcreate : exec process.uid .createStore d = .ok ((), d) := by
        simp only [exec, hroot]
      exact hrun d stat hcreate hroot hprivate.1 hprivate.2 hempty
    · obtain ⟨e, hgives⟩ := @gives_publish_foreign crates graph candidate d process n stat hprepare hroot hprivate
      cases (hgives.unique hok).1

/-- **A publication into an empty store that returns** has no two objects of one digest. -/
theorem collisionless_of_ok {graph : WorkloadGraph} {candidate : Candidate} {assembled : AssembledWorkload}
    (hprepare : prepare crates graph = .ok candidate) (hempty : Hollow d)
    (hok : Gives process.uid (publish crates process graph) n d (.ok assembled) m d') :
    ∀ a ∈ graph.objects, ∀ b ∈ graph.objects, crates.digest a.2 = crates.digest b.2 → a.2 = b.2 := by
  obtain rfl := (prepare_ok hprepare).source
  obtain ⟨d₁, k, d₂, hhollow, hown, hinto⟩ := publishInto_of_ok hprepare hempty hok
  have hroot : d₁.isDirectory [] = true := by
    obtain ⟨stat, hget, -⟩ := hown
    exact isDirectory_iff.mpr ⟨stat, hget⟩
  have hresumable : Resumable crates process.uid candidate d₁ := hhollow.resumable hroot hown
  cases hrest : (do
      let _ ← Root.openOrCreateDirectory process ⟨[]⟩ "raw/sha256"
      Routine.forEach (fun object => writeObject crates process ⟨[]⟩ object.2) candidate.graph.objects
      publishDerived crates process ⟨[]⟩ candidate
      requirePrivateDerived process ⟨[]⟩ candidate.closure.canonicalDigest
      verifyDerived crates ⟨[]⟩ candidate.closure.canonicalDigest candidate.treeBytes
        candidate.closure.templateSha256 (candidate.closureSha256 crates) candidate.closure.treeSha256
      publishClosure process ⟨[]⟩ candidate.closureBytes
      pure (candidate.assembled crates) : Action AssembledWorkload).run (perform process.uid) n d₁
          with | mk out d₃ =>
  obtain ⟨r, l⟩ := out
  obtain rfl := ((gives_publishInto_of hresumable (drafted_of_prepare hprepare).length hrest).unique hinto).1
  obtain ⟨_, n₁, d₄, hopened, hrest⟩ := Gives.of_bind hrest
  obtain ⟨_, n₂, d₅, hobjects, -⟩ := Gives.of_bind hrest
  have hparts : components "raw/sha256" = .ok objectsDirectory := by decide
  have hfronts : ∀ front, front ≠ [] → front <+: objectsDirectory → d₁.get front = none ∨
      ∃ stat, d₁.get front = some (.directory stat) ∧ stat.uid = process.uid ∧ stat.mode &&& 0o077 = 0 :=
    fun front _ hfront => hresumable.founded.directories front (front_of_store (by decide) hfront)
  obtain ⟨d₆, hgives, hclosed, hway, hget⟩ := @gives_openOrCreateDirectory process n d₁ _ objectsDirectory hparts
    hresumable.founded.closed hroot hfronts
  obtain rfl := (hgives.unique hopened).2
  have hstocked : Stocked crates process d₆ := by
    refine ⟨hclosed, hway, fun data node hnode => ?_⟩
    rcases hget (objectAt (crates.digest data)) with hsame | ⟨-, hfront, -, -⟩
    · rw [hsame, hhollow.get_none (by simp [objectAt])] at hnode
      cases hnode
    · exact absurd hfront.length_le (by simp [objectAt, objectsDirectory])
  obtain ⟨hall, -⟩ := hstocked.wroteAll hobjects
  intro a ha b hb hsame
  have hboth := (hall a ha).symm.trans ((congrArg (fun digest => d₅.get (objectAt digest)) hsame).trans
    (hall b hb))
  exact (Node.file.inj (Option.some.inj hboth)).2

end Collisions

/-! ## Loading what was published -/

section Loading

variable {crates : Crates} {uid owner n : Nat} {d : Disk} {candidate : Candidate}

theorem gives_load_rederived {again : WorkloadGraph} (hfaithful : crates.Faithful)
    (hp : Published crates owner candidate d) (hd : Drafted crates candidate.graph candidate)
    (hroles : (candidate.graph.objects.map Prod.fst).Nodup)
    (h : Rederives crates candidate again) : Gives uid (load crates) n d (.ok (candidate.loaded crates)) n d := by
  have hderived := h.rederive hd
  refine gives_load hfaithful hp hd hroles (fun derived hok => ?_) fun e he => ?_
  · obtain rfl := Except.ok.inj (hderived.symm.trans hok)
    have hkind : candidate.closure.kind = candidate.graph.kind := by rw [hd.closure]
    have hlaunch : candidate.closure.launch = candidate.graph.launch := by rw [hd.closure]
    exact ⟨rfl, by rw [hkind, hlaunch]; rfl⟩
  · rw [hderived] at he
    cases he

theorem gives_load_unreplayed {e : IoError} (hfaithful : crates.Faithful) (hp : Published crates owner candidate d)
    (hd : Drafted crates candidate.graph candidate) (hroles : (candidate.graph.objects.map Prod.fst).Nodup)
    (h : replayGraph crates candidate.closure candidate.graph.objects = .error e) :
    Gives uid (load crates) n d (.error e) n d := by
  have hderived : rederive crates candidate.closure candidate.graph.objects = .error e := by
    unfold rederive
    rw [h]
    rfl
  refine gives_load hfaithful hp hd hroles (fun derived hok => ?_) fun e' he => ?_
  · rw [hderived] at hok
    cases hok
  · obtain rfl := Except.error.inj (hderived.symm.trans he)
    rfl

end Loading

/-! ## Sources -/

/-- The image that a specification names, as it is read for assembly. -/
def readSourceImage (crates : Crates) (source : OciSource) : Action OciObjects := do
  let root ← Root.open
  let layout ← mapErr (sourceLocatorError "the workload layout directory") (root.openDirectory source.layout)
  readImage crates layout source.manifestDigest

/-- The index of the image selects its manifest also under the canonical spelling of the digest. -/
def SelectsAgain (crates : Crates) (spec : WorkloadSpec) (directory : Disk) : Prop :=
  ∀ source objects hexDigits, spec.source = .oci source →
    evaluate (readSourceImage crates source) directory = .ok objects →
    parseDigest source.manifestDigest = .ok hexDigits →
    selectManifest crates.toLibraries (respelled objects hexDigits) = .ok ()

section Sources

variable {crates : Crates} {n m : Nat} {d d' : Disk}

theorem gives_of_evaluate {α : Type} {x : Action α} {r : IoResult α} (h : evaluate x d = r) :
    ∃ m d', Gives 0 x 0 d r m d' := by
  subst h
  exact ⟨_, _, rfl⟩

theorem Gives.evaluate {α : Type} {x : Action α} {r : IoResult α} (h : Gives 0 x 0 d r m d') : evaluate x d = r :=
  congrArg (fun out => out.1.1) h

/-- An image is read under the digest of its specification. -/
theorem readImage_digest {root : Root} {manifestDigest : Text} {objects : OciObjects}
    (h : Gives 0 (readImage crates root manifestDigest) n d (.ok objects) m d') :
    objects.manifestDigest = manifestDigest := by
  iterate 18 obtain ⟨_, _, _, -, h⟩ := h.of_bind
  obtain ⟨hvalue, -⟩ := Gives.unique h (gives_pure _)
  exact congrArg OciObjects.manifestDigest (Except.ok.inj hvalue)

theorem readSpecification_ok {utf8Error : Bytes → Text} {source : Source} {spec : WorkloadSpec}
    (h : readSpecification crates utf8Error source = .ok spec) :
    ∃ data, WorkloadSpec.parse crates.toLibraries utf8Error data = .ok spec := by
  unfold readSpecification at h
  split at h
  · cases h
  · split at h
    · cases h
    · exact ⟨_, h⟩
  · cases h

/-- The manifest digest of an accepted specification is a digest. -/
theorem parse_oci_digest {utf8Error : Bytes → Text} {data : Bytes} {spec : WorkloadSpec} {source : OciSource}
    (h : WorkloadSpec.parse crates.toLibraries utf8Error data = .ok spec) (hsource : spec.source = .oci source) :
    ∃ hexDigits, parseDigest source.manifestDigest = .ok hexDigits := by
  obtain ⟨_, _, h⟩ := bind_eq_ok.mp h
  obtain ⟨_, _, h⟩ := bind_eq_ok.mp h
  obtain ⟨probe, _, h⟩ := bind_eq_ok.mp h
  obtain ⟨_, _, h⟩ := bind_eq_ok.mp h
  split at h
  · obtain ⟨_, _, h⟩ := bind_eq_ok.mp h
    obtain ⟨_, _, h⟩ := bind_eq_ok.mp h
    obtain ⟨_, _, h⟩ := bind_eq_ok.mp h
    obtain ⟨_, _, h⟩ := bind_eq_ok.mp h
    obtain ⟨_, _, h⟩ := bind_eq_ok.mp h
    obtain ⟨_, _, h⟩ := bind_eq_ok.mp h
    obtain rfl := pure_eq_ok.mp h
    cases hsource
  · obtain ⟨document, _, h⟩ := bind_eq_ok.mp h
    obtain ⟨_, _, h⟩ := bind_eq_ok.mp h
    obtain ⟨_, _, h⟩ := bind_eq_ok.mp h
    obtain ⟨hexDigits, hdigest, h⟩ := bind_eq_ok.mp h
    obtain rfl := pure_eq_ok.mp h
    obtain rfl := WorkloadSource.oci.inj hsource
    exact ⟨hexDigits, hdigest⟩

/-- The graph of an accepted source is that of its executable, or of its image. -/
theorem sourceGraph_ok {spec : WorkloadSpec} {directory : Disk} {graph : WorkloadGraph}
    (h : evaluate (sourceGraph crates spec) directory = .ok graph) :
    (∃ source executable, spec.source = .binary source ∧ binaryGraphOf crates source executable = .ok graph) ∨
      ∃ source objects, spec.source = .oci source ∧
        evaluate (readSourceImage crates source) directory = .ok objects ∧
        objects.manifestDigest = source.manifestDigest ∧ ociGraphOf crates objects = .ok graph := by
  obtain ⟨m, d', hgives⟩ := gives_of_evaluate h
  obtain ⟨root, n₁, d₁, hroot, hgives⟩ := hgives.of_bind
  cases hsource : spec.source with
  | binary source =>
    rw [hsource] at hgives
    obtain ⟨executable, n₂, d₂, -, hgraph⟩ := Gives.of_bind hgives
    exact .inl ⟨source, executable, rfl, hgraph.of_lift.1⟩
  | oci source =>
    rw [hsource] at hgives
    obtain ⟨layout, n₂, d₂, hlayout, hgives⟩ := Gives.of_bind hgives
    obtain ⟨objects, n₃, d₃, himage, hgraph⟩ := Gives.of_bind hgives
    refine .inr ⟨source, objects, rfl, Gives.evaluate (hroot.bind (hlayout.bind himage)), readImage_digest himage,
      hgraph.of_lift.1⟩

end Sources

/-! ## The round trip -/

/-- What loading returns agrees with what assembly reported. -/
structure Agrees (crates : Crates) (assembled : AssembledWorkload) (loaded : LoadedWorkload) : Prop where
  kind : loaded.sourceKind = assembled.sourceKind
  closure : loaded.closureSha256 = assembled.closureSha256
  canonical : loaded.canonicalDigest = assembled.canonicalDigest
  launch : loaded.launch = assembled.launch
  tree : crates.digest (loaded.tree.encode crates.sha256) = assembled.treeSha256
  template : crates.digest loaded.template = assembled.templateSha256

theorem Candidate.agrees {crates : Crates} {candidate : Candidate}
    (hd : Drafted crates candidate.graph candidate) :
    Agrees crates (candidate.assembled crates) (candidate.loaded crates) := by
  have hclosure := hd.closure
  refine ⟨rfl, rfl, rfl, rfl, ?_, ?_⟩
  · show crates.digest (candidate.graph.tree.encode crates.sha256) = candidate.closure.treeSha256
    rw [hclosure, hd.encoded]
  · show crates.digest candidate.template = candidate.closure.templateSha256
    rw [hclosure]

/-- A publication into an empty store that returns leaves a published store. -/
theorem published_of_ok {crates : Crates} {process : Process} {graph : WorkloadGraph}
    {assembled : AssembledWorkload} {m : Nat} {d d' : Disk} (hfaithful : crates.Faithful) (hempty : Hollow d)
    (hok : Gives process.uid (publish crates process graph) 0 d (.ok assembled) m d') :
    ∃ candidate, prepare crates graph = .ok candidate ∧ assembled = candidate.assembled crates ∧
      Published crates process.uid candidate d' := by
  cases hprepare : prepare crates graph with
  | error e =>
    have hfail : Gives process.uid (publish crates process graph) 0 d (.error e) 0 d :=
      Gives.lift_bind_error hprepare
    cases (hfail.unique hok).1
  | ok candidate =>
    have hcollide := collisionless_of_ok hprepare hempty hok
    have hinj : Set.InjOn crates.sha256 { data | ∃ object ∈ graph.objects, object.2 = data } := by
      rintro _ ⟨a, ha, rfl⟩ _ ⟨b, hb, rfl⟩ hsame
      exact hcollide a ha b hb (congrArg hex hsame)
    obtain ⟨hready, hnot⟩ := @gives_publish_sound crates graph candidate d process hfaithful hprepare hinj
      (.inl hempty)
    by_cases h : Ready crates process candidate d
    · obtain ⟨k, d'', hgives, hpublished⟩ := hready h
      obtain ⟨hsame, rfl⟩ := hgives.unique hok
      exact ⟨candidate, rfl, (Except.ok.inj hsame).symm, hpublished⟩
    · obtain ⟨e, k, d'', hgives⟩ := hnot h
      cases (hgives.unique hok).1

/-- **What was assembled is loaded.**  A source that is assembled into an empty store is loaded from it exactly
if, for an image, the index selects the manifest also under the canonical spelling of its digest; what is loaded
has the kind, the closure digest, the canonical digest, the launch identity, the tree and the template that
assembly reported. -/
theorem assemble_load (crates : Crates) (hfaithful : crates.Faithful) (utf8Error : Bytes → Text)
    (process : Process) (source : Source) (d d' : Disk) (hempty : Hollow d)
    (assembled : AssembledWorkload) (m : Nat)
    (h : (assemble crates utf8Error process source).run (perform process.uid) 0 d = ((.ok assembled, m), d')) :
    ∃ spec, readSpecification crates utf8Error source = .ok spec ∧
      ((∃ loaded, evaluate (load crates) d' = .ok loaded) ↔ SelectsAgain crates spec source.directory) ∧
      ∀ loaded, evaluate (load crates) d' = .ok loaded → Agrees crates assembled loaded := by
  obtain ⟨spec, n₁, d₁, hread, hassemble⟩ := Gives.of_bind h
  obtain ⟨hspec, rfl, rfl⟩ := hread.of_lift
  obtain ⟨graph, n₂, d₂, hnormalized, hpublish⟩ := Gives.of_bind hassemble
  obtain ⟨hgraph, rfl, rfl⟩ := hnormalized.of_lift
  obtain ⟨candidate, hprepare, rfl, hp⟩ := published_of_ok hfaithful hempty hpublish
  obtain rfl := (prepare_ok hprepare).source
  have hd := drafted_of_prepare hprepare
  have hkind : candidate.closure.kind = candidate.graph.kind := by rw [hd.closure]
  -- loading succeeds with what was published, once replay re-derives it
  have hloads : ∀ again, (candidate.graph.objects.map Prod.fst).Nodup → Rederives crates candidate again →
      evaluate (load crates) d' = .ok (candidate.loaded crates) := fun again hroles hrederives =>
    Gives.evaluate (gives_load_rederived hfaithful hp hd hroles hrederives)
  refine ⟨spec, hspec, ?_⟩
  rcases sourceGraph_ok hgraph with ⟨binary, executable, hsource, hbinary⟩ |
    ⟨oci, objects, hsource, himage, hdigest, hoci⟩
  · obtain ⟨hbinaryKind, hroles, again, hreplayed, htree, hlaunch, hlayers⟩ :=
      replayBinary_binaryGraphOf hfaithful hbinary
    have hloaded := hloads again hroles ⟨by rw [replayGraph, hkind, hbinaryKind]; exact hreplayed, htree,
      hlaunch, hlayers⟩
    refine ⟨⟨fun _ other objects hexDigits hother => ?_, fun _ => ⟨_, hloaded⟩⟩, fun loaded hok => ?_⟩
    · rw [hsource] at hother
      cases hother
    · obtain rfl := Except.ok.inj (hloaded.symm.trans hok)
      exact candidate.agrees hd
  · obtain ⟨hexDigits, hhex⟩ := parse_oci_digest (readSpecification_ok hspec).choose_spec hsource
    obtain ⟨parsed, -, hshape⟩ := bind_eq_ok.mp hoci
    have hshape := pure_eq_ok.mp hshape
    have hociKind : candidate.graph.kind = .oci := by rw [← hshape]
    have hroles : (candidate.graph.objects.map Prod.fst).Nodup := by
      rw [← hshape]
      exact nodup_sortRoles (nodup_imageObjects objects)
    have hrecorded : candidate.closure.manifestDigest = some objects.manifestDigest := by
      rw [hd.closure]
      show candidate.graph.manifestDigest = _
      rw [← hshape]
    have hlayers : candidate.closure.layers = candidate.graph.layers := by rw [hd.closure]
    have hreplay := replayOci_ociGraphOf hoci (hdigest ▸ hhex) hrecorded hlayers
    have hreplayed : replayGraph crates candidate.closure candidate.graph.objects =
        replayOci crates candidate.closure candidate.graph.objects := by rw [replayGraph, hkind, hociKind]
    cases hselected : selectManifest crates.toLibraries (respelled objects hexDigits) with
    | error e =>
      -- the index does not select the manifest again
      have hfails : evaluate (load crates) d' = .error e := by
        refine Gives.evaluate (gives_load_unreplayed hfaithful hp hd hroles ?_)
        rw [hreplayed, hreplay, hselected]
        rfl
      refine ⟨⟨fun ⟨loaded, hok⟩ => ?_, fun hselects => ?_⟩, fun loaded hok => ?_⟩
      · rw [hfails] at hok
        cases hok
      · rw [hselects oci objects hexDigits hsource himage hhex] at hselected
        cases hselected
      · rw [hfails] at hok
        cases hok
    | ok _ =>
      have hagain : replayGraph crates candidate.closure candidate.graph.objects = .ok ⟨.oci,
          some (digestPrefix ++ hexDigits), sortRoles candidate.graph.objects, candidate.graph.tree,
            candidate.graph.launch, candidate.graph.layers⟩ := by
        rw [hreplayed, hreplay, hselected]
        rfl
      have hloaded := hloads _ hroles ⟨hagain, rfl, rfl, rfl⟩
      refine ⟨⟨fun _ other objects' hexDigits' hother himage' hhex' => ?_, fun _ => ⟨_, hloaded⟩⟩,
        fun loaded hok => ?_⟩
      · obtain rfl := WorkloadSource.oci.inj (hsource.symm.trans hother)
        obtain rfl := Except.ok.inj (himage.symm.trans himage')
        obtain rfl := Except.ok.inj (hhex.symm.trans hhex')
        exact hselected
      · obtain rfl := Except.ok.inj (hloaded.symm.trans hok)
        exact candidate.agrees hd

/-- The condition on a source whose image was read. -/
theorem selectsAgain_image {crates : Crates} {spec : WorkloadSpec} {directory : Disk} {source : OciSource}
    {objects : OciObjects} {hexDigits : Text} (hsource : spec.source = .oci source)
    (hobjects : evaluate (readSourceImage crates source) directory = .ok objects)
    (hdigest : parseDigest source.manifestDigest = .ok hexDigits) :
    SelectsAgain crates spec directory ↔ selectManifest crates.toLibraries (respelled objects hexDigits) =
        .ok () := by
  refine ⟨fun h => h source objects hexDigits hsource hobjects hdigest, fun h => ?_⟩
  intro other objects' hexDigits' hother hobjects' hdigest'
  obtain rfl : source = other := WorkloadSource.oci.inj (hsource.symm.trans hother)
  obtain rfl := Except.ok.inj (hobjects.symm.trans hobjects')
  obtain rfl := Except.ok.inj (hdigest.symm.trans hdigest')
  exact h

/-- A binary has no index. -/
theorem selectsAgain_binary {crates : Crates} {spec : WorkloadSpec} {directory : Disk} {source : BinarySource}
    (hsource : spec.source = .binary source) : SelectsAgain crates spec directory := by
  intro other objects hexDigits hother
  rw [hsource] at hother
  cases hother

/-! ## A sample image -/

mutual

/-- The JSON text of a value whose strings need no escapes. -/
def jsonText : Value → Text
  | .null => "null"
  | .bool value => if value then "true" else "false"
  | .number value => decimal (value.getD 0).toNat
  | .string value => utf8 "\"" ++ value ++ utf8 "\""
  | .array values => utf8 "[" ++ jsonItems values ++ utf8 "]"
  | .object entries => utf8 "\x7b" ++ jsonMembers entries ++ utf8 "\x7d"

def jsonItems : List Value → Text
  | [] => []
  | [value] => jsonText value
  | value :: values => jsonText value ++ utf8 "," ++ jsonItems values

def jsonMembers : List (Text × Value) → Text
  | [] => []
  | [(key, value)] => utf8 "\"" ++ key ++ utf8 "\":" ++ jsonText value
  | (key, value) :: entries => utf8 "\"" ++ key ++ utf8 "\":" ++ jsonText value ++ utf8 "," ++ jsonMembers entries

end

def integer (value : Nat) : Value := .number (some value)

def texts (values : List Text) : Value := .array (values.map .string)

/-- What `serde` makes of a closure. -/
def closureValue (closure : Closure) : Value :=
  let limits := closure.limits
  .object <| [(utf8 "version", integer closure.version),
      (utf8 "kind", .string (match closure.kind with | .binary => "binary" | .oci => "oci"))] ++
    closure.manifestDigest.toList.map (fun digest => (utf8 "manifest_digest", .string digest)) ++
    [(utf8 "policy", .object [(utf8 "canonical_format", integer closure.policy.canonicalFormat),
      (utf8 "extraction", integer closure.policy.extraction),
      (utf8 "layer_application", integer closure.policy.layerApplication),
      (utf8 "template_format", integer closure.policy.templateFormat)]),
    (utf8 "limits", .object [(utf8 "specification_bytes", integer limits.specificationBytes),
      (utf8 "layout_bytes", integer limits.layoutBytes), (utf8 "index_bytes", integer limits.indexBytes),
      (utf8 "manifest_bytes", integer limits.manifestBytes), (utf8 "config_bytes", integer limits.configBytes),
      (utf8 "layer_bytes", integer limits.layerBytes),
      (utf8 "expanded_layer_bytes", integer limits.expandedLayerBytes),
        (utf8 "file_bytes", integer limits.fileBytes),
      (utf8 "entries", integer limits.entries), (utf8 "layers", integer limits.layers),
      (utf8 "path_bytes", integer limits.pathBytes),
      (utf8 "symlink_target_bytes", integer limits.symlinkTargetBytes),
      (utf8 "symlink_hops", integer limits.symlinkHops), (utf8 "raw_objects", integer limits.rawObjects),
      (utf8 "view_entries", integer limits.viewEntries),
      (utf8 "cache_metadata_bytes", integer limits.cacheMetadataBytes),
      (utf8 "template_bytes", integer limits.templateBytes), (utf8 "arguments", integer limits.arguments),
      (utf8 "argument_bytes", integer limits.argumentBytes),
      (utf8 "environment_entries", integer limits.environmentEntries),
      (utf8 "environment_entry_bytes", integer limits.environmentEntryBytes),
      (utf8 "environment_bytes", integer limits.environmentBytes)]),
    (utf8 "objects", .array (closure.objects.map fun record => .object [(utf8 "role", .string record.role),
      (utf8 "digest", .string record.digest), (utf8 "bytes", integer record.bytes)])),
    (utf8 "layers", .array (closure.layers.map fun layer => .object [(utf8 "media_type", .string layer.mediaType),
      (utf8 "digest", .string layer.digest), (utf8 "diff_id", .string layer.diffId),
      (utf8 "bytes", integer layer.bytes), (utf8 "expanded_bytes", integer layer.expandedBytes)])),
    (utf8 "launch", .object [(utf8 "executable", .string closure.launch.executable),
      (utf8 "arguments", texts closure.launch.arguments), (utf8 "environment", texts closure.launch.environment),
      (utf8 "working_directory", .string closure.launch.workingDirectory),
      (utf8 "uid", integer closure.launch.uid), (utf8 "gid", integer closure.launch.gid)]),
    (utf8 "canonical_digest", .string closure.canonicalDigest), (utf8 "tree_sha256", .string closure.treeSha256),
    (utf8 "template_sha256", .string closure.templateSha256), (utf8 "entries", integer closure.entries),
    (utf8 "expanded_bytes", integer closure.expandedBytes)]

example : jsonText (closureValue sampleClosure) = closureJson := by decide +kernel

/-- What `serde` makes of a lock. -/
def lockValue (lock : DerivedLock) : Value := .object
  [(utf8 "version", integer lock.version), (utf8 "canonical_digest", .string lock.canonicalDigest),
    (utf8 "tree_sha256", .string lock.treeSha256), (utf8 "template_sha256", .string lock.templateSha256),
    (utf8 "closure_sha256", .string lock.closureSha256), (utf8 "raw_closure", .string lock.rawClosure)]

/-- The one layer of the image: an executable. -/
def imageLayer : Bytes :=
  ustarHeader "bin/app" "0000755" "00000000004" "010455\x00 " "0" ++ utf8 "run\n" ++ List.replicate 508 0 ++
    List.replicate 1024 0

def imageTar : TarReader := fun expanded =>
  if expanded = imageLayer then some
    [some ⟨.regular, 4, 512, utf8 "bin/app", some 0o755, some 0, some 0, some 0, some 4, none,
      some (utf8 "run\n")⟩]
  else none

def layerDigest : Text := "b8f22470142ad48ea4f1fdf2f42c2f8681a3bccda2b3f83c04efa78fa5d34c04"
def configDigest : Text := "e7619595850e674971993dbf730f8d3adfd7e8cabb2779a33c2ff2c87da8eb1a"
def imageDigest : Text := "6698f1c1669b0a2aaa42c668a37609899c77739076fd17c36c7cfaf88667f746"

def descriptor (mediaType digest : Text) (size : Nat) : List (Text × Value) :=
  [(utf8 "mediaType", .string mediaType), (utf8 "digest", .string (digestPrefix ++ digest)),
    (utf8 "size", integer size)]

def imageConfig : Value := .object
  [(utf8 "architecture", .string "amd64"), (utf8 "os", .string "linux"),
    (utf8 "config", .object [(utf8 "User", .string "1000:1000"), (utf8 "Entrypoint", texts [utf8 "/bin/app"])]),
    (utf8 "rootfs", .object [(utf8 "type", .string "layers"),
      (utf8 "diff_ids", texts [digestPrefix ++ layerDigest])])]

def imageManifest : Value := .object
  [(utf8 "schemaVersion", integer 2), (utf8 "mediaType", .string manifestMediaType),
    (utf8 "config", .object (descriptor configMediaType configDigest 207)),
    (utf8 "layers", .array [.object (descriptor plainLayerMediaType layerDigest 2048)])]

/-- An index that spells the manifest's digest in this way. -/
def imageIndex (spelled : Text) : Value := .object
  [(utf8 "schemaVersion", integer 2), (utf8 "manifests",
    .array [.object (descriptor manifestMediaType spelled 397 ++
    [(utf8 "platform", .object [(utf8 "architecture", .string "amd64"), (utf8 "os", .string "linux")])])])]

def imageLayout : Value := .object [(utf8 "imageLayoutVersion", .string layoutVersion)]

/-- The layout of the image as a directory of the host. -/
def imageDirectory (spelled : Text) : Disk :=
  let directory : Node := .directory ⟨0o755, 1000⟩
  let file := fun data => Node.file ⟨0o644, 1000⟩ data
  let blobs : Path := [utf8 "image", utf8 "blobs", utf8 "sha256"]
  [([], directory), ([utf8 "image"], directory), ([utf8 "image", utf8 "blobs"], directory), (blobs, directory),
    ([utf8 "image", utf8 "oci-layout"], file (jsonText imageLayout)),
      ([utf8 "image", utf8 "index.json"], file (jsonText (imageIndex spelled))),
    (blobs ++ [imageDigest], file (jsonText imageManifest)),
      (blobs ++ [configDigest], file (jsonText imageConfig)),
    (blobs ++ [layerDigest], file imageLayer)].foldl (fun d (path, node) => d.set path node) Disk.absent

/-- The specification of the image under this spelling of its digest. -/
def imageSpecification (spelled : Text) : Text :=
  utf8 "version = 1\nkind = \"oci\"\nlayout = \"image\"\nmanifest_digest = \"" ++ digestPrefix ++
    spelled ++ utf8 "\"\n"

def imageSource (spelled : Text) : Source where
  path := "workload.toml"
  specification := .ok (.file ⟨0o644, 1000⟩ (imageSpecification spelled))
  directory := imageDirectory spelled

/-- The two spellings of the sample. -/
def lowerSpelling : Text := imageDigest
def upperSpelling : Text := imageDigest.map fun digit => if 97 ≤ digit then digit - 32 else digit

/-- The digests of the image's messages; of two that are as long as each other, one has upper-case digits. -/
def imageSha256 (message : Bytes) : Bytes :=
  let spelled := fun lower upper : Nat => if message.contains (charByte 'F') then upper else lower
  match message.length with
  | 4 => digestOf 0xb5004f26a852b0d60ec1237432c1a33c2307ff2458c374d9d99749d045c7feb9
  | 30 => digestOf 0x18f0797eab35a4597c1e9624aa4f15fd91f6254e5538c1e0d193b2a95dd4acc6
  | 114 => digestOf 0xdcbb7213d18822f86e13422a021bfbdec0cc3fbea9f6a018fd2371f75409e16a
  | 148 => digestOf 0x1cc603fe77df95bd5f3eada4de548d585f265c01fca632fefc806794ada873c9
  | 207 => digestOf 0xe7619595850e674971993dbf730f8d3adfd7e8cabb2779a33c2ff2c87da8eb1a
  | 235 => digestOf (spelled 0x11fd5ddc86e15d554a632a43f43d29e5fd14435329a347dfc032991c93b0c2cb
      0xfd82c4fedd3f19b2a1a554f8b343f56dec947d8a327283f2bcfedceddc21d833)
  | 397 => digestOf 0x6698f1c1669b0a2aaa42c668a37609899c77739076fd17c36c7cfaf88667f746
  | 500 => digestOf 0xa618ca9e643d19c4ff4d9fced077f8172bfdafcb15311e1b1bbe529feb354c93
  | 1991 => digestOf (spelled 0x0af77251a734339c29c919d7d8a98ffd025d217ce81cd52fa7fb3617454c184c
      0xc7b499dc06461d152f3fadc7e5d0c30dd3b32c1a80e0ea2816e52c97a62437b7)
  | 2048 => digestOf 0xb8f22470142ad48ea4f1fdf2f42c2f8681a3bccda2b3f83c04efa78fa5d34c04
  | _ => sampleSha256 message

/-- The closure of the image under this spelling. -/
def imageClosure (spelled : Text) : Closure where
  version := closureVersion
  kind := .oci
  manifestDigest := some (digestPrefix ++ spelled)
  policy := Policy.current
  limits := Limits.current
  objects := [⟨"config", digestPrefix ++ configDigest, 207⟩,
    ⟨"index.json", digestPrefix ++ hex (imageSha256 (jsonText (imageIndex spelled))), 235⟩,
    ⟨"layer-0", digestPrefix ++ layerDigest, 2048⟩, ⟨"manifest", digestPrefix ++ imageDigest, 397⟩,
    ⟨"oci-layout", "sha256:18f0797eab35a4597c1e9624aa4f15fd91f6254e5538c1e0d193b2a95dd4acc6", 30⟩]
  layers := [⟨plainLayerMediaType, digestPrefix ++ layerDigest, digestPrefix ++ layerDigest, 2048, 2048⟩]
  launch := ⟨"/bin/app", ["/bin/app"], [], "/", 1000, 1000⟩
  canonicalDigest := "1cc603fe77df95bd5f3eada4de548d585f265c01fca632fefc806794ada873c9"
  treeSha256 := "dcbb7213d18822f86e13422a021bfbdec0cc3fbea9f6a018fd2371f75409e16a"
  templateSha256 := "a618ca9e643d19c4ff4d9fced077f8172bfdafcb15311e1b1bbe529feb354c93"
  entries := 3
  expandedBytes := 4

def imageLock (spelled : Text) : DerivedLock :=
  let closure := imageClosure spelled
  ⟨derivedLockVersion, closure.canonicalDigest, closure.treeSha256, closure.templateSha256,
    hex (imageSha256 (jsonText (closureValue closure) ++ [10])), rawClosurePath⟩

/-- The specification of the binary sample. -/
def binarySpecification : Text := "version = 1\nkind = \"binary\"\npath = \"bin\"\nuser = \"1000:1000\"\n"

def binarySource : Source where
  path := "workload.toml"
  specification := .ok (.file ⟨0o644, 1000⟩ binarySpecification)
  directory := (Disk.absent.set [] (.directory ⟨0o755, 1000⟩)).set ["bin"] (.file ⟨0o755, 1000⟩ sampleExecutable)

/-- The libraries on the documents of the binary and of the image under both spellings. -/
def specifiedCrates : Crates where
  sha256 := imageSha256
  sha256_length message := by
    have hdigest : ∀ value, (digestOf value).length = 32 := fun value => by
      rw [digestOf, List.length_map, List.length_range]
    unfold imageSha256
    dsimp only
    split <;> exact hdigest _
  tomlProbe text := .ok ⟨workloadSpecVersion, if text = binarySpecification then .binary else .oci⟩
  tomlBinary _ := .ok ⟨workloadSpecVersion, .binary, "bin", [], [], "/", "1000:1000"⟩
  tomlOci text :=
    match [lowerSpelling, upperSpelling].find? fun spelled => imageSpecification spelled == text with
    | some spelled => .ok ⟨workloadSpecVersion, .oci, "image", digestPrefix ++ spelled⟩
    | none => .error none
  json text :=
    match [imageLayout, imageIndex lowerSpelling, imageIndex upperSpelling, imageManifest, imageConfig].find?
        fun value => jsonText value == text with
    | some value => .ok value
    | none => .error ⟨.syntaxError, 1, 1⟩
  gunzip _ _ := .error "corrupt gzip stream does not have a matching checksum"
  tar := imageTar
  closure := tableCodec [sampleClosure, imageClosure lowerSpelling, imageClosure upperSpelling]
    fun closure => jsonText (closureValue closure)
  lock := tableCodec [sampleLock, imageLock lowerSpelling, imageLock upperSpelling] fun lock =>
    jsonText (lockValue lock)
  specification := sampleCodec sampleSpecification specificationJson

theorem specifiedCrates_faithful : specifiedCrates.Faithful :=
  ⟨faithful_tableCodec (by decide +kernel), faithful_tableCodec (by decide +kernel), faithful_sampleCodec _ _⟩

/-- The binary and the image under a canonical digest are loaded; under an upper-case digest the image is
assembled and not loaded. -/
theorem assemble_load_sample :
    (∀ source ∈ [binarySource, imageSource lowerSpelling], ∃ assembled m d' loaded,
      (assemble specifiedCrates (fun _ => []) ⟨1000, 4711, id⟩ source).run (perform 1000) 0 .absent =
        ((.ok assembled, m), d') ∧
      evaluate (load specifiedCrates) d' = .ok loaded ∧ Agrees specifiedCrates assembled loaded) ∧
    ∃ assembled m d', (assemble specifiedCrates (fun _ => []) ⟨1000, 4711, id⟩ (imageSource upperSpelling)).run
        (perform 1000) 0 .absent = ((.ok assembled, m), d') ∧
      ∀ loaded, evaluate (load specifiedCrates) d' ≠ .ok loaded := by
  have hempty : Hollow .absent := fun path node hget => by cases hget
  have hruns : ∀ source ∈ [binarySource, imageSource lowerSpelling, imageSource upperSpelling],
      ((assemble specifiedCrates (fun _ => []) ⟨1000, 4711, id⟩ source).run (perform 1000) 0 .absent).1.1.isOk =
          true := by
    decide +kernel
  have hassembled : ∀ source ∈ [binarySource, imageSource lowerSpelling, imageSource upperSpelling],
      ∃ assembled m d' spec, (assemble specifiedCrates (fun _ => []) ⟨1000, 4711, id⟩ source).run
          (perform 1000) 0 .absent = ((.ok assembled, m), d') ∧
        readSpecification specifiedCrates (fun _ => []) source = .ok spec ∧
        ((∃ loaded, evaluate (load specifiedCrates) d' = .ok loaded) ↔
          SelectsAgain specifiedCrates spec source.directory) ∧
        ∀ loaded, evaluate (load specifiedCrates) d' = .ok loaded → Agrees specifiedCrates assembled loaded := by
    intro source hsource
    rcases hrun : (assemble specifiedCrates (fun _ => []) ⟨1000, 4711, id⟩ source).run (perform 1000) 0
      .absent with
      ⟨⟨r, m⟩, d'⟩
    have hok := hruns source hsource
    rw [hrun] at hok
    obtain ⟨assembled, rfl⟩ := exists_eq_ok hok
    obtain ⟨spec, hspec, hloads, hagrees⟩ := assemble_load specifiedCrates specifiedCrates_faithful (fun _ => [])
      ⟨1000, 4711, id⟩ source .absent d' hempty assembled m hrun
    exact ⟨assembled, m, d', spec, rfl, hspec, hloads, hagrees⟩
  -- what the binary is, and how the index answers when the digest of the image is respelled
  have hbinary : (readSpecification specifiedCrates (fun _ => []) binarySource).toOption.map
      (fun spec => decide (spec.source = .binary sampleSource)) = some true := by decide +kernel
  have himages : ∀ spelled ∈ [lowerSpelling, upperSpelling],
      (readSpecification specifiedCrates (fun _ => []) (imageSource spelled)).toOption.map
        (fun spec => decide (spec.source = .oci ⟨"image", digestPrefix ++ spelled⟩)) = some true ∧
      parseDigest (digestPrefix ++ spelled) = .ok imageDigest ∧
      (evaluate (readSourceImage specifiedCrates ⟨"image", digestPrefix ++ spelled⟩)
        (imageDirectory spelled)).toOption.map (fun objects =>
        decide (selectManifest specifiedCrates.toLibraries (respelled objects imageDigest) = .ok ())) =
          some (decide (spelled = lowerSpelling)) := by decide +kernel
  have hselects : ∀ spelled ∈ [lowerSpelling, upperSpelling], ∀ spec,
      readSpecification specifiedCrates (fun _ => []) (imageSource spelled) = .ok spec →
      (SelectsAgain specifiedCrates spec (imageDirectory spelled) ↔ spelled = lowerSpelling) := by
    intro spelled hspelled spec hspec
    obtain ⟨hsource, hdigest, hanswer⟩ := himages spelled hspelled
    rw [hspec] at hsource
    obtain ⟨objects, hobjects, hanswered⟩ := exists_ok_of_map hanswer
    rw [selectsAgain_image (of_decide_eq_true (Option.some.inj hsource)) hobjects hdigest]
    exact decide_eq_decide.mp hanswered
  refine ⟨fun source hsource => ?_, ?_⟩
  · obtain ⟨assembled, m, d', spec, hrun, hspec, hloads, hagrees⟩ := hassembled source
      (List.mem_append_left [imageSource upperSpelling] hsource)
    have hagain : SelectsAgain specifiedCrates spec source.directory := by
      rcases List.mem_pair.mp hsource with rfl | rfl
      · rw [hspec] at hbinary
        exact selectsAgain_binary (of_decide_eq_true (Option.some.inj hbinary))
      · exact (hselects lowerSpelling List.mem_cons_self spec hspec).mpr rfl
    obtain ⟨loaded, hloaded⟩ := hloads.mpr hagain
    exact ⟨assembled, m, d', loaded, hrun, hloaded, hagrees loaded hloaded⟩
  · obtain ⟨assembled, m, d', spec, hrun, hspec, hloads, -⟩ := hassembled (imageSource upperSpelling) (by simp)
    refine ⟨assembled, m, d', hrun, fun loaded hloaded => ?_⟩
    have hsame := (hselects upperSpelling (by simp) spec hspec).mp (hloads.mp ⟨loaded, hloaded⟩)
    exact absurd hsame (by decide +kernel)

end SimFerret.Store
