import Mathlib.Data.Set.Function
import SimFerret.Store.Staging

/-!
# SimFerret.Store.Publishers — what each part of `publish` does, whatever others do

* `keeps_writeObject`, `keeps_publishDerived`, `keeps_verifyDerived`, `keeps_publishClosure`: the parts of
  `publish`.
* `keeps_publishInto`: a publication into an opened store leaves its own closure.
-/

namespace SimFerret.Store

open Workload

section Publishing

variable {crates : Crates} {known : Candidate → Prop} {process : Process} {candidate : Candidate} {name : Text}

/-- The raw objects of the known candidates. -/
def knownObjects (known : Candidate → Prop) : Set Bytes :=
  { data | ∃ candidate, known candidate ∧ ∃ object ∈ candidate.graph.objects, object.2 = data }

variable (hnamed : ∀ candidate, known candidate → Named candidate)

/-! ## Raw objects -/

/-- An object that is there is the one with its digest. -/
theorem Consistent.object_eq {d : Disk} {node : Node} {data : Bytes} (hd : Consistent crates process.uid known d)
    (hinj : Set.InjOn crates.digest (knownObjects known)) (hdata : data ∈ knownObjects known)
    (hget : d.get (objectAt (crates.digest data)) = some node) : node = ownFile process.uid data := by
  obtain ⟨candidate, hk, object, hobject, hdigest, rfl⟩ := hd.objects _ _ not_hidden_hex hget
  rw [hinj hdata ⟨candidate, hk, object, hobject, rfl⟩ hdigest]

include hnamed

theorem keeps_writeObject (hinj : Set.InjOn crates.digest (knownObjects known)) {data : Bytes}
    (hdata : data ∈ knownObjects known) :
    Keeps crates known process (Mine process) (fun _ => True) (writeObject crates process ⟨[]⟩ data)
      fun _ d => d.get (objectAt (crates.digest data)) = some (ownFile process.uid data) := by
  have hsplit := splitRelative_objectPath (component_digest crates data)
  have hpub : ¬ Staged (objectsDirectory ++ [crates.digest data]) := not_staged_object not_hidden_hex
  have hlasting : ∀ limit other, Steady crates known process
      (HeldAt (objectsDirectory ++ [crates.digest data]) limit other) :=
    fun limit other => firm_of_lasting (HeldAt.lasting hpub limit other)
  refine keeps_bind (keeps_touch (fun _ hno => False.elim hno)
    (keeps_readFileIfExists hsplit hpub)) fun found => ?_
  have hsteady : Steady crates known process fun d => ∀ other, found = some other →
      HeldAt (objectsDirectory ++ [crates.digest data]) data.length other d :=
        firm_forall fun other _ => hlasting _ other
  cases found with
  | some existing =>
    refine keeps_require hsteady fun hsame => ?_
    rw [beq_iff_eq] at hsame
    subst hsame
    refine keeps_weaken (keeps_carry hsteady (keeps_requirePrivateFile hsplit hpub))
      (fun _ _ h => h) fun _ d hd h => ?_
    obtain ⟨⟨stat, hget⟩, -⟩ := h.2 _ rfl
    exact hget.trans (congrArg some (hd.object_eq hinj hdata hget))
  | none =>
    have hwritable : Writable crates known process (Mine process) (fun _ => True) (objectPath (crates.digest data))
        objectsDirectory (crates.digest data) := writable_published hsplit (by decide) firm_const firm_const
    refine keeps_weaken (keeps_writeFileAtomic hnamed hwritable ⟨.inr ⟨hpub, fun d hd _ => ?_⟩⟩)
      (fun _ _ _ => trivial) fun _ _ _ h => h
    cases hget : d.get (objectsDirectory ++ [crates.digest data]) with
    | none =>
      obtain ⟨candidate, hk, object, hobject, rfl⟩ := hdata
      exact .inr ⟨rfl, fun d' hnew _ => .inr (.inl ⟨candidate, hk, object, hobject, rfl, hnew⟩)⟩
    | some node => exact .inl (congrArg some (hd.object_eq hinj hdata hget))

/-! ## The derived entry -/

/-- The paths that writing a file of a derived entry touches. -/
def TouchedBy (process : Process) (name file : Text) (path : Path) : Prop :=
  Temp process (entryAt name) file path ∨ path = entryFile name file

omit hnamed in
theorem within_of_touchedBy {file : Text} {path : Path} (h : TouchedBy process name file path) :
    Within name path := by
  rcases h with ⟨n, rfl⟩ | rfl
  · exact List.prefix_append _ _
  · exact List.prefix_append (entryAt name) [file]

omit hnamed in
/-- Another node of the entry is left alone. -/
theorem not_touchedBy {file other : Text} (hne : other ≠ file) (hother : ¬ Hidden other) :
    ¬ TouchedBy process name file (entryFile name other) := by
  rintro (⟨n, h⟩ | h)
  · have hsame : other = stagingName file process.pid (process.ticket n) := by simpa [entryFile, entryAt] using h
    exact hother (hsame ▸ head_stagingName _ _ _)
  · exact hne (by simpa [entryFile] using h)

omit hnamed in
theorem entry_not_touchedBy (file : Text) : ¬ TouchedBy process name file (entryAt name) := by
  rintro (⟨n, h⟩ | h)
  · simpa [entryAt] using congrArg List.length h
  · simpa [entryAt, entryFile] using congrArg List.length h

/-- A file of the entry, written in the staging directory. -/
theorem keeps_writeEntryFile {fact : Disk → Prop} {file : Text} {data : Bytes} (hname : Component name)
    (howned : Owned process name) (hfile : Component file) (hsteady : Steady crates known process fact)
    (hfirm : Firm crates known process (TouchedBy process name file) fact)
    (hdirectory : ∀ d, fact d → d.get (entryAt name) = some (ownDirectory process.uid)) :
    Keeps crates known process (Within name) fact
      (Root.writeFileAtomic process ⟨[]⟩ (joinName (derivedPath name) file) data)
      fun _ d => fact d ∧ d.get (entryFile name file) = some (ownFile process.uid data) := by
  have hmine : ∀ path, TouchedBy process name file path → Mine process path := fun path h =>
    mine_within howned (within_of_touchedBy h)
  have hwritable : Writable crates known process (TouchedBy process name file) fact
      (joinName (derivedPath name) file) (entryAt name) file := by
    refine ⟨splitRelative_entryFile hname hfile, hsteady, hfirm, fun front hne hfront => ?_,
      fun n => hmine _ (.inl ⟨n, rfl⟩), fun path h => .inl h⟩
    rcases List.prefix_concat_iff.mp (show front <+: derivedDirectory ++ [name] from hfront) with heq | hfront
    · refine .inr fun d _ hf => ?_
      rw [show front = entryAt name from heq, hdirectory d hf]
      rfl
    · exact .inl (front_of_store (by decide) hfront)
  have htarget : Target crates known process (TouchedBy process name file) fact data (entryAt name ++ [file]) :=
    ⟨.inl ⟨hmine _ (.inr rfl), .inr rfl⟩⟩
  have hwrite := keeps_writeFileAtomic hnamed hwritable htarget
  refine keeps_touch (fun _ => within_of_touchedBy) (keeps_weaken (keeps_frame hsteady hfirm hwrite)
    (fun _ _ h => ⟨h, h⟩) fun _ _ _ h => ⟨h.2, h.1⟩)

/-- The three files of the entry. -/
theorem keeps_writeEntry {lockBytes : Bytes} (hname : Component name) (howned : Owned process name)
    (hlock : canonicalJson crates.lock (candidate.lock crates) = .ok lockBytes)
    (hlength : lockBytes.length ≤ maxCacheMetadataBytes) :
    Keeps crates known process (Within name) (fun d => d.get (entryAt name) = some (ownDirectory process.uid)) (do
      Root.writeFileAtomic process ⟨[]⟩ (joinName (derivedPath name) "tree.bin") candidate.treeBytes
      Root.writeFileAtomic process ⟨[]⟩ (joinName (derivedPath name) "template.cpio") candidate.template
      Root.writeFileAtomic process ⟨[]⟩ (joinName (derivedPath name) "lock.json") lockBytes)
      fun _ d => d.get (entryAt name) = some (ownDirectory process.uid) ∧
          Holds crates process.uid candidate name d := by
  have hmine : ∀ path, Within name path → Mine process path := fun path h => mine_within howned h
  have hdirectory : ∀ value, Steady crates known process fun d => d.get (entryAt name) = value :=
    steady_get (hmine _ (List.prefix_refl _))
  have hheld : ∀ file value, Steady crates known process fun d =>
      d.get (entryFile name file) = value := fun file =>
    steady_get (hmine _ (List.prefix_append (entryAt name) [file]))
  have hfirm : ∀ file other, other ≠ file → ¬ Hidden other → ∀ value,
      Firm crates known process (TouchedBy process name file) fun d => d.get (entryFile name other) = value :=
    fun file other hne hother => firm_get (hmine _ (List.prefix_append (entryAt name) [other]))
      (not_touchedBy hne hother)
  have hfirmDirectory : ∀ file value,
      Firm crates known process (TouchedBy process name file) fun d => d.get (entryAt name) = value :=
    fun file => firm_get (hmine _ (List.prefix_refl _)) (entry_not_touchedBy file)
  refine keeps_bind (keeps_writeEntryFile hnamed hname howned (by decide) (hdirectory _) (hfirmDirectory _ _)
    fun _ h => h) fun _ => ?_
  refine keeps_bind (keeps_writeEntryFile hnamed hname howned (by decide) (firm_and (hdirectory _) (hheld _ _))
    (firm_and (hfirmDirectory _ _) (hfirm _ _ (by decide) (by decide) _)) fun _ h => h.1) fun _ => ?_
  refine keeps_weaken (keeps_writeEntryFile hnamed hname howned (by decide)
    (firm_and (firm_and (hdirectory _) (hheld _ _)) (hheld _ _))
    (firm_and (firm_and (hfirmDirectory _ _) (hfirm _ _ (by decide) (by decide) _))
      (hfirm _ _ (by decide) (by decide) _)) fun _ h => h.1.1) (fun _ _ h => h) fun _ d _ h => ?_
  obtain ⟨⟨⟨hentry, htree⟩, htemplate⟩, hlockFile⟩ := h
  exact ⟨hentry, htree, htemplate, lockBytes, hlock, hlength, hlockFile⟩

theorem keeps_publishDerived (hk : known candidate) :
    Keeps crates known process (Mine process) (fun _ => True) (publishDerived crates process ⟨[]⟩ candidate)
      fun _ _ => True := by
  refine keeps_try firm_const fun lockBytes hlock => keeps_require firm_const fun hlength => ?_
  rw [decide_eq_true_eq] at hlength
  have hderived : Keeps crates known process (Mine process) (fun _ => True)
      (Root.openOrCreateDirectory process ⟨[]⟩ "derived") fun _ _ => True :=
    keeps_openOrCreateDirectory hnamed (by decide : components "derived" = .ok derivedDirectory) (by decide)
  refine keeps_bind hderived fun _ => keeps_bind (keeps_drawStagingName _) fun name =>
    keeps_given (fun _ _ h => h) ?_
  rintro ⟨n, hn⟩
  have howned : Owned process name := ⟨_, n, hn⟩
  have hname : Component name := hn ▸ component_stagingName (hnamed candidate hk).2 _ _
  refine keeps_touch (fun _ h => mine_within howned h) ?_
  refine keeps_bind (keeps_weaken (keeps_createStaging hnamed hname howned)
    (fun _ _ _ => trivial) fun _ _ _ h => h) fun _ => ?_
  have hentry : Steady crates known process fun d => d.get (entryAt name) = some (ownDirectory process.uid) ∧
      Holds crates process.uid candidate name d :=
    firm_and (steady_get (mine_within howned (List.prefix_refl _)) _) (steady_holds howned)
  refine keeps_bind (keeps_attempt (fun _ => hentry)
    (keeps_writeEntry hnamed hname howned hlock hlength)) fun written => ?_
  have hcleanup : ∀ {pre : Disk → Prop}, Keeps crates known process (Within name) pre
      (cleanupStaging ⟨[]⟩ (derivedPath name)) fun _ _ => True :=
    keeps_weaken (keeps_cleanupStaging hnamed hname howned) (fun _ _ _ => trivial) fun _ _ _ h => h
  cases written with
  | error e => exact keeps_bind hcleanup fun _ => keeps_fail firm_const
  | ok value =>
    refine keeps_bind (keeps_attempt (fun _ => firm_const) (keeps_weaken (keeps_renameEntry hnamed hk hname howned)
      (fun _ _ h => h value rfl) fun _ _ _ h => h)) fun renamed => ?_
    cases renamed with
    | ok value => exact keeps_pure firm_const fun _ _ _ => trivial
    | error e =>
      refine keeps_bind hcleanup fun _ => keeps_bind (keeps_touch (fun _ hno => False.elim hno)
        (keeps_entryExists _)) fun there => ?_
      split
      · exact keeps_pure firm_const fun _ _ _ => trivial
      · exact keeps_fail firm_const

omit hnamed in
/-- A derived entry with a file in it is the entry of a known candidate. -/
theorem Consistent.entry_of_file {d : Disk} {file : Text} {node : Node}
    (hd : Consistent crates process.uid known d) (hname : ¬ Hidden name)
    (hget : d.get (entryAt name ++ [file]) = some node) : d.get (entryAt name) = some (ownDirectory process.uid) ∧
      ∃ candidate, Holds crates process.uid candidate name d := by
  obtain ⟨stat, hentry⟩ := isDirectory_iff.mp (hd.closed _ _ _ hget)
  obtain ⟨hnode, candidate, -, -, hholds⟩ := hd.entries name _ hname hentry
  exact ⟨hentry.trans (congrArg some hnode), candidate, hholds⟩

omit hnamed in
/-- A file of a derived entry belongs to the run's user. -/
theorem HeldAt.own {d : Disk} {file : Text} {limit : Nat} {data : Bytes}
    (hd : Consistent crates process.uid known d) (hname : ¬ Hidden name) (hfile : file ∈ derivedNames)
    (h : HeldAt (entryAt name ++ [file]) limit data d) :
    d.get (entryFile name file) = some (ownFile process.uid data) := by
  obtain ⟨stat, hget⟩ := h.file
  obtain ⟨-, candidate, hholds⟩ := hd.entry_of_file hname hget
  have howner : ∃ other, d.get (entryFile name file) = some (ownFile process.uid other) := by
    obtain ⟨lockBytes, -, -, hlock⟩ := hholds.lock
    simp only [derivedNames, List.mem_cons, List.not_mem_nil, or_false] at hfile
    rcases hfile with rfl | rfl | rfl
    · exact ⟨_, hholds.tree⟩
    · exact ⟨_, hholds.template⟩
    · exact ⟨_, hlock⟩
  obtain ⟨other, hother⟩ := howner
  have hsame : Node.file stat data = ownFile process.uid other := Option.some.inj (hget.symm.trans hother)
  rw [hother, (Node.file.inj hsame).2]

theorem keeps_verifyDerived (hk : known candidate) {fact : Disk → Prop}
    (hfact : Steady crates known process fact) : Keeps crates known process (Mine process) fact
      (verifyDerived crates ⟨[]⟩ candidate.closure.canonicalDigest candidate.treeBytes
        candidate.closure.templateSha256 (candidate.closureSha256 crates) candidate.closure.treeSha256)
      fun _ d => Verified crates process.uid candidate d ∧ fact d := by
  obtain ⟨hvisible, hcomponent⟩ := hnamed candidate hk
  have hsplit : ∀ file ∈ derivedNames,
      splitRelative (joinName (derivedPath candidate.closure.canonicalDigest) file) =
      .ok (entryAt candidate.closure.canonicalDigest, file) := fun file hfile =>
    splitRelative_entryFile hcomponent ((by decide : ∀ file ∈ derivedNames, Component file) file hfile)
  have hpub : ∀ file ∈ derivedNames, ¬ Staged (entryAt candidate.closure.canonicalDigest ++
      [file]) := fun file hfile =>
    not_staged_entryFile hvisible ((by decide : ∀ file ∈ derivedNames, ¬ Hidden file) file hfile)
  have hheld : ∀ file ∈ derivedNames, ∀ limit data,
      Steady crates known process (HeldAt (entryAt candidate.closure.canonicalDigest ++ [file]) limit data) :=
    fun file hfile limit data => firm_of_lasting (HeldAt.lasting (hpub file hfile) limit data)
  have htreeName : utf8 "tree.bin" ∈ derivedNames := by decide
  have htemplateName : utf8 "template.cpio" ∈ derivedNames := by decide
  have hlockName : utf8 "lock.json" ∈ derivedNames := by decide
  refine keeps_bind (keeps_carry hfact (keeps_readRequired (hsplit _ htreeName) (hpub _ htreeName))) fun tree => ?_
  have hfirst := firm_and (hheld _ htreeName maxCacheMetadataBytes tree) hfact
  refine keeps_require hfirst fun htree => ?_
  rw [beq_iff_eq] at htree
  subst htree
  have hdigest : ∀ digest, Steady crates known process fun d => ∃ data,
      HeldAt (entryAt candidate.closure.canonicalDigest ++ [utf8 "template.cpio"]) maxTemplateBytes data d ∧
        digest = crates.digest data := by
    rintro digest d d' hd hr ⟨data, hdata, hsame⟩
    exact ⟨data, hheld _ htemplateName _ data d d' hd hr hdata, hsame⟩
  refine keeps_bind (keeps_carry hfirst (keeps_mapErr hdigest
    (keeps_sha256File crates.digest (hsplit _ htemplateName) (hpub _ htemplateName)))) fun template => ?_
  have hsecond := firm_and (hdigest template) hfirst
  refine keeps_require hsecond fun htemplate => ?_
  rw [beq_iff_eq] at htemplate
  refine keeps_bind (keeps_carry hsecond (keeps_readRequired (hsplit _ hlockName) (hpub _ hlockName)))
    fun lockBytes => ?_
  have hthird := firm_and (hheld _ hlockName maxCacheMetadataBytes lockBytes) hsecond
  refine keeps_try hthird fun lock hlock => keeps_lift hthird fun _ hsame d hd h => ?_
  obtain ⟨hlockHeld, ⟨data, hdata, hdataDigest⟩, htreeHeld, hf⟩ := h
  have hlockEq : lock = candidate.lock crates := beq_iff_eq.mp (require_eq_ok.mp hsame)
  obtain ⟨stat, htreeFile⟩ := htreeHeld.file
  refine ⟨⟨(hd.entry_of_file hvisible htreeFile).1, htreeHeld.own hd hvisible htreeName,
    ⟨data, ?_, ?_, hdata.within⟩, lockBytes, hlockHeld.own hd hvisible hlockName, ?_, hlockHeld.within⟩, hf⟩
  · exact hdata.own hd hvisible htemplateName
  · rw [← hdataDigest, htemplate]
  · rw [mapError_eq_ok.mp hlock, hlockEq]

omit hnamed in
theorem keeps_requirePrivateDerived (h : Named candidate) :
    Keeps crates known process Nothing (fun _ => True)
      (requirePrivateDerived process ⟨[]⟩ candidate.closure.canonicalDigest) fun _ _ => True := by
  refine keeps_bind (keeps_requirePrivateDirectory _) fun _ => keeps_forEach _ fun file hfile => ?_
  exact keeps_requirePrivateFile (splitRelative_entryFile h.2
      ((by decide : ∀ file ∈ derivedNames, Component file) file hfile))
    (not_staged_entryFile h.1 ((by decide : ∀ file ∈ derivedNames, ¬ Hidden file) file hfile))

/-! ## The closure -/

theorem keeps_publishClosure (hk : known candidate) :
    Keeps crates known process (Mine process)
      (fun d => Verified crates process.uid candidate d ∧ Retained crates process.uid candidate d)
      (publishClosure process ⟨[]⟩ candidate.closureBytes)
      fun _ d => d.get closureAt = some (ownFile process.uid candidate.closureBytes) := by
  have hlasting : Lasting fun d => Verified crates process.uid candidate d ∧
      Retained crates process.uid candidate d :=
    fun d d' hkept h => ⟨h.1.lasts (hnamed candidate hk) hkept, h.2.lasts hkept⟩
  have hwritable : Writable crates known process (Mine process)
      (fun d => Verified crates process.uid candidate d ∧
        Retained crates process.uid candidate d) rawClosurePath rawDirectory
      "closure.json" :=
    writable_published splitRelative_rawClosurePath (by decide) (firm_of_lasting hlasting)
      (firm_of_lasting hlasting)
  have hclosure : ∀ node, Steady crates known process fun d => d.get closureAt = some node := fun node =>
    firm_of_lasting (lasting_get not_staged_closure node)
  refine keeps_bind (keeps_publishExclusive hnamed hwritable
    ⟨.inr ⟨not_staged_closure, fun d _ h => .inr ⟨h.1, ?_⟩⟩⟩) fun published => ?_
  · intro d' hget hkept
    have hlasts := hlasting d d' hkept h.2
    exact .inr (.inr (.inr ⟨rfl, candidate, hk, hget, hlasts.1, hlasts.2⟩))
  · have hsteady : Steady crates known process fun d => published = true →
        d.get closureAt = some (ownFile process.uid candidate.closureBytes) := firm_imp fun _ => hclosure _
    cases published with
    | true => exact keeps_pure hsteady fun _ _ h => h rfl
    | false =>
      have hheld : ∀ data, Steady crates known process (HeldAt closureAt maxCacheMetadataBytes data) := fun data =>
        firm_of_lasting (HeldAt.lasting not_staged_closure _ data)
      refine keeps_bind (keeps_weaken (keeps_touch (fun _ hno => False.elim hno)
        (keeps_readFile splitRelative_rawClosurePath not_staged_closure)) (fun _ _ _ => trivial) fun _ _ _ h => h)
        fun existing => keeps_require (hheld existing) fun hsame => ?_
      rw [beq_iff_eq] at hsame
      subst hsame
      refine keeps_weaken (keeps_carry (hheld _)
        (keeps_requirePrivateFile splitRelative_rawClosurePath not_staged_closure))
        (fun _ _ h => h) fun _ d hd h => ?_
      obtain ⟨stat, hget⟩ := h.2.file
      obtain ⟨other, -, hnode, -⟩ := hd.closure _ hget
      have hget' : d.get closureAt = some (.file stat candidate.closureBytes) := hget
      rw [hget', hnode, (Node.file.inj hnode).2]

/-! ## A publication -/

/-- `publish` once the store is open. -/
def publishInto (crates : Crates) (process : Process) (candidate : Candidate)
    (root : Root) : Action AssembledWorkload := do
  match ← root.readFileIfExists rawClosurePath maxCacheMetadataBytes with
  | some existing => require (existing == candidate.closureBytes) differentClosure
  | none => pure ()
  let _ ← root.openOrCreateDirectory process "raw/sha256"
  Routine.forEach (fun object => writeObject crates process root object.2) candidate.graph.objects
  publishDerived crates process root candidate
  requirePrivateDerived process root candidate.closure.canonicalDigest
  verifyDerived crates root candidate.closure.canonicalDigest candidate.treeBytes candidate.closure.templateSha256
    (candidate.closureSha256 crates) candidate.closure.treeSha256
  publishClosure process root candidate.closureBytes
  pure (candidate.assembled crates)

theorem keeps_publishInto (hinj : Set.InjOn crates.digest (knownObjects known)) (hk : known candidate) :
    Keeps crates known process (Mine process) (fun _ => True) (publishInto crates process candidate ⟨[]⟩)
      fun _ d => d.get closureAt = some (ownFile process.uid candidate.closureBytes) := by
  have hnext : ∀ r : Unit, Keeps crates known process (Mine process) (fun _ => True) (do
      let _ ← Root.openOrCreateDirectory process ⟨[]⟩ "raw/sha256"
      Routine.forEach (fun object => writeObject crates process ⟨[]⟩ object.2) candidate.graph.objects
      publishDerived crates process ⟨[]⟩ candidate
      requirePrivateDerived process ⟨[]⟩ candidate.closure.canonicalDigest
      verifyDerived crates ⟨[]⟩ candidate.closure.canonicalDigest candidate.treeBytes
        candidate.closure.templateSha256 (candidate.closureSha256 crates) candidate.closure.treeSha256
      publishClosure process ⟨[]⟩ candidate.closureBytes
      pure (candidate.assembled crates))
      fun _ d => d.get closureAt = some (ownFile process.uid candidate.closureBytes) := by
    intro _
    have hraw : Keeps crates known process (Mine process) (fun _ => True)
        (Root.openOrCreateDirectory process ⟨[]⟩ "raw/sha256") fun _ _ => True := by
      exact keeps_openOrCreateDirectory hnamed (by decide : components "raw/sha256" = .ok objectsDirectory)
        (by decide)
    have hretained : Steady crates known process (Retained crates process.uid candidate) :=
      firm_of_lasting fun _ _ hkept h => h.lasts hkept
    have hobjects : Keeps crates known process (Mine process) (fun _ => True)
        (Routine.forEach (fun object => writeObject crates process ⟨[]⟩ object.2) candidate.graph.objects)
        fun _ d => Retained crates process.uid candidate d :=
      keeps_forEach_lasting (fun _ => lasting_get (not_staged_object not_hidden_hex) _) fun object hobject =>
        keeps_writeObject hnamed hinj ⟨candidate, hk, object, hobject, rfl⟩
    refine keeps_bind hraw fun _ => keeps_bind hobjects fun _ => ?_
    refine keeps_bind (keeps_weaken (keeps_frame hretained (firm_of_lasting fun _ _ hkept h => h.lasts hkept)
      (keeps_publishDerived hnamed hk)) (fun _ _ h => ⟨trivial, h⟩) fun _ _ _ h => h.2) fun _ => ?_
    refine keeps_bind (keeps_weaken (keeps_carry hretained (keeps_requirePrivateDerived (hnamed candidate hk)))
      (fun _ _ h => h) fun _ _ _ h => h.2) fun _ => ?_
    refine keeps_bind (keeps_verifyDerived hnamed hk hretained) fun _ => ?_
    refine keeps_bind (keeps_publishClosure hnamed hk) fun _ => ?_
    exact keeps_pure (firm_of_lasting (lasting_get not_staged_closure _)) fun _ _ h => h
  refine keeps_bind (keeps_weaken (keeps_touch (fun _ hno => False.elim hno)
    (keeps_readFileIfExists splitRelative_rawClosurePath not_staged_closure))
      (fun _ _ h => h) fun _ _ _ _ => trivial)
    fun found => ?_
  cases found with
  | none => exact hnext ()
  | some existing => exact keeps_try firm_const fun r _ => hnext r

end Publishing

end SimFerret.Store
