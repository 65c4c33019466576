import SimFerret.Store.Writes

/-!
# SimFerret.Store.Retry — the derived entry, made or found

A publication writes the three files of a derived entry into a staging directory and renames it.  Where the
entry is there already, the staging directory is cleaned up.

* `gives_stageEntry`: the staging directory with its files.
* `gives_cleanupStaging`: the directory and its files are removed, and nothing else.
* `gives_renameEntry`: the rename, in its two outcomes.
* `gives_publishDerived`: the derived entry is there, complete.
-/

namespace SimFerret.Store

open Workload

/-! ## The derived entry -/

section Derived

variable {crates : Crates} {process : Process} {n : Nat} {d : Disk} {candidate : Candidate} {name : Text}

/-- A subtree moved into a directory. -/
theorem closed_move {source target : Path} (hclosed : Closed d) (h : ¬ source <+: target)
    (h' : ¬ target <+: source) (hparent : d.isDirectory target.dropLast = true) :
    Closed (d.move source target) := by
  have hget := Disk.get_move (d := d) h h'
  have hsame : ∀ path, ¬ target <+: path → ¬ source <+: path →
      (d.move source target).isDirectory path = d.isDirectory path := by
    intro path ht hs
    rw [Disk.isDirectory, hget, if_neg ht, if_neg hs]
    rfl
  intro path c node hnode
  rw [hget] at hnode
  split_ifs at hnode with htarget hsource
  · rcases List.prefix_concat_iff.mp htarget with heq | hbelow
    · -- the target itself stands in its directory
      have hpath : target.dropLast = path := by rw [heq, List.dropLast_concat]
      rw [hpath] at hparent
      rw [hsame, hparent]
      · exact fun hpre => absurd hpre.length_le (by rw [heq]; simp)
      · intro hpre
        refine h (hpre.trans ?_)
        rw [heq]
        exact List.prefix_append _ _
    · obtain ⟨rest, rfl⟩ := hbelow
      rw [List.append_assoc, List.drop_left', ← List.append_assoc] at hnode
      · have hdir := hclosed _ _ _ hnode
        rw [Disk.isDirectory, hget, if_pos (List.prefix_append _ _), List.drop_left']
        · exact hdir
        · rfl
      · rfl
  · rw [hsame]
    · exact hclosed _ _ _ hnode
    · exact fun hpre => htarget (hpre.trans (List.prefix_append _ _))
    · exact fun hpre => hsource (hpre.trans (List.prefix_append _ _))

/-- A directory that nothing was below, made. -/
theorem closed_of_directory {d' : Disk} {path : Path} {node : Node} (hclosed : Closed d)
    (hparent : d.isDirectory path.dropLast = true) (hnone : d.get path = none)
    (hget : ∀ p, d'.get p = if p = path then some node else d.get p) : Closed d' := by
  have hdir : ∀ p, d.isDirectory p = true → d'.isDirectory p = true := by
    intro p hp
    have hne : p ≠ path := by
      rintro rfl
      rw [Disk.isDirectory, hnone] at hp
      cases hp
    rw [Disk.isDirectory, hget, if_neg hne]
    exact hp
  intro p c other hp
  rw [hget] at hp
  split_ifs at hp with hpath
  · refine hdir p ?_
    rw [← hpath, List.dropLast_concat] at hparent
    exact hparent
  · exact hdir p (hclosed p c other hp)

/-- A file of a staged entry is removed. -/
theorem gives_removeEntryFile {file : Text} {data : Bytes} (hclosed : Closed d) (hname : Component name)
    (hfile : Component file) (hget : d.get (entryFile name file) = some (ownFile process.uid data)) :
    Gives process.uid (ignored (Root.removeFileIfExists ⟨[]⟩ (joinName (derivedPath name) file))) n d (.ok ()) n
      (d.erase (entryFile name file)) := by
  have hexec : exec process.uid (.unlink (entryAt name) file) d = .ok ((), d.erase (entryFile name file)) := by
    have hget' : d.get (entryAt name ++ [file]) = some (ownFile process.uid data) := hget
    simp only [exec, hget']
    rfl
  have hopen : Gives process.uid (Root.openBeneath [] (entryAt name)) n d (.ok (entryAt name)) n d :=
    gives_openParent hclosed (show d.get (entryAt name ++ [file]) = _ from hget)
  have hremove : Gives process.uid (Root.removeFileIfExists ⟨[]⟩ (joinName (derivedPath name) file)) n d (.ok ()) n
      (d.erase (entryFile name file)) :=
    Gives.lift_bind (splitRelative_entryFile hname hfile)
      (Gives.bind hopen (Gives.bind (gives_kernel (perform_ok hexec)) (gives_pure ())))
  exact Gives.bind hremove.attempt (gives_pure ())

theorem closed_erase {path : Path} (hclosed : Closed d) (hbelow : ∀ c, d.get (path ++ [c]) = none) :
    Closed (d.erase path) := by
  intro p c node hp
  rw [Disk.get_erase] at hp
  split_ifs at hp with hpath
  have hne : p ≠ path := by
    rintro rfl
    rw [hbelow c] at hp
    cases hp
  rw [Disk.isDirectory, Disk.get_erase, if_neg hne]
  exact hclosed p c node hp

/-- What stands in a staging directory whose three files were written. -/
structure StagedEntry (process : Process) (candidate : Candidate) (lockBytes : Bytes) (name : Text)
    (d d' : Disk) : Prop where
  closed : Closed d'
  directory : d'.get (entryAt name) = some (ownDirectory process.uid)
  tree : d'.get (entryFile name "tree.bin") = some (ownFile process.uid candidate.treeBytes)
  template : d'.get (entryFile name "template.cpio") = some (ownFile process.uid candidate.template)
  lock : d'.get (entryFile name "lock.json") = some (ownFile process.uid lockBytes)
  others : ∀ p, p ≠ entryAt name → p ≠ entryFile name "tree.bin" → p ≠ entryFile name "template.cpio" →
    p ≠ entryFile name "lock.json" → d'.get p = d.get p

/-- A node that is not in its directory is not there. -/
theorem Closed.below (h : Closed d) {path : Path} (hnone : d.get path = none) {rest : Path} (hne : rest ≠ []) :
    d.get (path ++ rest) = none :=
  get_below h (by rw [Disk.isDirectory, hnone]) rest hne

/-- One file of the entry. -/
theorem gives_writeEntryFile {file : Text} {data : Bytes} (hclosed : Closed d) (hname : Component name)
    (hfile : Component file) (hderived : Way process.uid d derivedDirectory)
    (hdirectory : d.get (entryAt name) = some (ownDirectory process.uid))
    (hfree : d.get (entryAt name ++ [stagingAt process file n]) = none)
    (hnone : d.get (entryFile name file) = none) :
    ∃ d', Gives process.uid (Root.writeFileAtomic process ⟨[]⟩ (joinName (derivedPath name) file) data) n d
      (.ok ()) (n + 1) d' ∧ Closed d' ∧ ∀ p, d'.get p = if p = entryFile name file then
      some (ownFile process.uid data) else d.get p := by
  refine gives_writeFileAtomic ⟨splitRelative_entryFile hname hfile, hclosed, by simp [entryAt], ?_, hfree, ?_⟩
  · intro front hne hfront
    rcases List.prefix_concat_iff.mp (show front <+: derivedDirectory ++ [name] from hfront) with heq | hfront
    · exact ⟨_, heq ▸ hdirectory, private_ownDirectory process.uid⟩
    · exact hderived front hne hfront
  · have hnone' : d.get (entryAt name ++ [file]) = none := hnone
    rw [Disk.isDirectory, hnone']

theorem entryFile_inj {name file other : Text} : entryFile name file = entryFile name other ↔ file = other := by
  simp [entryFile]

theorem staging_ne_visible {process : Process} {file other : Text} (h : ¬ Hidden other) (n : Nat) :
    stagingAt process file n ≠ other := by
  rintro rfl
  exact h (head_stagingName _ _ _)

/-- **The staging directory and its files.** -/
theorem gives_stageEntry {lockBytes : Bytes} (hclosed : Closed d) (hname : Component name)
    (hderived : Way process.uid d derivedDirectory) (hfree : d.get (entryAt name) = none) :
    ∃ d₁ d', Gives process.uid (Root.createDirectory ⟨[]⟩ (derivedPath name)) n d (.ok ()) n d₁ ∧
      Gives process.uid (do
        Root.writeFileAtomic process ⟨[]⟩ (joinName (derivedPath name) "tree.bin") candidate.treeBytes
        Root.writeFileAtomic process ⟨[]⟩ (joinName (derivedPath name) "template.cpio") candidate.template
        Root.writeFileAtomic process ⟨[]⟩ (joinName (derivedPath name) "lock.json") lockBytes)
        n d₁ (.ok ()) (n + 3) d' ∧ StagedEntry process candidate lockBytes name d d' := by
  have hparent : d.isDirectory derivedDirectory = true := hderived.isDirectory (by decide) (List.prefix_refl _)
  have hcreate : exec process.uid (.mkdirat derivedDirectory name) d =
      .ok ((), d.set (entryAt name) (ownDirectory process.uid)) := create_ok hfree hparent
  have hget₁ : ∀ p, (d.set (entryAt name) (ownDirectory process.uid)).get p =
      if p = entryAt name then some (ownDirectory process.uid) else d.get p :=
    fun p => Disk.get_set d _ p _
  have hclosed₁ := @closed_of_directory d _ (entryAt name) _ hclosed hparent hfree hget₁
  have hderived' : ∀ d' : Disk, (∀ p, p <+: derivedDirectory → d'.get p = d.get p) →
      Way process.uid d' derivedDirectory :=
    fun d' hsame => hderived.of_get fun front _ hfront => hsame front hfront
  have hfront : ∀ p, p <+: derivedDirectory → p ≠ entryAt name ∧ ∀ file, p ≠ entryFile name file := by
    intro p hp
    have hlength := hp.length_le
    refine ⟨?_, fun file => ?_⟩
    · rintro rfl
      simp [entryAt, derivedDirectory] at hlength
    · rintro rfl
      simp [entryFile, derivedDirectory] at hlength
  have hbelow : ∀ file, d.get (entryFile name file) = none := fun file =>
    @Closed.below d hclosed (entryAt name) hfree [file] (by simp)
  have hself : ∀ file, entryFile name file ≠ entryAt name :=
    fun file heq => by simpa [entryFile, entryAt] using congrArg List.length heq
  have hstaging : ∀ file n, entryAt name ++ [stagingAt process file n] =
    entryFile name (stagingAt process file n) := fun _ _ => rfl
  obtain ⟨d₂, htree, hclosed₂, hget₂⟩ :=
    @gives_writeEntryFile process n _ name "tree.bin" candidate.treeBytes hclosed₁ hname
    (by decide) (hderived' _ fun p hp => by rw [hget₁, if_neg (hfront p hp).1]) (by rw [hget₁, if_pos rfl])
    (by rw [hget₁, hstaging, if_neg (hself _), hbelow]) (by rw [hget₁, if_neg (hself _), hbelow])
  have hvisible : ∀ file ∈ derivedNames, ∀ other n,
      entryFile name (stagingAt process other n) ≠ entryFile name file :=
    fun file hfile other n heq =>
      staging_ne_visible ((by decide : ∀ file ∈ derivedNames, ¬ Hidden file) file hfile) n (entryFile_inj.mp heq)
  have htreeName : utf8 "tree.bin" ∈ derivedNames := by decide
  have htemplateName : utf8 "template.cpio" ∈ derivedNames := by decide
  have hlockName : utf8 "lock.json" ∈ derivedNames := by decide
  have htt : entryFile name "template.cpio" ≠ entryFile name "tree.bin" :=
    fun heq => absurd (entryFile_inj.mp heq) (by decide)
  have hlt : entryFile name "lock.json" ≠ entryFile name "tree.bin" :=
    fun heq => absurd (entryFile_inj.mp heq) (by decide)
  have hlm : entryFile name "lock.json" ≠ entryFile name "template.cpio" := fun heq =>
    absurd (entryFile_inj.mp heq) (by decide)
  obtain ⟨d₃, htemplate, hclosed₃, hget₃⟩ :=
    @gives_writeEntryFile process (n + 1) d₂ name "template.cpio" candidate.template
    hclosed₂ hname (by decide)
    (hderived' _ fun p hp => by rw [hget₂, if_neg ((hfront p hp).2 _), hget₁, if_neg (hfront p hp).1])
    (by rw [hget₂, if_neg (hself _).symm, hget₁, if_pos rfl])
    (by rw [hstaging, hget₂, if_neg (hvisible _ htreeName _ _), hget₁, if_neg (hself _), hbelow])
    (by rw [hget₂, if_neg htt, hget₁, if_neg (hself _), hbelow])
  obtain ⟨d₄, hlock, hclosed₄, hget₄⟩ :=
    @gives_writeEntryFile process (n + 2) d₃ name "lock.json" lockBytes hclosed₃ hname
    (by decide)
    (hderived' _ fun p hp => by
      rw [hget₃, if_neg ((hfront p hp).2 _), hget₂, if_neg ((hfront p hp).2 _), hget₁, if_neg (hfront p hp).1])
    (by rw [hget₃, if_neg (hself _).symm, hget₂, if_neg (hself _).symm, hget₁, if_pos rfl])
    (by
      rw [hstaging, hget₃, if_neg (hvisible _ htemplateName _ _), hget₂, if_neg (hvisible _ htreeName _ _),
        hget₁, if_neg (hself _), hbelow])
    (by rw [hget₃, if_neg hlm, hget₂, if_neg hlt, hget₁, if_neg (hself _), hbelow])
  refine ⟨_, d₄, ?_, Gives.bind htree (Gives.bind htemplate hlock), hclosed₄, ?_, ?_, ?_, ?_, ?_⟩
  · have hopen : Gives process.uid (Root.openBeneath [] derivedDirectory) n d (.ok derivedDirectory) n d :=
      @gives_openBeneath process.uid n d derivedDirectory [] fun front hne hfront =>
        hderived.isDirectory hne hfront
    exact Gives.lift_bind (splitRelative_derivedPath hname) (Gives.bind hopen (gives_syscall hcreate))
  · rw [hget₄, if_neg (hself _).symm, hget₃, if_neg (hself _).symm, hget₂, if_neg (hself _).symm,
      hget₁, if_pos rfl]
  · rw [hget₄, if_neg hlt.symm, hget₃, if_neg htt.symm, hget₂, if_pos rfl]
  · rw [hget₄, if_neg hlm.symm, hget₃, if_pos rfl]
  · rw [hget₄, if_pos rfl]
  · intro p h1 h2 h3 h4
    rw [hget₄, if_neg h4, hget₃, if_neg h3, hget₂, if_neg h2, hget₁, if_neg h1]

/-- Cleaning up leaves what was there before the directory was made. -/
theorem gives_cleanupStaging {d' : Disk} {lockBytes : Bytes} (hname : Component name) (hclosed : Closed d)
    (hfree : d.get (entryAt name) = none) (h : StagedEntry process candidate lockBytes name d d') :
    ∃ d'', Gives process.uid (cleanupStaging ⟨[]⟩ (derivedPath name)) n d' (.ok ()) n d'' ∧ ∀ p,
        d''.get p = d.get p := by
  have hself : ∀ file, entryFile name file ≠ entryAt name :=
    fun file heq => by simpa [entryFile, entryAt] using congrArg List.length heq
  have htt : entryFile name "template.cpio" ≠ entryFile name "tree.bin" :=
    fun heq => absurd (entryFile_inj.mp heq) (by decide)
  have hlt : entryFile name "lock.json" ≠ entryFile name "tree.bin" :=
    fun heq => absurd (entryFile_inj.mp heq) (by decide)
  have hlm : entryFile name "lock.json" ≠ entryFile name "template.cpio" := fun heq =>
    absurd (entryFile_inj.mp heq) (by decide)
  have hbelow : ∀ rest, rest ≠ [] → d.get (entryAt name ++ rest) = none := fun rest hne => hclosed.below hfree hne
  -- below a file of the entry there is nothing
  have hleaf : ∀ file c, d'.get (entryFile name file ++ [c]) = none := by
    intro file c
    have hlength : ∀ other, entryFile name file ++ [c] ≠ entryFile name other := fun other heq => by
      simpa [entryFile] using congrArg List.length heq
    have hlong : entryFile name file ++ [c] ≠ entryAt name := fun heq => by
      simpa [entryFile, entryAt] using congrArg List.length heq
    rw [h.others _ hlong (hlength _) (hlength _) (hlength _)]
    exact hbelow [file, c] (by simp)
  have hclosed₁ : Closed (d'.erase (entryFile name "tree.bin")) := closed_erase h.closed (hleaf _)
  have hget₁ := Disk.get_erase d' (entryFile name "tree.bin")
  have hclosed₂ : Closed ((d'.erase (entryFile name "tree.bin")).erase (entryFile name "template.cpio")) := by
    refine closed_erase hclosed₁ fun c => ?_
    rw [hget₁, hleaf, ite_self]
  have hget₂ := Disk.get_erase (d'.erase (entryFile name "tree.bin")) (entryFile name "template.cpio")
  have hget₃ := Disk.get_erase ((d'.erase (entryFile name "tree.bin")).erase (entryFile name "template.cpio"))
    (entryFile name "lock.json")
  -- what the three removals leave
  have hleft : ∀ p, (((d'.erase (entryFile name "tree.bin")).erase (entryFile name "template.cpio")).erase
      (entryFile name "lock.json")).get p = if p = entryAt name then
          some (ownDirectory process.uid) else d.get p := by
    intro p
    rw [hget₃, hget₂, hget₁]
    by_cases hp : p = entryAt name
    · rw [if_pos hp, hp, if_neg (hself _).symm, if_neg (hself _).symm, if_neg (hself _).symm, h.directory]
    · rw [if_neg hp]
      by_cases h1 : p = entryFile name "lock.json"
      · rw [if_pos h1, h1]
        exact (hbelow [utf8 "lock.json"] (by simp)).symm
      · by_cases h2 : p = entryFile name "template.cpio"
        · rw [if_neg h1, if_pos h2, h2]
          exact (hbelow [utf8 "template.cpio"] (by simp)).symm
        · by_cases h3 : p = entryFile name "tree.bin"
          · rw [if_neg h1, if_neg h2, if_pos h3, h3]
            exact (hbelow [utf8 "tree.bin"] (by simp)).symm
          · rw [if_neg h1, if_neg h2, if_neg h3, h.others p hp h3 h2 h1]
  have hdir₃ := hleft (entryAt name)
  rw [if_pos rfl] at hdir₃
  have hclosed₃ : Closed (((d'.erase (entryFile name "tree.bin")).erase (entryFile name "template.cpio")).erase
      (entryFile name "lock.json")) := by
    refine closed_erase hclosed₂ fun c => ?_
    rw [hget₂, hget₁, hleaf, ite_self, ite_self]
  have hempty : (((d'.erase (entryFile name "tree.bin")).erase (entryFile name "template.cpio")).erase
      (entryFile name "lock.json")).childless (entryAt name) = true := by
    refine Disk.childless_of_get fun p hp hne => ?_
    obtain ⟨rest, rfl⟩ := hp
    rw [hleft, if_neg hne]
    exact hbelow rest (by rintro rfl; exact hne (List.append_nil _))
  refine ⟨((((d'.erase (entryFile name "tree.bin")).erase (entryFile name "template.cpio")).erase
    (entryFile name "lock.json")).erase (entryAt name)), ?_, fun p => ?_⟩
  · have hfiles : Gives process.uid
        (Routine.forEach (fun file => ignored (Root.removeFileIfExists ⟨[]⟩ (joinName (derivedPath name) file)))
          derivedNames)
        n d' (.ok ()) n (((d'.erase (entryFile name "tree.bin")).erase (entryFile name "template.cpio")).erase
          (entryFile name "lock.json")) := by
      refine Gives.bind (gives_removeEntryFile h.closed hname (by decide) h.tree) ?_
      refine Gives.bind (@gives_removeEntryFile process n _ name _ candidate.template hclosed₁ hname
        (by decide) ?_) ?_
      · rw [hget₁, if_neg htt, h.template]
      refine Gives.bind (@gives_removeEntryFile process n _ name _ lockBytes hclosed₂ hname (by decide) ?_)
        (gives_pure ())
      rw [hget₂, if_neg hlm, hget₁, if_neg hlt, h.lock]
    have hexec : exec process.uid (.removeDirectory derivedDirectory name)
        (((d'.erase (entryFile name "tree.bin")).erase
        (entryFile name "template.cpio")).erase (entryFile name "lock.json")) =
        .ok ((), (((d'.erase (entryFile name "tree.bin")).erase (entryFile name "template.cpio")).erase
          (entryFile name "lock.json")).erase (entryAt name)) := by
      have hdir' : (((d'.erase (entryFile name "tree.bin")).erase (entryFile name "template.cpio")).erase
          (entryFile name "lock.json")).get (derivedDirectory ++ [name]) = some (ownDirectory process.uid) := hdir₃
      have hempty' : (((d'.erase (entryFile name "tree.bin")).erase (entryFile name "template.cpio")).erase
          (entryFile name "lock.json")).childless (derivedDirectory ++ [name]) = true := hempty
      simp only [exec, hdir', hempty', if_true]
      rfl
    have hopen := @gives_openParent process.uid n _ name derivedDirectory hclosed₃ _ hdir₃
    have hremove : Gives process.uid (Root.removeDirectoryIfExists ⟨[]⟩ (derivedPath name)) n _ (.ok ()) n _ :=
      Gives.lift_bind (splitRelative_derivedPath hname)
        (Gives.bind hopen (Gives.bind (gives_kernel (perform_ok hexec)) (gives_pure ())))
    exact Gives.bind hfiles (Gives.bind hremove.attempt (gives_pure ()))
  · rw [Disk.get_erase, hleft]
    by_cases hp : p = entryAt name
    · rw [if_pos hp, hp, hfree]
    · rw [if_neg hp, if_neg hp]

/-- A store whose directories are there or missing. -/
structure Founded (uid : Nat) (d : Disk) : Prop where
  closed : Closed d
  root : d.isDirectory [] = true
  directories : ∀ path ∈ storeDirectories, d.get path = none ∨
    ∃ stat, d.get path = some (.directory stat) ∧ stat.uid = uid ∧ stat.mode &&& 0o077 = 0

/-- The entry of the candidate is missing or complete. -/
def EntryAbsentOrWhole (crates : Crates) (uid : Nat) (candidate : Candidate) (d : Disk) : Prop :=
  d.get (entryAt candidate.closure.canonicalDigest) = none ∨
    d.get (entryAt candidate.closure.canonicalDigest) = some (ownDirectory uid) ∧
      Holds crates uid candidate candidate.closure.canonicalDigest d

theorem staged_component {process : Process} (hnamed : Named candidate) (n : Nat) :
    Component (stagingAt process candidate.closure.canonicalDigest n) := component_stagingName hnamed.2 _ _

theorem staged_ne_canonical {process : Process} (hnamed : Named candidate) (n : Nat) :
    stagingAt process candidate.closure.canonicalDigest n ≠ candidate.closure.canonicalDigest :=
  staging_ne_visible hnamed.1 n

theorem entryAt_inj {name other : Text} : entryAt name = entryAt other ↔ name = other := by
  simp [entryAt]

theorem entryAt_apart {name other : Text} (hne : name ≠ other) : ¬ entryAt name <+: entryAt other :=
  not_prefix_sibling (show derivedDirectory ++ [name] ≠ derivedDirectory ++ [other] from fun heq =>
    hne (entryAt_inj.mp heq))

/-- Outside of the staging directory nothing was written. -/
theorem StagedEntry.elsewhere {d₁ : Disk} {lockBytes : Bytes}
    (h : StagedEntry process candidate lockBytes name d d₁) (p : Path)
    (hp : ¬ entryAt name <+: p) : d₁.get p = d.get p := by
  refine h.others p ?_ ?_ ?_ ?_
  · rintro rfl
    exact hp (List.prefix_refl _)
  all_goals
    rintro rfl
    exact hp (List.prefix_append (entryAt name) [_])

/-- The derived directory is still there. -/
theorem StagedEntry.way {d₁ : Disk} {lockBytes : Bytes} (h : StagedEntry process candidate lockBytes name d d₁)
    (hderived : Way process.uid d derivedDirectory) : Way process.uid d₁ derivedDirectory := by
  refine hderived.of_get fun front _ hfront => h.elsewhere front fun hpre => ?_
  exact absurd (hpre.trans hfront).length_le (by simp [entryAt, derivedDirectory])

/-- A rename within the derived directory is its system call. -/
theorem gives_renameDerived {other : Text} {r : IoResult Unit} {d' : Disk} (hname : Component name)
    (hother : Component other) (hderived : Way process.uid d derivedDirectory)
    (hcall : Gives process.uid (syscall (.renameat (entryAt name) (entryAt other))
      (describe (derivedPath other))) n d r n d') :
    Gives process.uid (Root.rename ⟨[]⟩ (derivedPath name) (derivedPath other)) n d r n d' := by
  have hopen : Gives process.uid (Root.openBeneath [] derivedDirectory) n d (.ok derivedDirectory) n d :=
    @gives_openBeneath process.uid n d derivedDirectory [] fun front hne hfront => hderived.isDirectory hne hfront
  exact Gives.lift_bind (splitRelative_derivedPath hname) (Gives.lift_bind (splitRelative_derivedPath hother)
    (Gives.bind hopen (Gives.bind hopen hcall)))

/-- Nobody made the entry: the staging directory takes its name. -/
theorem StagedEntry.renamed {d₁ : Disk} {lockBytes : Bytes} (h : StagedEntry process candidate lockBytes name d d₁)
    (hne : name ≠ candidate.closure.canonicalDigest) (hderived : Way process.uid d derivedDirectory)
    (hnone : d.get (entryAt candidate.closure.canonicalDigest) = none) :
    d₁.rename (entryAt name) (entryAt candidate.closure.canonicalDigest) =
      .ok ((), d₁.move (entryAt name) (entryAt candidate.closure.canonicalDigest)) := by
  have hpaths : entryAt name ≠ entryAt candidate.closure.canonicalDigest := fun heq => hne (entryAt_inj.mp heq)
  have hdirectory : d₁.isDirectory derivedDirectory = true :=
    (h.way hderived).isDirectory (by decide) (List.prefix_refl _)
  have hparent : d₁.isDirectory (entryAt candidate.closure.canonicalDigest).dropLast = true := hdirectory
  have hnone₁ : d₁.get (entryAt candidate.closure.canonicalDigest) = none :=
    (h.elsewhere _ (entryAt_apart hne)).trans hnone
  rw [Disk.rename, h.directory]
  simp only [hpaths, if_false, List.isPrefixOf_iff_prefix, entryAt_apart hne, entryAt_apart hne.symm, hparent,
    Bool.not_true, Bool.false_eq_true, hnone₁, replaces]

/-- The entry is there, with its files: the rename fails. -/
theorem StagedEntry.clash {d₁ : Disk} {lockBytes : Bytes} (h : StagedEntry process candidate lockBytes name d d₁)
    (hne : name ≠ candidate.closure.canonicalDigest) (hderived : Way process.uid d derivedDirectory)
    (hthere : d.get (entryAt candidate.closure.canonicalDigest) = some (ownDirectory process.uid))
    (hholds : Holds crates process.uid candidate candidate.closure.canonicalDigest d) :
    exec process.uid (.renameat (entryAt name) (entryAt candidate.closure.canonicalDigest)) d₁ =
        .error .notempty := by
  have hpaths : entryAt name ≠ entryAt candidate.closure.canonicalDigest := fun heq => hne (entryAt_inj.mp heq)
  have hdirectory : d₁.isDirectory derivedDirectory = true :=
    (h.way hderived).isDirectory (by decide) (List.prefix_refl _)
  have hparent : d₁.isDirectory (entryAt candidate.closure.canonicalDigest).dropLast = true := hdirectory
  have hthere₁ := (h.elsewhere _ (entryAt_apart hne)).trans hthere
  -- the tree below the entry keeps it from being replaced
  have hfull : d₁.childless (entryAt candidate.closure.canonicalDigest) = false := by
    rw [← Bool.not_eq_true]
    intro hempty
    have hnone := Disk.get_of_childless hempty (List.prefix_append _ [utf8 "tree.bin"]) (by simp)
    have hfar : ¬ entryAt name <+: entryFile candidate.closure.canonicalDigest "tree.bin" := fun hpre =>
      entryAt_apart hne
        (List.prefix_of_prefix_length_le hpre
          (List.prefix_append (entryAt candidate.closure.canonicalDigest) _) le_rfl)
    have htree := (h.elsewhere _ hfar).trans hholds.tree
    rw [show d₁.get (entryFile candidate.closure.canonicalDigest "tree.bin") = none from hnone] at htree
    cases htree
  simp only [exec, Disk.rename, h.directory, hpaths, if_false, List.isPrefixOf_iff_prefix, entryAt_apart hne,
    entryAt_apart hne.symm, hparent, Bool.not_true, Bool.false_eq_true, hthere₁, replaces, hfull]

/-- **The rename of a finished staging directory.** -/
theorem gives_renameEntry {d₁ : Disk} {lockBytes : Bytes} (hnamed : Named candidate) (hname : Component name)
    (hne : name ≠ candidate.closure.canonicalDigest)
    (hlock : canonicalJson crates.lock (candidate.lock crates) = .ok lockBytes)
    (hlength : lockBytes.length ≤ maxCacheMetadataBytes) (hclosed : Closed d)
    (hderived : Way process.uid d derivedDirectory)
    (hfree : d.get (entryAt name) = none) (h : StagedEntry process candidate lockBytes name d d₁)
    (hentry : EntryAbsentOrWhole crates process.uid candidate d) :
    ∃ d' : Disk, (Gives process.uid (do
        match ← (Root.rename ⟨[]⟩ (derivedPath name) (derivedPath candidate.closure.canonicalDigest)).attempt with
        | .ok () => pure ()
        | .error e =>
          cleanupStaging ⟨[]⟩ (derivedPath name)
          if ← Root.entryExists ⟨[]⟩ (derivedPath candidate.closure.canonicalDigest) then pure () else fail e)
        n d₁ (.ok ()) n d') ∧ Closed d' ∧ d'.get (entryAt candidate.closure.canonicalDigest) =
          some (ownDirectory process.uid) ∧
      Holds crates process.uid candidate candidate.closure.canonicalDigest d' ∧
      ∀ p, ¬ derivedDirectory <+: p → d'.get p = d.get p := by
  have hderived₁ := h.way hderived
  rcases hentry with hnone | ⟨hthere, hholds⟩
  · have hparent : d₁.isDirectory derivedDirectory = true := hderived₁.isDirectory (by decide) (List.prefix_refl _)
    have hget := Disk.get_move (d := d₁) (entryAt_apart hne) (entryAt_apart hne.symm)
    have hmoved : ∀ rest, (d₁.move (entryAt name) (entryAt candidate.closure.canonicalDigest)).get
        (entryAt candidate.closure.canonicalDigest ++ rest) = d₁.get (entryAt name ++ rest) := by
      intro rest
      rw [hget, if_pos (List.prefix_append _ _), List.drop_left']
      rfl
    refine ⟨d₁.move (entryAt name) (entryAt candidate.closure.canonicalDigest), ?_,
      closed_move h.closed (entryAt_apart hne) (entryAt_apart hne.symm) hparent, ?_,
        ⟨?_, ?_, lockBytes, hlock, hlength, ?_⟩,
      fun p hp => ?_⟩
    · have hcall := gives_renameDerived (n := n) hname hnamed.2 hderived₁
        (gives_syscall (h.renamed hne hderived hnone))
      exact Gives.bind hcall.attempt (gives_pure ())
    · have hself := hmoved []
      rwa [List.append_nil, List.append_nil, h.directory] at hself
    · exact (hmoved [utf8 "tree.bin"]).trans h.tree
    · exact (hmoved [utf8 "template.cpio"]).trans h.template
    · exact (hmoved [utf8 "lock.json"]).trans h.lock
    · have hfar : ∀ other, ¬ entryAt other <+: p := fun other hpre =>
        hp ((List.prefix_append derivedDirectory [other]).trans hpre)
      rw [hget, if_neg (hfar _), if_neg (hfar _)]
      exact h.elsewhere p (hfar _)
  · -- the staging directory is cleaned up
    obtain ⟨d', hcleanup, hsame⟩ := @gives_cleanupStaging process n d candidate name d₁ lockBytes hname
      hclosed hfree h
    have hclosed' : Closed d' := by
      intro p c node hp
      rw [hsame] at hp
      rw [Disk.isDirectory, hsame]
      exact hclosed p c node hp
    have hexists : Gives process.uid (Root.entryExists ⟨[]⟩ (derivedPath candidate.closure.canonicalDigest)) n
        d' (.ok true) n d' :=
      gives_entryExists (splitRelative_derivedPath hnamed.2) hclosed' ((hsame _).trans hthere)
    refine ⟨d', ?_, hclosed', (hsame _).trans hthere,
      ⟨(hsame _).trans hholds.tree, (hsame _).trans hholds.template, ?_⟩,
      fun p _ => hsame p⟩
    · have hcall := gives_renameDerived (n := n) hname hnamed.2 hderived₁
        (gives_syscall_error (h.clash hne hderived hthere hholds))
      exact Gives.bind hcall.attempt (Gives.bind hcleanup (Gives.bind hexists (gives_pure ())))
    · obtain ⟨other, hother', hlength', hget⟩ := hholds.lock
      exact ⟨other, hother', hlength', (hsame _).trans hget⟩

theorem gives_publishDerived {lockBytes : Bytes} (hnamed : Named candidate)
    (hlock : canonicalJson crates.lock (candidate.lock crates) = .ok lockBytes)
    (hlength : lockBytes.length ≤ maxCacheMetadataBytes) (hd : Founded process.uid d)
    (hfree : d.get (entryAt (stagingAt process candidate.closure.canonicalDigest n)) = none)
    (hentry : EntryAbsentOrWhole crates process.uid candidate d) :
    ∃ d', Gives process.uid (publishDerived crates process ⟨[]⟩ candidate) n d (.ok ()) (n + 4) d' ∧ Closed d' ∧
      d'.get (entryAt candidate.closure.canonicalDigest) = some (ownDirectory process.uid) ∧
      Holds crates process.uid candidate candidate.closure.canonicalDigest d' ∧
      ∀ p, ¬ derivedDirectory <+: p → d'.get p = d.get p := by
  have hparts : components "derived" = .ok derivedDirectory := by decide
  have hname := @staged_component candidate process hnamed n
  have hne := @staged_ne_canonical candidate process hnamed n
  have hfronts : ∀ front, front ≠ [] → front <+: derivedDirectory → d.get front = none ∨
      ∃ stat, d.get front = some (.directory stat) ∧ stat.uid = process.uid ∧ stat.mode &&& 0o077 = 0 :=
    fun front _ hfront => hd.directories front (front_of_store (by decide) hfront)
  obtain ⟨d₁, hopened, hclosed₁, hway₁, hget₁⟩ :=
    @gives_openOrCreateDirectory process n d _ derivedDirectory hparts hd.closed
    hd.root hfronts
  have hsame : ∀ p, ¬ p <+: derivedDirectory → d₁.get p = d.get p := fun p hp =>
    (hget₁ p).resolve_right fun hnew => hp hnew.2.1
  have hlong : ∀ name rest, ¬ entryAt name ++ rest <+: derivedDirectory := fun name rest hpre =>
    absurd hpre.length_le (by simp [entryAt, derivedDirectory])
  have hat : ∀ name, d₁.get (entryAt name) = d.get (entryAt name) := fun name => by
    have hself := hsame (entryAt name ++ []) (hlong name [])
    rwa [List.append_nil] at hself
  have hfile : ∀ name file, d₁.get (entryFile name file) = d.get (entryFile name file) := fun name file =>
    hsame _ (hlong name [file])
  have hentry₁ : EntryAbsentOrWhole crates process.uid candidate d₁ := by
    rcases hentry with hnone | ⟨hthere, hholds⟩
    · exact .inl ((hat _).trans hnone)
    · obtain ⟨other, hother, hlength', hget⟩ := hholds.lock
      exact .inr ⟨(hat _).trans hthere, (hfile _ _).trans hholds.tree, (hfile _ _).trans hholds.template,
        other, hother, hlength', (hfile _ _).trans hget⟩
  have hfree₁ := (hat _).trans hfree
  obtain ⟨_, d₂, hmake, hwrite, hstaged⟩ :=
    @gives_stageEntry process (n + 1) d₁ candidate _ lockBytes hclosed₁ hname hway₁ hfree₁
  obtain ⟨d₃, hrename, hclosed₃, hthere, hholds, hfar⟩ :=
    @gives_renameEntry crates process (n + 4) d₁ candidate _ d₂ lockBytes
    hnamed hname hne hlock hlength hclosed₁ hway₁ hfree₁ hstaged hentry₁
  refine ⟨d₃, ?_, hclosed₃, hthere, hholds, fun p hp => ?_⟩
  · refine Gives.lift_bind hlock (Gives.require_bind (by simpa using hlength) (Gives.bind hopened ?_))
    refine Gives.bind (gives_drawStagingName _) (Gives.bind hmake (Gives.bind hwrite.attempt ?_))
    exact hrename
  · rw [hfar p hp]
    rcases hget₁ p with hsame' | ⟨hne', hfront, -, -⟩
    · exact hsame'
    · refine absurd ?_ hp
      cases p with
      | nil => exact absurd rfl hne'
      | cons first rest =>
        obtain ⟨rfl, hrest⟩ := List.cons_prefix_cons.mp hfront
        exact List.prefix_append derivedDirectory rest

end Derived

end SimFerret.Store
