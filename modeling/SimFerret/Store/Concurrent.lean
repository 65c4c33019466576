import SimFerret.Store.Load
import SimFerret.Store.Publishers

/-!
# SimFerret.Store.Concurrent — any number of publications on one store

Publications run at the same time, operation by operation; each may fail or stop anywhere.  What they wrote
under published names is complete from the moment it is there.

* `Change`: what a publication does to a store that it may not own.
* `changes_publish`: the triple of `publish`.
* `publish_concurrent`: **a closure that exists names a complete derived entry and complete objects, and never
  changes**.
-/

namespace SimFerret.Store

open Workload

/-! ## Stores and their owners -/

/-- The store is a private directory of the user. -/
def OwnedBy (uid : Nat) (d : Disk) : Prop :=
  ∃ stat, d.get [] = some (.directory stat) ∧ stat.uid = uid ∧ stat.mode &&& 0o077 = 0

/-- No store yet, or an empty directory. -/
def Hollow (d : Disk) : Prop := ∀ path node, d.get path = some node → path = [] ∧ ∃ stat, node = .directory stat

/-- The store is empty, or its owner's. -/
def Sound (crates : Crates) (known : Candidate → Prop) (d : Disk) : Prop :=
  Hollow d ∨ ∃ uid, OwnedBy uid d ∧ Consistent crates uid known d

/-- What a publication that touches only `touch` of the staged paths does to a store that may be another user's. -/
structure Change (crates : Crates) (known : Candidate → Prop) (touch : Path → Prop) (d d' : Disk) : Prop where
  root : ∀ node, d.get [] = some node → d'.get [] = some node
  transition : ∀ uid, OwnedBy uid d → Transition crates uid known touch d d'
  sound : Sound crates known d → Sound crates known d'

section Owners

variable {crates : Crates} {known : Candidate → Prop} {process : Process} {touch : Path → Prop} {uid : Nat}
  {d d' d'' : Disk}

theorem OwnedBy.unique {other : Nat} (h : OwnedBy uid d) (h' : OwnedBy other d) : uid = other := by
  obtain ⟨stat, hget, huid, -⟩ := h
  obtain ⟨stat', hget', huid', -⟩ := h'
  have hstat : stat = stat' := Node.directory.inj (Option.some.inj (hget.symm.trans hget'))
  rw [← huid, ← huid', hstat]

theorem Hollow.consistent (h : Hollow d) (hown : OwnedBy uid d) : Consistent crates uid known d := by
  have hnone : ∀ path, path ≠ [] → d.get path = none := by
    intro path hne
    cases hget : d.get path with
    | none => rfl
    | some node => exact absurd (h path node hget).1 hne
  obtain ⟨stat, hroot, huid, hmode⟩ := hown
  refine ⟨?_, ?_, ?_, ?_, ?_, ?_⟩
  · intro path c node hget
    rw [hnone _ (by simp)] at hget
    cases hget
  · intro path node hget
    obtain ⟨rfl, -⟩ := h path node hget
    obtain rfl := Option.some.inj (hroot.symm.trans hget)
    exact ⟨huid, hmode⟩
  · intro path _ node hget
    exact (h path node hget).2
  · intro digest node _ hget
    rw [hnone _ (by simp [objectAt])] at hget
    cases hget
  · intro name node _ hget
    rw [hnone _ (by simp [entryAt])] at hget
    cases hget
  · intro node hget
    rw [hnone _ (by decide)] at hget
    cases hget

/-- The owner's store is consistent. -/
theorem Sound.consistent (h : Sound crates known d) (hown : OwnedBy uid d) : Consistent crates uid known d := by
  rcases h with hhollow | ⟨other, hother, hconsistent⟩
  · exact hhollow.consistent hown
  · rw [hown.unique hother]
    exact hconsistent

theorem OwnedBy.lasts (h : OwnedBy uid d) (hchange : Change crates known touch d d') : OwnedBy uid d' := by
  obtain ⟨stat, hroot, hrest⟩ := h
  exact ⟨stat, hchange.root _ hroot, hrest⟩

theorem Change.refl (d : Disk) : Change crates known touch d d :=
    ⟨fun _ h => h, fun _ _ => Transition.refl d, fun h => h⟩

theorem Change.trans (h : Change crates known touch d d') (h' : Change crates known touch d' d'') :
    Change crates known touch d d'' where
  root node hget := h'.root node (h.root node hget)
  transition uid hown := (h.transition uid hown).trans (h'.transition uid (hown.lasts h))
  sound hs := h'.sound (h.sound hs)

theorem Change.mono {touch' : Path → Prop} (ht : ∀ name, Hidden name → ∀ path, Beneath name path → touch path →
    touch' path) (h : Change crates known touch d d') : Change crates known touch' d d' :=
  ⟨h.root, fun uid hown => (h.transition uid hown).mono ht, h.sound⟩

/-- A transition of the owner's store. -/
theorem change_of_transition (hs : Sound crates known d) (hown : OwnedBy uid d)
    (h : Transition crates uid known touch d d') : Change crates known touch d d' := by
  obtain ⟨hkept, -, hconsistent⟩ := h (hs.consistent hown)
  obtain ⟨stat, hroot, hprivate⟩ := hown
  have hroot' : d'.get [] = some (.directory stat) := hkept [] _ (by decide) hroot
  refine ⟨fun node hget => hkept [] node (by decide) hget, fun other hother => ?_,
    fun _ => .inr ⟨uid, ⟨stat, hroot', hprivate⟩, hconsistent⟩⟩
  rw [← OwnedBy.unique ⟨stat, hroot, hprivate⟩ hother]
  exact h

/-- What a run relies on, whoever owns the store. -/
abbrev Others (crates : Crates) (known : Candidate → Prop) (process : Process) : Disk → Disk → Prop :=
  Change crates known fun path => ¬ Mine process path

/-- The triple of a routine whose user may not own the store. -/
def Changes (crates : Crates) (known : Candidate → Prop) (process : Process) {α : Type} (pre : Disk → Prop)
    (x : Action α) (post : α → Disk → Prop) : Prop :=
  Routine.Meets (Does process.uid) (Others crates known process) (Change crates known (Mine process))
    (Sound crates known) pre x post

/-- The store is the user's, and sound. -/
structure Governed (crates : Crates) (known : Candidate → Prop) (uid : Nat) (d : Disk) : Prop where
  sound : Sound crates known d
  owner : OwnedBy uid d

theorem Governed.lasts (h : Governed crates known uid d) (hchange : Change crates known touch d d') :
    Governed crates known uid d' := ⟨hchange.sound h.sound, h.owner.lasts hchange⟩

/-- A routine of the owner. -/
theorem Changes.of_keeps {α : Type} {pre : Disk → Prop} {x : Action α} {post : α → Disk → Prop}
    (h : Keeps crates known process (Mine process) pre x post) :
    Changes crates known process (fun d => OwnedBy process.uid d ∧ pre d) x post := by
  intro n d hs hp
  have hgoverned : Governed crates known process.uid d := ⟨hs, hp.1⟩
  have hrely : ∀ s s', Governed crates known process.uid s → Others crates known process s s' →
      Rely crates known process s s' ∧ Governed crates known process.uid s' := fun s s' hf hchange =>
    ⟨hchange.transition _ hf.owner, hf.lasts hchange⟩
  have hguar : ∀ s s', Governed crates known process.uid s →
      Transition crates process.uid known (Mine process) s s' →
      Change crates known (Mine process) s s' ∧ Governed crates known process.uid s' := by
    intro s s' hf htransition
    have hchange := change_of_transition hf.sound hf.owner htransition
    exact ⟨hchange, hf.lasts hchange⟩
  refine (Prog.Safe.within hrely hguar hgoverned (h n d (hs.consistent hp.1) hp.2)).mono fun out d' hout => ?_
  exact ⟨hout.2.sound, hout.1.2⟩

/-! ## Opening the store -/

theorem others_refl (d : Disk) : Others crates known process d d := Change.refl d

theorem others_base (d d' : Disk) (hs : Sound crates known d) (h : Others crates known process d d') :
    Sound crates known d' := h.sound hs

theorem stable_const {p : Prop} : Routine.Stable (Others crates known process) (Sound crates known) fun _ => p :=
  fun _ _ _ _ h => h

theorem stable_root (node : Node) :
    Routine.Stable (Others crates known process) (Sound crates known) fun d => d.get [] = some node :=
  fun _ _ _ h hget => h.root node hget

theorem changes_fail {α : Type} {pre : Disk → Prop} {e : IoError} {post : α → Disk → Prop}
    (hpre : Routine.Stable (Others crates known process) (Sound crates known) pre) :
    Changes crates known process pre (fail e) post :=
  Routine.Meets.lift others_base hpre fun a h => by cases h

/-- A system call on the store's directory. -/
theorem changes_syscall {op : Op} {error : Errno → IoError} {post : op.Value → Disk → Prop}
    (hop : ∀ path data, op ≠ .write path data)
    (hpost : ∀ value, Routine.Stable (Others crates known process) (Sound crates known) (post value))
    (hdone : ∀ d value d', Sound crates known d → exec process.uid op d = .ok (value, d') →
      Change crates known (Mine process) d d' ∧ post value d') :
    Changes crates known process (fun _ => True) (syscall op error) post := by
  have hsteady : ∀ reply : op.Reply, Routine.Stable (Others crates known process) (Sound crates known)
      fun d => ∀ value, reply = .ok value → post value d :=
    fun reply d d' hs hr h value hvalue => hpost value d d' hs hr (h value hvalue)
  have hcall : Changes crates known process (fun _ => True) (kernel op)
      fun reply d => ∀ value, reply = .ok value → post value d := by
    refine Routine.Meets.call others_base stable_const hsteady fun d reply d' hs _ hdoes => ?_
    cases hdoes with
    | done h =>
      obtain ⟨hchange, hq⟩ := hdone d _ d' hs h
      refine ⟨hchange, hchange.sound hs, fun value hvalue => ?_⟩
      cases hvalue
      exact hq
    | failed => exact ⟨Change.refl d, hs, fun value hvalue => by cases hvalue⟩
    | torn path data => exact absurd rfl (hop path data)
  refine Routine.Meets.bind others_refl others_base hcall fun reply => ?_
  cases reply with
  | ok value => exact Routine.Meets.pure others_base (hsteady _) fun d _ h => h value rfl
  | error e => exact changes_fail (hsteady _)

/-- Making the store's directory. -/
theorem change_createStore {value : Unit} (hs : Sound crates known d)
    (h : exec uid .createStore d = .ok (value, d')) : Change crates known touch d d' := by
  simp only [exec] at h
  split at h
  next hnone =>
    obtain ⟨-, rfl⟩ := Prod.mk.inj (Except.ok.inj h)
    have hhollow : Hollow d := by
      rcases hs with hhollow | ⟨uid, ⟨stat, hroot, -⟩, -⟩
      · exact hhollow
      · rw [hnone] at hroot
        cases hroot
    refine ⟨fun node hget => ?_, fun uid hown => ?_, fun _ => .inl fun path node hget => ?_⟩
    · rw [hnone] at hget
      cases hget
    · obtain ⟨stat, hroot, -⟩ := hown
      rw [hnone] at hroot
      cases hroot
    · rw [Disk.get_set] at hget
      split_ifs at hget with hpath
      · exact ⟨hpath, _, (Option.some.inj hget).symm⟩
      · exact hhollow path node hget
  · obtain ⟨-, rfl⟩ := Prod.mk.inj (Except.ok.inj h)
    exact Change.refl d
  · cases h

theorem requirePrivate_ok {stat : Stat} {relative : Text} {value : Unit}
    (h : Root.requirePrivate process stat relative = .ok value) :
    stat.uid = process.uid ∧ stat.mode &&& 0o077 = 0 := by
  obtain ⟨_, huid, hmode⟩ := bind_eq_ok.mp h
  exact ⟨beq_iff_eq.mp (require_eq_ok.mp huid), beq_iff_eq.mp (require_eq_ok.mp hmode)⟩

/-- The opened store is the user's. -/
theorem changes_openPrivate :
    Changes crates known process (fun _ => True) (Root.openPrivate process)
      fun root d => root = ⟨[]⟩ ∧ OwnedBy process.uid d := by
  have hopen : Changes crates known process (fun _ => True) Root.open fun root _ => root = ⟨[]⟩ := by
    refine Routine.Meets.bind others_refl others_base (changes_syscall (by rintro _ _ ⟨⟩) (fun _ => stable_const)
      fun d value d' _ h => ⟨?_, trivial⟩) fun _ => Routine.Meets.pure others_base stable_const fun _ _ _ => rfl
    simp only [exec] at h
    split at h <;> cases h
    exact Change.refl d
  refine Routine.Meets.bind others_refl others_base hopen fun root => ?_
  intro n d hs hroot
  subst hroot
  refine (?_ : Changes crates known process (fun _ => True) _ _) n d hs trivial
  refine Routine.Meets.bind others_refl others_base (changes_syscall (by rintro _ _ ⟨⟩)
    (fun stat => stable_root (.directory stat)) fun d stat d' _ h => ?_) fun stat => ?_
  · obtain ⟨rfl, hget⟩ := exec_fstat h
    exact ⟨Change.refl d', hget⟩
  · refine Routine.Meets.bind others_refl others_base (Routine.Meets.lift others_base (stable_root _)
      fun _ hprivate d _ hget => (⟨stat, hget, requirePrivate_ok hprivate⟩ : OwnedBy process.uid d)) fun _ => ?_
    refine Routine.Meets.pure others_base (fun _ _ _ hchange hown => OwnedBy.lasts hown hchange)
      fun _ _ hown => ⟨rfl, hown⟩

end Owners

/-! ## Candidates -/

/-- What a candidate records of the graph it was prepared from. -/
structure Prepared (crates : Crates) (graph : WorkloadGraph) (candidate : Candidate) : Prop where
  source : candidate.graph = graph
  canonical : candidate.closure.canonicalDigest = graph.tree.canonicalDigest crates.sha256
  tree : candidate.closure.treeSha256 = crates.digest candidate.treeBytes
  template : candidate.closure.templateSha256 = crates.digest candidate.template
  objects : objectRecords crates 0 graph.objects = .ok candidate.closure.objects

theorem prepare_ok {crates : Crates} {graph : WorkloadGraph} {candidate : Candidate}
    (h : prepare crates graph = .ok candidate) : Prepared crates graph candidate := by
  obtain ⟨_, _, h⟩ := bind_eq_ok.mp h
  obtain ⟨_, _, h⟩ := bind_eq_ok.mp h
  obtain ⟨_, _, h⟩ := bind_eq_ok.mp h
  obtain ⟨template, _, h⟩ := bind_eq_ok.mp h
  obtain ⟨_, _, h⟩ := bind_eq_ok.mp h
  obtain ⟨_, _, h⟩ := bind_eq_ok.mp h
  obtain ⟨records, hrecords, h⟩ := bind_eq_ok.mp h
  obtain ⟨closureBytes, _, h⟩ := bind_eq_ok.mp h
  obtain ⟨_, _, h⟩ := bind_eq_ok.mp h
  cases h
  exact ⟨rfl, rfl, rfl, rfl, hrecords⟩

theorem Prepared.named {crates : Crates} {graph : WorkloadGraph} {candidate : Candidate}
    (h : Prepared crates graph candidate) : Named candidate := by
  rw [Named, h.canonical]
  refine ⟨not_hidden_hex, component_hex fun hnil => ?_⟩
  have hlength := length_hex (crates.sha256 (canonicalPrefix ++ graph.tree.encode crates.sha256))
  rw [hnil, crates.sha256_length] at hlength
  cases hlength

/-- The records list the objects, in their order. -/
theorem objectRecords_ok {crates : Crates} {objects : List (Text × Bytes)} {index : Nat}
    {records : List ObjectRecord} (h : objectRecords crates index objects = .ok records) :
    records = objects.map fun object => ⟨object.1, digestPrefix ++ crates.digest object.2, object.2.length⟩ := by
  induction objects generalizing index records with
  | nil =>
    cases h
    rfl
  | cons object objects ih =>
    obtain ⟨record, hrecord, h⟩ := bind_eq_ok.mp h
    obtain ⟨rest, hrest, h⟩ := bind_eq_ok.mp h
    obtain ⟨_, _, hrecord⟩ := bind_eq_ok.mp hrecord
    obtain ⟨_, _, hrecord⟩ := bind_eq_ok.mp hrecord
    cases h
    cases hrecord
    rw [ih hrest, List.map_cons]

/-! ## Publications -/

/-- The candidates of the runs. -/
def Candidates {ι : Type} (crates : Crates) (graph : ι → WorkloadGraph) (candidate : Candidate) : Prop :=
  ∃ i, prepare crates (graph i) = .ok candidate

theorem named_candidates {ι : Type} {crates : Crates} {graph : ι → WorkloadGraph} :
    ∀ candidate, Candidates crates graph candidate → Named candidate := by
  rintro candidate ⟨i, h⟩
  exact (prepare_ok h).named

/-- A publication that returns has left its own closure. -/
theorem changes_publish {crates : Crates} {known : Candidate → Prop}
    (hnamed : ∀ candidate, known candidate → Named candidate)
    (hinj : Set.InjOn crates.digest (knownObjects known)) (process : Process) (graph : WorkloadGraph)
    (hknown : ∀ candidate, prepare crates graph = .ok candidate → known candidate) :
    Changes crates known process (fun _ => True) (publish crates process graph) fun _ d =>
      ∃ candidate, prepare crates graph = .ok candidate ∧
        d.get closureAt = some (ownFile process.uid candidate.closureBytes) := by
  cases hprepare : prepare crates graph with
  | error e =>
    rw [publish, hprepare]
    exact changes_fail stable_const
  | ok candidate =>
    have hk := hknown candidate hprepare
    have hgraph := (prepare_ok hprepare).source
    have hopened : Changes crates known process (fun _ => True) (do
        syscall .createStore fromErrno
        let root ← Root.openPrivate process
        publishInto crates process candidate root)
        fun _ d => d.get closureAt = some (ownFile process.uid candidate.closureBytes) := by
      refine Routine.Meets.bind others_refl others_base (changes_syscall (by rintro _ _ ⟨⟩) (fun _ => stable_const)
        fun d value d' hs h => ⟨change_createStore hs h, trivial⟩) fun _ => ?_
      refine Routine.Meets.bind others_refl others_base changes_openPrivate fun root => ?_
      intro n d hs hroot
      obtain ⟨rfl, hown⟩ := hroot
      exact Changes.of_keeps (keeps_publishInto hnamed hinj hk) n d hs ⟨hown, trivial⟩
    subst hgraph
    rw [publish, hprepare]
    exact Routine.Meets.pre_post hopened (fun _ _ h => h) fun _ d _ h => ⟨candidate, rfl, h⟩

/-- What the closure in a store names is there, complete and as it was recorded. -/
structure Complete (crates : Crates) (closure : Closure) (closureBytes : Bytes) (d : Disk) : Prop where
  entry : d.isDirectory (entryAt closure.canonicalDigest) = true
  tree : ∃ stat data, d.get (entryFile closure.canonicalDigest "tree.bin") = some (.file stat data) ∧
    crates.digest data = closure.treeSha256
  template : ∃ stat data, d.get (entryFile closure.canonicalDigest "template.cpio") = some (.file stat data) ∧
    crates.digest data = closure.templateSha256
  lock : ∃ stat data, d.get (entryFile closure.canonicalDigest "lock.json") = some (.file stat data) ∧
    crates.lock.fromSlice data = .ok ⟨derivedLockVersion, closure.canonicalDigest, closure.treeSha256,
      closure.templateSha256, crates.digest closureBytes, rawClosurePath⟩
  objects : ∀ record ∈ closure.objects, ∃ stat data, record.digest = digestPrefix ++ crates.digest data ∧
    data.length = record.bytes ∧ d.get (objectAt (crates.digest data)) = some (.file stat data)

theorem Prepared.complete {crates : Crates} {graph : WorkloadGraph} {candidate : Candidate} {uid : Nat} {d : Disk}
    (h : Prepared crates graph candidate) (hv : Verified crates uid candidate d)
    (hr : Retained crates uid candidate d) : Complete crates candidate.closure candidate.closureBytes d where
  entry := isDirectory_iff.mpr ⟨_, hv.entry⟩
  tree := ⟨_, _, hv.tree, h.tree.symm⟩
  template := by
    obtain ⟨template, hget, hdigest, -⟩ := hv.template
    exact ⟨_, template, hget, hdigest⟩
  lock := by
    obtain ⟨lockBytes, hget, hlock, -⟩ := hv.lock
    exact ⟨_, lockBytes, hget, hlock⟩
  objects := by
    rw [objectRecords_ok h.objects]
    intro record hrecord
    obtain ⟨object, hobject, rfl⟩ := List.mem_map.mp hrecord
    exact ⟨_, object.2, rfl, rfl, hr object (h.source ▸ hobject)⟩

/-- Names that different runs draw are different. -/
def Apart {ι : Type} (process : ι → Process) : Prop :=
  ∀ i j, i ≠ j → ∀ base other m n, stagingName base (process i).pid ((process i).ticket m) ≠
    stagingName other (process j).pid ((process j).ticket n)

/-- What stands behind the last dot is determined. -/
theorem last_dot_inj {front other : Text} {digits digits' : Text} (hd : 46 ∉ digits) (hd' : 46 ∉ digits')
    (h : front ++ 46 :: digits = other ++ 46 :: digits') : front = other ∧ digits = digits' := by
  rcases List.append_eq_append_iff.mp h with ⟨more, rfl, hmore⟩ | ⟨more, rfl, hmore⟩
  · cases more with
    | nil => exact ⟨(List.append_nil _).symm, (List.cons.inj hmore).2⟩
    | cons first more =>
      rw [(List.cons.inj hmore).2] at hd
      exact absurd (List.mem_append_right _ List.mem_cons_self) hd
  · cases more with
    | nil => exact ⟨List.append_nil _, (List.cons.inj hmore).2.symm⟩
    | cons first more =>
      rw [(List.cons.inj hmore).2] at hd'
      exact absurd (List.mem_append_right _ List.mem_cons_self) hd'

/-- Processes with different ids draw different names. -/
theorem apart_of_pid {ι : Type} {process : ι → Process} (h : ∀ i j, i ≠ j → (process i).pid ≠ (process j).pid) :
    Apart process := by
  intro i j hij base other m n heq
  have hdot : ∀ k, 46 ∉ decimal k := fun k hmem =>
    absurd (mem_digits (by decide) (by decide) hmem).1 (by decide)
  have hname : ∀ name pid counter, stagingName name pid counter =
      (utf8 "." ++ name ++ utf8 ".staging" ++ 46 :: decimal pid) ++ 46 :: decimal counter := by
    intro name pid counter
    have hmarker : utf8 ".staging." = utf8 ".staging" ++ [46] := by decide
    simp [stagingName, hmarker, show utf8 "." = [46] from rfl]
  rw [hname, hname] at heq
  have hpid := (last_dot_inj (hdot _) (hdot _) (last_dot_inj (hdot _) (hdot _) heq).1).2
  refine h i j hij ?_
  rw [← digitsValue_decimal (process i).pid, hpid, digitsValue_decimal]

section Runs

variable {ι : Type} {crates : Crates} {process : ι → Process} {graph : ι → WorkloadGraph}
  {known : Candidate → Prop}

theorem Apart.others (h : Apart process) {i j : ι} (hij : i ≠ j) (d d' : Disk)
    (hchange : Change crates known (Mine (process i)) d d') : Others crates known (process j) d d' := by
  refine hchange.mono fun name hname path hpath hmine hother => ?_
  obtain ⟨own, ⟨base, m, rfl⟩, hown⟩ := hmine
  obtain ⟨foreign, ⟨other, n, rfl⟩, hforeign⟩ := hother
  exact h i j hij base other m n (hown.unique hforeign (head_stagingName _ _ _) (head_stagingName _ _ _))

/-- A sound store that has a closure is its owner's. -/
theorem Sound.of_closure {d : Disk} {node : Node} (h : Sound crates known d) (hget : d.get closureAt = some node) :
    ∃ uid, OwnedBy uid d ∧ Consistent crates uid known d := by
  rcases h with hhollow | howned
  · exact absurd (hhollow _ _ hget).1 (by decide)
  · exact howned

variable [DecidableEq ι]

/-- What holds along every interleaving of the runs. -/
theorem publish_steps {d₀ d : Disk} {pool : ι → Prog Op Op.Reply (Except IoError AssembledWorkload × Nat)}
    (hinj : Set.InjOn crates.digest (knownObjects (Candidates crates graph))) (hapart : Apart process)
    (hempty : Hollow d₀) (h : Prog.Steps (fun i => Does (process i).uid)
    (fun i => publish crates (process i) (graph i) 0, d₀) (pool, d)) :
    (∀ i, Prog.Safe (Does (process i).uid) (Others crates (Candidates crates graph) (process i))
      (Change crates (Candidates crates graph) (Mine (process i)))
      (fun out d => Sound crates (Candidates crates graph) d ∧ ∀ assembled, out.1 = .ok assembled → ∃ candidate,
        prepare crates (graph i) = .ok candidate ∧
          d.get closureAt = some (ownFile (process i).uid candidate.closureBytes)) (pool i) d) ∧
      Sound crates (Candidates crates graph) d := by
  refine Prog.Safe.steps (fun _ _ _ _ hfirst hsecond => hfirst.trans hsecond) (fun _ => Change.refl)
    (fun i j hij => hapart.others hij) (fun i s s' hchange => hchange.sound) h (fun i => ?_) (.inl hempty)
  exact changes_publish named_candidates hinj (process i) (graph i)
    (fun candidate hc => ⟨i, hc⟩) 0 d₀ (.inl hempty) trivial

end Runs

/-- **Concurrent publishers keep the store consistent.**  From the moment that a closure exists it names a
complete derived entry and complete objects, and never changes, in any interleaving of any number of
publications each of which may fail or stop anywhere; a publication that returns `Ok` left its own closure. -/
theorem publish_concurrent {ι : Type} [DecidableEq ι] (crates : Crates) (process : ι → Process)
    (graph : ι → WorkloadGraph)
    (hinj : Set.InjOn crates.sha256 { data | ∃ i, ∃ object ∈ (graph i).objects, object.2 = data })
    (hapart : Apart process) (d₀ : Disk) (hempty : Hollow d₀)
    (pool : ι → Prog Op Op.Reply (Except IoError AssembledWorkload × Nat)) (d : Disk)
    (h : Prog.Steps (fun i => Does (process i).uid) (fun i => publish crates (process i) (graph i) 0, d₀)
      (pool, d)) : (∀ node, d.get closureAt = some node →
      (∃ i candidate stat, prepare crates (graph i) = .ok candidate ∧ node = .file stat candidate.closureBytes ∧
        Complete crates candidate.closure candidate.closureBytes d) ∧
      ∀ pool' d', Prog.Steps (fun i => Does (process i).uid) (pool, d) (pool', d') →
        d'.get closureAt = some node) ∧
    ∀ i assembled n, pool i = .ret (.ok assembled, n) → ∃ candidate stat,
      prepare crates (graph i) = .ok candidate ∧ d.get closureAt = some (.file stat candidate.closureBytes) := by
  have hknown : Set.InjOn crates.digest (knownObjects (Candidates crates graph)) := by
    refine (digest_injOn hinj).mono ?_
    rintro data ⟨candidate, ⟨i, hprepare⟩, object, hobject, rfl⟩
    exact ⟨i, object, (prepare_ok hprepare).source ▸ hobject, rfl⟩
  obtain ⟨hsafe, hsound⟩ := publish_steps hknown hapart hempty h
  refine ⟨fun node hget => ⟨?_, fun pool' d' hsteps => ?_⟩, fun i assembled n hreturned => ?_⟩
  · obtain ⟨uid, -, hconsistent⟩ := hsound.of_closure hget
    obtain ⟨candidate, ⟨i, hprepare⟩, hnode, hv, hr⟩ := hconsistent.closure node hget
    exact ⟨i, candidate, _, hprepare, hnode, (prepare_ok hprepare).complete hv hr⟩
  · have hkeep : ∀ i s s', Change crates (Candidates crates graph) (Mine (process i)) s s' →
        Sound crates (Candidates crates graph) s ∧ s.get closureAt = some node →
        Sound crates (Candidates crates graph) s' ∧ s'.get closureAt = some node := by
      intro i s s' hchange hs
      obtain ⟨uid, hown, hconsistent⟩ := hs.1.of_closure hs.2
      exact ⟨hchange.sound hs.1, (hchange.transition uid hown hconsistent).1 _ _ not_staged_closure hs.2⟩
    exact (Prog.Safe.steps (fun _ _ _ _ hfirst hsecond => hfirst.trans hsecond) (fun _ => Change.refl)
      (fun i j hij => hapart.others hij) hkeep hsteps hsafe ⟨hsound, hget⟩).2.2
  · have hi := hsafe i
    rw [hreturned] at hi
    obtain ⟨-, hpost⟩ := hi d (Change.refl d)
    obtain ⟨candidate, hprepare, hget⟩ := hpost assembled rfl
    exact ⟨candidate, _, hprepare, hget⟩

/-- Two processes of one user. -/
def sampleProcess (second : Bool) : Process := ⟨1000, if second then 4712 else 4711, id⟩

/-- The publication has returned `Ok`. -/
def returnedOk : Prog Op Op.Reply (Except IoError AssembledWorkload × Nat) → Bool
  | .ret out => out.1.isOk
  | .call _ _ => false

theorem ret_of_returnedOk : ∀ {p : Prog Op Op.Reply (Except IoError AssembledWorkload × Nat)},
    returnedOk p = true → ∃ assembled n, p = .ret (.ok assembled, n)
  | .ret (.ok assembled, n), _ => ⟨assembled, n, rfl⟩

/-- Both publish the sample graph, taking turns. -/
def takingTurns (graph : WorkloadGraph) : (Bool →
    Prog Op Op.Reply (Except IoError AssembledWorkload × Nat)) × Disk :=
  Prog.scheduled (fun _ => perform 1000) (List.replicate 120 [false, true]).flatten
    (fun i => publish sampleCrates (sampleProcess i) graph 0, .absent)

theorem publish_concurrent_sample : ∃ graph, binaryGraphOf sampleCrates sampleSource sampleExecutable = .ok graph ∧
    Prog.Steps (fun i => Does (sampleProcess i).uid)
      (fun i => publish sampleCrates (sampleProcess i) graph 0, .absent)
      (takingTurns graph) ∧
    (∀ i, ∃ assembled n, (takingTurns graph).1 i = .ret (.ok assembled, n)) ∧
    ∃ candidate stat, prepare sampleCrates graph = .ok candidate ∧
      (takingTurns graph).2.get closureAt = some (.file stat candidate.closureBytes) ∧
      Complete sampleCrates candidate.closure candidate.closureBytes (takingTurns graph).2 := by
  have hrun : (binaryGraphOf sampleCrates sampleSource sampleExecutable).toOption.map (fun graph =>
      (decide (∀ i, returnedOk ((takingTurns graph).1 i) = true),
        decide (∀ a ∈ graph.objects, ∀ b ∈ graph.objects, sampleSha256 a.2 = sampleSha256 b.2 → a.2 = b.2))) =
          some (true, true) := by decide +kernel
  obtain ⟨graph, hgraph, hfields⟩ := exists_ok_of_map hrun
  rw [Prod.mk.injEq, decide_eq_true_eq, decide_eq_true_eq] at hfields
  obtain ⟨hpublished, hcollide⟩ := hfields
  have hinj : Set.InjOn sampleCrates.sha256 { data | ∃ _ : Bool, ∃ object ∈ graph.objects, object.2 = data } := by
    rintro _ ⟨-, a, ha, rfl⟩ _ ⟨-, b, hb, rfl⟩ hsame
    exact hcollide a ha b hb hsame
  have hapart : Apart sampleProcess := apart_of_pid (by decide)
  have hempty : Hollow .absent := fun path node hget => by cases hget
  have hsteps := Prog.Steps.scheduled (fun _ : Bool => does_perform 1000)
    (List.replicate 120 [false, true]).flatten
    (.refl (fun i => publish sampleCrates (sampleProcess i) graph 0, .absent))
  obtain ⟨hclosure, hreturned⟩ := publish_concurrent sampleCrates sampleProcess (fun _ =>
    graph) hinj hapart .absent hempty (takingTurns graph).1 (takingTurns graph).2 hsteps
  obtain ⟨assembled, n, hassembled⟩ := ret_of_returnedOk (hpublished true)
  obtain ⟨candidate, stat, hprepare, hget⟩ := hreturned true assembled n hassembled
  obtain ⟨⟨-, other, -, hother, hnode, hcomplete⟩, -⟩ := hclosure _ hget
  obtain rfl := Except.ok.inj (hprepare.symm.trans hother)
  exact ⟨graph, hgraph, hsteps, fun i => ret_of_returnedOk (hpublished i), candidate, stat, hprepare,
    hget, hcomplete⟩

end SimFerret.Store
