import Mathlib.Data.Set.Function
import SimFerret.Store.Publish

/-!
# SimFerret.Store.Load — the closure digest binds the whole workload

`load` only reads, so on a store that nothing else touches it is a function of the disk.

* `Reads`: the triple of a routine that only reads; its rules are those of `Routine.Meets`.
* `reads_load`: what a store that loads holds.
* `load_binding`: two stores that load with one closure digest hold one workload.
-/

namespace SimFerret.Store

open Workload

/-! ## Reading a disk -/

/-- What an operation returns and leaves on a disk that nothing else touches. -/
def Alone (op : Op) (d : Disk) (reply : op.Reply) (d' : Disk) : Prop := perform 0 op d = (reply, d')

def Unchanged (d d' : Disk) : Prop := d' = d

/-- The routine leaves the disk as it is, and a value it returns satisfies `post`. -/
def Reads {α : Type} (d : Disk) (x : Action α) (post : α → Prop) : Prop :=
  Routine.Meets Alone Unchanged Unchanged (· = d) (fun _ => True) x fun a _ => post a

section Reads

variable {α β : Type} {d : Disk} {x : Action α} {post post' : α → Prop}

theorem undisturbed (s s' : Disk) (hs : s = d) (h : Unchanged s s') : s' = d := Eq.trans h hs

theorem Reads.mono (h : Reads d x post) (hpost : ∀ a, post a → post' a) : Reads d x post' :=
  Routine.Meets.pre_post h (fun _ _ h => h) fun a _ _ ha => hpost a ha

theorem Reads.pure {a : α} (h : post a) : Reads d (Pure.pure a : Action α) post :=
  Routine.Meets.pure undisturbed (fun _ _ _ _ h => h) fun _ _ _ => h

theorem Reads.lift {r : IoResult α} (h : ∀ a, r = .ok a → post a) : Reads d (monadLift r : Action α) post :=
  Routine.Meets.lift undisturbed (fun _ _ _ _ h => h) fun a ha _ _ _ => h a ha

theorem reads_fail (error : IoError) : Reads d (fail error : Action α) post := Reads.lift fun _ h => by cases h

theorem Reads.bind {mid : α → Prop} {f : α → Action β} {post : β → Prop} (hx : Reads d x mid)
    (hf : ∀ a, mid a → Reads d (f a) post) : Reads d (x >>= f) post := by
  refine Routine.Meets.bind (fun _ => rfl) undisturbed hx fun a => ?_
  exact fun n s hs ha => hf a ha n s hs trivial

theorem Reads.attempt (h : Reads d x post) : Reads d x.attempt fun r => ∀ a, r = .ok a → post a :=
  Routine.Meets.attempt (fun _ => rfl) undisturbed (fun _ _ _ _ _ h => h) h

theorem reads_kernel {op : Op} {post : op.Reply → Prop} (hsame : (perform 0 op d).2 = d)
    (h : post (perform 0 op d).1) : Reads d (kernel op) post := by
  refine Routine.Meets.call undisturbed (fun _ _ _ _ h => h) (fun _ _ _ _ _ h => h) fun s reply s' hs _ hd => ?_
  subst hs
  have hd' : perform 0 op s = (reply, s') := hd
  rw [hd'] at hsame h
  exact ⟨hsame, hsame, h⟩

theorem Reads.evaluate (h : Reads d x post) {a : α} (hrun : evaluate x d = .ok a) : post a := by
  have hdoes : ∀ op s, Alone op s (perform 0 op s).1 (perform 0 op s).2 := fun _ _ => rfl
  have hrefl : ∀ s, Unchanged s s := fun _ => rfl
  exact (Prog.Safe.run hdoes hrefl (x 0) d (h 0 d rfl trivial)).2 a hrun

/-! ## Files -/

/-- The regular file at a path relative to the store. -/
def Disk.Holds (d : Disk) (relative : Text) (data : Bytes) : Prop :=
  ∃ parts stat, components relative = .ok parts ∧ d.get parts = some (.file stat data)

/-- The contents of the files of a disk. -/
def Disk.contents (d : Disk) : Set Bytes := { data | ∃ path stat, d.get path = some (.file stat data) }

theorem Disk.Holds.mem {relative : Text} {data : Bytes} (h : d.Holds relative data) : data ∈ d.contents := by
  obtain ⟨parts, stat, -, hget⟩ := h
  exact ⟨parts, stat, hget⟩

theorem reads_syscall {op : Op} {error : Errno → IoError} (hsame : (perform 0 op d).2 = d) :
    Reads d (syscall op error) fun _ => True := by
  refine Reads.bind (@reads_kernel d op (fun _ => True) hsame trivial) fun reply _ => ?_
  cases reply with
  | ok value => exact Reads.pure trivial
  | error e => exact reads_fail _

theorem reads_open : Reads d Root.open (· = ⟨[]⟩) := by
  refine Reads.bind (reads_syscall ?_) fun _ _ => Reads.pure rfl
  unfold perform
  simp only [exec]
  cases d.get [] with
  | none => rfl
  | some node => cases node <;> rfl

theorem reads_openBeneath : ∀ (parts : List Text) (current : Path),
    Reads d (Root.openBeneath current parts) (· = current ++ parts)
  | [], current => Reads.pure (List.append_nil _).symm
  | component :: rest, current => by
    refine Reads.bind (reads_syscall ?_) fun _ _ => ?_
    · unfold perform
      simp only [exec]
      cases d.get (current ++ [component]) with
      | none => rfl
      | some node => cases node <;> rfl
    · refine (reads_openBeneath rest (current ++ [component])).mono fun path hpath => ?_
      rw [hpath, List.append_assoc]
      rfl

theorem splitRelative_ok {relative : Text} {parent : List Text} {name : Text}
    (h : splitRelative relative = .ok (parent, name)) : components relative = .ok (parent ++ [name]) := by
  obtain ⟨parts, hparts, h⟩ := bind_eq_ok.mp h
  split at h
  · rename_i name' hlast
    cases h
    rw [hparts, List.dropLast_append_getLast? _ hlast]
  · cases h

theorem perform_openFile (dir : Path) (name : Text) : perform 0 (.openFile dir name) d =
    ((match d.get (dir ++ [name]) with
      | none => .error .noent
      | some .symlink => .error .loop
      | some node => .ok node : Except Errno Node), d) := by
  simp only [perform, exec]
  cases d.get (dir ++ [name]) with
  | none => rfl
  | some node => cases node <;> rfl

/-- **A regular file that was opened** is the one on the disk. -/
theorem reads_openRegular (relative : Text) :
    Reads d (Root.openRegular ⟨[]⟩ relative) fun r => ∀ stat data, r = some (stat, data) →
        d.Holds relative data := by
  refine Reads.bind (Reads.lift fun _ h => h) fun parts hparts => ?_
  obtain ⟨parent, name⟩ := parts
  refine Reads.bind (reads_openBeneath parent []).attempt fun r hr => ?_
  cases r with
  | error e =>
    dsimp only
    split
    · exact Reads.pure fun _ _ h => by cases h
    · exact reads_fail _
  | ok directory =>
    rw [hr directory rfl, List.nil_append]
    refine Reads.bind (@reads_kernel d _ (fun reply => ∀ node, reply = .ok node →
      d.get (parent ++ [name]) = some node) ?_ ?_) fun reply hreply => ?_
    · rw [perform_openFile]
    · intro node hnode
      rw [perform_openFile] at hnode
      cases hget : d.get (parent ++ [name]) with
      | none => rw [hget] at hnode; cases hnode
      | some found => rw [hget] at hnode; cases found <;> cases hnode <;> rfl
    · have hholds : ∀ stat data, reply = .ok (.file stat data) → d.Holds relative data := fun stat data heq =>
        ⟨_, stat, splitRelative_ok hparts, hreply _ heq⟩
      split
      · exact Reads.pure fun _ _ h => by cases h
      · exact reads_fail _
      · refine Reads.pure fun stat data h => ?_
        cases h
        exact hholds _ _ rfl
      · exact reads_fail _

theorem reads_readFile (relative : Text) (limit : Nat) : Reads d (Root.readFile ⟨[]⟩ relative limit)
    (d.Holds relative) := by
  have hexists : Reads d (Root.readFileIfExists ⟨[]⟩ relative limit) fun r => ∀ data, r = some data →
      d.Holds relative data := by
    refine Reads.bind (reads_openRegular relative) fun r hr => ?_
    cases r with
    | none => exact Reads.pure fun _ h => by cases h
    | some opened =>
      refine Reads.bind (Reads.lift fun _ h => h) fun _ _ => Reads.pure fun data h => ?_
      cases h
      exact hr _ _ rfl
  refine Reads.bind hexists fun r hr => ?_
  cases r with
  | none => exact reads_fail _
  | some data => exact Reads.pure (hr data rfl)

theorem reads_sha256File (digest : Bytes → Text) (relative : Text) (limit : Nat) :
    Reads d (Root.sha256File digest ⟨[]⟩ relative limit) fun r => ∃ data, d.Holds relative data ∧
        r = digest data := by
  refine Reads.bind (reads_openRegular relative) fun r hr => ?_
  cases r with
  | none => exact reads_fail _
  | some opened =>
    exact Reads.bind (Reads.lift fun _ h => h) fun _ _ => Reads.pure ⟨opened.2, hr opened.1 opened.2 rfl, rfl⟩

theorem Reads.mapErr {f : IoError → IoError} (h : Reads d x post) : Reads d (mapErr f x) post := by
  refine Reads.bind h.attempt fun r hr => ?_
  cases r with
  | ok a => exact Reads.pure (hr a rfl)
  | error e => exact reads_fail _

theorem reads_readRequired (path : Text) (limit : Nat) (what : Text) :
    Reads d (readRequired ⟨[]⟩ path limit what) (d.Holds path) := (reads_readFile path limit).mapErr

theorem reads_require {condition : Bool} {error : IoError} :
    Reads d (monadLift (require condition error) : Action Unit) fun _ => condition = true :=
  Reads.lift fun _ h => require_eq_ok.mp h

/-! ## The closure and its objects -/

variable {crates : Crates}

/-- The objects of a list of records: each has its role, and content with the recorded digest from the disk. -/
inductive Recorded (crates : Crates) (d : Disk) : List ObjectRecord → Objects → Prop
  | nil : Recorded crates d [] []
  | cons {record : ObjectRecord} {records : List ObjectRecord} {objects : Objects} {data : Bytes} :
      data ∈ d.contents → parseDigest record.digest = .ok (crates.digest data) →
        Recorded crates d records objects →
      Recorded crates d (record :: records) ((record.role, data) :: objects)

theorem reads_readObject (index : Nat) (record : ObjectRecord) (objects : Objects) :
    Reads d (readObject crates ⟨[]⟩ index record objects) fun r => ∃ data, data ∈ d.contents ∧
      parseDigest record.digest = .ok (crates.digest data) ∧ r = objects ++ [(record.role, data)] := by
  refine Reads.bind (Reads.lift fun _ h => h) fun limit _ => reads_require.bind fun _ _ => ?_
  refine Reads.bind (Reads.lift fun _ h => h) fun hex hhex => reads_require.bind fun _ _ => ?_
  refine (reads_readRequired _ _ _).bind fun data hdata => reads_require.bind fun _ hmatch => Reads.pure ?_
  rw [Bool.and_eq_true, beq_iff_eq, beq_iff_eq] at hmatch
  exact ⟨data, hdata.mem, by rw [hmatch.2]; exact hhex, rfl⟩

/-- **The record loop** reads every object, by induction on the records. -/
theorem reads_readRecords : ∀ (records : List ObjectRecord) (index : Nat) (objects : Objects),
    Reads d (readRecords crates ⟨[]⟩ index records objects) fun r => ∃ more, Recorded crates d records more ∧
      r = objects ++ more
  | [], _, objects => Reads.pure ⟨[], .nil, (List.append_nil _).symm⟩
  | record :: rest, index, objects => by
    refine (reads_readObject index record objects).bind fun r hr => ?_
    obtain ⟨data, hdata, hdigest, rfl⟩ := hr
    refine (reads_readRecords rest (index + 1) _).mono fun r hr => ?_
    obtain ⟨more, hmore, rfl⟩ := hr
    exact ⟨_, .cons hdata hdigest hmore, by rw [List.append_assoc]; rfl⟩

/-! ## Loading -/

/-- What a store that loads holds. -/
structure Loads (crates : Crates) (d : Disk) (loaded : LoadedWorkload) (closureBytes : Bytes) (closure : Closure)
    (objects : Objects) (derived : Rederived) (stored : Bytes) : Prop where
  raw : d.Holds rawClosurePath closureBytes
  parsed : crates.closure.fromSlice closureBytes = .ok closure
  recorded : Recorded crates d closure.objects objects
  rederived : rederive crates closure objects = .ok derived
  tree : d.Holds (joinName (derivedPath closure.canonicalDigest) "tree.bin") derived.treeBytes
  template : d.Holds (joinName (derivedPath closure.canonicalDigest) "template.cpio") stored
  digest : crates.digest stored = closure.templateSha256
  loaded : loaded = ⟨closure.kind, crates.digest closureBytes, closure.canonicalDigest, derived.tree,
    derived.template, closure.launch⟩

theorem reads_verifyDerived (canonicalDigest : Text) (treeBytes : Bytes)
    (templateSha256 closureSha256 treeSha256 : Text) :
    Reads d (verifyDerived crates ⟨[]⟩ canonicalDigest treeBytes templateSha256 closureSha256 treeSha256) fun _ =>
      d.Holds (joinName (derivedPath canonicalDigest) "tree.bin") treeBytes ∧
      ∃ stored, d.Holds (joinName (derivedPath canonicalDigest) "template.cpio") stored ∧
        crates.digest stored = templateSha256 := by
  refine (reads_readRequired _ _ _).bind fun tree htree => reads_require.bind fun _ hsame => ?_
  refine (reads_sha256File _ _ _).mapErr.bind fun digest hdigest => reads_require.bind fun _ hequal => ?_
  obtain ⟨stored, hstored, rfl⟩ := hdigest
  refine (reads_readRequired _ _ _).bind fun lock _ => Reads.bind (Reads.lift fun _ h => h) fun _ _ => ?_
  refine reads_require.mono fun _ _ => ⟨?_, stored, hstored, by simpa using hequal⟩
  rw [beq_iff_eq] at hsame
  rw [← hsame]
  exact htree

/-- **A store that loads** holds its closure, the objects of the closure and the derived entry. -/
theorem reads_load : Reads d (load crates) fun loaded => ∃ closureBytes closure objects derived stored,
    Loads crates d loaded closureBytes closure objects derived stored := by
  refine reads_open.bind fun root hroot => ?_
  subst hroot
  refine (reads_readRequired _ _ _).bind fun closureBytes hclosure => ?_
  refine Reads.bind (Reads.lift fun _ h => h) fun closure hparsed => reads_require.bind fun _ _ => ?_
  refine reads_require.bind fun _ _ => reads_require.bind fun _ _ => ?_
  have hobjects : Reads d (readObjects crates ⟨[]⟩ closure) (Recorded crates d closure.objects) := by
    refine reads_require.bind fun _ _ => (reads_readRecords closure.objects 0 []).mono fun objects hobjects => ?_
    obtain ⟨more, hmore, rfl⟩ := hobjects
    exact hmore
  refine hobjects.bind fun objects hrecorded => Reads.bind (Reads.lift fun _ h => h) fun derived hderived => ?_
  refine (reads_verifyDerived _ _ _ _ _).bind fun _ hverified => Reads.pure ?_
  obtain ⟨htree, stored, hstored, hdigest⟩ := hverified
  have hparsed' : crates.closure.fromSlice closureBytes = .ok closure := mapError_eq_ok.mp hparsed
  exact ⟨closureBytes, closure, objects, derived, stored, hclosure, hparsed', hrecorded, hderived, htree, hstored,
    hdigest, rfl⟩

/-! ## The binding -/

/-- The messages whose digests loading compares. -/
def Loads.messages (d d' : Disk) (l l' : LoadedWorkload) : Set Bytes :=
  d.contents ∪ d'.contents ∪ {l.template, l'.template}

theorem digest_injOn {messages : Set Bytes} (hinj : Set.InjOn crates.sha256 messages) :
    Set.InjOn crates.digest messages :=
  fun _ ha _ hb h => hinj ha hb (hex_injective h)

theorem rederive_ok {closure : Closure} {objects : Objects} {derived : Rederived}
    (h : rederive crates closure objects = .ok derived) :
    derived.treeBytes = derived.tree.encode crates.sha256 ∧
        crates.digest derived.template = closure.templateSha256 := by
  obtain ⟨graph, _, h⟩ := bind_eq_ok.mp h
  obtain ⟨_, _, h⟩ := bind_eq_ok.mp h
  obtain ⟨_, _, h⟩ := bind_eq_ok.mp h
  obtain ⟨_, _, h⟩ := bind_eq_ok.mp h
  obtain ⟨_, _, h⟩ := bind_eq_ok.mp h
  obtain ⟨_, _, h⟩ := bind_eq_ok.mp h
  obtain ⟨template, _, h⟩ := bind_eq_ok.mp h
  obtain ⟨_, hequal, h⟩ := bind_eq_ok.mp h
  obtain ⟨_, _, h⟩ := bind_eq_ok.mp h
  have hdigest := require_eq_ok.mp hequal
  cases h
  exact ⟨rfl, by simpa using hdigest⟩

/-- **The records determine the objects**, by induction on the records. -/
theorem Recorded.unique {d' : Disk} {records : List ObjectRecord} {objects objects' : Objects}
    (hinj : Set.InjOn crates.digest (d.contents ∪ d'.contents)) (h : Recorded crates d records objects)
    (h' : Recorded crates d' records objects') : objects = objects' := by
  induction h generalizing objects' with
  | nil => cases h'; rfl
  | cons hdata hdigest _ ih =>
    cases h' with
    | cons hdata' hdigest' hrest' =>
      have hsame := hdigest.symm.trans hdigest'
      rw [Except.ok.injEq] at hsame
      rw [hinj (Or.inl hdata) (Or.inr hdata') hsame, ih hrest']

/-- The derived entry of a store that loads holds the tree and the template that `load` returns. -/
theorem Loads.derived {l : LoadedWorkload} {closureBytes : Bytes} {closure : Closure} {objects : Objects}
    {derived : Rederived} {stored : Bytes} (h : Loads crates d l closureBytes closure objects derived stored)
    (hinj : Set.InjOn crates.digest (d.contents ∪ {l.template})) :
    d.Holds (joinName (derivedPath l.canonicalDigest) "tree.bin") (l.tree.encode crates.sha256) ∧
      d.Holds (joinName (derivedPath l.canonicalDigest) "template.cpio") l.template := by
  obtain ⟨htree, htemplate⟩ := rederive_ok h.rederived
  have hstored : stored = l.template := by
    refine hinj (Or.inl h.template.mem) (Or.inr rfl) ?_
    rw [h.digest, h.loaded, htemplate]
  have htreeHeld := h.tree
  have htemplateHeld := h.template
  rw [htree] at htreeHeld
  rw [hstored] at htemplateHeld
  rw [h.loaded] at htemplateHeld ⊢
  exact ⟨htreeHeld, htemplateHeld⟩

/-- **The closure digest binds the workload**: two stores that load with one closure digest load the same
workload, and the derived entry of each holds its tree and its template. -/
theorem load_binding {d d' : Disk} {l l' : LoadedWorkload}
    (hinj : Set.InjOn crates.sha256 (Loads.messages d d' l l'))
    (hl : evaluate (load crates) d = .ok l) (hl' : evaluate (load crates) d' = .ok l')
    (hsame : l.closureSha256 = l'.closureSha256) :
    l = l' ∧
      (d.Holds (joinName (derivedPath l.canonicalDigest) "tree.bin") (l.tree.encode crates.sha256) ∧
        d.Holds (joinName (derivedPath l.canonicalDigest) "template.cpio") l.template) ∧
      (d'.Holds (joinName (derivedPath l'.canonicalDigest) "tree.bin") (l'.tree.encode crates.sha256) ∧
        d'.Holds (joinName (derivedPath l'.canonicalDigest) "template.cpio") l'.template) := by
  have hdigest := digest_injOn hinj
  have hcontents : Set.InjOn crates.digest (d.contents ∪ d'.contents) := hdigest.mono Set.subset_union_left
  obtain ⟨closureBytes, closure, objects, derived, stored, h⟩ := reads_load.evaluate hl
  obtain ⟨closureBytes', closure', objects', derived', stored', h'⟩ := reads_load.evaluate hl'
  have hbytes : closureBytes = closureBytes' := by
    refine hcontents (Or.inl h.raw.mem) (Or.inr h'.raw.mem) ?_
    rw [h.loaded, h'.loaded] at hsame
    exact hsame
  subst hbytes
  have hclosure : closure = closure' := Except.ok.inj (h.parsed.symm.trans h'.parsed)
  subst hclosure
  have hobjects := Recorded.unique hcontents h.recorded h'.recorded
  subst hobjects
  have hderived : derived = derived' := Except.ok.inj (h.rederived.symm.trans h'.rederived)
  subst hderived
  refine ⟨h.loaded.trans h'.loaded.symm, h.derived (hdigest.mono ?_), h'.derived (hdigest.mono ?_)⟩
  · rintro data (hdata | rfl)
    · exact Or.inl (Or.inl hdata)
    · exact Or.inr (Or.inl rfl)
  · rintro data (hdata | rfl)
    · exact Or.inl (Or.inr hdata)
    · exact Or.inr (Or.inr rfl)

end Reads

/-! ## A sample store -/

/-- A static executable: one loadable segment that holds the whole file. -/
def sampleExecutable : Bytes :=
  [0x7f, 69, 76, 70, 2, 1, 1, 0, 0, 0, 0, 0, 0, 0, 0, 0, 2, 0, 62, 0, 1, 0, 0, 0, 0x78, 0, 0x40, 0, 0, 0, 0, 0,
    0x40, 0, 0, 0, 0, 0, 0, 0, 0, 0, 0, 0, 0, 0, 0, 0, 0, 0, 0, 0, 0x40, 0, 0x38, 0, 1, 0, 0, 0, 0, 0, 0, 0,
    1, 0, 0, 0, 5, 0, 0, 0, 0, 0, 0, 0, 0, 0, 0, 0, 0, 0, 0x40, 0, 0, 0, 0, 0, 0, 0, 0x40, 0, 0, 0, 0, 0,
    0x7a, 0, 0, 0, 0, 0, 0, 0, 0x7a, 0, 0, 0, 0, 0, 0, 0, 0, 0x10, 0, 0, 0, 0, 0, 0, 0xeb, 0xfe]

/-- A digest given as a number, big-endian. -/
def digestOf (value : Nat) : Bytes := (List.range 32).map fun index => UInt8.ofNat (value >>> (8 * (31 - index)))

/-- The SHA-256 of each message of the sample, told apart by their lengths. -/
def sampleSha256 (message : Bytes) : Bytes :=
  digestOf <| match message.length with
    | 0 => 0xe3b0c44298fc1c149afbf4c8996fb92427ae41e4649b934ca495991b7852b855
    | 122 => 0x727676303a1c1decf423daa363ab62303ac4e7b75fe50b172cdb63b7da01f5f5
    | 129 => 0x62484466c79bbf7fff80731f30e443eff862120a23aad5b34a5053c5efa988cd
    | 163 => 0xc02d337e7ef4a6b4a9f930f2ce283423a15c4d26debf0395495807d4a93bae7e
    | 173 => 0x6582e6f990eaba5b755425a1f257bec25326347392e64612b7e2a6663911df7f
    | 383 => 0x506390decb184cab739b44a0d9a16542b78c9cba639f18b17f366d0c279e77fe
    | 636 => 0x38d3bc809c651f49a226789054bcf20d30d307138a720580ff01222dc69e60dc
    | 1347 => 0xbb723c8c655ec1752791a0bd9cb3a8e4007bfbc1a125b692babdf3b162096ebd
    | _ => 0

def sampleLaunch : LaunchIdentity := ⟨"/bin/simferret-workload", ["/bin/simferret-workload"], [], "/", 1000, 1000⟩

def sampleSpecification : CanonicalBinarySpec :=
  ⟨workloadSpecVersion, .binary, binaryInstallPath, ["/bin/simferret-workload"], [], "/", 1000, 1000⟩

def specificationJson : Text :=
  utf8 "\x7b\"version\":1,\"kind\":\"binary\",\"install_path\":\"bin/simferret-workload\"," ++
    utf8 "\"arguments\":[\"/bin/simferret-workload\"],\"environment\":[],\"working_directory\":\"/\"," ++
    utf8 "\"uid\":1000,\"gid\":1000\x7d"

def sampleClosure : Closure where
  version := closureVersion
  kind := .binary
  manifestDigest := none
  policy := Policy.current
  limits := Limits.current
  objects := [⟨"executable", "sha256:727676303a1c1decf423daa363ab62303ac4e7b75fe50b172cdb63b7da01f5f5", 122⟩,
    ⟨"workload-specification", "sha256:6582e6f990eaba5b755425a1f257bec25326347392e64612b7e2a6663911df7f", 173⟩]
  layers := []
  launch := sampleLaunch
  canonicalDigest := "c02d337e7ef4a6b4a9f930f2ce283423a15c4d26debf0395495807d4a93bae7e"
  treeSha256 := "62484466c79bbf7fff80731f30e443eff862120a23aad5b34a5053c5efa988cd"
  templateSha256 := "38d3bc809c651f49a226789054bcf20d30d307138a720580ff01222dc69e60dc"
  entries := 3
  expandedBytes := 122

def closureJson : Text :=
  utf8 "\x7b\"version\":1,\"kind\":\"binary\",\"policy\":\x7b\"canonical_format\":1,\"extraction\":1," ++
    utf8 "\"layer_application\":1,\"template_format\":1\x7d,\"limits\":\x7b\"specification_bytes\":1048576," ++
    utf8 "\"layout_bytes\":1048576,\"index_bytes\":4194304,\"manifest_bytes\":1048576," ++
    utf8 "\"config_bytes\":1048576,\"layer_bytes\":67108864,\"expanded_layer_bytes\":268435456," ++
    utf8 "\"file_bytes\":16777216,\"entries\":4096,\"layers\":16,\"path_bytes\":1024," ++
    utf8 "\"symlink_target_bytes\":4096,\"symlink_hops\":40,\"raw_objects\":64,\"view_entries\":32768," ++
    utf8 "\"cache_metadata_bytes\":4194304,\"template_bytes\":306184192,\"arguments\":256," ++
    utf8 "\"argument_bytes\":4096,\"environment_entries\":256,\"environment_entry_bytes\":4096," ++
    utf8 "\"environment_bytes\":65536\x7d,\"objects\":[\x7b\"role\":\"executable\"," ++
    utf8 "\"digest\":\"sha256:727676303a1c1decf423daa363ab62303ac4e7b75fe50b172cdb63b7da01f5f5\"," ++
    utf8 "\"bytes\":122\x7d,\x7b\"role\":\"workload-specification\"," ++
    utf8 "\"digest\":\"sha256:6582e6f990eaba5b755425a1f257bec25326347392e64612b7e2a6663911df7f\"," ++
    utf8 "\"bytes\":173\x7d],\"layers\":[],\"launch\":\x7b\"executable\":\"/bin/simferret-workload\"," ++
    utf8 "\"arguments\":[\"/bin/simferret-workload\"],\"environment\":[],\"working_directory\":\"/\"," ++
    utf8 "\"uid\":1000,\"gid\":1000\x7d," ++
    utf8 "\"canonical_digest\":\"c02d337e7ef4a6b4a9f930f2ce283423a15c4d26debf0395495807d4a93bae7e\"," ++
    utf8 "\"tree_sha256\":\"62484466c79bbf7fff80731f30e443eff862120a23aad5b34a5053c5efa988cd\"," ++
    utf8 "\"template_sha256\":\"38d3bc809c651f49a226789054bcf20d30d307138a720580ff01222dc69e60dc\"," ++
    utf8 "\"entries\":3,\"expanded_bytes\":122\x7d"

def sampleLock : DerivedLock :=
  ⟨derivedLockVersion, sampleClosure.canonicalDigest, sampleClosure.treeSha256, sampleClosure.templateSha256,
    "bb723c8c655ec1752791a0bd9cb3a8e4007bfbc1a125b692babdf3b162096ebd", rawClosurePath⟩

def lockJson : Text :=
  utf8 "\x7b\"version\":1," ++
    utf8 "\"canonical_digest\":\"c02d337e7ef4a6b4a9f930f2ce283423a15c4d26debf0395495807d4a93bae7e\"," ++
    utf8 "\"tree_sha256\":\"62484466c79bbf7fff80731f30e443eff862120a23aad5b34a5053c5efa988cd\"," ++
    utf8 "\"template_sha256\":\"38d3bc809c651f49a226789054bcf20d30d307138a720580ff01222dc69e60dc\"," ++
    utf8 "\"closure_sha256\":\"bb723c8c655ec1752791a0bd9cb3a8e4007bfbc1a125b692babdf3b162096ebd\"," ++
    utf8 "\"raw_closure\":\"raw/closure.json\"\x7d"

/-- The codec of a type at one value. -/
def sampleCodec {α : Type} [DecidableEq α] (value : α) (json : Text) : Codec α where
  toVec given := if given = value then .ok json else .error "not part of the sample"
  fromSlice bytes := if bytes = json ++ [10] then .ok value else .error ⟨.syntaxError, 1, 1⟩

/-- The codec of a type at the values of a list; a newline behind the text is read over. -/
def tableCodec {α : Type} [DecidableEq α] (values : List α) (json : α → Text) : Codec α where
  toVec given := if given ∈ values then .ok (json given) else .error "not part of the sample"
  fromSlice bytes :=
    match values.find? fun value => json value == bytes || json value ++ [10] == bytes with
    | some value => .ok value
    | none => .error ⟨.syntaxError, 1, 1⟩

def sampleCrates : Crates where
  sha256 := sampleSha256
  sha256_length message := by rw [sampleSha256, digestOf, List.length_map, List.length_range]
  tomlProbe _ := .error none
  tomlBinary _ := .error none
  tomlOci _ := .error none
  json _ := .error ⟨.syntaxError, 1, 1⟩
  gunzip _ _ := .error "corrupt gzip stream does not have a matching checksum"
  tar _ := none
  closure := sampleCodec sampleClosure closureJson
  lock := sampleCodec sampleLock lockJson
  specification := sampleCodec sampleSpecification specificationJson

def sampleSource : BinarySource := ⟨"bin", [], [], "/", "1000:1000"⟩

/-- The store after the sample was published by one process. -/
def sampleStore : Disk :=
  match binaryGraphOf sampleCrates sampleSource sampleExecutable with
  | .error _ => .absent
  | .ok graph => ((publish sampleCrates ⟨1000, 4711, id⟩ graph 0).run (perform 1000) .absent).2

/-- The sample store with a stray object. -/
def strayStore : Disk := sampleStore.set ["raw", "sha256", "stray"] (.file ⟨0o600, 1000⟩ [])

def Disk.files (d : Disk) : List Bytes := d.nodes.filterMap fun (_, node) =>
  match node with
  | .file _ data => some data
  | _ => none

theorem Disk.mem_files {d : Disk} {data : Bytes} (h : data ∈ d.contents) : data ∈ d.files := by
  obtain ⟨path, stat, hget⟩ := h
  obtain ⟨before, after, hnodes, -⟩ := List.lookup_eq_some_iff.mp hget
  refine List.mem_filterMap.mpr ⟨(path, .file stat data), ?_, rfl⟩
  rw [hnodes]
  exact List.mem_append_right _ List.mem_cons_self

/-- Both stores load, with one closure digest, and no two of their files have one digest. -/
theorem sampleStore_loads :
    (∀ d ∈ [sampleStore, strayStore], (evaluate (load sampleCrates) d).toOption.map
      (fun l => (l.closureSha256, decide (l.template ∈ strayStore.files))) = some
      (utf8 "bb723c8c655ec1752791a0bd9cb3a8e4007bfbc1a125b692babdf3b162096ebd", true)) ∧
    (∀ a ∈ strayStore.files, ∀ b ∈ strayStore.files, sampleSha256 a = sampleSha256 b → a = b) ∧
    (∀ data ∈ sampleStore.files, data ∈ strayStore.files) := by decide +kernel

theorem load_binding_stray : ∃ l l', evaluate (load sampleCrates) sampleStore = .ok l ∧
    evaluate (load sampleCrates) strayStore = .ok l' ∧ l = l' ∧
    strayStore.Holds (joinName (derivedPath l.canonicalDigest) "template.cpio") l.template := by
  obtain ⟨hload, hfiles, hsubset⟩ := sampleStore_loads
  obtain ⟨l, hl, hfields⟩ := exists_ok_of_map (hload sampleStore List.mem_cons_self)
  obtain ⟨l', hl', hfields'⟩ := exists_ok_of_map (hload strayStore (List.mem_cons_of_mem _ List.mem_cons_self))
  rw [Prod.mk.injEq, decide_eq_true_eq] at hfields hfields'
  have hmessages : ∀ data ∈ Loads.messages sampleStore strayStore l l', data ∈ strayStore.files := by
    rintro data ((hdata | hdata) | hdata)
    · exact hsubset data (Disk.mem_files hdata)
    · exact Disk.mem_files hdata
    · rcases hdata with hdata | hdata
      · rw [hdata]; exact hfields.2
      · rw [hdata]; exact hfields'.2
  have hinj : Set.InjOn sampleSha256 (Loads.messages sampleStore strayStore l l') := fun a ha b hb =>
    hfiles a (hmessages a ha) b (hmessages b hb)
  obtain ⟨heq, -, -, hheld⟩ := @load_binding sampleCrates _ _ _ _ hinj hl hl' (hfields.1.trans hfields'.1.symm)
  exact ⟨l, l', hl, hl', heq, by rw [heq]; exact hheld⟩

end SimFerret.Store
