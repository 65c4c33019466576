import SimFerret.Store.Concurrent

/-!
# SimFerret.Store.Runs — the routines of the store on a disk that nothing else touches

What a routine returns there, and the disk it leaves, are determined.

* `Gives`: what a routine returns and leaves when it runs alone.
* `gives_openRegular`, `gives_readFile`, `gives_sha256File`: the routines of `Root` that read.
* `gives_verifyDerived`, `gives_readRecords`, `gives_load`: loading a store that has all its files.
-/

namespace SimFerret.Store

open Workload

/-- Run alone from `d`, its counter at `n`, the routine returns `r` and leaves `d'`. -/
def Gives (uid : Nat) {α : Type} (x : Action α) (n : Nat) (d : Disk) (r : IoResult α) (n' : Nat)
    (d' : Disk) : Prop :=
  x.run (perform uid) n d = ((r, n'), d')

section Rules

variable {uid : Nat} {α β : Type} {x : Action α} {f : α → Action β} {n n' n'' : Nat} {d d' d'' : Disk} {a : α}
  {e : IoError} {r : IoResult β}

theorem gives_pure (a : α) : Gives uid (pure a) n d (.ok a) n d := rfl

theorem gives_lift (x : IoResult α) : Gives uid (monadLift x) n d x n d := rfl

theorem gives_fail (e : IoError) : Gives uid (fail e : Action α) n d (.error e) n d := rfl

theorem gives_draw : Gives uid Routine.draw n d (.ok n) (n + 1) d := rfl

theorem Gives.bind (hx : Gives uid x n d (.ok a) n' d') (hf : Gives uid (f a) n' d' r n'' d'') :
    Gives uid (x >>= f) n d r n'' d'' := Routine.run_bind_ok hx hf

theorem Gives.bind_error (hx : Gives uid x n d (.error e) n' d') : Gives uid (x >>= f) n d (.error e) n' d' :=
  Routine.run_bind_error hx

theorem Gives.attempt {r : IoResult α} (hx : Gives uid x n d r n' d') : Gives uid x.attempt n d (.ok r) n' d' :=
  Routine.run_attempt hx

/-- A routine has one outcome. -/
theorem Gives.unique {r r' : IoResult α} (h : Gives uid x n d r n' d') (h' : Gives uid x n d r' n'' d'') :
    r = r' ∧ d' = d'' := by
  have hsame := h.symm.trans h'
  rw [Prod.mk.injEq, Prod.mk.injEq] at hsame
  exact ⟨hsame.1.1, hsame.2⟩

/-- A routine that returns went through its parts. -/
theorem Gives.of_bind {b : β} (h : Gives uid (x >>= f) n d (.ok b) n'' d'') :
    ∃ a n' d', Gives uid x n d (.ok a) n' d' ∧ Gives uid (f a) n' d' (.ok b) n'' d'' := Routine.run_bind_eq_ok h

theorem Gives.of_lift {y : IoResult α} {r : IoResult α} (h : Gives uid (monadLift y) n d r n' d') :
    y = r ∧ n' = n ∧ d' = d := by
  have hsame := h.symm.trans (gives_lift y)
  rw [Prod.mk.injEq, Prod.mk.injEq] at hsame
  exact ⟨hsame.1.1.symm, hsame.1.2, hsame.2⟩

/-- A fallible computation between system calls. -/
theorem Gives.lift_bind {y : IoResult α} (hy : y = .ok a) (hf : Gives uid (f a) n d r n' d') :
    Gives uid (monadLift y >>= f) n d r n' d' := by
  subst hy
  exact Gives.bind (gives_lift _) hf

theorem Gives.require_bind {c : Bool} {f : Unit → Action β} (hc : c = true) (hf : Gives uid (f ()) n d r n' d') :
    Gives uid (monadLift (require c e) >>= f) n d r n' d' := Gives.lift_bind (require_eq_ok.mpr hc) hf

/-- A fallible computation that fails. -/
theorem Gives.lift_bind_error {y : IoResult α} (hy : y = .error e) :
    Gives uid (monadLift y >>= f) n d (.error e) n d := by
  subst hy
  exact Gives.bind_error (gives_lift _)

theorem gives_kernel {op : Op} {reply : op.Reply} (h : perform uid op d = (reply, d')) :
    Gives uid (kernel op) n d (.ok reply) n d' := by
  show (((.ok (perform uid op d).1, n), (perform uid op d).2) : (IoResult op.Reply × Nat) × Disk) = _
  rw [h]

theorem perform_ok {op : Op} {value : op.Value} (h : exec uid op d = .ok (value, d')) :
    perform uid op d = (.ok value, d') := by
  rw [perform, h]

theorem perform_error {op : Op} {errno : Errno} (h : exec uid op d = .error errno) :
    perform uid op d = (.error errno, d) := by
  rw [perform, h]

theorem gives_syscall {op : Op} {error : Errno → IoError} {value : op.Value}
    (h : exec uid op d = .ok (value, d')) : Gives uid (syscall op error) n d (.ok value) n d' :=
    Gives.bind (gives_kernel (perform_ok h)) (gives_pure value)

theorem gives_syscall_error {op : Op} {error : Errno → IoError} {errno : Errno}
    (h : exec uid op d = .error errno) : Gives uid (syscall op error) n d (.error (error errno)) n d :=
  Gives.bind (gives_kernel (perform_error h)) (gives_fail _)

theorem gives_mapErr {g : IoError → IoError} (h : Gives uid x n d (.ok a) n' d') :
    Gives uid (mapErr g x) n d (.ok a) n' d' :=
  Gives.bind h.attempt (gives_pure a)

end Rules

/-! ## Reading -/

/-- Every node lies in a directory. -/
def Closed (d : Disk) : Prop := ∀ path c node, d.get (path ++ [c]) = some node → d.isDirectory path = true

section Reading

variable {uid n : Nat} {d : Disk} {relative name : Text} {parent : Path} {stat : Stat} {data : Bytes} {limit : Nat}

/-- The directories on the way to a node. -/
theorem Closed.front (h : Closed d) {node : Node} {path front : Path} (hget : d.get path = some node)
    (hfront : front <+: path) (hne : front ≠ path) : d.isDirectory front = true := by
  obtain ⟨rest, rfl⟩ := hfront
  cases hdir : d.isDirectory front with
  | true => rfl
  | false =>
    have hnone := get_below h hdir rest (by rintro rfl; exact hne (List.append_nil front).symm)
    rw [hnone] at hget
    cases hget

theorem exec_openDirectory_ok {dir : Path} {c : Text} (h : d.isDirectory (dir ++ [c]) = true) :
    exec uid (.openDirectory dir c) d = .ok ((), d) := by
  obtain ⟨stat, hget⟩ := isDirectory_iff.mp h
  simp only [exec, hget]

theorem exec_openDirectory_missing {dir : Path} {c : Text} (h : d.get (dir ++ [c]) = none) :
    exec uid (.openDirectory dir c) d = .error .noent := by
  simp only [exec, h]

theorem gives_openBeneath : ∀ {rest : List Text} {current : Path},
    (∀ front, front ≠ [] → front <+: rest → d.isDirectory (current ++ front) = true) →
    Gives uid (Root.openBeneath current rest) n d (.ok (current ++ rest)) n d
  | [], current, _ => by
    rw [List.append_nil]
    exact gives_pure current
  | c :: rest, current, h => by
    refine Gives.bind (gives_syscall (exec_openDirectory_ok (h [c] (by simp) (by simp)))) ?_
    rw [show current ++ c :: rest = (current ++ [c]) ++ rest by simp]
    refine gives_openBeneath fun front hne hfront => ?_
    rw [← List.append_cons]
    exact h (c :: front) (by simp) (List.cons_prefix_cons.mpr ⟨rfl, hfront⟩)

/-- A directory on the way is missing. -/
theorem gives_openBeneath_missing : ∀ {rest : List Text} {current : Path},
    (∀ front, front ≠ [] → front <+: rest → d.isDirectory (current ++ front) = true ∨
      d.get (current ++ front) = none) →
    (∃ front, front ≠ [] ∧ front <+: rest ∧ d.get (current ++ front) = none) →
    ∃ e, e.kind = .notFound ∧ Gives uid (Root.openBeneath current rest) n d (.error e) n d
  | [], _, _, hmissing => by
    obtain ⟨front, hne, hfront, -⟩ := hmissing
    exact absurd (List.prefix_nil.mp hfront) hne
  | c :: rest, current, h, hmissing => by
    rcases h [c] (by simp) (by simp) with hdir | hnone
    · have hrest : ∃ front, front ≠ [] ∧ front <+: rest ∧ d.get ((current ++ [c]) ++ front) = none := by
        obtain ⟨front, hne, hfront, hnone⟩ := hmissing
        cases front with
        | nil => exact absurd rfl hne
        | cons first front =>
          obtain ⟨rfl, hbelow⟩ := List.cons_prefix_cons.mp hfront
          refine ⟨front, ?_, hbelow, by rwa [← List.append_cons]⟩
          rintro rfl
          obtain ⟨stat, hget⟩ := isDirectory_iff.mp hdir
          rw [hget] at hnone
          cases hnone
      obtain ⟨e, hkind, hgives⟩ := gives_openBeneath_missing (fun front hne hfront => by
        rw [← List.append_cons]
        exact h (c :: front) (by simp) (List.cons_prefix_cons.mpr ⟨rfl, hfront⟩)) hrest
      exact ⟨e, hkind, Gives.bind (gives_syscall (exec_openDirectory_ok hdir)) hgives⟩
    · exact ⟨_, rfl, Gives.bind_error (gives_syscall_error (exec_openDirectory_missing hnone))⟩

theorem gives_openParent (hclosed : Closed d) {node : Node} (hget : d.get (parent ++ [name]) = some node) :
    Gives uid (Root.openBeneath [] parent) n d (.ok parent) n d :=
  @gives_openBeneath uid n d parent [] fun front _ hfront => by
    refine hclosed.front hget (hfront.trans (List.prefix_append _ _)) ?_
    rintro rfl
    exact absurd hfront.length_le (by simp)

/-- A regular file that is there. -/
theorem gives_openRegular (hsplit : splitRelative relative = .ok (parent, name)) (hclosed : Closed d)
    (hget : d.get (parent ++ [name]) = some (.file stat data)) :
    Gives uid (Root.openRegular ⟨[]⟩ relative) n d (.ok (some (stat, data))) n d := by
  have hexec : exec uid (.openFile parent name) d = .ok (.file stat data, d) := by
    simp only [exec, hget]
  refine Gives.lift_bind hsplit (Gives.bind (gives_openParent hclosed hget).attempt ?_)
  exact Gives.bind (gives_kernel (perform_ok hexec)) (gives_pure _)

/-- Nothing is there. -/
theorem gives_openRegular_none (hsplit : splitRelative relative = .ok (parent, name))
    (hway : ∀ front, front ≠ [] → front <+: parent → d.isDirectory front = true ∨ d.get front = none)
    (hget : d.get (parent ++ [name]) = none) :
    Gives uid (Root.openRegular ⟨[]⟩ relative) n d (.ok none) n d := by
  by_cases hmissing : ∃ front, front ≠ [] ∧ front <+: parent ∧ d.get front = none
  · obtain ⟨e, hkind, hgives⟩ := @gives_openBeneath_missing uid n d parent [] hway hmissing
    refine Gives.lift_bind hsplit (Gives.bind hgives.attempt ?_)
    simp only [hkind, if_true]
    exact gives_pure none
  · have hdirs : ∀ front, front ≠ [] → front <+: parent → d.isDirectory ([] ++ front) = true := by
      intro front hne hfront
      refine (hway front hne hfront).resolve_right fun hnone => hmissing ⟨front, hne, hfront, hnone⟩
    have hexec : exec uid (.openFile parent name) d = .error .noent := by
      simp only [exec, hget]
    refine Gives.lift_bind hsplit (Gives.bind (gives_openBeneath hdirs).attempt ?_)
    exact Gives.bind (gives_kernel (perform_error hexec)) (gives_pure _)

theorem gives_readFileIfExists (hsplit : splitRelative relative = .ok (parent, name)) (hclosed : Closed d)
    (hget : d.get (parent ++ [name]) = some (.file stat data)) (hlimit : data.length ≤ limit) :
    Gives uid (Root.readFileIfExists ⟨[]⟩ relative limit) n d (.ok (some data)) n d :=
  Gives.bind (gives_openRegular hsplit hclosed hget) (Gives.require_bind (by simpa using hlimit) (gives_pure _))

theorem gives_readFile (hsplit : splitRelative relative = .ok (parent, name)) (hclosed : Closed d)
    (hget : d.get (parent ++ [name]) = some (.file stat data)) (hlimit : data.length ≤ limit) :
    Gives uid (Root.readFile ⟨[]⟩ relative limit) n d (.ok data) n d :=
  Gives.bind (gives_readFileIfExists hsplit hclosed hget hlimit) (gives_pure data)

theorem gives_readRequired {what : Text} (hsplit : splitRelative relative = .ok (parent, name))
    (hclosed : Closed d) (hget : d.get (parent ++ [name]) = some (.file stat data))
    (hlimit : data.length ≤ limit) : Gives uid (readRequired ⟨[]⟩ relative limit what) n d (.ok data) n d :=
  gives_mapErr (gives_readFile hsplit hclosed hget hlimit)

theorem gives_sha256File (digest : Bytes → Text) (hsplit : splitRelative relative = .ok (parent, name))
    (hclosed : Closed d) (hget : d.get (parent ++ [name]) = some (.file stat data))
    (hlimit : data.length ≤ limit) : Gives uid (Root.sha256File digest ⟨[]⟩ relative limit) n d
    (.ok (digest data)) n d :=
  Gives.bind (gives_openRegular hsplit hclosed hget) (Gives.require_bind (by simpa using hlimit) (gives_pure _))

theorem requirePrivate_of {process : Process} {what : Text} (huid : stat.uid = process.uid)
    (hmode : stat.mode &&& 0o077 = 0) : Root.requirePrivate process stat what = .ok () := by
  unfold Root.requirePrivate
  exact bind_eq_ok.mpr ⟨(), require_eq_ok.mpr (by simpa using huid), require_eq_ok.mpr (by simpa using hmode)⟩

theorem gives_requirePrivateFile {process : Process} (hsplit : splitRelative relative = .ok (parent, name))
    (hclosed : Closed d) (hget : d.get (parent ++ [name]) = some (.file stat data)) (huid : stat.uid = process.uid)
    (hmode : stat.mode &&& 0o077 = 0) : Gives uid (Root.requirePrivateFile process ⟨[]⟩ relative) n d
      (.ok ()) n d := by
  have hprivate : Root.requirePrivate process stat relative = .ok () := requirePrivate_of huid hmode
  refine Gives.bind (gives_openRegular hsplit hclosed hget) ?_
  show Gives uid (monadLift (Root.requirePrivate process stat relative)) n d (.ok ()) n d
  rw [hprivate]
  exact gives_lift _

theorem gives_requirePrivateDirectory {process : Process} {parts : Path} (hparts : components relative = .ok parts)
    (hway : ∀ front, front ≠ [] → front <+: parts → d.isDirectory front = true)
    (hget : d.get parts = some (.directory stat)) (huid : stat.uid = process.uid)
    (hmode : stat.mode &&& 0o077 = 0) : Gives uid (Root.requirePrivateDirectory process ⟨[]⟩ relative) n d
    (.ok ()) n d := by
  have hopen : Gives uid (Root.openDirectory ⟨[]⟩ relative) n d (.ok ⟨parts⟩) n d :=
    Gives.lift_bind hparts (Gives.bind (@gives_openBeneath uid n d parts [] hway) (gives_pure _))
  have hexec : exec uid (.fstat parts) d = .ok (stat, d) := by
    simp only [exec, hget]
  have hprivate : Root.requirePrivate process stat relative = .ok () := requirePrivate_of huid hmode
  refine Gives.bind hopen (Gives.bind (gives_syscall hexec) ?_)
  show Gives uid (monadLift (Root.requirePrivate process stat relative)) n d (.ok ()) n d
  rw [hprivate]
  exact gives_lift _

theorem gives_entryExists {node : Node} (hsplit : splitRelative relative = .ok (parent, name)) (hclosed : Closed d)
    (hget : d.get (parent ++ [name]) = some node) :
    Gives uid (Root.entryExists ⟨[]⟩ relative) n d (.ok true) n d := by
  have hexec : exec uid (.statat parent name) d = .ok ((), d) := by
    simp [exec, hget]
  refine Gives.lift_bind hsplit (Gives.bind (gives_openParent hclosed hget) ?_)
  exact Gives.bind (gives_kernel (perform_ok hexec)) (gives_pure true)

end Reading

/-! ## Loading -/

section Loading

variable {crates : Crates} {uid owner n : Nat} {d : Disk} {candidate : Candidate}

/-- What a store has once a candidate was published into it. -/
structure Published (crates : Crates) (uid : Nat) (candidate : Candidate) (d : Disk) : Prop where
  closed : Closed d
  named : Named candidate
  closure : d.get closureAt = some (ownFile uid candidate.closureBytes)
  verified : Verified crates uid candidate d
  retained : Retained crates uid candidate d

theorem gives_verifyDerived (hclosed : Closed d) (hnamed : Named candidate)
    (hverified : Verified crates owner candidate d) (htree : candidate.treeBytes.length ≤ maxCacheMetadataBytes) :
    Gives uid (verifyDerived crates ⟨[]⟩ candidate.closure.canonicalDigest candidate.treeBytes
      candidate.closure.templateSha256 (candidate.closureSha256 crates) candidate.closure.treeSha256) n d
          (.ok ()) n d := by
  have hsplit : ∀ file ∈ derivedNames,
      splitRelative (joinName (derivedPath candidate.closure.canonicalDigest) file) =
      .ok (entryAt candidate.closure.canonicalDigest, file) := fun file hfile =>
    splitRelative_entryFile hnamed.2 ((by decide : ∀ file ∈ derivedNames, Component file) file hfile)
  obtain ⟨template, htemplate, hdigest, hlength⟩ := hverified.template
  obtain ⟨lockBytes, hlock, hparsed, hlockLength⟩ := hverified.lock
  refine Gives.bind (gives_readRequired (hsplit _ (by decide)) hclosed hverified.tree htree) ?_
  refine Gives.require_bind (by simp) ?_
  refine Gives.bind (gives_mapErr (gives_sha256File crates.digest (hsplit _ (by decide)) hclosed htemplate
    hlength)) ?_
  refine Gives.require_bind (by simpa using hdigest) ?_
  refine Gives.bind (gives_readRequired (hsplit _ (by decide)) hclosed hlock hlockLength) ?_
  refine Gives.lift_bind (mapError_eq_ok.mpr hparsed) ?_
  show Gives uid (monadLift (require _ _)) n d (.ok ()) n d
  rw [require_eq_ok.mpr (by simp [Candidate.lock])]
  exact gives_lift _

/-- What `prepare` checked and computed. -/
structure Drafted (crates : Crates) (graph : WorkloadGraph) (candidate : Candidate) : Prop where
  source : candidate.graph = graph
  overlay : validateOverlayCompatibility graph.tree graph.launch = .ok ()
  encoded : candidate.treeBytes = graph.tree.encode crates.sha256
  treeLength : candidate.treeBytes.length ≤ maxCacheMetadataBytes
  template : graph.tree.template guestTemplateRoot = .ok candidate.template
  templateLength : candidate.template.length ≤ maxTemplateBytes
  objectCount : graph.objects.length ≤ maxRawObjects
  records : objectRecords crates 0 graph.objects = .ok candidate.closure.objects
  closure : candidate.closure =
    { version := closureVersion
      kind := graph.kind
      manifestDigest := graph.manifestDigest
      policy := Policy.current
      limits := Limits.current
      objects := candidate.closure.objects
      layers := graph.layers
      launch := graph.launch
      canonicalDigest := graph.tree.canonicalDigest crates.sha256
      treeSha256 := crates.digest candidate.treeBytes
      templateSha256 := crates.digest candidate.template
      entries := graph.tree.len
      expandedBytes := graph.tree.expandedBytes }
  written : canonicalJson crates.closure candidate.closure = .ok candidate.closureBytes
  length : candidate.closureBytes.length ≤ maxCacheMetadataBytes

theorem drafted_of_prepare {graph : WorkloadGraph} (h : prepare crates graph = .ok candidate) :
    Drafted crates graph candidate := by
  obtain ⟨_, _, h⟩ := bind_eq_ok.mp h
  obtain ⟨_, hoverlay, h⟩ := bind_eq_ok.mp h
  obtain ⟨_, htree, h⟩ := bind_eq_ok.mp h
  obtain ⟨template, htemplate, h⟩ := bind_eq_ok.mp h
  obtain ⟨_, htemplateLength, h⟩ := bind_eq_ok.mp h
  obtain ⟨_, hcount, h⟩ := bind_eq_ok.mp h
  obtain ⟨records, hrecords, h⟩ := bind_eq_ok.mp h
  obtain ⟨closureBytes, hbytes, h⟩ := bind_eq_ok.mp h
  obtain ⟨_, hlength, h⟩ := bind_eq_ok.mp h
  have htreeLength := of_decide_eq_true (require_eq_ok.mp htree)
  have htemplateLength' := of_decide_eq_true (require_eq_ok.mp htemplateLength)
  have hcount' := of_decide_eq_true (require_eq_ok.mp hcount)
  have hlength' := of_decide_eq_true (require_eq_ok.mp hlength)
  cases h
  exact ⟨rfl, hoverlay, rfl, htreeLength, htemplate, htemplateLength', hcount', hrecords, rfl, hbytes, hlength'⟩

/-- Every recorded object has a known role and is within its limit. -/
theorem objectRecords_within {objects : List (Text × Bytes)} {index : Nat} {records : List ObjectRecord}
    (h : objectRecords crates index objects = .ok records) :
    ∀ object ∈ objects, ∃ limit, roleLimit object.1 = some limit ∧ object.2.length ≤ limit := by
  induction objects generalizing index records with
  | nil => exact fun _ hobject => absurd hobject List.not_mem_nil
  | cons first objects ih =>
    obtain ⟨record, hrecord, h⟩ := bind_eq_ok.mp h
    obtain ⟨rest, hrest, h⟩ := bind_eq_ok.mp h
    obtain ⟨limit, hlimit, hrecord⟩ := bind_eq_ok.mp hrecord
    obtain ⟨_, hwithin, hrecord⟩ := bind_eq_ok.mp hrecord
    intro object hobject
    rcases List.mem_cons.mp hobject with rfl | hobject
    · exact ⟨limit, okOr_eq_ok.mp hlimit, of_decide_eq_true (require_eq_ok.mp hwithin)⟩
    · exact ih hrest object hobject

theorem objectOf_eq_none {objects : Objects} {role : Text} (h : role ∉ objects.map Prod.fst) :
    objectOf objects role = none := by
  rw [objectOf, List.lookup_eq_none_iff]
  rintro ⟨other, data⟩ hmem
  rw [bne_iff_ne]
  rintro rfl
  exact h (List.mem_map.mpr ⟨_, hmem, rfl⟩)

/-- **The record loop** reads the objects back in the order of their records. -/
theorem gives_readRecords (hclosed : Closed d) : ∀ (rest : List (Text × Bytes)) (index : Nat) (done : Objects),
    (∀ object ∈ rest, ∃ limit, roleLimit object.1 = some limit ∧ object.2.length ≤ limit) →
    ((done ++ rest).map Prod.fst).Nodup →
    (∀ object ∈ rest, ∃ stat, d.get (objectAt (crates.digest object.2)) = some (.file stat object.2)) →
    Gives uid (readRecords crates ⟨[]⟩ index
      (rest.map fun object => ⟨object.1, digestPrefix ++ crates.digest object.2, object.2.length⟩) done) n d
      (.ok (done ++ rest)) n d
  | [], _, done, _, _, _ => by
    rw [List.append_nil]
    exact gives_pure done
  | (role, data) :: rest, index, done, hlimits, hnodup, hheld => by
    obtain ⟨limit, hlimit, hwithin⟩ := hlimits (role, data) List.mem_cons_self
    obtain ⟨stat, hget⟩ := hheld (role, data) List.mem_cons_self
    have hnew : objectOf done role = none := by
      refine objectOf_eq_none fun hmem => ?_
      rw [List.map_append, List.nodup_append] at hnodup
      exact hnodup.2.2 role hmem role (by simp) rfl
    have hdigest : parseDigest (digestPrefix ++ crates.digest data) = .ok (crates.digest data) :=
      parseDigest_hex (crates.sha256_length data)
    have hobject : Gives uid (readObject crates ⟨[]⟩ index
        ⟨role, digestPrefix ++ crates.digest data, data.length⟩ done) n d (.ok (done ++ [(role, data)])) n d := by
      refine Gives.lift_bind (okOr_eq_ok.mpr hlimit) (Gives.require_bind (by simpa using hwithin) ?_)
      refine Gives.lift_bind hdigest (Gives.require_bind (by rw [hnew]; rfl) ?_)
      refine Gives.bind (gives_readRequired (splitRelative_objectPath (component_digest crates data)) hclosed
        hget le_rfl) ?_
      exact Gives.require_bind (by simp) (gives_pure _)
    have hmore : done ++ (role, data) :: rest = (done ++ [(role, data)]) ++ rest := List.append_cons done _ rest
    rw [hmore] at hnodup ⊢
    refine Gives.bind hobject ?_
    exact gives_readRecords hclosed rest (index + 1) (done ++ [(role, data)])
      (fun object hmem => hlimits object (List.mem_cons_of_mem _ hmem)) hnodup
      fun object hmem => hheld object (List.mem_cons_of_mem _ hmem)

/-- The workload that loading a published candidate returns. -/
def Candidate.loaded (crates : Crates) (candidate : Candidate) : LoadedWorkload where
  sourceKind := candidate.graph.kind
  closureSha256 := candidate.closureSha256 crates
  canonicalDigest := candidate.closure.canonicalDigest
  tree := candidate.graph.tree
  template := candidate.template
  launch := candidate.graph.launch

/-- Replay re-derives the published tree, launch identity and layers. -/
structure Rederives (crates : Crates) (candidate : Candidate) (graph : WorkloadGraph) : Prop where
  replayed : replayGraph crates candidate.closure candidate.graph.objects = .ok graph
  tree : graph.tree = candidate.graph.tree
  launch : graph.launch = candidate.graph.launch
  layers : graph.layers = candidate.graph.layers

variable {graph : WorkloadGraph}

theorem Rederives.rederive (h : Rederives crates candidate graph) (hd : Drafted crates candidate.graph candidate) :
    rederive crates candidate.closure candidate.graph.objects =
      .ok ⟨candidate.graph.tree, candidate.treeBytes, candidate.template⟩ := by
  have hclosure := hd.closure
  have hsame : ∀ b : Bool, b = true → ∀ e, require b e = .ok () := fun b hb e => require_eq_ok.mpr hb
  unfold Store.rederive
  refine bind_eq_ok.mpr ⟨graph, h.replayed, ?_⟩
  rw [h.tree, h.launch, h.layers]
  refine bind_eq_ok.mpr ⟨(), hd.overlay, bind_eq_ok.mpr ⟨(), hsame _ (by rw [hclosure]; simp) _, ?_⟩⟩
  refine bind_eq_ok.mpr ⟨(), hsame _ (by rw [hclosure]; simp) _, ?_⟩
  refine bind_eq_ok.mpr ⟨(), hsame _ (by rw [hclosure]; simp) _, ?_⟩
  refine bind_eq_ok.mpr ⟨(), hsame _ (by rw [hclosure, hd.encoded]; simp) _, ?_⟩
  refine bind_eq_ok.mpr ⟨candidate.template, hd.template,
    bind_eq_ok.mpr ⟨(), hsame _ (by rw [hclosure]; simp) _, ?_⟩⟩
  refine bind_eq_ok.mpr ⟨(), hsame _ (by rw [hclosure]; simp) _, ?_⟩
  rw [hd.encoded]
  rfl

/-- Loading reads everything that was published; what it returns is what replay makes of the objects. -/
theorem gives_load (hfaithful : crates.Faithful) (hp : Published crates owner candidate d)
    (hd : Drafted crates candidate.graph candidate) (hroles : (candidate.graph.objects.map Prod.fst).Nodup)
    {r : IoResult LoadedWorkload}
    (hr : ∀ derived, rederive crates candidate.closure candidate.graph.objects = .ok derived →
      derived.treeBytes = candidate.treeBytes ∧ r = .ok ⟨candidate.closure.kind, candidate.closureSha256 crates,
        candidate.closure.canonicalDigest, derived.tree, derived.template, candidate.closure.launch⟩)
    (he : ∀ e, rederive crates candidate.closure candidate.graph.objects = .error e → r = .error e) :
    Gives uid (load crates) n d r n d := by
  have hclosure := hd.closure
  have hopen : Gives uid Root.open n d (.ok ⟨[]⟩) n d := by
    have hroot : d.isDirectory [] = true := hp.closed.front hp.closure (List.nil_prefix) (by decide)
    obtain ⟨stat, hget⟩ := isDirectory_iff.mp hroot
    have hexec : exec uid .openStore d = .ok ((), d) := by
      simp only [exec, hget]
    exact Gives.bind (gives_syscall hexec) (gives_pure _)
  have hparsed : crates.closure.fromSlice candidate.closureBytes = .ok candidate.closure := by
    obtain ⟨bytes, hbytes, hwritten⟩ := bind_eq_ok.mp hd.written
    rw [← Except.ok.inj hwritten]
    exact hfaithful.closure _ _ (mapError_eq_ok.mp hbytes)
  have hobjects : Gives uid (readObjects crates ⟨[]⟩ candidate.closure) n d (.ok candidate.graph.objects) n d := by
    have hrecords := objectRecords_ok hd.records
    have hlength : candidate.closure.objects.length ≤ maxRawObjects := by
      rw [hrecords, List.length_map]
      exact hd.objectCount
    refine Gives.require_bind (by simpa using hlength) ?_
    rw [hrecords]
    exact gives_readRecords hp.closed candidate.graph.objects 0 [] (objectRecords_within hd.records) hroles
      fun object hobject => ⟨_, hp.retained object hobject⟩
  refine Gives.bind hopen (Gives.bind (gives_readRequired splitRelative_rawClosurePath hp.closed hp.closure
    hd.length) ?_)
  refine Gives.lift_bind (mapError_eq_ok.mpr hparsed) (Gives.require_bind (by rw [hclosure]; simp) ?_)
  refine Gives.require_bind (by rw [hclosure]; simp) (Gives.require_bind (by rw [hclosure]; simp) ?_)
  refine Gives.bind hobjects ?_
  cases hderived : rederive crates candidate.closure candidate.graph.objects with
  | error e =>
    rw [he e hderived]
    exact Gives.bind_error (gives_lift _)
  | ok derived =>
    obtain ⟨htree, rfl⟩ := hr derived hderived
    refine Gives.bind (gives_lift _) ?_
    rw [htree]
    exact Gives.bind (gives_verifyDerived hp.closed hp.named hp.verified hd.treeLength) (gives_pure _)

end Loading

end SimFerret.Store
