import Mathlib.Data.List.Infix
import SimFerret.Store.Triples

/-!
# SimFerret.Store.Staging — files written through staging names

What a run writes stands under a hidden name of its own until one rename puts it where others look.

* `keeps_openOrCreateBeneath`, `keeps_writeStagingFile`, `keeps_writeFileAtomic`, `keeps_publishExclusive`: the
  routines of `Root` that write.
* `keeps_createStaging`, `keeps_renameEntry`, `keeps_cleanupStaging`: the directory of a derived entry.
-/

namespace SimFerret.Store

open Workload

/-! ## Paths -/

theorem component_hex {bytes : Bytes} (h : hex bytes ≠ []) : Component (hex bytes) := by
  have hnot : ∀ b, b < 48 → b ∉ hex bytes := by
    intro b hb hmem
    obtain ⟨nibble, hnibble, rfl⟩ := mem_hex hmem
    exact absurd (lowerDigit_range hnibble).1 (UInt8.not_le.mpr hb)
  refine ⟨h, fun hdot => ?_, fun hdots => ?_, hnot slash (by decide), hnot 0 (by decide)⟩
  · exact hnot 46 (by decide) (by rw [hdot]; decide)
  · exact hnot 46 (by decide) (by rw [hdots]; decide)

theorem component_digest (crates : Crates) (data : Bytes) : Component (crates.digest data) := by
  refine component_hex fun hnil => ?_
  have hlength := length_digest crates.toLibraries data
  rw [Libraries.digest, sha256Bytes, hnil] at hlength
  cases hlength

theorem splitRelative_objectPath {digest : Text} (h : Component digest) :
    splitRelative (objectPath digest) = .ok (objectsDirectory, digest) := by
  have hjoin : objectPath digest = joinPath (objectsDirectory ++ [digest]) := by
    have hdirectory : utf8 "raw/sha256/" = utf8 "raw" ++ slash :: (utf8 "sha256" ++ [slash]) := by decide
    simp [objectPath, joinPath, objectsDirectory, List.intercalate, hdirectory]
  rw [hjoin]
  refine splitRelative_joinPath fun c hc => ?_
  rcases List.mem_append.mp hc with hc | hc
  · exact (by decide : ∀ c ∈ objectsDirectory, Component c) c hc
  · exact List.mem_singleton.mp hc ▸ h

theorem derivedPath_eq (name : Text) : derivedPath name = joinPath (derivedDirectory ++ [name]) := by
  have hdirectory : utf8 "derived/" = utf8 "derived" ++ [slash] := by decide
  simp [derivedPath, joinPath, derivedDirectory, List.intercalate, hdirectory]

theorem splitRelative_derivedPath {name : Text} (h : Component name) :
    splitRelative (derivedPath name) = .ok (derivedDirectory, name) := by
  rw [derivedPath_eq]
  refine splitRelative_joinPath fun c hc => ?_
  rcases List.mem_append.mp hc with hc | hc
  · exact (by decide : ∀ c ∈ derivedDirectory, Component c) c hc
  · exact List.mem_singleton.mp hc ▸ h

theorem splitRelative_entryFile {name file : Text} (h : Component name) (hfile : Component file) :
    splitRelative (joinName (derivedPath name) file) = .ok (entryAt name, file) := by
  have hjoin : joinName (derivedPath name) file = joinPath (entryAt name ++ [file]) := by
    rw [joinName, derivedPath_eq]
    simp [joinPath, derivedDirectory, entryAt, List.intercalate]
  rw [hjoin]
  refine splitRelative_joinPath fun c hc => ?_
  simp only [entryAt, List.cons_append, List.nil_append, List.mem_cons, List.not_mem_nil, or_false] at hc
  rcases hc with rfl | rfl | rfl
  · decide
  · exact h
  · exact hfile

theorem splitRelative_rawClosurePath : splitRelative rawClosurePath =
    .ok (rawDirectory, utf8 "closure.json") := by decide

/-- A staging name is longer than the name. -/
theorem stagingName_ne (name : Text) (pid counter : Nat) : stagingName name pid counter ≠ name := by
  intro h
  have hlength := congrArg List.length h
  simp only [stagingName, List.length_append, show (utf8 ".").length = 1 from rfl] at hlength
  omega

/-! ## Directories and staged files -/

section Creating

variable {crates : Crates} {known : Candidate → Prop} {process : Process} {touch : Path → Prop}
  {fact : Disk → Prop} {dir parent : Path} {name relative : Text} {data : Bytes}

/-- The run's staging paths for a name in a directory. -/
def Temp (process : Process) (dir : Path) (name : Text) (path : Path) : Prop :=
  ∃ n, path = dir ++ [stagingName name process.pid (process.ticket n)]

theorem private_ownDirectory (uid : Nat) : Private uid (ownDirectory uid) :=
  ⟨rfl, (by decide : 0o700 &&& 0o077 = 0)⟩

theorem private_ownFile (uid : Nat) (data : Bytes) : Private uid (ownFile uid data) :=
  ⟨rfl, (by decide : 0o600 &&& 0o077 = 0)⟩

/-- What the others leave true is still true after a routine that touches nothing. -/
theorem keeps_self {α : Type} {x : Action α} {post : α → Disk → Prop} (hfact : Steady crates known process fact)
    (hx : Keeps crates known process Nothing fact x post) :
    Keeps crates known process Nothing fact x fun a d => post a d ∧ fact d :=
  keeps_weaken (keeps_frame hfact (firm_nothing hfact) hx) (fun _ _ hf => ⟨hf, hf⟩) fun _ _ _ h => h

theorem keeps_drawStagingName (name : Text) :
    Keeps crates known process touch (fun _ => True) (drawStagingName process name) fun drawn _ =>
      ∃ n, drawn = stagingName name process.pid (process.ticket n) :=
  keeps_bind (Routine.Meets.draw rely_base firm_const) fun n => keeps_pure firm_const fun _ _ _ => ⟨n, rfl⟩

variable (hnamed : ∀ candidate, known candidate → Named candidate)

include hnamed

/-- Directories of the store are created; any other directory on the way is there. -/
theorem keeps_openOrCreateBeneath (hfact : Steady crates known process fact) : ∀ (parts : List Text)
    (current : Path), (∀ front, front ≠ [] → front <+: parts → current ++ front ∈ storeDirectories ∨
      ∀ d, Consistent crates process.uid known d → fact d → (d.get (current ++ front)).isSome) →
    Keeps crates known process Nothing fact (Root.openOrCreateBeneath process relative current parts)
      fun dir d => dir = current ++ parts ∧ fact d
  | [], current, _ => keeps_pure hfact fun _ _ hf => ⟨(List.append_nil current).symm, hf⟩
  | component :: rest, current, hparts => by
    have hmake : Keeps crates known process Nothing fact (kernel (.mkdirat current component))
        fun reply _ => ∀ value, reply = .ok value → True := by
      refine keeps_kernel (by rintro _ _ ⟨⟩) hfact (fun _ => firm_const) fun d value d' hd hf h => ⟨?_, trivial⟩
      have hcreate : d.create current component (ownDirectory process.uid) = .ok (value, d') := h
      rcases hparts [component] (by simp) (by simp) with hstore | hthere
      · exact transition_create hnamed hcreate (private_ownDirectory _) (.inr ⟨hstore, _, rfl⟩)
      · have hsome := hthere d hd hf
        rw [(Disk.create_ok hcreate).1] at hsome
        cases hsome
    have hnext : ∀ r : Unit, Keeps crates known process Nothing fact (do
        syscall (.openDirectory current component) (describe relative)
        let stat ← syscall (.fstat (current ++ [component])) fromErrno
        liftM (Root.requirePrivate process stat relative)
        Root.openOrCreateBeneath process relative (current ++ [component]) rest)
        fun dir d => dir = current ++ component :: rest ∧ fact d := by
      intro _
      refine keeps_bind (keeps_look (by rintro _ _ ⟨⟩) (fun _ _ _ => exec_openDirectory) hfact) fun _ => ?_
      refine keeps_bind (keeps_look (by rintro _ _ ⟨⟩) (fun _ _ _ h => (exec_fstat h).1) hfact) fun stat => ?_
      refine keeps_try hfact fun _ _ => ?_
      have ih := keeps_openOrCreateBeneath hfact rest (current ++ [component]) fun front hne hfront => by
        have hparts' := hparts (component :: front) (by simp) (List.cons_prefix_cons.mpr ⟨rfl, hfront⟩)
        rwa [List.append_cons] at hparts'
      rwa [← List.append_cons] at ih
    refine keeps_bind (keeps_self hfact hmake) fun reply => ?_
    have hdrop : ∀ {x : Action Path}, Keeps crates known process Nothing fact x
        (fun dir d => dir = current ++ component :: rest ∧ fact d) →
        Keeps crates known process Nothing (fun d => (∀ value, reply = .ok value → True) ∧ fact d) x
          fun dir d => dir = current ++ component :: rest ∧ fact d :=
      fun h => keeps_weaken h (fun _ _ hpre => hpre.2) fun _ _ _ hpost => hpost
    dsimp only
    split
    · exact hdrop (hnext ())
    · exact hdrop (hnext ())
    · exact hdrop (keeps_bind (keeps_fail hfact) hnext)

omit hnamed in
theorem front_of_store {front : Path} (hparent : parent ∈ storeDirectories) (hfront : front <+: parent) :
    front ∈ storeDirectories :=
  (by decide : ∀ parent ∈ storeDirectories, ∀ front ∈ parent.inits, front ∈ storeDirectories) parent hparent front
    ((List.mem_inits front parent).mpr hfront)

theorem keeps_openOrCreateDirectory {parts : Path} (hparts : components relative = .ok parts)
    (hstore : parts ∈ storeDirectories) :
    Keeps crates known process touch (fun _ => True) (Root.openOrCreateDirectory process ⟨[]⟩ relative)
      fun _ _ => True := by
  refine keeps_try firm_const fun found hfound => ?_
  rw [hparts] at hfound
  obtain rfl := Except.ok.inj hfound
  exact keeps_weaken (keeps_touch (fun _ hno => False.elim hno)
    (keeps_openOrCreateBeneath hnamed firm_const parts []
    fun front _ hfront => .inl (front_of_store hstore hfront))) (fun _ _ h => h) fun _ _ _ _ => trivial

theorem keeps_discard (hstaged : Staged (dir ++ [name])) (htouch : touch (dir ++ [name])) :
    Keeps crates known process touch (fun _ => True) (Root.discard dir name) fun _ _ => True := by
  have hcall : Keeps crates known process touch (fun _ => True) (kernel (.unlink dir name))
      fun reply _ => ∀ value, reply = .ok value → True := by
    refine keeps_kernel (by rintro _ _ ⟨⟩) firm_const (fun _ => firm_const) fun d value d' _ _ h => ⟨?_, trivial⟩
    obtain ⟨rfl, hfile⟩ := exec_unlink h
    exact transition_erase hnamed hstaged htouch (.inl hfile)
  exact keeps_bind hcall fun _ => keeps_pure firm_const fun _ _ _ => trivial

/-- Data written to a file of the run's own. -/
theorem keeps_write {path : Path} {old : Bytes} (hmine : Mine process path) (htouch : touch path) :
    Keeps crates known process touch (fun d => d.get path = some (ownFile process.uid old))
      (kernel (.write path data)) fun reply d => ∀ value, reply = .ok value →
      d.get path = some (ownFile process.uid (old ++ data)) := by
  refine Routine.Meets.call rely_base (steady_get hmine _) (fun reply => firm_forall fun _ _ => steady_get hmine _)
    fun d reply d' hd hp hdoes => ?_
  have hwrite : ∀ more, Transition crates process.uid known touch d (d.write path more) := fun more =>
    transition_write hnamed hmine.staged htouch
  cases hdoes with
  | done h =>
    obtain ⟨-, rfl⟩ := Prod.mk.inj (Except.ok.inj h)
    refine ⟨hwrite data, (hwrite data hd).2.2, fun _ _ => ?_⟩
    rw [Disk.write, hp]
    dsimp only
    rw [Disk.get_set, if_pos rfl]
  | failed => exact ⟨Transition.refl d, hd, fun value hvalue => by cases hvalue⟩
  | torn path data n => exact ⟨hwrite _, (hwrite _ hd).2.2, fun value hvalue => by cases hvalue⟩

theorem keeps_writeStagingFile (hmine : ∀ n,
    Mine process (dir ++ [stagingName name process.pid (process.ticket n)])) :
    Keeps crates known process (Temp process dir name) (fun _ => True)
      (Root.writeStagingFile process dir name data)
      fun temporary d => (∃ n, temporary = stagingName name process.pid (process.ticket n)) ∧
        d.get (dir ++ [temporary]) = some (ownFile process.uid data) := by
  refine keeps_bind (keeps_drawStagingName name) fun temporary => ?_
  refine keeps_given (fun _ _ h => h) ?_
  rintro ⟨n, hn⟩
  have hown : Mine process (dir ++ [temporary]) := hn ▸ hmine n
  have htouch : Temp process dir name (dir ++ [temporary]) := ⟨n, by rw [hn]⟩
  have hget : ∀ value, Steady crates known process fun d => d.get (dir ++ [temporary]) = value := steady_get hown
  have hcreate : Keeps crates known process (Temp process dir name)
      (fun _ => ∃ n, temporary = stagingName name process.pid (process.ticket n))
      (syscall (.createFile dir temporary) (describe temporary))
      fun _ d => d.get (dir ++ [temporary]) = some (ownFile process.uid []) := by
    refine keeps_syscall (fun _ => hget _) (keeps_kernel (by rintro _ _ ⟨⟩) firm_const (fun _ => hget _)
      fun d value d' _ _ h => ?_)
    have hnew : d.create dir temporary (ownFile process.uid []) = .ok (value, d') := h
    refine ⟨transition_create hnamed hnew (private_ownFile _ _) (.inl ⟨hown.staged, htouch⟩), ?_⟩
    obtain ⟨-, -, rfl⟩ := Disk.create_ok hnew
    rw [Disk.get_set, if_pos rfl]
  refine keeps_bind hcreate fun _ => ?_
  have hwritten : Keeps crates known process (Temp process dir name)
      (fun d => d.get (dir ++ [temporary]) = some (ownFile process.uid [])) (do
        syscall (.write (dir ++ [temporary]) data) fromErrno
        syscall (.sync (dir ++ [temporary])) fromErrno)
      fun _ d => d.get (dir ++ [temporary]) = some (ownFile process.uid data) := by
    refine keeps_bind (keeps_syscall (fun _ => hget _) (keeps_write hnamed hown htouch)) fun _ => ?_
    exact keeps_look (by rintro _ _ ⟨⟩) (fun _ _ _ h => (Prod.mk.inj (Except.ok.inj h)).2.symm) (hget _)
  refine keeps_bind (keeps_attempt (fun _ => hget _) hwritten) fun written => ?_
  have hsteady : Steady crates known process fun d => ∀ value, written = .ok value →
      d.get (dir ++ [temporary]) = some (ownFile process.uid data) := firm_forall fun _ _ => hget _
  cases written with
  | ok value => exact keeps_pure hsteady fun _ _ h => ⟨⟨n, hn⟩, h value rfl⟩
  | error e =>
    refine keeps_bind (keeps_weaken (keeps_discard hnamed hown.staged htouch)
      (fun _ _ _ => trivial) fun _ _ _ h => h) fun _ => keeps_fail firm_const

/-! ## Files put in place -/

/-- Renaming a staged file of the run's own. -/
theorem rename_keeps {d d' : Disk} {value : Unit} {source target : Path}
    (hd : Consistent crates process.uid known d) (hrename : d.rename source target = .ok (value, d'))
    (hne : source ≠ target) (hsource : d.get source = some (ownFile process.uid data)) (hstaged : Staged source)
    (htouch : touch source) (htarget : Staged target ∧ touch target ∨ ¬ Staged target ∧
    (d.get target = some (ownFile process.uid data) ∨
      d.get target = none ∧
        (d'.get target = some (ownFile process.uid data) → Kept d d' →
          Addition crates process.uid known d' target))) :
    Transition crates process.uid known touch d d' ∧ d'.get target = some (ownFile process.uid data) := by
  refine ⟨transition_rename hnamed hrename hne hsource hstaged htouch htarget, ?_⟩
  obtain ⟨-, -, hget⟩ := renamed_file hd.closed hrename hne hsource
  rw [hget, if_pos rfl]

/-- Where a file may be put: at a path of the run's own, or under a published name where it is an addition. -/
structure Target (crates : Crates) (known : Candidate → Prop) (process : Process) (touch : Path → Prop)
    (fact : Disk → Prop) (data : Bytes) (target : Path) : Prop where
  place : Mine process target ∧ touch target ∨ ¬ Staged target ∧ ∀ d,
    Consistent crates process.uid known d → fact d →
    d.get target = some (ownFile process.uid data) ∨ d.get target = none ∧ ∀ d',
      d'.get target = some (ownFile process.uid data) → Kept d d' → Addition crates process.uid known d' target

omit hnamed in
theorem Target.steady {target : Path} (h : Target crates known process touch fact data target) (node : Node) :
    Steady crates known process fun d => d.get target = some node := by
  rcases h.place with ⟨hmine, -⟩ | ⟨hpub, -⟩
  · exact steady_get hmine _
  · exact firm_of_lasting (lasting_get hpub _)

theorem Target.rename {d d' : Disk} {value : Unit} {source target : Path}
    (h : Target crates known process touch fact data target) (hd : Consistent crates process.uid known d)
    (hf : fact d) (hrename : d.rename source target = .ok (value, d')) (hne : source ≠ target)
    (hsource : d.get source = some (ownFile process.uid data)) (hstaged : Staged source) (htouch : touch source) :
    Transition crates process.uid known touch d d' ∧ d'.get target = some (ownFile process.uid data) := by
  refine rename_keeps hnamed hd hrename hne hsource hstaged htouch ?_
  rcases h.place with ⟨hmine, ht⟩ | ⟨hpub, hadd⟩
  · exact .inl ⟨hmine.staged, ht⟩
  · refine .inr ⟨hpub, (hadd d hd hf).imp_right fun hnew => ⟨hnew.1, fun hget hkept => hnew.2 d' hget hkept⟩⟩

/-- What a run needs to write a file through a staging name. -/
structure Writable (crates : Crates) (known : Candidate → Prop) (process : Process) (touch : Path → Prop)
    (fact : Disk → Prop) (relative : Text) (parent : Path) (name : Text) : Prop where
  split : splitRelative relative = .ok (parent, name)
  steady : Steady crates known process fact
  firm : Firm crates known process touch fact
  directories : ∀ front, front ≠ [] → front <+: parent → front ∈ storeDirectories ∨
    ∀ d, Consistent crates process.uid known d → fact d → (d.get front).isSome
  mine : ∀ n, Mine process (parent ++ [stagingName name process.pid (process.ticket n)])
  touches : ∀ path, Temp process parent name path → touch path

/-- The two calls before the rename. -/
theorem keeps_staged {α : Type} {rest : Path → Text → Action α} {post : α → Disk → Prop}
    (hw : Writable crates known process touch fact relative parent name)
    (hrest : ∀ temporary n, temporary = stagingName name process.pid (process.ticket n) →
      Keeps crates known process touch (fun d =>
        d.get (parent ++ [temporary]) = some (ownFile process.uid data) ∧ fact d)
        (rest parent temporary) post) :
    Keeps crates known process touch fact (do
      let directory ← Root.openOrCreateBeneath process relative [] parent
      let temporary ← Root.writeStagingFile process directory name data
      rest directory temporary) post := by
  have hopen : Keeps crates known process touch fact (Root.openOrCreateBeneath process relative [] parent)
      fun dir d => dir = [] ++ parent ∧ fact d :=
    keeps_touch (fun _ hno => False.elim hno) (keeps_openOrCreateBeneath hnamed hw.steady parent [] hw.directories)
  refine keeps_bind hopen fun directory => keeps_given (fun _ _ h => h.1) fun hdirectory => ?_
  rw [List.nil_append] at hdirectory
  subst hdirectory
  have hwritten : Keeps crates known process (Temp process directory name) (fun _ => True)
      (Root.writeStagingFile process directory name data)
      fun temporary d => (∃ n, temporary = stagingName name process.pid (process.ticket n)) ∧
        d.get (directory ++ [temporary]) = some (ownFile process.uid data) := keeps_writeStagingFile hnamed hw.mine
  have hfile := keeps_frame hw.steady hw.firm (keeps_touch hw.touches hwritten)
  refine keeps_bind (keeps_weaken hfile (fun _ _ h => ⟨trivial, h.2⟩) fun _ _ _ h => h) fun temporary => ?_
  refine keeps_given (fun _ _ h => h.1.1) ?_
  rintro ⟨n, hn⟩
  exact keeps_weaken (hrest temporary n hn) (fun _ _ h => ⟨h.1.2, h.2⟩) fun _ _ _ h => h

omit hnamed in
/-- The staged file before its rename. -/
theorem Writable.temporary {temporary : Text} {n : Nat}
    (hw : Writable crates known process touch fact relative parent name)
    (hn : temporary = stagingName name process.pid (process.ticket n)) :
    Mine process (parent ++ [temporary]) ∧ touch (parent ++ [temporary]) ∧
        parent ++ [temporary] ≠ parent ++ [name] := by
  subst hn
  refine ⟨hw.mine n, hw.touches _ ⟨n, rfl⟩, fun h => ?_⟩
  exact stagingName_ne name process.pid (process.ticket n) (List.cons.inj (List.append_cancel_left h)).1

theorem keeps_writeFileAtomic (hw : Writable crates known process touch fact relative parent name)
    (htarget : Target crates known process touch fact data (parent ++ [name])) :
    Keeps crates known process touch fact (Root.writeFileAtomic process ⟨[]⟩ relative data)
      fun _ d => d.get (parent ++ [name]) = some (ownFile process.uid data) := by
  refine keeps_try hw.steady fun pair hpair => ?_
  rw [hw.split] at hpair
  obtain rfl := Except.ok.inj hpair
  refine keeps_staged hnamed hw fun temporary n hn => ?_
  obtain ⟨hmine, htouch, hne⟩ := hw.temporary hn
  have hcall : Keeps crates known process touch
      (fun d => d.get (parent ++ [temporary]) = some (ownFile process.uid data) ∧ fact d)
      (kernel (.renameat (parent ++ [temporary]) (parent ++ [name])))
      fun reply d => ∀ value, reply = .ok value → d.get (parent ++ [name]) = some (ownFile process.uid data) := by
    refine keeps_kernel (by rintro _ _ ⟨⟩) (firm_and (steady_get hmine _) hw.steady) (fun _ => htarget.steady _)
      fun d value d' hd hf h => ?_
    exact htarget.rename hnamed hd hf.2 h hne hf.1 hmine.staged htouch
  refine keeps_bind hcall fun reply => ?_
  have hsteady : Steady crates known process fun d => ∀ value, reply = .ok value →
      d.get (parent ++ [name]) = some (ownFile process.uid data) := firm_forall fun _ _ => htarget.steady _
  cases reply with
  | ok value => exact keeps_pure hsteady fun _ _ h => h value rfl
  | error e =>
    exact keeps_bind (keeps_weaken (keeps_discard hnamed hmine.staged htouch)
      (fun _ _ _ => trivial) fun _ _ _ h => h) fun _ => keeps_fail firm_const

theorem keeps_publishExclusive (hw : Writable crates known process touch fact relative parent name)
    (htarget : Target crates known process touch (fun d => d.get (parent ++ [name]) = none ∧
      fact d) data (parent ++ [name])) :
    Keeps crates known process touch fact (Root.publishExclusive process ⟨[]⟩ relative data)
      fun published d => published = true → d.get (parent ++ [name]) = some (ownFile process.uid data) := by
  refine keeps_try hw.steady fun pair hpair => ?_
  rw [hw.split] at hpair
  obtain rfl := Except.ok.inj hpair
  refine keeps_staged hnamed hw fun temporary n hn => ?_
  obtain ⟨hmine, htouch, hne⟩ := hw.temporary hn
  have hcall : Keeps crates known process touch
      (fun d => d.get (parent ++ [temporary]) = some (ownFile process.uid data) ∧ fact d)
      (kernel (.renameNoreplace (parent ++ [temporary]) (parent ++ [name])))
      fun reply d => ∀ value, reply = .ok value → d.get (parent ++ [name]) = some (ownFile process.uid data) := by
    refine keeps_kernel (by rintro _ _ ⟨⟩) (firm_and (steady_get hmine _) hw.steady) (fun _ => htarget.steady _)
      fun d value d' hd hf h => ?_
    simp only [exec] at h
    split_ifs at h with hthere
    rw [Bool.not_eq_true, Option.isSome_eq_false_iff, Option.isNone_iff_eq_none] at hthere
    exact htarget.rename hnamed hd ⟨hthere, hf.2⟩ h hne hf.1 hmine.staged htouch
  refine keeps_bind hcall fun reply => ?_
  have hsteady : Steady crates known process fun d => ∀ value, reply = .ok value →
      d.get (parent ++ [name]) = some (ownFile process.uid data) := firm_forall fun _ _ => htarget.steady _
  have hdiscard : Keeps crates known process touch (fun d => ∀ value, reply = .ok value →
      d.get (parent ++ [name]) = some (ownFile process.uid data))
          (Root.discard parent temporary) fun _ _ => True :=
    keeps_weaken (keeps_discard hnamed hmine.staged htouch) (fun _ _ _ => trivial) fun _ _ _ h => h
  split
  · exact keeps_pure hsteady fun _ _ h _ => h _ rfl
  · exact keeps_bind hdiscard fun _ => keeps_pure firm_const fun _ _ _ h => by cases h
  · exact keeps_bind hdiscard fun _ => keeps_fail firm_const

omit hnamed in
/-- A file under a published directory of the store. -/
theorem writable_published (hsplit : splitRelative relative = .ok (parent, name))
    (hstore : parent ∈ storeDirectories) (hsteady : Steady crates known process fact)
    (hfirm : Firm crates known process (Mine process) fact) :
    Writable crates known process (Mine process) fact relative parent name := by
  have hmine : ∀ n, Mine process (parent ++ [stagingName name process.pid (process.ticket n)]) := fun n =>
    ⟨_, ⟨name, n, rfl⟩, parent, hstore, [], rfl⟩
  refine ⟨hsplit, hsteady, hfirm, fun front _ hfront => .inl (front_of_store hstore hfront), hmine, ?_⟩
  rintro _ ⟨n, rfl⟩
  exact hmine n

/-! ## The directory of a derived entry -/

/-- The paths at or below a name of the derived directory. -/
def Within (name : Text) (path : Path) : Prop := entryAt name <+: path

omit hnamed in
theorem mine_within (howned : Owned process name) {path : Path} (h : Within name path) : Mine process path := by
  obtain ⟨rest, rfl⟩ := h
  exact ⟨name, howned, derivedDirectory, by decide, rest, rfl⟩

theorem keeps_createStaging (hname : Component name) (howned : Owned process name) :
    Keeps crates known process (Within name) (fun _ => True) (Root.createDirectory ⟨[]⟩ (derivedPath name))
      fun _ d => d.get (entryAt name) = some (ownDirectory process.uid) := by
  have hmine : Mine process (entryAt name) := mine_within howned (List.prefix_refl _)
  refine keeps_try firm_const fun pair hpair => ?_
  rw [splitRelative_derivedPath hname] at hpair
  obtain rfl := Except.ok.inj hpair
  refine keeps_bind (keeps_touch (fun _ hno => False.elim hno)
    (keeps_openBeneath derivedDirectory [])) fun directory => ?_
  refine keeps_given (fun _ _ h => h) fun hdirectory => ?_
  subst hdirectory
  refine keeps_syscall (fun _ => steady_get hmine _) (keeps_kernel (by rintro _ _ ⟨⟩) firm_const
    (fun _ => steady_get hmine _) fun d value d' _ _ h => ?_)
  have hcreate : d.create derivedDirectory name (ownDirectory process.uid) = .ok (value, d') := h
  refine ⟨transition_create hnamed hcreate (private_ownDirectory _) (.inl ⟨hmine.staged, List.prefix_refl _⟩), ?_⟩
  obtain ⟨-, -, rfl⟩ := Disk.create_ok hcreate
  exact (Disk.get_set _ _ _ _).trans (if_pos rfl)

omit hnamed in
theorem steady_holds {candidate : Candidate} (howned : Owned process name) :
    Steady crates known process (Holds crates process.uid candidate name) := by
  have hfile : ∀ file value, Steady crates known process fun d =>
      d.get (entryFile name file) = value := fun file value =>
    steady_get (mine_within howned ⟨[file], rfl⟩) value
  intro d d' hd hr h
  obtain ⟨lockBytes, hlock, hlength, hget⟩ := h.lock
  exact ⟨hfile _ _ d d' hd hr h.tree, hfile _ _ d d' hd hr h.template, lockBytes, hlock, hlength,
    hfile _ _ d d' hd hr hget⟩

theorem keeps_renameEntry {candidate : Candidate} (hk : known candidate) (hname : Component name)
    (howned : Owned process name) : Keeps crates known process (Within name)
      (fun d => d.get (entryAt name) = some (ownDirectory process.uid) ∧ Holds crates process.uid candidate name d)
      (Root.rename ⟨[]⟩ (derivedPath name) (derivedPath candidate.closure.canonicalDigest)) fun _ _ => True := by
  have hpre : Steady crates known process fun d =>
      d.get (entryAt name) = some (ownDirectory process.uid) ∧ Holds crates process.uid candidate name d :=
    firm_and (steady_get (mine_within howned (List.prefix_refl _)) _) (steady_holds howned)
  refine keeps_try hpre fun source hsource => keeps_try hpre fun target htarget => ?_
  rw [splitRelative_derivedPath hname] at hsource
  rw [splitRelative_derivedPath (hnamed candidate hk).2] at htarget
  obtain rfl := Except.ok.inj hsource
  obtain rfl := Except.ok.inj htarget
  refine keeps_bind (keeps_carry hpre (keeps_openBeneath derivedDirectory [])) fun directory => ?_
  refine keeps_given (fun _ _ h => h.1) fun hdirectory => ?_
  subst hdirectory
  refine keeps_bind (keeps_weaken (keeps_carry hpre (keeps_openBeneath derivedDirectory [])) (fun _ _ h => h.2)
    fun _ _ _ h => h) fun directory => keeps_given (fun _ _ h => h.1) fun hdirectory => ?_
  subst hdirectory
  refine keeps_weaken (keeps_syscall (fun _ => firm_const)
    (keeps_kernel (by rintro _ _ ⟨⟩) hpre (fun _ => firm_const)
    fun d value d' _ hp h => ⟨?_, trivial⟩)) (fun _ _ h => h.2) fun _ _ _ h => h
  exact transition_entry hnamed hk h howned.hidden (fun rest => List.prefix_append _ _) hp.1 hp.2

/-- A removal is of a node with nothing below it, or does nothing. -/
theorem keeps_removeIfExists {op : Path → Text → Op} (hop : ∀ path data, op parent name ≠ .write path data)
    (herase : ∀ d value d', exec process.uid (op parent name) d = .ok (value, d') →
      d' = d.erase (parent ++ [name]) ∧ (d.isDirectory (parent ++ [name]) = false ∨
      d.childless (parent ++ [name]) = true))
    (hsplit : splitRelative relative = .ok (parent, name)) (hstaged : Staged (parent ++ [name]))
    (htouch : touch (parent ++ [name])) :
    Keeps crates known process touch (fun _ => True) (Root.removeIfExists op ⟨[]⟩ relative) fun _ _ => True := by
  refine keeps_try firm_const fun pair hpair => ?_
  rw [hsplit] at hpair
  obtain rfl := Except.ok.inj hpair
  refine keeps_bind (keeps_touch (fun _ hno => False.elim hno) (keeps_openBeneath parent [])) fun directory => ?_
  refine keeps_given (fun _ _ h => h) fun hdirectory => ?_
  rw [List.nil_append] at hdirectory
  subst hdirectory
  have hcall : Keeps crates known process touch (fun _ => True) (kernel (op directory name))
      fun reply _ => ∀ value, reply = .ok value → True := by
    refine keeps_kernel hop firm_const (fun _ => firm_const) fun d value d' _ _ h => ⟨?_, trivial⟩
    obtain ⟨rfl, hempty⟩ := herase d value d' h
    exact transition_erase hnamed hstaged htouch hempty
  refine keeps_bind (keeps_weaken hcall (fun _ _ _ => trivial) fun _ _ _ h => h) fun reply => ?_
  split
  · exact keeps_pure firm_const fun _ _ _ => trivial
  · exact keeps_pure firm_const fun _ _ _ => trivial
  · exact keeps_fail firm_const

theorem keeps_cleanupStaging (hname : Component name) (howned : Owned process name) :
    Keeps crates known process (Within name) (fun _ => True)
        (cleanupStaging ⟨[]⟩ (derivedPath name)) fun _ _ => True := by
  have hstaged : ∀ path, Within name path → Staged path := fun path h => (mine_within howned h).staged
  have hfile : ∀ file ∈ derivedNames, Keeps crates known process (Within name) (fun _ => True)
      (ignored (Root.removeFileIfExists ⟨[]⟩ (joinName (derivedPath name) file))) fun _ _ => True := by
    intro file hfile
    have hwithin : Within name (entryAt name ++ [file]) := List.prefix_append _ _
    refine keeps_ignored (keeps_removeIfExists hnamed (by rintro _ _ ⟨⟩) (fun d value d' h => ?_)
      (splitRelative_entryFile hname ((by decide : ∀ file ∈ derivedNames, Component file) file hfile))
      (hstaged _ hwithin) hwithin)
    exact (exec_unlink h).imp_right .inl
  refine keeps_bind (keeps_forEach _ hfile) fun _ => ?_
  refine keeps_ignored (keeps_removeIfExists hnamed (by rintro _ _ ⟨⟩) (fun d value d' h => ?_)
    (splitRelative_derivedPath hname) (hstaged (entryAt name) (List.prefix_refl _))
    (List.prefix_refl (entryAt name)))
  exact (exec_removeDirectory h).imp_right .inr

end Creating

end SimFerret.Store
