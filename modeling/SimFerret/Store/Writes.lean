import SimFerret.Store.Runs

/-!
# SimFerret.Store.Writes — what the writing routines leave on a disk that nothing else touches

Each lemma gives the node at every path behind the routine.

* `gives_openOrCreateBeneath`, `gives_writeFileAtomic`, `gives_publishExclusive`: files written through a free
  staging name.
* `gives_writeFileAtomic_taken`: a staging name that is taken fails the routine.
-/

namespace SimFerret.Store

open Workload

section Writing

variable {process : Process} {n : Nat} {d : Disk} {relative name : Text} {parent : Path} {data : Bytes}

/-- The directories on the way to `path` are there and private. -/
def Way (uid : Nat) (d : Disk) (path : Path) : Prop :=
  ∀ front, front ≠ [] → front <+: path → ∃ stat, d.get front = some (.directory stat) ∧ stat.uid = uid ∧
    stat.mode &&& 0o077 = 0

theorem Way.of_get {uid : Nat} {d' : Disk} {path : Path} (h : Way uid d path)
    (hget : ∀ front, front ≠ [] → front <+: path → d'.get front = d.get front) : Way uid d' path := by
  intro front hne hfront
  rw [hget front hne hfront]
  exact h front hne hfront

theorem Way.isDirectory {uid : Nat} {path front : Path} (h : Way uid d path) (hne : front ≠ [])
    (hfront : front <+: path) : d.isDirectory front = true := by
  obtain ⟨stat, hget, -⟩ := h front hne hfront
  exact isDirectory_iff.mpr ⟨stat, hget⟩

theorem Way.mono {uid : Nat} {path front : Path} (h : Way uid d path) (hfront : front <+: path) :
    Way uid d front :=
  fun other hne hother => h other hne (hother.trans hfront)

theorem exec_fstat_ok {uid : Nat} {dir : Path} {stat : Stat} (h : d.get dir = some (.directory stat)) :
    exec uid (.fstat dir) d = .ok (stat, d) := by
  simp only [exec, h]

/-- Opening the directories that are there. -/
theorem gives_openOrCreateBeneath_there : ∀ {parts : List Text} {current : Path},
    (∀ front, front ≠ [] → front <+: parts → ∃ stat, d.get (current ++ front) = some (.directory stat) ∧
      stat.uid = process.uid ∧ stat.mode &&& 0o077 = 0) →
    Gives process.uid (Root.openOrCreateBeneath process relative current parts) n d (.ok (current ++ parts)) n d
  | [], current, _ => by
    rw [List.append_nil]
    exact gives_pure current
  | c :: rest, current, h => by
    obtain ⟨stat, hget, huid, hmode⟩ := h [c] (by simp) (by simp)
    have hmake : exec process.uid (.mkdirat current c) d = .error .exist := by
      simp [exec, Disk.create, hget]
    have hopen : exec process.uid (.openDirectory current c) d = .ok ((), d) :=
      exec_openDirectory_ok (isDirectory_iff.mpr ⟨stat, hget⟩)
    have hnext : ∀ front, front ≠ [] → front <+: rest → ∃ stat,
        d.get (current ++ [c] ++ front) = some (.directory stat) ∧
        stat.uid = process.uid ∧ stat.mode &&& 0o077 = 0 := by
      intro front hne hfront
      rw [List.append_assoc, List.singleton_append]
      exact h (c :: front) (by simp) (List.cons_prefix_cons.mpr ⟨rfl, hfront⟩)
    have hmore : current ++ c :: rest = current ++ [c] ++ rest := List.append_cons current c rest
    refine Gives.bind (gives_kernel (perform_error hmake)) ?_
    refine Gives.bind (gives_syscall hopen) (Gives.bind (gives_syscall (exec_fstat_ok hget)) ?_)
    refine Gives.lift_bind (requirePrivate_of huid hmode) ?_
    rw [hmore]
    exact gives_openOrCreateBeneath_there hnext

open Classical in
/-- The directories that are missing are made. -/
theorem gives_openOrCreateBeneath : ∀ {parts : List Text} {current : Path} {d : Disk},
    d.isDirectory current = true →
    (∀ front, front ≠ [] → front <+: parts → d.get (current ++ front) = none ∨
      ∃ stat, d.get (current ++ front) = some (.directory stat) ∧ stat.uid = process.uid ∧
        stat.mode &&& 0o077 = 0) → ∃ d', Gives process.uid
        (Root.openOrCreateBeneath process relative current parts) n d (.ok (current ++ parts)) n d' ∧
      ∀ p, d'.get p = if (∃ front, front ≠ [] ∧ front <+: parts ∧ p = current ++ front) ∧ d.get p = none
        then some (ownDirectory process.uid) else d.get p
  | [], current, d, _, _ => by
    refine ⟨d, by rw [List.append_nil]; exact gives_pure current, fun p => ?_⟩
    rw [if_neg]
    rintro ⟨⟨front, hne, hfront, -⟩, -⟩
    exact hne (List.prefix_nil.mp hfront)
  | c :: rest, current, d, hcurrent, h => by
    have hmore : current ++ c :: rest = current ++ [c] ++ rest := List.append_cons current c rest
    -- the directory `c` behind `mkdirat`, whether it was there or not
    obtain ⟨d₁, reply, hmake, hreply, hget₁⟩ : ∃ d₁ reply,
        perform process.uid (.mkdirat current c) d = (reply, d₁) ∧ (reply = .ok () ∨ reply = .error .exist) ∧
        ∀ p, d₁.get p = if p = current ++ [c] ∧ d.get p = none then
            some (ownDirectory process.uid) else d.get p := by
      rcases h [c] (by simp) (by simp) with hnone | ⟨stat, hget, -⟩
      · have hexec : exec process.uid (.mkdirat current c) d =
            .ok ((), d.set (current ++ [c]) (ownDirectory process.uid)) := by
          simp [exec, Disk.create, hnone, hcurrent]
        refine ⟨_, _, perform_ok hexec, .inl rfl, fun p => ?_⟩
        rw [Disk.get_set]
        by_cases hp : p = current ++ [c]
        · subst hp
          simp [hnone]
        · simp [hp]
      · have hexec : exec process.uid (.mkdirat current c) d = .error .exist := by
          simp [exec, Disk.create, hget]
        refine ⟨d, _, perform_error hexec, .inr rfl, fun p => ?_⟩
        rw [if_neg]
        rintro ⟨rfl, hnone⟩
        rw [hget] at hnone
        cases hnone
    obtain ⟨stat, hmade, huid, hmode⟩ : ∃ stat, d₁.get (current ++ [c]) = some (.directory stat) ∧
        stat.uid = process.uid ∧ stat.mode &&& 0o077 = 0 := by
      rcases h [c] (by simp) (by simp) with hnone | ⟨stat, hget, hprivate⟩
      · exact ⟨⟨0o700, process.uid⟩, by rw [hget₁]; simp [hnone], private_ownDirectory process.uid⟩
      · exact ⟨stat, by rw [hget₁]; simp [hget], hprivate⟩
    have hdirectory : d₁.isDirectory (current ++ [c]) = true := isDirectory_iff.mpr ⟨stat, hmade⟩
    have hsame : ∀ front, front ≠ [] → d₁.get (current ++ [c] ++ front) = d.get (current ++ [c] ++ front) := by
      intro front hne
      rw [hget₁, if_neg]
      rintro ⟨heq, -⟩
      exact hne (List.append_right_eq_self.mp heq)
    obtain ⟨d', hgives, hget'⟩ := @gives_openOrCreateBeneath rest (current ++ [c]) d₁ hdirectory
      fun front hne hfront => by
        rw [hsame front hne, List.append_assoc, List.singleton_append]
        exact h (c :: front) (by simp) (List.cons_prefix_cons.mpr ⟨rfl, hfront⟩)
    refine ⟨d', ?_, fun p => ?_⟩
    · have hrest : Gives process.uid (do
          syscall (.openDirectory current c) (describe relative)
          let stat ← syscall (.fstat (current ++ [c])) fromErrno
          liftM (Root.requirePrivate process stat relative)
          Root.openOrCreateBeneath process relative (current ++ [c]) rest) n d₁
              (.ok (current ++ c :: rest)) n d' := by
        refine Gives.bind (gives_syscall (exec_openDirectory_ok hdirectory)) ?_
        refine Gives.bind (gives_syscall (exec_fstat_ok hmade)) (Gives.lift_bind (requirePrivate_of huid hmode) ?_)
        rw [hmore]
        exact hgives
      refine Gives.bind (gives_kernel hmake) ?_
      rcases hreply with rfl | rfl
      · exact hrest
      · exact hrest
    · have hfronts : (∃ front, front ≠ [] ∧ front <+: c :: rest ∧ p = current ++ front) ↔
          p = current ++ [c] ∨ ∃ front, front ≠ [] ∧ front <+: rest ∧ p = current ++ [c] ++ front := by
        constructor
        · rintro ⟨front, hne, hfront, rfl⟩
          cases front with
          | nil => exact absurd rfl hne
          | cons first front =>
            obtain ⟨rfl, hbelow⟩ := List.cons_prefix_cons.mp hfront
            by_cases hnil : front = []
            · exact .inl (by rw [hnil])
            · exact .inr ⟨front, hnil, hbelow, List.append_cons current first front⟩
        · rintro (rfl | ⟨front, hne, hfront, rfl⟩)
          · exact ⟨[c], by simp, by simp, rfl⟩
          · exact ⟨c :: front, by simp, List.cons_prefix_cons.mpr ⟨rfl, hfront⟩, by simp⟩
      rw [hget', hget₁, hfronts]
      by_cases hp : p = current ++ [c]
      · simp [hp]
      · simp [hp]

/-- A directory of the store, made where it is missing. -/
theorem gives_openOrCreateDirectory {parts : Path} (hparts : components relative = .ok parts) (hclosed : Closed d)
    (hroot : d.isDirectory [] = true)
    (hfronts : ∀ front, front ≠ [] → front <+: parts → d.get front = none ∨
      ∃ stat, d.get front = some (.directory stat) ∧ stat.uid = process.uid ∧ stat.mode &&& 0o077 = 0) :
    ∃ d', Gives process.uid (Root.openOrCreateDirectory process ⟨[]⟩ relative) n d (.ok parts) n d' ∧ Closed d' ∧
      Way process.uid d' parts ∧ ∀ p, d'.get p = d.get p ∨
        p ≠ [] ∧ p <+: parts ∧ d.get p = none ∧ d'.get p = some (ownDirectory process.uid) := by
  obtain ⟨d', hgives, hget⟩ := @gives_openOrCreateBeneath process n relative parts [] d hroot hfronts
  have hcases : ∀ p, d'.get p = d.get p ∨
      p ≠ [] ∧ p <+: parts ∧ d.get p = none ∧ d'.get p = some (ownDirectory process.uid) := by
    intro p
    rw [hget]
    split_ifs with hp
    · obtain ⟨⟨front, hne, hfront, rfl⟩, hnone⟩ := hp
      exact .inr ⟨hne, hfront, hnone, rfl⟩
    · exact .inl rfl
  have hway : Way process.uid d' parts := by
    intro front hne hfront
    rcases hfronts front hne hfront with hnone | ⟨stat, hthere, hprivate⟩
    · refine ⟨_, ?_, private_ownDirectory process.uid⟩
      rw [hget, if_pos ⟨⟨front, hne, hfront, rfl⟩, hnone⟩]
    · refine ⟨stat, ?_, hprivate⟩
      rw [hget, if_neg, hthere]
      rintro ⟨-, hnone⟩
      rw [hthere] at hnone
      cases hnone
  have hdir : ∀ p, d.isDirectory p = true → d'.isDirectory p = true := by
    intro p hp
    obtain ⟨stat, hstat⟩ := isDirectory_iff.mp hp
    rcases hcases p with hsame | ⟨-, -, hnone, -⟩
    · rw [Disk.isDirectory, hsame]
      exact hp
    · rw [hstat] at hnone
      cases hnone
  refine ⟨d', Gives.lift_bind hparts hgives, ?_, hway, hcases⟩
  intro p c node hp
  rcases hcases (p ++ [c]) with hsame | ⟨-, hfront, -, -⟩
  · rw [hsame] at hp
    exact hdir p (hclosed p c node hp)
  · by_cases hnil : p = []
    · subst hnil
      exact hdir [] hroot
    · exact hway.isDirectory hnil ((List.prefix_append p [c]).trans hfront)

/-! ## Files through staging names -/

/-- The staging name that the counter's value `n` gives. -/
def stagingAt (process : Process) (name : Text) (n : Nat) : Text := stagingName name process.pid (process.ticket n)

theorem gives_drawStagingName (name : Text) :
    Gives process.uid (drawStagingName process name) n d (.ok (stagingAt process name n)) (n + 1) d :=
  Gives.bind gives_draw (gives_pure _)

theorem create_ok {dir : Path} {node : Node} (hfree : d.get (dir ++ [name]) = none)
    (hdir : d.isDirectory dir = true) : d.create dir name node = .ok ((), d.set (dir ++ [name]) node) := by
  simp [Disk.create, hfree, hdir]

theorem create_exist {dir : Path} {node : Node} (htaken : d.get (dir ++ [name]) ≠ none) :
    d.create dir name node = .error .exist := by
  have hsome : (d.get (dir ++ [name])).isSome = true := by
    cases hget : d.get (dir ++ [name]) with
    | none => exact absurd hget htaken
    | some node => rfl
  simp [Disk.create, hsome]

/-- A file written under its free staging name. -/
theorem gives_writeStagingFile {dir : Path} (hdir : d.isDirectory dir = true)
    (hfree : d.get (dir ++ [stagingAt process name n]) = none) :
    ∃ d', Gives process.uid (Root.writeStagingFile process dir name data) n d (.ok (stagingAt process name n))
      (n + 1) d' ∧ ∀ p, d'.get p = if p = dir ++ [stagingAt process name n] then
      some (ownFile process.uid data) else d.get p := by
  have hcreate : exec process.uid (.createFile dir (stagingAt process name n)) d =
      .ok ((), d.set (dir ++ [stagingAt process name n]) (ownFile process.uid [])) := create_ok hfree hdir
  have hheld : (d.set (dir ++ [stagingAt process name n]) (ownFile process.uid [])).get (dir ++
      [stagingAt process name n]) = some (.file ⟨0o600, process.uid⟩ []) := by
    rw [Disk.get_set, if_pos rfl]
  have hwrite : ∀ d₁, exec process.uid (.write (dir ++ [stagingAt process name n]) data) d₁ =
      .ok ((), d₁.write (dir ++ [stagingAt process name n]) data) := fun _ => rfl
  have hsync : ∀ d₁, exec process.uid (.sync (dir ++ [stagingAt process name n])) d₁ = .ok ((), d₁) := fun _ => rfl
  refine ⟨_, Gives.bind (gives_drawStagingName name) (Gives.bind (gives_syscall hcreate) (Gives.bind
    (Gives.attempt (Gives.bind (gives_syscall (hwrite _)) (gives_syscall (hsync _)))) (gives_pure _))),
    fun p => ?_⟩
  rw [Disk.write, hheld]
  simp only [Disk.get_set, List.nil_append]
  split_ifs <;> rfl

theorem gives_writeStagingFile_taken {dir : Path} (htaken : d.get (dir ++ [stagingAt process name n]) ≠ none) :
    Gives process.uid (Root.writeStagingFile process dir name data) n d
      (.error (describe (stagingAt process name n) .exist)) (n + 1) d :=
  Gives.bind (gives_drawStagingName name) (Gives.bind_error (gives_syscall_error (create_exist htaken)))

/-- Where a file is written: its directory is there, private, and its staging name free. -/
structure Spot (process : Process) (relative : Text) (parent : Path) (name : Text) (n : Nat)
    (d : Disk) : Prop where
  split : splitRelative relative = .ok (parent, name)
  closed : Closed d
  proper : parent ≠ []
  way : Way process.uid d parent
  free : d.get (parent ++ [stagingAt process name n]) = none
  plain : d.isDirectory (parent ++ [name]) = false

theorem Spot.parent_isDirectory (h : Spot process relative parent name n d) : d.isDirectory parent = true :=
  h.way.isDirectory h.proper (List.prefix_refl _)

theorem gives_opened {relative : Text} (h : Way process.uid d parent) :
    Gives process.uid (Root.openOrCreateBeneath process relative [] parent) n d (.ok parent) n d :=
  @gives_openOrCreateBeneath_there process n d relative parent [] h

theorem staging_ne (process : Process) (parent : Path) (name : Text) (n : Nat) :
    parent ++ [stagingAt process name n] ≠ parent ++ [name] := by
  intro h
  exact stagingName_ne name process.pid (process.ticket n) (List.cons.inj (List.append_cancel_left h)).1

theorem not_prefix_sibling {dir : Path} {a b : Text} (h : dir ++ [a] ≠ dir ++ [b]) :
    ¬ dir ++ [a] <+: dir ++ [b] := by
  intro hstarts
  exact h (hstarts.eq_of_length (by simp))

/-- The rename that puts a staged file in place. -/
theorem rename_staged {d₁ : Disk} (hclosed : Closed d₁) (hparent : d₁.isDirectory parent = true)
    (hstaged : d₁.get (parent ++ [stagingAt process name n]) = some (ownFile process.uid data))
    (hplain : d₁.isDirectory (parent ++ [name]) = false) :
    d₁.rename (parent ++ [stagingAt process name n]) (parent ++ [name]) =
        .ok ((), d₁.move (parent ++ [stagingAt process name n]) (parent ++ [name])) ∧
      ∀ p, (d₁.move (parent ++ [stagingAt process name n]) (parent ++ [name])).get p =
        if p = parent ++ [name] then some (ownFile process.uid data)
        else if p = parent ++ [stagingAt process name n] then none else d₁.get p := by
  have hne := staging_ne process parent name n
  have hsource := not_prefix_sibling hne
  have htarget := not_prefix_sibling hne.symm
  have hreplaces : replaces (ownFile process.uid data) (d₁.get (parent ++ [name]))
      (d₁.childless (parent ++ [name])) = .ok () := by
    unfold Disk.isDirectory at hplain
    cases hget : d₁.get (parent ++ [name]) with
    | none => rfl
    | some node =>
      rw [hget] at hplain
      cases node with
      | directory stat => cases hplain
      | file stat other => rfl
      | symlink => rfl
      | special stat => rfl
  refine ⟨?_, fun p => ?_⟩
  · rw [Disk.rename, hstaged]
    simp only [hne, if_false, List.isPrefixOf_iff_prefix, hsource, htarget, List.dropLast_concat, hparent,
      Bool.not_true, Bool.false_eq_true, hreplaces]
  · have hfile : d₁.isDirectory (parent ++ [stagingAt process name n]) = false := by
      rw [Disk.isDirectory, hstaged]
    rw [get_move_file hclosed hsource htarget hfile hplain, hstaged]

/-- A disk with one more file, in a directory, where no directory was. -/
theorem closed_of_file {d d' : Disk} {path : Path} (hclosed : Closed d)
    (hparent : d.isDirectory path.dropLast = true)
    (hplain : d.isDirectory path = false) (hget : ∀ p,
      d'.get p = if p = path then some (ownFile process.uid data) else d.get p) :
    Closed d' := by
  have hdir : ∀ p, d.isDirectory p = true → d'.isDirectory p = true := by
    intro p hp
    have hne : p ≠ path := by
      rintro rfl
      rw [hplain] at hp
      cases hp
    rw [Disk.isDirectory, hget, if_neg hne]
    exact hp
  intro p c node hp
  rw [hget] at hp
  split_ifs at hp with hpath
  · refine hdir p ?_
    rw [← hpath, List.dropLast_concat] at hparent
    exact hparent
  · exact hdir p (hclosed p c node hp)

/-- The file staged, and the rename that follows. -/
theorem Spot.staged (h : Spot process relative parent name n d) :
    ∃ d₁ d', Gives process.uid (Root.writeStagingFile process parent name data) n d
      (.ok (stagingAt process name n)) (n + 1) d₁ ∧ d₁.get (parent ++ [name]) = d.get (parent ++ [name]) ∧
      d₁.rename (parent ++ [stagingAt process name n]) (parent ++ [name]) = .ok ((), d') ∧ Closed d' ∧
      ∀ p, d'.get p = if p = parent ++ [name] then some (ownFile process.uid data) else d.get p := by
  have hparent := h.parent_isDirectory
  obtain ⟨d₁, hstaged, hget₁⟩ := @gives_writeStagingFile process n d name data parent hparent h.free
  have hne := staging_ne process parent name n
  have hshort : ∀ c, parent ++ [c] ≠ parent := fun c heq => by simpa using congrArg List.length heq
  have hparent₁ : d₁.isDirectory parent = true := by
    rw [Disk.isDirectory, hget₁, if_neg (hshort _).symm]
    exact hparent
  have hnone : d.isDirectory (parent ++ [stagingAt process name n]) = false := by
    rw [Disk.isDirectory, h.free]
  have hclosed₁ : Closed d₁ := closed_of_file h.closed (by rwa [List.dropLast_concat]) hnone hget₁
  have hplain₁ : d₁.isDirectory (parent ++ [name]) = false := by
    rw [Disk.isDirectory, hget₁, if_neg hne.symm]
    exact h.plain
  obtain ⟨hrename, hget⟩ := rename_staged hclosed₁ hparent₁ (by rw [hget₁, if_pos rfl]) hplain₁
  have hget' : ∀ p, (d₁.move (parent ++ [stagingAt process name n]) (parent ++ [name])).get p =
      if p = parent ++ [name] then some (ownFile process.uid data) else d.get p := by
    intro p
    rw [hget, hget₁]
    by_cases hp : p = parent ++ [stagingAt process name n]
    · subst hp
      simp [h.free]
    · simp [hp]
  refine ⟨d₁, _, hstaged, ?_, hrename, closed_of_file h.closed (by rwa [List.dropLast_concat]) h.plain hget',
    hget'⟩
  rw [hget₁, if_neg hne.symm]

theorem gives_writeFileAtomic (h : Spot process relative parent name n d) :
    ∃ d', Gives process.uid (Root.writeFileAtomic process ⟨[]⟩ relative data) n d (.ok ()) (n + 1) d' ∧ Closed d' ∧
      ∀ p, d'.get p = if p = parent ++ [name] then some (ownFile process.uid data) else d.get p := by
  obtain ⟨d₁, d', hstaged, -, hrename, hclosed, hget⟩ := @Spot.staged process n d relative name parent data h
  refine ⟨d', ?_, hclosed, hget⟩
  refine Gives.lift_bind h.split (Gives.bind (gives_opened h.way) (Gives.bind hstaged ?_))
  exact Gives.bind (gives_kernel (perform_ok hrename)) (gives_pure ())

/-- A staging name that is taken. -/
theorem gives_writeFileAtomic_taken (hsplit : splitRelative relative = .ok (parent, name))
    (hway : Way process.uid d parent) (htaken : d.get (parent ++ [stagingAt process name n]) ≠ none) :
    Gives process.uid (Root.writeFileAtomic process ⟨[]⟩ relative data) n d
      (.error (describe (stagingAt process name n) .exist)) (n + 1) d :=
  Gives.lift_bind hsplit (Gives.bind (gives_opened hway) (Gives.bind_error (gives_writeStagingFile_taken htaken)))

/-- A file is published where there is none. -/
theorem gives_publishExclusive (h : Spot process relative parent name n d)
    (hnone : d.get (parent ++ [name]) = none) : ∃ d',
    Gives process.uid (Root.publishExclusive process ⟨[]⟩ relative data) n d (.ok true) (n + 1) d' ∧ Closed d' ∧
      ∀ p, d'.get p = if p = parent ++ [name] then some (ownFile process.uid data) else d.get p := by
  obtain ⟨d₁, d', hstaged, hsame, hrename, hclosed, hget⟩ := @Spot.staged process n d relative name parent data h
  have hexec : exec process.uid (.renameNoreplace (parent ++ [stagingAt process name n]) (parent ++ [name])) d₁ =
      .ok ((), d') := by
    simp only [exec, hsame, hnone, Option.isSome_none, Bool.false_eq_true, if_false]
    exact hrename
  refine ⟨d', ?_, hclosed, hget⟩
  refine Gives.lift_bind h.split (Gives.bind (gives_opened h.way) (Gives.bind hstaged ?_))
  exact Gives.bind (gives_kernel (perform_ok hexec)) (gives_pure true)

/-- A file that is there already is left, and the staged one removed. -/
theorem gives_publishExclusive_exists (h : Spot process relative parent name n d)
    (hthere : d.get (parent ++ [name]) ≠ none) : ∃ d',
    Gives process.uid (Root.publishExclusive process ⟨[]⟩ relative data) n d (.ok false) (n + 1) d' ∧
      ∀ p, d'.get p = d.get p := by
  obtain ⟨d₁, hstaged, hget₁⟩ := @gives_writeStagingFile process n d name data parent h.parent_isDirectory h.free
  have hne := staging_ne process parent name n
  have hsome : (d₁.get (parent ++ [name])).isSome = true := by
    rw [hget₁, if_neg hne.symm]
    cases hget : d.get (parent ++ [name]) with
    | none => exact absurd hget hthere
    | some node => rfl
  have hexec : exec process.uid (.renameNoreplace (parent ++ [stagingAt process name n]) (parent ++ [name])) d₁ =
      .error .exist := by
    simp only [exec, hsome, if_true]
  have hunlink : exec process.uid (.unlink parent (stagingAt process name n)) d₁ =
      .ok ((), d₁.erase (parent ++ [stagingAt process name n])) := by
    simp only [exec, hget₁, if_true]
  have hdiscard : Gives process.uid (Root.discard parent (stagingAt process name n)) (n + 1) d₁ (.ok ()) (n + 1)
      (d₁.erase (parent ++ [stagingAt process name n])) :=
        Gives.bind (gives_kernel (perform_ok hunlink)) (gives_pure ())
  refine ⟨d₁.erase (parent ++ [stagingAt process name n]), ?_, fun p => ?_⟩
  · refine Gives.lift_bind h.split (Gives.bind (gives_opened h.way) (Gives.bind hstaged ?_))
    exact Gives.bind (gives_kernel (perform_error hexec)) (Gives.bind hdiscard (gives_pure false))
  · rw [Disk.get_erase, hget₁]
    by_cases hp : p = parent ++ [stagingAt process name n]
    · subst hp
      simp [h.free]
    · simp [hp]

theorem gives_publishExclusive_taken (hsplit : splitRelative relative = .ok (parent, name))
    (hway : Way process.uid d parent) (htaken : d.get (parent ++ [stagingAt process name n]) ≠ none) :
    Gives process.uid (Root.publishExclusive process ⟨[]⟩ relative data) n d
      (.error (describe (stagingAt process name n) .exist)) (n + 1) d :=
  Gives.lift_bind hsplit (Gives.bind (gives_opened hway) (Gives.bind_error (gives_writeStagingFile_taken htaken)))

end Writing

end SimFerret.Store
