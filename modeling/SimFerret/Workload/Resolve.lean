import SimFerret.Workload.Symlink

/-!
# SimFerret.Workload.Resolve — what an accepted symbolic link resolves to

The walk of `resolve_symlink` splices the target of every link it meets into the list that it is walking.  Here
it is set against a resolution that never looks behind the target of a link before that target is resolved.

* `Walk`, `walkStep`, `runWalk`: the loop of the source, with its index, its splices and its counter.
* `runWalk_resolveLoop`: the loop ends, with what `resolveLoop` computes.
* `Resolves`: resolution by recursion on what a path means, with the number of links it expands.
* `validateSymlinks_exact`: **validation ends, and accepts exactly the trees whose links resolve**.
-/

namespace SimFerret.Workload

/-! ## The loop of the source -/

/-- The variables of the loop. -/
structure Walk where
  components : List Bytes
  index : Nat := 0
  resolved : List Bytes := []
  hops : Nat := 0

/-- The path of a component below the components resolved so far. -/
def candidate (resolved : List Bytes) (part : Bytes) : Bytes :=
  let parent := [slash].intercalate resolved
  (if parent = [] then [] else parent ++ [slash]) ++ part

/-- `for piece in expansion.into_iter().rev() { components.insert(index, piece) }`. -/
def splice (components : List Bytes) (index : Nat) (expansion : List Bytes) : List Bytes :=
  expansion.reverse.foldl (fun components piece => components.insertIdx index piece) components

/-- One round of the loop; nothing is left to do behind the last component. -/
def walkStep (tree : Tree) (walk : Walk) : IoResult (Option Walk) :=
  match walk.components[walk.index]? with
  | none => .ok none
  | some part =>
    let walk := { walk with index := walk.index + 1 }
    if part = utf8 ".." then
      match walk.resolved with
      | [] => .error (invalid "a symbolic link target escapes the workload root")
      | _ => .ok (some { walk with resolved := walk.resolved.dropLast })
    else
      match (tree.get (candidate walk.resolved part)).filter (·.kind == .symlink) with
      | some entry =>
        if walk.hops + 1 > maxSymlinkHops then
          .error (invalid "a symbolic link chain exceeds the hop limit")
        else do
          validateSymlinkSyntax entry.linkTarget
          .ok (some { walk with
            components := splice walk.components walk.index (walkParts entry.linkTarget), hops := walk.hops + 1 })
      | none => .ok (some { walk with resolved := walk.resolved ++ [part] })

/-- The loop with a bound on its rounds. -/
def runWalk (tree : Tree) : Nat → Walk → Option (IoResult Unit)
  | 0, _ => none
  | rounds + 1, walk =>
    match walkStep tree walk with
    | .error e => some (.error e)
    | .ok none => some (.ok ())
    | .ok (some walk) => runWalk tree rounds walk

/-- `resolve_symlink` with a bound on the rounds of its loop. -/
def resolveSymlinkWithin (tree : Tree) (rounds : Nat) (linkPath target : Bytes) : Option (IoResult Unit) :=
  match validateSymlinkSyntax target with
  | .error e => some (.error e)
  | .ok _ => runWalk tree rounds { components := walkParts ((parentOf linkPath).getD []) ++ walkParts target }

/-- `validate_symlinks` with a bound on the rounds of each loop. -/
def validateSymlinksWithin (tree : Tree) (rounds : Nat) : List (Bytes × Entry) → Option (IoResult Unit)
  | [] => some (.ok ())
  | (path, entry) :: rest =>
    if entry.kind ≠ .symlink then validateSymlinksWithin tree rounds rest
    else
      match resolveSymlinkWithin tree rounds path entry.linkTarget with
      | none => none
      | some (.error e) => some (.error e)
      | some (.ok _) => validateSymlinksWithin tree rounds rest

/-! ## Resolution -/

/-- A target that a link may have. -/
def ValidTarget (target : Bytes) : Prop :=
  target ≠ [] ∧ 0 ∉ target ∧ target.head? ≠ some slash ∧ target.length ≤ maxSymlinkTargetBytes

/-- The target of the link at a component of a directory, if there is a link. -/
def linkAt (tree : Tree) (dir : List Bytes) (part : Bytes) : Option Bytes :=
  ((tree.get (candidate dir part)).filter (·.kind == .symlink)).map Entry.linkTarget

/-- `Resolves tree dir parts dir' k`: from the directory `dir` the parts lead to `dir'`, and `k` links are
expanded. A link leads to where its target leads from the link's directory, and the parts behind it go on from
there. -/
inductive Resolves (tree : Tree) : List Bytes → List Bytes → List Bytes → Nat → Prop
  | here (dir : List Bytes) : Resolves tree dir [] dir 0
  | up {dir rest dir' : List Bytes} {k : Nat} (hroot : dir ≠ []) (h : Resolves tree dir.dropLast rest dir' k) :
      Resolves tree dir (utf8 ".." :: rest) dir' k
  | down {dir rest dir' : List Bytes} {part : Bytes} {k : Nat} (hpart : part ≠ utf8 "..")
      (hlink : linkAt tree dir part = none) (h : Resolves tree (dir ++ [part]) rest dir' k) :
      Resolves tree dir (part :: rest) dir' k
  | link {dir mid rest dir' : List Bytes} {part target : Bytes} {j k : Nat} (hpart : part ≠ utf8 "..")
      (hlink : linkAt tree dir part = some target) (hvalid : ValidTarget target)
      (htarget : Resolves tree dir (walkParts target) mid j) (h : Resolves tree mid rest dir' k) :
      Resolves tree dir (part :: rest) dir' (j + 1 + k)

/-- The link at a path resolves within the hop limit: its directory first, and its target from there. -/
def LinkResolves (tree : Tree) (linkPath target : Bytes) : Prop :=
  ValidTarget target ∧ ∃ dir dir' j k, Resolves tree [] (walkParts ((parentOf linkPath).getD [])) dir j ∧
    Resolves tree dir (walkParts target) dir' k ∧ j + k ≤ maxSymlinkHops

/-- Parts resolve one behind the other. -/
theorem resolves_append {tree : Tree} {parts more dir dir' : List Bytes} {k : Nat} :
    Resolves tree dir (parts ++ more) dir' k ↔
      ∃ mid i j, Resolves tree dir parts mid i ∧ Resolves tree mid more dir' j ∧ k = i + j := by
  constructor
  · intro h
    induction parts generalizing dir k with
    | nil => exact ⟨dir, 0, k, .here dir, h, (Nat.zero_add k).symm⟩
    | cons part rest ih =>
      cases h with
      | up hroot h =>
        obtain ⟨mid, i, j, hrest, hmore, rfl⟩ := ih h
        exact ⟨mid, i, j, .up hroot hrest, hmore, rfl⟩
      | down hpart hlink h =>
        obtain ⟨mid, i, j, hrest, hmore, rfl⟩ := ih h
        exact ⟨mid, i, j, .down hpart hlink hrest, hmore, rfl⟩
      | link hpart hlink hvalid htarget h =>
        obtain ⟨mid, i, j, hrest, hmore, rfl⟩ := ih h
        exact ⟨mid, _, j, .link hpart hlink hvalid htarget hrest, hmore, by omega⟩
  · rintro ⟨mid, i, j, hparts, hmore, rfl⟩
    induction hparts with
    | here dir => rwa [Nat.zero_add]
    | up hroot _ ih => exact .up hroot (ih hmore)
    | down hpart hlink _ ih => exact .down hpart hlink (ih hmore)
    | link hpart hlink hvalid htarget _ _ ih =>
      rw [Nat.add_assoc]
      exact .link hpart hlink hvalid htarget (ih hmore)

theorem validateSymlinkSyntax_eq_ok {target : Bytes} : validateSymlinkSyntax target = .ok () ↔
    ValidTarget target := by
  refine ⟨validateSymlinkSyntax_ok, fun ⟨hne, hnul, hrelative, hlength⟩ => ?_⟩
  unfold validateSymlinkSyntax
  rw [if_neg (by simp [hne, hnul]), if_neg (by omega), if_neg hrelative]

section

variable {tree : Tree}

/-- The walk of the model looks a component up like the loop. -/
theorem walkComponents_cons (onLink : Bytes → List Bytes → List Bytes → IoResult Unit) (part : Bytes)
    (rest resolved : List Bytes) : walkComponents tree onLink (part :: rest) resolved =
      if part = utf8 ".." then
        match resolved with
        | [] => .error (invalid "a symbolic link target escapes the workload root")
        | _ => walkComponents tree onLink rest resolved.dropLast
      else
        match linkAt tree resolved part with
        | some target => onLink target rest resolved
        | none => walkComponents tree onLink rest (resolved ++ [part]) := by
  by_cases hup : part = utf8 ".."
  · rw [walkComponents.eq_def]
    cases resolved <;> simp only [if_pos hup]
  · have hread : walkComponents tree onLink (part :: rest) resolved = match tree.get (candidate resolved part) with
        | some entry => if entry.kind = .symlink then onLink entry.linkTarget rest resolved
          else walkComponents tree onLink rest (resolved ++ [part])
        | none => walkComponents tree onLink rest (resolved ++ [part]) := by
      rw [walkComponents.eq_def]
      simp only [if_neg hup]
      rfl
    rw [hread, if_neg hup]
    cases hentry : tree.get (candidate resolved part) with
    | none =>
      have hnone : linkAt tree resolved part = none := by simp [linkAt, hentry]
      rw [hnone]
    | some entry =>
      by_cases hkind : entry.kind = .symlink
      · have hsome : linkAt tree resolved part = some entry.linkTarget := by simp [linkAt, hentry, hkind]
        rw [hsome]
        exact if_pos hkind
      · have hnone : linkAt tree resolved part = none := by simp [linkAt, hentry, hkind]
        rw [hnone]
        exact if_neg hkind

/-- A walk is accepted where the parts resolve within the hops that its continuation leaves. -/
theorem walkComponents_ok_iff {onLink : Bytes → List Bytes → List Bytes → IoResult Unit} {hops : Nat}
    (hlink : ∀ target rest dir, onLink target rest dir = .ok () ↔
      ValidTarget target ∧ ∃ dir' k, Resolves tree dir (walkParts target ++ rest) dir' k ∧ k + 1 ≤ hops) :
    ∀ {parts dir : List Bytes}, walkComponents tree onLink parts dir = .ok () ↔
      ∃ dir' k, Resolves tree dir parts dir' k ∧ k ≤ hops := by
  intro parts
  induction parts with
  | nil => exact fun {dir} => iff_of_true rfl ⟨dir, 0, .here dir, Nat.zero_le hops⟩
  | cons part rest ih =>
    intro dir
    rw [walkComponents_cons]
    by_cases hup : part = utf8 ".."
    · rw [if_pos hup]
      subst hup
      cases dir with
      | nil =>
        refine iff_of_false (by simp) ?_
        rintro ⟨dir', k, h, -⟩
        cases h with
        | up hroot _ => exact hroot rfl
        | down hpart _ _ => exact hpart rfl
        | link hpart _ _ _ _ => exact hpart rfl
      | cons a l =>
        show walkComponents tree onLink rest (a :: l).dropLast = .ok () ↔ _
        rw [ih]
        refine exists₂_congr fun dir' k => and_congr_left fun _ => ⟨.up (by simp), fun h => ?_⟩
        cases h with
        | up _ h => exact h
        | down hpart _ _ => exact absurd rfl hpart
        | link hpart _ _ _ _ => exact absurd rfl hpart
    · rw [if_neg hup]
      cases hfound : linkAt tree dir part with
      | none =>
        show walkComponents tree onLink rest (dir ++ [part]) = .ok () ↔ _
        rw [ih]
        refine exists₂_congr fun dir' k => and_congr_left fun _ => ⟨.down hup hfound, fun h => ?_⟩
        cases h with
        | up _ _ => exact absurd rfl hup
        | down _ _ h => exact h
        | link _ hfound' _ _ _ => rw [hfound] at hfound'; cases hfound'
      | some target =>
        show onLink target rest dir = .ok () ↔ _
        rw [hlink]
        constructor
        · rintro ⟨hvalid, dir', k, h, hk⟩
          obtain ⟨mid, i, j, htarget, hrest, rfl⟩ := resolves_append.mp h
          exact ⟨dir', _, .link hup hfound hvalid htarget hrest, by omega⟩
        · rintro ⟨dir', k, h, hk⟩
          cases h with
          | up _ _ => exact absurd rfl hup
          | down _ hfound' _ => rw [hfound] at hfound'; cases hfound'
          | link _ hfound' hvalid htarget hrest =>
            rw [hfound] at hfound'
            cases hfound'
            exact ⟨hvalid, dir', _, resolves_append.mpr ⟨_, _, _, htarget, hrest, rfl⟩, by omega⟩

/-- The loop accepts what resolves with the hops it has left. -/
theorem resolveLoop_ok_iff {hops : Nat} : ∀ {parts dir : List Bytes}, resolveLoop tree hops parts dir = .ok () ↔
    ∃ dir' k, Resolves tree dir parts dir' k ∧ k ≤ hops := by
  induction hops with
  | zero => exact walkComponents_ok_iff fun target rest dir => iff_of_false (by simp) (by simp)
  | succ hops ih =>
    refine walkComponents_ok_iff fun target rest dir => ?_
    rw [bind_eq_ok, ← validateSymlinkSyntax_eq_ok]
    simp only [ih, Nat.succ_le_succ_iff]
    exact ⟨fun ⟨(), hvalid, h⟩ => ⟨hvalid, h⟩, fun ⟨hvalid, h⟩ => ⟨(), hvalid, h⟩⟩

/-! ## The end of the loop -/

theorem insertIdx_append_length {α : Type} (done rest : List α) (a : α) :
    (done ++ rest).insertIdx done.length a = done ++ a :: rest := by
  induction done with
  | nil => exact List.insertIdx_zero
  | cons b done ih => rw [List.cons_append, List.length_cons, List.insertIdx_succ_cons, ih, List.cons_append]

/-- The pieces stand in front of what follows the index. -/
theorem splice_append (done rest expansion : List Bytes) :
    splice (done ++ rest) done.length expansion = done ++ (expansion ++ rest) := by
  unfold splice
  induction expansion generalizing rest with
  | nil => rfl
  | cons piece expansion ih =>
    rw [List.reverse_cons, List.foldl_append, ih, List.foldl_cons, List.foldl_nil]
    exact insertIdx_append_length done (expansion ++ rest) piece

/-- A round of the loop over what lies behind the index. -/
theorem walkStep_cons (done rest resolved : List Bytes) (part : Bytes) (hops : Nat) :
    walkStep tree ⟨done ++ part :: rest, done.length, resolved, hops⟩ =
      if part = utf8 ".." then
        match resolved with
        | [] => .error (invalid "a symbolic link target escapes the workload root")
        | _ => .ok (some ⟨done ++ part :: rest, done.length + 1, resolved.dropLast, hops⟩)
      else
        match linkAt tree resolved part with
        | some target =>
          if hops + 1 > maxSymlinkHops then .error (invalid "a symbolic link chain exceeds the hop limit")
          else do
            validateSymlinkSyntax target
            .ok (some ⟨done ++ part :: (walkParts target ++ rest), done.length + 1, resolved, hops + 1⟩)
        | none => .ok (some ⟨done ++ part :: rest, done.length + 1, resolved ++ [part], hops⟩) := by
  have hpart : (done ++ part :: rest)[done.length]? = some part := by simp
  have hsplice : ∀ expansion, splice (done ++ part :: rest) (done.length + 1) expansion =
      done ++ part :: (expansion ++ rest) := by
    intro expansion
    have hshift := splice_append (done ++ [part]) rest expansion
    rwa [List.append_assoc, List.singleton_append, List.length_append, List.length_singleton, List.append_assoc,
      List.singleton_append] at hshift
  unfold walkStep
  simp only [hpart]
  by_cases hup : part = utf8 ".."
  · simp only [if_pos hup]
  · simp only [if_neg hup]
    unfold linkAt
    cases (tree.get (candidate resolved part)).filter (·.kind == .symlink) with
    | none => rfl
    | some entry => simp only [Option.map_some, hsplice]

/-- What follows a round. -/
def runOn (tree : Tree) (rounds : Nat) : IoResult (Option Walk) → Option (IoResult Unit)
  | .error e => some (.error e)
  | .ok none => some (.ok ())
  | .ok (some walk) => runWalk tree rounds walk

theorem runWalk_succ (rounds : Nat) (walk : Walk) :
    runWalk tree (rounds + 1) walk = runOn tree rounds (walkStep tree walk) := by
  rw [runWalk]
  rcases walkStep tree walk with e | _ | walk <;> rfl

/-- The loop follows the walk of the model as far as the next link. -/
theorem runWalk_walkComponents {onLink : Bytes → List Bytes → List Bytes → IoResult Unit} {hops : Nat}
    (hlink : ∀ target rest resolved done part, ∃ rounds, ∀ more, runOn tree (rounds + more)
      (if hops + 1 > maxSymlinkHops then .error (invalid "a symbolic link chain exceeds the hop limit")
        else do
          validateSymlinkSyntax target
          .ok (some ⟨done ++ part :: (walkParts target ++ rest), done.length + 1, resolved, hops + 1⟩)) =
        some (onLink target rest resolved)) :
    ∀ {parts resolved done : List Bytes}, ∃ rounds, ∀ more,
      runWalk tree (rounds + more) ⟨done ++ parts, done.length, resolved, hops⟩ =
        some (walkComponents tree onLink parts resolved) := by
  intro parts
  induction parts with
  | nil =>
    refine fun {resolved done} => ⟨1, fun more => ?_⟩
    rw [Nat.add_comm, runWalk_succ]
    simp [walkStep, runOn, walkComponents]
  | cons part rest ih =>
    intro resolved done
    -- the next round reads the rest behind one more component
    have hshift : ∀ resolved', ∃ rounds, ∀ more,
        runWalk tree (rounds + more) ⟨done ++ part :: rest, done.length + 1, resolved', hops⟩ =
          some (walkComponents tree onLink rest resolved') := by
      intro resolved'
      obtain ⟨rounds, hrun⟩ := @ih resolved' (done ++ [part])
      simp only [List.append_assoc, List.singleton_append, List.length_append, List.length_singleton] at hrun
      exact ⟨rounds, hrun⟩
    have hround : ∀ {result : IoResult Unit} {next : IoResult (Option Walk)},
        walkStep tree ⟨done ++ part :: rest, done.length, resolved, hops⟩ = next →
        (∃ rounds, ∀ more, runOn tree (rounds + more) next = some result) →
        ∃ rounds, ∀ more, runWalk tree (rounds + more) ⟨done ++ part :: rest, done.length, resolved, hops⟩ =
          some result := by
      rintro result next rfl ⟨rounds, hrun⟩
      refine ⟨rounds + 1, fun more => ?_⟩
      rw [Nat.add_right_comm, runWalk_succ]
      exact hrun more
    have hstep := @walkStep_cons tree done rest resolved part hops
    rw [walkComponents_cons]
    by_cases hup : part = utf8 ".."
    · rw [if_pos hup] at hstep ⊢
      cases resolved with
      | nil => exact hround hstep ⟨0, fun more => rfl⟩
      | cons a l => exact hround hstep (hshift _)
    · rw [if_neg hup] at hstep ⊢
      cases hfound : linkAt tree resolved part with
      | none =>
        rw [hfound] at hstep
        exact hround hstep (hshift _)
      | some target =>
        rw [hfound] at hstep
        exact hround hstep (hlink target rest resolved done part)

/-- **The loop ends** with what the walk of the model computes. -/
theorem runWalk_resolveLoop {hops : Nat} : hops ≤ maxSymlinkHops → ∀ {parts resolved done : List Bytes},
    ∃ rounds, ∀ more, runWalk tree (rounds + more) ⟨done ++ parts, done.length, resolved, maxSymlinkHops - hops⟩ =
      some (resolveLoop tree hops parts resolved) := by
  induction hops with
  | zero =>
    refine fun _ => runWalk_walkComponents fun target rest resolved done part => ⟨0, fun more => ?_⟩
    rw [if_pos (by omega)]
    rfl
  | succ hops ih =>
    refine fun hhops => runWalk_walkComponents fun target rest resolved done part => ?_
    rw [if_neg (by omega)]
    cases validateSymlinkSyntax target with
    | error e => exact ⟨0, fun more => rfl⟩
    | ok _ =>
      obtain ⟨rounds, hrun⟩ := @ih (by omega) (walkParts target ++ rest) resolved (done ++ [part])
      refine ⟨rounds, fun more => ?_⟩
      have hcount : maxSymlinkHops - (hops + 1) + 1 = maxSymlinkHops - hops := by omega
      simp only [List.append_assoc, List.singleton_append, List.length_append, List.length_singleton] at hrun
      rw [hcount]
      exact hrun more

theorem resolveSymlinkWithin_eq (tree : Tree) (linkPath target : Bytes) : ∃ rounds, ∀ more,
    resolveSymlinkWithin tree (rounds + more) linkPath target = some (resolveSymlink tree linkPath target) := by
  unfold resolveSymlinkWithin resolveSymlink
  cases validateSymlinkSyntax target with
  | error e => exact ⟨0, fun more => rfl⟩
  | ok _ => exact @runWalk_resolveLoop tree maxSymlinkHops le_rfl _ [] []

/-- `validate_symlinks` ends, whatever the tree. -/
theorem validateSymlinksWithin_eq (tree : Tree) : ∀ entries : List (Bytes × Entry), ∃ rounds, ∀ more,
    validateSymlinksWithin tree (rounds + more) entries = some (entries.forM fun (path, entry) =>
      if entry.kind = .symlink then resolveSymlink tree path entry.linkTarget else pure ())
  | [] => ⟨0, fun _ => rfl⟩
  | (path, entry) :: rest => by
    obtain ⟨rounds, hrest⟩ := validateSymlinksWithin_eq tree rest
    obtain ⟨rounds', hlink⟩ := resolveSymlinkWithin_eq tree path entry.linkTarget
    refine ⟨rounds + rounds', fun more => ?_⟩
    rw [validateSymlinksWithin, show ∀ f : Bytes × Entry → IoResult Unit, ((path, entry) :: rest).forM f =
      (f (path, entry) >>= fun _ => rest.forM f) from fun _ => rfl]
    by_cases hkind : entry.kind = .symlink
    · have hthis : resolveSymlinkWithin tree (rounds + rounds' + more) path entry.linkTarget =
          some (resolveSymlink tree path entry.linkTarget) := by
        rw [Nat.add_comm rounds, Nat.add_assoc]
        exact hlink _
      rw [if_neg (not_not.mpr hkind), hthis]
      simp only [if_pos hkind]
      cases resolveSymlink tree path entry.linkTarget with
      | error e => rfl
      | ok _ =>
        rw [Nat.add_assoc]
        exact hrest _
    · rw [if_pos hkind, Nat.add_assoc]
      simp only [if_neg hkind]
      exact hrest _

theorem resolveSymlink_ok_iff {linkPath target : Bytes} :
    resolveSymlink tree linkPath target = .ok () ↔ LinkResolves tree linkPath target := by
  unfold resolveSymlink LinkResolves
  rw [bind_eq_ok, ← validateSymlinkSyntax_eq_ok]
  simp only [resolveLoop_ok_iff, resolves_append]
  constructor
  · rintro ⟨⟨⟩, hvalid, dir', _, ⟨dir, j, k, hparent, htarget, rfl⟩, hhops⟩
    exact ⟨hvalid, dir, dir', j, k, hparent, htarget, hhops⟩
  · rintro ⟨hvalid, dir, dir', j, k, hparent, htarget, hhops⟩
    exact ⟨(), hvalid, dir', _, ⟨dir, j, k, hparent, htarget, rfl⟩, hhops⟩

/-- **Symbolic link validation is total and exact**: whatever the tree, its loops end with the answer of
`validateSymlinks`, and that is acceptance if and only if every link of the tree resolves. -/
theorem validateSymlinks_exact (tree : Tree) :
    (∃ rounds, ∀ more, validateSymlinksWithin tree (rounds + more) tree.iter = some (validateSymlinks tree)) ∧
    (validateSymlinks tree = .ok () ↔ ∀ path entry, tree.get path = some entry → entry.kind = .symlink →
      LinkResolves tree path entry.linkTarget) := by
  refine ⟨validateSymlinksWithin_eq tree tree.iter, ?_⟩
  unfold validateSymlinks
  rw [forM_eq_ok]
  constructor
  · intro hall path entry hget hkind
    have hlink := hall (path, entry) (Std.ExtTreeMap.mem_toList_iff_getElem?_eq_some.mpr hget)
    exact resolveSymlink_ok_iff.mp ((if_pos hkind).symm.trans hlink)
  · rintro hall ⟨path, entry⟩ hmem
    have hget := Std.ExtTreeMap.mem_toList_iff_getElem?_eq_some.mp hmem
    by_cases hkind : entry.kind = .symlink
    · exact (if_pos hkind).trans (resolveSymlink_ok_iff.mpr (hall path entry hget hkind))
    · exact if_neg hkind

/-- The link that a count of the `..` components would let through. -/
example : (validateSymlinks ((Tree.new.insert "a" (Entry.symlink "." 0 0 0)).insert "b"
    (Entry.symlink "a/../outside" 0 0 0))).isOk = false := by decide +kernel

end

end SimFerret.Workload
