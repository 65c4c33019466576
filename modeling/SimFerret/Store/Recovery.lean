import SimFerret.Store.Retry

/-!
# SimFerret.Store.Recovery — publishing again after any number of crashes

Publications of one graph can stop behind any of their file operations.  What they leave stands under staging
names, or is complete under its own name, so a later run finds it or makes it again.

* `written`: the digests of the raw objects that a run still has to write.
* `gives_writeObjects`: every raw object is found or written; the counter's next value goes into each staging name.
* `Ready`: the store is the user's, and no staging name that the run draws is taken.
* `publish_retried`: **on what crashed and concurrent runs left, a run succeeds exactly if it is ready**.
-/

namespace SimFerret.Store

open Workload

/-! ## The raw objects -/

/-- The digests of the objects that `writeObject` does not find, each once, in their order. -/
def written (crates : Crates) : (Text → Bool) → List Bytes → List Text
  | _, [] => []
  | found, data :: rest =>
    if found (crates.digest data) then written crates found rest
    else crates.digest data :: written crates (fun digest => digest == crates.digest data || found digest) rest

section Objects

variable {crates : Crates} {process : Process} {n : Nat} {d : Disk} {data : Bytes}

/-- What the loop finds: the directory of the objects, and under each digest nothing or the object. -/
structure Shelf (crates : Crates) (process : Process) (objects : List Bytes) (found : Text → Bool)
    (d : Disk) : Prop where
  closed : Closed d
  way : Way process.uid d objectsDirectory
  held : ∀ data ∈ objects, d.get (objectAt (crates.digest data)) =
    if found (crates.digest data) then some (ownFile process.uid data) else none

/-- An object that is in the store. -/
theorem gives_writeObject_there (hclosed : Closed d)
    (hget : d.get (objectAt (crates.digest data)) = some (ownFile process.uid data)) :
    Gives process.uid (writeObject crates process ⟨[]⟩ data) n d (.ok ()) n d := by
  have hsplit := splitRelative_objectPath (component_digest crates data)
  refine Gives.bind (gives_readFileIfExists hsplit hclosed hget le_rfl) (Gives.require_bind (by simp) ?_)
  exact gives_requirePrivateFile hsplit hclosed hget rfl (by decide : (0o600 : Nat) &&& 0o077 = 0)

theorem gives_openObject_none (hway : Way process.uid d objectsDirectory)
    (hnone : d.get (objectAt (crates.digest data)) = none) :
    Gives process.uid (Root.readFileIfExists ⟨[]⟩ (objectPath (crates.digest data)) data.length) n d
        (.ok none) n d := by
  have hfronts : ∀ front, front ≠ [] → front <+: objectsDirectory → d.isDirectory front = true ∨
      d.get front = none :=
    fun front hne hfront => .inl (hway.isDirectory hne hfront)
  exact Gives.bind (gives_openRegular_none (splitRelative_objectPath (component_digest crates data)) hfronts hnone)
    (gives_pure none)

/-- An object that is written. -/
theorem gives_writeObject (hclosed : Closed d) (hway : Way process.uid d objectsDirectory)
    (hnone : d.get (objectAt (crates.digest data)) = none)
    (hfree : d.get (objectsDirectory ++ [stagingAt process (crates.digest data) n]) = none) :
    ∃ d', Gives process.uid (writeObject crates process ⟨[]⟩ data) n d (.ok ()) (n + 1) d' ∧ Closed d' ∧
      ∀ p, d'.get p = if p = objectAt (crates.digest data) then some (ownFile process.uid data) else d.get p := by
  have hplain : d.isDirectory (objectsDirectory ++ [crates.digest data]) = false := by
    rw [Disk.isDirectory, show d.get (objectsDirectory ++ [crates.digest data]) = none from hnone]
  obtain ⟨d', hgives, hclosed', hget⟩ := @gives_writeFileAtomic process n d _ _ objectsDirectory data
    ⟨splitRelative_objectPath (component_digest crates data), hclosed, by decide, hway, hfree, hplain⟩
  exact ⟨d', Gives.bind (gives_openObject_none hway hnone) hgives, hclosed', hget⟩

theorem gives_writeObject_taken (hway : Way process.uid d objectsDirectory)
    (hnone : d.get (objectAt (crates.digest data)) = none)
    (htaken : d.get (objectsDirectory ++ [stagingAt process (crates.digest data) n]) ≠ none) :
    ∃ e, Gives process.uid (writeObject crates process ⟨[]⟩ data) n d (.error e) (n + 1) d :=
  ⟨_, Gives.bind (gives_openObject_none hway hnone)
    (gives_writeFileAtomic_taken (splitRelative_objectPath (component_digest crates data)) hway htaken)⟩

theorem objectAt_inj {digest other : Text} : objectAt digest = objectAt other ↔ digest = other := by
  simp [objectAt]

theorem staged_ne_object {name : Text} (m : Nat) (data : Bytes) :
    objectsDirectory ++ [stagingAt process name m] ≠ objectAt (crates.digest data) := by
  intro h
  have hname : stagingAt process name m = crates.digest data := by simpa [objectsDirectory, objectAt] using h
  exact staging_ne_visible not_hidden_hex m hname

/-- The shelf with one more object on it. -/
theorem Shelf.more {objects : List Bytes} {found : Text → Bool} {d' : Disk}
    (h : Shelf crates process (data :: objects) found d) (hclosed : Closed d')
    (hsame : ∀ other ∈ objects, crates.digest other = crates.digest data → other = data)
    (hget : ∀ p, d'.get p = if p = objectAt (crates.digest data) then
      some (ownFile process.uid data) else d.get p) :
    Shelf crates process objects (fun digest => digest == crates.digest data || found digest) d' := by
  refine ⟨hclosed, h.way.of_get fun front _ hfront => ?_, fun other hother => ?_⟩
  · rw [hget, if_neg]
    rintro rfl
    exact absurd hfront.length_le (by simp [objectAt, objectsDirectory])
  · rw [hget]
    by_cases hdigest : crates.digest other = crates.digest data
    · obtain rfl := hsame other hother hdigest
      simp
    · rw [if_neg (mt objectAt_inj.mp hdigest), h.held other (List.mem_cons_of_mem _ hother)]
      simp [hdigest]

/-- **The object loop**, when its staging names are free. -/
theorem gives_writeObjects : ∀ {objects : List (Text × Bytes)} {found : Text → Bool} {n : Nat} {d : Disk},
    Shelf crates process (objects.map Prod.snd) found d →
    (∀ a ∈ objects, ∀ b ∈ objects, crates.digest a.2 = crates.digest b.2 → a.2 = b.2) →
    (∀ k digest, (written crates found (objects.map Prod.snd))[k]? = some digest →
      d.get (objectsDirectory ++ [stagingAt process digest (n + k)]) = none) →
    ∃ d', Gives process.uid (Routine.forEach (fun object => writeObject crates process ⟨[]⟩ object.2) objects)
      n d (.ok ()) (n + (written crates found (objects.map Prod.snd)).length) d' ∧ Closed d' ∧
      (∀ object ∈ objects, d'.get (objectAt (crates.digest object.2)) = some (ownFile process.uid object.2)) ∧
      ∀ p, (∀ object ∈ objects, p ≠ objectAt (crates.digest object.2)) → d'.get p = d.get p
  | [], _, _, d, h, _, _ => ⟨d, gives_pure (), h.closed, fun _ ho => absurd ho List.not_mem_nil, fun _ _ => rfl⟩
  | (role, data) :: objects, found, n, d, h, hinj, hfree => by
    have hheld := h.held data List.mem_cons_self
    have hinj' : ∀ a ∈ objects, ∀ b ∈ objects, crates.digest a.2 = crates.digest b.2 →
        a.2 = b.2 := fun a ha b hb =>
      hinj a (List.mem_cons_of_mem _ ha) b (List.mem_cons_of_mem _ hb)
    simp only [List.map_cons, written] at hfree ⊢
    by_cases hfound : found (crates.digest data) = true
    · -- the object is there
      rw [if_pos hfound] at hheld hfree ⊢
      have hrest : Shelf crates process (objects.map Prod.snd) found d :=
        ⟨h.closed, h.way, fun other hother => h.held other (List.mem_cons_of_mem _ hother)⟩
      obtain ⟨d', hgives, hclosed, hall, hfar⟩ := gives_writeObjects hrest hinj' hfree
      refine ⟨d', Gives.bind (gives_writeObject_there h.closed hheld) hgives, hclosed, fun object hobject => ?_,
        fun p hp => ?_⟩
      · rcases List.mem_cons.mp hobject with rfl | hobject
        · by_cases hsame : ∃ other ∈ objects, crates.digest other.2 = crates.digest data
          · obtain ⟨other, hother, hdigest⟩ := hsame
            have hdata : other.2 = data := hinj other (List.mem_cons_of_mem _ hother) _ List.mem_cons_self hdigest
            rw [← hdata]
            exact hall other hother
          · rw [hfar _ fun other hother heq => hsame ⟨other, hother, (objectAt_inj.mp heq).symm⟩]
            exact hheld
        · exact hall object hobject
      · exact hfar p fun object hobject => hp object (List.mem_cons_of_mem _ hobject)
    · -- the object is written under the counter's next value
      rw [if_neg hfound] at hheld hfree ⊢
      have hfirst := hfree 0 _ (List.getElem?_cons_zero)
      obtain ⟨d₁, hwrite, hclosed₁, hget₁⟩ := gives_writeObject h.closed h.way hheld hfirst
      have hshelf := h.more hclosed₁ (fun other hother hdigest => by
        obtain ⟨object, hobject, rfl⟩ := List.mem_map.mp hother
        exact hinj object (List.mem_cons_of_mem _ hobject) _ List.mem_cons_self hdigest) hget₁
      obtain ⟨d', hgives, hclosed, hall, hfar⟩ :=
          @gives_writeObjects objects _ (n + 1) d₁ hshelf hinj' fun k digest hk => by
        rw [hget₁, if_neg (staged_ne_object _ _), Nat.add_assoc, Nat.add_comm 1 k]
        exact hfree (k + 1) digest (by rwa [List.getElem?_cons_succ])
      refine ⟨d', ?_, hclosed, fun object hobject => ?_, fun p hp => ?_⟩
      · rw [List.length_cons, Nat.add_comm _ 1, ← Nat.add_assoc]
        exact Gives.bind hwrite hgives
      · rcases List.mem_cons.mp hobject with rfl | hobject
        · by_cases hsame : ∃ other ∈ objects, crates.digest other.2 = crates.digest data
          · obtain ⟨other, hother, hdigest⟩ := hsame
            have hdata : other.2 = data := hinj other (List.mem_cons_of_mem _ hother) _ List.mem_cons_self hdigest
            rw [← hdata]
            exact hall other hother
          · rw [hfar _ fun other hother heq => hsame ⟨other, hother, (objectAt_inj.mp heq).symm⟩,
              hget₁, if_pos rfl]
        · exact hall object hobject
      · rw [hfar p fun object hobject => hp object (List.mem_cons_of_mem _ hobject), hget₁,
          if_neg (hp _ List.mem_cons_self)]

/-- The object loop fails at the first staging name that is taken. -/
theorem gives_writeObjects_taken : ∀ {objects : List (Text × Bytes)} {found : Text → Bool} {n : Nat} {d : Disk},
    Shelf crates process (objects.map Prod.snd) found d →
    (∀ a ∈ objects, ∀ b ∈ objects, crates.digest a.2 = crates.digest b.2 → a.2 = b.2) →
    (∃ k digest, (written crates found (objects.map Prod.snd))[k]? = some digest ∧
      d.get (objectsDirectory ++ [stagingAt process digest (n + k)]) ≠ none) →
    ∃ e m d', Gives process.uid (Routine.forEach (fun object =>
      writeObject crates process ⟨[]⟩ object.2) objects) n d (.error e) m d'
  | [], _, _, _, _, _, htaken => by
    obtain ⟨k, digest, hk, -⟩ := htaken
    simp [written] at hk
  | (role, data) :: objects, found, n, d, h, hinj, htaken => by
    have hheld := h.held data List.mem_cons_self
    have hinj' : ∀ a ∈ objects, ∀ b ∈ objects, crates.digest a.2 = crates.digest b.2 →
        a.2 = b.2 := fun a ha b hb =>
      hinj a (List.mem_cons_of_mem _ ha) b (List.mem_cons_of_mem _ hb)
    simp only [List.map_cons, written] at htaken
    by_cases hfound : found (crates.digest data) = true
    · rw [if_pos hfound] at hheld htaken
      have hrest : Shelf crates process (objects.map Prod.snd) found d :=
        ⟨h.closed, h.way, fun other hother => h.held other (List.mem_cons_of_mem _ hother)⟩
      obtain ⟨e, m, d', hgives⟩ := gives_writeObjects_taken hrest hinj' htaken
      exact ⟨e, m, d', Gives.bind (gives_writeObject_there h.closed hheld) hgives⟩
    · rw [if_neg hfound] at hheld htaken
      by_cases hfirst : d.get (objectsDirectory ++ [stagingAt process (crates.digest data) n]) = none
      · obtain ⟨d₁, hwrite, hclosed₁, hget₁⟩ := gives_writeObject h.closed h.way hheld hfirst
        have hshelf := h.more hclosed₁ (fun other hother hdigest => by
          obtain ⟨object, hobject, rfl⟩ := List.mem_map.mp hother
          exact hinj object (List.mem_cons_of_mem _ hobject) _ List.mem_cons_self hdigest) hget₁
        obtain ⟨e, m, d', hgives⟩ := @gives_writeObjects_taken objects _ (n + 1) d₁ hshelf hinj' (by
          obtain ⟨k, digest, hk, hne⟩ := htaken
          cases k with
          | zero =>
            rw [List.getElem?_cons_zero, Option.some.injEq] at hk
            subst hk
            exact absurd hfirst hne
          | succ k =>
            refine ⟨k, digest, by rwa [List.getElem?_cons_succ] at hk, ?_⟩
            rw [hget₁, if_neg (staged_ne_object _ _), Nat.add_assoc, Nat.add_comm 1 k]
            exact hne)
        exact ⟨e, m, d', Gives.bind hwrite hgives⟩
      · obtain ⟨e, hgives⟩ := gives_writeObject_taken h.way hheld hfirst
        exact ⟨e, _, _, Gives.bind_error hgives⟩

end Objects

/-! ## What a run relies on -/

/-- The candidate's raw objects that are not in the store, each digest once. -/
def Candidate.unwritten (crates : Crates) (candidate : Candidate) (d : Disk) : List Text :=
  written crates (fun digest => (d.get (objectAt digest)).isSome) (candidate.graph.objects.map Prod.snd)

/-- The staging names that the run draws are free. -/
structure Unobstructed (crates : Crates) (process : Process) (candidate : Candidate) (n : Nat)
    (d : Disk) : Prop where
  objects : ∀ k digest, (candidate.unwritten crates d)[k]? = some digest →
    d.get (objectsDirectory ++ [stagingAt process digest (n + k)]) = none
  entry : d.get (entryAt (stagingAt process candidate.closure.canonicalDigest
    (n + (candidate.unwritten crates d).length))) = none
  closure : d.get (rawDirectory ++
    [stagingAt process "closure.json" (n + (candidate.unwritten crates d).length + 4)]) = none

/-- The lock of the candidate's derived entry can be written. -/
def Lockable (crates : Crates) (candidate : Candidate) : Prop :=
  ∃ lockBytes, canonicalJson crates.lock (candidate.lock crates) = .ok lockBytes ∧
    lockBytes.length ≤ maxCacheMetadataBytes

/-- What runs of the candidate alone leave in a store: each part is missing, or complete and the user's. -/
structure Resumable (crates : Crates) (uid : Nat) (candidate : Candidate) (d : Disk) : Prop where
  founded : Founded uid d
  objects : ∀ object ∈ candidate.graph.objects, d.get (objectAt (crates.digest object.2)) = none ∨
    d.get (objectAt (crates.digest object.2)) = some (ownFile uid object.2)
  entry : EntryAbsentOrWhole crates uid candidate d
  closure : d.get closureAt = none ∨ d.get closureAt = some (ownFile uid candidate.closureBytes)

section Publishing

variable {crates : Crates} {process : Process} {n : Nat} {d : Disk} {candidate : Candidate}

/-- A consistent store of one candidate. -/
theorem Consistent.resumable {uid : Nat} {known : Candidate → Prop} (h : Consistent crates uid known d)
    (honly : ∀ other, known other → other = candidate) (hnamed : Named candidate)
    (hinj : ∀ a ∈ candidate.graph.objects, ∀ b ∈ candidate.graph.objects,
      crates.digest a.2 = crates.digest b.2 → a.2 = b.2)
    (hown : OwnedBy uid d) : Resumable crates uid candidate d := by
  obtain ⟨stat, hroot, -⟩ := hown
  refine ⟨⟨h.closed, isDirectory_iff.mpr ⟨stat, hroot⟩, fun path hpath => ?_⟩, fun object hobject => ?_, ?_, ?_⟩
  · cases hget : d.get path with
    | none => exact .inl rfl
    | some node =>
      obtain ⟨stat', rfl⟩ := h.directories path hpath node hget
      exact .inr ⟨stat', rfl, h.owned path _ hget⟩
  · cases hget : d.get (objectAt (crates.digest object.2)) with
    | none => exact .inl rfl
    | some node =>
      obtain ⟨other, hother, found, hfound, hdigest, rfl⟩ := h.objects _ node not_hidden_hex hget
      obtain rfl := honly other hother
      rw [hinj object hobject found hfound hdigest]
      exact .inr rfl
  · cases hget : d.get (entryAt candidate.closure.canonicalDigest) with
    | none => exact .inl hget
    | some node =>
      obtain ⟨rfl, other, hother, -, hholds⟩ := h.entries _ node hnamed.1 hget
      obtain rfl := honly other hother
      exact .inr ⟨hget, hholds⟩
  · cases hget : d.get closureAt with
    | none => exact .inl rfl
    | some node =>
      obtain ⟨other, hother, rfl, -⟩ := h.closure node hget
      obtain rfl := honly other hother
      exact .inr rfl

/-! ## The parts of a run -/

/-- A staging name that is taken fails the derived entry. -/
theorem gives_publishDerived_taken (hnamed : Named candidate) (hlockable : Lockable crates candidate)
    (hd : Founded process.uid d)
    (htaken : d.get (entryAt (stagingAt process candidate.closure.canonicalDigest n)) ≠ none) :
    ∃ e m d', Gives process.uid (publishDerived crates process ⟨[]⟩ candidate) n d (.error e) m d' := by
  have hparts : components "derived" = .ok derivedDirectory := by decide
  have hname := @staged_component candidate process hnamed n
  have hfronts : ∀ front, front ≠ [] → front <+: derivedDirectory → d.get front = none ∨
      ∃ stat, d.get front = some (.directory stat) ∧ stat.uid = process.uid ∧ stat.mode &&& 0o077 = 0 :=
    fun front _ hfront => hd.directories front (front_of_store (by decide) hfront)
  obtain ⟨d₁, hopened, -, hway₁, hget₁⟩ :=
    @gives_openOrCreateDirectory process n d _ derivedDirectory hparts hd.closed
    hd.root hfronts
  have htaken₁ : d₁.get (derivedDirectory ++ [stagingAt process candidate.closure.canonicalDigest n]) ≠ none := by
    rcases hget₁ (derivedDirectory ++ [stagingAt process candidate.closure.canonicalDigest n]) with hsame |
      ⟨-, -, hnone, -⟩
    · rw [hsame]
      exact htaken
    · exact absurd hnone htaken
  have hmake : exec process.uid (.mkdirat derivedDirectory
      (stagingAt process candidate.closure.canonicalDigest n)) d₁ =
      .error .exist := create_exist htaken₁
  have hopen : Gives process.uid (Root.openBeneath [] derivedDirectory) (n + 1) d₁ (.ok derivedDirectory)
      (n + 1) d₁ :=
    @gives_openBeneath process.uid (n + 1) d₁ derivedDirectory [] fun front hne hfront =>
      hway₁.isDirectory hne hfront
  have hcreate : Gives process.uid (Root.createDirectory ⟨[]⟩ (derivedPath (stagingAt process
      candidate.closure.canonicalDigest n))) (n + 1) d₁ (.error (describe (derivedPath (stagingAt process
        candidate.closure.canonicalDigest n)) .exist)) (n + 1) d₁ :=
    Gives.lift_bind (splitRelative_derivedPath hname) (Gives.bind hopen (gives_syscall_error hmake))
  obtain ⟨lockBytes, hlock, hlength⟩ := hlockable
  exact ⟨_, _, _, Gives.lift_bind hlock (Gives.require_bind (by simpa using hlength) (Gives.bind hopened
    (Gives.bind (gives_drawStagingName _) (Gives.bind_error hcreate))))⟩

/-- A lock that cannot be written fails the derived entry. -/
theorem gives_publishDerived_unlockable (h : ¬ Lockable crates candidate) :
    ∃ e, Gives process.uid (publishDerived crates process ⟨[]⟩ candidate) n d (.error e) n d := by
  cases hlock : canonicalJson crates.lock (candidate.lock crates) with
  | error e => exact ⟨e, Gives.lift_bind_error hlock⟩
  | ok lockBytes =>
    have hlength : ¬ lockBytes.length ≤ maxCacheMetadataBytes := fun hlength => h ⟨lockBytes, hlock, hlength⟩
    exact ⟨_, Gives.lift_bind hlock (Gives.lift_bind_error (if_neg (by simpa using hlength)))⟩

/-- The entry that was published passes its checks. -/
theorem gives_requirePrivateDerived (hclosed : Closed d) (hnamed : Named candidate)
    (hentry : d.get (entryAt candidate.closure.canonicalDigest) = some (ownDirectory process.uid))
    (hholds : Holds crates process.uid candidate candidate.closure.canonicalDigest d) :
    Gives process.uid (requirePrivateDerived process ⟨[]⟩ candidate.closure.canonicalDigest) n d (.ok ()) n d := by
  have hcomponents : components (derivedPath candidate.closure.canonicalDigest) =
      .ok (entryAt candidate.closure.canonicalDigest) := splitRelative_ok (splitRelative_derivedPath hnamed.2)
  have hprivate : (0o600 : Nat) &&& 0o077 = 0 := by decide
  have hway : ∀ front, front ≠ [] → front <+: entryAt candidate.closure.canonicalDigest →
      d.isDirectory front = true := by
    intro front _ hfront
    by_cases hsame : front = entryAt candidate.closure.canonicalDigest
    · exact isDirectory_iff.mpr ⟨_, hsame ▸ hentry⟩
    · exact hclosed.front hentry hfront hsame
  have hsplit : ∀ file ∈ derivedNames,
      splitRelative (joinName (derivedPath candidate.closure.canonicalDigest) file) =
      .ok (entryAt candidate.closure.canonicalDigest, file) := fun file hfile =>
    splitRelative_entryFile hnamed.2 ((by decide : ∀ file ∈ derivedNames, Component file) file hfile)
  obtain ⟨lockBytes, -, -, hlock⟩ := hholds.lock
  have hdirectory : Gives process.uid (Root.requirePrivateDirectory process ⟨[]⟩
      (derivedPath candidate.closure.canonicalDigest))
      n d (.ok ()) n d := gives_requirePrivateDirectory hcomponents hway hentry rfl
        (by decide : (0o700 : Nat) &&& 0o077 = 0)
  have hfile : ∀ file ∈ derivedNames, ∀ data, d.get (entryFile candidate.closure.canonicalDigest file) =
      some (ownFile process.uid data) → Gives process.uid (Root.requirePrivateFile process ⟨[]⟩
        (joinName (derivedPath candidate.closure.canonicalDigest) file)) n d (.ok ()) n d :=
    fun file hmem data hget => gives_requirePrivateFile (hsplit file hmem) hclosed hget rfl hprivate
  refine Gives.bind hdirectory ?_
  refine Gives.bind (hfile _ (by decide) _ hholds.tree) (Gives.bind (hfile _ (by decide) _ hholds.template) ?_)
  exact Gives.bind (hfile _ (by decide) _ hlock) (gives_pure ())

/-- The closure is published, or found. -/
theorem gives_publishClosure (hclosed : Closed d) (hway : Way process.uid d rawDirectory)
    (hfree : d.get (rawDirectory ++ [stagingAt process "closure.json" n]) = none)
    (hclosure : d.get closureAt = none ∨ d.get closureAt = some (ownFile process.uid candidate.closureBytes))
    (hlength : candidate.closureBytes.length ≤ maxCacheMetadataBytes) :
    ∃ d', Gives process.uid (publishClosure process ⟨[]⟩ candidate.closureBytes) n d (.ok ())
      (n + 1) d' ∧ Closed d' ∧ ∀ p, d'.get p = if p = closureAt then
      some (ownFile process.uid candidate.closureBytes) else d.get p := by
  have hplain : d.isDirectory closureAt = false := by
    rcases hclosure with hnone | hthere
    · rw [Disk.isDirectory, hnone]
    · rw [Disk.isDirectory, hthere]
  have hspot : Spot process rawClosurePath rawDirectory (utf8 "closure.json") n d :=
    ⟨splitRelative_rawClosurePath, hclosed, by decide, hway, hfree, hplain⟩
  rcases hclosure with hnone | hthere
  · obtain ⟨d', hgives, hclosed', hget⟩ := gives_publishExclusive hspot hnone
    exact ⟨d', Gives.bind hgives (gives_pure ()), hclosed', hget⟩
  · have htaken : d.get (rawDirectory ++ [utf8 "closure.json"]) ≠ none := by
      intro hnone
      rw [show d.get (rawDirectory ++ [utf8 "closure.json"]) = _ from hthere] at hnone
      cases hnone
    obtain ⟨d', hgives, hsame⟩ := @gives_publishExclusive_exists process n d _ _ _ candidate.closureBytes
      hspot htaken
    have hclosed' : Closed d' := by
      intro p c node hp
      rw [hsame] at hp
      rw [Disk.isDirectory, hsame]
      exact hclosed p c node hp
    have hget : d'.get closureAt = some (ownFile process.uid candidate.closureBytes) := (hsame _).trans hthere
    refine ⟨d', Gives.bind hgives ?_, hclosed', fun p => ?_⟩
    · refine Gives.bind (gives_readFile splitRelative_rawClosurePath hclosed' hget hlength) ?_
      refine Gives.require_bind (by simp) ?_
      exact gives_requirePrivateFile splitRelative_rawClosurePath hclosed' hget rfl
        (by decide : (0o600 : Nat) &&& 0o077 = 0)
    · rw [hsame]
      split_ifs with hp
      · rw [hp, hthere]
      · rfl

theorem gives_publishClosure_taken (hway : Way process.uid d rawDirectory)
    (htaken : d.get (rawDirectory ++ [stagingAt process "closure.json" n]) ≠ none) :
    ∃ e, Gives process.uid (publishClosure process ⟨[]⟩ candidate.closureBytes) n d (.error e) (n + 1) d :=
  ⟨_, Gives.bind_error (gives_publishExclusive_taken splitRelative_rawClosurePath hway htaken)⟩

/-! ## A run -/

/-- Where the run stands behind its raw objects. -/
structure Shelved (crates : Crates) (process : Process) (candidate : Candidate) (d d' : Disk) : Prop where
  founded : Founded process.uid d'
  way : Way process.uid d' rawDirectory
  retained : Retained crates process.uid candidate d'
  entry : EntryAbsentOrWhole crates process.uid candidate d'
  others : ∀ p, ¬ p <+: objectsDirectory → (∀ object ∈ candidate.graph.objects,
    p ≠ objectAt (crates.digest object.2)) → d'.get p = d.get p

theorem Shelved.entries_same {d' : Disk} (h : Shelved crates process candidate d d') (name : Text) :
    d'.get (entryAt name) = d.get (entryAt name) := by
  refine h.others _ ?_ ?_
  · rintro ⟨more, heq⟩
    exact absurd (List.cons.inj heq).1 (by decide)
  · intro object _ heq
    exact absurd (List.cons.inj heq).1 (by decide)

/-- The run up to its raw objects, in its two outcomes. -/
theorem Resumable.shelved (h : Resumable crates process.uid candidate d)
    (hinj : ∀ a ∈ candidate.graph.objects, ∀ b ∈ candidate.graph.objects,
      crates.digest a.2 = crates.digest b.2 → a.2 = b.2) :
    ∃ d₁, Gives process.uid (Root.openOrCreateDirectory process ⟨[]⟩ "raw/sha256") n d
      (.ok objectsDirectory) n d₁ ∧ ((∀ k digest, (candidate.unwritten crates d)[k]? = some digest →
          d.get (objectsDirectory ++ [stagingAt process digest (n + k)]) = none) →
        ∃ d₂, Gives process.uid (Routine.forEach (fun object => writeObject crates process ⟨[]⟩ object.2)
            candidate.graph.objects) n d₁ (.ok ()) (n + (candidate.unwritten crates d).length) d₂ ∧
          Shelved crates process candidate d d₂) ∧
      (¬ (∀ k digest, (candidate.unwritten crates d)[k]? = some digest →
          d.get (objectsDirectory ++ [stagingAt process digest (n + k)]) = none) →
        ∃ e m d₂, Gives process.uid (Routine.forEach (fun object => writeObject crates process ⟨[]⟩ object.2)
            candidate.graph.objects) n d₁ (.error e) m d₂) := by
  have hparts : components "raw/sha256" = .ok objectsDirectory := by decide
  have hfronts : ∀ front, front ≠ [] → front <+: objectsDirectory → d.get front = none ∨
      ∃ stat, d.get front = some (.directory stat) ∧ stat.uid = process.uid ∧ stat.mode &&& 0o077 = 0 :=
    fun front _ hfront => h.founded.directories front (front_of_store (by decide) hfront)
  obtain ⟨d₁, hopened, hclosed₁, hway₁, hget₁⟩ :=
    @gives_openOrCreateDirectory process n d _ objectsDirectory hparts
    h.founded.closed h.founded.root hfronts
  have hsame₁ : ∀ p, ¬ p <+: objectsDirectory → d₁.get p = d.get p := fun p hp =>
    (hget₁ p).resolve_right fun hnew => hp hnew.2.1
  have hlong : ∀ name, ¬ objectsDirectory ++ [name] <+: objectsDirectory := fun name hpre =>
    absurd hpre.length_le (by simp)
  have hobject₁ : ∀ digest, d₁.get (objectAt digest) = d.get (objectAt digest) :=
    fun digest => hsame₁ _ (hlong digest)
  have hstaging₁ : ∀ name, d₁.get (objectsDirectory ++ [name]) = d.get (objectsDirectory ++ [name]) := fun name =>
    hsame₁ _ (hlong name)
  have hshelf : Shelf crates process (candidate.graph.objects.map Prod.snd)
      (fun digest => (d.get (objectAt digest)).isSome) d₁ := by
    refine ⟨hclosed₁, hway₁, fun data hdata => ?_⟩
    obtain ⟨object, hobject, rfl⟩ := List.mem_map.mp hdata
    rw [hobject₁]
    rcases h.objects object hobject with hnone | hthere
    · rw [hnone]
      rfl
    · rw [hthere]
      rfl
  refine ⟨d₁, hopened, fun hfree => ?_, fun htaken => ?_⟩
  · obtain ⟨d₂, hgives, hclosed₂, hall, hfar⟩ :=
      @gives_writeObjects crates process candidate.graph.objects _ n d₁ hshelf hinj
      fun k digest hk => by
        rw [hstaging₁]
        exact hfree k digest hk
    have hobject : ∀ p : Path, p.length ≤ 2 → ∀ object ∈ candidate.graph.objects,
        p ≠ objectAt (crates.digest object.2) := by
      rintro p hp object - rfl
      simp [objectAt] at hp
    have hderived : ∀ name rest, ∀ object ∈ candidate.graph.objects,
        entryAt name ++ rest ≠ objectAt (crates.digest object.2) := by
      intro name rest object _ heq
      exact absurd (List.cons.inj heq).1 (by decide)
    have hcleared : ∀ name rest, ¬ entryAt name ++ rest <+: objectsDirectory := by
      rintro name rest ⟨more, heq⟩
      exact absurd (List.cons.inj heq).1 (by decide)
    have hsame₂ : ∀ name rest, d₂.get (entryAt name ++ rest) = d.get (entryAt name ++ rest) := fun name rest => by
      rw [hfar _ (hderived name rest), hsame₁ _ (hcleared name rest)]
    have hself : ∀ name, d₂.get (entryAt name) = d.get (entryAt name) := fun name => by
      have hrest := hsame₂ name []
      rwa [List.append_nil] at hrest
    refine ⟨d₂, hgives, ⟨⟨hclosed₂, ?_, fun path hpath => ?_⟩, ?_, fun object hobj => hall object hobj, ?_,
      fun p hp hno => ?_⟩⟩
    · obtain ⟨stat, hroot⟩ := isDirectory_iff.mp h.founded.root
      rcases hget₁ [] with hsame | ⟨hne, -⟩
      · refine isDirectory_iff.mpr ⟨stat, ?_⟩
        rw [hfar [] (hobject [] (by simp)), hsame, hroot]
      · exact absurd rfl hne
    · have hshort : path.length ≤ 2 := (by decide : ∀ path ∈ storeDirectories, path.length ≤ 2) path hpath
      rw [hfar path (hobject path hshort)]
      rcases hget₁ path with hsame | ⟨-, -, -, hnew⟩
      · rw [hsame]
        exact h.founded.directories path hpath
      · exact .inr ⟨_, hnew, private_ownDirectory process.uid⟩
    · refine (hway₁.of_get fun front _ hfront => ?_ : Way process.uid d₂ objectsDirectory).mono ?_
      · exact hfar front (hobject front hfront.length_le)
      · exact List.prefix_append rawDirectory [utf8 "sha256"]
    · rcases h.entry with hnone | ⟨hthere, hholds⟩
      · exact .inl ((hself _).trans hnone)
      · obtain ⟨other, hother, hlength, hget⟩ := hholds.lock
        refine .inr ⟨(hself _).trans hthere, (hsame₂ _ [utf8 "tree.bin"]).trans hholds.tree,
          (hsame₂ _ [utf8 "template.cpio"]).trans hholds.template, other, hother, hlength, ?_⟩
        exact (hsame₂ _ [utf8 "lock.json"]).trans hget
    · rw [hfar p hno, hsame₁ p hp]
  · refine @gives_writeObjects_taken crates process candidate.graph.objects _ n d₁ hshelf hinj ?_
    by_contra hnone
    refine htaken fun k digest hk => ?_
    by_contra hne
    refine hnone ⟨k, digest, hk, ?_⟩
    rw [hstaging₁]
    exact hne

/-- The run behind its look at the closure. -/
theorem gives_publishInto_of {r : IoResult AssembledWorkload} {m : Nat} {d' : Disk}
    (h : Resumable crates process.uid candidate d)
    (hlength : candidate.closureBytes.length ≤ maxCacheMetadataBytes)
    (hrest : Gives process.uid (do
      let _ ← Root.openOrCreateDirectory process ⟨[]⟩ "raw/sha256"
      Routine.forEach (fun object => writeObject crates process ⟨[]⟩ object.2) candidate.graph.objects
      publishDerived crates process ⟨[]⟩ candidate
      requirePrivateDerived process ⟨[]⟩ candidate.closure.canonicalDigest
      verifyDerived crates ⟨[]⟩ candidate.closure.canonicalDigest candidate.treeBytes
        candidate.closure.templateSha256 (candidate.closureSha256 crates) candidate.closure.treeSha256
      publishClosure process ⟨[]⟩ candidate.closureBytes
      pure (candidate.assembled crates)) n d r m d') :
    Gives process.uid (publishInto crates process candidate ⟨[]⟩) n d r m d' := by
  rcases h.closure with hnone | hthere
  · have hfronts : ∀ front, front ≠ [] → front <+: rawDirectory → d.isDirectory front = true ∨
        d.get front = none := by
      intro front _ hfront
      rcases h.founded.directories front (front_of_store (by decide) hfront) with hnone | ⟨stat, hget, -⟩
      · exact .inr hnone
      · exact .inl (isDirectory_iff.mpr ⟨stat, hget⟩)
    have hread : Gives process.uid (Root.readFileIfExists ⟨[]⟩ rawClosurePath maxCacheMetadataBytes) n d
        (.ok none) n d :=
      Gives.bind (gives_openRegular_none splitRelative_rawClosurePath hfronts hnone) (gives_pure none)
    exact Gives.bind hread hrest
  · refine Gives.bind (gives_readFileIfExists splitRelative_rawClosurePath h.founded.closed hthere hlength) ?_
    exact Gives.require_bind (by simp) hrest

/-- The derived entry behind its publication. -/
theorem Holds.verified (hfaithful : crates.Faithful)
    (hdraft : Drafted crates candidate.graph candidate) {uid : Nat}
    (hentry : d.get (entryAt candidate.closure.canonicalDigest) = some (ownDirectory uid))
    (h : Holds crates uid candidate candidate.closure.canonicalDigest d) : Verified crates uid candidate d := by
  obtain ⟨lockBytes, hlock, hlength, hget⟩ := h.lock
  obtain ⟨bytes, hbytes, hwritten⟩ := bind_eq_ok.mp hlock
  have hparsed : crates.lock.fromSlice lockBytes = .ok (candidate.lock crates) := by
    rw [← Except.ok.inj hwritten]
    exact hfaithful.lock _ _ (mapError_eq_ok.mp hbytes)
  have hdigest : crates.digest candidate.template = candidate.closure.templateSha256 := by
    rw [hdraft.closure]
  exact ⟨hentry, h.tree, ⟨_, h.template, hdigest, hdraft.templateLength⟩, lockBytes, hget, hparsed, hlength⟩

/-- Where the run stands before it publishes its closure. -/
structure Entered (crates : Crates) (process : Process) (candidate : Candidate) (d d' : Disk) : Prop where
  closed : Closed d'
  way : Way process.uid d' rawDirectory
  verified : Verified crates process.uid candidate d'
  retained : Retained crates process.uid candidate d'
  others : ∀ name, rawDirectory ++ [name] ≠ objectsDirectory →
    d'.get (rawDirectory ++ [name]) = d.get (rawDirectory ++ [name])

/-- The run up to its closure, when nothing obstructs it before. -/
theorem gives_publishInto_entered (hfaithful : crates.Faithful) (hnamed : Named candidate)
    (hdraft : Drafted crates candidate.graph candidate) (h : Resumable crates process.uid candidate d)
    (hinj : ∀ a ∈ candidate.graph.objects, ∀ b ∈ candidate.graph.objects,
      crates.digest a.2 = crates.digest b.2 → a.2 = b.2)
    (hlockable : Lockable crates candidate)
    (hobjects : ∀ k digest, (candidate.unwritten crates d)[k]? = some digest →
      d.get (objectsDirectory ++ [stagingAt process digest (n + k)]) = none)
    (hentry : d.get (entryAt (stagingAt process candidate.closure.canonicalDigest
      (n + (candidate.unwritten crates d).length))) = none) :
    ∃ d₃, Entered crates process candidate d d₃ ∧ ∀ r m d',
      Gives process.uid (do
        publishClosure process ⟨[]⟩ candidate.closureBytes
        pure (candidate.assembled crates)) (n + (candidate.unwritten crates d).length + 4) d₃ r m d' →
      Gives process.uid (publishInto crates process candidate ⟨[]⟩) n d r m d' := by
  obtain ⟨lockBytes, hlock, hlength⟩ := hlockable
  obtain ⟨d₁, hopened, hwrites, -⟩ := @Resumable.shelved crates process n d candidate h hinj
  obtain ⟨d₂, hwritten, hshelved⟩ := hwrites hobjects
  have hfree : d₂.get (entryAt (stagingAt process candidate.closure.canonicalDigest
      (n + (candidate.unwritten crates d).length))) = none := by
    rw [hshelved.entries_same, hentry]
  obtain ⟨d₃, hderived, hclosed, hthere, hholds, hfar⟩ :=
    gives_publishDerived hnamed hlock hlength hshelved.founded hfree
    hshelved.entry
  have hraw : ∀ rest, d₃.get (utf8 "raw" :: rest) = d₂.get (utf8 "raw" :: rest) := by
    refine fun rest => hfar _ ?_
    rintro ⟨more, heq⟩
    exact absurd (List.cons.inj heq).1 (by decide)
  have hverified : Verified crates process.uid candidate d₃ := hholds.verified hfaithful hdraft hthere
  refine ⟨d₃, ⟨hclosed, ?_, hverified, ?_, ?_⟩, fun r m d' hrest => ?_⟩
  · refine hshelved.way.of_get fun front hne hfront => ?_
    cases front with
    | nil => exact absurd rfl hne
    | cons first rest =>
      obtain ⟨rfl, -⟩ := List.cons_prefix_cons.mp hfront
      exact hraw rest
  · exact fun object hobject => (hraw _).trans (hshelved.retained object hobject)
  · intro name hname
    rw [show d₃.get (rawDirectory ++ [name]) = d₂.get (rawDirectory ++ [name]) from hraw _]
    refine hshelved.others _ (fun hpre => hname (hpre.eq_of_length rfl)) fun object _ heq => ?_
    simpa [rawDirectory, objectAt] using congrArg List.length heq
  · refine gives_publishInto_of h hdraft.length (Gives.bind hopened (Gives.bind hwritten (Gives.bind hderived ?_)))
    refine Gives.bind (gives_requirePrivateDerived hclosed hnamed hthere hholds) ?_
    exact Gives.bind (gives_verifyDerived hclosed hnamed hverified hdraft.treeLength) hrest

theorem staged_ne_objectsDirectory {name : Text} (m : Nat) : rawDirectory ++ [stagingAt process name m] ≠
    objectsDirectory := by
  intro h
  have hname : stagingAt process name m = utf8 "sha256" := by simpa [objectsDirectory, rawDirectory] using h
  exact staging_ne_visible (by decide) m hname

/-- **An unobstructed run** succeeds and leaves a published store. -/
theorem gives_publishInto (hfaithful : crates.Faithful) (hnamed : Named candidate)
    (hdraft : Drafted crates candidate.graph candidate) (h : Resumable crates process.uid candidate d)
    (hinj : ∀ a ∈ candidate.graph.objects, ∀ b ∈ candidate.graph.objects,
      crates.digest a.2 = crates.digest b.2 → a.2 = b.2)
    (hlockable : Lockable crates candidate) (hfree : Unobstructed crates process candidate n d) :
    ∃ m d', Gives process.uid (publishInto crates process candidate ⟨[]⟩) n d
      (.ok (candidate.assembled crates)) m d' ∧ Published crates process.uid candidate d' := by
  obtain ⟨d₃, hentered, hrun⟩ := gives_publishInto_entered hfaithful hnamed hdraft h hinj hlockable
    hfree.objects hfree.entry
  have hclosure : d₃.get closureAt = none ∨ d₃.get closureAt =
      some (ownFile process.uid candidate.closureBytes) := by
    rw [show d₃.get closureAt = d.get closureAt from hentered.others (utf8 "closure.json") (by decide)]
    exact h.closure
  have hstaging := (hentered.others _ (staged_ne_objectsDirectory _)).trans hfree.closure
  obtain ⟨d₄, hgives, hclosed, hget⟩ :=
    @gives_publishClosure process (n + (candidate.unwritten crates d).length + 4) d₃
    candidate hentered.closed hentered.way hstaging hclosure hdraft.length
  have hkept : Kept d₃ d₄ := by
    intro path node _ hnode
    rw [hget]
    split_ifs with hpath
    · rcases hclosure with hnone | hown
      · rw [hpath, hnone] at hnode
        cases hnode
      · rw [hpath, hown] at hnode
        exact hnode
    · exact hnode
  refine ⟨_, d₄, hrun _ _ _ (Gives.bind hgives (gives_pure _)), hclosed, hnamed, ?_,
    hentered.verified.lasts hnamed hkept, hentered.retained.lasts hkept⟩
  rw [hget, if_pos rfl]

/-- **A run that is obstructed** fails. -/
theorem gives_publishInto_obstructed (hfaithful : crates.Faithful) (hnamed : Named candidate)
    (hdraft : Drafted crates candidate.graph candidate) (h : Resumable crates process.uid candidate d)
    (hinj : ∀ a ∈ candidate.graph.objects, ∀ b ∈ candidate.graph.objects,
      crates.digest a.2 = crates.digest b.2 → a.2 = b.2)
    (hnot : ¬ (Lockable crates candidate ∧ Unobstructed crates process candidate n d)) :
    ∃ e m d', Gives process.uid (publishInto crates process candidate ⟨[]⟩) n d (.error e) m d' := by
  obtain ⟨d₁, hopened, hwrites, htaken⟩ := @Resumable.shelved crates process n d candidate h hinj
  by_cases hobjects : ∀ k digest, (candidate.unwritten crates d)[k]? = some digest →
      d.get (objectsDirectory ++ [stagingAt process digest (n + k)]) = none
  · obtain ⟨d₂, hgives, hshelved⟩ := hwrites hobjects
    have hbefore : ∀ {e : IoError} {m : Nat} {d' : Disk},
        Gives process.uid (publishDerived crates process ⟨[]⟩ candidate)
        (n + (candidate.unwritten crates d).length) d₂ (.error e) m d' →
        ∃ e m d', Gives process.uid (publishInto crates process candidate ⟨[]⟩) n d (.error e) m d' := fun hfail =>
      ⟨_, _, _, gives_publishInto_of h hdraft.length
        (Gives.bind hopened (Gives.bind hgives (Gives.bind_error hfail)))⟩
    by_cases hlockable : Lockable crates candidate
    · by_cases hentry : d.get (entryAt (stagingAt process candidate.closure.canonicalDigest
          (n + (candidate.unwritten crates d).length))) = none
      · -- the name of the staged closure is left
        have htakenClosure : d.get (rawDirectory ++ [stagingAt process "closure.json"
            (n + (candidate.unwritten crates d).length + 4)]) ≠ none := fun hclosure =>
          hnot ⟨hlockable, hobjects, hentry, hclosure⟩
        obtain ⟨d₃, hentered, hrun⟩ :=
          gives_publishInto_entered hfaithful hnamed hdraft h hinj hlockable hobjects hentry
        rw [← hentered.others _ (staged_ne_objectsDirectory _)] at htakenClosure
        obtain ⟨e, hfail⟩ := @gives_publishClosure_taken process (n + (candidate.unwritten crates d).length + 4)
          d₃ candidate hentered.way htakenClosure
        exact ⟨e, _, _, hrun _ _ _ (Gives.bind_error hfail)⟩
      · rw [← hshelved.entries_same] at hentry
        obtain ⟨e, m, d', hfail⟩ := gives_publishDerived_taken hnamed hlockable hshelved.founded hentry
        exact hbefore hfail
    · obtain ⟨e, hfail⟩ := @gives_publishDerived_unlockable crates process
        (n + (candidate.unwritten crates d).length) d₂ candidate hlockable
      exact hbefore hfail
  · obtain ⟨e, m, d₂, hgives⟩ := htaken hobjects
    exact ⟨e, m, d₂, gives_publishInto_of h hdraft.length (Gives.bind hopened (Gives.bind_error hgives))⟩

end Publishing

/-! ## What crashed runs leave -/

/-- A store that runs of one graph left: any number of episodes, in each of them any number of runs at once,
each of which may fail, or stop behind any of its operations. -/
inductive Reached (crates : Crates) (graph : WorkloadGraph) : Disk → Prop
  | fresh {d : Disk} (empty : Hollow d) : Reached crates graph d
  | episode {ι : Type} [DecidableEq ι] {d d' : Disk} {process : ι → Process}
      {pool : ι → Prog Op Op.Reply (Except IoError AssembledWorkload × Nat)} (before : Reached crates graph d)
      (apart : Apart process)
      (runs : Prog.Steps (fun i => Does (process i).uid) (fun i => publish crates (process i) graph 0, d)
        (pool, d')) : Reached crates graph d'

section Retry

variable {crates : Crates} {graph : WorkloadGraph} {candidate : Candidate} {d : Disk}

theorem Reached.sound (hprepare : prepare crates graph = .ok candidate)
    (hinj : Set.InjOn crates.sha256 { data | ∃ object ∈ graph.objects, object.2 = data })
    (h : Reached crates graph d) : Sound crates (· = candidate) d := by
  have hknown : Set.InjOn crates.digest (knownObjects (· = candidate)) := by
    refine (digest_injOn hinj).mono ?_
    rintro data ⟨_, rfl, object, hobject, rfl⟩
    exact ⟨object, (prepare_ok hprepare).source ▸ hobject, rfl⟩
  have hnamed : ∀ other, other = candidate → Named other := by
    rintro _ rfl
    exact (prepare_ok hprepare).named
  have honly : ∀ other, prepare crates graph = .ok other → other = candidate := fun other hother =>
    Except.ok.inj (hother.symm.trans hprepare)
  induction h with
  | fresh empty => exact .inl empty
  | @episode ι _ d d' process pool _ apart runs ih =>
    have hsafe := fun i => changes_publish hnamed hknown (process i) graph honly 0 d ih trivial
    exact (Prog.Safe.steps (fun _ _ _ _ hfirst hsecond => hfirst.trans hsecond) (fun _ => Change.refl)
      (fun i j hij => apart.others hij) (fun i s s' hchange => hchange.sound) runs hsafe ih).2

/-- What a run needs. -/
structure Ready (crates : Crates) (process : Process) (candidate : Candidate) (d : Disk) : Prop where
  store : d.get [] = none ∨ OwnedBy process.uid d
  lockable : Lockable crates candidate
  unobstructed : Unobstructed crates process candidate 0 d

/-- The store's own directory is in no part of the condition. -/
theorem Unobstructed.congr {process : Process} {n : Nat} {d' : Disk} (hget : ∀ p, p ≠ [] → d'.get p = d.get p) :
    Unobstructed crates process candidate n d' ↔ Unobstructed crates process candidate n d := by
  have hobjects : ∀ digest, d'.get (objectAt digest) = d.get (objectAt digest) :=
    fun digest => hget _ (by simp [objectAt])
  have hunwritten : candidate.unwritten crates d' = candidate.unwritten crates d := by
    simp only [Candidate.unwritten, hobjects]
  have hlong : ∀ (dir : Path) (name : Text), d'.get (dir ++ [name]) = d.get (dir ++ [name]) := fun dir name =>
    hget _ (by simp)
  have hentry : ∀ name, d'.get (entryAt name) = d.get (entryAt name) := fun name => hget _ (by simp [entryAt])
  constructor
  · rintro ⟨h1, h2, h3⟩
    simp only [hunwritten, hlong, hentry] at h1 h2 h3
    exact ⟨h1, h2, h3⟩
  · rintro ⟨h1, h2, h3⟩
    refine ⟨?_, ?_, ?_⟩
    all_goals simp only [hunwritten, hlong, hentry]
    · exact h1
    · exact h2
    · exact h3

/-- A publication, from its prepared candidate on. -/
theorem gives_publish {process : Process} {n m : Nat} {d' d₁ : Disk} {r : IoResult AssembledWorkload} {stat : Stat}
    (hprepare : prepare crates graph = .ok candidate) (hcreate : exec process.uid .createStore d = .ok ((), d₁))
    (hroot : d₁.get [] = some (.directory stat)) (huid : stat.uid = process.uid) (hmode : stat.mode &&& 0o077 = 0)
    (h : Gives process.uid (publishInto crates process candidate ⟨[]⟩) n d₁ r m d') :
    Gives process.uid (publish crates process graph) n d r m d' := by
  have hopen : exec process.uid .openStore d₁ = .ok ((), d₁) := by
    simp only [exec, hroot]
  have hprivate : Gives process.uid (Root.openPrivate process) n d₁ (.ok ⟨[]⟩) n d₁ := by
    refine Gives.bind (Gives.bind (gives_syscall hopen) (gives_pure _)) ?_
    exact Gives.bind (gives_syscall (exec_fstat_ok hroot))
      (Gives.lift_bind (requirePrivate_of huid hmode) (gives_pure _))
  obtain rfl := (prepare_ok hprepare).source
  exact Gives.lift_bind hprepare (Gives.bind (gives_syscall hcreate) (Gives.bind hprivate h))

/-- The store of another user, or one that others can read. -/
theorem gives_publish_foreign {process : Process} {n : Nat} {stat : Stat}
    (hprepare : prepare crates graph = .ok candidate)
    (hroot : d.get [] = some (.directory stat)) (hnot : ¬ (stat.uid = process.uid ∧ stat.mode &&& 0o077 = 0)) :
    ∃ e, Gives process.uid (publish crates process graph) n d (.error e) n d := by
  have hcreate : exec process.uid .createStore d = .ok ((), d) := by
    simp only [exec, hroot]
  have hopen : exec process.uid .openStore d = .ok ((), d) := by
    simp only [exec, hroot]
  cases hprivate : Root.requirePrivate process stat "the workload store" with
  | ok value => exact absurd (requirePrivate_ok hprivate) hnot
  | error e =>
    have hfail : Gives process.uid (Root.openPrivate process) n d (.error e) n d :=
      Gives.bind (Gives.bind (gives_syscall hopen) (gives_pure _))
        (Gives.bind (gives_syscall (exec_fstat_ok hroot)) (Gives.lift_bind_error hprivate))
    exact ⟨e, Gives.lift_bind hprepare (Gives.bind (gives_syscall hcreate) (Gives.bind_error hfail))⟩

/-- A run on a store of one candidate, in its two outcomes. -/
theorem gives_publish_sound {process : Process} (hfaithful : crates.Faithful)
    (hprepare : prepare crates graph = .ok candidate)
    (hinj : Set.InjOn crates.sha256 { data | ∃ object ∈ graph.objects, object.2 = data })
    (hsound : Sound crates (· = candidate) d) :
    (Ready crates process candidate d → ∃ m d', Gives process.uid (publish crates process graph) 0 d
      (.ok (candidate.assembled crates)) m d' ∧ Published crates process.uid candidate d') ∧
    (¬ Ready crates process candidate d → ∃ e m d',
        Gives process.uid (publish crates process graph) 0 d (.error e) m d') := by
  obtain rfl := (prepare_ok hprepare).source
  have hdraft := drafted_of_prepare hprepare
  have hnamed := (prepare_ok hprepare).named
  have hcollide : ∀ a ∈ candidate.graph.objects, ∀ b ∈ candidate.graph.objects,
      crates.digest a.2 = crates.digest b.2 → a.2 = b.2 := fun a ha b hb hsame =>
    digest_injOn hinj ⟨a, ha, rfl⟩ ⟨b, hb, rfl⟩ hsame
  -- the two outcomes, once the store is the user's
  have howned : ∀ d₁ stat, exec process.uid .createStore d = .ok ((), d₁) → d₁.get [] = some (.directory stat) →
      stat.uid = process.uid → stat.mode &&& 0o077 = 0 → Sound crates (· = candidate) d₁ →
      (∀ p, p ≠ [] → d₁.get p = d.get p) →
      (Ready crates process candidate d → ∃ m d', Gives process.uid (publish crates process candidate.graph) 0 d
        (.ok (candidate.assembled crates)) m d' ∧ Published crates process.uid candidate d') ∧
      (d.get [] = none ∨ OwnedBy process.uid d → ¬ Ready crates process candidate d →
        ∃ e m d', Gives process.uid (publish crates process candidate.graph) 0 d (.error e) m d') := by
    intro d₁ stat hcreate hroot huid hmode hsound₁ hsame
    have hresumable : Resumable crates process.uid candidate d₁ :=
      (hsound₁.consistent ⟨stat, hroot, huid, hmode⟩).resumable (fun _ h => h) hnamed hcollide ⟨stat, hroot,
        huid, hmode⟩
    refine ⟨fun hready => ?_, fun hstore hnot => ?_⟩
    · obtain ⟨m, d', hgives, hpublished⟩ :=
        gives_publishInto hfaithful hnamed hdraft hresumable hcollide hready.lockable
        ((Unobstructed.congr hsame).mpr hready.unobstructed)
      exact ⟨m, d', gives_publish hprepare hcreate hroot huid hmode hgives, hpublished⟩
    · obtain ⟨e, m, d', hgives⟩ := @gives_publishInto_obstructed crates process 0 d₁ candidate hfaithful hnamed
        hdraft hresumable hcollide fun h => hnot ⟨hstore, h.1, (Unobstructed.congr hsame).mp h.2⟩
      exact ⟨e, m, d', gives_publish hprepare hcreate hroot huid hmode hgives⟩
  cases hroot : d.get [] with
  | none =>
    have hcreate : exec process.uid .createStore d = .ok ((), d.set [] (ownDirectory process.uid)) := by
      simp only [exec, hroot]
    have hchange : Change crates (· = candidate) (fun _ => True) d (d.set [] (ownDirectory process.uid)) :=
      change_createStore hsound hcreate
    obtain ⟨hready, hnot⟩ := howned _ _ hcreate (by rw [Disk.get_set, if_pos rfl]) rfl
      (by decide : (0o700 : Nat) &&& 0o077 = 0) (hchange.sound hsound) fun p hp => by rw [Disk.get_set, if_neg hp]
    exact ⟨hready, hnot (.inl hroot)⟩
  | some node =>
    obtain ⟨stat, rfl⟩ : ∃ stat, node = .directory stat := by
      rcases hsound with hhollow | ⟨uid, ⟨stat, hget, -⟩, -⟩
      · exact (hhollow [] node hroot).2
      · exact ⟨stat, Option.some.inj (hroot.symm.trans hget)⟩
    by_cases hprivate : stat.uid = process.uid ∧ stat.mode &&& 0o077 = 0
    · have hcreate : exec process.uid .createStore d = .ok ((), d) := by
        simp only [exec, hroot]
      obtain ⟨hready, hnot⟩ := howned d stat hcreate hroot hprivate.1 hprivate.2 hsound fun _ _ => rfl
      exact ⟨hready, hnot (.inr ⟨stat, hroot, hprivate⟩)⟩
    · refine ⟨fun hready => ?_, fun _ => ?_⟩
      · rcases hready.store with hnone | ⟨stat', hget, hown⟩
        · rw [hroot] at hnone
          cases hnone
        · obtain rfl := Node.directory.inj (Option.some.inj (hroot.symm.trans hget))
          exact absurd hown hprivate
      · obtain ⟨e, hgives⟩ :=
          @gives_publish_foreign crates candidate.graph candidate d process 0 stat hprepare hroot hprivate
        exact ⟨e, _, _, hgives⟩

/-- A process whose staging names nothing in the store carries is not obstructed. -/
theorem unobstructed_of_fresh {process : Process}
    (hfresh : ∀ path node, d.get path = some node → ¬ Mine process path) :
    Unobstructed crates process candidate 0 d := by
  have hfree : ∀ dir ∈ storeDirectories, ∀ base m, d.get (dir ++ [stagingAt process base m]) = none := by
    intro dir hdir base m
    cases hget : d.get (dir ++ [stagingAt process base m]) with
    | none => rfl
    | some node => exact absurd ⟨_, ⟨base, m, rfl⟩, dir, hdir, [], rfl⟩ (hfresh _ node hget)
  exact ⟨fun k digest _ => hfree _ (by decide) _ _, hfree derivedDirectory (by decide) _ _,
    hfree _ (by decide) _ _⟩

end Retry

theorem faithful_sampleCodec {α : Type} [DecidableEq α] (value : α)
    (json : Text) : (sampleCodec value json).Faithful := by
  intro given bytes hwritten
  simp only [sampleCodec] at hwritten ⊢
  split at hwritten
  · next hsame =>
    obtain rfl := Except.ok.inj hwritten
    rw [if_pos rfl, hsame]
  · cases hwritten

theorem faithful_tableCodec {α : Type} [DecidableEq α] {values : List α} {json : α → Text}
    (h : ∀ value ∈ values, (tableCodec values json).fromSlice (json value ++ [10]) = .ok value) :
    (tableCodec values json).Faithful := by
  intro value bytes hwritten
  by_cases hmem : value ∈ values
  · rw [show (tableCodec values json).toVec value = .ok (json value) from if_pos hmem] at hwritten
    rw [← Except.ok.inj hwritten]
    exact h value hmem
  · rw [show (tableCodec values json).toVec value = .error (utf8 "not part of the sample") from if_neg hmem]
      at hwritten
    cases hwritten

theorem sampleCrates_faithful : sampleCrates.Faithful :=
  ⟨faithful_sampleCodec _ _, faithful_sampleCodec _ _, faithful_sampleCodec _ _⟩

/-- **Publishing again after crashes.**  On what any number of crashed, failed or concurrent runs of a graph
left, a run returns what it would on an empty store, and leaves a complete store, exactly if the store is
missing or the user's private directory, the lock can be written and no staging name that the run draws is
taken; a process whose staging names nothing in the store carries has none taken. -/
theorem publish_retried (crates : Crates) (hfaithful : crates.Faithful) (graph : WorkloadGraph)
    (candidate : Candidate) (hprepare : prepare crates graph = .ok candidate)
    (hinj : Set.InjOn crates.sha256 { data | ∃ object ∈ graph.objects, object.2 = data }) (d : Disk)
    (hreached : Reached crates graph d) (process : Process) :
    ((∃ assembled, ((publish crates process graph).run (perform process.uid) 0 d).1.1 = .ok assembled) ↔
      Ready crates process candidate d) ∧
    (∀ assembled, ((publish crates process graph).run (perform process.uid) 0 d).1.1 = .ok assembled →
      assembled = candidate.assembled crates ∧
        ((publish crates process graph).run (perform process.uid) 0 d).2.get closureAt =
          some (ownFile process.uid candidate.closureBytes) ∧
        Complete crates candidate.closure candidate.closureBytes
          ((publish crates process graph).run (perform process.uid) 0 d).2) ∧
    ((∀ path node, d.get path = some node → ¬ Mine process path) → Unobstructed crates process candidate 0 d) := by
  obtain ⟨hready, hnot⟩ := @gives_publish_sound crates graph candidate d process hfaithful hprepare hinj
    (hreached.sound hprepare hinj)
  refine ⟨⟨fun ⟨assembled, hok⟩ => ?_, fun h => ?_⟩, fun assembled hok => ?_, unobstructed_of_fresh⟩
  · by_contra h
    obtain ⟨e, m, d', hgives⟩ := hnot h
    rw [hgives] at hok
    cases hok
  · obtain ⟨m, d', hgives, -⟩ := hready h
    exact ⟨_, by rw [hgives]⟩
  · by_cases h : Ready crates process candidate d
    · obtain ⟨m, d', hgives, hpublished⟩ := hready h
      rw [hgives] at hok ⊢
      obtain rfl := Except.ok.inj hok
      exact ⟨rfl, hpublished.closure, (prepare_ok hprepare).complete hpublished.verified hpublished.retained⟩
    · obtain ⟨e, m, d', hgives⟩ := hnot h
      rw [hgives] at hok
      cases hok

/-- The sample store after a run by process 4711 that stopped behind its 21st operation. -/
def crashedStore (graph : WorkloadGraph) : Disk :=
  (Prog.scheduled (fun _ : Unit => perform 1000) (List.replicate 21 ())
    (fun _ => publish sampleCrates (sampleProcess false) graph 0, .absent)).2

/-- Behind that crash a process with another id publishes, and one with the same id does not. -/
theorem publish_retried_sample : ∃ graph candidate, prepare sampleCrates graph = .ok candidate ∧
    Reached sampleCrates graph (crashedStore graph) ∧
      ¬ Ready sampleCrates (sampleProcess false) candidate (crashedStore graph) ∧
    Ready sampleCrates (sampleProcess true) candidate (crashedStore graph) ∧
    Complete sampleCrates candidate.closure candidate.closureBytes
      ((publish sampleCrates (sampleProcess true) graph).run (perform 1000) 0 (crashedStore graph)).2 := by
  have hrun : (binaryGraphOf sampleCrates sampleSource sampleExecutable).toOption.map (fun graph =>
      ((prepare sampleCrates graph).isOk,
        ((publish sampleCrates (sampleProcess false) graph).run (perform 1000) 0 (crashedStore graph)).1.1.isOk,
        ((publish sampleCrates (sampleProcess true) graph).run (perform 1000) 0 (crashedStore graph)).1.1.isOk,
        decide (∀ a ∈ graph.objects, ∀ b ∈ graph.objects, sampleSha256 a.2 = sampleSha256 b.2 → a.2 = b.2))) =
          some (true, false, true, true) := by decide +kernel
  obtain ⟨graph, -, hfields⟩ := exists_ok_of_map hrun
  simp only [Prod.mk.injEq, decide_eq_true_eq] at hfields
  obtain ⟨hprepared, hsame, hother, hcollide⟩ := hfields
  obtain ⟨candidate, hprepare⟩ := exists_eq_ok hprepared
  have hinj : Set.InjOn sampleCrates.sha256 { data | ∃ object ∈ graph.objects, object.2 = data } := by
    rintro _ ⟨a, ha, rfl⟩ _ ⟨b, hb, rfl⟩ hdigest
    exact hcollide a ha b hb hdigest
  have hreached : Reached sampleCrates graph (crashedStore graph) := by
    have hempty : Hollow .absent := fun path node hget => by cases hget
    have hsteps : Prog.Steps (fun _ : Unit => Does (sampleProcess false).uid)
        (fun _ => publish sampleCrates (sampleProcess false) graph 0, .absent) (_, crashedStore graph) :=
      Prog.Steps.scheduled (fun _ => does_perform 1000) (List.replicate 21 ()) (.refl _)
    exact .episode (.fresh hempty) (fun i j hij => absurd rfl hij) hsteps
  obtain ⟨hready, hleft, -⟩ := publish_retried sampleCrates sampleCrates_faithful graph candidate hprepare hinj
    (crashedStore graph) hreached (sampleProcess true)
  have hfails := (publish_retried sampleCrates sampleCrates_faithful graph candidate hprepare hinj
    (crashedStore graph) hreached (sampleProcess false)).1
  obtain ⟨assembled, hassembled⟩ := exists_eq_ok hother
  refine ⟨graph, candidate, hprepare, hreached, fun hblocked => ?_, hready.mp ⟨assembled, hassembled⟩,
    (hleft assembled hassembled).2.2⟩
  obtain ⟨returned, hreturned⟩ := hfails.mpr hblocked
  rw [show (sampleProcess false).uid = 1000 from rfl] at hreturned
  rw [hreturned] at hsame
  cases hsame

end SimFerret.Store
