import SimFerret.Store.Invariant

/-!
# SimFerret.Store.Triples — what each routine of a publication does, whatever others do

A run owns the hidden names it drew.  It relies on other runs to leave what lies beneath those names alone, and
to make only `Transition`s otherwise; it makes only `Transition`s itself.

* `Keeps`: the triple of a run's routine, with the staged paths it may touch.
* `keeps_frame`: a fact that neither the others nor the routine disturb is carried across it.
* `keeps_openRegular` … `keeps_removeIfExists`: the routines of `Root`.
-/

namespace SimFerret.Store

open Workload

/-- A staging name that the run draws. -/
def Owned (process : Process) (name : Text) : Prop :=
  ∃ base n, name = stagingName base process.pid (process.ticket n)

/-- A path at or beneath a staging name that the run draws. -/
def Mine (process : Process) (path : Path) : Prop := ∃ name, Owned process name ∧ Beneath name path

theorem Owned.hidden {process : Process} {name : Text} (h : Owned process name) : Hidden name := by
  obtain ⟨base, n, rfl⟩ := h
  exact head_stagingName base process.pid (process.ticket n)

theorem Mine.staged {process : Process} {path : Path} (h : Mine process path) : Staged path := by
  obtain ⟨name, hname, hpath⟩ := h
  exact hpath.staged hname.hidden

/-- What a run relies on. -/
abbrev Rely (crates : Crates) (known : Candidate → Prop) (process : Process) : Disk → Disk → Prop :=
  Transition crates process.uid known fun path => ¬ Mine process path

/-- A fact that other runs leave true. -/
abbrev Steady (crates : Crates) (known : Candidate → Prop) (process : Process) (fact : Disk → Prop) : Prop :=
  Routine.Stable (Rely crates known process) (Consistent crates process.uid known) fact

/-- A fact that a routine leaves true which touches only `touch`. -/
abbrev Firm (crates : Crates) (known : Candidate → Prop) (process : Process) (touch : Path → Prop)
    (fact : Disk → Prop) : Prop := Routine.Stable (Transition crates process.uid known touch)
    (Consistent crates process.uid known) fact

/-- The triple of a routine of a run that touches only `touch` of the staged paths. -/
def Keeps (crates : Crates) (known : Candidate → Prop) (process : Process) (touch : Path → Prop) {α : Type}
    (pre : Disk → Prop) (x : Action α) (post : α → Disk → Prop) : Prop :=
  Routine.Meets (Does process.uid) (Rely crates known process) (Transition crates process.uid known touch)
    (Consistent crates process.uid known) pre x post

section Rules

variable {crates : Crates} {known : Candidate → Prop} {process : Process} {touch touch' : Path → Prop} {α β : Type}
  {pre fact : Disk → Prop} {post : α → Disk → Prop}

theorem rely_refl (d : Disk) : Rely crates known process d d := Transition.refl d

theorem rely_base (d d' : Disk) (hd : Consistent crates process.uid known d) (h : Rely crates known process d d') :
    Consistent crates process.uid known d' := (h hd).2.2

/-! ## Facts -/

theorem firm_const {p : Prop} : Firm crates known process touch fun _ => p := fun _ _ _ _ hp => hp

theorem firm_of_lasting (h : Lasting fact) : Firm crates known process touch fact :=
  fun d d' hd ht hf => h d d' (ht hd).1 hf

theorem firm_and {fact' : Disk → Prop} (h : Firm crates known process touch fact)
    (h' : Firm crates known process touch fact') : Firm crates known process touch fun d => fact d ∧ fact' d :=
  fun d d' hd ht hf => ⟨h d d' hd ht hf.1, h' d d' hd ht hf.2⟩

theorem firm_imp {p : Prop} (h : p → Firm crates known process touch fact) :
    Firm crates known process touch fun d => p → fact d := fun d d' hd ht hf hp => h hp d d' hd ht (hf hp)

theorem firm_forall {p : α → Prop} (h : ∀ a, p a → Firm crates known process touch (post a)) :
    Firm crates known process touch fun d => ∀ a, p a → post a d :=
  fun d d' hd ht hf a ha => h a ha d d' hd ht (hf a ha)

theorem firm_forall₂ {p : α → β → Prop} {post : α → β → Disk → Prop}
    (h : ∀ a b, p a b → Firm crates known process touch (post a b)) :
    Firm crates known process touch fun d => ∀ a b, p a b → post a b d :=
  fun d d' hd ht hf a b hab => h a b hab d d' hd ht (hf a b hab)

/-- A node of the run's own that the routine does not touch. -/
theorem firm_get {path : Path} (h : Mine process path) (ht : ¬ touch path) (value : Option Node) :
    Firm crates known process touch fun d => d.get path = value := by
  intro d d' hd htouch hg
  obtain ⟨name, hname, hpath⟩ := h
  rw [(htouch hd).2.1 name hname.hidden path hpath ht, hg]

/-- What lies beneath the run's own names is left alone by the others. -/
theorem steady_get {path : Path} (h : Mine process path) (value : Option Node) :
    Steady crates known process fun d => d.get path = value := firm_get h (not_not.mpr h) value

/-! ## Rules -/

/-- What the precondition says of more than the disk may be assumed. -/
theorem keeps_given {p : Prop} {x : Action α} (hp : ∀ d, Consistent crates process.uid known d → pre d → p)
    (h : p → Keeps crates known process touch pre x post) : Keeps crates known process touch pre x post :=
  fun n d hd hpre => h (hp d hd hpre) n d hd hpre

theorem keeps_pure {a : α} (hpre : Steady crates known process pre)
    (h : ∀ d, Consistent crates process.uid known d → pre d → post a d) :
    Keeps crates known process touch pre (pure a) post := Routine.Meets.pure rely_base hpre h

theorem keeps_lift {x : IoResult α} (hpre : Steady crates known process pre)
    (h : ∀ a, x = .ok a → ∀ d, Consistent crates process.uid known d → pre d → post a d) :
    Keeps crates known process touch pre (monadLift x) post := Routine.Meets.lift rely_base hpre h

theorem keeps_fail {e : IoError} (hpre : Steady crates known process pre) :
    Keeps crates known process touch pre (fail e : Action α) post :=
  keeps_lift hpre fun a h => by cases h

theorem keeps_bind {mid : α → Disk → Prop} {post : β → Disk → Prop} {x : Action α} {f : α → Action β}
    (hx : Keeps crates known process touch pre x mid)
    (hf : ∀ a, Keeps crates known process touch (mid a) (f a) post) :
    Keeps crates known process touch pre (x >>= f) post := Routine.Meets.bind rely_refl rely_base hx hf

theorem keeps_weaken {pre' : Disk → Prop} {post' : α → Disk → Prop} {x : Action α}
    (h : Keeps crates known process touch pre x post)
    (hpre : ∀ d, Consistent crates process.uid known d → pre' d → pre d)
    (hpost : ∀ a d, Consistent crates process.uid known d → post a d → post' a d) :
    Keeps crates known process touch pre' x post' := Routine.Meets.pre_post h hpre hpost

theorem keeps_attempt {x : Action α} (hpost : ∀ a, Steady crates known process (post a))
    (hx : Keeps crates known process touch pre x post) :
    Keeps crates known process touch pre x.attempt fun r d => ∀ a, r = .ok a → post a d :=
  Routine.Meets.attempt rely_refl rely_base hpost hx

/-- A fact that neither the others nor the routine disturb is carried across the routine. -/
theorem keeps_frame {x : Action α} (hsteady : Steady crates known process fact)
    (hfirm : Firm crates known process touch fact) (hx : Keeps crates known process touch pre x post) :
    Keeps crates known process touch (fun d => pre d ∧ fact d) x fun a d => post a d ∧ fact d :=
  Routine.Meets.frame (fun d d' hr h => ⟨(hr h.1).2.2, hsteady d d' h.1 hr h.2⟩)
    (fun d d' hg h => ⟨(hg h.1).2.2, hfirm d d' h.1 hg h.2⟩) hx

/-- A routine may be said to touch more. -/
theorem keeps_touch {x : Action α} (ht : ∀ path, touch path → touch' path)
    (hx : Keeps crates known process touch pre x post) : Keeps crates known process touch' pre x post :=
  Routine.Meets.guar_mono (fun _ _ h => h.mono fun _ _ path _ hp => ht path hp) hx

/-- The rule of one system call that writes no data. -/
theorem keeps_kernel {op : Op} {post : op.Value → Disk → Prop} (hop : ∀ path data, op ≠ .write path data)
    (hpre : Steady crates known process pre) (hpost : ∀ value, Steady crates known process (post value))
    (hdone : ∀ d value d', Consistent crates process.uid known d → pre d →
      exec process.uid op d = .ok (value, d') → Transition crates process.uid known touch d d' ∧ post value d') :
    Keeps crates known process touch pre (kernel op) fun reply d => ∀ value, reply = .ok value → post value d := by
  refine Routine.Meets.call rely_base hpre (fun reply => firm_forall fun value _ =>
    hpost value) fun d reply d' hd hp hdoes => ?_
  cases hdoes with
  | done h =>
    obtain ⟨ht, hq⟩ := hdone d _ d' hd hp h
    refine ⟨ht, (ht hd).2.2, fun value hvalue => ?_⟩
    cases hvalue
    exact hq
  | failed => exact ⟨Transition.refl d, hd, fun value hvalue => by cases hvalue⟩
  | torn path data => exact absurd rfl (hop path data)

theorem keeps_syscall {op : Op} {error : Errno → IoError} {post : op.Value → Disk → Prop}
    (hpost : ∀ value, Steady crates known process (post value))
    (hcall : Keeps crates known process touch pre (kernel op) fun reply d => ∀ value, reply = .ok value →
      post value d) : Keeps crates known process touch pre (syscall op error) post := by
  refine keeps_bind hcall fun reply => ?_
  have hsteady : Steady crates known process fun d => ∀ value, reply = .ok value → post value d :=
    firm_forall fun value _ => hpost value
  cases reply with
  | ok value => exact keeps_pure hsteady fun d _ h => h value rfl
  | error e => exact keeps_fail hsteady

/-- A system call that only looks. -/
theorem keeps_look {op : Op} {error : Errno → IoError} (hop : ∀ path data, op ≠ .write path data)
    (hread : ∀ d value d', exec process.uid op d = .ok (value, d') → d' = d)
    (hpre : Steady crates known process pre) :
    Keeps crates known process touch pre (syscall op error) fun _ => pre := by
  refine keeps_syscall (fun _ => hpre) (keeps_kernel hop hpre (fun _ => hpre) fun d value d' _ hp h => ?_)
  rw [hread d value d' h]
  exact ⟨Transition.refl d, hp⟩

/-- A fallible computation between system calls. -/
theorem keeps_try {post : β → Disk → Prop} {x : IoResult α} {f : α → Action β}
    (hpre : Steady crates known process pre)
    (h : ∀ a, x = .ok a → Keeps crates known process touch pre (f a) post) :
    Keeps crates known process touch pre (monadLift x >>= f) post := by
  cases x with
  | ok a => exact h a rfl
  | error e => exact keeps_fail hpre

theorem keeps_require {post : β → Disk → Prop} {c : Bool} {e : IoError} {f : Unit → Action β}
    (hpre : Steady crates known process pre) (h : c = true → Keeps crates known process touch pre (f ()) post) :
    Keeps crates known process touch pre (monadLift (require c e) >>= f) post :=
  keeps_try hpre fun _ ha => h (require_eq_ok.mp ha)

theorem keeps_mapErr {f : IoError → IoError} {x : Action α} (hpost : ∀ a, Steady crates known process (post a))
    (hx : Keeps crates known process touch pre x post) :
    Keeps crates known process touch pre (mapErr f x) post := by
  refine keeps_bind (keeps_attempt hpost hx) fun r => ?_
  have hsteady : Steady crates known process fun d => ∀ a, r = .ok a → post a d := firm_forall fun a _ => hpost a
  cases r with
  | ok a => exact keeps_pure hsteady fun d _ h => h a rfl
  | error e => exact keeps_fail hsteady

/-- A routine whose result is not looked at. -/
theorem keeps_ignored {x : Action Unit} (hx : Keeps crates known process touch pre x fun _ _ => True) :
    Keeps crates known process touch pre (ignored x) fun _ _ => True :=
  keeps_bind (keeps_attempt (fun _ => firm_const) hx) fun _ =>
    keeps_pure (firm_forall fun _ _ => firm_const) fun _ _ _ => trivial

theorem keeps_forEach {f : β → Action Unit} : ∀ (l : List β),
    (∀ b ∈ l, Keeps crates known process touch (fun _ => True) (f b) fun _ _ => True) →
    Keeps crates known process touch (fun _ => True) (Routine.forEach f l) fun _ _ => True
  | [], _ => keeps_pure firm_const fun _ _ _ => trivial
  | b :: l, hf => keeps_bind (hf b List.mem_cons_self) fun _ =>
      keeps_forEach l fun other hother => hf other (List.mem_cons_of_mem b hother)

/-- A loop each of whose steps establishes a lasting fact. -/
theorem keeps_forEach_lasting {f : β → Action Unit} {fact : β → Disk → Prop} (hlasting : ∀ b, Lasting (fact b))
    {l : List β} (hf : ∀ b ∈ l, Keeps crates known process touch (fun _ => True) (f b) fun _ d => fact b d) :
    Keeps crates known process touch (fun _ => True) (Routine.forEach f l) fun _ d => ∀ b ∈ l, fact b d := by
  have hall : Keeps crates known process touch (fun _ => True) (Routine.forEach f l) fun _ d => True ∧
      ∀ b ∈ l, fact b d :=
    Routine.Meets.forEach rely_refl rely_base firm_const
      (fun b d d' hr h => ⟨rely_base d d' h.1 hr, hlasting b d d' (hr h.1).1 h.2⟩)
      (fun b d d' hg h => ⟨(hg h.1).2.2, hlasting b d d' (hg h.1).1 h.2⟩)
      fun b hb => keeps_weaken (hf b hb) (fun _ _ h => h) fun _ _ _ h => ⟨trivial, h⟩
  exact keeps_weaken hall (fun _ _ h => h) fun _ _ _ h => h.2

end Rules

/-! ## Reading -/

/-- A routine that only looks touches nothing. -/
abbrev Nothing : Path → Prop := fun _ => False

section Reading

variable {crates : Crates} {known : Candidate → Prop} {process : Process} {touch : Path → Prop} {α : Type}
  {fact : Disk → Prop} {post : α → Disk → Prop} {relative : Text} {parent : Path} {name : Text}

theorem firm_nothing (hfact : Steady crates known process fact) : Firm crates known process Nothing fact :=
  fun d d' hd ht hf => hfact d d' hd (ht.mono fun _ _ _ _ hno => False.elim hno) hf

/-- What the others leave true is carried across a routine that touches nothing. -/
theorem keeps_carry {x : Action α} (hfact : Steady crates known process fact)
    (hx : Keeps crates known process Nothing (fun _ => True) x post) :
    Keeps crates known process touch fact x fun a d => post a d ∧ fact d := by
  refine keeps_touch (fun _ hno => False.elim hno) ?_
  exact keeps_weaken (keeps_frame hfact (firm_nothing hfact) hx) (fun _ _ hf => ⟨trivial, hf⟩) fun _ _ _ h => h

theorem exec_openDirectory {uid : Nat} {dir : Path} {value : Unit} {d d' : Disk}
    (h : exec uid (.openDirectory dir name) d = .ok (value, d')) : d' = d := by
  simp only [exec] at h
  split at h <;> cases h
  rfl

theorem exec_fstat {uid : Nat} {dir : Path} {stat : Stat} {d d' : Disk}
    (h : exec uid (.fstat dir) d = .ok (stat, d')) : d' = d ∧ d.get dir = some (.directory stat) := by
  simp only [exec] at h
  split at h <;> cases h
  exact ⟨rfl, ‹_›⟩

theorem exec_openFile {uid : Nat} {dir : Path} {node : Node} {d d' : Disk}
    (h : exec uid (.openFile dir name) d = .ok (node, d')) : d' = d ∧ d.get (dir ++ [name]) = some node := by
  simp only [exec] at h
  split at h <;> cases h
  exact ⟨rfl, ‹_›⟩

theorem exec_statat {uid : Nat} {dir : Path} {value : Unit} {d d' : Disk}
    (h : exec uid (.statat dir name) d = .ok (value, d')) : d' = d := by
  simp only [exec] at h
  split_ifs at h
  cases h
  rfl

theorem exec_unlink {uid : Nat} {dir : Path} {value : Unit} {d d' : Disk}
    (h : exec uid (.unlink dir name) d = .ok (value, d')) :
    d' = d.erase (dir ++ [name]) ∧ d.isDirectory (dir ++ [name]) = false := by
  simp only [exec] at h
  split at h
  · cases h
  · cases h
  next node hnode hfile =>
    obtain ⟨-, rfl⟩ := Prod.mk.inj (Except.ok.inj h)
    refine ⟨rfl, ?_⟩
    cases node <;> simp_all [Disk.isDirectory]

theorem exec_removeDirectory {uid : Nat} {dir : Path} {value : Unit} {d d' : Disk}
    (h : exec uid (.removeDirectory dir name) d = .ok (value, d')) :
    d' = d.erase (dir ++ [name]) ∧ d.childless (dir ++ [name]) = true := by
  simp only [exec] at h
  split at h
  · cases h
  · split_ifs at h with hempty
    obtain ⟨-, rfl⟩ := Prod.mk.inj (Except.ok.inj h)
    exact ⟨rfl, hempty⟩
  · cases h

theorem keeps_openBeneath : ∀ (components : List Text) (current : Path),
    Keeps crates known process Nothing (fun _ => True) (Root.openBeneath current components)
      fun dir _ => dir = current ++ components
  | [], current => keeps_pure firm_const fun d _ hp => (List.append_nil current).symm
  | component :: rest, current => by
    refine keeps_bind (keeps_look (by rintro _ _ ⟨⟩) (fun _ _ _ => exec_openDirectory) firm_const) fun _ => ?_
    refine keeps_weaken (keeps_openBeneath rest (current ++ [component])) (fun _ _ h => h) fun dir d _ h => ?_
    rw [h, List.append_assoc, List.singleton_append]

/-- A published file that was opened is there, and stays. -/
theorem keeps_openRegular (hsplit : splitRelative relative = .ok (parent, name))
    (hpub : ¬ Staged (parent ++ [name])) : Keeps crates known process Nothing (fun _ => True)
    (Root.openRegular ⟨[]⟩ relative) fun r d =>
      ∀ stat data, r = some (stat, data) → d.get (parent ++ [name]) = some (.file stat data) := by
  have hnode : ∀ node, Steady crates known process fun d => d.get (parent ++ [name]) = some node :=
    fun node => firm_of_lasting (lasting_get hpub node)
  refine keeps_try firm_const fun pair hpair => ?_
  rw [hsplit] at hpair
  obtain rfl := Except.ok.inj hpair
  refine keeps_bind (keeps_attempt (fun _ => firm_const) (keeps_openBeneath parent [])) fun r => ?_
  have hsteady : Steady crates known process fun _ => ∀ dir, r = .ok dir → dir = [] ++ parent := firm_const
  cases r with
  | error e =>
    dsimp only
    split
    · exact keeps_pure hsteady fun _ _ _ _ _ h => by cases h
    · exact keeps_fail hsteady
  | ok directory =>
    refine keeps_given (fun _ _ h => h directory rfl) fun hdirectory => ?_
    rw [List.nil_append] at hdirectory
    subst hdirectory
    have hcall : Keeps crates known process Nothing (fun _ => True)
        (kernel (.openFile directory name)) fun reply d => ∀ node, reply = .ok node →
          d.get (directory ++ [name]) = some node := by
      refine keeps_kernel (by rintro _ _ ⟨⟩) firm_const hnode fun d node d' _ _ h => ?_
      obtain ⟨rfl, hget⟩ := exec_openFile h
      exact ⟨Transition.refl d', hget⟩
    refine keeps_bind (keeps_weaken hcall (fun _ _ _ => trivial) fun _ _ _ h => h) fun reply => ?_
    · have hopened : Steady crates known process fun d => ∀ node, reply = .ok node →
          d.get (directory ++ [name]) = some node :=
        firm_forall fun node _ => hnode node
      split
      · exact keeps_pure hopened fun _ _ _ _ _ h => by cases h
      · exact keeps_fail hopened
      · refine keeps_pure hopened fun d _ h stat data heq => ?_
        obtain ⟨rfl, rfl⟩ := Prod.mk.inj (Option.some.inj heq)
        exact h _ rfl
      · exact keeps_fail hopened

/-- The file at `path` is this one, and within the limit. -/
structure HeldAt (path : Path) (limit : Nat) (data : Bytes) (d : Disk) : Prop where
  file : ∃ stat, d.get path = some (.file stat data)
  within : data.length ≤ limit

theorem HeldAt.lasting {path : Path} (hpub : ¬ Staged path) (limit : Nat) (data : Bytes) :
    Lasting (HeldAt path limit data) := by
  rintro d d' hk ⟨⟨stat, hfile⟩, hwithin⟩
  exact ⟨⟨stat, hk _ _ hpub hfile⟩, hwithin⟩

variable {limit : Nat}

theorem keeps_readFileIfExists (hsplit : splitRelative relative = .ok (parent, name))
    (hpub : ¬ Staged (parent ++ [name])) :
    Keeps crates known process Nothing (fun _ => True) (Root.readFileIfExists ⟨[]⟩ relative limit) fun r d =>
      ∀ data, r = some data → HeldAt (parent ++ [name]) limit data d := by
  have hsteady : ∀ r : Option (Stat × Bytes), Steady crates known process fun d =>
      ∀ stat data, r = some (stat, data) → d.get (parent ++ [name]) = some (.file stat data) :=
    fun r => firm_forall₂ fun stat data _ => firm_of_lasting (lasting_get hpub _)
  refine keeps_bind (keeps_openRegular hsplit hpub) fun r => ?_
  cases r with
  | none => exact keeps_pure (hsteady none) fun _ _ _ _ h => by cases h
  | some opened =>
    refine keeps_require (hsteady (some opened)) fun hlimit =>
      keeps_pure (hsteady (some opened)) fun d _ h data hdata => ?_
    obtain rfl := Option.some.inj hdata
    exact ⟨⟨opened.1, h _ _ rfl⟩, by simpa using hlimit⟩

theorem keeps_readFile (hsplit : splitRelative relative = .ok (parent, name))
    (hpub : ¬ Staged (parent ++ [name])) : Keeps crates known process Nothing (fun _ => True)
    (Root.readFile ⟨[]⟩ relative limit)
      (HeldAt (parent ++ [name]) limit) := by
  have hsteady : ∀ r, Steady crates known process fun d => ∀ data, r = some data →
      HeldAt (parent ++ [name]) limit data d :=
    fun r => firm_forall fun data _ => firm_of_lasting (HeldAt.lasting hpub limit data)
  refine keeps_bind (keeps_readFileIfExists hsplit hpub) fun r => ?_
  cases r with
  | none => exact keeps_fail (hsteady none)
  | some data => exact keeps_pure (hsteady (some data)) fun _ _ h => h data rfl

theorem keeps_readRequired {what : Text} (hsplit : splitRelative relative = .ok (parent, name))
    (hpub : ¬ Staged (parent ++ [name])) :
    Keeps crates known process Nothing (fun _ => True) (readRequired ⟨[]⟩ relative limit what)
      (HeldAt (parent ++ [name]) limit) :=
  keeps_mapErr (fun data => firm_of_lasting (HeldAt.lasting hpub limit data)) (keeps_readFile hsplit hpub)

theorem keeps_sha256File (digest : Bytes → Text) (hsplit : splitRelative relative = .ok (parent, name))
    (hpub : ¬ Staged (parent ++ [name])) :
    Keeps crates known process Nothing (fun _ => True) (Root.sha256File digest ⟨[]⟩ relative limit) fun r d =>
      ∃ data, HeldAt (parent ++ [name]) limit data d ∧ r = digest data := by
  have hsteady : ∀ r : Option (Stat × Bytes), Steady crates known process fun d =>
      ∀ stat data, r = some (stat, data) → d.get (parent ++ [name]) = some (.file stat data) :=
    fun r => firm_forall₂ fun stat data _ => firm_of_lasting (lasting_get hpub _)
  refine keeps_bind (keeps_openRegular hsplit hpub) fun r => ?_
  cases r with
  | none => exact keeps_fail (hsteady none)
  | some opened =>
    refine keeps_require (hsteady (some opened)) fun hlimit => keeps_pure (hsteady (some opened)) fun d _ h => ?_
    exact ⟨opened.2, ⟨⟨opened.1, h _ _ rfl⟩, by simpa using hlimit⟩, rfl⟩

theorem keeps_requirePrivateFile (hsplit : splitRelative relative = .ok (parent, name))
    (hpub : ¬ Staged (parent ++ [name])) :
    Keeps crates known process Nothing (fun _ => True)
        (Root.requirePrivateFile process ⟨[]⟩ relative) fun _ _ => True := by
  refine keeps_weaken (keeps_bind (keeps_openRegular hsplit hpub) fun r => ?_) (fun _ _ h => h) fun _ _ _ h => h
  have hsteady : Steady crates known process fun d =>
      ∀ stat data, r = some (stat, data) → d.get (parent ++ [name]) = some (.file stat data) :=
    firm_forall₂ fun stat data _ => firm_of_lasting (lasting_get hpub _)
  cases r with
  | none => exact keeps_fail hsteady
  | some opened => exact keeps_lift hsteady fun _ _ _ _ _ => trivial

theorem keeps_requirePrivateDirectory (relative : Text) :
    Keeps crates known process Nothing (fun _ => True) (Root.requirePrivateDirectory process ⟨[]⟩ relative)
      fun _ _ => True := by
  have hopen : Keeps crates known process Nothing (fun _ => True)
      (Root.openDirectory ⟨[]⟩ relative) fun _ _ => True :=
    keeps_try firm_const fun parts _ => keeps_bind (keeps_openBeneath parts []) fun _ =>
      keeps_pure firm_const fun _ _ _ => trivial
  refine keeps_bind hopen fun directory => ?_
  refine keeps_bind (keeps_look (by rintro _ _ ⟨⟩) (fun _ _ _ h => (exec_fstat h).1) firm_const) fun stat => ?_
  exact keeps_lift firm_const fun _ _ _ _ _ => trivial

theorem keeps_entryExists (relative : Text) :
    Keeps crates known process Nothing (fun _ => True) (Root.entryExists ⟨[]⟩ relative) fun _ _ => True := by
  refine keeps_try firm_const fun pair _ => keeps_bind (keeps_openBeneath pair.1 []) fun directory => ?_
  have hcall : Keeps crates known process Nothing (fun _ => directory = [] ++ pair.1)
      (kernel (.statat directory pair.2)) fun reply _ => ∀ value, reply = .ok value → True :=
    keeps_kernel (by rintro _ _ ⟨⟩) firm_const (fun _ => firm_const) fun d _ d' _ _ h => by
      rw [exec_statat h]
      exact ⟨Transition.refl d, trivial⟩
  refine keeps_bind hcall fun reply => ?_
  split
  · exact keeps_pure firm_const fun _ _ _ => trivial
  · exact keeps_pure firm_const fun _ _ _ => trivial
  · exact keeps_fail firm_const

end Reading

end SimFerret.Store
