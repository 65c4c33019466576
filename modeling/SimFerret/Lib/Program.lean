/-!
# SimFerret.Lib.Program — programs of atomic operations, run alone or interleaved

A program is a tree of calls to an interface of atomic operations.  It runs alone (`run`), and several programs
on one state interleave operation by operation (`Steps`); one that is not stepped any more has stopped.

* `Returns`: the values that a program may return in any surroundings.
* `Safe`: the rely–guarantee judgment.  Whatever others do within `rely`, every operation of the program stays
  within `guar`, and a value it returns satisfies the postcondition.
* `Safe.mono`, `Safe.bind`, `Safe.frame`: the rules.
* `Safe.steps`: programs whose guarantees are each other's relies stay safe along every interleaving.
* `Safe.run`: a safe program run alone.
* `scheduled`: the interleaving of one order of turns.
* `Routine`: a fallible program with a counter of its own; `Meets` is its triple.
-/

namespace SimFerret

/-- A program over the operations `Op`, each answered by a `Reply`. -/
inductive Prog (Op : Type) (Reply : Op → Type) (α : Type) where
  | ret (value : α)
  | call (op : Op) (next : Reply op → Prog Op Reply α)

namespace Prog

variable {Op : Type} {Reply : Op → Type} {α β σ ι : Type}

def bind : Prog Op Reply α → (α → Prog Op Reply β) → Prog Op Reply β
  | ret a, f => f a
  | call op next, f => call op fun reply => (next reply).bind f

/-! ## Running alone -/

/-- Run to the end. -/
def run (perform : (op : Op) → σ → Reply op × σ) : Prog Op Reply α → σ → α × σ
  | ret a, s => (a, s)
  | call op next, s => run perform (next (perform op s).1) (perform op s).2

theorem run_bind (perform : (op : Op) → σ → Reply op × σ) (f : α → Prog Op Reply β) :
    ∀ (p : Prog Op Reply α) (s : σ),
      (p.bind f).run perform s = (f (p.run perform s).1).run perform (p.run perform s).2
  | ret _, _ => rfl
  | call op next, s => run_bind perform f (next (perform op s).1) (perform op s).2

/-- A value that the program may return, whatever its operations reply. -/
inductive Returns : Prog Op Reply α → α → Prop
  | ret (a : α) : Returns (ret a) a
  | call {op : Op} {next : Reply op → Prog Op Reply α} {a : α} (reply : Reply op) (h : Returns (next reply) a) :
      Returns (call op next) a

theorem returns_run (perform : (op : Op) → σ → Reply op × σ) :
    ∀ (p : Prog Op Reply α) (s : σ), p.Returns (p.run perform s).1
  | ret a, _ => .ret a
  | call op next, s => .call _ (returns_run perform (next (perform op s).1) (perform op s).2)

theorem Returns.of_bind {p : Prog Op Reply α} {f : α → Prog Op Reply β} {b : β} (h : (p.bind f).Returns b) :
    ∃ a, p.Returns a ∧ (f a).Returns b := by
  induction p with
  | ret a => exact ⟨a, .ret a, h⟩
  | call op next ih =>
    cases h with
    | call reply h =>
      obtain ⟨a, ha, hb⟩ := ih reply h
      exact ⟨a, .call reply ha, hb⟩

/-! ## Rely and guarantee -/

/-- Whatever happens within `rely` between its operations, the program keeps `guar` with each operation and returns
only values that satisfy `post`. -/
def Safe (does : (op : Op) → σ → Reply op → σ → Prop) (rely guar : σ → σ → Prop) (post : α → σ → Prop) :
    Prog Op Reply α → σ → Prop
  | ret a, s => ∀ s', rely s s' → post a s'
  | call op next, s => ∀ s', rely s s' → ∀ reply s'', does op s' reply s'' →
      guar s' s'' ∧ Safe does rely guar post (next reply) s''

section Rules

variable {does : (op : Op) → σ → Reply op → σ → Prop} {rely rely' guar : σ → σ → Prop} {post post' : α → σ → Prop}

theorem Safe.mono (hpost : ∀ a s, post a s → post' a s) :
    ∀ {p : Prog Op Reply α} {s : σ}, Safe does rely guar post p s → Safe does rely guar post' p s
  | ret _, _, h => fun s' hs => hpost _ _ (h s' hs)
  | call _ _, _,
    h => fun s' hs reply s'' hd => ⟨(h s' hs reply s'' hd).1, Safe.mono hpost (h s' hs reply s'' hd).2⟩

theorem Safe.guar_mono {guar' : σ → σ → Prop} (hguar : ∀ s s', guar s s' → guar' s s') :
    ∀ {p : Prog Op Reply α} {s : σ}, Safe does rely guar post p s → Safe does rely guar' post p s
  | ret _, _, h => h
  | call _ _, _, h => fun s' hs reply s'' hd =>
      ⟨hguar _ _ (h s' hs reply s'' hd).1, Safe.guar_mono hguar (h s' hs reply s'' hd).2⟩

/-- What others do within the rely leaves a safe program safe. -/
theorem Safe.disturb (htrans : ∀ s s' s'', rely s s' → rely s' s'' → rely s s'') :
    ∀ {p : Prog Op Reply α} {s s' : σ}, Safe does rely guar post p s → rely s s' → Safe does rely guar post p s'
  | ret _, _, _, h, hs => fun _ hs' => h _ (htrans _ _ _ hs hs')
  | call _ _, _, _, h, hs => fun _ hs' reply s'' hd => h _ (htrans _ _ _ hs hs') reply s'' hd

theorem Safe.bind {post : β → σ → Prop} {f : α → Prog Op Reply β} :
    ∀ {p : Prog Op Reply α} {s : σ}, (∀ s, rely s s) →
      Safe does rely guar (fun a => Safe does rely guar post (f a)) p s → Safe does rely guar post (p.bind f) s
  | ret _, s, hrefl, h => h s (hrefl s)
  | call _ _, _, hrefl, h => fun s' hs reply s'' hd =>
      ⟨(h s' hs reply s'' hd).1, Safe.bind hrefl (h s' hs reply s'' hd).2⟩

/-- What the rely and the guarantee both keep holds at the end if it held before. -/
theorem Safe.frame {fact : σ → Prop} (hrely : ∀ s s', rely s s' → fact s → fact s')
    (hguar : ∀ s s', guar s s' → fact s → fact s') :
    ∀ {p : Prog Op Reply α} {s : σ}, Safe does rely guar post p s → fact s →
      Safe does rely guar (fun a s => post a s ∧ fact s) p s
  | ret _, _, h, hf => fun s' hs => ⟨h s' hs, hrely _ _ hs hf⟩
  | call _ _, _, h, hf => fun s' hs reply s'' hd =>
      ⟨(h s' hs reply s'' hd).1, Safe.frame hrely hguar (h s' hs reply s'' hd).2
        (hguar _ _ (h s' hs reply s'' hd).1 (hrely _ _ hs hf))⟩

/-- A program that is safe where a fact holds is safe against whatever keeps the fact and is within the rely
there. -/
theorem Safe.within {fact : σ → Prop} {guar' : σ → σ → Prop}
    (hrely : ∀ s s', fact s → rely' s s' → rely s s' ∧ fact s')
    (hguar : ∀ s s', fact s → guar s s' → guar' s s' ∧ fact s') :
    ∀ {p : Prog Op Reply α} {s : σ}, fact s → Safe does rely guar post p s →
      Safe does rely' guar' (fun a s => post a s ∧ fact s) p s
  | ret _, s, hf, h => fun s' hs =>
      have hwithin := hrely s s' hf hs
      ⟨h s' hwithin.1, hwithin.2⟩
  | call _ _, s, hf, h => fun s' hs reply s'' hd =>
      have hwithin := hrely s s' hf hs
      have hnext := h s' hwithin.1 reply s'' hd
      have hkept := hguar s' s'' hwithin.2 hnext.1
      ⟨hkept.1, Safe.within hrely hguar hkept.2 hnext.2⟩

/-- A safe program run alone ends in its postcondition. -/
theorem Safe.run {perform : (op : Op) → σ → Reply op × σ}
    (hdoes : ∀ op s, does op s (perform op s).1 (perform op s).2)
    (hrefl : ∀ s, rely s s) :
    ∀ (p : Prog Op Reply α) (s : σ), Safe does rely guar post p s → post (p.run perform s).1 (p.run perform s).2
  | ret _, s, h => h s (hrefl s)
  | call op next, s, h => Safe.run hdoes hrefl (next (perform op s).1) _ (h s (hrefl s) _ _ (hdoes op s)).2

end Rules

/-! ## Interleavings -/

/-- Several programs on one state: each step performs the next operation of one of them, in the way its own
interface does. -/
inductive Steps [DecidableEq ι] (does : ι → (op : Op) → σ → Reply op → σ → Prop) :
    (ι → Prog Op Reply α) × σ → (ι → Prog Op Reply α) × σ → Prop
  | refl (c : (ι → Prog Op Reply α) × σ) : Steps does c c
  | step {c : (ι → Prog Op Reply α) × σ} {pool : ι → Prog Op Reply α} {s s' : σ} (i : ι) {op : Op}
      {next : Reply op → Prog Op Reply α} {reply : Reply op} (before : Steps does c (pool, s))
      (turn : pool i = call op next) (done : does i op s reply s') :
      Steps does c (fun j => if j = i then next reply else pool j, s')

/-- **Rely–guarantee.**  Programs whose guarantees lie within each other's relies stay safe along every
interleaving, and every state reached keeps what each guarantee keeps. -/
theorem Safe.steps [DecidableEq ι] {does : ι → (op : Op) → σ → Reply op → σ → Prop} {rely guar : ι → σ → σ → Prop}
    {post : ι → α → σ → Prop} {Inv : σ → Prop} (htrans : ∀ i s s' s'', rely i s s' → rely i s' s'' → rely i s s'')
    (hrefl : ∀ i s, rely i s s) (hothers : ∀ i j, i ≠ j → ∀ s s', guar i s s' → rely j s s')
    (hkeep : ∀ i s s', guar i s s' → Inv s → Inv s') {c c' : (ι → Prog Op Reply α) × σ} (h : Steps does c c')
    (hsafe : ∀ i, Safe (does i) (rely i) (guar i) (post i) (c.1 i) c.2) (hinv : Inv c.2) :
    (∀ i, Safe (does i) (rely i) (guar i) (post i) (c'.1 i) c'.2) ∧ Inv c'.2 := by
  induction h with
  | refl => exact ⟨hsafe, hinv⟩
  | @step pool s s' i op next reply _ turn done ih =>
    obtain ⟨hall, hs⟩ := ih
    have hi : Safe (does i) (rely i) (guar i) (post i) (pool i) s := hall i
    rw [turn] at hi
    obtain ⟨hg, hnext⟩ := hi s (hrefl i s) reply s' done
    refine ⟨fun j => ?_, hkeep i s s' hg hs⟩
    by_cases hj : j = i
    · subst hj
      simpa using hnext
    · simp only [hj, if_false]
      exact (hall j).disturb (htrans j) (hothers i j (Ne.symm hj) s s' hg)

/-- The programs stepped in the order of `turns`; the turn of one that has returned passes. -/
def scheduled [DecidableEq ι] (perform : ι → (op : Op) → σ → Reply op × σ) :
    List ι → (ι → Prog Op Reply α) × σ → (ι → Prog Op Reply α) × σ
  | [], c => c
  | i :: turns, c =>
    match c.1 i with
    | ret _ => scheduled perform turns c
    | call op next =>
      scheduled perform turns (fun j => if j = i then next (perform i op c.2).1 else c.1 j, (perform i op c.2).2)

/-- Every schedule is an interleaving. -/
theorem Steps.scheduled [DecidableEq ι] {does : ι → (op : Op) → σ → Reply op → σ → Prop}
    {perform : ι → (op : Op) → σ → Reply op × σ}
    (hdoes : ∀ i op s, does i op s (perform i op s).1 (perform i op s).2)
    {c : (ι → Prog Op Reply α) × σ} :
    ∀ (turns : List ι) {c' : (ι → Prog Op Reply α) × σ}, Steps does c c' →
      Steps does c (scheduled perform turns c')
  | [], _, h => h
  | i :: turns, c', h => by
    rw [Prog.scheduled]
    split
    · exact Steps.scheduled hdoes turns h
    · rename_i op next hturn
      exact Steps.scheduled hdoes turns (.step i h hturn (hdoes i op c'.2))

end Prog

/-! ## Fallible programs with a counter -/

/-- A program that returns a `Result`, and that draws from a counter of its own. -/
def Routine (Op : Type) (Reply : Op → Type) (ε α : Type) : Type := Nat → Prog Op Reply (Except ε α × Nat)

namespace Routine

variable {Op : Type} {Reply : Op → Type} {ε α β σ : Type}

instance : Monad (Routine Op Reply ε) where
  pure a := fun n => .ret (.ok a, n)
  bind x f := fun n => (x n).bind fun out =>
    match out.1 with
    | .ok a => f a out.2
    | .error e => .ret (.error e, out.2)

instance : MonadLift (Except ε) (Routine Op Reply ε) where
  monadLift x := fun n => .ret (x, n)

/-- One operation. -/
def call (op : Op) : Routine Op Reply ε (Reply op) := fun n => .call op fun reply => .ret (.ok reply, n)

/-- The counter's next value. -/
def draw : Routine Op Reply ε Nat := fun n => .ret (.ok n, n + 1)

/-- The result of a routine as a value: `match routine() { Ok(…) => …, Err(…) => … }`. -/
def attempt (x : Routine Op Reply ε α) : Routine Op Reply ε (Except ε α) := fun n =>
  (x n).bind fun out => .ret (.ok out.1, out.2)

/-- `for value in values { f(value)? }`. -/
def forEach (f : α → Routine Op Reply ε Unit) : List α → Routine Op Reply ε Unit
  | [] => pure ()
  | a :: rest => do
    f a
    forEach f rest

section Alone

variable {perform : (op : Op) → σ → Reply op × σ} {n n' m : Nat} {s s' t : σ} {a : α} {b : β} {e : ε}
  {x : Routine Op Reply ε α} {f : α → Routine Op Reply ε β} {r : Except ε β}

/-- The routine run alone to its end: what it returns, its counter and the state it leaves. -/
def run (perform : (op : Op) → σ → Reply op × σ) (x : Routine Op Reply ε α) (n : Nat)
    (s : σ) : (Except ε α × Nat) × σ :=
  (x n).run perform s

theorem run_bind_ok (hx : x.run perform n s = ((.ok a, n'), s')) (hf : (f a).run perform n' s' = ((r, m), t)) :
    (x >>= f).run perform n s = ((r, m), t) := by
  have hbind := Prog.run_bind perform (fun out : Except ε α × Nat => match out.1 with
    | .ok a => f a out.2
    | .error e => .ret (.error e, out.2)) (x n) s
  rw [show (x n).run perform s = ((.ok a, n'), s') from hx] at hbind
  exact hbind.trans hf

theorem run_bind_error (hx : x.run perform n s = ((.error e, n'), s')) :
    (x >>= f).run perform n s = ((.error e, n'), s') := by
  have hbind := Prog.run_bind perform (fun out : Except ε α × Nat => match out.1 with
    | .ok a => f a out.2
    | .error e => .ret (.error e, out.2)) (x n) s
  rw [show (x n).run perform s = ((.error e, n'), s') from hx] at hbind
  exact hbind

/-- A run that returns went through a value of its first part. -/
theorem run_bind_eq_ok (h : (x >>= f).run perform n s = ((.ok b, m), t)) :
    ∃ a n' s', x.run perform n s = ((.ok a, n'), s') ∧ (f a).run perform n' s' = ((.ok b, m), t) := by
  cases hx : x.run perform n s with | mk out s' =>
  obtain ⟨r, n'⟩ := out
  cases r with
  | ok a =>
    refine ⟨a, n', s', rfl, ?_⟩
    rw [← h]
    exact (run_bind_ok hx rfl).symm
  | error e =>
    rw [run_bind_error hx] at h
    cases h

theorem run_attempt {r' : Except ε α} (hx : x.run perform n s = ((r', n'), s')) :
    x.attempt.run perform n s = ((.ok r', n'), s') := by
  have hbind := Prog.run_bind perform
    (fun out : Except ε α × Nat => (.ret (.ok out.1, out.2) : Prog Op Reply (Except ε (Except ε α) × Nat))) (x n) s
  rw [show (x n).run perform s = ((r', n'), s') from hx] at hbind
  exact hbind

end Alone

/-- A value that the routine may return, whatever its operations reply and its counter is. -/
def Returns (x : Routine Op Reply ε α) (a : α) : Prop := ∃ n m, (x n).Returns (.ok a, m)

theorem Returns.of_bind {x : Routine Op Reply ε α} {f : α → Routine Op Reply ε β} {b : β}
    (h : (x >>= f).Returns b) : ∃ a, x.Returns a ∧ (f a).Returns b := by
  obtain ⟨n, m, h⟩ := h
  obtain ⟨⟨r, k⟩, hx, hf⟩ := Prog.Returns.of_bind h
  cases r with
  | ok a => exact ⟨a, ⟨n, k, hx⟩, k, m, hf⟩
  | error e => cases hf

theorem Returns.of_lift {x : Except ε α} {a : α} (h : (monadLift x : Routine Op Reply ε α).Returns a) :
    x = .ok a := by
  obtain ⟨n, m, h⟩ := h
  cases h
  rfl

theorem Returns.of_pure {a b : α} (h : (Pure.pure a : Routine Op Reply ε α).Returns b) : a = b := by
  obtain ⟨n, m, h⟩ := h
  cases h
  rfl

section Triples

variable {does : (op : Op) → σ → Reply op → σ → Prop} {rely guar : σ → σ → Prop} {base : σ → Prop}
  {pre : σ → Prop} {post : α → σ → Prop}

/-- A fact that what others do leaves true. -/
def Stable (rely : σ → σ → Prop) (base fact : σ → Prop) : Prop := ∀ s s', base s → rely s s' → fact s → fact s'

/-- The triple: from a state of the invariant `base` that satisfies `pre`, the routine is safe, keeps `base`,
and a value it returns satisfies `post`. -/
def Meets (does : (op : Op) → σ → Reply op → σ → Prop) (rely guar : σ → σ → Prop) (base pre : σ → Prop)
    (x : Routine Op Reply ε α) (post : α → σ → Prop) : Prop :=
  ∀ n s, base s → pre s →
    Prog.Safe does rely guar (fun out s' => base s' ∧ ∀ a, out.1 = .ok a → post a s') (x n) s

theorem Meets.pre_post {pre' : σ → Prop} {post' : α → σ → Prop} {x : Routine Op Reply ε α}
    (h : Meets does rely guar base pre x post) (hpre : ∀ s, base s → pre' s → pre s)
    (hpost : ∀ a s, base s → post a s → post' a s) : Meets does rely guar base pre' x post' := by
  intro n s hb hp
  refine (h n s hb (hpre s hb hp)).mono fun out s' hout => ⟨hout.1, fun a ha => ?_⟩
  exact hpost a s' hout.1 (hout.2 a ha)

theorem Meets.guar_mono {guar' : σ → σ → Prop} {x : Routine Op Reply ε α} (hguar : ∀ s s', guar s s' → guar' s s')
    (h : Meets does rely guar base pre x post) : Meets does rely guar' base pre x post :=
  fun n s hb hp => (h n s hb hp).guar_mono hguar

theorem Meets.pure {a : α} (hbase : ∀ s s', base s → rely s s' → base s') (hstable : Stable rely base pre)
    (h : ∀ s, base s → pre s → post a s) :
    Meets does rely guar base pre (Pure.pure a : Routine Op Reply ε α) post := by
  intro n s hb hp s' hs
  refine ⟨hbase s s' hb hs, fun a' ha => ?_⟩
  cases ha
  exact h s' (hbase s s' hb hs) (hstable s s' hb hs hp)

theorem Meets.lift {x : Except ε α} (hbase : ∀ s s', base s → rely s s' → base s') (hstable : Stable rely base pre)
    (h : ∀ a, x = .ok a → ∀ s, base s → pre s → post a s) :
    Meets does rely guar base pre (monadLift x : Routine Op Reply ε α) post := by
  intro n s hb hp s' hs
  exact ⟨hbase s s' hb hs, fun a ha => h a ha s' (hbase s s' hb hs) (hstable s s' hb hs hp)⟩

theorem Meets.bind {post : β → σ → Prop} {mid : α → σ → Prop} {x : Routine Op Reply ε α}
    {f : α → Routine Op Reply ε β} (hrefl : ∀ s, rely s s) (hbase : ∀ s s', base s → rely s s' → base s')
    (hx : Meets does rely guar base pre x mid) (hf : ∀ a, Meets does rely guar base (mid a) (f a) post) :
    Meets does rely guar base pre (x >>= f) post := by
  intro n s hb hp
  refine Prog.Safe.bind hrefl ((hx n s hb hp).mono fun out s' hout => ?_)
  obtain ⟨r, n'⟩ := out
  cases r with
  | ok a => exact hf a n' s' hout.1 (hout.2 a rfl)
  | error e => exact fun s'' hs => ⟨hbase s' s'' hout.1 hs, fun a ha => nomatch ha⟩

/-- The rule of one operation. -/
theorem Meets.call {op : Op} {post : Reply op → σ → Prop} (hbase : ∀ s s', base s → rely s s' → base s')
    (hpre : Stable rely base pre) (hpost : ∀ reply, Stable rely base (post reply))
    (h : ∀ s reply s', base s → pre s → does op s reply s' → guar s s' ∧ base s' ∧ post reply s') :
    Meets does rely guar base pre (Routine.call op : Routine Op Reply ε (Reply op)) post := by
  intro n s hb hp s' hs reply s'' hd
  obtain ⟨hg, hb', hq⟩ := h s' reply s'' (hbase s s' hb hs) (hpre s s' hb hs hp) hd
  refine ⟨hg, fun s''' hs' => ⟨hbase s'' s''' hb' hs', fun a ha => ?_⟩⟩
  cases ha
  exact hpost reply s'' s''' hb' hs' hq

theorem Meets.draw (hbase : ∀ s s', base s → rely s s' → base s') (hstable : Stable rely base pre) :
    Meets does rely guar base pre (Routine.draw : Routine Op Reply ε Nat) fun _ => pre := by
  intro n s hb hp s' hs
  exact ⟨hbase s s' hb hs, fun _ _ => hstable s s' hb hs hp⟩

/-- A routine whose failure is inspected. -/
theorem Meets.attempt {x : Routine Op Reply ε α} (hrefl : ∀ s, rely s s)
    (hbase : ∀ s s', base s → rely s s' → base s') (hstable : ∀ a, Stable rely base (post a))
    (hx : Meets does rely guar base pre x post) :
    Meets does rely guar base pre x.attempt fun r s => ∀ a, r = .ok a → post a s := by
  intro n s hb hp
  refine Prog.Safe.bind hrefl ((hx n s hb hp).mono fun out s' hout s'' hs => ?_)
  refine ⟨hbase s' s'' hout.1 hs, fun r hr a ha => ?_⟩
  cases hr
  exact hstable a s' s'' hout.1 hs (hout.2 a ha)

/-- What both the rely and the guarantee keep is carried across a routine. -/
theorem Meets.frame {x : Routine Op Reply ε α} {fact : σ → Prop}
    (hrely : ∀ s s', rely s s' → base s ∧ fact s → base s' ∧ fact s')
    (hguar : ∀ s s', guar s s' → base s ∧ fact s → base s' ∧ fact s')
    (hx : Meets does rely guar base pre x post) :
    Meets does rely guar base (fun s => pre s ∧ fact s) x fun a s => post a s ∧ fact s := by
  intro n s hb hp
  refine (Prog.Safe.frame hrely hguar (hx n s hb hp.1) ⟨hb, hp.2⟩).mono fun out s' hout => ?_
  exact ⟨hout.1.1, fun a ha => ⟨hout.1.2 a ha, hout.2.2⟩⟩

/-- A loop whose steps each establish a fact that the rely and the guarantee keep. -/
theorem Meets.forEach {f : α → Routine Op Reply ε Unit} {fact : α → σ → Prop} (hrefl : ∀ s, rely s s)
    (hbase : ∀ s s', base s → rely s s' → base s') (hpre : Stable rely base pre)
    (hrely : ∀ a s s', rely s s' → base s ∧ fact a s → base s' ∧ fact a s')
    (hguar : ∀ a s s', guar s s' → base s ∧ fact a s → base s' ∧ fact a s') :
    ∀ {l : List α}, (∀ a ∈ l, Meets does rely guar base pre (f a) fun _ s => pre s ∧ fact a s) →
      Meets does rely guar base pre (Routine.forEach f l) fun _ s => pre s ∧ ∀ a ∈ l, fact a s
  | [], _ => Meets.pure hbase hpre fun s _ hp => ⟨hp, fun _ ha => nomatch ha⟩
  | a :: l, hf => by
    refine Meets.bind hrefl hbase (hf a List.mem_cons_self) fun _ => ?_
    have ih := Meets.forEach hrefl hbase hpre hrely hguar fun b hb => hf b (List.mem_cons_of_mem a hb)
    refine (ih.frame (hrely a) (hguar a)).pre_post (fun _ _ h => h) fun _ s _ h => ?_
    refine ⟨h.1.1, fun b hb => ?_⟩
    rcases List.mem_cons.mp hb with rfl | hb
    · exact h.2
    · exact h.1.2 b hb

end Triples

end Routine

end SimFerret
