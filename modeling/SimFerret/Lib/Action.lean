import Mathlib.Tactic.Common

/-!
# SimFerret.Lib.Action — stateful computations that may fail

`StateT σ (Except ε)` is code that mutates a state and returns a `Result`.  Its rules speak about the runs that
return `Ok`.

* `bind_ok`, `pure_ok`, `get_ok`, `modify_ok`: how a run that returned `Ok` went.
* `Along`: every run moves its state along a relation; for a preorder this composes.
* `Ends`: a run returns what it should, or fails as it should.
-/

namespace Action

variable {σ ε α β : Type}

theorem bind_ok {x : StateT σ (Except ε) α} {f : α → StateT σ (Except ε) β} {s s' : σ} {b : β} :
    (x >>= f) s = .ok (b, s') ↔ ∃ a s1, x s = .ok (a, s1) ∧ f a s1 = .ok (b, s') := by
  show (do let (a, s1) ← x s; f a s1) = .ok (b, s') ↔ _
  constructor
  · intro h
    cases hx : x s with
    | error e => rw [hx] at h; cases h
    | ok r =>
      rw [hx] at h
      exact ⟨r.1, r.2, rfl, h⟩
  · rintro ⟨a, s1, hx, hf⟩
    rw [hx]
    exact hf

theorem pure_ok {s s' : σ} {a b : α} : (pure a : StateT σ (Except ε) α) s = .ok (b, s') ↔ b = a ∧ s' = s := by
  show Except.ok (a, s) = .ok (b, s') ↔ _
  rw [Except.ok.injEq, Prod.mk.injEq, eq_comm (a := a), eq_comm (a := s)]

theorem get_ok {s s' t : σ} : (get : StateT σ (Except ε) σ) s = .ok (t, s') ↔ t = s ∧ s' = s := by
  show Except.ok (s, s) = .ok (t, s') ↔ _
  rw [Except.ok.injEq, Prod.mk.injEq, eq_comm (a := s) (b := t), eq_comm (a := s) (b := s')]

theorem modify_ok {f : σ → σ} {s s' : σ} {u : PUnit} :
    (modify f : StateT σ (Except ε) PUnit) s = .ok (u, s') ↔ s' = f s := by
  show Except.ok (PUnit.unit, f s) = .ok (u, s') ↔ _
  rw [Except.ok.injEq, Prod.mk.injEq, eq_comm (a := f s)]
  exact ⟨fun h => h.2, fun h => ⟨rfl, h⟩⟩

theorem throw_ok {e : ε} {s s' : σ} {a : α} : (throw e : StateT σ (Except ε) α) s ≠ .ok (a, s') := by
  show Except.error e ≠ .ok (a, s')
  exact fun h => by cases h

theorem lift_ok {x : Except ε α} {s s' : σ} {a : α} :
    (liftM x : StateT σ (Except ε) α) s = .ok (a, s') ↔ x = .ok a ∧ s' = s := by
  show (do let b ← x; pure (b, s)) = Except.ok (a, s') ↔ _
  cases x with
  | error e =>
    refine ⟨fun h => ?_, fun h => ?_⟩
    · cases h
    · cases h.1
  | ok b =>
    show Except.ok (b, s) = .ok (a, s') ↔ _
    rw [Except.ok.injEq, Except.ok.injEq, Prod.mk.injEq, eq_comm (a := s)]

/-! ## The first step of a computation -/

theorem lift_bind (x : Except ε α) (f : α → StateT σ (Except ε) β) (s : σ) :
    ((liftM x : StateT σ (Except ε) α) >>= f) s = x >>= fun a => f a s := by
  cases x with
  | error e => rfl
  | ok a => rfl

theorem get_bind (f : σ → StateT σ (Except ε) β) (s : σ) : ((get : StateT σ (Except ε) σ) >>= f) s = f s s := rfl

theorem bind_of_ok {x : StateT σ (Except ε) α} {f : α → StateT σ (Except ε) β} {s s' : σ} {a : α}
    (h : x s = .ok (a, s')) : (x >>= f) s = f a s' := by
  simp only [bind, StateT.bind, h, Except.bind]

theorem bind_of_error {x : StateT σ (Except ε) α} {f : α → StateT σ (Except ε) β} {s : σ} {e : ε}
    (h : x s = .error e) : (x >>= f) s = .error e := by
  simp only [bind, StateT.bind, h, Except.bind]

/-- Every run that returns `Ok` moves the state along the relation. -/
def Along (R : σ → σ → Prop) (x : StateT σ (Except ε) α) : Prop := ∀ s a s', x s = .ok (a, s') → R s s'

section Along

variable {R : σ → σ → Prop}

theorem Along.bind (htrans : ∀ {s t u}, R s t → R t u → R s u) {x : StateT σ (Except ε) α}
    {f : α → StateT σ (Except ε) β} (hx : Along R x) (hf : ∀ a, Along R (f a)) : Along R (x >>= f) := by
  intro s b s' h
  obtain ⟨a, s1, h1, h2⟩ := bind_ok.mp h
  exact htrans (hx s a s1 h1) (hf a s1 b s' h2)

theorem Along.pure (hrefl : ∀ s, R s s) (a : α) : Along R (pure a : StateT σ (Except ε) α) := by
  intro s b s' h
  rw [(pure_ok.mp h).2]
  exact hrefl s

end Along

/-- The run from a state returns in `Q` or fails in `E`. -/
def Ends (E : ε → Prop) (x : StateT σ (Except ε) α) (s : σ) (Q : α → σ → Prop) : Prop :=
  (∀ e, x s = .error e → E e) ∧ ∀ a s', x s = .ok (a, s') → Q a s'

section Ends

variable {E : ε → Prop} {x : StateT σ (Except ε) α} {s : σ} {Q : α → σ → Prop}

theorem Ends.mono {Q' : α → σ → Prop} (h : Ends E x s Q) (hQ : ∀ a s', Q a s' → Q' a s') : Ends E x s Q' :=
  ⟨h.1, fun a s' hx => hQ a s' (h.2 a s' hx)⟩

theorem Ends.bind {f : α → StateT σ (Except ε) β} {R : β → σ → Prop} (h : Ends E x s Q)
    (hf : ∀ a s', Q a s' → Ends E (f a) s' R) : Ends E (x >>= f) s R := by
  constructor
  · intro e he
    cases hx : x s with
    | error e' =>
      rw [bind_of_error hx] at he
      cases he
      exact h.1 e hx
    | ok r =>
      rw [bind_of_ok hx] at he
      exact (hf r.1 r.2 (h.2 _ _ hx)).1 e he
  · intro b s' hb
    obtain ⟨a, s1, hx, hfa⟩ := bind_ok.mp hb
    exact (hf a s1 (h.2 a s1 hx)).2 b s' hfa

/-- Only the outcome of the run matters. -/
theorem Ends.of_eq {y : StateT σ (Except ε) α} {t : σ} (h : x s = y t) (hy : Ends E y t Q) : Ends E x s Q :=
  ⟨fun e he => hy.1 e (h.symm.trans he), fun a s' ha => hy.2 a s' (h.symm.trans ha)⟩

theorem ends_of_ok {a : α} {s' : σ} (h : x s = .ok (a, s')) (hQ : Q a s') : Ends E x s Q := by
  constructor
  · intro e he
    cases h.symm.trans he
  · intro b t hb
    cases h.symm.trans hb
    exact hQ

theorem ends_of_error {e : ε} (h : x s = .error e) (hE : E e) : Ends E x s Q := by
  constructor
  · intro e' he
    cases h.symm.trans he
    exact hE
  · intro b t hb
    cases h.symm.trans hb

theorem ends_pure {a : α} (h : Q a s) : Ends E (pure a : StateT σ (Except ε) α) s Q := ends_of_ok rfl h

end Ends

end Action
