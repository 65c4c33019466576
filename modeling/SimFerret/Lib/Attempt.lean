import Mathlib.Tactic.Common

/-!
# SimFerret.Lib.Attempt — stateful computations whose failures leave a state behind

`ExceptT ε (StateM σ)` is code that mutates what it was lent and returns a `Result`: what was changed before an
error stays changed.

* `bind_ok`, `get_ok`, `modify_ok`: how a run that returned `Ok` went.
* `Along`: every run, also one that fails, moves its state along a relation; for a preorder this composes.
-/

namespace Attempt

variable {σ ε α β : Type}

/-- How a composed run goes. -/
theorem bind_run (x : ExceptT ε (StateM σ) α) (f : α → ExceptT ε (StateM σ) β) (s : σ) :
    (x >>= f) s = match x s with
      | (.ok a, s1) => f a s1
      | (.error e, s1) => (.error e, s1) := by
  show (match x s with
    | (r, s1) => (ExceptT.bindCont f r : StateM σ (Except ε β)) s1) = _
  rcases x s with ⟨_ | _, _⟩ <;> rfl

theorem bind_ok {x : ExceptT ε (StateM σ) α} {f : α → ExceptT ε (StateM σ) β} {s s' : σ} {b : β} :
    (x >>= f) s = (.ok b, s') ↔ ∃ a s1, x s = (.ok a, s1) ∧ f a s1 = (.ok b, s') := by
  rw [bind_run]
  constructor
  · intro h
    rcases hx : x s with ⟨_ | a, s1⟩
    · rw [hx] at h
      cases h
    · rw [hx] at h
      exact ⟨a, s1, rfl, h⟩
  · rintro ⟨a, s1, hx, hf⟩
    rw [hx]
    exact hf

theorem bind_of_ok {x : ExceptT ε (StateM σ) α} {f : α → ExceptT ε (StateM σ) β} {s s' : σ} {a : α}
    (h : x s = (.ok a, s')) : (x >>= f) s = f a s' := by
  rw [bind_run, h]

theorem bind_of_error {x : ExceptT ε (StateM σ) α} {f : α → ExceptT ε (StateM σ) β} {s s' : σ} {e : ε}
    (h : x s = (.error e, s')) : (x >>= f) s = (.error e, s') := by
  rw [bind_run, h]

theorem get_ok {s s' t : σ} : (get : ExceptT ε (StateM σ) σ) s = (.ok t, s') ↔ t = s ∧ s' = s := by
  show ((Except.ok s, s) : Except ε σ × σ) = (.ok t, s') ↔ _
  rw [Prod.mk.injEq, Except.ok.injEq, eq_comm (a := s) (b := t), eq_comm (a := s) (b := s')]

theorem modify_ok {f : σ → σ} {s s' : σ} {u : PUnit} :
    (modify f : ExceptT ε (StateM σ) PUnit) s = (.ok u, s') ↔ s' = f s := by
  show ((Except.ok PUnit.unit, f s) : Except ε PUnit × σ) = (.ok u, s') ↔ _
  rw [Prod.mk.injEq, eq_comm (a := f s)]
  exact ⟨fun h => h.2, fun h => ⟨rfl, h⟩⟩

theorem throw_ok {e : ε} {s s' : σ} {a : α} : (throw e : ExceptT ε (StateM σ) α) s ≠ (.ok a, s') := by
  show ((Except.error e, s) : Except ε α × σ) ≠ (.ok a, s')
  exact fun h => by cases h

/-- Every run moves the state along the relation. -/
def Along (R : σ → σ → Prop) (x : ExceptT ε (StateM σ) α) : Prop := ∀ s, R s (x s).2

section Along

variable {R : σ → σ → Prop}

theorem Along.of_run {x : ExceptT ε (StateM σ) α} (hx : Along R x) {s s' : σ} {r : Except ε α}
    (h : x s = (r, s')) : R s s' := by
  have hs := hx s
  rw [h] at hs
  exact hs

theorem Along.bind (htrans : ∀ {s t u}, R s t → R t u → R s u) {x : ExceptT ε (StateM σ) α}
    {f : α → ExceptT ε (StateM σ) β} (hx : Along R x) (hf : ∀ a, Along R (f a)) : Along R (x >>= f) := by
  intro s
  rw [bind_run]
  have h := hx s
  rcases heq : x s with ⟨_ | a, s1⟩
  · rw [heq] at h
    exact h
  · rw [heq] at h
    exact htrans h (hf a s1)

theorem Along.pure (hrefl : ∀ s, R s s) (a : α) : Along R (pure a : ExceptT ε (StateM σ) α) := hrefl

theorem Along.throw (hrefl : ∀ s, R s s) (e : ε) : Along R (throw e : ExceptT ε (StateM σ) α) := hrefl

end Along

end Attempt
