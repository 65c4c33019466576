import Mathlib.Tactic.Common

/-!
# SimFerret.Lib.Machine — code whose plain operations can fault

A plain addition that leaves its word, an index out of its slice and a failed `expect` stop a program before it
returns anything.  `Machine ε α` is a computation that faults or returns an `Except ε α`.

* `add`, `index`, `slice`, `expect`: the operations that fault.
* `Returns`: the computation does not fault, and this is its result.
* `returns_bind`: a computation returns what the same program over `Except` returns, as long as each step does.
-/

/-- A computation that faults, or returns a result. -/
def Machine (ε α : Type) : Type := Option (Except ε α)

namespace Machine

variable {ε α β : Type}

/-- What follows a result: the next step, or the error. -/
def andThen (f : α → Machine ε β) : Except ε α → Machine ε β
  | .ok a => f a
  | .error e => some (.error e)

instance : Monad (Machine ε) where
  pure a := some (.ok a)
  bind x f := Option.bind x (andThen f)

/-- A step that cannot fault. -/
instance : MonadLift (Except ε) (Machine ε) where
  monadLift r := some r

/-- `a + b` on words below `size`. -/
def add (size a b : Nat) : Machine ε Nat := if a + b < size then some (.ok (a + b)) else none

/-- `xs[i]`. -/
def index (xs : List α) (i : Nat) : Machine ε α := xs[i]?.map .ok

/-- `&xs[..n]`. -/
def slice (xs : List α) (n : Nat) : Machine ε (List α) := if n ≤ xs.length then some (.ok (xs.take n)) else none

/-- `x.expect(..)`. -/
def expect (x : Option α) : Machine ε α := x.map .ok

/-! ## Runs that do not fault -/

/-- `x` does not fault, and returns `r`. -/
def Returns (x : Machine ε α) (r : Except ε α) : Prop := x = some r

/-- `x` faults. -/
def Faults (x : Machine ε α) : Prop := x = none

variable {x : Machine ε α} {f : α → Machine ε β} {r : Except ε α} {a : α} {e : ε}

theorem Returns.not_faults (h : Returns x r) : ¬ Faults x := by
  intro hfault
  rw [Returns, show x = none from hfault] at h
  cases h

theorem Returns.unique {r' : Except ε α} (h : Returns x r) (h' : Returns x r') : r = r' :=
  Option.some.inj (h.symm.trans h')

theorem returns_pure (a : α) : Returns (pure a : Machine ε α) (.ok a) := rfl

theorem returns_lift (r : Except ε α) : Returns (liftM r : Machine ε α) r := rfl

theorem returns_error (e : ε) : Returns (liftM (Except.error e : Except ε α) : Machine ε α) (.error e) := rfl

theorem returns_add {size a b : Nat} (h : a + b < size) : Returns (add size a b : Machine ε Nat) (.ok (a + b)) :=
  if_pos h

theorem faults_add {size a b : Nat} (h : size ≤ a + b) : Faults (add size a b : Machine ε Nat) :=
  if_neg (by omega)

theorem returns_index {xs : List α} {i : Nat} (h : xs[i]? = some a) : Returns (index xs i : Machine ε α)
    (.ok a) := by
  rw [Returns, index, h, Option.map_some]

theorem returns_slice {xs : List α} {n : Nat} (h : n ≤ xs.length) :
    Returns (slice xs n : Machine ε (List α)) (.ok (xs.take n)) :=
  if_pos h

theorem returns_expect {x : Option α} (h : x = some a) : Returns (expect x : Machine ε α) (.ok a) := by
  rw [Returns, expect, h, Option.map_some]

/-! ## Sequences -/

/-- Step by step: the computation returns what the program over `Except` does. -/
theorem returns_bind {g : α → Except ε β} (hx : Returns x r) (hf : ∀ a, r = .ok a → Returns (f a) (g a)) :
    Returns (x >>= f) (r >>= g) := by
  show Option.bind x (andThen f) = some (r >>= g)
  rw [show x = some r from hx]
  cases r with
  | error e => rfl
  | ok a => exact hf a rfl

theorem returns_bind_ok {s : Except ε β} (hx : Returns x (.ok a))
    (hf : Returns (f a) s) : Returns (x >>= f) s := by
  show Option.bind x (andThen f) = some s
  rw [show x = some (.ok a) from hx]
  exact hf

/-- A fault of the first step is a fault of the whole. -/
theorem faults_bind (hx : Faults x) : Faults (x >>= f) := by
  show Option.bind x (andThen f) = none
  rw [show x = none from hx]
  rfl

/-- After a step that returned, the whole faults when what follows does. -/
theorem faults_bind_ok (hx : Returns x (.ok a)) (hf : Faults (f a)) : Faults (x >>= f) := by
  show Option.bind x (andThen f) = none
  rw [show x = some (.ok a) from hx]
  exact hf

end Machine
