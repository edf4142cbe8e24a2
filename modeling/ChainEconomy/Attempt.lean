/-! # Attempts

A computation on a state that may be refused. What it did to the state before the refusal stays
done, so that a caller who wants all or nothing has to keep the old state. Every operation is
described by what running it gives: `run_pure`, `run_bind` and so on. -/

namespace ChainEconomy

/-- A computation on a state `σ` that gives an `α` or is refused with an `ε`. -/
def Attempt (σ ε α : Type) : Type := σ → Except ε α × σ

namespace Attempt

variable {σ τ ε δ α β : Type}

/-- The outcome and the state after an attempt. -/
def run (x : Attempt σ ε α) (s : σ) : Except ε α × σ := x s

/-- Two attempts, the second one with what the first one gives; a refusal ends the whole. -/
def andThen (x : Attempt σ ε α) (f : α → Attempt σ ε β) : Attempt σ ε β := fun s =>
  match x s with
  | (.ok a, s) => f a s
  | (.error e, s) => (.error e, s)

instance : Monad (Attempt σ ε) where
  pure a := fun s => (.ok a, s)
  bind := andThen

/-- A refusal. -/
def fail (e : ε) : Attempt σ ε α := fun s => (.error e, s)

/-- The state. -/
def get : Attempt σ ε σ := fun s => (.ok s, s)

/-- Replaces the state. -/
def set (s : σ) : Attempt σ ε Unit := fun _ => (.ok (), s)

/-- A computation that does not touch the state. -/
def ofExcept (x : Except ε α) : Attempt σ ε α := fun s => (x, s)

/-- What can be read off the state, if it can be read. -/
def read (f : σ → Except ε α) : Attempt σ ε α := fun s => (f s, s)

/-- A change of the state that is either made or refused as a whole. -/
def change (f : σ → Except ε σ) : Attempt σ ε Unit := fun s =>
  match f s with
  | .ok s => (.ok (), s)
  | .error e => (.error e, s)

/-- The same attempt with another kind of refusal. -/
def mapError (f : ε → δ) (x : Attempt σ ε α) : Attempt σ δ α := fun s =>
  match x s with
  | (.ok a, s) => (.ok a, s)
  | (.error e, s) => (.error (f e), s)

/-- An attempt on a part of the state. -/
def within (part : σ → τ) (put : τ → σ → σ) (x : Attempt τ ε α) : Attempt σ ε α := fun s =>
  match x (part s) with
  | (r, t) => (r, put t s)

/-- One attempt for each item of a list, in order. -/
def forEach (f : α → Attempt σ ε Unit) : List α → Attempt σ ε Unit
  | [] => pure ()
  | a :: rest => andThen (f a) fun _ => forEach f rest

@[simp] theorem run_pure (a : α) (s : σ) : run (pure a : Attempt σ ε α) s = (.ok a, s) := rfl

@[simp] theorem run_bind (x : Attempt σ ε α) (f : α → Attempt σ ε β) (s : σ) :
    run (x >>= f) s =
      match run x s with
      | (.ok a, s) => run (f a) s
      | (.error e, s) => (.error e, s) := rfl

@[simp] theorem run_fail (e : ε) (s : σ) : run (fail e : Attempt σ ε α) s = (.error e, s) := rfl

@[simp] theorem run_get (s : σ) : run (get : Attempt σ ε σ) s = (.ok s, s) := rfl

@[simp] theorem run_set (s t : σ) : run (set t : Attempt σ ε Unit) s = (.ok (), t) := rfl

@[simp] theorem run_ofExcept (x : Except ε α) (s : σ) :
    run (ofExcept x : Attempt σ ε α) s = (x, s) := rfl

@[simp] theorem run_read (f : σ → Except ε α) (s : σ) : run (read f) s = (f s, s) := rfl

/-- A change that is refused leaves the state as it was. -/
theorem run_change (f : σ → Except ε σ) (s : σ) :
    run (change f) s =
      match f s with
      | .ok s => (.ok (), s)
      | .error e => (.error e, s) := rfl

/-- An attempt on a part of the state puts back what became of the part, after a refusal as well. -/
theorem run_within (part : σ → τ) (put : τ → σ → σ) (x : Attempt τ ε α) (s : σ) :
    run (within part put x) s = ((run x (part s)).1, put (run x (part s)).2 s) := rfl

end Attempt

end ChainEconomy
