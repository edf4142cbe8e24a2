import Mathlib
import ChainEconomy.Attempt

/-!
# Rules for attempts

Ways to reason about an `Attempt` without opening its definition. The `_eq_ok` lemmas take a
successful run apart into successful runs of its parts. `Keeps P x` says that `x` leaves a property
`P` of the state intact whatever its outcome is, and has one rule for each operation, so that a
property that the parts keep is kept by the whole. `RefusesOnly` and `RefusedKeeps` have such rules
for refusals, for the reasons that they have and for what they leave behind. The lemmas about
`Except` at the start do the same for the pure steps that attempts are made of.
-/

namespace Except

variable {ε δ α β : Type}

/-- A sequence succeeds if both of its parts do. -/
theorem bind_eq_ok_iff {x : Except ε α} {f : α → Except ε β} {b : β} :
    (x >>= f) = .ok b ↔ ∃ a, x = .ok a ∧ f a = .ok b := by
  cases x with
  | error e => exact ⟨(nomatch ·), fun ⟨_, h, _⟩ => nomatch h⟩
  | ok a => exact ⟨fun h => ⟨a, rfl, h⟩, fun ⟨_, ha, h⟩ => by cases ha; exact h⟩

/-- A check in front of a computation has to be passed. -/
theorem check_eq_ok_iff {x : Except ε Unit} {f : Unit → Except ε β} {b : β} :
    (x >>= f) = .ok b ↔ x = .ok () ∧ f () = .ok b :=
  bind_eq_ok_iff.trans ⟨fun ⟨_, h⟩ => h, fun h => ⟨(), h⟩⟩

/-- What is done to a result does not touch a refusal. -/
theorem map_eq_ok_iff {x : Except ε α} {f : α → β} {b : β} :
    x.map f = .ok b ↔ ∃ a, x = .ok a ∧ f a = b := by
  cases x <;> simp [Except.map]

/-- Another wording of refusals makes no difference to a success. -/
theorem mapError_eq_ok_iff {x : Except ε α} {f : ε → δ} {a : α} :
    x.mapError f = .ok a ↔ x = .ok a := by
  cases x <;> simp [Except.mapError]

/-- A reworded refusal comes from a refusal. -/
theorem mapError_eq_error_iff {x : Except ε α} {f : ε → δ} {d : δ} :
    x.mapError f = .error d ↔ ∃ e, x = .error e ∧ f e = d := by
  cases x <;> simp [Except.mapError]

/-- What is done to a result is not done to a refusal, which stays the same one. -/
theorem map_eq_error_iff {x : Except ε α} {f : α → β} {e : ε} :
    x.map f = .error e ↔ x = .error e := by
  cases x <;> simp [Except.map]

/-- The reason of a refusal. -/
def refusal? : Except ε α → Option ε
  | .error e => some e
  | .ok _ => none

/-- A computation without a result of its own has only one way to succeed. -/
theorem eq_ok_of_isOk {x : Except ε Unit} (h : x.isOk = true) : x = .ok () := by
  cases x with
  | error e => cases h
  | ok u => rfl

/-- What can be said about the result of a computation is enough to know that there is one. -/
theorem exists_of_toOption_map {x : Except ε α} {f : α → β} {b : β}
    (h : x.toOption.map f = some b) : ∃ a, x = .ok a ∧ f a = b := by
  cases x with
  | error e => cases h
  | ok a => exact ⟨a, rfl, Option.some.inj h⟩

end Except

namespace ChainEconomy.Attempt

variable {σ τ ε δ α β : Type}

/-- Attempts with the same runs are the same. -/
protected theorem ext {x y : Attempt σ ε α} (h : ∀ s, run x s = run y s) : x = y := funext h

/-! ## Successful runs -/

/-- A successful sequence is made of two successful parts. -/
theorem run_bind_eq_ok {x : Attempt σ ε α} {f : α → Attempt σ ε β} {s u : σ} {b : β} :
    run (x >>= f) s = (.ok b, u) ↔
      ∃ a t, run x s = (.ok a, t) ∧ run (f a) t = (.ok b, u) := by
  rw [run_bind]
  constructor
  · intro h
    cases hx : run x s with
    | mk r t =>
      rw [hx] at h
      cases r with
      | error e => cases h
      | ok a => exact ⟨a, t, rfl, h⟩
  · rintro ⟨a, t, hx, hf⟩
    rw [hx]
    exact hf

/-- A result that something can be said about belongs to a successful run. -/
theorem exists_run_eq_ok {x : Attempt σ ε α} {s : σ} {f : α → β} {b : β}
    (h : (run x s).1.toOption.map f = some b) : ∃ a t, run x s = (.ok a, t) ∧ f a = b := by
  obtain ⟨a, ha, hf⟩ := Except.exists_of_toOption_map h
  exact ⟨a, (run x s).2, Prod.ext ha rfl, hf⟩

/-- An attempt without a result of its own has succeeded if it has not been refused. -/
theorem run_eq_ok_of_isOk {x : Attempt σ ε Unit} {s : σ} (h : (run x s).1.isOk = true) :
    run x s = (.ok (), (run x s).2) :=
  Prod.ext (Except.eq_ok_of_isOk h) rfl

/-- A reason that is found belongs to a refused run. -/
theorem exists_run_eq_error {x : Attempt σ ε α} {s : σ} {e : ε}
    (h : (run x s).1.refusal? = some e) : ∃ t, run x s = (.error e, t) := by
  cases hx : run x s with
  | mk r t =>
    rw [hx] at h
    cases r with
    | error e' => cases h; exact ⟨t, rfl⟩
    | ok a => cases h

/-- A result that is just given comes with the state as it was. -/
theorem run_pure_eq_ok {a b : α} {s t : σ} :
    run (pure a : Attempt σ ε α) s = (.ok b, t) ↔ a = b ∧ s = t := by
  simp

/-- A pure computation succeeds by itself, and leaves the state as it was. -/
theorem run_ofExcept_eq_ok {x : Except ε α} {s t : σ} {a : α} :
    run (ofExcept x) s = (.ok a, t) ↔ x = .ok a ∧ s = t := by
  simp

/-- A successful read leaves the state as it was. -/
theorem run_read_eq_ok {f : σ → Except ε α} {s t : σ} {a : α} :
    run (read f) s = (.ok a, t) ↔ f s = .ok a ∧ s = t := by
  simp

/-- A successful change replaces the state by the changed one. -/
theorem run_change_eq_ok {f : σ → Except ε σ} {s t : σ} :
    run (change f) s = (.ok (), t) ↔ f s = .ok t := by
  rw [run_change]
  cases f s <;> simp

/-- A refused change leaves the state as it was. -/
theorem run_change_error {f : σ → Except ε σ} {s t : σ} {e : ε}
    (h : run (change f) s = (.error e, t)) : f s = .error e ∧ s = t := by
  rw [run_change] at h
  cases hf : f s with
  | error e' => simp_all
  | ok u => simp [hf] at h

/-- Another wording of refusals changes neither a result nor the state. -/
theorem run_mapError (f : ε → δ) (x : Attempt σ ε α) (s : σ) :
    run (mapError f x) s = ((run x s).1.mapError f, (run x s).2) := by
  simp only [run, mapError]
  cases x s with
  | mk r t => cases r <;> rfl

/-- Another wording of refusals makes no difference to a successful run. -/
theorem run_mapError_eq_ok {f : ε → δ} {x : Attempt σ ε α} {s t : σ} {a : α} :
    run (mapError f x) s = (.ok a, t) ↔ run x s = (.ok a, t) := by
  rw [run_mapError]
  cases run x s with
  | mk r u => cases r <;> simp [Except.mapError]

/-- An attempt on a part succeeds if it does on the part, which is put back. -/
theorem run_within_eq_ok {part : σ → τ} {put : τ → σ → σ} {x : Attempt τ ε α} {s t : σ} {a : α} :
    run (within part put x) s = (.ok a, t) ↔
      ∃ u, run x (part s) = (.ok a, u) ∧ put u s = t := by
  rw [run_within]
  constructor
  · intro h
    obtain ⟨hr, hput⟩ := Prod.mk.inj h
    exact ⟨(run x (part s)).2, Prod.ext hr rfl, hput⟩
  · rintro ⟨u, hx, hput⟩
    rw [hx, hput]

/-- Attempts for several items succeed one after the other. -/
theorem run_forEach_cons_eq_ok {f : α → Attempt σ ε Unit} {a : α} {l : List α} {s u : σ} :
    run (forEach f (a :: l)) s = (.ok (), u) ↔
      ∃ t, run (f a) s = (.ok (), t) ∧ run (forEach f l) t = (.ok (), u) :=
  run_bind_eq_ok.trans ⟨fun ⟨_, t, h⟩ => ⟨t, h⟩, fun ⟨t, h⟩ => ⟨(), t, h⟩⟩

/-! ## Refused runs -/

/-- A refused sequence is refused in its first part or, behind a successful first part, in its
second one. -/
theorem run_bind_eq_error {x : Attempt σ ε α} {f : α → Attempt σ ε β} {s u : σ} {e : ε} :
    run (x >>= f) s = (.error e, u) ↔
      run x s = (.error e, u) ∨ ∃ a t, run x s = (.ok a, t) ∧ run (f a) t = (.error e, u) := by
  rw [run_bind]
  cases run x s with
  | mk r t => cases r <;> simp

/-- What is done to the result of an attempt is not refused. -/
theorem run_bind_pure_eq_error {x : Attempt σ ε α} {f : α → β} {s u : σ} {e : ε} :
    run (x >>= fun a => pure (f a)) s = (.error e, u) ↔ run x s = (.error e, u) := by
  rw [run_bind_eq_error]
  refine or_iff_left ?_
  rintro ⟨a, t, -, hpure⟩
  cases hpure

/-- Of several attempts, the items in front of the first refused one have been dealt with. -/
theorem run_forEach_eq_error {f : α → Attempt σ ε Unit} {items : List α} {s u : σ} {e : ε} :
    run (forEach f items) s = (.error e, u) ↔
      ∃ done a rest t, items = done ++ a :: rest ∧ run (forEach f done) s = (.ok (), t) ∧
        run (f a) t = (.error e, u) := by
  induction items generalizing s with
  -- No items, and so none that could be refused.
  | nil =>
    constructor
    · intro h
      cases h
    · rintro ⟨done, a, rest, t, hitems, -⟩
      exact absurd hitems.symm (List.append_ne_nil_of_right_ne_nil done (List.cons_ne_nil a rest))
  | cons b items ih =>
    have hcons : run (forEach f (b :: items)) s = (.error e, u) ↔ run (f b) s = (.error e, u) ∨
        ∃ r t, run (f b) s = (.ok r, t) ∧ run (forEach f items) t = (.error e, u) :=
      run_bind_eq_error
    rw [hcons]
    constructor
    · rintro (hfirst | ⟨_, t, hfirst, hrest⟩)
      · exact ⟨[], b, items, s, rfl, rfl, hfirst⟩
      · obtain ⟨done, a, rest, v, rfl, hdone, hlast⟩ := ih.1 hrest
        exact ⟨b :: done, a, rest, v, rfl, run_forEach_cons_eq_ok.2 ⟨t, hfirst, hdone⟩, hlast⟩
    · rintro ⟨done, a, rest, v, hitems, hdone, hlast⟩
      -- The first item is the refused one, or it is one of those that have been dealt with.
      cases done with
      | nil =>
        cases hitems
        cases hdone
        exact .inl hlast
      | cons c done =>
        cases hitems
        obtain ⟨t, hfirst, hdone⟩ := run_forEach_cons_eq_ok.1 hdone
        exact .inr ⟨(), t, hfirst, ih.2 ⟨done, a, rest, v, rfl, hdone, hlast⟩⟩

/-- A pure computation is refused by itself, and leaves the state as it was. -/
theorem run_ofExcept_eq_error {x : Except ε α} {s t : σ} {e : ε} :
    run (ofExcept x) s = (.error e, t) ↔ x = .error e ∧ s = t := by
  simp

/-- A refused read leaves the state as it was. -/
theorem run_read_eq_error {f : σ → Except ε α} {s t : σ} {e : ε} :
    run (read f) s = (.error e, t) ↔ f s = .error e ∧ s = t := by
  simp

/-! ## Properties that an attempt keeps -/

/-- The attempt leaves the property intact, whatever its outcome. -/
def Keeps (P : σ → Prop) (x : Attempt σ ε α) : Prop := ∀ s, P s → P (run x s).2

namespace Keeps

variable {P : σ → Prop}

/-- What is kept holds behind a run, whether the run succeeds or not. -/
theorem of_run {x : Attempt σ ε α} (hx : Keeps P x) {s t : σ} {r : Except ε α}
    (hrun : run x s = (r, t)) (hs : P s) : P t := by
  have ht := hx s hs
  rw [hrun] at ht
  exact ht

/-- An attempt that never touches the state keeps everything. -/
theorem of_state_eq {x : Attempt σ ε α} (h : ∀ s, (run x s).2 = s) : Keeps P x := by
  intro s hs
  rw [h]
  exact hs

/-- There is nothing to keep. -/
theorem always (x : Attempt σ ε α) : Keeps (fun _ => True) x := fun _ _ => trivial

/-- A result that is just given does not touch the state. -/
theorem pure (a : α) : Keeps P (Pure.pure a : Attempt σ ε α) := of_state_eq fun _ => rfl

/-- A pure computation does not touch the state. -/
theorem ofExcept (x : Except ε α) : Keeps P (Attempt.ofExcept x : Attempt σ ε α) :=
  of_state_eq fun _ => rfl

/-- A read does not touch the state. -/
theorem read (f : σ → Except ε α) : Keeps P (Attempt.read f) := of_state_eq fun _ => rfl

/-- Looking at the state does not touch it. -/
theorem get : Keeps P (Attempt.get : Attempt σ ε σ) := of_state_eq fun _ => rfl

/-- A sequence keeps what both of its parts keep. -/
theorem bind {x : Attempt σ ε α} {f : α → Attempt σ ε β} (hx : Keeps P x)
    (hf : ∀ a, Keeps P (f a)) : Keeps P (x >>= f) := by
  intro s hs
  -- The first part may be refused, which ends the sequence with what it has left behind.
  have hs' := hx s hs
  rw [run_bind]
  cases hr : run x s with
  | mk r t =>
    rw [hr] at hs'
    cases r with
    | error e => exact hs'
    | ok a => exact hf a t hs'

/-- The second part may rely on what the first one has found out. -/
theorem bind_of_ok {x : Attempt σ ε α} {f : α → Attempt σ ε β} (hx : Keeps P x)
    (hf : ∀ s a t, P s → run x s = (.ok a, t) → Keeps P (f a)) : Keeps P (x >>= f) := by
  intro s hs
  have hs' := hx s hs
  rw [run_bind]
  cases hr : run x s with
  | mk r t =>
    rw [hr] at hs'
    cases r with
    | error e => exact hs'
    | ok a => exact hf s a t hs hr t hs'

/-- A change keeps what each change that it makes keeps; a refused one changes nothing. -/
theorem change {f : σ → Except ε σ} (hf : ∀ s t, f s = .ok t → P s → P t) :
    Keeps P (Attempt.change f) := by
  intro s hs
  rw [run_change]
  cases h : f s with
  | error e => exact hs
  | ok t => exact hf s t h hs

/-- An attempt on a part keeps what its changes of that part keep. -/
theorem within {Q : τ → Prop} {part : σ → τ} {put : τ → σ → σ} {x : Attempt τ ε α}
    (hx : Keeps Q x) (hpart : ∀ s, P s → Q (part s)) (hput : ∀ s t, P s → Q t → P (put t s)) :
    Keeps P (Attempt.within part put x) := by
  intro s hs
  rw [run_within]
  exact hput s _ hs (hx _ (hpart s hs))

/-- Attempts for several items keep what each of them keeps. -/
theorem forEach {f : α → Attempt σ ε Unit} (hf : ∀ a, Keeps P (f a)) (l : List α) :
    Keeps P (Attempt.forEach f l) := by
  induction l with
  | nil => exact pure ()
  | cons a l ih => exact bind (hf a) fun _ => ih

end Keeps

/-! ## Reasons that an attempt is refused for -/

/-- From states with the property `P`, the attempt is only refused for reasons with the property
`Q`. -/
def RefusesOnly (P : σ → Prop) (Q : ε → Prop) (x : Attempt σ ε α) : Prop :=
  ∀ s, P s → ∀ e t, run x s = (.error e, t) → Q e

namespace RefusesOnly

variable {P : σ → Prop} {Q : ε → Prop}

/-- A result that is just given is not refused. -/
theorem pure (a : α) : RefusesOnly P Q (Pure.pure a : Attempt σ ε α) := fun _ _ _ _ h => nomatch h

/-- Looking at the state is not refused. -/
theorem get : RefusesOnly P Q (Attempt.get : Attempt σ ε σ) := fun _ _ _ _ h => nomatch h

/-- Replacing the state is not refused. -/
theorem set (u : σ) : RefusesOnly P Q (Attempt.set u : Attempt σ ε Unit) :=
  fun _ _ _ _ h => nomatch h

/-- A pure computation is refused for its own reasons. -/
theorem ofExcept {x : Except ε α} (h : ∀ e, x = .error e → Q e) :
    RefusesOnly P Q (Attempt.ofExcept x : Attempt σ ε α) :=
  fun _ _ e _ hrun => h e (run_ofExcept_eq_error.1 hrun).1

/-- A read is refused for the reasons that states with the property give. -/
theorem read {f : σ → Except ε α} (h : ∀ s, P s → ∀ e, f s = .error e → Q e) :
    RefusesOnly P Q (Attempt.read f) :=
  fun s hs e _ hrun => h s hs e (run_read_eq_error.1 hrun).1

/-- A change is refused for the reasons that states with the property give. -/
theorem change {f : σ → Except ε σ} (h : ∀ s, P s → ∀ e, f s = .error e → Q e) :
    RefusesOnly P Q (Attempt.change f) :=
  fun s hs e _ hrun => h s hs e (run_change_error hrun).1

/-- Behind a first part that keeps `P`, the second one is refused for its own reasons. -/
theorem bind {x : Attempt σ ε α} {f : α → Attempt σ ε β} (hx : RefusesOnly P Q x)
    (hkeeps : Keeps P x) (hf : ∀ s a t, P s → run x s = (.ok a, t) → RefusesOnly P Q (f a)) :
    RefusesOnly P Q (x >>= f) := by
  intro s hs e u hrun
  obtain hfirst | ⟨a, t, hfirst, hsecond⟩ := run_bind_eq_error.1 hrun
  · exact hx s hs e u hfirst
  · -- The first part has kept the property for the second one.
    exact hf s a t hs hfirst t (hkeeps.of_run hfirst hs) e u hsecond

/-- An attempt with another kind of refusal is refused for reasons of that kind. -/
theorem mapError {f : ε → δ} {R : δ → Prop} (h : ∀ e, R (f e)) (x : Attempt σ ε α) :
    RefusesOnly P R (Attempt.mapError f x) := by
  intro s _ d t hrun
  rw [run_mapError] at hrun
  obtain ⟨e, -, rfl⟩ := Except.mapError_eq_error_iff.1 (Prod.mk.inj hrun).1
  exact h e

/-- An attempt on a part is refused for the reasons that the part gives. -/
theorem within {R : τ → Prop} {part : σ → τ} {put : τ → σ → σ} {x : Attempt τ ε α}
    (hx : RefusesOnly R Q x) (hpart : ∀ s, P s → R (part s)) :
    RefusesOnly P Q (Attempt.within part put x) := by
  intro s hs e t hrun
  rw [run_within] at hrun
  exact hx (part s) (hpart s hs) e _ (Prod.ext (Prod.mk.inj hrun).1 rfl)

end RefusesOnly

/-- The attempt is not refused in any state. -/
abbrev NeverRefused (x : Attempt σ ε α) : Prop := RefusesOnly (fun _ => True) (fun _ => False) x

/-- A sequence is never refused if none of its parts is. -/
theorem NeverRefused.bind {x : Attempt σ ε α} {f : α → Attempt σ ε β} (hx : NeverRefused x)
    (hf : ∀ a, NeverRefused (f a)) : NeverRefused (x >>= f) :=
  RefusesOnly.bind hx (Keeps.always x) fun _ a _ _ _ => hf a

/-! ## Properties that a refusal keeps -/

/-- A refusal of the attempt leaves the property intact, whatever a success does to it. -/
def RefusedKeeps (P : σ → Prop) (x : Attempt σ ε α) : Prop :=
  ∀ s, P s → ∀ e t, run x s = (.error e, t) → P t

namespace RefusedKeeps

variable {P : σ → Prop}

/-- What every run keeps is kept by a refused one. -/
theorem of_keeps {x : Attempt σ ε α} (hx : Keeps P x) : RefusedKeeps P x :=
  fun _ hs _ _ hrun => hx.of_run hrun hs

/-- An attempt that is never refused has no refusal to keep anything. -/
theorem of_neverRefused {x : Attempt σ ε α} (hx : NeverRefused x) : RefusedKeeps P x :=
  fun s _ e t hrun => (hx s trivial e t hrun).elim

/-- A refused change leaves the state as it was, and so everything about it. -/
theorem change (f : σ → Except ε σ) : RefusedKeeps P (Attempt.change f) :=
  fun _ hs _ _ hrun => (run_change_error hrun).2 ▸ hs

/-- A sequence is refused in its first part, or behind it. -/
theorem bind {x : Attempt σ ε α} {f : α → Attempt σ ε β} (hx : Keeps P x)
    (hf : ∀ a, RefusedKeeps P (f a)) : RefusedKeeps P (x >>= f) := by
  intro s hs e u hrun
  obtain hfirst | ⟨a, t, hfirst, hsecond⟩ := run_bind_eq_error.1 hrun
  · exact hx.of_run hfirst hs
  · exact hf a t (hx.of_run hfirst hs) e u hsecond

/-- What is never refused may stand behind anything. -/
theorem bind_neverRefused {x : Attempt σ ε α} {f : α → Attempt σ ε β} (hx : RefusedKeeps P x)
    (hf : ∀ a, NeverRefused (f a)) : RefusedKeeps P (x >>= f) := by
  intro s hs e u hrun
  obtain hfirst | ⟨a, t, -, hsecond⟩ := run_bind_eq_error.1 hrun
  · exact hx s hs e u hfirst
  · exact (hf a t trivial e u hsecond).elim

end RefusedKeeps

end ChainEconomy.Attempt
