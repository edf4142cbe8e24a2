import ChainEconomy.Proofs.EconomySoundness

/-!
# A genesis that is written in several attempts

A medium may fail at any write of a genesis, and may fail at other keys the next time. What such an
attempt leaves behind is a part of the genesis and nothing else, and the state of the minter, which
is written last, is never among it. The store is therefore still taken as one that has not been
initialised, and an attempt that gets through fills the gaps: nothing tells its result from that of
a single attempt on an empty store. Since the medium belongs to a store, it is made to change here
between one write and the next.

## Key results

- `initDuring`, `init_eq_during`: a genesis that is written while the medium changes
- `Unfinished`: a part of the genesis, without the state of the minter
- `initDuring_refused`, `holds_of_initDuring`: what a refused and what a successful attempt leave
- `init_recovers`: any number of attempts
-/

namespace ChainEconomy

open Attempt

namespace Store

/-- The same entries on a medium that does not fail. -/
def onSound (s : Store) : Store := { s with medium := .sound }

/-- What a medium takes, one that does not fail takes as well. -/
theorem set_onSound {s t : Store} {key value : Bytes} (h : s.set key value = .ok t) :
    s.onSound.set key value = .ok t.onSound := by
  obtain ⟨-, rfl⟩ := set_eq_ok_iff.1 h
  rfl

end Store

namespace Governance.Genesis

/-! ## Writing on a changing medium -/

/-- The medium under a store becomes another one. -/
def remount (change : Medium → Medium) : Attempt Store Error Unit :=
  Attempt.change fun s => .ok { s with medium := change s.medium }

/-- Writes the marks of excluded types; the first one is the write at the given position. -/
def markDuring (media : Nat → Medium → Medium) (position : Nat) :
    List String → Attempt Store Error Unit
  | [] => pure ()
  | text :: rest => do
    remount (media position)
    Proposal.write fun s => Fee.Exclusions.add s text
    markDuring media (position + 1) rest

/-- Writes a genesis into a store whose medium changes in front of each write. -/
def initDuring (media : Nat → Medium → Medium) (g : Genesis) : Attempt Store Error Unit := do
  ofExcept g.check
  remount (media 0)
  change (saveFee g.feeParams)
  remount (media 1)
  change (saveMint g.mintParams)
  markDuring media 2 g.excludedTypes
  remount (media (2 + g.excludedTypes.length))
  Proposal.write g.minter.save

/-- Marks are written as usual on a medium that stays as it is. -/
theorem markDuring_same (position : Nat) (types : List String) :
    markDuring (fun _ m => m) position types =
      forEach (fun text => Proposal.write fun s => Fee.Exclusions.add s text) types := by
  -- By induction on the types, at any position.
  induction types generalizing position with
  | nil => rfl
  | cons text rest ih =>
    rw [markDuring, ih]
    rfl

/-- A medium that becomes what it has been is one that stays as it is. -/
theorem init_eq_during (g : Genesis) : g.init = g.initDuring fun _ m => m := by
  unfold init initDuring
  simp only [markDuring_same]
  rfl

/-! ## What a refused attempt leaves behind -/

/-- There are entries of the genesis only; some may be missing, and the state of the minter is. -/
structure Unfinished (g : Genesis) (s : Store) : Prop where
  part : ∀ key value, s.entries.find? key = some value → g.valueAt key = some value
  minter : s.entries.find? Store.minterKey = none

namespace Unfinished

variable {g : Genesis}

/-- An empty store is an unfinished genesis. -/
theorem empty (m : Medium) : g.Unfinished (Store.empty m) where
  part _ _ h := nomatch h
  minter := rfl

/-- An entry of the genesis that is not the state of the minter has been written. -/
theorem set {s t : Store} {key value : Bytes} (h : g.Unfinished s) (hset : s.set key value = .ok t)
    (hvalue : g.valueAt key = some value) (hkey : Store.minterKey ≠ key) : g.Unfinished t := by
  -- The state of the minter has another key, and everything else was part of the genesis before.
  obtain ⟨-, rfl⟩ := Store.set_eq_ok_iff.1 hset
  refine ⟨fun other found hfound => ?_, ?_⟩
  · dsimp only at hfound
    rw [OrderedMap.find?_insert] at hfound
    split at hfound
    · next hother => rw [hother, ← hfound, hvalue]
    · exact h.part other found hfound
  · dsimp only
    rw [OrderedMap.find?_insert_of_ne _ _ hkey, h.minter]

/-- The medium has nothing to do with what has been written. -/
theorem remount_keeps (change : Medium → Medium) : Keeps g.Unfinished (remount change) :=
  Keeps.change fun _ _ ht h => by
    cases ht
    exact ⟨h.part, h.minter⟩

/-- The parameters of the fees belong to the genesis. -/
theorem saveFee_keeps : Keeps g.Unfinished (change (saveFee g.feeParams)) :=
  Keeps.change fun _ _ hsave h =>
    h.set (saveFee_eq_ok_iff.1 hsave).2 g.valueAt_fee Store.minterKey_ne_fee

/-- The parameters of the minter belong to the genesis. -/
theorem saveMint_keeps : Keeps g.Unfinished (change (saveMint g.mintParams)) :=
  Keeps.change fun _ _ hsave h =>
    h.set (saveMint_eq_ok_iff.1 hsave).2 g.valueAt_mint Store.minterKey_ne_mint

/-- The marks belong to the genesis, each of them and however many have been written. -/
theorem markDuring_keeps (media : Nat → Medium → Medium) (position : Nat) {types : List String}
    (htypes : ∀ text ∈ types, text ∈ g.excludedTypes) :
    Keeps g.Unfinished (markDuring media position types) := by
  -- By induction on the types.
  induction types generalizing position with
  | nil => exact Keeps.pure ()
  | cons text rest ih =>
    obtain ⟨htext, hrest⟩ := List.forall_mem_cons.1 htypes
    refine Keeps.bind (remount_keeps _) fun _ => Keeps.bind ?_ fun _ => ih _ hrest
    refine Keeps.change fun s t hadd h => ?_
    have hmark : g.valueAt (Store.exclusionKey text) = some Fee.Exclusions.mark := by
      rw [g.valueAt_exclusionKey, if_pos htext]
    exact h.set (Except.mapError_eq_ok_iff.1 hadd) hmark (Store.exclusionKey_ne_minter text).symm

end Unfinished

/-- Whatever write is refused, the state of the minter has not been written, and what has been
written belongs to the genesis. -/
theorem initDuring_refused {g : Genesis} {media : Nat → Medium → Medium} {s t : Store} {e : Error}
    (hs : g.Unfinished s) (h : (g.initDuring media).run s = (.error e, t)) : g.Unfinished t := by
  -- Every write but the last one is a part of the genesis, whether or not it is the last to
  -- succeed.
  refine RefusedKeeps.bind (Keeps.ofExcept _) (fun _ => ?_) s hs e t h
  refine RefusedKeeps.bind (Unfinished.remount_keeps _) fun _ => ?_
  refine RefusedKeeps.bind Unfinished.saveFee_keeps fun _ => ?_
  refine RefusedKeeps.bind (Unfinished.remount_keeps _) fun _ => ?_
  refine RefusedKeeps.bind Unfinished.saveMint_keeps fun _ => ?_
  refine RefusedKeeps.bind (Unfinished.markDuring_keeps media 2 fun _ h => h) fun _ => ?_
  refine RefusedKeeps.bind (Unfinished.remount_keeps _) fun _ => ?_
  -- The last write is that of the minter, and a write that is refused changes nothing.
  exact RefusedKeeps.change _

/-! ## What a successful attempt leaves behind -/

/-- With the medium left aside, a change of the medium changes nothing. -/
theorem onSound_of_remount {change : Medium → Medium} {s t : Store}
    (h : (remount change).run s = (.ok (), t)) : t.onSound = s.onSound := by
  cases run_change_eq_ok.1 h
  rfl

/-- Marks that have been written on a changing medium are written on one that does not fail. -/
theorem marks_of_markDuring {media : Nat → Medium → Medium} {position : Nat} {types : List String}
    {s t : Store} (h : (markDuring media position types).run s = (.ok (), t)) :
    (forEach (fun text => Proposal.write fun s => Fee.Exclusions.add s text) types).run s.onSound =
      (.ok (), t.onSound) := by
  -- By induction on the types.
  induction types generalizing position s with
  | nil =>
    cases h
    rfl
  | cons text rest ih =>
    obtain ⟨_, mounted, hmount, h⟩ := run_bind_eq_ok.1 h
    obtain ⟨_, marked, hmark, h⟩ := run_bind_eq_ok.1 h
    have hadd := Except.mapError_eq_ok_iff.1 (run_change_eq_ok.1 hmark)
    rw [← onSound_of_remount hmount]
    exact run_forEach_cons_eq_ok.2 ⟨marked.onSound,
      run_change_eq_ok.2 (Except.mapError_eq_ok_iff.2 (Store.set_onSound hadd)), ih h⟩

/-- An attempt that gets through on a changing medium writes what it writes on one that does not
fail. -/
theorem init_of_initDuring {g : Genesis} {media : Nat → Medium → Medium} {s t : Store}
    (h : (g.initDuring media).run s = (.ok (), t)) :
    g.init.run s.onSound = (.ok (), t.onSound) := by
  obtain ⟨_, _, hrunCheck, h⟩ := run_bind_eq_ok.1 h
  obtain ⟨hcheck, rfl⟩ := run_ofExcept_eq_ok.1 hrunCheck
  obtain ⟨_, first, hmountFirst, h⟩ := run_bind_eq_ok.1 h
  obtain ⟨_, withFee, hrunFee, h⟩ := run_bind_eq_ok.1 h
  obtain ⟨_, second, hmountSecond, h⟩ := run_bind_eq_ok.1 h
  obtain ⟨_, withMint, hrunMint, h⟩ := run_bind_eq_ok.1 h
  obtain ⟨_, withMarks, hmarks, h⟩ := run_bind_eq_ok.1 h
  obtain ⟨_, last, hmountLast, h⟩ := run_bind_eq_ok.1 h
  obtain ⟨hfeeCheck, hfee⟩ := saveFee_eq_ok_iff.1 (run_change_eq_ok.1 hrunFee)
  obtain ⟨hmintCheck, hmint⟩ := saveMint_eq_ok_iff.1 (run_change_eq_ok.1 hrunMint)
  have hminter := Except.mapError_eq_ok_iff.1 (run_change_eq_ok.1 h)
  -- The same writes in the same order, with nothing between them.
  rw [← onSound_of_remount hmountFirst]
  refine run_bind_eq_ok.2 ⟨(), first.onSound, run_ofExcept_eq_ok.2 ⟨hcheck, rfl⟩, ?_⟩
  refine run_bind_eq_ok.2 ⟨(), withFee.onSound, run_change_eq_ok.2
    (saveFee_eq_ok_iff.2 ⟨hfeeCheck, Store.set_onSound hfee⟩), ?_⟩
  rw [← onSound_of_remount hmountSecond]
  refine run_bind_eq_ok.2 ⟨(), withMint.onSound, run_change_eq_ok.2
    (saveMint_eq_ok_iff.2 ⟨hmintCheck, Store.set_onSound hmint⟩), ?_⟩
  refine run_bind_eq_ok.2 ⟨(), withMarks.onSound, marks_of_markDuring hmarks, ?_⟩
  rw [← onSound_of_remount hmountLast]
  exact run_change_eq_ok.2 (Except.mapError_eq_ok_iff.2 (Store.set_onSound hminter))

/-- An attempt that gets through fills the gaps that others have left. -/
theorem holds_of_initDuring {g : Genesis} {media : Nat → Medium → Medium} {s t : Store}
    (hs : g.Unfinished s) (h : (g.initDuring media).run s = (.ok (), t)) : t.Holds g := by
  intro key
  have hfound : t.entries.find? key = (g.valueAt key).or (s.entries.find? key) :=
    (find?_of_init (init_of_initDuring h)).2.2 key
  rw [hfound]
  -- An entry that was there before is one of the genesis, and has been written again.
  cases hbefore : s.entries.find? key with
  | none => exact Option.or_none
  | some value => rw [hs.part key value hbefore, Option.some_or]

/-! ## Any number of attempts -/

/-- The stores that refused attempts to write a genesis leave behind, the first of which has found
an empty store. -/
inductive Interrupted (g : Genesis) : Store → Prop
  | empty (m : Medium) : Interrupted g (Store.empty m)
  | again {s t : Store} {e : Error} (before : Interrupted g s) (media : Nat → Medium → Medium)
    (hrun : (g.initDuring media).run s = (.error e, t)) : Interrupted g t

/-- What refused attempts leave behind is unfinished. -/
theorem Interrupted.unfinished {g : Genesis} {s : Store} (h : g.Interrupted s) :
    g.Unfinished s := by
  -- By induction on the attempts.
  induction h with
  | empty m => exact Unfinished.empty m
  | again _ media hrun ih => exact initDuring_refused ih hrun

/-- An interrupted initialisation can be taken up again. However many attempts to write a genesis
have been refused, each of them at any write, the state of the minter is absent, so that the store
is taken as not initialised. An attempt that gets through leaves the entries that a single one
leaves in an empty store, among them both records of parameters, the state of the minter and a mark
for each excluded type. Nothing that earlier attempts have left stands in its way. -/
theorem init_recovers {g : Genesis} (hcheck : g.check = .ok ()) {s : Store}
    (hs : g.Interrupted s) :
    (g.init = g.initDuring fun _ m => m) ∧
    (s.entries.find? Store.minterKey = none ∧
      ∀ m, m.readFailure Store.minterKey = none →
        Mint.State.load { s with medium := m } = .ok none) ∧
    (∀ media t, (g.initDuring media).run s = (.ok (), t) →
      (∃ u, g.init.run (Store.empty .sound) = (.ok (), u) ∧ t.entries = u.entries) ∧
      ∀ key ∈ [Fee.Params.key, Mint.Params.key, Store.minterKey] ++
        g.excludedTypes.map Store.exclusionKey, key ∈ t.entries.keys) ∧
    ∃ t, g.init.run { s with medium := .sound } = (.ok (), t) := by
  have hpart := hs.unfinished
  refine ⟨g.init_eq_during, ⟨hpart.minter, fun m hm => ?_⟩, fun media t hrun => ?_,
    exists_init_eq_ok hcheck rfl⟩
  · unfold Mint.State.load Store.getRecord Store.get
    rw [hm, hpart.minter]
  · have hholds := holds_of_initDuring hpart hrun
    obtain ⟨u, hu⟩ := exists_init_eq_ok hcheck (s := Store.empty .sound) rfl
    -- Both stores hold the genesis, and a store is what is found in it.
    refine ⟨⟨u, hu, OrderedMap.ext_find? fun key => ?_⟩, fun key hkey => ?_⟩
    · rw [hholds key, holds_of_init hu key]
    · rw [OrderedMap.mem_keys_iff, hholds key, g.valueAt_isSome]
      exact hkey

/-! A genesis with two excluded types, and a medium that is full at one of its writes. -/

namespace Sample

/-- The sample genesis with two excluded types. -/
def twoTypes : Genesis :=
  { Chain.Sample.genesis.economy with excludedTypes := ["bank/Send", "names/RegisterName"] }

/-- A medium that is full at one write, and sound at all others. -/
def fullAt (write position : Nat) (_ : Medium) : Medium :=
  let full : Bytes → Option String := fun _ => some "out of space"
  if position = write then ⟨fun _ => none, full⟩ else .sound

/-- The store behind an attempt that has been refused at the second mark. -/
def markMissing : Store := ((twoTypes.initDuring (fullAt 3)).run (Store.empty .sound)).2

/-- The store behind another attempt, which has been refused at the state of the minter. -/
def minterMissing : Store := ((twoTypes.initDuring (fullAt 4)).run markMissing).2

/-- Neither of the two attempts has got through. -/
theorem minterMissing_interrupted : twoTypes.Interrupted minterMissing := by
  obtain ⟨t, hfirst⟩ : ∃ t, (twoTypes.initDuring (fullAt 3)).run (Store.empty .sound) =
      (.error (.storage (.corrupt (Store.exclusionKey "names/RegisterName")
        (.medium "out of space"))), t) :=
    exists_run_eq_error (by decide +kernel)
  obtain ⟨u, hsecond⟩ : ∃ u, (twoTypes.initDuring (fullAt 4)).run markMissing =
      (.error (.storage (.corrupt Store.minterKey (.medium "out of space"))), u) :=
    exists_run_eq_error (by decide +kernel)
  have ht : markMissing = t := congrArg Prod.snd hfirst
  have hu : minterMissing = u := congrArg Prod.snd hsecond
  rw [hu]
  exact .again (ht ▸ .again (.empty .sound) _ hfirst) _ hsecond

end Sample

/-- The third attempt writes what is missing. -/
theorem init_recovers_sample :
    Sample.twoTypes.check = .ok () ∧ Sample.twoTypes.Interrupted Sample.minterMissing ∧
      Sample.minterMissing.entries.size = 4 ∧
      Mint.State.load { Sample.minterMissing with medium := .sound } = .ok none ∧
      ∃ t u, Sample.twoTypes.init.run { Sample.minterMissing with medium := .sound } = (.ok (), t) ∧
        Sample.twoTypes.init.run (Store.empty .sound) = (.ok (), u) ∧ t.entries = u.entries := by
  have hcheck : Sample.twoTypes.check = .ok () := Except.eq_ok_of_isOk (by decide +kernel)
  obtain ⟨-, ⟨-, hload⟩, hentries, t, ht⟩ := init_recovers hcheck Sample.minterMissing_interrupted
  have hsize : Sample.minterMissing.entries.size = 4 := by decide +kernel
  -- The medium of the third attempt is there before its first write.
  have hrun : (Sample.twoTypes.initDuring fun _ _ => .sound).run Sample.minterMissing =
      (.ok (), t) := by
    rw [← ht]
    rfl
  obtain ⟨⟨u, hu, heq⟩, -⟩ := hentries _ _ hrun
  exact ⟨hcheck, Sample.minterMissing_interrupted, hsize, hload _ rfl, t, u, ht, hu, heq⟩

end Governance.Genesis

end ChainEconomy
