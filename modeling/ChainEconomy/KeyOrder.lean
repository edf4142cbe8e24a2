import ChainEconomy.Text.Hex

/-! # Ordered keys

A key type with a total order, given by one three-way comparison and its laws. Numbers, characters
and bytes are compared by value; lists and texts by the first place where they differ. -/

namespace ChainEconomy

/-- A total order on a key type, as a three-way comparison. -/
class KeyOrder (κ : Type) where
  cmp : κ → κ → Ordering
  eq_of_cmp : ∀ {a b : κ}, cmp a b = .eq → a = b
  cmp_self : ∀ a : κ, cmp a a = .eq
  cmp_swap : ∀ a b : κ, cmp b a = (cmp a b).swap
  lt_trans : ∀ {a b c : κ}, cmp a b = .lt → cmp b c = .lt → cmp a c = .lt

namespace KeyOrder

variable {κ ι : Type}

/-- The key `a` stands before the key `b`. -/
def Before [KeyOrder κ] (a b : κ) : Prop := cmp a b = .lt

instance [KeyOrder κ] (a b : κ) : Decidable (Before a b) :=
  inferInstanceAs (Decidable (cmp a b = .lt))

/-- What stands before a key stands before all that come after that key. -/
theorem Before.trans [KeyOrder κ] {a b c : κ} (hab : Before a b) (hbc : Before b c) :
    Before a c := lt_trans hab hbc

/-- No key stands before itself. -/
theorem not_before_self [KeyOrder κ] (a : κ) : ¬ Before a a := by
  simp [Before, cmp_self]

/-- A key that stands before another is another key. -/
theorem Before.ne [KeyOrder κ] {a b : κ} (h : Before a b) : a ≠ b := by
  rintro rfl
  exact not_before_self a h

/-- Keys that compare as equal are equal. -/
theorem cmp_eq_iff [KeyOrder κ] {a b : κ} : cmp a b = .eq ↔ a = b :=
  ⟨eq_of_cmp, by rintro rfl; exact cmp_self a⟩

/-- The second key comes after exactly when the first comes before. -/
theorem cmp_gt_iff [KeyOrder κ] {a b : κ} : cmp a b = .gt ↔ Before b a := by
  unfold Before
  rw [cmp_swap a b]
  cases cmp a b <;> decide

/-- The order of one key type carried over to another along an injection. -/
@[reducible] def ofInjection [KeyOrder ι] (f : κ → ι) (hf : ∀ {a b}, f a = f b → a = b) :
    KeyOrder κ where
  cmp a b := cmp (f a) (f b)
  eq_of_cmp h := hf (eq_of_cmp h)
  cmp_self a := cmp_self (f a)
  cmp_swap a b := cmp_swap (f a) (f b)
  lt_trans := lt_trans

/-- The three-way comparison of two numbers. -/
def cmpNat (a b : Nat) : Ordering :=
  if Nat.blt a b then .lt else if Nat.beq a b then .eq else .gt

/-- Numbers compare as less exactly if they are. -/
theorem cmpNat_eq_lt {a b : Nat} : cmpNat a b = .lt ↔ a < b := by
  unfold cmpNat
  split <;> (try split) <;> simp_all

/-- Numbers compare as equal exactly if they are. -/
theorem cmpNat_eq_eq {a b : Nat} : cmpNat a b = .eq ↔ a = b := by
  unfold cmpNat
  split <;> (try split) <;> simp_all
  omega

/-- Numbers compare as greater exactly if they are. -/
theorem cmpNat_eq_gt {a b : Nat} : cmpNat a b = .gt ↔ b < a := by
  unfold cmpNat
  split <;> (try split) <;> simp_all <;> omega

instance : KeyOrder Nat where
  cmp := cmpNat
  eq_of_cmp := cmpNat_eq_eq.1
  cmp_self _ := cmpNat_eq_eq.2 rfl
  cmp_swap a b := by
    rcases Nat.lt_trichotomy a b with h | h | h
    · rw [cmpNat_eq_lt.2 h, cmpNat_eq_gt.2 h]; rfl
    · rw [cmpNat_eq_eq.2 h, cmpNat_eq_eq.2 h.symm]; rfl
    · rw [cmpNat_eq_gt.2 h, cmpNat_eq_lt.2 h]; rfl
  lt_trans hab hbc := cmpNat_eq_lt.2 (Nat.lt_trans (cmpNat_eq_lt.1 hab) (cmpNat_eq_lt.1 hbc))

instance : KeyOrder Char := ofInjection Char.toNat Char.toNat_inj.1

instance : KeyOrder UInt8 := ofInjection UInt8.toNat UInt8.toNat_inj.1

instance : KeyOrder UInt64 := ofInjection UInt64.toNat UInt64.toNat_inj.1

/-- Lists are compared at the first place where they differ; a list that stops first comes first. -/
def cmpList [KeyOrder κ] : List κ → List κ → Ordering
  | [], [] => .eq
  | [], _ :: _ => .lt
  | _ :: _, [] => .gt
  | a :: as, b :: bs => (cmp a b).then (cmpList as bs)

instance [KeyOrder κ] : KeyOrder (List κ) where
  cmp := cmpList
  eq_of_cmp {as bs} h := by
    induction as generalizing bs with
    | nil => cases bs <;> simp_all [cmpList]
    | cons a as ih =>
      cases bs with
      | nil => simp [cmpList] at h
      | cons b bs =>
        simp only [cmpList, Ordering.then_eq_eq] at h
        rw [eq_of_cmp h.1, ih h.2]
  cmp_self as := by
    induction as with
    | nil => rfl
    | cons a as ih => simp [cmpList, cmp_self, ih]
  cmp_swap as bs := by
    induction as generalizing bs with
    | nil => cases bs <;> rfl
    | cons a as ih =>
      cases bs with
      | nil => rfl
      | cons b bs => simp [cmpList, cmp_swap a b, ih bs, Ordering.swap_then]
  lt_trans {as bs cs} hab hbc := by
    induction as generalizing bs cs with
    | nil =>
      cases bs with
      | nil => simp [cmpList] at hab
      | cons b bs => cases cs <;> simp_all [cmpList]
    | cons a as ih =>
      cases bs with
      | nil => simp [cmpList] at hab
      | cons b bs =>
        cases cs with
        | nil => simp [cmpList] at hbc
        | cons c cs =>
          simp only [cmpList, Ordering.then_eq_lt] at hab hbc ⊢
          -- Either the first places decide, in one of the two comparisons or in both, or both are
          -- equal and the rests decide.
          rcases hab with hab | ⟨hab, hasbs⟩
          · rcases hbc with hbc | ⟨hbc, -⟩
            · exact .inl (lt_trans hab hbc)
            · rw [← eq_of_cmp hbc]; exact .inl hab
          · rw [eq_of_cmp hab]
            rcases hbc with hbc | ⟨hbc, hbscs⟩
            · exact .inl hbc
            · exact .inr ⟨hbc, ih hasbs hbscs⟩

instance : KeyOrder String := ofInjection String.toList String.toList_injective

end KeyOrder

end ChainEconomy
