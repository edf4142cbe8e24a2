import ChainEconomy.KeyOrder
import ChainEconomy.Proofs.TextRoundTrip

/-!
# Texts in the order of their bytes

Texts are compared character by character. Their bytes compare the same way: of two characters, the
one with the smaller code point has the smaller first byte or else, among as many bytes, the smaller
one where they first differ. So the entries of a map whose keys are texts ascend by the bytes of the
keys as well.

## Key results

- `Text.Utf8.cmp_encode`: bytes compare like the characters that they stand for
- `Text.Utf8.before_ofString`: the same for the order of strings
-/

namespace ChainEconomy

open KeyOrder

namespace KeyOrder

/-- Lists with a common start compare like what is behind it. -/
theorem cmpList_append_left {κ : Type} [KeyOrder κ] (start as bs : List κ) :
    cmpList (start ++ as) (start ++ bs) = cmpList as bs := by
  induction start with
  | nil => rfl
  | cons a start ih => rw [List.cons_append, List.cons_append, cmpList, cmp_self, ih]; rfl

end KeyOrder

namespace Text.Utf8

/-- Bytes compare like the numbers that they stand for. -/
private theorem cmp_byte {m n : Nat} (hm : m < 256) (hn : n < 256) :
    KeyOrder.cmp (UInt8.ofNat m) (UInt8.ofNat n) = cmpNat m n := by
  show cmpNat (UInt8.ofNat m).toNat (UInt8.ofNat n).toNat = cmpNat m n
  rw [UInt8.toNat_ofNat_of_lt' hm, UInt8.toNat_ofNat_of_lt' hn]

/-- The bytes of a character come before those of every larger one, whatever follows them. -/
private theorem before_encodeChar {c d : Char} (h : c.toNat < d.toNat) (as bs : Bytes) :
    Before (encodeChar c ++ as) (encodeChar d ++ bs) := by
  -- A larger character has no fewer bytes, and its first byte is no smaller.
  have hrange := toNat_ranges d
  show cmpList (encodeChar c ++ as) (encodeChar d ++ bs) = .lt
  unfold encodeChar
  generalize c.toNat = m at h ⊢
  generalize d.toNat = n at h hrange ⊢
  dsimp only
  -- More bytes start with a larger one. As many bytes differ where the bits of the numbers do.
  split_ifs <;>
    simp (disch := omega) only [List.cons_append, List.nil_append, cmpList, cmp_byte,
      Ordering.then_eq_lt, cmpNat_eq_lt, cmpNat_eq_eq] <;>
    omega

/-- Every character has at least one byte. -/
private theorem encodeChar_ne_nil (c : Char) : encodeChar c ≠ [] := by
  unfold encodeChar
  dsimp only
  split_ifs <;> exact List.cons_ne_nil _ _

/-- The bytes of two texts compare like their characters. -/
private theorem cmpList_encode (cs ds : List Char) :
    cmpList (encode cs) (encode ds) = cmpList cs ds := by
  have hcons : ∀ c rest, encode (c :: rest) = encodeChar c ++ encode rest :=
    fun _ _ => List.flatMap_cons
  have hnil : encode [] = [] := rfl
  -- Both texts are gone through at once; the first characters that differ decide.
  induction cs generalizing ds with
  | nil =>
    cases ds with
    | nil => rfl
    -- The shorter text comes first, and so do its bytes.
    | cons d ds =>
      obtain ⟨b, bytes, hbytes⟩ := List.exists_cons_of_ne_nil (encodeChar_ne_nil d)
      rw [hcons, hbytes]
      rfl
  | cons c cs ih =>
    cases ds with
    | nil =>
      obtain ⟨b, bytes, hbytes⟩ := List.exists_cons_of_ne_nil (encodeChar_ne_nil c)
      rw [hcons, hbytes]
      rfl
    | cons d ds =>
      rw [hcons, hcons, cmpList]
      rcases Nat.lt_trichotomy c.toNat d.toNat with hlt | heq | hgt
      · have hfirst : KeyOrder.cmp c d = .lt := cmpNat_eq_lt.2 hlt
        have hbytes : cmpList (encodeChar c ++ encode cs) (encodeChar d ++ encode ds) = .lt :=
          before_encodeChar hlt _ _
        rw [hbytes, hfirst]
        rfl
      · obtain rfl := Char.toNat_inj.1 heq
        -- The same character has the same bytes, which do not decide anything.
        rw [cmpList_append_left, ih, cmp_self]
        rfl
      · have hfirst : KeyOrder.cmp c d = .gt := cmpNat_eq_gt.2 hgt
        have hbytes : cmpList (encodeChar c ++ encode cs) (encodeChar d ++ encode ds) = .gt :=
          cmp_gt_iff.2 (before_encodeChar hgt (encode ds) (encode cs))
        rw [hbytes, hfirst]
        rfl

/-- The bytes of texts compare like the texts. -/
theorem cmp_encode (cs ds : List Char) :
    KeyOrder.cmp (encode cs) (encode ds) = KeyOrder.cmp cs ds := cmpList_encode cs ds

/-- A string comes before another one exactly if its bytes do. -/
theorem before_ofString {a b : String} : Before (ofString a) (ofString b) ↔ Before a b := by
  unfold Before
  rw [ofString, ofString, cmp_encode]
  rfl

end Text.Utf8

end ChainEconomy
