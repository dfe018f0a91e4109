import Ebut.Library.LittleEndian
import Ebut.Theory.Gf25519

/-!
# The Canonical Form of a Field Element

Whatever the limbs of an element are, `gfStrongReduce` returns the limbs of the one number below
the order that is the same element, and neither of the assertions in it fails.

## Main definitions

* `Gf25519.number`: The number that the limbs stand for.

## Theorems

* `strongReduce_spec`: What the two loops compute.
* `gfStrongReduce_below`, `gfStrongReduce_number`: The canonical limbs.
* `gfStrongReduceAsserts_hold`: The assertions between the loops.
-/

namespace Ebut

open FiveLimbs LittleEndian

/-- The number that the limbs stand for. -/
def Gf25519.number (x : Gf25519) : ℕ := x.limbs.number (2 ^ 51)

theorem Gf25519.elt_eq (x : Gf25519) : x.elt = (x.number : Field25519) := (number_cast _ _).symm

theorem Gf25519.val_elt (x : Gf25519) : x.elt.val = x.number % fieldOrder := by
  rw [x.elt_eq, ZMod.val_natCast]

section StrongReduce

theorem gfModulus_number : gfModulus.number = fieldOrder := by decide

/-- What is reduced weakly is below twice the order. -/
theorem number_lt_of_below {x : Gf25519} (hx : x.Below reducedLimb) :
    x.number < 2 * fieldOrder := by
  rcases hx with ⟨h0, h1, h2, h3, h4⟩
  unfold reducedLimb at h0 h1 h2 h3 h4
  unfold Gf25519.number Limbs.number fieldOrder
  omega

theorem strongReduceBorrow_spec (x : Gf25519) :
    IsDigits (2 ^ 51) (strongReduceBorrow x).1 ∧
      signedNumber (2 ^ 51) (strongReduceBorrow x).1 =
        ((x.number : ℤ) - fieldOrder) % (2 ^ 51) ^ 5 ∧
      (strongReduceBorrow x).2 = ((x.number : ℤ) - fieldOrder) / (2 ^ 51) ^ 5 := by
  have hdiff : signedNumber (2 ^ 51) ((x.limb0.toNat - gfModulus.limb0.toNat : ℤ),
      (x.limb1.toNat - gfModulus.limb1.toNat : ℤ), (x.limb2.toNat - gfModulus.limb2.toNat : ℤ),
      (x.limb3.toNat - gfModulus.limb3.toNat : ℤ), (x.limb4.toNat - gfModulus.limb4.toNat : ℤ)) =
      (x.number : ℤ) - fieldOrder := by
    rw [← gfModulus_number]
    unfold signedNumber Gf25519.number Limbs.number Gf25519.limbs
    push_cast
    ring
  rw [← hdiff]
  exact ⟨borrow_isDigits (by norm_num) _ _ _ _ _, borrow_spec (by norm_num) _ _ _ _ _⟩

/-- The two loops on what is reduced weakly: one that borrows is followed by one that carries, and
the digits are those of the remainder. -/
theorem strongReduce_spec {x : Gf25519} (hx : x.number < 2 * fieldOrder) :
    IsDigits (2 ^ 51) (strongReduceCarry (strongReduceBorrow x)).1 ∧
      signedNumber (2 ^ 51) (strongReduceCarry (strongReduceBorrow x)).1 =
        ((x.number % fieldOrder : ℕ) : ℤ) ∧
      ((strongReduceBorrow x).2 = 0 ∧ (strongReduceCarry (strongReduceBorrow x)).2 = 0 ∨
        (strongReduceBorrow x).2 = -1 ∧ (strongReduceCarry (strongReduceBorrow x)).2 = 1) := by
  rcases strongReduceBorrow_spec x with ⟨hdigits, hnumber, hout⟩
  generalize strongReduceBorrow x = e at hdigits hnumber hout ⊢
  rcases e with ⟨⟨e0, e1, e2, e3, e4⟩, out⟩
  have horder : fieldOrder = 2 ^ 255 - 19 := rfl
  refine ⟨borrow_isDigits (by norm_num) _ _ _ _ _, ?_⟩
  rcases lt_or_ge x.number fieldOrder with hlt | hge
  · -- the first loop borrows, and the mask is all ones
    have hborrow : out = -1 := by
      simp only at hout
      omega
    subst hborrow
    have hones : ∀ y : UInt64, (UInt64.ofInt (-1) &&& y) = y := fun y => by
      rw [show UInt64.ofInt (-1) = -1 from rfl, UInt64.neg_one_and]
    have hspec := borrow_spec (show (0 : ℤ) < 2 ^ 51 by norm_num)
      (e0 + gfModulus.limb0.toNat) (e1 + gfModulus.limb1.toNat) (e2 + gfModulus.limb2.toNat)
      (e3 + gfModulus.limb3.toNat) (e4 + gfModulus.limb4.toNat)
    have hsum : signedNumber (2 ^ 51) ((e0 + gfModulus.limb0.toNat : ℤ),
        (e1 + gfModulus.limb1.toNat : ℤ), (e2 + gfModulus.limb2.toNat : ℤ),
        (e3 + gfModulus.limb3.toNat : ℤ), (e4 + gfModulus.limb4.toNat : ℤ)) =
        signedNumber (2 ^ 51) (e0, e1, e2, e3, e4) + fieldOrder := by
      rw [← gfModulus_number]
      unfold signedNumber Gf25519.number Limbs.number Gf25519.limbs
      push_cast
      ring
    rw [hsum, hnumber] at hspec
    unfold strongReduceCarry
    simp only [hones]
    rw [hspec.1, hspec.2, Nat.mod_eq_of_lt hlt]
    refine ⟨by omega, Or.inr ⟨trivial, by omega⟩⟩
  -- nothing is borrowed, and the mask is zero
  · have hborrow : out = 0 := by
      simp only at hout
      omega
    subst hborrow
    have hzero : ∀ y : UInt64, ((UInt64.ofInt 0 &&& y).toNat : ℤ) = 0 := fun y => by
      rw [show UInt64.ofInt 0 = 0 from rfl, UInt64.zero_and]
      rfl
    have hspec := borrow_spec (show (0 : ℤ) < 2 ^ 51 by norm_num) e0 e1 e2 e3 e4
    rw [hnumber] at hspec
    unfold strongReduceCarry
    simp only [hzero, add_zero]
    rw [hspec.1, hspec.2, Nat.mod_eq_sub_mod hge, Nat.mod_eq_of_lt (by omega)]
    refine ⟨by omega, Or.inl ⟨trivial, by omega⟩⟩

theorem ofInt_toNat {n : ℤ} (hn : 0 ≤ n) (hlt : n < 2 ^ 51) :
    ((UInt64.ofInt n).toNat : ℤ) = n := by
  rw [UInt64.ofInt, UInt64.toNat_ofNat', Int.emod_eq_of_lt hn (by omega)]
  omega

theorem gfStrongReduce_below (x : Gf25519) : (gfStrongReduce x).Below (2 ^ 51) := by
  rcases (strongReduce_spec (number_lt_of_below (gfWeakReduce_below x))).1 with
    ⟨h0, h1, h2, h3, h4⟩
  have hword : ∀ {n : ℤ}, 0 ≤ n ∧ n < 2 ^ 51 → (UInt64.ofInt n).toNat < 2 ^ 51 := fun hn => by
    have hcast := ofInt_toNat hn.1 hn.2
    omega
  exact ⟨hword h0, hword h1, hword h2, hword h3, hword h4⟩

/-- The number of the canonical limbs is the residue of the element. -/
theorem gfStrongReduce_number (x : Gf25519) : (gfStrongReduce x).number = x.elt.val := by
  rcases strongReduce_spec (number_lt_of_below (gfWeakReduce_below x)) with
    ⟨⟨h0, h1, h2, h3, h4⟩, hnumber, -⟩
  rw [← gfWeakReduce_elt x, Gf25519.val_elt, ← Nat.cast_inj (R := ℤ), ← hnumber]
  unfold gfStrongReduce Gf25519.number Limbs.number Gf25519.limbs signedNumber
  push_cast
  rw [ofInt_toNat h0.1 h0.2, ofInt_toNat h1.1 h1.2, ofInt_toNat h2.1 h2.2, ofInt_toNat h3.1 h3.2,
    ofInt_toNat h4.1 h4.2]

/-- Neither of the two assertions fails. -/
theorem gfStrongReduceAsserts_hold (x : Gf25519) : gfStrongReduceAsserts x = true := by
  have hloops := (strongReduce_spec (number_lt_of_below (gfWeakReduce_below x))).2.2
  unfold gfStrongReduceAsserts
  rcases hloops with ⟨hborrow, hcarry⟩ | ⟨hborrow, hcarry⟩
  · simp only [hborrow, hcarry]
    decide
  · simp only [hborrow, hcarry]
    decide

end StrongReduce

section Tests

/-- The comparison is that of the elements, whatever their limbs. -/
theorem gfEq_iff {a b : Gf25519} {m : ℕ} (ha : a.Below m) (hfit : m ≤ 2 ^ 63)
    (hb : b.Below (2 * (2 ^ 52 - 38))) : gfEq a b = true ↔ a.elt = b.elt := by
  have hnumber := gfStrongReduce_number (gfSub a b)
  rw [gfSub_elt ha hfit hb] at hnumber
  rw [← sub_eq_zero (a := a.elt), ← ZMod.val_eq_zero, ← hnumber]
  unfold gfEq Gf25519.number Limbs.number Gf25519.limbs
  simp only [decide_eq_true_eq, UInt64.or_eq_zero_iff]
  simp only [← UInt64.toNat_inj, show (0 : UInt64).toNat = 0 from rfl]
  omega

/-- The low bit is that of the residue. -/
theorem gfLobit_eq (x : Gf25519) : gfLobit x = decide (x.elt.val % 2 = 1) := by
  have hand : ((gfStrongReduce x).limb0 &&& 1).toNat = (gfStrongReduce x).limb0.toNat % 2 := by
    rw [UInt64.toNat_and]
    exact Nat.and_one_is_mod _
  refine decide_eq_decide.mpr ?_
  rw [← UInt64.toNat_inj, hand, ← gfStrongReduce_number, show (1 : UInt64).toNat = 1 from rfl]
  unfold Gf25519.number Limbs.number Gf25519.limbs
  simp only
  omega

/-- The residue of a double is odd where the order was taken away from it. -/
theorem val_double_odd (a : Field25519) : (a + a).val % 2 = 1 ↔ fieldOrder < 2 * a.val := by
  have hodd : fieldOrder % 2 = 1 := by decide
  have hval : a.val < fieldOrder := a.val_lt
  rw [ZMod.val_add]
  rcases lt_or_ge (a.val + a.val) fieldOrder with hlt | hge
  · rw [Nat.mod_eq_of_lt hlt]
    omega
  · rw [Nat.mod_eq_sub_mod hge, Nat.mod_eq_of_lt (Nat.sub_lt_left_of_lt_add hge (by omega))]
    omega

/-- The high bit is set for the residues above half of the order. -/
theorem gfHibit_eq {x : Gf25519} {m : ℕ} (hx : x.Below m) (hfit : m + m ≤ 2 ^ 64) :
    gfHibit x = decide (fieldOrder < 2 * x.elt.val) := by
  rw [show gfHibit x = gfLobit (gfAdd x x) from rfl, gfLobit_eq, gfAdd_elt hx hx hfit]
  exact decide_eq_decide.mpr (val_double_odd _)

end Tests

end Ebut
