import Ebut.Theory.CanonicalForm
import Mathlib.NumberTheory.LegendreSymbol.Basic
import Mathlib.Tactic.FieldSimp

/-!
# The Inverse Square Root

The chain of squarings and products in `gfIsr` raises its argument to the power
`(fieldOrder - 5) / 8`. That power and the argument make up a fourth root of one, which is one or
minus one for a square, and one of the two square roots of minus one for any other element. The
selection at the end turns minus one into one, and the two square roots into one of them.

## Main definitions

* `PowerOf`: Reduced limbs that stand for a power of an element.
* `InverseRoot`: What the inverse square root guarantees.

## Theorems

* `PowerOf.sqrn`: Repeated squaring.
* `gfIsrPower_spec`: The power that the chain computes.
* `gfIsr_spec`, `gfInvert_spec`: What is returned.
* `gfIsr_gfInvert`: Both functions at once.
-/

namespace Ebut

/-- Reduced limbs that stand for a power of an element. -/
structure PowerOf (a : Field25519) (k : ℕ) (x : Gf25519) : Prop where
  elt : x.elt = a ^ k
  below : x.Below reducedLimb

section Powers

variable {a : Field25519} {j k : ℕ} {x y : Gf25519}

theorem PowerOf.mul (hx : PowerOf a j x) (hy : PowerOf a k y) : PowerOf a (j + k) (gfMul x y) := by
  rcases gfMul_spec hx.below hy.below (by decide) (by decide) with ⟨helt, hbelow⟩
  exact ⟨by rw [helt, hx.elt, hy.elt, pow_add], hbelow⟩

theorem PowerOf.sqr (hx : PowerOf a k x) : PowerOf a (2 * k) (gfSqr x) := by
  rcases gfSqr_spec hx.below (by decide) (by decide) with ⟨helt, hbelow⟩
  exact ⟨by rw [helt, hx.elt, two_mul, pow_add], hbelow⟩

theorem PowerOf.sqrTwice (hx : PowerOf a k x) (n : ℕ) :
    PowerOf a (2 ^ (2 * n) * k) (Nat.iterate gfSqrTwice n x) := by
  induction n generalizing x k with
  | zero => exact ⟨by rw [Nat.mul_zero, pow_zero, one_mul]; exact hx.elt, hx.below⟩
  | succ n ih =>
      have hnext := ih hx.sqr.sqr
      rwa [← Nat.mul_assoc, ← Nat.mul_assoc, ← pow_succ, ← pow_succ] at hnext

/-- Squaring as often as is asked for, with one or with two squarings before the loop. -/
theorem PowerOf.sqrn (hx : PowerOf a k x) {n : ℕ} (hn : 0 < n) :
    PowerOf a (2 ^ n * k) (gfSqrn x n) := by
  unfold gfSqrn
  by_cases hodd : n % 2 = 1
  · have hturns : 2 * ((n - 1) / 2) + 1 = n := by omega
    have hloop := hx.sqr.sqrTwice ((n - 1) / 2)
    rw [← Nat.mul_assoc, ← pow_succ, hturns] at hloop
    rw [if_pos hodd]
    exact hloop
  · have hturns : 2 * ((n - 2) / 2) + 1 + 1 = n := by omega
    have hloop := hx.sqr.sqr.sqrTwice ((n - 2) / 2)
    rw [← Nat.mul_assoc, ← Nat.mul_assoc, ← pow_succ, ← pow_succ, hturns] at hloop
    rw [if_neg hodd]
    exact hloop

theorem PowerOf.congr (hx : PowerOf a j x) (h : j = k) : PowerOf a k x := h ▸ hx

end Powers

section Root

theorem gfZero_elt : gfZero.elt = 0 := by
  unfold Gf25519.elt FiveLimbs.value Gf25519.limbs gfZero
  simp

theorem gfOne_elt : gfOne.elt = 1 := by
  unfold Gf25519.elt FiveLimbs.value Gf25519.limbs gfOne
  simp

theorem sqrtMinusOne_sq : sqrtMinusOne.elt ^ 2 = -1 := by
  have hnumber : ((sqrtMinusOne.number ^ 2 + 1 : ℕ) : Field25519) = 0 := by
    rw [ZMod.natCast_eq_zero_iff]
    decide +kernel
  rw [Gf25519.elt_eq]
  push_cast at hnumber
  linear_combination hnumber

theorem constants_below : gfZero.Below reducedLimb ∧ gfOne.Below reducedLimb ∧
    sqrtMinusOne.Below reducedLimb := by
  refine ⟨⟨?_, ?_, ?_, ?_, ?_⟩, ⟨?_, ?_, ?_, ?_, ?_⟩, ⟨?_, ?_, ?_, ?_, ?_⟩⟩ <;> decide

theorem gfIsrPower_spec {a : Field25519} {x : Gf25519} (hx : PowerOf a 1 x) :
    PowerOf a (2 ^ 252 - 3) (gfIsrPower x) := by
  have h3 := hx.sqr.mul hx
  have h7 := h3.sqr.mul hx
  have h6 := ((h7.sqrn (show 0 < 3 by decide)).mul h7).congr (show _ = 2 ^ 6 - 1 by norm_num)
  have h12 := (h6.mul (h6.sqrn (show 0 < 6 by decide))).congr (show _ = 2 ^ 12 - 1 by norm_num)
  have h13 := (h12.sqr.mul hx).congr (show _ = 2 ^ 13 - 1 by norm_num)
  have h25 := ((h13.sqrn (show 0 < 12 by decide)).mul h12).congr
    (show _ = 2 ^ 25 - 1 by norm_num)
  have h50 := ((h25.sqrn (show 0 < 25 by decide)).mul h25).congr
    (show _ = 2 ^ 50 - 1 by norm_num)
  have h75 := ((h50.sqrn (show 0 < 25 by decide)).mul h25).congr
    (show _ = 2 ^ 75 - 1 by norm_num)
  have h125 := ((h75.sqrn (show 0 < 50 by decide)).mul h50).congr
    (show _ = 2 ^ 125 - 1 by norm_num)
  have h250 := ((h125.sqrn (show 0 < 125 by decide)).mul h125).congr
    (show _ = 2 ^ 250 - 1 by norm_num)
  -- two more squarings and a product give the exponent 2 ^ 252 - 3
  exact ((h250.sqrn (show 0 < 2 by decide)).mul hx).congr (by norm_num)

/-- The fourth root of one: it is one or minus one for a square, and a square root of minus one
for any other element but zero. -/
theorem fourthRoot (a : Field25519) (ha : a ≠ 0) :
    (IsSquare a ∧ (a ^ (2 ^ 253 - 5) = 1 ∨ a ^ (2 ^ 253 - 5) = -1)) ∨
      ¬IsSquare a ∧ (a ^ (2 ^ 253 - 5) = sqrtMinusOne.elt ∨
        a ^ (2 ^ 253 - 5) = -sqrtMinusOne.elt) := by
  have hhalf : (a ^ (2 ^ 253 - 5)) ^ 2 = a ^ (fieldOrder / 2) := by
    rw [← pow_mul]
    exact congrArg (a ^ ·) (by decide)
  by_cases hsquare : IsSquare a
  · have hone := (ZMod.euler_criterion fieldOrder ha).mp hsquare
    rw [← hhalf] at hone
    exact Or.inl ⟨hsquare, sq_eq_sq_iff_eq_or_eq_neg.mp (hone.trans (one_pow 2).symm)⟩
  · have hminus : a ^ (fieldOrder / 2) = -1 :=
      (ZMod.pow_div_two_eq_neg_one_or_one fieldOrder ha).resolve_left
        fun hone => hsquare ((ZMod.euler_criterion fieldOrder ha).mpr hone)
    rw [← hhalf, ← sqrtMinusOne_sq] at hminus
    exact Or.inr ⟨hsquare, sq_eq_sq_iff_eq_or_eq_neg.mp hminus⟩

/-- What `gf_isr` guarantees of its results for an element. -/
structure InverseRoot (a : Field25519) (result : Gf25519 × Bool) : Prop where
  below : result.1.Below reducedLimb
  succ : result.2 = true ↔ a ≠ 0 ∧ IsSquare a
  zero : a = 0 → result.1.elt = 0
  square : a ≠ 0 → IsSquare a → result.1.elt ^ 2 * a = 1
  nonsquare : ¬IsSquare a → result.1.elt ^ 2 * a = sqrtMinusOne.elt

theorem gfSelected_mul {x y l0 : Gf25519} (hx : x.Below reducedLimb) (hy : y.Below reducedLimb)
    (hl0 : l0.Below reducedLimb) (qr : Bool) :
    (gfMul (if qr then x else y) l0).elt = (if qr then x.elt else y.elt) * l0.elt ∧
      (gfMul (if qr then x else y) l0).Below reducedLimb := by
  cases qr with
  | true => exact gfMul_spec hx hl0 (by decide) (by decide)
  | false => exact gfMul_spec hy hl0 (by decide) (by decide)

/-- The end of the function, by the fourth root of one. -/
theorem gfIsr_eq {x : Gf25519} (hx : x.Below reducedLimb) :
    gfIsr x = (gfMul (if decide (x.elt ^ (2 ^ 253 - 5) = 1) ||
        decide (x.elt ^ (2 ^ 253 - 5) = sqrtMinusOne.elt) then gfOne else sqrtMinusOne)
        (gfIsrPower x),
      decide (x.elt ^ (2 ^ 253 - 5) = 1) || decide (x.elt ^ (2 ^ 253 - 5) = -1)) := by
  have hroot := gfIsrPower_spec ⟨(pow_one x.elt).symm, hx⟩
  have hfourth := (hroot.sqr.mul ⟨(pow_one x.elt).symm, hx⟩).congr
    (show _ = 2 ^ 253 - 5 by norm_num)
  rcases constants_below with ⟨hzero, hone, hi⟩
  have hbig : reducedLimb ≤ 2 * (2 ^ 52 - 38) := by decide
  have hnext := gfAdd_elt hfourth.below hone (by decide)
  rw [hfourth.elt, gfOne_elt] at hnext
  have hisOne := gfEq_iff hfourth.below (by decide) (hone.mono hbig)
  have hisMinusOne := gfEq_iff (gfAdd_below (gfMul (gfSqr (gfIsrPower x)) x) gfOne) (by decide)
    (hzero.mono hbig)
  have hisI := gfEq_iff hfourth.below (by decide) (hi.mono hbig)
  rw [hfourth.elt, gfOne_elt] at hisOne
  rw [hnext, gfZero_elt, add_eq_zero_iff_eq_neg] at hisMinusOne
  rw [hfourth.elt] at hisI
  unfold gfIsr
  simp only [Bool.eq_iff_iff.mpr (hisOne.trans decide_eq_true_iff.symm),
    Bool.eq_iff_iff.mpr (hisMinusOne.trans decide_eq_true_iff.symm),
    Bool.eq_iff_iff.mpr (hisI.trans decide_eq_true_iff.symm)]

theorem one_ne_minusOne : (1 : Field25519) ≠ -1 := by
  intro h
  have htwo : ((2 : ℕ) : Field25519) = 0 := by
    push_cast
    linear_combination h
  rw [ZMod.natCast_eq_zero_iff] at htwo
  exact absurd htwo (by decide)

/-- The square root of minus one is none of the other fourth roots of one. -/
theorem sqrtMinusOne_ne : sqrtMinusOne.elt ≠ 1 ∧ sqrtMinusOne.elt ≠ -1 ∧
    sqrtMinusOne.elt ≠ -sqrtMinusOne.elt := by
  have hsq := sqrtMinusOne_sq
  refine ⟨fun h => ?_, fun h => ?_, fun h => ?_⟩
  · rw [h] at hsq
    exact one_ne_minusOne ((one_pow 2).symm.trans hsq)
  · rw [h] at hsq
    exact one_ne_minusOne (neg_one_sq.symm.trans hsq)
  · have hprod : sqrtMinusOne.elt * sqrtMinusOne.elt = -(sqrtMinusOne.elt * sqrtMinusOne.elt) := by
      rw [← mul_neg, ← h]
    rw [← pow_two, hsq, neg_neg] at hprod
    exact one_ne_minusOne hprod.symm

theorem gfIsr_spec {x : Gf25519} (hx : x.Below reducedLimb) : InverseRoot x.elt (gfIsr x) := by
  have hroot := gfIsrPower_spec ⟨(pow_one x.elt).symm, hx⟩
  have hfourth : (gfIsrPower x).elt ^ 2 * x.elt = x.elt ^ (2 ^ 253 - 5) := by
    rw [hroot.elt, ← pow_mul, ← pow_succ]
    exact congrArg (x.elt ^ ·) (by norm_num)
  rcases constants_below with ⟨-, hone, hi⟩
  rcases gfSelected_mul hone hi hroot.below (decide (x.elt ^ (2 ^ 253 - 5) = 1) ||
    decide (x.elt ^ (2 ^ 253 - 5) = sqrtMinusOne.elt)) with ⟨helt, hbelow⟩
  rcases sqrtMinusOne_ne with ⟨hne1, hne2, hne3⟩
  rw [gfIsr_eq hx]
  by_cases hx0 : x.elt = 0
  · -- neither root is that of zero
    have hpower : (gfIsrPower x).elt = 0 := by
      rw [hroot.elt, hx0, zero_pow (by decide)]
    refine ⟨hbelow, ?_, fun _ => ?_, fun h => absurd hx0 h, fun h => ?_⟩
    · simp [hx0]
    · rw [helt, hpower, mul_zero]
    · exact absurd ⟨0, by rw [hx0, mul_zero]⟩ h
  · rcases fourthRoot x.elt hx0 with ⟨hsquare, ht | ht⟩ | ⟨hsquare, ht | ht⟩
    -- the power is exact already, and is kept
    · rw [ht] at hfourth helt hbelow ⊢
      simp only [decide_true, Bool.true_or, if_true, gfOne_elt, one_mul] at helt hbelow ⊢
      refine ⟨hbelow, ?_, fun h => absurd h hx0, fun _ _ => ?_, fun h => absurd hsquare h⟩
      · simp [hx0, hsquare]
      · rw [helt, hfourth]
    -- a root of minus one is missing, which the constant makes up for
    · rw [ht] at hfourth helt hbelow ⊢
      have hnone : ¬(-1 : Field25519) = 1 := fun h => one_ne_minusOne h.symm
      have hnoi : ¬(-1 : Field25519) = sqrtMinusOne.elt := fun h => hne2 h.symm
      simp only [hnone, hnoi, decide_false, Bool.or_self, Bool.false_eq_true, if_false]
        at helt hbelow ⊢
      refine ⟨hbelow, ?_, fun h => absurd h hx0, fun _ _ => ?_, fun h => absurd hsquare h⟩
      · simp [hx0, hsquare]
      · rw [helt, mul_pow, mul_assoc, hfourth, sqrtMinusOne_sq]
        ring
    -- not a square, and the power is the root of the product with the constant
    · rw [ht] at hfourth helt hbelow ⊢
      simp only [decide_true, Bool.or_true, if_true, gfOne_elt, one_mul] at helt hbelow ⊢
      refine ⟨hbelow, ?_, fun h => absurd h hx0, fun _ h => absurd h hsquare, fun _ => ?_⟩
      · simp [hne1, hne2, hsquare]
      · rw [helt, hfourth]
    -- not a square, and the sign of the constant is made up for
    · rw [ht] at hfourth helt hbelow ⊢
      have hnone : ¬-sqrtMinusOne.elt = 1 := fun h => hne2 (neg_eq_iff_eq_neg.mp h)
      have hnominus : ¬-sqrtMinusOne.elt = -1 := fun h => hne1 (neg_inj.mp h)
      have hnoi : ¬-sqrtMinusOne.elt = sqrtMinusOne.elt := fun h => hne3 h.symm
      simp only [hnone, hnominus, hnoi, decide_false, Bool.or_self, Bool.false_eq_true, if_false]
        at helt hbelow ⊢
      refine ⟨hbelow, ?_, fun h => absurd h hx0, fun _ h => absurd h hsquare, fun _ => ?_⟩
      · simp [hsquare]
      · rw [helt, mul_pow, mul_assoc, hfourth, sqrtMinusOne_sq]
        ring

theorem gfInvert_spec {x : Gf25519} (hx : x.Below reducedLimb) :
    (gfInvert x).1.elt = x.elt⁻¹ ∧ (gfInvert x).1.Below reducedLimb ∧
      ((gfInvert x).2 = true ↔ x.elt ≠ 0) := by
  rcases gfSqr_spec hx (by decide) (by decide) with ⟨hsqr, hsqrBelow⟩
  have hisr := gfIsr_spec hsqrBelow
  rcases gfSqr_spec hisr.below (by decide) (by decide) with ⟨hroot, hrootBelow⟩
  rcases gfMul_spec hrootBelow hx (by decide) (by decide) with ⟨hmul, hmulBelow⟩
  have hsquare : IsSquare (x.elt * x.elt) := ⟨x.elt, rfl⟩
  rw [hsqr] at hisr
  refine ⟨?_, hmulBelow, hisr.succ.trans ?_⟩
  · show (gfMul (gfSqr (gfIsr (gfSqr x)).1) x).elt = x.elt⁻¹
    rw [hmul, hroot]
    by_cases hx0 : x.elt = 0
    · rw [hx0, mul_zero, inv_zero]
    · have hone := hisr.square (mul_ne_zero hx0 hx0) hsquare
      refine eq_inv_of_mul_eq_one_left ?_
      linear_combination hone
  · rw [mul_self_ne_zero]
    exact ⟨fun h => h.1, fun h => ⟨h, hsquare⟩⟩

/-- The inverse square root and the inverse, of any reduced limbs. The root is that of the element
or of its product with a square root of minus one, the flag says whether the element is a square
other than zero, and the assertion of the inverse holds for all elements but zero. -/
theorem gfIsr_gfInvert {x : Gf25519} (hx : x.Below reducedLimb) :
    InverseRoot x.elt (gfIsr x) ∧ (gfInvert x).1.elt = x.elt⁻¹ ∧
      (gfInvert x).1.Below reducedLimb ∧ ((gfInvert x).2 = true ↔ x.elt ≠ 0) :=
  ⟨gfIsr_spec hx, gfInvert_spec hx⟩

theorem gfIsr_gfInvert_i : InverseRoot sqrtMinusOne.elt (gfIsr sqrtMinusOne) ∧
    (gfInvert sqrtMinusOne).1.elt = sqrtMinusOne.elt⁻¹ ∧
    (gfInvert sqrtMinusOne).1.Below reducedLimb ∧
    ((gfInvert sqrtMinusOne).2 = true ↔ sqrtMinusOne.elt ≠ 0) :=
  gfIsr_gfInvert constants_below.2.2

end Root

end Ebut
