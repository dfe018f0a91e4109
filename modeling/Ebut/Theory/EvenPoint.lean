import Ebut.Library.JacobiQuartic
import Ebut.Theory.RistrettoPoint

/-!
# Even Points

The points that the vendored C library is meant to compute with are even: both their first
coordinate and its complement have the roots that make up an amplitude. Strings and hashes are
mapped to such points, and sums, differences, doubles and negatives of even points are even.

A residue that is odd is negative here, as the source has it, and the comparison of points is the
comparison of cosets of the four-torsion.

## Main definitions

* `fieldSign`: The sign of an element.
* `RistrettoPoint.Even`: Points that an amplitude belongs to.

## Theorems

* `pointEq_iff`: What the comparison says.
* `RistrettoPoint.Even.add`, `RistrettoPoint.Even.sub`, `RistrettoPoint.Even.double`,
  `RistrettoPoint.Even.negate`: The operations keep points even.
-/

namespace Ebut

open TwistedEdwards EvenPoints JacobiQuartic

section Sign

/-- The sign of an element: an odd residue is negative. -/
def fieldSign : Sign Field25519 where
  negative a := decide (a.val % 2 = 1)
  zero := by
    rw [ZMod.val_zero]
    rfl
  neg := by
    intro a ha
    have hpos : 0 < a.val := Nat.pos_of_ne_zero fun h => ha ((ZMod.val_eq_zero a).mp h)
    have hlt : a.val < fieldOrder := a.val_lt
    have hodd : fieldOrder % 2 = 1 := by decide
    rw [ZMod.neg_val, if_neg ha, ← decide_not]
    refine decide_eq_decide.mpr ?_
    omega

variable {m : ℕ} {a b : Field25519} {x y : Gf25519}

theorem Stands.lobit (hx : Stands m a x) : gfLobit x = fieldSign.negative a := by
  rw [gfLobit_eq, hx.elt]
  rfl

theorem Stands.condSel (hx : Stands m a x) (hy : Stands m b y) (isZ : Bool) :
    Stands m (if isZ then b else a) (gfCondSel x y isZ) := by
  cases isZ with
  | true => exact hy
  | false => exact hx

theorem Stands.condNeg (hx : Stands reducedLimb a x) (neg : Bool) :
    Stands reducedLimb (if neg then -a else a) (gfCondNeg x neg) :=
  hx.condSel ((standsZero.sub (by decide) hx (by decide)).congr (zero_sub a)) neg

theorem Stands.mulI (hx : Stands m a x) (hm : 19 * m ≤ 2 ^ 64)
    (hmn : m * reducedLimb ≤ 81 * 2 ^ 102) :
    Stands reducedLimb (a * sqrtMinusOne.elt) (gfMulI x) := hx.mul standsI hm hmn

/-- The square of the constant that the source calls the factor. -/
theorem ristrettoFactor_sq : ristrettoFactor.elt ^ 2 = -1 - edwardsParameter := by
  have hnumber : ((ristrettoFactor.number ^ 2 + 1 + 121665 : ℕ) : Field25519) = 0 := by
    rw [ZMod.natCast_eq_zero_iff]
    decide +kernel
  rw [Gf25519.elt_eq, edwardsParameter_eq]
  simp only [Nat.cast_add, Nat.cast_pow, Nat.cast_one] at hnumber
  linear_combination hnumber

theorem standsFactor : Stands reducedLimb ristrettoFactor.elt ristrettoFactor := by
  refine ⟨rfl, ?_, ?_, ?_, ?_, ?_⟩ <;> decide

theorem quarter_ne_zero : sqrtMinusOne.elt * ristrettoFactor.elt ≠ 0 :=
  Amplitude.quarter_ne edwardsComplete sqrtMinusOne_sq ristrettoFactor_sq

end Sign

section Even

/-- A valid point that an amplitude belongs to. -/
def RistrettoPoint.Even (p : RistrettoPoint) : Prop :=
  ∃ a : Amplitude Field25519, a.On edwardsParameter ∧ p.At (a.point sqrtMinusOne.elt)

variable {p q : RistrettoPoint}

/-- The comparison is that of the cosets. -/
theorem pointEq_iff {P Q : Field25519 × Field25519} (hp : p.At P) (hq : q.At Q) :
    pointEq p q = true ↔ SameCoset sqrtMinusOne.elt P Q := by
  have hps := hp.reduced.stands
  have hqs := hq.reduced.stands
  have hratio := (hps.y.mul hqs.x (by decide) (by decide)).eq (by decide)
    (hqs.y.mul hps.x (by decide) (by decide)) (by decide)
  have hproduct := (hps.y.mul hqs.y (by decide) (by decide)).eq (by decide)
    (hqs.x.mul hps.x (by decide) (by decide)) (by decide)
  have hpz := hp.coordinates_valid.denominator
  have hqz := hq.coordinates_valid.denominator
  have hpc := hp.coordinates_valid.onCurve
  have hqc := hq.coordinates_valid.onCurve
  rcases hp.affine with rfl
  rcases hq.affine with rfl
  have hz := mul_ne_zero hpz hqz
  have hz' := mul_ne_zero hqz hpz
  unfold pointEq
  rw [sameCoset_iff_products edwardsComplete sqrtMinusOne_sq hpc hqc]
  simp only [hratio, hproduct, Bool.or_eq_true, decide_eq_true_eq]
  unfold Extended.affine
  simp only
  -- the comparison is one of products, with the denominators cancelled
  rw [div_mul_div_comm, div_mul_div_comm, div_mul_div_comm, div_mul_div_comm,
    mul_comm q.coordinates.z p.coordinates.z, div_left_inj' hz, div_left_inj' hz]

theorem RistrettoPoint.Even.valid (hp : p.Even) : p.Reduced ∧ pointValid p = true := by
  rcases hp with ⟨a, -, hp⟩
  exact ⟨hp.reduced, hp.valid⟩

theorem RistrettoPoint.Even.add (hp : p.Even) (hq : q.Even) : (pointAdd p q).Even := by
  rcases hp with ⟨a, ha, hp⟩
  rcases hq with ⟨b, hb, hq⟩
  refine ⟨a.add edwardsParameter b, ha.add edwardsComplete hb, ?_⟩
  rw [ha.add_point edwardsComplete sqrtMinusOne_sq hb]
  exact hp.add hq

theorem RistrettoPoint.Even.negate (hp : p.Even) : (pointNegate p).Even := by
  rcases hp with ⟨a, ha, hp⟩
  rcases ha.neg (i := sqrtMinusOne.elt) with ⟨hneg, hpoint⟩
  refine ⟨a.neg, hneg, ?_⟩
  rw [hpoint]
  exact hp.negate

theorem RistrettoPoint.Even.sub (hp : p.Even) (hq : q.Even) : (pointSub p q).Even := by
  rcases hp with ⟨a, ha, hp⟩
  rcases hq with ⟨b, hb, hq⟩
  rcases hb.neg (i := sqrtMinusOne.elt) with ⟨hneg, hpoint⟩
  refine ⟨a.add edwardsParameter b.neg, ha.add edwardsComplete hneg, ?_⟩
  rw [ha.add_point edwardsComplete sqrtMinusOne_sq hneg, hpoint]
  exact hp.sub hq

theorem RistrettoPoint.Even.double (hp : p.Even) : (pointDouble p).Even := by
  rcases hp with ⟨a, ha, hp⟩
  refine ⟨a.add edwardsParameter a, ha.add edwardsComplete ha, ?_⟩
  rw [ha.add_point edwardsComplete sqrtMinusOne_sq ha]
  exact hp.double

end Even

end Ebut
