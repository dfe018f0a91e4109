import Ebut.Core.RistrettoPoint
import Ebut.Library.TwistedEdwards
import Ebut.Theory.InverseSquareRoot

/-!
# The Operations on Points

The points of the vendored C library are extended coordinates of points of a twisted Edwards curve
over the field. Its operations leave sums and differences of limbs unreduced where a product
follows, and how large these get is counted step by step: a limb stays small enough for every
product that reads it, also in the double, which hands a product more than the products ask for.

## Main definitions

* `Stands`: Limbs below a bound that stand for an element.
* `RistrettoPoint.coordinates`, `RistrettoPoint.Reduced`: The coordinates of a point as elements,
  and a bound on their limbs.
* `RistrettoPoint.At`: A point that is valid and stands for a point of the curve.

## Theorems

* `edwardsComplete`: The addition law of the curve has no exceptions.
* `pointValid_iff`: What the test of a point says.
* `pointAdd_spec`, `pointSub_spec`, `pointDouble_spec`, `pointNegate_spec`: The operations on the
  coordinates.
* `pointOperations`: The operations on the points.
-/

namespace Ebut

open TwistedEdwards Primality

section Stands

/-- Limbs below a bound that stand for an element. -/
structure Stands (n : ℕ) (a : Field25519) (x : Gf25519) : Prop where
  elt : x.elt = a
  below : x.Below n

variable {m n : ℕ} {a b : Field25519} {x y : Gf25519}

theorem Stands.congr (hx : Stands n a x) (h : a = b) : Stands n b x := h ▸ hx

theorem Stands.mul (hx : Stands m a x) (hy : Stands n b y) (hm : 19 * m ≤ 2 ^ 64)
    (hmn : m * n ≤ 81 * 2 ^ 102) : Stands reducedLimb (a * b) (gfMul x y) := by
  rcases gfMul_spec hx.below hy.below hm hmn with ⟨helt, hbelow⟩
  exact ⟨by rw [helt, hx.elt, hy.elt], hbelow⟩

theorem Stands.sqr (hx : Stands m a x) (hm : 38 * m ≤ 2 ^ 64) (hmm : m * m ≤ 81 * 2 ^ 102) :
    Stands reducedLimb (a ^ 2) (gfSqr x) := by
  rcases gfSqr_spec hx.below hm hmm with ⟨helt, hbelow⟩
  exact ⟨by rw [helt, hx.elt, pow_two], hbelow⟩

theorem Stands.mulw (hx : Stands m a x) {w : ℤ} (hw : w.natAbs < 2 ^ 32) :
    Stands reducedLimb (w * a) (gfMulw x w) := by
  rcases gfMulw_spec x hw with ⟨helt, hbelow⟩
  exact ⟨by rw [helt, hx.elt], hbelow⟩

theorem Stands.addRaw (hx : Stands m a x) (hy : Stands n b y) (hfit : m + n ≤ 2 ^ 64) :
    Stands (m + n) (a + b) (gfAddRaw x y) :=
  ⟨by rw [gfAddRaw_elt hx.below hy.below hfit, hx.elt, hy.elt],
    gfAddRaw_below hx.below hy.below hfit⟩

theorem Stands.subxNr (hx : Stands m a x) (hfit : m ≤ 2 ^ 63) (amt : UInt64)
    (hamt : amt.toNat ≤ 16) (hy : Stands n b y) (hn : n ≤ amt.toNat * (2 ^ 52 - 38)) :
    Stands (m + amt.toNat * 2 ^ 52) (a - b) (gfSubxNr x y amt) := by
  rcases gfSubxNr_spec hamt hx.below hfit (hy.below.mono hn) with ⟨helt, hbelow⟩
  exact ⟨by rw [helt, hx.elt, hy.elt], hbelow⟩

theorem Stands.subNr (hx : Stands m a x) (hfit : m ≤ 2 ^ 63) (hy : Stands n b y)
    (hn : n ≤ 2 * (2 ^ 52 - 38)) : Stands (m + 2 * 2 ^ 52) (a - b) (gfSubNr x y) :=
  hx.subxNr hfit 2 (by decide) hy hn

theorem Stands.add (hx : Stands m a x) (hy : Stands n b y) (hfit : m + n ≤ 2 ^ 64) :
    Stands reducedLimb (a + b) (gfAdd x y) :=
  ⟨by rw [gfAdd_elt hx.below hy.below hfit, hx.elt, hy.elt], gfAdd_below _ _⟩

theorem Stands.sub (hx : Stands m a x) (hfit : m ≤ 2 ^ 63) (hy : Stands n b y)
    (hn : n ≤ 2 * (2 ^ 52 - 38)) : Stands reducedLimb (a - b) (gfSub x y) :=
  ⟨by rw [gfSub_elt hx.below hfit (hy.below.mono hn), hx.elt, hy.elt], gfSub_below _ _⟩

theorem Stands.eq (hx : Stands m a x) (hfit : m ≤ 2 ^ 63) (hy : Stands n b y)
    (hn : n ≤ 2 * (2 ^ 52 - 38)) : gfEq x y = decide (a = b) := by
  rw [Bool.eq_iff_iff, gfEq_iff hx.below hfit (hy.below.mono hn), hx.elt, hy.elt,
    decide_eq_true_iff]

theorem standsZero : Stands reducedLimb 0 gfZero := ⟨gfZero_elt, constants_below.1⟩

theorem standsOne : Stands reducedLimb 1 gfOne := ⟨gfOne_elt, constants_below.2.1⟩

theorem standsI : Stands reducedLimb sqrtMinusOne.elt sqrtMinusOne :=
  ⟨rfl, constants_below.2.2⟩

end Stands

section Curve

/-- The parameter of the curve. -/
abbrev edwardsParameter : Field25519 := (twistedD : ℤ)

/-- The parameter is a natural number. -/
theorem edwardsParameter_eq : edwardsParameter = ((121665 : ℕ) : Field25519) := by
  norm_num [edwardsParameter, twistedD, edwardsD]

/-- Neither the parameter nor two are zero in the field. -/
theorem small_ne_zero : ((121665 : ℕ) : Field25519) ≠ 0 ∧ ((1 + 1 : ℕ) : Field25519) ≠ 0 := by
  refine ⟨fun h => ?_, fun h => ?_⟩
  · exact absurd ((ZMod.natCast_eq_zero_iff _ _).mp h) (by decide)
  · exact absurd ((ZMod.natCast_eq_zero_iff _ _).mp h) (by decide)

/-- The addition law of the curve is complete: the parameter is not a square. -/
theorem edwardsComplete : Complete edwardsParameter := by
  refine ⟨⟨sqrtMinusOne.elt, ?_⟩, fun h => ?_, ?_⟩
  · rw [← pow_two, sqrtMinusOne_sq]
  · rw [edwardsParameter_eq, ZMod.euler_criterion fieldOrder small_ne_zero.1] at h
    have hpower : powMod fieldOrder 256 121665 (fieldOrder / 2) 1 = 1 :=
      (powMod_eq_one_iff (by decide) (by decide)).mpr h
    exact absurd hpower (by decide +kernel)
  · have htwo := small_ne_zero.2
    rwa [Nat.cast_add, Nat.cast_one] at htwo

/-- The coordinates as elements. -/
def RistrettoPoint.coordinates (p : RistrettoPoint) : Extended Field25519 :=
  ⟨p.x.elt, p.y.elt, p.z.elt, p.t.elt⟩

/-- All limbs of the coordinates are reduced. -/
structure RistrettoPoint.Reduced (p : RistrettoPoint) : Prop where
  x : p.x.Below reducedLimb
  y : p.y.Below reducedLimb
  z : p.z.Below reducedLimb
  t : p.t.Below reducedLimb

/-- The coordinates of a point, one by one. -/
structure PointStands (e : Extended Field25519) (p : RistrettoPoint) : Prop where
  x : Stands reducedLimb e.x p.x
  y : Stands reducedLimb e.y p.y
  z : Stands reducedLimb e.z p.z
  t : Stands reducedLimb e.t p.t

theorem RistrettoPoint.Reduced.stands {p : RistrettoPoint} (hp : p.Reduced) :
    PointStands p.coordinates p := ⟨⟨rfl, hp.x⟩, ⟨rfl, hp.y⟩, ⟨rfl, hp.z⟩, ⟨rfl, hp.t⟩⟩

theorem PointStands.reduced {e : Extended Field25519} {p : RistrettoPoint}
    (hp : PointStands e p) : p.Reduced ∧ p.coordinates = e :=
  ⟨⟨hp.x.below, hp.y.below, hp.z.below, hp.t.below⟩,
    Extended.ext hp.x.elt hp.y.elt hp.z.elt hp.t.elt⟩

theorem PointStands.congr {e e' : Extended Field25519} {p : RistrettoPoint}
    (hp : PointStands e p) (h : e = e') : PointStands e' p := h ▸ hp

/-- The test of a point is that of its coordinates. -/
theorem pointValid_iff {e : Extended Field25519} {p : RistrettoPoint} (hp : PointStands e p) :
    pointValid p = true ↔ e.Valid edwardsParameter := by
  have hproduct := (hp.x.mul hp.y (by decide) (by decide)).eq (by decide)
    (hp.z.mul hp.t (by decide) (by decide)) (by decide)
  have hleft := (hp.y.sqr (by decide) (by decide)).sub (by decide)
    (hp.x.sqr (by decide) (by decide)) (by decide)
  have hright := (hp.z.sqr (by decide) (by decide)).add
    ((hp.t.sqr (by decide) (by decide)).mulw (show twistedD.natAbs < 2 ^ 32 by decide))
    (by decide)
  have hcurve := hleft.eq (by decide) hright (by decide)
  have hzero := hp.z.eq (by decide) standsZero (by decide)
  unfold pointValid
  simp only [hproduct, hcurve, hzero, Bool.and_eq_true, Bool.not_eq_true', decide_eq_true_eq,
    decide_eq_false_iff_not]
  exact ⟨fun h => ⟨h.1.2, h.1.1, h.2⟩, fun h => ⟨⟨h.product, h.curve⟩, h.denominator⟩⟩

end Curve

section Operations

variable {e f : Extended Field25519} {q r : RistrettoPoint}

theorem pointAdd_spec (hq : PointStands e q) (hr : PointStands f r) :
    PointStands (Extended.add edwardsParameter e f) (pointAdd q r) := by
  have ha := (hr.y.subNr (by decide) hr.x (by decide)).mul
    (hq.y.subNr (by decide) hq.x (by decide)) (by decide) (by decide)
  have hy := (hr.y.addRaw hr.x (by decide)).mul (hq.y.addRaw hq.x (by decide)) (by decide)
    (by decide)
  have hx := (hr.t.mul hq.t (by decide) (by decide)).mulw
    (show (2 * twistedD).natAbs < 2 ^ 32 by decide)
  have hb := ha.addRaw hy (by decide)
  have hc := hy.subNr (by decide) ha (by decide)
  have hz := hq.z.mul hr.z (by decide) (by decide)
  have hzz := hz.addRaw hz (by decide)
  have hminus := hzz.subNr (by decide) hx (by decide)
  have hplus := hzz.addRaw hx (by decide)
  have hproduct := hplus.mul hminus (by decide) (by decide)
  refine ⟨(hminus.mul hc (by decide) (by decide)).congr ?_,
    (hplus.mul hb (by decide) (by decide)).congr ?_, hproduct.congr ?_,
    (hb.mul hc (by decide) (by decide)).congr ?_⟩
  · unfold Extended.add
    simp only
    push_cast
    ring
  · unfold Extended.add
    simp only
    push_cast
    ring
  · unfold Extended.add
    simp only
    push_cast
    ring
  · rfl

theorem pointSub_spec (hq : PointStands e q) (hr : PointStands f r) :
    PointStands (Extended.add edwardsParameter e f.neg) (pointSub q r) := by
  have ha := (hr.y.addRaw hr.x (by decide)).mul (hq.y.subNr (by decide) hq.x (by decide))
    (by decide) (by decide)
  have hy := (hr.y.subNr (by decide) hr.x (by decide)).mul (hq.y.addRaw hq.x (by decide))
    (by decide) (by decide)
  have hx := (hr.t.mul hq.t (by decide) (by decide)).mulw
    (show (2 * twistedD).natAbs < 2 ^ 32 by decide)
  have hb := ha.addRaw hy (by decide)
  have hc := hy.subNr (by decide) ha (by decide)
  have hz := hq.z.mul hr.z (by decide) (by decide)
  have hzz := hz.addRaw hz (by decide)
  have hplus := hzz.addRaw hx (by decide)
  have hminus := hzz.subNr (by decide) hx (by decide)
  refine ⟨(hplus.mul hc (by decide) (by decide)).congr ?_,
    (hminus.mul hb (by decide) (by decide)).congr ?_,
    (hminus.mul hplus (by decide) (by decide)).congr ?_,
    (hb.mul hc (by decide) (by decide)).congr ?_⟩
  · unfold Extended.add Extended.neg
    simp only
    push_cast
    ring
  · unfold Extended.add Extended.neg
    simp only
    push_cast
    ring
  · unfold Extended.add Extended.neg
    simp only
    push_cast
    ring
  · unfold Extended.add Extended.neg
    simp only
    ring

/-- The widest limbs that a product is given: `a` is above the bound that the source asks for, and
its products with `b` and `t` still fit. -/
theorem pointDouble_spec (hq : PointStands e q) : PointStands e.double (pointDouble q) := by
  have hc := hq.x.sqr (by decide) (by decide)
  have ha := hq.y.sqr (by decide) (by decide)
  have hd := hc.addRaw ha (by decide)
  have hb := ((hq.y.addRaw hq.x (by decide)).sqr (by decide) (by decide)).subxNr (by decide)
    3 (by decide) hd (by decide)
  have ht := ha.subNr (by decide) hc (by decide)
  have hz := hq.z.sqr (by decide) (by decide)
  have hwide := (hz.addRaw hz (by decide)).subxNr (by decide) 4 (by decide) ht (by decide)
  exact ⟨hwide.mul hb (by decide) (by decide), ht.mul hd (by decide) (by decide),
    ht.mul hwide (by decide) (by decide), hb.mul hd (by decide) (by decide)⟩

theorem pointNegate_spec (hq : PointStands e q) : PointStands e.neg (pointNegate q) := by
  have hx := (standsZero.sub (by decide) hq.x (by decide)).congr (zero_sub e.x)
  have ht := (standsZero.sub (by decide) hq.t (by decide)).congr (zero_sub e.t)
  unfold Extended.neg pointNegate
  exact ⟨hx, hq.y, hq.z, ht⟩

/-- A point that the test accepts, with reduced limbs, and the point of the curve that it is. -/
structure RistrettoPoint.At (p : RistrettoPoint) (P : Field25519 × Field25519) : Prop where
  reduced : p.Reduced
  valid : pointValid p = true
  affine : p.coordinates.affine = P

theorem PointStands.at {P : Field25519 × Field25519} (hq : PointStands e q)
    (he : e.Valid edwardsParameter ∧ e.affine = P) : q.At P :=
  ⟨hq.reduced.1, (pointValid_iff hq).mpr he.1, by rw [hq.reduced.2, he.2]⟩

theorem RistrettoPoint.At.coordinates_valid {P : Field25519 × Field25519} (hq : q.At P) :
    q.coordinates.Valid edwardsParameter := (pointValid_iff hq.reduced.stands).mp hq.valid

section At

variable {P Q : Field25519 × Field25519}

theorem RistrettoPoint.At.add (hq : q.At P) (hr : r.At Q) :
    (pointAdd q r).At (TwistedEdwards.add edwardsParameter P Q) := by
  have hsum := hq.coordinates_valid.add edwardsComplete hr.coordinates_valid
  rw [hq.affine, hr.affine] at hsum
  exact (pointAdd_spec hq.reduced.stands hr.reduced.stands).at hsum

theorem RistrettoPoint.At.sub (hq : q.At P) (hr : r.At Q) :
    (pointSub q r).At (TwistedEdwards.add edwardsParameter P (TwistedEdwards.neg Q)) := by
  have hneg := hr.coordinates_valid.neg
  have hsum := hq.coordinates_valid.add edwardsComplete hneg.1
  rw [hq.affine, hneg.2, hr.affine] at hsum
  exact (pointSub_spec hq.reduced.stands hr.reduced.stands).at hsum

theorem RistrettoPoint.At.double (hq : q.At P) :
    (pointDouble q).At (TwistedEdwards.add edwardsParameter P P) := by
  have hdouble := hq.coordinates_valid.double edwardsComplete
  rw [hq.affine] at hdouble
  exact (pointDouble_spec hq.reduced.stands).at hdouble

theorem RistrettoPoint.At.negate (hq : q.At P) : (pointNegate q).At (TwistedEdwards.neg P) := by
  have hneg := hq.coordinates_valid.neg
  rw [hq.affine] at hneg
  exact (pointNegate_spec hq.reduced.stands).at hneg

/-- Sums, differences, doubles and negatives of valid points are valid, and are those of the
points of the curve: the formulas have no exceptions, and no limb overflows on the way. -/
theorem pointOperations (hq : q.At P) (hr : r.At Q) :
    (pointAdd q r).At (TwistedEdwards.add edwardsParameter P Q) ∧
      (pointSub q r).At (TwistedEdwards.add edwardsParameter P (TwistedEdwards.neg Q)) ∧
      (pointDouble q).At (TwistedEdwards.add edwardsParameter P P) ∧
      (pointNegate q).At (TwistedEdwards.neg P) :=
  ⟨hq.add hr, hq.sub hr, hq.double, hq.negate⟩

end At

/-- The base point of the tables is valid. -/
theorem pointBase_at : pointBase.At pointBase.coordinates.affine := by
  refine ⟨⟨⟨?_, ?_, ?_, ?_, ?_⟩, ⟨?_, ?_, ?_, ?_, ?_⟩, ⟨?_, ?_, ?_, ?_, ?_⟩,
    ⟨?_, ?_, ?_, ?_, ?_⟩⟩, by decide +kernel, rfl⟩ <;> decide

theorem pointOperations_base :
    (pointAdd pointBase pointBase).At (TwistedEdwards.add edwardsParameter
        pointBase.coordinates.affine pointBase.coordinates.affine) ∧
      (pointSub pointBase pointBase).At (TwistedEdwards.add edwardsParameter
        pointBase.coordinates.affine (TwistedEdwards.neg pointBase.coordinates.affine)) ∧
      (pointDouble pointBase).At (TwistedEdwards.add edwardsParameter
        pointBase.coordinates.affine pointBase.coordinates.affine) ∧
      (pointNegate pointBase).At (TwistedEdwards.neg pointBase.coordinates.affine) :=
  pointOperations pointBase_at pointBase_at

end Operations

end Ebut
