import Mathlib.Algebra.Field.Basic
import Mathlib.Algebra.Group.Even
import Mathlib.Tactic.FieldSimp
import Mathlib.Tactic.LinearCombination
import Mathlib.Tactic.Ring

/-!
# Twisted Edwards Curves in Extended Coordinates

The curve `y ^ 2 - x ^ 2 = 1 + d * x ^ 2 * y ^ 2` over a field in which minus one is a square and
`d` is not. The addition law has no exceptions there: a denominator that is zero would make `d` a
square. In extended coordinates a point has a fourth coordinate, and sums and doubles are computed
without a division and without a case distinction.

## Main definitions

* `OnCurve`, `add`, `neg`: The curve and its addition law.
* `Complete`: What makes the law complete.
* `Extended`, `Extended.Valid`: Extended coordinates of a point.
* `Extended.add`, `Extended.double`, `Extended.neg`: The operations on them.

## Theorems

* `OnCurve.denominator_ne`: No denominator is zero.
* `Extended.Valid.add`, `Extended.Valid.double`, `Extended.Valid.neg`: The operations on
  extended coordinates are those of the curve.
-/

namespace TwistedEdwards

variable {F : Type*} [Field F] (d : F)

/-- A pair of coordinates is on the curve. -/
def OnCurve (p : F × F) : Prop := p.2 ^ 2 - p.1 ^ 2 = 1 + d * p.1 ^ 2 * p.2 ^ 2

/-- The addition law. -/
def add (p q : F × F) : F × F :=
  ((p.1 * q.2 + p.2 * q.1) / (1 + d * p.1 * p.2 * q.1 * q.2),
    (p.2 * q.2 + p.1 * q.1) / (1 - d * p.1 * p.2 * q.1 * q.2))

/-- The negative of a point. -/
def neg (p : F × F) : F × F := (-p.1, p.2)

/-- What makes the addition law complete. -/
structure Complete : Prop where
  minusOne : IsSquare (-1 : F)
  nonsquare : ¬IsSquare d
  two : (1 : F) + 1 ≠ 0

variable {d}

theorem Complete.double_ne (hd : Complete d) {a : F} (ha : a ≠ 0) : a + a ≠ 0 := by
  rw [show a + a = (1 + 1) * a by ring]
  exact mul_ne_zero hd.two ha

/-- The product of the coordinates in a denominator is not a square root of one. -/
theorem OnCurve.product_sq_ne {p q : F × F} (hd : Complete d) (hp : OnCurve d p)
    (hq : OnCurve d q) : (d * p.1 * p.2 * q.1 * q.2) ^ 2 ≠ 1 := by
  rcases hd.minusOne with ⟨i, hi⟩
  rcases p with ⟨x₁, y₁⟩
  rcases q with ⟨x₂, y₂⟩
  unfold OnCurve at hp hq
  simp only at hp hq ⊢
  generalize hε : d * x₁ * y₁ * x₂ * y₂ = ε
  intro hone
  have hne : ε ≠ 0 := by
    rintro rfl
    exact zero_ne_one ((zero_pow two_ne_zero).symm.trans hone)
  -- a factor that is not zero makes the parameter a square
  have hfactor : ∀ e : F, e ^ 2 = 1 → y₂ + e * ε * i * x₂ = 0 := by
    intro e he
    by_contra hw
    refine hd.nonsquare ⟨(y₁ + e * i * x₁) / (x₁ * y₁ * (y₂ + e * ε * i * x₂)), ?_⟩
    have hkey : (y₁ + e * i * x₁) ^ 2 = d * (x₁ * y₁) ^ 2 * (y₂ + e * ε * i * x₂) ^ 2 := by
      subst hε
      linear_combination hp - d * x₁ ^ 2 * y₁ ^ 2 * hq +
        (x₁ ^ 2 * e ^ 2 - d * x₁ ^ 2 * y₁ ^ 2 * e ^ 2 * (d * x₁ * y₁ * x₂ * y₂) ^ 2 * x₂ ^ 2) *
          (-hi) +
        (-x₁ ^ 2 + d * x₁ ^ 2 * y₁ ^ 2 * x₂ ^ 2 * (d * x₁ * y₁ * x₂ * y₂) ^ 2) * he +
        (d * x₁ ^ 2 * y₁ ^ 2 * x₂ ^ 2 - 2 * e * i * x₁ * y₁ - 1) * hone
    have hx : x₁ * y₁ ≠ 0 := by
      rintro hzero
      refine hne ?_
      rw [← hε]
      linear_combination d * x₂ * y₂ * hzero
    rw [← pow_two, div_pow, hkey, mul_pow (x₁ * y₁), mul_div_mul_right _ _ (pow_ne_zero 2 hw),
      mul_div_cancel_right₀ _ (pow_ne_zero 2 hx)]
  have hplus := hfactor 1 (one_pow 2)
  have hminus := hfactor (-1) (by ring)
  have hy : y₂ = 0 := by
    by_contra hy
    refine hd.double_ne hy ?_
    linear_combination hplus + hminus
  exact hne (by rw [← hε, hy, mul_zero])

theorem OnCurve.denominator_ne {p q : F × F} (hd : Complete d) (hp : OnCurve d p)
    (hq : OnCurve d q) :
    1 + d * p.1 * p.2 * q.1 * q.2 ≠ 0 ∧ 1 - d * p.1 * p.2 * q.1 * q.2 ≠ 0 := by
  have hne := hp.product_sq_ne hd hq
  refine ⟨fun h => hne ?_, fun h => hne ?_⟩
  · linear_combination (d * p.1 * p.2 * q.1 * q.2 - 1) * h
  · linear_combination (-1 - d * p.1 * p.2 * q.1 * q.2) * h

/-- Extended coordinates: a point over a common denominator, and the product of its coordinates
over the same. -/
@[ext]
structure Extended (F : Type*) where
  x : F
  y : F
  z : F
  t : F

namespace Extended

/-- The point that extended coordinates stand for. -/
def affine (p : Extended F) : F × F := (p.x / p.z, p.y / p.z)

variable (d) in
/-- The coordinates are those of a point on the curve. -/
structure Valid (p : Extended F) : Prop where
  curve : p.y ^ 2 - p.x ^ 2 = p.z ^ 2 + d * p.t ^ 2
  product : p.x * p.y = p.z * p.t
  denominator : p.z ≠ 0

variable (d) in
/-- The sum, without a division. -/
def add (p q : Extended F) : Extended F :=
  let a := (q.y - q.x) * (p.y - p.x)
  let b := (q.y + q.x) * (p.y + p.x)
  let c := d * (q.t * p.t) + d * (q.t * p.t)
  let e := p.z * q.z + p.z * q.z
  ⟨(e - c) * (b - a), (e + c) * (a + b), (e + c) * (e - c), (a + b) * (b - a)⟩

/-- The double, which does not need the parameter. -/
def double (p : Extended F) : Extended F :=
  let d := p.x ^ 2 + p.y ^ 2
  let b := (p.y + p.x) ^ 2 - d
  let t := p.y ^ 2 - p.x ^ 2
  let a := p.z ^ 2 + p.z ^ 2 - t
  ⟨a * b, t * d, t * a, b * d⟩

/-- The negative. -/
def neg (p : Extended F) : Extended F := ⟨-p.x, p.y, p.z, -p.t⟩

variable {p q : Extended F}

theorem Valid.onCurve (hp : p.Valid d) : OnCurve d p.affine := by
  have hz := hp.denominator
  have hproduct := hp.product
  have hcurve := hp.curve
  unfold OnCurve affine
  simp only
  field_simp
  linear_combination p.z ^ 2 * hcurve - d * (p.x * p.y + p.z * p.t) * hproduct

/-- The product in a denominator of the addition law. -/
theorem Valid.product_eq (hp : p.Valid d) (hq : q.Valid d) :
    d * p.affine.1 * p.affine.2 * q.affine.1 * q.affine.2 =
      d * (p.t * q.t) / (p.z * q.z) := by
  have hz := hp.denominator
  have hz' := hq.denominator
  unfold affine
  simp only
  field_simp
  linear_combination d * q.x * q.y * hp.product + d * p.z * p.t * hq.product

/-- The factors of the denominator of a sum are not zero. -/
theorem Valid.factors_ne (hd : Complete d) (hp : p.Valid d) (hq : q.Valid d) :
    p.z * q.z + d * (p.t * q.t) ≠ 0 ∧ p.z * q.z - d * (p.t * q.t) ≠ 0 := by
  have hz := mul_ne_zero hp.denominator hq.denominator
  rcases hp.onCurve.denominator_ne hd hq.onCurve with ⟨hplus, hminus⟩
  rw [hp.product_eq hq] at hplus hminus
  refine ⟨fun h => hplus ?_, fun h => hminus ?_⟩
  · rw [← div_self hz, ← add_div, h, zero_div]
  · rw [← div_self hz, ← sub_div, h, zero_div]

/-- The sum of two points over the factors of its denominator. -/
theorem Valid.add_affine (hp : p.Valid d) (hq : q.Valid d) :
    TwistedEdwards.add d p.affine q.affine =
      ((p.x * q.y + p.y * q.x) / (p.z * q.z + d * (p.t * q.t)),
        (p.y * q.y + p.x * q.x) / (p.z * q.z - d * (p.t * q.t))) := by
  have hz := hp.denominator
  have hz' := hq.denominator
  have hplus : 1 + d * (p.t * q.t) / (p.z * q.z) =
      (p.z * q.z + d * (p.t * q.t)) / (p.z * q.z) := by
    field_simp
  have hminus : 1 - d * (p.t * q.t) / (p.z * q.z) =
      (p.z * q.z - d * (p.t * q.t)) / (p.z * q.z) := by
    field_simp
  unfold TwistedEdwards.add
  rw [hp.product_eq hq, hplus, hminus, div_div_eq_mul_div, div_div_eq_mul_div]
  unfold affine
  simp only
  refine Prod.ext ?_ ?_
  · simp only
    congr 1
    field_simp
  · simp only
    congr 1
    field_simp

/-- What the coordinates of a sum have in common with those of a double. -/
theorem Valid.add_curve (hp : p.Valid d) (hq : q.Valid d) :
    ((p.y * q.y + p.x * q.x) * (p.z * q.z + d * (p.t * q.t))) ^ 2 -
        ((p.x * q.y + p.y * q.x) * (p.z * q.z - d * (p.t * q.t))) ^ 2 =
      ((p.z * q.z + d * (p.t * q.t)) * (p.z * q.z - d * (p.t * q.t))) ^ 2 +
        d * ((p.y * q.y + p.x * q.x) * (p.x * q.y + p.y * q.x)) ^ 2 := by
  rcases hp with ⟨hcurve, hproduct, -⟩
  rcases hq with ⟨hcurve', hproduct', -⟩
  have hdiff : (p.y * q.y + p.x * q.x) ^ 2 - (p.x * q.y + p.y * q.x) ^ 2 =
      (p.z ^ 2 + d * p.t ^ 2) * (q.z ^ 2 + d * q.t ^ 2) := by
    rw [← hcurve, ← hcurve']
    ring
  have hsum : (p.y * q.y + p.x * q.x) ^ 2 + (p.x * q.y + p.y * q.x) ^ 2 =
      (p.y ^ 2 + p.x ^ 2) * (q.y ^ 2 + q.x ^ 2) + 4 * (p.z * q.z) * (p.t * q.t) := by
    linear_combination 4 * q.x * q.y * hproduct + 4 * p.z * p.t * hproduct'
  have hprod : (p.y * q.y + p.x * q.x) * (p.x * q.y + p.y * q.x) =
      p.z * p.t * (q.y ^ 2 + q.x ^ 2) + q.z * q.t * (p.y ^ 2 + p.x ^ 2) := by
    linear_combination (q.y ^ 2 + q.x ^ 2) * hproduct + (p.y ^ 2 + p.x ^ 2) * hproduct'
  have hsquare : (p.y ^ 2 + p.x ^ 2) ^ 2 =
      (p.z ^ 2 + d * p.t ^ 2) ^ 2 + 4 * (p.z * p.t) ^ 2 := by
    rw [← hcurve, ← hproduct]
    ring
  have hsquare' : (q.y ^ 2 + q.x ^ 2) ^ 2 =
      (q.z ^ 2 + d * q.t ^ 2) ^ 2 + 4 * (q.z * q.t) ^ 2 := by
    rw [← hcurve', ← hproduct']
    ring
  rw [hprod]
  linear_combination ((p.z * q.z) ^ 2 + (d * (p.t * q.t)) ^ 2) * hdiff +
    2 * d * (p.z * q.z) * (p.t * q.t) * hsum - d * (p.z * p.t) ^ 2 * hsquare' -
    d * (q.z * q.t) ^ 2 * hsquare

/-- A sum of extended coordinates is valid, and stands for the sum of the points. -/
theorem Valid.add (hd : Complete d) (hp : p.Valid d) (hq : q.Valid d) :
    (Extended.add d p q).Valid d ∧
      (Extended.add d p q).affine = TwistedEdwards.add d p.affine q.affine := by
  rcases hp.factors_ne hd hq with ⟨hplus, hminus⟩
  have hsum : Extended.add d p q =
      ⟨4 * ((p.x * q.y + p.y * q.x) * (p.z * q.z - d * (p.t * q.t))),
        4 * ((p.z * q.z + d * (p.t * q.t)) * (p.y * q.y + p.x * q.x)),
        4 * ((p.z * q.z + d * (p.t * q.t)) * (p.z * q.z - d * (p.t * q.t))),
        4 * ((p.y * q.y + p.x * q.x) * (p.x * q.y + p.y * q.x))⟩ := by
    unfold Extended.add
    ext <;> simp only <;> ring
  have hfour : (4 : F) ≠ 0 := by
    rw [show (4 : F) = (1 + 1) * (1 + 1) by norm_num]
    exact mul_ne_zero hd.two hd.two
  rw [hsum]
  refine ⟨⟨?_, ?_, mul_ne_zero hfour (mul_ne_zero hplus hminus)⟩, ?_⟩
  · have hcurve := hp.add_curve hq
    simp only
    linear_combination 16 * hcurve
  · simp only
    ring
  · rw [hp.add_affine hq]
    unfold affine
    simp only
    rw [mul_div_mul_left _ _ hfour, mul_div_mul_left _ _ hfour, mul_div_mul_right _ _ hminus,
      mul_div_mul_left _ _ hplus]

/-- A common factor of the coordinates makes no difference. -/
theorem Valid.of_scaled {c : F} (hc : c ≠ 0)
    (hp : (⟨c * p.x, c * p.y, c * p.z, c * p.t⟩ : Extended F).Valid d) :
    p.Valid d ∧ (⟨c * p.x, c * p.y, c * p.z, c * p.t⟩ : Extended F).affine = p.affine := by
  rcases hp with ⟨hcurve, hproduct, hz⟩
  simp only at hcurve hproduct hz
  refine ⟨⟨?_, ?_, right_ne_zero_of_mul hz⟩, ?_⟩
  · refine mul_left_cancel₀ (pow_ne_zero 2 hc) ?_
    linear_combination hcurve
  · refine mul_left_cancel₀ (pow_ne_zero 2 hc) ?_
    linear_combination hproduct
  · unfold affine
    simp only
    rw [mul_div_mul_left _ _ hc, mul_div_mul_left _ _ hc]

/-- A double is valid, and stands for the sum of the point with itself. -/
theorem Valid.double (hd : Complete d) (hp : p.Valid d) :
    p.double.Valid d ∧ p.double.affine = TwistedEdwards.add d p.affine p.affine := by
  have hfour : (4 : F) ≠ 0 := by
    rw [show (4 : F) = (1 + 1) * (1 + 1) by norm_num]
    exact mul_ne_zero hd.two hd.two
  have hcurve := hp.curve
  have hsum : Extended.add d p p =
      ⟨4 * p.double.x, 4 * p.double.y, 4 * p.double.z, 4 * p.double.t⟩ := by
    unfold Extended.add Extended.double
    ext <;> simp only
    · linear_combination 8 * p.x * p.y * hcurve
    · linear_combination -4 * (p.x ^ 2 + p.y ^ 2) * hcurve
    · linear_combination -4 * (p.z ^ 2 - d * p.t ^ 2 - (p.y ^ 2 - p.x ^ 2)) * hcurve
    · ring
  rcases hp.add hd hp with ⟨hvalid, haffine⟩
  rw [hsum] at hvalid haffine
  rcases Valid.of_scaled hfour hvalid with ⟨hdouble, heq⟩
  exact ⟨hdouble, heq.symm.trans haffine⟩

theorem Valid.neg (hp : p.Valid d) :
    p.neg.Valid d ∧ p.neg.affine = TwistedEdwards.neg p.affine := by
  rcases hp with ⟨hcurve, hproduct, hz⟩
  refine ⟨⟨?_, ?_, hz⟩, ?_⟩
  · unfold Extended.neg
    simp only
    linear_combination hcurve
  · unfold Extended.neg
    simp only
    linear_combination -hproduct
  · unfold affine TwistedEdwards.neg Extended.neg
    simp only [neg_div]

/-- The extended coordinates of a point of the curve. -/
theorem Valid.of_onCurve {r : F × F} (hr : OnCurve d r) :
    (⟨r.1, r.2, 1, r.1 * r.2⟩ : Extended F).Valid d ∧
      (⟨r.1, r.2, 1, r.1 * r.2⟩ : Extended F).affine = r := by
  unfold OnCurve at hr
  refine ⟨⟨?_, ?_, one_ne_zero⟩, ?_⟩
  · simp only
    linear_combination hr
  · simp only [one_mul]
  · unfold Extended.affine
    simp only [div_one]

end Extended

end TwistedEdwards
