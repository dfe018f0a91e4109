import Ebut.Library.EvenPoints

/-!
# The Jacobi Quartic over the Even Points

The quartic `t ^ 2 = (1 + s ^ 2) ^ 2 + d * (s + s) ^ 2` parametrises amplitudes by the tangent of
half of the angle. Where the addition law of the curve is complete, no denominator is zero at a
point of the quartic, so that every point of it is mapped to an even point of the curve.

## Main definitions

* `OnQuartic`: The quartic.
* `amplitude`: The amplitude of a point of the quartic.
* `image`: The point of the curve, in extended coordinates.

## Theorems

* `OnQuartic.factors_ne`: The denominators are not zero.
* `OnQuartic.amplitude`, `OnQuartic.image`: A point of the quartic is mapped to an even point.
* `half_amplitude`: The parameter is the tangent of half of the angle.
* `onQuartic_of_parameter`: Points of the quartic from a parameter.
-/

namespace JacobiQuartic

open TwistedEdwards EvenPoints

variable {F : Type*} [Field F] (d i : F)

/-- A pair of coordinates is on the quartic. -/
def OnQuartic (p : F × F) : Prop := p.2 ^ 2 = (1 + p.1 ^ 2) ^ 2 + d * (p.1 + p.1) ^ 2

/-- The amplitude of a point of the quartic. -/
def amplitude (p : F × F) : Amplitude F :=
  ⟨(p.1 + p.1) / (1 + p.1 ^ 2), (1 - p.1 ^ 2) / (1 + p.1 ^ 2), p.2 / (1 + p.1 ^ 2)⟩

/-- The point of the curve without a division. -/
def image (p : F × F) : Extended F :=
  ⟨i * (p.1 + p.1) * p.2, (1 - p.1 ^ 2) * (1 + p.1 ^ 2), (1 + p.1 ^ 2) * p.2,
    i * (p.1 + p.1) * (1 - p.1 ^ 2)⟩

variable {d i} {p : F × F}

/-- The parameter is not a square, also up to sign. -/
theorem scaled_sq_ne (hd : Complete d) {s c : F} (hs : s ≠ 0) : c ^ 2 ≠ -(d * s ^ 2) := by
  rcases hd.minusOne with ⟨i, hi⟩
  intro h
  have hden : i * s ≠ 0 := by
    refine mul_ne_zero ?_ hs
    rintro rfl
    exact one_ne_zero (neg_eq_zero.mp (hi.trans (mul_zero 0)))
  refine hd.nonsquare ⟨c / (i * s), ?_⟩
  rw [← pow_two, div_pow, h, eq_div_iff (pow_ne_zero 2 hden)]
  linear_combination -d * s ^ 2 * hi

theorem OnQuartic.factors_ne (hd : Complete d) (hp : OnQuartic d p) :
    1 + p.1 ^ 2 ≠ 0 ∧ p.2 ≠ 0 := by
  unfold OnQuartic at hp
  refine ⟨fun h => ?_, fun h => ?_⟩
  · rcases hd.minusOne with ⟨i, hi⟩
    have hs : p.1 ≠ 0 := by
      intro hs
      rw [hs, zero_pow two_ne_zero, add_zero] at h
      exact one_ne_zero h
    -- the first factor being zero makes the equation one between a square and a nonsquare
    refine scaled_sq_ne hd (hd.double_ne hs) (c := i * p.2) ?_
    linear_combination i ^ 2 * hp - d * (p.1 + p.1) ^ 2 * hi + i ^ 2 * (1 + p.1 ^ 2) * h
  · by_cases hs : p.1 = 0
    · rw [h, hs] at hp
      refine one_ne_zero (α := F) ?_
      linear_combination -hp
    · refine scaled_sq_ne hd (hd.double_ne hs) (c := 1 + p.1 ^ 2) ?_
      rw [h] at hp
      linear_combination -hp

theorem OnQuartic.amplitude (hd : Complete d) (hp : OnQuartic d p) : (amplitude p).On d := by
  rcases hp.factors_ne hd with ⟨hs, -⟩
  unfold OnQuartic at hp
  refine ⟨?_, ?_⟩
  · unfold JacobiQuartic.amplitude
    simp only
    rw [div_pow, div_pow, eq_sub_iff_add_eq, ← add_div, div_eq_one_iff_eq (pow_ne_zero 2 hs)]
    ring
  · unfold JacobiQuartic.amplitude
    simp only
    rw [div_pow, div_pow, hp, add_div, div_self (pow_ne_zero 2 hs)]
    ring

/-- The point of the curve is that of the amplitude, and its extended coordinates are valid. -/
theorem OnQuartic.image (hd : Complete d) (hi : i ^ 2 = -1) (hp : OnQuartic d p) :
    (image i p).Valid d ∧
      (JacobiQuartic.image i p).affine = (JacobiQuartic.amplitude p).point i := by
  rcases hp.factors_ne hd with ⟨hs, ht⟩
  unfold OnQuartic at hp
  refine ⟨⟨?_, ?_, mul_ne_zero hs ht⟩, ?_⟩
  · unfold JacobiQuartic.image
    simp only
    linear_combination (-(1 - p.1 ^ 2) ^ 2) * hp -
      ((p.1 + p.1) ^ 2 * p.2 ^ 2 + d * (p.1 + p.1) ^ 2 * (1 - p.1 ^ 2) ^ 2) * hi
  · unfold JacobiQuartic.image
    simp only
    ring
  · unfold JacobiQuartic.image Extended.affine JacobiQuartic.amplitude Amplitude.point
    simp only
    rw [mul_div_mul_right _ _ ht, mul_comm (1 + p.1 ^ 2), mul_div_mul_right _ _ hs,
      div_div_div_cancel_right₀ hs, mul_div_assoc']

/-- The parameter is the tangent of half of the angle. -/
theorem half_amplitude (hd : Complete d) (hs : 1 + p.1 ^ 2 ≠ 0) :
    (amplitude p).half = p.1 := by
  unfold amplitude Amplitude.half
  simp only
  by_cases hzero : p.1 = 0
  · rw [hzero, add_zero, zero_div, div_zero]
  · have hcn : 1 - (1 - p.1 ^ 2) / (1 + p.1 ^ 2) = p.1 * (p.1 + p.1) / (1 + p.1 ^ 2) := by
      field_simp
      ring
    rw [hcn, div_div_div_cancel_right₀ hs, mul_div_cancel_right₀ _ (hd.double_ne hzero)]

/-- Every amplitude has a point of the quartic. -/
theorem onQuartic_of_amplitude (hd : Complete d) {a : Amplitude F} (ha : a.On d) :
    OnQuartic d (a.half, a.dn * (1 + a.half ^ 2)) := by
  have hsn := (ha.half_spec hd.two).2.1
  unfold OnQuartic
  simp only
  rw [← hsn]
  linear_combination (1 + a.half ^ 2) ^ 2 * ha.dn_sq

/-- Points of the quartic from a parameter: `e` is an inverse square root of `c * n`, up to the
factor `k`, and `ε` is the sign that goes with the factor. -/
theorem onQuartic_of_parameter {r c n e ε k s : F} (hc : c = (1 - d * (r - 1)) * (-d * (r - 1) - r))
    (hn : n = (r + 1) * (1 + (d + d))) (hs : s ^ 2 = (n * e) ^ 2) (hε : ε ^ 2 = 1)
    (hk : c * n * e ^ 2 = k) (hsign : n * e * (k + k + ε * (r - 1) - (r + 1)) = 0) :
    OnQuartic d (s, -(ε * (((1 + (d + d)) * e) ^ 2 * (r - 1) * n)) - 1) := by
  unfold OnQuartic
  simp only
  have hfour : (r - 1) ^ 2 * (1 + 2 * d) ^ 2 - (r + 1) ^ 2 = 4 * c := by
    rw [hc]
    ring
  have hscaled : (r + 1) * (1 + 2 * d) = n := by
    rw [hn, two_mul]
  linear_combination (-(2 + 4 * d + s ^ 2 + (n * e) ^ 2)) * hs +
    (n * (r - 1) * (1 + 2 * d) ^ 2 * e ^ 2) ^ 2 * hε + 4 * n * e ^ 2 * (1 + 2 * d) ^ 2 * hk +
    2 * (1 + 2 * d) ^ 2 * e * hsign + n ^ 2 * e ^ 4 * (1 + 2 * d) ^ 2 * hfour +
    (2 * n * e ^ 2 * (1 + 2 * d) + n ^ 2 * e ^ 4 * ((r + 1) * (1 + 2 * d) + n)) * hscaled

end JacobiQuartic
