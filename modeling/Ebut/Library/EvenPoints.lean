import Ebut.Library.TwistedEdwards

/-!
# The Even Points of a Twisted Edwards Curve

A point of the curve whose first coordinate is `i * sn` is even if both `1 - sn ^ 2` and
`1 + d * sn ^ 2` are squares. Their roots make up an amplitude, and the addition law of the curve
is the addition theorem of the elliptic functions that these coordinates are named after. Even
points are closed under addition.

Every coset of the four-torsion has few amplitudes that are canonical for a choice of signs, and
the tangent of half of their angle is the same up to sign. It tells the cosets apart.

## Main definitions

* `Amplitude`, `Amplitude.On`, `Amplitude.point`: Even points.
* `Amplitude.add`, `Amplitude.neg`, `Amplitude.turn`: Sums, negatives and a translation by torsion.
* `SameCoset`: Two points differ by a point of the four-torsion.
* `Sign`: A choice between an element and its negative.
* `Canonical`, `Amplitude.half`: The canonical amplitudes, and the tangent of half of the angle.

## Theorems

* `Amplitude.On.add`: The addition theorem.
* `Canonical.half_of_sameCoset`, `Canonical.sameCoset_of_half`: The tangents of canonical
  amplitudes are the same up to sign for amplitudes of one coset, and only for these.
-/

namespace EvenPoints

open TwistedEdwards

/-- A root of each of the two squares, and the number they belong to. -/
@[ext]
structure Amplitude (F : Type*) where
  sn : F
  cn : F
  dn : F

variable {F : Type*} [Field F] (d i m : F)

namespace Amplitude

/-- The two other coordinates are roots. -/
structure On (a : Amplitude F) : Prop where
  cn_sq : a.cn ^ 2 = 1 - a.sn ^ 2
  dn_sq : a.dn ^ 2 = 1 + d * a.sn ^ 2

/-- The point of the curve. -/
def point (a : Amplitude F) : F × F := (i * a.sn, a.cn / a.dn)

/-- The sum of two angles. -/
def add (a b : Amplitude F) : Amplitude F :=
  ⟨(a.sn * b.cn * b.dn + b.sn * a.cn * a.dn) / (1 + d * a.sn ^ 2 * b.sn ^ 2),
    (a.cn * b.cn - a.sn * b.sn * a.dn * b.dn) / (1 + d * a.sn ^ 2 * b.sn ^ 2),
    (a.dn * b.dn + d * a.sn * b.sn * a.cn * b.cn) / (1 + d * a.sn ^ 2 * b.sn ^ 2)⟩

/-- The negative angle. -/
def neg (a : Amplitude F) : Amplitude F := ⟨-a.sn, a.cn, a.dn⟩

/-- The other amplitude of the same point. -/
def flip (a : Amplitude F) : Amplitude F := ⟨a.sn, -a.cn, -a.dn⟩

/-- A quarter turn, which adds a point of order four. -/
def turn (a : Amplitude F) : Amplitude F :=
  ⟨a.cn / a.dn, i * m * a.sn / a.dn, -(i * m) / a.dn⟩

/-- The tangent of half of the angle. -/
def half (a : Amplitude F) : F := (1 - a.cn) / a.sn

variable {d i m} {a b : Amplitude F}

/-- No sum of one and a multiple of the parameter by a square is zero. -/
theorem one_add_ne (hd : Complete d) (s : F) : 1 + d * s ^ 2 ≠ 0 := by
  rcases hd.minusOne with ⟨r, hr⟩
  intro h
  have hs : s ≠ 0 := by
    rintro rfl
    rw [zero_pow two_ne_zero, mul_zero, add_zero] at h
    exact one_ne_zero h
  refine hd.nonsquare ⟨r / s, ?_⟩
  rw [← pow_two, div_pow, eq_div_iff (pow_ne_zero 2 hs)]
  linear_combination h + hr

theorem On.dn_ne (hd : Complete d) (ha : a.On d) : a.dn ≠ 0 := by
  intro h
  refine one_add_ne hd a.sn ?_
  rw [← ha.dn_sq, h, zero_pow two_ne_zero]

/-- The point of an amplitude is on the curve. -/
theorem On.onCurve (hd : Complete d) (hi : i ^ 2 = -1) (ha : a.On d) : OnCurve d (a.point i) := by
  have hdn := ha.dn_ne hd
  unfold OnCurve point
  simp only
  field_simp
  linear_combination (1 + d * a.sn ^ 2) * ha.cn_sq + (a.sn ^ 2 - 1) * ha.dn_sq -
    (a.dn ^ 2 * a.sn ^ 2 + d * a.sn ^ 2 * a.cn ^ 2) * hi

section Operations

/-- The denominator of a sum of angles. -/
theorem sum_ne (hd : Complete d) (a b : Amplitude F) : 1 + d * a.sn ^ 2 * b.sn ^ 2 ≠ 0 := by
  have hne := one_add_ne hd (a.sn * b.sn)
  rwa [mul_pow, ← mul_assoc] at hne

theorem On.add (hd : Complete d) (ha : a.On d) (hb : b.On d) : (a.add d b).On d := by
  have hne := sum_ne hd a b
  rcases ha with ⟨hc, hδ⟩
  rcases hb with ⟨hc', hδ'⟩
  -- the two equations of the sum, before the division by the common denominator
  have hcn : (a.cn * b.cn - a.sn * b.sn * a.dn * b.dn) ^ 2 +
      (a.sn * b.cn * b.dn + b.sn * a.cn * a.dn) ^ 2 = (1 + d * a.sn ^ 2 * b.sn ^ 2) ^ 2 := by
    linear_combination (b.cn ^ 2 + b.sn ^ 2 * a.dn ^ 2) * hc +
      (1 - a.sn ^ 2 + a.sn ^ 2 * b.dn ^ 2) * hc' +
      (a.sn ^ 2 * b.sn ^ 2 * b.dn ^ 2 + b.sn ^ 2 * (1 - a.sn ^ 2)) * hδ +
      (a.sn ^ 2 * b.sn ^ 2 * (1 + d * a.sn ^ 2) + a.sn ^ 2 * (1 - b.sn ^ 2)) * hδ'
  have hdn : (a.dn * b.dn + d * a.sn * b.sn * a.cn * b.cn) ^ 2 =
      (1 + d * a.sn ^ 2 * b.sn ^ 2) ^ 2 +
        d * (a.sn * b.cn * b.dn + b.sn * a.cn * a.dn) ^ 2 := by
    linear_combination (d ^ 2 * a.sn ^ 2 * b.sn ^ 2 * b.cn ^ 2 - d * b.sn ^ 2 * a.dn ^ 2) * hc +
      (d ^ 2 * a.sn ^ 2 * b.sn ^ 2 * (1 - a.sn ^ 2) - d * a.sn ^ 2 * b.dn ^ 2) * hc' +
      (b.dn ^ 2 - d * b.sn ^ 2 * (1 - a.sn ^ 2)) * hδ +
      (1 + d * a.sn ^ 2 - d * a.sn ^ 2 * (1 - b.sn ^ 2)) * hδ'
  refine ⟨?_, ?_⟩
  · unfold Amplitude.add
    simp only
    rw [div_pow, div_pow, eq_sub_iff_add_eq, ← add_div, hcn, div_self (pow_ne_zero 2 hne)]
  · unfold Amplitude.add
    simp only
    rw [div_pow, div_pow, hdn, add_div, div_self (pow_ne_zero 2 hne), mul_div_assoc]

/-- The addition theorem: the sum of the angles is the amplitude of the sum of the points. -/
theorem On.add_point (hd : Complete d) (hi : i ^ 2 = -1) (ha : a.On d) (hb : b.On d) :
    (a.add d b).point i = TwistedEdwards.add d (a.point i) (b.point i) := by
  have hne := sum_ne hd a b
  have hdn := ha.dn_ne hd
  have hdn' := hb.dn_ne hd
  rcases (ha.onCurve hd hi).denominator_ne hd (hb.onCurve hd hi) with ⟨hplus, hminus⟩
  rcases ha with ⟨hc, hδ⟩
  rcases hb with ⟨hc', hδ'⟩
  unfold point at hplus hminus ⊢
  have hfirst : 1 + d * (i * a.sn) * (a.cn / a.dn) * (i * b.sn) * (b.cn / b.dn) =
      (a.dn * b.dn - d * a.sn * b.sn * a.cn * b.cn) / (a.dn * b.dn) := by
    field_simp
    linear_combination d * a.sn * b.sn * a.cn * b.cn * hi
  have hsecond : 1 - d * (i * a.sn) * (a.cn / a.dn) * (i * b.sn) * (b.cn / b.dn) =
      (a.dn * b.dn + d * a.sn * b.sn * a.cn * b.cn) / (a.dn * b.dn) := by
    field_simp
    linear_combination -d * a.sn * b.sn * a.cn * b.cn * hi
  have hx : i * a.sn * (b.cn / b.dn) + a.cn / a.dn * (i * b.sn) =
      i * (a.sn * b.cn * a.dn + b.sn * a.cn * b.dn) / (a.dn * b.dn) := by
    field_simp
  have hy : a.cn / a.dn * (b.cn / b.dn) + i * a.sn * (i * b.sn) =
      (a.cn * b.cn - a.sn * b.sn * a.dn * b.dn) / (a.dn * b.dn) := by
    field_simp
    linear_combination a.sn * b.sn * a.dn * b.dn * hi
  simp only at hplus hminus
  rw [hfirst] at hplus
  rw [hsecond] at hminus
  rcases div_ne_zero_iff.mp hplus with ⟨hplus, hdns⟩
  rcases div_ne_zero_iff.mp hminus with ⟨hminus, -⟩
  unfold TwistedEdwards.add Amplitude.add
  simp only
  rw [hfirst, hsecond, hx, hy, div_div_div_cancel_right₀ hdns, div_div_div_cancel_right₀ hdns,
    div_div_div_cancel_right₀ hne]
  refine Prod.ext ?_ rfl
  simp only
  rw [mul_div_assoc', div_eq_div_iff hne hplus]
  linear_combination i * a.sn * b.cn * a.dn * hδ' + i * b.sn * a.cn * b.dn * hδ -
    i * d * a.sn * b.cn * a.dn * b.sn ^ 2 * hc - i * d * b.sn * a.cn * b.dn * a.sn ^ 2 * hc'

theorem On.neg (ha : a.On d) :
    a.neg.On d ∧ a.neg.point i = TwistedEdwards.neg (a.point i) := by
  refine ⟨⟨?_, ?_⟩, ?_⟩
  · unfold Amplitude.neg
    rw [ha.cn_sq, neg_sq]
  · unfold Amplitude.neg
    rw [ha.dn_sq, neg_sq]
  · unfold Amplitude.neg TwistedEdwards.neg point
    rw [mul_neg]

theorem On.flip (ha : a.On d) : a.flip.On d ∧ a.flip.point i = a.point i := by
  refine ⟨⟨?_, ?_⟩, ?_⟩
  · unfold Amplitude.flip
    rw [neg_sq, ha.cn_sq]
  · unfold Amplitude.flip
    rw [neg_sq, ha.dn_sq]
  · unfold Amplitude.flip point
    rw [neg_div_neg_eq]

/-- The factors of a quarter turn are not zero. -/
theorem quarter_ne (hd : Complete d) (hi : i ^ 2 = -1) (hm : m ^ 2 = -1 - d) : i * m ≠ 0 := by
  intro h
  refine one_add_ne hd 1 ?_
  linear_combination hm - m ^ 2 * hi + i * m * h

/-- A quarter turn. -/
theorem On.turn (hd : Complete d) (hi : i ^ 2 = -1) (hm : m ^ 2 = -1 - d) (ha : a.On d) :
    (a.turn i m).On d ∧ (a.turn i m).point i = (i * (a.point i).2, i * (a.point i).1) := by
  have hdn := ha.dn_ne hd
  rcases ha with ⟨hc, hδ⟩
  have hm0 := quarter_ne hd hi hm
  refine ⟨⟨?_, ?_⟩, ?_⟩
  · unfold Amplitude.turn
    simp only
    field_simp
    linear_combination m ^ 2 * a.sn ^ 2 * hi - a.sn ^ 2 * hm + hc - hδ
  · unfold Amplitude.turn
    simp only
    field_simp
    linear_combination m ^ 2 * hi - hm - d * hc - hδ
  · unfold Amplitude.turn point
    simp only
    refine Prod.ext rfl ?_
    simp only
    rw [div_div_div_cancel_right₀ hdn, div_neg, mul_div_cancel_left₀ _ hm0]
    linear_combination -a.sn * hi

end Operations

end Amplitude

section Cosets

/-- What adding a point of order four does. -/
def rotate (p : F × F) : F × F := (i * p.2, i * p.1)

/-- Two points differ by a multiple of the point of order four. -/
def SameCoset (p q : F × F) : Prop := ∃ k : ℕ, q = (rotate i)^[k] p

variable {d i m} {p q r : F × F}

theorem rotate_twice (hi : i ^ 2 = -1) (p : F × F) : rotate i (rotate i p) = (-p.1, -p.2) := by
  unfold rotate
  refine Prod.ext ?_ ?_
  · simp only
    linear_combination p.1 * hi
  · simp only
    linear_combination p.2 * hi

theorem rotate_four (hi : i ^ 2 = -1) (p : F × F) : (rotate i)^[4] p = p := by
  show rotate i (rotate i (rotate i (rotate i p))) = p
  rw [rotate_twice hi, rotate_twice hi, neg_neg, neg_neg]

theorem SameCoset.refl (p : F × F) : SameCoset i p p := ⟨0, rfl⟩

theorem SameCoset.trans (hpq : SameCoset i p q) (hqr : SameCoset i q r) : SameCoset i p r := by
  rcases hpq with ⟨j, rfl⟩
  rcases hqr with ⟨k, rfl⟩
  exact ⟨k + j, (Function.iterate_add_apply _ k j p).symm⟩

theorem SameCoset.symm (hi : i ^ 2 = -1) (hpq : SameCoset i p q) : SameCoset i q p := by
  rcases hpq with ⟨k, rfl⟩
  refine ⟨3 * k, ?_⟩
  have hid : (rotate i)^[4] = id := funext (rotate_four hi)
  rw [← Function.iterate_add_apply, show 3 * k + k = 4 * k by ring, Function.iterate_mul, hid,
    Function.iterate_id, id]

/-- The four points of a coset. -/
theorem sameCoset_iff (hi : i ^ 2 = -1) : SameCoset i p q ↔
    q = p ∨ q = rotate i p ∨ q = (-p.1, -p.2) ∨ q = rotate i (-p.1, -p.2) := by
  constructor
  · rintro ⟨k, rfl⟩
    have hid : (rotate i)^[4] = id := funext (rotate_four hi)
    rw [← Nat.div_add_mod k 4, Nat.add_comm, Function.iterate_add_apply, Function.iterate_mul, hid,
      Function.iterate_id, id]
    obtain h | h | h | h : k % 4 = 0 ∨ k % 4 = 1 ∨ k % 4 = 2 ∨ k % 4 = 3 := by omega
    all_goals rw [h]
    · exact Or.inl rfl
    · exact Or.inr (Or.inl rfl)
    · exact Or.inr (Or.inr (Or.inl (rotate_twice hi p)))
    · exact Or.inr (Or.inr (Or.inr (congrArg (rotate i) (rotate_twice hi p))))
  · rintro (rfl | rfl | rfl | rfl)
    · exact ⟨0, rfl⟩
    · exact ⟨1, rfl⟩
    · exact ⟨2, (rotate_twice hi p).symm⟩
    · exact ⟨3, congrArg (rotate i) (rotate_twice hi p).symm⟩

theorem rotate_onCurve (hi : i ^ 2 = -1) (hp : OnCurve d p) : OnCurve d (rotate i p) := by
  unfold OnCurve at hp ⊢
  unfold rotate
  simp only
  linear_combination hp +
    (p.1 ^ 2 - p.2 ^ 2 + d * p.1 ^ 2 * p.2 ^ 2 * (1 - i ^ 2)) * hi

/-- Two points of the curve with one and the same ratio of coordinates. -/
theorem sameCoset_of_ratio (hd : Complete d) (hi : i ^ 2 = -1) (hp : OnCurve d p)
    (hq : OnCurve d q) (h : p.2 * q.1 = q.2 * p.1) : SameCoset i p q := by
  rcases p with ⟨x₁, y₁⟩
  rcases q with ⟨x₂, y₂⟩
  unfold OnCurve at hp hq
  simp only at hp hq h
  have hne : 1 + d * (i * (x₁ * y₂)) ^ 2 ≠ 0 := Amplitude.one_add_ne hd _
  have hy : y₂ ^ 2 = y₁ ^ 2 := by
    refine mul_left_cancel₀ hne ?_
    linear_combination y₁ ^ 2 * hq - y₂ ^ 2 * hp + (1 + d * y₂ ^ 2) * (y₁ * x₂ + y₂ * x₁) * h +
      d * x₁ ^ 2 * y₂ ^ 2 * (y₂ ^ 2 - y₁ ^ 2) * hi
  have hx : x₂ ^ 2 = x₁ ^ 2 := by
    linear_combination x₁ ^ 2 * hq - x₂ ^ 2 * hp + (y₁ * x₂ + y₂ * x₁) * h +
      d * x₁ ^ 2 * x₂ ^ 2 * hy
  -- the squares agree, and the ratio lets the signs differ only together
  rw [sameCoset_iff hi]
  rcases sq_eq_sq_iff_eq_or_eq_neg.mp hy with rfl | rfl
  · by_cases hzero : y₂ = 0
    · subst hzero
      rcases sq_eq_sq_iff_eq_or_eq_neg.mp hx with rfl | rfl
      · exact Or.inl rfl
      · exact Or.inr (Or.inr (Or.inl (Prod.ext rfl neg_zero.symm)))
    · exact Or.inl (Prod.ext (mul_left_cancel₀ hzero h) rfl)
  · by_cases hzero : y₁ = 0
    · subst hzero
      rcases sq_eq_sq_iff_eq_or_eq_neg.mp hx with rfl | rfl
      · exact Or.inl (Prod.ext rfl neg_zero)
      · exact Or.inr (Or.inr (Or.inl rfl))
    · refine Or.inr (Or.inr (Or.inl (Prod.ext (mul_left_cancel₀ hzero ?_) rfl)))
      simp only
      linear_combination h

/-- A coset by the products of coordinates. -/
theorem sameCoset_iff_products (hd : Complete d) (hi : i ^ 2 = -1) (hp : OnCurve d p)
    (hq : OnCurve d q) :
    SameCoset i p q ↔ p.2 * q.1 = q.2 * p.1 ∨ p.2 * q.2 = q.1 * p.1 := by
  refine ⟨fun h => ?_, ?_⟩
  · rcases (sameCoset_iff hi).mp h with rfl | rfl | rfl | rfl
    · exact Or.inl rfl
    · refine Or.inr ?_
      unfold rotate
      ring
    · refine Or.inl ?_
      ring
    · refine Or.inr ?_
      unfold rotate
      ring
  · rintro (h | h)
    · exact sameCoset_of_ratio hd hi hp hq h
    · refine SameCoset.trans ⟨1, rfl⟩ (sameCoset_of_ratio hd hi (rotate_onCurve hi hp) hq ?_)
      show i * p.1 * q.1 = q.2 * (i * p.2)
      linear_combination -i * h

end Cosets

/-- A choice between every element but zero and its negative. -/
structure Sign (F : Type*) [Field F] where
  negative : F → Bool
  zero : negative 0 = false
  neg : ∀ {a : F}, a ≠ 0 → negative (-a) = !negative a

/-- The one of an element and its negative that is chosen. -/
def Sign.abs (σ : Sign F) (a : F) : F := if σ.negative a then -a else a

section Signs

variable {σ : Sign F}

theorem Sign.ne_zero (σ : Sign F) {a : F} (ha : σ.negative a = true) : a ≠ 0 := by
  rintro rfl
  exact Bool.false_ne_true (σ.zero.symm.trans ha)

theorem Sign.negative_abs (a : F) : σ.negative (σ.abs a) = false := by
  unfold Sign.abs
  by_cases ha : σ.negative a = true
  · rw [if_pos ha, σ.neg (σ.ne_zero ha), ha, Bool.not_true]
  · rw [if_neg ha, Bool.eq_false_iff]
    exact ha

theorem Sign.abs_neg (a : F) : σ.abs (-a) = σ.abs a := by
  by_cases ha : a = 0
  · rw [ha, neg_zero]
  · unfold Sign.abs
    rw [σ.neg ha, neg_neg]
    cases σ.negative a with
    | true => rfl
    | false => rfl

/-- An element is zero if neither it nor its negative is negative. -/
theorem Sign.eq_zero {a : F} (ha : σ.negative a = false) (hneg : σ.negative (-a) = false) :
    a = 0 := by
  by_contra hne
  rw [σ.neg hne, ha] at hneg
  exact Bool.false_ne_true hneg.symm

theorem Sign.abs_eq_iff (a b : F) : σ.abs a = σ.abs b ↔ a = b ∨ a = -b := by
  refine ⟨fun h => ?_, ?_⟩
  · unfold Sign.abs at h
    cases ha : σ.negative a <;> cases hb : σ.negative b <;> rw [ha, hb] at h
    · exact Or.inl h
    · exact Or.inr h
    · exact Or.inr (neg_eq_iff_eq_neg.mp h)
    · exact Or.inl (neg_inj.mp h)
  · rintro (rfl | rfl)
    · rfl
    · exact σ.abs_neg b

end Signs

section Canonical

variable (σ : Sign F)

/-- The amplitudes that a choice of signs singles out in a coset. -/
structure Canonical (a : Amplitude F) : Prop where
  on : a.On d
  cn_ne : a.cn ≠ 0
  slope : σ.negative (m * a.sn / a.dn) = false
  product : σ.negative (m * a.sn * (a.cn / a.dn)) = false

variable {d i m σ} {a b : Amplitude F}

/-- The other canonical amplitude of the same tangent. -/
theorem Canonical.mirror (ha : Canonical d m σ a) :
    Canonical d m σ ⟨-a.sn, a.cn, -a.dn⟩ ∧
      (⟨-a.sn, a.cn, -a.dn⟩ : Amplitude F).half = -a.half ∧
      (⟨-a.sn, a.cn, -a.dn⟩ : Amplitude F).point i = (-(a.point i).1, -(a.point i).2) := by
  rcases ha with ⟨⟨hcn, hdn⟩, hne, hslope, hproduct⟩
  refine ⟨⟨⟨?_, ?_⟩, hne, ?_, ?_⟩, ?_, ?_⟩
  · rw [neg_sq, hcn]
  · rw [neg_sq, neg_sq, hdn]
  · simp only
    rwa [mul_neg, neg_div_neg_eq]
  · simp only
    rwa [div_neg, mul_neg m, neg_mul_neg]
  · unfold Amplitude.half
    rw [div_neg]
  · unfold Amplitude.point
    rw [mul_neg, div_neg]

/-- An amplitude that is canonical along with its flip is that of the origin. -/
theorem Canonical.sn_eq_zero (hd : Complete d) (hm : m ≠ 0) (ha : Canonical d m σ a)
    (hflip : σ.negative (-(m * a.sn / a.dn)) = false) : a.sn = 0 := by
  have hzero := σ.eq_zero ha.slope hflip
  rw [div_eq_zero_iff, mul_eq_zero] at hzero
  exact (hzero.resolve_right (ha.on.dn_ne hd)).resolve_left hm

/-- Canonical amplitudes of one point have the same tangent. -/
theorem Canonical.half_of_point (hd : Complete d) (hi : i ≠ 0) (hm : m ≠ 0)
    (ha : Canonical d m σ a) (hb : Canonical d m σ b) (h : b.point i = a.point i) :
    b.half = a.half := by
  rcases Prod.ext_iff.mp h with ⟨hsn, hy⟩
  have hsn : b.sn = a.sn := mul_left_cancel₀ hi hsn
  have hy : b.cn / b.dn = a.cn / a.dn := hy
  have hdn : b.dn ^ 2 = a.dn ^ 2 := by
    rw [hb.on.dn_sq, ha.on.dn_sq, hsn]
  have hne := ha.on.dn_ne hd
  unfold Amplitude.half
  rcases sq_eq_sq_iff_eq_or_eq_neg.mp hdn with hdn | hdn
  · rw [hdn, div_left_inj' hne] at hy
    rw [hsn, hy]
  · have hslope := hb.slope
    rw [hsn, hdn, div_neg] at hslope
    rw [hsn, ha.sn_eq_zero hd hm hslope, div_zero, div_zero]

/-- No two canonical amplitudes are a quarter turn apart. -/
theorem Canonical.not_rotate (hd : Complete d) (hi : i ^ 2 = -1) (hm : m ≠ 0)
    (ha : Canonical d m σ a) (hb : Canonical d m σ b) : b.point i ≠ rotate i (a.point i) := by
  intro h
  have hi0 : i ≠ 0 := by
    rintro rfl
    exact one_ne_zero (neg_eq_zero.mp (hi.symm.trans (zero_pow two_ne_zero)))
  rcases Prod.ext_iff.mp h with ⟨hsn, hy⟩
  have hsn : b.sn = a.cn / a.dn := mul_left_cancel₀ hi0 hsn
  have hy : b.cn / b.dn = -a.sn := by
    refine Eq.trans (show b.cn / b.dn = i * (i * a.sn) from hy) ?_
    linear_combination a.sn * hi
  have hproduct := hb.product
  rw [hsn, hy, show m * (a.cn / a.dn) * -a.sn = -(m * a.sn * (a.cn / a.dn)) by ring] at hproduct
  have hzero := σ.eq_zero ha.product hproduct
  have hcn : a.cn / a.dn ≠ 0 := div_ne_zero ha.cn_ne (ha.on.dn_ne hd)
  have hsn0 : a.sn = 0 :=
    (mul_eq_zero.mp ((mul_eq_zero.mp hzero).resolve_right hcn)).resolve_left hm
  rw [hsn0, neg_zero] at hy
  exact div_ne_zero hb.cn_ne (hb.on.dn_ne hd) hy

/-- The tangent of a coset is the same up to sign. -/
theorem Canonical.half_of_sameCoset (hd : Complete d) (hi : i ^ 2 = -1) (hm : m ≠ 0)
    (ha : Canonical d m σ a) (hb : Canonical d m σ b) (h : SameCoset i (a.point i) (b.point i)) :
    b.half = a.half ∨ b.half = -a.half := by
  have hi0 : i ≠ 0 := by
    rintro rfl
    exact one_ne_zero (neg_eq_zero.mp (hi.symm.trans (zero_pow two_ne_zero)))
  rcases ha.mirror (i := i) with ⟨hmirror, hhalf, hpoint⟩
  rcases (sameCoset_iff hi).mp h with h | h | h | h
  · exact Or.inl (ha.half_of_point hd hi0 hm hb h)
  · exact absurd h (ha.not_rotate hd hi hm hb)
  · rw [← hpoint] at h
    exact Or.inr ((hmirror.half_of_point hd hi0 hm hb h).trans hhalf)
  · rw [← hpoint] at h
    exact absurd h (hmirror.not_rotate hd hi hm hb)

/-- The angle from the tangent of its half. -/
theorem Amplitude.On.half_spec (htwo : (1 : F) + 1 ≠ 0) (ha : a.On d) :
    1 + a.half ^ 2 ≠ 0 ∧ a.sn * (1 + a.half ^ 2) = a.half + a.half ∧
      (a.sn ≠ 0 → a.cn * (1 + a.half ^ 2) = 1 - a.half ^ 2) := by
  unfold Amplitude.half
  by_cases hsn : a.sn = 0
  · rw [hsn, div_zero, zero_pow two_ne_zero, add_zero, add_zero, zero_mul]
    exact ⟨one_ne_zero, rfl, fun h => absurd rfl h⟩
  have hc := ha.cn_sq
  have hone : 1 - a.cn ≠ 0 := by
    intro hcn
    refine hsn (pow_eq_zero_iff two_ne_zero |>.mp ?_)
    linear_combination (1 + a.cn) * hcn + hc
  have hsum : 1 + ((1 - a.cn) / a.sn) ^ 2 = (1 + 1) * (1 - a.cn) / a.sn ^ 2 := by
    field_simp
    linear_combination hc
  rw [hsum]
  refine ⟨div_ne_zero (mul_ne_zero htwo hone) (pow_ne_zero 2 hsn), ?_, fun _ => ?_⟩
  · field_simp
  · field_simp
    linear_combination -hc

/-- The tangent tells the angle, up to a half turn at the origin. -/
theorem Amplitude.On.eq_of_half (htwo : (1 : F) + 1 ≠ 0) (ha : a.On d) (hb : b.On d)
    (h : b.half = a.half) : b.sn = a.sn ∧ (a.sn = 0 ∨ b.cn = a.cn) := by
  rcases ha.half_spec htwo with ⟨hne, hsn, hcn⟩
  rcases hb.half_spec htwo with ⟨-, hsn', hcn'⟩
  rw [h] at hsn' hcn'
  have heq : b.sn = a.sn := mul_right_cancel₀ hne (hsn'.trans hsn.symm)
  refine ⟨heq, ?_⟩
  by_cases hzero : a.sn = 0
  · exact Or.inl hzero
  · have hzero' : b.sn ≠ 0 := by rwa [heq]
    exact Or.inr (mul_right_cancel₀ hne ((hcn' hzero').trans (hcn hzero).symm))

theorem Canonical.sameCoset_of_half_eq (hd : Complete d) (hi : i ^ 2 = -1) (hm : m ≠ 0)
    (ha : Canonical d m σ a) (hb : Canonical d m σ b) (h : b.half = a.half) :
    SameCoset i (a.point i) (b.point i) := by
  rcases ha.on.eq_of_half hd.two hb.on h with ⟨hsn, hcn⟩
  have hne := ha.on.dn_ne hd
  have hdn : b.dn ^ 2 = a.dn ^ 2 := by
    rw [hb.on.dn_sq, ha.on.dn_sq, hsn]
  have hy : (b.cn / b.dn) ^ 2 = (a.cn / a.dn) ^ 2 := by
    rw [div_pow, div_pow, hdn, hb.on.cn_sq, ha.on.cn_sq, hsn]
  unfold Amplitude.point
  rw [sameCoset_iff hi, hsn]
  rcases sq_eq_sq_iff_eq_or_eq_neg.mp hy with hy | hy
  · rw [hy]
    exact Or.inl rfl
  · -- only at the origin can the sign of the second coordinate be different
    have hzero : a.sn = 0 := by
      rcases hcn with hzero | hcn
      · exact hzero
      · have hslope := hb.slope
        rw [hcn, ← div_neg, div_eq_div_iff (hb.on.dn_ne hd) (neg_ne_zero.mpr hne)] at hy
        rw [hsn, ← mul_left_cancel₀ ha.cn_ne hy, div_neg] at hslope
        exact ha.sn_eq_zero hd hm hslope
    rw [hy, hzero, mul_zero]
    exact Or.inr (Or.inr (Or.inl (Prod.ext neg_zero.symm rfl)))

/-- Different cosets have different tangents, also up to sign. -/
theorem Canonical.sameCoset_of_half (hd : Complete d) (hi : i ^ 2 = -1) (hm : m ≠ 0)
    (ha : Canonical d m σ a) (hb : Canonical d m σ b)
    (h : b.half = a.half ∨ b.half = -a.half) : SameCoset i (a.point i) (b.point i) := by
  rcases h with h | h
  · exact ha.sameCoset_of_half_eq hd hi hm hb h
  · rcases ha.mirror (i := i) with ⟨hmirror, hhalf, hpoint⟩
    have hcoset := hmirror.sameCoset_of_half_eq hd hi hm hb (h.trans hhalf.symm)
    rw [hpoint] at hcoset
    exact ((sameCoset_iff hi).mpr (Or.inr (Or.inr (Or.inl rfl)))).trans hcoset

variable (i m σ) in
/-- The canonical amplitude: after a quarter turn where the product of the coordinates asks for
one, the sign of the roots is chosen. -/
def Amplitude.canonical [DecidableEq F] (a : Amplitude F) : Amplitude F :=
  let b := if a.cn = 0 ∨ σ.negative (m * a.sn * (a.cn / a.dn)) = true then a.turn i m else a
  if σ.negative (m * b.sn / b.dn) then b.flip else b

/-- The quarter turn changes the sign of the product. -/
theorem Amplitude.On.turn_product (hd : Complete d) (hi : i ^ 2 = -1) (hm : m ^ 2 = -1 - d)
    (ha : a.On d) : m * (a.turn i m).sn * ((a.turn i m).cn / (a.turn i m).dn) =
      -(m * a.sn * (a.cn / a.dn)) := by
  have hy : (a.turn i m).cn / (a.turn i m).dn = i * (i * a.sn) :=
    congrArg Prod.snd (ha.turn hd hi hm).2
  rw [hy, show (a.turn i m).sn = a.cn / a.dn from rfl]
  linear_combination m * (a.cn / a.dn) * a.sn * hi

theorem Amplitude.On.sn_ne_of_cn (ha : a.On d) (hcn : a.cn = 0) : a.sn ≠ 0 := by
  intro hsn
  have hsq := ha.cn_sq
  rw [hcn, hsn, zero_pow two_ne_zero, sub_zero] at hsq
  exact zero_ne_one hsq

/-- The quarter turn settles the sign of the product. -/
theorem Amplitude.On.turn_canonical (hd : Complete d) (hi : i ^ 2 = -1) (hm : m ^ 2 = -1 - d)
    (ha : a.On d) (h : a.cn = 0 ∨ σ.negative (m * a.sn * (a.cn / a.dn)) = true) :
    (a.turn i m).cn ≠ 0 ∧
      σ.negative (m * (a.turn i m).sn * ((a.turn i m).cn / (a.turn i m).dn)) = false := by
  rw [ha.turn_product hd hi hm]
  have hsn : a.sn ≠ 0 := by
    rcases h with hcn | hneg
    · exact ha.sn_ne_of_cn hcn
    · exact right_ne_zero_of_mul (left_ne_zero_of_mul (σ.ne_zero hneg))
  refine ⟨div_ne_zero (mul_ne_zero (Amplitude.quarter_ne hd hi hm) hsn) (ha.dn_ne hd), ?_⟩
  rcases h with hcn | hneg
  · rw [hcn, zero_div, mul_zero, neg_zero, σ.zero]
  · rw [σ.neg (σ.ne_zero hneg), hneg, Bool.not_true]

/-- The flip settles the sign of the slope, and leaves that of the product. -/
theorem Canonical.of_flip (ha : a.On d) (hcn : a.cn ≠ 0)
    (hproduct : σ.negative (m * a.sn * (a.cn / a.dn)) = false) :
    Canonical d m σ (if σ.negative (m * a.sn / a.dn) then a.flip else a) ∧
      (if σ.negative (m * a.sn / a.dn) then a.flip else a).point i = a.point i := by
  by_cases hslope : σ.negative (m * a.sn / a.dn) = true
  · rcases ha.flip (i := i) with ⟨hflip, hpoint⟩
    rw [if_pos hslope]
    refine ⟨⟨hflip, neg_ne_zero.mpr hcn, ?_, ?_⟩, hpoint⟩
    · unfold Amplitude.flip
      rw [div_neg, σ.neg (σ.ne_zero hslope), hslope, Bool.not_true]
    · unfold Amplitude.flip
      rwa [neg_div_neg_eq]
  · rw [if_neg hslope]
    rw [Bool.not_eq_true] at hslope
    exact ⟨⟨ha, hcn, hslope, hproduct⟩, rfl⟩

theorem Amplitude.On.canonical [DecidableEq F] (hd : Complete d) (hi : i ^ 2 = -1)
    (hm : m ^ 2 = -1 - d) (ha : a.On d) :
    Canonical d m σ (a.canonical i m σ) ∧
      SameCoset i (a.point i) ((a.canonical i m σ).point i) := by
  unfold Amplitude.canonical
  simp only
  by_cases h : a.cn = 0 ∨ σ.negative (m * a.sn * (a.cn / a.dn)) = true
  · rcases ha.turn hd hi hm with ⟨hon, hpoint⟩
    rcases ha.turn_canonical hd hi hm h with ⟨hcn, hproduct⟩
    rcases Canonical.of_flip (i := i) hon hcn hproduct with ⟨hcanonical, hflip⟩
    rw [if_pos h, hflip, hpoint]
    exact ⟨hcanonical, 1, rfl⟩
  · rw [if_neg h]
    rw [not_or, Bool.not_eq_true] at h
    rcases Canonical.of_flip (i := i) ha h.1 h.2 with ⟨hcanonical, hflip⟩
    rw [hflip]
    exact ⟨hcanonical, SameCoset.refl _⟩

end Canonical

end EvenPoints
