import Ebut.Theory.Elligator

/-!
# The Format of Points

Points are written as one element of the field, and the same string stands for the four points of a
coset of the four-torsion. Encoding finds the tangent of the canonical amplitude of the coset and
makes it positive; decoding accepts a string if its element is the tangent of a canonical
amplitude. Both take one inverse square root of a number that is a square whenever the point is
even, or the string is accepted.

What a client of the vendored C library computes starts with the base point, with strings that it
accepted or with hashes, and goes on by sums, differences, doubles and negatives. Every such point
is even, so that the format and the comparison of points agree on all of them.

## Main definitions

* `decodedPair`, `decodedHalf`: What a string is decoded to.
* `encodedHalf`: What a point is encoded as.
* `Computed`: The points that a client of the library computes.

## Theorems

* `pointDecode_spec`, `deisogenize_spec`: The two functions on elements.
* `decoded_canonical`, `canonical_decoded`: What is accepted are the canonical amplitudes.
* `encodeTangent_straight`, `encodeTangent_turned`: What is written without and with a rotation.
* `encodedHalf_spec`: What is written is the tangent of the canonical amplitude.
* `pointDecode_accepts`: The strings that are accepted are the encodings of computed points.
* `computed_canonical`: Encoding, decoding and comparing computed points.
-/

namespace Ebut

open TwistedEdwards EvenPoints JacobiQuartic LittleEndian

section Decoding

/-- The number under the root that a string is decoded with. -/
def decodeRadicand (s : Field25519) : Field25519 :=
  ((1 + s ^ 2) ^ 2 + edwardsParameter * (s + s) ^ 2) * (1 + s ^ 2) ^ 2

/-- The coordinate of a string on the quartic, with the sign that decoding chooses. -/
def decodedHalf (s u : Field25519) : Field25519 :=
  if fieldSign.negative ((u * (1 + s ^ 2) * s + u * (1 + s ^ 2) * s) * ristrettoFactor.elt)
    then -s else s

/-- The coordinates that a string is decoded to, before the first is multiplied by a square root of
minus one. -/
def decodedPair (s u : Field25519) : Field25519 × Field25519 :=
  ((decodedHalf s u + decodedHalf s u) * u ^ 2 * (1 + s ^ 2) *
      ((1 + s ^ 2) ^ 2 + edwardsParameter * (s + s) ^ 2),
    u * (1 + s ^ 2) * (1 - s ^ 2))

/-- What decoding computes, and what it accepts. -/
theorem pointDecode_spec (ser : Bytes 32) (allowIdentity : Bool) :
    ∃ result : Gf25519 × Bool, ∃ s : Field25519, s = (leNat ser.toList : Field25519) ∧
      InverseRoot (decodeRadicand s) result ∧
      PointStands ⟨(decodedPair s result.1.elt).1 * sqrtMinusOne.elt,
        (decodedPair s result.1.elt).2, 1,
        (decodedPair s result.1.elt).1 * sqrtMinusOne.elt * (decodedPair s result.1.elt).2⟩
        (pointDecode ser allowIdentity).1 ∧
      ((pointDecode ser allowIdentity).2 = true ↔ leNat ser.toList < fieldOrder ∧
        (allowIdentity = true ∨ s ≠ 0) ∧ fieldSign.negative s = false ∧ result.2 = true ∧
        (decodedPair s result.1.elt).2 ≠ 0 ∧
        fieldSign.negative ((decodedPair s result.1.elt).1 * (decodedPair s result.1.elt).2 *
          ristrettoFactor.elt) = false) := by
  rcases gfDeserialize_spec ser true 0 with ⟨hnumber, hbelow, -, haccept⟩
  rw [maskLast_zero] at hnumber haccept
  generalize hdes : gfDeserialize ser true 0 = des at hnumber hbelow haccept
  obtain ⟨s, hs⟩ : ∃ s : Field25519, s = (leNat ser.toList : Field25519) := ⟨_, rfl⟩
  have hser : Stands (2 ^ 52) s des.1 := ⟨by rw [Gf25519.elt_eq, hnumber, hs], hbelow⟩
  have hsq := standsZero.sub (by decide) (hser.sqr (by decide) (by decide)) (by decide)
  -- every value of the source gets a name once its element is known, so that no term grows
  obtain ⟨S, hS⟩ : ∃ S, S = gfSub gfZero (gfSqr des.1) := ⟨_, rfl⟩
  rw [← hS] at hsq
  have hden := (standsOne.sub (by decide) hsq (by decide)).congr
    (show (1 : Field25519) - (0 - s ^ 2) = 1 + s ^ 2 by ring)
  obtain ⟨D, hD⟩ : ∃ D, D = gfSub gfOne S := ⟨_, rfl⟩
  rw [← hD] at hden
  have hynum := (standsOne.add hsq (by decide)).congr
    (show (1 : Field25519) + (0 - s ^ 2) = 1 - s ^ 2 by ring)
  have hnum := ((hden.sqr (by decide) (by decide)).add
    (hsq.mulw (show (-4 * twistedD).natAbs < 2 ^ 32 by decide)) (by decide)).congr
    (show (1 + s ^ 2) ^ 2 + ((-4 * twistedD : ℤ) : Field25519) * (0 - s ^ 2) =
      (1 + s ^ 2) ^ 2 + edwardsParameter * (s + s) ^ 2 by push_cast; ring)
  obtain ⟨N, hN⟩ : ∃ N, N = gfAdd (gfSqr D) (gfMulw S (-4 * twistedD)) := ⟨_, rfl⟩
  rw [← hN] at hnum
  have hw := hnum.mul (hden.sqr (by decide) (by decide)) (by decide) (by decide)
  have hisr := gfIsr_spec hw.below
  rw [hw.elt] at hisr
  generalize hresult : gfIsr _ = result at hisr
  obtain ⟨u, hu⟩ : ∃ u, u = result.1.elt := ⟨_, rfl⟩
  have hroot : Stands reducedLimb u result.1 := ⟨hu.symm, hisr.below⟩
  have htmp := hroot.mul hden (by decide) (by decide)
  have hy := htmp.mul hynum (by decide) (by decide)
  obtain ⟨Y, hY⟩ : ∃ Y, Y = gfMul (gfMul result.1 D) (gfAdd gfOne S) := ⟨_, rfl⟩
  rw [← hY] at hy
  have hg := (htmp.mul hser (by decide) (by decide)).add (htmp.mul hser (by decide) (by decide))
    (by decide)
  obtain ⟨G, hG⟩ : ∃ G, G = gfAdd (gfMul (gfMul result.1 D) des.1)
    (gfMul (gfMul result.1 D) des.1) := ⟨_, rfl⟩
  rw [← hG] at hg
  have hlobit := (hg.mul standsFactor (by decide) (by decide)).lobit
  -- the sign of the slope, which the first coordinate and the tangent share
  have hx := (((hg.mul hroot (by decide) (by decide)).mul hnum (by decide) (by decide)).condNeg
    (gfLobit (gfMul G ristrettoFactor))).congr
    (show _ = (decodedPair s u).1 by
      unfold decodedPair decodedHalf
      rw [hlobit]
      split <;> ring)
  obtain ⟨X, hX⟩ : ∃ X, X = gfCondNeg (gfMul (gfMul G result.1) N)
    (gfLobit (gfMul G ristrettoFactor)) := ⟨_, rfl⟩
  rw [← hX] at hx
  have hx' := hx.mulI (by decide) (by decide)
  have hzero := hser.eq (by decide) standsZero (by decide)
  have hyzero := hy.eq (by decide) standsZero (by decide)
  have hproduct := ((hx.mul hy (by decide) (by decide)).mul standsFactor (by decide)
    (by decide)).lobit
  have heq : pointDecode ser allowIdentity = (⟨gfMulI X, Y, gfOne, gfMul (gfMulI X) Y⟩,
      des.2 && (allowIdentity || !gfEq des.1 gfZero) && !gfLobit des.1 && result.2 &&
        !gfEq Y gfZero && !gfLobit (gfMul (gfMul X Y) ristrettoFactor)) := by
    subst hX hG hY hresult hN hD hS hdes
    rfl
  refine ⟨result, s, hs, hisr, ?_⟩
  rw [heq, ← hu]
  refine ⟨⟨hx', hy, standsOne, hx'.mul hy (by decide) (by decide)⟩, ?_⟩
  rw [hzero, hyzero, hproduct, hser.lobit]
  simp only [Bool.and_eq_true, Bool.or_eq_true, Bool.not_eq_true', haccept, decide_eq_false_iff_not,
    true_or, and_true, and_assoc]
  rfl

variable {s u : Field25519} {result : Gf25519 × Bool}

theorem decodedHalf_sq (s u : Field25519) : decodedHalf s u ^ 2 = s ^ 2 := by
  unfold decodedHalf
  split
  · exact neg_sq s
  · rfl

/-- The slope of what is decoded has the sign that decoding chooses. -/
theorem decodedHalf_slope (s u : Field25519) :
    (decodedHalf s u + decodedHalf s u) * (u * (1 + s ^ 2)) * ristrettoFactor.elt =
      fieldSign.abs ((u * (1 + s ^ 2) * s + u * (1 + s ^ 2) * s) * ristrettoFactor.elt) := by
  unfold decodedHalf Sign.abs
  split <;> ring

section Accepted

variable {σ : Field25519} (hσ : σ ^ 2 = s ^ 2) (hone : u ^ 2 * decodeRadicand s = 1)

include hone in
theorem decoded_factors_ne : 1 + s ^ 2 ≠ 0 ∧ u * (1 + s ^ 2) ≠ 0 := by
  unfold decodeRadicand at hone
  refine ⟨fun h => zero_ne_one (α := Field25519) ?_, fun h => zero_ne_one (α := Field25519) ?_⟩
  · rw [← hone, h]
    ring
  · linear_combination hone - u * (1 + s ^ 2) *
      ((1 + s ^ 2) ^ 2 + edwardsParameter * (s + s) ^ 2) * h

include hσ hone in
/-- The point of the quartic behind a string whose radicand is a square. -/
theorem decoded_onQuartic : OnQuartic edwardsParameter (σ, (u * (1 + s ^ 2))⁻¹) := by
  unfold decodeRadicand at hone
  unfold OnQuartic
  simp only
  rw [inv_pow, hσ]
  refine inv_eq_of_mul_eq_one_right ?_
  linear_combination hone + 4 * edwardsParameter * (u * (1 + s ^ 2)) ^ 2 * hσ

include hσ hone in
/-- Its amplitude has the sine that is decoded. -/
theorem decoded_sn : (amplitude (σ, (u * (1 + s ^ 2))⁻¹)).sn = (σ + σ) * u ^ 2 * (1 + s ^ 2) *
    ((1 + s ^ 2) ^ 2 + edwardsParameter * (s + s) ^ 2) := by
  have hden := (decoded_factors_ne hone).1
  unfold decodeRadicand at hone
  unfold amplitude
  simp only
  rw [hσ, div_eq_iff hden]
  linear_combination -(σ + σ) * hone

include hσ hone in
/-- Its amplitude has the ordinate that is decoded. -/
theorem decoded_ordinate : (amplitude (σ, (u * (1 + s ^ 2))⁻¹)).cn /
    (amplitude (σ, (u * (1 + s ^ 2))⁻¹)).dn = u * (1 + s ^ 2) * (1 - s ^ 2) := by
  unfold amplitude
  simp only
  rw [hσ, div_div_div_cancel_right₀ (decoded_factors_ne hone).1, div_inv_eq_mul, mul_comm]

include hσ hone in
/-- Its amplitude has the slope that decoding looks at. -/
theorem decoded_slope : ristrettoFactor.elt * (amplitude (σ, (u * (1 + s ^ 2))⁻¹)).sn /
    (amplitude (σ, (u * (1 + s ^ 2))⁻¹)).dn =
      (σ + σ) * (u * (1 + s ^ 2)) * ristrettoFactor.elt := by
  unfold amplitude
  simp only
  rw [hσ, mul_div_assoc', div_div_div_cancel_right₀ (decoded_factors_ne hone).1, div_inv_eq_mul]
  ring

end Accepted

/-- What decoding accepts is a canonical amplitude. -/
theorem decoded_canonical (hisr : InverseRoot (decodeRadicand s) result) (hu : u = result.1.elt)
    (hsquare : result.2 = true) (hy : (decodedPair s u).2 ≠ 0)
    (hproduct : fieldSign.negative
      ((decodedPair s u).1 * (decodedPair s u).2 * ristrettoFactor.elt) = false) :
    ∃ a : Amplitude Field25519,
      Canonical edwardsParameter ristrettoFactor.elt fieldSign a ∧ a.half = decodedHalf s u ∧
        a.point sqrtMinusOne.elt =
          ((decodedPair s u).1 * sqrtMinusOne.elt, (decodedPair s u).2) := by
  rcases hisr.succ.mp hsquare with ⟨hne, hroot⟩
  have hone := hisr.square hne hroot
  rw [← hu] at hone
  have hσ := decodedHalf_sq s u
  have hslope := decodedHalf_slope s u
  unfold decodedPair at hy hproduct ⊢
  generalize decodedHalf s u = σ at *
  simp only at hy hproduct ⊢
  have hquartic := decoded_onQuartic hσ hone
  have hsn := decoded_sn hσ hone
  have hordinate := decoded_ordinate hσ hone
  have hhalf := half_amplitude edwardsComplete (hquartic.factors_ne edwardsComplete).1
  refine ⟨amplitude (σ, (u * (1 + s ^ 2))⁻¹), ⟨hquartic.amplitude edwardsComplete, ?_, ?_, ?_⟩,
    hhalf, ?_⟩
  · intro hcn
    rw [← hordinate, hcn, zero_div] at hy
    exact hy rfl
  · rw [decoded_slope hσ hone, hslope]
    exact Sign.negative_abs _
  · rw [hordinate, hsn, mul_assoc, mul_comm ristrettoFactor.elt]
    exact hproduct
  · unfold Amplitude.point
    rw [hordinate, hsn, mul_comm]

section Quartic

variable {h t ε : Field25519}

/-- The number under the root, from a point of the quartic. -/
theorem decodeRadicand_of_quartic (hsq : s ^ 2 = h ^ 2)
    (hquartic : OnQuartic edwardsParameter (h, t)) :
    decodeRadicand s = (t * (1 + h ^ 2)) ^ 2 := by
  unfold OnQuartic at hquartic
  simp only at hquartic
  unfold decodeRadicand
  rw [mul_pow, hquartic, hsq]
  linear_combination (1 + 1) * (1 + 1) * edwardsParameter * (1 + h ^ 2) ^ 2 * hsq

/-- Decoding finds the slope that is not negative, whatever the signs of the string and of the
root are. -/
theorem decodedHalf_of_slope (hs : s = h ∨ s = -h) (hε : ε ^ 2 = 1)
    (hut : u * (1 + h ^ 2) = ε / t)
    (hslope : fieldSign.negative (ristrettoFactor.elt * (h + h) / t) = false) :
    (decodedHalf s u + decodedHalf s u) * (ε / t) * ristrettoFactor.elt =
      ristrettoFactor.elt * (h + h) / t := by
  have hsq : s ^ 2 = h ^ 2 := sq_eq_sq_iff_eq_or_eq_neg.mpr hs
  have habs := decodedHalf_slope s u
  have hkept : ristrettoFactor.elt * (h + h) / t =
      fieldSign.abs (ristrettoFactor.elt * (h + h) / t) := by
    unfold Sign.abs
    rw [hslope, if_neg Bool.false_ne_true]
  rw [hsq, hut] at habs
  rw [habs, hkept, Sign.abs_eq_iff]
  rcases sq_eq_one_iff.mp hε with rfl | rfl <;> rcases hs with rfl | rfl
  · exact Or.inl (by ring)
  · exact Or.inr (by ring)
  · exact Or.inr (by ring)
  · exact Or.inl (by ring)

/-- The product of the coordinates that are decoded, from the slope. -/
theorem decodedPair_product (hsq : s ^ 2 = h ^ 2) (hden : 1 + h ^ 2 ≠ 0)
    (hut : u * (1 + h ^ 2) = ε / t) (hone : u ^ 2 * decodeRadicand s = 1)
    (hchosen : (decodedHalf s u + decodedHalf s u) * (ε / t) * ristrettoFactor.elt =
      ristrettoFactor.elt * (h + h) / t) :
    (decodedPair s u).1 * (decodedPair s u).2 * ristrettoFactor.elt =
      ristrettoFactor.elt * ((h + h) / (1 + h ^ 2)) * ((1 - h ^ 2) / t) := by
  have hnum : u ^ 2 * (1 + s ^ 2) * ((1 + s ^ 2) ^ 2 + edwardsParameter * (s + s) ^ 2) =
      1 / (1 + h ^ 2) := by
    rw [eq_div_iff hden]
    unfold decodeRadicand at hone
    linear_combination hone - u ^ 2 * (1 + s ^ 2) *
      ((1 + s ^ 2) ^ 2 + edwardsParameter * (s + s) ^ 2) * hsq
  have hsplit : (decodedPair s u).1 * (decodedPair s u).2 * ristrettoFactor.elt =
      (decodedHalf s u + decodedHalf s u) * (ε / t) * ristrettoFactor.elt *
        (u ^ 2 * (1 + s ^ 2) * ((1 + s ^ 2) ^ 2 + edwardsParameter * (s + s) ^ 2)) *
          (1 - h ^ 2) := by
    unfold decodedPair
    rw [← hut, ← hsq]
    ring
  rw [hsplit, hchosen, hnum]
  ring

end Quartic

/-- The tangent of a canonical amplitude is decoded. -/
theorem canonical_decoded {a : Amplitude Field25519}
    (ha : Canonical edwardsParameter ristrettoFactor.elt fieldSign a)
    (hs : s = a.half ∨ s = -a.half) (hisr : InverseRoot (decodeRadicand s) result)
    (hu : u = result.1.elt) :
    result.2 = true ∧ (decodedPair s u).2 ≠ 0 ∧ fieldSign.negative
      ((decodedPair s u).1 * (decodedPair s u).2 * ristrettoFactor.elt) = false := by
  rcases ha.on.half_spec edwardsComplete.two with ⟨hden, hsn, hcn⟩
  have hquartic := onQuartic_of_amplitude edwardsComplete ha.on
  have ht := (hquartic.factors_ne edwardsComplete).2
  have hslope := ha.slope
  have hproduct := ha.product
  -- division by zero gives the origin the tangent that it is written as
  have hhalf : a.sn = 0 → a.half = 0 := fun hzero => by
    rw [Amplitude.half, hzero, div_zero]
  obtain ⟨h, hh⟩ : ∃ h, h = a.half := ⟨_, rfl⟩
  rw [← hh] at hs hden hsn hcn hquartic ht hhalf
  have hsq : s ^ 2 = h ^ 2 := sq_eq_sq_iff_eq_or_eq_neg.mpr hs
  obtain ⟨t, htdef⟩ : ∃ t, t = a.dn * (1 + h ^ 2) := ⟨_, rfl⟩
  rw [← htdef] at hquartic ht
  have hradicand := decodeRadicand_of_quartic hsq hquartic
  have hne : decodeRadicand s ≠ 0 := by
    rw [hradicand]
    exact pow_ne_zero 2 (mul_ne_zero ht hden)
  have hroot : IsSquare (decodeRadicand s) := ⟨t * (1 + h ^ 2), by rw [hradicand, pow_two]⟩
  have hone := hisr.square hne hroot
  have hflag := hisr.succ.mpr ⟨hne, hroot⟩
  rw [← hu] at hone
  -- the root is that of the amplitude, up to sign
  obtain ⟨ε, hε, hut⟩ : ∃ ε : Field25519, ε ^ 2 = 1 ∧ u * (1 + h ^ 2) = ε / t := by
    refine ⟨u * (t * (1 + h ^ 2)), ?_, ?_⟩
    · rw [mul_pow, ← hradicand]
      exact hone
    · rw [eq_div_iff ht]
      ring
  have hε0 : ε ≠ 0 := by
    rintro rfl
    exact zero_ne_one ((zero_pow two_ne_zero).symm.trans hε)
  have hone_sub : 1 - h ^ 2 ≠ 0 := by
    by_cases hzero : a.sn = 0
    · rw [hhalf hzero, zero_pow two_ne_zero, sub_zero]
      exact one_ne_zero
    · rw [← hcn hzero]
      exact mul_ne_zero ha.cn_ne hden
  have hslope_eq : ristrettoFactor.elt * a.sn / a.dn = ristrettoFactor.elt * (h + h) / t := by
    rw [← hsn, htdef, ← mul_assoc, mul_div_mul_right _ _ hden]
  rw [hslope_eq] at hslope
  have hchosen := decodedHalf_of_slope hs hε hut hslope
  have hpair : (decodedPair s u).1 * (decodedPair s u).2 * ristrettoFactor.elt =
      ristrettoFactor.elt * a.sn * (a.cn / a.dn) := by
    rw [decodedPair_product hsq hden hut hone hchosen]
    -- the tangent of the origin is zero by convention, and says nothing about the cosine
    by_cases hzero : a.sn = 0
    · rw [hhalf hzero, hzero]
      ring
    · have hsn_eq : a.sn = (h + h) / (1 + h ^ 2) := by
        rw [eq_div_iff hden, hsn]
      rw [← hsn_eq, ← hcn hzero, htdef, mul_div_mul_right _ _ hden]
  rw [hpair]
  refine ⟨hflag, ?_, hproduct⟩
  unfold decodedPair
  simp only
  rw [hsq, hut]
  exact mul_ne_zero (div_ne_zero hε0 ht) hone_sub

end Decoding

section Encoding

/-- The number under the root that a point is encoded with. -/
def encodeRadicand (e : Extended Field25519) : Field25519 :=
  (-1 - edwardsParameter) * ((e.x * e.y) ^ 2 * ((e.z + e.y) * (e.z - e.y)))

/-- What decides whether a point is rotated before it is encoded. -/
def encodeProduct (e : Extended Field25519) (u : Field25519) : Field25519 :=
  (edwardsParameter + 1) * (((e.z + e.y) * (e.z - e.y) * u * (e.x * e.y * u *
    ristrettoFactor.elt)) * sqrtMinusOne.elt * e.t * e.t)

/-- The tangent that a point is encoded as, up to its sign, from the roots of the numerator and of
the denominator, in the order in which they are after the rotation. -/
def encodeTangent (e : Extended Field25519) (first second factor : Field25519) (rotate : Bool) :
    Field25519 :=
  let chosen := if fieldSign.negative (ristrettoFactor.elt * sqrtMinusOne.elt * first * e.t) ^^
    rotate then -first else first
  (chosen * e.z + 1) * factor * (ristrettoFactor.elt * sqrtMinusOne.elt * second)

/-- The tangent that a point is encoded as, up to its sign. -/
def encodedHalf (e : Extended Field25519) (u : Field25519) : Field25519 :=
  if fieldSign.negative (encodeProduct e u) then
    encodeTangent e (e.x * e.y * u * ristrettoFactor.elt) ((e.z + e.y) * (e.z - e.y) * u)
      (e.x * sqrtMinusOne.elt) true
  else
    encodeTangent e ((e.z + e.y) * (e.z - e.y) * u) (e.x * e.y * u * ristrettoFactor.elt) e.y false

theorem Stands.condSwap {m : ℕ} {a b : Field25519} {x y : Gf25519} (hx : Stands m a x)
    (hy : Stands m b y) (swap : Bool) :
    Stands m (if swap then b else a) (gfCondSwap x y swap).1 ∧
      Stands m (if swap then a else b) (gfCondSwap x y swap).2 := by
  cases swap with
  | true => exact ⟨hy, hx⟩
  | false => exact ⟨hx, hy⟩

theorem Stands.abs {a : Field25519} {x : Gf25519} (hx : Stands reducedLimb a x) :
    Stands reducedLimb (fieldSign.abs a) (gfCondNeg x (gfLobit x)) := by
  rw [hx.lobit]
  exact hx.condNeg (fieldSign.negative a)

theorem deisogenizeRotated_spec {e : Extended Field25519} {p : RistrettoPoint}
    (hp : PointStands e p) {a b : Field25519} {t1 t2 : Gf25519} (h1 : Stands reducedLimb a t1)
    (h2 : Stands reducedLimb b t2) (rotate toggleS : Bool) :
    Stands reducedLimb (fieldSign.abs (encodeTangent e a b
        (if rotate then e.x * sqrtMinusOne.elt else e.y) rotate))
      (deisogenizeRotated p t1 t2 rotate toggleS false).1 := by
  have hfactor := hp.y.condSel (hp.x.mulI (by decide) (by decide)) rotate
  have himi := standsFactor.mulI (by decide) (by decide)
  have hscaled := himi.mul h2 (by decide) (by decide)
  have haltx := ((himi.mul h1 (by decide) (by decide)).mul hp.t (by decide) (by decide)).lobit
  have hs := (((((h1.condNeg ((gfLobit (gfMul (gfMul (gfMulI ristrettoFactor) t1) p.t) ^^ false) ^^
    rotate)).mul hp.z (by decide) (by decide)).add standsOne (by decide)).mul hfactor (by decide)
    (by decide)).mul hscaled (by decide) (by decide)).congr (show _ = encodeTangent e a b
      (if rotate then e.x * sqrtMinusOne.elt else e.y) rotate by
        unfold encodeTangent
        rw [haltx, Bool.xor_false])
  unfold deisogenizeRotated
  exact hs.abs

theorem deisogenize_spec {e : Extended Field25519} {p : RistrettoPoint} (hp : PointStands e p) :
    ∃ result, InverseRoot (encodeRadicand e) result ∧
      Stands reducedLimb (fieldSign.abs (encodedHalf e result.1.elt))
        (deisogenize p false false false).1 := by
  have hnum := (hp.z.add hp.y (by decide)).mul (hp.z.sub (by decide) hp.y (by decide)) (by decide)
    (by decide)
  obtain ⟨N, hN⟩ : ∃ N, N = gfMul (gfAdd p.z p.y) (gfSub p.z p.y) := ⟨_, rfl⟩
  rw [← hN] at hnum
  have hden := hp.x.mul hp.y (by decide) (by decide)
  obtain ⟨D, hD⟩ : ∃ D, D = gfMul p.x p.y := ⟨_, rfl⟩
  rw [← hD] at hden
  have hw := (((hden.sqr (by decide) (by decide)).mul hnum (by decide) (by decide)).mulw
    (show (-1 - twistedD).natAbs < 2 ^ 32 by decide)).congr (show _ = encodeRadicand e by
      unfold encodeRadicand
      push_cast
      rfl)
  have hisr := gfIsr_spec hw.below
  rw [hw.elt] at hisr
  generalize hresult : gfIsr _ = result at hisr
  obtain ⟨u, hu⟩ : ∃ u, u = result.1.elt := ⟨_, rfl⟩
  have hroot : Stands reducedLimb u result.1 := ⟨hu.symm, hisr.below⟩
  have hiden := (hden.mul hroot (by decide) (by decide)).mul standsFactor (by decide) (by decide)
  obtain ⟨J, hJ⟩ : ∃ J, J = gfMul (gfMul D result.1) ristrettoFactor := ⟨_, rfl⟩
  rw [← hJ] at hiden
  have hinum := hnum.mul hroot (by decide) (by decide)
  obtain ⟨I, hI⟩ : ∃ I, I = gfMul N result.1 := ⟨_, rfl⟩
  rw [← hI] at hinum
  have halt := (((((hinum.mul hiden (by decide) (by decide)).mulI (by decide) (by decide)).mul hp.t
    (by decide) (by decide)).mul hp.t (by decide) (by decide)).mulw
    (show (twistedD + 1).natAbs < 2 ^ 32 by decide)).congr (show _ = encodeProduct e u by
      unfold encodeProduct
      push_cast
      rfl)
  obtain ⟨rotate, hrotate⟩ : ∃ rotate, rotate = (false ^^ gfLobit (gfMulw (gfMul (gfMul
    (gfMulI (gfMul I J)) p.t) p.t) (twistedD + 1))) := ⟨_, rfl⟩
  have hrot : rotate = fieldSign.negative (encodeProduct e u) := by
    rw [hrotate, Bool.false_xor, halt.lobit]
  refine ⟨result, hisr, ?_⟩
  have heq : deisogenize p false false false = deisogenizeRotated p (gfCondSwap I J rotate).1
      (gfCondSwap I J rotate).2 rotate false false := by
    subst hrotate hI hJ hresult hD hN
    rfl
  -- after the swap one function of the rotation computes the tangent
  rcases hinum.condSwap hiden rotate with ⟨hfirst, hsecond⟩
  have hs := deisogenizeRotated_spec hp hfirst hsecond rotate false
  rw [heq, ← hu]
  have hhalf : encodedHalf e u = encodeTangent e
      (if rotate then e.x * e.y * u * ristrettoFactor.elt else (e.z + e.y) * (e.z - e.y) * u)
      (if rotate then (e.z + e.y) * (e.z - e.y) * u else e.x * e.y * u * ristrettoFactor.elt)
      (if rotate then e.x * sqrtMinusOne.elt else e.y) rotate := by
    unfold encodedHalf
    rw [← hrot]
    cases rotate with
    | true => simp only [if_true]
    | false => simp only [Bool.false_eq_true, if_false]
  rw [hhalf]
  exact hs

/-- The sign that makes a multiple of an element the one that is chosen. -/
theorem exists_sign {ε : Field25519} (hε : ε ^ 2 = 1) (g : Field25519) :
    ∃ δ : Field25519, (δ = 1 ∨ δ = -1) ∧ fieldSign.negative (δ * g) = false ∧
      ∀ v, (if fieldSign.negative (ε * g) then -(ε * v) else ε * v) = δ * v := by
  have hchoice : ∀ v, (if fieldSign.negative (ε * g) then -(ε * v) else ε * v) =
      (if fieldSign.negative (ε * g) then -ε else ε) * v := by
    intro v
    split <;> ring
  refine ⟨if fieldSign.negative (ε * g) then -ε else ε, ?_, ?_, hchoice⟩
  · rcases sq_eq_one_iff.mp hε with rfl | rfl <;> split
    · exact Or.inr rfl
    · exact Or.inl rfl
    · exact Or.inl (neg_neg 1)
    · exact Or.inr rfl
  · rw [← hchoice]
    exact Sign.negative_abs (ε * g)

/-- The tangent of the amplitude of a point that has the sign that is chosen. -/
theorem half_of_sign {b : Amplitude Field25519} {g δ : Field25519} (hδ : δ = 1 ∨ δ = -1)
    (hsign : fieldSign.negative (δ * g) = false) (hg : g ≠ 0) :
    (if fieldSign.negative g then b.flip else b).half = (1 - δ * b.cn) / b.sn := by
  rcases hδ with rfl | rfl
  · rw [one_mul] at hsign
    rw [hsign, if_neg Bool.false_ne_true, one_mul]
    rfl
  · rw [neg_one_mul, fieldSign.neg hg, Bool.not_eq_false'] at hsign
    rw [hsign, if_pos rfl, neg_one_mul]
    rfl

/-- The extended coordinates of an even point. -/
def evenCoordinates (a : Amplitude Field25519) (z : Field25519) : Extended Field25519 :=
  ⟨z * (sqrtMinusOne.elt * a.sn), z * (a.cn / a.dn), z,
    z * (sqrtMinusOne.elt * a.sn * (a.cn / a.dn))⟩

variable {a : Amplitude Field25519} {z : Field25519}

/-- The ordinate of an even point and its slope. -/
theorem ordinate_sq (ha : a.On edwardsParameter) :
    (a.cn / a.dn) ^ 2 = 1 + (ristrettoFactor.elt * a.sn / a.dn) ^ 2 := by
  have hdn := ha.dn_ne edwardsComplete
  field_simp
  linear_combination ha.cn_sq - ha.dn_sq - a.sn ^ 2 * ristrettoFactor_sq

/-- The radicand of an even point is a square. -/
theorem encodeRadicand_eq (ha : a.On edwardsParameter) :
    encodeRadicand (evenCoordinates a z) = (z ^ 3 * (ristrettoFactor.elt * a.sn *
      (a.cn / a.dn)) * (ristrettoFactor.elt * a.sn / a.dn)) ^ 2 := by
  have hy := ordinate_sq ha
  unfold encodeRadicand evenCoordinates
  generalize a.cn / a.dn = y at *
  generalize ristrettoFactor.elt * a.sn / a.dn = g at *
  simp only
  rw [← ristrettoFactor_sq]
  linear_combination
    ristrettoFactor.elt ^ 2 * z ^ 6 * a.sn ^ 2 * y ^ 2 * (1 - y ^ 2) * sqrtMinusOne_sq +
    ristrettoFactor.elt ^ 2 * z ^ 6 * a.sn ^ 2 * y ^ 2 * hy

/-- The origin and the other points of its coset are encoded as zero. -/
theorem encodedHalf_zero (hzero : a.sn = 0 ∨ a.cn = 0) :
    encodedHalf (evenCoordinates a z) 0 = 0 ∧
      (a.canonical sqrtMinusOne.elt ristrettoFactor.elt fieldSign).half = 0 := by
  refine ⟨?_, ?_⟩
  · have hproduct : encodeProduct (evenCoordinates a z) 0 = 0 := by
      unfold encodeProduct
      ring
    unfold encodedHalf
    rw [hproduct, fieldSign.zero, if_neg Bool.false_ne_true]
    unfold encodeTangent
    ring
  · have hsn : (if a.cn = 0 ∨ fieldSign.negative
        (ristrettoFactor.elt * a.sn * (a.cn / a.dn)) = true
        then a.turn sqrtMinusOne.elt ristrettoFactor.elt else a).sn = 0 := by
      by_cases hcn : a.cn = 0
      · rw [if_pos (Or.inl hcn)]
        unfold Amplitude.turn
        rw [hcn, zero_div]
      · have hsn := hzero.resolve_right hcn
        rw [hsn, mul_zero, zero_mul, fieldSign.zero, if_neg (by simp [hcn])]
        exact hsn
    unfold Amplitude.canonical
    simp only
    generalize (if a.cn = 0 ∨ fieldSign.negative
      (ristrettoFactor.elt * a.sn * (a.cn / a.dn)) = true
      then a.turn sqrtMinusOne.elt ristrettoFactor.elt else a) = b at hsn
    unfold Amplitude.half Amplitude.flip
    split
    · rw [hsn, div_zero]
    · rw [hsn, div_zero]

/-- Two signs do not change what is made positive. -/
theorem abs_of_signs {ε δ v w : Field25519} (hε : ε ^ 2 = 1) (hδ : δ ^ 2 = 1)
    (hv : v = ε * δ * w) : fieldSign.abs v = fieldSign.abs w := by
  have hsign : (ε * δ) ^ 2 = 1 := by
    rw [mul_pow, hε, hδ, one_mul]
  rw [Sign.abs_eq_iff, hv]
  rcases sq_eq_one_iff.mp hsign with hsign | hsign
  · exact Or.inl (by rw [hsign, one_mul])
  · exact Or.inr (by rw [hsign, neg_one_mul])

section Roots

variable {ε δ y g u : Field25519} (hz : z ≠ 0) (hcn : a.cn ≠ 0) (hg : g ≠ 0)
  (hproduct : ristrettoFactor.elt * a.sn * y = a.cn * g)

include hz hcn hg in
/-- The root of the numerator. -/
theorem encode_numerator (hysq : y ^ 2 = 1 + g ^ 2) (hu : u = ε / (z ^ 3 * (a.cn * g) * g)) :
    (z + z * y) * (z - z * y) * u = -ε / (z * a.cn) := by
  rw [hu]
  field_simp
  linear_combination -ε * hysq

include hz hcn hg hproduct in
/-- The root of the denominator. -/
theorem encode_denominator (hu : u = ε / (z ^ 3 * (a.cn * g) * g)) :
    z * (sqrtMinusOne.elt * a.sn) * (z * y) * u * ristrettoFactor.elt =
      ε * sqrtMinusOne.elt / (z * g) := by
  rw [hu]
  field_simp
  linear_combination sqrtMinusOne.elt * ε * hproduct

include hz hcn hg hproduct in
/-- What decides about the rotation is the product of the amplitude. -/
theorem encode_product (hy : y = a.cn / a.dn) (hε : ε ^ 2 = 1) (hysq : y ^ 2 = 1 + g ^ 2)
    (hu : u = ε / (z ^ 3 * (a.cn * g) * g)) :
    encodeProduct (evenCoordinates a z) u = a.cn * g := by
  unfold encodeProduct evenCoordinates
  rw [← hy]
  simp only
  rw [encode_numerator hz hcn hg hysq hu, encode_denominator hz hcn hg hproduct hu]
  field_simp
  linear_combination -(edwardsParameter + 1) * sqrtMinusOne.elt ^ 4 * a.sn ^ 2 * y ^ 2 * hε -
    (edwardsParameter + 1) * a.sn ^ 2 * y ^ 2 * (sqrtMinusOne.elt ^ 2 - 1) * sqrtMinusOne_sq -
    a.sn ^ 2 * y ^ 2 * ristrettoFactor_sq +
    (ristrettoFactor.elt * a.sn * y + a.cn * g) * hproduct

include hz hcn hg hproduct in
/-- The tangent of a point that is not rotated. -/
theorem encodeTangent_straight (hsn : a.sn ≠ 0) (hy : y = a.cn / a.dn) (hδ : δ ^ 2 = 1)
    (hchoice : ∀ v, (if fieldSign.negative (ε * g) then -(ε * v) else ε * v) = δ * v) :
    encodeTangent (evenCoordinates a z) (-ε / (z * a.cn)) (ε * sqrtMinusOne.elt / (z * g))
      (z * y) false = ε * δ * ((1 - δ * a.cn) / a.sn) := by
  have haltx : ristrettoFactor.elt * sqrtMinusOne.elt * (-ε / (z * a.cn)) *
      (z * (sqrtMinusOne.elt * a.sn * y)) = ε * g := by
    field_simp
    linear_combination -ε * ristrettoFactor.elt * a.sn * y * sqrtMinusOne_sq + ε * hproduct
  unfold encodeTangent evenCoordinates
  rw [← hy]
  simp only
  rw [haltx, Bool.xor_false, show -ε / (z * a.cn) = ε * (-1 / (z * a.cn)) by ring, hchoice]
  field_simp
  linear_combination (-δ + a.cn) * y * ristrettoFactor.elt * ε * a.sn * sqrtMinusOne_sq +
    (δ - a.cn) * ε * hproduct + a.cn ^ 2 * ε * g * hδ

include hz hcn hg hproduct in
/-- The tangent of a point that is rotated: it is that of the amplitude after a quarter turn. -/
theorem encodeTangent_turned (hy : y = a.cn / a.dn) (hy0 : y ≠ 0) (hδ : δ ^ 2 = 1)
    (hchoice : ∀ v, (if fieldSign.negative (ε * -(sqrtMinusOne.elt * a.cn)) then -(ε * v)
      else ε * v) = δ * v) :
    encodeTangent (evenCoordinates a z) (ε * sqrtMinusOne.elt / (z * g)) (-ε / (z * a.cn))
      (z * (sqrtMinusOne.elt * a.sn) * sqrtMinusOne.elt) true =
        ε * δ * ((1 - -δ * (sqrtMinusOne.elt * g)) / y) := by
  have hi := sqrtMinusOne_sq
  have haltx : ristrettoFactor.elt * sqrtMinusOne.elt * (ε * sqrtMinusOne.elt / (z * g)) *
      (z * (sqrtMinusOne.elt * a.sn * y)) = ε * -(sqrtMinusOne.elt * a.cn) := by
    field_simp
    linear_combination sqrtMinusOne.elt * ε * ristrettoFactor.elt * a.sn * y * hi -
      sqrtMinusOne.elt * ε * hproduct
  have hnot : ∀ (b : Bool) (v : Field25519),
      (if (!b) = true then -v else v) = -(if b = true then -v else v) := by
    intro b v
    cases b with
    | true => exact (neg_neg v).symm
    | false => rfl
  unfold encodeTangent evenCoordinates
  rw [← hy]
  simp only
  -- the other root is the one that is multiplied, so that its sign is flipped as well
  rw [haltx, Bool.xor_true, hnot,
    show ε * sqrtMinusOne.elt / (z * g) = ε * (sqrtMinusOne.elt / (z * g)) by ring, hchoice]
  field_simp
  linear_combination -sqrtMinusOne.elt ^ 3 * (g - δ * sqrtMinusOne.elt) * ε * hproduct -
    sqrtMinusOne.elt * g ^ 2 * ε * a.cn * hδ +
    (δ * ε * a.cn * g * (sqrtMinusOne.elt ^ 2 - 1) - sqrtMinusOne.elt * g ^ 2 * ε * a.cn) * hi

end Roots

theorem encodedHalf_spec (ha : a.On edwardsParameter) (hz : z ≠ 0) {result : Gf25519 × Bool}
    (hisr : InverseRoot (encodeRadicand (evenCoordinates a z)) result) :
    fieldSign.abs (encodedHalf (evenCoordinates a z) result.1.elt) =
      fieldSign.abs (a.canonical sqrtMinusOne.elt ristrettoFactor.elt fieldSign).half := by
  by_cases hzero : a.sn = 0 ∨ a.cn = 0
  · have hradicand : encodeRadicand (evenCoordinates a z) = 0 := by
      rw [encodeRadicand_eq ha]
      rcases hzero with hzero | hzero
      · rw [hzero]
        ring
      · rw [hzero]
        ring
    rcases encodedHalf_zero (z := z) hzero with ⟨hencoded, hcanonical⟩
    rw [hisr.zero hradicand, hencoded, hcanonical]
  rcases not_or.mp hzero with ⟨hsn, hcn⟩
  have hdn := ha.dn_ne edwardsComplete
  have hradicand := encodeRadicand_eq (z := z) ha
  have hysq := ordinate_sq ha
  have hm0 : ristrettoFactor.elt ≠ 0 := right_ne_zero_of_mul quarter_ne_zero
  have hi0 : sqrtMinusOne.elt ≠ 0 := left_ne_zero_of_mul quarter_ne_zero
  have hy0 : a.cn / a.dn ≠ 0 := div_ne_zero hcn hdn
  obtain ⟨g, hg⟩ : ∃ g, g = ristrettoFactor.elt * a.sn / a.dn := ⟨_, rfl⟩
  have hg0 : g ≠ 0 := by
    rw [hg]
    exact div_ne_zero (mul_ne_zero hm0 hsn) hdn
  obtain ⟨y, hy⟩ : ∃ y, y = a.cn / a.dn := ⟨_, rfl⟩
  have hproduct : ristrettoFactor.elt * a.sn * y = a.cn * g := by
    rw [hy, hg]
    ring
  rw [← hg, ← hy] at hysq
  rw [← hg, ← hy, hproduct] at hradicand
  rw [← hy] at hy0
  -- the radicand is a square other than zero: the root is exact up to sign
  have hne : z ^ 3 * (a.cn * g) * g ≠ 0 :=
    mul_ne_zero (mul_ne_zero (pow_ne_zero 3 hz) (mul_ne_zero hcn hg0)) hg0
  have hone := hisr.square (by rw [hradicand]; exact pow_ne_zero 2 hne)
    (by rw [hradicand]; exact ⟨_, pow_two _⟩)
  rw [hradicand, ← mul_pow] at hone
  obtain ⟨ε, hε⟩ : ∃ ε, ε = result.1.elt * (z ^ 3 * (a.cn * g) * g) := ⟨_, rfl⟩
  rw [← hε] at hone
  have hu : result.1.elt = ε / (z ^ 3 * (a.cn * g) * g) := by
    rw [hε, mul_div_cancel_right₀ _ hne]
  have hinum := encode_numerator hz hcn hg0 hysq hu
  have hiden := encode_denominator hz hcn hg0 hproduct hu
  have hrotate : (a.cn = 0 ∨ fieldSign.negative (ristrettoFactor.elt * a.sn * (a.cn / a.dn)) =
      true) ↔ fieldSign.negative (a.cn * g) = true := by
    rw [← hy, hproduct]
    exact ⟨fun h => h.resolve_left hcn, Or.inr⟩
  unfold encodedHalf Amplitude.canonical
  rw [encode_product hz hcn hg0 hproduct hy hone hysq hu]
  simp only [hrotate]
  by_cases hneg : fieldSign.negative (a.cn * g) = true
  · rw [if_pos hneg, if_pos hneg]
    rcases exists_sign hone (-(sqrtMinusOne.elt * a.cn)) with ⟨δ, hδ, hsign, hchoice⟩
    have hδsq : δ ^ 2 = 1 := sq_eq_one_iff.mpr hδ
    have hslope : ristrettoFactor.elt * (a.turn sqrtMinusOne.elt ristrettoFactor.elt).sn /
        (a.turn sqrtMinusOne.elt ristrettoFactor.elt).dn = sqrtMinusOne.elt * a.cn := by
      unfold Amplitude.turn
      simp only
      field_simp
      linear_combination -sqrtMinusOne_sq
    have hcosine : (a.turn sqrtMinusOne.elt ristrettoFactor.elt).cn = sqrtMinusOne.elt * g := by
      unfold Amplitude.turn
      rw [hg]
      ring
    have hsine : (a.turn sqrtMinusOne.elt ristrettoFactor.elt).sn = y := hy.symm
    have hflipped : -δ = 1 ∨ -δ = -1 :=
      hδ.elim (fun h => Or.inr (by rw [h])) (fun h => Or.inl (by rw [h, neg_neg]))
    rw [hslope, half_of_sign hflipped (by rw [neg_mul_comm]; exact hsign) (mul_ne_zero hi0 hcn),
      hcosine, hsine]
    refine abs_of_signs hone hδsq ?_
    rw [← encodeTangent_turned hz hcn hg0 hproduct hy hy0 hδsq hchoice]
    unfold evenCoordinates
    rw [← hy, hinum, hiden]
  · rw [if_neg hneg, if_neg hneg, ← hg]
    rcases exists_sign hone g with ⟨δ, hδ, hsign, hchoice⟩
    have hδsq : δ ^ 2 = 1 := sq_eq_one_iff.mpr hδ
    rw [half_of_sign hδ hsign hg0]
    refine abs_of_signs hone hδsq ?_
    rw [← encodeTangent_straight hz hcn hg0 hproduct hsn hy hδsq hchoice]
    unfold evenCoordinates
    rw [← hy, hinum, hiden]

/-- An even point is encoded as the tangent of its canonical amplitude. -/
theorem pointEncode_spec {p : RistrettoPoint} (ha : a.On edwardsParameter)
    (hp : p.At (a.point sqrtMinusOne.elt)) :
    pointEncode p = leArray 32 (fieldSign.abs
      (a.canonical sqrtMinusOne.elt ristrettoFactor.elt fieldSign).half).val := by
  have hz := hp.coordinates_valid.denominator
  have haffine := hp.affine
  have hcoordinates : p.coordinates = evenCoordinates a p.coordinates.z := by
    rcases Prod.ext_iff.mp haffine with ⟨hx, hy⟩
    have hx : p.coordinates.x = p.coordinates.z * (sqrtMinusOne.elt * a.sn) := by
      rw [mul_comm]
      exact (div_eq_iff hz).mp hx
    have hy : p.coordinates.y = p.coordinates.z * (a.cn / a.dn) := by
      rw [mul_comm]
      exact (div_eq_iff hz).mp hy
    refine Extended.ext hx hy rfl (mul_left_cancel₀ hz ?_)
    rw [← hp.coordinates_valid.product, hx, hy]
    unfold evenCoordinates
    ring
  rcases deisogenize_spec hp.reduced.stands with ⟨result, hisr, hs⟩
  rw [hcoordinates] at hisr hs
  rw [pointEncode, gfSerialize_eq, hs.elt, encodedHalf_spec ha hz hisr]

end Encoding

section Format

theorem leNat_leArray_val (a : Field25519) : leNat (leArray 32 a.val).toList = a.val :=
  leNat_leVector (a.val_lt.trans (by decide))

/-- The string of an element that is not negative. -/
theorem leArray_abs_inj {a b : Field25519} :
    leArray 32 (fieldSign.abs a).val = leArray 32 (fieldSign.abs b).val ↔ a = b ∨ a = -b := by
  rw [← Sign.abs_eq_iff]
  refine ⟨fun h => ZMod.val_injective fieldOrder ?_, fun h => by rw [h]⟩
  rw [← leNat_leArray_val, h, leNat_leArray_val]

/-- An accepted string is that of the tangent of a canonical amplitude, and is decoded to its
point. -/
theorem pointDecode_at {ser : Bytes 32} {allowIdentity : Bool}
    (h : (pointDecode ser allowIdentity).2 = true) :
    ∃ a : Amplitude Field25519,
      Canonical edwardsParameter ristrettoFactor.elt fieldSign a ∧
        (pointDecode ser allowIdentity).1.At (a.point sqrtMinusOne.elt) ∧
        ser = leArray 32 (fieldSign.abs a.half).val := by
  rcases pointDecode_spec ser allowIdentity with ⟨result, s, hs, hisr, hp, haccept⟩
  -- the tests that are left out of the amplitude are on the string alone
  rcases haccept.mp h with ⟨hlt, -, hsign, hsquare, hy, hproduct⟩
  rcases decoded_canonical hisr rfl hsquare hy hproduct with ⟨a, ha, hhalf, hpoint⟩
  have hvalid := Extended.Valid.of_onCurve (ha.on.onCurve edwardsComplete sqrtMinusOne_sq)
  rw [hpoint] at hvalid
  refine ⟨a, ha, hpoint ▸ hp.at hvalid, ?_⟩
  have habs : fieldSign.abs a.half = s := by
    rw [hhalf]
    unfold decodedHalf
    split
    · rw [Sign.abs_neg, Sign.abs, hsign, if_neg Bool.false_ne_true]
    · rw [Sign.abs, hsign, if_neg Bool.false_ne_true]
  rw [habs, hs, ZMod.val_natCast_of_lt hlt]
  exact (leVector_leNat ser).symm

/-- The string of the tangent of a canonical amplitude is accepted. -/
theorem pointDecode_accepts_canonical {a : Amplitude Field25519} {allowIdentity : Bool}
    (ha : Canonical edwardsParameter ristrettoFactor.elt fieldSign a)
    (hidentity : allowIdentity = true ∨ (fieldSign.abs a.half).val ≠ 0) :
    (pointDecode (leArray 32 (fieldSign.abs a.half).val) allowIdentity).2 = true := by
  rcases pointDecode_spec (leArray 32 (fieldSign.abs a.half).val) allowIdentity with
    ⟨result, s, hs, hisr, -, haccept⟩
  rw [leNat_leArray_val] at hs haccept
  rw [ZMod.natCast_zmod_val] at hs
  have hsigned : s = a.half ∨ s = -a.half := by
    rw [hs, Sign.abs]
    split
    · exact Or.inr rfl
    · exact Or.inl rfl
  rcases canonical_decoded ha hsigned hisr rfl with ⟨hsquare, hy, hproduct⟩
  refine haccept.mpr ⟨ZMod.val_lt _, ?_, ?_, hsquare, hy, hproduct⟩
  · rw [hs]
    exact hidentity.imp_right fun hne hzero => hne (by rw [hzero, ZMod.val_zero])
  · rw [hs]
    exact Sign.negative_abs _

/-- The canonical amplitude of an even point. -/
theorem RistrettoPoint.Even.canonical {p : RistrettoPoint} (hp : p.Even) :
    ∃ (a : Amplitude Field25519) (P : Field25519 × Field25519),
      Canonical edwardsParameter ristrettoFactor.elt fieldSign a ∧ p.At P ∧
        SameCoset sqrtMinusOne.elt P (a.point sqrtMinusOne.elt) ∧
        pointEncode p = leArray 32 (fieldSign.abs a.half).val := by
  rcases hp with ⟨a, ha, hp⟩
  rcases ha.canonical edwardsComplete sqrtMinusOne_sq ristrettoFactor_sq (σ := fieldSign) with
    ⟨hcanonical, hcoset⟩
  exact ⟨_, _, hcanonical, hp, hcoset, pointEncode_spec ha hp⟩

/-- What is accepted is encoded as it was. -/
theorem pointEncode_pointDecode {ser : Bytes 32} {allowIdentity : Bool}
    (h : (pointDecode ser allowIdentity).2 = true) :
    (pointDecode ser allowIdentity).1.Even ∧
      pointEncode (pointDecode ser allowIdentity).1 = ser := by
  rcases pointDecode_at h with ⟨a, ha, hp, hser⟩
  rcases ha.on.canonical edwardsComplete sqrtMinusOne_sq ristrettoFactor_sq (σ := fieldSign) with
    ⟨hcanonical, hcoset⟩
  refine ⟨⟨a, ha.on, hp⟩, ?_⟩
  rw [pointEncode_spec ha.on hp]
  refine Eq.trans ?_ hser.symm
  exact leArray_abs_inj.mpr (ha.half_of_sameCoset edwardsComplete sqrtMinusOne_sq
    (right_ne_zero_of_mul quarter_ne_zero) hcanonical hcoset)

/-- Two even points are encoded alike if and only if the comparison says that they are equal. -/
theorem RistrettoPoint.Even.encode_iff {p q : RistrettoPoint} (hp : p.Even) (hq : q.Even) :
    pointEncode p = pointEncode q ↔ pointEq p q = true := by
  rcases hp.canonical with ⟨a, P, ha, hpP, hPa, hpa⟩
  rcases hq.canonical with ⟨b, Q, hb, hqQ, hQb, hqb⟩
  have hm := right_ne_zero_of_mul quarter_ne_zero
  rw [pointEq_iff hpP hqQ, hpa, hqb, leArray_abs_inj]
  refine ⟨fun h => ?_, fun h => ?_⟩
  · have hba := hb.sameCoset_of_half edwardsComplete sqrtMinusOne_sq hm ha h
    exact hPa.trans ((hba.symm sqrtMinusOne_sq).trans (hQb.symm sqrtMinusOne_sq))
  · exact hb.half_of_sameCoset edwardsComplete sqrtMinusOne_sq hm ha
      ((hQb.symm sqrtMinusOne_sq).trans ((h.symm sqrtMinusOne_sq).trans hPa))

/-- What an even point is encoded as is decoded to a point that is equal to it. -/
theorem RistrettoPoint.Even.decode_encode {p : RistrettoPoint} (hp : p.Even) :
    (pointDecode (pointEncode p) true).2 = true ∧
      pointEq p (pointDecode (pointEncode p) true).1 = true := by
  have haccept : (pointDecode (pointEncode p) true).2 = true := by
    rcases hp.canonical with ⟨a, P, ha, -, -, hencode⟩
    rw [hencode]
    exact pointDecode_accepts_canonical ha (Or.inl rfl)
  rcases pointEncode_pointDecode haccept with ⟨heven, hencode⟩
  exact ⟨haccept, (hp.encode_iff heven).mp hencode.symm⟩

end Format

section Clients

/-- The points that a client of the library computes. -/
inductive Computed : RistrettoPoint → Prop
  | base : Computed pointBase
  | decode {ser : Bytes 32} {allowIdentity : Bool}
      (h : (pointDecode ser allowIdentity).2 = true) : Computed (pointDecode ser allowIdentity).1
  | nonuniform (ser : Bytes 32) : Computed (pointFromHashNonuniform ser)
  | uniform (hashedData : Bytes 32 × Bytes 32) : Computed (pointFromHashUniform hashedData)
  | add {p q : RistrettoPoint} : Computed p → Computed q → Computed (pointAdd p q)
  | sub {p q : RistrettoPoint} : Computed p → Computed q → Computed (pointSub p q)
  | double {p : RistrettoPoint} : Computed p → Computed (pointDouble p)
  | negate {p : RistrettoPoint} : Computed p → Computed (pointNegate p)

/-- The base point of the tables is the one that they are generated from. -/
theorem basePoint_decoded : pointDecode basePointSer false = (pointBase, true) := by
  decide +kernel

theorem Computed.even {p : RistrettoPoint} (hp : Computed p) : p.Even := by
  induction hp with
  | base =>
      have heven := pointEncode_pointDecode (congrArg Prod.snd basePoint_decoded)
      rw [basePoint_decoded] at heven
      exact heven.1
  | decode h => exact (pointEncode_pointDecode h).1
  | nonuniform ser => exact pointFromHashNonuniform_even ser
  | uniform hashedData =>
      exact (pointFromHashNonuniform_even hashedData.1).add
        (pointFromHashNonuniform_even hashedData.2)
  | add _ _ hp hq => exact hp.add hq
  | sub _ _ hp hq => exact hp.sub hq
  | double _ hp => exact hp.double
  | negate _ hp => exact hp.negate

/-- The strings that are accepted are those that points are encoded as, without the one of the
identity if that is not allowed. What is decoded passes the test of a point, as the source asserts,
and is encoded as the same string. -/
theorem pointDecode_accepts (ser : Bytes 32) (allowIdentity : Bool) :
    ((pointDecode ser allowIdentity).2 = true ↔
        (allowIdentity = true ∨ leNat ser.toList ≠ 0) ∧
          ∃ p, Computed p ∧ pointEncode p = ser) ∧
      ((pointDecode ser allowIdentity).2 = true →
        pointValid (pointDecode ser allowIdentity).1 = true ∧
          pointEncode (pointDecode ser allowIdentity).1 = ser) := by
  refine ⟨⟨fun h => ?_, ?_⟩, fun h => ?_⟩
  · refine ⟨?_, _, Computed.decode h, (pointEncode_pointDecode h).2⟩
    rcases pointDecode_spec ser allowIdentity with ⟨result, s, hs, -, -, haccept⟩
    refine (haccept.mp h).2.1.imp_right fun hne hzero => hne ?_
    rw [hs, hzero, Nat.cast_zero]
  · rintro ⟨hidentity, p, hp, rfl⟩
    rcases hp.even.canonical with ⟨a, P, ha, -, -, hencode⟩
    rw [hencode, leNat_leArray_val] at hidentity
    rw [hencode]
    exact pointDecode_accepts_canonical ha hidentity
  · rcases pointEncode_pointDecode h with ⟨heven, hencode⟩
    exact ⟨heven.valid.2, hencode⟩

/-- Every point that a client computes has reduced coordinates and passes the test of a point, it
is encoded as a string that is accepted and decoded to an equal point, and two such points are
equal for the comparison if and only if they are encoded alike. -/
theorem computed_canonical {p q : RistrettoPoint} (hp : Computed p) (hq : Computed q) :
    (p.Reduced ∧ pointValid p = true) ∧
      ((pointDecode (pointEncode p) true).2 = true ∧
        pointEq p (pointDecode (pointEncode p) true).1 = true) ∧
      (pointEncode p = pointEncode q ↔ pointEq p q = true) :=
  ⟨hp.even.valid, hp.even.decode_encode, hp.even.encode_iff hq.even⟩

theorem computed_canonical_base :
    (pointBase.Reduced ∧ pointValid pointBase = true) ∧
      ((pointDecode (pointEncode pointBase) true).2 = true ∧
        pointEq pointBase (pointDecode (pointEncode pointBase) true).1 = true) ∧
      (pointEncode pointBase = pointEncode (pointDouble pointBase) ↔
        pointEq pointBase (pointDouble pointBase) = true) :=
  computed_canonical Computed.base (Computed.double Computed.base)

end Clients

end Ebut
