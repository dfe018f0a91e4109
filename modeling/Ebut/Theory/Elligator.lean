import Ebut.Theory.EvenPoint
import Ebut.Theory.FieldFormat

/-!
# The Map from Strings to Points

Every string is mapped to an even point, and none of the assertions on the way fails. What the
source computes is a point of the Jacobi quartic, from a parameter whose product with a square root
of minus one is a square. An inverse square root that does not exist is replaced by that of the
product with the root of minus one, and the parameter makes up for the difference.

## Theorems

* `pointFromHashNonuniform_even`: The point of a string.
* `pointFromHash_valid`: The points of all strings.
-/

namespace Ebut

open TwistedEdwards EvenPoints JacobiQuartic

/-- The choice that the inverse square root leaves: `k` is the factor of what the root is of. -/
theorem isr_choice {w r r₀ : Field25519} {result : Gf25519 × Bool} (hisr : InverseRoot w result)
    (hr : r = r₀ ^ 2 * sqrtMinusOne.elt) :
    w * (result.1.elt * if result.2 then 1 else r₀) ^ 2 = (if result.2 then 1 else r) ∨
      result.2 = false ∧ result.1.elt = 0 := by
  cases hflag : result.2 with
  | true =>
      rcases hisr.succ.mp hflag with ⟨hne, hsquare⟩
      have hone := hisr.square hne hsquare
      refine Or.inl ?_
      simp only [if_true]
      linear_combination hone
  | false =>
      by_cases hzero : w = 0
      · exact Or.inr ⟨rfl, hisr.zero hzero⟩
      · have hnonsquare : ¬IsSquare w := by
          intro h
          rw [hisr.succ.mpr ⟨hzero, h⟩] at hflag
          exact absurd hflag (by decide)
        have hi := hisr.nonsquare hnonsquare
        refine Or.inl ?_
        simp only [Bool.false_eq_true, if_false]
        rw [hr]
        linear_combination r₀ ^ 2 * hi

theorem edwardsD_cast : ((edwardsD : ℤ) : Field25519) = -edwardsParameter ∧
    ((1 - 2 * edwardsD : ℤ) : Field25519) = 1 + (edwardsParameter + edwardsParameter) := by
  have hneg : ((twistedD : ℤ) : Field25519) = -((edwardsD : ℤ) : Field25519) := Int.cast_neg _
  refine ⟨?_, ?_⟩
  · rw [edwardsParameter, hneg, neg_neg]
  · rw [edwardsParameter, hneg]
    push_cast
    ring

/-- What the map computes before the isogeny is on the quartic, in each of the three cases. -/
theorem elligator_onQuartic {c n r r₀ s : Field25519} {result : Gf25519 × Bool}
    (hr : r = r₀ ^ 2 * sqrtMinusOne.elt)
    (hc : c = (1 - edwardsParameter * (r - 1)) * (-edwardsParameter * (r - 1) - r))
    (hn : n = (r + 1) * (1 + (edwardsParameter + edwardsParameter)))
    (hisr : InverseRoot (c * n) result) {e b : Field25519}
    (he : e = result.1.elt * if result.2 then 1 else r₀) (hs : s ^ 2 = (n * e) ^ 2)
    (hb : b = ((1 + (edwardsParameter + edwardsParameter)) * e) ^ 2 * (r - 1) * n) :
    OnQuartic edwardsParameter (s, (if result.2 then -b else b) - 1) := by
  have hchoice := isr_choice hisr hr
  rw [← he] at hchoice
  rcases hchoice with hk | ⟨hflag, hroot⟩
  · cases hflag : result.2 with
    | true =>
        rw [hflag, if_pos rfl] at hk
        have hquartic := onQuartic_of_parameter hc hn hs (one_pow 2) hk (by ring)
        rw [one_mul, ← hb] at hquartic
        exact hquartic
    | false =>
        rw [hflag, if_neg Bool.false_ne_true] at hk
        have hquartic := onQuartic_of_parameter hc hn hs neg_one_sq hk (by ring)
        rw [neg_one_mul, neg_neg, ← hb] at hquartic
        exact hquartic
  · have hzero : e = 0 := by
      rw [he, hroot, zero_mul]
    have hquartic := onQuartic_of_parameter hc hn hs neg_one_sq (k := 0)
      (by rw [hzero]; ring) (by rw [hzero]; ring)
    rw [neg_one_mul, neg_neg, ← hb] at hquartic
    rw [hflag]
    exact hquartic

/-- The isogeny at the end of the map. -/
theorem isogenize_spec {s t : Field25519} {a b : Gf25519} (ha : Stands reducedLimb s a)
    (hb : Stands reducedLimb t b) :
    PointStands (image sqrtMinusOne.elt (s, t))
      ⟨gfMul (gfAdd (gfMul a sqrtMinusOne) (gfMul a sqrtMinusOne)) b,
        gfMul (gfAdd (gfSqr (gfMul a sqrtMinusOne)) gfOne)
          (gfSub gfOne (gfSqr (gfMul a sqrtMinusOne))),
        gfMul (gfSub gfOne (gfSqr (gfMul a sqrtMinusOne))) b,
        gfMul (gfAdd (gfMul a sqrtMinusOne) (gfMul a sqrtMinusOne))
          (gfAdd (gfSqr (gfMul a sqrtMinusOne)) gfOne)⟩ := by
  have hi := ha.mul standsI (by decide) (by decide)
  have hii := hi.sqr (by decide) (by decide)
  have hdouble := hi.add hi (by decide)
  have hplus := hii.add standsOne (by decide)
  have hminus := standsOne.sub (by decide) hii (by decide)
  have hsq := sqrtMinusOne_sq
  unfold image
  refine ⟨(hdouble.mul hb (by decide) (by decide)).congr ?_,
    (hplus.mul hminus (by decide) (by decide)).congr ?_,
    (hminus.mul hb (by decide) (by decide)).congr ?_,
    (hdouble.mul hplus (by decide) (by decide)).congr ?_⟩
  · ring
  · simp only
    linear_combination (s ^ 2 - s ^ 4 * (sqrtMinusOne.elt ^ 2 - 1) - s ^ 2) * hsq
  · simp only
    linear_combination -t * s ^ 2 * hsq
  · simp only
    linear_combination sqrtMinusOne.elt * (s + s) * s ^ 2 * hsq

theorem pointFromHashNonuniform_even (ser : Bytes 32) : (pointFromHashNonuniform ser).Even := by
  rcases edwardsD_cast with ⟨hd, hd'⟩
  obtain ⟨u, hu⟩ : ∃ u, u = gfStrongReduce (gfDeserialize ser false 0x80).1 := ⟨_, rfl⟩
  obtain ⟨r₀, h0⟩ : ∃ r₀, Stands reducedLimb r₀ u :=
    ⟨_, rfl, hu ▸ (gfStrongReduce_below _).mono (by decide)⟩
  obtain ⟨v, hv⟩ : ∃ v, v = gfMulI (gfSqr u) := ⟨_, rfl⟩
  have hr := (h0.sqr (by decide) (by decide)).mulI (by decide) (by decide)
  obtain ⟨r, hrdef⟩ : ∃ r, r = r₀ ^ 2 * sqrtMinusOne.elt := ⟨_, rfl⟩
  rw [← hrdef, ← hv] at hr
  obtain ⟨N, hN⟩ : ∃ N, N = gfMulw (gfAdd v gfOne) (1 - 2 * edwardsD) := ⟨_, rfl⟩
  have hn := (hr.add standsOne (by decide)).mulw
    (show (1 - 2 * edwardsD).natAbs < 2 ^ 32 by decide)
  obtain ⟨n, hndef⟩ : ∃ n, n = (r + 1) * (1 + (edwardsParameter + edwardsParameter)) := ⟨_, rfl⟩
  rw [hd', mul_comm, ← hndef, ← hN] at hn
  have hb := (hr.sub (by decide) standsOne (by decide)).mulw
    (show edwardsD.natAbs < 2 ^ 32 by decide)
  rw [hd] at hb
  have hc := (hb.add standsOne (by decide)).mul (hb.sub (by decide) hr (by decide)) (by decide)
    (by decide)
  have hcn := hc.mul hn (by decide) (by decide)
  have hisr := gfIsr_spec hcn.below
  rw [hcn.elt, show -edwardsParameter * (r - 1) + 1 = 1 - edwardsParameter * (r - 1) by ring]
    at hisr
  generalize hresult : gfIsr _ = result at hisr
  have hroot : Stands reducedLimb result.1.elt result.1 := ⟨rfl, hisr.below⟩
  obtain ⟨E, hE⟩ : ∃ E, E = gfMul result.1 (gfCondSel u gfOne result.2) := ⟨_, rfl⟩
  have he := hroot.mul (h0.condSel standsOne result.2) (by decide) (by decide)
  obtain ⟨e, hedef⟩ : ∃ e, e = result.1.elt * if result.2 then 1 else r₀ := ⟨_, rfl⟩
  rw [← hedef, ← hE] at he
  -- the two coordinates on the quartic
  obtain ⟨S, hS⟩ : ∃ S, S = gfCondNeg (gfMul N E) (gfLobit (gfMul N E) ^^ !result.2) := ⟨_, rfl⟩
  have hs := (hn.mul he (by decide) (by decide)).condNeg (gfLobit (gfMul N E) ^^ !result.2)
  rw [← hS] at hs
  have hsq : S.elt ^ 2 = (n * e) ^ 2 := by
    rw [hs.elt]
    split
    · exact neg_sq _
    · rfl
  -- the other coordinate has the sign of the case, and is not made positive
  have hscaled := (he.mulw (show (1 - 2 * edwardsD).natAbs < 2 ^ 32 by decide)).sqr (by decide)
    (by decide)
  rw [hd'] at hscaled
  have ht := (((hscaled.mul (hr.sub (by decide) standsOne (by decide)) (by decide)
    (by decide)).mul hn (by decide) (by decide)).condNeg result.2).sub (by decide) standsOne
    (by decide)
  have hquartic := elligator_onQuartic hrdef rfl hndef hisr hedef hsq rfl
  rw [← ht.elt] at hquartic
  generalize hT : gfSub (gfCondNeg _ _) gfOne = T at ht hquartic
  have hstand := isogenize_spec (⟨rfl, hs.below⟩ : Stands reducedLimb S.elt S)
    (⟨rfl, ht.below⟩ : Stands reducedLimb T.elt T)
  have himage := hquartic.image edwardsComplete sqrtMinusOne_sq
  refine ⟨amplitude (S.elt, T.elt), hquartic.amplitude edwardsComplete, PointStands.at ?_ himage⟩
  subst hT hS hE hresult hN hv hu
  exact hstand

/-- The points of all strings: their coordinates are reduced and pass the test, so that the
assertion at the end of the map never fails, and so do their sums. -/
theorem pointFromHash_valid (ser : Bytes 32) (hashedData : Bytes 32 × Bytes 32) :
    ((pointFromHashNonuniform ser).Reduced ∧ pointValid (pointFromHashNonuniform ser) = true) ∧
      (pointFromHashUniform hashedData).Reduced ∧
      pointValid (pointFromHashUniform hashedData) = true :=
  ⟨(pointFromHashNonuniform_even ser).valid, ((pointFromHashNonuniform_even hashedData.1).add
    (pointFromHashNonuniform_even hashedData.2)).valid⟩

end Ebut
