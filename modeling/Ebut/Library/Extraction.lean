import Mathlib.LinearAlgebra.Vandermonde
import Mathlib.LinearAlgebra.Matrix.NonsingularInverse
import Mathlib.LinearAlgebra.LinearIndependent.Lemmas
import Mathlib.Tactic.Module

/-!
# Extraction from Polynomial Equations in a Challenge

A sigma protocol's verification equation is a polynomial in the challenge with
coefficients in a module. The prover fixes the coefficients before it sees the
challenge, so an equation that holds at more challenges than its degree holds
coefficient by coefficient; this is all that special soundness uses.

`curve P c` is the value at `c` of the polynomial with coefficients `P`. The
equation is stated modulo a submodule `W`: what the prover may choose after the
challenge is collected in `W`, and `curve P c ∈ W` says that some choice of it
balances the rest.

`affine_response` treats the commonest equation, a commitment opened over an
independent pair of bases. Its responses are unknown functions of the
challenge, and the equation forces the first of them to be affine.

## Main definitions

* `curve`: A polynomial in the challenge with coefficients in a module.
* `combined`: Some vectors, each scaled by a coefficient, added up in a loop.

## Theorems

* `coeff_mem`: A curve inside a submodule at enough challenges has all its
  coefficients there.
* `line_meets_once`: A line outside a submodule meets it at most once.
* `pair_unique`: Coordinates over an independent pair are determined.
* `opening_of_two`, `slope_of_two`: Two answers open a commitment.
* `affine_response`: A response in a two-base opening is affine.
* `combined_set`: A combination is affine in each of its coefficients.
* `combined_hides_once`: A vector outside a submodule is hidden by at most one coefficient.
-/

namespace Extraction

variable {K V : Type*} [Field K] [AddCommGroup V] [Module K V]

/-- The polynomial in the challenge `c` with coefficients `P`, lowest first. -/
def curve {n : ℕ} (P : Fin n → V) (c : K) : V := ∑ i : Fin n, c ^ (i : ℕ) • P i

theorem curve_two (P : Fin 2 → V) (c : K) : curve P c = P 0 + c • P 1 := by
  unfold curve
  rw [Fin.sum_univ_two]
  simp only [Fin.val_zero, Fin.val_one, pow_zero, pow_one, one_smul]

theorem curve_five (P : Fin 5 → V) (c : K) :
    curve P c = P 0 + c • P 1 + c ^ 2 • P 2 + c ^ 3 • P 3 + c ^ 4 • P 4 := by
  unfold curve
  rw [Fin.sum_univ_five]
  show c ^ 0 • P 0 + c ^ 1 • P 1 + c ^ 2 • P 2 + c ^ 3 • P 3 + c ^ 4 • P 4 = _
  rw [pow_zero, pow_one, one_smul]

/-- A curve that stays in `W` at as many challenges as it has coefficients has
every coefficient in `W`. -/
theorem coeff_mem (W : Submodule K V) {n : ℕ} (P : Fin n → V) {S : Finset K}
    (hcard : n ≤ S.card) (hcurve : ∀ c ∈ S, curve P c ∈ W) (i : Fin n) : P i ∈ W := by
  obtain ⟨f⟩ : Nonempty (Fin n ↪ S) :=
    Function.Embedding.nonempty_of_card_le (by simpa only [Fintype.card_fin, Fintype.card_coe])
  let M : Matrix (Fin n) (Fin n) K := Matrix.vandermonde fun j => (f j : K)
  have hdet : M.det ≠ 0 :=
    Matrix.det_vandermonde_ne_zero_iff.mpr fun a b hab => f.injective (Subtype.ext hab)
  have hinv : M⁻¹ * M = 1 := Matrix.nonsing_inv_mul M (Ne.isUnit hdet)
  -- the inverse of the Vandermonde matrix recovers the coefficient from the values
  have hP : P i = ∑ k, M⁻¹ i k • curve P (f k : K) :=
    calc P i = ∑ j, (1 : Matrix (Fin n) (Fin n) K) i j • P j := by
          simp only [Matrix.one_apply, ite_smul, one_smul, zero_smul, Finset.sum_ite_eq,
            Finset.mem_univ, if_true]
      _ = ∑ j, ∑ k, (M⁻¹ i k * M k j) • P j := by
          rw [← hinv]
          simp only [Matrix.mul_apply, Finset.sum_smul]
      _ = ∑ k, M⁻¹ i k • curve P (f k : K) := by
          rw [Finset.sum_comm]
          simp only [curve, Finset.smul_sum, smul_smul, M, Matrix.vandermonde_apply]
  rw [hP]
  exact W.sum_mem fun k _ => W.smul_mem _ (hcurve _ (f k).2)

/-- A line that does not run inside a submodule meets it at most once. -/
theorem line_meets_once {W : Submodule K V} {P Q : V} (hP : P ∉ W) {a b : K}
    (ha : Q + a • P ∈ W) (hb : Q + b • P ∈ W) : a = b := by
  have hdiff : (a - b) • P ∈ W := by
    have hsub := W.sub_mem ha hb
    rwa [add_sub_add_left_eq_sub, ← sub_smul] at hsub
  by_contra hne
  exact hP ((Submodule.smul_mem_iff W (sub_ne_zero.mpr hne)).mp hdiff)

/-- Coordinates over an independent pair are determined. -/
theorem pair_unique {g h : V} (hind : LinearIndependent K ![g, h]) {a b a' b' : K}
    (heq : a • g + b • h = a' • g + b' • h) : a = a' ∧ b = b' := by
  have hzero : (a - a') • g + (b - b') • h = 0 := by
    rw [sub_smul, sub_smul, sub_add_sub_comm, heq, sub_self]
  have h0 := LinearIndependent.pair_iff.mp hind _ _ hzero
  exact ⟨sub_eq_zero.mp h0.1, sub_eq_zero.mp h0.2⟩

/-- Two answers to one first message `A`, at distinct challenges, open `X` over any
pair of bases. -/
theorem opening_of_two {g h A X : V} {c c' z z' w w' : K} (hne : c ≠ c')
    (heq : A = z • g + w • h - c • X) (heq' : A = z' • g + w' • h - c' • X) :
    X = ((c - c')⁻¹ * (z - z')) • g + ((c - c')⁻¹ * (w - w')) • h := by
  have hsub : c - c' ≠ 0 := sub_ne_zero.mpr hne
  have hX : c • X = z • g + w • h - A := by rw [heq, sub_sub_cancel]
  have hX' : c' • X = z' • g + w' • h - A := by rw [heq', sub_sub_cancel]
  have hscaled : (c - c') • X = (z - z') • g + (w - w') • h := by
    rw [sub_smul, hX, hX']
    module
  rw [mul_smul, mul_smul, ← smul_add, ← hscaled, inv_smul_smul₀ hsub]

/-- The same over a single base. -/
theorem slope_of_two {g X : V} {c c' z z' : K} (hne : c ≠ c')
    (heq : z • g - c • X = z' • g - c' • X) : X = ((c - c')⁻¹ * (z - z')) • g := by
  have hpad : ∀ y : K, y • g = y • g + (0 : K) • (0 : V) := fun y => by
    rw [smul_zero, add_zero]
  have hopen := opening_of_two hne (congrArg (· - c • X) (hpad z))
    (heq.trans (congrArg (· - c' • X) (hpad z')))
  rwa [smul_zero, add_zero] at hopen

/-- The verification equation of an opening over an independent pair, where the
challenge scales the commitment `X` by `r`: the commitment opens, and the
response on the first base is affine with slope `r` times the opening. -/
theorem affine_response {g h : V} (hind : LinearIndependent K ![g, h]) {X D : V} {r : K}
    (hr : r ≠ 0) {z w : K → K} {S : Finset K} (hcard : 2 ≤ S.card)
    (heq : ∀ c ∈ S, z c • g + w c • h = D + (c * r) • X) :
    ∃ ξ ξ' τ : K, X = ξ • g + ξ' • h ∧ ∀ c ∈ S, z c = τ + c * (r * ξ) := by
  have hmem : ∀ i, ![D, r • X] i ∈ Submodule.span K {g, h} := by
    refine coeff_mem _ _ hcard fun c hc => ?_
    have hval : curve ![D, r • X] c = z c • g + w c • h := by
      rw [heq c hc, curve_two, mul_smul]
      rfl
    rw [hval]
    exact Submodule.mem_span_pair.mpr ⟨_, _, rfl⟩
  rcases Submodule.mem_span_pair.mp (hmem 0) with ⟨τ, τ', hD⟩
  obtain ⟨ξ, ξ', hX⟩ := Submodule.mem_span_pair.mp
    ((Submodule.smul_mem_iff _ hr).mp (hmem 1))
  refine ⟨ξ, ξ', τ, hX.symm, fun c hc => ?_⟩
  have hc' : z c • g + w c • h = (τ + c * (r * ξ)) • g + (τ' + c * (r * ξ')) • h := by
    rw [heq c hc, ← hX, show D = τ • g + τ' • h from hD.symm]
    module
  exact (pair_unique hind hc').1

section Combined

/-- The sum of some vectors, each scaled by its coefficient, as a loop adds it up. It ends with
the shorter of the two lists. -/
def combined (vs : List V) (coeffs : List K) : V :=
  (vs.zip coeffs).foldl (fun acc p => acc + p.2 • p.1) 0

theorem foldl_scaled_offset (terms : List (V × K)) (acc e : V) :
    terms.foldl (fun acc p => acc + p.2 • p.1) (acc + e) =
      terms.foldl (fun acc p => acc + p.2 • p.1) acc + e := by
  induction terms generalizing acc with
  | nil => rfl
  | cons p terms ih => rw [List.foldl_cons, List.foldl_cons, add_right_comm, ih]

/-- A combination is affine in each of its coefficients. -/
theorem combined_set {vs : List V} {coeffs : List K} {j : ℕ} {v : V} (hv : vs[j]? = some v)
    (hj : j < coeffs.length) (rho : K) :
    combined vs (coeffs.set j rho) = combined vs (coeffs.set j 0) + rho • v := by
  unfold combined
  generalize (0 : V) = acc
  induction j generalizing vs coeffs acc with
  | zero =>
      match vs, coeffs, hv, hj with
      | _ :: vs, _ :: coeffs, rfl, _ =>
        simp only [List.set_cons_zero, List.zip_cons_cons, List.foldl_cons, zero_smul, add_zero]
        exact foldl_scaled_offset _ _ _
  | succ j ih =>
      match vs, coeffs, hv, hj with
      | u :: vs, c :: coeffs, hv, hj =>
        exact ih hv (Nat.lt_of_succ_lt_succ hj) (acc + c • u)

/-- A vector outside a submodule leaves at most one value of its own coefficient for which the
combination is inside. -/
theorem combined_hides_once {W : Submodule K V} {vs : List V} {coeffs : List K} {j : ℕ} {v : V}
    (hv : vs[j]? = some v) (hj : j < coeffs.length) (hout : v ∉ W) :
    Set.Subsingleton {rho : K | combined vs (coeffs.set j rho) ∈ W} := by
  intro rho hrho rho' hrho'
  have hmem : combined vs (coeffs.set j rho) ∈ W := hrho
  have hmem' : combined vs (coeffs.set j rho') ∈ W := hrho'
  rw [combined_set hv hj] at hmem hmem'
  exact line_meets_once hout hmem hmem'

end Combined

end Extraction
