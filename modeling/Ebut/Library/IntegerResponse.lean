import Mathlib.Data.Int.ModEq
import Mathlib.Algebra.Order.Ring.Abs
import Mathlib.Tactic.Ring

/-!
# Bounded Integer Responses

A prover answers every challenge `c` up to `n` with a bounded integer `z c`. If
consecutive answers differ by a fixed amount modulo a number that is large
against the bound, they differ by it exactly: the answers are an arithmetic
progression. A progression of many bounded terms has a small step, which is
smaller than any single difference shows.

The modulus may be a product of two coprime ones, in each of which the answers
are checked separately.

## Main definitions

* `Bounded`: Answers in the range `[0, bound)`.

## Theorems

* `eq_of_modEq_of_abs_lt`: Congruent numbers that are close are equal.
* `two_eq_of_three`: Of three congruent numbers that are near each other two are equal.
* `progression`: Bounded answers form an arithmetic progression.
* `abs_step_lt`: The step of a bounded progression is small.
* `progression_of_coprime`: The same from congruences for two coprime moduli.
-/

namespace IntegerResponse

/-- The answers to the challenges up to `n` lie in `[0, bound)`. -/
def Bounded (z : ℕ → ℤ) (n : ℕ) (bound : ℤ) : Prop := ∀ c ≤ n, 0 ≤ z c ∧ z c < bound

theorem eq_of_modEq_of_abs_lt {M a b : ℤ} (h : a ≡ b [ZMOD M]) (hlt : |a - b| < M) : a = b := by
  have hdvd : M ∣ a - b := h.symm.dvd
  exact sub_eq_zero.mp (Int.eq_zero_of_abs_lt_dvd hdvd hlt)

/-- Congruent numbers less than twice the modulus apart are equal or neighbours. -/
theorem close_of_modEq {M a b : ℤ} (h : a ≡ b [ZMOD M]) (hlt : |a - b| < 2 * M) :
    a = b ∨ a = b + M ∨ a = b - M := by
  rcases h.symm.dvd with ⟨k, hk⟩
  have hM : 0 < M := by
    have habs := abs_nonneg (a - b)
    omega
  rw [hk, abs_mul, abs_of_pos hM, mul_comm 2 M] at hlt
  have hk2 := abs_lt.mp ((mul_lt_mul_iff_right₀ hM).mp hlt)
  have hcases : k = 0 ∨ k = 1 ∨ k = -1 := by omega
  rcases hcases with rfl | rfl | rfl
  · exact Or.inl (by omega)
  · exact Or.inr (Or.inl (by omega))
  · exact Or.inr (Or.inr (by omega))

/-- Of three congruent numbers less than twice the modulus apart two are equal. -/
theorem two_eq_of_three {M a b c : ℤ} (hab : a ≡ b [ZMOD M]) (hbc : b ≡ c [ZMOD M])
    (habClose : |a - b| < 2 * M) (hbcClose : |b - c| < 2 * M) (hacClose : |a - c| < 2 * M) :
    a = b ∨ b = c ∨ a = c := by
  have hac := abs_lt.mp hacClose
  rcases close_of_modEq hab habClose with h | h | h <;>
    rcases close_of_modEq hbc hbcClose with h' | h' | h' <;> omega

variable {z : ℕ → ℤ} {n : ℕ} {M bound : ℤ}

/-- The difference of two answers is below the bound. -/
theorem Bounded.abs_sub_lt (hz : Bounded z n bound) {c d : ℕ} (hc : c ≤ n) (hd : d ≤ n) :
    |z c - z d| < bound := by
  have hzc := hz c hc
  have hzd := hz d hd
  rw [abs_lt]
  constructor <;> omega

/-- One step of the progression: two differences below the bound cannot differ by
a multiple of the modulus. -/
theorem step_eq (hM : 2 * bound ≤ M) (hz : Bounded z n bound) {c : ℕ} (hc : c < n)
    (hstep : z (c + 1) ≡ z c + (z 1 - z 0) [ZMOD M]) : z (c + 1) = z c + (z 1 - z 0) := by
  refine eq_of_modEq_of_abs_lt hstep ?_
  have hfirst := abs_lt.mp (hz.abs_sub_lt (show 1 ≤ n by omega) (Nat.zero_le n))
  have hnext := abs_lt.mp (hz.abs_sub_lt (show c + 1 ≤ n by omega) hc.le)
  rw [abs_lt]
  constructor <;> omega

theorem progression (hM : 2 * bound ≤ M) (hz : Bounded z n bound)
    (hstep : ∀ c < n, z (c + 1) ≡ z c + (z 1 - z 0) [ZMOD M]) {c : ℕ} (hc : c ≤ n) :
    z c = z 0 + c * (z 1 - z 0) := by
  induction c with
  | zero => rw [Nat.cast_zero, zero_mul, add_zero]
  | succ c ih =>
    rw [step_eq hM hz hc (hstep c hc), ih (Nat.le_of_succ_le hc), Nat.cast_succ]
    ring

/-- The last term of a bounded progression bounds its step. -/
theorem abs_step_lt {δ : ℤ} (hz : Bounded z n bound) (hlast : z n = z 0 + n * δ) :
    n * |δ| < bound := by
  have hdiff := hz.abs_sub_lt (le_refl n) (Nat.zero_le n)
  rw [hlast, add_sub_cancel_left, abs_mul, Nat.abs_cast] at hdiff
  exact hdiff

/-- Answers checked modulo two coprime numbers with a large product. -/
theorem progression_of_coprime {P Q : ℕ} (hcop : P.Coprime Q) (hPQ : 2 * bound ≤ P * Q)
    (hz : Bounded z n bound) (hP : ∀ c < n, z (c + 1) ≡ z c + (z 1 - z 0) [ZMOD P])
    (hQ : ∀ c < n, z (c + 1) ≡ z c + (z 1 - z 0) [ZMOD Q]) {c : ℕ} (hc : c ≤ n) :
    z c = z 0 + c * (z 1 - z 0) := by
  refine progression hPQ hz (fun c hc => ?_) hc
  exact (Int.modEq_and_modEq_iff_modEq_mul (m := (P : ℤ)) (n := (Q : ℤ)) hcop).mp ⟨hP c hc, hQ c hc⟩

end IntegerResponse
