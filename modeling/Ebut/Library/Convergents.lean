import Mathlib.Algebra.Order.Ring.Abs
import Mathlib.Data.Int.ModEq
import Mathlib.Tactic.LinearCombination
import Mathlib.Tactic.Linarith
import Mathlib.Tactic.Ring

/-!
# How Close Two Multiples Can Get

A multiple `k * a` is close to some multiple `m * b` only for large `k`. How large is read
off two neighbours among the best approximations of the quotient: a pair of pairs with
determinant one whose errors have opposite signs. Every other pair is an integer
combination of the two, and either its multiplier or its error is at least theirs.

## Main definitions

* `error`: The distance of two multiples, with its sign.
* `Neighbours`: Two neighbouring approximations from opposite sides.

## Theorems

* `Neighbours.eq_zero`: A small multiplier with a small error is zero.
* `Neighbours.eq_zero_of_modEq`: The same for a multiple modulo the other number.
-/

namespace Convergents

/-- The distance of the multiple by `k` to the one by `m`. -/
def error (a b k m : ℤ) : ℤ := k * a - m * b

variable {a b k₀ m₀ k₁ m₁ : ℤ}

/-- Neighbouring approximations `m₀ / k₀` from above and `m₁ / k₁` from below. -/
structure Neighbours (a b k₀ m₀ k₁ m₁ : ℤ) : Prop where
  det : m₀ * k₁ - k₀ * m₁ = 1
  nonneg : 0 ≤ k₀
  above : error a b k₀ m₀ ≤ 0
  below : 0 ≤ error a b k₁ m₁

/-- Every pair is a combination of the two. -/
theorem Neighbours.combination (h : Neighbours a b k₀ m₀ k₁ m₁) (k m : ℤ) :
    ∃ u v : ℤ, k = u * k₀ + v * k₁ ∧ m = u * m₀ + v * m₁ ∧
      error a b k m = u * error a b k₀ m₀ + v * error a b k₁ m₁ := by
  have hk : k = (m * k₁ - k * m₁) * k₀ + (k * m₀ - m * k₀) * k₁ := by
    linear_combination -k * h.det
  have hm : m = (m * k₁ - k * m₁) * m₀ + (k * m₀ - m * k₀) * m₁ := by
    linear_combination -m * h.det
  refine ⟨_, _, hk, hm, ?_⟩
  unfold error
  linear_combination a * hk - b * hm

/-- A multiplier below that of the second neighbour with an error below that of the first is
zero. -/
theorem Neighbours.eq_zero (h : Neighbours a b k₀ m₀ k₁ m₁) {k m : ℤ} (hk : |k| < k₁)
    (herror : |error a b k m| < -error a b k₀ m₀) : k = 0 ∧ m = 0 := by
  rcases h.combination k m with ⟨u, v, hkuv, hmuv, heuv⟩
  rw [abs_lt] at hk herror
  have hk₁ : 0 < k₁ := by omega
  have habove := h.above
  have hbelow := h.below
  have hnonneg := h.nonneg
  -- Two signs that agree make the multiplier large, two that differ the error.
  rcases lt_trichotomy u 0 with hu | hu | hu <;> rcases lt_trichotomy v 0 with hv | hv | hv
  · exact absurd hk.1 (by rw [hkuv]; nlinarith)
  · exact absurd herror.2 (by rw [heuv, hv]; nlinarith)
  · exact absurd herror.2 (by rw [heuv]; nlinarith)
  · exact absurd hk.1 (by rw [hkuv, hu]; nlinarith)
  · exact ⟨by rw [hkuv, hu, hv]; ring, by rw [hmuv, hu, hv]; ring⟩
  · exact absurd hk.2 (by rw [hkuv, hu]; nlinarith)
  · exact absurd herror.1 (by rw [heuv]; nlinarith)
  · exact absurd herror.1 (by rw [heuv, hv]; nlinarith)
  · exact absurd hk.2 (by rw [hkuv]; nlinarith)

/-- A small number that is a small multiple of `a` modulo `b` is zero. -/
theorem Neighbours.eq_zero_of_modEq (h : Neighbours a b k₀ m₀ k₁ m₁) {k s : ℤ} (hk : |k| < k₁)
    (hs : |s| < -error a b k₀ m₀) (hmod : s ≡ k * a [ZMOD b]) : k = 0 ∧ s = 0 := by
  rcases hmod.dvd with ⟨m, hm⟩
  have hsm : s = error a b k m := by
    unfold error
    linear_combination -hm
  rcases h.eq_zero hk (hsm ▸ hs) with ⟨hk0, hm0⟩
  refine ⟨hk0, ?_⟩
  rw [hsm, hk0, hm0]
  unfold error
  ring

end Convergents
