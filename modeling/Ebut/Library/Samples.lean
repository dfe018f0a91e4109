import Ebut.Library.Hypergeometric
import Mathlib.Data.Finset.Powerset
import Mathlib.Tactic.Linarith

/-!
# The Samples That Miss a Set

The samples of a given size that avoid a set of marked elements, as sets. There are as many as
the hypergeometric probability says, fewer for more marked elements, and every further draw
keeps at most the unmarked fraction of them.

## Main definitions

* `missing`: The samples without a marked element.

## Theorems

* `card_missing`: How many there are.
* `miss_anti`: More marked elements are missed by fewer samples.
* `miss_le_pow`: The probability to miss is at most a power.
* `card_missing_le`: A bound on the samples from one on the probability.
-/

namespace Hypergeometric

/-- The samples of `k` out of the first `n` numbers without one of the marked. -/
def missing (n k : ℕ) (marked : Finset ℕ) : Finset (Finset ℕ) :=
  (Finset.range n \ marked).powersetCard k

theorem mem_missing {n k : ℕ} {marked sample : Finset ℕ} :
    sample ∈ missing n k marked ↔
      (sample ⊆ Finset.range n ∧ ∀ i ∈ sample, i ∉ marked) ∧ sample.card = k := by
  rw [missing, Finset.mem_powersetCard, Finset.subset_sdiff, Finset.disjoint_left]

theorem card_missing {n k : ℕ} {marked : Finset ℕ} (hmarked : marked ⊆ Finset.range n) :
    (missing n k marked).card = (n - marked.card).choose k := by
  rw [missing, Finset.card_powersetCard, Finset.card_sdiff_of_subset hmarked, Finset.card_range]

/-- More marked elements are missed by fewer samples. -/
theorem miss_anti {n b b' k : ℕ} (h : b ≤ b') : miss n b' k ≤ miss n b k := by
  refine div_le_div_of_nonneg_right ?_ (Nat.cast_nonneg _)
  exact Nat.cast_le.mpr (Nat.choose_le_choose k (Nat.sub_le_sub_left h n))

/-- A draw from what is left is unmarked no more often than the first one was. -/
theorem draw_le {n b k : ℕ} (hk : k < n) {q : ℚ} (hq : ((n - b : ℕ) : ℚ) ≤ q * n)
    (hq1 : q ≤ 1) : ((n - b - k : ℕ) : ℚ) / ((n - k : ℕ) : ℚ) ≤ q := by
  have hleft : (0 : ℚ) < ((n - k : ℕ) : ℚ) := Nat.cast_pos.mpr (Nat.sub_pos_of_lt hk)
  rw [div_le_iff₀ hleft, Nat.cast_sub hk.le]
  rcases Nat.lt_or_ge (n - b) k with hlt | hge
  · have hzero : n - b - k = 0 := Nat.sub_eq_zero_of_le hlt.le
    have hn : (0 : ℚ) ≤ (n - b : ℕ) := Nat.cast_nonneg _
    have hnpos : (0 : ℚ) < n := Nat.cast_pos.mpr (Nat.zero_lt_of_lt hk)
    have hqpos : 0 ≤ q := nonneg_of_mul_nonneg_left (hn.trans hq) hnpos
    rw [hzero, Nat.cast_zero, ← Nat.cast_sub hk.le]
    exact mul_nonneg hqpos hleft.le
  · rw [Nat.cast_sub hge]
    have hkq : q * k ≤ k := mul_le_of_le_one_left (Nat.cast_nonneg k) hq1
    linarith

/-- By induction on the draws, each of which is unmarked with at most the first probability. -/
theorem miss_le_pow {n b k : ℕ} (hk : k ≤ n) {q : ℚ} (hq : ((n - b : ℕ) : ℚ) ≤ q * n)
    (hq0 : 0 ≤ q) (hq1 : q ≤ 1) : miss n b k ≤ q ^ k := by
  induction k with
  | zero => rw [miss_zero, pow_zero]
  | succ k ih =>
      rw [miss_succ b hk, pow_succ]
      exact mul_le_mul (ih (Nat.le_of_succ_le hk)) (draw_le hk hq hq1)
        (div_nonneg (Nat.cast_nonneg _) (Nat.cast_nonneg _)) (pow_nonneg hq0 k)

/-- A bound on the probability for `b` marked elements bounds the samples that miss as many or
more. -/
theorem card_missing_le {n b k : ℕ} {marked : Finset ℕ} (hmarked : marked ⊆ Finset.range n)
    (hb : b ≤ marked.card) (hk : k ≤ n) {p : ℚ} (hp : miss n b k ≤ p) :
    ((missing n k marked).card : ℚ) ≤ p * n.choose k := by
  have hchoose : (0 : ℚ) < n.choose k := Nat.cast_pos.mpr (Nat.choose_pos hk)
  rw [card_missing hmarked, ← div_le_iff₀ hchoose]
  exact (miss_anti hb).trans hp

end Hypergeometric
