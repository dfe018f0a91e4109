import Mathlib.Data.Nat.Choose.Basic
import Mathlib.Data.Rat.Cast.Order
import Mathlib.Order.Bounds.Basic
import Mathlib.Order.Interval.Set.Basic
import Mathlib.Tactic.FieldSimp
import Mathlib.Tactic.Ring

/-!
# Samples That Miss

A sample without replacement out of `n`, of which `b` are marked, misses all of the marked ones
with a probability that is a ratio of binomial coefficients. Code computes it one draw at a
time, as a running product; `miss_succ` is one turn of such a product, and says that the two
agree as long as there is something left to draw.

A loop that looks for the smallest sample with a property returns the first number that has it,
or its cap. It returns no more for a property that is easier to have.

## Main definitions

* `miss`: The probability that a sample misses all marked ones.
* `FirstUpTo`: The first number with a property, up to a cap.

## Theorems

* `miss_succ`: One more draw.
* `miss_eq_zero`: A sample larger than the unmarked ones misses none.
* `FirstUpTo.mono`: A stronger property holds later.
-/

namespace Hypergeometric

/-- The probability that `k` out of `n`, drawn without replacement, miss all of `b`. -/
def miss (n b k : ℕ) : ℚ := (n - b).choose k / n.choose k

theorem miss_zero (n b : ℕ) : miss n b 0 = 1 := by
  rw [miss, Nat.choose_zero_right, Nat.choose_zero_right, Nat.cast_one, div_one]

/-- Past the unmarked ones no sample misses. -/
theorem miss_eq_zero {n b k : ℕ} (h : n - b < k) : miss n b k = 0 := by
  rw [miss, Nat.choose_eq_zero_of_lt h, Nat.cast_zero, zero_div]

/-- A binomial coefficient from the one before it. -/
theorem choose_succ_cast (n k : ℕ) :
    ((n.choose (k + 1) : ℕ) : ℚ) = n.choose k * ((n - k : ℕ) : ℚ) / (k + 1) := by
  have hpos : (k : ℚ) + 1 ≠ 0 := Nat.cast_add_one_ne_zero k
  rw [eq_div_iff hpos]
  exact_mod_cast Nat.choose_succ_right_eq n k

/-- One more draw: the next one is unmarked, out of those that are left. -/
theorem miss_succ {n k : ℕ} (b : ℕ) (hk : k < n) :
    miss n b (k + 1) = miss n b k * (((n - b - k : ℕ) : ℚ) / ((n - k : ℕ) : ℚ)) := by
  have hchoose : ((n.choose k : ℕ) : ℚ) ≠ 0 :=
    Nat.cast_ne_zero.mpr (Nat.choose_pos hk.le).ne'
  have hleft : ((n - k : ℕ) : ℚ) ≠ 0 := Nat.cast_ne_zero.mpr (Nat.sub_ne_zero_of_lt hk)
  have hpos : (k : ℚ) + 1 ≠ 0 := Nat.cast_add_one_ne_zero k
  rw [miss, miss, choose_succ_cast, choose_succ_cast]
  field_simp

/-- The first number from one up to the cap with a property, or the cap if there is none. -/
def FirstUpTo (cap : ℕ) (p : ℕ → Prop) (k : ℕ) : Prop :=
  IsLeast {j | j ∈ Set.Icc 1 cap ∧ p j} k ∨ (∀ j ∈ Set.Icc 1 cap, ¬p j) ∧ k = cap

namespace FirstUpTo

variable {cap k k' : ℕ} {p p' : ℕ → Prop}

theorem le_cap (h : FirstUpTo cap p k) : k ≤ cap := by
  rcases h with h | ⟨-, rfl⟩
  · exact h.1.1.2
  · exact le_rfl

/-- Where a stronger property holds the weaker one has held. -/
theorem mono (h : FirstUpTo cap p k) (h' : FirstUpTo cap p' k')
    (himp : ∀ j ∈ Set.Icc 1 cap, p' j → p j) : k ≤ k' := by
  rcases h' with h' | ⟨-, rfl⟩
  · have hp := himp k' h'.1.1 h'.1.2
    rcases h with h | ⟨hnone, -⟩
    · exact h.2 ⟨h'.1.1, hp⟩
    · exact absurd hp (hnone k' h'.1.1)
  · exact h.le_cap

end FirstUpTo

end Hypergeometric
