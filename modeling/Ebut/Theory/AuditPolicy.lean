import Ebut.Core.AuditPolicy
import Ebut.Library.Hypergeometric
import Mathlib.Algebra.Order.Floor.Ring
import Mathlib.Data.Rat.Floor

/-!
# The Sample Size of an Audit

Over exact arithmetic the running product of the loop is the probability that a sample misses
all bad blocks, so the loop returns the first count whose sample catches one with the wanted
confidence, up to the cap. The branches that return early are counts at which nothing is left
to miss.

The second implementation has no branch for a single block and does not compare the position
with the number of blocks. Neither matters: the position stays below the cap, and with one
block there is one count. This holds for any arithmetic, so also for the rounding one.

## Main definitions

* `rationalOps`: Rational numbers, and one value that stands for those that are not finite.
* `clampedConfidence`, `clampedFraction`, `badBlockCount`: What the loop is run with.
* `Catches`: A sample catches a bad block with a confidence.

## Theorems

* `option1AuditLoop_eq`: The two loops agree, whatever the arithmetic.
* `auditSampleCount_eq`: The two implementations agree, whatever the arithmetic.
* `auditLoop_first`: The loop returns the first count that catches.
* `auditSampleCount_first`: The count of an audit.
* `auditSampleCount_least`: The same with what follows from it.
-/

namespace Ebut

open Hypergeometric

section Agreement

variable {F : Type} (ops : FloatOps F)

/-- The position drawn in a turn is below the number of blocks. -/
theorem position_toNat {numBlocks : UInt64} {k : ℕ} (hk : k ≤ numBlocks.toNat) :
    (UInt64.ofNat (k - 1)).toNat = k - 1 := by
  have hbound := numBlocks.toNat_lt
  rw [UInt64.toNat_ofNat', Nat.mod_eq_of_lt (by omega)]

theorem position_lt {numBlocks : UInt64} {k : ℕ} (hpos : 1 ≤ k) (hk : k ≤ numBlocks.toNat) :
    ¬UInt64.ofNat (k - 1) ≥ numBlocks := by
  rw [ge_iff_le, UInt64.le_iff_toNat_le, position_toNat hk]
  omega

/-- The position is below the number of blocks in every turn, so that comparing it decides
nothing. -/
theorem option1AuditLoop_eq {numBlocks : UInt64} (badBlocks : UInt64) (confidence : F) {maxK : ℕ}
    (hmax : maxK ≤ numBlocks.toNat) {turns k : ℕ} (hk : 1 ≤ k) (hturns : k + turns = maxK + 1)
    (miss : F) :
    option1AuditLoop ops numBlocks badBlocks confidence maxK turns k miss =
      auditLoop ops numBlocks badBlocks confidence maxK turns k miss := by
  induction turns generalizing k miss with
  | zero => rfl
  | succ turns ih =>
      rw [option1AuditLoop, auditLoop]
      simp only [if_neg (position_lt hk (show k ≤ numBlocks.toNat by omega)),
        ih (Nat.le_add_left 1 k) (show k + 1 + turns = maxK + 1 by omega)]

/-- With one block there is one count. -/
theorem auditLoop_one (badBlocks : UInt64) (confidence miss : F) :
    auditLoop ops 1 badBlocks confidence 1 1 1 miss = 1 := by
  have hbounds : 1 ≤ auditLoop ops 1 badBlocks confidence 1 1 1 miss ∧
      auditLoop ops 1 badBlocks confidence 1 1 1 miss ≤ (1 : UInt64).toNat :=
    auditLoop_bounds ops le_rfl (by decide) le_rfl rfl miss
  exact le_antisymm hbounds.2 hbounds.1

/-- For at least one block the two implementations return the same count. -/
theorem auditSampleCount_eq {numBlocks : UInt64} (hpos : numBlocks ≠ 0)
    (confidence badFraction : F) :
    auditSampleCount ops numBlocks confidence badFraction =
      auditSampleCountForBadFraction ops numBlocks confidence badFraction := by
  unfold auditSampleCount auditSampleCountForBadFraction
  have hloop := fun badBlocks confidence => option1AuditLoop_eq ops badBlocks confidence
    (min_le_right maxAuditChallenges numBlocks.toNat) le_rfl (Nat.add_comm 1 _) (ops.lit 1)
  rw [if_neg hpos]
  by_cases hone : numBlocks = 1
  · rw [if_pos hone]
    refine (hloop _ _).trans ?_
    subst hone
    exact auditLoop_one ops _ _ _
  · rw [if_neg hone]
    exact hloop _ _

end Agreement

/-- Exact arithmetic in the place of `f64`. A number that is not finite is `none`. -/
def rationalOps : FloatOps (Option ℚ) where
  lit := some
  ofU64 := fun n => some n.toNat
  -- the cast saturates
  toU64 := fun q => UInt64.ofNat (min (q.getD 0).floor.toNat (2 ^ 64 - 1))
  isFinite := Option.isSome
  mul := fun a b => a.bind fun x => b.map fun y => x * y
  div := fun a b => a.bind fun x => b.bind fun y => if y = 0 then none else some (x / y)
  sub := fun a b => a.bind fun x => b.map fun y => x - y
  ceil := fun q => q.map fun x => (⌈x⌉ : ℚ)
  clamp := fun q low high => q.bind fun x => low.bind fun y => high.map fun z => max y (min x z)
  le := fun a b => a.any fun x => b.any fun y => decide (x ≤ y)

@[simp]
theorem rationalOps_lit (q : ℚ) : rationalOps.lit q = some q := rfl

@[simp]
theorem rationalOps_ofU64 (n : UInt64) : rationalOps.ofU64 n = some (n.toNat : ℚ) := rfl

@[simp]
theorem rationalOps_mul (a b : ℚ) : rationalOps.mul (some a) (some b) = some (a * b) := rfl

@[simp]
theorem rationalOps_sub (a b : ℚ) : rationalOps.sub (some a) (some b) = some (a - b) := rfl

@[simp]
theorem rationalOps_le (a b : ℚ) : rationalOps.le (some a) (some b) = decide (a ≤ b) := rfl

theorem rationalOps_div (a : ℚ) {b : ℚ} (hb : b ≠ 0) :
    rationalOps.div (some a) (some b) = some (a / b) := if_neg hb

/-- The confidence that the loop is run with. -/
def clampedConfidence : Option ℚ → ℚ
  | some q => max (1 / 2) (min q (999999 / 1000000))
  | none => 9 / 10

/-- The fraction of blocks that is assumed to be bad. -/
def clampedFraction : Option ℚ → ℚ
  | some q => max (1 / 1000) (min q 1)
  | none => 1 / 10

/-- The number of blocks that are assumed to be bad: at least one, and at most all. -/
def badBlockCount (n : ℕ) (fraction : ℚ) : ℕ := max 1 (min ⌈n * fraction⌉₊ n)

/-- A sample of `k` out of `n` blocks, `b` of them bad, has a bad one with the confidence. -/
def Catches (n b : ℕ) (confidence : ℚ) (k : ℕ) : Prop := confidence ≤ 1 - miss n b k

theorem catches_of_miss_eq_zero {n b k : ℕ} {confidence : ℚ} (hc : confidence ≤ 1)
    (hmiss : miss n b k = 0) : Catches n b confidence k := by
  rw [Catches, hmiss, sub_zero]
  exact hc

/-- The loop returns the first count that catches. The product is that of the count before, and
no count before this one catches. -/
theorem auditLoop_first {numBlocks : UInt64} (badBlocks : UInt64) {confidence : ℚ}
    (hc : confidence ≤ 1) {maxK : ℕ} (hmax : maxK ≤ numBlocks.toNat) {turns k : ℕ} (hk : 1 ≤ k)
    (hturns : k + turns = maxK + 1)
    (hbefore : ∀ j, 1 ≤ j → j < k → ¬Catches numBlocks.toNat badBlocks.toNat confidence j) :
    FirstUpTo maxK (Catches numBlocks.toNat badBlocks.toNat confidence)
      (auditLoop rationalOps numBlocks badBlocks (some confidence) maxK turns k
        (some (miss numBlocks.toNat badBlocks.toNat (k - 1)))) := by
  induction turns generalizing k with
  | zero =>
      exact Or.inr ⟨fun j hj => hbefore j hj.1 (by have := hj.2; omega), rfl⟩
  | succ turns ih =>
      have hkN : k ≤ numBlocks.toNat := by omega
      have hleast : Catches numBlocks.toNat badBlocks.toNat confidence k →
          FirstUpTo maxK (Catches numBlocks.toNat badBlocks.toNat confidence) k := by
        intro hcatch
        refine Or.inl ⟨⟨⟨hk, by omega⟩, hcatch⟩, fun j hj => ?_⟩
        exact Nat.le_of_not_lt fun hlt => hbefore j hj.1.1 hlt hj.2
      have hleft : ((numBlocks.toNat - (k - 1) : ℕ) : ℚ) ≠ 0 :=
        Nat.cast_ne_zero.mpr (by omega)
      -- one more draw turns the product into the one of this count
      have hmiss := miss_succ badBlocks.toNat (show k - 1 < numBlocks.toNat by omega)
      rw [Nat.sub_add_cancel hk] at hmiss
      rw [auditLoop]
      simp only [if_neg (position_lt hk hkN), rationalOps_ofU64, saturatingSub_toNat,
        position_toNat hkN, rationalOps_lit, rationalOps_le, rationalOps_div _ hleft,
        rationalOps_mul, rationalOps_sub, ← hmiss, Bool.or_eq_true, decide_eq_true_eq,
        Nat.cast_nonpos]
      by_cases hmissed : numBlocks.toNat - badBlocks.toNat - (k - 1) = 0
      · -- only bad blocks are left, so that the sample has one
        rw [if_pos (Or.inr hmissed)]
        exact hleast (catches_of_miss_eq_zero hc (miss_eq_zero (by omega)))
      · rw [if_neg (not_or.mpr ⟨by omega, hmissed⟩)]
        by_cases hcatch : confidence ≤ 1 - miss numBlocks.toNat badBlocks.toNat k
        · rw [if_pos hcatch]
          exact hleast hcatch
        · rw [if_neg hcatch]
          refine ih (Nat.le_add_left 1 k) (by omega) fun j hj hlt => ?_
          rcases Nat.lt_succ_iff_lt_or_eq.mp hlt with hlt | rfl
          · exact hbefore j hj hlt
          · exact hcatch

/-- What the code computes for the bad blocks, through numbers that may be fractions. -/
theorem badBlocks_toNat {numBlocks : UInt64} (hpos : numBlocks ≠ 0) (fraction : ℚ) :
    (rationalOps.toU64 (rationalOps.clamp (rationalOps.ceil
      (rationalOps.mul (rationalOps.ofU64 numBlocks) (some fraction))) (rationalOps.lit 1)
        (rationalOps.ofU64 numBlocks))).toNat = badBlockCount numBlocks.toNat fraction := by
  have hnat : numBlocks.toNat ≠ 0 := fun hzero => hpos (UInt64.toNat_inj.mp hzero)
  have hbound := numBlocks.toNat_lt
  have hint : max 1 (min (⌈(numBlocks.toNat : ℚ) * fraction⌉ : ℚ) (numBlocks.toNat : ℚ)) =
      ((max 1 (min ⌈(numBlocks.toNat : ℚ) * fraction⌉ (numBlocks.toNat : ℤ)) : ℤ) : ℚ) := by
    push_cast
    rfl
  show (UInt64.ofNat (min (max 1 (min (⌈(numBlocks.toNat : ℚ) * fraction⌉ : ℚ)
    (numBlocks.toNat : ℚ))).floor.toNat (2 ^ 64 - 1))).toNat = _
  rw [hint, Rat.floor_intCast, UInt64.toNat_ofNat', badBlockCount, ← Int.ceil_toNat]
  omega

theorem clamped_confidence (confidence : Option ℚ) :
    (if rationalOps.isFinite confidence then rationalOps.clamp confidence
      (rationalOps.lit (1 / 2)) (rationalOps.lit (999999 / 1000000))
      else rationalOps.lit (9 / 10)) = some (clampedConfidence confidence) := by
  cases confidence with
  | none => rfl
  | some q => rfl

theorem clamped_fraction (badFraction : Option ℚ) :
    (if rationalOps.isFinite badFraction then rationalOps.clamp badFraction
      (rationalOps.lit (1 / 1000)) (rationalOps.lit 1)
      else rationalOps.lit (1 / 10)) = some (clampedFraction badFraction) := by
  cases badFraction with
  | none => rfl
  | some q => rfl

theorem clampedConfidence_le_one (confidence : Option ℚ) : clampedConfidence confidence ≤ 1 := by
  cases confidence with
  | none => rw [clampedConfidence]; norm_num
  | some q =>
      rw [clampedConfidence]
      exact max_le (by norm_num) ((min_le_right _ _).trans (by norm_num))

theorem clampedConfidence_mono {c c' : ℚ} (h : c ≤ c') :
    clampedConfidence (some c) ≤ clampedConfidence (some c') :=
  max_le_max_left _ (min_le_min_right _ h)

/-- The count of an audit is the first one that catches, up to the cap. -/
theorem auditSampleCount_first {numBlocks : UInt64} (hpos : numBlocks ≠ 0)
    (confidence badFraction : Option ℚ) :
    FirstUpTo (min maxAuditChallenges numBlocks.toNat)
      (Catches numBlocks.toNat (badBlockCount numBlocks.toNat (clampedFraction badFraction))
        (clampedConfidence confidence))
      (auditSampleCountForBadFraction rationalOps numBlocks confidence badFraction) := by
  -- the other implementation has the same count, and no case for a single block
  rw [← auditSampleCount_eq rationalOps hpos, auditSampleCount]
  simp only [clamped_confidence, clamped_fraction]
  rw [← badBlocks_toNat hpos, show option1MaxAuditChallenges = maxAuditChallenges from rfl,
    option1AuditLoop_eq rationalOps _ _ (min_le_right _ _) le_rfl (Nat.add_comm 1 _)]
  have hfirst := fun badBlocks => auditLoop_first badBlocks (clampedConfidence_le_one confidence)
    (min_le_right maxAuditChallenges numBlocks.toNat) le_rfl (Nat.add_comm 1 _)
    fun j hj hlt => absurd hlt (Nat.not_lt_of_le hj)
  simp only [Nat.sub_self, miss_zero] at hfirst
  exact hfirst _

/-- For at least one block, the count is the first one up to the cap whose sample catches a bad
block with the confidence. It grows with the confidence, is between one and the number of
blocks, and the two implementations return the same one, whatever the arithmetic. -/
theorem auditSampleCount_least {numBlocks : UInt64} (hpos : numBlocks ≠ 0)
    (badFraction : Option ℚ) :
    (∀ confidence, FirstUpTo (min maxAuditChallenges numBlocks.toNat)
      (fun k => clampedConfidence confidence ≤ 1 -
        ((numBlocks.toNat - badBlockCount numBlocks.toNat (clampedFraction badFraction)).choose k :
          ℚ) / numBlocks.toNat.choose k)
      (auditSampleCountForBadFraction rationalOps numBlocks confidence badFraction)) ∧
    (∀ c c' : ℚ, c ≤ c' →
      auditSampleCountForBadFraction rationalOps numBlocks (some c) badFraction ≤
        auditSampleCountForBadFraction rationalOps numBlocks (some c') badFraction) ∧
    (∀ confidence,
      auditSampleCountForBadFraction rationalOps numBlocks confidence badFraction ≠ 0 ∧
        auditSampleCountForBadFraction rationalOps numBlocks confidence badFraction ≤
          numBlocks.toNat) ∧
    ∀ (F : Type) (ops : FloatOps F) (confidence badFraction : F),
      auditSampleCount ops numBlocks confidence badFraction =
        auditSampleCountForBadFraction ops numBlocks confidence badFraction := by
  refine ⟨fun confidence => auditSampleCount_first hpos confidence badFraction, ?_, ?_,
    fun F ops => auditSampleCount_eq ops hpos⟩
  · intro c c' hle
    refine (auditSampleCount_first hpos (some c) badFraction).mono
      (auditSampleCount_first hpos (some c') badFraction) fun j _ hcatch => ?_
    exact (clampedConfidence_mono hle).trans hcatch
  · intro confidence
    rcases auditSampleCount_bounds rationalOps hpos confidence badFraction with ⟨hlow, hhigh⟩
    exact ⟨Nat.one_le_iff_ne_zero.mp hlow, hhigh⟩

/-- Two hundred blocks of which a tenth may be bad. -/
theorem auditSampleCount_least_twoHundred :
    FirstUpTo (min maxAuditChallenges (200 : UInt64).toNat)
      (fun k => clampedConfidence (some (9 / 10)) ≤ 1 -
        (((200 : UInt64).toNat - badBlockCount (200 : UInt64).toNat
          (clampedFraction (some (1 / 10)))).choose k : ℚ) / (200 : UInt64).toNat.choose k)
      (auditSampleCountForBadFraction rationalOps 200 (some (9 / 10)) (some (1 / 10))) :=
  (auditSampleCount_least (by decide) (some (1 / 10))).1 (some (9 / 10))

end Ebut
