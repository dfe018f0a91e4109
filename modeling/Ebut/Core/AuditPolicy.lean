import Ebut.Core.FileBinding
import Ebut.Core.Option1FileBinding

/-!
# How Many Blocks an Audit Challenges

Small files are challenged whole. For the others the count is the first one at which a
sample without replacement catches an assumed fraction of bad blocks with the wanted
confidence, up to a cap.

The code computes with floating-point numbers. The arithmetic is a parameter here, and
nothing is assumed of it: however it rounds, the loop counts up and ends at the cap.

## Main definitions

* `FloatOps`: The arithmetic.
* `auditSampleCountForBadFraction`: The count for a confidence and a fraction.
* `expectedChallengeCount`: The count for a commitment.
* `auditSampleCount`, `expectedOption1ChallengeCount`: The same in the Option 1 module.

## Theorems

* `auditLoop_bounds`: The loop returns a count between one and the number of blocks.
* `expectedChallengeCount_bounds`: At least one block is challenged, and at most all.
-/

namespace Ebut

/-- The operations on `f64` that the policy uses. -/
structure FloatOps (F : Type) where
  /-- A decimal literal. -/
  lit : ℚ → F
  /-- `as f64`. -/
  ofU64 : UInt64 → F
  /-- `as u64`. -/
  toU64 : F → UInt64
  isFinite : F → Bool
  mul : F → F → F
  div : F → F → F
  sub : F → F → F
  ceil : F → F
  /-- `f64::clamp`, of a number between two others. -/
  clamp : F → F → F → F
  /-- `<=`. -/
  le : F → F → Bool

/-- `u64::saturating_sub`. -/
def saturatingSub (a b : UInt64) : UInt64 := if b ≤ a then a - b else 0

theorem saturatingSub_toNat (a b : UInt64) : (saturatingSub a b).toNat = a.toNat - b.toNat := by
  unfold saturatingSub
  by_cases hle : b ≤ a
  · rw [if_pos hle, UInt64.toNat_sub_of_le a b hle]
  · rw [if_neg hle]
    have hlt := UInt64.lt_iff_toNat_lt.mp (UInt64.not_le.mp hle)
    exact (Nat.sub_eq_zero_of_le hlt.le).symm

def maxAuditChallenges : ℕ := 100
def fullAuditFileBytes : UInt64 := 102400

variable {F : Type} (ops : FloatOps F)

/-- The loop over the counts, with the turns that are left. After the last one the result
is the cap. -/
def auditLoop (numBlocks badBlocks : UInt64) (confidence : F) (maxK : ℕ) : ℕ → ℕ → F → ℕ
  | 0, _, _ => maxK
  | turns + 1, k, miss =>
      let i := UInt64.ofNat (k - 1)
      if i ≥ numBlocks then numBlocks.toNat
      else
        let numerator := ops.ofU64 (saturatingSub (saturatingSub numBlocks badBlocks) i)
        let denominator := ops.ofU64 (saturatingSub numBlocks i)
        if ops.le denominator (ops.lit 0) || ops.le numerator (ops.lit 0) then k
        else
          -- the probability that none of `k` sampled blocks is bad
          let miss := ops.mul miss (ops.div numerator denominator)
          if ops.le confidence (ops.sub (ops.lit 1) miss) then k
          else auditLoop numBlocks badBlocks confidence maxK turns (k + 1) miss

/-- `audit_sample_count_for_bad_fraction`. -/
def auditSampleCountForBadFraction (numBlocks : UInt64) (confidence badFraction : F) : ℕ :=
  if numBlocks = 0 then 0
  else if numBlocks = 1 then 1
  else
    let confidence := if ops.isFinite confidence then
      ops.clamp confidence (ops.lit (1 / 2)) (ops.lit (999999 / 1000000)) else ops.lit (9 / 10)
    let badFraction := if ops.isFinite badFraction then
      ops.clamp badFraction (ops.lit (1 / 1000)) (ops.lit 1) else ops.lit (1 / 10)
    let badBlocks := ops.toU64 (ops.clamp (ops.ceil (ops.mul (ops.ofU64 numBlocks) badFraction))
      (ops.lit 1) (ops.ofU64 numBlocks))
    let maxK := min maxAuditChallenges numBlocks.toNat
    auditLoop ops numBlocks badBlocks confidence maxK maxK 1 (ops.lit 1)

/-- `auto_challenge_count`. -/
def autoChallengeCount (numBlocks : UInt64) (confidence : F) : ℕ :=
  auditSampleCountForBadFraction ops numBlocks confidence (ops.lit (1 / 10))

/-- `expected_challenge_count`. -/
def expectedChallengeCount {D : Type} (commitment : FileCommitment D) (confidence : F) : ℕ :=
  if commitment.numBlocks = 0 then 0
  -- small files are fully challenged
  else if commitment.fileSize ≤ fullAuditFileBytes then commitment.numBlocks.toNat
  else autoChallengeCount ops commitment.numBlocks confidence

section Option1

def option1MaxAuditChallenges : ℕ := 100
def option1FullAuditFileBytes : UInt64 := 102400

/-- The loop of the Option 1 module, which does not compare the position with the number of
blocks. -/
def option1AuditLoop (numBlocks badBlocks : UInt64) (confidence : F) (maxK : ℕ) : ℕ → ℕ → F → ℕ
  | 0, _, _ => maxK
  | turns + 1, k, miss =>
      let i := UInt64.ofNat (k - 1)
      let numerator := ops.ofU64 (saturatingSub (saturatingSub numBlocks badBlocks) i)
      let denominator := ops.ofU64 (saturatingSub numBlocks i)
      if ops.le denominator (ops.lit 0) || ops.le numerator (ops.lit 0) then k
      else
        let miss := ops.mul miss (ops.div numerator denominator)
        if ops.le confidence (ops.sub (ops.lit 1) miss) then k
        else option1AuditLoop numBlocks badBlocks confidence maxK turns (k + 1) miss

/-- `audit_sample_count` of the Option 1 module. For no blocks the code panics in `clamp`. -/
def auditSampleCount (numBlocks : UInt64) (confidence badFraction : F) : ℕ :=
  let confidence := if ops.isFinite confidence then
    ops.clamp confidence (ops.lit (1 / 2)) (ops.lit (999999 / 1000000)) else ops.lit (9 / 10)
  let badFraction := if ops.isFinite badFraction then
    ops.clamp badFraction (ops.lit (1 / 1000)) (ops.lit 1) else ops.lit (1 / 10)
  let badBlocks := ops.toU64 (ops.clamp (ops.ceil (ops.mul (ops.ofU64 numBlocks) badFraction))
    (ops.lit 1) (ops.ofU64 numBlocks))
  let maxK := min option1MaxAuditChallenges numBlocks.toNat
  option1AuditLoop ops numBlocks badBlocks confidence maxK maxK 1 (ops.lit 1)

/-- `expected_option1_challenge_count`. -/
def expectedOption1ChallengeCount {R D : Type} (commitment : Option1FileCommitment R D)
    (confidence : F) : ℕ :=
  if commitment.numBlocks = 0 then 0
  else if commitment.fileSize ≤ option1FullAuditFileBytes then commitment.numBlocks.toNat
  else auditSampleCount ops commitment.numBlocks confidence (ops.lit (1 / 10))

end Option1

/-- The loop returns a count between one and the number of blocks. By induction on the turns;
the next count and the turns left add up to one more than the cap. -/
theorem auditLoop_bounds {numBlocks badBlocks : UInt64} {confidence : F} {maxK : ℕ}
    (hpos : 1 ≤ maxK) (hmax : maxK ≤ numBlocks.toNat) {turns k : ℕ} (hk : 1 ≤ k)
    (hturns : k + turns = maxK + 1) (miss : F) :
    1 ≤ auditLoop ops numBlocks badBlocks confidence maxK turns k miss ∧
      auditLoop ops numBlocks badBlocks confidence maxK turns k miss ≤ numBlocks.toNat := by
  induction turns generalizing k miss with
  | zero => exact ⟨hpos, hmax⟩
  | succ turns ih =>
      unfold auditLoop
      simp only
      split
      · exact ⟨hpos.trans hmax, le_rfl⟩
      · split
        · exact ⟨hk, by omega⟩
        · split
          · exact ⟨hk, by omega⟩
          · exact ih (by omega) (by omega) _

theorem auditSampleCount_bounds {numBlocks : UInt64} (hpos : numBlocks ≠ 0)
    (confidence badFraction : F) :
    1 ≤ auditSampleCountForBadFraction ops numBlocks confidence badFraction ∧
      auditSampleCountForBadFraction ops numBlocks confidence badFraction ≤ numBlocks.toNat := by
  have hnat : 1 ≤ numBlocks.toNat := Nat.one_le_iff_ne_zero.mpr fun hzero =>
    hpos (UInt64.toNat_inj.mp hzero)
  unfold auditSampleCountForBadFraction
  rw [if_neg hpos]
  by_cases hone : numBlocks = 1
  · rw [if_pos hone]
    exact ⟨le_rfl, hnat⟩
  · rw [if_neg hone]
    exact auditLoop_bounds ops (le_min (by decide) hnat) (min_le_right _ _) le_rfl
      (Nat.add_comm _ _) _

/-- At least one block of a file is challenged, and at most all of them. -/
theorem expectedChallengeCount_bounds {D : Type} {commitment : FileCommitment D}
    (hpos : commitment.numBlocks ≠ 0) (confidence : F) :
    1 ≤ expectedChallengeCount ops commitment confidence ∧
      expectedChallengeCount ops commitment confidence ≤ commitment.numBlocks.toNat := by
  have hnat : 1 ≤ commitment.numBlocks.toNat := Nat.one_le_iff_ne_zero.mpr fun hzero =>
    hpos (UInt64.toNat_inj.mp hzero)
  unfold expectedChallengeCount
  rw [if_neg hpos]
  by_cases hsmall : commitment.fileSize ≤ fullAuditFileBytes
  · rw [if_pos hsmall]
    exact ⟨hnat, le_rfl⟩
  · rw [if_neg hsmall]
    exact auditSampleCount_bounds ops hpos confidence _

end Ebut
