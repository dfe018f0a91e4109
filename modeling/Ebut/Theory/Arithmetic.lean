import Ebut.Core.Hash
import Ebut.Core.Msm

/-!
# Exact Arithmetic

The two places where the code computes with an integer digit by digit: the window table that
multiplies a fixed base, and the reduction of a digest into the scalar field. Each is the
operation it stands for on every input.

A table entry is a multiple of the base by a power of sixteen, and the digits that the
multiplication looks up are the base-sixteen expansion of the scalar. A reduction subtracts
the order until the value is below it. Four times the order is above every 256-bit value and
three times the order is too, which is why the loop never takes its third subtraction.

## Main definitions

* `subtractions`: The value after some turns of the subtraction loop.

## Theorems

* `subtractions_toNat`: A subtraction takes the order off.
* `reduceLoop_subtractions`: The loop stops at the first value below the order.
* `table_multiplication_exact`: The table multiplies.
* `wide_reduction_exact`: The reduction reduces.
-/

namespace Ebut

open LittleEndian

section Table

variable {P : Type*} [AddCommGroup P]

theorem table_entry (base : P) {w d : ℕ} (hw : w < 64) (hd : 1 ≤ d) (hd' : d ≤ 15) :
    (FixedBaseTable.new base).table[w * 15 + (d - 1)]? = some ((d * 2 ^ (4 * w)) • base) := by
  have hentry := tableLoop_getElem hw (show d - 1 < 15 by omega) base
  rw [Nat.sub_add_cancel hd, show 16 ^ w = 2 ^ (4 * w) by rw [pow_mul]; rfl] at hentry
  exact hentry

/-- The entry of a digit is in the table. -/
theorem table_index_lt (base : P) (bytes : Bytes 32) {w : ℕ} (hw : w < 64) :
    w * 15 + windowDigit bytes.toList w - 1 < (FixedBaseTable.new base).table.length := by
  have hlt := windowDigit_lt bytes.toList w
  rw [(FixedBaseTable.new base).length_eq]
  omega

theorem window_byte_lt (bytes : Bytes 32) {w : ℕ} (hw : w < 64) :
    w >>> 1 < bytes.toList.length := by
  rw [bytes.toList_length, Nat.shiftRight_eq_div_pow]
  omega

/-- The table holds the multiples of the base, the digits are the expansion of the scalar,
every index is in range, and the product is the scalar multiple: for the integer that any 32
bytes denote, and so for every scalar. -/
theorem table_multiplication_exact (base : P) :
    (∀ w d, w < 64 → 1 ≤ d → d ≤ 15 →
      (FixedBaseTable.new base).table[w * 15 + (d - 1)]? = some ((d * 2 ^ (4 * w)) • base)) ∧
    (∀ bytes : Bytes 32,
      (∀ w, w < 64 → w >>> 1 < bytes.toList.length ∧
        (windowDigit bytes.toList w ≠ 0 → w * 15 + windowDigit bytes.toList w - 1 <
          (FixedBaseTable.new base).table.length)) ∧
      ∑ w ∈ Finset.range 64, windowDigit bytes.toList w * 2 ^ (4 * w) = leNat bytes.toList ∧
      (FixedBaseTable.new base).mulBytes bytes = leNat bytes.toList • base) ∧
    ∀ [Module Scalar P] (scalar : Scalar),
      (FixedBaseTable.new base).mul scalar = scalar • base := by
  refine ⟨fun w d hw hd hd' => table_entry base hw hd hd', fun bytes => ⟨?_, ?_, ?_⟩, ?_⟩
  · exact fun w hw => ⟨window_byte_lt bytes hw, fun _ => table_index_lt base bytes hw⟩
  · have hsum := sum_windowDigit bytes.toList
    rw [bytes.toList_length] at hsum
    rw [← hsum]
    refine Finset.sum_congr rfl fun w _ => ?_
    rw [pow_mul, show 2 ^ 4 = 16 from rfl]
  · exact mulBytes_new base bytes
  · exact fun scalar => mul_new base scalar

end Table

section Reduction

/-- The value after `k` turns of the subtraction loop. -/
def subtractions (v : U64x4) : ℕ → U64x4
  | 0 => v
  | k + 1 => subU64x4 (subtractions v k) rLimbs

theorem subtractions_toNat {v : U64x4} {k : ℕ} (h : k * blsOrder ≤ limbsNat v.toList) :
    limbsNat (subtractions v k).toList = limbsNat v.toList - k * blsOrder := by
  induction k with
  | zero => rw [zero_mul, Nat.sub_zero, subtractions]
  | succ k ih =>
      rw [Nat.succ_mul] at h
      have hprev := ih (by omega)
      rw [subtractions, limbsNat_subU64x4 (by rw [hprev]; omega), hprev, Nat.succ_mul,
        Nat.sub_sub]

/-- The loop stops at the first value below the order, if its turns get there. -/
theorem reduceLoop_subtractions {v : U64x4} {k n : ℕ} (hk : k < n)
    (hbelow : ∀ j < k, ltR (subtractions v j) = false) (hstop : ltR (subtractions v k) = true) :
    reduceLoop n v = fromBytesLe (u64x4ToLeBytes (subtractions v k)) := by
  -- as long as the value is not below the order, a turn subtracts it
  have hturns : ∀ j ≤ k, reduceLoop n v = reduceLoop (n - j) (subtractions v j) := by
    intro j
    induction j with
    | zero => exact fun _ => rfl
    | succ j ih =>
        intro hj
        have hnext : n - j = n - (j + 1) + 1 := by omega
        rw [ih (by omega), hnext, reduceLoop, hbelow j (by omega), if_neg Bool.false_ne_true,
          subtractions]
  have hlast : n - k = n - k - 1 + 1 := by omega
  rw [hturns k le_rfl, hlast, reduceLoop, if_pos hstop]

/-- Three times the order is above every 256-bit value. -/
theorem limbsNat_lt_three_orders (v : U64x4) : limbsNat v.toList < 3 * blsOrder := by
  have h := limbsNat_lt v.toList
  rw [v.toList_length] at h
  exact h.trans (by decide +kernel)

/-- Two subtractions are enough for every value. -/
theorem subtractions_stop (v : U64x4) :
    ∃ k ≤ 2, (∀ j < k, ltR (subtractions v j) = false) ∧ ltR (subtractions v k) = true := by
  have hpos : 0 < blsOrder := blsOrder_prime.pos
  have hquot : limbsNat v.toList / blsOrder ≤ 2 := by
    have h := (Nat.div_lt_iff_lt_mul hpos).mpr (limbsNat_lt_three_orders v)
    omega
  have hmul : limbsNat v.toList / blsOrder * blsOrder ≤ limbsNat v.toList :=
    Nat.div_mul_le_self _ _
  -- the loop stops after as many turns as the order goes into the value
  refine ⟨limbsNat v.toList / blsOrder, hquot, fun j hj => ?_, ?_⟩
  · have hle : (j + 1) * blsOrder ≤ limbsNat v.toList :=
      (Nat.mul_le_mul_right _ hj).trans hmul
    rw [Nat.succ_mul] at hle
    rw [Bool.eq_false_iff, ne_eq, ltR_iff, subtractions_toNat (by omega)]
    omega
  · rw [ltR_iff, subtractions_toNat hmul, mul_comm, ← Nat.mod_eq_sub_mul_div]
    exact Nat.mod_lt _ hpos

/-- Subtraction and comparison of limbs are exact on all values, the loop stops after two
subtractions at most with a value that decodes, and what it decodes is the residue; the
combination of the two halves of a digest is the residue of the whole. -/
theorem wide_reduction_exact :
    (∀ wide : Bytes 64,
      (combineWide wide).map ZMod.val = some (leNat wide.toList % blsOrder)) ∧
    (∀ bytes : Bytes 32,
      (scalarFromLeBytesModOrder bytes).map ZMod.val = some (leNat bytes.toList % blsOrder) ∧
      ∃ k ≤ 2, (∀ j < k, ltR (subtractions (leBytesToU64x4 bytes) j) = false) ∧
        ltR (subtractions (leBytesToU64x4 bytes) k) = true ∧
        scalarFromLeBytesModOrder bytes =
          fromBytesLe (u64x4ToLeBytes (subtractions (leBytesToU64x4 bytes) k))) ∧
    (∀ a b : U64x4,
      limbsNat (subU64x4 a b).toList =
        (limbsNat a.toList + 2 ^ 256 - limbsNat b.toList) % 2 ^ 256 ∧
      ∀ i ≤ 4, subLimbsBorrow (a.toList.take i) (b.toList.take i) 0 =
        if limbsNat (a.toList.take i) < limbsNat (b.toList.take i) then 1 else 0) ∧
    ∀ v : U64x4, ltR v = true ↔ limbsNat v.toList < blsOrder := by
  refine ⟨fun wide => ?_, fun bytes => ⟨?_, ?_⟩, fun a b => ⟨?_, fun i _ => ?_⟩, ltR_iff⟩
  · rw [combineWide_eq, Option.map_some, ZMod.val_natCast]
  · rw [scalarFromLeBytesModOrder_eq, Option.map_some, ZMod.val_natCast]
  · rcases subtractions_stop (leBytesToU64x4 bytes) with ⟨k, hk, hbelow, hstop⟩
    exact ⟨k, hk, hbelow, hstop, reduceLoop_subtractions (Nat.lt_succ_of_le hk) hbelow hstop⟩
  · have hlen : a.toList.length = b.toList.length := by rw [a.toList_length, b.toList_length]
    have hsub := (limbsNat_subLimbs_mod hlen).1
    rwa [a.toList_length] at hsub
  · have hlen : (a.toList.take i).length = (b.toList.take i).length := by
      rw [List.length_take, List.length_take, a.toList_length, b.toList_length]
    exact (limbsNat_subLimbs_mod hlen).2

end Reduction

end Ebut
