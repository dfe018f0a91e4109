import Ebut.Library.LittleEndian
import Mathlib.Data.Nat.Bitwise
import Mathlib.Data.List.GetD
import Mathlib.Tactic.Common

/-!
# Bits of Byte Strings

The bits of a byte string, counted from the low bit of the first byte, and the two ways to
write one: by a disjunction with a shifted one and by a conjunction with its complement.

Code that packs bits writes them one by one in a loop. What matters about such a loop is
which bits it leaves set, so each operation and each kind of loop has one lemma that says
what every bit is afterwards, and a string is determined by its bits.

## Main definitions

* `bitAt`: A bit of a byte string.
* `orBit`, `clearBit`: A bit set and a bit cleared.

## Theorems

* `shiftBit_eq`: The shift and mask that read a bit.
* `mask_eq_zero`: The mask that tests a bit in place.
* `bitAt_orBit`, `bitAt_clearBit`: The bits after a write.
* `ext_bitAt`: A string is determined by its bits.
* `testBit_leNat`: They are the bits of the integer it denotes.
* `bitAt_foldl_orBit`: The bits after a loop that sets some.
* `testBit_foldl_or`: The same for the bits of a single byte.
-/

namespace ByteBits

/-- The bit at index `i`, counted from the low bit of the first byte. -/
def bitAt (bytes : List UInt8) (i : ℕ) : Bool := (bytes.getD (i / 8) 0).toNat.testBit (i % 8)

/-- The string with the bit at index `i` set. -/
def orBit (bytes : List UInt8) (i : ℕ) : List UInt8 :=
  bytes.modify (i / 8) fun byte => byte ||| (1 <<< UInt8.ofNat (i % 8))

/-- The string with the bit at index `i` cleared. -/
def clearBit (bytes : List UInt8) (i : ℕ) : List UInt8 :=
  bytes.modify (i / 8) fun byte => byte &&& ~~~(1 <<< UInt8.ofNat (i % 8))

section Byte

variable (b : UInt8) {p q : ℕ}

theorem shiftBit_eq (hq : q < 8) : (((b >>> UInt8.ofNat q) &&& 1) == 1) = b.toNat.testBit q := by
  have hmod : q % 2 ^ 8 % 8 = q := by omega
  rw [Bool.eq_iff_iff, beq_iff_eq, ← UInt8.toNat_inj, UInt8.toNat_and, UInt8.toNat_shiftRight,
    UInt8.toNat_ofNat', hmod, Nat.testBit_eq_decide_div_mod_eq, decide_eq_true_eq,
    Nat.shiftRight_eq_div_pow]
  show _ &&& 1 = 1 ↔ _
  rw [Nat.and_one_is_mod]

theorem toNat_one_shiftLeft (hp : p < 8) : ((1 : UInt8) <<< UInt8.ofNat p).toNat = 2 ^ p := by
  have hmod : p % 2 ^ 8 % 8 = p := by omega
  have hlt : 2 ^ p < 2 ^ 8 := Nat.pow_lt_pow_right (by omega) hp
  rw [UInt8.toNat_shiftLeft, UInt8.toNat_ofNat', hmod]
  show (1 <<< p) % 2 ^ 8 = 2 ^ p
  rw [Nat.one_shiftLeft, Nat.mod_eq_of_lt hlt]

theorem testBit_or (hp : p < 8) :
    (b ||| 1 <<< UInt8.ofNat p).toNat.testBit q = (decide (p = q) || b.toNat.testBit q) := by
  rw [UInt8.toNat_or, Nat.testBit_or, toNat_one_shiftLeft hp, Nat.testBit_two_pow, Bool.or_comm]

theorem testBit_and_not (hp : p < 8) (hq : q < 8) :
    (b &&& ~~~(1 <<< UInt8.ofNat p)).toNat.testBit q =
      (!decide (p = q) && b.toNat.testBit q) := by
  rw [UInt8.toNat_and, Nat.testBit_and, Bool.and_comm]
  refine congrArg (· && _) ?_
  rw [← UInt8.toNat_toBitVec, UInt8.toBitVec_not, ← BitVec.getLsbD, BitVec.getLsbD_not,
    BitVec.getLsbD, UInt8.toNat_toBitVec, toNat_one_shiftLeft hp, Nat.testBit_two_pow,
    decide_eq_true hq, Bool.true_and]

theorem testBit_and (hp : p < 8) :
    (b &&& 1 <<< UInt8.ofNat p).toNat.testBit q = (decide (p = q) && b.toNat.testBit q) := by
  rw [UInt8.toNat_and, Nat.testBit_and, toNat_one_shiftLeft hp, Nat.testBit_two_pow,
    Bool.and_comm]

variable {b} in
/-- A byte is determined by its eight bits. -/
theorem ext_testBit {b' : UInt8} (h : ∀ q < 8, b.toNat.testBit q = b'.toNat.testBit q) :
    b = b' := by
  refine UInt8.toNat_inj.mp (Nat.eq_of_testBit_eq fun q => ?_)
  by_cases hq : q < 8
  · exact h q hq
  · have hpow : 2 ^ 8 ≤ 2 ^ q := Nat.pow_le_pow_right (by omega) (Nat.le_of_not_lt hq)
    rw [Nat.testBit_lt_two_pow (b.toNat_lt.trans_le hpow),
      Nat.testBit_lt_two_pow (b'.toNat_lt.trans_le hpow)]

/-- The test of a bit by a mask. -/
theorem mask_eq_zero (hp : p < 8) :
    (b &&& 1 <<< UInt8.ofNat p == 0) = !b.toNat.testBit p := by
  rw [Bool.eq_iff_iff, beq_iff_eq, Bool.not_eq_true']
  constructor
  · intro h
    have hbit := testBit_and b (q := p) hp
    rw [h, decide_eq_true rfl, Bool.true_and] at hbit
    exact hbit.symm.trans (Nat.zero_testBit p)
  · intro h
    refine ext_testBit fun q _ => ?_
    rw [testBit_and b hp]
    by_cases hq : p = q
    · rw [← hq, h, Bool.and_false]
      exact (Nat.zero_testBit p).symm
    · rw [decide_eq_false hq, Bool.false_and]
      exact (Nat.zero_testBit q).symm

end Byte

@[simp]
theorem orBit_length (bytes : List UInt8) (i : ℕ) : (orBit bytes i).length = bytes.length :=
  List.length_modify _ _ _

/-- A write into one byte leaves the others alone. -/
theorem getD_modify (bytes : List UInt8) (f : UInt8 → UInt8) (n m : ℕ) :
    (bytes.modify n f).getD m 0 =
      if n = m ∧ m < bytes.length then f (bytes.getD m 0) else bytes.getD m 0 := by
  rw [List.getD_eq_getElem?_getD, List.getD_eq_getElem?_getD, List.getElem?_modify]
  by_cases hm : m < bytes.length
  · rw [List.getElem?_eq_getElem hm]
    by_cases hn : n = m
    · rw [if_pos ⟨hn, hm⟩]
      simp [hn]
    · rw [if_neg fun h => hn h.1]
      simp [hn]
  · rw [List.getElem?_eq_none (Nat.le_of_not_lt hm), if_neg fun h => hm h.2]
    rfl

/-- Two indices name one bit when they name one bit of one byte. -/
theorem index_eq_iff {i k : ℕ} : i = k ↔ i / 8 = k / 8 ∧ i % 8 = k % 8 := by omega

theorem bitAt_orBit {bytes : List UInt8} {i : ℕ} (hi : i < 8 * bytes.length) (k : ℕ) :
    bitAt (orBit bytes i) k = (decide (i = k) || bitAt bytes k) := by
  unfold bitAt orBit
  rw [getD_modify]
  by_cases hbyte : i / 8 = k / 8
  · have hlt : k / 8 < bytes.length := by omega
    rw [if_pos ⟨hbyte, hlt⟩, testBit_or _ (Nat.mod_lt _ (by omega))]
    refine congrArg (· || _) ?_
    rw [decide_eq_decide]
    exact ⟨fun h => index_eq_iff.mpr ⟨hbyte, h⟩, fun h => (index_eq_iff.mp h).2⟩
  · rw [if_neg fun h => hbyte h.1, decide_eq_false fun h => hbyte (congrArg (· / 8) h),
      Bool.false_or]

theorem bitAt_clearBit (bytes : List UInt8) (i k : ℕ) :
    bitAt (clearBit bytes i) k = (!decide (i = k) && bitAt bytes k) := by
  unfold bitAt clearBit
  rw [getD_modify]
  by_cases hbyte : i / 8 = k / 8
  · by_cases hlt : k / 8 < bytes.length
    · rw [if_pos ⟨hbyte, hlt⟩,
        testBit_and_not _ (Nat.mod_lt _ (by omega)) (Nat.mod_lt _ (by omega))]
      refine congrArg (fun d => !d && _) ?_
      rw [decide_eq_decide]
      exact ⟨fun h => index_eq_iff.mpr ⟨hbyte, h⟩, fun h => (index_eq_iff.mp h).2⟩
    · -- a bit past the end is not set
      rw [if_neg fun h => hlt h.2, List.getD_eq_default _ _ (Nat.le_of_not_lt hlt)]
      simp
  · rw [if_neg fun h => hbyte h.1, decide_eq_false fun h => hbyte (congrArg (· / 8) h),
      Bool.not_false, Bool.true_and]

theorem bitAt_replicate_zero (n k : ℕ) : bitAt (List.replicate n 0) k = false := by
  unfold bitAt
  have hzero : (List.replicate n (0 : UInt8)).getD (k / 8) 0 = 0 := by
    rw [List.getD_eq_getElem?_getD, List.getElem?_replicate]
    split <;> rfl
  rw [hzero]
  exact Nat.zero_testBit _

/-- A bit past the end is not set. -/
theorem bitAt_of_le {bytes : List UInt8} {k : ℕ} (hk : 8 * bytes.length ≤ k) :
    bitAt bytes k = false := by
  unfold bitAt
  rw [List.getD_eq_default _ _ (by omega)]
  exact Nat.zero_testBit _

/-- A byte string is determined by its length and its bits. -/
theorem ext_bitAt {as bs : List UInt8} (hlen : as.length = bs.length)
    (h : ∀ k < 8 * as.length, bitAt as k = bitAt bs k) : as = bs := by
  refine List.ext_getElem hlen fun n hn hn' => ext_testBit fun q hq => ?_
  have hbit := h (8 * n + q) (by omega)
  unfold bitAt at hbit
  rw [show (8 * n + q) / 8 = n by omega, show (8 * n + q) % 8 = q by omega,
    List.getD_eq_getElem _ _ hn, List.getD_eq_getElem _ _ hn'] at hbit
  exact hbit

/-- The bits of a string are those of the integer it denotes. -/
theorem testBit_leNat (bytes : List UInt8) (k : ℕ) :
    (LittleEndian.leNat bytes).testBit k = bitAt bytes k := by
  induction bytes generalizing k with
  | nil =>
      unfold bitAt
      rw [LittleEndian.leNat, Nat.zero_testBit, List.getD_nil]
      exact (Nat.zero_testBit _).symm
  | cons b bytes ih =>
      have hsum : LittleEndian.leNat (b :: bytes) =
          2 ^ 8 * LittleEndian.leNat bytes + b.toNat := Nat.add_comm _ _
      rw [hsum, Nat.testBit_two_pow_mul_add _ b.toNat_lt]
      unfold bitAt
      by_cases hk : k < 8
      · rw [if_pos hk, Nat.div_eq_of_lt hk, Nat.mod_eq_of_lt hk, List.getD_cons_zero]
      · have hdiv : k / 8 = (k - 8) / 8 + 1 := by omega
        have hmod : k % 8 = (k - 8) % 8 := by omega
        rw [if_neg hk, ih, hdiv, hmod, List.getD_cons_succ]
        rfl

/-- A string whose bits from `n` on are clear denotes an integer below `2 ^ n`. -/
theorem leNat_lt_of_bitAt {bytes : List UInt8} {n : ℕ} (h : ∀ k ≥ n, bitAt bytes k = false) :
    LittleEndian.leNat bytes < 2 ^ n :=
  Nat.lt_pow_two_of_testBit _ fun k hk => by rw [testBit_leNat, h k hk]

section Loops

variable {α : Type*} (cond : α → Bool) (index : α → ℕ)

theorem foldl_orBit_length (turns : List α) (bytes : List UInt8) :
    (turns.foldl (fun acc a => if cond a then orBit acc (index a) else acc) bytes).length =
      bytes.length := by
  induction turns generalizing bytes with
  | nil => rfl
  | cons a turns ih =>
      rw [List.foldl_cons, ih]
      split
      · exact orBit_length bytes _
      · rfl

/-- A loop that sets bits leaves exactly those set that were or that a turn has set. -/
theorem bitAt_foldl_orBit (turns : List α) {bytes : List UInt8}
    (hindex : ∀ a ∈ turns, index a < 8 * bytes.length) (k : ℕ) :
    bitAt (turns.foldl (fun acc a => if cond a then orBit acc (index a) else acc) bytes) k =
      (bitAt bytes k || turns.any fun a => cond a && decide (index a = k)) := by
  induction turns generalizing bytes with
  | nil => rw [List.foldl_nil, List.any_nil, Bool.or_false]
  | cons a turns ih =>
      have ha := hindex a List.mem_cons_self
      have hrest : ∀ a' ∈ turns, index a' < 8 * bytes.length :=
        fun a' ha' => hindex a' (List.mem_cons_of_mem _ ha')
      rw [List.foldl_cons, List.any_cons]
      by_cases hcond : cond a
      · rw [if_pos hcond, ih (by rwa [orBit_length]), bitAt_orBit ha, hcond, Bool.true_and,
          ← Bool.or_assoc, Bool.or_comm (bitAt bytes k)]
      · rw [if_neg hcond, ih hrest, Bool.not_eq_true _ |>.mp hcond, Bool.false_and,
          Bool.false_or]

/-- The same for a loop over the bits of a single byte. -/
theorem testBit_foldl_or {turns : List ℕ} (cond : ℕ → Bool) (hturns : ∀ p ∈ turns, p < 8)
    (b : UInt8) (q : ℕ) :
    (turns.foldl (fun acc p =>
        if cond p then acc ||| (1 <<< UInt8.ofNat p) else acc) b).toNat.testBit q =
      (b.toNat.testBit q || turns.any fun p => cond p && decide (p = q)) := by
  induction turns generalizing b with
  | nil => rw [List.foldl_nil, List.any_nil, Bool.or_false]
  | cons p turns ih =>
      have hp := hturns p List.mem_cons_self
      rw [List.foldl_cons, List.any_cons, ih fun p' hp' => hturns p' (List.mem_cons_of_mem _ hp')]
      by_cases hcond : cond p
      · rw [if_pos hcond, testBit_or b hp, hcond, Bool.true_and, ← Bool.or_assoc,
          Bool.or_comm (b.toNat.testBit q)]
      · rw [if_neg hcond, Bool.not_eq_true _ |>.mp hcond, Bool.false_and, Bool.false_or]

end Loops

/-- Of the turns of a loop over a range only one has a given index. -/
theorem any_range_eq {n k : ℕ} (hk : k < n) (cond : ℕ → Bool) {index : ℕ → ℕ}
    (hinj : Function.Injective index) :
    ((List.range n).any fun i => cond i && decide (index i = index k)) = cond k := by
  rw [Bool.eq_iff_iff, List.any_eq_true]
  constructor
  · rintro ⟨i, _, hi⟩
    rw [Bool.and_eq_true, decide_eq_true_eq] at hi
    rw [← hinj hi.2]
    exact hi.1
  · intro hcond
    refine ⟨k, List.mem_range.mpr hk, ?_⟩
    rw [hcond, decide_eq_true rfl, Bool.true_and]

end ByteBits
