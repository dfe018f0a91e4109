import Ebut.Core.Suite
import Mathlib.Algebra.BigOperators.Group.Finset.Basic
import Mathlib.Algebra.Module.Basic

/-!
# Multi-Scalar Multiplication

The sum of scalar multiples, and the precomputed window table that multiplies a
fixed base. The table holds fifteen multiples of the base for each of the 64
four-bit windows of a scalar; multiplying adds one entry per non-zero digit.

The table is a structure that carries its length, so that the index the
multiplication computes is in range by construction.

## Main definitions

* `g1Msm`: The sum of scalar multiples.
* `FixedBaseTable.new`: The window table of a base.
* `FixedBaseTable.addWindow`: The turn of the multiplication loop for a window.
* `FixedBaseTable.mulBytes`: Multiplication by a scalar given by its bytes.
* `FixedBaseTable.mul`: Multiplication by a scalar.

## Theorems

* `g1Msm_eq_sum`: Both branches of `g1Msm` compute the sum.
* `g1Msm_cons`: One term split off.
* `tableLoop_getElem`: The entry of a window and a digit.
* `mulBytes_new`: Table multiplication by bytes is multiplication by their value.
* `mul_new`: Table multiplication is scalar multiplication.
-/

namespace Ebut

open LittleEndian

section Msm

variable {K G : Type*} [Semiring K] [AddCommGroup G] [Module K G]

/-- `∑ bases[i] * scalars[i]`. The length assertion is the last argument, which
every call site discharges by computation. -/
def g1Msm (bases : List G) (scalars : List K)
    (_hlen : bases.length = scalars.length := by rfl) : G :=
  if bases.length < 12 then
    (bases.zip scalars).foldl (fun acc p => acc + p.2 • p.1) 0
  else
    -- Pippenger's algorithm, which the curve library documents as the sum
    ((bases.zip scalars).map fun p => p.2 • p.1).sum

theorem foldl_add_eq_sum {α : Type*} (f : α → G) (l : List α) (acc : G) :
    l.foldl (fun acc a => acc + f a) acc = acc + (l.map f).sum := by
  induction l generalizing acc with
  | nil => rw [List.foldl_nil, List.map_nil, List.sum_nil, add_zero]
  | cons a l ih => rw [List.foldl_cons, ih, List.map_cons, List.sum_cons, add_assoc]

theorem g1Msm_eq_sum {bases : List G} {scalars : List K}
    (hlen : bases.length = scalars.length) :
    g1Msm bases scalars hlen = ((bases.zip scalars).map fun p => p.2 • p.1).sum := by
  unfold g1Msm
  by_cases hsmall : bases.length < 12
  · rw [if_pos hsmall, foldl_add_eq_sum (fun p : G × K => p.2 • p.1), zero_add]
  · rw [if_neg hsmall]

@[simp]
theorem g1Msm_nil (hlen : ([] : List G).length = ([] : List K).length) : g1Msm [] [] hlen = 0 := by
  rw [g1Msm_eq_sum]
  rfl

@[simp]
theorem g1Msm_cons {b : G} {bs : List G} {s : K} {ss : List K}
    (hlen : (b :: bs).length = (s :: ss).length) :
    g1Msm (b :: bs) (s :: ss) hlen = s • b + g1Msm bs ss (Nat.succ_inj.mp hlen) := by
  rw [g1Msm_eq_sum, g1Msm_eq_sum, List.zip_cons_cons, List.map_cons, List.sum_cons]

end Msm

section Table

variable {P : Type*} [AddCommGroup P]

/-- `n` points starting at `cur`, each `step` further than the one before. -/
def multiples : ℕ → P → P → List P
  | 0, _, _ => []
  | n + 1, step, cur => cur :: multiples n step (cur + step)

/-- `n` doublings of a point. -/
def doublings : ℕ → P → P
  | 0, p => p
  | n + 1, p => doublings n (p + p)

/-- The entries of `n` windows, the first of which multiplies `baseExp`. -/
def tableLoop : ℕ → P → List P
  | 0, _ => []
  | n + 1, baseExp => multiples 15 baseExp baseExp ++ tableLoop n (doublings 4 baseExp)

theorem multiples_length (n : ℕ) (step cur : P) : (multiples n step cur).length = n := by
  induction n generalizing cur with
  | zero => rfl
  | succ n ih => rw [multiples, List.length_cons, ih]

theorem tableLoop_length (n : ℕ) (baseExp : P) : (tableLoop n baseExp).length = n * 15 := by
  induction n generalizing baseExp with
  | zero => rfl
  | succ n ih =>
      rw [tableLoop, List.length_append, multiples_length, ih]
      omega

theorem multiples_getElem {n d : ℕ} (hd : d < n) (step : P) (k : ℕ) :
    (multiples n step (k • step))[d]? = some ((k + d) • step) := by
  induction n generalizing d k with
  | zero => exact absurd hd (Nat.not_lt_zero _)
  | succ n ih =>
      rw [multiples]
      cases d with
      | zero => rw [List.getElem?_cons_zero, add_zero]
      | succ d =>
          rw [List.getElem?_cons_succ, ← succ_nsmul, ih (Nat.lt_of_succ_lt_succ hd)]
          congr 2
          omega

theorem doublings_eq (n : ℕ) (p : P) : doublings n p = 2 ^ n • p := by
  induction n generalizing p with
  | zero => rw [doublings, pow_zero, one_nsmul]
  | succ n ih => rw [doublings, ih, ← two_nsmul, ← mul_nsmul', pow_succ]

/-- The entry of window `w` and digit `d + 1` is `(d + 1) * 16 ^ w` times the
base. -/
theorem tableLoop_getElem {n w d : ℕ} (hw : w < n) (hd : d < 15) (baseExp : P) :
    (tableLoop n baseExp)[w * 15 + d]? = some (((d + 1) * 16 ^ w) • baseExp) := by
  induction n generalizing w baseExp with
  | zero => exact absurd hw (Nat.not_lt_zero _)
  | succ n ih =>
      rw [tableLoop]
      cases w with
      | zero =>
          have h := multiples_getElem hd baseExp 1
          rw [one_nsmul] at h
          rw [zero_mul, zero_add, List.getElem?_append_left (by rwa [multiples_length]), h,
            pow_zero, mul_one, add_comm]
      | succ w =>
          have hge : (multiples 15 baseExp baseExp).length ≤ (w + 1) * 15 + d := by
            rw [multiples_length]
            omega
          have hidx : (w + 1) * 15 + d - (multiples 15 baseExp baseExp).length = w * 15 + d := by
            rw [multiples_length]
            omega
          rw [List.getElem?_append_right hge, hidx, ih (Nat.lt_of_succ_lt_succ hw), doublings_eq,
            ← mul_nsmul', mul_assoc, show 2 ^ 4 = 16 from rfl, ← pow_succ]

/-- A window table: fifteen entries for each of 64 windows. -/
structure FixedBaseTable (P : Type*) where
  /-- The entries, window by window. -/
  table : List P
  /-- The table is full. -/
  length_eq : table.length = 64 * 15

/-- The table of a base. -/
def FixedBaseTable.new (base : P) : FixedBaseTable P :=
  ⟨tableLoop 64 base, tableLoop_length 64 base⟩

/-- The four bits of window `w`. -/
def windowDigit (bytes : List UInt8) (w : ℕ) : ℕ :=
  -- two windows to a byte, the low half first
  let byteIdx := w >>> 1
  let bitShift := (w &&& 1) <<< 2
  ((bytes.getD byteIdx 0 >>> UInt8.ofNat bitShift) &&& 0xf).toNat

theorem windowDigit_lt (bytes : List UInt8) (w : ℕ) : windowDigit bytes w < 16 := by
  unfold windowDigit
  rw [UInt8.toNat_and]
  exact lt_of_le_of_lt Nat.and_le_right (by decide)

/-- The turn of the multiplication loop for window `w`. -/
def FixedBaseTable.addWindow (t : FixedBaseTable P) (bytes : Bytes 32) (result : P)
    (w : Fin 64) : P :=
  let digit := windowDigit bytes.toList w
  -- the digit zero adds nothing, and has no entry in the table
  if hdigit : digit ≠ 0 then
    result + t.table.get ⟨w * 15 + digit - 1, by
      have hlt : digit < 16 := windowDigit_lt bytes.toList w
      have hw := w.isLt
      rw [t.length_eq]
      omega⟩
  else result

/-- `scalar * base`, for a scalar given by its little-endian bytes. -/
def FixedBaseTable.mulBytes (t : FixedBaseTable P) (bytes : Bytes 32) : P :=
  (List.finRange 64).foldl (t.addWindow bytes) 0

/-- A two-digit byte splits into its two windows. -/
theorem windowDigit_cons (b : UInt8) (bs : List UInt8) :
    windowDigit (b :: bs) 0 + 16 * windowDigit (b :: bs) 1 = b.toNat ∧
      ∀ w, windowDigit (b :: bs) (w + 2) = windowDigit bs w := by
  constructor
  · have hb := b.toNat_lt
    have hand : ∀ n : ℕ, n &&& 15 = n % 16 := fun n => Nat.and_two_pow_sub_one_eq_mod n 4
    have h15 : (15 : UInt8).toNat = 15 := rfl
    have h0 : (UInt8.ofNat ((0 &&& 1) <<< 2)).toNat % 8 = 0 := rfl
    have h4 : (UInt8.ofNat ((1 &&& 1) <<< 2)).toNat % 8 = 4 := rfl
    simp only [windowDigit, UInt8.toNat_and, UInt8.toNat_shiftRight, h15, hand, h0, h4,
      Nat.shiftRight_eq_div_pow]
    simp only [Nat.zero_div, Nat.reducePow, Nat.reduceDiv, List.getD_cons_zero, Nat.div_one]
    omega
  · intro w
    have hidx : (w + 2) >>> 1 = w >>> 1 + 1 := by
      rw [Nat.shiftRight_eq_div_pow, Nat.shiftRight_eq_div_pow]
      omega
    have hbit : (w + 2) &&& 1 = w &&& 1 := by
      rw [Nat.and_one_is_mod, Nat.and_one_is_mod]
      omega
    simp only [windowDigit, hidx, hbit, List.getD_cons_succ]

/-- The digits of a byte string are its base-16 expansion. -/
theorem sum_windowDigit (bytes : List UInt8) :
    ∑ w ∈ Finset.range (2 * bytes.length), windowDigit bytes w * 16 ^ w = leNat bytes := by
  induction bytes with
  | nil => rfl
  | cons b bs ih =>
      rcases windowDigit_cons b bs with ⟨hhead, htail⟩
      rw [List.length_cons, Nat.mul_succ, Finset.sum_range_succ', Finset.sum_range_succ', leNat,
        ← ih, Finset.mul_sum, ← hhead]
      simp only [Nat.zero_add, htail, pow_zero, pow_one, mul_one]
      have hshift : ∀ w, windowDigit bs w * 16 ^ (w + 1 + 1) =
          256 * (windowDigit bs w * 16 ^ w) := fun w => by ring
      rw [Finset.sum_congr rfl fun w _ => hshift w]
      ring

theorem addWindow_new (base : P) (bytes : Bytes 32) (result : P) (w : Fin 64) :
    (FixedBaseTable.new base).addWindow bytes result w =
      result + (windowDigit bytes.toList w * 16 ^ (w : ℕ)) • base := by
  have hlt := windowDigit_lt bytes.toList w
  unfold FixedBaseTable.addWindow
  by_cases hdigit : windowDigit bytes.toList w ≠ 0
  · have hentry := tableLoop_getElem w.isLt
      (show windowDigit bytes.toList w - 1 < 15 by omega) base
    rw [show (w : ℕ) * 15 + (windowDigit bytes.toList w - 1) =
      w * 15 + windowDigit bytes.toList w - 1 by omega, Nat.sub_add_cancel (by omega)] at hentry
    rcases List.getElem?_eq_some_iff.mp hentry with ⟨_, hget⟩
    rw [dif_pos hdigit]
    exact congrArg (result + ·) hget
  · rw [dif_neg hdigit, not_not.mp hdigit, zero_mul, zero_nsmul, add_zero]

theorem mulBytes_new (base : P) (bytes : Bytes 32) :
    (FixedBaseTable.new base).mulBytes bytes = leNat bytes.toList • base := by
  have hstep : (FixedBaseTable.new base).addWindow bytes = fun result (w : Fin 64) =>
      result + (windowDigit bytes.toList w * 16 ^ (w : ℕ)) • base := by
    ext result w
    exact addWindow_new base bytes result w
  have hlen : 2 * bytes.toList.length = 64 := by rw [bytes.toList_length]
  unfold FixedBaseTable.mulBytes
  rw [hstep, foldl_add_eq_sum
    (fun w : Fin 64 => (windowDigit bytes.toList w * 16 ^ (w : ℕ)) • base), zero_add,
    ← sum_windowDigit, hlen, Finset.sum_smul, ← Fin.sum_univ_eq_sum_range
      (fun w => (windowDigit bytes.toList w * 16 ^ w) • base), Fin.sum_univ_def]

variable [Module Scalar P]

/-- Multiplication by a scalar, through its canonical bytes. -/
def FixedBaseTable.mul (t : FixedBaseTable P) (scalar : Scalar) : P :=
  t.mulBytes (Scalar.toBytes scalar)

@[simp]
theorem mul_new (base : P) (scalar : Scalar) :
    (FixedBaseTable.new base).mul scalar = scalar • base := by
  rw [FixedBaseTable.mul, mulBytes_new, leNat_toBytes, ← Nat.cast_smul_eq_nsmul Scalar,
    ZMod.natCast_val, ZMod.cast_id]

end Table

end Ebut
