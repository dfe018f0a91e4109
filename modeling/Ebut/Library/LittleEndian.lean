import Mathlib.Data.Nat.ModEq
import Mathlib.Data.Nat.Size
import Mathlib.Data.List.Induction
import Mathlib.Data.Vector.Basic
import Mathlib.Tactic.Ring

/-!
# Little-Endian Bytes and Limbs

Integers written as byte strings and as strings of 64-bit limbs, least
significant part first, with the comparison and subtraction that multi-limb code
performs. Widths are arbitrary: everything is by recursion on the string.

A comparison reads limbs from the most significant down, so it is stated on
reversed strings. A subtraction carries a borrow upwards and is exact whenever
the difference is not negative.

## Main definitions

* `leNat`: The integer a byte string denotes.
* `leBytes`, `leVector`: The encoding of an integer in a fixed number of bytes.
* `leMinimal`: The encoding without leading zeros.
* `limbsNat`: The integer a string of limbs denotes.
* `limbsOf`: The limbs of a byte string.
* `limbsBytes`: The bytes of a string of limbs.
* `limbsLt`: Comparison from the most significant limb down.
* `subLimbs`: Subtraction with borrow.
* `subLimbsBorrow`: The borrow out of the last limb.
* `mulLimbs`, `addLimbs`: Product with a limb and sum, with carry.
* `mulLimbsCarry`, `addLimbsCarry`: The carry out of the last limb.

## Theorems

* `leNat_leBytes`: Encoding in `n` bytes keeps the value modulo `256 ^ n`.
* `leNat_leMinimal`, `leMinimal_getLast?`: The minimal encoding keeps the value and
  ends in a non-zero byte.
* `lengthPrefixed_injective`: A length prefix separates a string from its continuation.
* `limbsNat_limbsOf`, `leNat_limbsBytes`: Regrouping keeps the value.
* `limbsLt_iff`: The comparison compares the values.
* `limbsNat_subLimbs`: The subtraction subtracts the values.
* `limbsNat_subLimbs_mod`: For all values it does so modulo the range of the limbs.
* `limbsNat_mulLimbs`, `limbsNat_addLimbs`: Product and sum, as far as the limbs reach.
* `mulLimbsCarry_eq`, `addLimbsCarry_eq`: What the limbs do not reach.
-/

namespace LittleEndian

/-- The integer denoted by a byte string, least significant byte first. -/
def leNat : List UInt8 → ℕ
  | [] => 0
  | b :: bs => b.toNat + 256 * leNat bs

/-- The `n` low bytes of `v`. -/
def leBytes : ℕ → ℕ → List UInt8
  | 0, _ => []
  | n + 1, v => UInt8.ofNat v :: leBytes n (v / 256)

@[simp]
theorem leBytes_length (n v : ℕ) : (leBytes n v).length = n := by
  induction n generalizing v with
  | zero => rfl
  | succ n ih => rw [leBytes, List.length_cons, ih]

theorem leNat_leBytes (n v : ℕ) : leNat (leBytes n v) = v % 256 ^ n := by
  induction n generalizing v with
  | zero => rw [pow_zero, Nat.mod_one, leBytes, leNat]
  | succ n ih =>
      have hlow : (UInt8.ofNat v).toNat = v % 256 := UInt8.toNat_ofNat'
      rw [leBytes, leNat, ih, hlow, pow_succ', Nat.mod_mul]

theorem leNat_lt (bs : List UInt8) : leNat bs < 256 ^ bs.length := by
  induction bs with
  | nil => exact Nat.one_pos
  | cons b bs ih =>
      have hb : b.toNat < 256 := b.toNat_lt
      rw [leNat, List.length_cons, pow_succ']
      omega

theorem leNat_append (as bs : List UInt8) :
    leNat (as ++ bs) = leNat as + 256 ^ as.length * leNat bs := by
  induction as with
  | nil => rw [List.nil_append, leNat, List.length_nil, pow_zero, one_mul, zero_add]
  | cons a as ih =>
      rw [List.cons_append, leNat, ih, leNat, List.length_cons, pow_succ']
      ring

/-- A byte string is determined by its length and the integer it denotes. -/
theorem eq_of_leNat_eq {as bs : List UInt8} (hlen : as.length = bs.length)
    (h : leNat as = leNat bs) : as = bs := by
  induction as generalizing bs with
  | nil => exact (List.length_eq_zero_iff.mp hlen.symm).symm
  | cons a as ih =>
      cases bs with
      | nil => exact absurd hlen (Nat.succ_ne_zero _)
      | cons b bs =>
          have ha := a.toNat_lt
          have hb := b.toNat_lt
          rw [leNat, leNat] at h
          have hhead : a = b := UInt8.toNat_inj.mp (by omega)
          rw [hhead, ih (Nat.succ_inj.mp hlen) (by omega)]

/-- The encoding as a string of fixed length. -/
def leVector (n v : ℕ) : List.Vector UInt8 n := ⟨leBytes n v, leBytes_length n v⟩

theorem leNat_leVector {n v : ℕ} (hv : v < 256 ^ n) : leNat (leVector n v).toList = v := by
  show leNat (leBytes n v) = v
  rw [leNat_leBytes, Nat.mod_eq_of_lt hv]

theorem leNat_toList_lt {n : ℕ} (bytes : List.Vector UInt8 n) : leNat bytes.toList < 256 ^ n := by
  have hfits := leNat_lt bytes.toList
  rwa [bytes.toList_length] at hfits

/-- A string of fixed length is the encoding of the integer it denotes. -/
theorem leVector_leNat {n : ℕ} (bytes : List.Vector UInt8 n) :
    leVector n (leNat bytes.toList) = bytes := by
  refine List.Vector.toList_injective
    (eq_of_leNat_eq ?_ (leNat_leVector (leNat_toList_lt bytes)))
  rw [(leVector n _).toList_length, bytes.toList_length]

/-- The encoding in `n` bytes is injective below `256 ^ n`. -/
theorem leBytes_injOn {n a b : ℕ} (ha : a < 256 ^ n) (hb : b < 256 ^ n)
    (h : leBytes n a = leBytes n b) : a = b := by
  have hvalue := congrArg leNat h
  rwa [leNat_leBytes, leNat_leBytes, Nat.mod_eq_of_lt ha, Nat.mod_eq_of_lt hb] at hvalue

/-- A string behind its length can be told from what follows it. -/
theorem lengthPrefixed_injective {n : ℕ} {as bs rest rest' : List UInt8}
    (ha : as.length < 256 ^ n) (hb : bs.length < 256 ^ n)
    (h : leBytes n as.length ++ (as ++ rest) = leBytes n bs.length ++ (bs ++ rest')) :
    as = bs ∧ rest = rest' := by
  have hwidth : (leBytes n as.length).length = (leBytes n bs.length).length := by
    rw [leBytes_length, leBytes_length]
  rcases List.append_inj h hwidth with ⟨hlength, htail⟩
  exact List.append_inj htail (leBytes_injOn ha hb hlength)

/-- Padding with zero bytes keeps the integer. -/
theorem leNat_append_zeros (bs : List UInt8) (n : ℕ) :
    leNat (bs ++ List.replicate n 0) = leNat bs := by
  have hzeros : leNat (List.replicate n 0) = 0 := by
    induction n with
    | zero => rfl
    | succ n ih => rw [List.replicate_succ, leNat, ih]; rfl
  rw [leNat_append, hzeros, mul_zero, add_zero]

/-- The number of bytes an integer needs. -/
def byteLength (n : ℕ) : ℕ := (n.size + 7) / 8

/-- The encoding of an integer in as few bytes as it needs. -/
def leMinimal (n : ℕ) : List UInt8 := leBytes (byteLength n) n

theorem pow_256_eq (k : ℕ) : 256 ^ k = 2 ^ (8 * k) := by
  rw [pow_mul, show 2 ^ 8 = 256 from rfl]

theorem leNat_leMinimal (n : ℕ) : leNat (leMinimal n) = n := by
  have hlt : n < 256 ^ byteLength n := by
    rw [pow_256_eq, ← Nat.size_le]
    unfold byteLength
    omega
  rw [leMinimal, leNat_leBytes, Nat.mod_eq_of_lt hlt]

theorem leMinimal_length_le {n k : ℕ} (h : n < 256 ^ k) : (leMinimal n).length ≤ k := by
  rw [pow_256_eq, ← Nat.size_le] at h
  rw [leMinimal, leBytes_length, byteLength]
  omega

theorem leBytes_getLast? (k v : ℕ) :
    (leBytes (k + 1) v).getLast? = some (UInt8.ofNat (v / 256 ^ k)) := by
  induction k generalizing v with
  | zero => rw [pow_zero, Nat.div_one]; rfl
  | succ k ih =>
      rw [leBytes, List.getLast?_cons, ih, Option.getD_some, Nat.div_div_eq_div_mul,
        ← pow_succ']

/-- A string whose value fits without the last byte ends in zero. -/
theorem getLast?_of_leNat_lt {k : ℕ} {bytes : List.Vector UInt8 (k + 1)}
    (h : leNat bytes.toList < 256 ^ k) : bytes.toList.getLast? = some 0 := by
  have hbytes := congrArg List.Vector.toList (leVector_leNat bytes)
  rw [← hbytes]
  show (leBytes (k + 1) (leNat bytes.toList)).getLast? = some 0
  rw [leBytes_getLast?, Nat.div_eq_of_lt h]
  rfl

/-- The minimal encoding of a non-zero integer ends in a non-zero byte. -/
theorem leMinimal_getLast? {n : ℕ} (h : n ≠ 0) :
    ∃ b, (leMinimal n).getLast? = some b ∧ b ≠ 0 := by
  have hsize : 0 < n.size := Nat.size_pos.mpr (Nat.pos_of_ne_zero h)
  rcases hk : byteLength n with _ | k
  · unfold byteLength at hk
    omega
  refine ⟨UInt8.ofNat (n / 256 ^ k), by rw [leMinimal, hk, leBytes_getLast?], ?_⟩
  -- the last byte holds the bits from `8 * k` on, of which there is one to eight
  have hlow : 256 ^ k ≤ n := by
    rw [pow_256_eq, ← Nat.lt_size]
    unfold byteLength at hk
    omega
  have hhigh : n < 256 ^ (k + 1) := by
    rw [pow_256_eq, ← Nat.size_le]
    unfold byteLength at hk
    omega
  have hpos : 0 < 256 ^ k := Nat.pow_pos (by decide)
  have hquot : n / 256 ^ k < 256 := by
    rw [Nat.div_lt_iff_lt_mul hpos, ← pow_succ']
    exact hhigh
  intro hzero
  have hval := congrArg UInt8.toNat hzero
  rw [UInt8.toNat_ofNat', Nat.mod_eq_of_lt hquot, UInt8.toNat_zero] at hval
  exact absurd hlow (not_le.mpr ((Nat.div_eq_zero_iff_lt hpos).mp hval))

/-- The integer denoted by a string of 64-bit limbs, least significant first. -/
def limbsNat : List UInt64 → ℕ
  | [] => 0
  | l :: ls => l.toNat + 2 ^ 64 * limbsNat ls

/-- The first `n` limbs of a byte string. -/
def limbsOf : ℕ → List UInt8 → List UInt64
  | 0, _ => []
  | n + 1, bs => UInt64.ofNat (leNat (bs.take 8)) :: limbsOf n (bs.drop 8)

/-- The bytes of a string of limbs. -/
def limbsBytes (ls : List UInt64) : List UInt8 := ls.flatMap fun l => leBytes 8 l.toNat

theorem limbsOf_length (n : ℕ) (bs : List UInt8) : (limbsOf n bs).length = n := by
  induction n generalizing bs with
  | zero => rfl
  | succ n ih => rw [limbsOf, List.length_cons, ih]

theorem limbsBytes_length (ls : List UInt64) : (limbsBytes ls).length = 8 * ls.length := by
  induction ls with
  | nil => rfl
  | cons l ls ih =>
      rw [limbsBytes, List.flatMap_cons, List.length_append, leBytes_length, ← limbsBytes, ih,
        List.length_cons]
      ring

theorem limbsNat_limbsOf {n : ℕ} {bs : List UInt8} (hlen : bs.length = 8 * n) :
    limbsNat (limbsOf n bs) = leNat bs := by
  induction n generalizing bs with
  | zero =>
      rw [List.length_eq_zero_iff.mp (by omega : bs.length = 0)]
      rfl
  | succ n ih =>
      have htake : (bs.take 8).length = 8 := by
        rw [List.length_take]
        omega
      have hfit : leNat (bs.take 8) < 2 ^ 64 := by
        have h := leNat_lt (bs.take 8)
        rwa [htake] at h
      have hrest : (bs.drop 8).length = 8 * n := by
        rw [List.length_drop]
        omega
      rw [limbsOf, limbsNat, ih hrest, UInt64.toNat_ofNat', Nat.mod_eq_of_lt hfit]
      conv_rhs => rw [← List.take_append_drop 8 bs]
      rw [leNat_append, htake, show 256 ^ 8 = 2 ^ 64 from rfl]

theorem leNat_limbsBytes (ls : List UInt64) : leNat (limbsBytes ls) = limbsNat ls := by
  induction ls with
  | nil => rfl
  | cons l ls ih =>
      have hl : l.toNat < 256 ^ 8 := l.toNat_lt
      rw [limbsBytes, List.flatMap_cons, leNat_append, leBytes_length, ← limbsBytes, ih,
        leNat_leBytes, Nat.mod_eq_of_lt hl, limbsNat, show 256 ^ 8 = 2 ^ 64 from rfl]

theorem limbsNat_lt (ls : List UInt64) : limbsNat ls < 2 ^ (64 * ls.length) := by
  rw [← leNat_limbsBytes, pow_mul]
  have h := leNat_lt (limbsBytes ls)
  rw [limbsBytes_length, pow_mul] at h
  exact h

theorem limbsNat_append (as bs : List UInt64) :
    limbsNat (as ++ bs) = limbsNat as + 2 ^ (64 * as.length) * limbsNat bs := by
  induction as with
  | nil => rw [List.nil_append, limbsNat, List.length_nil, mul_zero, pow_zero, one_mul, zero_add]
  | cons a as ih =>
      rw [List.cons_append, limbsNat, ih, limbsNat, List.length_cons, Nat.mul_succ, pow_add]
      ring

/-- Comparison of two strings, most significant limb first. -/
def limbsLt : List UInt64 → List UInt64 → Bool
  | a :: as, b :: bs => if a ≠ b then decide (a < b) else limbsLt as bs
  | _, _ => false

/-- The comparison compares the integers that the reversed strings denote. -/
theorem limbsLt_iff {as bs : List UInt64} (hlen : as.length = bs.length) :
    limbsLt as bs = true ↔ limbsNat as.reverse < limbsNat bs.reverse := by
  induction as generalizing bs with
  | nil =>
      rw [List.length_eq_zero_iff.mp hlen.symm]
      simp only [limbsLt, lt_irrefl, Bool.false_eq_true]
  | cons a as ih =>
      cases bs with
      | nil => exact absurd hlen (Nat.succ_ne_zero _)
      | cons b bs =>
          have hlen' : as.length = bs.length := Nat.succ_inj.mp hlen
          have hA := limbsNat_lt as.reverse
          have hB := limbsNat_lt bs.reverse
          simp only [List.reverse_cons, limbsNat_append, limbsNat, mul_zero, add_zero, limbsLt,
            List.length_reverse, ← hlen'] at hA hB ⊢
          by_cases hab : a = b
          · rw [if_neg (not_not.mpr hab), ih hlen', hab]
            omega
          · rw [if_pos hab, decide_eq_true_eq, UInt64.lt_iff_toNat_lt]
            have hne : a.toNat ≠ b.toNat := fun h => hab (UInt64.toNat_inj.mp h)
            -- the most significant limb outweighs everything below it
            constructor
            · intro hlt
              have hle : 2 ^ (64 * as.length) * (a.toNat + 1) ≤
                  2 ^ (64 * as.length) * b.toNat := Nat.mul_le_mul_left _ hlt
              rw [Nat.mul_succ] at hle
              omega
            · intro hlt
              by_contra hge
              have hle : 2 ^ (64 * as.length) * (b.toNat + 1) ≤
                  2 ^ (64 * as.length) * a.toNat := Nat.mul_le_mul_left _ (by omega)
              rw [Nat.mul_succ] at hle
              omega

/-- Subtraction limb by limb, the borrow carried upwards. -/
def subLimbs : List UInt64 → List UInt64 → UInt64 → List UInt64
  | a :: as, b :: bs, borrow =>
      let d1 := a - b
      let ov1 := decide (a < b)
      let d2 := d1 - borrow
      let ov2 := decide (d1 < borrow)
      d2 :: subLimbs as bs (if ov1 || ov2 then 1 else 0)
  | _, _, _ => []

theorem subLimbs_length {as bs : List UInt64} (hlen : as.length = bs.length)
    (borrow : UInt64) : (subLimbs as bs borrow).length = as.length := by
  induction as generalizing bs borrow with
  | nil => rfl
  | cons a as ih =>
      cases bs with
      | nil => exact absurd hlen (Nat.succ_ne_zero _)
      | cons b bs => rw [subLimbs, List.length_cons, ih (Nat.succ_inj.mp hlen), List.length_cons]

/-- One limb of the subtraction: the digit written and the borrow passed on
account for the difference. -/
theorem subLimb_step (a b borrow : UInt64) (hborrow : borrow.toNat ≤ 1) :
    (a - b - borrow).toNat + b.toNat + borrow.toNat = a.toNat +
      2 ^ 64 * (if (decide (a < b) || decide (a - b < borrow)) = true then (1 : UInt64)
        else 0).toNat := by
  have ha := a.toNat_lt
  have hb := b.toNat_lt
  simp only [Bool.or_eq_true, decide_eq_true_eq, UInt64.lt_iff_toNat_lt, UInt64.toNat_sub]
  split_ifs with h
  · show _ = a.toNat + 2 ^ 64 * 1
    omega
  · show _ = a.toNat + 2 ^ 64 * 0
    omega

/-- The borrow that the subtraction passes out of its last limb. -/
def subLimbsBorrow : List UInt64 → List UInt64 → UInt64 → UInt64
  | a :: as, b :: bs, borrow =>
      subLimbsBorrow as bs (if decide (a < b) || decide (a - b < borrow) then 1 else 0)
  | _, _, borrow => borrow

theorem subLimbsBorrow_le (as bs : List UInt64) {borrow : UInt64} (hborrow : borrow.toNat ≤ 1) :
    (subLimbsBorrow as bs borrow).toNat ≤ 1 := by
  induction as generalizing bs borrow with
  | nil => exact hborrow
  | cons a as ih =>
      cases bs with
      | nil => exact hborrow
      | cons b bs =>
          rw [subLimbsBorrow]
          apply ih
          split_ifs
          · exact le_refl 1
          · exact Nat.zero_le 1

/-- The digits and the borrow out of the last limb account for the difference. -/
theorem limbsNat_subLimbs_borrow {as bs : List UInt64} (hlen : as.length = bs.length)
    {borrow : UInt64} (hborrow : borrow.toNat ≤ 1) :
    limbsNat (subLimbs as bs borrow) + limbsNat bs + borrow.toNat =
      limbsNat as + 2 ^ (64 * as.length) * (subLimbsBorrow as bs borrow).toNat := by
  induction as generalizing bs borrow with
  | nil =>
      rw [List.length_eq_zero_iff.mp hlen.symm, List.length_nil, mul_zero, pow_zero, one_mul]
      rfl
  | cons a as ih =>
      cases bs with
      | nil => exact absurd hlen (Nat.succ_ne_zero _)
      | cons b bs =>
          have hstep := subLimb_step a b borrow hborrow
          simp only [subLimbs, subLimbsBorrow, limbsNat, List.length_cons, Nat.mul_succ]
          -- of the next borrow only its bound matters from here on
          generalize hnext : (if (decide (a < b) || decide (a - b < borrow)) = true
            then (1 : UInt64) else 0) = next at hstep ⊢
          have hnext1 : next.toNat ≤ 1 := by
            rw [← hnext]
            split_ifs
            · exact le_refl 1
            · exact Nat.zero_le 1
          have hrest := ih (Nat.succ_inj.mp hlen) hnext1
          rw [Nat.add_comm (64 * as.length), pow_add, mul_assoc]
          omega

/-- A difference that is not negative passes no borrow out. -/
theorem limbsNat_subLimbs {as bs : List UInt64} (hlen : as.length = bs.length)
    {borrow : UInt64} (hborrow : borrow.toNat ≤ 1)
    (hle : limbsNat bs + borrow.toNat ≤ limbsNat as) :
    limbsNat (subLimbs as bs borrow) + limbsNat bs + borrow.toNat = limbsNat as := by
  have hdiff := limbsNat_subLimbs_borrow hlen hborrow
  have hdigits := limbsNat_lt (subLimbs as bs borrow)
  rw [subLimbs_length hlen] at hdigits
  have hout := subLimbsBorrow_le as bs hborrow
  rcases Nat.le_one_iff_eq_zero_or_eq_one.mp hout with hzero | hone
  · rwa [hzero, mul_zero, add_zero] at hdiff
  · rw [hone, mul_one] at hdiff
    omega

/-- The subtraction is exact modulo the range of the limbs, and it borrows when
the difference is negative. -/
theorem limbsNat_subLimbs_mod {as bs : List UInt64} (hlen : as.length = bs.length) :
    limbsNat (subLimbs as bs 0) =
        (limbsNat as + 2 ^ (64 * as.length) - limbsNat bs) % 2 ^ (64 * as.length) ∧
      subLimbsBorrow as bs 0 = if limbsNat as < limbsNat bs then 1 else 0 := by
  have hzero : (0 : UInt64).toNat ≤ 1 := Nat.zero_le 1
  have hdiff := limbsNat_subLimbs_borrow hlen hzero
  rw [UInt64.toNat_zero, add_zero] at hdiff
  have hdigits := limbsNat_lt (subLimbs as bs 0)
  rw [subLimbs_length hlen] at hdigits
  have hbs := limbsNat_lt bs
  rw [← hlen] at hbs
  rcases Nat.le_one_iff_eq_zero_or_eq_one.mp (subLimbsBorrow_le as bs hzero) with hout | hout
  · rw [hout, mul_zero, add_zero] at hdiff
    have hge : ¬limbsNat as < limbsNat bs := by omega
    rw [if_neg hge, show limbsNat as + 2 ^ (64 * as.length) - limbsNat bs =
      limbsNat (subLimbs as bs 0) + 2 ^ (64 * as.length) by omega, Nat.add_mod_right,
      Nat.mod_eq_of_lt hdigits]
    exact ⟨rfl, UInt64.toNat_inj.mp hout⟩
  · rw [hout, mul_one] at hdiff
    have hlt : limbsNat as < limbsNat bs := by omega
    rw [if_pos hlt, show limbsNat as + 2 ^ (64 * as.length) - limbsNat bs =
      limbsNat (subLimbs as bs 0) by omega, Nat.mod_eq_of_lt hdigits]
    exact ⟨rfl, UInt64.toNat_inj.mp hout⟩

/-- Product with one limb, the carry passed upwards. -/
def mulLimbs : List UInt64 → UInt64 → ℕ → List UInt64
  | [], _, _ => []
  | a :: as, b, carry =>
      let prod := a.toNat * b.toNat + carry
      UInt64.ofNat prod :: mulLimbs as b (prod / 2 ^ 64)

theorem mulLimbs_length (as : List UInt64) (b : UInt64) (carry : ℕ) :
    (mulLimbs as b carry).length = as.length := by
  induction as generalizing carry with
  | nil => rfl
  | cons a as ih => rw [mulLimbs, List.length_cons, ih, List.length_cons]

/-- The product, its lowest digit with the carry apart. -/
theorem limbsNat_cons_mul (a : UInt64) (as : List UInt64) (b : UInt64) (carry : ℕ) :
    limbsNat (a :: as) * b.toNat + carry =
      (a.toNat * b.toNat + carry) + 2 ^ 64 * (limbsNat as * b.toNat) := by
  rw [limbsNat]
  ring

/-- The digits denote the product as far as they reach. -/
theorem limbsNat_mulLimbs (as : List UInt64) (b : UInt64) (carry : ℕ) :
    limbsNat (mulLimbs as b carry) =
      (limbsNat as * b.toNat + carry) % 2 ^ (64 * as.length) := by
  induction as generalizing carry with
  | nil => rw [List.length_nil, mul_zero, pow_zero, Nat.mod_one, mulLimbs, limbsNat]
  | cons a as ih =>
      have hdigit : (UInt64.ofNat (a.toNat * b.toNat + carry)).toNat =
          (a.toNat * b.toNat + carry) % 2 ^ 64 := UInt64.toNat_ofNat'
      rw [mulLimbs, limbsNat, ih, hdigit, limbsNat_cons_mul, List.length_cons, Nat.mul_succ,
        Nat.add_comm, pow_add, mul_comm (2 ^ (64 * as.length)), Nat.mod_mul,
        Nat.add_mul_mod_self_left,
        Nat.add_mul_div_left _ _ (Nat.two_pow_pos 64), Nat.add_comm,
        Nat.add_comm (limbsNat as * b.toNat)]

/-- The carry that the product passes out of its last limb. -/
def mulLimbsCarry : List UInt64 → UInt64 → ℕ → ℕ
  | [], _, carry => carry
  | a :: as, b, carry => mulLimbsCarry as b ((a.toNat * b.toNat + carry) / 2 ^ 64)

/-- The carry is what the digits do not reach. -/
theorem mulLimbsCarry_eq (as : List UInt64) (b : UInt64) (carry : ℕ) :
    mulLimbsCarry as b carry = (limbsNat as * b.toNat + carry) / 2 ^ (64 * as.length) := by
  induction as generalizing carry with
  | nil => rw [mulLimbsCarry, limbsNat, zero_mul, zero_add, List.length_nil, mul_zero, pow_zero,
      Nat.div_one]
  | cons a as ih =>
      rw [mulLimbsCarry, ih, limbsNat_cons_mul, List.length_cons, Nat.mul_succ,
        Nat.add_comm (64 * as.length), pow_add, ← Nat.div_div_eq_div_mul,
        Nat.add_mul_div_left _ _ (Nat.two_pow_pos 64), Nat.add_comm (limbsNat as * b.toNat)]

/-- Sum limb by limb, the carry passed upwards. -/
def addLimbs : List UInt64 → List UInt64 → ℕ → List UInt64
  | a :: as, b :: bs, carry =>
      let sum := a.toNat + b.toNat + carry
      UInt64.ofNat sum :: addLimbs as bs (sum / 2 ^ 64)
  | _, _, _ => []

theorem addLimbs_length {as bs : List UInt64} (hlen : as.length = bs.length) (carry : ℕ) :
    (addLimbs as bs carry).length = as.length := by
  induction as generalizing bs carry with
  | nil => rfl
  | cons a as ih =>
      cases bs with
      | nil => exact absurd hlen (Nat.succ_ne_zero _)
      | cons b bs => rw [addLimbs, List.length_cons, ih (Nat.succ_inj.mp hlen), List.length_cons]

/-- The sum, its lowest digits with the carry apart. -/
theorem limbsNat_cons_add (a b : UInt64) (as bs : List UInt64) (carry : ℕ) :
    limbsNat (a :: as) + limbsNat (b :: bs) + carry =
      (a.toNat + b.toNat + carry) + 2 ^ 64 * (limbsNat as + limbsNat bs) := by
  rw [limbsNat, limbsNat]
  ring

/-- The digits denote the sum as far as they reach. -/
theorem limbsNat_addLimbs {as bs : List UInt64} (hlen : as.length = bs.length) (carry : ℕ) :
    limbsNat (addLimbs as bs carry) =
      (limbsNat as + limbsNat bs + carry) % 2 ^ (64 * as.length) := by
  induction as generalizing bs carry with
  | nil => rw [List.length_nil, mul_zero, pow_zero, Nat.mod_one]; rfl
  | cons a as ih =>
      cases bs with
      | nil => exact absurd hlen (Nat.succ_ne_zero _)
      | cons b bs =>
          have hdigit : (UInt64.ofNat (a.toNat + b.toNat + carry)).toNat =
              (a.toNat + b.toNat + carry) % 2 ^ 64 := UInt64.toNat_ofNat'
          rw [addLimbs, limbsNat, ih (Nat.succ_inj.mp hlen), hdigit, limbsNat_cons_add,
            List.length_cons, Nat.mul_succ, Nat.add_comm (64 * as.length), pow_add, Nat.mod_mul,
            Nat.add_mul_mod_self_left, Nat.add_mul_div_left _ _ (Nat.two_pow_pos 64),
            Nat.add_comm (limbsNat as + limbsNat bs)]

/-- The carry that the sum passes out of its last limb. -/
def addLimbsCarry : List UInt64 → List UInt64 → ℕ → ℕ
  | a :: as, b :: bs, carry => addLimbsCarry as bs ((a.toNat + b.toNat + carry) / 2 ^ 64)
  | _, _, carry => carry

/-- The carry is what the digits do not reach. -/
theorem addLimbsCarry_eq {as bs : List UInt64} (hlen : as.length = bs.length) (carry : ℕ) :
    addLimbsCarry as bs carry =
      (limbsNat as + limbsNat bs + carry) / 2 ^ (64 * as.length) := by
  induction as generalizing bs carry with
  | nil =>
      rw [List.length_eq_zero_iff.mp hlen.symm, List.length_nil, mul_zero, pow_zero, Nat.div_one]
      exact (Nat.zero_add carry).symm
  | cons a as ih =>
      cases bs with
      | nil => exact absurd hlen (Nat.succ_ne_zero _)
      | cons b bs =>
          rw [addLimbsCarry, ih (Nat.succ_inj.mp hlen), limbsNat_cons_add, List.length_cons,
            Nat.mul_succ, Nat.add_comm (64 * as.length), pow_add, ← Nat.div_div_eq_div_mul,
            Nat.add_mul_div_left _ _ (Nat.two_pow_pos 64),
            Nat.add_comm (limbsNat as + limbsNat bs)]

end LittleEndian
