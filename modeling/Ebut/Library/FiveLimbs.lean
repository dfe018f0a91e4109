import Mathlib.Algebra.Order.Ring.Int
import Mathlib.Tactic.Linarith
import Mathlib.Tactic.LinearCombination
import Mathlib.Tactic.Ring

/-!
# Numbers in Five Limbs

Arithmetic on numbers that are written with five limbs in a base `B`, in a ring where the fifth
power of the base is a small number `c`. What a carry pushes out of the top limb comes back into
the lowest one, scaled by `c`.

Limbs need not be below the base. Addition and multiplication are on limbs of any size, one
`fold` brings limbs of a word close to the base, and the `carry` chain does so for the wide
limbs of a product. The last step, a chain that borrows, is over the integers and determines
the digits of a number.

## Main definitions

* `Limbs`, `value`: Five limbs, and the number they stand for.
* `Limbs.number`: The same as a natural number.
* `Limbs.product`: The limbs of a product, wrapped at the fifth power of the base.
* `Limbs.fold`: One carry out of every limb at once.
* `Limbs.carry`: The carries one after the other.
* `borrow`: The digits of a number and what is left above them.

## Theorems

* `value_product`, `value_fold`, `value_carry`: None of them changes the number.
* `product_bounds`: How large the limbs of a product are.
* `number_cast`: The number as one of the ring.
* `Limbs.eq_of_number_eq`: Limbs below the base are determined by their number.
* `borrow_value`: The digits and what is left make up the number.
* `borrow_isDigits`, `borrow_spec`: They are the digits of its remainder, and its quotient.
* `borrow_step`: A comparison digit by digit.
-/

namespace FiveLimbs

/-- Five limbs, the lowest first. -/
@[ext]
structure Limbs where
  l0 : ℕ
  l1 : ℕ
  l2 : ℕ
  l3 : ℕ
  l4 : ℕ

/-- The number that five limbs stand for, in a base of a ring. -/
def value {R : Type*} [CommRing R] (B : R) (a : Limbs) : R :=
  a.l0 + a.l1 * B + a.l2 * B ^ 2 + a.l3 * B ^ 3 + a.l4 * B ^ 4

/-- The natural number that five limbs stand for. -/
def Limbs.number (B : ℕ) (a : Limbs) : ℕ :=
  a.l0 + a.l1 * B + a.l2 * B ^ 2 + a.l3 * B ^ 3 + a.l4 * B ^ 4

section Operations

variable (B c : ℕ)

/-- The limbs of a product. A term beyond the top limb is scaled by `c`. -/
def Limbs.product (a b : Limbs) : Limbs where
  l0 := a.l0 * b.l0 + c * (a.l1 * b.l4 + a.l2 * b.l3 + a.l3 * b.l2 + a.l4 * b.l1)
  l1 := a.l0 * b.l1 + a.l1 * b.l0 + c * (a.l2 * b.l4 + a.l3 * b.l3 + a.l4 * b.l2)
  l2 := a.l0 * b.l2 + a.l1 * b.l1 + a.l2 * b.l0 + c * (a.l3 * b.l4 + a.l4 * b.l3)
  l3 := a.l0 * b.l3 + a.l1 * b.l2 + a.l2 * b.l1 + a.l3 * b.l0 + c * (a.l4 * b.l4)
  l4 := a.l0 * b.l4 + a.l1 * b.l3 + a.l2 * b.l2 + a.l3 * b.l1 + a.l4 * b.l0

/-- Every limb keeps what is below the base, and the rest goes to the next one. -/
def Limbs.fold (a : Limbs) : Limbs where
  l0 := a.l0 % B + a.l4 / B * c
  l1 := a.l1 % B + a.l0 / B
  l2 := a.l2 % B + a.l1 / B
  l3 := a.l3 % B + a.l2 / B
  l4 := a.l4 % B + a.l3 / B

/-- The carries one after the other, with the one out of the top limb carried on into the
second. -/
def Limbs.carry (s : Limbs) : Limbs :=
  let t1 := s.l1 + s.l0 / B
  let t2 := s.l2 + t1 / B
  let t3 := s.l3 + t2 / B
  let t4 := s.l4 + t3 / B
  let u := t4 / B * c + s.l0 % B
  ⟨u % B, t1 % B + u / B, t2 % B, t3 % B, t4 % B⟩

end Operations

section Value

variable {R : Type*} [CommRing R] {B c : ℕ}

theorem number_cast (B : ℕ) (a : Limbs) : ((a.number B : ℕ) : R) = value (B : R) a := by
  unfold Limbs.number value
  push_cast
  rfl

/-- What division by the base leaves and takes. -/
theorem split_base (B n : ℕ) : (n : R) = B * ((n / B : ℕ) : R) + ((n % B : ℕ) : R) := by
  exact_mod_cast congrArg (Nat.cast (R := R)) (Nat.div_add_mod n B).symm

theorem value_product (hB : (B : R) ^ 5 = c) (a b : Limbs) :
    value (B : R) (a.product c b) = value (B : R) a * value (B : R) b := by
  unfold value Limbs.product
  push_cast
  -- the terms beyond the top limb are those that are scaled
  linear_combination -(((a.l1 : R) * b.l4 + a.l2 * b.l3 + a.l3 * b.l2 + a.l4 * b.l1) +
    (a.l2 * b.l4 + a.l3 * b.l3 + a.l4 * b.l2) * B + (a.l3 * b.l4 + a.l4 * b.l3) * B ^ 2 +
    a.l4 * b.l4 * B ^ 3) * hB

theorem value_fold (hB : (B : R) ^ 5 = c) (a : Limbs) :
    value (B : R) (a.fold B c) = value (B : R) a := by
  unfold value Limbs.fold
  push_cast
  rw [split_base (R := R) B a.l0, split_base (R := R) B a.l1, split_base (R := R) B a.l2,
    split_base (R := R) B a.l3, split_base (R := R) B a.l4]
  linear_combination -(((a.l4 / B : ℕ) : R)) * hB

theorem value_carry (hB : (B : R) ^ 5 = c) (s : Limbs) :
    value (B : R) (s.carry B c) = value (B : R) s := by
  unfold value Limbs.carry
  simp only
  generalize ht1 : s.l1 + s.l0 / B = t1
  generalize ht2 : s.l2 + t1 / B = t2
  generalize ht3 : s.l3 + t2 / B = t3
  generalize ht4 : s.l4 + t3 / B = t4
  generalize hu : t4 / B * c + s.l0 % B = u
  have h0 := split_base (R := R) B s.l0
  have h1 := split_base (R := R) B t1
  have h2 := split_base (R := R) B t2
  have h3 := split_base (R := R) B t3
  have h4 := split_base (R := R) B t4
  have h5 := split_base (R := R) B u
  have e1 : (s.l1 : R) + (s.l0 / B : ℕ) = t1 := by exact_mod_cast congrArg (Nat.cast (R := R)) ht1
  have e2 : (s.l2 : R) + (t1 / B : ℕ) = t2 := by exact_mod_cast congrArg (Nat.cast (R := R)) ht2
  have e3 : (s.l3 : R) + (t2 / B : ℕ) = t3 := by exact_mod_cast congrArg (Nat.cast (R := R)) ht3
  have e4 : (s.l4 : R) + (t3 / B : ℕ) = t4 := by exact_mod_cast congrArg (Nat.cast (R := R)) ht4
  have e5 : ((t4 / B : ℕ) : R) * c + (s.l0 % B : ℕ) = u := by
    exact_mod_cast congrArg (Nat.cast (R := R)) hu
  push_cast
  linear_combination -h0 - h5 - e5 - B * h1 - B * e1 - B ^ 2 * h2 - B ^ 2 * e2 - B ^ 3 * h3 -
    B ^ 3 * e3 - B ^ 4 * h4 - B ^ 4 * e4 - ((t4 / B : ℕ) : R) * hB

end Value

section Bounds

/-- Every limb is below a bound. -/
structure Limbs.Below (n : ℕ) (a : Limbs) : Prop where
  l0 : a.l0 < n
  l1 : a.l1 < n
  l2 : a.l2 < n
  l3 : a.l3 < n
  l4 : a.l4 < n

theorem Limbs.Below.mono {n n' : ℕ} {a : Limbs} (ha : a.Below n) (hle : n ≤ n') : a.Below n' :=
  ⟨ha.l0.trans_le hle, ha.l1.trans_le hle, ha.l2.trans_le hle, ha.l3.trans_le hle,
    ha.l4.trans_le hle⟩

/-- The limbs of a product by how many terms they have, those that are scaled counting as many
times as the factor says. -/
theorem product_bounds {c m n : ℕ} {a b : Limbs} (ha : a.Below m) (hb : b.Below n) :
    (a.product c b).l0 ≤ (1 + 4 * c) * (m * n) ∧ (a.product c b).l1 ≤ (2 + 3 * c) * (m * n) ∧
      (a.product c b).l2 ≤ (3 + 2 * c) * (m * n) ∧ (a.product c b).l3 ≤ (4 + c) * (m * n) ∧
      (a.product c b).l4 ≤ 5 * (m * n) := by
  have hterm : ∀ {x y : ℕ}, x < m → y < n → x * y ≤ m * n := fun hx hy =>
    Nat.mul_le_mul hx.le hy.le
  unfold Limbs.product
  refine ⟨?_, ?_, ?_, ?_, ?_⟩
  · have hsum : a.l1 * b.l4 + a.l2 * b.l3 + a.l3 * b.l2 + a.l4 * b.l1 ≤ 4 * (m * n) := by
      linarith [hterm ha.l1 hb.l4, hterm ha.l2 hb.l3, hterm ha.l3 hb.l2, hterm ha.l4 hb.l1]
    calc _ ≤ m * n + c * (4 * (m * n)) :=
          Nat.add_le_add (hterm ha.l0 hb.l0) (Nat.mul_le_mul_left c hsum)
      _ = (1 + 4 * c) * (m * n) := by ring
  · have hsum : a.l2 * b.l4 + a.l3 * b.l3 + a.l4 * b.l2 ≤ 3 * (m * n) := by
      linarith [hterm ha.l2 hb.l4, hterm ha.l3 hb.l3, hterm ha.l4 hb.l2]
    calc _ ≤ m * n + m * n + c * (3 * (m * n)) := Nat.add_le_add
          (Nat.add_le_add (hterm ha.l0 hb.l1) (hterm ha.l1 hb.l0)) (Nat.mul_le_mul_left c hsum)
      _ = (2 + 3 * c) * (m * n) := by ring
  · have hsum : a.l3 * b.l4 + a.l4 * b.l3 ≤ 2 * (m * n) := by
      linarith [hterm ha.l3 hb.l4, hterm ha.l4 hb.l3]
    calc _ ≤ m * n + m * n + m * n + c * (2 * (m * n)) := Nat.add_le_add
          (Nat.add_le_add (Nat.add_le_add (hterm ha.l0 hb.l2) (hterm ha.l1 hb.l1))
            (hterm ha.l2 hb.l0)) (Nat.mul_le_mul_left c hsum)
      _ = (3 + 2 * c) * (m * n) := by ring
  · have hlast := Nat.mul_le_mul_left c (hterm ha.l4 hb.l4)
    linarith [hterm ha.l0 hb.l3, hterm ha.l1 hb.l2, hterm ha.l2 hb.l1, hterm ha.l3 hb.l0]
  · linarith [hterm ha.l0 hb.l4, hterm ha.l1 hb.l3, hterm ha.l2 hb.l2, hterm ha.l3 hb.l1,
      hterm ha.l4 hb.l0]

end Bounds

section Digits

variable {B : ℕ}

/-- Limbs below the base are the digits of their number. -/
theorem Limbs.eq_of_number_eq {a b : Limbs} (ha : a.Below B) (hb : b.Below B)
    (h : a.number B = b.number B) : a = b := by
  have hdigit : ∀ {x y m n : ℕ}, x < B → y < B → x + B * m = y + B * n → x = y ∧ m = n := by
    intro x y m n hx hy heq
    have hpos : 0 < B := (Nat.zero_le x).trans_lt hx
    have hmod := congrArg (· % B) heq
    simp only [Nat.add_mul_mod_self_left, Nat.mod_eq_of_lt hx, Nat.mod_eq_of_lt hy] at hmod
    rw [hmod] at heq
    exact ⟨hmod, Nat.eq_of_mul_eq_mul_left hpos (Nat.add_left_cancel heq)⟩
  have hhorner : ∀ c : Limbs, c.number B =
      c.l0 + B * (c.l1 + B * (c.l2 + B * (c.l3 + B * c.l4))) := fun c => by
    unfold Limbs.number
    ring
  rw [hhorner, hhorner] at h
  rcases hdigit ha.l0 hb.l0 h with ⟨h0, h⟩
  rcases hdigit ha.l1 hb.l1 h with ⟨h1, h⟩
  rcases hdigit ha.l2 hb.l2 h with ⟨h2, h⟩
  rcases hdigit ha.l3 hb.l3 h with ⟨h3, h4⟩
  exact Limbs.ext h0 h1 h2 h3 h4

end Digits

section Borrow

/-- The digits of a number whose limbs may be negative, from the lowest one up, and what is left
above them. -/
def borrow (B d0 d1 d2 d3 d4 : ℤ) : (ℤ × ℤ × ℤ × ℤ × ℤ) × ℤ :=
  let s1 := d0 / B + d1
  let s2 := s1 / B + d2
  let s3 := s2 / B + d3
  let s4 := s3 / B + d4
  ((d0 % B, s1 % B, s2 % B, s3 % B, s4 % B), s4 / B)

/-- The digits and what is left above them make up the number. -/
theorem borrow_value (B d0 d1 d2 d3 d4 : ℤ) :
    let (e, out) := borrow B d0 d1 d2 d3 d4
    e.1 + e.2.1 * B + e.2.2.1 * B ^ 2 + e.2.2.2.1 * B ^ 3 + e.2.2.2.2 * B ^ 4 + out * B ^ 5 =
      d0 + d1 * B + d2 * B ^ 2 + d3 * B ^ 3 + d4 * B ^ 4 := by
  unfold borrow
  simp only
  generalize hs1 : d0 / B + d1 = s1
  generalize hs2 : s1 / B + d2 = s2
  generalize hs3 : s2 / B + d3 = s3
  generalize hs4 : s3 / B + d4 = s4
  linear_combination Int.emod_add_mul_ediv d0 B + B * Int.emod_add_mul_ediv s1 B +
    B ^ 2 * Int.emod_add_mul_ediv s2 B + B ^ 3 * Int.emod_add_mul_ediv s3 B +
    B ^ 4 * Int.emod_add_mul_ediv s4 B - B * hs1 - B ^ 2 * hs2 - B ^ 3 * hs3 - B ^ 4 * hs4

/-- The number that the limbs of a difference or the digits of a number stand for. -/
def signedNumber (B : ℤ) (d : ℤ × ℤ × ℤ × ℤ × ℤ) : ℤ :=
  d.1 + d.2.1 * B + d.2.2.1 * B ^ 2 + d.2.2.2.1 * B ^ 3 + d.2.2.2.2 * B ^ 4

/-- Five digits in a base. -/
structure IsDigits (B : ℤ) (d : ℤ × ℤ × ℤ × ℤ × ℤ) : Prop where
  d0 : 0 ≤ d.1 ∧ d.1 < B
  d1 : 0 ≤ d.2.1 ∧ d.2.1 < B
  d2 : 0 ≤ d.2.2.1 ∧ d.2.2.1 < B
  d3 : 0 ≤ d.2.2.2.1 ∧ d.2.2.2.1 < B
  d4 : 0 ≤ d.2.2.2.2 ∧ d.2.2.2.2 < B

theorem IsDigits.nonneg {B : ℤ} (hB : 0 < B) {d : ℤ × ℤ × ℤ × ℤ × ℤ} (hd : IsDigits B d) :
    0 ≤ signedNumber B d := by
  have h0 := hd.d0.1
  have h1 := mul_nonneg hd.d1.1 hB.le
  have h2 := mul_nonneg hd.d2.1 (pow_nonneg hB.le 2)
  have h3 := mul_nonneg hd.d3.1 (pow_nonneg hB.le 3)
  have h4 := mul_nonneg hd.d4.1 (pow_nonneg hB.le 4)
  unfold signedNumber
  linarith

theorem IsDigits.lt {B : ℤ} (hB : 0 < B) {d : ℤ × ℤ × ℤ × ℤ × ℤ} (hd : IsDigits B d) :
    signedNumber B d < B ^ 5 := by
  have h0 := hd.d0.2
  have h1 := mul_le_mul_of_nonneg_right (Int.le_sub_one_of_lt hd.d1.2) hB.le
  have h2 := mul_le_mul_of_nonneg_right (Int.le_sub_one_of_lt hd.d2.2) (pow_nonneg hB.le 2)
  have h3 := mul_le_mul_of_nonneg_right (Int.le_sub_one_of_lt hd.d3.2) (pow_nonneg hB.le 3)
  have h4 := mul_le_mul_of_nonneg_right (Int.le_sub_one_of_lt hd.d4.2) (pow_nonneg hB.le 4)
  unfold signedNumber
  linear_combination h0 + h1 + h2 + h3 + h4

/-- A comparison from the lowest digit up. The sign so far says whether the low parts `X` and `M`
compare as less, and the sign of the next difference says so for the parts with one more digit,
where a sign is what a wide shift leaves. -/
theorem borrow_step {s x m X M K W : ℤ} (hs : s = -1 ∧ X < M ∨ s = 0 ∧ M ≤ X) (hX : 0 ≤ X)
    (hXK : X < K) (hM : 0 ≤ M) (hMK : M < K) (hx : 0 ≤ x) (hxW : x < W) (hm : 0 ≤ m)
    (hmW : m < W) :
    (s + x - m) / W = -1 ∧ X + K * x < M + K * m ∨ (s + x - m) / W = 0 ∧ M + K * m ≤ X + K * x := by
  have hK : 0 < K := hX.trans_lt hXK
  rcases lt_trichotomy x m with hlt | heq | hgt
  · have hstep := mul_le_mul_of_nonneg_left (Int.add_one_le_of_lt hlt) hK.le
    refine Or.inl ⟨Int.ediv_eq_neg_one_of_neg_of_le ?_ ?_, ?_⟩
    · omega
    · omega
    · linarith
  · subst heq
    rcases hs with ⟨rfl, hs⟩ | ⟨rfl, hs⟩
    · refine Or.inl ⟨Int.ediv_eq_neg_one_of_neg_of_le ?_ ?_, ?_⟩
      · omega
      · omega
      · linarith
    · refine Or.inr ⟨?_, ?_⟩
      · rw [zero_add, sub_self, Int.zero_ediv]
      · linarith
  · have hstep := mul_le_mul_of_nonneg_left (Int.add_one_le_of_lt hgt) hK.le
    refine Or.inr ⟨Int.ediv_eq_zero_of_lt ?_ ?_, ?_⟩
    · omega
    · omega
    · linarith

variable {B : ℤ} (hB : 0 < B) (d0 d1 d2 d3 d4 : ℤ)

include hB in
theorem borrow_isDigits : IsDigits B (borrow B d0 d1 d2 d3 d4).1 := by
  have hdigit : ∀ n : ℤ, 0 ≤ n % B ∧ n % B < B := fun n =>
    ⟨Int.emod_nonneg n hB.ne', Int.emod_lt_of_pos n hB⟩
  exact ⟨hdigit _, hdigit _, hdigit _, hdigit _, hdigit _⟩

include hB in
/-- The digits are those of the remainder of the number, and what is left is its quotient. -/
theorem borrow_spec :
    signedNumber B (borrow B d0 d1 d2 d3 d4).1 = signedNumber B (d0, d1, d2, d3, d4) % B ^ 5 ∧
      (borrow B d0 d1 d2 d3 d4).2 = signedNumber B (d0, d1, d2, d3, d4) / B ^ 5 := by
  have hvalue := borrow_value B d0 d1 d2 d3 d4
  have hdigits := borrow_isDigits hB d0 d1 d2 d3 d4
  have hunique := (Int.ediv_emod_unique (pow_pos hB 5)
    (a := signedNumber B (d0, d1, d2, d3, d4))
    (r := signedNumber B (borrow B d0 d1 d2 d3 d4).1) (q := (borrow B d0 d1 d2 d3 d4).2)).mpr
    ⟨by unfold signedNumber; simp only at hvalue; linear_combination hvalue,
      hdigits.nonneg hB, hdigits.lt hB⟩
  exact ⟨hunique.2.symm, hunique.1.symm⟩

end Borrow

end FiveLimbs
