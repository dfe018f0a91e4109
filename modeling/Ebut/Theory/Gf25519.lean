import Ebut.Core.Gf25519
import Ebut.Library.Primality

/-!
# The Vendored Field Arithmetic Is the Field's

Every operation on limbs is that of the field on the elements that the limbs stand for, and no
word overflows, as long as the limbs are not too large. How large is stated for each operation,
as a bound below which all limbs of an argument are; an operation that reduces returns limbs
below `reducedLimb`, whatever it is given.

A product needs a bound on the product of the bounds of its arguments, and not that both are
below the bound which the source asks for: the wide accumulators only ever hold products.

## Main definitions

* `Field25519`: The field.
* `Gf25519.limbs`, `Gf25519.elt`: The limbs as numbers, and the element they stand for.
* `Gf25519.Below`: A bound on the limbs.

## Theorems

* `fieldOrder_prime`: The order of the field is prime.
* `gfWeakReduce_elt`, `gfAdd_elt`, `gfSub_elt`: Sums and differences.
* `gfMul_spec`, `gfSqr_spec`, `gfMulwUnsigned_spec`: Products.
* `gfProducts_exact`: What products of the largest limbs that the source allows are.
-/

namespace Ebut

open FiveLimbs Primality

section Prime

/-- The larger of the two large prime factors of the predecessor of the factor. -/
theorem fieldFactorFactor_prime : (75445702479781427272750846543864801).Prime := by
  have h1 : (1919519569386763).Prime :=
    prime_of_lucasTest 64 2 [(2, 1), (3, 1), (7, 1), (19, 1), (47, 2), (127, 1), (8574133, 1)]
      ⟨by norm_num, by norm_num, by norm_num, by norm_num, by norm_num, by norm_num, by norm_num⟩
      (by decide +kernel)
  have h2 : (2773320623).Prime :=
    prime_of_lucasTest 32 5 [(2, 1), (2437, 1), (569003, 1)]
      ⟨by norm_num, by norm_num, by norm_num⟩ (by decide +kernel)
  have h3 : (72106336199).Prime :=
    prime_of_lucasTest 64 7 [(2, 1), (13, 1), (2773320623, 1)] ⟨by norm_num, by norm_num, h2⟩
      (by decide +kernel)
  exact prime_of_lucasTest 128 7
    [(2, 5), (3, 2), (5, 2), (75707, 1), (72106336199, 1), (1919519569386763, 1)]
    ⟨by norm_num, by norm_num, by norm_num, by norm_num, h3, h1⟩ (by decide +kernel)

/-- The large prime factor of the predecessor of the order. -/
theorem fieldFactor_prime :
    (74058212732561358302231226437062788676166966415465897661863160754340907).Prime := by
  have h1 : (31757755568855353).Prime :=
    prime_of_lucasTest 64 10
      [(2, 3), (3, 1), (31, 1), (107, 1), (223, 1), (4153, 1), (430751, 1)]
      ⟨by norm_num, by norm_num, by norm_num, by norm_num, by norm_num, by norm_num, by norm_num⟩
      (by decide +kernel)
  exact prime_of_lucasTest 256 2
    [(2, 1), (3, 1), (353, 1), (57467, 1), (132049, 1), (1923133, 1), (31757755568855353, 1),
      (75445702479781427272750846543864801, 1)]
    ⟨by norm_num, by norm_num, by norm_num, by norm_num, by norm_num, by norm_num, h1,
      fieldFactorFactor_prime⟩ (by decide +kernel)

theorem fieldOrder_prime : fieldOrder.Prime :=
  prime_of_lucasTest 256 2
    [(2, 2), (3, 1), (65147, 1),
      (74058212732561358302231226437062788676166966415465897661863160754340907, 1)]
    ⟨by norm_num, by norm_num, by norm_num, fieldFactor_prime⟩ (by decide +kernel)

instance factFieldOrder : Fact fieldOrder.Prime := ⟨fieldOrder_prime⟩

end Prime

/-- The field modulo `2^255 - 19`. -/
abbrev Field25519 := ZMod fieldOrder

/-- The fifth power of the base of the limbs. -/
theorem limbBase_pow : (((2 ^ 51 : ℕ) : Field25519)) ^ 5 = ((19 : ℕ) : Field25519) := by
  have hsum : (fieldOrder : Field25519) + ((19 : ℕ) : Field25519) =
      ((2 ^ 51 : ℕ) : Field25519) ^ 5 := by
    rw [← Nat.cast_add, ← Nat.cast_pow]
    exact congrArg Nat.cast (show fieldOrder + 19 = (2 ^ 51) ^ 5 by decide)
  rw [← hsum, ZMod.natCast_self, zero_add]

/-- The limbs as numbers. -/
def Gf25519.limbs (x : Gf25519) : Limbs :=
  ⟨x.limb0.toNat, x.limb1.toNat, x.limb2.toNat, x.limb3.toNat, x.limb4.toNat⟩

/-- The element that the limbs stand for. -/
def Gf25519.elt (x : Gf25519) : Field25519 := value ((2 ^ 51 : ℕ) : Field25519) x.limbs

/-- All limbs are below a bound. -/
def Gf25519.Below (n : ℕ) (x : Gf25519) : Prop := x.limbs.Below n

theorem Gf25519.Below.mono {n n' : ℕ} {x : Gf25519} (hx : x.Below n) (hle : n ≤ n') :
    x.Below n' := Limbs.Below.mono hx hle

/-- What a reduction leaves. -/
def reducedLimb : ℕ := 2 ^ 51 + 2 ^ 18

section Words

theorem limbMask_and (x : UInt64) : (x &&& limbMask).toNat = x.toNat % 2 ^ 51 := by
  rw [UInt64.toNat_and]
  exact Nat.and_two_pow_sub_one_eq_mod x.toNat 51

theorem shiftRight_limb (x : UInt64) : (x >>> 51).toNat = x.toNat / 2 ^ 51 := by
  rw [UInt64.toNat_shiftRight]
  exact Nat.shiftRight_eq_div_pow x.toNat 51

theorem gfWeakReduce_limbs (x : Gf25519) : (gfWeakReduce x).limbs = x.limbs.fold (2 ^ 51) 19 := by
  have h0 := x.limb0.toNat_lt
  have h1 := x.limb1.toNat_lt
  have h2 := x.limb2.toNat_lt
  have h3 := x.limb3.toNat_lt
  have h4 := x.limb4.toNat_lt
  unfold gfWeakReduce Gf25519.limbs Limbs.fold
  simp only [UInt64.toNat_add, UInt64.toNat_mul, limbMask_and, shiftRight_limb, Limbs.mk.injEq,
    show (19 : UInt64).toNat = 19 from rfl]
  omega

theorem gfWeakReduce_elt (x : Gf25519) : (gfWeakReduce x).elt = x.elt := by
  rw [Gf25519.elt, gfWeakReduce_limbs, value_fold limbBase_pow]
  rfl

theorem gfWeakReduce_below (x : Gf25519) : (gfWeakReduce x).Below reducedLimb := by
  have h0 := x.limb0.toNat_lt
  have h1 := x.limb1.toNat_lt
  have h2 := x.limb2.toNat_lt
  have h3 := x.limb3.toNat_lt
  have h4 := x.limb4.toNat_lt
  rw [Gf25519.Below, gfWeakReduce_limbs]
  unfold Limbs.fold Gf25519.limbs reducedLimb
  constructor <;> simp only <;> omega

end Words

section Sums

variable {a b : Gf25519} {m n : ℕ}

theorem gfAddRaw_limbs (ha : a.Below m) (hb : b.Below n) (hfit : m + n ≤ 2 ^ 64) :
    (gfAddRaw a b).limbs = ⟨a.limbs.l0 + b.limbs.l0, a.limbs.l1 + b.limbs.l1,
      a.limbs.l2 + b.limbs.l2, a.limbs.l3 + b.limbs.l3, a.limbs.l4 + b.limbs.l4⟩ := by
  rcases ha with ⟨ha0, ha1, ha2, ha3, ha4⟩
  rcases hb with ⟨hb0, hb1, hb2, hb3, hb4⟩
  unfold Gf25519.limbs at *
  unfold gfAddRaw
  simp only [UInt64.toNat_add, Limbs.mk.injEq] at *
  omega

theorem gfAddRaw_elt (ha : a.Below m) (hb : b.Below n) (hfit : m + n ≤ 2 ^ 64) :
    (gfAddRaw a b).elt = a.elt + b.elt := by
  unfold Gf25519.elt value
  rw [gfAddRaw_limbs ha hb hfit]
  push_cast
  ring

theorem gfAddRaw_below (ha : a.Below m) (hb : b.Below n) (hfit : m + n ≤ 2 ^ 64) :
    (gfAddRaw a b).Below (m + n) := by
  rw [Gf25519.Below, gfAddRaw_limbs ha hb hfit]
  exact ⟨Nat.add_lt_add ha.l0 hb.l0, Nat.add_lt_add ha.l1 hb.l1, Nat.add_lt_add ha.l2 hb.l2,
    Nat.add_lt_add ha.l3 hb.l3, Nat.add_lt_add ha.l4 hb.l4⟩

theorem gfAdd_elt (ha : a.Below m) (hb : b.Below n) (hfit : m + n ≤ 2 ^ 64) :
    (gfAdd a b).elt = a.elt + b.elt := by
  rw [gfAdd, gfWeakReduce_elt, gfAddRaw_elt ha hb hfit]

theorem gfAdd_below (a b : Gf25519) : (gfAdd a b).Below reducedLimb := gfWeakReduce_below _

/-- A limb of a biased difference: the bias covers what is subtracted. -/
theorem biased_toNat {x y amt : UInt64} {k : ℕ} (hk : k ≤ 38) (hamt : amt.toNat ≤ 16)
    (hx : x.toNat < 2 ^ 63) (hy : y.toNat ≤ amt.toNat * (2 ^ 52 - 38)) :
    (x - y + ((amt <<< 52) - UInt64.ofNat k * amt)).toNat + y.toNat =
      x.toNat + amt.toNat * (2 ^ 52 - k) := by
  have hshift : (amt <<< 52).toNat = amt.toNat * 2 ^ 52 := by
    rw [UInt64.toNat_shiftLeft, show (52 : UInt64).toNat % 64 = 52 from rfl, Nat.shiftLeft_eq,
      Nat.mod_eq_of_lt (by omega)]
  have hsmall : (UInt64.ofNat k * amt).toNat = k * amt.toNat := by
    have hle : k * amt.toNat ≤ 38 * 16 := Nat.mul_le_mul hk hamt
    rw [UInt64.toNat_mul, UInt64.toNat_ofNat', Nat.mod_eq_of_lt (by omega : k < 2 ^ 64),
      Nat.mod_eq_of_lt (by omega)]
  have hbias : amt.toNat * (2 ^ 52 - k) + k * amt.toNat = amt.toNat * 2 ^ 52 := by
    rw [Nat.mul_comm k, ← Nat.mul_add, Nat.sub_add_cancel (by omega)]
  have hmost : amt.toNat * (2 ^ 52 - 38) ≤ amt.toNat * (2 ^ 52 - k) :=
    Nat.mul_le_mul_left _ (by omega)
  have hyword := y.toNat_lt
  rw [UInt64.toNat_add, UInt64.toNat_sub, UInt64.toNat_sub, hshift, hsmall]
  omega

/-- A difference with a bias is the difference, since the bias is a multiple of the modulus, and
every limb of it covers one that is subtracted. -/
theorem gfSubxNr_spec {amt : UInt64} (hamt : amt.toNat ≤ 16) (ha : a.Below m)
    (hfit : m ≤ 2 ^ 63) (hb : b.Below (amt.toNat * (2 ^ 52 - 38))) :
    (gfSubxNr a b amt).elt = a.elt - b.elt ∧
      (gfSubxNr a b amt).Below (m + amt.toNat * 2 ^ 52) := by
  rcases ha with ⟨ha0, ha1, ha2, ha3, ha4⟩
  rcases hb with ⟨hb0, hb1, hb2, hb3, hb4⟩
  have h0 := biased_toNat (k := 38) le_rfl hamt (ha0.trans_le hfit) hb0.le
  have h1 := biased_toNat (k := 2) (by decide) hamt (ha1.trans_le hfit) hb1.le
  have h2 := biased_toNat (k := 2) (by decide) hamt (ha2.trans_le hfit) hb2.le
  have h3 := biased_toNat (k := 2) (by decide) hamt (ha3.trans_le hfit) hb3.le
  have h4 := biased_toNat (k := 2) (by decide) hamt (ha4.trans_le hfit) hb4.le
  have hzero : ((2 ^ 52 - 38 : ℕ) : Field25519) + ((2 ^ 52 - 2 : ℕ) : Field25519) *
      (((2 ^ 51 : ℕ) : Field25519) + ((2 ^ 51 : ℕ) : Field25519) ^ 2 +
        ((2 ^ 51 : ℕ) : Field25519) ^ 3 + ((2 ^ 51 : ℕ) : Field25519) ^ 4) = 0 := by
    rw [← Nat.cast_pow, ← Nat.cast_pow, ← Nat.cast_pow, ← Nat.cast_add, ← Nat.cast_add,
      ← Nat.cast_add, ← Nat.cast_mul, ← Nat.cast_add, ZMod.natCast_eq_zero_iff]
    exact ⟨2, by decide⟩
  refine ⟨?_, ?_⟩
  · unfold Gf25519.elt value
    simp only [gfSubxNr, gfBias, gfSubRaw, Gf25519.limbs]
    have e0 := congrArg (Nat.cast (R := Field25519)) h0
    have e1 := congrArg (Nat.cast (R := Field25519)) h1
    have e2 := congrArg (Nat.cast (R := Field25519)) h2
    have e3 := congrArg (Nat.cast (R := Field25519)) h3
    have e4 := congrArg (Nat.cast (R := Field25519)) h4
    simp only [Nat.cast_add, Nat.cast_mul] at e0 e1 e2 e3 e4
    linear_combination e0 + ((2 ^ 51 : ℕ) : Field25519) * e1 +
      ((2 ^ 51 : ℕ) : Field25519) ^ 2 * e2 + ((2 ^ 51 : ℕ) : Field25519) ^ 3 * e3 +
      ((2 ^ 51 : ℕ) : Field25519) ^ 4 * e4 + (amt.toNat : Field25519) * hzero
  · have hbound : ∀ {x y z k : ℕ}, x + y = z + amt.toNat * (2 ^ 52 - k) → z < m →
        x < m + amt.toNat * 2 ^ 52 := by
      intro x y z k heq hlt
      have hle : amt.toNat * (2 ^ 52 - k) ≤ amt.toNat * 2 ^ 52 :=
        Nat.mul_le_mul_left _ (Nat.sub_le _ _)
      omega
    exact ⟨hbound h0 ha0, hbound h1 ha1, hbound h2 ha2, hbound h3 ha3, hbound h4 ha4⟩

theorem gfSub_elt (ha : a.Below m) (hfit : m ≤ 2 ^ 63) (hb : b.Below (2 * (2 ^ 52 - 38))) :
    (gfSub a b).elt = a.elt - b.elt := by
  rw [gfSub, gfWeakReduce_elt]
  exact (gfSubxNr_spec (show (2 : UInt64).toNat ≤ 16 by decide) ha hfit hb).1

theorem gfSub_below (a b : Gf25519) : (gfSub a b).Below reducedLimb := gfWeakReduce_below _

end Sums

section WideWords

theorem widemul_toNat (a b : UInt64) : (widemul a b).toNat = a.toNat * b.toNat := by
  have hlt : a.toNat * b.toNat < 2 ^ 64 * 2 ^ 64 :=
    Nat.mul_lt_mul'' a.toNat_lt b.toNat_lt
  rw [widemul, BitVec.toNat_ofNat, Nat.mod_eq_of_lt (hlt.trans_eq (by norm_num))]

theorem widen_toNat (x : UInt64) : (widen x).toNat = x.toNat := by
  rw [widen, BitVec.toNat_ofNat, Nat.mod_eq_of_lt (x.toNat_lt.trans (by norm_num))]

theorem maskLimb_toNat (x : BitVec 128) : (maskLimb x).toNat = x.toNat % 2 ^ 51 := by
  rw [maskLimb, limbMask_and, UInt64.toNat_ofNat']
  exact Nat.mod_mod_of_dvd _ ⟨2 ^ 13, by norm_num⟩

theorem shrld_toNat {x : BitVec 128} (hx : x.toNat < 2 ^ 115) :
    (shrld x 51).toNat = x.toNat / 2 ^ 51 := by
  rw [shrld, UInt64.toNat_ofNat', Nat.shiftRight_eq_div_pow, Nat.mod_eq_of_lt (by omega)]

theorem wide_add_toNat {x y : BitVec 128} (hfit : x.toNat + y.toNat < 2 ^ 128) :
    (x + y).toNat = x.toNat + y.toNat := by
  rw [BitVec.toNat_add, Nat.mod_eq_of_lt hfit]

theorem scaled_toNat {x k : UInt64} (hfit : x.toNat * k.toNat < 2 ^ 64) :
    (x * k).toNat = x.toNat * k.toNat := by
  rw [UInt64.toNat_mul, Nat.mod_eq_of_lt hfit]

/-- The products of pairs of words, added up. -/
def pairSum (l : List (UInt64 × UInt64)) : ℕ := (l.map fun p => p.1.toNat * p.2.toNat).sum

/-- An accumulator holds the sum of the products, if the sum fits. -/
theorem macs_toNat (l : List (UInt64 × UInt64)) {acc : BitVec 128}
    (hfit : acc.toNat + pairSum l < 2 ^ 128) :
    (l.foldl (fun acc p => mac acc p.1 p.2) acc).toNat = acc.toNat + pairSum l := by
  induction l generalizing acc with
  | nil => rfl
  | cons p l ih =>
      have hsum : pairSum (p :: l) = p.1.toNat * p.2.toNat + pairSum l := rfl
      have hmac : (mac acc p.1 p.2).toNat = acc.toNat + p.1.toNat * p.2.toNat := by
        rw [mac, wide_add_toNat (by rw [widemul_toNat]; omega), widemul_toNat]
      rw [List.foldl_cons, ih (by rw [hmac]; omega), hmac, hsum, Nat.add_assoc]

end WideWords

section Products

variable {a b : Gf25519} {m n : ℕ}

/-- The carry chain keeps the number and reduces the limbs, for sums that a product of limbs can
have. -/
theorem carried_spec {s : Limbs} {accum0 accum1 accum2 accum3 accum4 : BitVec 128}
    (h0 : accum0.toNat = s.l0) (h1 : accum1.toNat = s.l1 + accum0.toNat / 2 ^ 51)
    (h2 : accum2.toNat = s.l2 + accum1.toNat / 2 ^ 51)
    (h3 : accum3.toNat = s.l3 + accum2.toNat / 2 ^ 51)
    (h4 : accum4.toNat = s.l4 + accum3.toNat / 2 ^ 51)
    (hlast : accum4.toNat < 406 * 2 ^ 102) :
    let accum := widen (shrld accum4 51 * 19 + maskLimb accum0)
    let c : Gf25519 := ⟨maskLimb accum, maskLimb accum1 + shrld accum 51, maskLimb accum2,
      maskLimb accum3, maskLimb accum4⟩
    c.elt = value ((2 ^ 51 : ℕ) : Field25519) s ∧ c.Below reducedLimb := by
  have hshift : (shrld accum4 51).toNat = accum4.toNat / 2 ^ 51 :=
    shrld_toNat (hlast.trans (by norm_num))
  have hmask := maskLimb_toNat accum0
  -- what goes around still fits in a word
  have hround : (shrld accum4 51 * 19 + maskLimb accum0).toNat =
      accum4.toNat / 2 ^ 51 * 19 + accum0.toNat % 2 ^ 51 := by
    have hnineteen : (19 : UInt64).toNat = 19 := rfl
    rw [UInt64.toNat_add, UInt64.toNat_mul, hshift, hmask, hnineteen]
    omega
  generalize shrld accum4 51 * 19 + maskLimb accum0 = u at hround ⊢
  have hword := u.toNat_lt
  have hup : (shrld (widen u) 51).toNat = u.toNat / 2 ^ 51 := by
    rw [shrld_toNat (by rw [widen_toNat]; omega), widen_toNat]
  refine ⟨?_, ?_⟩
  · refine (congrArg (value _) ?_).trans (value_carry limbBase_pow s)
    unfold Limbs.carry Gf25519.limbs
    simp only [maskLimb_toNat, UInt64.toNat_add, hup, widen_toNat, Limbs.mk.injEq]
    rw [← h0, ← h1, ← h2, ← h3, ← h4, ← hround]
    omega
  · have hcarry : u.toNat / 2 ^ 51 < 2 ^ 13 := by omega
    have hmod : ∀ n : ℕ, n % 2 ^ 51 < 2 ^ 51 := fun n => Nat.mod_lt _ (by norm_num)
    have hroom : (2 : ℕ) ^ 51 ≤ 2 ^ 51 + 2 ^ 18 := Nat.le_add_right _ _
    unfold Gf25519.Below Gf25519.limbs reducedLimb
    simp only [maskLimb_toNat, UInt64.toNat_add, hup, widen_toNat]
    refine ⟨(hmod _).trans_le hroom, (Nat.mod_le _ _).trans_lt ?_, (hmod _).trans_le hroom,
      (hmod _).trans_le hroom, (hmod _).trans_le hroom⟩
    have hlow := hmod accum1.toNat
    omega

/-- Adding the carry of one accumulator to the next. -/
theorem add_carry_toNat {x y : BitVec 128} (hx : x.toNat < 2 ^ 127) (hy : y.toNat < 2 ^ 115) :
    (x + widen (shrld y 51)).toNat = x.toNat + y.toNat / 2 ^ 51 := by
  have hshift := shrld_toNat hy
  rw [wide_add_toNat (by rw [widen_toNat, hshift]; omega), widen_toNat, hshift]

/-- A limb that is scaled by nineteen still fits in a word. -/
theorem Gf25519.Below.scaled {x : Gf25519} (hx : x.Below m) (hm : 19 * m ≤ 2 ^ 64) :
    (x.limb1 * 19).toNat = x.limb1.toNat * 19 ∧ (x.limb2 * 19).toNat = x.limb2.toNat * 19 ∧
      (x.limb3 * 19).toNat = x.limb3.toNat * 19 ∧ (x.limb4 * 19).toNat = x.limb4.toNat * 19 := by
  have hfits : ∀ {y : UInt64}, y.toNat < m → (y * 19).toNat = y.toNat * 19 := fun hy =>
    scaled_toNat (by rw [show (19 : UInt64).toNat = 19 from rfl]; omega)
  exact ⟨hfits hx.l1, hfits hx.l2, hfits hx.l3, hfits hx.l4⟩

/-- Every accumulator of a product holds a limb of the product, and the rest is the carry
chain. -/
theorem gfMul_spec (ha : a.Below m) (hb : b.Below n) (hm : 19 * m ≤ 2 ^ 64)
    (hmn : m * n ≤ 81 * 2 ^ 102) :
    (gfMul a b).elt = a.elt * b.elt ∧ (gfMul a b).Below reducedLimb := by
  rw [Gf25519.elt, Gf25519.elt, Gf25519.elt, ← value_product limbBase_pow]
  obtain ⟨hl0, hl1, hl2, hl3, hl4⟩ := product_bounds (c := 19) ha hb
  obtain ⟨hs1, hs2, hs3, hs4⟩ := ha.scaled hm
  generalize hs : a.limbs.product 19 b.limbs = s at hl0 hl1 hl2 hl3 hl4 ⊢
  -- the sum that each accumulator is given
  have hp0 : (widemul a.limb0 b.limb0).toNat + pairSum [(a.limb1 * 19, b.limb4),
      (a.limb2 * 19, b.limb3), (a.limb3 * 19, b.limb2), (a.limb4 * 19, b.limb1)] = s.l0 := by
    simp only [← hs, pairSum, List.map_cons, List.map_nil, List.sum_cons, List.sum_nil,
      widemul_toNat, hs1, hs2, hs3, hs4, Limbs.product, Gf25519.limbs]
    ring
  have hp1 : (widemul a.limb0 b.limb1).toNat + pairSum [(a.limb1, b.limb0),
      (a.limb2 * 19, b.limb4), (a.limb3 * 19, b.limb3), (a.limb4 * 19, b.limb2)] = s.l1 := by
    simp only [← hs, pairSum, List.map_cons, List.map_nil, List.sum_cons, List.sum_nil,
      widemul_toNat, hs2, hs3, hs4, Limbs.product, Gf25519.limbs]
    ring
  have hp2 : (widemul a.limb0 b.limb2).toNat + pairSum [(a.limb1, b.limb1), (a.limb2, b.limb0),
      (a.limb3 * 19, b.limb4), (a.limb4 * 19, b.limb3)] = s.l2 := by
    simp only [← hs, pairSum, List.map_cons, List.map_nil, List.sum_cons, List.sum_nil,
      widemul_toNat, hs3, hs4, Limbs.product, Gf25519.limbs]
    ring
  have hp3 : pairSum [(a.limb4 * 19, b.limb4), (a.limb0, b.limb3), (a.limb1, b.limb2),
      (a.limb2, b.limb1), (a.limb3, b.limb0)] = s.l3 := by
    simp only [← hs, pairSum, List.map_cons, List.map_nil, List.sum_cons, List.sum_nil, hs4,
      Limbs.product, Gf25519.limbs]
    ring
  have hp4 : (widemul a.limb0 b.limb4).toNat + pairSum [(a.limb1, b.limb3), (a.limb2, b.limb2),
      (a.limb3, b.limb1), (a.limb4, b.limb0)] = s.l4 := by
    simp only [← hs, pairSum, List.map_cons, List.map_nil, List.sum_cons, List.sum_nil,
      widemul_toNat, Limbs.product, Gf25519.limbs]
    ring
  have h0 := (macs_toNat _ (by omega)).trans hp0
  have h1 := (macs_toNat _ (by omega)).trans hp1
  have h2 := (macs_toNat _ (by omega)).trans hp2
  have h4 := (macs_toNat _ (by omega)).trans hp4
  have t1 := add_carry_toNat (h1.trans_lt (by omega)) (h0.trans_lt (by omega))
  rw [h1] at t1
  have t2 := add_carry_toNat (h2.trans_lt (by omega)) (t1.trans_lt (by omega))
  rw [h2] at t2
  have hup : ∀ {x : BitVec 128}, x.toNat < 2 ^ 115 →
      (widen (shrld x 51)).toNat = x.toNat / 2 ^ 51 := fun hx => by
    rw [widen_toNat, shrld_toNat hx]
  have h3 := (macs_toNat _ (by rw [hup (t2.trans_lt (by omega)), hp3]; omega)).trans
    (congrArg₂ (· + ·) (hup (t2.trans_lt (by omega))) hp3)
  have t4 := add_carry_toNat (h4.trans_lt (by omega)) (h3.trans_lt (by omega))
  rw [h4] at t4
  exact carried_spec h0 t1 t2 (h3.trans (Nat.add_comm _ _)) t4 (t4.trans_lt (by omega))

/-- Squaring doubles the terms that a product of limbs has twice. -/
theorem gfSqr_spec (ha : a.Below m) (hm : 38 * m ≤ 2 ^ 64) (hmm : m * m ≤ 81 * 2 ^ 102) :
    (gfSqr a).elt = a.elt * a.elt ∧ (gfSqr a).Below reducedLimb := by
  rw [Gf25519.elt, Gf25519.elt, ← value_product limbBase_pow]
  obtain ⟨hl0, hl1, hl2, hl3, hl4⟩ := product_bounds (c := 19) ha ha
  have hfits : ∀ {y k : UInt64}, y.toNat < m → k.toNat ≤ 38 →
      (y * k).toNat = y.toNat * k.toNat := fun {y k} hy hk => by
    have hle := Nat.mul_le_mul_left y.toNat hk
    exact scaled_toNat (by omega)
  have h0x2 : (a.limb0 * 2).toNat = a.limb0.toNat * 2 := hfits ha.l0 (by decide)
  have h1x2 : (a.limb1 * 2).toNat = a.limb1.toNat * 2 := hfits ha.l1 (by decide)
  have h1x38 : (a.limb1 * 38).toNat = a.limb1.toNat * 38 := hfits ha.l1 (by decide)
  have h2x38 : (a.limb2 * 38).toNat = a.limb2.toNat * 38 := hfits ha.l2 (by decide)
  have h3x19 : (a.limb3 * 19).toNat = a.limb3.toNat * 19 := hfits ha.l3 (by decide)
  have h4x19 : (a.limb4 * 19).toNat = a.limb4.toNat * 19 := hfits ha.l4 (by decide)
  have h3x38 : (a.limb3 * 19 * 2).toNat = a.limb3.toNat * 38 := by
    have hlimb : a.limb3.toNat < m := ha.l3
    have htwo : (2 : UInt64).toNat = 2 := rfl
    rw [scaled_toNat (by rw [h3x19, htwo]; omega), h3x19, htwo, Nat.mul_assoc]
  generalize hs : a.limbs.product 19 a.limbs = s at hl0 hl1 hl2 hl3 hl4 ⊢
  -- the sum that each accumulator is given
  have hp0 : (widemul a.limb0 a.limb0).toNat + pairSum [(a.limb1 * 38, a.limb4),
      (a.limb2 * 38, a.limb3)] = s.l0 := by
    simp only [← hs, pairSum, List.map_cons, List.map_nil, List.sum_cons, List.sum_nil,
      widemul_toNat, h1x38, h2x38, Limbs.product, Gf25519.limbs]
    ring
  have hp1 : (widemul (a.limb0 * 2) a.limb1).toNat + pairSum [(a.limb2 * 38, a.limb4),
      (a.limb3 * 19, a.limb3)] = s.l1 := by
    simp only [← hs, pairSum, List.map_cons, List.map_nil, List.sum_cons, List.sum_nil,
      widemul_toNat, h0x2, h2x38, h3x19, Limbs.product, Gf25519.limbs]
    ring
  have hp2 : (widemul (a.limb0 * 2) a.limb2).toNat + pairSum [(a.limb1, a.limb1),
      (a.limb3 * 19 * 2, a.limb4)] = s.l2 := by
    simp only [← hs, pairSum, List.map_cons, List.map_nil, List.sum_cons, List.sum_nil,
      widemul_toNat, h0x2, h3x38, Limbs.product, Gf25519.limbs]
    ring
  have hp3 : pairSum [(a.limb0 * 2, a.limb3), (a.limb1 * 2, a.limb2),
      (a.limb4 * 19, a.limb4)] = s.l3 := by
    simp only [← hs, pairSum, List.map_cons, List.map_nil, List.sum_cons, List.sum_nil, h0x2, h1x2,
      h4x19, Limbs.product, Gf25519.limbs]
    ring
  have hp4 : (widemul (a.limb0 * 2) a.limb4).toNat + pairSum [(a.limb1 * 2, a.limb3),
      (a.limb2, a.limb2)] = s.l4 := by
    simp only [← hs, pairSum, List.map_cons, List.map_nil, List.sum_cons, List.sum_nil,
      widemul_toNat, h0x2, h1x2, Limbs.product, Gf25519.limbs]
    ring
  have h0 := (macs_toNat _ (by omega)).trans hp0
  have h1 := (macs_toNat _ (by omega)).trans hp1
  have h2 := (macs_toNat _ (by omega)).trans hp2
  have h4 := (macs_toNat _ (by omega)).trans hp4
  have t1 := add_carry_toNat (h1.trans_lt (by omega)) (h0.trans_lt (by omega))
  rw [h1] at t1
  have t2 := add_carry_toNat (h2.trans_lt (by omega)) (t1.trans_lt (by omega))
  rw [h2] at t2
  have hup : ∀ {x : BitVec 128}, (x >>> 51).toNat = x.toNat / 2 ^ 51 := fun {x} => by
    rw [BitVec.toNat_ushiftRight, Nat.shiftRight_eq_div_pow]
  have h3 := (macs_toNat _ (by rw [hup, t2, hp3]; omega)).trans (congrArg₂ (· + ·) hup hp3)
  have t4 := add_carry_toNat (h4.trans_lt (by omega)) (h3.trans_lt (by omega))
  rw [h4] at t4
  exact carried_spec h0 t1 t2 (h3.trans (Nat.add_comm _ _)) t4 (t4.trans_lt (by omega))

/-- A product by a small word needs no bound on the limbs. -/
theorem gfMulwUnsigned_spec (a : Gf25519) (b : UInt32) :
    (gfMulwUnsigned a b).elt = b.toNat * a.elt ∧ (gfMulwUnsigned a b).Below reducedLimb := by
  have hterm : ∀ x : UInt64, (widemul b.toUInt64 x).toNat = b.toNat * x.toNat ∧
      b.toNat * x.toNat < 2 ^ 96 := fun x => by
    refine ⟨by rw [widemul_toNat, UInt32.toNat_toUInt64], ?_⟩
    exact (Nat.mul_lt_mul'' b.toNat_lt x.toNat_lt).trans_eq (by norm_num)
  have hup : ∀ {x : BitVec 128}, x.toNat < 2 ^ 97 →
      (widen (shrld x 51)).toNat = x.toNat / 2 ^ 51 := fun hx => by
    rw [widen_toNat, shrld_toNat (hx.trans (by norm_num))]
  have hmac : ∀ {x : BitVec 128} (y : UInt64), x.toNat < 2 ^ 97 →
      (mac (widen (shrld x 51)) b.toUInt64 y).toNat = b.toNat * y.toNat + x.toNat / 2 ^ 51 :=
    fun {x} y hx => by
      have hy := hterm y
      rw [mac, wide_add_toNat (by rw [hup hx, hy.1]; omega), hup hx, hy.1, Nat.add_comm]
  have hsmall : ∀ {x y : ℕ}, x < 2 ^ 97 → y < 2 ^ 96 → y + x / 2 ^ 51 < 2 ^ 97 :=
    fun hx hy => by omega
  have h0 : (widemul b.toUInt64 a.limb0).toNat < 2 ^ 97 := by
    rw [(hterm _).1]
    exact (hterm _).2.trans (by norm_num)
  have h1 := hmac a.limb1 h0
  have l1 := h1.trans_lt (hsmall h0 (hterm _).2)
  have h2 := hmac a.limb2 l1
  have l2 := h2.trans_lt (hsmall l1 (hterm _).2)
  have h3 := hmac a.limb3 l2
  have l3 := h3.trans_lt (hsmall l2 (hterm _).2)
  have h4 := hmac a.limb4 l3
  have l4 := h4.trans_lt (hsmall l3 (hterm _).2)
  -- what is masked and shifted at the end is a word, not a wide one
  have hmask : ∀ u : UInt64, maskLimb (widen u) = u &&& limbMask := fun u => by
    rw [← UInt64.toNat_inj, maskLimb_toNat, widen_toNat, limbMask_and]
  have hshift : ∀ u : UInt64, shrld (widen u) 51 = u >>> 51 := fun u => by
    have hu := u.toNat_lt
    rw [← UInt64.toNat_inj, shrld_toNat (by rw [widen_toNat]; omega), widen_toNat,
      shiftRight_limb]
  have hspec := carried_spec (s := ⟨b.toNat * a.limb0.toNat, b.toNat * a.limb1.toNat,
    b.toNat * a.limb2.toNat, b.toNat * a.limb3.toNat, b.toNat * a.limb4.toNat⟩)
    (hterm _).1 h1 h2 h3 h4 (l4.trans (by norm_num))
  simp only [hmask, hshift] at hspec
  refine ⟨hspec.1.trans ?_, hspec.2⟩
  unfold Gf25519.elt value Gf25519.limbs
  push_cast
  ring

/-- A product by a signed word. -/
theorem gfMulw_spec (a : Gf25519) {w : ℤ} (hw : w.natAbs < 2 ^ 32) :
    (gfMulw a w).elt = w * a.elt ∧ (gfMulw a w).Below reducedLimb := by
  have hzero : gfZero.elt = 0 := by
    unfold Gf25519.elt value Gf25519.limbs gfZero
    simp
  unfold gfMulw
  by_cases hpos : w > 0
  · rw [if_pos hpos]
    have hspec := gfMulwUnsigned_spec a (UInt32.ofNat w.toNat)
    have hnat : (UInt32.ofNat w.toNat).toNat = w.toNat := by
      rw [UInt32.toNat_ofNat', Nat.mod_eq_of_lt (by omega)]
    have hcast : ((w.toNat : ℕ) : Field25519) = (w : Field25519) := by
      exact_mod_cast congrArg (Int.cast (R := Field25519)) (Int.toNat_of_nonneg hpos.le)
    rw [hnat, hcast] at hspec
    exact hspec
  · rw [if_neg hpos]
    have hspec := gfMulwUnsigned_spec a (UInt32.ofNat (-w).toNat)
    have hnat : (UInt32.ofNat (-w).toNat).toNat = (-w).toNat := by
      rw [UInt32.toNat_ofNat', Nat.mod_eq_of_lt (by omega)]
    have hcast : (((-w).toNat : ℕ) : Field25519) = -(w : Field25519) := by
      have hint := congrArg (Int.cast (R := Field25519)) (Int.toNat_of_nonneg (by omega : 0 ≤ -w))
      rw [Int.cast_neg] at hint
      exact_mod_cast hint
    rw [hnat, hcast] at hspec
    refine ⟨?_, gfSub_below _ _⟩
    have hbelow : gfZero.Below 1 := ⟨by decide, by decide, by decide, by decide, by decide⟩
    rw [gfSub_elt hbelow (by norm_num) (hspec.2.mono (by decide)), hzero, hspec.1]
    ring

/-- Products of limbs up to nine times the base are exact: nothing that is added up overflows, the
result is the product in the field, and its limbs are reduced. -/
theorem gfProducts_exact (ha : a.Below (9 * 2 ^ 51)) (hb : b.Below (9 * 2 ^ 51)) {w : ℤ}
    (hw : w.natAbs < 2 ^ 32) :
    ((gfMul a b).elt = a.elt * b.elt ∧ (gfMul a b).Below reducedLimb) ∧
      ((gfSqr a).elt = a.elt * a.elt ∧ (gfSqr a).Below reducedLimb) ∧
      (gfMulw a w).elt = w * a.elt ∧ (gfMulw a w).Below reducedLimb :=
  ⟨gfMul_spec ha hb (by decide) (by decide), gfSqr_spec ha (by decide) (by decide),
    gfMulw_spec a hw⟩

/-- The largest limbs that are allowed. -/
def widestLimbs : Gf25519 :=
  ⟨0x47ffffffffffff, 0x47ffffffffffff, 0x47ffffffffffff, 0x47ffffffffffff, 0x47ffffffffffff⟩

theorem widestLimbs_below : widestLimbs.Below (9 * 2 ^ 51) :=
  ⟨by decide, by decide, by decide, by decide, by decide⟩

theorem gfProducts_exact_widest :
    ((gfMul widestLimbs widestLimbs).elt = widestLimbs.elt * widestLimbs.elt ∧
      (gfMul widestLimbs widestLimbs).Below reducedLimb) ∧
      ((gfSqr widestLimbs).elt = widestLimbs.elt * widestLimbs.elt ∧
        (gfSqr widestLimbs).Below reducedLimb) ∧
      (gfMulw widestLimbs (-121665)).elt = (-121665 : ℤ) * widestLimbs.elt ∧
      (gfMulw widestLimbs (-121665)).Below reducedLimb :=
  gfProducts_exact widestLimbs_below widestLimbs_below (by decide)

end Products

end Ebut
