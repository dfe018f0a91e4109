import Ebut.Core.Scalar
import Ebut.Library.FiveLimbs

/-!
# The Field of the Vendored Library

The field arithmetic of the vendored C library that encodes chunks as points, for the 64-bit
architecture. An element of the field modulo `2^255 - 19` has five limbs of 51 bits in words of
64 bits, so that sums and differences need not be reduced at once. Words wrap; the products are
added up in words of 128 bits, which wrap too.

The limbs of an element need not be canonical, and `gfStrongReduce` makes them so. Its two
loops compute with signed words of 128 bits on numbers far below their range, which are integers
here. The two assertions in it are `gfStrongReduceAsserts`.

A mask is a word of ones or of zeros in the source, here a `Bool`.

## Main definitions

* `Gf25519`: The limbs.
* `gfAddRaw`, `gfSubRaw`, `gfBias`, `gfWeakReduce`: What is computed limb by limb.
* `gfMul`, `gfSqr`, `gfMulwUnsigned`: Products.
* `gfStrongReduce`: The canonical limbs.
* `gfSerialize`, `gfDeserialize`: The wire format.
* `gfIsr`, `gfInvert`: The inverse square root and the inverse.
-/

namespace Ebut

/-- The order of the field. -/
def fieldOrder : ℕ := 2 ^ 255 - 19

/-- `gf_25519_t`. -/
structure Gf25519 where
  limb0 : UInt64
  limb1 : UInt64
  limb2 : UInt64
  limb3 : UInt64
  limb4 : UInt64
  deriving DecidableEq, Repr

/-- `(1ull << 51) - 1`. -/
def limbMask : UInt64 := 0x7ffffffffffff

def gfModulus : Gf25519 :=
  ⟨0x7ffffffffffed, 0x7ffffffffffff, 0x7ffffffffffff, 0x7ffffffffffff, 0x7ffffffffffff⟩

def sqrtMinusOne : Gf25519 :=
  ⟨0x61b274a0ea0b0, 0x0d5a5fc8f189d, 0x7ef5e9cbd0c60, 0x78595a6804c9e, 0x2b8324804fc1d⟩

def gfZero : Gf25519 := ⟨0, 0, 0, 0, 0⟩

def gfOne : Gf25519 := ⟨1, 0, 0, 0, 0⟩

section Limbs

/-- `gf_add_RAW`. -/
def gfAddRaw (a b : Gf25519) : Gf25519 :=
  ⟨a.limb0 + b.limb0, a.limb1 + b.limb1, a.limb2 + b.limb2, a.limb3 + b.limb3, a.limb4 + b.limb4⟩

/-- `gf_sub_RAW`. -/
def gfSubRaw (a b : Gf25519) : Gf25519 :=
  ⟨a.limb0 - b.limb0, a.limb1 - b.limb1, a.limb2 - b.limb2, a.limb3 - b.limb3, a.limb4 - b.limb4⟩

/-- `gf_bias`. -/
def gfBias (a : Gf25519) (amt : UInt64) : Gf25519 :=
  let low := (amt <<< 52) - 38 * amt
  let high := (amt <<< 52) - 2 * amt
  ⟨a.limb0 + low, a.limb1 + high, a.limb2 + high, a.limb3 + high, a.limb4 + high⟩

/-- `gf_weak_reduce`. -/
def gfWeakReduce (a : Gf25519) : Gf25519 where
  limb4 := (a.limb4 &&& limbMask) + (a.limb3 >>> 51)
  limb3 := (a.limb3 &&& limbMask) + (a.limb2 >>> 51)
  limb2 := (a.limb2 &&& limbMask) + (a.limb1 >>> 51)
  limb1 := (a.limb1 &&& limbMask) + (a.limb0 >>> 51)
  limb0 := (a.limb0 &&& limbMask) + (a.limb4 >>> 51) * 19

/-- `gf_add`. -/
def gfAdd (a b : Gf25519) : Gf25519 := gfWeakReduce (gfAddRaw a b)

/-- `gf_sub`. -/
def gfSub (a b : Gf25519) : Gf25519 := gfWeakReduce (gfBias (gfSubRaw a b) 2)

/-- `gf_sub_nr`. The reduction is left out on this architecture, which has the headroom. -/
def gfSubNr (a b : Gf25519) : Gf25519 := gfBias (gfSubRaw a b) 2

/-- `gf_subx_nr`. -/
def gfSubxNr (a b : Gf25519) (amt : UInt64) : Gf25519 := gfBias (gfSubRaw a b) amt

/-- `gf_cond_sel`. -/
def gfCondSel (y z : Gf25519) (isZ : Bool) : Gf25519 := if isZ then z else y

/-- `gf_cond_neg`. -/
def gfCondNeg (x : Gf25519) (neg : Bool) : Gf25519 := gfCondSel x (gfSub gfZero x) neg

/-- `gf_cond_swap`. -/
def gfCondSwap (x y : Gf25519) (swap : Bool) : Gf25519 × Gf25519 := if swap then (y, x) else (x, y)

end Limbs

section Products

/-- `widemul_rm` and `widemul_rr`: the product of two words. -/
def widemul (a b : UInt64) : BitVec 128 := BitVec.ofNat 128 (a.toNat * b.toNat)

/-- `mac_rm` and `mac_rr`. -/
def mac (acc : BitVec 128) (a b : UInt64) : BitVec 128 := acc + widemul a b

/-- `shrld`: the low word of a shift. -/
def shrld (x : BitVec 128) (n : ℕ) : UInt64 := UInt64.ofNat (x.toNat >>> n)

/-- A wide word masked to the width of a limb. -/
def maskLimb (x : BitVec 128) : UInt64 := UInt64.ofNat x.toNat &&& limbMask

/-- A word as a wide one. -/
def widen (x : UInt64) : BitVec 128 := BitVec.ofNat 128 x.toNat

/-- `gf_mul`. -/
def gfMul (a b : Gf25519) : Gf25519 :=
  let ai := a.limb0
  let accum0 := widemul ai b.limb0
  let accum1 := widemul ai b.limb1
  let accum2 := widemul ai b.limb2
  let ai := a.limb1
  let accum2 := mac accum2 ai b.limb1
  let accum1 := mac accum1 ai b.limb0
  let ai := ai * 19
  let accum0 := mac accum0 ai b.limb4
  let ai := a.limb2
  let accum2 := mac accum2 ai b.limb0
  let ai := ai * 19
  let accum0 := mac accum0 ai b.limb3
  let accum1 := mac accum1 ai b.limb4
  let ai := a.limb3 * 19
  let accum0 := mac accum0 ai b.limb2
  let accum1 := mac accum1 ai b.limb3
  let accum2 := mac accum2 ai b.limb4
  let ai := a.limb4 * 19
  let accum0 := mac accum0 ai b.limb1
  let accum1 := mac accum1 ai b.limb2
  let accum2 := mac accum2 ai b.limb3
  let c0 := maskLimb accum0
  let accum1 := accum1 + widen (shrld accum0 51)
  let c1 := maskLimb accum1
  let accum2 := accum2 + widen (shrld accum1 51)
  let c2 := maskLimb accum2
  let accum0 := widen (shrld accum2 51)
  -- the factor is still the scaled top limb
  let accum0 := mac accum0 ai b.limb4
  let ai := a.limb0
  let accum0 := mac accum0 ai b.limb3
  let accum1 := widemul ai b.limb4
  let ai := a.limb1
  let accum0 := mac accum0 ai b.limb2
  let accum1 := mac accum1 ai b.limb3
  let ai := a.limb2
  let accum0 := mac accum0 ai b.limb1
  let accum1 := mac accum1 ai b.limb2
  let ai := a.limb3
  let accum0 := mac accum0 ai b.limb0
  let accum1 := mac accum1 ai b.limb1
  let ai := a.limb4
  let accum1 := mac accum1 ai b.limb0
  let c3 := maskLimb accum0
  let accum1 := accum1 + widen (shrld accum0 51)
  let c4 := maskLimb accum1
  let a1 := shrld accum1 51
  let accum1 := widen (a1 * 19 + c0)
  ⟨maskLimb accum1, c1 + shrld accum1 51, c2, c3, c4⟩

/-- `gf_sqr`. -/
def gfSqr (a : Gf25519) : Gf25519 :=
  let ai := a.limb0
  let accum0 := widemul ai ai
  let ai := ai * 2
  let accum1 := widemul ai a.limb1
  let accum2 := widemul ai a.limb2
  let ai := a.limb1
  let accum2 := mac accum2 ai ai
  let ai := ai * 38
  let accum0 := mac accum0 ai a.limb4
  let ai := a.limb2 * 38
  let accum0 := mac accum0 ai a.limb3
  let accum1 := mac accum1 ai a.limb4
  let ai := a.limb3 * 19
  let accum1 := mac accum1 ai a.limb3
  let ai := ai * 2
  let accum2 := mac accum2 ai a.limb4
  let c0 := maskLimb accum0
  let accum1 := accum1 + widen (shrld accum0 51)
  let c1 := maskLimb accum1
  let accum2 := accum2 + widen (shrld accum1 51)
  let c2 := maskLimb accum2
  let accum0 := accum2 >>> 51
  let ai := a.limb0 * 2
  let accum0 := mac accum0 ai a.limb3
  let accum1 := widemul ai a.limb4
  let ai := a.limb1 * 2
  let accum0 := mac accum0 ai a.limb2
  let accum1 := mac accum1 ai a.limb3
  let accum0 := mac accum0 (a.limb4 * 19) a.limb4
  let accum1 := mac accum1 a.limb2 a.limb2
  let c3 := maskLimb accum0
  let accum1 := accum1 + widen (shrld accum0 51)
  let c4 := maskLimb accum1
  let a1 := shrld accum1 51
  let accum1 := widen (a1 * 19 + c0)
  ⟨maskLimb accum1, c1 + shrld accum1 51, c2, c3, c4⟩

/-- `gf_mulw_unsigned`. -/
def gfMulwUnsigned (a : Gf25519) (b : UInt32) : Gf25519 :=
  let b := b.toUInt64
  let accum := widemul b a.limb0
  let c0 := maskLimb accum
  let accum := mac (widen (shrld accum 51)) b a.limb1
  let c1 := maskLimb accum
  let accum := mac (widen (shrld accum 51)) b a.limb2
  let c2 := maskLimb accum
  let accum := mac (widen (shrld accum 51)) b a.limb3
  let c3 := maskLimb accum
  let accum := mac (widen (shrld accum 51)) b a.limb4
  let c4 := maskLimb accum
  let a1 := shrld accum 51 * 19 + c0
  ⟨a1 &&& limbMask, c1 + (a1 >>> 51), c2, c3, c4⟩

/-- `gf_mulw`, by a signed word. -/
def gfMulw (a : Gf25519) (w : ℤ) : Gf25519 :=
  if w > 0 then gfMulwUnsigned a (UInt32.ofNat w.toNat)
  else gfSub gfZero (gfMulwUnsigned a (UInt32.ofNat (-w).toNat))

/-- Two turns of the loop of `gf_sqrn`. -/
def gfSqrTwice (x : Gf25519) : Gf25519 := gfSqr (gfSqr x)

/-- `gf_sqrn`: an odd number of squarings starts with one of them. -/
def gfSqrn (x : Gf25519) (n : ℕ) : Gf25519 :=
  if n % 2 = 1 then Nat.iterate gfSqrTwice ((n - 1) / 2) (gfSqr x)
  else Nat.iterate gfSqrTwice ((n - 2) / 2) (gfSqrTwice x)

/-- `gf_mul_qnr` and `gf_mul_i`. -/
def gfMulI (x : Gf25519) : Gf25519 := gfMul x sqrtMinusOne

end Products

section Canonical

/-- The first loop of `gf_strong_reduce`: the digits of the difference with the modulus, and what
is left above them. -/
def strongReduceBorrow (a : Gf25519) : (ℤ × ℤ × ℤ × ℤ × ℤ) × ℤ :=
  FiveLimbs.borrow (2 ^ 51) (a.limb0.toNat - gfModulus.limb0.toNat)
    (a.limb1.toNat - gfModulus.limb1.toNat) (a.limb2.toNat - gfModulus.limb2.toNat)
    (a.limb3.toNat - gfModulus.limb3.toNat) (a.limb4.toNat - gfModulus.limb4.toNat)

/-- The second loop: the modulus is added back under the mask that the first loop left. -/
def strongReduceCarry (e : (ℤ × ℤ × ℤ × ℤ × ℤ) × ℤ) : (ℤ × ℤ × ℤ × ℤ × ℤ) × ℤ :=
  let scarry0 := UInt64.ofInt e.2
  FiveLimbs.borrow (2 ^ 51) (e.1.1 + (scarry0 &&& gfModulus.limb0).toNat)
    (e.1.2.1 + (scarry0 &&& gfModulus.limb1).toNat)
    (e.1.2.2.1 + (scarry0 &&& gfModulus.limb2).toNat)
    (e.1.2.2.2.1 + (scarry0 &&& gfModulus.limb3).toNat)
    (e.1.2.2.2.2 + (scarry0 &&& gfModulus.limb4).toNat)

/-- `gf_strong_reduce`. -/
def gfStrongReduce (a : Gf25519) : Gf25519 :=
  let e := (strongReduceCarry (strongReduceBorrow (gfWeakReduce a))).1
  ⟨UInt64.ofInt e.1, UInt64.ofInt e.2.1, UInt64.ofInt e.2.2.1, UInt64.ofInt e.2.2.2.1,
    UInt64.ofInt e.2.2.2.2⟩

/-- The assertions of `gf_strong_reduce`: the first loop ends with nothing or with a borrow, and
the second one gives the borrow back. -/
def gfStrongReduceAsserts (a : Gf25519) : Bool :=
  let e := strongReduceBorrow (gfWeakReduce a)
  (decide (UInt64.ofInt e.2 = 0) || decide (UInt64.ofInt (e.2 + 1) = 0)) &&
    decide (UInt64.ofInt (strongReduceCarry e).2 + UInt64.ofInt e.2 = 0)

/-- `gf_eq`. -/
def gfEq (a b : Gf25519) : Bool :=
  let c := gfStrongReduce (gfSub a b)
  decide (c.limb0 ||| c.limb1 ||| c.limb2 ||| c.limb3 ||| c.limb4 = 0)

/-- `gf_lobit`. -/
def gfLobit (x : Gf25519) : Bool := decide ((gfStrongReduce x).limb0 &&& 1 = 1)

/-- `gf_hibit`: the high bit is the low bit of the double. -/
def gfHibit (x : Gf25519) : Bool := decide ((gfStrongReduce (gfAdd x x)).limb0 &&& 1 = 1)

/-- The chain of `gf_isr`, up to the last value of `L0`. -/
def gfIsrPower (x : Gf25519) : Gf25519 :=
  let l0 := gfSqr x
  let l1 := gfMul l0 x
  let l0 := gfSqr l1
  let l1 := gfMul l0 x
  let l0 := gfSqrn l1 3
  let l2 := gfMul l0 l1
  let l0 := gfSqrn l2 6
  let l1 := gfMul l2 l0
  let l2 := gfSqr l1
  let l0 := gfMul l2 x
  let l2 := gfSqrn l0 12
  let l0 := gfMul l2 l1
  let l2 := gfSqrn l0 25
  let l3 := gfMul l2 l0
  let l2 := gfSqrn l3 25
  let l1 := gfMul l2 l0
  let l2 := gfSqrn l1 50
  let l0 := gfMul l2 l3
  let l2 := gfSqrn l0 125
  let l3 := gfMul l2 l0
  let l2 := gfSqrn l3 2
  gfMul l2 x

/-- `gf_isr`: the inverse square root, and whether there is one. -/
def gfIsr (x : Gf25519) : Gf25519 × Bool :=
  let l0 := gfIsrPower x
  let l2 := gfSqr l0
  let l3 := gfMul l2 x
  let l1 := gfAdd l3 gfOne
  let one := gfEq l3 gfOne
  let succ := one || gfEq l1 gfZero
  let qr := one || gfEq l3 sqrtMinusOne
  let l2 := if qr then gfOne else sqrtMinusOne
  (gfMul l2 l0, succ)

/-- `gf_invert`: the inverse, and whether the assertion that callers can ask for holds. -/
def gfInvert (x : Gf25519) : Gf25519 × Bool :=
  let t1 := gfSqr x
  let (t2, ret) := gfIsr t1
  let t1 := gfSqr t2
  (gfMul t1 x, ret)

end Canonical

section Wire

/-- The loop of `gf_serialize`, with the bytes that are left to write and the limbs that are left
to read. After the last limb `fill` wraps, and is not read. -/
def serializeLoop : ℕ → List UInt64 → ℕ → ℕ → List UInt8
  | 0, _, _, _ => []
  | turns + 1, limb :: limbs, fill, buffer =>
      if fill < 8 then
        let buffer := buffer ||| limb.toNat <<< fill
        UInt8.ofNat buffer :: serializeLoop turns limbs (fill + 51 - 8) (buffer >>> 8)
      else UInt8.ofNat buffer :: serializeLoop turns (limb :: limbs) (fill - 8) (buffer >>> 8)
  | turns + 1, [], fill, buffer =>
      UInt8.ofNat buffer :: serializeLoop turns [] (fill - 8) (buffer >>> 8)

theorem serializeLoop_length (turns : ℕ) (limbs : List UInt64) (fill buffer : ℕ) :
    (serializeLoop turns limbs fill buffer).length = turns := by
  induction turns generalizing limbs fill buffer with
  | zero => rfl
  | succ turns ih =>
      cases limbs with
      | nil => exact congrArg Nat.succ (ih _ _ _)
      | cons limb limbs =>
          rw [serializeLoop]
          split
          · exact congrArg Nat.succ (ih _ _ _)
          · exact congrArg Nat.succ (ih _ _ _)

/-- `gf_serialize` with the high bit, as every caller asks for. -/
def gfSerialize (x : Gf25519) : Bytes 32 :=
  let red := gfStrongReduce x
  ⟨serializeLoop 32 [red.limb0, red.limb1, red.limb2, red.limb3, red.limb4] 0 0,
    serializeLoop_length _ _ _ _⟩

/-- The inner loop of `gf_deserialize`: bytes are read until a limb is full. The last byte is
masked. -/
def fillLimb (hiNmask : UInt8) : List UInt8 → ℕ → ℕ → List UInt8 × ℕ × ℕ
  | [], fill, buffer => ([], fill, buffer)
  | sj :: serial, fill, buffer =>
      if fill < 51 then
        let sj := if serial.isEmpty then sj &&& ~~~hiNmask else sj
        fillLimb hiNmask serial (fill + 8) (buffer ||| sj.toNat <<< fill)
      else (sj :: serial, fill, buffer)

/-- What the outer loop carries from limb to limb. -/
structure Deserializing where
  serial : List UInt8
  fill : ℕ
  buffer : ℕ
  scarry : ℤ

/-- One turn of the outer loop. The last limb is not masked. -/
def deserializeLimb (hiNmask : UInt8) (last : Bool) (modulus : UInt64) (s : Deserializing) :
    UInt64 × Deserializing :=
  let (serial, fill, buffer) := fillLimb hiNmask s.serial s.fill s.buffer
  let limb := if last then UInt64.ofNat buffer else UInt64.ofNat buffer &&& limbMask
  (limb, ⟨serial, fill - 51, buffer >>> 51, (s.scarry + limb.toNat - modulus.toNat) / 2 ^ 64⟩)

/-- `gf_deserialize`: the element, and whether the string is accepted. -/
def gfDeserialize (serial : Bytes 32) (withHibit : Bool) (hiNmask : UInt8) : Gf25519 × Bool :=
  let (limb0, s) := deserializeLimb hiNmask false gfModulus.limb0 ⟨serial.toList, 0, 0, 0⟩
  let (limb1, s) := deserializeLimb hiNmask false gfModulus.limb1 s
  let (limb2, s) := deserializeLimb hiNmask false gfModulus.limb2 s
  let (limb3, s) := deserializeLimb hiNmask false gfModulus.limb3 s
  let (limb4, s) := deserializeLimb hiNmask true gfModulus.limb4 s
  let x : Gf25519 := ⟨limb0, limb1, limb2, limb3, limb4⟩
  let succ := if withHibit then true else !gfHibit x
  (x, succ && decide (UInt64.ofNat s.buffer = 0) && !decide (UInt64.ofInt s.scarry = 0))

end Wire

end Ebut
