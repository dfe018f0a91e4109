import Ebut.Core.Suite

/-!
# Hashing to Scalars

Reduction of byte strings into the scalar field, as the code does it on four
64-bit limbs, and the Fiat-Shamir hash built from it.

The reduction subtracts the order until the value is below it. Its loop runs
three turns and is followed by one more decoding, and every decoding is
expected to succeed. A failing expectation is `none` here;
`scalarFromLeBytesModOrder_eq` shows that none fails, which is what makes
`scalarFromHash` and everything above it total.

## Main definitions

* `leBytesToU64x4`, `u64x4ToLeBytes`: Bytes to limbs and back.
* `ltR`, `subU64x4`: Comparison with the order and subtraction with borrow.
* `scalarFromLeBytesModOrder`: Reduction of 32 bytes.
* `combineWide`: The combination step of the wide reduction.
* `hashToScalar`: The Fiat-Shamir hash of a preimage.

## Theorems

* `scalarFromLeBytesModOrder_eq`: The reduction is the residue.
* `combineWide_eq`: The wide reduction is the residue.
-/

namespace Ebut

open LittleEndian

/-- A 256-bit integer as four 64-bit limbs, least significant first. -/
abbrev U64x4 := List.Vector UInt64 4

/-- The limbs of the BLS12-381 scalar field order. -/
def rLimbs : U64x4 :=
  ⟨[0xffffffff00000001, 0x53bda402fffe5bfe, 0x3339d80809a1d805, 0x73eda753299d7d48], rfl⟩

def leBytesToU64x4 (bytes : Bytes 32) : U64x4 :=
  ⟨limbsOf 4 bytes.toList, limbsOf_length 4 bytes.toList⟩

def u64x4ToLeBytes (limbs : U64x4) : Bytes 32 :=
  ⟨limbsBytes limbs.toList, by rw [limbsBytes_length, limbs.toList_length]⟩

def ltR (v : U64x4) : Bool := limbsLt v.toList.reverse rLimbs.toList.reverse

def subU64x4 (a b : U64x4) : U64x4 :=
  ⟨subLimbs a.toList b.toList 0, by
    rw [subLimbs_length (by rw [a.toList_length, b.toList_length]), a.toList_length]⟩

/-- The subtraction loop with `n` turns left. After the last turn the value is
decoded as it stands. -/
def reduceLoop : ℕ → U64x4 → Option Scalar
  | 0, v => fromBytesLe (u64x4ToLeBytes v)
  | n + 1, v =>
      if ltR v then fromBytesLe (u64x4ToLeBytes v) else reduceLoop n (subU64x4 v rLimbs)

/-- Reduction of 32 little-endian bytes modulo the order. -/
def scalarFromLeBytesModOrder (bytes : Bytes 32) : Option Scalar :=
  reduceLoop 3 (leBytesToU64x4 bytes)

theorem limbsNat_rLimbs : limbsNat rLimbs.toList = blsOrder := by decide +kernel

theorem ltR_iff (v : U64x4) : ltR v = true ↔ limbsNat v.toList < blsOrder := by
  rw [ltR, limbsLt_iff (by rw [List.length_reverse, List.length_reverse, v.toList_length,
    rLimbs.toList_length]), List.reverse_reverse, List.reverse_reverse, limbsNat_rLimbs]

theorem limbsNat_subU64x4 {v : U64x4} (hge : blsOrder ≤ limbsNat v.toList) :
    limbsNat (subU64x4 v rLimbs).toList = limbsNat v.toList - blsOrder := by
  have h : limbsNat (subLimbs v.toList rLimbs.toList 0) + limbsNat rLimbs.toList +
      (0 : UInt64).toNat = limbsNat v.toList :=
    limbsNat_subLimbs (by rw [v.toList_length, rLimbs.toList_length]) (Nat.zero_le _)
      (by rw [limbsNat_rLimbs]; exact hge)
  rw [limbsNat_rLimbs, UInt64.toNat_zero, add_zero] at h
  exact Nat.eq_sub_of_add_eq h

theorem fromBytesLe_u64x4 {v : U64x4} (hlt : limbsNat v.toList < blsOrder) :
    fromBytesLe (u64x4ToLeBytes v) = some (limbsNat v.toList : Scalar) := by
  have hval : leNat (u64x4ToLeBytes v).toList = limbsNat v.toList := leNat_limbsBytes v.toList
  rw [fromBytesLe, hval, if_pos hlt]

/-- The loop returns the residue whenever its turns suffice to get below the
order. -/
theorem reduceLoop_eq (n : ℕ) {v : U64x4} (hfuel : limbsNat v.toList < (n + 1) * blsOrder) :
    reduceLoop n v = some (limbsNat v.toList : Scalar) := by
  induction n generalizing v with
  | zero => exact fromBytesLe_u64x4 (by omega)
  | succ n ih =>
      rw [reduceLoop]
      by_cases hlt : limbsNat v.toList < blsOrder
      · rw [if_pos ((ltR_iff v).mpr hlt), fromBytesLe_u64x4 hlt]
      · have hge : blsOrder ≤ limbsNat v.toList := Nat.le_of_not_lt hlt
        rw [if_neg fun h => hlt ((ltR_iff v).mp h), ih, limbsNat_subU64x4 hge,
          Nat.cast_sub hge, ZMod.natCast_self, sub_zero]
        rw [limbsNat_subU64x4 hge]
        have hexp : (n + 1 + 1) * blsOrder = (n + 1) * blsOrder + blsOrder := Nat.succ_mul _ _
        omega

/-- Three turns suffice for every 256-bit value, so the reduction never fails
and is the residue. -/
theorem scalarFromLeBytesModOrder_eq (bytes : Bytes 32) :
    scalarFromLeBytesModOrder bytes = some (leNat bytes.toList : Scalar) := by
  have hval : limbsNat (leBytesToU64x4 bytes).toList = leNat bytes.toList :=
    limbsNat_limbsOf bytes.toList_length
  have hlt : leNat bytes.toList < 4 * blsOrder :=
    (leNat_toList_lt bytes).trans (by decide +kernel)
  rw [scalarFromLeBytesModOrder, reduceLoop_eq 3 (by rw [hval]; exact hlt), hval]

/-- `K = 2^256 mod r`, little-endian. -/
def k2256ModR : Bytes 32 :=
  ⟨[0xfe, 0xff, 0xff, 0xff, 0x01, 0x00, 0x00, 0x00, 0x02, 0x48, 0x03, 0x00, 0xfa, 0xb7, 0x84,
    0x58, 0xf5, 0x4f, 0xbc, 0xec, 0xef, 0x4f, 0x8c, 0x99, 0x6f, 0x05, 0xc5, 0xac, 0x59, 0xb1,
    0x24, 0x18], rfl⟩

/-- The lower half of a 64-byte digest. -/
def lowHalf (wide : Bytes 64) : Bytes 32 :=
  ⟨wide.toList.take 32, by rw [List.length_take, wide.toList_length]; rfl⟩

/-- The upper half of a 64-byte digest. -/
def highHalf (wide : Bytes 64) : Bytes 32 :=
  ⟨wide.toList.drop 32, by rw [List.length_drop, wide.toList_length]⟩

/-- The combination step of `scalar_from_hash`: `(lo + hi * K) mod r`. -/
def combineWide (wide : Bytes 64) : Option Scalar := do
  let sLo ← scalarFromLeBytesModOrder (lowHalf wide)
  let sHi ← scalarFromLeBytesModOrder (highHalf wide)
  -- the upper half counts in units of `2 ^ 256`
  let k ← fromBytesLe k2256ModR
  return sLo + sHi * k

theorem fromBytesLe_k2256ModR : fromBytesLe k2256ModR = some (2 ^ 256) := by
  have hlt : leNat k2256ModR.toList < blsOrder := by decide +kernel
  have hmod : leNat k2256ModR.toList ≡ 2 ^ 256 [MOD blsOrder] := by decide +kernel
  rw [fromBytesLe, if_pos hlt, (ZMod.natCast_eq_natCast_iff _ _ _).mpr hmod, Nat.cast_pow,
    Nat.cast_ofNat]

theorem combineWide_eq (wide : Bytes 64) :
    combineWide wide = some (leNat wide.toList : Scalar) := by
  have hsplit : leNat wide.toList =
      leNat (lowHalf wide).toList + 2 ^ 256 * leNat (highHalf wide).toList := by
    have hlen : (lowHalf wide).toList.length = 32 := (lowHalf wide).toList_length
    have hcat : wide.toList = (lowHalf wide).toList ++ (highHalf wide).toList :=
      (List.take_append_drop 32 wide.toList).symm
    rw [hcat, leNat_append, hlen, show 256 ^ 32 = 2 ^ 256 from rfl]
  rw [combineWide, scalarFromLeBytesModOrder_eq, scalarFromLeBytesModOrder_eq,
    fromBytesLe_k2256ModR, hsplit]
  simp only [Option.bind_eq_bind, Option.bind_some, Option.pure_def, Nat.cast_add, Nat.cast_mul,
    Nat.cast_pow, Nat.cast_ofNat, mul_comm]

/-- The bias-free reduction of a digest, expanded to 64 bytes by SHA-512. -/
def scalarFromHash (sha : Sha2) (digest : Bytes 32) : Scalar :=
  (combineWide (sha.sha512 digest.toList)).get (by rw [combineWide_eq]; rfl)

/-- `hash_to_scalar`, also the finalisation of a running hasher whose input was
`preimage`. -/
def hashToScalar (sha : Sha2) (preimage : List UInt8) : Scalar :=
  scalarFromHash sha (sha.sha256 preimage)

end Ebut
