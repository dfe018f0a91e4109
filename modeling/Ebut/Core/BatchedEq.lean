import Ebut.Core.Setup

/-!
# The Batched Equality Proof

A cross-curve proof that a BLS12-381 commitment and a Ristretto commitment hide
the same value, together with a range proof for the latter. The verifier
rebuilds both first messages from the responses and recomputes the challenge
over them.

What the prover draws is an argument. The range prover draws as well and is one of
the things drawn.

## Main definitions

* `BatchedEqualityProof`: The proof and its wire format.
* `computeBeqChallenge`: The 128-bit challenge.
* `verifyBatchedEquality`: The verifier.
* `u256MulU64`, `u256Add`: The integer arithmetic of the response.
* `u256MulU64Carry`, `u256AddCarry`: The carries asserted to be zero.
* `BeqCoins`, `proveBatchedEquality`: The prover.

## Theorems

* `reduceScalar_eq`: The reduction is the residue.
* `u256Lt_q25519Limbs`: What the check on the response says.
* `limbsNat_u256MulU64`, `limbsNat_u256Add`: Product and sum of what fits.
-/

namespace Ebut

open LittleEndian

variable {G1 G2 GT R : Type} [AddCommGroup G1] [Module Scalar G1] [AddCommGroup G2]
  [Module Scalar G2] [AddCommGroup GT] [Module Scalar GT] [AddCommGroup R]
  [Module DalekScalar R]

/-- The limbs of the Curve25519 scalar field order. -/
def q25519Limbs : U64x4 :=
  ⟨[0x5812631a5cf5d3ed, 0x14def9dea2f79cd6, 0x0000000000000000, 0x1000000000000000], rfl⟩

/-- `u256_lt`. -/
def u256Lt (a b : U64x4) : Bool := limbsLt a.toList.reverse b.toList.reverse

structure BatchedEqualityProof where
  cBytes : Bytes 16
  c25519Bytes : Bytes 32
  zEBytes : Bytes 32
  zRBlsBytes : Bytes 32
  zR25519Bytes : Bytes 32
  rangeProofBytes : List UInt8
  rangeBits : UInt8

/-- The wire format. The length of the range proof is written as a `u32`. -/
def BatchedEqualityProof.toBytes (proof : BatchedEqualityProof) : List UInt8 :=
  proof.cBytes.toList ++ proof.c25519Bytes.toList ++ proof.zEBytes.toList ++
    proof.zRBlsBytes.toList ++ proof.zR25519Bytes.toList ++ [proof.rangeBits] ++
    u32LeBytes (UInt32.ofNat proof.rangeProofBytes.length) ++ proof.rangeProofBytes

/-- `compute_beq_challenge`: the first 16 bytes of the transcript's digest. -/
def computeBeqChallenge (sha : Sha2) (context : List UInt8) (commBytes : List (Bytes 48))
    (cBlsBytes : Bytes 48) (c25519Bytes : Bytes 32) (rBlsBytes : Bytes 48)
    (r25519Bytes : Bytes 32) (rangeProofBytes : List UInt8) (rangeBits : UInt8) : Bytes 16 :=
  let digest := sha.sha256 <|
    "ACT:BEQ:Challenge".toUTF8.toList ++ context ++ commBytes.flatMap (·.toList) ++
    cBlsBytes.toList ++ c25519Bytes.toList ++ rBlsBytes.toList ++ r25519Bytes.toList ++
    rangeProofBytes ++ [rangeBits]
  ⟨digest.toList.take 16, by rw [List.length_take, digest.toList_length]; rfl⟩

/-- `c128_to_bytes32`: the challenge padded with zero bytes. -/
def c128ToBytes32 (c128 : Bytes 16) : Bytes 32 :=
  ⟨c128.toList ++ List.replicate 16 0, by
    rw [List.length_append, c128.toList_length, List.length_replicate]⟩

/-- A reduction whose expectations all hold, as a total function. -/
def reduceScalar (bytes : Bytes 32) : Scalar :=
  (scalarFromLeBytesModOrder bytes).get (by rw [scalarFromLeBytesModOrder_eq]; rfl)

def verifyBatchedEquality (sha : Sha2) (bls : Blstrs G1 G2 GT) (dalek : Dalek R)
    (proof : BatchedEqualityProof) (cBls h4 h0 : G1) (context : List UInt8)
    (commitments : List G1) : Except ActError Unit := do
  -- a response below both orders is one integer in both groups
  rejectIf (u256Lt (leBytesToU64x4 proof.zEBytes) q25519Limbs = false)
    (.verificationFailed "BatchedEqualityProof: z_e >= q_25519 (modular wrap attack)")
  let rangeBits := proof.rangeBits.toNat
  rejectIf (rangeBits ≠ 32 ∧ rangeBits ≠ 64)
    (.verificationFailed "BatchedEqualityProof: unsupported range size")
  let zMBls := reduceScalar proof.zEBytes
  let zM25519 := DalekScalar.fromBytesModOrder proof.zEBytes
  let zRBls ← okOr (fromBytesLe proof.zRBlsBytes)
    (.verificationFailed "BatchedEqualityProof: z_r_bls is not a canonical BLS12-381 scalar")
  let zR25519 := DalekScalar.fromBytesModOrder proof.zR25519Bytes
  -- the challenge is below both orders too, and is not reduced in either
  let c32 := c128ToBytes32 proof.cBytes
  let cFr := reduceScalar c32
  let cDalek := DalekScalar.fromBytesModOrder c32
  let c25519Point ← okOr (dalek.decompress proof.c25519Bytes)
    (.verificationFailed "BatchedEqualityProof: invalid C_25519 point")
  let commBytes := commitments.map bls.g1Compressed
  -- the first messages, rebuilt from the responses
  let rBlsPoint := zMBls • h4 + zRBls • h0 - cFr • cBls
  let r25519Point := dalek.commit zM25519 zR25519 - cDalek • c25519Point
  let expectedC128 := computeBeqChallenge sha context commBytes (bls.g1Compressed cBls)
    proof.c25519Bytes (bls.g1Compressed rBlsPoint) (dalek.compress r25519Point)
    proof.rangeProofBytes proof.rangeBits
  rejectIf (expectedC128 ≠ proof.cBytes)
    (.verificationFailed "BatchedEqualityProof: challenge mismatch (Schnorr check failed)")
  (dalek.rangeFromBytes proof.rangeProofBytes).mapError fun e =>
    .verificationFailed ("Invalid Dalek range proof bytes: " ++ e)
  -- the range proof is bound to the context and to every commitment
  let rangeTranscript : Transcript :=
    { label := "ACT:BEQ:Range",
      messages := ("ctx", context) :: commBytes.map fun cb => ("comm", cb.toList) }
  (dalek.verifySingle rangeBits rangeTranscript proof.c25519Bytes
    proof.rangeProofBytes).mapError fun e =>
      .verificationFailed ("BatchedEqualityProof: Dalek range proof failed: " ++ e)

theorem reduceScalar_eq (bytes : Bytes 32) :
    reduceScalar bytes = (leNat bytes.toList : Scalar) := by
  simp only [reduceScalar, scalarFromLeBytesModOrder_eq, Option.get_some]

theorem limbsNat_leBytesToU64x4 (bytes : Bytes 32) :
    limbsNat (leBytesToU64x4 bytes).toList = leNat bytes.toList :=
  limbsNat_limbsOf bytes.toList_length

theorem limbsNat_q25519Limbs : limbsNat q25519Limbs.toList = dalekOrder := by decide +kernel

/-- The check on the response compares integers. -/
theorem u256Lt_q25519Limbs {bytes : Bytes 32} :
    u256Lt (leBytesToU64x4 bytes) q25519Limbs = true ↔ leNat bytes.toList < dalekOrder := by
  rw [u256Lt, limbsLt_iff (by rw [List.length_reverse, List.length_reverse,
    (leBytesToU64x4 bytes).toList_length, q25519Limbs.toList_length]), List.reverse_reverse,
    List.reverse_reverse, limbsNat_leBytesToU64x4, limbsNat_q25519Limbs]

theorem leNat_c128ToBytes32 (c128 : Bytes 16) :
    leNat (c128ToBytes32 c128).toList = leNat c128.toList :=
  leNat_append_zeros c128.toList 16

/-- `u256_mul_u64`. The overflow of the highest limb is only asserted not to happen. -/
def u256MulU64 (a : U64x4) (b : UInt64) : U64x4 :=
  ⟨mulLimbs a.toList b 0, by rw [mulLimbs_length, a.toList_length]⟩

/-- The `carry` after the loop of `u256_mul_u64`, asserted to be zero. -/
def u256MulU64Carry (a : U64x4) (b : UInt64) : ℕ := mulLimbsCarry a.toList b 0

/-- `u256_add`. -/
def u256Add (a b : U64x4) : U64x4 :=
  ⟨addLimbs a.toList b.toList 0, by
    rw [addLimbs_length (by rw [a.toList_length, b.toList_length]), a.toList_length]⟩

/-- The `carry` after the loop of `u256_add`, asserted to be zero. -/
def u256AddCarry (a b : U64x4) : ℕ := addLimbsCarry a.toList b.toList 0

theorem limbsNat_u256MulU64 {a : U64x4} {b : UInt64}
    (hfits : limbsNat a.toList * b.toNat < 2 ^ 256) :
    limbsNat (u256MulU64 a b).toList = limbsNat a.toList * b.toNat := by
  have h := limbsNat_mulLimbs a.toList b 0
  rw [a.toList_length, Nat.add_zero, Nat.mod_eq_of_lt hfits] at h
  exact h

theorem limbsNat_u256Add {a b : U64x4} (hfits : limbsNat a.toList + limbsNat b.toList < 2 ^ 256) :
    limbsNat (u256Add a b).toList = limbsNat a.toList + limbsNat b.toList := by
  have hlen : a.toList.length = b.toList.length := by rw [a.toList_length, b.toList_length]
  have h := limbsNat_addLimbs hlen 0
  rw [a.toList_length, Nat.add_zero, Nat.mod_eq_of_lt hfits] at h
  exact h

/-- Neither assertion fails on what fits. -/
theorem u256MulU64Carry_eq_zero {a : U64x4} {b : UInt64}
    (hfits : limbsNat a.toList * b.toNat < 2 ^ 256) : u256MulU64Carry a b = 0 := by
  rw [u256MulU64Carry, mulLimbsCarry_eq, a.toList_length, Nat.add_zero]
  exact Nat.div_eq_of_lt hfits

theorem u256AddCarry_eq_zero {a b : U64x4}
    (hfits : limbsNat a.toList + limbsNat b.toList < 2 ^ 256) : u256AddCarry a b = 0 := by
  rw [u256AddCarry, addLimbsCarry_eq (by rw [a.toList_length, b.toList_length]), a.toList_length,
    Nat.add_zero]
  exact Nat.div_eq_of_lt hfits

/-- `best_range_bits_u64`. -/
def bestRangeBitsU64 (v : UInt64) : ℕ := if v.toNat ≤ 4294967295 then 32 else 64

/-- What the prover draws. -/
structure BeqCoins where
  r25519 : DalekScalar
  /-- `RangeProof::prove_single` of a value and a blinder, for a number of bits and a
  transcript, followed by `to_bytes`; or the debug text of its error. -/
  proveSingle : ℕ → Transcript → UInt64 → DalekScalar → Except String (List UInt8)
  uM : Bytes 30
  uRBls : Scalar
  uR25519 : DalekScalar

/-- The integer blinder padded with zero bytes. -/
def uM32 (uM : Bytes 30) : Bytes 32 :=
  ⟨uM.toList ++ List.replicate 2 0, by
    rw [List.length_append, uM.toList_length, List.length_replicate]⟩

/-- `Scalar::to_bytes` of the Curve25519 field. -/
def DalekScalar.toBytes (s : DalekScalar) : Bytes 32 := leArray 32 s.val

theorem leNat_uM32 (uM : Bytes 30) : leNat (uM32 uM).toList = leNat uM.toList :=
  leNat_append_zeros uM.toList 2

theorem fromBytesModOrder_toBytes (s : DalekScalar) :
    DalekScalar.fromBytesModOrder (DalekScalar.toBytes s) = s := by
  have hlt : s.val < 256 ^ 32 := (ZMod.val_lt s).trans (by decide +kernel : dalekOrder < 256 ^ 32)
  show ((leNat (leBytes 32 s.val) : ℕ) : DalekScalar) = s
  rw [leNat_leBytes, Nat.mod_eq_of_lt hlt, ZMod.natCast_zmod_val]

/-- `prove_batched_equality`. -/
def proveBatchedEquality (sha : Sha2) (bls : Blstrs G1 G2 GT) (dalek : Dalek R) (coins : BeqCoins)
    (m : UInt64) (rBls : Scalar) (h4 h0 : G1) (context : List UInt8) (commitments : List G1) :
    Except ActError (BatchedEqualityProof × G1) := do
  let rangeBits := bestRangeBitsU64 m
  let commBytes := commitments.map bls.g1Compressed
  let c25519Bytes := dalek.compress (dalek.commit (m.toNat : ℕ) coins.r25519)
  let rangeTranscript : Transcript :=
    { label := "ACT:BEQ:Range",
      messages := ("ctx", context) :: commBytes.map fun cb => ("comm", cb.toList) }
  let rangeProofBytes ← (coins.proveSingle rangeBits rangeTranscript m coins.r25519).mapError
    fun e => .protocolError ("Dalek range prove failed: " ++ e)
  -- one integer of 240 bits blinds the value in both groups
  let uMLimbs := leBytesToU64x4 (uM32 coins.uM)
  let uMBls := reduceScalar (uM32 coins.uM)
  let uM25519 := DalekScalar.fromBytesModOrder (uM32 coins.uM)
  let rBlsPoint := uMBls • h4 + coins.uRBls • h0
  let r25519Point := dalek.commit uM25519 coins.uR25519
  let cBls := Scalar.ofU64 m • h4 + rBls • h0
  let c128 := computeBeqChallenge sha context commBytes (bls.g1Compressed cBls) c25519Bytes
    (bls.g1Compressed rBlsPoint) (dalek.compress r25519Point) rangeProofBytes
    (UInt8.ofNat rangeBits)
  let c32 := c128ToBytes32 c128
  let zELimbs := u256Add uMLimbs (u256MulU64 (leBytesToU64x4 c32) m)
  let proof : BatchedEqualityProof := {
    cBytes := c128
    c25519Bytes
    zEBytes := u64x4ToLeBytes zELimbs
    zRBlsBytes := Scalar.toBytes (coins.uRBls + reduceScalar c32 * rBls)
    zR25519Bytes :=
      DalekScalar.toBytes (coins.uR25519 + DalekScalar.fromBytesModOrder c32 * coins.r25519)
    rangeProofBytes
    rangeBits := UInt8.ofNat rangeBits }
  return (proof, cBls)

end Ebut
