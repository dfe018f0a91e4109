import Ebut.Core.Suite

/-!
# The Equality Proof of the Revocation Proof

Three values, committed to in both groups, are shown to be equal pairwise by one proof
about their combination with powers of `gamma`. The response is an integer that both
groups see reduced modulo their own order.

The verifier is cut at its two hashes, which `verifyAt` takes as arguments.

## Main definitions

* `ristrettoGv`, `ristrettoG1`: The Ristretto bases.
* `PublicStatement`: The six commitments.
* `batchGamma`, `equalityChallenge`: The two hashes.
* `BatchedEqualityProof.prove`: `prove_with_bls_bases`, what it draws given.
* `BatchedEqualityProof.verifyAt`: The verifier at given hashes.
* `BatchedEqualityProof.verify`: `verify_with_bls_bases`.

## Theorems

* `biguintToRistrettoScalar_eq`: The reduction is the cast.
* `verifyAt_iff`: What the verifier accepts.
-/

namespace Ebut

namespace V3Zkp

open LittleEndian

variable {G1 G2 GT R : Type} [AddCommGroup G1] [Module Scalar G1] [AddCommGroup G2]
  [Module Scalar G2] [AddCommGroup GT] [Module Scalar GT] [AddCommGroup R] [Module DalekScalar R]

/-- `ristretto_gv`. -/
def ristrettoGv (sha : Sha2) (dalek : Dalek R) : R :=
  dalek.fromUniformBytes (sha.sha512 "EBUT:V3:Ristretto:GV".toUTF8.toList)

/-- `ristretto_g1`. -/
def ristrettoG1 (sha : Sha2) (dalek : Dalek R) : R :=
  dalek.fromUniformBytes (sha.sha512 "EBUT:V3:Ristretto:G1".toUTF8.toList)

/-- `biguint_to_ristretto_scalar`: the residue, decoded. -/
def biguintToRistrettoScalar (x : ℕ) : DalekScalar :=
  DalekScalar.fromBytesModOrder (leArray 32 (x % dalekOrder))

theorem biguintToRistrettoScalar_eq (x : ℕ) : biguintToRistrettoScalar x = (x : DalekScalar) := by
  have hlt : x % dalekOrder < 256 ^ 32 :=
    (Nat.mod_lt _ (by decide)).trans (by decide +kernel : dalekOrder < 256 ^ 32)
  show ((leNat (leBytes 32 (x % dalekOrder)) : ℕ) : DalekScalar) = (x : DalekScalar)
  rw [leNat_leBytes, Nat.mod_eq_of_lt hlt, ZMod.natCast_mod]

/-- The commitments to the expiry and to the two ends of the gap, in both groups. -/
structure PublicStatement (G1 R : Type) where
  comERist : R
  comEBls : G1
  comEaRist : R
  comEaBls : G1
  comEbRist : R
  comEbBls : G1

/-- `write_public_statement`. -/
def writePublicStatement (bls : Blstrs G1 G2 GT) (dalek : Dalek R) (st : PublicStatement G1 R) :
    List UInt8 :=
  (dalek.compress st.comERist).toList ++ (bls.g1Compressed st.comEBls).toList ++
    (dalek.compress st.comEaRist).toList ++ (bls.g1Compressed st.comEaBls).toList ++
    (dalek.compress st.comEbRist).toList ++ (bls.g1Compressed st.comEbBls).toList

/-- `gamma`: the first ten bytes of a digest, big-endian. -/
def batchGamma (sha : Sha2) (bls : Blstrs G1 G2 GT) (dalek : Dalek R)
    (st : PublicStatement G1 R) : ℕ :=
  let hashOut := sha.sha256 ("batch_gamma_v1".toUTF8.toList ++ writePublicStatement bls dalek st)
  leNat (hashOut.toList.take 10).reverse

/-- `equality_challenge`: the first sixteen bytes of a digest, big-endian. -/
def equalityChallenge (sha : Sha2) (bls : Blstrs G1 G2 GT) (dalek : Dalek R) (r1Point : R)
    (r2Point : G1) (st : PublicStatement G1 R) : ℕ :=
  let digest := sha.sha256 <|
    "cross_curve_batched_proof_v2".toUTF8.toList ++ writePublicStatement bls dalek st ++
    (dalek.compress r1Point).toList ++ (bls.g1Compressed r2Point).toList
  leNat (digest.toList.take 16).reverse

structure BatchedEqualityProof (G1 R : Type) where
  r1Comb : R
  r2Comb : G1
  zE : ℕ
  zR1 : DalekScalar
  zR2 : Scalar

/-- The bound on the response. -/
def zELimit : ℕ := 2 ^ 433

/-- The three values with their blinders in the two groups. -/
structure EqualityWitness where
  e : UInt64
  ea : UInt64
  eb : UInt64
  r1E : DalekScalar
  r2E : Scalar
  r1Ea : DalekScalar
  r2Ea : Scalar
  r1Eb : DalekScalar
  r2Eb : Scalar

/-- What the prover draws. -/
structure EqualityCoins where
  kBytes : Bytes 54
  u1Bytes : Bytes 32
  u2 : Scalar

/-- `BatchedEqualityProof::prove_with_bls_bases`. -/
def BatchedEqualityProof.prove (sha : Sha2) (bls : Blstrs G1 G2 GT) (dalek : Dalek R)
    (witness : EqualityWitness) (st : PublicStatement G1 R) (valueBase blindBase : G1)
    (coins : EqualityCoins) : BatchedEqualityProof G1 R :=
  let gamma := batchGamma sha bls dalek st
  let gamma2 := gamma * gamma
  let eComb := witness.e.toNat + gamma * witness.ea.toNat + gamma2 * witness.eb.toNat
  let gammaRist := biguintToRistrettoScalar gamma
  let gamma2Rist := biguintToRistrettoScalar gamma2
  let r1Comb := witness.r1E + gammaRist * witness.r1Ea + gamma2Rist * witness.r1Eb
  let gammaBls := biguintToBlsScalar gamma
  let gamma2Bls := biguintToBlsScalar gamma2
  let r2Comb := witness.r2E + gammaBls * witness.r2Ea + gamma2Bls * witness.r2Eb
  -- one integer blinds the combination in both groups
  let k := leNat coins.kBytes.toList
  let u1 := DalekScalar.fromBytesModOrder coins.u1Bytes
  let r1Point := biguintToRistrettoScalar k • ristrettoGv sha dalek + u1 • ristrettoG1 sha dalek
  let r2Point := biguintToBlsScalar k • valueBase + coins.u2 • blindBase
  let c := equalityChallenge sha bls dalek r1Point r2Point st
  { r1Comb := r1Point
    r2Comb := r2Point
    zE := k + c * eComb
    zR1 := u1 + biguintToRistrettoScalar c * r1Comb
    zR2 := coins.u2 + biguintToBlsScalar c * r2Comb }

section Verify

variable (st : PublicStatement G1 R) (gamma : ℕ)

/-- `com_comb_rist`. -/
def comCombRist : R :=
  st.comERist + biguintToRistrettoScalar gamma • st.comEaRist +
    biguintToRistrettoScalar (gamma * gamma) • st.comEbRist

/-- `com_comb_bls`. -/
def comCombBls : G1 :=
  st.comEBls + biguintToBlsScalar gamma • st.comEaBls +
    biguintToBlsScalar (gamma * gamma) • st.comEbBls

variable [DecidableEq G1] [DecidableEq R] (proof : BatchedEqualityProof G1 R) (sha : Sha2)
  (dalek : Dalek R) (valueBase blindBase : G1)

/-- The verifier with the two hashes it computed. -/
def BatchedEqualityProof.verifyAt (c : ℕ) : Bool :=
  if proof.zE ≥ zELimit then false
  else
    let zQ := biguintToRistrettoScalar proof.zE
    let zR := biguintToBlsScalar proof.zE
    let cQ := biguintToRistrettoScalar c
    let cR := biguintToBlsScalar c
    let lhsRist := zQ • ristrettoGv sha dalek + proof.zR1 • ristrettoG1 sha dalek
    if lhsRist ≠ proof.r1Comb + cQ • comCombRist st gamma then false
    else
      let lhsBls := zR • valueBase + proof.zR2 • blindBase
      if lhsBls ≠ proof.r2Comb + cR • comCombBls st gamma then false else true

/-- `BatchedEqualityProof::verify_with_bls_bases`. -/
def BatchedEqualityProof.verify (bls : Blstrs G1 G2 GT) : Bool :=
  proof.verifyAt st (batchGamma sha bls dalek st) sha dalek valueBase blindBase
    (equalityChallenge sha bls dalek proof.r1Comb proof.r2Comb st)

variable {proof st gamma sha dalek valueBase blindBase}

theorem verifyAt_iff {c : ℕ} :
    proof.verifyAt st gamma sha dalek valueBase blindBase c = true ↔
      proof.zE < zELimit ∧
      (proof.zE : DalekScalar) • ristrettoGv sha dalek + proof.zR1 • ristrettoG1 sha dalek =
        proof.r1Comb + (c : DalekScalar) • comCombRist st gamma ∧
      (proof.zE : Scalar) • valueBase + proof.zR2 • blindBase =
        proof.r2Comb + (c : Scalar) • comCombBls st gamma := by
  unfold BatchedEqualityProof.verifyAt
  simp only [biguintToRistrettoScalar_eq, biguintToBlsScalar_eq, ge_iff_le, ne_eq, ite_not,
    Bool.if_false_left, Bool.if_false_right, Bool.and_eq_true, Bool.not_eq_true',
    decide_eq_false_iff_not, not_le, decide_eq_true_eq, and_true]

end Verify

end V3Zkp

end Ebut
