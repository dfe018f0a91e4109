import Ebut.Core.Scalar
import Mathlib.Algebra.Module.LinearMap.Basic

/-!
# The External Primitives

The hash functions, the pairing groups and the Ristretto group come from other
crates. Each is a structure of the operations this code calls, and every
function of the model takes the ones it uses as parameters.

A projective point and its affine form are the same element of the group, so
`batch_normalize` and the conversions between the two forms are identities
here. Groups are written additively, the target group of the pairing included,
as the `group` crate does.

## Main definitions

* `Sha2`: The two hash functions.
* `Blstrs`: The BLS12-381 pairing groups.
* `Dalek`: The Ristretto group and the range proofs over it.
* `Transcript`: A Merlin transcript.
* `Dalek.commit`: A Pedersen commitment in the Ristretto group.
* `Blstrs.pairingProductIsIdentity`: The two-pair pairing check.
-/

namespace Ebut

/-- What the two arguments of a pairing rest on, as a constant. -/
instance scalarSMulCommClass (V : Type) [AddCommGroup V] [Module Scalar V] :
    SMulCommClass Scalar Scalar V := smulCommClass_self Scalar V

/-- The hash functions of the `sha2` crate. -/
structure Sha2 where
  /-- `Sha256::digest`. -/
  sha256 : List UInt8 → Bytes 32
  /-- `Sha512::digest`. -/
  sha512 : List UInt8 → Bytes 64

/-- The pairing groups of the `blstrs` crate. -/
structure Blstrs (G1 G2 GT : Type) [AddCommGroup G1] [Module Scalar G1] [AddCommGroup G2]
    [Module Scalar G2] [AddCommGroup GT] [Module Scalar GT] where
  /-- `G1Projective::generator`. -/
  g1Generator : G1
  /-- `G2Projective::generator`. -/
  g2Generator : G2
  /-- `G1Affine::to_compressed`. -/
  g1Compressed : G1 → Bytes 48
  /-- `G2Affine::to_compressed`. -/
  g2Compressed : G2 → Bytes 96
  /-- `G1Projective::hash_to_curve`, of a message under a domain separator. -/
  hashToCurve : List UInt8 → List UInt8 → G1
  /-- The pairing, with its final exponentiation. -/
  pairing : G1 →ₗ[Scalar] G2 →ₗ[Scalar] GT
  /-- The debug text of a `Gt`, which stands in for its missing encoding. -/
  gtDebug : GT → List UInt8

/-- A Merlin transcript: its label and the labelled messages appended to it. -/
structure Transcript where
  /-- The label the transcript was created with. -/
  label : String
  /-- The messages appended so far, oldest first. -/
  messages : List (String × List UInt8)

/-- The Ristretto group and the Bulletproofs of the dalek crates. -/
structure Dalek (R : Type) [AddCommGroup R] [Module DalekScalar R] where
  /-- `RISTRETTO_BASEPOINT_POINT`, also `PedersenGens::default().B`. -/
  basepoint : R
  /-- `PedersenGens::default().B_blinding`. -/
  blinding : R
  /-- `RistrettoPoint::compress`. -/
  compress : R → Bytes 32
  /-- `CompressedRistretto::decompress`. -/
  decompress : Bytes 32 → Option R
  /-- `RistrettoPoint::from_uniform_bytes`. -/
  fromUniformBytes : Bytes 64 → R
  /-- `RangeProof::from_bytes`, with the debug text of its error. -/
  rangeFromBytes : List UInt8 → Except String Unit
  /-- `RangeProof::verify_single` of the proof that the bytes encode, for a number
  of bits, a transcript and a compressed commitment. -/
  verifySingle : ℕ → Transcript → Bytes 32 → List UInt8 → Except String Unit

/-- `PedersenGens::commit`. -/
def Dalek.commit {R : Type} [AddCommGroup R] [Module DalekScalar R] (dalek : Dalek R)
    (value blinding : DalekScalar) : R :=
  value • dalek.basepoint + blinding • dalek.blinding

/-- `final_exponentiation` of a two-pair `multi_miller_loop`, tested against the
identity. -/
def Blstrs.pairingProductIsIdentity {G1 G2 GT : Type} [AddCommGroup G1] [Module Scalar G1]
    [AddCommGroup G2] [Module Scalar G2] [AddCommGroup GT] [Module Scalar GT] [DecidableEq GT]
    (bls : Blstrs G1 G2 GT) (p1 : G1) (q1 : G2) (p2 : G1) (q2 : G2) : Bool :=
  decide (bls.pairing p1 q1 + bls.pairing p2 q2 = 0)

end Ebut
