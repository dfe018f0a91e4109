import Ebut.Core.Gap
import Ebut.Core.V3BatchedEq

/-!
# The Non-Membership Proof

A proof that a committed expiry lies strictly inside a signed gap. Four proofs share
their commitments: the signature on the gap, the equality of the values that are committed
to in both groups, the two differences to the ends of the gap, and an aggregated range
proof for these.

The range proofs are those of another crate, on bases of this one.

## Main definitions

* `RangeProofs`: The aggregated range proofs.
* `NonMembershipProof`: The proof.
* `NonMembershipCoins`: What the prover draws.
* `createNonMembershipProofTimedWithContextAndBases`: The prover.
* `verifyNonMembershipProofTimedWithContextAndBases`: The verifier.

## Theorems

* `verifyNonMembershipProof_iff`: What the verifier accepts.
-/

namespace Ebut

/-- `u64::checked_sub`. -/
def checkedSub (a b : UInt64) : Option UInt64 := if b ≤ a then some (a - b) else none

theorem checkedSub_of_le {a b : UInt64} (hle : b ≤ a) : checkedSub a b = some (a - b) := if_pos hle

namespace V3Zkp

/-- `BulletproofGens`: the bits and the parties it has generators for. -/
structure BulletproofGens where
  gensCapacity : ℕ
  partyCapacity : ℕ

/-- `PedersenGens`. -/
structure PedersenGens (R : Type) where
  b : R
  bBlinding : R

/-- The aggregated range proofs of the `bulletproofs` crate. -/
structure RangeProofs (P R : Type) where
  /-- `RangeProof::verify_multiple`, for a transcript, compressed commitments and a number
  of bits. -/
  verifyMultiple : P → BulletproofGens → PedersenGens R → Transcript → List (Bytes 32) → ℕ →
    Except String Unit

/-- `RangeProof::prove_multiple`, for values, their blinders and a number of bits. -/
abbrev ProveMultiple (P R : Type) : Type :=
  BulletproofGens → PedersenGens R → Transcript → List UInt64 → List DalekScalar → ℕ →
    Except String P

/-- `rev_bp_gens`. -/
def revBpGens (bits : ℕ) : BulletproofGens :=
  match bits with
  | 32 => ⟨32, 2⟩
  | 64 => ⟨64, 2⟩
  | _ => ⟨64, 2⟩

/-- `rev_range_bits`. -/
def revRangeBits (diff1 diff2 : UInt64) : ℕ :=
  if diff1.toNat ≤ 4294967295 ∧ diff2.toNat ≤ 4294967295 then 32 else 64

/-- The transcript of the aggregated range proof. -/
def aggregatedDiffs : Transcript := ⟨"aggregated_diffs", []⟩

structure NonMembershipProof (P G1 GT R : Type) where
  comEaRist : R
  comEbRist : R
  batchedEqProof : BatchedEqualityProof G1 R
  gapProof : GapProof G1 GT
  aggregatedRangeProof : P
  comDiff1 : R
  comDiff2 : R
  rangeBits : ℕ

/-- What the prover draws, the range prover with its own randomness among it. -/
structure NonMembershipCoins (P R : Type) where
  t : Scalar
  rEa : Scalar
  rRa : Scalar
  rEb : Scalar
  rRb : Scalar
  equality : EqualityCoins
  proveMultiple : ProveMultiple P R

variable {P G1 G2 GT R : Type} [AddCommGroup G1] [Module Scalar G1] [AddCommGroup G2]
  [Module Scalar G2] [AddCommGroup GT] [Module Scalar GT] [AddCommGroup R] [Module DalekScalar R]

section Bases

variable (sha : Sha2) (dalek : Dalek R)

/-- `rev_pc_gens`. -/
def revPcGens : PedersenGens R where
  b := ristrettoGv sha dalek
  bBlinding := ristrettoG1 sha dalek

/-- The multiscalar product that commits to a value on the Ristretto side. -/
def ristrettoCommit (value : UInt64) (blinding : DalekScalar) : R :=
  (value.toNat : DalekScalar) • ristrettoGv sha dalek + blinding • ristrettoG1 sha dalek

end Bases

section Prover

variable (sha : Sha2) (bls : Blstrs G1 G2 GT) (dalek : Dalek R) (coins : NonMembershipCoins P R)
  (secretE : UInt64) (r1E : DalekScalar) (r2E : Scalar) (serverPk : RevocationPublicKey G2)
  (interval : UInt64 × UInt64) (sigma : G1 × G1) (r2Ea r2Eb : Scalar) (r1Ea r1Eb : DalekScalar)
  (gapCtx : Scalar) (blsValueBase blsBlindBase : G1)

/-- The range part: the proof for the two differences, their commitments and the bits. -/
def rangePart : Except ActError (P × R × R × ℕ) := do
  let (ea, eb) := interval
  let diff1 ← okOr ((checkedSub secretE ea).bind fun d => checkedSub d 1)
    (.protocolError "invalid revocation lower gap")
  let diff2 ← okOr ((checkedSub eb secretE).bind fun d => checkedSub d 1)
    (.protocolError "invalid revocation upper gap")
  let rangeBits := revRangeBits diff1 diff2
  let blindingDiff1 := r1E - r1Ea
  let blindingDiff2 := r1Eb - r1E
  let com1 := ristrettoCommit sha dalek diff1 blindingDiff1
  let com2 := ristrettoCommit sha dalek diff2 blindingDiff2
  let proof ← (coins.proveMultiple (revBpGens rangeBits) (revPcGens sha dalek) aggregatedDiffs
    [diff1, diff2] [blindingDiff1, blindingDiff2] rangeBits).mapError fun _ =>
      .protocolError "revocation range proof generation failed"
  return (proof, com1, com2, rangeBits)

/-- `create_non_membership_proof_timed_with_context_and_bases`, without the times and
sizes that are measured. -/
def createNonMembershipProofTimedWithContextAndBases :
    Except ActError (NonMembershipProof P G1 GT R) := do
  let (ea, eb) := interval
  let comERist := ristrettoCommit sha dalek secretE r1E
  let comEBls := Scalar.ofU64 secretE • blsValueBase + r2E • blsBlindBase
  let comEaRist := ristrettoCommit sha dalek ea r1Ea
  let comEbRist := ristrettoCommit sha dalek eb r1Eb
  let gapProof := GapProof.prove sha bls ea eb r2Ea r2Eb sigma.1 sigma.2 coins.t gapCtx serverPk
    blsValueBase blsBlindBase coins.rEa coins.rRa coins.rEb coins.rRb
  let (rangeProof, comDiff1, comDiff2, rangeBits) ←
    rangePart sha dalek coins secretE r1E interval r1Ea r1Eb
  -- the equality proof is about the endpoint commitments of the gap proof
  let batchedEqProof := BatchedEqualityProof.prove sha bls dalek
    ⟨secretE, ea, eb, r1E, r2E, r1Ea, r2Ea, r1Eb, r2Eb⟩
    ⟨comERist, comEBls, comEaRist, gapProof.comEa, comEbRist, gapProof.comEb⟩
    blsValueBase blsBlindBase coins.equality
  return {
    comEaRist, comEbRist, batchedEqProof, gapProof
    aggregatedRangeProof := rangeProof
    comDiff1, comDiff2, rangeBits }

end Prover

/-- The statement of the equality proof that the verifier puts together. -/
def NonMembershipProof.statement (proof : NonMembershipProof P G1 GT R) (userComRist : R)
    (userComBls : G1) : PublicStatement G1 R :=
  ⟨userComRist, userComBls, proof.comEaRist, proof.gapProof.comEa, proof.comEbRist,
    proof.gapProof.comEb⟩

section Verifier

variable [DecidableEq G1] [DecidableEq GT] [DecidableEq R] (sha : Sha2) (bls : Blstrs G1 G2 GT)
  (dalek : Dalek R) (ranges : RangeProofs P R) (proof : NonMembershipProof P G1 GT R)
  (serverPk : RevocationPublicKey G2) (userComRist : R) (userComBls : G1) (gapCtx : Scalar)
  (blsValueBase blsBlindBase : G1)

/-- `verify_non_membership_proof_timed_with_context_and_bases`, without the times. -/
def verifyNonMembershipProofTimedWithContextAndBases : Bool :=
  let eqOk := proof.batchedEqProof.verify (proof.statement userComRist userComBls) sha dalek
    blsValueBase blsBlindBase bls
  let gapOk := proof.gapProof.verify sha bls serverPk gapCtx blsValueBase blsBlindBase
  let rangeOk := (ranges.verifyMultiple proof.aggregatedRangeProof (revBpGens proof.rangeBits)
    (revPcGens sha dalek) aggregatedDiffs
    [dalek.compress proof.comDiff1, dalek.compress proof.comDiff2] proof.rangeBits).isOk
  let gv := ristrettoGv sha dalek
  let expectedDiff1 := userComRist - proof.comEaRist - gv
  let expectedDiff2 := proof.comEbRist - userComRist - gv
  let extOk := decide (expectedDiff1 = proof.comDiff1) && decide (expectedDiff2 = proof.comDiff2)
  eqOk && gapOk && extOk && rangeOk

variable {sha bls dalek ranges proof serverPk userComRist userComBls gapCtx blsValueBase
  blsBlindBase}

theorem isOk_iff {e : Except String Unit} : e.isOk = true ↔ e = .ok () := by
  rcases e with err | u
  · exact ⟨fun h => (nomatch h), fun h => (nomatch h)⟩
  · exact ⟨fun _ => rfl, fun _ => rfl⟩

theorem verifyNonMembershipProof_iff :
    verifyNonMembershipProofTimedWithContextAndBases sha bls dalek ranges proof serverPk userComRist
        userComBls gapCtx blsValueBase blsBlindBase = true ↔
      proof.batchedEqProof.verify (proof.statement userComRist userComBls) sha dalek blsValueBase
        blsBlindBase bls = true ∧
      proof.gapProof.verify sha bls serverPk gapCtx blsValueBase blsBlindBase = true ∧
      (userComRist - proof.comEaRist - ristrettoGv sha dalek = proof.comDiff1 ∧
        proof.comEbRist - userComRist - ristrettoGv sha dalek = proof.comDiff2) ∧
      ranges.verifyMultiple proof.aggregatedRangeProof (revBpGens proof.rangeBits)
        (revPcGens sha dalek) aggregatedDiffs
        [dalek.compress proof.comDiff1, dalek.compress proof.comDiff2] proof.rangeBits =
          .ok () := by
  unfold verifyNonMembershipProofTimedWithContextAndBases
  simp only [Bool.and_eq_true, decide_eq_true_eq, isOk_iff, and_assoc]

end Verifier

end V3Zkp

end Ebut
