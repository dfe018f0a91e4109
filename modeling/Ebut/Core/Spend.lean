import Ebut.Core.BatchedEq
import Mathlib.Tactic.Module

/-!
# Intra-Day Spending

The server side of a spend: the proof a client presents, the Fiat-Shamir
challenge over it, and the verifier that checks it and signs the refund token.

The verifier is cut where the challenge is known. `spendChecksBefore` is what it
tests without the challenge, `spendChecksAt` the three group equations at a given
challenge, `spendProofsHold` the two range proofs and the pairing, and
`issueOn` the signature. The equations take the challenge as an argument, so
that one set of first messages can be considered at several challenges.

## Main definitions

* `SpendProof`: What the client presents.
* `xBridgeHolds`: The check that the commitment to `x` opens to the hidden `x`.
* `expiryBridgeHolds`: The check that `c_delta` opens to the hidden expiry.
* `spendCombined`: The combined equation of the remaining four relations.
* `spendChecksAt`: The three equations at a challenge, with their errors.
* `spendChallenge`: The Fiat-Shamir challenge.
* `SpendChallengeInput`: Its arguments, and the bytes that are hashed.
* `verifySpend`: The verifier.

## Theorems

* `spendCombined_eq`: The combined equation, its tables and its multi-scalar
  multiplication evaluated.
* `spendChecksAt_ok`: The equations are accepted exactly when they hold.
-/

namespace Ebut

variable {G1 G2 GT R : Type} [AddCommGroup G1] [Module Scalar G1]

structure SpendProof (G1 : Type) where
  aPrime : G1
  aBar : G1
  tBbs : G1
  tScaleT : G1
  tTotal : G1
  tScaleR : G1
  tRefund : G1
  tScaleBp : G1
  tBp : G1
  zE : Scalar
  zR1 : Scalar
  zSTilde : Scalar
  zXTilde : Scalar
  zCTilde : Scalar
  zETilde : Scalar
  zU : Scalar
  zV : Scalar
  zW : Scalar
  batchedEq : BatchedEqualityProof
  s : UInt32
  kCur : Scalar
  tIssue : UInt32
  kPrime : G1
  cBp : G1
  /-- Unique Unix-second expiry/revocation handle carried by the token. -/
  eMax : UInt64
  /-- BLS commitment to hidden x proven inside this spend proof. -/
  xBlsCommitment : G1
  tScaleX : G1
  tX : G1
  zRX : Scalar
  /-- Expiry delta commitment proving now_unix <= e_max at spend time. -/
  cDelta : G1
  expiryEq : BatchedEqualityProof
  tScaleExp : G1
  tExp : G1
  zRDelta : Scalar

structure SpendResponse (G1 : Type) where
  aRefund : G1
  eRefund : Scalar
  sPrimeRefund : Scalar
  deriving DecidableEq

/-- The refund commitment with the amount spent added back. -/
def cTotal (generators : Generators G1 G2) (proof : SpendProof G1) : G1 :=
  proof.kPrime + Scalar.ofU32 proof.s • generators.h 3

section Equations

variable (generators : Generators G1 G2) (nowUnix : UInt64) (c : Scalar)
  (proof : SpendProof G1)

/-- The x bridge: `lhs_x == rhs_x`. -/
def xBridgeHolds : Prop :=
  let lhsX := proof.zXTilde • generators.h 1 + proof.zRX • generators.h 0 - proof.tX
  let rhsX := proof.zR1 • proof.xBlsCommitment - proof.tScaleX
  lhsX = rhsX

/-- The expiry commitment shifted by the time of the spend. -/
def spendEmaxBlsCommitment : G1 := proof.cDelta + Scalar.ofU64 nowUnix • generators.h 5

/-- The expiry bridge: `lhs_exp == rhs_exp`. -/
def expiryBridgeHolds : Prop :=
  let cExpBridge := spendEmaxBlsCommitment generators nowUnix proof
  let lhsExp := proof.zETilde • generators.h 5 + proof.zRDelta • generators.h 0 - proof.tExp
  let rhsExp := proof.zR1 • cExpBridge - proof.tScaleExp
  lhsExp = rhsExp

/-- The point that the combined check compares with the identity. -/
def spendCombined : G1 :=
  -- the weights of the relations: the token shown, the total, the refund and the balance
  let c2 := c * c
  let c3 := c2 * c
  let ti := Scalar.ofU32 proof.tIssue
  let sf := Scalar.ofU32 proof.s
  -- one multiple of every generator, summed over the four relations
  let scH0 := (c + c2) * proof.zV + (c3 * proof.zW + proof.zSTilde)
  let scH1 := (1 + (c + c2)) * proof.zXTilde
  let scH2 := (c + c2) * proof.zU + proof.kCur * proof.zR1
  let scH3 := (1 + (c + (c2 + c3))) * proof.zCTilde - (c2 + c3) * (sf * proof.zR1)
  let scH4 := (1 + (c + c2)) * (ti * proof.zR1)
  let scH5 := (1 + (c + c2)) * proof.zETilde
  let fixedSum := (generators.hTables 0).mul scH0 + (generators.hTables 1).mul scH1 +
    (generators.hTables 2).mul scH2 + (generators.hTables 3).mul scH3 +
    (generators.hTables 4).mul scH4 + (generators.hTables 5).mul scH5 +
    generators.g1Table.mul proof.zR1
  -- the points of the proof, and their multiples in the same order
  let dynPts := [proof.aPrime, cTotal generators proof, proof.kPrime, proof.cBp, proof.aBar,
    proof.tTotal, proof.tScaleT, proof.tRefund, proof.tScaleR, proof.tBp, proof.tScaleBp,
    proof.tBbs]
  let varScalars := [-proof.zE, -(c * proof.zR1), -(c2 * proof.zR1), -(c3 * proof.zR1), -c,
    -c, c, -c2, c2, -c3, c3, -1]
  fixedSum + g1Msm dynPts varScalars

/-- The combined equation as one sum over the generators and the proof's points. -/
theorem spendCombined_eq : spendCombined generators c proof =
    ((c + c ^ 2) * proof.zV + c ^ 3 * proof.zW + proof.zSTilde) • generators.h 0 +
    ((1 + c + c ^ 2) * proof.zXTilde) • generators.h 1 +
    ((c + c ^ 2) * proof.zU + proof.kCur * proof.zR1) • generators.h 2 +
    ((1 + c + c ^ 2 + c ^ 3) * proof.zCTilde -
      (c ^ 2 + c ^ 3) * (Scalar.ofU32 proof.s * proof.zR1)) • generators.h 3 +
    ((1 + c + c ^ 2) * (Scalar.ofU32 proof.tIssue * proof.zR1)) • generators.h 4 +
    ((1 + c + c ^ 2) * proof.zETilde) • generators.h 5 +
    proof.zR1 • generators.g1 - proof.zE • proof.aPrime -
    (c * proof.zR1) • cTotal generators proof - (c ^ 2 * proof.zR1) • proof.kPrime -
    (c ^ 3 * proof.zR1) • proof.cBp - c • proof.aBar - c • proof.tTotal + c • proof.tScaleT -
    c ^ 2 • proof.tRefund + c ^ 2 • proof.tScaleR - c ^ 3 • proof.tBp +
    c ^ 3 • proof.tScaleBp - proof.tBbs := by
  simp only [spendCombined, g1Msm_cons, g1Msm_nil, Generators.hTables_mul, Generators.g1Table_mul]
  module

/-- The three equations of the verifier at a challenge. -/
def SpendAccepts : Prop :=
  xBridgeHolds generators proof ∧ expiryBridgeHolds generators nowUnix proof ∧
    spendCombined generators c proof = 0

variable [DecidableEq G1]

instance : Decidable (xBridgeHolds generators proof) := by
  unfold xBridgeHolds
  infer_instance

instance : Decidable (expiryBridgeHolds generators nowUnix proof) := by
  unfold expiryBridgeHolds
  infer_instance

/-- The three equations in the order of the code, each with its error. -/
def spendChecksAt : Except ActError Unit := do
  rejectIf (¬xBridgeHolds generators proof)
    (.verificationFailed "x BLS commitment bridge failed")
  rejectIf (¬expiryBridgeHolds generators nowUnix proof)
    (.verificationFailed "spend-time expiry bridge failed")
  rejectIf (spendCombined generators c proof ≠ 0)
    (.verificationFailed "Combined bridge+Schnorr check failed")

theorem spendChecksAt_ok :
    spendChecksAt generators nowUnix c proof = .ok () ↔
      SpendAccepts generators nowUnix c proof := by
  simp only [spendChecksAt, SpendAccepts, rejectIf_bind_ok, rejectIf_ok, not_not]

end Equations

variable [AddCommGroup G2] [Module Scalar G2] [AddCommGroup GT] [Module Scalar GT]
  [AddCommGroup R] [Module DalekScalar R]

/-- The preimage of the challenge. No response is part of it. -/
def spendTranscript (bls : Blstrs G1 G2 GT) (generators : Generators G1 G2) (hCtx : Scalar)
    (pkDaily : G2) (nowUnix : UInt64) (nonce : Bytes 16) (proof : SpendProof G1) :
    List UInt8 :=
  let writeG1 := fun p : G1 => (bls.g1Compressed p).toList
  (Scalar.toBytes hCtx).toList ++ (bls.g2Compressed pkDaily).toList ++ u32LeBytes proof.s ++
    (Scalar.toBytes proof.kCur).toList ++ u32LeBytes proof.tIssue ++ u64LeBytes proof.eMax ++
    u64LeBytes nowUnix ++ nonce.toList ++ writeG1 proof.kPrime ++
    writeG1 (cTotal generators proof) ++ writeG1 proof.cBp ++ writeG1 proof.cDelta ++
    writeG1 proof.xBlsCommitment ++ proof.batchedEq.toBytes ++ proof.expiryEq.toBytes ++
    writeG1 proof.aPrime ++ writeG1 proof.aBar ++ writeG1 proof.tBbs ++
    writeG1 proof.tScaleT ++ writeG1 proof.tTotal ++ writeG1 proof.tScaleR ++
    writeG1 proof.tRefund ++ writeG1 proof.tScaleBp ++ writeG1 proof.tBp ++
    writeG1 proof.tScaleX ++ writeG1 proof.tX ++ writeG1 proof.tScaleExp ++
    writeG1 proof.tExp ++ "Spend".toUTF8.toList

/-- `SpendProver::challenge`. -/
def spendChallenge (sha : Sha2) (bls : Blstrs G1 G2 GT) (generators : Generators G1 G2)
    (hCtx : Scalar) (pkDaily : G2) (nowUnix : UInt64) (nonce : Bytes 16)
    (proof : SpendProof G1) : Scalar :=
  hashToScalar sha (spendTranscript bls generators hCtx pkDaily nowUnix nonce proof)

/-- The arguments of `SpendProver::challenge`, the two embedded proofs before `to_bytes`. -/
@[ext]
structure SpendChallengeInput (G1 G2 : Type) where
  hCtx : Scalar
  pkDaily : G2
  spendAmount : UInt32
  kCur : Scalar
  tIssue : UInt32
  eMax : UInt64
  nowUnix : UInt64
  nonce : Bytes 16
  kPrime : G1
  cTotal : G1
  cBp : G1
  cDelta : G1
  xBlsCommitment : G1
  batchedEq : BatchedEqualityProof
  expiryEq : BatchedEqualityProof
  aPrime : G1
  aBar : G1
  tBbs : G1
  tScaleT : G1
  tTotal : G1
  tScaleR : G1
  tRefund : G1
  tScaleBp : G1
  tBp : G1
  tScaleX : G1
  tX : G1
  tScaleExp : G1
  tExp : G1

/-- The bytes that `SpendProver::challenge` writes into the hasher. -/
def SpendChallengeInput.preimage (bls : Blstrs G1 G2 GT) (input : SpendChallengeInput G1 G2) :
    List UInt8 :=
  let writeG1 := fun p : G1 => (bls.g1Compressed p).toList
  (Scalar.toBytes input.hCtx).toList ++ (bls.g2Compressed input.pkDaily).toList ++
    u32LeBytes input.spendAmount ++ (Scalar.toBytes input.kCur).toList ++
    u32LeBytes input.tIssue ++ u64LeBytes input.eMax ++ u64LeBytes input.nowUnix ++
    input.nonce.toList ++ writeG1 input.kPrime ++ writeG1 input.cTotal ++ writeG1 input.cBp ++
    writeG1 input.cDelta ++ writeG1 input.xBlsCommitment ++ input.batchedEq.toBytes ++
    input.expiryEq.toBytes ++ writeG1 input.aPrime ++ writeG1 input.aBar ++
    writeG1 input.tBbs ++ writeG1 input.tScaleT ++ writeG1 input.tTotal ++
    writeG1 input.tScaleR ++ writeG1 input.tRefund ++ writeG1 input.tScaleBp ++
    writeG1 input.tBp ++ writeG1 input.tScaleX ++ writeG1 input.tX ++
    writeG1 input.tScaleExp ++ writeG1 input.tExp ++ "Spend".toUTF8.toList

/-- What the prover and the verifier call it with. -/
def SpendProof.challengeInput (generators : Generators G1 G2) (hCtx : Scalar) (pkDaily : G2)
    (nowUnix : UInt64) (nonce : Bytes 16) (proof : SpendProof G1) :
    SpendChallengeInput G1 G2 where
  hCtx
  pkDaily
  spendAmount := proof.s
  kCur := proof.kCur
  tIssue := proof.tIssue
  eMax := proof.eMax
  nowUnix
  nonce
  kPrime := proof.kPrime
  cTotal := cTotal generators proof
  cBp := proof.cBp
  cDelta := proof.cDelta
  xBlsCommitment := proof.xBlsCommitment
  batchedEq := proof.batchedEq
  expiryEq := proof.expiryEq
  aPrime := proof.aPrime
  aBar := proof.aBar
  tBbs := proof.tBbs
  tScaleT := proof.tScaleT
  tTotal := proof.tTotal
  tScaleR := proof.tScaleR
  tRefund := proof.tRefund
  tScaleBp := proof.tScaleBp
  tBp := proof.tBp
  tScaleX := proof.tScaleX
  tX := proof.tX
  tScaleExp := proof.tScaleExp
  tExp := proof.tExp

theorem spendTranscript_eq (bls : Blstrs G1 G2 GT) (generators : Generators G1 G2)
    (hCtx : Scalar) (pkDaily : G2) (nowUnix : UInt64) (nonce : Bytes 16)
    (proof : SpendProof G1) :
    spendTranscript bls generators hCtx pkDaily nowUnix nonce proof =
      (proof.challengeInput generators hCtx pkDaily nowUnix nonce).preimage bls := rfl

/-- What the verifier tests before it computes the challenge. -/
def spendChecksBefore [DecidableEq G1] (currentEpoch : UInt32) (proof : SpendProof G1) :
    Except ActError Unit := do
  rejectIf (proof.s = 0) (.verificationFailed "Spend amount must be positive")
  -- `saturating_add`: the last epoch has no successor to wrap into
  let next := if proof.tIssue = UInt32.ofNat (2 ^ 32 - 1) then proof.tIssue else proof.tIssue + 1
  rejectIf (proof.tIssue ≠ currentEpoch ∧ next ≠ currentEpoch)
    (.verificationFailed "Epoch mismatch")
  rejectIf (proof.aPrime = 0 ∨ proof.tBbs = 0) (.verificationFailed "Zero point in proof")

/-- The context of the balance range proof. -/
def spendBeqCtx (hCtx : Scalar) (nowUnix : UInt64) (nonce : Bytes 16) (proof : SpendProof G1) :
    List UInt8 :=
  (Scalar.toBytes hCtx).toList ++ u32LeBytes proof.s ++ (Scalar.toBytes proof.kCur).toList ++
    u32LeBytes proof.tIssue ++ u64LeBytes proof.eMax ++ u64LeBytes nowUnix ++ nonce.toList

/-- The context of the expiry range proof. -/
def spendExpiryCtx (hCtx : Scalar) (nowUnix : UInt64) (nonce : Bytes 16)
    (proof : SpendProof G1) : List UInt8 :=
  (Scalar.toBytes hCtx).toList ++ u32LeBytes proof.tIssue ++ u64LeBytes proof.eMax ++
    u64LeBytes nowUnix ++ (Scalar.toBytes proof.kCur).toList ++ nonce.toList

/-- The two range proofs and the pairing check. The first range proof and the
pairing run in parallel, but their results are read in this order. -/
def spendProofsHold [DecidableEq GT] (sha : Sha2) (bls : Blstrs G1 G2 GT) (dalek : Dalek R)
    (generators : Generators G1 G2) (keys : ServerKeys generators) (hCtx : Scalar)
    (nowUnix : UInt64) (nonce : Bytes 16) (proof : SpendProof G1) : Except ActError Unit := do
  verifyBatchedEquality sha bls dalek proof.batchedEq proof.cBp (generators.h 3)
    (generators.h 0) (spendBeqCtx hCtx nowUnix nonce proof)
    [proof.aPrime, proof.aBar, proof.tBbs, proof.kPrime, cTotal generators proof,
      proof.xBlsCommitment, proof.cDelta]
  verifyBatchedEquality sha bls dalek proof.expiryEq proof.cDelta (generators.h 5)
    (generators.h 0) (spendExpiryCtx hCtx nowUnix nonce proof)
    [proof.aPrime, proof.aBar, proof.tBbs, proof.kPrime, proof.cDelta, proof.xBlsCommitment]
  rejectIf (bls.pairingProductIsIdentity proof.aPrime keys.pkDaily (-proof.aBar)
    generators.g2 = false) (.verificationFailed "Pairing check failed")

/-- The BBS+ signature on a commitment, with the signer's randomness. -/
def issueOn (generators : Generators G1 G2) (sk : Scalar) (commitment : G1)
    (e sPrime : Scalar) : Except ActError G1 := do
  let msgPart := g1Msm [generators.g1, commitment, generators.h 0] [1, 1, sPrime]
  let denom := e + sk
  -- the drawn `e` may be the negative of the key, and then has no signature
  rejectIf (denom = 0) (.protocolError "Division by zero in issuance")
  return denom⁻¹ • msgPart

/-- `verify_spend`. The two scalars the server draws are arguments. -/
def verifySpend [DecidableEq G1] [DecidableEq GT] (sha : Sha2) (bls : Blstrs G1 G2 GT)
    (dalek : Dalek R) (proof : SpendProof G1) (currentEpoch : UInt32) (nowUnix : UInt64)
    (nonce : Bytes 16) (generators : Generators G1 G2) (pkDaily : G2)
    (keys : ServerKeys generators) (hCtx : Scalar) (eRefund sPrimeRefund : Scalar) :
    Except ActError (SpendResponse G1) := do
  spendChecksBefore currentEpoch proof
  let c := spendChallenge sha bls generators hCtx pkDaily nowUnix nonce proof
  spendChecksAt generators nowUnix c proof
  spendProofsHold sha bls dalek generators keys hCtx nowUnix nonce proof
  -- the commitment is signed as the client sent it
  let aRefund ← issueOn generators keys.skDaily proof.kPrime eRefund sPrimeRefund
  return { aRefund, eRefund, sPrimeRefund }

end Ebut
