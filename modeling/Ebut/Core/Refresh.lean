import Ebut.Core.Spend

/-!
# Epoch Refresh

The server side of a refresh: a client proves possession of its master token,
reveals the epoch nullifier `N_T = x * H(T)` and has a daily token signed.

The verifier is cut as the spend verifier is: what is tested without the
challenge, the equations at a challenge, the range proof with the pairing, and
the signature.

## Main definitions

* `RefreshProof`: What the client presents.
* `epochBase`: The base `H(T)` of the epoch nullifier.
* `refreshXBridgeHolds`: The check that the commitment to `x` opens to the
  hidden `x`.
* `refreshCombined`: The combined equation of the remaining four relations.
* `refreshChecksAt`: The two equations at a challenge, with their errors.
* `refreshChallenge`: The Fiat-Shamir challenge.
* `RefreshChallengeInput`: Its arguments, and the bytes that are hashed.
* `verifyRefresh`: The verifier.

## Theorems

* `refreshCombined_eq`: The combined equation, evaluated.
* `refreshChecksAt_ok`: The equations are accepted exactly when they hold.
-/

namespace Ebut

variable {G1 G2 GT R : Type} [AddCommGroup G1] [Module Scalar G1]

structure RefreshProof (G1 : Type) where
  aPrime : G1
  aBar : G1
  tBbs : G1
  tScaleN : G1
  tN : G1
  tScaleD : G1
  tD : G1
  tScaleB : G1
  tB : G1
  zE : Scalar
  zR1 : Scalar
  zSTilde : Scalar
  zKTilde : Scalar
  zCTilde : Scalar
  zETilde : Scalar
  zU : Scalar
  zV : Scalar
  zW : Scalar
  batchedEq : BatchedEqualityProof
  nT : G1
  kDaily : G1
  cDelta : G1
  /-- Public BLS commitment to the hidden master secret x: x*h1 + r_x*h0. -/
  xBlsCommitment : G1
  tScaleX : G1
  tX : G1
  zRX : Scalar

structure RefreshResponse (G1 : Type) where
  aDaily : G1
  eDaily : Scalar
  sPrimeDaily : Scalar
  deriving DecidableEq

section Equations

variable (generators : Generators G1 G2) (hT : G1) (currentEpoch : UInt32) (nowUnix : UInt64)
  (c : Scalar) (proof : RefreshProof G1)

/-- The x bridge: `lhs_x == rhs_x`. -/
def refreshXBridgeHolds : Prop :=
  let lhsX := proof.zKTilde • generators.h 1 + proof.zRX • generators.h 0 - proof.tX
  let rhsX := proof.zR1 • proof.xBlsCommitment - proof.tScaleX
  lhsX = rhsX

/-- `c_bridge`, also `refresh_emax_bls_commitment`: the expiry commitment shifted
by the time of the refresh. -/
def refreshEmaxBlsCommitment : G1 := proof.cDelta + Scalar.ofU64 nowUnix • generators.h 5

/-- The point that the combined check compares with the identity, for the
nullifier base `hT`. -/
def refreshCombined : G1 :=
  let cBridge := refreshEmaxBlsCommitment generators nowUnix proof
  -- the weights of the relations: the token shown, the nullifier, the daily commitment and the
  -- expiry bridge
  let c2 := c * c
  let c3 := c2 * c
  let ep := Scalar.ofU32 currentEpoch
  -- one multiple of every generator, summed over the four relations
  let scH0 := c2 * proof.zV + (c3 * proof.zW + proof.zSTilde)
  let scH1 := (c2 + 1) * proof.zKTilde
  let scH2 := c2 * proof.zU
  let scH3 := (c2 + 1) * proof.zCTilde
  let scH4 := c2 * (proof.zR1 * ep)
  let scH5 := (1 + (c2 + c3)) * proof.zETilde
  let fixedSum := (generators.hTables 0).mul scH0 + (generators.hTables 1).mul scH1 +
    (generators.hTables 2).mul scH2 + (generators.hTables 3).mul scH3 +
    (generators.hTables 4).mul scH4 + (generators.hTables 5).mul scH5 +
    generators.g1Table.mul proof.zR1
  -- the points of the proof, and their multiples in the same order
  let dynPts := [hT, proof.nT, proof.tScaleN, proof.tN, proof.aPrime, proof.kDaily, cBridge,
    proof.aBar, proof.tD, proof.tScaleD, proof.tB, proof.tScaleB, proof.tBbs]
  let dynScalars := [c * proof.zKTilde, -(c * proof.zR1), c, -c, -proof.zE, -(c2 * proof.zR1),
    -(c3 * proof.zR1), -c, -c2, c2, -c3, c3, -1]
  fixedSum + g1Msm dynPts dynScalars

theorem refreshCombined_eq :
    refreshCombined generators hT currentEpoch nowUnix c proof =
    (c ^ 2 * proof.zV + c ^ 3 * proof.zW + proof.zSTilde) • generators.h 0 +
    ((1 + c ^ 2) * proof.zKTilde) • generators.h 1 + (c ^ 2 * proof.zU) • generators.h 2 +
    ((1 + c ^ 2) * proof.zCTilde) • generators.h 3 +
    (c ^ 2 * (proof.zR1 * Scalar.ofU32 currentEpoch)) • generators.h 4 +
    ((1 + c ^ 2 + c ^ 3) * proof.zETilde) • generators.h 5 + proof.zR1 • generators.g1 +
    (c * proof.zKTilde) • hT - (c * proof.zR1) • proof.nT + c • proof.tScaleN -
    c • proof.tN - proof.zE • proof.aPrime - (c ^ 2 * proof.zR1) • proof.kDaily -
    (c ^ 3 * proof.zR1) • refreshEmaxBlsCommitment generators nowUnix proof - c • proof.aBar -
    c ^ 2 • proof.tD + c ^ 2 • proof.tScaleD - c ^ 3 • proof.tB + c ^ 3 • proof.tScaleB -
    proof.tBbs := by
  simp only [refreshCombined, g1Msm_cons, g1Msm_nil, Generators.hTables_mul, Generators.g1Table_mul]
  module

/-- The two equations of the verifier at a challenge. -/
def RefreshAccepts : Prop :=
  refreshXBridgeHolds generators proof ∧
    refreshCombined generators hT currentEpoch nowUnix c proof = 0

variable [DecidableEq G1]

instance : Decidable (refreshXBridgeHolds generators proof) := by
  unfold refreshXBridgeHolds
  infer_instance

/-- The two equations in the order of the code, each with its error. -/
def refreshChecksAt : Except ActError Unit := do
  rejectIf (¬refreshXBridgeHolds generators proof)
    (.verificationFailed "x BLS commitment bridge failed")
  rejectIf (refreshCombined generators hT currentEpoch nowUnix c proof ≠ 0)
    (.verificationFailed "Combined bridge+Schnorr check failed")

theorem refreshChecksAt_ok :
    refreshChecksAt generators hT currentEpoch nowUnix c proof = .ok () ↔
      RefreshAccepts generators hT currentEpoch nowUnix c proof := by
  simp only [refreshChecksAt, RefreshAccepts, rejectIf_bind_ok, rejectIf_ok, not_not]

end Equations

/-- What the verifier tests before it computes the challenge. -/
def refreshChecksBefore [DecidableEq G1] (proof : RefreshProof G1) : Except ActError Unit := do
  rejectIf (proof.nT = 0) (.verificationFailed "N_T is the identity")
  rejectIf (proof.aPrime = 0 ∨ proof.tBbs = 0) (.verificationFailed "Zero point in proof")

variable [AddCommGroup G2] [Module Scalar G2] [AddCommGroup GT] [Module Scalar GT]
  [AddCommGroup R] [Module DalekScalar R]

/-- `hash_to_g1(b"ACT:Epoch:", epoch)`. -/
def epochBase (bls : Blstrs G1 G2 GT) (epoch : UInt32) : G1 :=
  hashToG1 bls "ACT:Epoch:" (u32LeBytes epoch)

/-- The preimage of the challenge. No response is part of it. -/
def refreshTranscript (bls : Blstrs G1 G2 GT) (hCtx : Scalar) (pkMaster : G2)
    (currentEpoch : UInt32) (nowUnix : UInt64) (proof : RefreshProof G1) : List UInt8 :=
  let writeG1 := fun p : G1 => (bls.g1Compressed p).toList
  (Scalar.toBytes hCtx).toList ++ (bls.g2Compressed pkMaster).toList ++
    u32LeBytes currentEpoch ++ u64LeBytes nowUnix ++ writeG1 proof.nT ++
    writeG1 proof.kDaily ++ writeG1 proof.cDelta ++ writeG1 proof.xBlsCommitment ++
    proof.batchedEq.toBytes ++ writeG1 proof.aPrime ++ writeG1 proof.aBar ++
    writeG1 proof.tBbs ++ writeG1 proof.tScaleN ++ writeG1 proof.tN ++
    writeG1 proof.tScaleD ++ writeG1 proof.tD ++ writeG1 proof.tScaleB ++
    writeG1 proof.tB ++ writeG1 proof.tScaleX ++ writeG1 proof.tX ++
    "Refresh".toUTF8.toList

/-- `RefreshProver::challenge`. -/
def refreshChallenge (sha : Sha2) (bls : Blstrs G1 G2 GT) (hCtx : Scalar) (pkMaster : G2)
    (currentEpoch : UInt32) (nowUnix : UInt64) (proof : RefreshProof G1) : Scalar :=
  hashToScalar sha (refreshTranscript bls hCtx pkMaster currentEpoch nowUnix proof)

/-- The arguments of `RefreshProver::challenge`, the embedded proof before `to_bytes`. -/
@[ext]
structure RefreshChallengeInput (G1 G2 : Type) where
  hCtx : Scalar
  pkMaster : G2
  t : UInt32
  nowUnix : UInt64
  nT : G1
  kDaily : G1
  cDelta : G1
  xBlsCommitment : G1
  batchedEq : BatchedEqualityProof
  aPrime : G1
  aBar : G1
  tBbs : G1
  tScaleN : G1
  tN : G1
  tScaleD : G1
  tD : G1
  tScaleB : G1
  tB : G1
  tScaleX : G1
  tX : G1

/-- The bytes that `RefreshProver::challenge` writes into the hasher. -/
def RefreshChallengeInput.preimage (bls : Blstrs G1 G2 GT) (input : RefreshChallengeInput G1 G2) :
    List UInt8 :=
  let writeG1 := fun p : G1 => (bls.g1Compressed p).toList
  (Scalar.toBytes input.hCtx).toList ++ (bls.g2Compressed input.pkMaster).toList ++
    u32LeBytes input.t ++ u64LeBytes input.nowUnix ++ writeG1 input.nT ++
    writeG1 input.kDaily ++ writeG1 input.cDelta ++ writeG1 input.xBlsCommitment ++
    input.batchedEq.toBytes ++ writeG1 input.aPrime ++ writeG1 input.aBar ++
    writeG1 input.tBbs ++ writeG1 input.tScaleN ++ writeG1 input.tN ++
    writeG1 input.tScaleD ++ writeG1 input.tD ++ writeG1 input.tScaleB ++
    writeG1 input.tB ++ writeG1 input.tScaleX ++ writeG1 input.tX ++
    "Refresh".toUTF8.toList

/-- What the prover and the verifier call it with. -/
def RefreshProof.challengeInput (hCtx : Scalar) (pkMaster : G2) (currentEpoch : UInt32)
    (nowUnix : UInt64) (proof : RefreshProof G1) : RefreshChallengeInput G1 G2 where
  hCtx
  pkMaster
  t := currentEpoch
  nowUnix
  nT := proof.nT
  kDaily := proof.kDaily
  cDelta := proof.cDelta
  xBlsCommitment := proof.xBlsCommitment
  batchedEq := proof.batchedEq
  aPrime := proof.aPrime
  aBar := proof.aBar
  tBbs := proof.tBbs
  tScaleN := proof.tScaleN
  tN := proof.tN
  tScaleD := proof.tScaleD
  tD := proof.tD
  tScaleB := proof.tScaleB
  tB := proof.tB
  tScaleX := proof.tScaleX
  tX := proof.tX

theorem refreshTranscript_eq (bls : Blstrs G1 G2 GT) (hCtx : Scalar) (pkMaster : G2)
    (currentEpoch : UInt32) (nowUnix : UInt64) (proof : RefreshProof G1) :
    refreshTranscript bls hCtx pkMaster currentEpoch nowUnix proof =
      (proof.challengeInput hCtx pkMaster currentEpoch nowUnix).preimage bls := rfl

/-- The context of the expiry range proof. -/
def refreshBeqCtx (hCtx : Scalar) (currentEpoch : UInt32) (nowUnix : UInt64) : List UInt8 :=
  (Scalar.toBytes hCtx).toList ++ u32LeBytes currentEpoch ++ u64LeBytes nowUnix

/-- The range proof and the pairing check, whose results are read in this order. -/
def refreshProofsHold [DecidableEq GT] (sha : Sha2) (bls : Blstrs G1 G2 GT) (dalek : Dalek R)
    (generators : Generators G1 G2) (keys : ServerKeys generators) (hCtx : Scalar)
    (currentEpoch : UInt32) (nowUnix : UInt64) (proof : RefreshProof G1) :
    Except ActError Unit := do
  verifyBatchedEquality sha bls dalek proof.batchedEq proof.cDelta (generators.h 5)
    (generators.h 0) (refreshBeqCtx hCtx currentEpoch nowUnix)
    [proof.aPrime, proof.aBar, proof.tBbs, proof.nT, proof.kDaily, proof.xBlsCommitment]
  rejectIf (bls.pairingProductIsIdentity proof.aPrime keys.pkMaster (-proof.aBar)
    generators.g2 = false) (.verificationFailed "Pairing check failed")

/-- `verify_refresh`. The two scalars the server draws are arguments. -/
def verifyRefresh [DecidableEq G1] [DecidableEq GT] (sha : Sha2) (bls : Blstrs G1 G2 GT)
    (dalek : Dalek R) (proof : RefreshProof G1) (currentEpoch : UInt32) (nowUnix : UInt64)
    (generators : Generators G1 G2) (pkMaster : G2) (keys : ServerKeys generators)
    (hCtx : Scalar) (eDaily sPrimeDaily : Scalar) : Except ActError (RefreshResponse G1) := do
  refreshChecksBefore proof
  let c := refreshChallenge sha bls hCtx pkMaster currentEpoch nowUnix proof
  refreshChecksAt generators (epochBase bls currentEpoch) currentEpoch nowUnix c proof
  refreshProofsHold sha bls dalek generators keys hCtx currentEpoch nowUnix proof
  -- the commitment is signed as the client sent it
  let aDaily ← issueOn generators keys.skDaily proof.kDaily eDaily sPrimeDaily
  return { aDaily, eDaily, sPrimeDaily }

end Ebut
