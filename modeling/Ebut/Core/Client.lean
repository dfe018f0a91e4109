import Ebut.Core.Mint
import Ebut.Core.Refresh

/-!
# The Client

The provers of a refresh and of a spend, and the client states that turn the server's
response into the next signature.

A prover first fixes every commitment and every first message, then has its range proofs
made, and answers the challenge over all of them. It is cut the same way: the points are a
message, and a proof is a message with the responses at a challenge.

Everything drawn is an argument. The random generator seeded from the caller's is not
modelled, only what is drawn from it.

## Main definitions

* `SpendCoins`, `SpendMessage`, `spendMessage`: What is drawn, and the points.
* `spendProofAt`: The proof at a challenge.
* `spendProve`: `SpendProver::prove`.
* `SpendClient.finalize`: The refund as the next token.
* `RefreshCoins`, `RefreshMessage`, `refreshMessage`, `refreshProofAt`, `refreshProve`,
  `RefreshClient.finalize`: The same for a refresh.
-/

namespace Ebut

variable {G1 G2 GT R : Type} [AddCommGroup G1] [Module Scalar G1]

section Spend

/-- What the prover of a spend draws. -/
structure SpendCoins where
  kStar : Scalar
  kStar_ne : kStar ≠ 0
  rStar : Scalar
  rBp : Scalar
  rDelta : Scalar
  rX : Scalar
  r1 : Scalar
  r1_ne : r1 ≠ 0
  rhoE : Scalar
  rhoR1 : Scalar
  rhoS : Scalar
  rhoX : Scalar
  rhoC : Scalar
  rhoEmax : Scalar
  rhoU : Scalar
  rhoV : Scalar
  rhoW : Scalar
  rhoRx : Scalar
  rhoDelta : Scalar
  beq : BeqCoins
  expiry : BeqCoins

/-- The commitments and the first messages of a spend. -/
structure SpendMessage (G1 : Type) where
  kPrime : G1
  cBp : G1
  cDelta : G1
  xBlsCommitment : G1
  aPrime : G1
  aBar : G1
  tBbs : G1
  cTotal : G1
  tScaleT : G1
  tTotal : G1
  tScaleR : G1
  tRefund : G1
  tScaleBp : G1
  tBp : G1
  tScaleX : G1
  tX : G1
  tScaleExp : G1
  tExp : G1

structure SpendClient where
  kCur : Scalar
  cBal : UInt32
  tIssue : UInt32
  eMax : UInt64
  kStar : Scalar
  rStar : Scalar
  remainingBalance : UInt32
  /-- Blinder for the spend-time Emax commitment. -/
  rDelta : Scalar
  rBp : Scalar

/-- A daily token in the hands of the client: its signature and the disclosed attributes. -/
structure HeldToken (G1 : Type) where
  sig : BbsSignature G1
  k : Scalar
  c : UInt32
  tIssue : UInt32
  eMax : UInt64

/-- `SpendClient::finalize`. -/
def SpendClient.finalize (client : SpendClient) (response : SpendResponse G1) : HeldToken G1 where
  sig := ⟨response.aRefund, response.eRefund, client.rStar + response.sPrimeRefund⟩
  k := client.kStar
  c := client.remainingBalance
  tIssue := client.tIssue
  eMax := client.eMax

variable (generators : Generators G1 G2) (coins : SpendCoins) (token : BbsSignature G1)
  (kSub kCur : Scalar) (cBal tIssue : UInt32) (eMax nowUnix : UInt64) (spendAmount : UInt32)

/-- The points of a spend. -/
def spendMessage : SpendMessage G1 :=
  let expiryDelta := eMax - nowUnix
  let m := cBal - spendAmount
  -- the non-transferable refund commitment
  let kPrime := kSub • generators.h 1 + coins.kStar • generators.h 2 +
    Scalar.ofU32 m • generators.h 3 + Scalar.ofU32 tIssue • generators.h 4 +
    (Scalar.ofU64 eMax • generators.h 5 + coins.rStar • generators.h 0)
  let cBp := Scalar.ofU32 m • generators.h 3 + coins.rBp • generators.h 0
  let cDelta := Scalar.ofU64 expiryDelta • generators.h 5 + coins.rDelta • generators.h 0
  let xBlsCommitment := kSub • generators.h 1 + coins.rX • generators.h 0
  -- the token, randomised
  let aPrime := coins.r1 • token.a
  let msgPart := g1Msm
    [generators.g1, generators.h 0, generators.h 1, generators.h 2, generators.h 3, generators.h 4,
      generators.h 5]
    [1, token.s, kSub, kCur, Scalar.ofU32 cBal, Scalar.ofU32 tIssue, Scalar.ofU64 eMax]
  let aBar := (-token.e) • aPrime + coins.r1 • msgPart
  let tBbs := g1Msm
    [aPrime, generators.g1, generators.h 0, generators.h 1, generators.h 2, generators.h 3,
      generators.h 4, generators.h 5]
    [-coins.rhoE, coins.rhoR1, coins.rhoS, coins.rhoX, kCur * coins.rhoR1, coins.rhoC,
      Scalar.ofU32 tIssue * coins.rhoR1, coins.rhoEmax]
  -- the bridges, each a multiple of its commitment and a first message
  let bridgeBases := [generators.h 1, generators.h 2, generators.h 3, generators.h 4,
    generators.h 5, generators.h 0]
  let cTotal := kPrime + Scalar.ofU32 spendAmount • generators.h 3
  let rhoM := coins.rhoC - Scalar.ofU32 spendAmount * coins.rhoR1
  let cExpBridge := cDelta + Scalar.ofU64 nowUnix • generators.h 5
  { kPrime, cBp, cDelta, xBlsCommitment, aPrime, aBar, tBbs, cTotal
    tScaleT := coins.rhoR1 • cTotal
    tTotal := g1Msm bridgeBases [coins.rhoX, coins.rhoU, coins.rhoC,
      coins.rhoR1 * Scalar.ofU32 tIssue, coins.rhoEmax, coins.rhoV]
    tScaleR := coins.rhoR1 • kPrime
    tRefund := g1Msm bridgeBases [coins.rhoX, coins.rhoU, rhoM,
      coins.rhoR1 * Scalar.ofU32 tIssue, coins.rhoEmax, coins.rhoV]
    tScaleBp := coins.rhoR1 • cBp
    tBp := g1Msm [generators.h 3, generators.h 0] [rhoM, coins.rhoW]
    tScaleX := coins.rhoR1 • xBlsCommitment
    tX := g1Msm [generators.h 1, generators.h 0] [coins.rhoX, coins.rhoRx]
    tScaleExp := coins.rhoR1 • cExpBridge
    tExp := g1Msm [generators.h 5, generators.h 0] [coins.rhoEmax, coins.rhoDelta] }

/-- The proof with the responses at challenge `c`. -/
def spendProofAt (batchedEq expiryEq : BatchedEqualityProof) (c : Scalar) : SpendProof G1 :=
  let msg := spendMessage generators coins token kSub kCur cBal tIssue eMax nowUnix spendAmount
  { aPrime := msg.aPrime
    aBar := msg.aBar
    tBbs := msg.tBbs
    tScaleT := msg.tScaleT
    tTotal := msg.tTotal
    tScaleR := msg.tScaleR
    tRefund := msg.tRefund
    tScaleBp := msg.tScaleBp
    tBp := msg.tBp
    zE := coins.rhoE + c * token.e
    zR1 := coins.rhoR1 + c * coins.r1
    zSTilde := coins.rhoS + c * (token.s * coins.r1)
    zXTilde := coins.rhoX + c * (kSub * coins.r1)
    zCTilde := coins.rhoC + c * (Scalar.ofU32 cBal * coins.r1)
    zETilde := coins.rhoEmax + c * (Scalar.ofU64 eMax * coins.r1)
    zU := coins.rhoU + c * (coins.kStar * coins.r1)
    zV := coins.rhoV + c * (coins.rStar * coins.r1)
    zW := coins.rhoW + c * (coins.rBp * coins.r1)
    batchedEq
    s := spendAmount
    kCur
    tIssue
    kPrime := msg.kPrime
    cBp := msg.cBp
    eMax
    xBlsCommitment := msg.xBlsCommitment
    tScaleX := msg.tScaleX
    tX := msg.tX
    zRX := coins.rhoRx + c * (coins.rX * coins.r1)
    cDelta := msg.cDelta
    expiryEq
    tScaleExp := msg.tScaleExp
    tExp := msg.tExp
    zRDelta := coins.rhoDelta + c * (coins.rDelta * coins.r1) }

variable [AddCommGroup G2] [Module Scalar G2] [AddCommGroup GT] [Module Scalar GT]
  [AddCommGroup R] [Module DalekScalar R] (sha : Sha2) (bls : Blstrs G1 G2 GT) (dalek : Dalek R)
  (nonce : Bytes 16) (pkDaily : G2) (hCtx : Scalar)

/-- `SpendProver::prove`. -/
def spendProve : Except ActError (SpendClient × SpendProof G1) := do
  rejectIf (spendAmount = 0) (.protocolError "Spend amount must be positive")
  rejectIf (spendAmount > cBal) (.protocolError "Insufficient balance")
  rejectIf (eMax < nowUnix) (.protocolError "Token expired")
  let expiryDelta := eMax - nowUnix
  let m := cBal - spendAmount
  let msg := spendMessage generators coins token kSub kCur cBal tIssue eMax nowUnix spendAmount
  let beqCtx := (Scalar.toBytes hCtx).toList ++ u32LeBytes spendAmount ++
    (Scalar.toBytes kCur).toList ++ u32LeBytes tIssue ++ u64LeBytes eMax ++ u64LeBytes nowUnix ++
    nonce.toList
  let (batchedEq, _) ← proveBatchedEquality sha bls dalek coins.beq m.toUInt64 coins.rBp
    (generators.h 3) (generators.h 0) beqCtx
    [msg.aPrime, msg.aBar, msg.tBbs, msg.kPrime, msg.cTotal, msg.xBlsCommitment, msg.cDelta]
  let expiryCtx := (Scalar.toBytes hCtx).toList ++ u32LeBytes tIssue ++ u64LeBytes eMax ++
    u64LeBytes nowUnix ++ (Scalar.toBytes kCur).toList ++ nonce.toList
  let (expiryEq, _) ← proveBatchedEquality sha bls dalek coins.expiry expiryDelta coins.rDelta
    (generators.h 5) (generators.h 0) expiryCtx
    [msg.aPrime, msg.aBar, msg.tBbs, msg.kPrime, msg.cDelta, msg.xBlsCommitment]
  let proofAt := spendProofAt generators coins token kSub kCur cBal tIssue eMax nowUnix spendAmount
    batchedEq expiryEq
  -- the challenge is over the points, so it is that of the proof at any challenge
  let c := spendChallenge sha bls generators hCtx pkDaily nowUnix nonce (proofAt 0)
  let client : SpendClient := {
    kCur, cBal, tIssue, eMax
    kStar := coins.kStar
    rStar := coins.rStar
    remainingBalance := m
    rDelta := coins.rDelta
    rBp := coins.rBp }
  return (client, proofAt c)

end Spend

section Refresh

/-- What the prover of a refresh draws. -/
structure RefreshCoins where
  kDaily : Scalar
  kDaily_ne : kDaily ≠ 0
  rDaily : Scalar
  rDelta : Scalar
  rX : Scalar
  r1 : Scalar
  r1_ne : r1 ≠ 0
  rhoE : Scalar
  rhoR1 : Scalar
  rhoS : Scalar
  rhoK : Scalar
  rhoC : Scalar
  rhoEMsg : Scalar
  rhoU : Scalar
  rhoV : Scalar
  rhoW : Scalar
  rhoRx : Scalar
  beq : BeqCoins

/-- The commitments and the first messages of a refresh. -/
structure RefreshMessage (G1 : Type) where
  nT : G1
  kDaily : G1
  cDelta : G1
  xBlsCommitment : G1
  aPrime : G1
  aBar : G1
  tBbs : G1
  tScaleN : G1
  tN : G1
  tScaleD : G1
  tD : G1
  tScaleB : G1
  tB : G1
  tScaleX : G1
  tX : G1

structure RefreshClient where
  kSub : Scalar
  cMax : UInt32
  eMax : UInt64
  t : UInt32
  kDaily : Scalar
  rDaily : Scalar
  rDelta : Scalar

/-- `RefreshClient::finalize`. -/
def RefreshClient.finalize (client : RefreshClient) (response : RefreshResponse G1) :
    BbsSignature G1 × Scalar :=
  (⟨response.aDaily, response.eDaily, client.rDaily + response.sPrimeDaily⟩, client.kDaily)

variable (generators : Generators G1 G2) (coins : RefreshCoins) (master : BbsSignature G1)
  (kSub : Scalar) (cMax : UInt32) (eMax : UInt64) (t : UInt32) (nowUnix : UInt64) (hT : G1)

/-- The points of a refresh, for the nullifier base `hT`. -/
def refreshMessage : RefreshMessage G1 :=
  let delta := eMax - nowUnix
  let nT := kSub • hT
  -- the hidden secret and expiry are carried forward into the daily token
  let kDaily := kSub • generators.h 1 + coins.kDaily • generators.h 2 +
    Scalar.ofU32 cMax • generators.h 3 + Scalar.ofU32 t • generators.h 4 +
    (Scalar.ofU64 eMax • generators.h 5 + coins.rDaily • generators.h 0)
  let cDelta := Scalar.ofU64 delta • generators.h 5 + coins.rDelta • generators.h 0
  let xBlsCommitment := kSub • generators.h 1 + coins.rX • generators.h 0
  -- the token, randomised
  let aPrime := coins.r1 • master.a
  let msgPart := g1Msm
    [generators.g1, generators.h 0, generators.h 1, generators.h 3, generators.h 5]
    [1, master.s, kSub, Scalar.ofU32 cMax, Scalar.ofU64 eMax]
  let aBar := (-master.e) • aPrime + coins.r1 • msgPart
  let tBbs := g1Msm
    [aPrime, generators.g1, generators.h 0, generators.h 1, generators.h 3, generators.h 5]
    [-coins.rhoE, coins.rhoR1, coins.rhoS, coins.rhoK, coins.rhoC, coins.rhoEMsg]
  let cBridge := cDelta + Scalar.ofU64 nowUnix • generators.h 5
  { nT, kDaily, cDelta, xBlsCommitment, aPrime, aBar, tBbs
    tScaleN := coins.rhoR1 • nT
    tN := coins.rhoK • hT
    tScaleD := coins.rhoR1 • kDaily
    tD := g1Msm
      [generators.h 1, generators.h 2, generators.h 3, generators.h 4, generators.h 5,
        generators.h 0]
      [coins.rhoK, coins.rhoU, coins.rhoC, coins.rhoR1 * Scalar.ofU32 t, coins.rhoEMsg,
        coins.rhoV]
    tScaleB := coins.rhoR1 • cBridge
    tB := g1Msm [generators.h 5, generators.h 0] [coins.rhoEMsg, coins.rhoW]
    tScaleX := coins.rhoR1 • xBlsCommitment
    tX := g1Msm [generators.h 1, generators.h 0] [coins.rhoK, coins.rhoRx] }

/-- The proof with the responses at challenge `c`. -/
def refreshProofAt (batchedEq : BatchedEqualityProof) (c : Scalar) : RefreshProof G1 :=
  let msg := refreshMessage generators coins master kSub cMax eMax t nowUnix hT
  { aPrime := msg.aPrime
    aBar := msg.aBar
    tBbs := msg.tBbs
    tScaleN := msg.tScaleN
    tN := msg.tN
    tScaleD := msg.tScaleD
    tD := msg.tD
    tScaleB := msg.tScaleB
    tB := msg.tB
    zE := coins.rhoE + c * master.e
    zR1 := coins.rhoR1 + c * coins.r1
    zSTilde := coins.rhoS + c * (master.s * coins.r1)
    zKTilde := coins.rhoK + c * (kSub * coins.r1)
    zCTilde := coins.rhoC + c * (Scalar.ofU32 cMax * coins.r1)
    zETilde := coins.rhoEMsg + c * (Scalar.ofU64 eMax * coins.r1)
    zU := coins.rhoU + c * (coins.kDaily * coins.r1)
    zV := coins.rhoV + c * (coins.rDaily * coins.r1)
    zW := coins.rhoW + c * (coins.rDelta * coins.r1)
    batchedEq
    nT := msg.nT
    kDaily := msg.kDaily
    cDelta := msg.cDelta
    xBlsCommitment := msg.xBlsCommitment
    tScaleX := msg.tScaleX
    tX := msg.tX
    zRX := coins.rhoRx + c * (coins.rX * coins.r1) }

variable [AddCommGroup G2] [Module Scalar G2] [AddCommGroup GT] [Module Scalar GT]
  [AddCommGroup R] [Module DalekScalar R] (sha : Sha2) (bls : Blstrs G1 G2 GT) (dalek : Dalek R)
  (pkMaster : G2) (hCtx : Scalar)

/-- `RefreshProver::prove`. -/
def refreshProve : Except ActError (RefreshClient × RefreshProof G1) := do
  rejectIf (eMax < nowUnix) (.protocolError "Master token expired")
  let delta := eMax - nowUnix
  let hT := epochBase bls t
  let msg := refreshMessage generators coins master kSub cMax eMax t nowUnix hT
  let beqCtx := (Scalar.toBytes hCtx).toList ++ u32LeBytes t ++ u64LeBytes nowUnix
  let (batchedEq, _) ← proveBatchedEquality sha bls dalek coins.beq delta coins.rDelta
    (generators.h 5) (generators.h 0) beqCtx
    [msg.aPrime, msg.aBar, msg.tBbs, msg.nT, msg.kDaily, msg.xBlsCommitment]
  let proofAt := refreshProofAt generators coins master kSub cMax eMax t nowUnix hT batchedEq
  -- the challenge is over the points, so it is that of the proof at any challenge
  let c := refreshChallenge sha bls hCtx pkMaster t nowUnix (proofAt 0)
  let client : RefreshClient := {
    kSub, cMax, eMax, t
    kDaily := coins.kDaily
    rDaily := coins.rDaily
    rDelta := coins.rDelta }
  return (client, proofAt c)

end Refresh

end Ebut
