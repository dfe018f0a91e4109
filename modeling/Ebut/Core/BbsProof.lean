import Ebut.Core.Mint

/-!
# Proofs of Possession of a Signature

The general proof of possession of a BBS+ signature on up to five messages, some of which
may be disclosed. The verifier hashes the disclosed messages into the challenge; the
pairing and the Schnorr equation are over the responses alone.

The loops that push a generator and a scalar for each message are lists of terms here. The
verifier is cut at its challenge, which `verifyAt` takes as an argument.

## Main definitions

* `messageTerms`: The terms `h_{i+1}^{m_i}` of a message vector.
* `BbsProof`, `BbsProof.prove`: The proof and its prover.
* `BbsProof.computeChallenge`: The Fiat-Shamir challenge.
* `BbsProof.verifyAt`, `BbsProof.verify`: The verifier.

## Theorems

* `msmTerms_eq_sum`: A multi-scalar multiplication over terms is their sum.
* `BbsProof.verifyAt_ok`: What the verifier accepts.
-/

namespace Ebut

variable {G1 G2 GT : Type} [AddCommGroup G1] [Module Scalar G1]

/-- `g1_msm` over bases and scalars that are pushed in pairs. -/
def msmTerms (terms : List (G1 × Scalar)) : G1 :=
  g1Msm (terms.map Prod.fst) (terms.map Prod.snd) ((List.length_map _).trans
    (List.length_map _).symm)

theorem msmTerms_eq_sum (terms : List (G1 × Scalar)) :
    msmTerms terms = (terms.map fun p => p.2 • p.1).sum := by
  rw [msmTerms, g1Msm_eq_sum, List.zip_map', List.map_map]
  rfl

/-- The turns of `for i in 0..l`: the generator `h_{i+1}` with the scalar of message `i`. -/
def messageTerms (generators : Generators G1 G2) (scalars : List Scalar) : List (G1 × Scalar) :=
  ((List.finRange 5).map fun i => generators.h i.succ).zip scalars

/-- The multiplicative BBS+ proof of knowledge. -/
structure BbsProof (G1 : Type) where
  aPrime : G1
  aBar : G1
  tBbs : G1
  zE : Scalar
  zR1 : Scalar
  zSTilde : Scalar
  zMTilde : List Scalar

/-- Internal state generated during proof creation, needed by bridging layers. -/
structure BbsProofContext where
  r1 : Scalar
  sTilde : Scalar
  mTilde : List Scalar

/-- What the prover draws: a non-zero randomiser and the blinders of the responses. -/
structure BbsProofCoins where
  r1 : Scalar
  rhoE : Scalar
  rhoR1 : Scalar
  rhoSTilde : Scalar
  rhoMTilde : List Scalar

section Challenge

variable [AddCommGroup G2] [Module Scalar G2] [AddCommGroup GT] [Module Scalar GT]
  (sha : Sha2) (bls : Blstrs G1 G2 GT)

/-- `BbsProof::compute_challenge`. Of the messages only the disclosed ones are hashed. -/
def BbsProof.computeChallenge (hCtx : Scalar) (pk : G2) (aPrime aBar tBbs : G1)
    (messages : List Scalar) (disclosed : List Bool) (aux : List UInt8) : Scalar :=
  hashToScalar sha <|
    (Scalar.toBytes hCtx).toList ++ (bls.g2Compressed pk).toList ++
    (bls.g1Compressed aPrime).toList ++ (bls.g1Compressed aBar).toList ++
    (bls.g1Compressed tBbs).toList ++
    ((disclosed.zip messages).flatMap fun p => if p.1 then (Scalar.toBytes p.2).toList else []) ++
    aux

/-- `BbsProof::prove`. -/
def BbsProof.prove (coins : BbsProofCoins) (generators : Generators G1 G2) (pk : G2)
    (sig : BbsSignature G1) (messages : List Scalar) (disclosed : List Bool) (hCtx : Scalar)
    (aux : List UInt8) : Except ActError (BbsProof G1 × BbsProofContext) := do
  rejectIf (disclosed.length ≠ messages.length) (.protocolError "disclosed mask length mismatch")
  rejectIf (messages.length > 5)
    (.protocolError "EBUT supports at most 5 hidden messages in this integrated layout")
  let aPrime := coins.r1 • sig.a
  let msgPart := msmTerms
    ((generators.g1, 1) :: (generators.h 0, sig.s) :: messageTerms generators messages)
  let aBar := (-sig.e) • aPrime + coins.r1 • msgPart
  let sTilde := sig.s * coins.r1
  let mTilde := messages.map (· * coins.r1)
  let tBbs := msmTerms <|
    (aPrime, -coins.rhoE) :: (generators.g1, coins.rhoR1) :: (generators.h 0, coins.rhoSTilde) ::
      messageTerms generators coins.rhoMTilde
  let c := BbsProof.computeChallenge sha bls hCtx pk aPrime aBar tBbs messages disclosed aux
  return ({ aPrime, aBar, tBbs
            zE := coins.rhoE + c * sig.e
            zR1 := coins.rhoR1 + c * coins.r1
            zSTilde := coins.rhoSTilde + c * sTilde
            zMTilde := coins.rhoMTilde.zipWith (fun rho m => rho + c * m) mTilde },
          { r1 := coins.r1, sTilde, mTilde })

end Challenge

/-- The left side of the Schnorr equation. Disclosed messages have responses like hidden ones. -/
def BbsProof.schnorrLhs (generators : Generators G1 G2) (proof : BbsProof G1) : G1 :=
  msmTerms <|
    (proof.aPrime, -proof.zE) :: (generators.g1, proof.zR1) :: (generators.h 0, proof.zSTilde) ::
      messageTerms generators proof.zMTilde

section Verifier

variable [AddCommGroup G2] [Module Scalar G2] [AddCommGroup GT] [Module Scalar GT]
  [DecidableEq G1] [DecidableEq GT]

/-- The checks of `BbsProof::verify` at a challenge. -/
def BbsProof.verifyAt (bls : Blstrs G1 G2 GT) (proof : BbsProof G1)
    (generators : Generators G1 G2) (pk : G2) (disclosedMessages : List (Option Scalar))
    (c : Scalar) : Except ActError Unit := do
  let l := disclosedMessages.length
  rejectIf (l > 5) (.verificationFailed "Too many messages (max 5)")
  rejectIf (proof.zMTilde.length ≠ l) (.verificationFailed "message response length mismatch")
  rejectIf (proof.aPrime = 0) (.verificationFailed "A' is the point at infinity")
  rejectIf (proof.tBbs = 0) (.verificationFailed "T_BBS is the point at infinity")
  rejectIf (bls.pairingProductIsIdentity proof.aPrime pk (-proof.aBar) generators.g2 = false)
    (.verificationFailed "Pairing check failed")
  rejectIf (proof.schnorrLhs generators ≠ proof.tBbs + c • proof.aBar)
    (.verificationFailed "Schnorr equation check failed")

/-- `BbsProof::verify`. A message that is not disclosed is hashed as nothing. -/
def BbsProof.verify (sha : Sha2) (bls : Blstrs G1 G2 GT) (proof : BbsProof G1)
    (generators : Generators G1 G2) (pk : G2) (disclosedMessages : List (Option Scalar))
    (hCtx : Scalar) (aux : List UInt8) : Except ActError Unit :=
  proof.verifyAt bls generators pk disclosedMessages
    (BbsProof.computeChallenge sha bls hCtx pk proof.aPrime proof.aBar proof.tBbs
      (disclosedMessages.map fun opt => opt.getD 0) (disclosedMessages.map Option.isSome) aux)

theorem BbsProof.verifyAt_ok {bls : Blstrs G1 G2 GT} {proof : BbsProof G1}
    {generators : Generators G1 G2} {pk : G2} {disclosedMessages : List (Option Scalar)}
    {c : Scalar} :
    proof.verifyAt bls generators pk disclosedMessages c = .ok () ↔
      disclosedMessages.length ≤ 5 ∧ proof.zMTilde.length = disclosedMessages.length ∧
        proof.aPrime ≠ 0 ∧ proof.tBbs ≠ 0 ∧
        bls.pairingProductIsIdentity proof.aPrime pk (-proof.aBar) generators.g2 = true ∧
        proof.schnorrLhs generators = proof.tBbs + c • proof.aBar := by
  simp only [BbsProof.verifyAt, rejectIf_bind_ok, rejectIf_ok, not_not, not_lt, ne_eq,
    Bool.not_eq_false, gt_iff_lt]

end Verifier

end Ebut
