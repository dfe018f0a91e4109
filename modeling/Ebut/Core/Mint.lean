import Ebut.Core.SameX
import Ebut.Core.Spend

/-!
# Minting a Master Token

The client commits to its ownership secret and proves that it knows the opening. The
server checks the proof and signs the commitment together with the quota and the expiry.

## Main definitions

* `BbsSignature`: A BBS+ signature.
* `commit`: A Pedersen commitment in the first group.
* `CanonicalX.random`, `CanonicalX.toBlsScalar`: The ownership secret.
* `ProofOfKnowledge`: The proof of the opening, with its prover and verifier.
* `ProofOfKnowledge.AcceptsAt`: The verifier's equation at a challenge.
* `MasterMintClient`: The client, from its request to the finished signature.
* `masterMintIssue`: The server.

## Theorems

* `toBlsScalar_eq`: The embedding is the cast.
* `proofOfKnowledge_verify_iff`: What the verifier of the opening checks.
-/

namespace Ebut

open LittleEndian

variable {G1 G2 GT : Type} [AddCommGroup G1] [Module Scalar G1] [AddCommGroup G2]
  [Module Scalar G2] [AddCommGroup GT] [Module Scalar GT]

structure BbsSignature (G1 : Type) where
  a : G1
  e : Scalar
  s : Scalar

/-- `commit`. -/
def commit (value blinding : Scalar) (baseValue baseBlinding : G1) : G1 :=
  value • baseValue + blinding • baseBlinding

/-- `CanonicalX::random`, of the bytes drawn. Zero would make every tag the identity. -/
def CanonicalX.random (b : Bytes 31) : CanonicalX :=
  if b.toList.all (· = 0) then b.set 0 1 else b

/-- `CanonicalX::to_bls_scalar`, also `to_ebut_scalar`: the bytes padded and decoded. -/
def CanonicalX.toBlsScalar (x : CanonicalX) : Scalar :=
  (fromBytesLe ⟨x.toList ++ [0], by rw [List.length_append, x.toList_length]; rfl⟩).getD 0

theorem toBlsScalar_eq (x : CanonicalX) :
    CanonicalX.toBlsScalar x = (leNat x.toList : Scalar) := by
  have hpad : leNat (x.toList ++ [0]) = leNat x.toList := leNat_append_zeros x.toList 1
  have hlt : leNat x.toList < blsOrder := (leNat_toList_lt x).trans (by decide +kernel)
  have hdecode : fromBytesLe ⟨x.toList ++ [0], by rw [List.length_append, x.toList_length]; rfl⟩ =
      some (leNat x.toList : Scalar) := by
    show (if leNat (x.toList ++ [0]) < blsOrder then
      some ((leNat (x.toList ++ [0]) : ℕ) : Scalar) else none) = _
    rw [hpad, if_pos hlt]
  rw [CanonicalX.toBlsScalar, hdecode, Option.getD_some]

/-- A Schnorr proof of knowledge of an opening of `K_sub`. -/
structure ProofOfKnowledge (G1 : Type) where
  t : G1
  sK : Scalar
  sR : Scalar

section Proof

variable (sha : Sha2) (bls : Blstrs G1 G2 GT)

/-- `ProofOfKnowledge::challenge`. -/
def ProofOfKnowledge.challenge (hCtx : Scalar) (kSubCommit t : G1) : Scalar :=
  hashToScalar sha <|
    (Scalar.toBytes hCtx).toList ++ (bls.g1Compressed kSubCommit).toList ++
    (bls.g1Compressed t).toList ++ "PoK:MasterSecret".toUTF8.toList

/-- The generators of the secret and of its blinder. -/
def ProofOfKnowledge.bases (generators : Generators G1 G2) : List G1 :=
  [generators.h 1, generators.h 0]

/-- `ProofOfKnowledge::prove`, the two blinders drawn given. -/
def ProofOfKnowledge.prove (alpha beta kSub rSub : Scalar) (kSubCommit : G1)
    (generators : Generators G1 G2) (hCtx : Scalar) : ProofOfKnowledge G1 :=
  let t := g1Msm (bases generators) [alpha, beta]
  let c := ProofOfKnowledge.challenge sha bls hCtx kSubCommit t
  { t
    sK := alpha + c * kSub
    sR := beta + c * rSub }

/-- `ProofOfKnowledge::verify`. -/
def ProofOfKnowledge.verify [DecidableEq G1] (proof : ProofOfKnowledge G1) (kSubCommit : G1)
    (generators : Generators G1 G2) (hCtx : Scalar) : Except ActError Unit :=
  let c := ProofOfKnowledge.challenge sha bls hCtx kSubCommit proof.t
  let lhs := g1Msm (bases generators) [proof.sK, proof.sR]
  let rhs := proof.t + c • kSubCommit
  rejectIf (lhs ≠ rhs) (.verificationFailed "PoK verification failed")

variable {generators : Generators G1 G2}

/-- The equation of the verifier at a challenge. -/
def ProofOfKnowledge.AcceptsAt (generators : Generators G1 G2) (kSubCommit : G1) (c : Scalar)
    (proof : ProofOfKnowledge G1) : Prop :=
  g1Msm (bases generators) [proof.sK, proof.sR] = proof.t + c • kSubCommit

theorem proofOfKnowledge_verify_iff [DecidableEq G1] {sha : Sha2} {bls : Blstrs G1 G2 GT}
    {proof : ProofOfKnowledge G1} {kSubCommit : G1} {hCtx : Scalar} :
    proof.verify sha bls kSubCommit generators hCtx = .ok () ↔
      ProofOfKnowledge.AcceptsAt generators kSubCommit
        (ProofOfKnowledge.challenge sha bls hCtx kSubCommit proof.t) proof := by
  unfold ProofOfKnowledge.verify ProofOfKnowledge.AcceptsAt
  rw [rejectIf_ok, not_not]

end Proof

structure MasterMintRequest (G1 : Type) where
  kSubCommit : G1
  pok : ProofOfKnowledge G1

/-- Client state during master token minting. -/
structure MasterMintClient where
  kSub : Scalar
  rSub : Scalar
  cMax : UInt32
  eMax : UInt64
  canonicalX : CanonicalX

/-- What the client draws. -/
structure MasterMintCoins where
  rSub : Scalar
  alpha : Scalar
  beta : Scalar

/-- `MasterMintClient::begin_with_x`. -/
def MasterMintClient.beginWithX (sha : Sha2) (bls : Blstrs G1 G2 GT) (coins : MasterMintCoins)
    (canonicalX : CanonicalX) (cMax : UInt32) (eMax : UInt64) (generators : Generators G1 G2)
    (hCtx : Scalar) : MasterMintClient × MasterMintRequest G1 :=
  let kSub := canonicalX.toBlsScalar
  let kSubCommit := commit kSub coins.rSub (generators.h 1) (generators.h 0)
  let pok := ProofOfKnowledge.prove sha bls coins.alpha coins.beta kSub coins.rSub kSubCommit
    generators hCtx
  ({ kSub, rSub := coins.rSub, cMax, eMax, canonicalX }, { kSubCommit, pok })

/-- `MasterMintClient::begin`, with the bytes drawn for the secret. -/
def MasterMintClient.begin (sha : Sha2) (bls : Blstrs G1 G2 GT) (b : Bytes 31)
    (coins : MasterMintCoins) (cMax : UInt32) (eMax : UInt64) (generators : Generators G1 G2)
    (hCtx : Scalar) : MasterMintClient × MasterMintRequest G1 :=
  MasterMintClient.beginWithX sha bls coins (CanonicalX.random b) cMax eMax generators hCtx

/-- `MasterMintClient::finalize`. -/
def MasterMintClient.finalize (client : MasterMintClient) (aSub : G1) (eSub sPrimeSub : Scalar) :
    BbsSignature G1 :=
  { a := aSub, e := eSub, s := client.rSub + sPrimeSub }

/-- `MasterMintServer::issue`. The two scalars the server draws are arguments. -/
def masterMintIssue [DecidableEq G1] (sha : Sha2) (bls : Blstrs G1 G2 GT)
    (request : MasterMintRequest G1) (cMax : UInt32) (eMax : UInt64)
    (generators : Generators G1 G2) (keys : ServerKeys generators) (hCtx : Scalar)
    (eSub sPrimeSub : Scalar) : Except ActError (G1 × Scalar × Scalar) := do
  request.pok.verify sha bls request.kSubCommit generators hCtx
  rejectIf (cMax = 0) (.protocolError "c_max must be positive")
  -- the quota and the expiry are added to the commitment of the client
  let msgPart := g1Msm
    [generators.g1, request.kSubCommit, generators.h 0, generators.h 3, generators.h 5]
    [1, 1, sPrimeSub, Scalar.ofU32 cMax, Scalar.ofU64 eMax]
  let denom := eSub + keys.skMaster
  rejectIf (denom = 0) (.protocolError "Division by zero")
  return (denom⁻¹ • msgPart, eSub, sPrimeSub)

end Ebut
