import Ebut.Core.Client
import Ebut.Core.NonMembership
import Ebut.Core.Revocation

/-!
# Revocation of Refreshes and Spends

A client takes the signed gap of its expiry from the list and makes the non-membership
proof on the bases of the expiry commitment in its refresh or spend proof. The verifier
rebuilds that commitment from the proof and a time. The time is the one of the list, which
has no part in either proof.

## Main definitions

* `proveEmaxNotRevokedWithBases`, `verifyEmaxNotRevokedWithBases`: Proof and verification
  under the context of a list.
* `verifyRefreshNotRevoked`, `verifySpendNotRevoked`: The verifier for an EBUT proof.
* `ClientRevocationProof`: The proof with the Ristretto commitment.
* `SignedRevocationList.proveEmaxWithBases`: The client's side.
* `SignedRevocationList.proveRefreshClient`, `SignedRevocationList.proveSpendClient`: The
  same from the client states.
* `verifyRefreshNotRevokedFromClientProof`, `verifySpendNotRevokedFromClientProof`: The
  server's side.

## Theorems

* `verifyEmaxNotRevokedWithBases_ok`: What the verifier accepts.
-/

namespace Ebut

open V3Zkp

variable {P G1 G2 GT R : Type} [AddCommGroup G1] [Module Scalar G1] [AddCommGroup G2]
  [Module Scalar G2] [AddCommGroup GT] [Module Scalar GT] [AddCommGroup R] [Module DalekScalar R]

/-- A client-side revocation proof with the Ristretto commitment that the verifier needs.
The gap is not part of it. -/
structure ClientRevocationProof (P G1 GT R : Type) where
  proof : NonMembershipProof P G1 GT R
  /-- Ristretto commitment to the hidden Emax. -/
  userComRist : R

section Prover

variable (sha : Sha2) (bls : Blstrs G1 G2 GT) (dalek : Dalek R)

/-- `prove_emax_not_revoked_with_bases`. -/
def proveEmaxNotRevokedWithBases (coins : NonMembershipCoins P R) (ctx : RevocationContext)
    (serverPk : RevocationPublicKey G2) (inputs : GapWitnessInputs G1)
    (blsValueBase blsBlindBase : G1) : Except ActError (NonMembershipProof P G1 GT R) := do
  validateGapInterval inputs.emax inputs.interval ctx.nowUnix
  createNonMembershipProofTimedWithContextAndBases sha bls dalek coins inputs.emax inputs.r1Emax
    inputs.r2Emax serverPk inputs.interval inputs.signature inputs.r2Ea inputs.r2Eb inputs.r1Ea
    inputs.r1Eb (gapContextScalar sha ctx) blsValueBase blsBlindBase

/-- What the client draws: the blinders of the Ristretto commitment and of the witness
inputs, and what the prover draws. -/
structure ClientRevocationCoins (P R : Type) where
  r1Emax : DalekScalar
  r2Ea : Scalar
  r2Eb : Scalar
  r1Ea : DalekScalar
  r1Eb : DalekScalar
  prover : NonMembershipCoins P R

namespace SignedRevocationList

variable (list : SignedRevocationList G1) (coins : ClientRevocationCoins P R)
  (serverPk : RevocationPublicKey G2)

/-- `prove_emax_with_bases`. -/
def proveEmaxWithBases (emax : UInt64) (r2Emax : Scalar) (blsValueBase blsBlindBase : G1) :
    Except ActError (ClientRevocationProof P G1 GT R) := do
  let inputs ← list.witnessInputs emax coins.r1Emax r2Emax coins.r2Ea coins.r2Eb coins.r1Ea
    coins.r1Eb
  let proof ← proveEmaxNotRevokedWithBases sha bls dalek coins.prover list.ctx serverPk inputs
    blsValueBase blsBlindBase
  let userComRist := ristrettoCommit sha dalek emax coins.r1Emax
  return ⟨proof, userComRist⟩

/-- `prove_refresh_client`. -/
def proveRefreshClient (client : RefreshClient) (generators : Generators G1 G2) :
    Except ActError (ClientRevocationProof P G1 GT R) :=
  list.proveEmaxWithBases sha bls dalek coins serverPk client.eMax client.rDelta (generators.h 5)
    (generators.h 0)

/-- `prove_spend_client`. -/
def proveSpendClient (client : SpendClient) (generators : Generators G1 G2) :
    Except ActError (ClientRevocationProof P G1 GT R) :=
  list.proveEmaxWithBases sha bls dalek coins serverPk client.eMax client.rDelta (generators.h 5)
    (generators.h 0)

end SignedRevocationList

end Prover

section Verifier

variable [DecidableEq G1] [DecidableEq GT] [DecidableEq R] (sha : Sha2) (bls : Blstrs G1 G2 GT)
  (dalek : Dalek R) (ranges : RangeProofs P R)

section Proof

variable (ctx : RevocationContext) (revocationProof : NonMembershipProof P G1 GT R)
  (serverPk : RevocationPublicKey G2)

/-- `verify_emax_not_revoked_with_bases`. -/
def verifyEmaxNotRevokedWithBases (userComRist : R) (userComBls blsValueBase blsBlindBase : G1) :
    Except ActError Unit :=
  let ok := verifyNonMembershipProofTimedWithContextAndBases sha bls dalek ranges revocationProof
    serverPk userComRist userComBls (gapContextScalar sha ctx) blsValueBase blsBlindBase
  if ok then .ok () else .error (.verificationFailed "revocation non-membership proof failed")

variable {sha bls dalek ranges ctx revocationProof serverPk} in
theorem verifyEmaxNotRevokedWithBases_ok {userComRist : R}
    {userComBls blsValueBase blsBlindBase : G1} :
    verifyEmaxNotRevokedWithBases sha bls dalek ranges ctx revocationProof serverPk userComRist
        userComBls blsValueBase blsBlindBase = .ok () ↔
      verifyNonMembershipProofTimedWithContextAndBases sha bls dalek ranges revocationProof serverPk
        userComRist userComBls (gapContextScalar sha ctx) blsValueBase blsBlindBase = true := by
  unfold verifyEmaxNotRevokedWithBases
  simp only
  split <;> simp_all

/-- `verify_refresh_not_revoked`. The time is the one of the context. -/
def verifyRefreshNotRevoked (refreshProof : RefreshProof G1) (generators : Generators G1 G2)
    (userComRist : R) : Except ActError Unit :=
  let userComBls := refreshEmaxBlsCommitment generators ctx.nowUnix refreshProof
  verifyEmaxNotRevokedWithBases sha bls dalek ranges ctx revocationProof serverPk userComRist
    userComBls (generators.h 5) (generators.h 0)

/-- `verify_spend_not_revoked`. The time is the one of the context. -/
def verifySpendNotRevoked (spendProof : SpendProof G1) (generators : Generators G1 G2)
    (userComRist : R) : Except ActError Unit :=
  let userComBls := spendEmaxBlsCommitment generators ctx.nowUnix spendProof
  verifyEmaxNotRevokedWithBases sha bls dalek ranges ctx revocationProof serverPk userComRist
    userComBls (generators.h 5) (generators.h 0)

end Proof

variable (signedList : SignedRevocationList G1)
  (revocationProof : ClientRevocationProof P G1 GT R) (serverPk : RevocationPublicKey G2)

/-- `verify_refresh_not_revoked_from_client_proof`. -/
def verifyRefreshNotRevokedFromClientProof (refreshProof : RefreshProof G1)
    (generators : Generators G1 G2) : Except ActError Unit :=
  verifyRefreshNotRevoked sha bls dalek ranges signedList.ctx revocationProof.proof serverPk
    refreshProof generators revocationProof.userComRist

/-- `verify_spend_not_revoked_from_client_proof`. -/
def verifySpendNotRevokedFromClientProof (spendProof : SpendProof G1)
    (generators : Generators G1 G2) : Except ActError Unit :=
  verifySpendNotRevoked sha bls dalek ranges signedList.ctx revocationProof.proof serverPk
    spendProof generators revocationProof.userComRist

end Verifier

end Ebut
