import Ebut.Core.FileBinding
import Ebut.Core.RevocationProof
import Ebut.Core.SameX
import Ebut.Core.Spend

/-!
# Uploads

The composition of a spend, a file proof and the cross-curve bridge. The
verifier checks that the client's bridge statement is about the spend's
commitment to `x` and about the key the file is encrypted under.

The number of blocks an audit must present follows from a confidence that the
code computes with in floating point, and is a parameter here.

## Main definitions

* `UploadSpendProof`: What the client presents.
* `deriveFileBindingGenerator`: The generator bound to the file and its context.
* `UploadStatementBound`: The checks on the bridge statement.
* `verifyUploadSpendInner`: The verifier.
* `verifyUploadSpend`, `verifyUploadSpendWithRevocation`: The verifier without and with
  the revocation check.

## Theorems

* `verifyUploadSpendInner_ok`: An accepted upload has a bound statement and an
  accepted bridge.
* `verifyUploadSpendInner_iff`, `verifyUploadSpendWithRevocation_iff`: Everything that is
  accepted.
-/

namespace Ebut

structure FileBindingTag (R : Type) where
  bindingGenerator : R
  bindingTag : R
  /-- Public ElGamal key `X_file = x * G` used to encrypt file blocks. -/
  encryptionPublicKey : R

structure UploadSpendProof (G1 R D : Type) where
  spendProof : SpendProof G1
  nonce : Bytes 16
  fileCommitment : FileCommitment D
  /-- Server-provided challenge nonce. -/
  fileChallengeNonce : Bytes 32
  fileProof : AccountableFileProof R D
  fileBinding : FileBindingTag R
  sameXStatement : SameXStatement G1 R
  sameXProof : SameXProof G1 R
  /-- Context bytes bound into the same-x proof. -/
  sameXContext : List UInt8

variable {G1 G2 GT R D : Type} [AddCommGroup G1] [Module Scalar G1] [AddCommGroup G2]
  [Module Scalar G2] [AddCommGroup GT] [Module Scalar GT] [AddCommGroup R] [Module DalekScalar R]

/-- `derive_file_binding_generator`. -/
def deriveFileBindingGenerator (sha : Sha2) (dalek : Dalek R) (merkle : MerkleHashes D)
    (hCtx : Scalar) (currentEpoch : UInt32) (nowUnix eMax : UInt64)
    (fileCommitment : FileCommitment D) (revocationListVersion : UInt64) : R :=
  dalek.fromUniformBytes <| sha.sha512 <|
    "EBUT:FILE:BINDING-GENERATOR:V1".toUTF8.toList ++ (Scalar.toBytes hCtx).toList ++
    u32LeBytes currentEpoch ++ u64LeBytes nowUnix ++ u64LeBytes eMax ++
    u64LeBytes revocationListVersion ++ fileCommitment.fileId.toList ++
    merkle.toBytes fileCommitment.rootHash ++ u64LeBytes fileCommitment.numBlocks ++
    u64LeBytes fileCommitment.blockSize ++ u64LeBytes fileCommitment.fileSize ++
    u32LeBytes fileCommitment.encodingVersion

/-- The same-x statement is about the spend's commitment and the file's key. -/
def UploadStatementBound (generators : Generators G1 G2) (dalek : Dalek R)
    (proof : UploadSpendProof G1 R D) : Prop :=
  (proof.sameXStatement.blsXBase = generators.h 1 ∧
    proof.sameXStatement.blsBlindBase = generators.h 0 ∧
    proof.sameXStatement.blsXCommitment = proof.spendProof.xBlsCommitment) ∧
  proof.sameXStatement.ristrettoXBase = dalek.basepoint ∧
    proof.sameXStatement.ristrettoXCommitment = proof.fileBinding.encryptionPublicKey

variable [DecidableEq G1] [DecidableEq GT] [DecidableEq R] [DecidableEq D]

variable (sha : Sha2) (bls : Blstrs G1 G2 GT) (dalek : Dalek R) (merkle : MerkleHashes D)
  (leafOf : PackedBlock R → D) (expectedChallengeCount : FileCommitment D → ℕ)

/-- The spend, the file-binding generator and the checks on the bridge statement. -/
def uploadChecksBefore (proof : UploadSpendProof G1 R D) (currentEpoch : UInt32)
    (nowUnix revocationListVersion : UInt64) (generators : Generators G1 G2) (pkDaily : G2)
    (keys : ServerKeys generators) (hCtx eRefund sPrimeRefund : Scalar) :
    Except ActError (SpendResponse G1) := do
  -- the refund is signed before anything about the file is tested
  let response ← verifySpend sha bls dalek proof.spendProof currentEpoch nowUnix proof.nonce
    generators pkDaily keys hCtx eRefund sPrimeRefund
  let expectedGenerator := deriveFileBindingGenerator sha dalek merkle hCtx currentEpoch nowUnix
    proof.spendProof.eMax proof.fileCommitment revocationListVersion
  rejectIf (proof.fileBinding.bindingGenerator ≠ expectedGenerator)
    (.verificationFailed "file-binding generator is not bound to EBUT/file context")
  rejectIf (proof.sameXStatement.blsXBase ≠ generators.h 1 ∨
      proof.sameXStatement.blsBlindBase ≠ generators.h 0 ∨
      proof.sameXStatement.blsXCommitment ≠ proof.spendProof.xBlsCommitment)
    (.verificationFailed "same-x BLS statement does not match EBUT spend proof")
  -- the blinding base of the Ristretto side is not compared with anything
  rejectIf (proof.sameXStatement.ristrettoXBase ≠ dalek.basepoint ∨
      proof.sameXStatement.ristrettoXCommitment ≠ proof.fileBinding.encryptionPublicKey)
    (.verificationFailed "same-x statement does not match file encryption public key")
  return response

/-- `verify_upload_spend_inner`: `none` when the audit's sampling does not end. -/
def verifyUploadSpendInner (proof : UploadSpendProof G1 R D) (currentEpoch : UInt32)
    (nowUnix revocationListVersion : UInt64) (generators : Generators G1 G2) (pkDaily : G2)
    (keys : ServerKeys generators) (hCtx eRefund sPrimeRefund : Scalar) :
    Option (Except ActError (SpendResponse G1)) :=
  match uploadChecksBefore sha bls dalek merkle proof currentEpoch nowUnix revocationListVersion
    generators pkDaily keys hCtx eRefund sPrimeRefund with
  | .error e => some (.error e)
  | .ok response => do
    -- the blocks are audited under the key that the bridge statement names
    let held ← verifyAccountableFileProofWithConfidence sha dalek merkle leafOf
      expectedChallengeCount proof.fileProof proof.fileCommitment proof.fileChallengeNonce
      proof.fileBinding.encryptionPublicKey proof.sameXContext
    some (do
      rejectIf (held = false) (.verificationFailed "private file-binding proof failed")
      proof.sameXProof.verify proof.sameXStatement sha bls dalek proof.sameXContext
      return response)

variable {sha bls dalek merkle leafOf expectedChallengeCount}

omit [DecidableEq D] in
theorem uploadChecksBefore_ok {proof : UploadSpendProof G1 R D} {currentEpoch : UInt32}
    {nowUnix revocationListVersion : UInt64} {generators : Generators G1 G2} {pkDaily : G2}
    {keys : ServerKeys generators} {hCtx eRefund sPrimeRefund : Scalar}
    {response : SpendResponse G1}
    (h : uploadChecksBefore sha bls dalek merkle proof currentEpoch nowUnix
      revocationListVersion generators pkDaily keys hCtx eRefund sPrimeRefund = .ok response) :
    UploadStatementBound generators dalek proof := by
  unfold uploadChecksBefore at h
  rcases hspend : verifySpend sha bls dalek proof.spendProof currentEpoch nowUnix proof.nonce
    generators pkDaily keys hCtx eRefund sPrimeRefund with e | accepted
  · rw [hspend] at h
    exact nomatch h
  · rw [hspend] at h
    have hchecks := (rejectIf_bind_ok.mp h).2
    rw [rejectIf_bind_ok, rejectIf_bind_ok] at hchecks
    simp only [not_or, not_not, ne_eq] at hchecks
    exact ⟨hchecks.1, hchecks.2.1⟩

theorem verifyUploadSpendInner_ok {proof : UploadSpendProof G1 R D} {currentEpoch : UInt32}
    {nowUnix revocationListVersion : UInt64} {generators : Generators G1 G2} {pkDaily : G2}
    {keys : ServerKeys generators} {hCtx eRefund sPrimeRefund : Scalar}
    {response : SpendResponse G1}
    (h : verifyUploadSpendInner sha bls dalek merkle leafOf expectedChallengeCount proof
      currentEpoch nowUnix revocationListVersion generators pkDaily keys hCtx eRefund
      sPrimeRefund = some (.ok response)) :
    UploadStatementBound generators dalek proof ∧
      proof.sameXProof.verify proof.sameXStatement sha bls dalek proof.sameXContext = .ok () := by
  unfold verifyUploadSpendInner at h
  split at h
  · exact absurd (Option.some.inj h) (by simp only [reduceCtorEq, not_false_iff])
  · rename_i accepted hbefore
    rcases Option.bind_eq_some_iff.mp h with ⟨held, _, hrest⟩
    have hok := (rejectIf_bind_ok.mp (Option.some.inj hrest)).2
    exact ⟨uploadChecksBefore_ok hbefore, (bind_unit_ok.mp hok).1⟩

/-- The part of an upload that is not the spend: the generator of the file and its context, the
statement of the bridge, the audit, and the bridge. -/
structure UploadFileAccepted (sha : Sha2) (bls : Blstrs G1 G2 GT) (dalek : Dalek R)
    (merkle : MerkleHashes D) (leafOf : PackedBlock R → D)
    (expectedChallengeCount : FileCommitment D → ℕ) (proof : UploadSpendProof G1 R D)
    (currentEpoch : UInt32) (nowUnix revocationListVersion : UInt64)
    (generators : Generators G1 G2) (hCtx : Scalar) : Prop where
  generator : proof.fileBinding.bindingGenerator = deriveFileBindingGenerator sha dalek merkle hCtx
    currentEpoch nowUnix proof.spendProof.eMax proof.fileCommitment revocationListVersion
  bound : UploadStatementBound generators dalek proof
  audited : verifyAccountableFileProofWithConfidence sha dalek merkle leafOf expectedChallengeCount
    proof.fileProof proof.fileCommitment proof.fileChallengeNonce
    proof.fileBinding.encryptionPublicKey proof.sameXContext = some true
  bridged : proof.sameXProof.verify proof.sameXStatement sha bls dalek proof.sameXContext = .ok ()

section Accepted

variable {proof : UploadSpendProof G1 R D} {currentEpoch : UInt32}
  {nowUnix revocationListVersion : UInt64} {generators : Generators G1 G2} {pkDaily : G2}
  {keys : ServerKeys generators} {hCtx eRefund sPrimeRefund : Scalar} {response : SpendResponse G1}

omit [DecidableEq D] in
theorem uploadChecksBefore_iff :
    uploadChecksBefore sha bls dalek merkle proof currentEpoch nowUnix revocationListVersion
        generators pkDaily keys hCtx eRefund sPrimeRefund = .ok response ↔
      verifySpend sha bls dalek proof.spendProof currentEpoch nowUnix proof.nonce generators
          pkDaily keys hCtx eRefund sPrimeRefund = .ok response ∧
        proof.fileBinding.bindingGenerator = deriveFileBindingGenerator sha dalek merkle hCtx
          currentEpoch nowUnix proof.spendProof.eMax proof.fileCommitment
          revocationListVersion ∧
        UploadStatementBound generators dalek proof := by
  unfold uploadChecksBefore
  rw [bind_ok]
  simp only [rejectIf_bind_ok, not_or, not_not, ne_eq]
  constructor
  · rintro ⟨accepted, hspend, hgenerator, hbls, hristretto, hok⟩
    cases hok
    exact ⟨hspend, hgenerator, hbls, hristretto⟩
  · rintro ⟨hspend, hgenerator, hbls, hristretto⟩
    exact ⟨response, hspend, hgenerator, hbls, hristretto, rfl⟩

/-- What the verifier accepts, and the response is the one to the spend. -/
theorem verifyUploadSpendInner_iff :
    verifyUploadSpendInner sha bls dalek merkle leafOf expectedChallengeCount proof currentEpoch
        nowUnix revocationListVersion generators pkDaily keys hCtx eRefund sPrimeRefund =
          some (.ok response) ↔
      verifySpend sha bls dalek proof.spendProof currentEpoch nowUnix proof.nonce generators
          pkDaily keys hCtx eRefund sPrimeRefund = .ok response ∧
        UploadFileAccepted sha bls dalek merkle leafOf expectedChallengeCount proof currentEpoch
          nowUnix revocationListVersion generators hCtx := by
  unfold verifyUploadSpendInner
  constructor
  · intro h
    split at h
    · exact absurd (Option.some.inj h) (by simp only [reduceCtorEq, not_false_iff])
    · rename_i accepted hbefore
      rcases uploadChecksBefore_iff.mp hbefore with ⟨hspend, hgenerator, hbound⟩
      rcases Option.bind_eq_some_iff.mp h with ⟨held, haudit, hrest⟩
      rcases rejectIf_bind_ok.mp (Option.some.inj hrest) with ⟨hheld, hok⟩
      rcases bind_unit_ok.mp hok with ⟨hbridge, hresponse⟩
      cases hresponse
      exact ⟨hspend, hgenerator, hbound, haudit.trans (congrArg some (Bool.not_eq_false _ ▸ hheld)),
        hbridge⟩
  · rintro ⟨hspend, hgenerator, hbound, haudit, hbridge⟩
    rw [uploadChecksBefore_iff.mpr ⟨hspend, hgenerator, hbound⟩, haudit]
    refine congrArg some (rejectIf_bind_ok.mpr ⟨by decide, ?_⟩)
    exact bind_unit_ok.mpr ⟨hbridge, rfl⟩

end Accepted

section Revocation

open V3Zkp

variable {P : Type}

variable (sha bls dalek merkle leafOf expectedChallengeCount) in
/-- `verify_upload_spend`: no list of revocations, which is version zero. -/
def verifyUploadSpend (proof : UploadSpendProof G1 R D) (currentEpoch : UInt32) (nowUnix : UInt64)
    (generators : Generators G1 G2) (pkDaily : G2) (keys : ServerKeys generators)
    (hCtx eRefund sPrimeRefund : Scalar) : Option (Except ActError (SpendResponse G1)) :=
  verifyUploadSpendInner sha bls dalek merkle leafOf expectedChallengeCount proof currentEpoch
    nowUnix 0 generators pkDaily keys hCtx eRefund sPrimeRefund

variable (sha bls dalek merkle leafOf expectedChallengeCount) in
/-- `verify_upload_spend_with_revocation`. -/
def verifyUploadSpendWithRevocation (ranges : RangeProofs P R) (proof : UploadSpendProof G1 R D)
    (currentEpoch : UInt32) (nowUnix : UInt64) (generators : Generators G1 G2) (pkDaily : G2)
    (keys : ServerKeys generators) (hCtx : Scalar) (revocationCtx : RevocationContext)
    (revocationProof : NonMembershipProof P G1 GT R) (revocationPk : RevocationPublicKey G2)
    (emaxRistrettoCommitment : R) (eRefund sPrimeRefund : Scalar) :
    Option (Except ActError (SpendResponse G1)) :=
  -- the time of the list is compared here, unlike in the checks of the revocation module
  if revocationCtx.nowUnix ≠ nowUnix then
    some (.error (.verificationFailed "revocation context time does not match upload time"))
  else do
    let accepted ← verifyUploadSpendInner sha bls dalek merkle leafOf expectedChallengeCount proof
      currentEpoch nowUnix revocationCtx.revocationListVersion generators pkDaily keys hCtx eRefund
      sPrimeRefund
    some (do
      let response ← accepted
      verifySpendNotRevoked sha bls dalek ranges revocationCtx revocationProof revocationPk
        proof.spendProof generators emaxRistrettoCommitment
      return response)

/-- The upload is accepted under the version of the list, and the expiry of the spend is
checked at the time of the upload. -/
theorem verifyUploadSpendWithRevocation_iff {ranges : RangeProofs P R}
    {proof : UploadSpendProof G1 R D} {currentEpoch : UInt32} {nowUnix : UInt64}
    {generators : Generators G1 G2} {pkDaily : G2} {keys : ServerKeys generators} {hCtx : Scalar}
    {revocationCtx : RevocationContext} {revocationProof : NonMembershipProof P G1 GT R}
    {revocationPk : RevocationPublicKey G2} {emaxRistrettoCommitment : R}
    {eRefund sPrimeRefund : Scalar} {response : SpendResponse G1} :
    verifyUploadSpendWithRevocation sha bls dalek merkle leafOf expectedChallengeCount ranges proof
        currentEpoch nowUnix generators pkDaily keys hCtx revocationCtx revocationProof revocationPk
        emaxRistrettoCommitment eRefund sPrimeRefund = some (.ok response) ↔
      revocationCtx.nowUnix = nowUnix ∧
        verifySpend sha bls dalek proof.spendProof currentEpoch nowUnix proof.nonce generators
          pkDaily keys hCtx eRefund sPrimeRefund = .ok response ∧
        UploadFileAccepted sha bls dalek merkle leafOf expectedChallengeCount proof currentEpoch
          nowUnix revocationCtx.revocationListVersion generators hCtx ∧
        verifySpendNotRevoked sha bls dalek ranges revocationCtx revocationProof revocationPk
          proof.spendProof generators emaxRistrettoCommitment = .ok () := by
  unfold verifyUploadSpendWithRevocation
  by_cases htime : revocationCtx.nowUnix = nowUnix
  · rw [if_neg (not_not.mpr htime), and_iff_right htime, ← and_assoc, ← verifyUploadSpendInner_iff]
    constructor
    · intro h
      rcases Option.bind_eq_some_iff.mp h with ⟨accepted, hinner, hrest⟩
      rcases bind_ok.mp (Option.some.inj hrest) with ⟨inner, haccepted, hok⟩
      rcases bind_unit_ok.mp hok with ⟨hrevocation, hresponse⟩
      rw [haccepted, Except.ok.inj hresponse] at hinner
      exact ⟨hinner, hrevocation⟩
    · rintro ⟨hinner, hrevocation⟩
      exact Option.bind_eq_some_iff.mpr ⟨_, hinner, congrArg some
        (bind_ok.mpr ⟨response, rfl, bind_unit_ok.mpr ⟨hrevocation, rfl⟩⟩)⟩
  · rw [if_pos htime]
    constructor
    · intro h
      exact absurd (Option.some.inj h) (by simp only [reduceCtorEq, not_false_iff])
    · rintro ⟨heq, -⟩
      exact absurd heq htime

/-- With nothing to reject in the other parts the verifier returns what it returns for the
spend. -/
theorem verifyUploadSpendWithRevocation_eq {ranges : RangeProofs P R}
    {proof : UploadSpendProof G1 R D} {currentEpoch : UInt32} {nowUnix : UInt64}
    {generators : Generators G1 G2} {pkDaily : G2} {keys : ServerKeys generators} {hCtx : Scalar}
    {revocationCtx : RevocationContext} {revocationProof : NonMembershipProof P G1 GT R}
    {revocationPk : RevocationPublicKey G2} {emaxRistrettoCommitment : R}
    (htime : revocationCtx.nowUnix = nowUnix)
    (hfile : UploadFileAccepted sha bls dalek merkle leafOf expectedChallengeCount proof
      currentEpoch nowUnix revocationCtx.revocationListVersion generators hCtx)
    (hrevocation : verifySpendNotRevoked sha bls dalek ranges revocationCtx revocationProof
      revocationPk proof.spendProof generators emaxRistrettoCommitment = .ok ())
    (eRefund sPrimeRefund : Scalar) :
    verifyUploadSpendWithRevocation sha bls dalek merkle leafOf expectedChallengeCount ranges proof
        currentEpoch nowUnix generators pkDaily keys hCtx revocationCtx revocationProof revocationPk
        emaxRistrettoCommitment eRefund sPrimeRefund =
      some (verifySpend sha bls dalek proof.spendProof currentEpoch nowUnix proof.nonce generators
        pkDaily keys hCtx eRefund sPrimeRefund) := by
  rcases hspend : verifySpend sha bls dalek proof.spendProof currentEpoch nowUnix proof.nonce
    generators pkDaily keys hCtx eRefund sPrimeRefund with e | response
  · -- the spend comes first, so its error is the one returned
    rw [verifyUploadSpendWithRevocation, if_neg (not_not.mpr htime), verifyUploadSpendInner,
      uploadChecksBefore, hspend]
    rfl
  · exact verifyUploadSpendWithRevocation_iff.mpr ⟨htime, hspend, hfile, hrevocation⟩

end Revocation

end Ebut
