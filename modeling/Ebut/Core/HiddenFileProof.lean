import Ebut.Core.FileEncryption
import Ebut.Core.Option1Encryption

/-!
# Proving Private and Option 1 Files

The provers of the two file proofs that show no plaintext and of which only the verifiers are
with their formats, and the verifiers that also check the number of blocks.

Both provers present the committed blocks at the sampled positions, each with the path of its
leaf, and prove with the witnesses at the same positions. A position past the last block ends
the program, and nothing is returned.

## Main definitions

* `presentBlocks`: The loop over the sampled positions.
* `hiddenPlaintextProve`: `HiddenPlaintextBatchProof::prove`.
* `createPrivateFileProof`, `createOption1FileProof`: The provers.
* `verifyPrivateFileProofWithConfidence`, `verifyOption1FileProofWithConfidence`: The verifiers.
* `deriveOption1FileBase`: The base of an Option 1 file.
-/

namespace Ebut

variable {R D : Type} [AddCommGroup R] [Module DalekScalar R] (sha : Sha2) (dalek : Dalek R)
  (merkle : MerkleHashes D)

/-- The blocks at the sampled positions, each with the path of its leaf. -/
def presentBlocks {B : Type} (publicBlocks : List B) (leaves : List D) (indices : List UInt64) :
    Option (List (ChallengedBlock B D)) :=
  let merkleTree := buildMerkleTree merkle leaves
  indices.mapM fun idx => do
    let block ← publicBlocks[idx.toNat]?
    return ⟨idx, block, merklePathFromTree merkleTree idx.toNat⟩

section Private

/-- The loop over the coefficients, the blocks and the witnesses: `r_bar` and `minus_s_bar`. It
ends with the shortest of the three lists. -/
def aggregatePrivateWitness (coeffs : List DalekScalar)
    (blocks : List (ChallengedBlock (PrivateCiphertextBlock R) D))
    (witnesses : List PrivateFileWitnessBlock) : DalekScalar × DalekScalar :=
  ((coeffs.zip blocks).zip witnesses).foldl (fun acc p =>
    (acc.1 + p.1.1 * p.2.encryptionRandomness, acc.2 - p.1.1 * p.2.commitmentBlinding)) (0, 0)

/-- `HiddenPlaintextBatchProof::prove`, the two blinders drawn given. -/
def hiddenPlaintextProve (proofContext : List UInt8) (filePublicKey : R)
    (blocks : List (ChallengedBlock (PrivateCiphertextBlock R) D))
    (witnesses : List PrivateFileWitnessBlock) (alphaR alphaS : DalekScalar) :
    HiddenPlaintextBatchProof R :=
  let coeffs := derivePrivateBatchCoefficients sha dalek blocks proofContext filePublicKey
  let statement := aggregatePrivateStatement blocks coeffs
  let witness := aggregatePrivateWitness coeffs blocks witnesses
  let h := privatePlaintextH sha dalek
  let a1 := alphaR • dalek.basepoint
  let a2 := alphaR • filePublicKey + alphaS • h
  let c := schnorrChallenge sha dalek "EBUT:FILE:HIDDEN-M:SCHNORR:V1" proofContext filePublicKey
    statement.1 statement.2 a1 a2
  { a1, a2
    zR := alphaR + c * witness.1
    zMinusS := alphaS + c * witness.2 }

/-- `create_private_file_proof`. -/
def createPrivateFileProof (fileId : Bytes 32) (publicBlocks : List (PrivateCiphertextBlock R))
    (leaves : List D) (rootHash : D) (challengeNonce : Bytes 32) (numChallenges : ℕ)
    (filePublicKey : R) (witnesses : List PrivateFileWitnessBlock) (proofContext : List UInt8)
    (alphaR alphaS : DalekScalar) : Option (PrivateFileProof R D) := do
  let indices ← deriveChallengeIndices sha challengeIndexDomain challengeNonce
    (UInt64.ofNat publicBlocks.length) numChallenges
  let blocks ← presentBlocks merkle publicBlocks leaves indices
  let selectedWitnesses ← indices.mapM fun idx => witnesses[idx.toNat]?
  let batchProof :=
    hiddenPlaintextProve sha dalek proofContext filePublicKey blocks selectedWitnesses alphaR alphaS
  return ⟨fileId, rootHash, blocks, batchProof⟩

/-- `verify_private_file_proof_with_confidence`. -/
def verifyPrivateFileProofWithConfidence [DecidableEq R] [DecidableEq D]
    (leafOf : PrivateCiphertextBlock R → D) (expectedChallengeCount : FileCommitment D → ℕ)
    (proof : PrivateFileProof R D) (storedCommitment : FileCommitment D)
    (challengeNonce : Bytes 32) (filePublicKey : R) (proofContext : List UInt8) : Option Bool :=
  if proof.blocks.length ≠ expectedChallengeCount storedCommitment then some false
  else verifyPrivateFileProof sha dalek merkle leafOf proof storedCommitment challengeNonce
    filePublicKey proofContext

end Private

section Option1

/-- `derive_option1_file_base`. -/
def deriveOption1FileBase (appId policyId : List UInt8) (serverNonce fileSalt fileId : Bytes 32) :
    R :=
  hashPoint sha dalek "EBUT:OPTION1:FILE-BASE:V3".toUTF8.toList
    [appId, policyId, serverNonce.toList, fileSalt.toList, fileId.toList]

/-- `create_option1_file_proof`. -/
def createOption1FileProof (commitment : Option1FileCommitment R D)
    (publicBlocks : List (Option1CiphertextBlock R)) (leaves : List D) (challengeNonce : Bytes 32)
    (numChallenges : ℕ) (witnesses : List WitnessBlock) (proofContext : List UInt8)
    (alphaR alphaS : DalekScalar) : Option (Option1FileProof R D) := do
  let indices ← deriveChallengeIndices sha option1ChallengeIndexDomain challengeNonce
    (UInt64.ofNat publicBlocks.length) numChallenges
  let blocks ← presentBlocks merkle publicBlocks leaves indices
  let selectedWitnesses ← indices.mapM fun idx => witnesses[idx.toNat]?
  let batchProof :=
    option1Prove merkle sha dalek proofContext commitment blocks selectedWitnesses alphaR alphaS
  return ⟨commitment.fileId, commitment.rootHash, blocks, batchProof⟩

/-- `verify_option1_file_proof_with_confidence`. -/
def verifyOption1FileProofWithConfidence [DecidableEq R] [DecidableEq D]
    (leafOf : Option1CiphertextBlock R → D)
    (expectedChallengeCount : Option1FileCommitment R D → ℕ) (proof : Option1FileProof R D)
    (commitment : Option1FileCommitment R D) (challengeNonce : Bytes 32)
    (proofContext : List UInt8) : Option Bool :=
  if proof.blocks.length ≠ expectedChallengeCount commitment then some false
  else verifyOption1FileProof merkle sha dalek leafOf proof commitment challengeNonce proofContext

end Option1

end Ebut
