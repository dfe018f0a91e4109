import Ebut.Core.FileBatch

/-!
# Private and Accountable File Proofs

The two file proofs of the file-binding module that hide the plaintext. A
private block carries one encrypted point, an accountable block up to sixteen.
Both verifiers compare the stored commitment, sample the challenged positions
from the nonce, check every presented block against its position and its Merkle
path, and verify one batch proof over all of them.

The audited properties do not depend on how a leaf is hashed, so the verifiers
take the leaf hash as a parameter; `privateCipherLeaf` and
`accountableCipherLeaf` are the ones of the code.

A verifier whose sampling loop does not end never returns, and is `none`.

## Main definitions

* `privatePlaintextH`: The base that hides plaintext points.
* `PrivateFileProof`, `verifyPrivateFileProof`: The private proof.
* `AccountableFileProof`, `verifyAccountableFileProof`: The accountable proof.
* `accountableProve`, `accountableVerify`: The accountable batch proof.
* `verifyAccountableFileProofWithConfidence`: The verifier that also checks the count.
-/

namespace Ebut

open LittleEndian

variable {R : Type} [AddCommGroup R] [Module DalekScalar R]

def reversiblePointEncodingV1 : UInt32 := 1
def reversiblePointPayloadSize : ℕ := 17
def accountableFileEncodingV2 : UInt32 := 2
def accountablePointPayloadSize : ℕ := reversiblePointPayloadSize

/-- The hash functions of the file-binding module's trees. -/
def fileMerkle (sha : Sha2) : MerkleHashes (Bytes 32) :=
  sha512Merkle sha "MERKLE_LEAF" "MERKLE_NODE"

def challengeIndexDomain : String := "EBUT:FILE:CHALLENGE-INDEX:V2"

/-- `private_plaintext_h`: the base that hides plaintext points. -/
def privatePlaintextH (sha : Sha2) (dalek : Dalek R) : R :=
  dalek.fromUniformBytes (sha.sha512 "EBUT:FILE:PRIVATE-PLAINTEXT-H:V1".toUTF8.toList)

/-- The Schnorr challenge of a hidden-plaintext proof, under a domain separator. -/
def schnorrChallenge (sha : Sha2) (dalek : Dalek R) (domain : String)
    (proofContext : List UInt8) (filePublicKey c1Bar dBar a1 a2 : R) : DalekScalar :=
  let point := fun p : R => (dalek.compress p).toList
  DalekScalar.fromBytesModOrderWide <| sha.sha512 <|
    domain.toUTF8.toList ++ proofContext ++ point dalek.basepoint ++ point filePublicKey ++
    point (privatePlaintextH sha dalek) ++ point c1Bar ++ point dBar ++ point a1 ++ point a2

section Private

structure PrivateCiphertextBlock (R : Type) where
  c1 : R
  c2 : R
  plaintextCommitment : R

structure HiddenPlaintextBatchProof (R : Type) where
  a1 : R
  a2 : R
  zR : DalekScalar
  /-- Response for the witness `-s`, where `s` is the plaintext commitment blinding. -/
  zMinusS : DalekScalar

structure PrivateFileProof (R D : Type) where
  fileId : Bytes 32
  rootHash : D
  blocks : List (ChallengedBlock (PrivateCiphertextBlock R) D)
  batchProof : HiddenPlaintextBatchProof R

def privateCipherLeaf (sha : Sha2) (dalek : Dalek R) (block : PrivateCiphertextBlock R) :
    Bytes 32 :=
  sha512Half sha <| "PRIVATE_CIPHER_LEAF_V1".toUTF8.toList ++ (dalek.compress block.c1).toList ++
    (dalek.compress block.c2).toList ++ (dalek.compress block.plaintextCommitment).toList

variable {D : Type}

def derivePrivateBatchCoefficients (sha : Sha2) (dalek : Dalek R)
    (blocks : List (ChallengedBlock (PrivateCiphertextBlock R) D)) (proofContext : List UInt8)
    (filePublicKey : R) : List DalekScalar :=
  let point := fun p : R => (dalek.compress p).toList
  (List.range blocks.length).map fun i =>
    DalekScalar.fromBytesModOrderWide <| sha.sha512 <|
      "EBUT:FILE:HIDDEN-M:BATCH-RHO:V1".toUTF8.toList ++ proofContext ++ point filePublicKey ++
      (blocks.flatMap fun b => u64LeBytes b.index ++ point b.block.c1 ++ point b.block.c2 ++
        point b.block.plaintextCommitment) ++ usizeLeBytes i

def aggregatePrivateStatement (blocks : List (ChallengedBlock (PrivateCiphertextBlock R) D))
    (coeffs : List DalekScalar) : R × R :=
  (blocks.zip coeffs).foldl (fun acc p =>
    (acc.1 + p.2 • p.1.block.c1,
      acc.2 + p.2 • (p.1.block.c2 - p.1.block.plaintextCommitment))) (0, 0)

variable [DecidableEq R]

/-- `HiddenPlaintextBatchProof::verify`. -/
def hiddenPlaintextVerify (sha : Sha2) (dalek : Dalek R) (proofContext : List UInt8)
    (filePublicKey : R) (blocks : List (ChallengedBlock (PrivateCiphertextBlock R) D))
    (proof : HiddenPlaintextBatchProof R) : Bool :=
  let h := privatePlaintextH sha dalek
  if blocks.isEmpty || decide (filePublicKey = 0) || decide (h = 0) then false
  else
    -- the coefficients are hashed from the blocks, so they are fixed after them
    let coeffs := derivePrivateBatchCoefficients sha dalek blocks proofContext filePublicKey
    let statement := aggregatePrivateStatement blocks coeffs
    let c := schnorrChallenge sha dalek "EBUT:FILE:HIDDEN-M:SCHNORR:V1" proofContext filePublicKey
      statement.1 statement.2 proof.a1 proof.a2
    decide (proof.zR • dalek.basepoint = proof.a1 + c • statement.1) &&
      decide (proof.zR • filePublicKey + proof.zMinusS • h = proof.a2 + c • statement.2)

variable [DecidableEq D]

def verifyPrivateFileProof (sha : Sha2) (dalek : Dalek R) (merkle : MerkleHashes D)
    (leafOf : PrivateCiphertextBlock R → D) (proof : PrivateFileProof R D)
    (storedCommitment : FileCommitment D) (challengeNonce : Bytes 32) (filePublicKey : R)
    (proofContext : List UInt8) : Option Bool :=
  if proof.fileId ≠ storedCommitment.fileId ∨ proof.rootHash ≠ storedCommitment.rootHash then
    some false
  else if storedCommitment.encodingVersion ≠ reversiblePointEncodingV1 then some false
  -- a block is a single point, which has to hold it
  else if storedCommitment.blockSize = 0 ∨
      storedCommitment.blockSize.toNat > reversiblePointPayloadSize then some false
  else if proof.blocks.length > storedCommitment.numBlocks.toNat then some false
  else if storedCommitment.numBlocks > 0 ∧ proof.blocks.isEmpty then some false
  else do
    -- as many positions are sampled as blocks were sent
    let expectedIndices ← deriveChallengeIndices sha challengeIndexDomain challengeNonce
      storedCommitment.numBlocks proof.blocks.length
    if !challengedBlocksHold merkle leafOf storedCommitment.rootHash proof.blocks
        expectedIndices then some false
    else some (hiddenPlaintextVerify sha dalek proofContext filePublicKey proof.blocks
      proof.batchProof)

end Private

section Accountable

structure AccountableFileProof (R D : Type) where
  fileId : Bytes 32
  rootHash : D
  blocks : List (ChallengedBlock (PackedBlock R) D)
  batchProof : BatchProof R

/-- The points, commitments and lengths of a packed block as transcripts contain
them. -/
def packedPointBytes (dalek : Dalek R) (block : PackedBlock R) : List UInt8 :=
  ((block.c2Points.zip block.plaintextCommitments).zip block.pointLengths).flatMap fun p =>
    (dalek.compress p.1.1).toList ++ (dalek.compress p.1.2).toList ++ [p.2]

/-- The bytes hashed into an accountable leaf. -/
def accountableLeafPreimage (dalek : Dalek R) (block : PackedBlock R) : List UInt8 :=
  "EBUT:ACCOUNTABLE-PACKED-CIPHER-LEAF:V1".toUTF8.toList ++ (dalek.compress block.c1).toList ++
    usizeLeBytes block.c2Points.length ++ packedPointBytes dalek block

def accountableCipherLeaf (sha : Sha2) (dalek : Dalek R) (block : PackedBlock R) : Bytes 32 :=
  sha512Half sha (accountableLeafPreimage dalek block)

variable {D : Type}

/-- The bytes hashed into the digest the coefficients are derived from. -/
def accountableBatchTranscript (dalek : Dalek R) (blocks : List (ChallengedBlock (PackedBlock R) D))
    (proofContext : List UInt8) (filePublicKey : R) : List UInt8 :=
  "EBUT:ACCOUNTABLE-PACKED-RHO-TRANSCRIPT:V2".toUTF8.toList ++ proofContext ++
    (dalek.compress filePublicKey).toList ++ usizeLeBytes blocks.length ++
    blocks.flatMap fun b => u64LeBytes b.index ++ (dalek.compress b.block.c1).toList ++
      usizeLeBytes b.block.c2Points.length ++ packedPointBytes dalek b.block

def deriveAccountableBatchCoefficients (sha : Sha2) (dalek : Dalek R)
    (blocks : List (ChallengedBlock (PackedBlock R) D)) (proofContext : List UInt8)
    (filePublicKey : R) : List (List DalekScalar) :=
  let digest := sha.sha512 (accountableBatchTranscript dalek blocks proofContext filePublicKey)
  blocks.mapIdx fun bi b =>
    (List.range b.block.c2Points.length).map fun j =>
      DalekScalar.fromBytesModOrderWide <| sha.sha512 <|
        "EBUT:ACCOUNTABLE-PACKED-RHO-COEFF:V2".toUTF8.toList ++ digest.toList ++
        usizeLeBytes bi ++ u64LeBytes b.index ++ usizeLeBytes j

def accountableBases (sha : Sha2) (dalek : Dalek R) (filePublicKey : R) : BatchBases R where
  base := dalek.basepoint
  publicKey := filePublicKey
  h := privatePlaintextH sha dalek

def accountableChallenge (sha : Sha2) (dalek : Dalek R) (proofContext : List UInt8)
    (filePublicKey : R) : R → R → R → R → DalekScalar :=
  schnorrChallenge sha dalek "EBUT:ACCOUNTABLE-PACKED-SCHNORR:V1" proofContext filePublicKey

/-- `AccountableBatchProof::prove`. -/
def accountableProve (sha : Sha2) (dalek : Dalek R) (proofContext : List UInt8)
    (filePublicKey : R) (blocks : List (ChallengedBlock (PackedBlock R) D))
    (witnesses : List WitnessBlock) (alphaR alphaS : DalekScalar) : BatchProof R :=
  batchProve (accountableBases sha dalek filePublicKey)
    (accountableChallenge sha dalek proofContext filePublicKey)
    (deriveAccountableBatchCoefficients sha dalek blocks proofContext filePublicKey)
    (blocks.map (·.block)) witnesses alphaR alphaS

variable [DecidableEq R]

/-- `AccountableBatchProof::verify`. -/
def accountableVerify (sha : Sha2) (dalek : Dalek R) (proofContext : List UInt8)
    (filePublicKey : R) (blocks : List (ChallengedBlock (PackedBlock R) D))
    (proof : BatchProof R) : Bool :=
  if blocks.isEmpty || decide (filePublicKey = 0) then false
  else if privatePlaintextH sha dalek = 0 then false
  else batchVerify (accountableBases sha dalek filePublicKey) accountablePointPayloadSize
    (accountableChallenge sha dalek proofContext filePublicKey)
    (deriveAccountableBatchCoefficients sha dalek blocks proofContext filePublicKey)
    (blocks.map (·.block)) proof

variable [DecidableEq D]

def verifyAccountableFileProof (sha : Sha2) (dalek : Dalek R) (merkle : MerkleHashes D)
    (leafOf : PackedBlock R → D) (proof : AccountableFileProof R D)
    (storedCommitment : FileCommitment D) (challengeNonce : Bytes 32) (filePublicKey : R)
    (proofContext : List UInt8) : Option Bool :=
  if storedCommitment.encodingVersion ≠ accountableFileEncodingV2 then some false
  else if proof.fileId ≠ storedCommitment.fileId ∨
      proof.rootHash ≠ storedCommitment.rootHash then some false
  else if proof.blocks.length > storedCommitment.numBlocks.toNat then some false
  else if storedCommitment.numBlocks > 0 ∧ proof.blocks.isEmpty then some false
  else do
    -- as many positions are sampled as blocks were sent
    let expectedIndices ← deriveChallengeIndices sha challengeIndexDomain challengeNonce
      storedCommitment.numBlocks proof.blocks.length
    if !challengedBlocksHold merkle leafOf storedCommitment.rootHash proof.blocks
        expectedIndices then some false
    else some (accountableVerify sha dalek proofContext filePublicKey proof.blocks
      proof.batchProof)

/-- `verify_accountable_file_proof_with_confidence`. -/
def verifyAccountableFileProofWithConfidence (sha : Sha2) (dalek : Dalek R)
    (merkle : MerkleHashes D) (leafOf : PackedBlock R → D)
    (expectedChallengeCount : FileCommitment D → ℕ) (proof : AccountableFileProof R D)
    (storedCommitment : FileCommitment D) (challengeNonce : Bytes 32) (filePublicKey : R)
    (proofContext : List UInt8) : Option Bool :=
  if proof.blocks.length ≠ expectedChallengeCount storedCommitment then some false
  else verifyAccountableFileProof sha dalek merkle leafOf proof storedCommitment challengeNonce
    filePublicKey proofContext

end Accountable

end Ebut
