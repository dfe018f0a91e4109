import Ebut.Core.FileBatch

/-!
# Option 1 File Proofs

The file proof over a fresh base per file. It batches its blocks as the
accountable proof does; its blocks also carry an encrypted list of selectors,
and its bases are fields of the commitment.

## Main definitions

* `Option1FileCommitment`: The stored commitment with its bases.
* `Option1CiphertextBlock`: A packed block with its selectors.
* `Option1FileProof`, `verifyOption1FileProof`: The proof and its verifier.
* `option1Prove`, `option1Verify`: The batch proof.
-/

namespace Ebut

open LittleEndian

variable {R : Type} [AddCommGroup R] [Module DalekScalar R]

/-- The version of the Elligator codec. -/
def option1FileEncodingV3 : UInt32 := 3
def option1PointPayloadSize : ℕ := 31
def option1PointsPerBlock : ℕ := 16

/-- The hash functions of the Option 1 module's trees. -/
def option1Merkle (sha : Sha2) : MerkleHashes (Bytes 32) :=
  sha512Merkle sha "EBUT:OPTION1:MERKLE-LEAF:V3" "EBUT:OPTION1:MERKLE-NODE:V3"

def option1ChallengeIndexDomain : String := "EBUT:OPTION1:CHALLENGE-INDEX:V3"

structure Option1FileCommitment (R D : Type) where
  fileId : Bytes 32
  rootHash : D
  numBlocks : UInt64
  fileSize : UInt64
  pointPayloadSize : UInt64
  pointsPerBlock : UInt64
  encodingVersion : UInt32
  fileBase : R
  filePublicKey : R
  commitmentBase : R
  fileSalt : Bytes 32
  serverNonce : Bytes 32

structure Option1CiphertextBlock (R : Type) extends PackedBlock R where
  /-- Encrypted packed 3-bit selectors. This is the hidden `tau` metadata. -/
  selectorCiphertext : List UInt8

structure Option1FileProof (R D : Type) where
  fileId : Bytes 32
  rootHash : D
  blocks : List (ChallengedBlock (Option1CiphertextBlock R) D)
  batchProof : BatchProof R

/-- The points, commitments and lengths of a block as transcripts contain them. -/
def option1PointBytes (dalek : Dalek R) (block : PackedBlock R) : List UInt8 :=
  ((block.c2Points.zip block.plaintextCommitments).zip block.pointLengths).flatMap fun p =>
    (dalek.compress p.1.1).toList ++ (dalek.compress p.1.2).toList ++ [p.2]

def option1CipherLeaf (sha : Sha2) (dalek : Dalek R) (block : Option1CiphertextBlock R) :
    Bytes 32 :=
  sha512Half sha <| "EBUT:OPTION1:CIPHER-LEAF:V3".toUTF8.toList ++
    (dalek.compress block.c1).toList ++ usizeLeBytes block.c2Points.length ++
    option1PointBytes dalek block.toPackedBlock ++
    usizeLeBytes block.selectorCiphertext.length ++ block.selectorCiphertext

variable {D : Type} (merkle : MerkleHashes D)

/-- The file's identity, root and bases as the two transcripts contain them. -/
def option1CommitmentBytes (dalek : Dalek R) (commitment : Option1FileCommitment R D) :
    List UInt8 :=
  commitment.fileId.toList ++ merkle.toBytes commitment.rootHash ++
    (dalek.compress commitment.fileBase).toList ++
    (dalek.compress commitment.filePublicKey).toList ++
    (dalek.compress commitment.commitmentBase).toList

/-- The bytes hashed into the digest the coefficients are derived from. -/
def option1BatchTranscript (dalek : Dalek R)
    (blocks : List (ChallengedBlock (Option1CiphertextBlock R) D)) (context : List UInt8)
    (commitment : Option1FileCommitment R D) : List UInt8 :=
  "EBUT:OPTION1:BATCH-TRANSCRIPT:V3".toUTF8.toList ++ context ++
    option1CommitmentBytes merkle dalek commitment ++
    blocks.flatMap fun b => u64LeBytes b.index ++ (dalek.compress b.block.c1).toList ++
      option1PointBytes dalek b.block.toPackedBlock ++ b.block.selectorCiphertext

def option1BatchCoefficients (sha : Sha2) (dalek : Dalek R)
    (blocks : List (ChallengedBlock (Option1CiphertextBlock R) D)) (context : List UInt8)
    (commitment : Option1FileCommitment R D) : List (List DalekScalar) :=
  let digest := sha.sha512 (option1BatchTranscript merkle dalek blocks context commitment)
  blocks.mapIdx fun bi b =>
    (List.range b.block.c2Points.length).map fun j =>
      DalekScalar.fromBytesModOrderWide <| sha.sha512 <|
        "EBUT:OPTION1:RHO:V3".toUTF8.toList ++ digest.toList ++ usizeLeBytes bi ++ usizeLeBytes j

/-- `proof_challenge`. -/
def option1Challenge (sha : Sha2) (dalek : Dalek R) (context : List UInt8)
    (commitment : Option1FileCommitment R D) (c1Bar dBar a1 a2 : R) : DalekScalar :=
  let point := fun p : R => (dalek.compress p).toList
  DalekScalar.fromBytesModOrderWide <| sha.sha512 <|
    "EBUT:OPTION1:SCHNORR:V3".toUTF8.toList ++ context ++
    option1CommitmentBytes merkle dalek commitment ++ point c1Bar ++ point dBar ++ point a1 ++
    point a2

def Option1FileCommitment.bases (commitment : Option1FileCommitment R D) : BatchBases R where
  base := commitment.fileBase
  publicKey := commitment.filePublicKey
  h := commitment.commitmentBase

/-- `Option1BatchProof::prove`. -/
def option1Prove (sha : Sha2) (dalek : Dalek R) (context : List UInt8)
    (commitment : Option1FileCommitment R D)
    (blocks : List (ChallengedBlock (Option1CiphertextBlock R) D))
    (witnesses : List WitnessBlock) (alphaR alphaS : DalekScalar) : BatchProof R :=
  batchProve commitment.bases (option1Challenge merkle sha dalek context commitment)
    (option1BatchCoefficients merkle sha dalek blocks context commitment)
    (blocks.map (·.block.toPackedBlock)) witnesses alphaR alphaS

variable [DecidableEq R]

/-- `Option1BatchProof::verify`. -/
def option1Verify (sha : Sha2) (dalek : Dalek R) (context : List UInt8)
    (commitment : Option1FileCommitment R D)
    (blocks : List (ChallengedBlock (Option1CiphertextBlock R) D)) (proof : BatchProof R) :
    Bool :=
  -- the bases come from the commitment, and any of them may be the identity
  if blocks.isEmpty || decide (commitment.fileBase = 0) ||
      decide (commitment.filePublicKey = 0) || decide (commitment.commitmentBase = 0) then false
  else batchVerify commitment.bases option1PointPayloadSize
    (option1Challenge merkle sha dalek context commitment)
    (option1BatchCoefficients merkle sha dalek blocks context commitment)
    (blocks.map (·.block.toPackedBlock)) proof

variable [DecidableEq D]

def verifyOption1FileProof (sha : Sha2) (dalek : Dalek R)
    (leafOf : Option1CiphertextBlock R → D) (proof : Option1FileProof R D)
    (commitment : Option1FileCommitment R D) (challengeNonce : Bytes 32)
    (proofContext : List UInt8) : Option Bool :=
  if commitment.encodingVersion ≠ option1FileEncodingV3 then some false
  else if commitment.pointPayloadSize.toNat ≠ option1PointPayloadSize ∨
      commitment.pointsPerBlock.toNat ≠ option1PointsPerBlock then some false
  else if proof.fileId ≠ commitment.fileId ∨ proof.rootHash ≠ commitment.rootHash then
    some false
  else if proof.blocks.length > commitment.numBlocks.toNat then some false
  else if commitment.numBlocks > 0 ∧ proof.blocks.isEmpty then some false
  else do
    -- as many positions are sampled as blocks were sent
    let expectedIndices ← deriveChallengeIndices sha option1ChallengeIndexDomain challengeNonce
      commitment.numBlocks proof.blocks.length
    if !challengedBlocksHold merkle leafOf commitment.rootHash proof.blocks expectedIndices then
      some false
    else some (option1Verify merkle sha dalek proofContext commitment proof.blocks
      proof.batchProof)

end Ebut
