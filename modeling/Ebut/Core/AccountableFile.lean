import Ebut.Core.AuditPolicy
import Ebut.Core.PointEncoding
import Ebut.Library.Blocks

/-!
# Accountable Files

How an accountable file is made and proved. The file is cut into groups, each a packed block
with one header, and a group into chunks, each a point. The prover samples the positions for
as many challenges as it was asked for; the verifier samples them again for as many blocks
as it was sent.

An encoding that fails ends the program, as does a position without a block, and a sampling
loop need not end: in each of these cases nothing is returned.

## Main definitions

* `ByteSlice`: The bytes of a file.
* `accountableBlock`: One group, encrypted and committed to.
* `createAccountableFileCommitmentAuto`: The commitment to a file.
* `createAccountableFileProof`: The proof for a nonce.
-/

namespace Ebut

open Blocks MerkleTree

def accountablePointsPerBlock : ℕ := 16
def accountablePackedBlockPayloadSize : ℕ := accountablePointPayloadSize * accountablePointsPerBlock

/-- `&[u8]`: its length is a `usize`. -/
structure ByteSlice where
  bytes : List UInt8
  length_lt : bytes.length < 2 ^ 64

/-- There are no more chunks than bytes. -/
theorem ByteSlice.length_chunks_lt (fileData : ByteSlice) {n : ℕ} (hn : 0 < n) :
    (chunks n fileData.bytes).length < 2 ^ 64 :=
  (length_chunks_le (Nat.le_mul_of_pos_left _ hn)).trans_lt fileData.length_lt

/-- What is drawn for a file: the encryption randomness of every block, the blinding of every
point, and the scalar that becomes the nonce. -/
structure AccountableFileCoins where
  r : ℕ → DalekScalar
  s : ℕ → ℕ → DalekScalar
  nonce : DalekScalar

/-- What is returned for a file: the commitment, the public blocks, their leaves and the
witnesses. -/
structure AccountableFile (R D : Type) where
  commitment : FileCommitment D
  publicBlocks : List (PackedBlock R)
  leaves : List D
  witnesses : List WitnessBlock

variable {R D : Type} [AddCommGroup R] [Module DalekScalar R] (sha : Sha2) (dalek : Dalek R)

/-- One turn of the loop over the groups: the block and its witness. -/
def accountableBlock (filePublicKey : R) (r : DalekScalar) (s : ℕ → DalekScalar)
    (group : List UInt8) : Option (PackedBlock R × WitnessBlock) := do
  let h := privatePlaintextH sha dalek
  let shared := r • filePublicKey
  let parts := chunks accountablePointPayloadSize group
  let ms ← parts.mapM fun chunk => (encodeChunkToPoint sha dalek chunk).toOption
  let blindings := (List.range ms.length).map s
  return (
    { c1 := r • dalek.basepoint
      c2Points := ms.map fun m => m + shared
      plaintextCommitments := List.zipWith (fun m s => m + s • h) ms blindings
      pointLengths := parts.map fun chunk => UInt8.ofNat chunk.length },
    { encryptionRandomness := r, commitmentBlindings := blindings })

variable (merkle : MerkleHashes D) (leafOf : PackedBlock R → D)

/-- `create_accountable_file_commitment_auto`. -/
def createAccountableFileCommitmentAuto (coins : AccountableFileCoins) (fileId : Bytes 32)
    (fileData : ByteSlice) (filePublicKey : R) : Option (AccountableFile R D) := do
  let groups := chunks accountablePackedBlockPayloadSize fileData.bytes
  let pairs ← groups.zipIdx.mapM fun (group, b) =>
    accountableBlock sha dalek filePublicKey (coins.r b) (coins.s b) group
  let publicBlocks := pairs.map Prod.fst
  let leaves := publicBlocks.map leafOf
  -- the tree has a root whatever the leaves are
  let root ← rootOf (buildMerkleTree merkle leaves)
  return {
    commitment := {
      fileId
      rootHash := root
      numBlocks := UInt64.ofNat publicBlocks.length
      blockSize := UInt64.ofNat accountablePackedBlockPayloadSize
      fileSize := UInt64.ofNat fileData.bytes.length
      encodingVersion := accountableFileEncodingV2
      nonce := leArray 32 coins.nonce.val }
    publicBlocks, leaves
    witnesses := pairs.map Prod.snd }

/-- `create_accountable_file_proof`. -/
def createAccountableFileProof (fileId : Bytes 32) (publicBlocks : List (PackedBlock R))
    (leaves : List D) (rootHash : D) (challengeNonce : Bytes 32) (numChallenges : ℕ)
    (filePublicKey : R) (witnesses : List WitnessBlock) (proofContext : List UInt8)
    (alphaR alphaS : DalekScalar) : Option (AccountableFileProof R D) := do
  let indices ← deriveChallengeIndices sha challengeIndexDomain challengeNonce
    (UInt64.ofNat publicBlocks.length) numChallenges
  let merkleTree := buildMerkleTree merkle leaves
  let blocks ← indices.mapM fun idx => do
    let block ← publicBlocks[idx.toNat]?
    return (⟨idx, block, merklePathFromTree merkleTree idx.toNat⟩ :
      ChallengedBlock (PackedBlock R) D)
  let proofWitnesses ← indices.mapM fun idx => witnesses[idx.toNat]?
  let batchProof :=
    accountableProve sha dalek proofContext filePublicKey blocks proofWitnesses alphaR alphaS
  return ⟨fileId, rootHash, blocks, batchProof⟩

end Ebut
