import Ebut.Core.AccountableFile

/-!
# Encrypting and Decrypting Files

How a file is encrypted in the first format and in the private one, a point for each chunk,
and how the three kinds of file are decrypted. The decryption of an accountable file is here
too, since it differs from the other in its loops only.

The chunks are encrypted in parallel, each with its own randomness, so that the randomness
is given by the position of the chunk. As for an accountable file, an encoding that fails or
an assertion ends the program, and nothing is returned.

## Main definitions

* `createFileCommitmentAuto`: The commitment to a file in the first format.
* `createPrivateFileCommitmentAuto`: The commitment to a private file.
* `decryptFileFromCiphertexts`: Decryption, a point for each chunk.
* `decryptPrivateFileFromCiphertexts`: The same for a private file.
* `decryptAccountableFileFromCiphertexts`: Decryption of packed blocks.
* `afterCapacity?`, `decryptFileFromCiphertexts?`, `decryptAccountableFileFromCiphertexts?`: The
  same with the allocation of the buffer, which may panic.
-/

namespace Ebut

open Blocks MerkleTree

structure CiphertextBlock (R : Type) where
  c1 : R
  c2 : R

/-- The `ciphertext` of a private block. -/
def PrivateCiphertextBlock.ciphertext {R : Type} (block : PrivateCiphertextBlock R) :
    CiphertextBlock R := ⟨block.c1, block.c2⟩

structure PrivateFileWitnessBlock where
  encryptionRandomness : DalekScalar
  commitmentBlinding : DalekScalar

/-- What is drawn for a file of the first format: the randomness of every block, and the
scalar that becomes the nonce. -/
structure FileCoins where
  r : ℕ → DalekScalar
  nonce : DalekScalar

/-- What is drawn for a private file, where every block also has a blinding. -/
structure PrivateFileCoins where
  r : ℕ → DalekScalar
  s : ℕ → DalekScalar
  nonce : DalekScalar

/-- What is returned for a file of the first format. -/
structure EncryptedFile (R D : Type) where
  commitment : FileCommitment D
  ciphertexts : List (CiphertextBlock R)
  leaves : List D

/-- What is returned for a private file. -/
structure PrivateFile (R D : Type) where
  commitment : FileCommitment D
  publicBlocks : List (PrivateCiphertextBlock R)
  leaves : List D
  witnesses : List PrivateFileWitnessBlock

/-- `auto_block_size`. -/
def autoBlockSize (_fileSizeBytes : ℕ) : ℕ := reversiblePointPayloadSize

/-- The commitment to blocks of one point. -/
def pointBlocksCommitment {D : Type} (fileId : Bytes 32) (root : D)
    (preEncryptedBlocks : List (List UInt8)) (nonce : DalekScalar) : FileCommitment D where
  fileId := fileId
  rootHash := root
  numBlocks := UInt64.ofNat preEncryptedBlocks.length
  blockSize := UInt64.ofNat reversiblePointPayloadSize
  fileSize := UInt64.ofNat (preEncryptedBlocks.map List.length).sum
  encodingVersion := reversiblePointEncodingV1
  nonce := leArray 32 nonce.val

variable {R D : Type} [AddCommGroup R] [Module DalekScalar R] (sha : Sha2) (dalek : Dalek R)

/-- The leaf of a ciphertext, hashed in `prepare_file_blocks`. -/
def cipherLeaf (cipher : CiphertextBlock R) : Bytes 32 :=
  sha512Half sha <| "CIPHER_LEAF".toUTF8.toList ++ (dalek.compress cipher.c1).toList ++
    (dalek.compress cipher.c2).toList

def elgamalEncryptBlock (r : DalekScalar) (m pk : R) : R × R := (r • dalek.basepoint, m + r • pk)

def elgamalDecryptBlock (x : DalekScalar) (c1 c2 : R) : R := c2 - x • c1

section Encrypt

variable (merkle : MerkleHashes D)

/-- `prepare_file_blocks`: the ciphertexts, their leaves and the root. -/
def prepareFileBlocks (leafOf : CiphertextBlock R → D) (r : ℕ → DalekScalar)
    (preEncryptedBlocks : List (List UInt8)) (x : DalekScalar) :
    Option (List (CiphertextBlock R) × List D × D) := do
  let pk := x • dalek.basepoint
  let ciphertexts ← preEncryptedBlocks.zipIdx.mapM fun (blockBytes, i) => do
    let m ← (encodeChunkToPoint sha dalek blockBytes).toOption
    let (c1, c2) := elgamalEncryptBlock dalek (r i) m pk
    return (⟨c1, c2⟩ : CiphertextBlock R)
  let leaves := ciphertexts.map leafOf
  -- the tree has a root whatever the leaves are
  let root ← rootOf (buildMerkleTree merkle leaves)
  return (ciphertexts, leaves, root)

/-- `create_file_commitment`. -/
def createFileCommitment (leafOf : CiphertextBlock R → D) (coins : FileCoins) (fileId : Bytes 32)
    (preEncryptedBlocks : List (List UInt8)) (x : DalekScalar) : Option (EncryptedFile R D) :=
  if preEncryptedBlocks.any fun block => decide (block.length > reversiblePointPayloadSize) then
    none
  else do
    let (ciphertexts, leaves, root) ←
      prepareFileBlocks sha dalek merkle leafOf coins.r preEncryptedBlocks x
    return ⟨pointBlocksCommitment fileId root preEncryptedBlocks coins.nonce, ciphertexts, leaves⟩

/-- `create_file_commitment_auto`. -/
def createFileCommitmentAuto (leafOf : CiphertextBlock R → D) (coins : FileCoins)
    (fileId : Bytes 32) (fileData : ByteSlice) (x : DalekScalar) : Option (EncryptedFile R D) :=
  let blockSize := autoBlockSize fileData.bytes.length
  createFileCommitment sha dalek merkle leafOf coins fileId (chunks blockSize fileData.bytes) x

/-- `prepare_private_file_blocks`: the blocks, their leaves, the witnesses and the root. -/
def preparePrivateFileBlocks (leafOf : PrivateCiphertextBlock R → D) (r s : ℕ → DalekScalar)
    (blocks : List (List UInt8)) (filePublicKey : R) :
    Option (List (PrivateCiphertextBlock R) × List D × List PrivateFileWitnessBlock × D) := do
  let h := privatePlaintextH sha dalek
  let pairs ← blocks.zipIdx.mapM fun (blockBytes, i) => do
    let m ← (encodeChunkToPoint sha dalek blockBytes).toOption
    return ((⟨r i • dalek.basepoint, m + r i • filePublicKey, m + s i • h⟩ :
      PrivateCiphertextBlock R), (⟨r i, s i⟩ : PrivateFileWitnessBlock))
  let publicBlocks := pairs.map Prod.fst
  let leaves := publicBlocks.map leafOf
  let root ← rootOf (buildMerkleTree merkle leaves)
  return (publicBlocks, leaves, pairs.map Prod.snd, root)

/-- `create_private_file_commitment`. -/
def createPrivateFileCommitment (leafOf : PrivateCiphertextBlock R → D) (coins : PrivateFileCoins)
    (fileId : Bytes 32) (preEncryptedBlocks : List (List UInt8)) (filePublicKey : R) :
    Option (PrivateFile R D) :=
  if preEncryptedBlocks.any fun block => decide (block.length > reversiblePointPayloadSize) then
    none
  else do
    let (blocks, leaves, witnesses, root) ← preparePrivateFileBlocks sha dalek merkle leafOf
      coins.r coins.s preEncryptedBlocks filePublicKey
    return ⟨pointBlocksCommitment fileId root preEncryptedBlocks coins.nonce, blocks, leaves,
      witnesses⟩

/-- `create_private_file_commitment_auto`. -/
def createPrivateFileCommitmentAuto (leafOf : PrivateCiphertextBlock R → D)
    (coins : PrivateFileCoins) (fileId : Bytes 32) (fileData : ByteSlice) (filePublicKey : R) :
    Option (PrivateFile R D) :=
  createPrivateFileCommitment sha dalek merkle leafOf coins fileId
    (chunks reversiblePointPayloadSize fileData.bytes) filePublicKey

end Encrypt

section Decrypt

/-- One turn of the loop over the ciphertexts, with the bytes read so far. -/
def decryptCiphertext (x : DalekScalar) (fileSize blockSize : ℕ) (out : List UInt8)
    (cipher : CiphertextBlock R) : Except PointEncodingError (List UInt8) := do
  let m := elgamalDecryptBlock x cipher.c1 cipher.c2
  -- no more bytes are read than the file has, so that the difference is not negative
  let remaining := fileSize - out.length
  let chunk ← decodePointToChunk dalek m (min remaining blockSize)
  return out ++ chunk

/-- `decrypt_file_from_ciphertexts`, if the buffer for the file can be allocated. The `break` at
the last ciphertext ends a loop that has ended. -/
def decryptFileFromCiphertexts (ciphertexts : List (CiphertextBlock R))
    (commitment : FileCommitment D) (x : DalekScalar) : Except PointEncodingError (List UInt8) :=
  if UInt64.ofNat ciphertexts.length ≠ commitment.numBlocks then
    .error (.invalidDecodedLength ciphertexts.length commitment.numBlocks.toNat)
  else if commitment.encodingVersion ≠ reversiblePointEncodingV1 then
    .error (.invalidDecodedLength commitment.encodingVersion.toNat reversiblePointEncodingV1.toNat)
  else ciphertexts.foldlM
    (decryptCiphertext dalek x commitment.fileSize.toNat commitment.blockSize.toNat) []

/-- `decrypt_private_file_from_ciphertexts`. -/
def decryptPrivateFileFromCiphertexts (privateBlocks : List (PrivateCiphertextBlock R))
    (commitment : FileCommitment D) (x : DalekScalar) : Except PointEncodingError (List UInt8) :=
  decryptFileFromCiphertexts dalek (privateBlocks.map fun b => b.ciphertext) commitment x

/-- One turn of the loop over the points of a block. -/
def decryptPackedPoint (shared : R) (fileSize : ℕ) (out : List UInt8) (point : R × UInt8) :
    Except PointEncodingError (List UInt8) :=
  -- the rest of the block is skipped, since the bytes stay as many as they are
  if out.length ≥ fileSize then return out
  else do
    let m := point.1 - shared
    let remaining := fileSize - out.length
    let chunk ← decodePointToChunk dalek m (min remaining point.2.toNat)
    return out ++ chunk

/-- One turn of the loop over the blocks. -/
def decryptPackedBlock (x : DalekScalar) (fileSize : ℕ) (out : List UInt8)
    (block : PackedBlock R) : Except PointEncodingError (List UInt8) :=
  let shared := x • block.c1
  (block.c2Points.zip block.pointLengths).foldlM (decryptPackedPoint dalek shared fileSize) out

/-- `decrypt_accountable_file_from_ciphertexts`, if the buffer can be allocated. -/
def decryptAccountableFileFromCiphertexts (publicBlocks : List (PackedBlock R))
    (commitment : FileCommitment D) (x : DalekScalar) : Except PointEncodingError (List UInt8) :=
  if commitment.encodingVersion ≠ accountableFileEncodingV2 then
    .error (.invalidDecodedLength commitment.encodingVersion.toNat accountableFileEncodingV2.toNat)
  else if UInt64.ofNat publicBlocks.length ≠ commitment.numBlocks then
    .error (.invalidDecodedLength publicBlocks.length commitment.numBlocks.toNat)
  else do
    let fileSize := commitment.fileSize.toNat
    let out ← publicBlocks.foldlM (decryptPackedBlock dalek x fileSize) []
    return out.take fileSize

/-- `Vec::with_capacity(file_size)` panics above `isize::MAX` bytes, and nothing that comes after
it happens then. -/
def afterCapacity? {α : Type} (fileSize : UInt64) (rest : α) : Option α :=
  if fileSize.toNat < 2 ^ 63 then some rest else none

/-- A call of `decrypt_file_from_ciphertexts`, `none` where it panics. The buffer is allocated
once the commitment has been compared. -/
def decryptFileFromCiphertexts? (ciphertexts : List (CiphertextBlock R))
    (commitment : FileCommitment D) (x : DalekScalar) :
    Option (Except PointEncodingError (List UInt8)) :=
  let result := decryptFileFromCiphertexts dalek ciphertexts commitment x
  if UInt64.ofNat ciphertexts.length = commitment.numBlocks ∧
      commitment.encodingVersion = reversiblePointEncodingV1 then
    afterCapacity? commitment.fileSize result
  else some result

/-- A call of `decrypt_accountable_file_from_ciphertexts`, `none` where it panics. -/
def decryptAccountableFileFromCiphertexts? (publicBlocks : List (PackedBlock R))
    (commitment : FileCommitment D) (x : DalekScalar) :
    Option (Except PointEncodingError (List UInt8)) :=
  let result := decryptAccountableFileFromCiphertexts dalek publicBlocks commitment x
  if UInt64.ofNat publicBlocks.length = commitment.numBlocks ∧
      commitment.encodingVersion = accountableFileEncodingV2 then
    afterCapacity? commitment.fileSize result
  else some result

end Decrypt

end Ebut
