import Ebut.Core.ElligatorCodec
import Ebut.Core.FileEncryption
import Ebut.Core.Option1FileBinding

/-!
# Encrypting and Decrypting Option 1 Files

How an Option 1 file is encrypted and decrypted. The file is cut into groups of sixteen
chunks, each chunk a point with a selector. The points of a group are hidden by one shared
point, and the packed selectors by a stream hashed from the same point, so that whoever has
the secret of the file's key computes both.

## Main definitions

* `deriveOption1CommitmentBase`: The base of the commitments.
* `streamXorMask`, `xorBytes`: The stream that hides the selectors.
* `createOption1FileCommitmentAuto`: The commitment to a file.
* `decryptOption1FileFromCiphertexts`, `decryptOption1FileFromCiphertexts?`: Decryption, the latter
  with the allocation of the buffer.
-/

namespace Ebut

open Blocks MerkleTree

def option1BlockPayloadSize : ℕ := option1PointPayloadSize * option1PointsPerBlock

inductive Option1FileBindingError where
  | codec (e : ElligatorCodecError)
  | invalidCiphertext
  | invalidCommitment
  deriving DecidableEq, Repr

/-- What is drawn for a file: the encryption randomness of every block and the blinding of
every point. -/
structure Option1FileCoins where
  r : ℕ → DalekScalar
  s : ℕ → ℕ → DalekScalar

/-- What is returned for a file. -/
structure Option1File (R D : Type) where
  commitment : Option1FileCommitment R D
  publicBlocks : List (Option1CiphertextBlock R)
  leaves : List D
  witnesses : List WitnessBlock

/-- The loop of `stream_xor_mask`, with the turns that are left. -/
def streamLoop (digest : UInt64 → Bytes 64) (len : ℕ) : ℕ → UInt64 → List UInt8 → List UInt8
  | 0, _, out => out
  | turns + 1, counter, out =>
      if out.length < len then
        streamLoop digest len turns (counter + 1) (out ++ (digest counter).toList)
      else out

/-- `xor_bytes`. -/
def xorBytes (a b : List UInt8) : List UInt8 := List.zipWith (fun x y => x ^^^ y) a b

variable {R D C : Type} [AddCommGroup R] [Module DalekScalar R] (sha : Sha2) (dalek : Dalek R)

/-- `hash_point`. -/
def hashPoint (domain : List UInt8) (inputs : List (List UInt8)) : R :=
  dalek.fromUniformBytes <| sha.sha512 <|
    domain ++ inputs.flatMap fun input => usizeLeBytes input.length ++ input

/-- `derive_option1_commitment_base`. -/
def deriveOption1CommitmentBase (fileId : Bytes 32) (fileBase filePublicKey : R) : R :=
  hashPoint sha dalek "EBUT:OPTION1:FILE-COMMIT-BASE:V3".toUTF8.toList
    [fileId.toList, (dalek.compress fileBase).toList, (dalek.compress filePublicKey).toList]

/-- `stream_xor_mask`. A turn adds bytes, so that there are no more turns than bytes. -/
def streamXorMask (shared : R) (fileId : Bytes 32) (blockIndex : UInt64) (len : ℕ) :
    List UInt8 :=
  let digest := fun counter => sha.sha512 <| "EBUT:OPTION1:SELECTOR-STREAM:V3".toUTF8.toList ++
    (dalek.compress shared).toList ++ fileId.toList ++ u64LeBytes blockIndex ++ u64LeBytes counter
  (streamLoop digest len len 0 []).take len

variable (library : Option (ElligatorLibrary C))

section Encrypt

/-- One turn of the loop over the groups: the block and its witness. -/
def option1Block (fileId : Bytes 32) (fileBase filePublicKey commitmentBase : R)
    (r : DalekScalar) (s : ℕ → DalekScalar) (blockIndex : ℕ) (group : List UInt8) :
    Except ElligatorCodecError (Option1CiphertextBlock R × WitnessBlock) := do
  let shared := r • filePublicKey
  let encs ← (chunks option1PointPayloadSize group).mapM (encodeChunk dalek library)
  let blindings := (List.range encs.length).map s
  let selectorPlain ← packSelectors (encs.map fun enc => enc.selector)
  let selectorMask :=
    streamXorMask sha dalek shared fileId (UInt64.ofNat blockIndex) selectorPlain.length
  return (
    { c1 := r • fileBase
      c2Points := encs.map fun enc => enc.point + shared
      plaintextCommitments :=
        List.zipWith (fun enc s => enc.point + s • commitmentBase) encs blindings
      pointLengths := encs.map fun enc => enc.len
      selectorCiphertext := xorBytes selectorPlain selectorMask },
    { encryptionRandomness := r, commitmentBlindings := blindings })

/-- A tree has a root whatever its leaves are. -/
theorem rootOf_isSome (merkle : MerkleHashes D) (leaves : List D) :
    (rootOf (buildMerkleTree merkle leaves)).isSome := by
  rcases buildMerkleTree_ends merkle leaves with ⟨root, hroot⟩
  rw [rootOf, hroot]
  rfl

variable (merkle : MerkleHashes D) (leafOf : Option1CiphertextBlock R → D)

/-- `create_option1_file_commitment_auto`. -/
def createOption1FileCommitmentAuto (coins : Option1FileCoins) (fileId : Bytes 32)
    (fileData : ByteSlice) (fileBase filePublicKey : R) (serverNonce fileSalt : Bytes 32) :
    Except Option1FileBindingError (Option1File R D) :=
  let commitmentBase := deriveOption1CommitmentBase sha dalek fileId fileBase filePublicKey
  let pairs := (chunks option1BlockPayloadSize fileData.bytes).zipIdx.mapM fun (group, b) =>
    option1Block sha dalek library fileId fileBase filePublicKey commitmentBase (coins.r b)
      (coins.s b) b group
  match pairs with
  | .error e => .error (.codec e)
  | .ok pairs =>
      let publicBlocks := pairs.map Prod.fst
      let leaves := publicBlocks.map leafOf
      .ok {
        commitment := {
          fileId, fileBase, filePublicKey, commitmentBase, fileSalt, serverNonce
          rootHash := (rootOf (buildMerkleTree merkle leaves)).get (rootOf_isSome merkle leaves)
          numBlocks := UInt64.ofNat publicBlocks.length
          fileSize := UInt64.ofNat fileData.bytes.length
          pointPayloadSize := UInt64.ofNat option1PointPayloadSize
          pointsPerBlock := UInt64.ofNat option1PointsPerBlock
          encodingVersion := option1FileEncodingV3 }
        publicBlocks, leaves
        witnesses := pairs.map Prod.snd }

end Encrypt

section Decrypt

/-- One turn of the loop over the points of a block. -/
def decryptOption1Point (shared : R) (fileSize : ℕ) (out : List UInt8)
    (point : (R × UInt8) × UInt8) : Except ElligatorCodecError (List UInt8) :=
  -- the rest of the block is skipped, since the bytes stay as many as they are
  if out.length ≥ fileSize then return out
  else do
    let m := point.1.1 - shared
    let remaining := fileSize - out.length
    let chunkLen := UInt8.ofNat (min remaining point.1.2.toNat)
    let chunk ← decodeChunk dalek library m point.2 chunkLen
    return out ++ chunk

/-- One turn of the loop over the blocks, at a block and its position. -/
def decryptOption1Block (fileId : Bytes 32) (x : DalekScalar) (fileSize : ℕ) (out : List UInt8)
    (p : Option1CiphertextBlock R × ℕ) : Except ElligatorCodecError (List UInt8) := do
  let shared := x • p.1.c1
  let selectorMask :=
    streamXorMask sha dalek shared fileId (UInt64.ofNat p.2) p.1.selectorCiphertext.length
  let selectorPlain := xorBytes p.1.selectorCiphertext selectorMask
  let selectors ← unpackSelectors selectorPlain p.1.c2Points.length
  ((p.1.c2Points.zip p.1.pointLengths).zip selectors).foldlM
    (decryptOption1Point dalek library shared fileSize) out

/-- `decrypt_option1_file_from_ciphertexts`, if the buffer can be allocated. -/
def decryptOption1FileFromCiphertexts (publicBlocks : List (Option1CiphertextBlock R))
    (commitment : Option1FileCommitment R D) (x : DalekScalar) :
    Except Option1FileBindingError (List UInt8) :=
  if commitment.encodingVersion ≠ option1FileEncodingV3 then .error .invalidCommitment
  else if UInt64.ofNat publicBlocks.length ≠ commitment.numBlocks then .error .invalidCiphertext
  else
    let fileSize := commitment.fileSize.toNat
    match publicBlocks.zipIdx.foldlM
      (decryptOption1Block sha dalek library commitment.fileId x fileSize) [] with
    | .error e => .error (.codec e)
    | .ok out => .ok (out.take fileSize)

/-- A call of `decrypt_option1_file_from_ciphertexts`, `none` where it panics. -/
def decryptOption1FileFromCiphertexts? (publicBlocks : List (Option1CiphertextBlock R))
    (commitment : Option1FileCommitment R D) (x : DalekScalar) :
    Option (Except Option1FileBindingError (List UInt8)) :=
  let result := decryptOption1FileFromCiphertexts sha dalek library publicBlocks commitment x
  if UInt64.ofNat publicBlocks.length = commitment.numBlocks ∧
      commitment.encodingVersion = option1FileEncodingV3 then
    afterCapacity? commitment.fileSize result
  else some result

end Decrypt

end Ebut
