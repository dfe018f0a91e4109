import Ebut.Core.FileEncryption

/-!
# File Proofs of the First Format

The file proof that shows the decrypted points. A presented block carries its point and a
proof that two discrete logarithms agree, those of the tag and of the mask of the block; a
large proof carries one such proof for all its blocks in place of theirs.

The prover makes one proof when enough positions are sampled, and the verifier looks whether
one was sent. The verifier checks the blocks against the sampled positions in one of two
loops, so it does not share the loop of the other three kinds of file proof.

What the prover draws is given by the place of a block among those presented. Sampling that
does not end and a read past the last ciphertext are `none`.

## Main definitions

* `DLEQProof`, `DLEQProof.prove`, `DLEQProof.verify`: The proof of equal logarithms.
* `FileProof`: The file proof, with its parts.
* `deriveBatchCoefficients`, `combinePairs`: One statement for many blocks.
* `provePairs`, `verifyPairs`: The proof for all blocks.
* `createFileProof`: The prover.
* `verifyFileProof`: The verifier.
-/

namespace Ebut

open LittleEndian

structure DLEQProof (R : Type) where
  t1 : R
  t2 : R
  s : DalekScalar

structure BlockProof (R D : Type) where
  index : UInt64
  ciphertext : CiphertextBlock R
  decryptedPoint : R
  merklePath : List (Bool × D)
  dleqProof : Option (DLEQProof R)

structure FileProof (R D : Type) where
  fileId : Bytes 32
  rootHash : D
  blocks : List (BlockProof R D)
  batchProof : Option (DLEQProof R)

/-- What is drawn for a file proof: the randomness of the proof of every presented block, or
that of the proof for all of them. -/
structure FileProofCoins where
  r : ℕ → DalekScalar
  batch : DalekScalar

def batchThreshold : ℕ := 3

variable {R D : Type} [AddCommGroup R] [Module DalekScalar R] (sha : Sha2) (dalek : Dalek R)

/-- The header of a block and the mask that its point was hidden with. -/
def BlockProof.pair (block : BlockProof R D) : R × R :=
  (block.ciphertext.c1, block.ciphertext.c2 - block.decryptedPoint)

/-- `derive_batch_coefficients`. -/
def deriveBatchCoefficients (pairs : List (R × R)) : List DalekScalar :=
  let point := fun p : R => (dalek.compress p).toList
  (List.range pairs.length).map fun i =>
    DalekScalar.fromBytesModOrderWide <| sha.sha512 <| "NTAT:BATCH:DLEQ".toUTF8.toList ++
      (pairs.flatMap fun p => point p.1 ++ point p.2) ++ usizeLeBytes i

/-- `combine_pairs`. -/
def combinePairs (pairs : List (R × R)) (coeffs : List DalekScalar) : R × R :=
  (pairs.zip coeffs).foldl (fun acc p => (acc.1 + p.2 • p.1.1, acc.2 + p.2 • p.1.2)) (0, 0)

/-- `DLEQProof::prove`, with the randomness drawn. -/
def DLEQProof.prove (x : DalekScalar) (a b c d : R) (r : DalekScalar) : DLEQProof R :=
  let point := fun p : R => (dalek.compress p).toList
  let t1 := r • a
  let t2 := r • c
  let challenge := DalekScalar.fromBytesModOrderWide <| sha.sha512 <|
    "DLEQ_PROOF".toUTF8.toList ++ point a ++ point b ++ point c ++ point d ++ point t1 ++ point t2
  { t1, t2, s := r + challenge * x }

/-- One proof for the pairs of some blocks, behind the pair of the slot. -/
def provePairs (x : DalekScalar) (slotGenerator tag : R) (pairs : List (R × R))
    (r : DalekScalar) : DLEQProof R :=
  let pairs := (slotGenerator, tag) :: pairs
  let combined := combinePairs pairs (deriveBatchCoefficients sha dalek pairs)
  DLEQProof.prove sha dalek x slotGenerator tag combined.1 combined.2 r

/-- One turn of the loop of `create_file_proof`: the block, and the pair that is kept for the
proof of all. -/
def presentBlock (x : DalekScalar) (ciphertexts : List (CiphertextBlock R))
    (merkleTree : List (List D)) (slotGenerator tag : R) (useBatch : Bool) (r : DalekScalar)
    (idx : UInt64) : Option (BlockProof R D × (R × R)) := do
  let cipher ← ciphertexts[idx.toNat]?
  let m := elgamalDecryptBlock x cipher.c1 cipher.c2
  let d := cipher.c2 - m
  let path := merklePathFromTree merkleTree idx.toNat
  let dleqProof := if useBatch then none
    else some (DLEQProof.prove sha dalek x slotGenerator tag cipher.c1 d r)
  return (⟨idx, cipher, m, path, dleqProof⟩, (cipher.c1, d))

/-- `create_file_proof`. -/
def createFileProof (merkle : MerkleHashes D) (x : DalekScalar) (fileId : Bytes 32)
    (ciphertexts : List (CiphertextBlock R)) (leaves : List D) (rootHash : D)
    (challengeNonce : Bytes 32) (numChallenges : ℕ) (slotGenerator tag : R)
    (coins : FileProofCoins) : Option (FileProof R D) := do
  let indices ← deriveChallengeIndices sha challengeIndexDomain challengeNonce
    (UInt64.ofNat ciphertexts.length) numChallenges
  let merkleTree := buildMerkleTree merkle leaves
  let useBatch := decide (indices.length ≥ batchThreshold)
  let presented ← indices.zipIdx.mapM fun (idx, i) =>
    presentBlock sha dalek x ciphertexts merkleTree slotGenerator tag useBatch (coins.r i) idx
  let batchProof := if useBatch then
      some (provePairs sha dalek x slotGenerator tag (presented.map Prod.snd) coins.batch)
    else none
  return ⟨fileId, rootHash, presented.map Prod.fst, batchProof⟩

variable [DecidableEq R]

/-- `DLEQProof::verify`. -/
def DLEQProof.verify (proof : DLEQProof R) (a b c d : R) : Bool :=
  let point := fun p : R => (dalek.compress p).toList
  let challenge := DalekScalar.fromBytesModOrderWide <| sha.sha512 <|
    "DLEQ_PROOF".toUTF8.toList ++ point a ++ point b ++ point c ++ point d ++ point proof.t1 ++
    point proof.t2
  decide (proof.s • a - challenge • b = proof.t1) &&
    decide (proof.s • c - challenge • d = proof.t2)

/-- The verifier of one proof for the pairs of some blocks. -/
def verifyPairs (proof : DLEQProof R) (slotGenerator tag : R) (pairs : List (R × R)) : Bool :=
  let pairs := (slotGenerator, tag) :: pairs
  let combined := combinePairs pairs (deriveBatchCoefficients sha dalek pairs)
  proof.verify sha dalek slotGenerator tag combined.1 combined.2

variable [DecidableEq D]

def verifyFileProof (merkle : MerkleHashes D) (leafOf : CiphertextBlock R → D)
    (proof : FileProof R D) (storedCommitment : FileCommitment D) (challengeNonce : Bytes 32)
    (slotGenerator tag : R) : Option Bool :=
  if proof.fileId ≠ storedCommitment.fileId ∨ proof.rootHash ≠ storedCommitment.rootHash then
    some false
  else if storedCommitment.encodingVersion ≠ reversiblePointEncodingV1 then some false
  else if storedCommitment.blockSize = 0 ∨
      storedCommitment.blockSize.toNat > reversiblePointPayloadSize then some false
  else if proof.blocks.length > storedCommitment.numBlocks.toNat then some false
  else if storedCommitment.numBlocks > 0 ∧ proof.blocks.isEmpty then some false
  else do
    -- as many positions are sampled as blocks were sent
    let expectedIndices ← deriveChallengeIndices sha challengeIndexDomain challengeNonce
      storedCommitment.numBlocks proof.blocks.length
    -- both loops end with the shorter of the two lists
    let expected := proof.blocks.zip expectedIndices
    match proof.batchProof with
    | some batchProof =>
        if !expected.all fun p => decide (p.1.index = p.2) && p.1.dleqProof.isNone &&
            verifyMerklePath merkle (leafOf p.1.ciphertext) p.1.index.toNat p.1.merklePath
              storedCommitment.rootHash then some false
        else some (verifyPairs sha dalek batchProof slotGenerator tag
          (expected.map fun p => p.1.pair))
    | none =>
        some <| expected.all fun p => decide (p.1.index = p.2) &&
          verifyMerklePath merkle (leafOf p.1.ciphertext) p.1.index.toNat p.1.merklePath
            storedCommitment.rootHash &&
          p.1.dleqProof.any fun dleq =>
            dleq.verify sha dalek slotGenerator tag p.1.pair.1 p.1.pair.2

end Ebut
