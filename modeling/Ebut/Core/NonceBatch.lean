import Ebut.Core.Nonce
import Ebut.Library.MerkleTree
import Ebut.Library.Transition
import Mathlib.Data.Nat.Log

/-!
# Published Batches of Nonces

The tree over a batch of high-privacy nonces, and the manager that publishes batches
and checks the nonces that come back. The batch is padded with zero nonces to a power
of two, and the levels are built in place in one list of digests.

The tree is stated over any type of digests with the two uses that the code makes of
SHA-256, so that they can be taken to be injective. At the code's own digests the
verifier is the one of `MerkleProof`.

## Main definitions

* `NonceHashes`, `sha256Hashes`: Digests with the hash of a leaf and of two children.
* `NonceProof`, `NonceProof.verify`: `MerkleProof` over any digests.
* `NonceTree`, `NonceTree.build`: `MerkleTree` over any digests.
* `NonceTree.prove`: The path of a nonce, over levels that are built once more.
* `NonceManager`: The published batch and the filter of the nonces seen.
* `verifyMerkleNonce`: The check of a nonce that comes back.
* `NonceCall`, `NonceManager.step`: The calls of the manager.

## Theorems

* `nonceProof_verify_sha256`: The verifier of `MerkleProof` is an instance.
* `verifyMerkleNonce_fst`: The answer at the code's digests.
-/

namespace Ebut

/-- A type of digests with the hash functions of a nonce tree. -/
structure NonceHashes (D : Type) where
  /-- `Sha256::digest` of a nonce. -/
  hash : Bytes 16 → D
  /-- SHA-256 of two digests, one after the other. -/
  combine : D → D → D

/-- The hash functions of the code. -/
def sha256Hashes (sha : Sha2) : NonceHashes (Bytes 32) where
  hash := fun leaf => sha.sha256 leaf.toList
  combine := fun left right => sha.sha256 (left.toList ++ right.toList)

/-- `MerkleProof`, with digests of any type. -/
structure NonceProof (D : Type) where
  leaf : Bytes 16
  siblings : List D
  index : ℕ

/-- The nonce `[0u8; 16]` that a batch is padded with. -/
def zeroNonce : Bytes 16 := leArray 16 0

section Tree

variable {D : Type} (hashes : NonceHashes D)

/-- The loop over the siblings. -/
def NonceProof.climb : ℕ → D → List D → D
  | _, current, [] => current
  | idx, current, sibling :: siblings =>
      let next := if idx % 2 = 0 then hashes.combine current sibling
        else hashes.combine sibling current
      climb (idx / 2) next siblings

/-- `MerkleProof::verify`. -/
def NonceProof.verify [DecidableEq D] (proof : NonceProof D) (root : D) : Bool :=
  decide (NonceProof.climb hashes proof.index (hashes.hash proof.leaf) proof.siblings = root)

/-- `MerkleTree`. -/
structure NonceTree (D : Type) where
  leaves : List (Bytes 16)
  root : D

/-- `usize::next_power_of_two`. -/
def nextPowerOfTwo (n : ℕ) : ℕ := 2 ^ Nat.clog 2 n

/-- One turn of the inner loop: the parent of two neighbours overwrites the digest at
its own position. Both neighbours are in range whenever the loop runs. -/
def combineAt (level : List D) (i : ℕ) : List D :=
  match level[2 * i]?, level[2 * i + 1]? with
  | some left, some right => level.set i (hashes.combine left right)
  | _, _ => level

/-- The outer loop, with `n` turns left: the first `levelSize` digests are the present
level. -/
def buildLoop : ℕ → List D → ℕ → List D
  | 0, level, _ => level
  | n + 1, level, levelSize =>
      if levelSize > 1 then
        buildLoop n ((List.range (levelSize / 2)).foldl (combineAt hashes) level) (levelSize / 2)
      else level

/-- `nonces.resize(next_pow2, [0u8; 16])`. -/
def padNonces (nonces : List (Bytes 16)) : List (Bytes 16) :=
  nonces ++ List.replicate (nextPowerOfTwo nonces.length - nonces.length) zeroNonce

/-- `MerkleTree::build`. -/
def NonceTree.build (nonces : List (Bytes 16)) : NonceTree D :=
  let originalLen := nonces.length
  let nextPow2 := nextPowerOfTwo originalLen
  let padded := padNonces nonces
  let level := buildLoop hashes nextPow2 (padded.map hashes.hash) nextPow2
  { leaves := padded.take originalLen
    -- there is a first digest: a batch of no nonces is padded to one
    root := level.headD (hashes.hash zeroNonce) }

/-- The parents of `level.chunks_exact(2)`: a last digest alone is in no chunk. -/
def parents : List D → List D
  | left :: right :: rest => hashes.combine left right :: parents rest
  | _ => []

/-- The loop over the levels, with `n` turns left: the siblings from the bottom up. It is
`none` where a sibling is read outside its level or no turn is left. -/
def proveLoop : ℕ → List D → ℕ → Option (List D)
  | 0, level, _ => if level.length > 1 then none else some []
  | n + 1, level, idx =>
      if level.length > 1 then do
        let siblingIdx := if idx % 2 = 0 then idx + 1 else idx - 1
        let sibling ← level[siblingIdx]?
        let siblings ← proveLoop n (parents hashes level) (idx / 2)
        return sibling :: siblings
      else some []

/-- `MerkleTree::prove`. -/
def NonceTree.prove (tree : NonceTree D) (index : ℕ) : Option (NonceProof D) :=
  if index ≥ tree.leaves.length then none
  else do
    let leaf ← tree.leaves[index]?
    let paddedLen := nextPowerOfTwo tree.leaves.length
    let siblings ← proveLoop hashes paddedLen ((padNonces tree.leaves).map hashes.hash) index
    return ⟨leaf, siblings, index⟩

end Tree

/-- `NonceManager`, without its connection to the store of the other nonces. -/
structure NonceManager (D : Type) where
  currentRoot : Option D
  currentTree : Option (NonceTree D)
  bloomFilter : BloomFilter

section Manager

variable {D : Type} [DecidableEq D] (hashes : NonceHashes D) (hasher : List UInt8 → ℕ → UInt64)

/-- `NonceManager::new`, with the empty filter. -/
def NonceManager.new (bloomFilter : BloomFilter) : NonceManager D := ⟨none, none, bloomFilter⟩

/-- `publish_high_privacy_batch`, with the nonces it draws. -/
def publishHighPrivacyBatch (mgr : NonceManager D) (nonces : List (Bytes 16)) :
    (D × ℕ) × NonceManager D :=
  let tree := NonceTree.build hashes nonces
  ((tree.root, nonces.length),
    { mgr with currentRoot := some tree.root, currentTree := some tree })

/-- `verify_merkle_nonce`. The lock it takes is on the published tree, which the check
does not read. -/
def verifyMerkleNonce (mgr : NonceManager D) (nonce : Bytes 16) (merkleProof : NonceProof D)
    (expectedRoot : D) : Bool × NonceManager D :=
  if merkleProof.verify hashes expectedRoot = false then (false, mgr)
  else if merkleProof.leaf ≠ nonce then (false, mgr)
  else if mgr.bloomFilter.contains hasher nonce.toList then (false, mgr)
  else (true, { mgr with bloomFilter := mgr.bloomFilter.insert hasher nonce.toList })

/-- The calls of the manager. -/
inductive NonceCall (D : Type) where
  | publish (nonces : List (Bytes 16))
  | verify (nonce : Bytes 16) (merkleProof : NonceProof D) (expectedRoot : D)

/-- What a call leaves behind. -/
def NonceManager.step (mgr : NonceManager D) : NonceCall D → NonceManager D
  | .publish nonces => (publishHighPrivacyBatch hashes mgr nonces).2
  | .verify nonce merkleProof expectedRoot =>
      (verifyMerkleNonce hashes hasher mgr nonce merkleProof expectedRoot).2

end Manager

section Sha256

variable (sha : Sha2)

/-- A path over the code's digests. -/
def MerkleProof.toNonceProof (proof : MerkleProof) : NonceProof (Bytes 32) :=
  ⟨proof.leaf, proof.siblings, proof.index⟩

theorem nonceProof_climb_sha256 (idx : ℕ) (current : Bytes 32) (siblings : List (Bytes 32)) :
    NonceProof.climb (sha256Hashes sha) idx current siblings =
      MerkleProof.climb sha idx current siblings := by
  induction siblings generalizing idx current with
  | nil => rfl
  | cons sibling siblings ih =>
      rw [NonceProof.climb, MerkleProof.climb, MerkleProof.combine, ih]
      rfl

/-- The verifier of `MerkleProof` is the one at the code's digests. -/
theorem nonceProof_verify_sha256 (proof : MerkleProof) (root : Bytes 32) :
    proof.toNonceProof.verify (sha256Hashes sha) root = proof.verify sha root := by
  rw [NonceProof.verify, MerkleProof.verify, nonceProof_climb_sha256]
  rfl

/-- The answer at the code's digests is the test of the spend handler. -/
theorem verifyMerkleNonce_fst (hasher : List UInt8 → ℕ → UInt64) (mgr : NonceManager (Bytes 32))
    (nonce : Bytes 16) (proof : MerkleProof) (expectedRoot : Bytes 32) :
    (verifyMerkleNonce (sha256Hashes sha) hasher mgr nonce proof.toNonceProof expectedRoot).1 =
      merkleNonceFresh sha hasher mgr.bloomFilter nonce proof expectedRoot := by
  unfold verifyMerkleNonce merkleNonceFresh
  rw [nonceProof_verify_sha256, show proof.toNonceProof.leaf = proof.leaf from rfl]
  split_ifs <;> rfl

end Sha256

end Ebut
