import Ebut.Core.Suite
import Ebut.Library.MerkleTree

/-!
# File Trees and Challenged Positions

What the three kinds of file proof share: the Merkle tree over the leaves of a
file, the verification of a path, the sampling of challenged positions from a
nonce, and the loop that checks the presented blocks against both.

The code's digests are 32-byte truncations of SHA-512. The tree and the
verifiers are stated over any type of digests with the two hash functions, so
that these can be taken to be injective.

## Main definitions

* `MerkleHashes`: Digests with the leaf and the node hash.
* `buildMerkleTree`, `merklePathFromTree`: The tree and the path of a position.
* `readPath`: The path with every read that can fail.
* `verifyMerklePath`: The verifier of a path.
* `deriveChallengeIndices`: The challenged positions.
* `ChallengedBlock`: A block presented for a position, with its path.
* `challengedBlocksHold`: The loop over the presented blocks.

## Theorems

* `buildMerkleTree_ends`: Every tree has a root.
-/

namespace Ebut

open LittleEndian MerkleTree

/-- A type of digests with the hash functions of a file tree. -/
structure MerkleHashes (D : Type) where
  /-- `merkle_hash`. -/
  hash : D → D
  /-- `merkle_combine`. -/
  combine : D → D → D
  /-- The digest `[0u8; 32]` that stands for the empty file. -/
  zero : D
  /-- The bytes of a digest, as transcripts contain them. -/
  toBytes : D → List UInt8

/-- The first half of a SHA-512 digest. -/
def sha512Half (sha : Sha2) (preimage : List UInt8) : Bytes 32 :=
  ⟨(sha.sha512 preimage).toList.take 32, by
    rw [List.length_take, (sha.sha512 preimage).toList_length]; rfl⟩

/-- The hash functions of the code, under the domain separators of a module. -/
def sha512Merkle (sha : Sha2) (leafDomain nodeDomain : String) : MerkleHashes (Bytes 32) where
  hash := fun leaf => sha512Half sha (leafDomain.toUTF8.toList ++ leaf.toList)
  combine := fun left right =>
    sha512Half sha (nodeDomain.toUTF8.toList ++ left.toList ++ right.toList)
  zero := leArray 32 0
  toBytes := fun digest => digest.toList

section Tree

variable {D : Type} (merkle : MerkleHashes D)

def buildMerkleTree (leaves : List D) : List (List D) :=
  -- an empty file has a root all the same
  if leaves.isEmpty then [[merkle.zero]]
  else levels merkle.combine leaves.length (leaves.map merkle.hash)

/-- The tree of any file has a root: a turn for every leaf is enough. -/
theorem buildMerkleTree_ends (leaves : List D) :
    ∃ root, (buildMerkleTree merkle leaves).getLast? = some [root] := by
  unfold buildMerkleTree
  by_cases hempty : leaves.isEmpty
  · rw [if_pos hempty]
    exact ⟨merkle.zero, rfl⟩
  · rw [if_neg hempty]
    refine levels_ends merkle.combine leaves.length ?_ ?_
    · intro hnil
      exact hempty (List.isEmpty_iff.mpr (List.map_eq_nil_iff.mp hnil))
    · rw [List.length_map]
      exact Nat.le_succ _

def merklePathFromTree (tree : List (List D)) (index : ℕ) : List (Bool × D) :=
  pathAt tree index

/-- One turn of `merkle_path_from_tree` with its subtraction and its read: `none` where the
position underflows or the read lies outside the level. -/
def readStep (level : List D) (idx : ℕ) : Option (List (Bool × D)) := do
  let siblingIdx : ℕ ← (if idx % 2 = 0 then some (idx + 1)
    else if 1 ≤ idx then some (idx - 1) else none : Option ℕ)
  if siblingIdx < level.length then
    (level[siblingIdx]?).map fun sibling => [(decide (siblingIdx < idx), sibling)]
  else some []

/-- The loop over the levels, with reads that can fail. -/
def readPath : List (List D) → ℕ → Option (List (Bool × D))
  | [], _ => some []
  | level :: above, idx => do
      let steps ← readStep level idx
      let rest ← readPath above (idx / 2)
      return steps ++ rest

variable [DecidableEq D]

/-- `verify_merkle_path`. The position is not used. -/
def verifyMerklePath (leaf : D) (_index : ℕ) (path : List (Bool × D)) (root : D) : Bool :=
  decide (climb merkle.combine (merkle.hash leaf) path = root)

end Tree

/-- `BTreeSet::insert` on the ascending list of the set's elements. -/
def insertSorted (x : UInt64) : List UInt64 → List UInt64
  | [] => [x]
  | y :: ys => if x < y then x :: y :: ys else if x = y then y :: ys else y :: insertSorted x ys

/-- The sampling loop with `fuel` turns left. The counter has 64 bits and wraps,
so a loop that has not ended after `2 ^ 64` turns never ends: `none`. -/
def sampleLoop (sample : UInt64 → UInt64) (target : ℕ) :
    ℕ → UInt64 → List UInt64 → Option (List UInt64)
  | 0, _, out => if out.length < target then none else some out
  | fuel + 1, counter, out =>
      if out.length < target then
        sampleLoop sample target fuel (counter + 1) (insertSorted (sample counter) out)
      else some out

/-- The position sampled at a counter: 128 bits of a digest modulo the number of
blocks. -/
def sampleIndex (sha : Sha2) (domain : String) (nonce : Bytes 32) (numBlocks : UInt64)
    (target : ℕ) (counter : UInt64) : UInt64 :=
  let digest := sha.sha512 (domain.toUTF8.toList ++ nonce.toList ++ u64LeBytes numBlocks ++
    usizeLeBytes target ++ u64LeBytes counter)
  UInt64.ofNat (leNat (digest.toList.take 16) % numBlocks.toNat)

/-- `derive_challenge_indices`, under the domain separator of a module. -/
def deriveChallengeIndices (sha : Sha2) (domain : String) (nonce : Bytes 32)
    (numBlocks : UInt64) (numChallenges : ℕ) : Option (List UInt64) :=
  if numBlocks = 0 ∨ numChallenges = 0 then some []
  else
    let target := min numChallenges numBlocks.toNat
    -- where every block is challenged, nothing is sampled
    if target = numBlocks.toNat then some ((List.range numBlocks.toNat).map UInt64.ofNat)
    else sampleLoop (sampleIndex sha domain nonce numBlocks target) target (2 ^ 64) 0 []

/-- A block presented for a challenged position, with its Merkle path. -/
structure ChallengedBlock (B D : Type) where
  index : UInt64
  block : B
  merklePath : List (Bool × D)

/-- The loop over the presented blocks and the expected positions. -/
def challengedBlocksHold {B D : Type} [DecidableEq D] (merkle : MerkleHashes D) (leafOf : B → D)
    (root : D) (blocks : List (ChallengedBlock B D)) (expected : List UInt64) : Bool :=
  -- the loop ends with the shorter of the two lists
  (blocks.zip expected).all fun p =>
    decide (p.1.index = p.2) &&
      verifyMerklePath merkle (leafOf p.1.block) p.1.index.toNat p.1.merklePath root

/-- `FileCommitment`, over any type of digests. -/
structure FileCommitment (D : Type) where
  fileId : Bytes 32
  rootHash : D
  numBlocks : UInt64
  /-- Maximum plaintext bytes encoded into one block. -/
  blockSize : UInt64
  /-- Exact original file size in bytes. -/
  fileSize : UInt64
  /-- Encoding version for reversible point encoding. -/
  encodingVersion : UInt32
  nonce : Bytes 32

end Ebut
