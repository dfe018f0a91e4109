import Ebut.Core.Suite
import Mathlib.Logic.Function.Basic

/-!
# High-Privacy Nonces

The second way of showing that a nonce is fresh: a Merkle path from the nonce to
a published root, and a Bloom filter of the nonces seen before.

The filter's size and its number of hashes follow from a false-positive rate that
the code computes with in floating point, and are fields here. So is the bound on
the size: a filter of no bytes has no position to hash into.

## Main definitions

* `MerkleProof`, `MerkleProof.verify`: A path from a nonce to a root.
* `BloomFilter`: The filter, with `insert` and `contains`.
* `merkleNonceFresh`: What `verify_merkle_nonce` tests before it inserts.

## Theorems

* `BloomFilter.contains_insert`: A nonce inserted is contained.
* `BloomFilter.contains_insert_of_contains`: A nonce contained stays contained.
* `merkleNonceFresh_insert`: A nonce inserted is refused.
-/

namespace Ebut

structure MerkleProof where
  leaf : Bytes 16
  siblings : List (Bytes 32)
  index : ℕ

/-- The hash over one sibling. -/
def MerkleProof.combine (sha : Sha2) (idx : ℕ) (current sibling : Bytes 32) : Bytes 32 :=
  -- an even position is a left child
  if idx % 2 = 0 then sha.sha256 (current.toList ++ sibling.toList)
  else sha.sha256 (sibling.toList ++ current.toList)

/-- The loop over the siblings. -/
def MerkleProof.climb (sha : Sha2) : ℕ → Bytes 32 → List (Bytes 32) → Bytes 32
  | _, current, [] => current
  | idx, current, sibling :: siblings =>
      climb sha (idx / 2) (MerkleProof.combine sha idx current sibling) siblings

def MerkleProof.verify (proof : MerkleProof) (sha : Sha2) (root : Bytes 32) : Bool :=
  decide (MerkleProof.climb sha proof.index (sha.sha256 proof.leaf.toList) proof.siblings = root)

/-- The filter: which of its bits are set. -/
structure BloomFilter where
  byteCount : ℕ
  numHashes : ℕ
  isSet : ℕ → Bool
  byteCount_pos : 0 < byteCount

namespace BloomFilter

variable (hasher : List UInt8 → ℕ → UInt64) (filter : BloomFilter) (data : List UInt8)

/-- The position of one hash. `DefaultHasher` is an argument. -/
def hash (seed : ℕ) : ℕ := (hasher data seed).toNat % (filter.byteCount * 8)

/-- The insertion loop over the seeds that are left. -/
def insertLoop : List ℕ → (ℕ → Bool) → ℕ → Bool
  | [], isSet => isSet
  | seed :: seeds, isSet =>
      insertLoop seeds (Function.update isSet (filter.hash hasher data seed) true)

def insert : BloomFilter :=
  { filter with
    isSet := insertLoop hasher filter data (List.range filter.numHashes) filter.isSet }

def contains : Bool :=
  (List.range filter.numHashes).all fun seed => filter.isSet (filter.hash hasher data seed)

theorem insertLoop_of_isSet {seeds : List ℕ} {bit : ℕ} {isSet : ℕ → Bool}
    (h : isSet bit = true) : insertLoop hasher filter data seeds isSet bit = true := by
  induction seeds generalizing isSet with
  | nil => exact h
  | cons seed seeds ih =>
      refine ih ?_
      by_cases hbit : bit = filter.hash hasher data seed
      · rw [hbit, Function.update_self]
      · rw [Function.update_of_ne hbit, h]

theorem insertLoop_hash {seeds : List ℕ} {seed : ℕ} {isSet : ℕ → Bool} (h : seed ∈ seeds) :
    insertLoop hasher filter data seeds isSet (filter.hash hasher data seed) = true := by
  induction seeds generalizing isSet with
  | nil => exact absurd h List.not_mem_nil
  | cons first seeds ih =>
      rcases List.mem_cons.mp h with rfl | hrest
      · rw [insertLoop]
        exact insertLoop_of_isSet hasher filter data (Function.update_self ..)
      · exact ih hrest

/-- There are no false negatives. -/
theorem contains_insert : (filter.insert hasher data).contains hasher data = true := by
  simp only [contains, List.all_eq_true]
  intro seed hseed
  exact insertLoop_hash hasher filter data hseed

/-- Bits are never cleared. -/
theorem contains_insert_of_contains {other : List UInt8}
    (h : filter.contains hasher other = true) :
    (filter.insert hasher data).contains hasher other = true := by
  simp only [contains, List.all_eq_true] at h ⊢
  intro seed hseed
  exact insertLoop_of_isSet hasher filter data (h seed hseed)

end BloomFilter

/-- `verify_merkle_nonce` up to the insertion, which is a step of its own: another
request can run between the two. -/
def merkleNonceFresh (sha : Sha2) (hasher : List UInt8 → ℕ → UInt64) (filter : BloomFilter)
    (nonce : Bytes 16) (merkleProof : MerkleProof) (expectedRoot : Bytes 32) : Bool :=
  if merkleProof.verify sha expectedRoot = false then false
  -- the path is one for this nonce, not for another leaf of the same tree
  else if merkleProof.leaf ≠ nonce then false
  else if filter.contains hasher nonce.toList then false
  else true

/-- A nonce that was inserted is refused, whatever path is shown for it. -/
theorem merkleNonceFresh_insert (sha : Sha2) (hasher : List UInt8 → ℕ → UInt64)
    (filter : BloomFilter) (nonce : Bytes 16) (merkleProof : MerkleProof)
    (expectedRoot : Bytes 32) :
    merkleNonceFresh sha hasher (filter.insert hasher nonce.toList) nonce merkleProof
      expectedRoot = false := by
  unfold merkleNonceFresh
  rw [filter.contains_insert hasher nonce.toList, if_pos rfl]
  split_ifs <;> rfl

end Ebut
