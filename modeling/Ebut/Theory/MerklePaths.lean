import Ebut.Theory.AccountableFile
import Ebut.Theory.NonceBatch

/-!
# Every Leaf Has a Path

A file tree promotes the last digest of an odd level, so the paths of one tree differ in
length. The path of a position is read without leaving a level: the ancestors of a position
lie in their levels, and a missing sibling is skipped.

A nonce tree is padded to a power of two, nothing is promoted, and its root is that of the
perfect tree over the padded batch. The root is computed in place and the path from levels
built once more; both are the levels of one tree, so every path made is accepted.

## Theorems

* `readPath_eq`: No read of a path fails.
* `merklePath_complete`: Every leaf of a file has a path.
* `proveLoop_eq`: The siblings read are those of the tree.
* `nonceTree_agrees`: The two constructions of a nonce tree agree.
-/

namespace Ebut

open MerkleTree

variable {D : Type}

section File

/-- One turn reads the step of its level, whatever the position. -/
theorem readStep_eq (level : List D) (idx : ℕ) :
    readStep level idx = some (stepAt level idx) := by
  have hsibling : (if idx % 2 = 0 then some (idx + 1)
      else if 1 ≤ idx then some (idx - 1) else none) =
      some (if idx % 2 = 0 then idx + 1 else idx - 1) := by
    by_cases heven : idx % 2 = 0
    · rw [if_pos heven, if_pos heven]
    · -- an odd position has a predecessor
      rw [if_neg heven, if_neg heven, if_pos (by omega)]
  unfold readStep stepAt
  rw [hsibling, Option.bind_eq_bind, Option.bind_some]
  by_cases hlt : (if idx % 2 = 0 then idx + 1 else idx - 1) < level.length
  · have hread := List.getElem?_eq_getElem hlt
    simp only [if_pos hlt, hread, Option.map_some]
  · have hread := List.getElem?_eq_none (Nat.le_of_not_lt hlt)
    simp only [if_neg hlt, hread]

/-- The loop over all levels but the last reads the path, and no read of it fails. -/
theorem readPath_eq (tree : List (List D)) (index : ℕ) :
    readPath (tree.take (tree.length - 1)) index = some (merklePathFromTree tree index) := by
  unfold merklePathFromTree
  induction tree, index using pathAt.induct with
  | case1 level next rest idx ih =>
      rw [pathAt, show (level :: next :: rest).length - 1 = rest.length + 1 from rfl,
        List.take_succ_cons, readPath, readStep_eq]
      rw [show (next :: rest).length - 1 = rest.length from rfl] at ih
      rw [ih]
      rfl
  | case2 tree idx hshort =>
      cases tree with
      | nil => rfl
      | cons level rest =>
          cases rest with
          | nil => rfl
          | cons next rest => exact absurd rfl (hshort level next rest)

/-- The path of every leaf of a non-empty file is accepted for the one digest of the last
level. All its reads lie in their levels, where the ancestors of the leaf stand. -/
theorem merklePath_complete [DecidableEq D] (merkle : MerkleHashes D) (leaves : List D)
    (index : ℕ) (hindex : index < leaves.length) :
    ∃ root, (buildMerkleTree merkle leaves).getLast? = some [root] ∧
      readPath ((buildMerkleTree merkle leaves).take ((buildMerkleTree merkle leaves).length - 1))
        index = some (merklePathFromTree (buildMerkleTree merkle leaves) index) ∧
      (∀ j level, (buildMerkleTree merkle leaves)[j]? = some level →
        index / 2 ^ j < level.length) ∧
      verifyMerklePath merkle leaves[index] index
        (merklePathFromTree (buildMerkleTree merkle leaves) index) root = true := by
  have hne : leaves ≠ [] := List.ne_nil_of_length_pos (Nat.zero_lt_of_lt hindex)
  rcases buildMerkleTree_ends merkle leaves with ⟨root, hends⟩
  refine ⟨root, hends, readPath_eq _ _, ?_, ?_⟩
  · intro j level hlevel
    rw [buildMerkleTree_eq hne] at hlevel
    refine levels_position merkle.combine j leaves.length ?_ hlevel
    rwa [List.length_map]
  · have hroot : rootOf (buildMerkleTree merkle leaves) = some root := by
      rw [rootOf, hends]
      rfl
    exact verifyMerklePath_complete hroot (List.getElem?_eq_getElem hindex) index

/-- Three leaves, the last of which is promoted. -/
def threeLeaves : List (SymbolicDigest ℕ) := [.leaf 1, .leaf 2, .leaf 3]

/-- The promoted leaf: its path has one step for two levels. -/
theorem merklePath_complete_three :
    ∃ root, (buildMerkleTree (symbolicMerkle ℕ) threeLeaves).getLast? = some [root] ∧
      readPath ((buildMerkleTree (symbolicMerkle ℕ) threeLeaves).take
        ((buildMerkleTree (symbolicMerkle ℕ) threeLeaves).length - 1)) 2 =
          some (merklePathFromTree (buildMerkleTree (symbolicMerkle ℕ) threeLeaves) 2) ∧
      (∀ j level, (buildMerkleTree (symbolicMerkle ℕ) threeLeaves)[j]? = some level →
        2 / 2 ^ j < level.length) ∧
      verifyMerklePath (symbolicMerkle ℕ) (.leaf 3) 2
        (merklePathFromTree (buildMerkleTree (symbolicMerkle ℕ) threeLeaves) 2) root = true :=
  merklePath_complete (symbolicMerkle ℕ) threeLeaves 2 (by decide)

end File

section Nonce

variable (hashes : NonceHashes D)

/-- On an even level no digest is left over, so the parents are those of the tree. -/
theorem parents_eq {level : List D} (heven : level.length % 2 = 0) :
    parents hashes level = pairUp hashes.combine level := by
  induction level using pairUp.induct with
  | case1 a b rest ih =>
      rw [List.length_cons, List.length_cons] at heven
      rw [parents, pairUp, ih (by omega)]
  | case2 a => exact absurd heven (by rw [List.length_singleton]; omega)
  | case3 => rfl

/-- A position of an even level has a sibling, and its step is that sibling. -/
theorem stepAt_of_even {level : List D} {k idx : ℕ} (hlen : level.length = 2 * k)
    (hidx : idx < level.length) :
    ∃ sibling, level[if idx % 2 = 0 then idx + 1 else idx - 1]? = some sibling ∧
      (stepAt level idx).map Prod.snd = [sibling] := by
  have hlt : (if idx % 2 = 0 then idx + 1 else idx - 1) < level.length := by
    split <;> omega
  have hread := List.getElem?_eq_getElem hlt
  refine ⟨_, hread, ?_⟩
  simp only [stepAt, hread, List.map_cons, List.map_nil]

/-- The loop reads the siblings of the path in the tree built level by level. Its levels have
lengths that are powers of two, so every position has a sibling until one digest is left. -/
theorem proveLoop_eq (k n : ℕ) {level : List D} (hlen : level.length = 2 ^ k)
    (hturns : 2 ^ k ≤ n + 1) {idx : ℕ} (hidx : idx < 2 ^ k) :
    proveLoop hashes n level idx =
      some ((pathAt (levels hashes.combine n level) idx).map Prod.snd) := by
  induction k generalizing n level idx with
  | zero =>
      rcases List.length_eq_one_iff.mp hlen with ⟨root, rfl⟩
      rw [levels_singleton]
      cases n with
      | zero => rfl
      | succ n => exact if_neg (Nat.lt_irrefl 1)
  | succ k ih =>
      have hpow : 2 ^ (k + 1) = 2 * 2 ^ k := pow_succ' 2 k
      have hpos : 0 < 2 ^ k := Nat.two_pow_pos k
      have hmany : level.length > 1 := by omega
      have hup := pairUp_length hashes.combine level
      cases n with
      | zero => omega
      | succ n =>
          rcases stepAt_of_even (hlen.trans hpow) (hlen ▸ hidx) with ⟨sibling, hread, hstep⟩
          -- a turn reads the sibling and goes on with the parents, like the path of a level
          have hturn : proveLoop hashes (n + 1) level idx =
              (level[if idx % 2 = 0 then idx + 1 else idx - 1]?).bind fun sibling =>
                (proveLoop hashes n (parents hashes level) (idx / 2)).bind fun siblings =>
                  some (sibling :: siblings) := if_pos hmany
          rw [hturn, hread, Option.bind_some, parents_eq hashes (by omega),
            ih n (by omega) (by omega) (by omega), pathAt_levels_succ hashes.combine n hmany,
            List.map_append, hstep]
          rfl

/-- The tree is built for the nonces and keeps them. -/
theorem build_leaves (nonces : List (Bytes 16)) :
    (NonceTree.build hashes nonces).leaves = nonces :=
  List.take_left

/-- The path made for a nonce of the batch. -/
theorem prove_eq {nonces : List (Bytes 16)} {index : ℕ} (hindex : index < nonces.length) :
    (NonceTree.build hashes nonces).prove hashes index =
      some ⟨nonces[index], (pathAt (levels hashes.combine (nextPowerOfTwo nonces.length)
        ((padNonces nonces).map hashes.hash)) index).map Prod.snd, index⟩ := by
  have hlt : index < 2 ^ Nat.clog 2 nonces.length :=
    hindex.trans_le (Nat.le_pow_clog (by decide) _)
  have hlen := paddedDigests_length hashes nonces
  have hmade : (NonceTree.build hashes nonces).prove hashes index =
      (nonces[index]?).bind fun leaf =>
        (proveLoop hashes (nextPowerOfTwo nonces.length) ((padNonces nonces).map hashes.hash)
          index).bind fun siblings => some ⟨leaf, siblings, index⟩ := by
    rw [NonceTree.prove, build_leaves, if_neg (Nat.not_le_of_lt hindex)]
    rfl
  rw [hmade, List.getElem?_eq_getElem hindex, Option.bind_some,
    proveLoop_eq hashes _ (nextPowerOfTwo nonces.length) hlen (Nat.le_succ _) hlt]
  rfl

/-- The root computed in place is that of the perfect tree over the padded batch, every nonce
of the batch has a path to it, and no other position has one. -/
theorem nonceTree_agrees [DecidableEq D] (nonces : List (Bytes 16)) :
    (∃ t : MerkleTree.Tree (Bytes 16),
      t.Perfect (Nat.clog 2 nonces.length) ∧ t.fringe = padNonces nonces ∧
      (NonceTree.build hashes nonces).root = t.eval hashes.combine hashes.hash) ∧
    (∀ (index : ℕ) (hindex : index < nonces.length),
      ∃ proof, (NonceTree.build hashes nonces).prove hashes index = some proof ∧
        proof.leaf = nonces[index] ∧
        proof.verify hashes (NonceTree.build hashes nonces).root = true) ∧
    ∀ index, nonces.length ≤ index → (NonceTree.build hashes nonces).prove hashes index = none := by
  have hlen := paddedDigests_length hashes nonces
  refine ⟨?_, ?_, ?_⟩
  · -- the levels over terms instead of digests give the tree itself
    have hleaves : ((padNonces nonces).map MerkleTree.Tree.leaf).length =
        2 ^ Nat.clog 2 nonces.length := by
      rw [List.length_map, padNonces_length, nextPowerOfTwo]
    have hne : (padNonces nonces).map MerkleTree.Tree.leaf ≠ [] :=
      List.ne_nil_of_length_pos (hleaves ▸ Nat.two_pow_pos _)
    rcases fringe_rootOf_levels (nextPowerOfTwo nonces.length) hne
      (hleaves.le.trans (Nat.le_succ _)) with ⟨t, hroot, hfringe⟩
    refine ⟨t, ?_, hfringe.trans (flatMap_fringe_leaf _), ?_⟩
    · rw [← Nat.zero_add (Nat.clog 2 nonces.length)]
      refine rootOf_levels_perfect _ _ hleaves (Nat.le_succ _) ?_ hroot
      intro t ht
      rcases List.mem_map.mp ht with ⟨nonce, -, rfl⟩
      exact .leaf nonce
    · have hdigest := rootOf_levels_of_tree hashes.combine hashes.hash hroot
      rw [build_root, Option.some.injEq] at hdigest
      exact hdigest
  · intro index hindex
    refine ⟨_, prove_eq hashes hindex, rfl, ?_⟩
    have hread : ((padNonces nonces).map hashes.hash)[index]? =
        some (hashes.hash nonces[index]) := by
      rw [List.getElem?_map, padNonces, List.getElem?_append_left hindex,
        List.getElem?_eq_getElem hindex, Option.map_some]
    exact verify_pathAt hashes hread
  · intro index hout
    rw [NonceTree.prove, build_leaves, if_pos hout]

end Nonce

end Ebut
