import Ebut.Core.NonceBatch

/-!
# Which Nonces a Published Batch Admits

`build_root` says that the tree built in place has the root of the tree built level by
level, so a path to it passes through a leaf of the padded batch. What is admitted
under the published root is therefore a nonce of the batch or the padding.

The root is an argument of the check, though, and comes with the request. Under a root
of the client's own choice any nonce is admitted, before a batch is published and after.

## Main definitions

* `NonceHashes.Ideal`: Injective hash functions with disjoint ranges.
* `publishedBatch`: The batch that is published after a list of calls.
* `Padded`: A batch that is not as long as its tree is wide.

## Theorems

* `foldl_combineAt_take`: A turn in place computes the level above.
* `build_root`: The root of the tree built in place.
* `verify_sound`: A path to the root starts at a leaf of the padded batch.
* `admitted_nonce_published`: Nonces admitted under the published root.
* `own_root_admits`: Any nonce is admitted under some root.
* `unpublished_nonce_admitted`: Nonces of no batch are admitted.
-/

namespace Ebut

open MerkleTree Transition

/-- SHA-256 taken to be injective: a leaf has 16 bytes and a pair of digests 64. -/
structure NonceHashes.Ideal {D : Type} (hashes : NonceHashes D) : Prop where
  hash_inj : ∀ a b, hashes.hash a = hashes.hash b → a = b
  combine_inj : ∀ a b c d, hashes.combine a b = hashes.combine c d → a = c ∧ b = d
  leaf_ne_node : ∀ leaf a b, hashes.hash leaf ≠ hashes.combine a b

section Tree

variable {D : Type} (hashes : NonceHashes D)

/-- After `i` turns in place the first `i` digests are parents and the rest are as they
were. A turn reads two positions that no earlier turn has written. -/
theorem foldl_combineAt_getElem? {level : List D} {i : ℕ} (hlen : 2 * i ≤ level.length) (j : ℕ) :
    ((List.range i).foldl (combineAt hashes) level)[j]? =
      if j < i then (pairUp hashes.combine level)[j]? else level[j]? := by
  induction i generalizing j with
  | zero => rw [if_neg (Nat.not_lt_zero j)]; rfl
  | succ i ih =>
      have hleft : 2 * i < level.length := by omega
      have hright : 2 * i + 1 < level.length := by omega
      rw [List.range_succ, List.foldl_append, List.foldl_cons, List.foldl_nil]
      have h := ih (by omega)
      -- the turn writes position `i` and reads `2 * i` and `2 * i + 1`, neither below `i`
      have hstay : ∀ j, ¬j < i →
          ((List.range i).foldl (combineAt hashes) level)[j]? = level[j]? := by
        intro j hj
        rw [h, if_neg hj]
      have hpair : (pairUp hashes.combine level)[i]? =
          some (hashes.combine level[2 * i] level[2 * i + 1]) := by
        rw [pairUp_getElem?, List.getElem?_eq_getElem hleft, List.getElem?_eq_getElem hright]
      rw [combineAt, hstay (2 * i) (by omega), hstay (2 * i + 1) (by omega),
        List.getElem?_eq_getElem hleft, List.getElem?_eq_getElem hright]
      simp only [List.getElem?_set]
      by_cases hji : i = j
      · subst hji
        -- the position written is there, since the turns so far kept the length
        have hlt : i < ((List.range i).foldl (combineAt hashes) level).length := by
          by_contra hge
          have hnone := List.getElem?_eq_none (Nat.le_of_not_lt hge)
          rw [hstay i (Nat.lt_irrefl i), List.getElem?_eq_getElem (by omega)] at hnone
          exact absurd hnone (by simp only [reduceCtorEq, not_false_iff])
        rw [if_pos rfl, if_pos hlt, if_pos (Nat.lt_succ_self i), hpair]
      · rw [if_neg hji, h]
        by_cases hlt : j < i
        · rw [if_pos hlt, if_pos (by omega)]
        · rw [if_neg hlt, if_neg (by omega)]

/-- The present level after a turn is the level above the present one. -/
theorem foldl_combineAt_take {level : List D} {m : ℕ} (hlen : 2 * m ≤ level.length) :
    ((List.range m).foldl (combineAt hashes) level).take m =
      pairUp hashes.combine (level.take (2 * m)) := by
  refine List.ext_getElem? fun j => ?_
  rw [List.getElem?_take, pairUp_getElem?, List.getElem?_take, List.getElem?_take]
  by_cases hj : j < m
  · rw [if_pos hj, if_pos (by omega), if_pos (by omega), foldl_combineAt_getElem? hashes hlen,
      if_pos hj, pairUp_getElem?]
  · rw [if_neg hj, if_neg (by omega)]

theorem foldl_combineAt_length (indices : List ℕ) (level : List D) :
    (indices.foldl (combineAt hashes) level).length = level.length := by
  induction indices generalizing level with
  | nil => rfl
  | cons i indices ih =>
      rw [List.foldl_cons, ih, combineAt]
      split
      · rw [List.length_set]
      · rfl

/-- The loop in place ends with the root of the tree built level by level. -/
theorem buildLoop_head (k n : ℕ) {level : List D} (hlen : 2 ^ k ≤ level.length)
    (hfuel : 2 ^ k ≤ n + 1) :
    (buildLoop hashes n level (2 ^ k)).head? =
      rootOf (levels hashes.combine n (level.take (2 ^ k))) := by
  induction k generalizing n level with
  | zero =>
      -- one digest is left, which neither loop combines with anything
      have hone : (level.take (2 ^ 0)).length = 1 := by
        rw [List.length_take]
        exact min_eq_left hlen
      rcases List.length_eq_one_iff.mp hone with ⟨root, hroot⟩
      have hhead : level.head? = some root := by
        have h := congrArg List.head? hroot
        rwa [List.head?_take, if_neg (by decide)] at h
      rw [hroot, levels_singleton]
      cases n with
      | zero => exact hhead
      | succ n => rwa [buildLoop, if_neg (by decide)]
  | succ k ih =>
      have hpow : 2 ^ (k + 1) = 2 * 2 ^ k := pow_succ' 2 k
      have hpos : 0 < 2 ^ k := Nat.two_pow_pos k
      have hmany : (level.take (2 ^ (k + 1))).length > 1 := by
        rw [List.length_take]
        omega
      cases n with
      | zero => omega
      | succ n =>
          have hhalf : 2 ^ (k + 1) / 2 = 2 ^ k := by omega
          rw [buildLoop, if_pos (by omega), rootOf_levels_succ hashes.combine n hmany, hhalf,
            ih n (by rw [foldl_combineAt_length]; omega) (by omega),
            foldl_combineAt_take hashes (by omega), hpow]

theorem padNonces_length (nonces : List (Bytes 16)) :
    (padNonces nonces).length = nextPowerOfTwo nonces.length := by
  have hle : nonces.length ≤ nextPowerOfTwo nonces.length := Nat.le_pow_clog (by decide) _
  rw [padNonces, List.length_append, List.length_replicate]
  omega

theorem paddedDigests_length (nonces : List (Bytes 16)) :
    ((padNonces nonces).map hashes.hash).length = nextPowerOfTwo nonces.length := by
  rw [List.length_map, padNonces_length]

theorem paddedDigests_ne_nil (nonces : List (Bytes 16)) :
    (padNonces nonces).map hashes.hash ≠ [] := by
  rw [← List.length_pos_iff, paddedDigests_length]
  exact Nat.two_pow_pos _

/-- The root of the published tree. -/
theorem build_root (nonces : List (Bytes 16)) :
    rootOf (levels hashes.combine (nextPowerOfTwo nonces.length)
      ((padNonces nonces).map hashes.hash)) = some (NonceTree.build hashes nonces).root := by
  have hlen : ((padNonces nonces).map hashes.hash).length = 2 ^ Nat.clog 2 nonces.length :=
    paddedDigests_length hashes nonces
  have h := buildLoop_head hashes (Nat.clog 2 nonces.length) (nextPowerOfTwo nonces.length)
    (le_of_eq hlen.symm) (Nat.le_succ _)
  rw [← hlen, List.take_length, hlen] at h
  rcases levels_ends hashes.combine (nextPowerOfTwo nonces.length)
    (paddedDigests_ne_nil hashes nonces) (hlen.le.trans (Nat.le_succ _)) with ⟨root, hroot⟩
  have hrootOf : rootOf (levels hashes.combine (nextPowerOfTwo nonces.length)
      ((padNonces nonces).map hashes.hash)) = some root := by
    rw [rootOf, hroot]
    rfl
  rw [hrootOf] at h ⊢
  rw [NonceTree.build, List.headD_eq_head?_getD]
  exact congrArg some (congrArg (Option.getD · (hashes.hash zeroNonce)) h).symm

/-- The flags that the bits of a position give the siblings of a path. -/
def pathOf : ℕ → List D → List (Bool × D)
  | _, [] => []
  | idx, sibling :: siblings => (decide (idx % 2 ≠ 0), sibling) :: pathOf (idx / 2) siblings

theorem climb_pathOf (idx : ℕ) (current : D) (siblings : List D) :
    NonceProof.climb hashes idx current siblings =
      MerkleTree.climb hashes.combine current (pathOf idx siblings) := by
  induction siblings generalizing idx current with
  | nil => rfl
  | cons sibling siblings ih =>
      rw [NonceProof.climb, pathOf, MerkleTree.climb, List.foldl_cons, ih]
      by_cases heven : idx % 2 = 0
      · rw [if_pos heven]
        simp only [heven, ne_eq, not_true, decide_false, climbStep, Bool.false_eq_true, if_false]
        rfl
      · rw [if_neg heven]
        simp only [heven, ne_eq, not_false_iff, decide_true, climbStep, if_true]
        rfl

/-- In a full tree every position has a sibling at every level, so the flags of its path
are the bits of the position. -/
theorem pathOf_pathAt (k n : ℕ) {level : List D} (hlen : level.length = 2 ^ k)
    (hfuel : 2 ^ k ≤ n + 1) {p : ℕ} (hp : p < 2 ^ k) :
    pathOf p ((pathAt (levels hashes.combine n level) p).map Prod.snd) =
      pathAt (levels hashes.combine n level) p := by
  induction k generalizing n level p with
  | zero =>
      rcases List.length_eq_one_iff.mp hlen with ⟨root, rfl⟩
      rw [levels_singleton]
      rfl
  | succ k ih =>
      have hpow : 2 ^ (k + 1) = 2 * 2 ^ k := pow_succ' 2 k
      have hpos : 0 < 2 ^ k := Nat.two_pow_pos k
      have hup := pairUp_length hashes.combine level
      cases n with
      | zero => omega
      | succ n =>
          have hrest : pathOf (p / 2) ((pathAt (levels hashes.combine n
              (pairUp hashes.combine level)) (p / 2)).map Prod.snd) =
                pathAt (levels hashes.combine n (pairUp hashes.combine level)) (p / 2) :=
            ih n (by omega) (by omega) (by omega)
          rw [pathAt_levels_succ hashes.combine n (by omega)]
          -- the flag of the lowest step is the parity of the position
          have hparity : ∃ i, p = 2 * i ∨ p = 2 * i + 1 := ⟨p / 2, by omega⟩
          rcases hparity with ⟨i, rfl | rfl⟩
          · have hsibling : 2 * i + 1 < level.length := by omega
            rw [stepAt_left (List.getElem?_eq_getElem hsibling), List.singleton_append,
              List.map_cons, pathOf, hrest, decide_eq_false (by omega)]
          · have hsibling : 2 * i < level.length := by omega
            rw [stepAt_right (List.getElem?_eq_getElem hsibling), List.singleton_append,
              List.map_cons, pathOf, hrest, decide_eq_true (by omega)]

/-- The siblings of a position of the padded batch are accepted for it. -/
theorem verify_pathAt [DecidableEq D] {nonces : List (Bytes 16)} {leaf : Bytes 16} {p : ℕ}
    (hp : ((padNonces nonces).map hashes.hash)[p]? = some (hashes.hash leaf)) :
    NonceProof.verify hashes ⟨leaf, (pathAt (levels hashes.combine (nextPowerOfTwo nonces.length)
      ((padNonces nonces).map hashes.hash)) p).map Prod.snd, p⟩
      (NonceTree.build hashes nonces).root = true := by
  have hlen := paddedDigests_length hashes nonces
  have hlt : p < nextPowerOfTwo nonces.length := hlen ▸ (List.getElem?_eq_some_iff.mp hp).1
  have hclimb := climb_pathAt hashes.combine (nextPowerOfTwo nonces.length) (hlen.le.trans
    (Nat.le_succ _)) hp
  rw [build_root, Option.some.injEq] at hclimb
  have hflags := pathOf_pathAt hashes (Nat.clog 2 nonces.length) (nextPowerOfTwo nonces.length) hlen
    (Nat.le_succ _) hlt
  rw [NonceProof.verify, decide_eq_true_eq, climb_pathOf, hclimb]
  exact congrArg (MerkleTree.climb hashes.combine (hashes.hash leaf)) hflags

/-- Every leaf of the padded batch has a path to the root. -/
theorem verify_complete [DecidableEq D] {nonces : List (Bytes 16)} {leaf : Bytes 16}
    (hleaf : leaf ∈ padNonces nonces) :
    ∃ proof : NonceProof D, proof.leaf = leaf ∧
      proof.verify hashes (NonceTree.build hashes nonces).root = true := by
  rcases List.mem_iff_getElem?.mp hleaf with ⟨p, hp⟩
  exact ⟨_, rfl, verify_pathAt hashes (by rw [List.getElem?_map, hp, Option.map_some])⟩

variable {hashes}

/-- A path to the root of a batch starts at a leaf of the padded batch. -/
theorem verify_sound [DecidableEq D] (hideal : hashes.Ideal) {nonces : List (Bytes 16)}
    {proof : NonceProof D}
    (hverify : proof.verify hashes (NonceTree.build hashes nonces).root = true) :
    proof.leaf ∈ padNonces nonces := by
  rw [NonceProof.verify, decide_eq_true_eq, climb_pathOf] at hverify
  have hroot := build_root hashes nonces
  rw [← hverify] at hroot
  rcases climb_hits hideal.combine_inj (fun a b => hideal.leaf_ne_node proof.leaf a b) _
    (paddedDigests_ne_nil hashes nonces)
    ((paddedDigests_length hashes nonces).le.trans (Nat.le_succ _)) hroot with
    ⟨p, below, above, hp, -, -⟩
  rw [List.getElem?_map] at hp
  rcases hleaf : (padNonces nonces)[p]? with _ | leaf
  · rw [hleaf] at hp
    exact absurd hp (by simp only [Option.map_none, reduceCtorEq, not_false_iff])
  · rw [hleaf, Option.map_some, Option.some.injEq] at hp
    -- the node passed through is a leaf, so no step of the path lies below it
    rcases List.eq_nil_or_concat below with hnil | ⟨init, step, hsplit⟩
    · rw [hnil] at hp
      rw [← hideal.hash_inj _ _ hp]
      exact List.mem_of_getElem? hleaf
    · rw [hsplit, List.concat_eq_append, MerkleTree.climb, List.foldl_append] at hp
      rcases step with ⟨flag, sibling⟩
      cases flag with
      | true => exact absurd hp (hideal.leaf_ne_node leaf _ _)
      | false => exact absurd hp (hideal.leaf_ne_node leaf _ _)

end Tree

/-- The batch that is published after the calls. -/
def publishedBatch {D : Type} : List (NonceCall D) → Option (List (Bytes 16))
  | [] => none
  | .publish nonces :: calls => (publishedBatch calls).or (some nonces)
  | .verify _ _ _ :: calls => publishedBatch calls

/-- The tree of a batch has leaves that are no nonces of it. -/
def Padded (nonces : List (Bytes 16)) : Prop := nextPowerOfTwo nonces.length ≠ nonces.length

section Manager

variable {D : Type} [DecidableEq D] {hashes : NonceHashes D} {hasher : List UInt8 → ℕ → UInt64}

theorem verifyMerkleNonce_root (mgr : NonceManager D) (nonce : Bytes 16) (proof : NonceProof D)
    (root : D) :
    (verifyMerkleNonce hashes hasher mgr nonce proof root).2.currentRoot = mgr.currentRoot := by
  unfold verifyMerkleNonce
  split_ifs <;> rfl

/-- The published root is that of the batch published last. -/
theorem run_currentRoot (calls : List (NonceCall D)) (mgr : NonceManager D) :
    (run (NonceManager.step hashes hasher) mgr calls).currentRoot =
      ((publishedBatch calls).map fun nonces => (NonceTree.build hashes nonces).root).or
        mgr.currentRoot := by
  induction calls generalizing mgr with
  | nil => rfl
  | cons call calls ih =>
      rw [run, ih]
      cases call with
      | publish nonces =>
          rw [publishedBatch]
          cases publishedBatch calls with
          | none => rfl
          | some later => rfl
      | verify nonce proof root =>
          rw [publishedBatch, NonceManager.step, verifyMerkleNonce_root]

/-- What is admitted has passed the path check with its own leaf. -/
theorem verifyMerkleNonce_ok {mgr : NonceManager D} {nonce : Bytes 16} {proof : NonceProof D}
    {root : D} :
    (verifyMerkleNonce hashes hasher mgr nonce proof root).1 = true ↔
      proof.verify hashes root = true ∧ proof.leaf = nonce ∧
        mgr.bloomFilter.contains hasher nonce.toList = false := by
  unfold verifyMerkleNonce
  by_cases hverify : proof.verify hashes root = false
  · rw [if_pos hverify, hverify]
    exact ⟨fun h => (nomatch h), fun h => (nomatch h.1)⟩
  · rw [if_neg hverify]
    rw [Bool.not_eq_false] at hverify
    split_ifs with hleaf hseen
    · exact ⟨fun h => (nomatch h), fun h => absurd h.2.1 hleaf⟩
    · exact ⟨fun h => (nomatch h), fun h => (nomatch hseen.symm.trans h.2.2)⟩
    · rw [Bool.not_eq_true] at hseen
      exact ⟨fun _ => ⟨hverify, not_not.mp hleaf, hseen⟩, fun _ => rfl⟩

/-- In every state, a nonce admitted under the published root is one of the batch, except
for the nonce that the batch was padded with. -/
theorem admitted_nonce_published (hideal : hashes.Ideal) (filter : BloomFilter)
    (calls : List (NonceCall D)) {nonce : Bytes 16} {proof : NonceProof D} {root : D}
    (hroot : (run (NonceManager.step hashes hasher) (.new filter) calls).currentRoot = some root)
    (hpad : nonce = zeroNonce → ∀ batch, publishedBatch calls = some batch → ¬Padded batch)
    (hadmitted : (verifyMerkleNonce hashes hasher
      (run (NonceManager.step hashes hasher) (.new filter) calls) nonce proof root).1 = true) :
    ∃ batch, publishedBatch calls = some batch ∧ nonce ∈ batch := by
  rw [run_currentRoot, NonceManager.new, Option.or_none] at hroot
  rcases hbatch : publishedBatch calls with _ | batch
  · rw [hbatch] at hroot
    exact absurd hroot (by simp only [Option.map_none, reduceCtorEq, not_false_iff])
  · rw [hbatch, Option.map_some, Option.some.injEq] at hroot
    refine ⟨batch, rfl, ?_⟩
    rcases verifyMerkleNonce_ok.mp hadmitted with ⟨hverify, hleaf, -⟩
    rw [← hroot] at hverify
    have hmem := verify_sound hideal hverify
    rw [hleaf, padNonces, List.mem_append, List.mem_replicate] at hmem
    rcases hmem with hmem | ⟨hmissing, hzero⟩
    · exact hmem
    · -- a padding leaf exists only in a padded batch
      have hfull := not_not.mp (hpad hzero batch hbatch)
      omega

/-- A padded batch admits the nonce it was padded with, under the published root. -/
theorem padding_admitted {calls : List (NonceCall D)} {batch : List (Bytes 16)}
    {filter : BloomFilter} (hbatch : publishedBatch calls = some batch) (hpadded : Padded batch)
    (hnew : (run (NonceManager.step hashes hasher) (.new filter) calls).bloomFilter.contains hasher
      zeroNonce.toList = false) :
    ∃ proof root,
      (run (NonceManager.step hashes hasher) (.new filter) calls).currentRoot = some root ∧
      (verifyMerkleNonce hashes hasher (run (NonceManager.step hashes hasher) (.new filter) calls)
        zeroNonce proof root).1 = true := by
  have hmissing : nextPowerOfTwo batch.length - batch.length ≠ 0 := by
    have hle : batch.length ≤ nextPowerOfTwo batch.length := Nat.le_pow_clog (by decide) _
    have hne : nextPowerOfTwo batch.length ≠ batch.length := hpadded
    omega
  have hzero : zeroNonce ∈ padNonces batch :=
    List.mem_append.mpr (Or.inr (List.mem_replicate.mpr ⟨hmissing, rfl⟩))
  rcases verify_complete hashes hzero with ⟨proof, hleaf, hverify⟩
  refine ⟨proof, (NonceTree.build hashes batch).root, ?_, ?_⟩
  · rw [run_currentRoot, hbatch]
    rfl
  · exact verifyMerkleNonce_ok.mpr ⟨hverify, hleaf, hnew⟩

/-- Whatever is published, any nonce that was not seen before is admitted under the digest
of the nonce itself as the root. -/
theorem own_root_admits {mgr : NonceManager D} {nonce : Bytes 16}
    (hnew : mgr.bloomFilter.contains hasher nonce.toList = false) :
    (verifyMerkleNonce hashes hasher mgr nonce ⟨nonce, [], 0⟩ (hashes.hash nonce)).1 = true :=
  verifyMerkleNonce_ok.mpr ⟨decide_eq_true rfl, rfl, hnew⟩

end Manager

section Example

/-- Digests as the expressions they were computed by. -/
inductive SymbolicNonce where
  | leaf (nonce : Bytes 16)
  | node (left right : SymbolicNonce)
  deriving DecidableEq

def symbolicHashes : NonceHashes SymbolicNonce := ⟨.leaf, .node⟩

theorem symbolicHashes_ideal : symbolicHashes.Ideal where
  hash_inj := fun _ _ h => SymbolicNonce.leaf.inj h
  combine_inj := fun _ _ _ _ h => SymbolicNonce.node.inj h
  leaf_ne_node := fun _ _ _ h => nomatch h

/-- A filter that has seen nothing. -/
def emptyFilter : BloomFilter := ⟨1, 1, fun _ => false, Nat.one_pos⟩

/-- A nonce of a published batch of two, with its path. -/
theorem admitted_nonce_published_pair :
    ∃ batch, publishedBatch (D := SymbolicNonce) [.publish [leArray 16 7, leArray 16 9]] =
      some batch ∧ leArray 16 9 ∈ batch :=
  @admitted_nonce_published _ _ _ (fun _ _ => 0) symbolicHashes_ideal emptyFilter
    [.publish [leArray 16 7, leArray 16 9]] (leArray 16 9)
    ⟨leArray 16 9, [.leaf (leArray 16 7)], 1⟩
    (.node (.leaf (leArray 16 7)) (.leaf (leArray 16 9))) (by decide)
    (fun hzero => absurd hzero (by decide)) (by decide)

/-- Nothing is published, and a nonce is admitted under a root that came with it. -/
theorem unpublished_nonce_admitted :
    symbolicHashes.Ideal ∧
    ¬∀ (calls : List (NonceCall SymbolicNonce)) (nonce : Bytes 16)
      (proof : NonceProof SymbolicNonce) (root : SymbolicNonce),
      (verifyMerkleNonce symbolicHashes (fun _ _ => 0)
        (run (NonceManager.step symbolicHashes fun _ _ => 0) (.new emptyFilter) calls)
        nonce proof root).1 = true →
      ∃ batch, publishedBatch calls = some batch ∧ nonce ∈ batch := by
  refine ⟨symbolicHashes_ideal, fun hall => ?_⟩
  rcases hall [] (leArray 16 7) ⟨leArray 16 7, [], 0⟩ (.leaf (leArray 16 7)) (by decide)
    with ⟨batch, hbatch, -⟩
  exact nomatch hbatch

end Example

end Ebut
