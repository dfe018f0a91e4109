import Ebut.Theory.Accountable
import Mathlib.Data.List.Forall2

/-!
# Which Positions an Accepted Audit Presents

The verifiers of the three file proofs sample positions from the nonce and check
every presented block against a sampled position and a Merkle path. The path's
flags come from the prover and the verifier of a path ignores the position, so
an accepted block is one of the committed leaves, but at the position its flags
lead to and not at the sampled one.

## Main definitions

* `Sampled`: What a list of sampled positions satisfies.
* `MerkleHashes.Ideal`: Injective hash functions with disjoint ranges.
* `AuditPassed`: What the three verifiers check before the batch proof.
* `PresentsChallenged`: Every presented leaf is the one committed at its position.
* `PathsFollow`: Every path has the flags of its position, or of an equal leaf.

## Theorems

* `sampleLoop_sampled`: The sampling loop keeps its invariant.
* `deriveChallengeIndices_sampled`: The sampled positions are in range and distinct.
* `verifyMerklePath_sound`: An accepted path shows a committed leaf.
* `presentsChallenged_iff_of_passed`: When the presented leaves are the challenged ones.
* `audit_presents_challenged_iff`: The same for the three verifiers.
* `root_commits_to_leaves`: A root determines the leaves of the file.
-/

namespace Ebut

open MerkleTree

section Sampling

theorem mem_insertSorted {x y : UInt64} {out : List UInt64} :
    y ∈ insertSorted x out ↔ y = x ∨ y ∈ out := by
  induction out with
  | nil => rw [insertSorted, List.mem_singleton, List.mem_nil_iff, or_false]
  | cons z zs ih =>
    unfold insertSorted
    split
    · rw [List.mem_cons]
    · split
      · rename_i heq
        rw [heq, List.mem_cons, ← or_assoc, or_self]
      · rw [List.mem_cons, ih, List.mem_cons, or_left_comm]

theorem length_insertSorted_le (x : UInt64) (out : List UInt64) :
    (insertSorted x out).length ≤ out.length + 1 := by
  induction out with
  | nil => exact le_rfl
  | cons z zs ih =>
    unfold insertSorted
    split
    · exact le_rfl
    · split
      · exact Nat.le_succ _
      · exact Nat.succ_le_succ ih

theorem insertSorted_ascending {x : UInt64} {out : List UInt64} (h : out.Pairwise (· < ·)) :
    (insertSorted x out).Pairwise (· < ·) := by
  induction out with
  | nil => exact List.pairwise_singleton _ _
  | cons z zs ih =>
    rcases List.pairwise_cons.mp h with ⟨hz, hzs⟩
    unfold insertSorted
    split
    · rename_i hlt
      refine List.pairwise_cons.mpr ⟨fun y hy => ?_, h⟩
      rcases List.mem_cons.mp hy with rfl | hy
      · exact hlt
      · exact UInt64.lt_trans hlt (hz y hy)
    · rename_i hnlt
      split
      · exact h
      · rename_i hne
        refine List.pairwise_cons.mpr ⟨fun y hy => ?_, ih hzs⟩
        rcases mem_insertSorted.mp hy with rfl | hy
        · exact UInt64.lt_of_le_of_ne (UInt64.not_lt.mp hnlt) (Ne.symm hne)
        · exact hz y hy

/-- Positions below `n`, ascending, at most `target` of them. -/
structure Sampled (n target : ℕ) (out : List UInt64) : Prop where
  length_le : out.length ≤ target
  ascending : out.Pairwise (· < ·)
  in_range : ∀ i ∈ out, i.toNat < n

/-- One turn of the loop. -/
theorem Sampled.insert {n target : ℕ} {out : List UInt64} (h : Sampled n target out)
    (hroom : out.length < target) {x : UInt64} (hx : x.toNat < n) :
    Sampled n target (insertSorted x out) where
  length_le := (length_insertSorted_le x out).trans hroom
  ascending := insertSorted_ascending h.ascending
  in_range := fun i hi => (mem_insertSorted.mp hi).elim (fun heq => heq ▸ hx) (h.in_range i)

/-- The loop ends with exactly the wanted number of positions. -/
theorem sampleLoop_sampled {sample : UInt64 → UInt64} {n target : ℕ}
    (hsample : ∀ counter, (sample counter).toNat < n) (fuel : ℕ) {counter : UInt64}
    {out res : List UInt64} (h : Sampled n target out)
    (hres : sampleLoop sample target fuel counter out = some res) :
    Sampled n target res ∧ res.length = target := by
  induction fuel generalizing counter out with
  | zero =>
    unfold sampleLoop at hres
    split at hres
    -- out of turns with positions missing: no result
    · exact absurd hres (by simp only [reduceCtorEq, not_false_iff])
    · rename_i hfull
      rcases Option.some.inj hres with rfl
      exact ⟨h, le_antisymm h.length_le (not_lt.mp hfull)⟩
  | succ fuel ih =>
    unfold sampleLoop at hres
    split at hres
    · rename_i hroom
      exact ih (h.insert hroom (hsample counter)) hres
    · rename_i hfull
      rcases Option.some.inj hres with rfl
      exact ⟨h, le_antisymm h.length_le (not_lt.mp hfull)⟩

theorem sampleIndex_lt {sha : Sha2} {domain : String} {nonce : Bytes 32} {numBlocks : UInt64}
    (hpos : 0 < numBlocks.toNat) (target : ℕ) (counter : UInt64) :
    (sampleIndex sha domain nonce numBlocks target counter).toNat < numBlocks.toNat := by
  unfold sampleIndex
  simp only [UInt64.toNat_ofNat']
  exact lt_of_le_of_lt (Nat.mod_le _ _) (Nat.mod_lt _ hpos)

/-- All positions of a file, ascending. -/
theorem allIndices_sampled (numBlocks : UInt64) :
    Sampled numBlocks.toNat numBlocks.toNat ((List.range numBlocks.toNat).map UInt64.ofNat) where
  length_le := by rw [List.length_map, List.length_range]
  ascending := by
    refine List.pairwise_map.mpr (List.Pairwise.imp_of_mem ?_ List.pairwise_lt_range)
    intro a b ha hb hlt
    have hbound := numBlocks.toNat_lt
    rw [List.mem_range] at ha hb
    rw [UInt64.lt_iff_toNat_lt, UInt64.toNat_ofNat', UInt64.toNat_ofNat']
    omega
  in_range := by
    intro i hi
    rcases List.mem_map.mp hi with ⟨a, ha, rfl⟩
    rw [UInt64.toNat_ofNat']
    exact lt_of_le_of_lt (Nat.mod_le _ _) (List.mem_range.mp ha)

/-- The sampled positions are distinct positions of the file, as many as asked for
or as there are. -/
theorem deriveChallengeIndices_sampled {sha : Sha2} {domain : String} {nonce : Bytes 32}
    {numBlocks : UInt64} {count : ℕ} {out : List UInt64} (hpos : 0 < numBlocks.toNat)
    (hcount : 0 < count)
    (hout : deriveChallengeIndices sha domain nonce numBlocks count = some out) :
    Sampled numBlocks.toNat (min count numBlocks.toNat) out ∧
      out.length = min count numBlocks.toNat := by
  have hne : ¬(numBlocks = 0 ∨ count = 0) := by
    rintro (rfl | rfl)
    · exact absurd hpos (by decide)
    · exact absurd hcount (lt_irrefl 0)
  unfold deriveChallengeIndices at hout
  rw [if_neg hne] at hout
  simp only at hout
  split at hout
  · rename_i hall
    rcases Option.some.inj hout with rfl
    rw [hall, List.length_map, List.length_range]
    exact ⟨allIndices_sampled numBlocks, rfl⟩
  -- the loop starts from no positions at all
  · exact sampleLoop_sampled (sampleIndex_lt hpos _) (2 ^ 64)
      ⟨Nat.zero_le _, List.Pairwise.nil, fun i hi => absurd hi List.not_mem_nil⟩ hout

end Sampling

section Paths

variable {D : Type}

/-- Injective hash functions with disjoint ranges. -/
structure MerkleHashes.Ideal (merkle : MerkleHashes D) : Prop where
  hash_injective : Function.Injective merkle.hash
  combine_injective : ∀ a b c d, merkle.combine a b = merkle.combine c d → a = c ∧ b = d
  hash_ne_combine : ∀ leaf a b, merkle.hash leaf ≠ merkle.combine a b

variable {merkle : MerkleHashes D} {leaves : List D}

theorem buildMerkleTree_eq (hne : leaves ≠ []) :
    buildMerkleTree merkle leaves =
      levels merkle.combine leaves.length (leaves.map merkle.hash) := by
  rw [buildMerkleTree, if_neg (by rwa [List.isEmpty_iff])]

/-- The root commits to the whole list of leaves: two files of any numbers of blocks with one
root have the same leaves. The trees of both modules are instances. -/
theorem root_commits_to_leaves (hideal : merkle.Ideal) {leaves leaves' : List D}
    (hne : leaves ≠ []) (hne' : leaves' ≠ [])
    (hroot : rootOf (buildMerkleTree merkle leaves) = rootOf (buildMerkleTree merkle leaves')) :
    leaves = leaves' := by
  rw [buildMerkleTree_eq hne, buildMerkleTree_eq hne'] at hroot
  exact root_determines_leaves hideal.hash_injective hideal.combine_injective
    hideal.hash_ne_combine hne hne' (Nat.le_succ _) (Nat.le_succ _) hroot

variable [DecidableEq D]

/-- An accepted path shows one of the committed leaves, and has the flags of that
leaf's own path. -/
theorem verifyMerklePath_sound (hideal : merkle.Ideal) (hne : leaves ≠ []) {root leaf : D}
    (hroot : rootOf (buildMerkleTree merkle leaves) = some root) {index : ℕ}
    {path : List (Bool × D)} (hpath : verifyMerklePath merkle leaf index path root = true) :
    ∃ p, leaves[p]? = some leaf ∧
      flags path = flags (merklePathFromTree (buildMerkleTree merkle leaves) p) := by
  rw [verifyMerklePath, decide_eq_true_eq] at hpath
  rw [buildMerkleTree_eq hne, ← hpath] at hroot
  have hlen : (leaves.map merkle.hash).length ≤ leaves.length + 1 := by
    rw [List.length_map]
    exact Nat.le_succ _
  rcases climb_hits hideal.combine_injective (hideal.hash_ne_combine leaf) leaves.length
    (fun h => hne (List.map_eq_nil_iff.mp h)) hlen hroot with ⟨p, below, above, hp, hsplit, hflags⟩
  rw [List.getElem?_map, Option.map_eq_some_iff] at hp
  rcases hp with ⟨committed, hp, hhash⟩
  -- A leaf of the tree is a hash, so the path has no step below it.
  rcases List.eq_nil_or_concat below with rfl | ⟨init, ⟨flag, sibling⟩, rfl⟩
  · unfold merklePathFromTree
    rw [buildMerkleTree_eq hne, hsplit, List.nil_append]
    exact ⟨p, hideal.hash_injective hhash ▸ hp, hflags⟩
  · rw [List.concat_eq_append, climb, List.foldl_append] at hhash
    cases flag with
    | true => exact absurd hhash (hideal.hash_ne_combine _ _ _)
    | false => exact absurd hhash (hideal.hash_ne_combine _ _ _)

omit [DecidableEq D] in
/-- The flags of an honest path determine its position. -/
theorem merklePath_flags_injective {p q : ℕ} (hp : p < leaves.length) (hq : q < leaves.length)
    (hflags : flags (merklePathFromTree (buildMerkleTree merkle leaves) p) =
      flags (merklePathFromTree (buildMerkleTree merkle leaves) q)) : p = q := by
  have hne : leaves ≠ [] := List.ne_nil_of_length_pos (Nat.zero_lt_of_lt hp)
  have hlen : (leaves.map merkle.hash).length = leaves.length := List.length_map _
  rw [buildMerkleTree_eq hne, merklePathFromTree, merklePathFromTree] at hflags
  refine pathAt_suffix_free merkle.combine leaves.length (hlen.le.trans (Nat.le_succ _))
    (hlen ▸ hp) (hlen ▸ hq) ?_
  rw [hflags]

end Paths

section Audit

variable {R D B : Type} [DecidableEq D]

/-- What the verifiers check about the presented blocks, for a sampling domain. -/
def AuditPassed (merkle : MerkleHashes D) (leafOf : B → D) (sha : Sha2) (domain : String)
    (root : D) (nonce : Bytes 32) (numBlocks : UInt64) (blocks : List (ChallengedBlock B D)) :
    Prop :=
  blocks.length ≤ numBlocks.toNat ∧ ¬(numBlocks > 0 ∧ blocks.isEmpty) ∧
    ∃ indices, deriveChallengeIndices sha domain nonce numBlocks blocks.length = some indices ∧
      challengedBlocksHold merkle leafOf root blocks indices = true

/-- Every presented leaf is the one committed at the challenged position. -/
def PresentsChallenged (leafOf : B → D) (leaves : List D) (blocks : List (ChallengedBlock B D))
    (indices : List UInt64) : Prop :=
  List.Forall₂ (fun b i => leaves[i.toNat]? = some (leafOf b.block)) blocks indices

/-- Every presented path has the flags of the challenged position's path, or of the
path of another position that holds the same leaf. -/
def PathsFollow (merkle : MerkleHashes D) (leaves : List D) (blocks : List (ChallengedBlock B D))
    (indices : List UInt64) : Prop :=
  List.Forall₂ (fun b i => ∃ p, p < leaves.length ∧ leaves[p]? = leaves[i.toNat]? ∧
    flags b.merklePath = flags (merklePathFromTree (buildMerkleTree merkle leaves) p))
    blocks indices

variable {merkle : MerkleHashes D} {leafOf : B → D} {leaves : List D}

/-- One presented block: its leaf is the challenged one just when its flags are. -/
theorem presents_iff_follows (hideal : merkle.Ideal) (hne : leaves ≠ []) {root : D}
    (hroot : rootOf (buildMerkleTree merkle leaves) = some root) {b : ChallengedBlock B D}
    {index : ℕ} {i : UInt64}
    (hpath : verifyMerklePath merkle (leafOf b.block) index b.merklePath root = true) :
    leaves[i.toNat]? = some (leafOf b.block) ↔
      ∃ p, p < leaves.length ∧ leaves[p]? = leaves[i.toNat]? ∧
        flags b.merklePath = flags (merklePathFromTree (buildMerkleTree merkle leaves) p) := by
  rcases verifyMerklePath_sound hideal hne hroot hpath with ⟨p, hp, hflags⟩
  have hplt : p < leaves.length := (List.getElem?_eq_some_iff.mp hp).1
  constructor
  · intro hleaf
    exact ⟨p, hplt, hp.trans hleaf.symm, hflags⟩
  · rintro ⟨q, hqlt, hq, hflags'⟩
    -- The flags determine the position the path leads to.
    have hpq : p = q := merklePath_flags_injective hplt hqlt (hflags.symm.trans hflags')
    rw [← hq, ← hpq, hp]

/-- In an audit that passes, the presented leaves are the challenged ones just when
every path follows its position. -/
theorem presentsChallenged_iff_of_passed (hideal : merkle.Ideal) (hne : leaves ≠ []) {root : D}
    (hroot : rootOf (buildMerkleTree merkle leaves) = some root) {sha : Sha2} {domain : String}
    {nonce : Bytes 32} {numBlocks : UInt64} (hnum : numBlocks.toNat = leaves.length)
    {blocks : List (ChallengedBlock B D)}
    (hpassed : AuditPassed merkle leafOf sha domain root nonce numBlocks blocks) :
    ∃ indices, deriveChallengeIndices sha domain nonce numBlocks blocks.length = some indices ∧
      indices.Pairwise (· < ·) ∧ (∀ i ∈ indices, i.toNat < leaves.length) ∧
      (PresentsChallenged leafOf leaves blocks indices ↔
        PathsFollow merkle leaves blocks indices) := by
  rcases hpassed with ⟨hle, hsome, indices, hindices, hhold⟩
  have hpos : 0 < numBlocks.toNat := hnum ▸ List.length_pos_of_ne_nil hne
  have hcount : 0 < blocks.length := by
    refine List.length_pos_of_ne_nil fun hnil => hsome ⟨?_, by rw [hnil]; rfl⟩
    exact UInt64.lt_iff_toNat_lt.mpr hpos
  rcases deriveChallengeIndices_sampled hpos hcount hindices with ⟨hsampled, hlength⟩
  refine ⟨indices, hindices, hsampled.ascending, hnum ▸ hsampled.in_range, ?_⟩
  -- As many positions as blocks, so the loop reaches every block.
  have hlen : blocks.length = indices.length := by rw [hlength, min_eq_left hle]
  rw [challengedBlocksHold, List.all_eq_true] at hhold
  have hpair : ∀ {b : ChallengedBlock B D} {i : UInt64}, (b, i) ∈ blocks.zip indices →
      (leaves[i.toNat]? = some (leafOf b.block) ↔
        ∃ p, p < leaves.length ∧ leaves[p]? = leaves[i.toNat]? ∧
          flags b.merklePath = flags (merklePathFromTree (buildMerkleTree merkle leaves) p)) := by
    intro b i hmem
    -- the path is what counts: the position was compared but says nothing about it
    have hcheck := hhold (b, i) hmem
    rw [Bool.and_eq_true] at hcheck
    exact presents_iff_follows hideal hne hroot hcheck.2
  unfold PresentsChallenged PathsFollow
  rw [List.forall₂_iff_zip, List.forall₂_iff_zip]
  exact and_congr_right fun _ => ⟨fun h _ _ hmem => (hpair hmem).mp (h hmem),
    fun h _ _ hmem => (hpair hmem).mpr (h hmem)⟩

end Audit

section Verifiers

variable {R D : Type} [AddCommGroup R] [Module DalekScalar R] [DecidableEq R] [DecidableEq D]
  {sha : Sha2} {dalek : Dalek R} {merkle : MerkleHashes D}

/-- A check that rejects did not. -/
theorem check_passed {bad : Prop} [Decidable bad] {rest : Option Bool}
    (h : (if bad then some false else rest) = some true) : ¬bad ∧ rest = some true := by
  by_cases hbad : bad
  · rw [if_pos hbad] at h
    exact absurd h (by decide)
  · exact ⟨hbad, (if_neg hbad).symm.trans h⟩

/-- The three verifiers end in the same steps: two checks on the number of blocks, the
sampling, the loop over the presented blocks and the batch proof. -/
theorem passed_of_verified {B : Type} {leafOf : B → D} {domain : String} {root : D}
    {nonce : Bytes 32} {numBlocks : UInt64} {blocks : List (ChallengedBlock B D)} {batch : Bool}
    (h : (if blocks.length > numBlocks.toNat then some false
      else if numBlocks > 0 ∧ blocks.isEmpty then some false
      else do
        let expectedIndices ← deriveChallengeIndices sha domain nonce numBlocks blocks.length
        if !challengedBlocksHold merkle leafOf root blocks expectedIndices then some false
        else some batch) = some true) :
    AuditPassed merkle leafOf sha domain root nonce numBlocks blocks := by
  rcases check_passed h with ⟨hle, h⟩
  rcases check_passed h with ⟨hsome, h⟩
  rcases Option.bind_eq_some_iff.mp h with ⟨indices, hindices, h⟩
  rcases check_passed h with ⟨hhold, -⟩
  rw [Bool.not_eq_true', Bool.not_eq_false] at hhold
  exact ⟨not_lt.mp hle, hsome, indices, hindices, hhold⟩

theorem accountable_passed {leafOf : PackedBlock R → D} {proof : AccountableFileProof R D}
    {storedCommitment : FileCommitment D} {challengeNonce : Bytes 32} {filePublicKey : R}
    {proofContext : List UInt8}
    (h : verifyAccountableFileProof sha dalek merkle leafOf proof storedCommitment challengeNonce
      filePublicKey proofContext = some true) :
    AuditPassed merkle leafOf sha challengeIndexDomain storedCommitment.rootHash challengeNonce
      storedCommitment.numBlocks proof.blocks := by
  unfold verifyAccountableFileProof at h
  rcases check_passed h with ⟨_, h⟩
  rcases check_passed h with ⟨_, h⟩
  exact passed_of_verified h

theorem private_passed {leafOf : PrivateCiphertextBlock R → D} {proof : PrivateFileProof R D}
    {storedCommitment : FileCommitment D} {challengeNonce : Bytes 32} {filePublicKey : R}
    {proofContext : List UInt8}
    (h : verifyPrivateFileProof sha dalek merkle leafOf proof storedCommitment challengeNonce
      filePublicKey proofContext = some true) :
    AuditPassed merkle leafOf sha challengeIndexDomain storedCommitment.rootHash challengeNonce
      storedCommitment.numBlocks proof.blocks := by
  unfold verifyPrivateFileProof at h
  rcases check_passed h with ⟨_, h⟩
  rcases check_passed h with ⟨_, h⟩
  rcases check_passed h with ⟨_, h⟩
  exact passed_of_verified h

theorem option1_passed {leafOf : Option1CiphertextBlock R → D} {proof : Option1FileProof R D}
    {commitment : Option1FileCommitment R D} {challengeNonce : Bytes 32}
    {proofContext : List UInt8}
    (h : verifyOption1FileProof merkle sha dalek leafOf proof commitment challengeNonce
      proofContext = some true) :
    AuditPassed merkle leafOf sha option1ChallengeIndexDomain commitment.rootHash challengeNonce
      commitment.numBlocks proof.blocks := by
  unfold verifyOption1FileProof at h
  rcases check_passed h with ⟨_, h⟩
  rcases check_passed h with ⟨_, h⟩
  rcases check_passed h with ⟨_, h⟩
  exact passed_of_verified h

/-- What an accepted audit says about the challenged positions: they are distinct
positions of the file, and the presented leaves are the ones committed there just
when every path follows its position. -/
def AuditOf {B : Type} (merkle : MerkleHashes D) (leafOf : B → D) (sha : Sha2) (domain : String)
    (leaves : List D) (nonce : Bytes 32) (numBlocks : UInt64)
    (blocks : List (ChallengedBlock B D)) : Prop :=
  ∃ indices, deriveChallengeIndices sha domain nonce numBlocks blocks.length = some indices ∧
    indices.Pairwise (· < ·) ∧ (∀ i ∈ indices, i.toNat < leaves.length) ∧
    (PresentsChallenged leafOf leaves blocks indices ↔ PathsFollow merkle leaves blocks indices)

/-- For every file and every accepted proof of one of the three kinds, the presented
leaves are those committed at the challenged positions if and only if every path has
the flags of its position or of an equal leaf. -/
theorem audit_presents_challenged_iff (dalek : Dalek R) (sha : Sha2) (hideal : merkle.Ideal)
    {leaves : List D} (hne : leaves ≠ []) {root : D}
    (hroot : rootOf (buildMerkleTree merkle leaves) = some root) (challengeNonce : Bytes 32)
    (proofContext : List UInt8) :
    (∀ (leafOf : PackedBlock R → D) (proof : AccountableFileProof R D)
      (storedCommitment : FileCommitment D) (filePublicKey : R),
      storedCommitment.rootHash = root → storedCommitment.numBlocks.toNat = leaves.length →
      verifyAccountableFileProof sha dalek merkle leafOf proof storedCommitment challengeNonce
        filePublicKey proofContext = some true →
      AuditOf merkle leafOf sha challengeIndexDomain leaves challengeNonce
        storedCommitment.numBlocks proof.blocks) ∧
    (∀ (leafOf : PrivateCiphertextBlock R → D) (proof : PrivateFileProof R D)
      (storedCommitment : FileCommitment D) (filePublicKey : R),
      storedCommitment.rootHash = root → storedCommitment.numBlocks.toNat = leaves.length →
      verifyPrivateFileProof sha dalek merkle leafOf proof storedCommitment challengeNonce
        filePublicKey proofContext = some true →
      AuditOf merkle leafOf sha challengeIndexDomain leaves challengeNonce
        storedCommitment.numBlocks proof.blocks) ∧
    (∀ (leafOf : Option1CiphertextBlock R → D) (proof : Option1FileProof R D)
      (commitment : Option1FileCommitment R D),
      commitment.rootHash = root → commitment.numBlocks.toNat = leaves.length →
      verifyOption1FileProof merkle sha dalek leafOf proof commitment challengeNonce
        proofContext = some true →
      AuditOf merkle leafOf sha option1ChallengeIndexDomain leaves challengeNonce
        commitment.numBlocks proof.blocks) := by
  refine ⟨?_, ?_, ?_⟩
  · intro leafOf proof storedCommitment filePublicKey hstored hnum hverify
    exact presentsChallenged_iff_of_passed hideal hne (hstored ▸ hroot) hnum
      (accountable_passed hverify)
  · intro leafOf proof storedCommitment filePublicKey hstored hnum hverify
    exact presentsChallenged_iff_of_passed hideal hne (hstored ▸ hroot) hnum
      (private_passed hverify)
  · intro leafOf proof commitment hstored hnum hverify
    exact presentsChallenged_iff_of_passed hideal hne (hstored ▸ hroot) hnum
      (option1_passed hverify)

end Verifiers

section Example

deriving instance DecidableEq for PackedBlock

/-- Digests as terms, so that no two preimages collide. -/
inductive SymbolicDigest (B : Type) where
  | zero
  | leaf (block : B)
  | hash (leaf : SymbolicDigest B)
  | combine (left right : SymbolicDigest B)
  deriving DecidableEq

def symbolicMerkle (B : Type) : MerkleHashes (SymbolicDigest B) where
  hash := .hash
  combine := .combine
  zero := .zero
  toBytes := fun _ => []

theorem symbolicMerkle_ideal (B : Type) : (symbolicMerkle B).Ideal where
  hash_injective := fun _ _ h => SymbolicDigest.hash.inj h
  combine_injective := fun _ _ _ _ h => SymbolicDigest.combine.inj h
  hash_ne_combine := fun _ _ _ h => nomatch h

/-- A file of three blocks, the last of which is promoted. -/
theorem root_commits_to_leaves_three :
    ([.leaf 1, .leaf 2, .leaf 3] : List (SymbolicDigest ℕ)) =
      (List.range' 1 3).map SymbolicDigest.leaf :=
  root_commits_to_leaves (symbolicMerkle_ideal ℕ) (List.cons_ne_nil _ _) (List.cons_ne_nil _ _)
    rfl

/-- One point encrypted under `x = 3`, with an unblinded commitment. -/
def plainBlock (r m : DalekScalar) : PackedBlock DalekScalar := encryptedBlock 1 3 r [m] [m] [17]

/-- The file of two such blocks. -/
def pairLeaves : List (SymbolicDigest (PackedBlock DalekScalar)) :=
  [.leaf (plainBlock 7 1), .leaf (plainBlock 8 2)]

def pairRoot : SymbolicDigest (PackedBlock DalekScalar) :=
  .combine (.hash (.leaf (plainBlock 7 1))) (.hash (.leaf (plainBlock 8 2)))

def pairCommitment : FileCommitment (SymbolicDigest (PackedBlock DalekScalar)) where
  fileId := leArray 32 42
  rootHash := pairRoot
  numBlocks := 2
  blockSize := 272
  fileSize := 544
  encodingVersion := 2
  nonce := leArray 32 0

/-- Each block presented at the other's position, with its own honest path. -/
def swappedBlocks :
    List (ChallengedBlock (PackedBlock DalekScalar)
      (SymbolicDigest (PackedBlock DalekScalar))) :=
  [⟨0, plainBlock 8 2, [(true, .hash (.leaf (plainBlock 7 1)))]⟩,
    ⟨1, plainBlock 7 1, [(false, .hash (.leaf (plainBlock 8 2)))]⟩]

/-- The swapped blocks with the batch proof of the code's own prover. -/
def swappedProof :
    AccountableFileProof DalekScalar (SymbolicDigest (PackedBlock DalekScalar)) where
  fileId := leArray 32 42
  rootHash := pairRoot
  blocks := swappedBlocks
  batchProof := accountableProve lineSha lineDalek [] 3 swappedBlocks [⟨8, [0]⟩, ⟨7, [0]⟩] 1 1

theorem swappedProof_verified :
    verifyAccountableFileProof lineSha lineDalek (symbolicMerkle _) .leaf swappedProof
      pairCommitment (leArray 32 9) 3 [] = some true := by
  decide +kernel

theorem pairRoot_eq : rootOf (buildMerkleTree (symbolicMerkle _) pairLeaves) = some pairRoot := rfl

/-- The swapped blocks pass an audit of the whole file, and neither is the block
committed at its position. -/
theorem swapped_blocks_accepted :
    verifyAccountableFileProof lineSha lineDalek (symbolicMerkle _) .leaf swappedProof
      pairCommitment (leArray 32 9) 3 [] = some true ∧
    rootOf (buildMerkleTree (symbolicMerkle _) pairLeaves) = some pairCommitment.rootHash ∧
    pairCommitment.numBlocks.toNat = pairLeaves.length ∧
    deriveChallengeIndices lineSha challengeIndexDomain (leArray 32 9) pairCommitment.numBlocks
      swappedProof.blocks.length = some [0, 1] ∧
    ¬PresentsChallenged .leaf pairLeaves swappedProof.blocks [0, 1] := by
  refine ⟨swappedProof_verified, pairRoot_eq, rfl, by decide +kernel, fun hpresents => ?_⟩
  -- the first presented block is the second of the file
  have hfirst := (List.forall₂_cons.mp hpresents).1
  exact absurd hfirst (by decide +kernel)

theorem audit_presents_challenged_iff_pair :
    AuditOf (symbolicMerkle _) .leaf lineSha challengeIndexDomain pairLeaves (leArray 32 9)
      pairCommitment.numBlocks swappedProof.blocks :=
  (audit_presents_challenged_iff lineDalek lineSha (symbolicMerkle_ideal _)
    (List.cons_ne_nil _ _) pairRoot_eq (leArray 32 9) []).1 .leaf swappedProof pairCommitment 3
    rfl rfl swappedProof_verified

end Example

end Ebut
