import Ebut.Library.Samples
import Ebut.Theory.AccountableFile
import Ebut.Theory.AuditPolicy
import Ebut.Theory.Batching

/-!
# What an Audit Guarantees

An audit whose presented paths lead to the challenged positions catches a file of which a tenth
is bad with the confidence asked for: the positions that it can pass for are fixed by the
commitment, before the nonce, and are that rare among all of their number. The cap on the
challenges takes nothing away up to a confidence of `1 - (9 / 10) ^ 100`.

Nothing makes the paths lead there. The owner of one good block presents it at every challenged
position, each time with the path of the leaf that it is, and passes every audit at every
confidence, whatever the other leaves are.

## Main definitions

* `PackedBlockOpens`: Every point of a block has the form an honest block gives it.
* `badPositions`: The positions whose leaf is that of no such block.
* `positions`: The challenged positions as a set.
* `repeatedBlock`: One block presented at every position.

## Theorems

* `miss_expectedChallengeCount`: How rarely the challenges miss a tenth of the blocks.
* `audit_catches`: The guarantee, for paths that follow.
* `one_block_passes_audit`: The audit passed by one block.
-/

namespace Ebut

open Hypergeometric MerkleTree

variable {R D : Type} [AddCommGroup R] [Module DalekScalar R]

/-- Every point of the block has the form that an honest block gives it. -/
def PackedBlockOpens (bases : BatchBases R) (block : PackedBlock R) : Prop :=
  ∀ j < block.c2Points.length, PointOpens bases block j

open Classical in
/-- The positions whose committed leaf is that of no block that opens. -/
noncomputable def badPositions (bases : BatchBases R) (leafOf : PackedBlock R → D)
    (leaves : List D) : Finset ℕ :=
  (Finset.range leaves.length).filter fun p =>
    ¬∃ block, leaves[p]? = some (leafOf block) ∧ PackedBlockOpens bases block

theorem mem_badPositions {bases : BatchBases R} {leafOf : PackedBlock R → D} {leaves : List D}
    {p : ℕ} : p ∈ badPositions bases leafOf leaves ↔ p < leaves.length ∧
      ¬∃ block, leaves[p]? = some (leafOf block) ∧ PackedBlockOpens bases block := by
  classical
  rw [badPositions, Finset.mem_filter, Finset.mem_range]

theorem badPositions_subset (bases : BatchBases R) (leafOf : PackedBlock R → D)
    (leaves : List D) : badPositions bases leafOf leaves ⊆ Finset.range leaves.length :=
  fun _ hp => Finset.mem_range.mpr (mem_badPositions.mp hp).1

/-- The challenged positions as a set. -/
def positions (indices : List UInt64) : Finset ℕ := (indices.map UInt64.toNat).toFinset

theorem mem_positions {indices : List UInt64} {p : ℕ} :
    p ∈ positions indices ↔ ∃ i ∈ indices, i.toNat = p := by
  rw [positions, List.mem_toFinset, List.mem_map]

/-- Ascending positions are distinct. -/
theorem card_positions {indices : List UInt64} (h : indices.Pairwise (· < ·)) :
    (positions indices).card = indices.length := by
  have hnodup : (indices.map UInt64.toNat).Nodup := by
    rw [List.nodup_iff_pairwise_ne, List.pairwise_map]
    exact h.imp fun hlt => (UInt64.lt_iff_toNat_lt.mp hlt).ne
  rw [positions, List.toFinset_card_of_nodup hnodup, List.length_map]

section Policy

/-- The count of blocks that the policy assumes to be bad is reached by a tenth. -/
theorem badBlockCount_le {n bad : ℕ} (hn : 0 < n) (htenth : n ≤ 10 * bad) :
    badBlockCount n (1 / 10) ≤ bad := by
  have hone : 1 ≤ bad := by omega
  have hceil : ⌈(n : ℚ) * (1 / 10)⌉₊ ≤ bad := by
    rw [Nat.ceil_le]
    have hcast : (n : ℚ) ≤ 10 * bad := by exact_mod_cast htenth
    linarith
  exact max_le hone ((min_le_left _ _).trans hceil)

/-- What is not assumed to be bad is at most nine tenths. -/
theorem sub_badBlockCount_le (n : ℕ) :
    ((n - badBlockCount n (1 / 10) : ℕ) : ℚ) ≤ 9 / 10 * n := by
  have hle : (n : ℚ) * (1 / 10) ≤ badBlockCount n (1 / 10) := by
    refine le_trans ?_ (Nat.cast_le.mpr (le_max_right 1 _))
    rw [Nat.cast_min]
    refine le_min (Nat.le_ceil _) ?_
    have hn : (0 : ℚ) ≤ n := Nat.cast_nonneg n
    linarith
  rcases Nat.le_total (badBlockCount n (1 / 10)) n with hsub | hsub
  · rw [Nat.cast_sub hsub]
    linarith
  · rw [Nat.sub_eq_zero_of_le hsub, Nat.cast_zero]
    positivity

/-- The challenges of a commitment miss a tenth of its blocks with at most the probability that
the confidence leaves, up to a confidence that the cap allows. -/
theorem miss_expectedChallengeCount {storedCommitment : FileCommitment D}
    (hpos : storedCommitment.numBlocks ≠ 0) {confidence : Option ℚ}
    (hconfidence : clampedConfidence confidence ≤ 1 - (9 / 10) ^ 100) :
    miss storedCommitment.numBlocks.toNat
        (badBlockCount storedCommitment.numBlocks.toNat (1 / 10))
        (expectedChallengeCount rationalOps storedCommitment confidence) ≤
      1 - clampedConfidence confidence := by
  have hle := sub_nonneg.mpr (clampedConfidence_le_one confidence)
  have hnat : 0 < storedCommitment.numBlocks.toNat :=
    Nat.pos_of_ne_zero fun hzero => hpos (UInt64.toNat_inj.mp hzero)
  have hone : 1 ≤ badBlockCount storedCommitment.numBlocks.toNat (1 / 10) := le_max_left _ _
  -- a sample of all blocks misses nothing
  have hall : miss storedCommitment.numBlocks.toNat
      (badBlockCount storedCommitment.numBlocks.toNat (1 / 10))
      storedCommitment.numBlocks.toNat ≤ 1 - clampedConfidence confidence := by
    rw [miss_eq_zero (Nat.sub_lt hnat hone)]
    exact hle
  unfold expectedChallengeCount
  rw [if_neg hpos]
  by_cases hsmall : storedCommitment.fileSize ≤ fullAuditFileBytes
  · rw [if_pos hsmall]
    exact hall
  · rw [if_neg hsmall]
    have hfraction : clampedFraction (some (1 / 10)) = 1 / 10 := by
      rw [clampedFraction]
      norm_num
    have hfirst := auditSampleCount_first hpos confidence (some (1 / 10))
    rw [hfraction] at hfirst
    show miss _ _ (auditSampleCountForBadFraction rationalOps _ confidence (some (1 / 10))) ≤ _
    rcases hfirst with hleast | ⟨-, hcap⟩
    · have hcatch : clampedConfidence confidence ≤ 1 - miss _ _ _ := hleast.1.2
      linarith
    · rw [hcap]
      rcases Nat.le_total maxAuditChallenges storedCommitment.numBlocks.toNat with hmany | hfew
      · rw [min_eq_left hmany]
        have hpow := miss_le_pow (q := 9 / 10) hmany (sub_badBlockCount_le _) (by norm_num)
          (by norm_num)
        have hmax : ((9 : ℚ) / 10) ^ maxAuditChallenges = (9 / 10) ^ 100 := rfl
        linarith
      · rw [min_eq_right hfew]
        exact hall

end Policy

section Guarantee

variable [DecidableEq R] [DecidableEq D] {sha : Sha2} {dalek : Dalek R} {merkle : MerkleHashes D}
  {leafOf : PackedBlock R → D} {leaves : List D}

omit [DecidableEq R] [DecidableEq D] in
/-- Blocks that open, presented at their own positions, are at none of the bad ones. -/
theorem not_bad_of_presents {bases : BatchBases R} {indices : List UInt64}
    {blocks : List (ChallengedBlock (PackedBlock R) D)}
    (hpresents : PresentsChallenged leafOf leaves blocks indices)
    (hopen : ∀ b ∈ blocks, PackedBlockOpens bases b.block) {p : ℕ}
    (hp : p ∈ positions indices) : p ∉ badPositions bases leafOf leaves := by
  rcases mem_positions.mp hp with ⟨i, hi, rfl⟩
  rcases List.mem_iff_getElem.mp hi with ⟨n, hn, rfl⟩
  have hn' : n < blocks.length := hpresents.length_eq ▸ hn
  have hleaf := hpresents.get hn' hn
  simp only [List.get_eq_getElem] at hleaf
  exact fun hbad => (mem_badPositions.mp hbad).2 ⟨_, hleaf, hopen _ (List.getElem_mem hn')⟩

/-- At least a tenth of the committed leaves is bad: then there are few sets of positions, fixed
by the commitment, for which an audit can pass whose paths follow and whose blocks open. They
are at most one less the confidence of all sets of as many positions. -/
theorem audit_catches (dalek : Dalek R) (sha : Sha2) (hideal : merkle.Ideal) (hne : leaves ≠ [])
    {storedCommitment : FileCommitment D}
    (hroot : rootOf (buildMerkleTree merkle leaves) = some storedCommitment.rootHash)
    (hnum : storedCommitment.numBlocks.toNat = leaves.length) (filePublicKey : R)
    (htenth : leaves.length ≤
      10 * (badPositions (accountableBases sha dalek filePublicKey) leafOf leaves).card)
    {confidence : Option ℚ} (hconfidence : clampedConfidence confidence ≤ 1 - (9 / 10) ^ 100) :
    ∃ passing : Finset (Finset ℕ),
      (passing.card : ℚ) ≤ (1 - clampedConfidence confidence) *
        leaves.length.choose (expectedChallengeCount rationalOps storedCommitment confidence) ∧
      ∀ (challengeNonce : Bytes 32) (proofContext : List UInt8) (proof : AccountableFileProof R D)
        (indices : List UInt64),
        verifyAccountableFileProofWithConfidence sha dalek merkle leafOf
            (fun commitment => expectedChallengeCount rationalOps commitment confidence) proof
            storedCommitment challengeNonce filePublicKey proofContext = some true →
        deriveChallengeIndices sha challengeIndexDomain challengeNonce storedCommitment.numBlocks
            (expectedChallengeCount rationalOps storedCommitment confidence) = some indices →
        PathsFollow merkle leaves proof.blocks indices →
        (∀ b ∈ proof.blocks,
          PackedBlockOpens (accountableBases sha dalek filePublicKey) b.block) →
        positions indices ∈ passing := by
  have hnat : 0 < leaves.length := List.length_pos_of_ne_nil hne
  have hpos : storedCommitment.numBlocks ≠ 0 := fun hzero =>
    absurd hnat (by rw [← hnum, hzero]; decide)
  rcases expectedChallengeCount_bounds rationalOps hpos confidence with ⟨hone, hmost⟩
  refine ⟨missing leaves.length (expectedChallengeCount rationalOps storedCommitment confidence)
    (badPositions (accountableBases sha dalek filePublicKey) leafOf leaves), ?_, ?_⟩
  · refine card_missing_le (badPositions_subset _ _ _) (badBlockCount_le hnat htenth)
      (hnum ▸ hmost) ?_
    have hmiss := miss_expectedChallengeCount hpos hconfidence
    rwa [hnum] at hmiss
  · intro challengeNonce proofContext proof indices hverify hindices hfollow hopen
    unfold verifyAccountableFileProofWithConfidence at hverify
    rcases check_passed hverify with ⟨hcount, hverify⟩
    rw [ne_eq, not_not] at hcount
    rcases presentsChallenged_iff_of_passed hideal hne hroot hnum (accountable_passed hverify) with
      ⟨derived, hderived, hascending, hrange, hiff⟩
    rw [hcount, hindices, Option.some.injEq] at hderived
    subst hderived
    have hlength := (deriveChallengeIndices_sampled (hnum ▸ hnat) hone hindices).2
    rw [min_eq_left hmost] at hlength
    refine mem_missing.mpr ⟨⟨?_, fun p hp => ?_⟩, by rw [card_positions hascending, hlength]⟩
    · intro p hp
      rcases mem_positions.mp hp with ⟨i, hi, rfl⟩
      exact Finset.mem_range.mpr (hrange i hi)
    · exact not_bad_of_presents (hiff.mpr hfollow) hopen hp

end Guarantee

section Bypass

/-- One block presented at every position of a list, with the path of its own. -/
def repeatedBlock (merkle : MerkleHashes D) (leaves : List D) (p : ℕ) (block : PackedBlock R)
    (indices : List UInt64) : List (ChallengedBlock (PackedBlock R) D) :=
  indices.map fun idx => ⟨idx, block, merklePathFromTree (buildMerkleTree merkle leaves) p⟩

variable [DecidableEq R] [DecidableEq D] {sha : Sha2} {dalek : Dalek R} {merkle : MerkleHashes D}
  {leafOf : PackedBlock R → D} {leaves : List D} {filePublicKey : R} {block : PackedBlock R}
  {witness : WitnessBlock} {p : ℕ}

omit [AddCommGroup R] [Module DalekScalar R] [DecidableEq R] in
theorem challengedBlocksHold_repeated {root : D}
    (hroot : rootOf (buildMerkleTree merkle leaves) = some root)
    (hp : leaves[p]? = some (leafOf block)) (indices : List UInt64) :
    challengedBlocksHold merkle leafOf root (repeatedBlock merkle leaves p block indices) indices =
      true := by
  unfold challengedBlocksHold repeatedBlock
  rw [List.all_eq_true]
  intro pair hpair
  rw [List.zip_map_left, List.mem_map] at hpair
  rcases hpair with ⟨⟨idx, idx'⟩, hmem, rfl⟩
  have heq : idx = idx' := List.forall₂_iff_zip.mp (List.forall₂_refl indices) |>.2 hmem
  rw [Bool.and_eq_true, decide_eq_true_eq]
  exact ⟨heq, verifyMerklePath_complete hroot hp _⟩

/-- The owner of one honest block passes the audit of any commitment that has its leaf: with any
confidence, for every nonce, and whatever the other leaves are. The block is presented at every
challenged position. -/
theorem one_block_passes_audit {F : Type} (ops : FloatOps F) (hh : privatePlaintextH sha dalek ≠ 0)
    (hkey : filePublicKey ≠ 0) {storedCommitment : FileCommitment D}
    (hversion : storedCommitment.encodingVersion = accountableFileEncodingV2)
    (hroot : rootOf (buildMerkleTree merkle leaves) = some storedCommitment.rootHash)
    (hnum : storedCommitment.numBlocks.toNat = leaves.length)
    (hp : leaves[p]? = some (leafOf block))
    (hhonest : HonestBlock sha dalek filePublicKey block witness) (challengeNonce : Bytes 32)
    (proofContext : List UInt8) (confidence : F) (alphaR alphaS : DalekScalar)
    {indices : List UInt64}
    (hindices : deriveChallengeIndices sha challengeIndexDomain challengeNonce
      storedCommitment.numBlocks (expectedChallengeCount ops storedCommitment confidence) =
        some indices) :
    verifyAccountableFileProofWithConfidence sha dalek merkle leafOf
      (fun commitment => expectedChallengeCount ops commitment confidence)
      ⟨storedCommitment.fileId, storedCommitment.rootHash,
        repeatedBlock merkle leaves p block indices,
        accountableProve sha dalek proofContext filePublicKey
          (repeatedBlock merkle leaves p block indices)
          (indices.map fun _ => witness) alphaR alphaS⟩
      storedCommitment challengeNonce filePublicKey proofContext = some true := by
  have hlt : p < leaves.length := (List.getElem?_eq_some_iff.mp hp).1
  have hnat : 0 < storedCommitment.numBlocks.toNat := hnum ▸ Nat.zero_lt_of_lt hlt
  have hpos : storedCommitment.numBlocks ≠ 0 := fun hzero => absurd hnat (by rw [hzero]; decide)
  rcases expectedChallengeCount_bounds ops hpos confidence with ⟨hone, hmost⟩
  have hlength := (deriveChallengeIndices_sampled hnat hone hindices).2
  rw [min_eq_left hmost] at hlength
  have hcount : (repeatedBlock merkle leaves p block indices).length =
      expectedChallengeCount ops storedCommitment confidence := by
    rw [repeatedBlock, List.length_map, hlength]
  have hne : repeatedBlock merkle leaves p block indices ≠ [] := by
    rw [← List.length_pos_iff_ne_nil, hcount]
    exact hone
  rw [verifyAccountableFileProofWithConfidence, if_neg (not_not.mpr hcount)]
  refine verifyAccountableFileProof_ok hversion rfl rfl (hcount.trans_le hmost) hne
    (hcount ▸ hindices) (challengedBlocksHold_repeated hroot hp indices) ?_
  refine accountableVerify_prove hh hkey hne ?_ proofContext alphaR alphaS
  -- every presented block is the one that the witness opens
  rw [repeatedBlock, List.forall₂_map_left_iff, List.forall₂_map_right_iff, List.forall₂_same]
  exact fun _ _ => hhonest

end Bypass

section Example

/-- A file of two leaves, the second of which is that of no block. -/
def lostLeaves : List (SymbolicDigest (PackedBlock DalekScalar)) :=
  [.leaf (plainBlock 7 1), .zero]

def lostCommitment : FileCommitment (SymbolicDigest (PackedBlock DalekScalar)) :=
  { pairCommitment with rootHash := .combine (.hash (.leaf (plainBlock 7 1))) (.hash .zero) }

theorem lostRoot_eq :
    rootOf (buildMerkleTree (symbolicMerkle _) lostLeaves) = some lostCommitment.rootHash := rfl

theorem plainBlock_honest (r m : DalekScalar) :
    HonestBlock lineSha lineDalek 3 (plainBlock r m) ⟨r, [0]⟩ := by
  refine ⟨rfl, rfl, ?_, trivial⟩
  show m + r • (3 : DalekScalar) • (1 : DalekScalar) - m = r • 3 - (0 : DalekScalar) • _
  rw [smul_eq_mul, smul_eq_mul, smul_eq_mul, smul_eq_mul, mul_one, zero_mul, sub_zero,
    add_sub_cancel_left]

/-- The first block stands for both, although nothing is left of the second. -/
theorem one_block_passes_audit_lost :
    verifyAccountableFileProofWithConfidence lineSha lineDalek (symbolicMerkle _) .leaf
      (fun commitment => expectedChallengeCount rationalOps commitment (some (9 / 10)))
      ⟨lostCommitment.fileId, lostCommitment.rootHash,
        repeatedBlock (symbolicMerkle _) lostLeaves 0 (plainBlock 7 1) [0, 1],
        accountableProve lineSha lineDalek [] 3
          (repeatedBlock (symbolicMerkle _) lostLeaves 0 (plainBlock 7 1) [0, 1])
          [⟨7, [0]⟩, ⟨7, [0]⟩] 1 1⟩
      lostCommitment (leArray 32 9) 3 [] = some true := by
  have hh : privatePlaintextH lineSha lineDalek ≠ 0 := by
    rw [privatePlaintextH_line]
    exact one_ne_zero
  exact one_block_passes_audit rationalOps hh (by decide +kernel) rfl lostRoot_eq rfl rfl
    (plainBlock_honest 7 1) (leArray 32 9) [] (some (9 / 10)) 1 1 rfl

theorem lost_badPositions (bases : BatchBases DalekScalar) :
    1 ∈ badPositions bases SymbolicDigest.leaf lostLeaves := by
  refine mem_badPositions.mpr ⟨by decide, ?_⟩
  rintro ⟨block, hleaf, -⟩
  cases hleaf

/-- No proof passes an audit of that file with paths that follow and blocks that open. -/
theorem audit_catches_lost :
    {proof : AccountableFileProof DalekScalar (SymbolicDigest (PackedBlock DalekScalar)) |
      verifyAccountableFileProofWithConfidence lineSha lineDalek (symbolicMerkle _) .leaf
          (fun commitment => expectedChallengeCount rationalOps commitment (some (9 / 10))) proof
          lostCommitment (leArray 32 9) 3 [] = some true ∧
        PathsFollow (symbolicMerkle _) lostLeaves proof.blocks [0, 1] ∧
        ∀ b ∈ proof.blocks, PackedBlockOpens (accountableBases lineSha lineDalek 3) b.block} =
      ∅ := by
  have hlength : lostLeaves.length = 2 := rfl
  have htenth : lostLeaves.length ≤
      10 * (badPositions (accountableBases lineSha lineDalek 3) .leaf lostLeaves).card := by
    have hone := Finset.card_pos.mpr ⟨1, lost_badPositions (accountableBases lineSha lineDalek 3)⟩
    omega
  have hconfidence : clampedConfidence (some (9 / 10)) = 9 / 10 := by
    rw [clampedConfidence]
    norm_num
  have hcap : clampedConfidence (some (9 / 10)) ≤ 1 - (9 / 10) ^ 100 := by
    rw [hconfidence]
    norm_num
  have hne : lostLeaves ≠ [] := List.cons_ne_nil _ _
  rcases audit_catches lineDalek lineSha (symbolicMerkle_ideal _) hne lostRoot_eq rfl 3 htenth hcap
    with ⟨passing, hcard, hpassing⟩
  rw [Set.eq_empty_iff_forall_notMem]
  rintro proof ⟨hverify, hfollow, hopen⟩
  have hmem := hpassing (leArray 32 9) [] proof [0, 1] hverify rfl hfollow hopen
  have hpos : 0 < passing.card := Finset.card_pos.mpr ⟨_, hmem⟩
  -- a tenth of the one set of both positions is less than one set
  have hcount : expectedChallengeCount rationalOps lostCommitment (some (9 / 10)) = 2 := rfl
  rw [hconfidence, hcount, hlength] at hcard
  norm_num at hcard
  have hone : (1 : ℚ) ≤ passing.card := Nat.one_le_cast.mpr hpos
  linarith

end Example

end Ebut
