import Ebut.Core.AccountableFile
import Ebut.Theory.Audit

/-!
# Honest Accountable Files Are Accepted

An honest file goes through: cutting it up, committing to it, sampling, opening the sampled
blocks and checking the proof. Every block has one to sixteen points of one to seventeen
bytes and a witness that opens it, a sampled position has the path of its leaf, and the
verifier samples the positions of the prover, since it is sent as many blocks as are
expected.

## Main definitions

* `HonestBlock`, `HonestFile`: What is made for a group and for a file.
* `PresentedAt`: What is presented for a position.

## Theorems

* `accountableBlock_honest`: Every block made is honest.
* `createAccountableFile_ok`: What the commitment to a file contains.
* `verifyMerklePath_complete`: The path of a leaf is accepted.
* `createAccountableFileProof_ok`: What the proof contains.
* `accountableFile_complete`: The proof for a file is accepted.
* `deriveChallengeIndices_small`: Nothing is sampled for a small file.
-/

namespace Ebut

open Blocks MerkleTree

variable {R D : Type} [AddCommGroup R] [Module DalekScalar R] {sha : Sha2} {dalek : Dalek R}

section Block

/-- A block passes the structural check, and its witness opens it. -/
def HonestBlock (sha : Sha2) (dalek : Dalek R) (filePublicKey : R) (block : PackedBlock R)
    (witness : WitnessBlock) : Prop :=
  packedBlockOk accountablePointPayloadSize block = true ∧
    BlockOpens (accountableBases sha dalek filePublicKey) block witness

/-- Points hidden and committed to with the same plaintexts, one blinding for each. -/
theorem pointsOpen_of_encrypted (bases : BatchBases R) (r : DalekScalar) {ms : List R}
    {blindings : List DalekScalar} (hlen : ms.length = blindings.length) :
    PointsOpen bases r (ms.map fun m => m + r • bases.publicKey)
      (List.zipWith (fun m s => m + s • bases.h) ms blindings) blindings := by
  induction ms generalizing blindings with
  | nil =>
      rw [List.length_nil] at hlen
      rw [List.length_eq_zero_iff.mp hlen.symm]
      exact trivial
  | cons m ms ih =>
      cases blindings with
      | nil => exact absurd hlen (Nat.succ_ne_zero _)
      | cons s blindings =>
          refine ⟨?_, ih (Nat.succ.inj hlen)⟩
          module

/-- Every block made for a group of the file is honest. -/
theorem accountableBlock_honest {filePublicKey : R} {r : DalekScalar} {s : ℕ → DalekScalar}
    {group : List UInt8} (hne : group ≠ [])
    (hlen : group.length ≤ accountablePackedBlockPayloadSize) {block : PackedBlock R}
    {witness : WitnessBlock}
    (hmade : accountableBlock sha dalek filePublicKey r s group = some (block, witness)) :
    HonestBlock sha dalek filePublicKey block witness := by
  rcases Option.bind_eq_some_iff.mp hmade with ⟨ms, hms, hpair⟩
  cases hpair
  have hcount := (mapM_eq_some.mp hms).length_eq
  have hpos : 0 < (chunks accountablePointPayloadSize group).length :=
    List.length_pos_of_ne_nil (chunks_ne_nil (by decide) hne)
  have hmany : (chunks accountablePointPayloadSize group).length ≤ accountablePointsPerBlock :=
    length_chunks_le hlen
  refine ⟨packedBlockOk_iff.mpr ⟨⟨?_, ?_, ?_⟩, ?_⟩, rfl, ?_⟩
  · rw [List.length_map, ← hcount]
    exact ⟨hpos, hmany⟩
  · rw [List.length_map, List.length_map, hcount]
  · -- a chunk has one to seventeen bytes
    intro l hl
    rcases List.mem_map.mp hl with ⟨chunk, hchunk, rfl⟩
    rcases mem_chunks (by decide) hchunk with ⟨hcne, hclen⟩
    have hcpos := List.length_pos_of_ne_nil hcne
    have hpayload : accountablePointPayloadSize = 17 := rfl
    rw [hpayload] at hclen ⊢
    have hnat : (UInt8.ofNat chunk.length).toNat = chunk.length := by
      rw [UInt8.toNat_ofNat']
      omega
    refine ⟨fun hzero => ?_, hnat.trans_le hclen⟩
    rw [hzero] at hnat
    exact absurd hnat (Nat.ne_of_lt hcpos)
  · rw [List.length_zipWith, List.length_map, List.length_map, List.length_range, min_self]
  · exact pointsOpen_of_encrypted (accountableBases sha dalek filePublicKey) r
      (by rw [List.length_map, List.length_range])

/-- A block is made for a group whose chunks all encode. -/
theorem accountableBlock_exists {group : List UInt8}
    (hencodes : ∀ chunk ∈ chunks accountablePointPayloadSize group,
      ∃ point, encodeChunkToPoint sha dalek chunk = .ok point)
    (filePublicKey : R) (r : DalekScalar) (s : ℕ → DalekScalar) :
    ∃ pair, accountableBlock sha dalek filePublicKey r s group = some pair := by
  rcases exists_mapM_eq_some (f := fun chunk => (encodeChunkToPoint sha dalek chunk).toOption)
    fun chunk hchunk => (hencodes chunk hchunk).imp fun point hpoint => by rw [hpoint]; rfl with
    ⟨ms, hms⟩
  exact ⟨_, Option.bind_eq_some_iff.mpr ⟨ms, hms, rfl⟩⟩

end Block

section Commitment

variable {merkle : MerkleHashes D} {leafOf : PackedBlock R → D} {coins : AccountableFileCoins}
  {fileId : Bytes 32} {fileData : ByteSlice} {filePublicKey : R}

/-- A file made for some bytes: its blocks are honest, as many as the commitment says, its
leaves are those of the blocks, and the commitment has their root. -/
structure HonestFile (sha : Sha2) (dalek : Dalek R) (merkle : MerkleHashes D)
    (leafOf : PackedBlock R → D) (filePublicKey : R) (file : AccountableFile R D) : Prop where
  honest : List.Forall₂ (HonestBlock sha dalek filePublicKey) file.publicBlocks file.witnesses
  leaves : file.leaves = file.publicBlocks.map leafOf
  root : rootOf (buildMerkleTree merkle file.leaves) = some file.commitment.rootHash
  count : file.commitment.numBlocks.toNat = file.publicBlocks.length
  nonempty : file.publicBlocks ≠ []
  version : file.commitment.encodingVersion = accountableFileEncodingV2

theorem buildMerkleTree_root (merkle : MerkleHashes D) (leaves : List D) :
    ∃ root, rootOf (buildMerkleTree merkle leaves) = some root := by
  rcases buildMerkleTree_ends merkle leaves with ⟨root, hroot⟩
  refine ⟨root, ?_⟩
  rw [rootOf, hroot]
  rfl

/-- The loop over the groups makes one honest block for each. -/
theorem honest_of_groups {groups : List (List UInt8)}
    (hgroups : ∀ group ∈ groups, group ≠ [] ∧ group.length ≤ accountablePackedBlockPayloadSize)
    {pairs : List (PackedBlock R × WitnessBlock)}
    (hpairs : (groups.zipIdx.mapM fun p =>
      accountableBlock sha dalek filePublicKey (coins.r p.2) (coins.s p.2) p.1) = some pairs) :
    pairs.length = groups.length ∧
      List.Forall₂ (HonestBlock sha dalek filePublicKey) (pairs.map Prod.fst)
        (pairs.map Prod.snd) := by
  have hmade := mapM_eq_some.mp hpairs
  refine ⟨by rw [← hmade.length_eq, List.length_zipIdx], ?_⟩
  rw [List.forall₂_map_left_iff, List.forall₂_map_right_iff, List.forall₂_same]
  intro pair hpair
  rcases exists_of_mem_mapM hpairs hpair with ⟨⟨group, b⟩, hmem, hblock⟩
  rcases hgroups group (List.fst_mem_of_mem_zipIdx hmem) with ⟨hne, hlen⟩
  exact accountableBlock_honest hne hlen hblock

/-- A file whose chunks all encode is committed to, and what is returned is honest. -/
theorem createAccountableFile_ok (hne : fileData.bytes ≠ [])
    (hencodes : ∀ group ∈ chunks accountablePackedBlockPayloadSize fileData.bytes,
      ∀ chunk ∈ chunks accountablePointPayloadSize group,
        ∃ point, encodeChunkToPoint sha dalek chunk = .ok point) :
    ∃ file, createAccountableFileCommitmentAuto sha dalek merkle leafOf coins fileId fileData
        filePublicKey = some file ∧
      HonestFile sha dalek merkle leafOf filePublicKey file := by
  rcases exists_mapM_eq_some (l := (chunks accountablePackedBlockPayloadSize fileData.bytes).zipIdx)
    (f := fun p => accountableBlock sha dalek filePublicKey (coins.r p.2) (coins.s p.2) p.1)
    fun p hp => accountableBlock_exists (hencodes p.1 (List.fst_mem_of_mem_zipIdx hp)) _ _ _ with
    ⟨pairs, hpairs⟩
  rcases buildMerkleTree_root merkle ((pairs.map Prod.fst).map leafOf) with ⟨root, hroot⟩
  rcases honest_of_groups (fun group hgroup => mem_chunks (by decide) hgroup) hpairs with
    ⟨hcount, hhonest⟩
  have hlt : (pairs.map Prod.fst).length < 2 ^ 64 := by
    rw [List.length_map, hcount]
    exact fileData.length_chunks_lt (by decide)
  refine ⟨_, Option.bind_eq_some_iff.mpr ⟨pairs, hpairs,
    Option.bind_eq_some_iff.mpr ⟨root, hroot, rfl⟩⟩, hhonest, rfl, hroot, ?_, ?_, rfl⟩
  · exact UInt64.toNat_ofNat_of_lt' hlt
  · intro hnil
    have hgroups := chunks_ne_nil (n := accountablePackedBlockPayloadSize) (by decide) hne
    rw [← List.length_pos_iff_ne_nil, ← hcount, ← List.length_map (f := Prod.fst)] at hgroups
    exact absurd (congrArg List.length hnil) (Nat.ne_of_gt hgroups)

end Commitment

section Proof

variable {merkle : MerkleHashes D} {leafOf : PackedBlock R → D} {filePublicKey : R}

/-- The path of a leaf is accepted for the root of its tree. -/
theorem verifyMerklePath_complete [DecidableEq D] {leaves : List D} {root leaf : D}
    (hroot : rootOf (buildMerkleTree merkle leaves) = some root) {p : ℕ}
    (hp : leaves[p]? = some leaf) (index : ℕ) :
    verifyMerklePath merkle leaf index (merklePathFromTree (buildMerkleTree merkle leaves) p) root =
      true := by
  have hne : leaves ≠ [] := by
    rintro rfl
    exact absurd hp (by simp)
  have hdigest : (leaves.map merkle.hash)[p]? = some (merkle.hash leaf) := by
    rw [List.getElem?_map, hp, Option.map_some]
  have hlen : (leaves.map merkle.hash).length ≤ leaves.length + 1 := by
    rw [List.length_map]
    exact Nat.le_succ _
  have hclimb := climb_pathAt merkle.combine leaves.length hlen hdigest
  rw [← buildMerkleTree_eq hne, hroot, Option.some.injEq] at hclimb
  rw [verifyMerklePath, decide_eq_true_eq]
  exact hclimb.symm

/-- What is presented for a position: the committed block, with the path of its leaf. -/
structure PresentedAt (merkle : MerkleHashes D) (file : AccountableFile R D) (idx : UInt64)
    (b : ChallengedBlock (PackedBlock R) D) : Prop where
  index : b.index = idx
  block : file.publicBlocks[idx.toNat]? = some b.block
  path : b.merklePath = merklePathFromTree (buildMerkleTree merkle file.leaves) idx.toNat

/-- For positions of the file the prover presents the blocks at them, and proves with the
witnesses of these. -/
theorem createAccountableFileProof_ok {file : AccountableFile R D}
    (hfile : HonestFile sha dalek merkle leafOf filePublicKey file) {challengeNonce : Bytes 32}
    {numChallenges : ℕ} {indices : List UInt64}
    (hindices : deriveChallengeIndices sha challengeIndexDomain challengeNonce
      (UInt64.ofNat file.publicBlocks.length) numChallenges = some indices)
    (hrange : ∀ idx ∈ indices, idx.toNat < file.publicBlocks.length) (fileId : Bytes 32)
    (proofContext : List UInt8) (alphaR alphaS : DalekScalar) :
    ∃ blocks witnesses, createAccountableFileProof sha dalek merkle fileId file.publicBlocks
        file.leaves file.commitment.rootHash challengeNonce numChallenges filePublicKey
        file.witnesses proofContext alphaR alphaS =
          some ⟨fileId, file.commitment.rootHash, blocks,
            accountableProve sha dalek proofContext filePublicKey blocks witnesses alphaR alphaS⟩ ∧
      List.Forall₂ (PresentedAt merkle file) indices blocks ∧
      List.Forall₂ (fun (b : ChallengedBlock (PackedBlock R) D) witness =>
        HonestBlock sha dalek filePublicKey b.block witness) blocks witnesses := by
  have hlen := hfile.honest.length_eq
  rcases exists_mapM_eq_some (l := indices) (f := fun idx => do
    let block ← file.publicBlocks[idx.toNat]?
    return (⟨idx, block, merklePathFromTree (buildMerkleTree merkle file.leaves) idx.toNat⟩ :
      ChallengedBlock (PackedBlock R) D)) fun idx hidx =>
        ⟨_, by rw [List.getElem?_eq_getElem (hrange idx hidx)]; rfl⟩ with ⟨blocks, hblocks⟩
  rcases exists_mapM_eq_some (l := indices) (f := fun idx => file.witnesses[idx.toNat]?)
    fun idx hidx => ⟨_, List.getElem?_eq_getElem (hlen ▸ hrange idx hidx)⟩ with
    ⟨witnesses, hwitnesses⟩
  have hpresented : List.Forall₂ (PresentedAt merkle file) indices blocks := by
    refine (mapM_eq_some.mp hblocks).imp fun idx b hb => ?_
    rcases Option.bind_eq_some_iff.mp hb with ⟨block, hblock, hb⟩
    cases hb
    exact ⟨rfl, hblock, rfl⟩
  refine ⟨blocks, witnesses, ?_, hpresented, ?_⟩
  · exact Option.bind_eq_some_iff.mpr ⟨indices, hindices, Option.bind_eq_some_iff.mpr
      ⟨blocks, hblocks, Option.bind_eq_some_iff.mpr ⟨witnesses, hwitnesses, rfl⟩⟩⟩
  · refine forall₂_of_common (fun idx b witness hb hwitness => ?_) hpresented
      (mapM_eq_some.mp hwitnesses)
    -- the block and the witness are those of one position
    rcases List.getElem?_eq_some_iff.mp hb.block with ⟨hi, hblock⟩
    rcases List.getElem?_eq_some_iff.mp hwitness with ⟨hj, hwit⟩
    have hpair := hfile.honest.get hi hj
    simp only [List.get_eq_getElem] at hpair
    rwa [hblock, hwit] at hpair

end Proof

section Complete

variable {merkle : MerkleHashes D} {leafOf : PackedBlock R → D} {filePublicKey : R}

/-- The presented blocks pass the loop over the expected positions. -/
theorem challengedBlocksHold_of_presented [DecidableEq D] {file : AccountableFile R D}
    (hfile : HonestFile sha dalek merkle leafOf filePublicKey file) {indices : List UInt64}
    {blocks : List (ChallengedBlock (PackedBlock R) D)}
    (hblocks : List.Forall₂ (PresentedAt merkle file) indices blocks) :
    challengedBlocksHold merkle leafOf file.commitment.rootHash blocks indices = true := by
  unfold challengedBlocksHold
  simp only [List.all_eq_true, Bool.and_eq_true, decide_eq_true_eq]
  rintro ⟨b, idx⟩ hmem
  have hb := (List.forall₂_iff_zip.mp hblocks.flip).2 hmem
  refine ⟨hb.index, ?_⟩
  have hleaf : file.leaves[idx.toNat]? = some (leafOf b.block) := by
    rw [hfile.leaves, List.getElem?_map, hb.block, Option.map_some]
  rw [hb.path]
  exact verifyMerklePath_complete hfile.root hleaf _

/-- The batch proof made with the witnesses of the presented blocks is accepted. -/
theorem accountableVerify_prove [DecidableEq R] (hh : privatePlaintextH sha dalek ≠ 0)
    (hkey : filePublicKey ≠ 0)
    {blocks : List (ChallengedBlock (PackedBlock R) D)} {witnesses : List WitnessBlock}
    (hne : blocks ≠ []) (hhonest : List.Forall₂
      (fun (b : ChallengedBlock (PackedBlock R) D) witness =>
        HonestBlock sha dalek filePublicKey b.block witness) blocks witnesses)
    (proofContext : List UInt8) (alphaR alphaS : DalekScalar) :
    accountableVerify sha dalek proofContext filePublicKey blocks
      (accountableProve sha dalek proofContext filePublicKey blocks witnesses alphaR alphaS) =
        true := by
  rw [accountableVerify_eq (List.isEmpty_eq_false_iff.mpr hne) hkey hh]
  refine batchVerify_batchProve ?_ ?_ _ _ alphaR alphaS
  · intro block hblock
    rcases List.mem_map.mp hblock with ⟨b, hb, rfl⟩
    rcases List.mem_iff_getElem.mp hb with ⟨i, hi, rfl⟩
    exact (hhonest.get hi (hhonest.length_eq ▸ hi)).1
  · rw [List.forall₂_map_left_iff]
    exact hhonest.imp fun _ _ hpair => hpair.2

variable [DecidableEq R] [DecidableEq D]

/-- The verifier accepts when nothing that it compares differs and both of its parts hold. -/
theorem verifyAccountableFileProof_ok {proof : AccountableFileProof R D}
    {storedCommitment : FileCommitment D} {challengeNonce : Bytes 32} {proofContext : List UInt8}
    {indices : List UInt64}
    (hversion : storedCommitment.encodingVersion = accountableFileEncodingV2)
    (hid : proof.fileId = storedCommitment.fileId)
    (hroot : proof.rootHash = storedCommitment.rootHash)
    (hlen : proof.blocks.length ≤ storedCommitment.numBlocks.toNat) (hne : proof.blocks ≠ [])
    (hindices : deriveChallengeIndices sha challengeIndexDomain challengeNonce
      storedCommitment.numBlocks proof.blocks.length = some indices)
    (hblocks : challengedBlocksHold merkle leafOf storedCommitment.rootHash proof.blocks indices =
      true)
    (hbatch : accountableVerify sha dalek proofContext filePublicKey proof.blocks proof.batchProof =
      true) :
    verifyAccountableFileProof sha dalek merkle leafOf proof storedCommitment challengeNonce
      filePublicKey proofContext = some true := by
  have hempty : ¬(storedCommitment.numBlocks > 0 ∧ proof.blocks.isEmpty) := fun h =>
    hne (List.isEmpty_iff.mp h.2)
  unfold verifyAccountableFileProof
  rw [if_neg (not_not.mpr hversion), if_neg (by rw [hid, hroot]; simp), if_neg (not_lt.mpr hlen),
    if_neg hempty, hindices]
  simp only [Option.bind_eq_bind, Option.bind_some, hblocks, hbatch]
  rfl

variable {F : Type} (ops : FloatOps F)

omit [DecidableEq R] [DecidableEq D] in
/-- A small file is challenged whole, and nothing is sampled for it. -/
theorem deriveChallengeIndices_small {coins : AccountableFileCoins} {fileId : Bytes 32}
    {fileData : ByteSlice} {file : AccountableFile R D}
    (hcreate : createAccountableFileCommitmentAuto sha dalek merkle leafOf coins fileId fileData
      filePublicKey = some file) (hsmall : fileData.bytes.length ≤ fullAuditFileBytes.toNat)
    (challengeNonce : Bytes 32) (confidence : F) :
    (deriveChallengeIndices sha challengeIndexDomain challengeNonce file.commitment.numBlocks
      (expectedChallengeCount ops file.commitment confidence)).isSome := by
  rcases Option.bind_eq_some_iff.mp hcreate with ⟨pairs, -, hrest⟩
  rcases Option.bind_eq_some_iff.mp hrest with ⟨root, -, hfile⟩
  have hsize : file.commitment.fileSize ≤ fullAuditFileBytes := by
    cases hfile
    rw [UInt64.le_iff_toNat_le, UInt64.toNat_ofNat_of_lt' fileData.length_lt]
    exact hsmall
  by_cases hzero : file.commitment.numBlocks = 0
  · rw [deriveChallengeIndices, if_pos (Or.inl hzero)]
    rfl
  · have hcount : expectedChallengeCount ops file.commitment confidence =
        file.commitment.numBlocks.toNat := by
      rw [expectedChallengeCount, if_neg hzero, if_pos hsize]
    rw [deriveChallengeIndices]
    split
    · rfl
    · simp only [hcount, min_self, if_true, Option.isSome_some]

/-- A file whose chunks all encode is committed to; and if the sampling ends, the proof for
as many challenges as are expected is made, and accepted with that confidence. -/
theorem accountableFile_complete (merkle : MerkleHashes D) (leafOf : PackedBlock R → D)
    (hh : privatePlaintextH sha dalek ≠ 0) {fileData : ByteSlice} (hne : fileData.bytes ≠ [])
    (hencodes : ∀ group ∈ chunks accountablePackedBlockPayloadSize fileData.bytes,
      ∀ chunk ∈ chunks accountablePointPayloadSize group,
        ∃ point, encodeChunkToPoint sha dalek chunk = .ok point)
    (hkey : filePublicKey ≠ 0) (coins : AccountableFileCoins) (fileId challengeNonce : Bytes 32)
    (proofContext : List UInt8) (confidence : F) (alphaR alphaS : DalekScalar) :
    ∃ file, createAccountableFileCommitmentAuto sha dalek merkle leafOf coins fileId fileData
        filePublicKey = some file ∧
      ((deriveChallengeIndices sha challengeIndexDomain challengeNonce file.commitment.numBlocks
          (expectedChallengeCount ops file.commitment confidence)).isSome →
        ∃ proof, createAccountableFileProof sha dalek merkle file.commitment.fileId
            file.publicBlocks file.leaves file.commitment.rootHash challengeNonce
            (expectedChallengeCount ops file.commitment confidence) filePublicKey file.witnesses
            proofContext alphaR alphaS = some proof ∧
          verifyAccountableFileProofWithConfidence sha dalek merkle leafOf
            (fun commitment => expectedChallengeCount ops commitment confidence) proof
            file.commitment challengeNonce filePublicKey proofContext = some true) := by
  rcases createAccountableFile_ok hne hencodes with ⟨file, hcreate, hfile⟩
  refine ⟨file, hcreate, fun hends => ?_⟩
  rcases Option.isSome_iff_exists.mp hends with ⟨indices, hindices⟩
  have hpos : 0 < file.commitment.numBlocks.toNat := by
    rw [hfile.count]
    exact List.length_pos_of_ne_nil hfile.nonempty
  have hnonzero : file.commitment.numBlocks ≠ 0 := fun hzero =>
    absurd hpos (by rw [hzero]; decide)
  rcases expectedChallengeCount_bounds ops hnonzero confidence with ⟨hone, hmost⟩
  rcases deriveChallengeIndices_sampled hpos hone hindices with ⟨hsampled, hlen⟩
  rw [Nat.min_eq_left hmost] at hlen
  -- prover and verifier name the number of blocks in two ways
  have hnum : UInt64.ofNat file.publicBlocks.length = file.commitment.numBlocks := by
    rw [← hfile.count, UInt64.ofNat_toNat]
  rcases createAccountableFileProof_ok hfile (hnum ▸ hindices)
    (fun idx hidx => hfile.count ▸ hsampled.in_range idx hidx) file.commitment.fileId proofContext
    alphaR alphaS with ⟨blocks, witnesses, hproof, hpresented, hhonest⟩
  have hcount : blocks.length = expectedChallengeCount ops file.commitment confidence :=
    hpresented.length_eq.symm.trans hlen
  have hblocks : blocks ≠ [] := by
    rw [← List.length_pos_iff_ne_nil, hcount]
    exact hone
  refine ⟨_, hproof, ?_⟩
  rw [verifyAccountableFileProofWithConfidence, if_neg (not_not.mpr hcount)]
  refine verifyAccountableFileProof_ok hfile.version rfl rfl (hcount.trans_le hmost) hblocks
    (hcount ▸ hindices) (challengedBlocksHold_of_presented hfile hpresented) ?_
  exact accountableVerify_prove hh hkey hblocks hhonest proofContext alphaR alphaS

end Complete

section Example

/-- Exact arithmetic in the place of `f64`. -/
def exactOps : FloatOps ℚ where
  lit := id
  ofU64 := fun n => n.toNat
  toU64 := fun q => UInt64.ofNat q.floor.toNat
  isFinite := fun _ => true
  mul := fun a b => a * b
  div := fun a b => a / b
  sub := fun a b => a - b
  ceil := fun q => q.ceil
  clamp := fun q low high => max low (min q high)
  le := fun a b => decide (a ≤ b)

/-- Three bytes. -/
def threeBytes : ByteSlice := ⟨[7, 8, 9], by decide⟩

/-- The encoding of a canonical number is the one that the number was decoded from. -/
theorem lineDalek_encodes {bytes : Bytes 32} (hlt : LittleEndian.leNat bytes.toList < dalekOrder) :
    ∃ point, lineDalek.decompress bytes = some point ∧ lineDalek.compress point = bytes := by
  refine ⟨(LittleEndian.leNat bytes.toList : DalekScalar), if_pos hlt, ?_⟩
  show leArray 32 ((LittleEndian.leNat bytes.toList : DalekScalar)).val = bytes
  rw [ZMod.val_natCast_of_lt hlt, leArray_leNat]

/-- A chunk encodes whose first candidate is canonical. -/
theorem line_encodes {chunk : List UInt8} (hlen : chunk.length ≤ reversiblePointPayloadSize)
    (hlt : LittleEndian.leNat (encodeCandidate lineSha (paddedPayload chunk) 0).toList <
      dalekOrder) : ∃ point, encodeChunkToPoint lineSha lineDalek chunk = .ok point := by
  rcases lineDalek_encodes hlt with ⟨point, hpoint, hcanonical⟩
  exact ⟨point, encodeChunkToPoint_ok.mpr ⟨hlen, encodeAttempts_succ 999999 hpoint hcanonical⟩⟩

theorem threeBytes_encodes :
    ∃ point, encodeChunkToPoint lineSha lineDalek [7, 8, 9] = .ok point :=
  line_encodes (by decide) (by decide +kernel)

/-- Five hundred bytes, which are two packed blocks. -/
def twoBlocks : ByteSlice := ⟨List.replicate 500 7, by rw [List.length_replicate]; decide⟩

theorem length_twoBlocks : twoBlocks.bytes.length = 500 := List.length_replicate

theorem twoBlocks_encode :
    ∀ group ∈ chunks accountablePackedBlockPayloadSize twoBlocks.bytes,
      ∀ chunk ∈ chunks accountablePointPayloadSize group,
        ∃ point, encodeChunkToPoint lineSha lineDalek chunk = .ok point := by
  have hchunks : ∀ group ∈ chunks accountablePackedBlockPayloadSize twoBlocks.bytes,
      ∀ chunk ∈ chunks accountablePointPayloadSize group,
        chunk = List.replicate 17 7 ∨ chunk = List.replicate 7 7 := by decide +kernel
  intro group hgroup chunk hchunk
  rcases hchunks group hgroup chunk hchunk with rfl | rfl
  · exact line_encodes (by decide) (by decide +kernel)
  · exact line_encodes (by decide) (by decide +kernel)

theorem accountableFile_complete_two :
    ∃ file proof, createAccountableFileCommitmentAuto lineSha lineDalek lineMerkle (fun _ => 5)
        ⟨fun _ => 2, fun _ _ => 3, 4⟩ (leArray 32 1) twoBlocks (3 : DalekScalar) = some file ∧
      createAccountableFileProof lineSha lineDalek lineMerkle file.commitment.fileId
        file.publicBlocks file.leaves file.commitment.rootHash (leArray 32 2)
        (expectedChallengeCount exactOps file.commitment (9 / 10)) (3 : DalekScalar) file.witnesses
        [1] 6 7 = some proof ∧
      verifyAccountableFileProofWithConfidence lineSha lineDalek lineMerkle (fun _ => 5)
        (fun commitment => expectedChallengeCount exactOps commitment (9 / 10)) proof
        file.commitment (leArray 32 2) (3 : DalekScalar) [1] = some true := by
  have hh : privatePlaintextH lineSha lineDalek ≠ 0 := by
    rw [privatePlaintextH_line]
    exact one_ne_zero
  have hkey : (3 : DalekScalar) ≠ 0 := by decide +kernel
  rcases accountableFile_complete exactOps lineMerkle (fun _ => 5) hh (by decide)
    twoBlocks_encode hkey ⟨fun _ => 2, fun _ _ => 3, 4⟩ (leArray 32 1) (leArray 32 2) [1] (9 / 10)
    6 7 with ⟨file, hcreate, haccepted⟩
  rcases haccepted (deriveChallengeIndices_small exactOps hcreate
    (by rw [length_twoBlocks]; decide) _ _) with ⟨proof, hproof, hverify⟩
  exact ⟨file, proof, hcreate, hproof, hverify⟩

end Example

end Ebut
