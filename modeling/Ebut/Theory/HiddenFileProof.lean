import Ebut.Core.HiddenFileProof
import Ebut.Theory.AuditPolicy
import Ebut.Theory.FileDecryption
import Ebut.Theory.Option1Decryption

/-!
# Private and Option 1 Files Go Through

A private file and an Option 1 file are made, proved, verified and decrypted. The blocks that
are presented are the committed ones at the sampled positions, and the witnesses are those at
the same positions, so that each witness opens the block beside it, and the aggregate of the
witnesses opens that of the blocks.

The verifier samples by the number of blocks that it is sent, which is the number that the
prover was asked for, since the expected count is never above the number of blocks.

## Main definitions

* `PresentedBlock`: What is presented for a position.
* `PrivateOpens`, `Option1Honest`: A block and the witness that was made with it.
* `Option1Made`: What is made for an Option 1 file.

## Theorems

* `presentBlocks_sampled`: What is presented for the sampled positions.
* `challengedBlocksHold_of_presentBlocks`: It passes the loop of the verifier.
* `aggregatePrivate_of_open`: The two loops over a private proof stay in step.
* `hiddenPlaintextVerify_prove`: The private batch proof is complete.
* `privateFile_complete`: A private file is proved and decrypted.
* `option1Block_honest`: Every block made has one to sixteen points, and its witness opens it.
* `option1File_complete`: An Option 1 file is proved and decrypted.
-/

namespace Ebut

open Blocks MerkleTree

variable {R D : Type} [AddCommGroup R] [Module DalekScalar R] {sha : Sha2} {dalek : Dalek R}
  {merkle : MerkleHashes D}

section Present

variable {B W : Type} {publicBlocks : List B} {leaves : List D}

/-- What is presented for a position: the committed block, with the path of its leaf. -/
structure PresentedBlock (merkle : MerkleHashes D) (publicBlocks : List B) (leaves : List D)
    (idx : UInt64) (b : ChallengedBlock B D) : Prop where
  index : b.index = idx
  block : publicBlocks[idx.toNat]? = some b.block
  path : b.merklePath = merklePathFromTree (buildMerkleTree merkle leaves) idx.toNat

/-- For positions of the file the loop ends, and each block comes with its witness. -/
theorem presentBlocks_ok {Good : B → W → Prop} {witnesses : List W}
    (hgood : List.Forall₂ Good publicBlocks witnesses) (leaves : List D) {indices : List UInt64}
    (hrange : ∀ idx ∈ indices, idx.toNat < publicBlocks.length) :
    ∃ blocks selected, presentBlocks merkle publicBlocks leaves indices = some blocks ∧
      (indices.mapM fun idx => witnesses[idx.toNat]?) = some selected ∧
      List.Forall₂ (PresentedBlock merkle publicBlocks leaves) indices blocks ∧
      List.Forall₂ (fun (b : ChallengedBlock B D) witness => Good b.block witness) blocks
        selected := by
  have hlen := hgood.length_eq
  rcases exists_mapM_eq_some (l := indices) (f := fun idx => do
    let block ← publicBlocks[idx.toNat]?
    return (⟨idx, block, merklePathFromTree (buildMerkleTree merkle leaves) idx.toNat⟩ :
      ChallengedBlock B D)) fun idx hidx =>
        ⟨_, by rw [List.getElem?_eq_getElem (hrange idx hidx)]; rfl⟩ with ⟨blocks, hblocks⟩
  rcases exists_mapM_eq_some (l := indices) (f := fun idx => witnesses[idx.toNat]?)
    fun idx hidx => ⟨_, List.getElem?_eq_getElem (hlen ▸ hrange idx hidx)⟩ with
    ⟨selected, hselected⟩
  have hpresented : List.Forall₂ (PresentedBlock merkle publicBlocks leaves) indices blocks := by
    refine (mapM_eq_some.mp hblocks).imp fun idx b hb => ?_
    rcases Option.bind_eq_some_iff.mp hb with ⟨block, hblock, hb⟩
    cases hb
    exact ⟨rfl, hblock, rfl⟩
  refine ⟨blocks, selected, hblocks, hselected, hpresented, ?_⟩
  refine forall₂_of_common (fun idx b witness hb hwitness => ?_) hpresented
    (mapM_eq_some.mp hselected)
  -- the block and the witness are those of one position
  rcases List.getElem?_eq_some_iff.mp hb.block with ⟨hi, hblock⟩
  rcases List.getElem?_eq_some_iff.mp hwitness with ⟨hj, hwit⟩
  have hpair := hgood.get hi hj
  simp only [List.get_eq_getElem] at hpair
  rwa [hblock, hwit] at hpair

/-- The presented blocks pass the loop over the expected positions. -/
theorem challengedBlocksHold_of_presentBlocks [DecidableEq D] {leafOf : B → D} {root : D}
    (hroot : rootOf (buildMerkleTree merkle (publicBlocks.map leafOf)) = some root)
    {indices : List UInt64} {blocks : List (ChallengedBlock B D)}
    (hblocks : List.Forall₂ (PresentedBlock merkle publicBlocks (publicBlocks.map leafOf)) indices
      blocks) :
    challengedBlocksHold merkle leafOf root blocks indices = true := by
  unfold challengedBlocksHold
  simp only [List.all_eq_true, Bool.and_eq_true, decide_eq_true_eq]
  rintro ⟨b, idx⟩ hmem
  have hb := (List.forall₂_iff_zip.mp hblocks.flip).2 hmem
  refine ⟨hb.index, ?_⟩
  have hleaf : (publicBlocks.map leafOf)[idx.toNat]? = some (leafOf b.block) := by
    rw [List.getElem?_map, hb.block, Option.map_some]
  rw [hb.path]
  exact verifyMerklePath_complete hroot hleaf _

variable (merkle) in
/-- For a number of challenges between one and the number of blocks, as many blocks are presented
as are asked for, whichever way the number of blocks is written. -/
theorem presentBlocks_sampled {Good : B → W → Prop} {witnesses : List W}
    (hgood : List.Forall₂ Good publicBlocks witnesses) (leaves : List D) {domain : String}
    {challengeNonce : Bytes 32} {numBlocks : UInt64} {count : ℕ} {indices : List UInt64}
    (hnum : numBlocks.toNat = publicBlocks.length) (hone : 1 ≤ count)
    (hmost : count ≤ numBlocks.toNat)
    (hindices : deriveChallengeIndices sha domain challengeNonce numBlocks count =
      some indices) :
    ∃ blocks selected, deriveChallengeIndices sha domain challengeNonce
        (UInt64.ofNat publicBlocks.length) count = some indices ∧
      presentBlocks merkle publicBlocks leaves indices = some blocks ∧
      (indices.mapM fun idx => witnesses[idx.toNat]?) = some selected ∧
      blocks.length = count ∧
      List.Forall₂ (PresentedBlock merkle publicBlocks leaves) indices blocks ∧
      List.Forall₂ (fun (b : ChallengedBlock B D) witness => Good b.block witness) blocks
        selected := by
  rcases deriveChallengeIndices_sampled (hone.trans hmost) hone hindices with ⟨hsampled, hlen⟩
  rw [Nat.min_eq_left hmost] at hlen
  rcases presentBlocks_ok hgood leaves fun idx hidx => hnum ▸ hsampled.in_range idx hidx with
    ⟨blocks, selected, hblocks, hselected, hpresented, hopened⟩
  refine ⟨blocks, selected, ?_, hblocks, hselected, ?_, hpresented, hopened⟩
  · rw [← hnum, UInt64.ofNat_toNat, hindices]
  · exact hpresented.length_eq.symm.trans hlen

/-- Nothing is sampled for a file that is challenged whole. -/
theorem deriveChallengeIndices_whole {domain : String} {challengeNonce : Bytes 32}
    {numBlocks : UInt64} {count : ℕ} (hall : numBlocks ≠ 0 → count = numBlocks.toNat) :
    (deriveChallengeIndices sha domain challengeNonce numBlocks count).isSome := by
  unfold deriveChallengeIndices
  by_cases hzero : numBlocks = 0
  · rw [if_pos (Or.inl hzero)]
    rfl
  · rw [hall hzero]
    split
    · rfl
    · simp only [min_self, if_true, Option.isSome_some]

end Present

section Private

variable {filePublicKey : R}

/-- A block of a private file and the witness that was made with it. -/
def PrivateOpens (sha : Sha2) (dalek : Dalek R) (filePublicKey : R)
    (block : PrivateCiphertextBlock R) (witness : PrivateFileWitnessBlock) : Prop :=
  block.c1 = witness.encryptionRandomness • dalek.basepoint ∧
    block.c2 - block.plaintextCommitment = witness.encryptionRandomness • filePublicKey -
      witness.commitmentBlinding • privatePlaintextH sha dalek

/-- The loops over the statement and over the witness stay in step. By induction over the
blocks; both end where no coefficients are left. -/
theorem aggregatePrivate_of_open {blocks : List (ChallengedBlock (PrivateCiphertextBlock R) D)}
    {witnesses : List PrivateFileWitnessBlock}
    (hopen : List.Forall₂ (fun (b : ChallengedBlock (PrivateCiphertextBlock R) D) witness =>
      PrivateOpens sha dalek filePublicKey b.block witness) blocks witnesses)
    (coeffs : List DalekScalar) :
    AggregateOpens (accountableBases sha dalek filePublicKey)
      (aggregatePrivateStatement blocks coeffs)
      (aggregatePrivateWitness coeffs blocks witnesses) := by
  unfold aggregatePrivateStatement aggregatePrivateWitness
  have hstart : AggregateOpens (accountableBases sha dalek filePublicKey) (0, 0) (0, 0) :=
    ⟨(zero_smul _ _).symm, by rw [zero_smul, zero_smul, add_zero]⟩
  generalize ((0, 0) : R × R) = statement at hstart ⊢
  generalize ((0, 0) : DalekScalar × DalekScalar) = scalars at hstart ⊢
  induction hopen generalizing coeffs statement scalars with
  | nil =>
      rw [List.zip_nil_left, List.zip_nil_right]
      exact hstart
  | cons hblock _ ih =>
      cases coeffs with
      | nil => exact hstart
      | cons rho coeffs =>
          rcases hblock with ⟨hc1, hd⟩
          rcases hstart with ⟨hstmt1, hstmt2⟩
          refine ih coeffs _ _ ⟨?_, ?_⟩
          · simp only [hstmt1, hc1, accountableBases]
            module
          · simp only [hstmt2, hd, accountableBases]
            module

/-- The batch proof made with witnesses that open the presented blocks is accepted. -/
theorem hiddenPlaintextVerify_prove [DecidableEq R] (hh : privatePlaintextH sha dalek ≠ 0)
    (hkey : filePublicKey ≠ 0) {blocks : List (ChallengedBlock (PrivateCiphertextBlock R) D)}
    {witnesses : List PrivateFileWitnessBlock} (hne : blocks ≠ [])
    (hopen : List.Forall₂ (fun (b : ChallengedBlock (PrivateCiphertextBlock R) D) witness =>
      PrivateOpens sha dalek filePublicKey b.block witness) blocks witnesses)
    (proofContext : List UInt8) (alphaR alphaS : DalekScalar) :
    hiddenPlaintextVerify sha dalek proofContext filePublicKey blocks
      (hiddenPlaintextProve sha dalek proofContext filePublicKey blocks witnesses alphaR alphaS) =
        true := by
  rcases aggregatePrivate_of_open hopen
    (derivePrivateBatchCoefficients sha dalek blocks proofContext filePublicKey) with ⟨hc1, hd⟩
  unfold hiddenPlaintextVerify
  simp only [List.isEmpty_eq_false_iff.mpr hne, decide_eq_false hkey, decide_eq_false hh,
    Bool.false_or, Bool.false_eq_true, if_false, Bool.and_eq_true, decide_eq_true_eq]
  refine ⟨?_, ?_⟩
  · simp only [hiddenPlaintextProve, hc1, accountableBases]
    module
  · simp only [hiddenPlaintextProve, hd, accountableBases]
    module

variable {leafOf : PrivateCiphertextBlock R → D} {coins : PrivateFileCoins} {fileId : Bytes 32}
  {fileData : ByteSlice}

/-- What a private file consists of, whenever one is made. -/
theorem createPrivateFile_opens {file : PrivateFile R D}
    (hcreate : createPrivateFileCommitmentAuto sha dalek merkle leafOf coins fileId fileData
      filePublicKey = some file) :
    List.Forall₂ (PrivateOpens sha dalek filePublicKey) file.publicBlocks file.witnesses ∧
      file.leaves = file.publicBlocks.map leafOf ∧
      rootOf (buildMerkleTree merkle file.leaves) = some file.commitment.rootHash := by
  unfold createPrivateFileCommitmentAuto createPrivateFileCommitment at hcreate
  rw [chunks_not_large] at hcreate
  rcases Option.bind_eq_some_iff.mp hcreate with ⟨parts, hparts, hfile⟩
  rcases Option.bind_eq_some_iff.mp hparts with ⟨pairs, hpairs, hrest⟩
  rcases Option.bind_eq_some_iff.mp hrest with ⟨root, hroot, hmade⟩
  cases hmade
  cases hfile
  refine ⟨?_, rfl, hroot⟩
  rw [List.forall₂_map_left_iff, List.forall₂_map_right_iff, List.forall₂_same]
  intro pair hpair
  rcases exists_of_mem_mapM hpairs hpair with ⟨⟨chunk, i⟩, -, hblock⟩
  rcases Option.bind_eq_some_iff.mp hblock with ⟨m, -, hblock⟩
  cases hblock
  refine ⟨rfl, ?_⟩
  show m + coins.r i • filePublicKey - (m + coins.s i • privatePlaintextH sha dalek) = _
  module

variable [DecidableEq R] [DecidableEq D]

/-- The verifier accepts when nothing that it compares differs and both of its parts hold. -/
theorem verifyPrivateFileProof_ok {proof : PrivateFileProof R D}
    {storedCommitment : FileCommitment D} {challengeNonce : Bytes 32} {proofContext : List UInt8}
    {indices : List UInt64} (hid : proof.fileId = storedCommitment.fileId)
    (hroot : proof.rootHash = storedCommitment.rootHash)
    (hversion : storedCommitment.encodingVersion = reversiblePointEncodingV1)
    (hsize : storedCommitment.blockSize = UInt64.ofNat reversiblePointPayloadSize)
    (hlen : proof.blocks.length ≤ storedCommitment.numBlocks.toNat) (hne : proof.blocks ≠ [])
    (hindices : deriveChallengeIndices sha challengeIndexDomain challengeNonce
      storedCommitment.numBlocks proof.blocks.length = some indices)
    (hblocks : challengedBlocksHold merkle leafOf storedCommitment.rootHash proof.blocks indices =
      true)
    (hbatch : hiddenPlaintextVerify sha dalek proofContext filePublicKey proof.blocks
      proof.batchProof = true) :
    verifyPrivateFileProof sha dalek merkle leafOf proof storedCommitment challengeNonce
      filePublicKey proofContext = some true := by
  have hfits : ¬(storedCommitment.blockSize = 0 ∨
      storedCommitment.blockSize.toNat > reversiblePointPayloadSize) := by
    rw [hsize]
    decide
  have hempty : ¬(storedCommitment.numBlocks > 0 ∧ proof.blocks.isEmpty) := fun h =>
    hne (List.isEmpty_iff.mp h.2)
  unfold verifyPrivateFileProof
  rw [if_neg (by rw [hid, hroot]; simp), if_neg (not_not.mpr hversion), if_neg hfits,
    if_neg (not_lt.mpr hlen), if_neg hempty, hindices]
  simp only [Option.bind_eq_bind, Option.bind_some, hblocks, hbatch]
  rfl

variable {F : Type} (ops : FloatOps F)

omit [DecidableEq R] [DecidableEq D] in
/-- A small file is challenged whole, and nothing is sampled for it. -/
theorem privateFile_small {file : PrivateFile R D}
    (hcreate : createPrivateFileCommitmentAuto sha dalek merkle leafOf coins fileId fileData
      filePublicKey = some file) (hsmall : fileData.bytes.length ≤ fullAuditFileBytes.toNat)
    (challengeNonce : Bytes 32) (confidence : F) :
    (deriveChallengeIndices sha challengeIndexDomain challengeNonce file.commitment.numBlocks
      (expectedChallengeCount ops file.commitment confidence)).isSome := by
  have hsize : file.commitment.fileSize ≤ fullAuditFileBytes := by
    unfold createPrivateFileCommitmentAuto createPrivateFileCommitment at hcreate
    rw [chunks_not_large] at hcreate
    rcases Option.bind_eq_some_iff.mp hcreate with ⟨parts, -, hfile⟩
    cases hfile
    rw [UInt64.le_iff_toNat_le, pointBlocksCommitment_fileSize]
    exact hsmall
  refine deriveChallengeIndices_whole fun hnonzero => ?_
  rw [expectedChallengeCount, if_neg hnonzero, if_pos hsize]

/-- A file whose chunks all encode is committed to and decrypted to itself; and if the sampling
ends, the proof for as many challenges as are expected is made, and accepted with that
confidence. -/
theorem privateFile_complete (merkle : MerkleHashes D) (leafOf : PrivateCiphertextBlock R → D)
    (hh : privatePlaintextH sha dalek ≠ 0) {fileData : ByteSlice} (hne : fileData.bytes ≠ [])
    (hencodes : ChunksEncode sha dalek fileData) {x : DalekScalar} (hkey : x • dalek.basepoint ≠ 0)
    (coins : PrivateFileCoins) (fileId challengeNonce : Bytes 32) (proofContext : List UInt8)
    (confidence : F) (alphaR alphaS : DalekScalar) :
    ∃ file, createPrivateFileCommitmentAuto sha dalek merkle leafOf coins fileId fileData
        (x • dalek.basepoint) = some file ∧
      decryptPrivateFileFromCiphertexts dalek file.publicBlocks file.commitment x =
        .ok fileData.bytes ∧
      ((deriveChallengeIndices sha challengeIndexDomain challengeNonce file.commitment.numBlocks
          (expectedChallengeCount ops file.commitment confidence)).isSome →
        ∃ proof, createPrivateFileProof sha dalek merkle file.commitment.fileId file.publicBlocks
            file.leaves file.commitment.rootHash challengeNonce
            (expectedChallengeCount ops file.commitment confidence) (x • dalek.basepoint)
            file.witnesses proofContext alphaR alphaS = some proof ∧
          verifyPrivateFileProofWithConfidence sha dalek merkle leafOf
            (fun commitment => expectedChallengeCount ops commitment confidence) proof
            file.commitment challengeNonce (x • dalek.basepoint) proofContext = some true) := by
  rcases createPrivateFile_encrypts merkle leafOf coins fileId hencodes with
    ⟨file, root, hcreate, hcommitment, hciphers⟩
  rcases createPrivateFile_opens hcreate with ⟨hopens, hleaves, hroot⟩
  refine ⟨file, hcreate, ?_, fun hends => ?_⟩
  · rw [decryptPrivateFileFromCiphertexts, hcommitment]
    exact decryptFile_of_encrypts hciphers root coins.nonce
  rcases Option.isSome_iff_exists.mp hends with ⟨indices, hindices⟩
  -- as many blocks as chunks, and a file with bytes has a chunk
  have hlen : (chunks reversiblePointPayloadSize fileData.bytes).length =
      file.publicBlocks.length := hciphers.length_eq.trans (List.length_map _)
  have hnum : file.commitment.numBlocks.toNat = file.publicBlocks.length := by
    rw [hcommitment, ← hlen]
    exact UInt64.toNat_ofNat_of_lt' (fileData.length_chunks_lt (by decide))
  have hnonzero : file.commitment.numBlocks ≠ 0 := by
    intro hzero
    have hpos := List.length_pos_of_ne_nil
      (chunks_ne_nil (n := reversiblePointPayloadSize) (by decide) hne)
    rw [hlen, ← hnum, hzero] at hpos
    exact absurd hpos (by decide)
  rcases expectedChallengeCount_bounds ops hnonzero confidence with ⟨hone, hmost⟩
  rcases presentBlocks_sampled merkle hopens file.leaves hnum hone hmost hindices with
    ⟨blocks, selected, hsampled, hblocks, hselected, hcount, hpresented, hopened⟩
  have hsome : blocks ≠ [] := by
    rw [← List.length_pos_iff_ne_nil, hcount]
    exact hone
  refine ⟨_, Option.bind_eq_some_iff.mpr ⟨indices, hsampled, Option.bind_eq_some_iff.mpr
    ⟨blocks, hblocks, Option.bind_eq_some_iff.mpr ⟨selected, hselected, rfl⟩⟩⟩, ?_⟩
  rw [verifyPrivateFileProofWithConfidence, if_neg (not_not.mpr hcount)]
  refine verifyPrivateFileProof_ok rfl rfl (by rw [hcommitment]; rfl) (by rw [hcommitment]; rfl)
    (hcount.trans_le hmost) hsome (hcount ▸ hindices) ?_
    (hiddenPlaintextVerify_prove hh hkey hsome hopened proofContext alphaR alphaS)
  rw [hleaves] at hroot hpresented
  exact challengedBlocksHold_of_presentBlocks hroot hpresented

/-- A proof of three blocks. -/
theorem privateFile_complete_three :
    ∃ file proof, createPrivateFileCommitmentAuto lineSha lineDalek lineMerkle (fun _ => 5)
        ⟨fun _ => 2, fun _ => 3, 4⟩ (leArray 32 1) threeChunks
        ((3 : DalekScalar) • lineDalek.basepoint) = some file ∧
      createPrivateFileProof lineSha lineDalek lineMerkle file.commitment.fileId file.publicBlocks
        file.leaves file.commitment.rootHash (leArray 32 2)
        (expectedChallengeCount exactOps file.commitment (9 / 10))
        ((3 : DalekScalar) • lineDalek.basepoint) file.witnesses [1] 6 7 = some proof ∧
      verifyPrivateFileProofWithConfidence lineSha lineDalek lineMerkle (fun _ => 5)
        (fun commitment => expectedChallengeCount exactOps commitment (9 / 10)) proof
        file.commitment (leArray 32 2) ((3 : DalekScalar) • lineDalek.basepoint) [1] =
          some true := by
  have hh : privatePlaintextH lineSha lineDalek ≠ 0 := by
    rw [privatePlaintextH_line]
    exact one_ne_zero
  have hkey : (3 : DalekScalar) • lineDalek.basepoint ≠ 0 := by decide +kernel
  rcases privateFile_complete exactOps lineMerkle (fun _ => 5) hh (by decide)
    threeChunks_chunksEncode hkey ⟨fun _ => 2, fun _ => 3, 4⟩ (leArray 32 1) (leArray 32 2) [1]
    (9 / 10) 6 7 with ⟨file, hcreate, -, haccepted⟩
  rcases haccepted (privateFile_small exactOps hcreate (by decide) _ _) with
    ⟨proof, hproof, hverify⟩
  exact ⟨file, proof, hcreate, hproof, hverify⟩

end Private

section Option1

variable {C : Type} {library : ElligatorLibrary C} {point : C → R} {fileId : Bytes 32}
  {fileBase filePublicKey commitmentBase : R}

/-- A block passes the structural check, and its witness opens it under the bases of a
commitment. -/
def Option1Honest (bases : BatchBases R) (block : Option1CiphertextBlock R)
    (witness : WitnessBlock) : Prop :=
  packedBlockOk option1PointPayloadSize block.toPackedBlock = true ∧
    BlockOpens bases block.toPackedBlock witness

/-- Every block made for a group of the file is honest. -/
theorem option1Block_honest (hlibrary : LawfulLibrary dalek library point) {r : DalekScalar}
    {s : ℕ → DalekScalar} {b : ℕ} {group : List UInt8} (hne : group ≠ [])
    (hlen : group.length ≤ option1BlockPayloadSize)
    {pair : Option1CiphertextBlock R × WitnessBlock}
    (hmade : option1Block sha dalek (some library) fileId fileBase filePublicKey commitmentBase r s
      b group = .ok pair) :
    Option1Honest ⟨fileBase, filePublicKey, commitmentBase⟩ pair.1 pair.2 := by
  have hpos : 0 < option1PointPayloadSize := by decide
  rcases bind_eq_ok.mp hmade with ⟨encs, hencs, hmade⟩
  rcases bind_eq_ok.mp hmade with ⟨packed, -, hmade⟩
  cases hmade
  have hturns := mapM_eq_ok.mp hencs
  have hcount := hturns.length_eq
  have hsome : 0 < (chunks option1PointPayloadSize group).length :=
    List.length_pos_of_ne_nil (chunks_ne_nil hpos hne)
  have hmany : (chunks option1PointPayloadSize group).length ≤ option1PointsPerBlock :=
    length_chunks_le hlen
  refine ⟨packedBlockOk_iff.mpr ⟨⟨?_, ?_, ?_⟩, ?_⟩, rfl, ?_⟩
  · rw [List.length_map, ← hcount]
    exact ⟨hsome, hmany⟩
  · rw [List.length_map, List.length_map]
  · -- the length of a chunk is the one that its encoding has
    intro l hl
    rcases List.mem_map.mp hl with ⟨enc, henc, rfl⟩
    rcases List.mem_iff_getElem.mp henc with ⟨i, hi, rfl⟩
    have hmem := List.getElem_mem (hcount ▸ hi)
    rcases mem_chunks hpos hmem with ⟨hcne, hclen⟩
    rcases encodeChunk_codes hlibrary hclen with ⟨enc, henc, hcodes⟩
    have hsame := hturns.get (hcount ▸ hi) hi
    simp only [List.get_eq_getElem] at hsame
    rw [henc] at hsame
    cases hsame
    have hcpos := List.length_pos_of_ne_nil hcne
    refine ⟨fun hzero => ?_, hcodes.len.trans_le hclen⟩
    rw [← hcodes.len, hzero] at hcpos
    exact absurd hcpos (lt_irrefl 0)
  · rw [List.length_zipWith, List.length_map, List.length_map, List.length_range, min_self]
  · have hblindings : (encs.map fun enc => enc.point).length =
        ((List.range encs.length).map s).length := by
      rw [List.length_map, List.length_map, List.length_range]
    have hopen := pointsOpen_of_encrypted ⟨fileBase, filePublicKey, commitmentBase⟩ r hblindings
    rw [List.map_map, List.zipWith_map_left] at hopen
    exact hopen

variable {leafOf : Option1CiphertextBlock R → D} {coins : Option1FileCoins}
  {fileData : ByteSlice} {serverNonce fileSalt : Bytes 32}

/-- What an Option 1 file consists of, whenever one is made. -/
structure Option1Made (merkle : MerkleHashes D) (leafOf : Option1CiphertextBlock R → D)
    (bases : BatchBases R) (fileData : ByteSlice) (file : Option1File R D) : Prop where
  bases_eq : file.commitment.bases = bases
  honest : List.Forall₂ (Option1Honest bases) file.publicBlocks file.witnesses
  leaves : file.leaves = file.publicBlocks.map leafOf
  root : rootOf (buildMerkleTree merkle (file.publicBlocks.map leafOf)) =
    some file.commitment.rootHash
  blocks : file.publicBlocks.length = (chunks option1BlockPayloadSize fileData.bytes).length
  num : file.commitment.numBlocks.toNat = file.publicBlocks.length
  size : file.commitment.fileSize.toNat = fileData.bytes.length
  payload : file.commitment.pointPayloadSize.toNat = option1PointPayloadSize
  points : file.commitment.pointsPerBlock.toNat = option1PointsPerBlock
  version : file.commitment.encodingVersion = option1FileEncodingV3

theorem createOption1File_made (hlibrary : LawfulLibrary dalek library point)
    {file : Option1File R D}
    (hcreate : createOption1FileCommitmentAuto sha dalek (some library) merkle leafOf coins fileId
      fileData fileBase filePublicKey serverNonce fileSalt = .ok file) :
    Option1Made merkle leafOf ⟨fileBase, filePublicKey,
      deriveOption1CommitmentBase sha dalek fileId fileBase filePublicKey⟩ fileData file := by
  unfold createOption1FileCommitmentAuto at hcreate
  simp only at hcreate
  split at hcreate
  · exact absurd hcreate (by simp only [reduceCtorEq, not_false_iff])
  rename_i pairs hpairs
  cases hcreate
  have hturns := mapM_eq_ok.mp hpairs
  have hcount : pairs.length = (chunks option1BlockPayloadSize fileData.bytes).length := by
    rw [← hturns.length_eq, List.length_zipIdx]
  refine ⟨rfl, ?_, rfl, (Option.some_get _).symm, ?_, ?_, ?_, rfl, rfl, rfl⟩
  · rw [List.forall₂_map_left_iff, List.forall₂_map_right_iff, List.forall₂_same]
    intro pair hpair
    rcases List.mem_iff_getElem.mp hpair with ⟨i, hi, rfl⟩
    have hblock := hturns.get (hturns.length_eq ▸ hi) hi
    simp only [List.get_eq_getElem] at hblock
    rcases mem_chunks (n := option1BlockPayloadSize) (by decide)
      (List.fst_mem_of_mem_zipIdx (List.getElem_mem (hturns.length_eq ▸ hi))) with ⟨hne, hlen⟩
    exact option1Block_honest hlibrary hne hlen hblock
  · rw [List.length_map, hcount]
  · refine UInt64.toNat_ofNat_of_lt' ?_
    rw [List.length_map, hcount]
    exact fileData.length_chunks_lt (by decide)
  · exact UInt64.toNat_ofNat_of_lt' fileData.length_lt

variable {F : Type} (ops : FloatOps F)

omit [AddCommGroup R] [Module DalekScalar R] in
theorem expectedOption1ChallengeCount_bounds {commitment : Option1FileCommitment R D}
    (hpos : commitment.numBlocks ≠ 0) (confidence : F) :
    1 ≤ expectedOption1ChallengeCount ops commitment confidence ∧
      expectedOption1ChallengeCount ops commitment confidence ≤ commitment.numBlocks.toNat := by
  have hnat : 1 ≤ commitment.numBlocks.toNat := Nat.one_le_iff_ne_zero.mpr fun hzero =>
    hpos (UInt64.toNat_inj.mp hzero)
  unfold expectedOption1ChallengeCount
  rw [if_neg hpos]
  by_cases hsmall : commitment.fileSize ≤ option1FullAuditFileBytes
  · rw [if_pos hsmall]
    exact ⟨hnat, le_rfl⟩
  · -- the two modules compute one count
    rw [if_neg hsmall, auditSampleCount_eq ops hpos]
    exact auditSampleCount_bounds ops hpos confidence _

/-- A small file is challenged whole, and nothing is sampled for it. -/
theorem option1File_small (hlibrary : LawfulLibrary dalek library point) {file : Option1File R D}
    (hcreate : createOption1FileCommitmentAuto sha dalek (some library) merkle leafOf coins fileId
      fileData fileBase filePublicKey serverNonce fileSalt = .ok file)
    (hsmall : fileData.bytes.length ≤ option1FullAuditFileBytes.toNat)
    (challengeNonce : Bytes 32) (confidence : F) :
    (deriveChallengeIndices sha option1ChallengeIndexDomain challengeNonce
      file.commitment.numBlocks
      (expectedOption1ChallengeCount ops file.commitment confidence)).isSome := by
  have hsize : file.commitment.fileSize ≤ option1FullAuditFileBytes := by
    rw [UInt64.le_iff_toNat_le, (createOption1File_made hlibrary hcreate).size]
    exact hsmall
  refine deriveChallengeIndices_whole fun hnonzero => ?_
  rw [expectedOption1ChallengeCount, if_neg hnonzero, if_pos hsize]

variable [DecidableEq R] [DecidableEq D]

omit [DecidableEq D] in
/-- The batch proof made with witnesses of honest blocks is accepted. -/
theorem option1Verify_prove {commitment : Option1FileCommitment R D}
    (hbase : commitment.fileBase ≠ 0) (hkey : commitment.filePublicKey ≠ 0)
    (hh : commitment.commitmentBase ≠ 0)
    {blocks : List (ChallengedBlock (Option1CiphertextBlock R) D)} {witnesses : List WitnessBlock}
    (hne : blocks ≠ [])
    (hhonest : List.Forall₂ (fun (b : ChallengedBlock (Option1CiphertextBlock R) D) witness =>
      Option1Honest commitment.bases b.block witness) blocks witnesses)
    (proofContext : List UInt8) (alphaR alphaS : DalekScalar) :
    option1Verify merkle sha dalek proofContext commitment blocks
      (option1Prove merkle sha dalek proofContext commitment blocks witnesses alphaR alphaS) =
        true := by
  rw [option1Verify_eq _ (List.isEmpty_eq_false_iff.mpr hne) hbase hkey hh]
  refine batchVerify_batchProve ?_ ?_ _ _ alphaR alphaS
  · intro block hblock
    rcases List.mem_map.mp hblock with ⟨b, hb, rfl⟩
    rcases List.mem_iff_getElem.mp hb with ⟨i, hi, rfl⟩
    exact (hhonest.get hi (hhonest.length_eq ▸ hi)).1
  · rw [List.forall₂_map_left_iff]
    exact hhonest.imp fun _ _ hpair => hpair.2

/-- The verifier accepts when nothing that it compares differs and both of its parts hold. -/
theorem verifyOption1FileProof_ok {proof : Option1FileProof R D}
    {commitment : Option1FileCommitment R D} {challengeNonce : Bytes 32}
    {proofContext : List UInt8} {indices : List UInt64}
    (hversion : commitment.encodingVersion = option1FileEncodingV3)
    (hpayload : commitment.pointPayloadSize.toNat = option1PointPayloadSize)
    (hpoints : commitment.pointsPerBlock.toNat = option1PointsPerBlock)
    (hid : proof.fileId = commitment.fileId) (hroot : proof.rootHash = commitment.rootHash)
    (hlen : proof.blocks.length ≤ commitment.numBlocks.toNat) (hne : proof.blocks ≠ [])
    (hindices : deriveChallengeIndices sha option1ChallengeIndexDomain challengeNonce
      commitment.numBlocks proof.blocks.length = some indices)
    (hblocks : challengedBlocksHold merkle leafOf commitment.rootHash proof.blocks indices = true)
    (hbatch : option1Verify merkle sha dalek proofContext commitment proof.blocks
      proof.batchProof = true) :
    verifyOption1FileProof merkle sha dalek leafOf proof commitment challengeNonce proofContext =
      some true := by
  have hempty : ¬(commitment.numBlocks > 0 ∧ proof.blocks.isEmpty) := fun h =>
    hne (List.isEmpty_iff.mp h.2)
  unfold verifyOption1FileProof
  rw [if_neg (not_not.mpr hversion), if_neg (by rw [hpayload, hpoints]; simp),
    if_neg (by rw [hid, hroot]; simp), if_neg (not_lt.mpr hlen), if_neg hempty, hindices]
  simp only [Option.bind_eq_bind, Option.bind_some, hblocks, hbatch]
  rfl

/-- Any file is committed to and decrypted to itself; and if the sampling ends, the proof for as
many challenges as are expected is made, and accepted with that confidence. -/
theorem option1File_complete (hlibrary : LawfulLibrary dalek library point)
    (merkle : MerkleHashes D) (leafOf : Option1CiphertextBlock R → D) {fileData : ByteSlice}
    (hne : fileData.bytes ≠ []) {fileId : Bytes 32} {x : DalekScalar} (hbase : fileBase ≠ 0)
    (hkey : x • fileBase ≠ 0)
    (hh : deriveOption1CommitmentBase sha dalek fileId fileBase (x • fileBase) ≠ 0)
    (coins : Option1FileCoins) (serverNonce fileSalt challengeNonce : Bytes 32)
    (proofContext : List UInt8) (confidence : F) (alphaR alphaS : DalekScalar) :
    ∃ file, createOption1FileCommitmentAuto sha dalek (some library) merkle leafOf coins fileId
        fileData fileBase (x • fileBase) serverNonce fileSalt = .ok file ∧
      decryptOption1FileFromCiphertexts sha dalek (some library) file.publicBlocks file.commitment
        x = .ok fileData.bytes ∧
      ((deriveChallengeIndices sha option1ChallengeIndexDomain challengeNonce
          file.commitment.numBlocks
          (expectedOption1ChallengeCount ops file.commitment confidence)).isSome →
        ∃ proof, createOption1FileProof sha dalek merkle file.commitment file.publicBlocks
            file.leaves challengeNonce
            (expectedOption1ChallengeCount ops file.commitment confidence) file.witnesses
            proofContext alphaR alphaS = some proof ∧
          verifyOption1FileProofWithConfidence sha dalek merkle leafOf
            (fun commitment => expectedOption1ChallengeCount ops commitment confidence) proof
            file.commitment challengeNonce proofContext = some true) := by
  rcases option1File_decrypts hlibrary merkle leafOf coins fileId fileData fileBase x serverNonce
    fileSalt with ⟨file, hcreate, hdecrypt⟩
  have hmade := createOption1File_made hlibrary hcreate
  refine ⟨file, hcreate, hdecrypt, fun hends => ?_⟩
  rcases Option.isSome_iff_exists.mp hends with ⟨indices, hindices⟩
  have hnonzero : file.commitment.numBlocks ≠ 0 := by
    intro hzero
    have hpos := List.length_pos_of_ne_nil
      (chunks_ne_nil (n := option1BlockPayloadSize) (by decide) hne)
    rw [← hmade.blocks, ← hmade.num, hzero] at hpos
    exact absurd hpos (by decide)
  rcases expectedOption1ChallengeCount_bounds ops hnonzero confidence with ⟨hone, hmost⟩
  rcases presentBlocks_sampled merkle hmade.honest file.leaves hmade.num hone hmost
    hindices with
    ⟨blocks, selected, hsampled, hblocks, hselected, hcount, hpresented, hopened⟩
  have hsome : blocks ≠ [] := by
    rw [← List.length_pos_iff_ne_nil, hcount]
    exact hone
  -- the bases that the verifier checks are those of the commitment
  have hbases := hmade.bases_eq
  unfold Option1FileCommitment.bases at hbases
  rw [BatchBases.mk.injEq] at hbases
  rcases hbases with ⟨hfileBase, hfileKey, hcommitmentBase⟩
  refine ⟨_, Option.bind_eq_some_iff.mpr ⟨indices, hsampled, Option.bind_eq_some_iff.mpr
    ⟨blocks, hblocks, Option.bind_eq_some_iff.mpr ⟨selected, hselected, rfl⟩⟩⟩, ?_⟩
  rw [verifyOption1FileProofWithConfidence, if_neg (not_not.mpr hcount)]
  refine verifyOption1FileProof_ok hmade.version hmade.payload hmade.points rfl rfl
    (hcount.trans_le hmost) hsome (hcount ▸ hindices) ?_
    (option1Verify_prove (hfileBase ▸ hbase) (hfileKey ▸ hkey) (hcommitmentBase ▸ hh) hsome
      (hmade.bases_eq ▸ hopened) proofContext alphaR alphaS)
  rw [hmade.leaves] at hpresented
  exact challengedBlocksHold_of_presentBlocks hmade.root hpresented

/-- A proof of two blocks. -/
theorem option1File_complete_two :
    ∃ file proof, createOption1FileCommitmentAuto lineSha lineDalek (some lineLibrary) lineMerkle
        (fun _ => 5) ⟨fun _ => 2, fun _ _ => 3⟩ (leArray 32 1) twoBlocks 3
        ((5 : DalekScalar) • (3 : DalekScalar)) (leArray 32 2) (leArray 32 3) = .ok file ∧
      createOption1FileProof lineSha lineDalek lineMerkle file.commitment file.publicBlocks
        file.leaves (leArray 32 2) (expectedOption1ChallengeCount exactOps file.commitment (9 / 10))
        file.witnesses [1] 6 7 = some proof ∧
      verifyOption1FileProofWithConfidence lineSha lineDalek lineMerkle (fun _ => 5)
        (fun commitment => expectedOption1ChallengeCount exactOps commitment (9 / 10)) proof
        file.commitment (leArray 32 2) [1] = some true := by
  have hbase : (3 : DalekScalar) ≠ 0 := by decide +kernel
  have hkey : (5 : DalekScalar) • (3 : DalekScalar) ≠ 0 := by decide +kernel
  have hh : deriveOption1CommitmentBase lineSha lineDalek (leArray 32 1) (3 : DalekScalar)
      ((5 : DalekScalar) • (3 : DalekScalar)) ≠ 0 := by decide +kernel
  have hne : twoBlocks.bytes ≠ [] := by decide
  rcases option1File_complete exactOps lineLibrary_lawful lineMerkle (fun _ => 5) hne
    hbase hkey hh ⟨fun _ => 2, fun _ _ => 3⟩ (leArray 32 2) (leArray 32 3) (leArray 32 2) [1]
    (9 / 10) 6 7 with ⟨file, hcreate, -, haccepted⟩
  rcases haccepted (option1File_small exactOps lineLibrary_lawful hcreate
    (by rw [length_twoBlocks]; decide) _ _) with ⟨proof, hproof, hverify⟩
  exact ⟨file, proof, hcreate, hproof, hverify⟩

end Option1

end Ebut
