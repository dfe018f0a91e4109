import Ebut.Core.FileProof
import Ebut.Theory.ChallengeCoverage
import Ebut.Theory.FileDecryption

/-!
# Honest File Proofs Are Accepted

The proof made for a file of the first format goes through, whichever of its two forms it
has. The prover decides by the number of sampled positions and the verifier by what was sent;
they agree, since one proof for all is sent when there are enough positions only, and then no
block has one of its own.

Taking the point of a block from its ciphertext leaves the mask, which is the header scaled
by the secret key. So the logarithm of every pair is the one of the tag, and that of any
combination of pairs too. The prover and the verifier combine the same pairs in the same
order, and so they hash the same coefficients.

Nothing here asks where the ciphertexts come from, except that the points shown are those of
the chunks.

## Main definitions

* `PresentedFor`: What is presented for a position.

## Theorems

* `DLEQProof.verify_prove`: A proof made with the common logarithm is accepted.
* `combinePairs_smul`: Combining pairs keeps the logarithm.
* `verifyPairs_prove`: The proof for all blocks is accepted.
* `createFileProof_ok`: What the proof contains.
* `verifyFileProof_ok`: The verifier accepts what is presented for the sampled positions.
* `fileProof_complete`: The proof for a file is accepted, and shows the points of its chunks.
-/

namespace Ebut

open Blocks MerkleTree

variable {R D : Type} [AddCommGroup R] [Module DalekScalar R] {sha : Sha2} {dalek : Dalek R}
  {x : DalekScalar}

section Logarithm

/-- A proof made with the common logarithm of two pairs is accepted. -/
theorem DLEQProof.verify_prove [DecidableEq R] {a b c d : R} (hb : b = x • a) (hd : d = x • c)
    (r : DalekScalar) :
    (DLEQProof.prove sha dalek x a b c d r).verify sha dalek a b c d = true := by
  subst hb hd
  have hanswer : ∀ (e : DalekScalar) (p : R), (r + e * x) • p - e • x • p = r • p := by
    intro e p
    rw [add_smul, mul_smul, add_sub_cancel_right]
  unfold DLEQProof.verify
  rw [Bool.and_eq_true, decide_eq_true_eq, decide_eq_true_eq]
  exact ⟨hanswer _ a, hanswer _ c⟩

/-- Combining pairs keeps their common logarithm. -/
theorem combinePairs_smul {pairs : List (R × R)} (hpairs : ∀ p ∈ pairs, p.2 = x • p.1)
    (coeffs : List DalekScalar) :
    (combinePairs pairs coeffs).2 = x • (combinePairs pairs coeffs).1 := by
  unfold combinePairs
  -- the two sums start at zero and stay in step
  have hstep : ∀ (terms : List ((R × R) × DalekScalar)) (acc : R × R),
      (∀ p ∈ terms, p.1.2 = x • p.1.1) → acc.2 = x • acc.1 →
      (terms.foldl (fun acc p => (acc.1 + p.2 • p.1.1, acc.2 + p.2 • p.1.2)) acc).2 =
        x • (terms.foldl (fun acc p => (acc.1 + p.2 • p.1.1, acc.2 + p.2 • p.1.2)) acc).1 := by
    intro terms
    induction terms with
    | nil => exact fun acc _ hacc => hacc
    | cons p terms ih =>
        intro acc hterms hacc
        rw [List.foldl_cons]
        refine ih _ (fun q hq => hterms q (List.mem_cons_of_mem p hq)) ?_
        show acc.2 + p.2 • p.1.2 = x • (acc.1 + p.2 • p.1.1)
        rw [hacc, hterms p List.mem_cons_self, smul_add, smul_comm p.2 x]
  exact hstep _ _ (fun p hp => hpairs p.1 (List.of_mem_zip hp).1) (smul_zero x).symm

/-- The proof made for the pairs of some blocks and the one of the slot is accepted. -/
theorem verifyPairs_prove [DecidableEq R] {pairs : List (R × R)}
    (hpairs : ∀ p ∈ pairs, p.2 = x • p.1) {slotGenerator tag : R} (htag : tag = x • slotGenerator)
    (r : DalekScalar) :
    verifyPairs sha dalek (provePairs sha dalek x slotGenerator tag pairs r) slotGenerator tag
      pairs = true :=
  DLEQProof.verify_prove htag
    (combinePairs_smul (List.forall_mem_cons.mpr ⟨htag, hpairs⟩) _) r

end Logarithm

section Present

variable {merkleTree : List (List D)} {ciphertexts : List (CiphertextBlock R)}
  {slotGenerator tag : R} {useBatch : Bool}

/-- What is presented for a position: the ciphertext there with its point and path, and a proof
of its own where there is none for all. -/
structure PresentedFor (sha : Sha2) (dalek : Dalek R) (x : DalekScalar)
    (ciphertexts : List (CiphertextBlock R)) (merkleTree : List (List D)) (slotGenerator tag : R)
    (useBatch : Bool) (idx : UInt64) (block : BlockProof R D) : Prop where
  index : block.index = idx
  ciphertext : ciphertexts[idx.toNat]? = some block.ciphertext
  point : block.decryptedPoint = elgamalDecryptBlock x block.ciphertext.c1 block.ciphertext.c2
  path : block.merklePath = merklePathFromTree merkleTree idx.toNat
  dleq : ∃ r, block.dleqProof = if useBatch then none
    else some (DLEQProof.prove sha dalek x slotGenerator tag block.pair.1 block.pair.2 r)

/-- The mask of a presented block is its header scaled by the secret. -/
theorem PresentedFor.pair_eq {idx : UInt64} {block : BlockProof R D}
    (hblock : PresentedFor sha dalek x ciphertexts merkleTree slotGenerator tag useBatch idx
      block) : block.pair.2 = x • block.pair.1 := by
  show block.ciphertext.c2 - block.decryptedPoint = x • block.ciphertext.c1
  rw [hblock.point, elgamalDecryptBlock, sub_sub_cancel]

/-- A turn of the loop presents a block, and keeps its pair. -/
theorem presentBlock_ok {r : DalekScalar} {idx : UInt64} {p : BlockProof R D × (R × R)}
    (hp : presentBlock sha dalek x ciphertexts merkleTree slotGenerator tag useBatch r idx =
      some p) :
    PresentedFor sha dalek x ciphertexts merkleTree slotGenerator tag useBatch idx p.1 ∧
      p.2 = p.1.pair := by
  rcases Option.bind_eq_some_iff.mp hp with ⟨cipher, hcipher, hp⟩
  cases hp
  exact ⟨⟨rfl, hcipher, rfl, rfl, r, rfl⟩, rfl⟩

/-- For positions of the file the prover presents the blocks at them, and when there are
enough, one proof for their pairs. -/
theorem createFileProof_ok (merkle : MerkleHashes D) (leaves : List D) {challengeNonce : Bytes 32}
    {numChallenges : ℕ} {indices : List UInt64}
    (hindices : deriveChallengeIndices sha challengeIndexDomain challengeNonce
      (UInt64.ofNat ciphertexts.length) numChallenges = some indices)
    (hrange : ∀ idx ∈ indices, idx.toNat < ciphertexts.length) (fileId : Bytes 32) (rootHash : D)
    (slotGenerator tag : R) (coins : FileProofCoins) :
    ∃ proof, createFileProof sha dalek merkle x fileId ciphertexts leaves rootHash challengeNonce
        numChallenges slotGenerator tag coins = some proof ∧
      proof.fileId = fileId ∧ proof.rootHash = rootHash ∧
      List.Forall₂ (PresentedFor sha dalek x ciphertexts (buildMerkleTree merkle leaves)
        slotGenerator tag (decide (indices.length ≥ batchThreshold))) indices proof.blocks ∧
      proof.batchProof = if decide (indices.length ≥ batchThreshold) then
          some (provePairs sha dalek x slotGenerator tag (proof.blocks.map BlockProof.pair)
            coins.batch)
        else none := by
  rcases exists_mapM_eq_some (l := indices.zipIdx) (f := fun p =>
    presentBlock sha dalek x ciphertexts (buildMerkleTree merkle leaves) slotGenerator tag
      (decide (indices.length ≥ batchThreshold)) (coins.r p.2) p.1) fun p hp =>
        ⟨_, Option.bind_eq_some_iff.mpr ⟨_, List.getElem?_eq_getElem
          (hrange p.1 (List.fst_mem_of_mem_zipIdx hp)), rfl⟩⟩ with ⟨presented, hpresented⟩
  have hturns := forall₂_of_zipIdx (P := fun idx i p => presentBlock sha dalek x ciphertexts
    (buildMerkleTree merkle leaves) slotGenerator tag (decide (indices.length ≥ batchThreshold))
      (coins.r i) idx = some p) (mapM_eq_some.mp hpresented)
  -- the pairs that were kept are those of the blocks
  have hpairs : presented.map Prod.snd = (presented.map Prod.fst).map BlockProof.pair := by
    rw [List.map_map]
    refine List.map_congr_left fun p hp => ?_
    rcases exists_of_mem_mapM hpresented hp with ⟨q, -, hturn⟩
    exact (presentBlock_ok hturn).2
  refine ⟨_, Option.bind_eq_some_iff.mpr ⟨indices, hindices, Option.bind_eq_some_iff.mpr
    ⟨presented, hpresented, rfl⟩⟩, rfl, rfl, ?_, ?_⟩
  · rw [List.forall₂_map_right_iff]
    exact hturns.imp fun idx p h => h.elim fun i hturn => (presentBlock_ok hturn).1
  · simp only [hpairs]

end Present

section Verify

variable [DecidableEq R] [DecidableEq D] {merkle : MerkleHashes D}
  {leafOf : CiphertextBlock R → D} {ciphertexts : List (CiphertextBlock R)} {leaves : List D}
  {slotGenerator tag : R} {useBatch : Bool}

omit [DecidableEq R] in
/-- A presented block passes the checks on its position and its path. -/
theorem PresentedFor.path_holds {idx : UInt64} {block : BlockProof R D}
    (hblock : PresentedFor sha dalek x ciphertexts (buildMerkleTree merkle leaves) slotGenerator
      tag useBatch idx block) (hleaves : leaves = ciphertexts.map leafOf) {root : D}
    (hroot : rootOf (buildMerkleTree merkle leaves) = some root) :
    verifyMerklePath merkle (leafOf block.ciphertext) block.index.toNat block.merklePath root =
      true := by
  have hleaf : leaves[idx.toNat]? = some (leafOf block.ciphertext) := by
    rw [hleaves, List.getElem?_map, hblock.ciphertext, Option.map_some]
  rw [hblock.path]
  exact verifyMerklePath_complete hroot hleaf _

/-- The verifier accepts what is presented for the positions that it samples. -/
theorem verifyFileProof_ok {proof : FileProof R D} {storedCommitment : FileCommitment D}
    {challengeNonce : Bytes 32} {indices : List UInt64} (htag : tag = x • slotGenerator)
    (hleaves : leaves = ciphertexts.map leafOf)
    (htree : rootOf (buildMerkleTree merkle leaves) = some storedCommitment.rootHash)
    (hid : proof.fileId = storedCommitment.fileId)
    (hroot : proof.rootHash = storedCommitment.rootHash)
    (hversion : storedCommitment.encodingVersion = reversiblePointEncodingV1)
    (hsize : storedCommitment.blockSize = UInt64.ofNat reversiblePointPayloadSize)
    (hlen : proof.blocks.length ≤ storedCommitment.numBlocks.toNat) (hne : proof.blocks ≠ [])
    (hindices : deriveChallengeIndices sha challengeIndexDomain challengeNonce
      storedCommitment.numBlocks proof.blocks.length = some indices)
    (hblocks : List.Forall₂ (PresentedFor sha dalek x ciphertexts (buildMerkleTree merkle leaves)
      slotGenerator tag useBatch) indices proof.blocks) {r : DalekScalar}
    (hbatch : proof.batchProof = if useBatch then
        some (provePairs sha dalek x slotGenerator tag (proof.blocks.map BlockProof.pair) r)
      else none) :
    verifyFileProof sha dalek merkle leafOf proof storedCommitment challengeNonce slotGenerator
      tag = some true := by
  have hempty : ¬(storedCommitment.numBlocks > 0 ∧ proof.blocks.isEmpty) := fun h =>
    hne (List.isEmpty_iff.mp h.2)
  have hpayload : ¬(storedCommitment.blockSize = 0 ∨
      storedCommitment.blockSize.toNat > reversiblePointPayloadSize) := by
    rw [hsize]
    decide
  have hpresented : ∀ p ∈ proof.blocks.zip indices, PresentedFor sha dalek x ciphertexts
      (buildMerkleTree merkle leaves) slotGenerator tag useBatch p.2 p.1 := fun p hp =>
    (List.forall₂_iff_zip.mp hblocks.flip).2 hp
  unfold verifyFileProof
  rw [if_neg (by rw [hid, hroot]; simp), if_neg (not_not.mpr hversion), if_neg hpayload,
    if_neg (not_lt.mpr hlen), if_neg hempty, hindices]
  simp only [Option.bind_eq_bind, Option.bind_some]
  cases useBatch with
  | false =>
      -- a proof for each block
      rw [hbatch]
      refine congrArg some (List.all_eq_true.mpr fun p hp => ?_)
      have hblock := hpresented p hp
      rcases hblock.dleq with ⟨r, hdleq⟩
      rw [hdleq, Bool.and_eq_true, Bool.and_eq_true, decide_eq_true_eq]
      exact ⟨⟨hblock.index, hblock.path_holds hleaves htree⟩,
        DLEQProof.verify_prove htag hblock.pair_eq r⟩
  | true =>
      -- no block has one, and the pairs of the loop are those of all blocks
      rw [hbatch]
      have hall : (proof.blocks.zip indices).all (fun p => decide (p.1.index = p.2) &&
          p.1.dleqProof.isNone && verifyMerklePath merkle (leafOf p.1.ciphertext) p.1.index.toNat
            p.1.merklePath storedCommitment.rootHash) = true := by
        refine List.all_eq_true.mpr fun p hp => ?_
        have hblock := hpresented p hp
        rcases hblock.dleq with ⟨r, hdleq⟩
        rw [hdleq, Bool.and_eq_true, Bool.and_eq_true, decide_eq_true_eq]
        exact ⟨⟨hblock.index, rfl⟩, hblock.path_holds hleaves htree⟩
      have hpairs : ∀ p ∈ proof.blocks.map BlockProof.pair, p.2 = x • p.1 := by
        intro p hp
        rw [← map_fst_zip_map BlockProof.pair hblocks.length_eq.symm] at hp
        rcases List.mem_map.mp hp with ⟨q, hq, rfl⟩
        exact (hpresented q hq).pair_eq
      simp only [hall, Bool.not_true, Bool.false_eq_true, if_false, if_true]
      rw [map_fst_zip_map BlockProof.pair hblocks.length_eq.symm]
      exact congrArg some (verifyPairs_prove hpairs htag r)

end Verify

section Complete

/-- The point shown for a position is the one of the chunk there. -/
theorem PresentedFor.shows_chunk {parts : List (List UInt8)}
    {ciphertexts : List (CiphertextBlock R)}
    (hciphers : List.Forall₂ (Encrypts sha dalek x) parts ciphertexts) {merkleTree : List (List D)}
    {slotGenerator tag : R} {useBatch : Bool} {idx : UInt64} {block : BlockProof R D}
    (hblock : PresentedFor sha dalek x ciphertexts merkleTree slotGenerator tag useBatch idx
      block) :
    ∃ chunk, parts[idx.toNat]? = some chunk ∧
      encodeChunkToPoint sha dalek chunk = .ok block.decryptedPoint := by
  rcases List.getElem?_eq_some_iff.mp hblock.ciphertext with ⟨hidx, hcipher⟩
  have hpart : idx.toNat < parts.length := hciphers.length_eq ▸ hidx
  have hencrypts := hciphers.get hpart hidx
  simp only [List.get_eq_getElem] at hencrypts
  rw [hcipher] at hencrypts
  rcases hencrypts with ⟨r, m, hm, hblockCipher⟩
  refine ⟨_, List.getElem?_eq_getElem hpart, ?_⟩
  rw [hm, hblock.point, hblockCipher, elgamalDecryptBlock, unmask]

variable [DecidableEq R] [DecidableEq D] (merkle : MerkleHashes D)
  (leafOf : CiphertextBlock R → D)

/-- A file whose chunks all encode is committed to; and whatever positions are sampled, the
proof for them is made and accepted, with one proof of equal logarithms from three positions
on and one for each block below, and shows the point of the chunk at every position. -/
theorem fileProof_complete {fileData : ByteSlice} (hne : fileData.bytes ≠ [])
    (hencodes : ChunksEncode sha dalek fileData) (x : DalekScalar) {slotGenerator tag : R}
    (htag : tag = x • slotGenerator) (fileCoins : FileCoins) (proofCoins : FileProofCoins)
    (fileId challengeNonce : Bytes 32) {numChallenges : ℕ} (hchallenges : 1 ≤ numChallenges) :
    ∃ file, createFileCommitmentAuto sha dalek merkle leafOf fileCoins fileId fileData x =
        some file ∧
      ∀ indices, deriveChallengeIndices sha challengeIndexDomain challengeNonce
          file.commitment.numBlocks numChallenges = some indices →
        ∃ proof, createFileProof sha dalek merkle x file.commitment.fileId file.ciphertexts
            file.leaves file.commitment.rootHash challengeNonce numChallenges slotGenerator tag
            proofCoins = some proof ∧
          verifyFileProof sha dalek merkle leafOf proof file.commitment challengeNonce
            slotGenerator tag = some true ∧
          (proof.batchProof.isSome ↔ batchThreshold ≤ indices.length) ∧
          (∀ block ∈ proof.blocks, block.dleqProof.isSome ↔ indices.length < batchThreshold) ∧
          List.Forall₂ (fun idx block => block.index = idx ∧
              ∃ chunk, (chunks reversiblePointPayloadSize fileData.bytes)[idx.toNat]? =
                  some chunk ∧
                encodeChunkToPoint sha dalek chunk = .ok block.decryptedPoint)
            indices proof.blocks := by
  rcases createFile_encrypts merkle leafOf fileCoins fileId hencodes with
    ⟨file, root, hcreate, hcommitment, hleaves, hroot, hciphers⟩
  refine ⟨file, hcreate, fun indices hindices => ?_⟩
  have hcount : file.commitment.numBlocks.toNat = file.ciphertexts.length := by
    rw [hcommitment, ← hciphers.length_eq]
    exact UInt64.toNat_ofNat_of_lt' (fileData.length_chunks_lt (by decide))
  have hpos : 1 ≤ file.commitment.numBlocks.toNat := by
    rw [hcount, ← hciphers.length_eq]
    exact List.length_pos_of_ne_nil (chunks_ne_nil (by decide) hne)
  rcases deriveChallengeIndices_spec hindices with ⟨-, hlen, hrange⟩
  have hnum : UInt64.ofNat file.ciphertexts.length = file.commitment.numBlocks := by
    rw [← hcount, UInt64.ofNat_toNat]
  rcases createFileProof_ok (x := x) merkle file.leaves (hnum ▸ hindices)
    (fun idx hidx => hcount ▸ UInt64.lt_iff_toNat_lt.mp (hrange idx hidx)) file.commitment.fileId
    file.commitment.rootHash slotGenerator tag proofCoins with
    ⟨proof, hproof, hid, hproofRoot, hblocks, hbatch⟩
  -- as many blocks are presented as positions were sampled, so the verifier samples the same
  have hsampled : proof.blocks.length = indices.length := hblocks.length_eq.symm
  have hpresented : proof.blocks ≠ [] := by
    rw [← List.length_pos_iff_ne_nil, hsampled, hlen]
    exact Nat.lt_min.mpr ⟨hchallenges, hpos⟩
  refine ⟨proof, hproof, ?_, ?_, ?_, hblocks.imp fun idx block hblock =>
    ⟨hblock.index, hblock.shows_chunk hciphers⟩⟩
  · refine verifyFileProof_ok htag hleaves (by rw [hroot, hcommitment]; rfl) hid hproofRoot
      (by rw [hcommitment]; rfl) (by rw [hcommitment]; rfl) ?_ hpresented
      (hsampled ▸ deriveChallengeIndices_again hindices) hblocks hbatch
    rw [hsampled, hlen]
    exact Nat.min_le_right _ _
  · rw [hbatch]
    by_cases hmany : indices.length ≥ batchThreshold
    · rw [if_pos (decide_eq_true hmany)]
      exact iff_of_true rfl hmany
    · rw [if_neg (mt of_decide_eq_true hmany)]
      exact iff_of_false Bool.false_ne_true hmany
  · intro block hblock
    rcases List.mem_iff_getElem.mp hblock with ⟨i, hi, rfl⟩
    rcases (hblocks.get (hsampled ▸ hi) hi).dleq with ⟨r, hdleq⟩
    simp only [List.get_eq_getElem] at hdleq
    rw [hdleq]
    by_cases hmany : indices.length ≥ batchThreshold
    · rw [if_pos (decide_eq_true hmany)]
      exact iff_of_false Bool.false_ne_true (Nat.not_lt.mpr hmany)
    · rw [if_neg (mt of_decide_eq_true hmany)]
      exact iff_of_true rfl (Nat.lt_of_not_ge hmany)

end Complete

section Example

/-- All three blocks are challenged, and there is one proof for them. -/
theorem fileProof_complete_three :
    ∃ file proof, createFileCommitmentAuto lineSha lineDalek lineMerkle (fun _ => 5)
        ⟨fun _ => 2, 4⟩ (leArray 32 1) threeChunks 3 = some file ∧
      createFileProof lineSha lineDalek lineMerkle 3 file.commitment.fileId file.ciphertexts
        file.leaves file.commitment.rootHash (leArray 32 2) 7 8 ((3 : DalekScalar) • 8)
        ⟨fun _ => 5, 7⟩ = some proof ∧
      verifyFileProof lineSha lineDalek lineMerkle (fun _ => 5) proof file.commitment
        (leArray 32 2) 8 ((3 : DalekScalar) • 8) = some true ∧
      proof.batchProof.isSome := by
  rcases fileProof_complete lineMerkle (fun _ => 5) (by decide) threeChunks_chunksEncode 3
    (rfl : (3 : DalekScalar) • (8 : DalekScalar) = (3 : DalekScalar) • 8) ⟨fun _ => 2, 4⟩
    ⟨fun _ => 5, 7⟩ (leArray 32 1) (leArray 32 2) (by decide : 1 ≤ 7) with
    ⟨file, hcreate, haccepted⟩
  rcases createFile_encrypts lineMerkle (fun _ => 5) ⟨fun _ => 2, 4⟩ (leArray 32 1)
    (x := 3) threeChunks_chunksEncode with ⟨file', root, hcreate', hcommitment, -⟩
  rw [hcreate, Option.some.injEq] at hcreate'
  subst hcreate'
  have hblocks : file.commitment.numBlocks = 3 := by
    rw [hcommitment, threeChunks_chunks]
    rfl
  -- there are no more blocks than challenges, so that nothing is sampled
  have hindices : deriveChallengeIndices lineSha challengeIndexDomain (leArray 32 2)
      file.commitment.numBlocks 7 = some [0, 1, 2] := by
    rw [hblocks]
    rfl
  rcases haccepted _ hindices with ⟨proof, hproof, hverify, hbatch, -⟩
  exact ⟨file, proof, hcreate, hproof, hverify, hbatch.mpr (by decide)⟩

end Example

end Ebut
