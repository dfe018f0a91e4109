import Ebut.Core.FileEncryption
import Ebut.Theory.AccountableFile
import Ebut.Theory.PointEncoding

/-!
# Decryption Returns the File

A file whose chunks all encode is encrypted, and decryption with the secret key returns it,
in the first format, in the private one and in packed blocks. Each ciphertext decrypts to
the point of its chunk, and the point to the chunk at its length. What is left to show is
that the loops ask for that length: as many bytes remain as the chunks not yet read have,
and a chunk is short only where it is the last.

A file in packed blocks is cut twice, but seventeen divides the size of a block, so that its
chunks are those of the file.

## Main definitions

* `Encrypts`: A ciphertext of a chunk.
* `EncryptsBlock`: A packed block of a group of chunks.

## Theorems

* `foldlM_decryptCiphertext`: The loop over the ciphertexts reads the rest of the file.
* `decryptPackedPoint_ok`, `decryptPackedBlock_ok`: The two loops over packed blocks.
* `createFile_encrypts`, `createPrivateFile_encrypts`, `createAccountableFile_encrypts`: What
  is made for a file.
* `file_decrypts`: Each of the three files is decrypted to the file it was made for.
-/

namespace Ebut

open Blocks MerkleTree

variable {R D : Type} [AddCommGroup R] [Module DalekScalar R] {sha : Sha2} {dalek : Dalek R}

/-- The mask of a ciphertext is the one that the secret key gives. -/
theorem unmask (x r : DalekScalar) (m base : R) : m + r • (x • base) - x • (r • base) = m := by
  rw [smul_comm r x, add_sub_cancel_right]

section Points

variable {x : DalekScalar} {fileSize : ℕ}

/-- A ciphertext of a chunk under the key of a secret. -/
def Encrypts (sha : Sha2) (dalek : Dalek R) (x : DalekScalar) (chunk : List UInt8)
    (cipher : CiphertextBlock R) : Prop :=
  ∃ (r : DalekScalar) (m : R), encodeChunkToPoint sha dalek chunk = .ok m ∧
    cipher = ⟨r • dalek.basepoint, m + r • (x • dalek.basepoint)⟩

theorem decryptCiphertext_ok {chunk out : List UInt8} {cipher : CiphertextBlock R}
    (hcipher : Encrypts sha dalek x chunk cipher) {blockSize : ℕ}
    (hlen : min (fileSize - out.length) blockSize = chunk.length) :
    decryptCiphertext dalek x fileSize blockSize out cipher = .ok (out ++ chunk) := by
  rcases hcipher with ⟨r, m, hm, rfl⟩
  unfold decryptCiphertext elgamalDecryptBlock
  simp only [unmask, hlen, decodePointToChunk_encoded hm]
  rfl

/-- The loop reads the rest of the file: every chunk but the last has the size of a block,
and the last one what remains. -/
theorem foldlM_decryptCiphertext {bytes out : List UInt8} {ciphers : List (CiphertextBlock R)}
    (hciphers : List.Forall₂ (Encrypts sha dalek x) (chunks reversiblePointPayloadSize bytes)
      ciphers) (hsize : out.length + bytes.length = fileSize) :
    ciphers.foldlM (decryptCiphertext dalek x fileSize reversiblePointPayloadSize) out =
      .ok (out ++ bytes) := by
  have hpos : 0 < reversiblePointPayloadSize := by decide
  induction bytes using blocks_induction hpos generalizing out ciphers with
  | nil =>
      rw [chunks_nil, List.forall₂_nil_left_iff] at hciphers
      rw [hciphers, List.append_nil]
      rfl
  | block bytes hne ih =>
      rw [chunks_eq hpos hne, List.forall₂_cons_left_iff] at hciphers
      rcases hciphers with ⟨cipher, rest, hcipher, hrest, rfl⟩
      -- what is missing is what has not been read, so the cut is that of the chunks
      have hlen : min (fileSize - out.length) reversiblePointPayloadSize =
          (bytes.take reversiblePointPayloadSize).length := by
        rw [List.length_take]
        omega
      have hleft : (out ++ bytes.take reversiblePointPayloadSize).length +
          (bytes.drop reversiblePointPayloadSize).length = fileSize := by
        rw [List.length_append, Nat.add_assoc, ← List.length_append, List.take_append_drop, hsize]
      rw [List.foldlM_cons, decryptCiphertext_ok hcipher hlen]
      refine (ih hrest hleft).trans ?_
      rw [List.append_assoc, List.take_append_drop]

end Points

section PackedPoints

variable {x : DalekScalar} {fileSize : ℕ}

/-- One turn of the loop over the points of a block, while bytes remain for the chunk. -/
theorem decryptPackedPoint_ok {shared m : R} {chunk : List UInt8}
    (hm : encodeChunkToPoint sha dalek chunk = .ok m) (hne : chunk ≠ []) {out : List UInt8}
    (hsize : out.length + chunk.length ≤ fileSize) :
    decryptPackedPoint dalek shared fileSize out (m + shared, UInt8.ofNat chunk.length) =
      .ok (out ++ chunk) := by
  have hpos : 0 < chunk.length := List.length_pos_of_ne_nil hne
  have hpayload : reversiblePointPayloadSize = 17 := rfl
  have hchunk := (encodeChunkToPoint_ok.mp hm).1
  have hbyte : (UInt8.ofNat chunk.length).toNat = chunk.length := by
    rw [UInt8.toNat_ofNat', Nat.mod_eq_of_lt (by omega)]
  have hopen : ¬out.length ≥ fileSize := by omega
  have hlen : min (fileSize - out.length) chunk.length = chunk.length := by omega
  unfold decryptPackedPoint
  rw [if_neg hopen]
  simp only [hbyte, hlen, add_sub_cancel_right, decodePointToChunk_encoded hm]
  rfl

/-- The points and lengths of a block, beside its chunks. -/
theorem forall₂_packed (shared : R) {parts : List (List UInt8)} {ms : List R}
    (hms : List.Forall₂ (fun chunk m => encodeChunkToPoint sha dalek chunk = .ok m) parts ms)
    (hne : ∀ chunk ∈ parts, chunk ≠ []) :
    List.Forall₂ (fun chunk point => chunk ≠ [] ∧ ∃ m, encodeChunkToPoint sha dalek chunk = .ok m ∧
        point = (m + shared, UInt8.ofNat chunk.length)) parts
      ((ms.map fun m => m + shared).zip
        (parts.map fun chunk => UInt8.ofNat chunk.length)) := by
  induction hms with
  | nil => exact List.Forall₂.nil
  | cons hm _ ih =>
      exact List.Forall₂.cons ⟨hne _ List.mem_cons_self, _, hm, rfl⟩
        (ih fun chunk hchunk => hne chunk (List.mem_cons_of_mem _ hchunk))

/-- A packed block of a group of chunks, under the key of a secret. -/
def EncryptsBlock (sha : Sha2) (dalek : Dalek R) (x : DalekScalar) (group : List UInt8)
    (block : PackedBlock R) : Prop :=
  ∃ (r : DalekScalar) (ms : List R), List.Forall₂
      (fun chunk m => encodeChunkToPoint sha dalek chunk = .ok m)
      (chunks accountablePointPayloadSize group) ms ∧
    block.c1 = r • dalek.basepoint ∧
    block.c2Points = (ms.map fun m => m + r • (x • dalek.basepoint)) ∧
    block.pointLengths =
      (chunks accountablePointPayloadSize group).map fun chunk => UInt8.ofNat chunk.length

theorem decryptPackedBlock_ok {group out : List UInt8} {block : PackedBlock R}
    (hblock : EncryptsBlock sha dalek x group block)
    (hsize : out.length + group.length ≤ fileSize) :
    decryptPackedBlock dalek x fileSize out block = .ok (out ++ group) := by
  have hpos : 0 < accountablePointPayloadSize := by decide
  rcases hblock with ⟨r, ms, hms, hc1, hpoints, hlengths⟩
  have hflat := flatten_chunks hpos group
  have hparts : out.length + (chunks accountablePointPayloadSize group).flatten.length ≤
      fileSize := by
    rw [hflat]
    exact hsize
  unfold decryptPackedBlock
  rw [hc1, hpoints, hlengths, smul_comm r x]
  refine (foldlM_flatten ?_ hparts).trans (by rw [hflat])
  refine (forall₂_packed (x • r • dalek.basepoint) hms
    fun chunk hchunk => (mem_chunks hpos hchunk).1).imp fun chunk point hpoint out hroom => ?_
  rcases hpoint with ⟨hne, m, hm, rfl⟩
  exact decryptPackedPoint_ok hm hne hroom

end PackedPoints

section Create

variable {merkle : MerkleHashes D} {fileId : Bytes 32} {fileData : ByteSlice}

/-- Every chunk of a file has an encoding. -/
def ChunksEncode (sha : Sha2) (dalek : Dalek R) (fileData : ByteSlice) : Prop :=
  ∀ chunk ∈ chunks reversiblePointPayloadSize fileData.bytes,
    ∃ point, encodeChunkToPoint sha dalek chunk = .ok point

/-- The chunks pass the assertion on their sizes. -/
theorem chunks_not_large (bytes : List UInt8) :
    ((chunks reversiblePointPayloadSize bytes).any fun block =>
      decide (block.length > reversiblePointPayloadSize)) = false := by
  rw [List.any_eq_false]
  intro block hblock
  rw [decide_eq_true_eq, gt_iff_lt, Nat.not_lt]
  exact (mem_chunks (by decide) hblock).2

/-- Of chunks that encode, each with its position, something is made that uses the point. -/
theorem exists_mapM_encoded {β : Type} (hencodes : ChunksEncode sha dalek fileData)
    {f : List UInt8 × ℕ → Option β} (make : R → ℕ → β)
    (hf : ∀ p, f p = (encodeChunkToPoint sha dalek p.1).toOption.map fun m => make m p.2) :
    ∃ bs, (chunks reversiblePointPayloadSize fileData.bytes).zipIdx.mapM f = some bs ∧
      List.Forall₂ (fun chunk b => ∃ i m, encodeChunkToPoint sha dalek chunk = .ok m ∧ b = make m i)
        (chunks reversiblePointPayloadSize fileData.bytes) bs := by
  have hmade : ∀ p ∈ (chunks reversiblePointPayloadSize fileData.bytes).zipIdx,
      ∃ b, f p = some b := by
    intro p hp
    rcases hencodes p.1 (List.fst_mem_of_mem_zipIdx hp) with ⟨m, hm⟩
    exact ⟨make m p.2, by rw [hf, hm]; rfl⟩
  rcases exists_mapM_eq_some hmade with ⟨bs, hbs⟩
  refine ⟨bs, hbs, forall₂_of_zipIdx ((mapM_eq_some.mp hbs).imp fun p b hb => ?_)⟩
  rw [hf] at hb
  rcases Option.map_eq_some_iff.mp hb with ⟨m, hm, rfl⟩
  rcases hencoded : encodeChunkToPoint sha dalek p.1 with _ | point
  · rw [hencoded] at hm
    exact nomatch hm
  · rw [hencoded] at hm
    exact ⟨m, congrArg Except.ok (Option.some.inj hm), rfl⟩

/-- The size that the commitment states is the one of the file. -/
theorem pointBlocksCommitment_fileSize (root : D) (nonce : DalekScalar) :
    (pointBlocksCommitment fileId root (chunks reversiblePointPayloadSize fileData.bytes)
      nonce).fileSize.toNat = fileData.bytes.length := by
  show (UInt64.ofNat _).toNat = _
  rw [← List.length_flatten, flatten_chunks (by decide),
    UInt64.toNat_ofNat_of_lt' fileData.length_lt]

variable {x : DalekScalar}

/-- Ciphertexts of the chunks decrypt to the file under the commitment to them. -/
theorem decryptFile_of_encrypts {ciphers : List (CiphertextBlock R)}
    (hciphers : List.Forall₂ (Encrypts sha dalek x)
      (chunks reversiblePointPayloadSize fileData.bytes) ciphers) (root : D)
    (nonce : DalekScalar) :
    decryptFileFromCiphertexts dalek ciphers (pointBlocksCommitment fileId root
      (chunks reversiblePointPayloadSize fileData.bytes) nonce) x = .ok fileData.bytes := by
  have hcount : UInt64.ofNat ciphers.length =
      (pointBlocksCommitment fileId root (chunks reversiblePointPayloadSize fileData.bytes)
        nonce).numBlocks := congrArg UInt64.ofNat hciphers.length_eq.symm
  have hversion : (pointBlocksCommitment fileId root
      (chunks reversiblePointPayloadSize fileData.bytes) nonce).encodingVersion =
        reversiblePointEncodingV1 := rfl
  unfold decryptFileFromCiphertexts
  rw [if_neg (not_not.mpr hcount), if_neg (not_not.mpr hversion), pointBlocksCommitment_fileSize]
  exact foldlM_decryptCiphertext hciphers (Nat.zero_add _)

/-- A file of the first format is made of ciphertexts of its chunks, and the commitment has
the root over their leaves. -/
theorem createFile_encrypts (merkle : MerkleHashes D) (leafOf : CiphertextBlock R → D)
    (coins : FileCoins) (fileId : Bytes 32) (hencodes : ChunksEncode sha dalek fileData) :
    ∃ file root, createFileCommitmentAuto sha dalek merkle leafOf coins fileId fileData x =
        some file ∧
      file.commitment = pointBlocksCommitment fileId root
        (chunks reversiblePointPayloadSize fileData.bytes) coins.nonce ∧
      file.leaves = file.ciphertexts.map leafOf ∧
      rootOf (buildMerkleTree merkle file.leaves) = some root ∧
      List.Forall₂ (Encrypts sha dalek x) (chunks reversiblePointPayloadSize fileData.bytes)
        file.ciphertexts := by
  rcases exists_mapM_encoded hencodes
    (f := fun p => do
      let m ← (encodeChunkToPoint sha dalek p.1).toOption
      return (⟨coins.r p.2 • dalek.basepoint, m + coins.r p.2 • (x • dalek.basepoint)⟩ :
        CiphertextBlock R))
    (fun m i => ⟨coins.r i • dalek.basepoint, m + coins.r i • (x • dalek.basepoint)⟩)
    (fun p => by cases (encodeChunkToPoint sha dalek p.1).toOption with
      | none => rfl
      | some m => rfl)
    with ⟨ciphers, hmade, hciphers⟩
  rcases buildMerkleTree_root merkle (ciphers.map leafOf) with ⟨root, hroot⟩
  refine ⟨⟨_, ciphers, ciphers.map leafOf⟩, root, ?_, rfl, rfl, hroot,
    hciphers.imp fun chunk cipher h => h.elim fun i hm => ⟨coins.r i, hm⟩⟩
  unfold createFileCommitmentAuto createFileCommitment prepareFileBlocks autoBlockSize
  simp only [chunks_not_large, Bool.false_eq_true, if_false]
  exact Option.bind_eq_some_iff.mpr ⟨_, Option.bind_eq_some_iff.mpr
    ⟨ciphers, hmade, Option.bind_eq_some_iff.mpr ⟨root, hroot, rfl⟩⟩, rfl⟩

/-- The blocks of a private file hold ciphertexts of its chunks. -/
theorem createPrivateFile_encrypts (merkle : MerkleHashes D)
    (leafOf : PrivateCiphertextBlock R → D) (coins : PrivateFileCoins) (fileId : Bytes 32)
    (hencodes : ChunksEncode sha dalek fileData) :
    ∃ file root, createPrivateFileCommitmentAuto sha dalek merkle leafOf coins fileId fileData
        (x • dalek.basepoint) = some file ∧
      file.commitment = pointBlocksCommitment fileId root
        (chunks reversiblePointPayloadSize fileData.bytes) coins.nonce ∧
      List.Forall₂ (Encrypts sha dalek x) (chunks reversiblePointPayloadSize fileData.bytes)
        (file.publicBlocks.map fun b => b.ciphertext) := by
  rcases exists_mapM_encoded hencodes
    (f := fun p => do
      let m ← (encodeChunkToPoint sha dalek p.1).toOption
      return ((⟨coins.r p.2 • dalek.basepoint, m + coins.r p.2 • (x • dalek.basepoint),
          m + coins.s p.2 • privatePlaintextH sha dalek⟩ : PrivateCiphertextBlock R),
        (⟨coins.r p.2, coins.s p.2⟩ : PrivateFileWitnessBlock)))
    (fun m i => (⟨coins.r i • dalek.basepoint, m + coins.r i • (x • dalek.basepoint),
      m + coins.s i • privatePlaintextH sha dalek⟩, ⟨coins.r i, coins.s i⟩))
    (fun p => by cases (encodeChunkToPoint sha dalek p.1).toOption with
      | none => rfl
      | some m => rfl)
    with ⟨pairs, hmade, hpairs⟩
  rcases buildMerkleTree_root merkle ((pairs.map Prod.fst).map leafOf) with ⟨root, hroot⟩
  refine ⟨⟨_, pairs.map Prod.fst, (pairs.map Prod.fst).map leafOf, pairs.map Prod.snd⟩, root, ?_,
    rfl, ?_⟩
  · unfold createPrivateFileCommitmentAuto createPrivateFileCommitment preparePrivateFileBlocks
    simp only [chunks_not_large, Bool.false_eq_true, if_false]
    exact Option.bind_eq_some_iff.mpr ⟨_, Option.bind_eq_some_iff.mpr
      ⟨pairs, hmade, Option.bind_eq_some_iff.mpr ⟨root, hroot, rfl⟩⟩, rfl⟩
  · rw [List.forall₂_map_right_iff, List.forall₂_map_right_iff]
    refine hpairs.imp fun chunk pair h => ?_
    rcases h with ⟨i, m, hm, rfl⟩
    exact ⟨coins.r i, m, hm, rfl⟩

theorem accountableBlock_encrypts {r : DalekScalar} {s : ℕ → DalekScalar} {group : List UInt8}
    {pair : PackedBlock R × WitnessBlock}
    (hpair : accountableBlock sha dalek (x • dalek.basepoint) r s group = some pair) :
    EncryptsBlock sha dalek x group pair.1 := by
  rcases Option.bind_eq_some_iff.mp hpair with ⟨ms, hms, hpair⟩
  cases hpair
  refine ⟨r, ms, (mapM_eq_some.mp hms).imp fun chunk m hm => ?_, rfl, rfl, rfl⟩
  cases hencoded : encodeChunkToPoint sha dalek chunk with
  | error e =>
      rw [hencoded] at hm
      exact nomatch hm
  | ok point =>
      rw [hencoded] at hm
      exact congrArg Except.ok (Option.some.inj hm)

/-- An accountable file is made of packed blocks of its groups. -/
theorem createAccountableFile_encrypts (merkle : MerkleHashes D) (leafOf : PackedBlock R → D)
    (coins : AccountableFileCoins) (fileId : Bytes 32)
    (hencodes : ChunksEncode sha dalek fileData) :
    ∃ file, createAccountableFileCommitmentAuto sha dalek merkle leafOf coins fileId fileData
        (x • dalek.basepoint) = some file ∧
      List.Forall₂ (EncryptsBlock sha dalek x)
        (chunks accountablePackedBlockPayloadSize fileData.bytes) file.publicBlocks ∧
      file.commitment.encodingVersion = accountableFileEncodingV2 ∧
      file.commitment.numBlocks = UInt64.ofNat file.publicBlocks.length ∧
      file.commitment.fileSize.toNat = fileData.bytes.length := by
  have hblocks : ∀ p ∈ (chunks accountablePackedBlockPayloadSize fileData.bytes).zipIdx,
      ∃ pair, accountableBlock sha dalek (x • dalek.basepoint) (coins.r p.2) (coins.s p.2) p.1 =
        some pair := fun p hp =>
    accountableBlock_exists (fun chunk hchunk => hencodes chunk (mem_chunks_of_mem (by decide)
      (by decide) (List.fst_mem_of_mem_zipIdx hp) hchunk)) _ _ _
  rcases exists_mapM_eq_some hblocks with ⟨pairs, hpairs⟩
  rcases buildMerkleTree_root merkle ((pairs.map Prod.fst).map leafOf) with ⟨root, hroot⟩
  refine ⟨_, Option.bind_eq_some_iff.mpr ⟨pairs, hpairs,
    Option.bind_eq_some_iff.mpr ⟨root, hroot, rfl⟩⟩, ?_, rfl, rfl, ?_⟩
  · rw [List.forall₂_map_right_iff]
    have hgroups := forall₂_of_zipIdx (P := fun group i pair =>
      accountableBlock sha dalek (x • dalek.basepoint) (coins.r i) (coins.s i) group = some pair)
      (mapM_eq_some.mp hpairs)
    exact hgroups.imp fun group pair h => h.elim fun i hpair => accountableBlock_encrypts hpair
  · exact UInt64.toNat_ofNat_of_lt' fileData.length_lt

end Create

section Decrypt

variable {fileData : ByteSlice} (merkle : MerkleHashes D)

/-- A file whose chunks all encode is encrypted, in each of the three formats, and decrypted to
itself with the secret of its key. -/
theorem file_decrypts (cipherLeafOf : CiphertextBlock R → D)
    (privateLeafOf : PrivateCiphertextBlock R → D) (packedLeafOf : PackedBlock R → D)
    (hencodes : ChunksEncode sha dalek fileData) (fileId : Bytes 32) (x : DalekScalar)
    (fileCoins : FileCoins) (privateCoins : PrivateFileCoins)
    (accountableCoins : AccountableFileCoins) :
    (∃ file, createAccountableFileCommitmentAuto sha dalek merkle packedLeafOf accountableCoins
        fileId fileData (x • dalek.basepoint) = some file ∧
      decryptAccountableFileFromCiphertexts dalek file.publicBlocks file.commitment x =
        .ok fileData.bytes) ∧
    (∃ file, createFileCommitmentAuto sha dalek merkle cipherLeafOf fileCoins fileId fileData x =
        some file ∧
      decryptFileFromCiphertexts dalek file.ciphertexts file.commitment x = .ok fileData.bytes) ∧
    ∃ file, createPrivateFileCommitmentAuto sha dalek merkle privateLeafOf privateCoins fileId
        fileData (x • dalek.basepoint) = some file ∧
      decryptPrivateFileFromCiphertexts dalek file.publicBlocks file.commitment x =
        .ok fileData.bytes := by
  refine ⟨?_, ?_, ?_⟩
  · rcases createAccountableFile_encrypts merkle packedLeafOf accountableCoins fileId hencodes with
      ⟨file, hcreate, hblocks, hversion, hcount, hsize⟩
    refine ⟨file, hcreate, ?_⟩
    have hflat := flatten_chunks (n := accountablePackedBlockPayloadSize) (by decide)
      fileData.bytes
    -- no block is cut, because together they are the file
    have hfits : ([] : List UInt8).length +
        (chunks accountablePackedBlockPayloadSize fileData.bytes).flatten.length ≤
          fileData.bytes.length := by
      rw [hflat, List.length_nil, Nat.zero_add]
    have hread := foldlM_flatten
      (hblocks.imp fun group block hblock out hroom => decryptPackedBlock_ok hblock hroom) hfits
    rw [hflat, List.nil_append] at hread
    unfold decryptAccountableFileFromCiphertexts
    rw [if_neg (not_not.mpr hversion), if_neg (not_not.mpr hcount.symm)]
    simp only [hsize, hread]
    exact congrArg Except.ok List.take_length
  · rcases createFile_encrypts merkle cipherLeafOf fileCoins fileId hencodes with
      ⟨file, root, hcreate, hcommitment, -, -, hciphers⟩
    refine ⟨file, hcreate, ?_⟩
    rw [hcommitment]
    exact decryptFile_of_encrypts hciphers root fileCoins.nonce
  · rcases createPrivateFile_encrypts merkle privateLeafOf privateCoins fileId hencodes with
      ⟨file, root, hcreate, hcommitment, hciphers⟩
    refine ⟨file, hcreate, ?_⟩
    unfold decryptPrivateFileFromCiphertexts
    rw [hcommitment]
    exact decryptFile_of_encrypts hciphers root privateCoins.nonce

end Decrypt

section Example

/-- Thirty-five bytes, which are three chunks. -/
def threeChunks : ByteSlice :=
  ⟨List.replicate 17 7 ++ List.replicate 17 8 ++ [9], by decide⟩

theorem threeChunks_chunks : chunks reversiblePointPayloadSize threeChunks.bytes =
    [List.replicate 17 7, List.replicate 17 8, [9]] := by
  decide

theorem threeChunks_chunksEncode : ChunksEncode lineSha lineDalek threeChunks := by
  unfold ChunksEncode
  rw [threeChunks_chunks, List.forall_mem_cons, List.forall_mem_cons, List.forall_mem_singleton]
  exact ⟨line_encodes (by decide) (by decide +kernel),
    line_encodes (by decide) (by decide +kernel), line_encodes (by decide) (by decide +kernel)⟩

theorem file_decrypts_three :
    (∃ file, createAccountableFileCommitmentAuto lineSha lineDalek lineMerkle (fun _ => 5)
        ⟨fun _ => 2, fun _ _ => 3, 4⟩ (leArray 32 1) threeChunks
        ((3 : DalekScalar) • lineDalek.basepoint) = some file ∧
      decryptAccountableFileFromCiphertexts lineDalek file.publicBlocks file.commitment 3 =
        .ok threeChunks.bytes) ∧
    (∃ file, createFileCommitmentAuto lineSha lineDalek lineMerkle (fun _ => 5) ⟨fun _ => 2, 4⟩
        (leArray 32 1) threeChunks 3 = some file ∧
      decryptFileFromCiphertexts lineDalek file.ciphertexts file.commitment 3 =
        .ok threeChunks.bytes) ∧
    ∃ file, createPrivateFileCommitmentAuto lineSha lineDalek lineMerkle (fun _ => 5)
        ⟨fun _ => 2, fun _ => 3, 4⟩ (leArray 32 1) threeChunks
        ((3 : DalekScalar) • lineDalek.basepoint) = some file ∧
      decryptPrivateFileFromCiphertexts lineDalek file.publicBlocks file.commitment 3 =
        .ok threeChunks.bytes :=
  file_decrypts lineMerkle (fun _ => 5) (fun _ => 5) (fun _ => 5) threeChunks_chunksEncode
    (leArray 32 1) 3 ⟨fun _ => 2, 4⟩ ⟨fun _ => 2, fun _ => 3, 4⟩ ⟨fun _ => 2, fun _ _ => 3, 4⟩

end Example

end Ebut
