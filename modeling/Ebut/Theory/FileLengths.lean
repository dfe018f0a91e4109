import Ebut.Core.FileEncryption
import Ebut.Library.BoundedRead
import Ebut.Theory.Option1Decryption

/-!
# How Much of a File Is Decrypted

The three decryption functions read pieces until the size of the file is reached, and none of
them compares what it has read with that size. A file whose ciphertexts hold less than its
commitment says comes back short, without an error, and ciphertexts that hold more lose what is
left over. The version and the number of blocks are compared, a piece that is too long for a
point is an error, and so are too few bytes for the selectors of a block; of the other lengths
nothing is. A size that no buffer can have is a panic, whatever is wrong with it.

All of this depends on lengths alone, up to what the codec of Option 1 makes of its points. So
for Option 1 the condition is for all blocks with the same lengths, under any key.

What was read never exceeds the size, so no difference to it underflows.

## Main definitions

* `PackedBlock.lengths`, `Option1CiphertextBlock.lengths`: The lengths of a block.
* `BlocksFit`, `LengthsAgree`: The lengths of a commitment and of its blocks belong together.
* `LengthsReported`: What is returned has the size of the file, and an error says when lengths
  do not belong together.
* `Option1LengthsAgree`: The same for Option 1.
* `FileRefused`, `PackedRefused`, `Option1Refused`: The lengths at which an error is returned.
* `decodableBlock`: A block of given lengths that decodes.

## Theorems

* `decryptCiphertext_eq`, `decryptPackedBlock_eq`, `decryptOption1Block_eq`: The loops as
  bounded reads.
* `decryptOption1Blocks_ok`: The loop over blocks whose selectors may not be unpacked.
* `decryptFile_ok`, `decryptPacked_ok`, `decryptOption1_ok`: When and how much is returned.
* `option1_reported`, `option1_decodable`: Refused lengths are an error, others may be decoded.
* `decryption_reports_lengths_iff`: When nothing is lost in silence.
* `short_files_decrypted`: Files that come back short.
-/

namespace Ebut

open BoundedRead

variable {R D C : Type} [AddCommGroup R] [Module DalekScalar R] {sha : Sha2} {dalek : Dalek R}
  {library : Option (ElligatorLibrary C)}

section Pieces

theorem decodePointToChunk_ok_iff {m : R} {n : ℕ} :
    (∃ chunk, decodePointToChunk dalek m n = .ok chunk) ↔ n ≤ reversiblePointPayloadSize := by
  unfold decodePointToChunk
  simp only [Blocks.guard_eq_ok]
  exact ⟨fun ⟨_, h, _⟩ => Nat.le_of_not_gt h, fun h => ⟨_, Nat.not_lt_of_le h, rfl⟩⟩

theorem decodePointToChunk_length {m : R} {n : ℕ} {chunk : List UInt8}
    (h : decodePointToChunk dalek m n = .ok chunk) : chunk.length = n := by
  unfold decodePointToChunk at h
  rcases Blocks.guard_eq_ok.mp h with ⟨hle, htake⟩
  cases htake
  rw [List.length_take, List.Vector.toList_length]
  exact Nat.min_eq_left (Nat.le_of_not_gt hle)

theorem serToPayload_length (ser : Bytes 32) (len : UInt8) :
    (serToPayload ser len).length = len.toNat := by
  unfold serToPayload
  rw [ByteBits.foldl_orBit_length, List.length_replicate]

/-- A chunk has the length asked for, whatever the library answers. -/
theorem decodeChunk_length {m : R} {selector len : UInt8} {chunk : List UInt8}
    (h : decodeChunk dalek library m selector len = .ok chunk) : chunk.length = len.toNat := by
  -- every branch but the last is an error
  unfold decodeChunk at h
  rcases Blocks.guard_eq_ok.mp h with ⟨-, h⟩
  rcases Blocks.guard_eq_ok.mp h with ⟨-, h⟩
  unfold externalDecodeChunk at h
  cases library with
  | none => exact nomatch h
  | some library =>
      rcases Blocks.guard_eq_ok.mp h with ⟨-, h⟩
      rcases Blocks.guard_eq_ok.mp h with ⟨-, h⟩
      rcases Blocks.guard_eq_ok.mp h with ⟨-, h⟩
      rcases Blocks.guard_eq_ok.mp h with ⟨-, h⟩
      rw [← Except.ok.inj h]
      exact serToPayload_length _ len

end Pieces

section Loops

variable (x : DalekScalar)

/-- A ciphertext decoded at a length. -/
def decodeCipher (dalek : Dalek R) (cipher : CiphertextBlock R) (n : ℕ) :
    Except PointEncodingError (List UInt8) :=
  decodePointToChunk dalek (elgamalDecryptBlock x cipher.c1 cipher.c2) n

theorem decodeCipher_length {cipher : CiphertextBlock R} {n : ℕ} {piece : List UInt8}
    (h : decodeCipher x dalek cipher n = .ok piece) : piece.length = n :=
  decodePointToChunk_length h

/-- A turn of the loop over the ciphertexts. A turn with nothing missing reads no bytes. -/
theorem decryptCiphertext_eq (fileSize blockSize : ℕ) :
    decryptCiphertext dalek x fileSize blockSize =
      readPiece (decodeCipher x dalek) (fun _ => blockSize) fileSize := by
  funext out cipher
  have hturn : decryptCiphertext dalek x fileSize blockSize out cipher =
      (decodePointToChunk dalek (elgamalDecryptBlock x cipher.c1 cipher.c2)
        (min (fileSize - out.length) blockSize)).map fun chunk => out ++ chunk := rfl
  rw [hturn, readPiece]
  by_cases hfull : out.length ≥ fileSize
  · have hnone : min (fileSize - out.length) blockSize = 0 := by omega
    have hempty : decodePointToChunk dalek (elgamalDecryptBlock x cipher.c1 cipher.c2) 0 =
        .ok [] := by
      rw [decodePointToChunk, if_neg (Nat.not_lt_zero _), List.take_zero]
    rw [if_pos hfull, hnone, hempty]
    exact congrArg Except.ok (List.append_nil out)
  · rw [if_neg hfull]
    rfl

/-- A point of a packed block, with the point that hides it and its length. -/
def packedPieces (block : PackedBlock R) : List (R × R × UInt8) :=
  (block.c2Points.zip block.pointLengths).map fun p => (x • block.c1, p)

def decodePacked (dalek : Dalek R) (piece : R × R × UInt8) (n : ℕ) :
    Except PointEncodingError (List UInt8) :=
  decodePointToChunk dalek (piece.2.1 - piece.1) n

def packedWant (piece : R × R × UInt8) : ℕ := piece.2.2.toNat

theorem decodePacked_length {p : R × R × UInt8} {n : ℕ} {piece : List UInt8}
    (h : decodePacked dalek p n = .ok piece) : piece.length = n :=
  decodePointToChunk_length h

theorem decryptPackedPoint_eq (shared : R) (fileSize : ℕ) (out : List UInt8) (p : R × UInt8) :
    decryptPackedPoint dalek shared fileSize out p =
      readPiece (decodePacked dalek) packedWant fileSize out (shared, p) := by
  unfold decryptPackedPoint readPiece decodePacked packedWant
  by_cases hfull : out.length ≥ fileSize
  · rw [if_pos hfull, if_pos hfull]
    rfl
  · rw [if_neg hfull, if_neg hfull]
    rfl

theorem decryptPackedBlock_eq (fileSize : ℕ) (out : List UInt8) (block : PackedBlock R) :
    decryptPackedBlock dalek x fileSize out block =
      (packedPieces x block).foldlM (readPiece (decodePacked dalek) packedWant fileSize) out := by
  unfold decryptPackedBlock packedPieces
  rw [List.foldlM_map]
  simp only [← decryptPackedPoint_eq]

/-- A point of an Option 1 block with its selector. -/
def decodeOption1 (dalek : Dalek R) (library : Option (ElligatorLibrary C))
    (piece : R × (R × UInt8) × UInt8) (n : ℕ) : Except ElligatorCodecError (List UInt8) :=
  decodeChunk dalek library (piece.2.1.1 - piece.1) piece.2.2 (UInt8.ofNat n)

def option1Want (piece : R × (R × UInt8) × UInt8) : ℕ := piece.2.1.2.toNat

/-- A point asked for a length that fits a byte gives as many bytes. -/
theorem decodeOption1_length {p : R × (R × UInt8) × UInt8} {n : ℕ} {piece : List UInt8}
    (hn : n ≤ option1Want p) (h : decodeOption1 dalek library p n = .ok piece) :
    piece.length = n := by
  have hbyte : n < UInt8.size := Nat.lt_of_le_of_lt hn (UInt8.toNat_lt_size _)
  rw [decodeChunk_length h, UInt8.toNat_ofNat_of_lt' hbyte]

/-- The points of an Option 1 block, once its selectors are unpacked. -/
def option1Pieces (sha : Sha2) (dalek : Dalek R) (fileId : Bytes 32)
    (p : Option1CiphertextBlock R × ℕ) :
    Except ElligatorCodecError (List (R × (R × UInt8) × UInt8)) := do
  let shared := x • p.1.c1
  let selectors ← unpackSelectors (xorBytes p.1.selectorCiphertext
    (streamXorMask sha dalek shared fileId (UInt64.ofNat p.2) p.1.selectorCiphertext.length))
    p.1.c2Points.length
  return ((p.1.c2Points.zip p.1.pointLengths).zip selectors).map fun point => (shared, point)

theorem decryptOption1Point_eq (shared : R) (fileSize : ℕ) (out : List UInt8)
    (p : (R × UInt8) × UInt8) :
    decryptOption1Point dalek library shared fileSize out p =
      readPiece (decodeOption1 dalek library) option1Want fileSize out (shared, p) := by
  unfold decryptOption1Point readPiece decodeOption1 option1Want
  by_cases hfull : out.length ≥ fileSize
  · rw [if_pos hfull, if_pos hfull]
    rfl
  · rw [if_neg hfull, if_neg hfull]
    rfl

theorem decryptOption1Block_eq (fileId : Bytes 32) (fileSize : ℕ) (out : List UInt8)
    (p : Option1CiphertextBlock R × ℕ) :
    decryptOption1Block sha dalek library fileId x fileSize out p =
      (option1Pieces x sha dalek fileId p >>= fun items =>
        items.foldlM (readPiece (decodeOption1 dalek library) option1Want fileSize) out) := by
  unfold decryptOption1Block option1Pieces
  simp only [bind_assoc, pure_bind, List.foldlM_map, ← decryptOption1Point_eq]

end Loops

section Lengths

/-- The number of points of a block, and the lengths that it says they have. -/
def PackedBlock.lengths (block : PackedBlock R) : ℕ × List UInt8 :=
  (block.c2Points.length, block.pointLengths)

/-- The lengths of an Option 1 block, with that of its selectors. -/
def Option1CiphertextBlock.lengths (block : Option1CiphertextBlock R) : (ℕ × List UInt8) × ℕ :=
  (block.toPackedBlock.lengths, block.selectorCiphertext.length)

/-- The file takes up as many blocks: it fits, and no block is left over. -/
def BlocksFit (numBlocks blockSize fileSize : ℕ) : Prop :=
  fileSize ≤ numBlocks * blockSize ∧ (numBlocks = 0 ∨ (numBlocks - 1) * blockSize < fileSize)

/-- Every point has a length, the lengths add up to the size of the file, and the file takes up
the blocks. -/
def LengthsAgree (blockSize fileSize : ℕ) (lengths : List (ℕ × List UInt8)) : Prop :=
  (∀ l ∈ lengths, l.1 = l.2.length) ∧
    (lengths.flatMap fun l => l.2.map UInt8.toNat).sum = fileSize ∧
    BlocksFit lengths.length blockSize fileSize

/-- The lengths that are read: a point without a length is not, and a length without a point. -/
def readLengths (l : ℕ × List UInt8) : List ℕ := (l.2.take l.1).map UInt8.toNat

theorem sum_readLengths {blockSize fileSize : ℕ} {lengths : List (ℕ × List UInt8)}
    (h : LengthsAgree blockSize fileSize lengths) :
    (lengths.flatMap readLengths).sum = fileSize := by
  have hread : lengths.flatMap readLengths = lengths.flatMap fun l => l.2.map UInt8.toNat := by
    refine List.flatMap_congr fun l hl => ?_
    rw [readLengths, h.1 l hl, List.take_length]
  rw [hread]
  exact h.2.1

omit [AddCommGroup R] [Module DalekScalar R] in
/-- The points of a block come with the lengths that are read. -/
theorem zip_readLengths (block : PackedBlock R) :
    ((block.c2Points.zip block.pointLengths).map fun p => p.2.toNat) =
      readLengths block.lengths := by
  rw [readLengths, PackedBlock.lengths]
  generalize block.c2Points = points
  generalize block.pointLengths = lengths
  induction points generalizing lengths with
  | nil => rfl
  | cons point points ih =>
      cases lengths with
      | nil => rfl
      | cons length lengths =>
          rw [List.zip_cons_cons, List.map_cons, ih, List.length_cons, List.take_succ_cons,
            List.map_cons]

/-- What is returned has the size of the file, and lengths that do not agree are reported as an
error. -/
def LengthsReported {ε : Type} (answer : Option (Except ε (List UInt8))) (fileSize : ℕ)
    (agree : Prop) : Prop :=
  (∀ out, answer = some (.ok out) → out.length = fileSize) ∧
    (¬agree → ∃ e, answer = some (.error e))

section Answer

variable {ε : Type} {result : Except ε (List UInt8)} {fileSize : UInt64} {capacity : ℕ}
  {checked overfull agree : Prop} [Decidable checked]
  (hlength : ∀ out, result = .ok out → out.length = min fileSize.toNat capacity)
  (hagree : agree → fileSize.toNat ≤ capacity)

include hlength hagree

/-- Where as much is returned as fits or as there is, lengths are reported if they agree, or if
there is an error before the buffer or after it. -/
theorem lengthsReported_of (herror : ¬checked ∨ overfull → ∃ e, result = .error e)
    (h : agree ∨ ¬checked ∨ fileSize.toNat < 2 ^ 63 ∧ overfull) :
    LengthsReported (if checked then afterCapacity? fileSize result else some result)
      fileSize.toNat agree := by
  have hanswer : ∀ out, (if checked then afterCapacity? fileSize result else some result) =
      some (.ok out) → result = .ok out := by
    intro out hout
    unfold afterCapacity? at hout
    split at hout
    · split at hout
      · exact Option.some.inj hout
      · exact nomatch hout
    · exact Option.some.inj hout
  rcases h with hall | hrefused
  · exact ⟨fun out hout => (hlength out (hanswer out hout)).trans (Nat.min_eq_left (hagree hall)),
      fun hnot => absurd hall hnot⟩
  · rcases herror (hrefused.imp_right And.right) with ⟨e, he⟩
    refine ⟨fun out hout => (nomatch he.symm.trans (hanswer out hout)), fun _ => ⟨e, ?_⟩⟩
    rw [he, afterCapacity?]
    rcases hrefused with hchecked | ⟨hsize, -⟩
    · rw [if_neg hchecked]
    · rw [if_pos hsize, ite_self]

/-- Where in addition nothing else is an error, lengths are reported only then. -/
theorem lengthsReported_iff (hok : (∃ out, result = .ok out) ↔ checked ∧ ¬overfull) :
    LengthsReported (if checked then afterCapacity? fileSize result else some result)
        fileSize.toNat agree ↔
      agree ∨ ¬checked ∨ fileSize.toNat < 2 ^ 63 ∧ overfull := by
  have herror : ¬checked ∨ overfull → ∃ e, result = .error e := by
    intro hrefused
    cases hresult : result with
    | error e => exact ⟨e, rfl⟩
    | ok out => exact absurd (hok.mp ⟨out, hresult⟩) (by tauto)
  refine ⟨fun hreported => ?_, lengthsReported_of hlength hagree herror⟩
  by_contra hnone
  obtain ⟨hnot, hchecked, hpanics⟩ : ¬agree ∧ checked ∧ (fileSize.toNat < 2 ^ 63 → ¬overfull) := by
    tauto
  rcases hreported.2 hnot with ⟨e, he⟩
  rw [if_pos hchecked, afterCapacity?] at he
  -- the buffer was allocated, and then all was read
  by_cases hsize : fileSize.toNat < 2 ^ 63
  · rw [if_pos hsize] at he
    rcases hok.mpr ⟨hchecked, hpanics hsize⟩ with ⟨out, hout⟩
    exact nomatch hout.symm.trans (Option.some.inj he)
  · rw [if_neg hsize] at he
    exact nomatch he

end Answer

end Lengths

section File

/-- The commitment is not one to as many blocks of the format, or its buffer can be allocated and
the first piece is longer than a point holds. -/
def FileRefused (numCiphertexts : ℕ) (commitment : FileCommitment D) : Prop :=
  ¬(UInt64.ofNat numCiphertexts = commitment.numBlocks ∧
      commitment.encodingVersion = reversiblePointEncodingV1) ∨
    commitment.fileSize.toNat < 2 ^ 63 ∧ 0 < numCiphertexts ∧
      reversiblePointPayloadSize < min commitment.fileSize.toNat commitment.blockSize.toNat

variable {ciphertexts : List (CiphertextBlock R)} {commitment : FileCommitment D}
  {x : DalekScalar}

theorem decryptFile_eq_ok {out : List UInt8} :
    decryptFileFromCiphertexts dalek ciphertexts commitment x = .ok out ↔
      UInt64.ofNat ciphertexts.length = commitment.numBlocks ∧
      commitment.encodingVersion = reversiblePointEncodingV1 ∧
      ciphertexts.foldlM (readPiece (decodeCipher x dalek) (fun _ => commitment.blockSize.toNat)
        commitment.fileSize.toNat) [] = .ok out := by
  unfold decryptFileFromCiphertexts
  rw [decryptCiphertext_eq, Blocks.guard_eq_ok, Blocks.guard_eq_ok, not_not, not_not]

/-- When a file is returned, and how much of it. -/
theorem decryptFile_ok :
    ((∃ out, decryptFileFromCiphertexts dalek ciphertexts commitment x = .ok out) ↔
      (UInt64.ofNat ciphertexts.length = commitment.numBlocks ∧
        commitment.encodingVersion = reversiblePointEncodingV1) ∧
      ¬(0 < ciphertexts.length ∧ reversiblePointPayloadSize <
        min commitment.fileSize.toNat commitment.blockSize.toNat)) ∧
    ∀ out, decryptFileFromCiphertexts dalek ciphertexts commitment x = .ok out →
      out.length =
        min commitment.fileSize.toNat (ciphertexts.length * commitment.blockSize.toNat) := by
  constructor
  · have hloop : (∃ out, ciphertexts.foldlM (readPiece (decodeCipher x dalek)
        (fun _ => commitment.blockSize.toNat) commitment.fileSize.toNat) [] = .ok out) ↔
          ¬(0 < ciphertexts.length ∧ reversiblePointPayloadSize <
            min commitment.fileSize.toNat commitment.blockSize.toNat) := by
      rw [List.length_pos_iff, not_and_or, not_not, Nat.not_lt]
      refine (foldlM_readPiece_nil_ok_iff fun _ _ _ _ => decodeCipher_length x).trans ?_
      -- all pieces are wanted at one length, and whether one decodes depends on nothing else
      refine (Reached.congr fun cipher n => ?_).trans (reached_const (Or.inl rfl))
      exact decodePointToChunk_ok_iff
    rw [← hloop]
    constructor
    · rintro ⟨out, hout⟩
      rcases decryptFile_eq_ok.mp hout with ⟨hcount, hversion, hread⟩
      exact ⟨⟨hcount, hversion⟩, out, hread⟩
    · rintro ⟨⟨hcount, hversion⟩, out, hread⟩
      exact ⟨out, decryptFile_eq_ok.mpr ⟨hcount, hversion, hread⟩⟩
  · intro out hout
    have hread := foldlM_readPiece_nil_length (fun _ _ _ _ => decodeCipher_length x)
      (decryptFile_eq_ok.mp hout).2.2
    rw [hread.1, List.map_const', List.sum_replicate, smul_eq_mul]

end File

section Packed

/-- The commitment is not one to as many blocks of the format, or its buffer can be allocated and
a piece that is read is longer than a point holds. -/
def PackedRefused (lengths : List (ℕ × List UInt8)) (commitment : FileCommitment D) : Prop :=
  ¬(UInt64.ofNat lengths.length = commitment.numBlocks ∧
      commitment.encodingVersion = accountableFileEncodingV2) ∨
    commitment.fileSize.toNat < 2 ^ 63 ∧ ReadsOver reversiblePointPayloadSize
      commitment.fileSize.toNat (lengths.flatMap readLengths)

variable {publicBlocks : List (PackedBlock R)} {commitment : FileCommitment D} {x : DalekScalar}

theorem decryptPackedBlocks_eq (fileSize : ℕ) (out : List UInt8) :
    publicBlocks.foldlM (decryptPackedBlock dalek x fileSize) out =
      (publicBlocks.flatMap (packedPieces x)).foldlM
        (readPiece (decodePacked dalek) packedWant fileSize) out := by
  rw [← foldlM_flatMap]
  simp only [← decryptPackedBlock_eq]

/-- The pieces are wanted at the lengths that are read. -/
theorem packedPieces_want : (publicBlocks.flatMap (packedPieces x)).map packedWant =
    (publicBlocks.map PackedBlock.lengths).flatMap readLengths := by
  rw [List.map_flatMap, List.flatMap_map]
  refine List.flatMap_congr fun b _ => ?_
  rw [packedPieces, List.map_map, ← zip_readLengths]
  rfl

theorem decryptPacked_eq_ok {out : List UInt8} :
    decryptAccountableFileFromCiphertexts dalek publicBlocks commitment x = .ok out ↔
      commitment.encodingVersion = accountableFileEncodingV2 ∧
      UInt64.ofNat publicBlocks.length = commitment.numBlocks ∧
      ∃ read, (publicBlocks.flatMap (packedPieces x)).foldlM (readPiece (decodePacked dalek)
        packedWant commitment.fileSize.toNat) [] = .ok read ∧
          out = read.take commitment.fileSize.toNat := by
  unfold decryptAccountableFileFromCiphertexts
  simp only [decryptPackedBlocks_eq]
  rw [Blocks.guard_eq_ok, Blocks.guard_eq_ok, Blocks.bind_eq_ok, not_not, not_not]
  refine and_congr_right fun _ => and_congr_right fun _ => exists_congr fun read => ?_
  exact and_congr_right fun _ => ⟨fun h => (Except.ok.inj h).symm, congrArg Except.ok ∘ Eq.symm⟩

/-- When an accountable file is returned, and how much of it. -/
theorem decryptPacked_ok :
    ((∃ out, decryptAccountableFileFromCiphertexts dalek publicBlocks commitment x = .ok out) ↔
      (UInt64.ofNat publicBlocks.length = commitment.numBlocks ∧
        commitment.encodingVersion = accountableFileEncodingV2) ∧
      ¬ReadsOver reversiblePointPayloadSize commitment.fileSize.toNat
        ((publicBlocks.map PackedBlock.lengths).flatMap readLengths)) ∧
    ∀ out, decryptAccountableFileFromCiphertexts dalek publicBlocks commitment x = .ok out →
      out.length = min commitment.fileSize.toNat
        ((publicBlocks.map PackedBlock.lengths).flatMap readLengths).sum := by
  constructor
  · have hloop : (∃ read, (publicBlocks.flatMap (packedPieces x)).foldlM (readPiece
        (decodePacked dalek) packedWant commitment.fileSize.toNat) [] = .ok read) ↔
          ¬ReadsOver reversiblePointPayloadSize commitment.fileSize.toNat
            ((publicBlocks.map PackedBlock.lengths).flatMap readLengths) := by
      rw [← not_reached_iff, not_not, ← packedPieces_want, reached_map]
      refine (foldlM_readPiece_nil_ok_iff fun _ _ _ _ => decodePacked_length).trans ?_
      refine Reached.congr fun p n => ?_
      exact decodePointToChunk_ok_iff
    rw [← hloop]
    constructor
    · rintro ⟨out, hout⟩
      rcases decryptPacked_eq_ok.mp hout with ⟨hversion, hcount, read, hread, -⟩
      exact ⟨⟨hcount, hversion⟩, read, hread⟩
    · rintro ⟨⟨hcount, hversion⟩, read, hread⟩
      exact ⟨_, decryptPacked_eq_ok.mpr ⟨hversion, hcount, read, hread, rfl⟩⟩
  · intro out hout
    rcases decryptPacked_eq_ok.mp hout with ⟨-, -, read, hread, rfl⟩
    rcases foldlM_readPiece_nil_length (fun _ _ _ _ => decodePacked_length) hread with
      ⟨hlength, hwhole⟩
    rw [hwhole, hlength, packedPieces_want]

end Packed

section Option1

/-- The lengths of Option 1 blocks agree with those of their commitment. -/
def Option1LengthsAgree (lengths : List ((ℕ × List UInt8) × ℕ))
    (commitment : Option1FileCommitment R D) : Prop :=
  LengthsAgree (commitment.pointPayloadSize.toNat * commitment.pointsPerBlock.toNat)
    commitment.fileSize.toNat (lengths.map Prod.fst)

/-- The selectors of a block take up more bytes than it has for them. -/
def SelectorsShort (l : (ℕ × List UInt8) × ℕ) : Prop :=
  l.2 < (l.1.1 * elligatorSelectorBits + 7) / 8

/-- The commitment is not one to as many blocks of the format, or its buffer can be allocated and
the selectors of a block are short or a piece that is read is longer than a point holds. -/
def Option1Refused (lengths : List ((ℕ × List UInt8) × ℕ))
    (commitment : Option1FileCommitment R D) : Prop :=
  ¬(UInt64.ofNat lengths.length = commitment.numBlocks ∧
      commitment.encodingVersion = option1FileEncodingV3) ∨
    commitment.fileSize.toNat < 2 ^ 63 ∧ ((∃ l ∈ lengths, SelectorsShort l) ∨
      ReadsOver elligatorPayloadBytes commitment.fileSize.toNat
        ((lengths.map Prod.fst).flatMap readLengths))

variable {publicBlocks : List (Option1CiphertextBlock R)} {commitment : Option1FileCommitment R D}
  {x : DalekScalar} {fileId : Bytes 32}

theorem unpackSelectors_length {bytes selectors : List UInt8} {count : ℕ}
    (h : unpackSelectors bytes count = .ok selectors) : selectors.length = count := by
  unfold unpackSelectors at h
  rcases Blocks.guard_eq_ok.mp h with ⟨-, hread⟩
  rw [← (Blocks.mapM_eq_ok.mp hread).length_eq, List.length_range]

/-- There is a selector for every point, so that the lengths read are those with a point. -/
theorem option1Pieces_want {p : Option1CiphertextBlock R × ℕ}
    {items : List (R × (R × UInt8) × UInt8)}
    (h : option1Pieces x sha dalek fileId p = .ok items) :
    items.map option1Want = readLengths p.1.lengths.1 := by
  rcases Blocks.bind_eq_ok.mp h with ⟨selectors, hselectors, hitems⟩
  have hcount := unpackSelectors_length hselectors
  cases hitems
  have hle : (p.1.c2Points.zip p.1.pointLengths).length ≤ selectors.length := by
    rw [List.length_zip, hcount]
    exact Nat.min_le_left _ _
  rw [List.map_map, Option1CiphertextBlock.lengths, ← zip_readLengths]
  conv_rhs => rw [← List.map_fst_zip hle, List.map_map]
  rfl

theorem option1Lists_want {lists : List (List (R × (R × UInt8) × UInt8))}
    (h : publicBlocks.zipIdx.mapM (option1Pieces x sha dalek fileId) = .ok lists) :
    lists.flatten.map option1Want =
      ((publicBlocks.map Option1CiphertextBlock.lengths).map Prod.fst).flatMap readLengths := by
  have hzip : List.Forall₂ (fun (p : Option1CiphertextBlock R × ℕ)
      (items : List (R × (R × UInt8) × UInt8)) =>
        items.map option1Want = readLengths p.1.lengths.1) publicBlocks.zipIdx lists :=
    (Blocks.mapM_eq_ok.mp h).imp fun _ _ => option1Pieces_want
  rw [← List.zipIdx_map_fst 0 publicBlocks]
  clear h
  generalize publicBlocks.zipIdx = blocks at hzip ⊢
  induction hzip with
  | nil => rfl
  | cons hfirst _ ih =>
      rw [List.flatten_cons, List.map_append, hfirst, ih, List.map_cons, List.map_cons,
        List.map_cons, List.flatMap_cons]

/-- The loop over the blocks succeeds when their selectors are unpacked and the loop over all
their points succeeds. -/
theorem decryptOption1Blocks_ok {fileSize : ℕ} {blocks : List (Option1CiphertextBlock R × ℕ)}
    {read : List UInt8} :
    blocks.foldlM (decryptOption1Block sha dalek library fileId x fileSize) [] = .ok read ↔
      ∃ lists, blocks.mapM (option1Pieces x sha dalek fileId) = .ok lists ∧
        lists.flatten.foldlM (readPiece (decodeOption1 dalek library) option1Want fileSize) [] =
          .ok read := by
  rw [← foldlM_pieces_ok]
  simp only [← decryptOption1Block_eq]

theorem decryptOption1_eq_ok {out : List UInt8} :
    decryptOption1FileFromCiphertexts sha dalek library publicBlocks commitment x = .ok out ↔
      commitment.encodingVersion = option1FileEncodingV3 ∧
      UInt64.ofNat publicBlocks.length = commitment.numBlocks ∧
      ∃ lists, publicBlocks.zipIdx.mapM (option1Pieces x sha dalek commitment.fileId) = .ok lists ∧
        ∃ read, lists.flatten.foldlM (readPiece (decodeOption1 dalek library) option1Want
          commitment.fileSize.toNat) [] = .ok read ∧
            out = read.take commitment.fileSize.toNat := by
  unfold decryptOption1FileFromCiphertexts
  rw [Blocks.guard_eq_ok, Blocks.guard_eq_ok, not_not, not_not]
  refine and_congr_right fun _ => and_congr_right fun _ => ?_
  dsimp only
  rcases hread : publicBlocks.zipIdx.foldlM (decryptOption1Block sha dalek library
    commitment.fileId x commitment.fileSize.toNat) [] with e | read
  · -- the loop over the blocks fails, so there is nothing that it has read
    refine ⟨fun h => (nomatch h), ?_⟩
    rintro ⟨lists, hlists, read, hpoints, -⟩
    exact nomatch hread.symm.trans (decryptOption1Blocks_ok.mpr ⟨lists, hlists, hpoints⟩)
  · constructor
    · intro h
      rcases decryptOption1Blocks_ok.mp hread with ⟨lists, hlists, hpoints⟩
      exact ⟨lists, hlists, read, hpoints, (Except.ok.inj h).symm⟩
    · rintro ⟨lists, hlists, read', hpoints, rfl⟩
      have hsame := hread.symm.trans (decryptOption1Blocks_ok.mpr ⟨lists, hlists, hpoints⟩)
      rw [Except.ok.inj hsame]

/-- How much of an Option 1 file is returned. -/
theorem decryptOption1_length {out : List UInt8}
    (hout : decryptOption1FileFromCiphertexts sha dalek library publicBlocks commitment x =
      .ok out) : out.length = min commitment.fileSize.toNat
        (((publicBlocks.map Option1CiphertextBlock.lengths).map Prod.fst).flatMap
          readLengths).sum := by
  rcases decryptOption1_eq_ok.mp hout with ⟨-, -, lists, hlists, read, hread, rfl⟩
  rcases foldlM_readPiece_nil_length (fun _ _ _ => decodeOption1_length) hread with
    ⟨hlength, hwhole⟩
  rw [hwhole, hlength, option1Lists_want hlists]

/-- The selectors of a block that is read are not short. -/
theorem option1Pieces_selectors {p : Option1CiphertextBlock R × ℕ}
    {items : List (R × (R × UInt8) × UInt8)} (h : option1Pieces x sha dalek fileId p = .ok items) :
    ¬SelectorsShort p.1.lengths := by
  rcases Blocks.bind_eq_ok.mp h with ⟨selectors, hselectors, -⟩
  unfold unpackSelectors at hselectors
  rcases Blocks.guard_eq_ok.mp hselectors with ⟨hlong, -⟩
  rwa [xorBytes_length (streamXorMask_length ..).ge] at hlong

/-- A piece that decodes is no longer than a point holds. -/
theorem decodeOption1_le {p : R × (R × UInt8) × UInt8} {n : ℕ} (hn : n ≤ option1Want p)
    {chunk : List UInt8} (h : decodeOption1 dalek library p n = .ok chunk) :
    n ≤ elligatorPayloadBytes := by
  have hbyte : n < UInt8.size := Nat.lt_of_le_of_lt hn (UInt8.toNat_lt_size _)
  unfold decodeOption1 decodeChunk at h
  rcases Blocks.guard_eq_ok.mp h with ⟨-, h⟩
  rcases Blocks.guard_eq_ok.mp h with ⟨hle, -⟩
  rw [UInt8.toNat_ofNat_of_lt' hbyte] at hle
  exact Nat.le_of_not_gt hle

/-- A commitment that differs, selectors that are short and a piece that is too long are errors,
whatever the codec answers. -/
theorem decryptOption1_error
    (h : ¬(UInt64.ofNat publicBlocks.length = commitment.numBlocks ∧
        commitment.encodingVersion = option1FileEncodingV3) ∨
      (∃ l ∈ publicBlocks.map Option1CiphertextBlock.lengths, SelectorsShort l) ∨
      ReadsOver elligatorPayloadBytes commitment.fileSize.toNat
        (((publicBlocks.map Option1CiphertextBlock.lengths).map Prod.fst).flatMap readLengths)) :
    ∃ e, decryptOption1FileFromCiphertexts sha dalek library publicBlocks commitment x =
      .error e := by
  rcases hresult : decryptOption1FileFromCiphertexts sha dalek library publicBlocks commitment x
    with e | out
  · exact ⟨e, rfl⟩
  rcases decryptOption1_eq_ok.mp hresult with ⟨hversion, hcount, lists, hlists, read, hread, -⟩
  exfalso
  rcases h with hchecked | ⟨l, hl, hshort⟩ | hover
  · exact hchecked ⟨hcount, hversion⟩
  · rcases List.mem_map.mp hl with ⟨b, hb, rfl⟩
    rcases List.mem_iff_getElem?.mp hb with ⟨i, hi⟩
    -- all blocks have their selectors unpacked
    have hpieces := (Blocks.mapM_eq_ok.mp hlists).imp fun p items hitems =>
      option1Pieces_selectors hitems
    rcases List.forall₂_iff_get.mp hpieces with ⟨hlength, hall⟩
    rcases List.getElem?_eq_some_iff.mp hi with ⟨hlt, rfl⟩
    have hzip : i < publicBlocks.zipIdx.length := by rwa [List.length_zipIdx]
    have := hall i hzip (hlength ▸ hzip)
    rw [List.get_eq_getElem, List.getElem_zipIdx] at this
    exact this hshort
  · refine not_reached_iff.mpr hover ?_
    rw [← option1Lists_want hlists, reached_map]
    refine Reached.mono ?_ ((foldlM_readPiece_nil_ok_iff fun _ _ _ =>
      decodeOption1_length).mp ⟨read, hread⟩)
    rintro p - n hn ⟨chunk, hchunk⟩
    exact decodeOption1_le hn hchunk

/-- Lengths that agree or are refused are reported, whatever the codec answers. -/
theorem option1_reported
    (h : Option1LengthsAgree (publicBlocks.map Option1CiphertextBlock.lengths) commitment ∨
      Option1Refused (publicBlocks.map Option1CiphertextBlock.lengths) commitment) :
    LengthsReported (decryptOption1FileFromCiphertexts? sha dalek library publicBlocks commitment x)
      commitment.fileSize.toNat
      (Option1LengthsAgree (publicBlocks.map Option1CiphertextBlock.lengths) commitment) := by
  unfold Option1Refused at h
  rw [List.length_map] at h
  exact lengthsReported_of (fun _ => decryptOption1_length)
    (fun hagree => (sum_readLengths hagree).ge) decryptOption1_error h

end Option1

section Decodable

variable {point : C → R} {codec : ElligatorLibrary C} {commitment : Option1FileCommitment R D}

/-- Whether a point decodes does not depend on the length, up to what a point holds. -/
theorem decodeChunk_any_length {m : R} {selector len : UInt8} {chunk : List UInt8}
    (h : decodeChunk dalek library m selector len = .ok chunk) {len' : UInt8}
    (hlen' : len'.toNat ≤ elligatorPayloadBytes) :
    ∃ chunk', decodeChunk dalek library m selector len' = .ok chunk' := by
  unfold decodeChunk at h ⊢
  rcases Blocks.guard_eq_ok.mp h with ⟨hselector, h⟩
  rcases Blocks.guard_eq_ok.mp h with ⟨-, h⟩
  rw [if_neg hselector, if_neg (Nat.not_lt.mpr hlen')]
  unfold externalDecodeChunk at h ⊢
  cases library with
  | none => exact nomatch h
  | some library =>
      rcases Blocks.guard_eq_ok.mp h with ⟨-, h⟩
      rcases Blocks.guard_eq_ok.mp h with ⟨-, h⟩
      rcases Blocks.guard_eq_ok.mp h with ⟨hok, h⟩
      rcases Blocks.guard_eq_ok.mp h with ⟨hbits, -⟩
      dsimp only at hok hbits ⊢
      rw [if_neg hselector, if_neg (Nat.not_lt.mpr hlen'), if_neg hok, if_neg hbits]
      exact ⟨_, rfl⟩

/-- The library decodes some point at every length. -/
theorem exists_decodable (hcodec : LawfulLibrary dalek codec point) :
    ∃ m selector, selector < elligatorSelectorValues ∧ ∀ n ≤ elligatorPayloadBytes,
      ∃ chunk, decodeChunk dalek (some codec) m selector (UInt8.ofNat n) = .ok chunk := by
  have hempty : ([] : List UInt8).length ≤ elligatorPayloadBytes := Nat.zero_le _
  rcases encodeChunk_codes hcodec hempty with ⟨enc, -, hcodes⟩
  refine ⟨enc.point, enc.selector, hcodes.selector_lt, fun n hn => ?_⟩
  refine decodeChunk_any_length hcodes.decoded ?_
  rwa [UInt8.toNat_ofNat_of_lt' (Nat.lt_of_le_of_lt hn (by decide))]

/-- As many bytes with the bits of one selector over and over. -/
def selectorBytes (selector : UInt8) (n : ℕ) : List UInt8 :=
  ((packSelectors (List.replicate (8 * n) selector)).toOption.getD []).take n

theorem selectorBytes_unpack {selector : UInt8} (hsmall : selector < elligatorSelectorValues)
    (n : ℕ) : (selectorBytes selector n).length = n ∧
      ∀ count, (count * elligatorSelectorBits + 7) / 8 ≤ n →
        unpackSelectors (selectorBytes selector n) count = .ok (List.replicate count selector) := by
  have hall : ∀ count, ∀ sel ∈ List.replicate count selector, sel < elligatorSelectorValues :=
    fun count sel hsel => List.eq_of_mem_replicate hsel ▸ hsmall
  rcases packSelectors_bitAt (hall (8 * n)) with ⟨packed, hpacked, hlen, hbits⟩
  have hwidth : elligatorSelectorBits = 3 := rfl
  have hbytes : selectorBytes selector n = packed.take n := by
    rw [selectorBytes, hpacked]
    rfl
  rw [List.length_replicate, hwidth] at hlen
  have hlength : (packed.take n).length = n := by
    rw [List.length_take, hlen]
    omega
  rw [hbytes]
  refine ⟨hlength, fun count hcount => ?_⟩
  have hread : unpackSelectors (packed.take n) (List.replicate count selector).length =
      .ok (List.replicate count selector) := by
    refine unpackSelectors_ok (hall count) ?_ fun k hk => ?_
    · rwa [List.length_replicate, hlength]
    · -- the bit is in the bytes that are kept, and both lists have the selector there
      rw [List.length_replicate, hwidth] at hk
      rw [hwidth] at hcount
      have hbyte : k / 8 < (packed.take n).length := by omega
      have hsame : ByteBits.bitAt (packed.take n) k = ByteBits.bitAt packed k := by
        unfold ByteBits.bitAt
        rw [List.getD_eq_getElem _ _ hbyte, List.getElem_take, List.getD_eq_getElem]
      rw [hsame, hbits, List.getD_eq_getElem _ _ (by rw [List.length_replicate]; omega),
        List.getD_eq_getElem _ _ (by rw [List.length_replicate]; omega), List.getElem_replicate,
        List.getElem_replicate]
  rwa [List.length_replicate] at hread

/-- A block of the given lengths for the position in a file: one point over and over, and one
selector, under the mask that every key takes off a block whose first point is the identity. -/
def decodableBlock (sha : Sha2) (dalek : Dalek R) (fileId : Bytes 32) (m : R) (selector : UInt8)
    (p : ((ℕ × List UInt8) × ℕ) × ℕ) : Option1CiphertextBlock R where
  c1 := 0
  c2Points := List.replicate p.1.1.1 m
  plaintextCommitments := []
  pointLengths := p.1.1.2
  selectorCiphertext := xorBytes (selectorBytes selector p.1.2)
    (streamXorMask sha dalek 0 fileId (UInt64.ofNat p.2) p.1.2)

theorem decodableBlock_lengths (sha : Sha2) (fileId : Bytes 32) (m : R) {selector : UInt8}
    (hsmall : selector < elligatorSelectorValues) (p : ((ℕ × List UInt8) × ℕ) × ℕ) :
    (decodableBlock sha dalek fileId m selector p).lengths = p.1 := by
  have hlen : (selectorBytes selector p.1.2).length ≤
      (streamXorMask sha dalek 0 fileId (UInt64.ofNat p.2) p.1.2).length := by
    rw [(selectorBytes_unpack hsmall p.1.2).1, streamXorMask_length]
  have hselectors := xorBytes_length hlen
  rw [(selectorBytes_unpack hsmall p.1.2).1] at hselectors
  simp only [Option1CiphertextBlock.lengths, PackedBlock.lengths, decodableBlock,
    List.length_replicate, hselectors, Prod.mk.eta]

/-- Its points are found under every key, all the same. -/
theorem decodableBlock_pieces (sha : Sha2) (fileId : Bytes 32) (m : R) {selector : UInt8}
    (hsmall : selector < elligatorSelectorValues) {p : ((ℕ × List UInt8) × ℕ) × ℕ}
    (hlong : ¬SelectorsShort p.1) (x : DalekScalar) :
    ∃ items, option1Pieces x sha dalek fileId (decodableBlock sha dalek fileId m selector p, p.2) =
      .ok items ∧ ∀ item ∈ items, item.1 = 0 ∧ item.2.1.1 = m ∧ item.2.2 = selector := by
  rcases selectorBytes_unpack hsmall p.1.2 with ⟨hlength, hunpack⟩
  have hlen : (selectorBytes selector p.1.2).length ≤
      (streamXorMask sha dalek 0 fileId (UInt64.ofNat p.2) p.1.2).length := by
    rw [hlength, streamXorMask_length]
  have hplain := xorBytes_xorBytes hlen
  have hcipher := xorBytes_length hlen
  rw [hlength] at hcipher
  refine ⟨_, Blocks.bind_eq_ok.mpr ⟨List.replicate p.1.1.1 selector, ?_, rfl⟩, ?_⟩
  · simp only [decodableBlock, smul_zero, hcipher, hplain, List.length_replicate]
    exact hunpack _ (Nat.le_of_not_gt hlong)
  · intro item hitem
    rcases List.mem_map.mp hitem with ⟨⟨⟨c2, len⟩, sel⟩, hzip, rfl⟩
    have hpoint := (List.of_mem_zip (List.of_mem_zip hzip).1).1
    exact ⟨smul_zero x, List.eq_of_mem_replicate hpoint,
      List.eq_of_mem_replicate (List.of_mem_zip hzip).2⟩

/-- Blocks of the given lengths, in order. -/
def decodableBlocks (sha : Sha2) (dalek : Dalek R) (fileId : Bytes 32) (m : R) (selector : UInt8)
    (lengths : List ((ℕ × List UInt8) × ℕ)) : List (Option1CiphertextBlock R) :=
  lengths.zipIdx.map (decodableBlock sha dalek fileId m selector)

theorem decodableBlocks_lengths (sha : Sha2) (dalek : Dalek R) (fileId : Bytes 32) (m : R)
    {selector : UInt8} (hsmall : selector < elligatorSelectorValues)
    (lengths : List ((ℕ × List UInt8) × ℕ)) :
    (decodableBlocks sha dalek fileId m selector lengths).map Option1CiphertextBlock.lengths =
      lengths := by
  rw [decodableBlocks, List.map_map]
  refine (List.map_congr_left fun p _ => decodableBlock_lengths sha fileId m hsmall p).trans ?_
  exact List.zipIdx_map_fst 0 lengths

/-- At lengths that are not refused they are decrypted, under every key. -/
theorem option1_decodable (sha : Sha2) {m : R} {selector : UInt8}
    (hsmall : selector < elligatorSelectorValues)
    (hdecodes : ∀ n ≤ elligatorPayloadBytes,
      ∃ chunk, decodeChunk dalek library m selector (UInt8.ofNat n) = .ok chunk)
    {lengths : List ((ℕ × List UInt8) × ℕ)}
    (hcount : UInt64.ofNat lengths.length = commitment.numBlocks)
    (hversion : commitment.encodingVersion = option1FileEncodingV3)
    (hlong : ∀ l ∈ lengths, ¬SelectorsShort l)
    (hover : ¬ReadsOver elligatorPayloadBytes commitment.fileSize.toNat
      ((lengths.map Prod.fst).flatMap readLengths)) (x : DalekScalar) :
    ∃ out, decryptOption1FileFromCiphertexts sha dalek library
      (decodableBlocks sha dalek commitment.fileId m selector lengths) commitment x = .ok out := by
  have hlengths := decodableBlocks_lengths sha dalek commitment.fileId m hsmall lengths
  -- every block is found, with points that decode
  obtain ⟨lists, hlists, hitems⟩ : ∃ lists,
      (decodableBlocks sha dalek commitment.fileId m selector lengths).zipIdx.mapM
        (option1Pieces x sha dalek commitment.fileId) = .ok lists ∧
        List.Forall₂ (fun _ items => ∀ item ∈ items, item.1 = 0 ∧ item.2.1.1 = m ∧
          item.2.2 = selector)
          (decodableBlocks sha dalek commitment.fileId m selector lengths).zipIdx lists := by
    refine Blocks.exists_mapM_eq_ok fun p hp => ?_
    have hget := List.mem_zipIdx_iff_getElem?.mp hp
    rw [decodableBlocks, List.getElem?_map, List.getElem?_zipIdx, Nat.zero_add,
      Option.map_map, Option.map_eq_some_iff] at hget
    rcases hget with ⟨l, hl, hblock⟩
    rw [show p = (p.1, p.2) from rfl, ← hblock]
    exact decodableBlock_pieces sha commitment.fileId m hsmall
      (hlong l (List.mem_of_getElem? hl)) x
  have hpoints : ∀ item ∈ lists.flatten, item.1 = 0 ∧ item.2.1.1 = m ∧ item.2.2 = selector := by
    intro item hitem
    rcases List.mem_flatten.mp hitem with ⟨items, hmem, hin⟩
    rcases List.mem_iff_get.mp hmem with ⟨i, rfl⟩
    rcases List.forall₂_iff_get.mp hitems with ⟨hlength, hall⟩
    exact hall i (by rw [hlength]; exact i.2) i.2 item hin
  have hreached : Reached (fun item n => ∃ chunk, decodeOption1 dalek library item n = .ok chunk)
      option1Want commitment.fileSize.toNat 0 lists.flatten := by
    have hbounded := not_not.mp (mt not_reached_iff.mp hover)
    rw [← hlengths, ← option1Lists_want hlists, reached_map] at hbounded
    refine Reached.mono (fun item hitem n _ hn => ?_) hbounded
    rcases hpoints item hitem with ⟨hshared, hpoint, hselector⟩
    rw [decodeOption1, hshared, hpoint, hselector, sub_zero]
    exact hdecodes n hn
  rcases (foldlM_readPiece_nil_ok_iff fun _ _ _ => decodeOption1_length).mpr hreached with
    ⟨read, hread⟩
  have hnum : UInt64.ofNat (decodableBlocks sha dalek commitment.fileId m selector lengths).length =
      commitment.numBlocks := by
    rw [decodableBlocks, List.length_map, List.length_zipIdx, hcount]
  exact ⟨_, decryptOption1_eq_ok.mpr ⟨hversion, hnum, lists, hlists, read, hread, rfl⟩⟩

end Decodable

section Remaining

variable {x : DalekScalar} {fileSize : ℕ}

theorem decryptCiphertexts_le {blockSize : ℕ} {ciphertexts : List (CiphertextBlock R)}
    {out : List UInt8}
    (h : ciphertexts.foldlM (decryptCiphertext dalek x fileSize blockSize) [] = .ok out) :
    out.length ≤ fileSize := by
  rw [decryptCiphertext_eq] at h
  exact foldlM_readPiece_le (fun _ _ _ _ => decodeCipher_length x) (Nat.zero_le _) h

/-- Within a block too: some points of it have been read after some blocks. -/
theorem decryptPackedPoints_le {publicBlocks : List (PackedBlock R)} {shared : R}
    {points : List (R × UInt8)} {read out : List UInt8}
    (hread : publicBlocks.foldlM (decryptPackedBlock dalek x fileSize) [] = .ok read)
    (hout : points.foldlM (decryptPackedPoint dalek shared fileSize) read = .ok out) :
    out.length ≤ fileSize := by
  have hlen : ∀ (p : R × R × UInt8) (n : ℕ) (piece : List UInt8), n ≤ packedWant p →
      decodePacked dalek p n = .ok piece → piece.length = n := fun _ _ _ _ => decodePacked_length
  have hpoints : (points.map fun p => (shared, p)).foldlM
      (readPiece (decodePacked dalek) packedWant fileSize) read = .ok out := by
    rw [List.foldlM_map]
    simpa only [← decryptPackedPoint_eq] using hout
  rw [decryptPackedBlocks_eq] at hread
  exact foldlM_readPiece_le hlen (foldlM_readPiece_le hlen (Nat.zero_le _) hread) hpoints

theorem decryptOption1Points_le {fileId : Bytes 32}
    {publicBlocks : List (Option1CiphertextBlock R × ℕ)} {shared : R}
    {points : List ((R × UInt8) × UInt8)} {read out : List UInt8}
    (hread : publicBlocks.foldlM (decryptOption1Block sha dalek library fileId x fileSize) [] =
      .ok read)
    (hout : points.foldlM (decryptOption1Point dalek library shared fileSize) read = .ok out) :
    out.length ≤ fileSize := by
  have hlen : ∀ (p : R × (R × UInt8) × UInt8) (n : ℕ) (piece : List UInt8),
      n ≤ option1Want p → decodeOption1 dalek library p n = .ok piece → piece.length = n :=
    fun _ _ _ => decodeOption1_length
  have hpoints : (points.map fun p => (shared, p)).foldlM
      (readPiece (decodeOption1 dalek library) option1Want fileSize) read = .ok out := by
    rw [List.foldlM_map]
    simpa only [← decryptOption1Point_eq] using hout
  rcases decryptOption1Blocks_ok.mp hread with ⟨lists, -, hlists⟩
  exact foldlM_readPiece_le hlen (foldlM_readPiece_le hlen (Nat.zero_le _) hlists) hpoints

end Remaining

section Main

/-- Each of the three decryption functions says so when lengths do not agree just where they are
refused: the commitment is not one to as many blocks of the format, or a buffer can have the size
and a piece that is read, or for Option 1 a string of selectors, has the wrong length. For
Option 1 that is so for the blocks of given lengths, where the library decodes what it encodes;
where it does not, refused lengths are still an error. The differences to the size never
underflow, wherever the loops stand. -/
theorem decryption_reports_lengths_iff (sha : Sha2) (ciphertexts : List (CiphertextBlock R))
    (packedBlocks : List (PackedBlock R)) (lengths : List ((ℕ × List UInt8) × ℕ))
    (commitment : FileCommitment D) (option1Commitment : Option1FileCommitment R D)
    (x : DalekScalar) {codec : ElligatorLibrary C} {point : C → R}
    (hcodec : LawfulLibrary dalek codec point) :
    (LengthsReported (decryptFileFromCiphertexts? dalek ciphertexts commitment x)
        commitment.fileSize.toNat
        (BlocksFit ciphertexts.length commitment.blockSize.toNat commitment.fileSize.toNat) ↔
      BlocksFit ciphertexts.length commitment.blockSize.toNat commitment.fileSize.toNat ∨
        FileRefused ciphertexts.length commitment) ∧
    (LengthsReported (decryptAccountableFileFromCiphertexts? dalek packedBlocks commitment x)
        commitment.fileSize.toNat
        (LengthsAgree commitment.blockSize.toNat commitment.fileSize.toNat
          (packedBlocks.map PackedBlock.lengths)) ↔
      LengthsAgree commitment.blockSize.toNat commitment.fileSize.toNat
          (packedBlocks.map PackedBlock.lengths) ∨
        PackedRefused (packedBlocks.map PackedBlock.lengths) commitment) ∧
    ((∀ (blocks : List (Option1CiphertextBlock R)) (key : DalekScalar),
        blocks.map Option1CiphertextBlock.lengths = lengths →
        LengthsReported
          (decryptOption1FileFromCiphertexts? sha dalek (some codec) blocks option1Commitment key)
          option1Commitment.fileSize.toNat (Option1LengthsAgree lengths option1Commitment)) ↔
      Option1LengthsAgree lengths option1Commitment ∨ Option1Refused lengths option1Commitment) ∧
    (∀ (library : Option (ElligatorLibrary C)) (blocks : List (Option1CiphertextBlock R))
      (key : DalekScalar),
      Option1LengthsAgree (blocks.map Option1CiphertextBlock.lengths) option1Commitment ∨
        Option1Refused (blocks.map Option1CiphertextBlock.lengths) option1Commitment →
      LengthsReported
        (decryptOption1FileFromCiphertexts? sha dalek library blocks option1Commitment key)
        option1Commitment.fileSize.toNat
        (Option1LengthsAgree (blocks.map Option1CiphertextBlock.lengths) option1Commitment)) ∧
    (∀ (fileSize blockSize : ℕ) (done : List (CiphertextBlock R)) (out : List UInt8),
      done.foldlM (decryptCiphertext dalek x fileSize blockSize) [] = .ok out →
        out.length ≤ fileSize) ∧
    (∀ (fileSize : ℕ) (done : List (PackedBlock R)) (shared : R) (points : List (R × UInt8))
      (read out : List UInt8),
      done.foldlM (decryptPackedBlock dalek x fileSize) [] = .ok read →
        points.foldlM (decryptPackedPoint dalek shared fileSize) read = .ok out →
          out.length ≤ fileSize) ∧
    (∀ (library : Option (ElligatorLibrary C)) (fileId : Bytes 32) (fileSize : ℕ)
      (done : List (Option1CiphertextBlock R × ℕ)) (shared : R)
      (points : List ((R × UInt8) × UInt8)) (read out : List UInt8),
      done.foldlM (decryptOption1Block sha dalek library fileId x fileSize) [] = .ok read →
        points.foldlM (decryptOption1Point dalek library shared fileSize) read = .ok out →
          out.length ≤ fileSize) := by
  refine ⟨?_, ?_, ⟨fun hreported => ?_, ?_⟩, ?_, ?_, ?_, ?_⟩
  · exact lengthsReported_iff decryptFile_ok.2 (fun hfit => hfit.1) decryptFile_ok.1
  · unfold PackedRefused
    rw [List.length_map]
    exact lengthsReported_iff decryptPacked_ok.2 (fun hagree => (sum_readLengths hagree).ge)
      decryptPacked_ok.1
  · by_contra hnone
    rw [not_or, Option1Refused, not_or, not_not] at hnone
    rcases hnone with ⟨hnot, hchecked, hpanics⟩
    rcases exists_decodable hcodec with ⟨m, selector, hsmall, hdecodes⟩
    -- blocks of these lengths are decoded, if there is a buffer for them
    have hlengths := decodableBlocks_lengths sha dalek option1Commitment.fileId m hsmall lengths
    rcases (hreported _ x hlengths).2 hnot with ⟨e, he⟩
    have hnum : UInt64.ofNat (decodableBlocks sha dalek option1Commitment.fileId m selector
        lengths).length = option1Commitment.numBlocks := by
      rw [← hchecked.1, ← hlengths, List.length_map, hlengths]
    rw [decryptOption1FileFromCiphertexts?, if_pos ⟨hnum, hchecked.2⟩, afterCapacity?] at he
    by_cases hsize : option1Commitment.fileSize.toNat < 2 ^ 63
    · have hread := not_or.mp fun h => hpanics ⟨hsize, h⟩
      rcases option1_decodable sha hsmall hdecodes hchecked.1 hchecked.2
        (fun l hl hshort => hread.1 ⟨l, hl, hshort⟩) hread.2 x with ⟨out, hout⟩
      rw [if_pos hsize, hout] at he
      exact nomatch Option.some.inj he
    · rw [if_neg hsize] at he
      exact nomatch he
  · rintro h blocks key rfl
    exact option1_reported h
  · exact fun _ _ _ => option1_reported
  · exact fun _ _ _ _ h => decryptCiphertexts_le h
  · exact fun _ _ _ _ _ _ => decryptPackedPoints_le
  · exact fun _ _ _ _ _ _ _ _ => decryptOption1Points_le

/-- A commitment to eight bytes in a block of five. -/
def shortCommitment (encodingVersion : UInt32) : FileCommitment ℕ where
  fileId := lineCommitment.fileId
  rootHash := 1
  numBlocks := 1
  blockSize := 5
  fileSize := 8
  encodingVersion := encodingVersion
  nonce := lineCommitment.serverNonce

/-- A block with a point of five bytes. -/
def shortBlock : Option1CiphertextBlock DalekScalar :=
  { c1 := 0, c2Points := [0], plaintextCommitments := [0], pointLengths := [5]
    selectorCiphertext := [1] }

/-- A point of five bytes is all that a commitment to five bytes wants. -/
theorem decryption_reports_lengths_iff_five :
    LengthsReported (decryptOption1FileFromCiphertexts? lineSha lineDalek (some lineLibrary)
        [shortBlock] { lineCommitment with fileSize := 5 } 0) 5
      (Option1LengthsAgree [shortBlock.lengths] { lineCommitment with fileSize := 5 }) ∧
    decryptOption1FileFromCiphertexts? lineSha lineDalek (some lineLibrary) [shortBlock]
      { lineCommitment with fileSize := 5 } 0 = some (.ok (List.replicate 5 0)) := by
  refine ⟨(decryption_reports_lengths_iff lineSha [] [] [shortBlock.lengths]
    (shortCommitment reversiblePointEncodingV1) { lineCommitment with fileSize := 5 } 0
    lineLibrary_lawful).2.2.1.mpr (Or.inl ⟨?_, rfl, by decide, Or.inr (by decide)⟩) _ 0 rfl,
    by decide +kernel⟩
  intro l hl
  rw [List.mem_singleton.mp hl]
  rfl

/-- Five bytes come back of a file of eight, in each of the three formats, and a size that no
buffer can have is a panic. -/
theorem short_files_decrypted :
    (∃ out, decryptFileFromCiphertexts? lineDalek [⟨0, 0⟩]
      (shortCommitment reversiblePointEncodingV1) 0 = some (.ok out) ∧
        out.length ≠ (shortCommitment reversiblePointEncodingV1).fileSize.toNat) ∧
    (∃ out, decryptAccountableFileFromCiphertexts? lineDalek [shortBlock.toPackedBlock]
      (shortCommitment accountableFileEncodingV2) 0 = some (.ok out) ∧
        out.length ≠ (shortCommitment accountableFileEncodingV2).fileSize.toNat) ∧
    (∃ out, decryptOption1FileFromCiphertexts? lineSha lineDalek (some lineLibrary) [shortBlock]
      { lineCommitment with fileSize := 8 } 0 = some (.ok out) ∧ out.length ≠ 8) ∧
    decryptFileFromCiphertexts? lineDalek [⟨0, 0⟩]
      { shortCommitment reversiblePointEncodingV1 with fileSize := 9223372036854775808 } 0 =
        none := by
  exact ⟨⟨List.replicate 5 0, by decide +kernel⟩, ⟨List.replicate 5 0, by decide +kernel⟩,
    ⟨List.replicate 5 0, by decide +kernel⟩, by decide +kernel⟩

end Main

end Ebut
