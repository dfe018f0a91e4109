import Ebut.Core.Option1Encryption
import Ebut.Theory.AccountableFile
import Ebut.Theory.ElligatorCodec

/-!
# Decryption Returns an Option 1 File

Any file is encrypted, since every chunk has an encoding, and decryption with the secret of
the file's key returns it. The shared point of a block is the same for both sides, so that
the stream that hides the selectors is, and is as long as they are; the selectors come back
by their number, and each point decodes with its selector at the length of its chunk.

The loops read one chunk and one block at a time, as the ones over packed blocks do.

## Main definitions

* `EncryptsOption1`: A block of a group of chunks, at its position.

## Theorems

* `streamXorMask_length`, `xorBytes_xorBytes`: The stream covers the string and undoes itself.
* `option1Block_encrypts`: Every group is encrypted.
* `decryptOption1Block_ok`: A block is decrypted to its group.
* `option1File_decrypts`: Every file is encrypted, and decrypted to itself.
-/

namespace Ebut

open Blocks MerkleTree

section Stream

theorem streamLoop_length {digest : UInt64 → Bytes 64} {len turns : ℕ} {counter : UInt64}
    {out : List UInt8} (hturns : len ≤ out.length + turns) :
    len ≤ (streamLoop digest len turns counter out).length := by
  induction turns generalizing counter out with
  | zero => exact hturns
  | succ turns ih =>
      rw [streamLoop]
      by_cases hopen : out.length < len
      · rw [if_pos hopen]
        refine ih ?_
        rw [List.length_append, List.Vector.toList_length]
        omega
      · rw [if_neg hopen]
        exact Nat.le_of_not_lt hopen

variable {R : Type} [AddCommGroup R] [Module DalekScalar R]

theorem streamXorMask_length (sha : Sha2) (dalek : Dalek R) (shared : R) (fileId : Bytes 32)
    (blockIndex : UInt64) (len : ℕ) :
    (streamXorMask sha dalek shared fileId blockIndex len).length = len := by
  unfold streamXorMask
  rw [List.length_take, Nat.min_eq_left (streamLoop_length (Nat.le_add_left _ _))]

theorem xorBytes_length {a mask : List UInt8} (hlen : a.length ≤ mask.length) :
    (xorBytes a mask).length = a.length := by
  rw [xorBytes, List.length_zipWith, Nat.min_eq_left hlen]

/-- A mask that covers a string is taken off by applying it again. -/
theorem xorBytes_xorBytes {a mask : List UInt8} (hlen : a.length ≤ mask.length) :
    xorBytes (xorBytes a mask) mask = a := by
  induction a generalizing mask with
  | nil => rfl
  | cons x a ih =>
      cases mask with
      | nil => exact absurd hlen (Nat.not_succ_le_zero _)
      | cons y mask =>
          have hrest := ih (Nat.le_of_succ_le_succ hlen)
          unfold xorBytes at hrest ⊢
          rw [List.zipWith_cons_cons, List.zipWith_cons_cons, hrest, UInt8.xor_assoc,
            UInt8.xor_self, UInt8.xor_zero]

end Stream

variable {R D C : Type} [AddCommGroup R] [Module DalekScalar R] {sha : Sha2} {dalek : Dalek R}
  {library : ElligatorLibrary C} {point : C → R} {fileId : Bytes 32} {fileBase : R}
  {x : DalekScalar}

/-- A block of a group of chunks at a position, under the key of a secret. -/
def EncryptsOption1 (sha : Sha2) (dalek : Dalek R) (library : ElligatorLibrary C)
    (fileId : Bytes 32) (fileBase : R) (x : DalekScalar) (group : List UInt8) (b : ℕ)
    (block : Option1CiphertextBlock R) : Prop :=
  ∃ (r : DalekScalar) (encs : List (EncodedRistrettoChunk R)) (packed : List UInt8),
    List.Forall₂ (Codes dalek library) (chunks option1PointPayloadSize group) encs ∧
    packSelectors (encs.map fun enc => enc.selector) = .ok packed ∧
    block.c1 = r • fileBase ∧
    block.c2Points = (encs.map fun enc => enc.point + r • (x • fileBase)) ∧
    block.pointLengths = (encs.map fun enc => enc.len) ∧
    block.selectorCiphertext = xorBytes packed (streamXorMask sha dalek (r • (x • fileBase)) fileId
      (UInt64.ofNat b) packed.length)

section Encrypt

variable (hlibrary : LawfulLibrary dalek library point)

include hlibrary

/-- Every group is encrypted. -/
theorem option1Block_encrypts (sha : Sha2) (fileId : Bytes 32) (fileBase : R) (x : DalekScalar)
    (commitmentBase : R) (r : DalekScalar) (s : ℕ → DalekScalar) (b : ℕ) (group : List UInt8) :
    ∃ pair, option1Block sha dalek (some library) fileId fileBase (x • fileBase) commitmentBase r s
        b group = .ok pair ∧
      EncryptsOption1 sha dalek library fileId fileBase x group b pair.1 := by
  have hpos : 0 < option1PointPayloadSize := by decide
  rcases exists_mapM_eq_ok fun chunk hchunk =>
    encodeChunk_codes hlibrary (mem_chunks (l := group) hpos hchunk).2 with ⟨encs, hencs, hcodes⟩
  rcases packSelectors_bitAt (selectors_small hcodes) with ⟨packed, hpacked, -, -⟩
  unfold option1Block
  simp only [hencs, hpacked, bind, Except.bind]
  exact ⟨_, rfl, r, encs, packed, hcodes, hpacked, rfl, rfl, rfl, rfl⟩

/-- Every file is encrypted, each of its groups at its position. -/
theorem createOption1File_encrypts (merkle : MerkleHashes D)
    (leafOf : Option1CiphertextBlock R → D) (coins : Option1FileCoins) (fileData : ByteSlice)
    (serverNonce fileSalt : Bytes 32) :
    ∃ file, createOption1FileCommitmentAuto sha dalek (some library) merkle leafOf coins fileId
        fileData fileBase (x • fileBase) serverNonce fileSalt = .ok file ∧
      List.Forall₂ (fun group p =>
          EncryptsOption1 sha dalek library fileId fileBase x group p.2 p.1)
        (chunks option1BlockPayloadSize fileData.bytes) file.publicBlocks.zipIdx ∧
      file.commitment.fileId = fileId ∧
      file.commitment.encodingVersion = option1FileEncodingV3 ∧
      file.commitment.numBlocks = UInt64.ofNat file.publicBlocks.length ∧
      file.commitment.fileSize.toNat = fileData.bytes.length := by
  let commitmentBase := deriveOption1CommitmentBase sha dalek fileId fileBase (x • fileBase)
  rcases exists_mapM_eq_ok (l := (chunks option1BlockPayloadSize fileData.bytes).zipIdx)
    fun p _ => option1Block_encrypts hlibrary sha fileId fileBase x commitmentBase (coins.r p.2)
      (coins.s p.2) p.2 p.1 with ⟨pairs, hpairs, hblocks⟩
  unfold createOption1FileCommitmentAuto
  simp only [commitmentBase] at hpairs
  simp only [hpairs]
  refine ⟨_, rfl, ?_, rfl, rfl, rfl, ?_⟩
  · refine forall₂_zipIdx (P := fun group b block =>
      EncryptsOption1 sha dalek library fileId fileBase x group b block) ?_
    rw [List.forall₂_map_right_iff]
    exact hblocks
  · exact UInt64.toNat_ofNat_of_lt' fileData.length_lt

end Encrypt

section Decrypt

variable {fileSize : ℕ}

theorem decryptOption1Point_ok {shared : R} {chunk : List UInt8} {enc : EncodedRistrettoChunk R}
    (henc : Codes dalek library chunk enc) (hne : chunk ≠ []) {out : List UInt8}
    (hsize : out.length + chunk.length ≤ fileSize) :
    decryptOption1Point dalek (some library) shared fileSize out
      ((enc.point + shared, enc.len), enc.selector) = .ok (out ++ chunk) := by
  have hpos : 0 < chunk.length := List.length_pos_of_ne_nil hne
  have hopen : ¬out.length ≥ fileSize := by omega
  have hlen : min (fileSize - out.length) enc.len.toNat = enc.len.toNat := by
    rw [henc.len]
    omega
  unfold decryptOption1Point
  rw [if_neg hopen]
  simp only [hlen, UInt8.ofNat_toNat, add_sub_cancel_right, henc.decoded]
  rfl

/-- A block is decrypted to its group. -/
theorem decryptOption1Block_ok {group out : List UInt8} {p : Option1CiphertextBlock R × ℕ}
    (hblock : EncryptsOption1 sha dalek library fileId fileBase x group p.2 p.1)
    (hsize : out.length + group.length ≤ fileSize) :
    decryptOption1Block sha dalek (some library) fileId x fileSize out p = .ok (out ++ group) := by
  have hpos : 0 < option1PointPayloadSize := by decide
  rcases hblock with ⟨r, encs, packed, hcodes, hpacked, hc1, hpoints, hlengths, hselectors⟩
  have hcover : packed.length ≤ (streamXorMask sha dalek (r • (x • fileBase)) fileId
      (UInt64.ofNat p.2) packed.length).length := by rw [streamXorMask_length]
  -- under the mask are the packed selectors of the encoder
  rcases unpackSelectors_packSelectors (selectors_small hcodes) with ⟨packed', hpacked', hunpacked⟩
  rw [hpacked] at hpacked'
  cases hpacked'
  have hflat := flatten_chunks hpos group
  have hroom : out.length + (chunks option1PointPayloadSize group).flatten.length ≤ fileSize := by
    rw [hflat]
    exact hsize
  have hcount : encs.length = (encs.map fun enc => enc.selector).length := by rw [List.length_map]
  unfold decryptOption1Block
  simp only [hc1, hpoints, hlengths, hselectors, smul_comm x r, xorBytes_length hcover,
    xorBytes_xorBytes hcover, List.length_map]
  rw [hcount, hunpacked]
  simp only [bind, Except.bind, List.zip_map']
  refine (foldlM_flatten ?_ hroom).trans (by rw [hflat])
  rw [List.forall₂_map_right_iff, List.forall₂_iff_get]
  refine ⟨hcodes.length_eq, fun i hi hi' out hroom => ?_⟩
  exact decryptOption1Point_ok (hcodes.get hi hi') (mem_chunks hpos (List.get_mem _ _)).1 hroom

/-- Every file is encrypted, and decrypted to itself with the secret of its key. -/
theorem option1File_decrypts (hlibrary : LawfulLibrary dalek library point)
    (merkle : MerkleHashes D) (leafOf : Option1CiphertextBlock R → D) (coins : Option1FileCoins)
    (fileId : Bytes 32) (fileData : ByteSlice) (fileBase : R) (x : DalekScalar)
    (serverNonce fileSalt : Bytes 32) :
    ∃ file, createOption1FileCommitmentAuto sha dalek (some library) merkle leafOf coins fileId
        fileData fileBase (x • fileBase) serverNonce fileSalt = .ok file ∧
      decryptOption1FileFromCiphertexts sha dalek (some library) file.publicBlocks file.commitment
        x = .ok fileData.bytes := by
  rcases createOption1File_encrypts hlibrary merkle leafOf coins fileData serverNonce fileSalt with
    ⟨file, hcreate, hblocks, hid, hversion, hcount, hsize⟩
  refine ⟨file, hcreate, ?_⟩
  have hflat := flatten_chunks (n := option1BlockPayloadSize) (by decide) fileData.bytes
  have hfits : ([] : List UInt8).length +
      (chunks option1BlockPayloadSize fileData.bytes).flatten.length ≤ fileData.bytes.length := by
    rw [hflat, List.length_nil, Nat.zero_add]
  have hread := foldlM_flatten
    (hblocks.imp fun group p hblock out hroom => decryptOption1Block_ok hblock hroom) hfits
  rw [hflat, List.nil_append] at hread
  unfold decryptOption1FileFromCiphertexts
  rw [if_neg (not_not.mpr hversion), if_neg (not_not.mpr hcount.symm)]
  simp only [hid, hsize, hread]
  exact congrArg Except.ok List.take_length

end Decrypt

section Example

/-- A bit of the quotient of a number by the order, as a mask. -/
def lineMask (n q : ℕ) : UInt64 := if (n / dalekOrder).testBit q then ~~~0 else 0

/-- The power of two that a mask stands for. -/
def lineBit (mask : UInt64) (q : ℕ) : ℕ := if mask ≠ 0 then 2 ^ q else 0

/-- A library over the scalars: a string is the quotient and the remainder of the number that
it denotes by the order, the remainder a point and the quotient the three masks. -/
def lineLibrary : ElligatorLibrary DalekScalar where
  encodeSingleMessage := fun ser =>
    let n := LittleEndian.leNat ser.toList
    ⟨(n : DalekScalar), lineMask n 0, lineMask n 1, lineMask n 2⟩
  decodeSingleMessage := fun c t altx s =>
    leArray 32 (c.val + dalekOrder * (lineBit t 0 + lineBit altx 1 + lineBit s 2))
  serializeMalicious := lineDalek.compress
  deserializeMalicious := fun bytes => (-1, (LittleEndian.leNat bytes.toList : DalekScalar))

theorem lineMask_isMask (n q : ℕ) : IsMask (lineMask n q) := by
  unfold lineMask
  split
  · exact Or.inr rfl
  · exact Or.inl rfl

theorem lineBit_lineMask (n q : ℕ) :
    lineBit (lineMask n q) q = if (n / dalekOrder).testBit q then 2 ^ q else 0 := by
  unfold lineMask lineBit
  by_cases hq : (n / dalekOrder).testBit q
  · rw [if_pos hq, if_pos hq, if_pos (by decide)]
  · rw [if_neg hq, if_neg hq, if_neg (by decide)]

/-- A number of three bits is the sum of them. -/
theorem sum_bits {n : ℕ} (hn : n < 8) :
    (if n.testBit 0 then 2 ^ 0 else 0) + (if n.testBit 1 then 2 ^ 1 else 0) +
      (if n.testBit 2 then 2 ^ 2 else 0) = n := by
  interval_cases n <;> rfl

theorem lineLibrary_lawful : LawfulLibrary lineDalek lineLibrary id where
  mask_t := fun _ => lineMask_isMask _ 0
  mask_altx := fun _ => lineMask_isMask _ 1
  mask_s := fun _ => lineMask_isMask _ 2
  decode_encode := fun ser _ hlt c hc => by
    have hquot : LittleEndian.leNat ser.toList / dalekOrder < 8 := by
      rw [Nat.div_lt_iff_lt_mul (by decide)]
      exact hlt.trans (by decide)
    have hval : c.val = LittleEndian.leNat ser.toList % dalekOrder := by
      rw [show c = (LittleEndian.leNat ser.toList : DalekScalar) from hc, ZMod.val_natCast]
    let n := LittleEndian.leNat ser.toList
    show leArray 32 (c.val + dalekOrder * (lineBit (lineMask n 0) 0 + lineBit (lineMask n 1) 1 +
      lineBit (lineMask n 2) 2)) = ser
    rw [lineBit_lineMask, lineBit_lineMask, lineBit_lineMask, sum_bits hquot, hval,
      Nat.mod_add_div, leArray_leNat]
  serialize := fun _ => rfl
  deserialize := fun m => by
    have hlt : m.val < 256 ^ 32 :=
      (ZMod.val_lt m).trans (by decide +kernel : dalekOrder < 256 ^ 32)
    refine ⟨show (-1 : ℤ) ≠ 0 by decide, ?_⟩
    show ((LittleEndian.leNat (leArray 32 m.val).toList : ℕ) : DalekScalar) = m
    rw [leNat_leArray hlt, ZMod.natCast_zmod_val]
  decompress_compress := lineDalek_decompress

theorem option1File_decrypts_two :
    ∃ file, createOption1FileCommitmentAuto lineSha lineDalek (some lineLibrary) lineMerkle
        (fun _ => 5) ⟨fun _ => 2, fun _ _ => 3⟩ (leArray 32 1) twoBlocks 3
        ((5 : DalekScalar) • (3 : DalekScalar)) (leArray 32 2) (leArray 32 3) = .ok file ∧
      decryptOption1FileFromCiphertexts lineSha lineDalek (some lineLibrary) file.publicBlocks
        file.commitment 5 = .ok twoBlocks.bytes :=
  option1File_decrypts lineLibrary_lawful lineMerkle (fun _ => 5) ⟨fun _ => 2, fun _ _ => 3⟩
    (leArray 32 1) twoBlocks 3 5 (leArray 32 2) (leArray 32 3)

end Example

end Ebut
