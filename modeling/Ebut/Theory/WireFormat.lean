import Ebut.Core.WireFormat
import Ebut.Theory.AccountableFile

/-!
# What Is Read Back from the Wire

A single point is written behind its length and read without it, so that whatever follows is
read from eight bytes further back, and from eight more after the next point. It is read back
only where it repeats the bytes that the reader is behind by, and these are lengths of an
encoding: a point or a scalar after it has to be encoded by four such lengths.

A Merkle path never is. Its number of elements would have to be a length of an encoding, so
that it has elements, and the first of them starts with a truth value that is read from a
length. Every block of every proof has points and then a path, so that no proof with a block
is read back.

## Main definitions

* `fourLengths`: The length of an encoding, four times.
* `CompressInverse`: The compressed encoding of points has an inverse.
* `BatchReadBack`: The points and scalars of a batch proof that are read back.

## Theorems

* `readsBehind_point`: A point leaves the reader behind by one more length.
* `readsBehind_merklePath`: A path after a point is not read back.
* `fileTypes_readBack_iff`: What is read back of each of the five types.
-/

namespace Ebut

open LittleEndian Bincode

/-- The length of an encoding, four times, as the encoding of a point or of a scalar. -/
def fourLengths : List UInt8 := power (leBytes 8 32) 4

variable {R : Type} [AddCommGroup R] [Module DalekScalar R] {dalek : Dalek R}

/-- The two directions of the compressed encoding are inverse. -/
def CompressInverse (dalek : Dalek R) : Prop :=
  ∀ bytes p, dalek.decompress bytes = some p ↔ dalek.compress p = bytes

section Fields

theorem pointOfWire_iff (hinv : CompressInverse dalek) (message : String) (bytes : Bytes 32)
    (p : R) : pointOfWire dalek message bytes = .ok p ↔ dalek.compress p = bytes := by
  rw [← hinv]
  unfold pointOfWire
  cases dalek.decompress bytes with
  | none => exact ⟨fun h => (nomatch h), fun h => (nomatch h)⟩
  | some q => exact ⟨fun h => congrArg some (Except.ok.inj h),
      fun h => congrArg Except.ok (Option.some.inj h)⟩

theorem scalarOfWire_iff (bytes : Bytes 32) (s : DalekScalar) :
    scalarOfWire bytes = .ok s ↔ DalekScalar.toBytes s = bytes := by
  have hlt : s.val < 256 ^ 32 := (ZMod.val_lt s).trans (by decide +kernel : dalekOrder < 256 ^ 32)
  unfold scalarOfWire
  constructor
  · intro h
    split at h
    · rename_i hcanonical
      rw [← Except.ok.inj h]
      unfold DalekScalar.toBytes
      rw [ZMod.val_natCast_of_lt hcanonical, leArray_leNat]
    · exact nomatch h
  · rintro rfl
    have hval : leNat (DalekScalar.toBytes s).toList = s.val := leNat_leArray hlt
    rw [hval, if_pos (ZMod.val_lt s), ZMod.natCast_zmod_val]

/-- A point leaves the reader behind by one more length. -/
theorem readsBehind_point (hinv : CompressInverse dalek) (k : ℕ) :
    ReadsBehind (ristrettoSerde dalek) (power (leBytes 8 32) k)
      (fun _ => power (leBytes 8 32) (k + 1)) fun p => (dalek.compress p).toList = fourLengths :=
  readsBehind_refine (pointOfWire_iff hinv _)
    (readsBehind_arrayBehindLength (m := 4) k rfl (by norm_num))

variable {k : ℕ} (hk : 0 < k)

include hk

/-- An array that is read from behind some lengths. -/
theorem readsBehind_array32 : ReadsBehind (array 32) (power (leBytes 8 32) k)
    (fun _ => power (leBytes 8 32) k) fun a => a.toList = fourLengths :=
  readsBehind_array_power (m := 4) hk rfl

theorem readsBehind_scalar : ReadsBehind scalarSerde (power (leBytes 8 32) k)
    (fun _ => power (leBytes 8 32) k) fun s => (DalekScalar.toBytes s).toList = fourLengths :=
  readsBehind_refine scalarOfWire_iff (readsBehind_array32 hk)

/-- A list of points stays behind: it has as many as an encoding has bytes. -/
theorem readsBehind_pointVec (hinv : CompressInverse dalek) :
    ReadsBehind (ristrettoVecSerde dalek) (power (leBytes 8 32) k)
      (fun _ => power (leBytes 8 32) k) fun l =>
        (l.length < 2 ^ 64 ∧ (UInt64.ofNat l.length).toNat = 32) ∧
          ∀ p ∈ l, (dalek.compress p).toList = fourLengths :=
  readsBehind_seq (readsBehind_u64_power hk (by norm_num))
    (readsBehind_refine (pointOfWire_iff hinv _) (readsBehind_array32 hk))

theorem readsBehind_byteVec : ReadsBehind byte.seq (power (leBytes 8 32) k)
    (fun _ => power (leBytes 8 32) k) fun l => l = fourLengths :=
  readsBehind_bytes_power (m := 4) hk rfl (by norm_num)

/-- A path is not read back from behind some lengths: it would have elements, and the first
byte of one would be the first of a length. -/
theorem readsBehind_merklePath (E : List (Bool × Bytes 32) → List UInt8) :
    ReadsBehind merklePathCodec (power (leBytes 8 32) k) E fun _ => False := by
  have hbool := readsBehind_bool_power (w := leBytes 7 (32 / 256)) (b := UInt8.ofNat 32) hk
    (by decide) (by decide) (fun _ => power (leBytes 8 32) k)
  have helement := (readsBehind_pair hbool (readsBehind_array32 hk))
  refine (readsBehind_seq (readsBehind_u64_power hk (by norm_num)) helement).of_false ?_ E
  rintro l ⟨⟨hlt, hlen⟩, hall⟩
  cases l with
  | nil => exact absurd hlen (by decide)
  | cons element l => exact (hall element List.mem_cons_self).1

end Fields

section Blocks

variable (hinv : CompressInverse dalek)

include hinv

theorem readsBehind_ciphertext : ReadsBehind (ciphertextBlockCodec dalek) []
    (fun _ => power (leBytes 8 32) 2) fun v =>
      (dalek.compress v.c1).toList = fourLengths ∧ (dalek.compress v.c2).toList = fourLengths :=
  readsBehind_iso (fun _ => rfl) (fun _ => rfl)
    (readsBehind_pair (readsBehind_point hinv 0) (readsBehind_point hinv 1))

/-- Two points and a path, whatever follows. -/
theorem readsBehind_blockProof :
    ReadsBehind (blockProofCodec dalek) [] (fun _ => []) fun _ => False := by
  have hpath := readsBehind_pair_false (readsBehind_merklePath (k := 3) (by omega) fun _ => [])
    (dleqProofCodec dalek).option fun _ => []
  exact (readsBehind_iso (fun _ => rfl) (fun _ => rfl)
    (readsBehind_pair readsBehind_u64 (readsBehind_pair (readsBehind_ciphertext hinv)
      (readsBehind_pair (readsBehind_point hinv 2) hpath)))).of_false (fun _ h => h.2.2.2) _

omit hinv [AddCommGroup R] [Module DalekScalar R] in
/-- A block with its position and its path is not read back where the reader is behind after
the block. -/
theorem readsBehind_challengedBlock {B : Type} {block : Bincode.Codec B} {k : ℕ} {P : B → Prop}
    (hk : 0 < k) (hblock : ReadsBehind block [] (fun _ => power (leBytes 8 32) k) P) :
    ReadsBehind (challengedBlockCodec block) [] (fun _ => []) fun _ => False := by
  have hpath := readsBehind_merklePath hk fun _ => []
  exact (readsBehind_iso (fun _ => rfl) (fun _ => rfl)
    (readsBehind_pair readsBehind_u64 (readsBehind_pair hblock hpath))).of_false
      (fun _ h => h.2.2) _

theorem readsBehind_privateBlock :
    ReadsBehind (challengedBlockCodec (privateCiphertextBlockCodec dalek)) [] (fun _ => [])
      fun _ => False :=
  readsBehind_challengedBlock (k := 3) (by omega) (readsBehind_iso (fun _ => rfl) (fun _ => rfl)
    (readsBehind_pair (readsBehind_ciphertext hinv) (readsBehind_point hinv 2)))

theorem readsBehind_packedBlock :
    ReadsBehind (challengedBlockCodec (packedBlockCodec dalek)) [] (fun _ => [])
      fun _ => False :=
  readsBehind_challengedBlock (k := 1) (by omega) (readsBehind_iso (fun _ => rfl) (fun _ => rfl)
    (readsBehind_pair (readsBehind_point hinv 0)
      (readsBehind_pair (readsBehind_pointVec (by omega) hinv)
        (readsBehind_pair (readsBehind_pointVec (by omega) hinv)
          (readsBehind_byteVec (by omega))))))

theorem readsBehind_option1Block :
    ReadsBehind (challengedBlockCodec (option1CiphertextBlockCodec dalek)) [] (fun _ => [])
      fun _ => False :=
  readsBehind_challengedBlock (k := 1) (by omega) (readsBehind_iso (fun _ => rfl) (fun _ => rfl)
    (readsBehind_pair (readsBehind_point hinv 0)
      (readsBehind_pair (readsBehind_pointVec (by omega) hinv)
        (readsBehind_pair (readsBehind_pointVec (by omega) hinv)
          (readsBehind_pair (readsBehind_byteVec (by omega))
            (readsBehind_byteVec (by omega)))))))

end Blocks

section Types

variable (hinv : CompressInverse dalek)

/-- The points and scalars of a batch proof are read back: each is encoded by four lengths. -/
def BatchReadBack (dalek : Dalek R) (a1 a2 : R) (scalars : List DalekScalar) : Prop :=
  (dalek.compress a1).toList = fourLengths ∧ (dalek.compress a2).toList = fourLengths ∧
    ∀ s ∈ scalars, (DalekScalar.toBytes s).toList = fourLengths

include hinv

/-- The proofs with two points and two scalars behind their blocks. -/
theorem readsBehind_twoPointsTwoScalars :
    ReadsBehind ((ristrettoSerde dalek).pair ((ristrettoSerde dalek).pair
      (scalarSerde.pair scalarSerde))) [] (fun _ => power (leBytes 8 32) 2) fun p =>
        BatchReadBack dalek p.1 p.2.1 [p.2.2.1, p.2.2.2] := by
  refine (readsBehind_pair (readsBehind_point hinv 0) (readsBehind_pair (readsBehind_point hinv 1)
    (readsBehind_pair (readsBehind_scalar (by omega)) (readsBehind_scalar (by omega))))).congr
      fun p => ?_
  unfold BatchReadBack
  simp only [List.forall_mem_cons, List.not_mem_nil, false_implies, implies_true, and_true]

theorem readsBehind_dleqProof : ReadsBehind (dleqProofCodec dalek) []
    (fun _ => power (leBytes 8 32) 2) fun v => BatchReadBack dalek v.t1 v.t2 [v.s] := by
  refine (readsBehind_iso (fun _ => rfl) (fun _ => rfl) (readsBehind_pair (readsBehind_point hinv 0)
    (readsBehind_pair (readsBehind_point hinv 1) (readsBehind_scalar (by omega))))).congr
      fun v => ?_
  unfold BatchReadBack
  simp only [List.forall_mem_cons, List.not_mem_nil, false_implies, implies_true, and_true]

omit hinv [AddCommGroup R] [Module DalekScalar R] in
/-- A proof whose blocks are not read back has none, and its batch proof is read back. -/
theorem readsBehind_fileProof {B P : Type} {block : Bincode.Codec B} {batch : Bincode.Codec P}
    {E : P → List UInt8} {Q : P → Prop}
    (hblock : ReadsBehind block [] (fun _ => []) fun _ => False)
    (hbatch : ReadsBehind batch [] E Q) :
    ReadsBehind ((array 32).pair ((array 32).pair (block.seq.pair batch))) []
      (fun p => E p.2.2.2) fun p => p.2.2.1 = [] ∧ Q p.2.2.2 := by
  refine (readsBehind_pair (readsBehind_array 32) (readsBehind_pair (readsBehind_array 32)
    (readsBehind_pair (readsBehind_seq_false hblock) hbatch))).congr fun p => ?_
  rw [true_and, true_and]

theorem fileProof_readBack_iff (v : FileProof R (Bytes 32)) :
    (fileProofCodec dalek).deserialize ((fileProofCodec dalek).serialize v) = .ok v ↔
      v.blocks = [] ∧ ∀ proof ∈ v.batchProof, BatchReadBack dalek proof.t1 proof.t2 [proof.s] :=
  deserialize_serialize_iff (readsBehind_iso (fun _ => rfl) (fun _ => rfl)
    (readsBehind_fileProof (readsBehind_blockProof hinv)
      (readsBehind_option (readsBehind_dleqProof hinv)))) v

theorem privateFileProof_readBack_iff (v : PrivateFileProof R (Bytes 32)) :
    (privateFileProofCodec dalek).deserialize ((privateFileProofCodec dalek).serialize v) =
        .ok v ↔
      v.blocks = [] ∧ BatchReadBack dalek v.batchProof.a1 v.batchProof.a2
        [v.batchProof.zR, v.batchProof.zMinusS] :=
  deserialize_serialize_iff (readsBehind_iso (fun _ => rfl) (fun _ => rfl)
    (readsBehind_fileProof (readsBehind_privateBlock hinv)
      (readsBehind_iso (fun _ => rfl) (fun _ => rfl) (readsBehind_twoPointsTwoScalars hinv)))) v

theorem readsBehind_batchProof : ReadsBehind (batchProofCodec dalek) []
    (fun _ => power (leBytes 8 32) 2) fun v => BatchReadBack dalek v.a1 v.a2 [v.zR, v.zMinusS] :=
  readsBehind_iso (fun _ => rfl) (fun _ => rfl) (readsBehind_twoPointsTwoScalars hinv)

theorem accountableFileProof_readBack_iff (v : AccountableFileProof R (Bytes 32)) :
    (accountableFileProofCodec dalek).deserialize ((accountableFileProofCodec dalek).serialize v) =
        .ok v ↔
      v.blocks = [] ∧ BatchReadBack dalek v.batchProof.a1 v.batchProof.a2
        [v.batchProof.zR, v.batchProof.zMinusS] :=
  deserialize_serialize_iff (readsBehind_iso (fun _ => rfl) (fun _ => rfl)
    (readsBehind_fileProof (readsBehind_packedBlock hinv) (readsBehind_batchProof hinv))) v

theorem option1FileProof_readBack_iff (v : Option1FileProof R (Bytes 32)) :
    (option1FileProofCodec dalek).deserialize ((option1FileProofCodec dalek).serialize v) =
        .ok v ↔
      v.blocks = [] ∧ BatchReadBack dalek v.batchProof.a1 v.batchProof.a2
        [v.batchProof.zR, v.batchProof.zMinusS] :=
  deserialize_serialize_iff (readsBehind_iso (fun _ => rfl) (fun _ => rfl)
    (readsBehind_fileProof (readsBehind_option1Block hinv) (readsBehind_batchProof hinv))) v

/-- The three bases come in front of the salt and the nonce, which are read from behind. -/
theorem option1FileCommitment_readBack_iff (v : Option1FileCommitment R (Bytes 32)) :
    (option1FileCommitmentCodec dalek).deserialize
        ((option1FileCommitmentCodec dalek).serialize v) = .ok v ↔
      (dalek.compress v.fileBase).toList = fourLengths ∧
      (dalek.compress v.filePublicKey).toList = fourLengths ∧
      (dalek.compress v.commitmentBase).toList = fourLengths ∧
      v.fileSalt.toList = fourLengths ∧ v.serverNonce.toList = fourLengths := by
  refine (deserialize_serialize_iff (readsBehind_iso (fun _ => rfl) (fun _ => rfl)
    (readsBehind_pair (readsBehind_array 32) (readsBehind_pair (readsBehind_array 32)
      (readsBehind_pair readsBehind_u64 (readsBehind_pair readsBehind_u64
        (readsBehind_pair readsBehind_u64 (readsBehind_pair readsBehind_u64
          (readsBehind_pair readsBehind_u32 (readsBehind_pair (readsBehind_point hinv 0)
            (readsBehind_pair (readsBehind_point hinv 1)
              (readsBehind_pair (readsBehind_point hinv 2)
                (readsBehind_pair (readsBehind_array32 (by omega))
                  (readsBehind_array32 (by omega)))))))))))))) v).trans ?_
  simp only [true_and]

/-- What is read back of each of the types: a proof without blocks, whose batch proof is
encoded by the lengths that the reader is behind by, and a commitment whose bases, salt and
nonce are. -/
theorem fileTypes_readBack_iff (fileProof : FileProof R (Bytes 32))
    (privateProof : PrivateFileProof R (Bytes 32))
    (accountableProof : AccountableFileProof R (Bytes 32))
    (commitment : Option1FileCommitment R (Bytes 32))
    (option1Proof : Option1FileProof R (Bytes 32)) :
    ((fileProofCodec dalek).deserialize ((fileProofCodec dalek).serialize fileProof) =
        .ok fileProof ↔
      fileProof.blocks = [] ∧
        ∀ proof ∈ fileProof.batchProof, BatchReadBack dalek proof.t1 proof.t2 [proof.s]) ∧
    ((privateFileProofCodec dalek).deserialize
        ((privateFileProofCodec dalek).serialize privateProof) = .ok privateProof ↔
      privateProof.blocks = [] ∧ BatchReadBack dalek privateProof.batchProof.a1
        privateProof.batchProof.a2 [privateProof.batchProof.zR, privateProof.batchProof.zMinusS]) ∧
    ((accountableFileProofCodec dalek).deserialize
        ((accountableFileProofCodec dalek).serialize accountableProof) = .ok accountableProof ↔
      accountableProof.blocks = [] ∧ BatchReadBack dalek accountableProof.batchProof.a1
        accountableProof.batchProof.a2
        [accountableProof.batchProof.zR, accountableProof.batchProof.zMinusS]) ∧
    ((option1FileCommitmentCodec dalek).deserialize
        ((option1FileCommitmentCodec dalek).serialize commitment) = .ok commitment ↔
      (dalek.compress commitment.fileBase).toList = fourLengths ∧
      (dalek.compress commitment.filePublicKey).toList = fourLengths ∧
      (dalek.compress commitment.commitmentBase).toList = fourLengths ∧
      commitment.fileSalt.toList = fourLengths ∧ commitment.serverNonce.toList = fourLengths) ∧
    ((option1FileProofCodec dalek).deserialize
        ((option1FileProofCodec dalek).serialize option1Proof) = .ok option1Proof ↔
      option1Proof.blocks = [] ∧ BatchReadBack dalek option1Proof.batchProof.a1
        option1Proof.batchProof.a2
        [option1Proof.batchProof.zR, option1Proof.batchProof.zMinusS]) :=
  ⟨fileProof_readBack_iff hinv fileProof, privateFileProof_readBack_iff hinv privateProof,
    accountableFileProof_readBack_iff hinv accountableProof,
    option1FileCommitment_readBack_iff hinv commitment,
    option1FileProof_readBack_iff hinv option1Proof⟩

end Types

section Example

theorem lineDalek_inverse : CompressInverse lineDalek := by
  intro bytes p
  constructor
  · intro h
    unfold lineDalek at h
    simp only at h
    split at h
    · rename_i hcanonical
      rw [← Option.some.inj h]
      show leArray 32 _ = bytes
      rw [ZMod.val_natCast_of_lt hcanonical, leArray_leNat]
    · exact nomatch h
  · rintro rfl
    exact lineDalek_decompress p

/-- A proof with a block of one point. -/
def oneBlockProof : AccountableFileProof DalekScalar (Bytes 32) where
  fileId := leArray 32 1
  rootHash := leArray 32 2
  blocks := [⟨0, ⟨2, [5], [8], [3]⟩, []⟩]
  batchProof := ⟨1, 2, 3, 5⟩

/-- It is not read back, although the compressed encoding is inverse in both directions. -/
theorem oneBlockProof_not_readBack :
    CompressInverse lineDalek ∧
      (accountableFileProofCodec lineDalek).deserialize
        ((accountableFileProofCodec lineDalek).serialize oneBlockProof) ≠ .ok oneBlockProof :=
  ⟨lineDalek_inverse, fun h =>
    List.cons_ne_nil _ _ ((accountableFileProof_readBack_iff lineDalek_inverse _).mp h).1⟩

def fourLengthsArray : Bytes 32 := leArray 32 (leNat fourLengths)

/-- The point and scalar that are encoded by four lengths. -/
def fourLengthsPoint : DalekScalar := (leNat fourLengths : ℕ)

theorem fourLengthsArray_toList : fourLengthsArray.toList = fourLengths := by decide +kernel

theorem fourLengthsPoint_toBytes : (DalekScalar.toBytes fourLengthsPoint).toList = fourLengths := by
  have hlt : leNat fourLengths < dalekOrder := by decide +kernel
  unfold DalekScalar.toBytes fourLengthsPoint
  rw [ZMod.val_natCast_of_lt hlt]
  exact fourLengthsArray_toList

theorem fileTypes_readBack_four :
    (privateFileProofCodec lineDalek).deserialize ((privateFileProofCodec lineDalek).serialize
      ⟨leArray 32 1, leArray 32 2, [],
        ⟨fourLengthsPoint, fourLengthsPoint, fourLengthsPoint, fourLengthsPoint⟩⟩) =
      .ok ⟨leArray 32 1, leArray 32 2, [],
        ⟨fourLengthsPoint, fourLengthsPoint, fourLengthsPoint, fourLengthsPoint⟩⟩ := by
  have hpoint := fourLengthsPoint_toBytes
  refine (fileTypes_readBack_iff lineDalek_inverse ⟨leArray 32 1, leArray 32 2, [], none⟩
    ⟨leArray 32 1, leArray 32 2, [],
      ⟨fourLengthsPoint, fourLengthsPoint, fourLengthsPoint, fourLengthsPoint⟩⟩ oneBlockProof
    ⟨leArray 32 1, leArray 32 2, 1, 3, 31, 16, 3, 1, 2, 3, leArray 32 3, leArray 32 5⟩
    ⟨leArray 32 1, leArray 32 2, [], ⟨1, 2, 3, 5⟩⟩).2.1.mpr ⟨rfl, hpoint, hpoint, ?_⟩
  simp only [List.forall_mem_cons, List.not_mem_nil, false_implies, implies_true, and_true]
  exact ⟨hpoint, hpoint⟩

end Example

end Ebut
