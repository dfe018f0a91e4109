import Ebut.Core.BatchedEq
import Ebut.Core.FileProof
import Ebut.Core.Option1FileBinding
import Ebut.Library.Bincode

/-!
# The Wire Format of the File Types

How the commitments and proofs of the file modules are written and read. A record is its
fields in order. A point has a module of its own, which writes the compressed encoding as a
byte string and reads it as an array; a list of points has another, which writes and reads a
sequence of arrays. A scalar is an array that has to be canonical.

## Main definitions

* `ristrettoSerde`, `ristrettoVecSerde`: The two hand-written modules.
* `scalarSerde`: A scalar, as the curve library writes it.
* `fileProofCodec`, `privateFileProofCodec`, `accountableFileProofCodec`,
  `option1FileCommitmentCodec`, `option1FileProofCodec`: The codecs.
-/

namespace Ebut

open LittleEndian

/-- `Scalar::deserialize` of the Curve25519 field, on the bytes read. -/
def scalarOfWire (bytes : Bytes 32) : Except Bincode.Error DalekScalar :=
  if leNat bytes.toList < dalekOrder then .ok (leNat bytes.toList : DalekScalar)
  else .error (.custom "scalar was not canonically encoded")

def scalarSerde : Bincode.Codec DalekScalar :=
  (Bincode.array 32).refine DalekScalar.toBytes scalarOfWire

/-- `Vec<(bool, [u8; 32])>`. -/
def merklePathCodec : Bincode.Codec (List (Bool × Bytes 32)) :=
  (Bincode.bool.pair (Bincode.array 32)).seq

section Points

variable {R : Type} [AddCommGroup R] [Module DalekScalar R] (dalek : Dalek R)

/-- A point of the bytes read, or an error with a message. -/
def pointOfWire (message : String) (bytes : Bytes 32) : Except Bincode.Error R :=
  match dalek.decompress bytes with
  | some p => .ok p
  | none => .error (.custom message)

/-- `ristretto_serde`: written by `serialize_bytes`, read as `[u8; 32]`. -/
def ristrettoSerde : Bincode.Codec R :=
  (Bincode.arrayBehindLength 32).refine dalek.compress (pointOfWire dalek "Invalid RistrettoPoint")

/-- `ristretto_vec_serde`: written and read as a `Vec<[u8; 32]>`. -/
def ristrettoVecSerde : Bincode.Codec (List R) :=
  ((Bincode.array 32).refine dalek.compress
    (pointOfWire dalek "invalid compressed Ristretto point")).seq

def dleqProofCodec : Bincode.Codec (DLEQProof R) :=
  ((ristrettoSerde dalek).pair ((ristrettoSerde dalek).pair scalarSerde)).iso
    (fun v => (v.t1, v.t2, v.s)) fun p => ⟨p.1, p.2.1, p.2.2⟩

def ciphertextBlockCodec : Bincode.Codec (CiphertextBlock R) :=
  ((ristrettoSerde dalek).pair (ristrettoSerde dalek)).iso
    (fun v => (v.c1, v.c2)) fun p => ⟨p.1, p.2⟩

def blockProofCodec : Bincode.Codec (BlockProof R (Bytes 32)) :=
  (Bincode.u64.pair ((ciphertextBlockCodec dalek).pair ((ristrettoSerde dalek).pair
    (merklePathCodec.pair (dleqProofCodec dalek).option)))).iso
    (fun v => (v.index, v.ciphertext, v.decryptedPoint, v.merklePath, v.dleqProof))
    fun p => ⟨p.1, p.2.1, p.2.2.1, p.2.2.2.1, p.2.2.2.2⟩

def fileProofCodec : Bincode.Codec (FileProof R (Bytes 32)) :=
  ((Bincode.array 32).pair ((Bincode.array 32).pair
    ((blockProofCodec dalek).seq.pair (dleqProofCodec dalek).option))).iso
    (fun v => (v.fileId, v.rootHash, v.blocks, v.batchProof))
    fun p => ⟨p.1, p.2.1, p.2.2.1, p.2.2.2⟩

/-- A block of a proof, with its position and its path. -/
def challengedBlockCodec {B : Type} (block : Bincode.Codec B) :
    Bincode.Codec (ChallengedBlock B (Bytes 32)) :=
  (Bincode.u64.pair (block.pair merklePathCodec)).iso
    (fun v => (v.index, v.block, v.merklePath)) fun p => ⟨p.1, p.2.1, p.2.2⟩

def privateCiphertextBlockCodec : Bincode.Codec (PrivateCiphertextBlock R) :=
  ((ciphertextBlockCodec dalek).pair (ristrettoSerde dalek)).iso
    (fun v => (v.ciphertext, v.plaintextCommitment)) fun p => ⟨p.1.c1, p.1.c2, p.2⟩

def hiddenPlaintextBatchProofCodec : Bincode.Codec (HiddenPlaintextBatchProof R) :=
  ((ristrettoSerde dalek).pair ((ristrettoSerde dalek).pair (scalarSerde.pair scalarSerde))).iso
    (fun v => (v.a1, v.a2, v.zR, v.zMinusS)) fun p => ⟨p.1, p.2.1, p.2.2.1, p.2.2.2⟩

def privateFileProofCodec : Bincode.Codec (PrivateFileProof R (Bytes 32)) :=
  ((Bincode.array 32).pair ((Bincode.array 32).pair
    ((challengedBlockCodec (privateCiphertextBlockCodec dalek)).seq.pair
      (hiddenPlaintextBatchProofCodec dalek)))).iso
    (fun v => (v.fileId, v.rootHash, v.blocks, v.batchProof))
    fun p => ⟨p.1, p.2.1, p.2.2.1, p.2.2.2⟩

/-- `AccountableCiphertextBlock`. -/
def packedBlockCodec : Bincode.Codec (PackedBlock R) :=
  ((ristrettoSerde dalek).pair ((ristrettoVecSerde dalek).pair
    ((ristrettoVecSerde dalek).pair Bincode.byte.seq))).iso
    (fun v => (v.c1, v.c2Points, v.plaintextCommitments, v.pointLengths))
    fun p => ⟨p.1, p.2.1, p.2.2.1, p.2.2.2⟩

/-- `AccountableBatchProof` and `Option1BatchProof`. -/
def batchProofCodec : Bincode.Codec (BatchProof R) :=
  ((ristrettoSerde dalek).pair ((ristrettoSerde dalek).pair (scalarSerde.pair scalarSerde))).iso
    (fun v => (v.a1, v.a2, v.zR, v.zMinusS)) fun p => ⟨p.1, p.2.1, p.2.2.1, p.2.2.2⟩

def accountableFileProofCodec : Bincode.Codec (AccountableFileProof R (Bytes 32)) :=
  ((Bincode.array 32).pair ((Bincode.array 32).pair
    ((challengedBlockCodec (packedBlockCodec dalek)).seq.pair (batchProofCodec dalek)))).iso
    (fun v => (v.fileId, v.rootHash, v.blocks, v.batchProof))
    fun p => ⟨p.1, p.2.1, p.2.2.1, p.2.2.2⟩

def option1FileCommitmentCodec : Bincode.Codec (Option1FileCommitment R (Bytes 32)) :=
  ((Bincode.array 32).pair ((Bincode.array 32).pair (Bincode.u64.pair (Bincode.u64.pair
    (Bincode.u64.pair (Bincode.u64.pair (Bincode.u32.pair ((ristrettoSerde dalek).pair
      ((ristrettoSerde dalek).pair ((ristrettoSerde dalek).pair
        ((Bincode.array 32).pair (Bincode.array 32)))))))))))).iso
    (fun v => (v.fileId, v.rootHash, v.numBlocks, v.fileSize, v.pointPayloadSize,
      v.pointsPerBlock, v.encodingVersion, v.fileBase, v.filePublicKey, v.commitmentBase,
      v.fileSalt, v.serverNonce))
    fun p => ⟨p.1, p.2.1, p.2.2.1, p.2.2.2.1, p.2.2.2.2.1, p.2.2.2.2.2.1, p.2.2.2.2.2.2.1,
      p.2.2.2.2.2.2.2.1, p.2.2.2.2.2.2.2.2.1, p.2.2.2.2.2.2.2.2.2.1, p.2.2.2.2.2.2.2.2.2.2.1,
      p.2.2.2.2.2.2.2.2.2.2.2⟩

def option1CiphertextBlockCodec : Bincode.Codec (Option1CiphertextBlock R) :=
  ((ristrettoSerde dalek).pair ((ristrettoVecSerde dalek).pair ((ristrettoVecSerde dalek).pair
    (Bincode.byte.seq.pair Bincode.byte.seq)))).iso
    (fun v => (v.c1, v.c2Points, v.plaintextCommitments, v.pointLengths, v.selectorCiphertext))
    fun p => ⟨⟨p.1, p.2.1, p.2.2.1, p.2.2.2.1⟩, p.2.2.2.2⟩

def option1FileProofCodec : Bincode.Codec (Option1FileProof R (Bytes 32)) :=
  ((Bincode.array 32).pair ((Bincode.array 32).pair
    ((challengedBlockCodec (option1CiphertextBlockCodec dalek)).seq.pair
      (batchProofCodec dalek)))).iso
    (fun v => (v.fileId, v.rootHash, v.blocks, v.batchProof))
    fun p => ⟨p.1, p.2.1, p.2.2.1, p.2.2.2⟩

end Points

end Ebut
