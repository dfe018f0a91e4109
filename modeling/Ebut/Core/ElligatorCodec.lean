import Ebut.Core.PointEncoding
import Ebut.Library.ByteBits

/-!
# The Elligator Codec

A chunk of at most thirty-one bytes becomes a point and a selector of three bits, which says
which of the eight preimages of the point the chunk was. The chunk is shifted by one bit, so
that the lowest bit and the highest one of the thirty-two bytes stay clear, and an external
library maps these to a point and back.

The library is a parameter; without it the codec answers that it is not available. Its points
are the ones of its own memory layout, and both directions pass through the compressed
encoding. The selectors of a block are packed into a string of bits.

## Main definitions

* `ElligatorLibrary`: The four functions of the external library.
* `encodeChunk`, `decodeChunk`: The codec.
* `packSelectors`, `unpackSelectors`: The selectors of a block as a string.
-/

namespace Ebut

open ByteBits

def elligatorPayloadBytes : ℕ := 31
def elligatorSelectorBits : ℕ := 3
def elligatorSelectorValues : UInt8 := 8

inductive ElligatorCodecError where
  | chunkTooLarge (len max : ℕ)
  | invalidSelector (selector : UInt8)
  | invalidPointEncoding
  | externalCodecUnavailable
  | externalCodecRejected
  deriving DecidableEq, Repr

structure EncodedRistrettoChunk (R : Type) where
  point : R
  /-- Selector in `[0,7]` identifying the correct inverse preimage. -/
  selector : UInt8
  /-- Exact plaintext length for final partial chunks. -/
  len : UInt8

/-- What the library returns for a message: a point and the three sign masks. -/
structure EncodedMessage (C : Type) where
  p : C
  sgnEdT : UInt64
  sgnAltx : UInt64
  sgnS : UInt64

/-- The functions of `libristretto_elgamal` that the codec calls, over its type of points. -/
structure ElligatorLibrary (C : Type) where
  /-- `ristretto_elgamal_encode_single_message`. -/
  encodeSingleMessage : Bytes 32 → EncodedMessage C
  /-- `ristretto_elgamal_decode_single_message`, of a point and the three sign masks. -/
  decodeSingleMessage : C → UInt64 → UInt64 → UInt64 → Bytes 32
  /-- `Serialize_Malicious` of one point. -/
  serializeMalicious : C → Bytes 32
  /-- `Deserialize_Malicious` of one point, with the number it returns. -/
  deserializeMalicious : Bytes 32 → ℤ × C

/-- `payload_to_ser`: the bits of a chunk of at most thirty-one bytes, shifted by one. -/
def payloadToSer (chunk : List UInt8) : Bytes 32 :=
  ⟨(List.range (chunk.length * 8)).foldl
    (fun ser i => if getBitLe chunk i then orBit ser (i + 1) else ser) (List.replicate 32 0), by
    rw [foldl_orBit_length, List.length_replicate]⟩

/-- `ser_to_payload`. -/
def serToPayload (ser : Bytes 32) (len : UInt8) : List UInt8 :=
  (List.range (len.toNat * 8)).foldl
    (fun out i => if getBitLe ser.toList (i + 1) then orBit out i else out)
    (List.replicate len.toNat 0)

/-- The selector of three masks, each read as zero or not. -/
def selectorOfMasks (sgnEdT sgnAltx sgnS : UInt64) : UInt8 :=
  let bit := fun mask : UInt64 => if mask ≠ 0 then (1 : UInt8) else 0
  bit sgnEdT ||| (bit sgnAltx <<< 1) ||| (bit sgnS <<< 2)

/-- The mask that a bit of the selector stands for. -/
def maskOfSelector (selector bit : UInt8) : UInt64 := if selector &&& bit ≠ 0 then ~~~0 else 0

section Codec

variable {R C : Type} [AddCommGroup R] [Module DalekScalar R] (dalek : Dalek R)
  (library : Option (ElligatorLibrary C))

/-- `external::encode_chunk`, in the build with the library and in the one without. -/
def externalEncodeChunk (chunk : List UInt8) :
    Except ElligatorCodecError (EncodedRistrettoChunk R) :=
  match library with
  | none => .error .externalCodecUnavailable
  | some library =>
      if chunk.length > elligatorPayloadBytes then
        .error (.chunkTooLarge chunk.length elligatorPayloadBytes)
      else
        let message := library.encodeSingleMessage (payloadToSer chunk)
        let selector := selectorOfMasks message.sgnEdT message.sgnAltx message.sgnS
        match dalek.decompress (library.serializeMalicious message.p) with
        | none => .error .invalidPointEncoding
        | some rustPoint => .ok ⟨rustPoint, selector, UInt8.ofNat chunk.length⟩

/-- `encode_chunk`. -/
def encodeChunk (chunk : List UInt8) : Except ElligatorCodecError (EncodedRistrettoChunk R) :=
  if chunk.length > elligatorPayloadBytes then
    .error (.chunkTooLarge chunk.length elligatorPayloadBytes)
  else externalEncodeChunk dalek library chunk

/-- `external::decode_chunk`. -/
def externalDecodeChunk (point : R) (selector len : UInt8) :
    Except ElligatorCodecError (List UInt8) :=
  match library with
  | none => .error .externalCodecUnavailable
  | some library =>
      if selector ≥ elligatorSelectorValues then .error (.invalidSelector selector)
      else if len.toNat > elligatorPayloadBytes then
        .error (.chunkTooLarge len.toNat elligatorPayloadBytes)
      else
        let (ok, cpoint) := library.deserializeMalicious (dalek.compress point)
        if ok = 0 then .error .invalidPointEncoding
        else
          let ser := library.decodeSingleMessage cpoint (maskOfSelector selector 1)
            (maskOfSelector selector 2) (maskOfSelector selector 4)
          -- the two bits that no payload has
          if ser.toList.getD 0 0 &&& 1 ≠ 0 ∨ ser.toList.getD 31 0 &&& 0x80 ≠ 0 then
            .error .externalCodecRejected
          else .ok (serToPayload ser len)

/-- `decode_chunk`. -/
def decodeChunk (point : R) (selector len : UInt8) : Except ElligatorCodecError (List UInt8) :=
  if selector ≥ elligatorSelectorValues then .error (.invalidSelector selector)
  else if len.toNat > elligatorPayloadBytes then
    .error (.chunkTooLarge len.toNat elligatorPayloadBytes)
  else externalDecodeChunk dalek library point selector len

end Codec

section Selectors

/-- One turn of the loop of `pack_selectors`, at a selector and its position. -/
def packSelector (out : List UInt8) (p : UInt8 × ℕ) : Except ElligatorCodecError (List UInt8) :=
  if p.1 ≥ elligatorSelectorValues then .error (.invalidSelector p.1)
  else .ok ((List.range elligatorSelectorBits).foldl (fun out bit =>
    if ((p.1 >>> UInt8.ofNat bit) &&& 1) == 1 then orBit out (p.2 * elligatorSelectorBits + bit)
    else out) out)

/-- `pack_selectors`. -/
def packSelectors (selectors : List UInt8) : Except ElligatorCodecError (List UInt8) :=
  let bitLen := selectors.length * elligatorSelectorBits
  selectors.zipIdx.foldlM packSelector (List.replicate ((bitLen + 7) / 8) 0)

/-- One turn of the loop of `unpack_selectors`. -/
def unpackSelector (bytes : List UInt8) (i : ℕ) : Except ElligatorCodecError UInt8 :=
  let sel := (List.range elligatorSelectorBits).foldl (fun sel bit =>
    if getBitLe bytes (i * elligatorSelectorBits + bit) then sel ||| (1 <<< UInt8.ofNat bit)
    else sel) 0
  if sel ≥ elligatorSelectorValues then .error (.invalidSelector sel) else .ok sel

/-- `unpack_selectors`. The count is a `usize` there: tripling one above `2^64 / 3` wraps, and
the allocation for the selectors then aborts before a byte is read. -/
def unpackSelectors (bytes : List UInt8) (count : ℕ) : Except ElligatorCodecError (List UInt8) :=
  let need := (count * elligatorSelectorBits + 7) / 8
  if bytes.length < need then .error .externalCodecRejected
  else (List.range count).mapM (unpackSelector bytes)

end Selectors

end Ebut
