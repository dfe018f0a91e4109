import Ebut.Core.FileBinding

/-!
# Encoding Bytes in a Point

A chunk of at most seventeen bytes becomes a point whose compressed encoding carries its
bits. Bit zero stays clear, since a set one never decodes; the bits after the payload are
searched until the encoding is one of a point.

## Main definitions

* `packPayloadBits`, `unpackPayloadBits`: The payload in the encoding.
* `encodeCandidate`: The encoding tried at a counter.
* `encodeChunkToPoint`: The search.
* `decodePointToChunk`: The payload read back.

## Theorems

* `encodeChunkToPoint_ok`: What a successful search comes to.
-/

namespace Ebut

open LittleEndian

def reversiblePointMaxEncodingAttempts : ℕ := 1000000

inductive PointEncodingError where
  | chunkTooLarge (len max : ℕ)
  | noValidEncoding
  | invalidDecodedLength (len max : ℕ)
  deriving DecidableEq, Repr

/-- `set_bit_le`. -/
def setBitLe (bytes : Bytes 32) (bitIndex : ℕ) (value : Bool) : Bytes 32 :=
  let bit := UInt8.ofNat (bitIndex % 8)
  ⟨bytes.toList.modify (bitIndex / 8) fun byte =>
    if value then byte ||| (1 <<< bit) else byte &&& ~~~(1 <<< bit), by
    rw [List.length_modify, bytes.toList_length]⟩

/-- `get_bit_le`. -/
def getBitLe (bytes : List UInt8) (bitIndex : ℕ) : Bool :=
  ((bytes.getD (bitIndex / 8) 0 >>> UInt8.ofNat (bitIndex % 8)) &&& 1) == 1

/-- `pack_payload_bits`. -/
def packPayloadBits (payload : Bytes 17) (candidate : Bytes 32) : Bytes 32 :=
  (List.range (reversiblePointPayloadSize * 8)).foldl
    (fun candidate i => setBitLe candidate (i + 1) (getBitLe payload.toList i))
    (setBitLe candidate 0 false)

/-- `unpack_payload_bits`, byte by byte. -/
def unpackPayloadBits (encoded : Bytes 32) : Bytes 17 :=
  ⟨(List.range 17).map fun byte => (List.range 8).foldl (fun acc bit =>
      if getBitLe encoded.toList (byte * 8 + bit + 1) then acc ||| (1 <<< UInt8.ofNat bit)
      else acc) 0,
    by rw [List.length_map, List.length_range]⟩

/-- The bits after the payload, filled from the digest. -/
def fillSuffixBits (suffix : Bytes 64) (candidate : Bytes 32) : Bytes 32 :=
  let firstFreeBit := 1 + reversiblePointPayloadSize * 8
  let filled := (List.range (255 - firstFreeBit)).foldl (fun (acc : Bytes 32 × ℕ) j =>
    (setBitLe acc.1 (firstFreeBit + j) (getBitLe suffix.toList acc.2),
      if acc.2 + 1 = suffix.toList.length * 8 then 0 else acc.2 + 1)) (candidate, 0)
  filled.1

/-- The encoding tried at a counter. -/
def encodeCandidate (sha : Sha2) (payload : Bytes 17) (counter : UInt64) : Bytes 32 :=
  let suffix := sha.sha512 <| "EBUT:REVERSIBLE-POINT-BITPACK-SUFFIX:V3".toUTF8.toList ++
    payload.toList ++ u64LeBytes counter
  setBitLe (fillSuffixBits suffix (packPayloadBits payload (leArray 32 0))) 255 false

/-- The chunk, padded with zeros. -/
def paddedPayload (chunk : List UInt8) : Bytes 17 :=
  ⟨(chunk ++ List.replicate 17 0).take 17, by
    rw [List.length_take, List.length_append, List.length_replicate]
    omega⟩

variable {R : Type} [AddCommGroup R] [Module DalekScalar R] (sha : Sha2) (dalek : Dalek R)

/-- The loop over the counters, with the attempts that are left. -/
def encodeAttempts (payload : Bytes 17) : ℕ → UInt64 → Option R
  | 0, _ => none
  | attempts + 1, counter =>
      let candidate := encodeCandidate sha payload counter
      match dalek.decompress candidate with
      | some point =>
          -- the point has to carry exactly these bytes
          if dalek.compress point = candidate then some point
          else encodeAttempts payload attempts (counter + 1)
      | none => encodeAttempts payload attempts (counter + 1)

/-- `encode_chunk_to_point`. -/
def encodeChunkToPoint (chunk : List UInt8) : Except PointEncodingError R :=
  if chunk.length > reversiblePointPayloadSize then
    .error (.chunkTooLarge chunk.length reversiblePointPayloadSize)
  else
    match encodeAttempts sha dalek (paddedPayload chunk) reversiblePointMaxEncodingAttempts 0 with
    | some point => .ok point
    | none => .error .noValidEncoding

/-- `decode_point_to_chunk`. -/
def decodePointToChunk (point : R) (chunkLen : ℕ) : Except PointEncodingError (List UInt8) :=
  if chunkLen > reversiblePointPayloadSize then
    .error (.invalidDecodedLength chunkLen reversiblePointPayloadSize)
  else .ok ((unpackPayloadBits (dalek.compress point)).toList.take chunkLen)

variable {sha dalek}

/-- The first attempt that decodes to a point with the same encoding is returned. -/
theorem encodeAttempts_succ {payload : Bytes 17} {counter : UInt64} {point : R} (attempts : ℕ)
    (hpoint : dalek.decompress (encodeCandidate sha payload counter) = some point)
    (hcanonical : dalek.compress point = encodeCandidate sha payload counter) :
    encodeAttempts sha dalek payload (attempts + 1) counter = some point := by
  rw [encodeAttempts]
  simp only [hpoint, if_pos hcanonical]

theorem encodeChunkToPoint_ok {chunk : List UInt8} {point : R} :
    encodeChunkToPoint sha dalek chunk = .ok point ↔
      chunk.length ≤ reversiblePointPayloadSize ∧
        encodeAttempts sha dalek (paddedPayload chunk) reversiblePointMaxEncodingAttempts 0 =
          some point := by
  unfold encodeChunkToPoint
  by_cases hlarge : chunk.length > reversiblePointPayloadSize
  · rw [if_pos hlarge]
    exact ⟨fun h => (nomatch h), fun h => absurd h.1 (Nat.not_le_of_gt hlarge)⟩
  · rw [if_neg hlarge]
    rcases encodeAttempts sha dalek (paddedPayload chunk) reversiblePointMaxEncodingAttempts 0 with
      _ | found
    · exact ⟨fun h => (nomatch h), fun h => (nomatch h.2)⟩
    · exact ⟨fun h => ⟨Nat.le_of_not_gt hlarge, congrArg some (Except.ok.inj h)⟩,
        fun h => congrArg Except.ok (Option.some.inj h.2)⟩

end Ebut
