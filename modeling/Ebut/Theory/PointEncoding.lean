import Ebut.Core.PointEncoding
import Ebut.Library.ByteBits

/-!
# Reading an Encoded Chunk Back

A point found for a chunk has an encoding whose bits 1 to 136 are those of the padded
chunk: the payload is written there first, and the later writes go to higher bits. Reading
these bits back gives the padded chunk, and its length cuts the padding off.

## Theorems

* `bitAt_setBitLe`: What a write of a bit does.
* `bitAt_encodeCandidate`: Every candidate carries the payload.
* `decodePointToChunk_padded`: A point found for a chunk decodes to the padded chunk.
* `decodePointToChunk_encoded`: At the length of the chunk it decodes to the chunk.
* `pointEncoding_roundTrip`: Both directions, and the shape of the encoding.
-/

namespace Ebut

open ByteBits

theorem getBitLe_eq (bytes : List UInt8) (i : ℕ) : getBitLe bytes i = bitAt bytes i :=
  shiftBit_eq _ (Nat.mod_lt i (by omega))

theorem bitAt_setBitLe (bytes : Bytes 32) {i : ℕ} (hi : i < 256) (value : Bool) (k : ℕ) :
    bitAt (setBitLe bytes i value).toList k =
      if i = k then value else bitAt bytes.toList k := by
  have hlen : i < 8 * bytes.toList.length := by
    rw [bytes.toList_length]
    omega
  cases value with
  | true =>
      refine (bitAt_orBit hlen k).trans ?_
      by_cases hik : i = k
      · simp [hik]
      · simp [hik]
  | false =>
      refine (bitAt_clearBit bytes.toList i k).trans ?_
      by_cases hik : i = k
      · simp [hik]
      · simp [hik]

/-- The loop that writes the payload, after `n` turns. -/
theorem bitAt_foldl_pack (payload : Bytes 17) (candidate : Bytes 32) {n k : ℕ} (hn : n ≤ 136) :
    bitAt ((List.range n).foldl
        (fun acc i => setBitLe acc (i + 1) (getBitLe payload.toList i)) candidate).toList (k + 1) =
      if k < n then bitAt payload.toList k else bitAt candidate.toList (k + 1) := by
  induction n with
  | zero => rw [if_neg (Nat.not_lt_zero k)]; rfl
  | succ n ih =>
      -- the last turn writes bit `n + 1` and leaves the others
      rw [List.range_succ, List.foldl_append, List.foldl_cons, List.foldl_nil,
        bitAt_setBitLe _ (by omega), getBitLe_eq, ih (by omega)]
      by_cases hk : n = k
      · subst hk
        simp
      · have hne : ¬n + 1 = k + 1 := by omega
        have hlt : k < n + 1 ↔ k < n := by omega
        simp only [if_neg hne, hlt]

theorem bitAt_packPayloadBits (payload : Bytes 17) (candidate : Bytes 32) {k : ℕ}
    (hk : k < 136) :
    bitAt (packPayloadBits payload candidate).toList (k + 1) = bitAt payload.toList k :=
  (bitAt_foldl_pack payload _ (Nat.le_refl 136)).trans (if_pos hk)

/-- The payload is written behind bit zero, which was cleared before. -/
theorem bitAt_packPayloadBits_zero (payload : Bytes 17) (candidate : Bytes 32) :
    bitAt (packPayloadBits payload candidate).toList 0 = false := by
  have hturns : ∀ n ≤ 136, ∀ start : Bytes 32, bitAt ((List.range n).foldl
      (fun acc i => setBitLe acc (i + 1) (getBitLe payload.toList i)) start).toList 0 =
        bitAt start.toList 0 := by
    intro n hn start
    induction n with
    | zero => rfl
    | succ n ih =>
        rw [List.range_succ, List.foldl_append, List.foldl_cons, List.foldl_nil,
          bitAt_setBitLe _ (by omega), if_neg (Nat.succ_ne_zero n), ih (by omega)]
  rw [packPayloadBits]
  refine (hturns 136 (Nat.le_refl 136) _).trans ?_
  rw [bitAt_setBitLe _ (by omega), if_pos rfl]

/-- The suffix is written behind the payload. -/
theorem bitAt_fillSuffixBits (suffix : Bytes 64) (candidate : Bytes 32) {k : ℕ} (hk : k < 137) :
    bitAt (fillSuffixBits suffix candidate).toList k = bitAt candidate.toList k := by
  unfold fillSuffixBits
  -- the loop starts again at the first bit of the suffix, but it never goes back in the candidate
  have hturns : ∀ (turns : List ℕ) (acc : Bytes 32 × ℕ), (∀ j ∈ turns, j < 118) →
      bitAt (turns.foldl (fun (acc : Bytes 32 × ℕ) j =>
        (setBitLe acc.1 (1 + reversiblePointPayloadSize * 8 + j) (getBitLe suffix.toList acc.2),
          if acc.2 + 1 = suffix.toList.length * 8 then 0 else acc.2 + 1)) acc).1.toList k =
        bitAt acc.1.toList k := by
    intro turns
    induction turns with
    | nil =>
        intro acc _
        rfl
    | cons j turns ih =>
        intro acc hturns
        have hj := hturns j List.mem_cons_self
        have hpayload : reversiblePointPayloadSize = 17 := rfl
        have hne : ¬1 + reversiblePointPayloadSize * 8 + j = k := by omega
        rw [List.foldl_cons, ih _ fun j' hj' => hturns j' (List.mem_cons_of_mem _ hj'),
          bitAt_setBitLe _ (by omega), if_neg hne]
  exact hturns _ (candidate, 0) fun j hj => List.mem_range.mp hj

/-- Every candidate carries the payload in bits 1 to 136. -/
theorem bitAt_encodeCandidate (sha : Sha2) (payload : Bytes 17) (counter : UInt64) {k : ℕ}
    (hk : k < 136) :
    bitAt (encodeCandidate sha payload counter).toList (k + 1) = bitAt payload.toList k := by
  unfold encodeCandidate
  have hne : ¬255 = k + 1 := by omega
  rw [bitAt_setBitLe _ (by omega), if_neg hne, bitAt_fillSuffixBits _ _ (by omega),
    bitAt_packPayloadBits payload _ hk]

/-- Every candidate has bit zero clear, which a set one would keep from decoding. -/
theorem bitAt_encodeCandidate_zero (sha : Sha2) (payload : Bytes 17) (counter : UInt64) :
    bitAt (encodeCandidate sha payload counter).toList 0 = false := by
  unfold encodeCandidate
  have hne : ¬255 = 0 := by omega
  rw [bitAt_setBitLe _ (by omega), if_neg hne, bitAt_fillSuffixBits _ _ (by omega),
    bitAt_packPayloadBits_zero]

/-- Every candidate has the top bit clear. It is written last. -/
theorem bitAt_encodeCandidate_top (sha : Sha2) (payload : Bytes 17) (counter : UInt64) :
    bitAt (encodeCandidate sha payload counter).toList 255 = false := by
  unfold encodeCandidate
  rw [bitAt_setBitLe _ (by omega), if_pos rfl]

/-- The payload read back has the bits behind bit zero. -/
theorem bitAt_unpackPayloadBits (encoded : Bytes 32) {k : ℕ} (hk : k < 136) :
    bitAt (unpackPayloadBits encoded).toList k = bitAt encoded.toList (k + 1) := by
  have hbyte : k / 8 < 17 := by omega
  have hbytes : (unpackPayloadBits encoded).toList = (List.range 17).map fun byte =>
      (List.range 8).foldl (fun acc bit =>
        if getBitLe encoded.toList (byte * 8 + bit + 1) then acc ||| (1 <<< UInt8.ofNat bit)
        else acc) 0 := rfl
  have hget : (unpackPayloadBits encoded).toList.getD (k / 8) 0 =
      (List.range 8).foldl (fun acc bit =>
        if getBitLe encoded.toList (k / 8 * 8 + bit + 1) then acc ||| (1 <<< UInt8.ofNat bit)
        else acc) 0 := by
    rw [hbytes, List.getD_eq_getElem?_getD, List.getElem?_map, List.getElem?_range hbyte]
    rfl
  -- of the eight turns for a byte only the one for this bit sets it
  show ((unpackPayloadBits encoded).toList.getD (k / 8) 0).toNat.testBit (k % 8) = _
  rw [hget, testBit_foldl_or _ (fun p hp => List.mem_range.mp hp)]
  have hone := any_range_eq (Nat.mod_lt k (show 8 > 0 by omega))
    (fun bit => getBitLe encoded.toList (k / 8 * 8 + bit + 1)) Function.injective_id
  simp only [id] at hone
  rw [hone, getBitLe_eq, show k / 8 * 8 + k % 8 + 1 = k + 1 by omega]
  show (Nat.testBit 0 _ || _) = _
  rw [Nat.zero_testBit, Bool.false_or]

theorem unpackPayloadBits_encodeCandidate (sha : Sha2) (payload : Bytes 17) (counter : UInt64) :
    unpackPayloadBits (encodeCandidate sha payload counter) = payload := by
  refine List.Vector.toList_injective (ext_bitAt ?_ fun k hk => ?_)
  · rw [List.Vector.toList_length, List.Vector.toList_length]
  · rw [List.Vector.toList_length] at hk
    rw [bitAt_unpackPayloadBits _ hk, bitAt_encodeCandidate sha payload counter hk]

variable {R : Type} [AddCommGroup R] [Module DalekScalar R] {sha : Sha2} {dalek : Dalek R}

/-- A point that the search returns is encoded by one of the candidates. -/
theorem compress_of_encodeAttempts {payload : Bytes 17} {attempts : ℕ} {counter : UInt64}
    {point : R} (h : encodeAttempts sha dalek payload attempts counter = some point) :
    ∃ counter', dalek.compress point = encodeCandidate sha payload counter' := by
  induction attempts generalizing counter with
  | zero => exact absurd h (by simp only [encodeAttempts, reduceCtorEq, not_false_iff])
  | succ attempts ih =>
      rw [encodeAttempts] at h
      split at h
      · split at h
        · rename_i hcanonical
          rw [Option.some.inj h] at hcanonical
          exact ⟨counter, hcanonical⟩
        · exact ih h
      · exact ih h

/-- A point found for a chunk decodes to the padded chunk, cut at the length asked for. -/
theorem decodePointToChunk_padded {chunk : List UInt8} {point : R}
    (h : encodeChunkToPoint sha dalek chunk = .ok point) {len : ℕ}
    (hlen : len ≤ reversiblePointPayloadSize) :
    decodePointToChunk dalek point len = .ok ((paddedPayload chunk).toList.take len) := by
  rcases compress_of_encodeAttempts (encodeChunkToPoint_ok.mp h).2 with ⟨counter, hcompress⟩
  unfold decodePointToChunk
  rw [if_neg (Nat.not_lt_of_le hlen), hcompress, unpackPayloadBits_encodeCandidate]

/-- Cut at its own length it is the chunk. -/
theorem decodePointToChunk_encoded {chunk : List UInt8} {point : R}
    (h : encodeChunkToPoint sha dalek chunk = .ok point) :
    decodePointToChunk dalek point chunk.length = .ok chunk := by
  have hlen := (encodeChunkToPoint_ok.mp h).1
  have hpayload : reversiblePointPayloadSize = 17 := rfl
  rw [decodePointToChunk_padded h hlen]
  show Except.ok (((chunk ++ List.replicate 17 0).take 17).take chunk.length) = .ok chunk
  rw [List.take_take, min_eq_left (by omega), List.take_left' rfl]

/-- The padded payload is a function of the point. -/
theorem paddedPayload_of_encoded {chunk : List UInt8} {point : R}
    (h : encodeChunkToPoint sha dalek chunk = .ok point) :
    paddedPayload chunk = unpackPayloadBits (dalek.compress point) := by
  rcases compress_of_encodeAttempts (encodeChunkToPoint_ok.mp h).2 with ⟨counter, hcompress⟩
  rw [hcompress, unpackPayloadBits_encodeCandidate]

variable (sha dalek)

/-- A chunk that is too long is refused. A point found for a chunk decodes to the chunk, at any
length to the padded chunk cut there; its encoding has the payload in bits 1 to 136 and clear
bits at both ends, and no chunk with another padded payload has the point. -/
theorem pointEncoding_roundTrip :
    (∀ chunk : List UInt8, reversiblePointPayloadSize < chunk.length →
      encodeChunkToPoint sha dalek chunk =
        .error (.chunkTooLarge chunk.length reversiblePointPayloadSize)) ∧
    ∀ (chunk : List UInt8) (point : R), encodeChunkToPoint sha dalek chunk = .ok point →
      (∀ len ≤ reversiblePointPayloadSize,
        decodePointToChunk dalek point len = .ok ((paddedPayload chunk).toList.take len)) ∧
      decodePointToChunk dalek point chunk.length = .ok chunk ∧
      bitAt (dalek.compress point).toList 0 = false ∧
      bitAt (dalek.compress point).toList 255 = false ∧
      (∀ k < 136, bitAt (dalek.compress point).toList (k + 1) =
        bitAt (paddedPayload chunk).toList k) ∧
      ∀ chunk' : List UInt8, encodeChunkToPoint sha dalek chunk' = .ok point →
        paddedPayload chunk' = paddedPayload chunk := by
  refine ⟨fun chunk hlarge => if_pos hlarge, fun chunk point h => ?_⟩
  rcases compress_of_encodeAttempts (encodeChunkToPoint_ok.mp h).2 with ⟨counter, hcompress⟩
  refine ⟨fun len hlen => decodePointToChunk_padded h hlen, decodePointToChunk_encoded h, ?_, ?_,
    ?_, ?_⟩
  · rw [hcompress]
    exact bitAt_encodeCandidate_zero sha _ counter
  · rw [hcompress]
    exact bitAt_encodeCandidate_top sha _ counter
  · intro k hk
    rw [hcompress]
    exact bitAt_encodeCandidate sha _ counter hk
  · intro chunk' h'
    rw [paddedPayload_of_encoded h, paddedPayload_of_encoded h']

end Ebut
