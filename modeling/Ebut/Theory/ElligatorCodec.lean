import Ebut.Core.ElligatorCodec
import Ebut.Library.Blocks
import Ebut.Theory.PointEncoding

/-!
# Chunks and Selectors Read Back

The codec decodes what it encodes, whatever the chunk. The shift by one bit leaves the bits
clear that the library asks for, and keeps the string below the order of the field. A
selector has one bit for each of the masks, which are words of zeros or of ones, so that the
decoder passes the masks that the encoder was given.

What the library is trusted with is stated over the group element of each of its points,
since a point goes through its compressed encoding before it is decoded.

## Main definitions

* `LawfulLibrary`: What is relied on in the external library.
* `Codes`: A chunk with what it is encoded to.

## Theorems

* `bitAt_payloadToSer`: The bits of the shifted chunk.
* `serToPayload_payloadToSer`: The shift is undone.
* `encodeChunk_codes`: Every chunk is encoded, and decoded to itself.
* `unpackSelectors_packSelectors`: The selectors of a block are packed and read back.
-/

namespace Ebut

open Blocks ByteBits LittleEndian

section Payload

theorem payloadToSer_toList (chunk : List UInt8) :
    (payloadToSer chunk).toList = (List.range (chunk.length * 8)).foldl
      (fun ser i => if getBitLe chunk i then orBit ser (i + 1) else ser)
      (List.replicate 32 0) := rfl

/-- The bits that the loop sets: those of the chunk, each one place higher. -/
theorem bitAt_payloadToSer_any {chunk : List UInt8} (hlen : chunk.length ≤ 31) (k : ℕ) :
    bitAt (payloadToSer chunk).toList k =
      (List.range (chunk.length * 8)).any fun i => getBitLe chunk i && decide (i + 1 = k) := by
  rw [payloadToSer_toList, bitAt_foldl_orBit (getBitLe chunk) (fun i => i + 1),
    bitAt_replicate_zero, Bool.false_or]
  intro i hi
  rw [List.mem_range] at hi
  rw [List.length_replicate]
  omega

theorem bitAt_payloadToSer {chunk : List UInt8} (hlen : chunk.length ≤ 31) (k : ℕ) :
    bitAt (payloadToSer chunk).toList (k + 1) = bitAt chunk k := by
  rw [bitAt_payloadToSer_any hlen]
  by_cases hk : k < chunk.length * 8
  · rw [any_range_eq hk (getBitLe chunk) (Nat.succ_injective), getBitLe_eq]
  · rw [bitAt_of_le (by omega), List.any_eq_false]
    intro i hi
    rw [List.mem_range] at hi
    rw [Bool.and_eq_true, decide_eq_true_eq]
    omega

/-- The lowest bit stays clear. -/
theorem bitAt_payloadToSer_zero {chunk : List UInt8} (hlen : chunk.length ≤ 31) :
    bitAt (payloadToSer chunk).toList 0 = false := by
  rw [bitAt_payloadToSer_any hlen, List.any_eq_false]
  intro i _
  rw [Bool.and_eq_true, decide_eq_true_eq]
  omega

theorem leNat_payloadToSer_lt {chunk : List UInt8} (hlen : chunk.length ≤ 31) :
    leNat (payloadToSer chunk).toList < 2 ^ 249 := by
  refine leNat_lt_of_bitAt fun k hk => ?_
  rcases Nat.exists_eq_succ_of_ne_zero (show k ≠ 0 by omega) with ⟨j, rfl⟩
  rw [Nat.succ_eq_add_one, bitAt_payloadToSer hlen]
  exact bitAt_of_le (by omega)

theorem serToPayload_payloadToSer {chunk : List UInt8} (hlen : chunk.length ≤ 31) {len : UInt8}
    (hbyte : len.toNat = chunk.length) : serToPayload (payloadToSer chunk) len = chunk := by
  unfold serToPayload
  rw [hbyte]
  refine ext_bitAt ?_ fun k hk => ?_
  · rw [foldl_orBit_length, List.length_replicate]
  · rw [foldl_orBit_length, List.length_replicate] at hk
    have hone := any_range_eq (show k < chunk.length * 8 by omega)
      (fun i => getBitLe (payloadToSer chunk).toList (i + 1)) Function.injective_id
    simp only [id] at hone
    rw [bitAt_foldl_orBit (fun i => getBitLe (payloadToSer chunk).toList (i + 1)) (fun i => i),
      bitAt_replicate_zero, Bool.false_or, hone]
    · rw [getBitLe_eq, bitAt_payloadToSer hlen]
    · intro i hi
      rw [List.mem_range] at hi
      rw [List.length_replicate]
      omega

/-- The two tests of the decoder on a string that it accepts. -/
theorem outer_bits_clear {ser : List UInt8} (hlow : bitAt ser 0 = false)
    (hhigh : bitAt ser 255 = false) :
    ¬(ser.getD 0 0 &&& 1 ≠ 0 ∨ ser.getD 31 0 &&& 0x80 ≠ 0) := by
  have hbit : ∀ (b : UInt8) (q : ℕ), b.toNat.testBit q = false → q < 8 →
      b &&& UInt8.ofNat (2 ^ q) = 0 := by
    intro b q hb hq
    have hpow : 2 ^ q < 2 ^ 8 := Nat.pow_lt_pow_right (by omega) hq
    rw [← UInt8.toNat_inj, UInt8.toNat_and, UInt8.toNat_ofNat', Nat.mod_eq_of_lt hpow,
      Nat.and_two_pow, hb, Bool.toNat_false, Nat.zero_mul]
    rfl
  rw [not_or, not_not, not_not]
  exact ⟨hbit _ 0 hlow (by omega), hbit _ 7 hhigh (by omega)⟩

end Payload

section Masks

/-- A word of zeros or of ones. -/
def IsMask (mask : UInt64) : Prop := mask = 0 ∨ mask = ~~~0

/-- The masks of a selector are the ones it was made of. -/
theorem masks_of_selector {t altx s : UInt64} (ht : IsMask t) (haltx : IsMask altx)
    (hs : IsMask s) :
    selectorOfMasks t altx s < elligatorSelectorValues ∧
      maskOfSelector (selectorOfMasks t altx s) 1 = t ∧
      maskOfSelector (selectorOfMasks t altx s) 2 = altx ∧
      maskOfSelector (selectorOfMasks t altx s) 4 = s := by
  rcases ht with rfl | rfl <;> rcases haltx with rfl | rfl <;> rcases hs with rfl | rfl <;> decide

end Masks

section Codec

variable {R C : Type} [AddCommGroup R] [Module DalekScalar R] {dalek : Dalek R}
  {library : ElligatorLibrary C} {point : C → R}

/-- What is relied on in the library, whose points stand for elements of the group: its masks
are words of zeros or of ones; it decodes each string with the lowest bit clear that denotes
an element of the field, from the element that the string is encoded to and with its masks;
and its encoding of points is the compressed one. -/
structure LawfulLibrary (dalek : Dalek R) (library : ElligatorLibrary C) (point : C → R) :
    Prop where
  mask_t : ∀ ser, IsMask (library.encodeSingleMessage ser).sgnEdT
  mask_altx : ∀ ser, IsMask (library.encodeSingleMessage ser).sgnAltx
  mask_s : ∀ ser, IsMask (library.encodeSingleMessage ser).sgnS
  decode_encode : ∀ ser : Bytes 32, bitAt ser.toList 0 = false →
    leNat ser.toList < 2 ^ 255 - 19 → ∀ c,
      point c = point (library.encodeSingleMessage ser).p →
        library.decodeSingleMessage c (library.encodeSingleMessage ser).sgnEdT
          (library.encodeSingleMessage ser).sgnAltx (library.encodeSingleMessage ser).sgnS = ser
  serialize : ∀ c, library.serializeMalicious c = dalek.compress (point c)
  deserialize : ∀ m, (library.deserializeMalicious (dalek.compress m)).1 ≠ 0 ∧
    point (library.deserializeMalicious (dalek.compress m)).2 = m
  decompress_compress : ∀ m, dalek.decompress (dalek.compress m) = some m

/-- A chunk with what it is encoded to: a selector of three bits and the length of the chunk,
at which the point decodes to the chunk. -/
structure Codes (dalek : Dalek R) (library : ElligatorLibrary C) (chunk : List UInt8)
    (enc : EncodedRistrettoChunk R) : Prop where
  selector_lt : enc.selector < elligatorSelectorValues
  len : enc.len.toNat = chunk.length
  decoded : decodeChunk dalek (some library) enc.point enc.selector enc.len = .ok chunk

theorem encodeChunk_codes (hlibrary : LawfulLibrary dalek library point) {chunk : List UInt8}
    (hlen : chunk.length ≤ elligatorPayloadBytes) :
    ∃ enc, encodeChunk dalek (some library) chunk = .ok enc ∧ Codes dalek library chunk enc := by
  have hpayload : elligatorPayloadBytes = 31 := rfl
  have hfits : chunk.length ≤ 31 := hlen
  have hbyte : (UInt8.ofNat chunk.length).toNat = chunk.length := by
    rw [UInt8.toNat_ofNat', Nat.mod_eq_of_lt (by omega)]
  have hlarge : ¬chunk.length > elligatorPayloadBytes := Nat.not_lt_of_le hlen
  let message := library.encodeSingleMessage (payloadToSer chunk)
  let selector := selectorOfMasks message.sgnEdT message.sgnAltx message.sgnS
  rcases masks_of_selector (hlibrary.mask_t (payloadToSer chunk))
    (hlibrary.mask_altx (payloadToSer chunk)) (hlibrary.mask_s (payloadToSer chunk)) with
    ⟨hselector, hsgnT, hsgnAltx, hsgnS⟩
  refine ⟨⟨point message.p, selector, UInt8.ofNat chunk.length⟩, ?_, hselector, hbyte, ?_⟩
  · unfold encodeChunk externalEncodeChunk
    rw [if_neg hlarge]
    simp only [if_neg hlarge, hlibrary.serialize, hlibrary.decompress_compress]
    rfl
  · -- the library is given back the masks, since the selector carries all three
    rcases hlibrary.deserialize (point message.p) with ⟨hok, hpoint⟩
    have hser : library.decodeSingleMessage
        (library.deserializeMalicious (dalek.compress (point message.p))).2
        (maskOfSelector selector 1) (maskOfSelector selector 2) (maskOfSelector selector 4) =
          payloadToSer chunk := by
      rw [hsgnT, hsgnAltx, hsgnS]
      refine hlibrary.decode_encode _ (bitAt_payloadToSer_zero hfits) ?_ _ hpoint
      exact (leNat_payloadToSer_lt hfits).trans (by norm_num)
    have hclear := outer_bits_clear (bitAt_payloadToSer_zero hfits)
      ((bitAt_payloadToSer hfits 254).trans (bitAt_of_le (by omega)))
    have hsmall : ¬selector ≥ elligatorSelectorValues := UInt8.not_le.mpr hselector
    unfold decodeChunk externalDecodeChunk
    simp only [hbyte, if_neg hlarge, if_neg hok, if_neg hsmall]
    rw [hser, if_neg hclear, serToPayload_payloadToSer hfits hbyte]

/-- The selectors of encoded chunks have three bits. -/
theorem selectors_small {parts : List (List UInt8)} {encs : List (EncodedRistrettoChunk R)}
    (hcodes : List.Forall₂ (Codes dalek library) parts encs) :
    ∀ sel ∈ encs.map (fun enc => enc.selector), sel < elligatorSelectorValues := by
  intro sel hsel
  rcases List.mem_map.mp hsel with ⟨enc, henc, rfl⟩
  rcases List.mem_iff_getElem.mp henc with ⟨i, hi, rfl⟩
  exact (hcodes.get (hcodes.length_eq ▸ hi) hi).selector_lt

end Codec

section Selectors

/-- The turns of the two nested loops of the packing: a selector with its position, and one of
its bits. -/
def selectorTurns (selectors : List UInt8) : List ((UInt8 × ℕ) × ℕ) :=
  selectors.zipIdx.flatMap fun p => (List.range elligatorSelectorBits).map fun bit => (p, bit)

theorem mem_selectorTurns {selectors : List UInt8} {t : (UInt8 × ℕ) × ℕ} :
    t ∈ selectorTurns selectors ↔ selectors[t.1.2]? = some t.1.1 ∧ t.2 < 3 := by
  unfold selectorTurns
  rw [List.mem_flatMap]
  constructor
  · rintro ⟨p, hp, ht⟩
    rcases List.mem_map.mp ht with ⟨bit, hbit, rfl⟩
    exact ⟨List.mem_zipIdx_iff_getElem?.mp hp, List.mem_range.mp hbit⟩
  · rintro ⟨hp, hbit⟩
    exact ⟨t.1, List.mem_zipIdx_iff_getElem?.mpr hp,
      List.mem_map.mpr ⟨t.2, List.mem_range.mpr hbit, rfl⟩⟩

/-- Selectors of three bits are packed by one loop over the turns. -/
theorem packSelectors_eq {selectors : List UInt8}
    (hsmall : ∀ sel ∈ selectors, sel < elligatorSelectorValues) :
    packSelectors selectors = .ok ((selectorTurns selectors).foldl
      (fun out t => if ((t.1.1 >>> UInt8.ofNat t.2) &&& 1) == 1 then
        orBit out (t.1.2 * elligatorSelectorBits + t.2) else out)
      (List.replicate ((selectors.length * elligatorSelectorBits + 7) / 8) 0)) := by
  unfold packSelectors selectorTurns
  rw [List.foldl_flatMap]
  simp only [List.foldl_map]
  refine foldlM_eq_ok (fun p hp out => ?_) _
  have hlt := hsmall p.1 (List.fst_mem_of_mem_zipIdx hp)
  unfold packSelector
  rw [if_neg (UInt8.not_le.mpr hlt)]

/-- The packed string has room for the selectors. It holds their bits in order, and no
others. -/
theorem packSelectors_bitAt {selectors : List UInt8}
    (hsmall : ∀ sel ∈ selectors, sel < elligatorSelectorValues) :
    ∃ packed, packSelectors selectors = .ok packed ∧
      packed.length = (selectors.length * elligatorSelectorBits + 7) / 8 ∧
      ∀ k, bitAt packed k = (selectors.getD (k / 3) 0).toNat.testBit (k % 3) := by
  refine ⟨_, packSelectors_eq hsmall, ?_, fun k => ?_⟩
  · rw [foldl_orBit_length, List.length_replicate]
  · have hwidth : elligatorSelectorBits = 3 := rfl
    rw [bitAt_foldl_orBit (fun t : (UInt8 × ℕ) × ℕ => ((t.1.1 >>> UInt8.ofNat t.2) &&& 1) == 1)
      (fun t => t.1.2 * elligatorSelectorBits + t.2), bitAt_replicate_zero, Bool.false_or,
      Bool.eq_iff_iff, List.any_eq_true]
    · constructor
      · rintro ⟨t, ht, hset⟩
        rcases mem_selectorTurns.mp ht with ⟨hsel, hlt⟩
        rw [Bool.and_eq_true, decide_eq_true_eq, shiftBit_eq _ (by omega), hwidth] at hset
        -- three bits for a selector, so that the index names the selector and the bit
        have hpos : t.1.2 = k / 3 := by omega
        have hbiteq : t.2 = k % 3 := by omega
        rw [hpos] at hsel
        rw [List.getD_eq_getElem?_getD, hsel, Option.getD_some, ← hbiteq]
        exact hset.1
      · intro hset
        have hk : k / 3 < selectors.length := by
          by_contra hge
          rw [List.getD_eq_default _ _ (Nat.le_of_not_lt hge)] at hset
          exact absurd ((Nat.zero_testBit (k % 3)).symm.trans hset) Bool.false_ne_true
        rw [List.getD_eq_getElem _ _ hk] at hset
        refine ⟨((selectors[k / 3], k / 3), k % 3),
          mem_selectorTurns.mpr ⟨List.getElem?_eq_getElem hk, Nat.mod_lt _ (by omega)⟩, ?_⟩
        rw [Bool.and_eq_true, decide_eq_true_eq, shiftBit_eq _ (by omega), hwidth]
        exact ⟨hset, Nat.div_add_mod' k 3⟩
    · intro t ht
      rcases mem_selectorTurns.mp ht with ⟨hsel, hlt⟩
      rcases List.getElem?_eq_some_iff.mp hsel with ⟨hi', -⟩
      rw [List.length_replicate, hwidth]
      omega

/-- A selector of three bits has no others. -/
theorem testBit_selector {sel : UInt8} (hsmall : sel < elligatorSelectorValues) {q : ℕ}
    (hq : 3 ≤ q) : sel.toNat.testBit q = false :=
  Nat.testBit_lt_two_pow
    ((show sel.toNat < 2 ^ 3 from UInt8.lt_iff_toNat_lt.mp hsmall).trans_le
      (Nat.pow_le_pow_right (by omega) hq))

/-- Whatever the string, three bits are read as a selector. -/
theorem unpackSelector_bits (bytes : List UInt8) (i : ℕ) :
    ∃ sel, unpackSelector bytes i = .ok sel ∧ sel < elligatorSelectorValues ∧
      ∀ bit < 3, bitAt bytes (i * elligatorSelectorBits + bit) = sel.toNat.testBit bit := by
  have hturns : ∀ p ∈ List.range elligatorSelectorBits, p < 8 := fun p hp =>
    (List.mem_range.mp hp).trans (by decide)
  have hbits := testBit_foldl_or (fun bit => getBitLe bytes (i * elligatorSelectorBits + bit))
    hturns 0
  unfold unpackSelector
  generalize (List.range elligatorSelectorBits).foldl (fun sel bit =>
    if getBitLe bytes (i * elligatorSelectorBits + bit) then sel ||| (1 <<< UInt8.ofNat bit)
    else sel) 0 = sel at hbits ⊢
  have hzero : ∀ q, (0 : UInt8).toNat.testBit q = false := fun q => Nat.zero_testBit q
  have hread : ∀ bit < 3, sel.toNat.testBit bit =
      bitAt bytes (i * elligatorSelectorBits + bit) := by
    intro bit hbit
    have hone := any_range_eq (show bit < elligatorSelectorBits from hbit)
      (fun bit => getBitLe bytes (i * elligatorSelectorBits + bit)) Function.injective_id
    simp only [id] at hone
    rw [hbits, hzero, Bool.false_or, hone, getBitLe_eq]
  have hsmall : sel < elligatorSelectorValues := by
    rw [UInt8.lt_iff_toNat_lt]
    refine Nat.lt_pow_two_of_testBit (n := 3) _ fun q hq => ?_
    rw [hbits, hzero, Bool.false_or, List.any_eq_false]
    intro p hp
    have hp3 : p < 3 := List.mem_range.mp hp
    rw [Bool.and_eq_true, decide_eq_true_eq]
    omega
  exact ⟨sel, if_neg (UInt8.not_le.mpr hsmall), hsmall, fun bit hbit => (hread bit hbit).symm⟩

/-- A selector of three bits is read back from its bits. -/
theorem unpackSelector_ok {packed : List UInt8} {i : ℕ} {sel : UInt8}
    (hsmall : sel < elligatorSelectorValues)
    (hbits : ∀ bit < 3, bitAt packed (i * elligatorSelectorBits + bit) = sel.toNat.testBit bit) :
    unpackSelector packed i = .ok sel := by
  rcases unpackSelector_bits packed i with ⟨read, hread, hreadSmall, hreadBits⟩
  have heq : read = sel := by
    refine ext_testBit fun q _ => ?_
    by_cases hq : q < 3
    · rw [← hreadBits q hq, hbits q hq]
    · rw [testBit_selector hreadSmall (Nat.le_of_not_lt hq),
        testBit_selector hsmall (Nat.le_of_not_lt hq)]
  rw [hread, heq]

/-- A string that begins with the bits of the selectors is read as the selectors. -/
theorem unpackSelectors_ok {bytes selectors : List UInt8}
    (hsmall : ∀ sel ∈ selectors, sel < elligatorSelectorValues)
    (hlen : (selectors.length * elligatorSelectorBits + 7) / 8 ≤ bytes.length)
    (hbits : ∀ k < selectors.length * elligatorSelectorBits,
      bitAt bytes k = (selectors.getD (k / 3) 0).toNat.testBit (k % 3)) :
    unpackSelectors bytes selectors.length = .ok selectors := by
  unfold unpackSelectors
  simp only [Nat.not_lt.mpr hlen, if_false]
  rw [mapM_eq_ok, List.forall₂_iff_get]
  refine ⟨List.length_range, fun i hi hi' => ?_⟩
  rw [List.get_eq_getElem, List.get_eq_getElem, List.getElem_range]
  refine unpackSelector_ok (hsmall _ (List.getElem_mem hi')) fun bit hbit => ?_
  have hlt : i < selectors.length := hi'
  show bitAt bytes (i * 3 + bit) = _
  rw [hbits _ (show i * 3 + bit < selectors.length * 3 by omega),
    show (i * 3 + bit) / 3 = i by omega, show (i * 3 + bit) % 3 = bit by omega,
    List.getD_eq_getElem _ _ hlt]

/-- Selectors of three bits are packed, and read back by their number. -/
theorem unpackSelectors_packSelectors {selectors : List UInt8}
    (hsmall : ∀ sel ∈ selectors, sel < elligatorSelectorValues) :
    ∃ packed, packSelectors selectors = .ok packed ∧
      unpackSelectors packed selectors.length = .ok selectors := by
  rcases packSelectors_bitAt hsmall with ⟨packed, hpacked, hlen, hbits⟩
  exact ⟨packed, hpacked, unpackSelectors_ok hsmall hlen.ge fun k _ => hbits k⟩

end Selectors

end Ebut
