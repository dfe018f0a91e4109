import Ebut.Theory.ElligatorCodec

/-!
# Packed Selectors

The three bits of every selector of a block, packed without gaps. Writing and reading are
inverse to each other: a list of selectors is read back whatever follows the packed string,
and a string whose padding is clear is the packing of what is read from it. The eight values
of a selector are all that three bits can hold, so that the reader has one way to fail, a
string that is too short.

The reader of the code indexes into the string, which stops the program when the index is
out of range. The reader of the model takes a clear bit there instead. `unpackSelectors?` is
the reader with that failure in view, and the length check is what keeps it from happening.

## Main definitions

* `getBitLe?`: A bit of a string, if the string has it.
* `unpackSelectors?`: The reader that stops at an index out of range.

## Theorems

* `packSelectors_error_iff`: Packing fails on a value that three bits cannot hold.
* `unpackSelectors?_eq`: No index is out of range.
* `unpackSelectors_bits`: What is read is the bits of the string.
* `packSelectors_unpackSelectors`: A padded string is packed again.
* `selectors_round_trip`: Packing and unpacking are inverse.
-/

namespace Ebut

open Blocks ByteBits

/-- A bit of a string, `none` where the index of its byte is out of range. -/
def getBitLe? (bytes : List UInt8) (bitIndex : ℕ) : Option Bool :=
  bytes[bitIndex / 8]?.map fun byte => ((byte >>> UInt8.ofNat (bitIndex % 8)) &&& 1) == 1

/-- One turn of the loop of `unpack_selectors`, `none` where it would index out of range. -/
def unpackSelector? (bytes : List UInt8) (i : ℕ) : Option (Except ElligatorCodecError UInt8) := do
  let sel ← (List.range elligatorSelectorBits).foldlM (fun sel bit => do
    let set ← getBitLe? bytes (i * elligatorSelectorBits + bit)
    return if set then sel ||| (1 <<< UInt8.ofNat bit) else sel) 0
  return if sel ≥ elligatorSelectorValues then .error (.invalidSelector sel) else .ok sel

/-- The loop of `unpack_selectors`, which returns at the first error. -/
def unpackLoop? (bytes : List UInt8) :
    List ℕ → Option (Except ElligatorCodecError (List UInt8))
  | [] => some (.ok [])
  | i :: rest => do
      match ← unpackSelector? bytes i with
      | .error e => return .error e
      | .ok sel =>
          match ← unpackLoop? bytes rest with
          | .error e => return .error e
          | .ok sels => return .ok (sel :: sels)

/-- `unpack_selectors`, `none` where it would index out of range. -/
def unpackSelectors? (bytes : List UInt8) (count : ℕ) :
    Option (Except ElligatorCodecError (List UInt8)) :=
  let need := (count * elligatorSelectorBits + 7) / 8
  if bytes.length < need then some (.error .externalCodecRejected)
  else unpackLoop? bytes (List.range count)

section Packing

/-- A turn fails on a value that three bits cannot hold, and only there. -/
theorem packSelector_ok_iff {out : List UInt8} {p : UInt8 × ℕ} :
    (∃ out', packSelector out p = .ok out') ↔ p.1 < elligatorSelectorValues := by
  unfold packSelector
  by_cases hlt : p.1 < elligatorSelectorValues
  · rw [if_neg (UInt8.not_le.mpr hlt)]
    exact ⟨fun _ => hlt, fun _ => ⟨_, rfl⟩⟩
  · rw [if_pos (UInt8.not_lt.mp hlt)]
    exact ⟨fun ⟨_, h⟩ => (nomatch h), fun h => absurd h hlt⟩

theorem foldlM_packSelector_small {turns : List (UInt8 × ℕ)} {out out' : List UInt8}
    (h : turns.foldlM packSelector out = .ok out') :
    ∀ p ∈ turns, p.1 < elligatorSelectorValues := by
  induction turns generalizing out with
  | nil => exact fun p hp => absurd hp List.not_mem_nil
  | cons p turns ih =>
      rw [List.foldlM_cons, bind_eq_ok] at h
      rcases h with ⟨next, hnext, hrest⟩
      -- the first turn has returned, and the loop over the rest too
      intro p' hp'
      rcases List.mem_cons.mp hp' with rfl | hmem
      · exact packSelector_ok_iff.mp ⟨next, hnext⟩
      · exact ih hrest p' hmem

theorem packSelectors_small {selectors packed : List UInt8}
    (h : packSelectors selectors = .ok packed) :
    ∀ sel ∈ selectors, sel < elligatorSelectorValues := by
  intro sel hsel
  rcases List.mem_iff_getElem?.mp hsel with ⟨i, hi⟩
  exact foldlM_packSelector_small h (sel, i) (List.mem_zipIdx_iff_getElem?.mpr hi)

theorem packSelectors_error_iff {selectors : List UInt8} :
    (∃ e, packSelectors selectors = .error e) ↔
      ∃ sel ∈ selectors, elligatorSelectorValues ≤ sel := by
  constructor
  · rintro ⟨e, he⟩
    by_contra hnone
    have hall : ∀ sel ∈ selectors, sel < elligatorSelectorValues := fun sel hsel =>
      UInt8.not_le.mp fun hlarge => hnone ⟨sel, hsel, hlarge⟩
    rcases packSelectors_bitAt hall with ⟨packed, hpacked, -⟩
    rw [hpacked] at he
    exact nomatch he
  · rintro ⟨sel, hsel, hlarge⟩
    cases hpacked : packSelectors selectors with
    | error e => exact ⟨e, rfl⟩
    | ok packed =>
        exact absurd (packSelectors_small hpacked sel hsel) (UInt8.not_lt.mpr hlarge)

/-- The packing and its padding. -/
theorem packSelectors_ok {selectors packed : List UInt8}
    (h : packSelectors selectors = .ok packed) :
    packed.length = (selectors.length * elligatorSelectorBits + 7) / 8 ∧
      ∀ k, bitAt packed k = (selectors.getD (k / 3) 0).toNat.testBit (k % 3) := by
  rcases packSelectors_bitAt (packSelectors_small h) with ⟨packed', hpacked', hlen, hbits⟩
  rw [h, Except.ok.injEq] at hpacked'
  rw [hpacked']
  exact ⟨hlen, hbits⟩

theorem padding_clear {selectors : List UInt8} {k : ℕ} (hk : 3 * selectors.length ≤ k) :
    (selectors.getD (k / 3) 0).toNat.testBit (k % 3) = false := by
  rw [List.getD_eq_default _ _ (by omega)]
  exact Nat.zero_testBit _

end Packing

section Reading

theorem getBitLe?_eq {bytes : List UInt8} {k : ℕ} (hk : k < 8 * bytes.length) :
    getBitLe? bytes k = some (getBitLe bytes k) := by
  have hbyte : k / 8 < bytes.length := by omega
  unfold getBitLe? getBitLe
  rw [List.getElem?_eq_getElem hbyte, Option.map_some, List.getD_eq_getElem _ _ hbyte]

theorem unpackSelector?_eq {bytes : List UInt8} {i : ℕ} (hi : 3 * i + 2 < 8 * bytes.length) :
    unpackSelector? bytes i = some (unpackSelector bytes i) := by
  have hread := foldlM_eq_some (l := List.range elligatorSelectorBits) (fun bit hbit sel =>
    show (do
      let set ← getBitLe? bytes (i * elligatorSelectorBits + bit)
      return if set then sel ||| (1 <<< UInt8.ofNat bit) else sel) =
        some (if getBitLe bytes (i * elligatorSelectorBits + bit) then
          sel ||| (1 <<< UInt8.ofNat bit) else sel) by
      have hbit3 : bit < 3 := List.mem_range.mp hbit
      have hindex : i * elligatorSelectorBits + bit < 8 * bytes.length := by
        show i * 3 + bit < 8 * bytes.length
        omega
      rw [getBitLe?_eq hindex]
      rfl) 0
  unfold unpackSelector?
  rw [hread]
  rfl

theorem unpackLoop?_eq {bytes : List UInt8} {turns : List ℕ}
    (hturns : ∀ i ∈ turns, 3 * i + 2 < 8 * bytes.length) :
    unpackLoop? bytes turns = some (turns.mapM (unpackSelector bytes)) := by
  induction turns with
  | nil => rfl
  | cons i turns ih =>
      rw [unpackLoop?, unpackSelector?_eq (hturns i List.mem_cons_self),
        ih fun j hj => hturns j (List.mem_cons_of_mem _ hj), List.mapM_cons]
      cases unpackSelector bytes i with
      | error e => rfl
      | ok sel =>
          cases turns.mapM (unpackSelector bytes) with
          | error e => rfl
          | ok sels => rfl

/-- The length check keeps every index in range. -/
theorem unpackSelectors?_eq (bytes : List UInt8) (count : ℕ) :
    unpackSelectors? bytes count = some (unpackSelectors bytes count) := by
  have hwidth : elligatorSelectorBits = 3 := rfl
  unfold unpackSelectors? unpackSelectors
  by_cases hshort : bytes.length < (count * elligatorSelectorBits + 7) / 8
  · simp only [if_pos hshort]
  · simp only [if_neg hshort]
    -- three bits for each selector fit the bytes that were asked for
    refine unpackLoop?_eq fun i hi => ?_
    rw [List.mem_range] at hi
    rw [hwidth] at hshort
    omega

/-- A string of enough bytes is read as selectors that have its bits. -/
theorem unpackSelectors_bits {bytes : List UInt8} {count : ℕ}
    (hlen : (count * elligatorSelectorBits + 7) / 8 ≤ bytes.length) :
    ∃ selectors, unpackSelectors bytes count = .ok selectors ∧ selectors.length = count ∧
      (∀ sel ∈ selectors, sel < elligatorSelectorValues) ∧
      ∀ k < 3 * count, (selectors.getD (k / 3) 0).toNat.testBit (k % 3) = bitAt bytes k := by
  rcases exists_mapM_eq_ok (l := List.range count) (f := unpackSelector bytes) fun i _ =>
    unpackSelector_bits bytes i with ⟨selectors, hread, hbits⟩
  rw [List.forall₂_iff_get] at hbits
  rcases hbits with ⟨hcount, hbits⟩
  rw [List.length_range] at hcount
  have hbits' : ∀ (i : ℕ) (hi : i < selectors.length),
      selectors[i] < elligatorSelectorValues ∧
        ∀ bit < 3, bitAt bytes (i * 3 + bit) = selectors[i].toNat.testBit bit := by
    intro i hi
    have h := hbits i (by rwa [List.length_range, hcount]) hi
    rw [List.get_eq_getElem, List.get_eq_getElem, List.getElem_range] at h
    exact h
  refine ⟨selectors, ?_, hcount.symm, fun sel hsel => ?_, fun k hk => ?_⟩
  · unfold unpackSelectors
    simp only [Nat.not_lt.mpr hlen, if_false]
    exact hread
  · rcases List.mem_iff_getElem.mp hsel with ⟨i, hi, rfl⟩
    exact (hbits' i hi).1
  · have hi : k / 3 < selectors.length := by omega
    rw [List.getD_eq_getElem _ _ hi, ← (hbits' (k / 3) hi).2 (k % 3) (Nat.mod_lt _ (by omega)),
      Nat.div_add_mod']

theorem unpackSelectors_error_iff {bytes : List UInt8} {count : ℕ} :
    (∃ e, unpackSelectors bytes count = .error e) ↔
      bytes.length < (count * elligatorSelectorBits + 7) / 8 := by
  constructor
  · rintro ⟨e, he⟩
    by_contra hlen
    rcases unpackSelectors_bits (Nat.le_of_not_lt hlen) with ⟨selectors, hread, -⟩
    rw [hread] at he
    exact nomatch he
  · intro hshort
    unfold unpackSelectors
    simp only [if_pos hshort]
    exact ⟨_, rfl⟩

/-- A string of the right length with clear padding is the packing of what is read from it. -/
theorem packSelectors_unpackSelectors {bytes : List UInt8} {count : ℕ}
    (hlen : bytes.length = (count * elligatorSelectorBits + 7) / 8)
    (hpadding : ∀ k, 3 * count ≤ k → bitAt bytes k = false) :
    ∃ selectors, unpackSelectors bytes count = .ok selectors ∧
      packSelectors selectors = .ok bytes := by
  rcases unpackSelectors_bits hlen.ge with ⟨selectors, hread, hcount, hsmall, hbits⟩
  rcases packSelectors_bitAt hsmall with ⟨packed, hpacked, hpackedLen, hpackedBits⟩
  -- both have the bits of the selectors, and clear bits behind them
  have hsame : packed = bytes := by
    refine ext_bitAt (by rw [hpackedLen, hlen, hcount]) fun k _ => ?_
    rw [hpackedBits]
    by_cases hk : k < 3 * count
    · exact hbits k hk
    · rw [hpadding k (Nat.le_of_not_lt hk), padding_clear (by omega)]
  exact ⟨selectors, hread, by rw [hpacked, hsame]⟩

end Reading

/-- Packing fails exactly on a value of eight or more. What it returns has the least number of
bytes, clear padding, and is read back whatever follows. Reading indexes nothing out of range
and fails exactly on too short a string, and a string with clear padding is packed again from
what is read. -/
theorem selectors_round_trip :
    (∀ selectors : List UInt8,
      ((∃ e, packSelectors selectors = .error e) ↔ ∃ sel ∈ selectors, 8 ≤ sel) ∧
      ∀ packed, packSelectors selectors = .ok packed →
        packed.length = (3 * selectors.length + 7) / 8 ∧
        (∀ k, 3 * selectors.length ≤ k → bitAt packed k = false) ∧
        ∀ rest, unpackSelectors (packed ++ rest) selectors.length = .ok selectors) ∧
    (∀ (bytes : List UInt8) (count : ℕ),
      unpackSelectors? bytes count = some (unpackSelectors bytes count) ∧
      ((∃ e, unpackSelectors bytes count = .error e) ↔ bytes.length < (3 * count + 7) / 8)) ∧
    ∀ (bytes : List UInt8) (count : ℕ), bytes.length = (3 * count + 7) / 8 →
      (∀ k, 3 * count ≤ k → bitAt bytes k = false) →
      ∃ selectors, unpackSelectors bytes count = .ok selectors ∧
        packSelectors selectors = .ok bytes := by
  have hneed : ∀ count, (3 * count + 7) / 8 = (count * elligatorSelectorBits + 7) / 8 :=
    fun count => by rw [mul_comm]; rfl
  refine ⟨fun selectors => ⟨packSelectors_error_iff, fun packed hpacked => ?_⟩,
    fun bytes count => ⟨unpackSelectors?_eq bytes count, ?_⟩, fun bytes count hlen hpadding => ?_⟩
  · rcases packSelectors_ok hpacked with ⟨hlen, hbits⟩
    refine ⟨by rw [hneed, hlen], fun k hk => ?_, fun rest => ?_⟩
    · rw [hbits k, padding_clear hk]
    · refine unpackSelectors_ok (packSelectors_small hpacked) ?_ fun k hk => ?_
      · rw [List.length_append, hlen]
        exact Nat.le_add_right _ _
      · -- a bit of a selector is in the packed string
        have hin : k / 8 < packed.length := by
          have hk3 : k < selectors.length * 3 := hk
          rw [hlen, ← hneed]
          omega
        rw [← hbits k]
        unfold bitAt
        rw [List.getD_append _ _ _ _ hin]
  · rw [hneed]
    exact unpackSelectors_error_iff
  · rw [hneed] at hlen
    exact packSelectors_unpackSelectors hlen hpadding

end Ebut
