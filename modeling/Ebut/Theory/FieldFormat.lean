import Ebut.Theory.CanonicalForm

/-!
# The Wire Format of a Field Element

An element is written as the 32 bytes of its residue, whatever its limbs are, and the strings
that are read are those which are written. Writing shifts a buffer through the limbs by bytes, and
reading shifts one through the bytes by limbs; each loop keeps the number that is in the buffer and
in what is still to come.

A string is also compared with the order while it is read, from the lowest limb up, by the sign of
one difference after the other. Of the residues whose high bit is clear, which a caller can ask
for, the comparison leaves the lower half.

## Main definitions

* `limbsNumber`: The number that is in a list of limbs.
* `maskLast`: The bytes as they are read, the last one masked.
* `Reading`: What the loop over the limbs keeps.

## Theorems

* `gfSerialize_eq`: What is written.
* `gfDeserialize_spec`: What is read, and when it is accepted.
* `gfWire_canonical`: The format is canonical.
-/

namespace Ebut

open FiveLimbs LittleEndian

/-- A number whose low part is apart from the rest is divided part by part. -/
theorem split_pow {j k : ℕ} (hjk : j ≤ k) (low high : ℕ) :
    (low + 2 ^ k * high) % 2 ^ j = low % 2 ^ j ∧
      (low + 2 ^ k * high) / 2 ^ j = low / 2 ^ j + 2 ^ (k - j) * high := by
  have hpow : 2 ^ k * high = 2 ^ j * (2 ^ (k - j) * high) := by
    rw [← Nat.mul_assoc, ← Nat.pow_add, Nat.add_sub_cancel' hjk]
  rw [hpow]
  exact ⟨Nat.add_mul_mod_self_left _ _ _, Nat.add_mul_div_left _ _ (Nat.two_pow_pos j)⟩

theorem shifted_lt {j k n : ℕ} (hn : n < 2 ^ k) : n / 2 ^ j < 2 ^ (k - j) := by
  rw [Nat.div_lt_iff_lt_mul (Nat.two_pow_pos j), ← Nat.pow_add]
  exact hn.trans_le (Nat.pow_le_pow_right (by decide) (by omega))

theorem or_shifted {buffer fill : ℕ} (hbuffer : buffer < 2 ^ fill) (n : ℕ) :
    buffer ||| n <<< fill = buffer + 2 ^ fill * n := by
  rw [Nat.or_comm, ← Nat.shiftLeft_add_eq_or_of_lt hbuffer, Nat.shiftLeft_eq]
  ring

section Writing

/-- The number that is in a list of limbs. -/
def limbsNumber : List UInt64 → ℕ
  | [] => 0
  | limb :: limbs => limb.toNat + 2 ^ 51 * limbsNumber limbs

/-- The byte that is written, and what is left, of a number whose low part is in the buffer. -/
theorem leBytes_split {turns fill : ℕ} (hfill : 8 ≤ fill) (buffer rest : ℕ) :
    leBytes (turns + 1) (buffer + 2 ^ fill * rest) =
      UInt8.ofNat buffer :: leBytes turns (buffer >>> 8 + 2 ^ (fill - 8) * rest) := by
  rcases split_pow hfill buffer rest with ⟨hlow, hhigh⟩
  have hbyte : UInt8.ofNat (buffer + 2 ^ fill * rest) = UInt8.ofNat buffer := by
    rw [← UInt8.toNat_inj, UInt8.toNat_ofNat', UInt8.toNat_ofNat', hlow]
  rw [leBytes, hbyte, Nat.shiftRight_eq_div_pow]
  exact congrArg (fun n => UInt8.ofNat buffer :: leBytes turns n) hhigh

/-- What is in the buffer and in the limbs that are left is written byte by byte. -/
theorem serializeLoop_eq (turns : ℕ) {limbs : List UInt64} (hlimbs : ∀ l ∈ limbs, l.toNat < 2 ^ 51)
    {fill buffer : ℕ} (hbuffer : buffer < 2 ^ fill) :
    serializeLoop turns limbs fill buffer =
      leBytes turns (buffer + 2 ^ fill * limbsNumber limbs) := by
  induction turns generalizing limbs fill buffer with
  | zero => rfl
  | succ turns ih =>
      cases limbs with
      | nil =>
          have hleft := shifted_lt (j := 8) hbuffer
          rw [← Nat.shiftRight_eq_div_pow] at hleft
          rw [serializeLoop, ih (by simp) hleft, limbsNumber, Nat.mul_zero, Nat.mul_zero, leBytes,
            Nat.shiftRight_eq_div_pow]
          rfl
      | cons limb limbs =>
          rcases List.forall_mem_cons.mp hlimbs with ⟨hlimb, hlimbs⟩
          rw [serializeLoop]
          by_cases hfill : fill < 8
          · -- the next limb is put on top of what the buffer has
            have hnext : buffer + 2 ^ fill * limb.toNat < 2 ^ (fill + 51) := by
              have hmul := Nat.mul_le_mul_left (2 ^ fill) (Nat.succ_le_of_lt hlimb)
              rw [Nat.mul_succ] at hmul
              rw [Nat.pow_add]
              omega
            have hleft := shifted_lt (j := 8) hnext
            rw [← Nat.shiftRight_eq_div_pow] at hleft
            have hsum : buffer + 2 ^ fill * limbsNumber (limb :: limbs) =
                buffer + 2 ^ fill * limb.toNat + 2 ^ (fill + 51) * limbsNumber limbs := by
              rw [limbsNumber, Nat.pow_add]
              ring
            rw [if_pos hfill, or_shifted hbuffer, hsum, leBytes_split (by omega)]
            exact congrArg _ (ih hlimbs hleft)
          · have hleft := shifted_lt (j := 8) hbuffer
            rw [← Nat.shiftRight_eq_div_pow] at hleft
            rw [if_neg hfill, ih (List.forall_mem_cons.mpr ⟨hlimb, hlimbs⟩) hleft,
              leBytes_split (by omega)]

/-- An element is written as the bytes of its residue. -/
theorem gfSerialize_eq (x : Gf25519) : gfSerialize x = leArray 32 x.elt.val := by
  refine List.Vector.toList_injective ?_
  rcases gfStrongReduce_below x with ⟨h0, h1, h2, h3, h4⟩
  have hnumber : limbsNumber [(gfStrongReduce x).limb0, (gfStrongReduce x).limb1,
      (gfStrongReduce x).limb2, (gfStrongReduce x).limb3, (gfStrongReduce x).limb4] =
      x.elt.val := by
    rw [← gfStrongReduce_number]
    unfold limbsNumber limbsNumber limbsNumber limbsNumber limbsNumber limbsNumber
    unfold Gf25519.number Limbs.number Gf25519.limbs
    ring
  refine (serializeLoop_eq 32 ?_ (show 0 < 2 ^ 0 by decide)).trans ?_
  · simp only [List.forall_mem_cons]
    exact ⟨h0, h1, h2, h3, h4, by simp⟩
  · rw [hnumber, pow_zero, one_mul, zero_add]
    rfl

end Writing

section Reading

/-- The bytes as they are read, the last one masked. -/
def maskLast (hiNmask : UInt8) : List UInt8 → List UInt8
  | [] => []
  | b :: bs => (if bs.isEmpty then b &&& ~~~hiNmask else b) :: maskLast hiNmask bs

/-- What the loop over the limbs keeps: the bits that are left, in the buffer and in the bytes, and
the number that they make up. -/
structure Reading (hiNmask : UInt8) (s : Deserializing) (bits rest : ℕ) : Prop where
  fits : s.buffer < 2 ^ s.fill
  small : s.fill < 59
  bits : s.fill + 8 * s.serial.length = bits
  rest : s.buffer + 2 ^ s.fill * leNat (maskLast hiNmask s.serial) = rest

/-- The inner loop keeps that too, and ends with a full limb or with no bytes. -/
theorem fillLimb_reading {hiNmask : UInt8} {s : Deserializing} {bits rest : ℕ}
    (hs : Reading hiNmask s bits rest) :
    ∃ serial fill buffer, fillLimb hiNmask s.serial s.fill s.buffer = (serial, fill, buffer) ∧
      Reading hiNmask ⟨serial, fill, buffer, s.scarry⟩ bits rest ∧ (51 ≤ fill ∨ serial = []) := by
  rcases s with ⟨serial, fill, buffer, scarry⟩
  induction serial generalizing fill buffer with
  | nil => exact ⟨[], fill, buffer, rfl, hs, Or.inr rfl⟩
  | cons b serial ih =>
      rcases hs with ⟨hfits, hsmall, hbits, hrest⟩
      unfold fillLimb
      by_cases hfill : fill < 51
      · have hbyte := (if serial.isEmpty then b &&& ~~~hiNmask else b).toNat_lt
        have hnext : Reading hiNmask ⟨serial, fill + 8, buffer |||
            (if serial.isEmpty then b &&& ~~~hiNmask else b).toNat <<< fill, scarry⟩ bits rest := by
          simp only [maskLast, leNat, List.length_cons] at hfits hbits hrest
          generalize (if serial.isEmpty then b &&& ~~~hiNmask else b) = c at hbyte hrest ⊢
          have hmul := Nat.mul_le_mul_left (2 ^ fill) (Nat.succ_le_of_lt hbyte)
          rw [Nat.mul_succ] at hmul
          refine ⟨?_, ?_, ?_, ?_⟩
          · rw [or_shifted hfits, Nat.pow_add]
            simp only
            omega
          · exact Nat.add_lt_add_right hfill 8
          · simp only
            omega
          · simp only
            rw [or_shifted hfits, ← hrest, Nat.pow_add]
            ring
        rcases ih _ _ hnext with ⟨serial', fill', buffer', heq, hreading, hend⟩
        exact ⟨serial', fill', buffer', by rw [if_pos hfill]; exact heq, hreading, hend⟩
      · exact ⟨b :: serial, fill, buffer, by rw [if_neg hfill],
          ⟨hfits, hsmall, hbits, hrest⟩, Or.inl (Nat.le_of_not_lt hfill)⟩

variable {hiNmask : UInt8} {s : Deserializing} {bits rest : ℕ} (modulus : UInt64)

/-- A limb but the last takes the low bits of the number that is left. -/
theorem deserializeLimb_spec (hs : Reading hiNmask s bits rest) (hbits : 51 ≤ bits) :
    (deserializeLimb hiNmask false modulus s).1.toNat = rest % 2 ^ 51 ∧
      Reading hiNmask (deserializeLimb hiNmask false modulus s).2 (bits - 51) (rest / 2 ^ 51) ∧
      (deserializeLimb hiNmask false modulus s).2.scarry =
        (s.scarry + (rest % 2 ^ 51 : ℕ) - modulus.toNat) / 2 ^ 64 := by
  rcases fillLimb_reading hs with ⟨serial, fill, buffer, heq, ⟨hfits, hsmall, hlen, hrest⟩, hend⟩
  simp only at hfits hsmall hlen hrest
  have hfull : 51 ≤ fill := by
    rcases hend with hfull | rfl
    · exact hfull
    · rw [← hlen] at hbits
      exact hbits
  rcases split_pow hfull buffer (leNat (maskLast hiNmask serial)) with ⟨hlow, hhigh⟩
  rw [hrest] at hlow hhigh
  have hword : buffer < 2 ^ 64 :=
    hfits.trans_le (Nat.pow_le_pow_right (by decide) (by omega))
  have hlimb : (UInt64.ofNat buffer &&& limbMask).toNat = rest % 2 ^ 51 := by
    rw [limbMask_and, UInt64.toNat_ofNat', Nat.mod_eq_of_lt hword, hlow]
  unfold deserializeLimb
  rw [heq]
  simp only [Bool.false_eq_true, if_false, hlimb, true_and, and_true]
  refine ⟨?_, Nat.lt_of_le_of_lt (Nat.sub_le _ _) hsmall, ?_, ?_⟩
  · rw [Nat.shiftRight_eq_div_pow]
    exact shifted_lt hfits
  · simp only
    omega
  · simp only
    rw [Nat.shiftRight_eq_div_pow, hhigh]

/-- The last limb takes all of it, and the buffer is left with the bits above. -/
theorem deserializeLimb_last (hs : Reading hiNmask s 52 rest) :
    (deserializeLimb hiNmask true modulus s).1.toNat = rest ∧ rest < 2 ^ 52 ∧
      (deserializeLimb hiNmask true modulus s).2.buffer = rest / 2 ^ 51 ∧
      (deserializeLimb hiNmask true modulus s).2.scarry =
        (s.scarry + rest - modulus.toNat) / 2 ^ 64 := by
  rcases fillLimb_reading hs with ⟨serial, fill, buffer, heq, ⟨hfits, hsmall, hlen, hrest⟩, hend⟩
  simp only at hfits hsmall hlen hrest
  have hdone : serial = [] := by
    rcases hend with hfull | hdone
    · rw [← List.length_eq_zero_iff]
      omega
    · exact hdone
  subst hdone
  have hall : fill = 52 := hlen
  subst hall
  have hbuffer : buffer = rest := hrest
  subst hbuffer
  have hlimb : (UInt64.ofNat buffer).toNat = buffer := by
    rw [UInt64.toNat_ofNat', Nat.mod_eq_of_lt (hfits.trans (by decide))]
  unfold deserializeLimb
  rw [heq]
  simp only [if_true, hlimb, hfits, Nat.shiftRight_eq_div_pow, and_self]

/-- The sign that the differences leave says whether the number is below the order. -/
theorem scarry_spec {x : Gf25519} (h0 : x.limb0.toNat < 2 ^ 51) (h1 : x.limb1.toNat < 2 ^ 51)
    (h2 : x.limb2.toNat < 2 ^ 51) (h3 : x.limb3.toNat < 2 ^ 51) {s0 s1 s2 s3 s4 : ℤ}
    (e0 : s0 = (0 + x.limb0.toNat - gfModulus.limb0.toNat) / 2 ^ 64)
    (e1 : s1 = (s0 + x.limb1.toNat - gfModulus.limb1.toNat) / 2 ^ 64)
    (e2 : s2 = (s1 + x.limb2.toNat - gfModulus.limb2.toNat) / 2 ^ 64)
    (e3 : s3 = (s2 + x.limb3.toNat - gfModulus.limb3.toNat) / 2 ^ 64)
    (e4 : s4 = (s3 + x.limb4.toNat - gfModulus.limb4.toNat) / 2 ^ 64) :
    s4 = -1 ∧ x.number < fieldOrder ∨ s4 = 0 ∧ fieldOrder ≤ x.number := by
  have hword : ∀ y : UInt64, (0 : ℤ) ≤ y.toNat ∧ (y.toNat : ℤ) < 2 ^ 64 := fun y => by
    have hy := y.toNat_lt
    omega
  have hm0 : gfModulus.limb0.toNat = 2 ^ 51 - 19 := rfl
  have hm1 : gfModulus.limb1.toNat = 2 ^ 51 - 1 := rfl
  have hm2 : gfModulus.limb2.toNat = 2 ^ 51 - 1 := rfl
  have hm3 : gfModulus.limb3.toNat = 2 ^ 51 - 1 := rfl
  have hm4 : gfModulus.limb4.toNat = 2 ^ 51 - 1 := rfl
  have hstart : (0 : ℤ) = -1 ∧ (0 : ℤ) < 0 ∨ (0 : ℤ) = 0 ∧ (0 : ℤ) ≤ 0 := Or.inr ⟨rfl, le_rfl⟩
  have h := borrow_step hstart le_rfl one_pos le_rfl one_pos (hword x.limb0).1 (hword x.limb0).2
    (hword gfModulus.limb0).1 (hword gfModulus.limb0).2
  rw [← e0] at h
  have h := borrow_step (K := 2 ^ 51) h (by omega) (by omega) (by omega) (by omega)
    (hword x.limb1).1 (hword x.limb1).2 (hword gfModulus.limb1).1 (hword gfModulus.limb1).2
  rw [← e1] at h
  have h := borrow_step (K := 2 ^ 102) h (by omega) (by omega) (by omega) (by omega)
    (hword x.limb2).1 (hword x.limb2).2 (hword gfModulus.limb2).1 (hword gfModulus.limb2).2
  rw [← e2] at h
  have h := borrow_step (K := 2 ^ 153) h (by omega) (by omega) (by omega) (by omega)
    (hword x.limb3).1 (hword x.limb3).2 (hword gfModulus.limb3).1 (hword gfModulus.limb3).2
  rw [← e3] at h
  have h := borrow_step (K := 2 ^ 204) h (by omega) (by omega) (by omega) (by omega)
    (hword x.limb4).1 (hword x.limb4).2 (hword gfModulus.limb4).1 (hword gfModulus.limb4).2
  rw [← e4] at h
  have horder : fieldOrder = 2 ^ 255 - 19 := rfl
  unfold Gf25519.number Limbs.number Gf25519.limbs
  simp only
  omega

variable (serial : Bytes 32) (withHibit : Bool) (hiNmask : UInt8)

/-- The limbs that are read are those of the number in the masked bytes. What is left in the buffer
is a bit of the last limb, and the sign of the differences compares the number with the order. -/
theorem gfDeserialize_reads :
    ∃ (x : Gf25519) (buffer : ℕ) (scarry : ℤ),
      gfDeserialize serial withHibit hiNmask = (x, (if withHibit then true else !gfHibit x) &&
        decide (UInt64.ofNat buffer = 0) && !decide (UInt64.ofInt scarry = 0)) ∧
      x.number = leNat (maskLast hiNmask serial.toList) ∧ x.Below (2 ^ 52) ∧
      (x.number < fieldOrder → x.Below (2 ^ 51)) ∧ buffer = x.limb4.toNat / 2 ^ 51 ∧
      (scarry = -1 ∧ x.number < fieldOrder ∨ scarry = 0 ∧ fieldOrder ≤ x.number) := by
  have hstart : Reading hiNmask ⟨serial.toList, 0, 0, 0⟩ 256
      (leNat (maskLast hiNmask serial.toList)) := by
    refine ⟨Nat.one_pos, Nat.zero_lt_succ _, ?_, ?_⟩
    · simp only [List.Vector.toList_length]
    · simp only [pow_zero, one_mul, zero_add]
  generalize leNat (maskLast hiNmask serial.toList) = v at hstart ⊢
  rcases deserializeLimb_spec gfModulus.limb0 hstart (by decide) with ⟨hlimb0, h1, hsign0⟩
  rcases deserializeLimb_spec gfModulus.limb1 h1 (by decide) with ⟨hlimb1, h2, hsign1⟩
  rcases deserializeLimb_spec gfModulus.limb2 h2 (by decide) with ⟨hlimb2, h3, hsign2⟩
  rcases deserializeLimb_spec gfModulus.limb3 h3 (by decide) with ⟨hlimb3, h4, hsign3⟩
  rcases deserializeLimb_last gfModulus.limb4 h4 with ⟨hlimb4, hlast, hbuffer, hsign4⟩
  rw [← hlimb0] at hsign0
  rw [← hlimb1] at hsign1
  rw [← hlimb2] at hsign2
  rw [← hlimb3] at hsign3
  rw [← hlimb4] at hsign4 hbuffer
  clear h1 h2 h3 h4 hstart
  unfold gfDeserialize
  -- from here on only the limbs matter, not how they were read
  generalize deserializeLimb hiNmask false gfModulus.limb0 ⟨serial.toList, 0, 0, 0⟩ = r0 at *
  rcases r0 with ⟨limb0, s0⟩
  dsimp only at *
  generalize deserializeLimb hiNmask false gfModulus.limb1 s0 = r1 at *
  rcases r1 with ⟨limb1, s1⟩
  dsimp only at *
  generalize deserializeLimb hiNmask false gfModulus.limb2 s1 = r2 at *
  rcases r2 with ⟨limb2, s2⟩
  dsimp only at *
  generalize deserializeLimb hiNmask false gfModulus.limb3 s2 = r3 at *
  rcases r3 with ⟨limb3, s3⟩
  dsimp only at *
  generalize deserializeLimb hiNmask true gfModulus.limb4 s3 = r4 at *
  rcases r4 with ⟨limb4, s4⟩
  simp only at *
  have hbelow : (⟨limb0, limb1, limb2, limb3, limb4⟩ : Gf25519).Below (2 ^ 52) := by
    unfold Gf25519.Below Gf25519.limbs
    constructor <;> simp only <;> omega
  have hnumber : (⟨limb0, limb1, limb2, limb3, limb4⟩ : Gf25519).number = v := by
    unfold Gf25519.number Limbs.number Gf25519.limbs
    simp only
    omega
  have hsign := scarry_spec (x := ⟨limb0, limb1, limb2, limb3, limb4⟩) (by simp only; omega)
    (by simp only; omega) (by simp only; omega) (by simp only; omega) hsign0 hsign1 hsign2 hsign3
    hsign4
  refine ⟨⟨limb0, limb1, limb2, limb3, limb4⟩, s4.buffer, s4.scarry, rfl, hnumber, hbelow,
    fun hlt => ?_, hbuffer, hsign⟩
  rw [hnumber, show fieldOrder = 2 ^ 255 - 19 from rfl] at hlt
  unfold Gf25519.Below Gf25519.limbs
  constructor <;> simp only <;> omega

/-- The string is accepted if its number is below the order, and below half of it where the high
bit has to be clear. -/
theorem gfDeserialize_spec :
    (gfDeserialize serial withHibit hiNmask).1.number = leNat (maskLast hiNmask serial.toList) ∧
      (gfDeserialize serial withHibit hiNmask).1.Below (2 ^ 52) ∧
      (leNat (maskLast hiNmask serial.toList) < fieldOrder →
        (gfDeserialize serial withHibit hiNmask).1.Below (2 ^ 51)) ∧
      ((gfDeserialize serial withHibit hiNmask).2 = true ↔
        leNat (maskLast hiNmask serial.toList) < fieldOrder ∧
          (withHibit = true ∨ 2 * leNat (maskLast hiNmask serial.toList) < fieldOrder)) := by
  rcases gfDeserialize_reads serial withHibit hiNmask with
    ⟨x, buffer, scarry, heq, hnumber, hbelow, hcanonical, hbuffer, hsign⟩
  rw [heq, ← hnumber]
  refine ⟨rfl, hbelow, hcanonical, ?_⟩
  rcases hsign with ⟨hsign, hlt⟩ | ⟨hsign, hge⟩
  · have hempty : buffer = 0 := by
      rw [hbuffer]
      exact Nat.div_eq_of_lt (hcanonical hlt).l4
    have hval : x.elt.val = x.number := by
      rw [Gf25519.val_elt, Nat.mod_eq_of_lt hlt]
    have hodd : fieldOrder % 2 = 1 := by decide
    rw [gfHibit_eq hbelow (by decide), hval, hempty, hsign]
    cases withHibit with
    | true => simpa using hlt
    | false =>
        have hones : ¬UInt64.ofInt (-1) = 0 := by decide
        simp only [Bool.false_eq_true, if_false, false_or, hones, decide_false, Bool.not_false,
          Bool.and_true, Bool.and_eq_true, Bool.not_eq_true', decide_eq_false_iff_not,
          decide_eq_true_eq]
        refine ⟨fun h => ⟨hlt, by omega⟩, fun h => ⟨by omega, rfl⟩⟩
  · rw [hsign]
    refine ⟨fun h => ?_, fun h => absurd h.1 (not_lt.mpr hge)⟩
    have hzero : UInt64.ofInt 0 = 0 := rfl
    rw [hzero, decide_eq_true rfl, Bool.not_true, Bool.and_false] at h
    exact absurd h Bool.false_ne_true

end Reading

section Format

theorem maskLast_zero (bytes : List UInt8) : maskLast 0 bytes = bytes := by
  induction bytes with
  | nil => rfl
  | cons b bytes ih =>
      have hmask : b &&& ~~~(0 : UInt8) = b := by
        rw [UInt8.not_zero, UInt8.and_neg_one]
      rw [maskLast, hmask, ite_self, ih]

theorem eq_of_limbs_eq {x y : Gf25519} (h : x.limbs = y.limbs) : x = y := by
  rcases x with ⟨x0, x1, x2, x3, x4⟩
  rcases y with ⟨y0, y1, y2, y3, y4⟩
  simp only [Gf25519.limbs, Limbs.mk.injEq, UInt64.toNat_inj] at h
  rw [h.1, h.2.1, h.2.2.1, h.2.2.2.1, h.2.2.2.2]

theorem leNat_gfSerialize (x : Gf25519) : leNat (gfSerialize x).toList = x.elt.val := by
  rw [gfSerialize_eq]
  exact leNat_leVector (x.elt.val_lt.trans (by decide))

/-- The format is canonical. What is written is read back as the canonical limbs, the strings that
are accepted are those which their element is written as, and two elements are written alike if
and only if they are the same. With a mask, and where the high bit has to be clear, the string is
accepted if the masked number is below half of the order. -/
theorem gfWire_canonical (x y : Gf25519) (bytes : Bytes 32) (hiNmask : UInt8) :
    gfDeserialize (gfSerialize x) true 0 = (gfStrongReduce x, true) ∧
      ((gfDeserialize bytes true 0).2 = true ↔
        gfSerialize (gfDeserialize bytes true 0).1 = bytes) ∧
      (gfSerialize x = gfSerialize y ↔ x.elt = y.elt) ∧
      ((gfDeserialize bytes false hiNmask).2 = true ↔
        2 * leNat (maskLast hiNmask bytes.toList) < fieldOrder) ∧
      gfStrongReduceAsserts x = true := by
  refine ⟨?_, ?_, ?_, ?_, gfStrongReduceAsserts_hold x⟩
  · rcases gfDeserialize_spec (gfSerialize x) true 0 with ⟨hnumber, -, hbelow, haccept⟩
    rw [maskLast_zero, leNat_gfSerialize] at hnumber hbelow haccept
    have hlimbs := Limbs.eq_of_number_eq (hbelow x.elt.val_lt) (gfStrongReduce_below x)
      (hnumber.trans (gfStrongReduce_number x).symm)
    exact Prod.ext (eq_of_limbs_eq hlimbs) (haccept.mpr ⟨x.elt.val_lt, Or.inl rfl⟩)
  · rcases gfDeserialize_spec bytes true 0 with ⟨hnumber, -, -, haccept⟩
    rw [maskLast_zero] at hnumber haccept
    refine haccept.trans ⟨fun h => ?_, fun h => ?_⟩
    · rw [gfSerialize_eq, Gf25519.val_elt, hnumber, Nat.mod_eq_of_lt h.1]
      exact leVector_leNat bytes
    · rw [← h, leNat_gfSerialize]
      exact ⟨ZMod.val_lt _, Or.inl rfl⟩
  · refine ⟨fun h => ZMod.val_injective fieldOrder ?_, fun h => ?_⟩
    · rw [← leNat_gfSerialize, h, leNat_gfSerialize]
    · rw [gfSerialize_eq, gfSerialize_eq, h]
  · rcases gfDeserialize_spec bytes false hiNmask with ⟨-, -, -, haccept⟩
    refine haccept.trans ⟨fun h => ?_, fun h => ⟨by omega, Or.inr h⟩⟩
    rcases h.2 with hfalse | hhalf
    · exact absurd hfalse Bool.false_ne_true
    · exact hhalf

end Format

end Ebut
