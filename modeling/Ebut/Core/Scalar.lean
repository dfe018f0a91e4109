import Ebut.Core.Orders
import Ebut.Library.LittleEndian
import Mathlib.Data.Vector.Basic
import Mathlib.Algebra.Field.ZMod

/-!
# Scalars, Byte Strings and Errors

The two scalar fields the protocol computes in, the byte strings it hashes,
and the error type every fallible function returns.

`Scalar` is the BLS12-381 scalar field and `DalekScalar` the Curve25519 one.
Both are residues modulo a prime, so both are fields.

A Rust array `[u8; n]` is `Bytes n`, a list of bytes of length `n`. A `Vec<u8>`
or a `&[u8]` is a `List UInt8`.

## Main definitions

* `ActError`: The errors of the protocol.
* `rejectIf`: A check that returns an error.
* `okOr`: A lookup that returns an error.
* `Scalar.toBytes`: The canonical encoding of a scalar.
* `fromBytesLe`: Canonical decoding of a scalar.
* `DalekScalar.fromBytesModOrder`: Decoding into the Curve25519 field.
* `biguintToBlsScalar`: Reduction of an integer into the BLS12-381 field.

## Theorems

* `rejectIf_bind_ok`, `okOr_bind_ok`: What it takes to get past a check.
* `leNat_toBytes`: The canonical encoding denotes the residue.
* `fromBytesLe_toBytes`: Canonical decoding inverts canonical encoding.
* `biguintToBlsScalar_eq`: The reduction is the cast.
-/

namespace Ebut

open LittleEndian

/-- An element of the BLS12-381 scalar field. -/
abbrev Scalar := ZMod blsOrder

/-- An element of the Curve25519 scalar field. -/
abbrev DalekScalar := ZMod dalekOrder

section Literals

/-! Mathlib finds these too, as terms, for which each module makes a proof of its own wherever a
literal is written. As constants they make a literal the same term in every module. -/

instance neZeroSix : NeZero 6 := ⟨by decide⟩
instance neZeroEight : NeZero 8 := ⟨by decide⟩
instance atLeastTwoTwo : Nat.AtLeastTwo 2 := ⟨by decide⟩
instance atLeastTwoThree : Nat.AtLeastTwo 3 := ⟨by decide⟩
instance atLeastTwoFive : Nat.AtLeastTwo 5 := ⟨by decide⟩
instance atLeastTwoSeven : Nat.AtLeastTwo 7 := ⟨by decide⟩
instance atLeastTwoEight : Nat.AtLeastTwo 8 := ⟨by decide⟩
instance atLeastTwoHundred : Nat.AtLeastTwo 100 := ⟨by decide⟩
instance atLeastTwoThousand : Nat.AtLeastTwo 1000 := ⟨by decide⟩

end Literals

/-- The errors of the protocol, with their messages. -/
inductive ActError where
  | invalidScalar
  | invalidSubgroup
  | verificationFailed (msg : String)
  | serializationError (msg : String)
  | ioError (msg : String)
  | protocolError (msg : String)
  | databaseError (msg : String)
  deriving DecidableEq, Repr

/-- `if bad { return Err(e) }`. -/
def rejectIf (bad : Prop) [Decidable bad] (e : ActError) : Except ActError Unit :=
  if bad then .error e else .ok ()

/-- `Option::ok_or`. -/
def okOr {α : Type} (value : Option α) (e : ActError) : Except ActError α :=
  match value with
  | some a => .ok a
  | none => .error e

section Checks

variable {α β : Type} {e : ActError} {r : β}

@[simp]
theorem rejectIf_bind_ok {bad : Prop} [Decidable bad] {f : Unit → Except ActError β} :
    (rejectIf bad e >>= f) = .ok r ↔ ¬bad ∧ f () = .ok r := by
  unfold rejectIf
  by_cases hbad : bad
  · rw [if_pos hbad]
    exact ⟨fun h => (nomatch h), fun h => absurd hbad h.1⟩
  · rw [if_neg hbad]
    exact ⟨fun h => ⟨hbad, h⟩, fun h => h.2⟩

@[simp]
theorem rejectIf_ok {bad : Prop} [Decidable bad] : rejectIf bad e = .ok () ↔ ¬bad := by
  unfold rejectIf
  by_cases hbad : bad
  · rw [if_pos hbad]
    exact ⟨fun h => (nomatch h), fun h => absurd hbad h⟩
  · rw [if_neg hbad]
    exact ⟨fun _ => hbad, fun _ => rfl⟩

@[simp]
theorem okOr_bind_ok {value : Option α} {f : α → Except ActError β} :
    (okOr value e >>= f) = .ok r ↔ ∃ a, value = some a ∧ f a = .ok r := by
  cases value with
  | none => exact ⟨fun h => (nomatch h), fun ⟨_, h, _⟩ => (nomatch h)⟩
  | some a => exact ⟨fun h => ⟨a, rfl, h⟩, fun ⟨_, ha, h⟩ => Option.some.inj ha ▸ h⟩

/-- A computation followed by another. -/
theorem bind_ok {α : Type} {x : Except ActError α} {f : α → Except ActError β} :
    (x >>= f) = .ok r ↔ ∃ a, x = .ok a ∧ f a = .ok r := by
  cases x with
  | error e => exact ⟨fun h => (nomatch h), fun ⟨_, h, _⟩ => (nomatch h)⟩
  | ok a => exact ⟨fun h => ⟨a, rfl, h⟩, fun ⟨_, ha, h⟩ => Except.ok.inj ha ▸ h⟩

/-- A computation that succeeds with a unit, followed by another. -/
theorem bind_unit_ok {x : Except ActError Unit} {f : Unit → Except ActError β} :
    (x >>= f) = .ok r ↔ x = .ok () ∧ f () = .ok r := by
  cases x with
  | error e => exact ⟨fun h => (nomatch h), fun h => (nomatch h.1)⟩
  | ok u => exact ⟨fun h => ⟨rfl, h⟩, fun h => h.2⟩

/-- An error that is only renamed. -/
@[simp]
theorem mapError_ok {ε : Type} {x : Except ε β} {f : ε → ActError} :
    x.mapError f = .ok r ↔ x = .ok r := by
  cases x with
  | error e => exact ⟨fun h => (nomatch h), fun h => (nomatch h)⟩
  | ok b => exact ⟨fun h => congrArg _ (Except.ok.inj h), fun h => congrArg _ (Except.ok.inj h)⟩

end Checks

/-- A Rust array `[u8; n]`. -/
abbrev Bytes (n : ℕ) := List.Vector UInt8 n

/-- The little-endian encoding of `v` as an array of `n` bytes. -/
def leArray (n v : ℕ) : Bytes n := ⟨leBytes n v, leBytes_length n v⟩

/-- `Scalar::to_bytes`: the canonical little-endian encoding. -/
def Scalar.toBytes (s : Scalar) : Bytes 32 := leArray 32 s.val

/-- `BlsScalar::from_bytes_le`: `none` for a value that is not below the order. -/
def fromBytesLe (bytes : Bytes 32) : Option Scalar :=
  if leNat bytes.toList < blsOrder then some (leNat bytes.toList : Scalar) else none

/-- `Scalar::from(u32)`. -/
def Scalar.ofU32 (n : UInt32) : Scalar := (n.toNat : ℕ)

/-- `Scalar::from(u64)`. -/
def Scalar.ofU64 (n : UInt64) : Scalar := (n.toNat : ℕ)

/-- `DalekScalar::from_bytes_mod_order`. -/
def DalekScalar.fromBytesModOrder (bytes : Bytes 32) : DalekScalar := (leNat bytes.toList : ℕ)

/-- `Scalar::from_bytes_mod_order_wide` of the Curve25519 field. -/
def DalekScalar.fromBytesModOrderWide (bytes : Bytes 64) : DalekScalar := (leNat bytes.toList : ℕ)

/-- `u32::to_le_bytes`. -/
def u32LeBytes (n : UInt32) : List UInt8 := leBytes 4 n.toNat

/-- `u64::to_le_bytes`. -/
def u64LeBytes (n : UInt64) : List UInt8 := leBytes 8 n.toNat

/-- `to_le_bytes` of a length: a `usize` has 64 bits. -/
def usizeLeBytes (n : ℕ) : List UInt8 := u64LeBytes (UInt64.ofNat n)

theorem leNat_leArray {n v : ℕ} (hv : v < 256 ^ n) : leNat (leArray n v).toList = v :=
  leNat_leVector hv

/-- An array is the encoding of the number it denotes. -/
theorem leArray_leNat {n : ℕ} (bytes : Bytes n) : leArray n (leNat bytes.toList) = bytes :=
  leVector_leNat bytes

theorem blsOrder_lt : blsOrder < 256 ^ 32 := by decide +kernel

theorem leNat_toBytes (s : Scalar) : leNat (Scalar.toBytes s).toList = s.val :=
  leNat_leArray ((ZMod.val_lt s).trans blsOrder_lt)

@[simp]
theorem fromBytesLe_toBytes (s : Scalar) : fromBytesLe (Scalar.toBytes s) = some s := by
  rw [fromBytesLe, leNat_toBytes, if_pos (ZMod.val_lt s), ZMod.natCast_val, ZMod.cast_id]

theorem toBytes_injective : Function.Injective Scalar.toBytes := by
  intro s t h
  have hdecode := congrArg fromBytesLe h
  rwa [fromBytesLe_toBytes, fromBytesLe_toBytes, Option.some.injEq] at hdecode

/-- `biguint_to_bls_scalar`, of the same-x bridge and of the revocation proofs. The
reduced value always decodes. -/
def biguintToBlsScalar (x : ℕ) : Scalar := (fromBytesLe (leArray 32 (x % blsOrder))).getD 0

theorem biguintToBlsScalar_eq (x : ℕ) : biguintToBlsScalar x = (x : Scalar) := by
  have hlt : x % blsOrder < blsOrder := Nat.mod_lt _ (by decide)
  have hle : leNat (leArray 32 (x % blsOrder)).toList = x % blsOrder :=
    leNat_leArray (hlt.trans blsOrder_lt)
  rw [biguintToBlsScalar, fromBytesLe, hle, if_pos hlt, Option.getD_some, ZMod.natCast_mod]

end Ebut
