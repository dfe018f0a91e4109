import Ebut.Core.Suite
import Mathlib.Data.Nat.Size

/-!
# The Cross-Curve Bridge

The proof that one integer `x` opens a commitment in the pairing group and one in
the Ristretto group. The response `z_x = u + c * x` is an integer that both
groups see reduced modulo their own order, and its size is bounded.

The verifier is cut at its challenge, which `verifyAt` takes as an argument.

## Main definitions

* `SameXStatement`: The two commitments and their bases.
* `CanonicalX.toRistrettoScalar`: The secret in the Ristretto field.
* `SameXProof`: The first messages, the challenge and the responses.
* `SameXProof.prove`: The prover, its randomness given.
* `SameXProof.verifyAt`: The verifier at an expected challenge.
* `SameXProof.verify`: The verifier.
* `fileTagStatement`: The statement of an unblinded tag.

## Theorems

* `biguintToRistrettoScalar_eq`, `toRistrettoScalar_eq`: The embeddings into the Ristretto field.
* `verifyAt_ok`: What the verifier accepts.
-/

namespace Ebut

open LittleEndian

/-- Integer blinding length. -/
def xBridgeBlindingBytes : ℕ := 48
/-- Bound on `z_x = u + c * x`. -/
def xBridgeZBoundBits : ℕ := 385

/-- A 31-byte ownership secret. -/
abbrev CanonicalX := Bytes 31

structure SameXStatement (G1 R : Type) where
  /-- BLS value base for x. -/
  blsXBase : G1
  /-- BLS blinding base. -/
  blsBlindBase : G1
  blsXCommitment : G1
  /-- Ristretto value base. -/
  ristrettoXBase : R
  /-- Ristretto blinding base. -/
  ristrettoBlindBase : R
  ristrettoXCommitment : R

structure SameXProof (G1 R : Type) where
  tBls : G1
  tRistretto : R
  cBytes : Bytes 16
  /-- Integer response `z_x = u + c * x`, little-endian. -/
  zXLe : List UInt8
  zRBls : Scalar
  zRRistretto : DalekScalar

/-- `biguint_to_ristretto_scalar`: the low 64 bytes, reduced. -/
def biguintToRistrettoScalar (x : ℕ) : DalekScalar :=
  DalekScalar.fromBytesModOrderWide (leArray 64 x)

theorem biguintToRistrettoScalar_eq {x : ℕ} (hx : x < 256 ^ 64) :
    biguintToRistrettoScalar x = (x : DalekScalar) := by
  show ((leNat (leBytes 64 x) : ℕ) : DalekScalar) = (x : DalekScalar)
  rw [leNat_leBytes, Nat.mod_eq_of_lt hx]

/-- `RistrettoScalar::from_canonical_bytes`: `none` for a value that is not below the order. -/
def DalekScalar.fromCanonicalBytes (bytes : Bytes 32) : Option DalekScalar :=
  if leNat bytes.toList < dalekOrder then some (leNat bytes.toList : DalekScalar) else none

/-- `CanonicalX::to_ristretto_scalar`: the bytes padded and decoded. -/
def CanonicalX.toRistrettoScalar (x : CanonicalX) : DalekScalar :=
  (DalekScalar.fromCanonicalBytes (x ++ leArray 1 0 : Bytes (31 + 1))).getD 0

theorem CanonicalX.leNat_lt (x : CanonicalX) : leNat x.toList < 2 ^ 248 :=
  (leNat_toList_lt x).trans_le (by decide)

theorem toRistrettoScalar_eq (x : CanonicalX) :
    CanonicalX.toRistrettoScalar x = (leNat x.toList : DalekScalar) := by
  have hpad : leNat (x ++ leArray 1 0 : Bytes (31 + 1)).toList = leNat x.toList := by
    rw [List.Vector.toList_append]
    exact leNat_append_zeros x.toList 1
  have hlt : leNat x.toList < dalekOrder := x.leNat_lt.trans (by decide +kernel)
  rw [CanonicalX.toRistrettoScalar, DalekScalar.fromCanonicalBytes, hpad, if_pos hlt,
    Option.getD_some]

def canonicalBiguintLe (bytes : List UInt8) : Bool :=
  decide (bytes.length ≤ xBridgeBlindingBytes + 1) &&
    (decide (bytes.length ≤ 1) || decide (bytes.getLast?.getD 0 ≠ 0))

variable {G1 G2 GT R : Type} [AddCommGroup G1] [Module Scalar G1] [AddCommGroup G2]
  [Module Scalar G2] [AddCommGroup GT] [Module Scalar GT] [AddCommGroup R] [Module DalekScalar R]

/-- `challenge`: the first sixteen bytes of the hash of the statement and the first
messages. -/
def sameXChallenge (sha : Sha2) (bls : Blstrs G1 G2 GT) (dalek : Dalek R) (ctx : List UInt8)
    (st : SameXStatement G1 R) (tBls : G1) (tRist : R) : Bytes 16 :=
  let writeG1 := fun p : G1 => (bls.g1Compressed p).toList
  let writeRist := fun p : R => (dalek.compress p).toList
  let digest := sha.sha256 <|
    "EBUT:SAME-X-BRIDGE:V1".toUTF8.toList ++ usizeLeBytes ctx.length ++ ctx ++
    writeG1 st.blsXBase ++ writeG1 st.blsBlindBase ++ writeG1 st.blsXCommitment ++
    writeRist st.ristrettoXBase ++ writeRist st.ristrettoBlindBase ++
    writeRist st.ristrettoXCommitment ++ writeG1 tBls ++ writeRist tRist
  ⟨digest.toList.take 16, by rw [List.length_take, digest.toList_length]; rfl⟩

variable [DecidableEq G1] [DecidableEq R]

def validateStatement (statement : SameXStatement G1 R) : Except ActError Unit :=
  -- the Ristretto blinding base may be the identity: a tag has none
  rejectIf (statement.blsXBase = 0 ∨ statement.blsBlindBase = 0 ∨
      statement.blsXCommitment = 0 ∨ statement.ristrettoXBase = 0 ∨
      statement.ristrettoXCommitment = 0)
    (.verificationFailed "same-x statement contains an identity point")

/-- `SameXProof::prove`, with the integer `u` and the two blinders it draws. -/
def SameXProof.prove (sha : Sha2) (bls : Blstrs G1 G2 GT) (dalek : Dalek R) (ctx : List UInt8)
    (x : CanonicalX) (rBls : Scalar) (rRistretto : DalekScalar)
    (statement : SameXStatement G1 R) (uBytes : Bytes 48) (alphaBls : Scalar)
    (alphaRist : DalekScalar) : Except ActError (SameXProof G1 R) := do
  validateStatement statement
  let u := leNat uBytes.toList
  -- one integer blinds `x` in both groups
  let tBls := biguintToBlsScalar u • statement.blsXBase + alphaBls • statement.blsBlindBase
  let tRistretto := biguintToRistrettoScalar u • statement.ristrettoXBase +
    alphaRist • statement.ristrettoBlindBase
  let cBytes := sameXChallenge sha bls dalek ctx statement tBls tRistretto
  let c := leNat cBytes.toList
  let zX := u + c * leNat x.toList
  rejectIf (zX.size > xBridgeZBoundBits) (.protocolError "same-x response bound exceeded")
  return {
    tBls, tRistretto, cBytes
    -- `to_bytes_le` of zero is one zero byte
    zXLe := if zX = 0 then [0] else leMinimal zX
    zRBls := alphaBls + biguintToBlsScalar c * rBls
    zRRistretto := alphaRist + biguintToRistrettoScalar c * rRistretto }

section Equations

variable (proof : SameXProof G1 R) (statement : SameXStatement G1 R)

/-- `lhs_bls == rhs_bls`. -/
def sameXBlsHolds : Prop :=
  biguintToBlsScalar (leNat proof.zXLe) • statement.blsXBase +
      proof.zRBls • statement.blsBlindBase =
    proof.tBls + biguintToBlsScalar (leNat proof.cBytes.toList) • statement.blsXCommitment

/-- `lhs_rist == rhs_rist`. -/
def sameXRistrettoHolds : Prop :=
  biguintToRistrettoScalar (leNat proof.zXLe) • statement.ristrettoXBase +
      proof.zRRistretto • statement.ristrettoBlindBase =
    proof.tRistretto +
      biguintToRistrettoScalar (leNat proof.cBytes.toList) • statement.ristrettoXCommitment

instance : Decidable (sameXBlsHolds proof statement) := by
  unfold sameXBlsHolds
  infer_instance

instance : Decidable (sameXRistrettoHolds proof statement) := by
  unfold sameXRistrettoHolds
  infer_instance

/-- The verifier with the challenge it recomputed. -/
def SameXProof.verifyAt (expectedC : Bytes 16) : Except ActError Unit := do
  validateStatement statement
  rejectIf (canonicalBiguintLe proof.zXLe = false)
    (.verificationFailed "same-x z_x is not canonical")
  rejectIf (expectedC ≠ proof.cBytes) (.verificationFailed "same-x challenge mismatch")
  -- the bound is on the integer, before either group reduces it
  rejectIf ((leNat proof.zXLe).size > xBridgeZBoundBits)
    (.verificationFailed "same-x z_x bound exceeded")
  rejectIf (¬sameXBlsHolds proof statement) (.verificationFailed "same-x BLS equation failed")
  rejectIf (¬sameXRistrettoHolds proof statement)
    (.verificationFailed "same-x Ristretto equation failed")

/-- `SameXProof::verify`. -/
def SameXProof.verify (sha : Sha2) (bls : Blstrs G1 G2 GT) (dalek : Dalek R)
    (ctx : List UInt8) : Except ActError Unit :=
  proof.verifyAt statement
    (sameXChallenge sha bls dalek ctx statement proof.tBls proof.tRistretto)

theorem verifyAt_ok {expectedC : Bytes 16} :
    proof.verifyAt statement expectedC = .ok () ↔
      validateStatement statement = .ok () ∧ canonicalBiguintLe proof.zXLe = true ∧
        expectedC = proof.cBytes ∧ leNat proof.zXLe < 2 ^ xBridgeZBoundBits ∧
        sameXBlsHolds proof statement ∧ sameXRistrettoHolds proof statement := by
  unfold SameXProof.verifyAt
  rw [bind_unit_ok]
  simp only [rejectIf_bind_ok, rejectIf_ok, not_not, not_lt, gt_iff_lt, Nat.size_le, ne_eq,
    Bool.not_eq_false]

end Equations

/-- The statement of an unblinded tag `x * binding_generator`. -/
def fileTagStatement (blsXBase blsBlindBase blsXCommitment : G1) (bindingGenerator bindingTag : R) :
    SameXStatement G1 R where
  blsXBase := blsXBase
  blsBlindBase := blsBlindBase
  blsXCommitment := blsXCommitment
  ristrettoXBase := bindingGenerator
  ristrettoBlindBase := 0
  ristrettoXCommitment := bindingTag

end Ebut
