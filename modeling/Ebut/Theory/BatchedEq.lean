import Ebut.Core.BatchedEq
import Ebut.Library.CrossGroup
import Ebut.Theory.Accountable
import Ebut.Theory.Token

/-!
# The Batched Equality Proof Carries a Value Across the Curves

The verifier accepts a response below the order of Curve25519, which is also below that of
BLS12-381, and rebuilds both first messages from it. Three accepted responses to one first
message and different challenges carry the opening of the Ristretto commitment over to the
BLS12-381 commitment. Two do not suffice: modulo the smaller order the responses are on the
line of the opening, but as integers two of them may be off by the order.

The honest prover stays below the order, since its response has at most 241 bits.

## Main definitions

* `EqualityPasses`: What the verifier checks apart from the hash and the range proof.
* `RangeComplete`: The range prover serves every value of its range.
* `ExactResponse`: The limbs of the response denote the integer, without a carry.

## Theorems

* `verifyBatchedEquality_ok`: What the verifier accepts.
* `equality_transfers`: Three proofs carry the value across.
* `exactResponse`: Every response is computed exactly.
* `proveBatchedEquality_passes`: The honest proof answers its own challenge.
* `batchedEquality_complete`: It is accepted, and no assertion fails on the way.
-/

namespace Ebut

open LittleEndian CrossGroup

variable {G1 G2 GT R : Type} [AddCommGroup G1] [Module Scalar G1] [AddCommGroup G2]
  [Module Scalar G2] [AddCommGroup GT] [Module Scalar GT] [AddCommGroup R]
  [Module DalekScalar R]

section Soundness

variable (dalek : Dalek R) (cBls h4 h0 : G1) (c25519 : R) (rBls : G1) (r25519 : R)

/-- The proof passes the bound on its response and decodes, and the first messages rebuilt
from it are the two given ones. -/
structure EqualityPasses (proof : BatchedEqualityProof) : Prop where
  response : u256Lt (leBytesToU64x4 proof.zEBytes) q25519Limbs = true
  point : dalek.decompress proof.c25519Bytes = some c25519
  bls : ∃ zRBls, fromBytesLe proof.zRBlsBytes = some zRBls ∧
    reduceScalar proof.zEBytes • h4 + zRBls • h0 -
      reduceScalar (c128ToBytes32 proof.cBytes) • cBls = rBls
  ristretto : dalek.commit (DalekScalar.fromBytesModOrder proof.zEBytes)
      (DalekScalar.fromBytesModOrder proof.zR25519Bytes) -
    DalekScalar.fromBytesModOrder (c128ToBytes32 proof.cBytes) • c25519 = r25519

variable {dalek cBls h4 h0 c25519 rBls r25519} {proof : BatchedEqualityProof}

/-- The verifier checks the range, the two rebuilt messages against the hash, and the range
proof. -/
theorem verifyBatchedEquality_ok {sha : Sha2} {bls : Blstrs G1 G2 GT} {context : List UInt8}
    {commitments : List G1} :
    verifyBatchedEquality sha bls dalek proof cBls h4 h0 context commitments = .ok () ↔
      (proof.rangeBits.toNat = 32 ∨ proof.rangeBits.toNat = 64) ∧
      ∃ c25519 rBls r25519, EqualityPasses dalek cBls h4 h0 c25519 rBls r25519 proof ∧
        computeBeqChallenge sha context (commitments.map bls.g1Compressed) (bls.g1Compressed cBls)
          proof.c25519Bytes (bls.g1Compressed rBls) (dalek.compress r25519)
          proof.rangeProofBytes proof.rangeBits = proof.cBytes ∧
        dalek.rangeFromBytes proof.rangeProofBytes = .ok () ∧
        dalek.verifySingle proof.rangeBits.toNat ⟨"ACT:BEQ:Range", ("ctx", context) ::
          (commitments.map bls.g1Compressed).map fun cb => ("comm", cb.toList)⟩
          proof.c25519Bytes proof.rangeProofBytes = .ok () := by
  unfold verifyBatchedEquality
  simp only [okOr_bind_ok, bind_unit_ok, rejectIf_ok, mapError_ok, Bool.not_eq_false, ne_eq,
    not_and_or, not_not]
  constructor
  · rintro ⟨hresponse, hbits, zRBls, hzRBls, c25519, hpoint, hchallenge, hrange⟩
    exact ⟨hbits, c25519, _, _, ⟨hresponse, hpoint, ⟨zRBls, hzRBls, rfl⟩, rfl⟩, hchallenge, hrange⟩
  · rintro ⟨hbits, c25519, rBls, r25519, ⟨hresponse, hpoint, ⟨zRBls, hzRBls, rfl⟩, rfl⟩,
      hchallenge, hrange⟩
    exact ⟨hresponse, hbits, zRBls, hzRBls, c25519, hpoint, hchallenge, hrange⟩

theorem EqualityPasses.response_lt (h : EqualityPasses dalek cBls h4 h0 c25519 rBls r25519 proof) :
    leNat proof.zEBytes.toList < dalekOrder := u256Lt_q25519Limbs.mp h.response

theorem EqualityPasses.answers_bls
    (h : EqualityPasses dalek cBls h4 h0 c25519 rBls r25519 proof) :
    Answers Scalar h4 h0 cBls rBls (leNat proof.cBytes.toList) (leNat proof.zEBytes.toList) := by
  rcases h.bls with ⟨zRBls, -, hmsg⟩
  refine ⟨zRBls, ?_⟩
  rw [reduceScalar_eq, reduceScalar_eq, leNat_c128ToBytes32] at hmsg
  rw [← hmsg, sub_add_cancel]

theorem EqualityPasses.answers_ristretto
    (h : EqualityPasses dalek cBls h4 h0 c25519 rBls r25519 proof) :
    Answers DalekScalar dalek.basepoint dalek.blinding c25519 r25519 (leNat proof.cBytes.toList)
      (leNat proof.zEBytes.toList) := by
  refine ⟨DalekScalar.fromBytesModOrder proof.zR25519Bytes, ?_⟩
  have hmsg := h.ristretto
  unfold DalekScalar.fromBytesModOrder Dalek.commit at hmsg
  rw [leNat_c128ToBytes32] at hmsg
  exact sub_eq_iff_eq_add.mp hmsg

/-- Different challenges are different scalars, since they are below both orders. -/
theorem challenge_cast_ne {c c' : Bytes 16} (hne : c ≠ c') :
    (leNat c.toList : Scalar) ≠ leNat c'.toList := by
  intro heq
  have hlt : ∀ c : Bytes 16, leNat c.toList < blsOrder := fun c =>
    (leNat_toList_lt c).trans (by decide +kernel)
  rw [ZMod.natCast_eq_natCast_iff] at heq
  have hbytes := Nat.ModEq.eq_of_lt_of_lt heq (hlt c) (hlt c')
  have hlen : c.toList.length = c'.toList.length := by rw [c.toList_length, c'.toList_length]
  exact hne (List.Vector.eq _ _ (eq_of_leNat_eq hlen hbytes))

/-- Three proofs with the same first messages and different challenges: an opening of the
Ristretto commitment to a value of 64 bits is one of the BLS12-381 commitment too. -/
theorem equality_transfers
    (hrist : LinearIndependent DalekScalar ![dalek.basepoint, dalek.blinding])
    {proofs : Fin 3 → BatchedEqualityProof}
    (hpass : ∀ i, EqualityPasses dalek cBls h4 h0 c25519 rBls r25519 (proofs i))
    (hdistinct : ∀ i j, i ≠ j → (proofs i).cBytes ≠ (proofs j).cBytes) {m : ℕ} (hm : m < 2 ^ 64)
    {ρ : DalekScalar} (hopen : c25519 = dalek.commit m ρ) :
    ∃ ρ' : Scalar, cBls = (m : Scalar) • h4 + ρ' • h0 := by
  have hsmall : (2 ^ 128 - 1) * m < dalekOrder :=
    (Nat.mul_le_mul_left _ hm.le).trans_lt (by decide +kernel)
  have hchallenge : ∀ i, leNat (proofs i).cBytes.toList ≤ 2 ^ 128 - 1 := fun i =>
    Nat.le_sub_one_of_lt (leNat_toList_lt (proofs i).cBytes)
  -- the value times a challenge stays below the order, so that the integers are compared
  have hristOpen : Opens DalekScalar dalek.basepoint dalek.blinding c25519 (m : ℤ) :=
    ⟨ρ, by rw [hopen, Dalek.commit, Int.cast_natCast]⟩
  have hblsOpen := opens_of_three_answers hsmall (notMem_span_of_independent hrist) hristOpen
    hchallenge (fun i j hij => challenge_cast_ne (hdistinct i j hij))
    (fun i => (hpass i).response_lt) (fun i => (hpass i).answers_ristretto)
    (fun i => (hpass i).answers_bls)
  rcases hblsOpen with ⟨ρ', hcBls⟩
  exact ⟨ρ', by rw [hcBls, Int.cast_natCast]⟩

end Soundness

section Completeness

variable (sha : Sha2) (bls : Blstrs G1 G2 GT) (dalek : Dalek R)

/-- The range prover drawn serves every value of the range asked for, and the proof it
returns decodes and is accepted. -/
def RangeComplete (coins : BeqCoins) : Prop :=
  ∀ (bits : ℕ) (transcript : Transcript) (v : UInt64) (blinding : DalekScalar),
    (bits = 32 ∨ bits = 64) → v.toNat < 2 ^ bits →
    ∃ bytes, coins.proveSingle bits transcript v blinding = .ok bytes ∧
      dalek.rangeFromBytes bytes = .ok () ∧
      dalek.verifySingle bits transcript (dalek.compress (dalek.commit v.toNat blinding)) bytes =
        .ok ()

/-- The number of bits chosen for a value is one of the two supported, and holds it. -/
theorem bestRangeBitsU64_spec (v : UInt64) :
    (bestRangeBitsU64 v = 32 ∨ bestRangeBitsU64 v = 64) ∧ v.toNat < 2 ^ bestRangeBitsU64 v ∧
      (UInt8.ofNat (bestRangeBitsU64 v)).toNat = bestRangeBitsU64 v := by
  have hv := v.toNat_lt
  unfold bestRangeBitsU64
  by_cases hsmall : v.toNat ≤ 4294967295
  · rw [if_pos hsmall]
    exact ⟨Or.inl rfl, by omega, rfl⟩
  · rw [if_neg hsmall]
    exact ⟨Or.inr rfl, hv, rfl⟩

/-- The limbs of the response to a challenge. -/
def responseLimbs (uM : Bytes 30) (c128 : Bytes 16) (m : UInt64) : U64x4 :=
  u256Add (leBytesToU64x4 (uM32 uM)) (u256MulU64 (leBytesToU64x4 (c128ToBytes32 c128)) m)

/-- The response is computed exactly, and has at most 241 bits. -/
structure ExactResponse (uM : Bytes 30) (c128 : Bytes 16) (m : UInt64) : Prop where
  mulCarry : u256MulU64Carry (leBytesToU64x4 (c128ToBytes32 c128)) m = 0
  addCarry : u256AddCarry (leBytesToU64x4 (uM32 uM))
    (u256MulU64 (leBytesToU64x4 (c128ToBytes32 c128)) m) = 0
  value : limbsNat (responseLimbs uM c128 m).toList = leNat uM.toList + leNat c128.toList * m.toNat
  size : limbsNat (responseLimbs uM c128 m).toList < 2 ^ 241

/-- The blinder has 240 bits and the product 192. -/
theorem exactResponse (uM : Bytes 30) (c128 : Bytes 16) (m : UInt64) : ExactResponse uM c128 m := by
  have hu := leNat_toList_lt uM
  have hc := leNat_toList_lt c128
  have hblinder : limbsNat (leBytesToU64x4 (uM32 uM)).toList = leNat uM.toList := by
    rw [limbsNat_leBytesToU64x4, leNat_uM32]
  have hchallenge : limbsNat (leBytesToU64x4 (c128ToBytes32 c128)).toList = leNat c128.toList := by
    rw [limbsNat_leBytesToU64x4, leNat_c128ToBytes32]
  have hprod : leNat c128.toList * m.toNat ≤ 256 ^ 16 * 2 ^ 64 :=
    Nat.mul_le_mul hc.le m.toNat_lt.le
  -- neither the product nor the sum reaches the fifth limb
  have hmul : limbsNat (u256MulU64 (leBytesToU64x4 (c128ToBytes32 c128)) m).toList =
      leNat c128.toList * m.toNat := by
    rw [limbsNat_u256MulU64 (by rw [hchallenge]; omega), hchallenge]
  have hvalue : limbsNat (responseLimbs uM c128 m).toList =
      leNat uM.toList + leNat c128.toList * m.toNat := by
    rw [responseLimbs, limbsNat_u256Add (by rw [hmul, hblinder]; omega), hmul, hblinder]
  refine ⟨u256MulU64Carry_eq_zero ?_, u256AddCarry_eq_zero ?_, hvalue, ?_⟩
  · rw [hchallenge]
    omega
  · rw [hmul, hblinder]
    omega
  · rw [hvalue]
    omega

variable {uM : Bytes 30} {c128 : Bytes 16} {m : UInt64}

theorem ExactResponse.bytes (h : ExactResponse uM c128 m) :
    leNat (u64x4ToLeBytes (responseLimbs uM c128 m)).toList =
      leNat uM.toList + leNat c128.toList * m.toNat :=
  (leNat_limbsBytes _).trans h.value

theorem ExactResponse.lt_order (h : ExactResponse uM c128 m) :
    limbsNat (responseLimbs uM c128 m).toList < dalekOrder :=
  h.size.trans (by decide +kernel)

theorem ExactResponse.inRange (h : ExactResponse uM c128 m) :
    u256Lt (leBytesToU64x4 (u64x4ToLeBytes (responseLimbs uM c128 m))) q25519Limbs = true :=
  u256Lt_q25519Limbs.mpr (h.bytes.trans_lt (h.value ▸ h.lt_order))

/-- The response leaves the last of its 32 bytes free. -/
theorem ExactResponse.lastByte (h : ExactResponse uM c128 m) :
    (u64x4ToLeBytes (responseLimbs uM c128 m)).toList.getLast? = some 0 := by
  refine getLast?_of_leNat_lt (h.bytes.trans_lt ?_)
  rw [← h.value]
  exact h.size.trans (by decide)

/-- What the prover's commitment to the value is on the Ristretto side. -/
def BeqCoins.c25519 (dalek : Dalek R) (coins : BeqCoins) (m : UInt64) : R :=
  dalek.commit m.toNat coins.r25519

/-- The first message of the prover in the pairing group. -/
def BeqCoins.rBls (coins : BeqCoins) (h4 h0 : G1) : G1 :=
  reduceScalar (uM32 coins.uM) • h4 + coins.uRBls • h0

/-- The first message of the prover in the Ristretto group. -/
def BeqCoins.r25519Point (dalek : Dalek R) (coins : BeqCoins) : R :=
  dalek.commit (DalekScalar.fromBytesModOrder (uM32 coins.uM)) coins.uR25519

/-- The honest proof answers its own challenge: it decodes, and the two first messages rebuilt
from it are those of the prover. The hash and the range proof are checked as they were made. -/
theorem proveBatchedEquality_passes
    (hcompress : ∀ p, dalek.decompress (dalek.compress p) = some p) {coins : BeqCoins}
    (hrange : RangeComplete dalek coins) (m : UInt64) (rBls : Scalar) (h4 h0 : G1)
    (context : List UInt8) (commitments : List G1) :
    ∃ proof, proveBatchedEquality sha bls dalek coins m rBls h4 h0 context commitments =
        .ok (proof, Scalar.ofU64 m • h4 + rBls • h0) ∧
      proof.zEBytes = u64x4ToLeBytes (responseLimbs coins.uM proof.cBytes m) ∧
      EqualityPasses dalek (Scalar.ofU64 m • h4 + rBls • h0) h4 h0 (coins.c25519 dalek m)
        (coins.rBls h4 h0) (coins.r25519Point dalek) proof ∧
      verifyBatchedEquality sha bls dalek proof (Scalar.ofU64 m • h4 + rBls • h0) h4 h0 context
        commitments = .ok () := by
  rcases bestRangeBitsU64_spec m with ⟨hbits, hfits, hbyte⟩
  rcases hrange (bestRangeBitsU64 m) ⟨"ACT:BEQ:Range", ("ctx", context) ::
    (commitments.map bls.g1Compressed).map fun cb => ("comm", cb.toList)⟩ m coins.r25519 hbits hfits
    with ⟨bytes, hprove, hdecode, hverify⟩
  unfold proveBatchedEquality
  simp only [hprove, Except.mapError]
  refine ⟨_, rfl, rfl, ?_⟩
  -- the integer response is the same in both groups
  have hresponse := fun c128 => (exactResponse coins.uM c128 m).bytes
  unfold responseLimbs at hresponse
  refine (and_iff_left_of_imp fun hpasses => ?_).mpr
    ⟨(exactResponse _ _ _).inRange, hcompress _, ⟨_, fromBytesLe_toBytes _, ?_⟩, ?_⟩
  · rw [verifyBatchedEquality_ok]
    exact ⟨by rw [hbyte]; exact hbits, _, _, _, hpasses, rfl, hdecode,
      by rw [hbyte]; exact hverify⟩
  · simp only [reduceScalar_eq, hresponse, leNat_uM32, leNat_c128ToBytes32, Scalar.ofU64,
      BeqCoins.rBls]
    push_cast
    module
  · rw [fromBytesModOrder_toBytes]
    simp only [DalekScalar.fromBytesModOrder, Dalek.commit, hresponse, leNat_uM32,
      leNat_c128ToBytes32, BeqCoins.c25519, BeqCoins.r25519Point]
    push_cast
    module

/-- The honest proof is accepted for the commitment it comes with. -/
theorem verify_proveBatchedEquality (hcompress : ∀ p, dalek.decompress (dalek.compress p) = some p)
    {coins : BeqCoins} (hrange : RangeComplete dalek coins) (m : UInt64) (rBls : Scalar)
    (h4 h0 : G1) (context : List UInt8) (commitments : List G1) :
    ∃ proof, proveBatchedEquality sha bls dalek coins m rBls h4 h0 context commitments =
        .ok (proof, Scalar.ofU64 m • h4 + rBls • h0) ∧
      verifyBatchedEquality sha bls dalek proof (Scalar.ofU64 m • h4 + rBls • h0) h4 h0 context
        commitments = .ok () := by
  rcases proveBatchedEquality_passes sha bls dalek hcompress hrange m rBls h4 h0 context commitments
    with ⟨proof, hprove, -, -, hverify⟩
  exact ⟨proof, hprove, hverify⟩

/-- For every value of 64 bits, blinder, and challenge the limbs compute the integer response:
no carry is lost, it is below `2 ^ 248` and below the order, and neither the assertions nor the
bound of the verifier fail. The proof that the prover returns for its value has such a
response, the verifier rebuilds the prover's first messages from it, and accepts. -/
theorem batchedEquality_complete
    (hcompress : ∀ p, dalek.decompress (dalek.compress p) = some p) {coins : BeqCoins}
    (hrange : RangeComplete dalek coins) (m : UInt64) (rBls : Scalar) (h4 h0 : G1)
    (context : List UInt8) (commitments : List G1) :
    (∀ c128 : Bytes 16, ExactResponse coins.uM c128 m ∧
      limbsNat (responseLimbs coins.uM c128 m).toList < 2 ^ 248 ∧
      limbsNat (responseLimbs coins.uM c128 m).toList < dalekOrder ∧
      (u64x4ToLeBytes (responseLimbs coins.uM c128 m)).toList.getLast? = some 0 ∧
      u256Lt (leBytesToU64x4 (u64x4ToLeBytes (responseLimbs coins.uM c128 m))) q25519Limbs =
        true) ∧
    ∃ proof, proveBatchedEquality sha bls dalek coins m rBls h4 h0 context commitments =
        .ok (proof, Scalar.ofU64 m • h4 + rBls • h0) ∧
      proof.zEBytes = u64x4ToLeBytes (responseLimbs coins.uM proof.cBytes m) ∧
      EqualityPasses dalek (Scalar.ofU64 m • h4 + rBls • h0) h4 h0 (coins.c25519 dalek m)
        (coins.rBls h4 h0) (coins.r25519Point dalek) proof ∧
      verifyBatchedEquality sha bls dalek proof (Scalar.ofU64 m • h4 + rBls • h0) h4 h0 context
        commitments = .ok () := by
  refine ⟨fun c128 => ?_, proveBatchedEquality_passes sha bls dalek hcompress hrange m rBls h4 h0
    context commitments⟩
  have hexact := exactResponse coins.uM c128 m
  have hsize : limbsNat (responseLimbs coins.uM c128 m).toList < 2 ^ 248 :=
    hexact.size.trans (by decide)
  exact ⟨hexact, hsize, hexact.lt_order, hexact.lastByte, hexact.inRange⟩

end Completeness

section Example

/-- A prover whose coins are all one, with an empty range proof. -/
def oneBeqCoins : BeqCoins where
  r25519 := 1
  proveSingle := fun _ _ _ _ => .ok []
  uM := leArray 30 1
  uRBls := 1
  uR25519 := 1

theorem oneBeqCoins_complete : RangeComplete lineDalek oneBeqCoins :=
  fun _ _ _ _ _ _ => ⟨[], rfl, rfl, rfl⟩

/-- The largest value of 64 bits. -/
theorem batchedEquality_complete_max :
    (∀ c128 : Bytes 16, ExactResponse oneBeqCoins.uM c128 0xffffffffffffffff ∧
      limbsNat (responseLimbs oneBeqCoins.uM c128 0xffffffffffffffff).toList < 2 ^ 248 ∧
      limbsNat (responseLimbs oneBeqCoins.uM c128 0xffffffffffffffff).toList < dalekOrder ∧
      (u64x4ToLeBytes (responseLimbs oneBeqCoins.uM c128 0xffffffffffffffff)).toList.getLast? =
        some 0 ∧
      u256Lt (leBytesToU64x4 (u64x4ToLeBytes
        (responseLimbs oneBeqCoins.uM c128 0xffffffffffffffff))) q25519Limbs = true) ∧
    ∃ proof, proveBatchedEquality lineSha unitBlstrs lineDalek oneBeqCoins 0xffffffffffffffff 5
        (unitGenerators.h 3) (unitGenerators.h 0) [7] [unitGenerators.g1] =
        .ok (proof, Scalar.ofU64 0xffffffffffffffff • unitGenerators.h 3 +
          (5 : Scalar) • unitGenerators.h 0) ∧
      proof.zEBytes =
        u64x4ToLeBytes (responseLimbs oneBeqCoins.uM proof.cBytes 0xffffffffffffffff) ∧
      EqualityPasses lineDalek (Scalar.ofU64 0xffffffffffffffff • unitGenerators.h 3 +
          (5 : Scalar) • unitGenerators.h 0) (unitGenerators.h 3) (unitGenerators.h 0)
        (oneBeqCoins.c25519 lineDalek 0xffffffffffffffff)
        (oneBeqCoins.rBls (unitGenerators.h 3) (unitGenerators.h 0))
        (oneBeqCoins.r25519Point lineDalek) proof ∧
      verifyBatchedEquality lineSha unitBlstrs lineDalek proof
        (Scalar.ofU64 0xffffffffffffffff • unitGenerators.h 3 + (5 : Scalar) • unitGenerators.h 0)
        (unitGenerators.h 3) (unitGenerators.h 0) [7] [unitGenerators.g1] = .ok () :=
  batchedEquality_complete lineSha unitBlstrs lineDalek lineDalek_decompress oneBeqCoins_complete
    0xffffffffffffffff 5 (unitGenerators.h 3) (unitGenerators.h 0) [7] [unitGenerators.g1]

/-- The proof that starts at zero and answers for the value five, unblinded. -/
def fiveEquality (c : ℕ) : BatchedEqualityProof :=
  ⟨leArray 16 c, leArray 32 5, leArray 32 (c * 5), leArray 32 0, leArray 32 0, [], 32⟩

theorem planeDalek_decompress_five :
    planeDalek.decompress (leArray 32 5) = some (planeDalek.commit ((5 : ℕ) : DalekScalar) 0) := by
  have hval : leNat (leArray 32 5).toList = 5 := by decide
  show (if leNat (leArray 32 5).toList < dalekOrder then
    some (Pi.single 0 (leNat (leArray 32 5).toList : DalekScalar) : Plane) else none) = _
  rw [hval, if_pos (by decide +kernel), Dalek.commit, zero_smul, add_zero]
  refine congrArg some ?_
  show (Pi.single 0 ((5 : ℕ) : DalekScalar) : Plane) =
    ((5 : ℕ) : DalekScalar) • (Pi.single 0 1 : Plane)
  rw [← Pi.single_smul, smul_eq_mul, mul_one]

theorem fiveEquality_passes {c : ℕ} (hc : c < 2 ^ 128) :
    EqualityPasses planeDalek (((5 : ℕ) : Scalar) • unitGenerators.h 3) (unitGenerators.h 3)
      (unitGenerators.h 0) (planeDalek.commit ((5 : ℕ) : DalekScalar) 0) 0 0 (fiveEquality c) := by
  have hchallenge : leNat (leArray 16 c).toList = c :=
    (leNat_leBytes 16 c).trans (Nat.mod_eq_of_lt hc)
  have hresponse : leNat (leArray 32 (c * 5)).toList = c * 5 :=
    (leNat_leBytes 32 (c * 5)).trans (Nat.mod_eq_of_lt (by omega))
  have hzero : leNat (leArray 32 0).toList = 0 := by decide
  refine ⟨?_, planeDalek_decompress_five, ⟨0, ?_, ?_⟩, ?_⟩
  · refine u256Lt_q25519Limbs.mpr ?_
    show leNat (leArray 32 (c * 5)).toList < dalekOrder
    have horder : 2 ^ 128 * 5 ≤ dalekOrder := by decide +kernel
    omega
  · show fromBytesLe (leArray 32 0) = some 0
    decide +kernel
  · rw [reduceScalar_eq, reduceScalar_eq, leNat_c128ToBytes32]
    show (leNat (leArray 32 (c * 5)).toList : Scalar) • unitGenerators.h 3 +
      (0 : Scalar) • unitGenerators.h 0 -
        (leNat (leArray 16 c).toList : Scalar) • ((5 : ℕ) : Scalar) • unitGenerators.h 3 = 0
    rw [hchallenge, hresponse]
    push_cast
    module
  · unfold DalekScalar.fromBytesModOrder Dalek.commit
    rw [leNat_c128ToBytes32]
    show (leNat (leArray 32 (c * 5)).toList : DalekScalar) • planeDalek.basepoint +
      (leNat (leArray 32 0).toList : DalekScalar) • planeDalek.blinding -
        (leNat (leArray 16 c).toList : DalekScalar) •
          (((5 : ℕ) : DalekScalar) • planeDalek.basepoint + (0 : DalekScalar) •
            planeDalek.blinding) = 0
    rw [hchallenge, hresponse, hzero]
    push_cast
    module

/-- The proofs for the challenges one to three. -/
theorem equality_transfers_five :
    ∃ ρ' : Scalar, ((5 : ℕ) : Scalar) • unitGenerators.h 3 =
      ((5 : ℕ) : Scalar) • unitGenerators.h 3 + ρ' • unitGenerators.h 0 := by
  have hpass : ∀ i : Fin 3, EqualityPasses planeDalek (((5 : ℕ) : Scalar) • unitGenerators.h 3)
      (unitGenerators.h 3) (unitGenerators.h 0) (planeDalek.commit ((5 : ℕ) : DalekScalar) 0) 0 0
      (fiveEquality (i + 1)) := fun i => fiveEquality_passes (by omega)
  refine equality_transfers planeDalek_independent hpass (by decide) (by decide) rfl

end Example

end Ebut
