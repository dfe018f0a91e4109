import Ebut.Core.Mint
import Ebut.Library.CrossGroup
import Ebut.Theory.KeyBinding

/-!
# What the Same-x Bridge Extracts

The two equations of the bridge and its bound of 385 bits, without a blinding base on
the Ristretto side. A client that can answer every challenge holds one integer that
opens both commitments; `exists_answered_iff` says that this is all it needs.

The integer is not a canonical `x`. The bound is one for `u + c * x` with a blinder `u`
of 384 bits, so `x` itself may have up to 257 bits and either sign. For a canonical `x` the bound
excludes nothing: the honest response always keeps it.

## Main definitions

* `SameXAnswered`: Both equations and the bound, at every challenge.
* `OpensStatement`: An integer opens both commitments.
* `sameXProofAt`: The proof of the prover, at a challenge.

## Theorems

* `exists_answered_iff`: Which statements can be answered.
* `same_x_canonical_iff`: When every answered statement has a canonical `x`.
* `wide_x_answered`: An `x` of 251 bits passes.
* `sameX_complete`: The honest proof is accepted, whatever the secret.
-/

namespace Ebut

open LittleEndian CrossGroup

variable {G1 G2 GT R : Type} [AddCommGroup G1] [Module Scalar G1] [AddCommGroup R]
  [Module DalekScalar R]

/-- The responses to every 128-bit challenge keep the bound and satisfy both equations. -/
def SameXAnswered (strategy : SameXStrategy G1 R) (statement : SameXStatement G1 R) : Prop :=
  ∀ c : Bytes 16, (leNat (strategy.respond c).zXLe).size ≤ xBridgeZBoundBits ∧
    sameXBlsHolds (strategy.proofAt c) statement ∧
    sameXRistrettoHolds (strategy.proofAt c) statement

/-- The integer opens both commitments, the Ristretto one without a blinder. -/
def OpensStatement (statement : SameXStatement G1 R) (x : ℤ) : Prop :=
  (∃ ρ : Scalar, statement.blsXCommitment =
    (x : Scalar) • statement.blsXBase + ρ • statement.blsBlindBase) ∧
  statement.ristrettoXCommitment = (x : DalekScalar) • statement.ristrettoXBase

section Statement

variable {statement : SameXStatement G1 R}

/-- The equations of the bridge at one challenge, as answers in the two groups. -/
theorem sameX_answers {strategy : SameXStrategy G1 R} {c : Bytes 16}
    (hbound : leNat (strategy.respond c).zXLe < 2 ^ xBridgeZBoundBits) :
    (sameXBlsHolds (strategy.proofAt c) statement ∧
        sameXRistrettoHolds (strategy.proofAt c) statement) ↔
      ((leNat (strategy.respond c).zXLe : Scalar) • statement.blsXBase +
          (strategy.respond c).zRBls • statement.blsBlindBase =
        strategy.tBls + (leNat c.toList : Scalar) • statement.blsXCommitment) ∧
      ((leNat (strategy.respond c).zXLe : DalekScalar) • statement.ristrettoXBase +
          (strategy.respond c).zRRistretto • statement.ristrettoBlindBase =
        strategy.tRistretto + (leNat c.toList : DalekScalar) • statement.ristrettoXCommitment) := by
  have hwide : leNat (strategy.respond c).zXLe < 256 ^ 64 := hbound.trans (by decide +kernel)
  have hchal : leNat c.toList < 256 ^ 64 := lt_of_le_of_lt (challenge_le c) (by decide +kernel)
  unfold sameXBlsHolds sameXRistrettoHolds SameXStrategy.proofAt
  simp only [biguintToBlsScalar_eq, biguintToRistrettoScalar_eq hwide,
    biguintToRistrettoScalar_eq hchal]

/-- Answering the bridge is answering both groups jointly. -/
theorem exists_answered_iff_joint {tBls : G1} {tRistretto : R} :
    (∃ respond, SameXAnswered ⟨tBls, tRistretto, respond⟩ statement) ↔
      JointlyAnswered blsOrder dalekOrder statement.blsXBase statement.blsBlindBase
        statement.blsXCommitment tBls statement.ristrettoXBase statement.ristrettoBlindBase
        statement.ristrettoXCommitment tRistretto lastChallenge (2 ^ xBridgeZBoundBits) := by
  constructor
  · -- every challenge up to the last is that of some bytes
    rintro ⟨respond, hans⟩ c hc
    rcases hans (leArray 16 c) with ⟨hsize, hholds⟩
    have hbound := Nat.size_le.mp hsize
    have hboth := (@sameX_answers _ _ _ _ _ _ _ ⟨tBls, tRistretto, respond⟩ _ hbound).mp hholds
    rw [leNat_challenge hc] at hboth
    exact ⟨_, hbound, ⟨_, hboth.1⟩, ⟨_, hboth.2⟩⟩
  · -- an answer is chosen for every challenge, and the integer sent in its shortest encoding
    intro hjoint
    choose z hbound hbls hrist using fun c : Bytes 16 => hjoint (leNat c.toList) (challenge_le c)
    choose w hw using hbls
    choose w' hw' using hrist
    refine ⟨fun c => ⟨leMinimal (z c), w c, w' c⟩, fun c => ?_⟩
    have hz : leNat (leMinimal (z c)) = z c := leNat_leMinimal (z c)
    refine ⟨Nat.size_le.mpr (hz.trans_lt (hbound c)), (sameX_answers ?_).mpr ⟨?_, ?_⟩⟩
    · exact hz.trans_lt (hbound c)
    · show (leNat (leMinimal (z c)) : Scalar) • _ + _ = _
      rw [hz]
      exact hw c
    · show (leNat (leMinimal (z c)) : DalekScalar) • _ + _ = _
      rw [hz]
      exact hw' c

variable (hind : LinearIndependent Scalar ![statement.blsXBase, statement.blsBlindBase])
  (hblind : statement.ristrettoBlindBase = 0) (hbase : statement.ristrettoXBase ≠ 0)

include hblind in
theorem opensStatement_iff {x : ℤ} : OpensStatement statement x ↔
    Opens Scalar statement.blsXBase statement.blsBlindBase statement.blsXCommitment x ∧
      Opens DalekScalar statement.ristrettoXBase statement.ristrettoBlindBase
        statement.ristrettoXCommitment x := by
  refine and_congr Iff.rfl ?_
  -- over the identity every blinder opens the same
  rw [Opens, hblind]
  simp only [smul_zero, add_zero, exists_const]

include hind hblind hbase

/-- A statement can be answered when some integer opens both commitments whose multiple
by the last challenge is below the bound. -/
theorem exists_answered_iff :
    (∃ strategy, SameXAnswered strategy statement) ↔
      ∃ δ : ℤ, lastChallenge * |δ| < 2 ^ xBridgeZBoundBits ∧ OpensStatement statement δ := by
  constructor
  · rintro ⟨⟨tBls, tRistretto, respond⟩, hans⟩
    rcases opens_of_jointlyAnswered orders_coprime (by decide +kernel) (by decide)
      (notMem_span_of_independent hind) (notMem_span_of_eq_zero hblind hbase)
      (exists_answered_iff_joint.mp ⟨respond, hans⟩) with ⟨δ, hshort, hopen⟩
    exact ⟨δ, by exact_mod_cast hshort, (opensStatement_iff hblind).mpr hopen⟩
  · rintro ⟨δ, hshort, hopen⟩
    rcases (opensStatement_iff hblind).mp hopen with ⟨hbls, hrist⟩
    rcases exists_answered_iff_joint.mpr
      (jointlyAnswered_of_opens (by exact_mod_cast hshort) hbls hrist) with ⟨respond, hans⟩
    exact ⟨_, hans⟩

/-- The bridge extracts a canonical `x` from every answered first message if and only if
no integer that the bound leaves room for opens the statement outside `[0, 2 ^ 248)`. -/
theorem same_x_canonical_iff :
    (∀ strategy, SameXAnswered strategy statement →
      ∃ x : ℕ, x < 2 ^ 248 ∧ OpensStatement statement x) ↔
    ∀ δ : ℤ, lastChallenge * |δ| < 2 ^ xBridgeZBoundBits → OpensStatement statement δ →
      0 ≤ δ ∧ δ < 2 ^ 248 := by
  have hfit : 2 ^ xBridgeZBoundBits + 2 ^ 248 ≤ blsOrder * dalekOrder := by decide +kernel
  have hiff := short_openings_iff statement.blsXCommitment statement.ristrettoXCommitment
    orders_coprime hfit (by decide : 1 ≤ lastChallenge) (notMem_span_of_independent hind)
    (notMem_span_of_eq_zero hblind hbase)
  simp only [Nat.cast_pow, Nat.cast_ofNat, ← opensStatement_iff hblind] at hiff
  rw [← exists_answered_iff hind hblind hbase, forall_exists_index] at hiff
  exact hiff

end Statement

section Completeness

/-- A blinder of 384 bits and a product of 376 add up to less than 385 bits. -/
theorem sameXResponse_lt (uBytes : Bytes 48) (c : Bytes 16) (x : CanonicalX) :
    leNat uBytes.toList + leNat c.toList * leNat x.toList < 2 ^ xBridgeZBoundBits := by
  have hu := leNat_toList_lt uBytes
  have hc := leNat_toList_lt c
  have hproduct : leNat c.toList * leNat x.toList ≤ 256 ^ 16 * 2 ^ 248 :=
    Nat.mul_le_mul hc.le x.leNat_lt.le
  have hbits : xBridgeZBoundBits = 385 := rfl
  rw [hbits]
  omega

/-- The minimal encoding, with zero written as one byte, is canonical. -/
theorem canonical_response {n : ℕ} (hn : n < 2 ^ xBridgeZBoundBits) :
    canonicalBiguintLe (if n = 0 then [0] else leMinimal n) = true ∧
      leNat (if n = 0 then [0] else leMinimal n) = n := by
  by_cases hzero : n = 0
  · rw [if_pos hzero, hzero]
    exact ⟨rfl, rfl⟩
  · rw [if_neg hzero]
    exact ⟨canonical_leMinimal (hn.trans (by decide +kernel)), leNat_leMinimal n⟩

variable (x : CanonicalX) (rBls : Scalar) (rRistretto : DalekScalar)
  (statement : SameXStatement G1 R) (uBytes : Bytes 48) (alphaBls : Scalar)
  (alphaRist : DalekScalar)

/-- The proof of the prover, at any challenge. -/
def sameXProofAt (c : Bytes 16) : SameXProof G1 R where
  tBls := biguintToBlsScalar (leNat uBytes.toList) • statement.blsXBase +
    alphaBls • statement.blsBlindBase
  tRistretto := biguintToRistrettoScalar (leNat uBytes.toList) • statement.ristrettoXBase +
    alphaRist • statement.ristrettoBlindBase
  cBytes := c
  zXLe := if leNat uBytes.toList + leNat c.toList * leNat x.toList = 0 then [0]
    else leMinimal (leNat uBytes.toList + leNat c.toList * leNat x.toList)
  zRBls := alphaBls + biguintToBlsScalar (leNat c.toList) * rBls
  zRRistretto := alphaRist + biguintToRistrettoScalar (leNat c.toList) * rRistretto

/-- The response is the integer, with at most 385 bits and a canonical encoding. -/
theorem sameXProofAt_response (c : Bytes 16) :
    let z := (sameXProofAt x rBls rRistretto statement uBytes alphaBls alphaRist c).zXLe
    canonicalBiguintLe z = true ∧
      leNat z = leNat uBytes.toList + leNat c.toList * leNat x.toList ∧
      leNat z < 2 ^ xBridgeZBoundBits := by
  rcases canonical_response (sameXResponse_lt uBytes c x) with ⟨hcanonical, hvalue⟩
  exact ⟨hcanonical, hvalue, hvalue.trans_lt (sameXResponse_lt uBytes c x)⟩

variable [DecidableEq G1] [DecidableEq R] {x rBls rRistretto statement}

/-- It is accepted at every challenge. -/
theorem sameXProofAt_accepted (hvalid : validateStatement statement = .ok ())
    (hbls : statement.blsXCommitment =
      x.toBlsScalar • statement.blsXBase + rBls • statement.blsBlindBase)
    (hristretto : statement.ristrettoXCommitment =
      x.toRistrettoScalar • statement.ristrettoXBase + rRistretto • statement.ristrettoBlindBase)
    (c : Bytes 16) :
    (sameXProofAt x rBls rRistretto statement uBytes alphaBls alphaRist c).verifyAt statement c =
      .ok () := by
  rcases sameXProofAt_response x rBls rRistretto statement uBytes alphaBls alphaRist c with
    ⟨hcanonical, hvalue, hbound⟩
  have hwide : (2 : ℕ) ^ xBridgeZBoundBits < 256 ^ 64 := by decide +kernel
  have hblinder : leNat uBytes.toList < 256 ^ 64 :=
    (leNat_toList_lt uBytes).trans (by decide +kernel)
  have hchallenge : leNat c.toList < 256 ^ 64 := (leNat_toList_lt c).trans (by decide +kernel)
  -- each group reduces the response, the challenge and the blinder modulo its own order
  refine (verifyAt_ok _ _).mpr ⟨hvalid, hcanonical, rfl, hbound, ?_, ?_⟩
  · unfold sameXBlsHolds
    rw [hvalue, hbls, toBlsScalar_eq]
    simp only [sameXProofAt, biguintToBlsScalar_eq]
    push_cast
    module
  · unfold sameXRistrettoHolds
    rw [biguintToRistrettoScalar_eq (hbound.trans hwide), hvalue, hristretto, toRistrettoScalar_eq]
    simp only [sameXProofAt, biguintToRistrettoScalar_eq hblinder,
      biguintToRistrettoScalar_eq hchallenge]
    push_cast
    module

variable [AddCommGroup G2] [Module Scalar G2] [AddCommGroup GT] [Module Scalar GT] (sha : Sha2)
  (bls : Blstrs G1 G2 GT) (dalek : Dalek R) (ctx : List UInt8)

/-- The prover returns its proof at the challenge of its first messages. -/
theorem sameXProve_eq (hvalid : validateStatement statement = .ok ()) :
    let proofAt := sameXProofAt x rBls rRistretto statement uBytes alphaBls alphaRist
    SameXProof.prove sha bls dalek ctx x rBls rRistretto statement uBytes alphaBls alphaRist =
      .ok (proofAt (sameXChallenge sha bls dalek ctx statement (proofAt (leArray 16 0)).tBls
        (proofAt (leArray 16 0)).tRistretto)) := by
  unfold SameXProof.prove
  simp only [bind_unit_ok, rejectIf_ok]
  exact ⟨hvalid, not_lt.mpr (Nat.size_le.mpr (sameXResponse_lt uBytes _ x)), rfl⟩

/-- For every secret, blinder and other randomness and every statement that opens to the secret
the prover succeeds. Its response is the integer, has at most 385 bits and a canonical encoding,
both fields see it and the secret unchanged, and the verifier accepts. -/
theorem sameX_complete (hvalid : validateStatement statement = .ok ())
    (hbls : statement.blsXCommitment =
      x.toBlsScalar • statement.blsXBase + rBls • statement.blsBlindBase)
    (hristretto : statement.ristrettoXCommitment =
      x.toRistrettoScalar • statement.ristrettoXBase +
        rRistretto • statement.ristrettoBlindBase) :
    ∃ proof, SameXProof.prove sha bls dalek ctx x rBls rRistretto statement uBytes alphaBls
        alphaRist = .ok proof ∧
      leNat proof.zXLe = leNat uBytes.toList + leNat proof.cBytes.toList * leNat x.toList ∧
      (leNat proof.zXLe).size ≤ xBridgeZBoundBits ∧ canonicalBiguintLe proof.zXLe = true ∧
      x.toBlsScalar = (leNat x.toList : Scalar) ∧
      x.toRistrettoScalar = (leNat x.toList : DalekScalar) ∧
      biguintToBlsScalar (leNat proof.zXLe) = (leNat proof.zXLe : Scalar) ∧
      biguintToRistrettoScalar (leNat proof.zXLe) = (leNat proof.zXLe : DalekScalar) ∧
      proof.verify statement sha bls dalek ctx = .ok () := by
  refine ⟨_, sameXProve_eq uBytes alphaBls alphaRist sha bls dalek ctx hvalid, ?_⟩
  rcases sameXProofAt_response x rBls rRistretto statement uBytes alphaBls alphaRist
    (sameXChallenge sha bls dalek ctx statement
      (sameXProofAt x rBls rRistretto statement uBytes alphaBls alphaRist (leArray 16 0)).tBls
      (sameXProofAt x rBls rRistretto statement uBytes alphaBls alphaRist
        (leArray 16 0)).tRistretto) with ⟨hcanonical, hvalue, hbound⟩
  exact ⟨hvalue, Nat.size_le.mpr hbound, hcanonical, toBlsScalar_eq x, toRistrettoScalar_eq x,
    biguintToBlsScalar_eq _,
    biguintToRistrettoScalar_eq (hbound.trans (by decide +kernel)),
    sameXProofAt_accepted uBytes alphaBls alphaRist hvalid hbls hristretto _⟩

end Completeness

section Example

/-- Two blinded commitments to the secret seven. -/
def sevenStatement : SameXStatement UnitSpace DalekScalar where
  blsXBase := unitGenerators.h 1
  blsBlindBase := unitGenerators.h 0
  blsXCommitment := CanonicalX.toBlsScalar (leArray 31 7) • unitGenerators.h 1 +
    (2 : Scalar) • unitGenerators.h 0
  ristrettoXBase := 1
  ristrettoBlindBase := 3
  ristrettoXCommitment := CanonicalX.toRistrettoScalar (leArray 31 7) • (1 : DalekScalar) +
    (5 : DalekScalar) • (3 : DalekScalar)

theorem sevenStatement_valid : validateStatement sevenStatement = .ok () :=
  rejectIf_ok.mpr (by decide +kernel)

/-- The prover draws zero for its integer, so that the response is seven times the challenge. -/
theorem sameX_complete_seven :
    ∃ proof, SameXProof.prove lineSha unitBlstrs lineDalek [8] (leArray 31 7) 2 5 sevenStatement
        (leArray 48 0) 3 5 = .ok proof ∧
      leNat proof.zXLe = leNat (leArray 48 0).toList +
        leNat proof.cBytes.toList * leNat (leArray 31 7).toList ∧
      (leNat proof.zXLe).size ≤ xBridgeZBoundBits ∧ canonicalBiguintLe proof.zXLe = true ∧
      CanonicalX.toBlsScalar (leArray 31 7) = (leNat (leArray 31 7).toList : Scalar) ∧
      CanonicalX.toRistrettoScalar (leArray 31 7) = (leNat (leArray 31 7).toList : DalekScalar) ∧
      biguintToBlsScalar (leNat proof.zXLe) = (leNat proof.zXLe : Scalar) ∧
      biguintToRistrettoScalar (leNat proof.zXLe) = (leNat proof.zXLe : DalekScalar) ∧
      proof.verify sevenStatement lineSha unitBlstrs lineDalek [8] = .ok () :=
  sameX_complete (leArray 48 0) 3 5 lineSha unitBlstrs lineDalek [8] sevenStatement_valid rfl rfl

/-- The statement of a commitment to an integer and of the tag of it. -/
def integerStatement (δ : ℤ) : SameXStatement UnitSpace DalekScalar :=
  fileTagStatement (unitGenerators.h 1) (unitGenerators.h 0)
    ((δ : Scalar) • unitGenerators.h 1 + (0 : Scalar) • unitGenerators.h 0) 1
    ((δ : DalekScalar) • 1)

theorem integerStatement_opens (δ : ℤ) : OpensStatement (integerStatement δ) δ := ⟨⟨0, rfl⟩, rfl⟩

/-- An integer below the order is the only one below it that opens its own statement. -/
theorem eq_of_opens_integerStatement {m x : ℕ} (hm : m < dalekOrder) (hx : x < dalekOrder)
    (hopen : OpensStatement (integerStatement m) x) : m = x := by
  have htag : ((m : ℤ) : DalekScalar) • (1 : DalekScalar) = ((x : ℤ) : DalekScalar) • 1 := hopen.2
  rw [smul_eq_mul, mul_one, smul_eq_mul, mul_one, Int.cast_natCast, Int.cast_natCast] at htag
  exact Nat.ModEq.eq_of_lt_of_lt ((ZMod.natCast_eq_natCast_iff _ _ _).mp htag) hm hx

theorem integerStatement_pair (δ : ℤ) : LinearIndependent Scalar
    ![(integerStatement δ).blsXBase, (integerStatement δ).blsBlindBase] := unitGenerators_pair

theorem integerStatement_base (δ : ℤ) : (integerStatement δ).ristrettoXBase ≠ 0 := one_ne_zero

theorem integerStatement_answered {δ : ℤ} (hshort : lastChallenge * |δ| < 2 ^ xBridgeZBoundBits) :
    ∃ strategy, SameXAnswered strategy (integerStatement δ) := by
  rw [exists_answered_iff (integerStatement_pair δ) rfl (integerStatement_base δ)]
  exact Exists.intro δ (And.intro hshort (integerStatement_opens δ))

/-- The law, for the bases of the concrete instance, fails: an integer of 251 bits is
answered for at every challenge. -/
theorem wide_x_answered :
    ¬∀ δ : ℤ, ∀ strategy, SameXAnswered strategy (integerStatement δ) →
      ∃ x : ℕ, x < 2 ^ 248 ∧ OpensStatement (integerStatement δ) x := by
  intro hlaw
  have hshort : lastChallenge * |((2 ^ 250 : ℕ) : ℤ)| < 2 ^ xBridgeZBoundBits := by decide +kernel
  rcases integerStatement_answered hshort with ⟨strategy, hans⟩
  rcases hlaw _ strategy hans with ⟨x, hx, hopen⟩
  -- both integers are below the order, where the tag determines them
  have hlt : x < dalekOrder := hx.trans (by decide +kernel)
  have heq := eq_of_opens_integerStatement (by decide +kernel) hlt hopen
  rw [← heq] at hx
  exact absurd hx (by decide +kernel)

theorem same_x_canonical_iff_five :
    (∀ strategy, SameXAnswered strategy (integerStatement 5) →
      ∃ x : ℕ, x < 2 ^ 248 ∧ OpensStatement (integerStatement 5) x) ↔
    ∀ δ : ℤ, lastChallenge * |δ| < 2 ^ xBridgeZBoundBits → OpensStatement (integerStatement 5) δ →
      0 ≤ δ ∧ δ < 2 ^ 248 :=
  same_x_canonical_iff (integerStatement_pair 5) rfl (integerStatement_base 5)

end Example

end Ebut
