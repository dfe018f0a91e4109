import Ebut.Core.V3BatchedEq
import Ebut.Library.CrossGroup
import Ebut.Theory.Accountable
import Ebut.Theory.Token

/-!
# What the Equality Proof of the Revocation Proof Shows

A client that answers every challenge below the bound of 433 bits holds one integer
that opens both combinations. Honest values stay below 225 bits, but the bound leaves
room for 305, far above both orders: an integer passes whose two residues are those of
no honest value, the order of one group among them.

The honest prover stays below the bound, since the blinder has 432 bits and challenge
times combination at most 353.

## Main definitions

* `EqualityAnswered`: Acceptance at every challenge.
* `OpensCombination`: An integer opens both combinations.
* `OpensStatementTo`: The openings of a statement.
* `challengedValue`: What a proof is asked for.

## Theorems

* `exists_equality_answered_iff`: Which statements can be answered.
* `equality_range_iff`: When every answered statement has a value of 225 bits.
* `crt_forgery_answered`: The order of one group passes as a value.
* `verify_prove`: The honest proof is accepted.
* `challenged_eq_of_accepted`: When it is accepted for another statement.
-/

namespace Ebut

open LittleEndian CrossGroup V3Zkp

variable {G1 G2 GT R : Type} [AddCommGroup G1] [Module Scalar G1] [AddCommGroup G2]
  [Module Scalar G2] [AddCommGroup GT] [Module Scalar GT] [AddCommGroup R] [Module DalekScalar R]

/-- The largest challenge of 128 bits. -/
def lastEqualityChallenge : ℕ := 2 ^ 128 - 1

section Soundness

variable (sha : Sha2) (dalek : Dalek R) (valueBase blindBase : G1) (st : PublicStatement G1 R)
  (gamma : ℕ)

/-- For the first messages `r1`, `r2` every challenge has responses that are accepted. -/
def EqualityAnswered [DecidableEq G1] [DecidableEq R] (r1 : R) (r2 : G1) : Prop :=
  ∀ c < 2 ^ 128, ∃ zE zR1 zR2, BatchedEqualityProof.verifyAt st gamma ⟨r1, r2, zE, zR1, zR2⟩ sha
    dalek valueBase blindBase c = true

/-- The integer opens both combinations. -/
def OpensCombination (δ : ℤ) : Prop :=
  Opens DalekScalar (ristrettoGv sha dalek) (ristrettoG1 sha dalek) (comCombRist st gamma) δ ∧
    Opens Scalar valueBase blindBase (comCombBls st gamma) δ

variable {sha dalek valueBase blindBase st gamma} [DecidableEq G1] [DecidableEq R]

theorem equalityAnswered_iff_joint {r1 : R} {r2 : G1} :
    EqualityAnswered sha dalek valueBase blindBase st gamma r1 r2 ↔
      JointlyAnswered dalekOrder blsOrder (ristrettoGv sha dalek) (ristrettoG1 sha dalek)
        (comCombRist st gamma) r1 valueBase blindBase (comCombBls st gamma) r2
        lastEqualityChallenge zELimit := by
  constructor
  · intro hans c hc
    rcases hans c (by unfold lastEqualityChallenge at hc; omega) with ⟨zE, zR1, zR2, hok⟩
    rcases verifyAt_iff.mp hok with ⟨hlt, hrist, hbls⟩
    exact ⟨zE, hlt, ⟨zR1, hrist⟩, ⟨zR2, hbls⟩⟩
  · intro hjoint c hc
    rcases hjoint c (by unfold lastEqualityChallenge; omega) with
      ⟨zE, hlt, ⟨zR1, hrist⟩, ⟨zR2, hbls⟩⟩
    exact ⟨zE, zR1, zR2, verifyAt_iff.mpr ⟨hlt, hrist, hbls⟩⟩

variable (hrist : LinearIndependent DalekScalar ![ristrettoGv sha dalek, ristrettoG1 sha dalek])
  (hbls : LinearIndependent Scalar ![valueBase, blindBase])

include hrist hbls

/-- A statement can be answered when some integer opens both combinations whose multiple
by the last challenge is below the bound. -/
theorem exists_equality_answered_iff :
    (∃ r1 r2, EqualityAnswered sha dalek valueBase blindBase st gamma r1 r2) ↔
      ∃ δ : ℤ, lastEqualityChallenge * |δ| < zELimit ∧
        OpensCombination sha dalek valueBase blindBase st gamma δ := by
  constructor
  · rintro ⟨r1, r2, hans⟩
    exact opens_of_jointlyAnswered orders_coprime.symm (by decide +kernel) (by decide)
      (notMem_span_of_independent hrist) (notMem_span_of_independent hbls)
      (equalityAnswered_iff_joint.mp hans)
  · rintro ⟨δ, hshort, hopen, hopen'⟩
    exact ⟨_, _, equalityAnswered_iff_joint.mpr (jointlyAnswered_of_opens hshort hopen hopen')⟩

/-- Every answered statement has a value of 225 bits in both groups if and only if no
integer that the bound leaves room for opens it outside `[0, 2 ^ 225)`. -/
theorem equality_range_iff :
    (∀ r1 r2, EqualityAnswered sha dalek valueBase blindBase st gamma r1 r2 →
      ∃ E : ℕ, E < 2 ^ 225 ∧ OpensCombination sha dalek valueBase blindBase st gamma E) ↔
    ∀ δ : ℤ, lastEqualityChallenge * |δ| < zELimit →
      OpensCombination sha dalek valueBase blindBase st gamma δ → 0 ≤ δ ∧ δ < 2 ^ 225 := by
  have hfit : zELimit + 2 ^ 225 ≤ dalekOrder * blsOrder := by decide +kernel
  have hiff := short_openings_iff (comCombRist st gamma) (comCombBls st gamma) orders_coprime.symm
    hfit (by decide : 1 ≤ lastEqualityChallenge) (notMem_span_of_independent hrist)
    (notMem_span_of_independent hbls)
  have hanswered : (∃ r1 r2, EqualityAnswered sha dalek valueBase blindBase st gamma r1 r2) ↔ _ :=
    exists_equality_answered_iff hrist hbls
  unfold OpensCombination at hanswered ⊢
  rw [← hanswered] at hiff
  simp only [forall_exists_index, Nat.cast_pow, Nat.cast_ofNat] at hiff
  exact hiff

end Soundness

section Completeness

variable (sha : Sha2) (bls : Blstrs G1 G2 GT) (dalek : Dalek R) (valueBase blindBase : G1)

/-- The commitments of a statement open to the three values. -/
structure OpensStatementTo (witness : EqualityWitness) (st : PublicStatement G1 R) : Prop where
  rist : st.comERist = (witness.e.toNat : DalekScalar) • ristrettoGv sha dalek +
    witness.r1E • ristrettoG1 sha dalek
  bls : st.comEBls = (witness.e.toNat : Scalar) • valueBase + witness.r2E • blindBase
  eaRist : st.comEaRist = (witness.ea.toNat : DalekScalar) • ristrettoGv sha dalek +
    witness.r1Ea • ristrettoG1 sha dalek
  eaBls : st.comEaBls = (witness.ea.toNat : Scalar) • valueBase + witness.r2Ea • blindBase
  ebRist : st.comEbRist = (witness.eb.toNat : DalekScalar) • ristrettoGv sha dalek +
    witness.r1Eb • ristrettoG1 sha dalek
  ebBls : st.comEbBls = (witness.eb.toNat : Scalar) • valueBase + witness.r2Eb • blindBase

theorem batchGamma_lt (st : PublicStatement G1 R) : batchGamma sha bls dalek st < 2 ^ 80 := by
  have h := leNat_lt ((sha.sha256 ("batch_gamma_v1".toUTF8.toList ++
    writePublicStatement bls dalek st)).toList.take 10).reverse
  rw [List.length_reverse, List.length_take, List.Vector.toList_length] at h
  exact h

theorem equalityChallenge_lt (r1 : R) (r2 : G1) (st : PublicStatement G1 R) :
    equalityChallenge sha bls dalek r1 r2 st < 2 ^ 128 := by
  have h := leNat_lt ((sha.sha256 ("cross_curve_batched_proof_v2".toUTF8.toList ++
    writePublicStatement bls dalek st ++ (dalek.compress r1).toList ++
    (bls.g1Compressed r2).toList)).toList.take 16).reverse
  rw [List.length_reverse, List.length_take, List.Vector.toList_length] at h
  exact h

/-- Three values of 64 bits combine to one of 225. -/
theorem combination_lt {gamma : ℕ} (hgamma : gamma < 2 ^ 80) (e ea eb : UInt64) :
    e.toNat + gamma * ea.toNat + gamma * gamma * eb.toNat < 2 ^ 225 := by
  have he := e.toNat_lt
  have hea : gamma * ea.toNat ≤ 2 ^ 80 * 2 ^ 64 := Nat.mul_le_mul hgamma.le ea.toNat_lt.le
  have heb : gamma * gamma * eb.toNat ≤ 2 ^ 80 * 2 ^ 80 * 2 ^ 64 :=
    Nat.mul_le_mul (Nat.mul_le_mul hgamma.le hgamma.le) eb.toNat_lt.le
  omega

/-- A blinder of 54 bytes leaves the response below the bound. -/
theorem response_lt {k c E : ℕ} (hk : k < 256 ^ 54) (hc : c < 2 ^ 128) (hE : E < 2 ^ 225) :
    k + c * E < zELimit := by
  have hprod : c * E ≤ 2 ^ 128 * 2 ^ 225 := Nat.mul_le_mul hc.le hE.le
  calc k + c * E < 256 ^ 54 + 2 ^ 128 * 2 ^ 225 := Nat.add_lt_add_of_lt_of_le hk hprod
    _ ≤ zELimit := by decide +kernel

/-- What a proof is asked for over a statement with the values `e`, `ea` and `eb`: the
challenge times their combination. -/
def challengedValue (proof : V3Zkp.BatchedEqualityProof G1 R) (st : PublicStatement G1 R)
    (e ea eb : UInt64) : ℕ :=
  let gamma := batchGamma sha bls dalek st
  equalityChallenge sha bls dalek proof.r1Comb proof.r2Comb st *
    (e.toNat + gamma * ea.toNat + gamma * gamma * eb.toNat)

variable [DecidableEq G1] [DecidableEq R]

/-- The honest proof is accepted, whatever was drawn for it. -/
theorem verify_prove {witness : EqualityWitness} {st : PublicStatement G1 R}
    (hopens : OpensStatementTo sha dalek valueBase blindBase witness st) (coins : EqualityCoins) :
    (BatchedEqualityProof.prove sha bls dalek witness st valueBase blindBase coins).verify st sha
      dalek valueBase blindBase bls = true := by
  have hk := leNat_toList_lt coins.kBytes
  unfold BatchedEqualityProof.verify BatchedEqualityProof.prove
  rw [verifyAt_iff]
  have hc := equalityChallenge_lt sha bls dalek
    (V3Zkp.biguintToRistrettoScalar (leNat coins.kBytes.toList) • ristrettoGv sha dalek +
      DalekScalar.fromBytesModOrder coins.u1Bytes • ristrettoG1 sha dalek)
    (biguintToBlsScalar (leNat coins.kBytes.toList) • valueBase + coins.u2 • blindBase) st
  refine ⟨response_lt hk hc (combination_lt (batchGamma_lt sha bls dalek st) _ _ _), ?_, ?_⟩
  · simp only [comCombRist, V3Zkp.biguintToRistrettoScalar_eq, hopens.rist, hopens.eaRist,
      hopens.ebRist]
    push_cast
    module
  · simp only [comCombBls, biguintToBlsScalar_eq, hopens.bls, hopens.eaBls, hopens.ebBls]
    push_cast
    module

/-- A proof made for one statement is accepted for another only if both ask for the same
value in the pairing group. -/
theorem challenged_eq_of_accepted (hindep : LinearIndependent Scalar ![valueBase, blindBase])
    {witness : EqualityWitness} {st st' : PublicStatement G1 R} {coins : EqualityCoins}
    {e ea eb : UInt64} {s sa sb : Scalar} (he : st'.comEBls = Scalar.ofU64 e • valueBase +
      s • blindBase) (hea : st'.comEaBls = Scalar.ofU64 ea • valueBase + sa • blindBase)
    (heb : st'.comEbBls = Scalar.ofU64 eb • valueBase + sb • blindBase)
    (haccepted : (BatchedEqualityProof.prove sha bls dalek witness st valueBase blindBase
      coins).verify st' sha dalek valueBase blindBase bls = true) :
    (challengedValue sha bls dalek
        (BatchedEqualityProof.prove sha bls dalek witness st valueBase blindBase coins) st witness.e
        witness.ea witness.eb : Scalar) =
      challengedValue sha bls dalek
        (BatchedEqualityProof.prove sha bls dalek witness st valueBase blindBase coins) st' e ea
        eb := by
  rcases verifyAt_iff.mp haccepted with ⟨-, -, hbls⟩
  unfold challengedValue
  generalize hproof : BatchedEqualityProof.prove sha bls dalek witness st valueBase blindBase
    coins = proof at hbls ⊢
  generalize hc : equalityChallenge sha bls dalek proof.r1Comb proof.r2Comb st' = c' at hbls ⊢
  generalize batchGamma sha bls dalek st' = gamma' at hbls ⊢
  -- the response and the first message, with their multiples of the base of the values
  have hr2 : proof.r2Comb = (leNat coins.kBytes.toList : Scalar) • valueBase +
      coins.u2 • blindBase := by
    rw [← hproof, ← biguintToBlsScalar_eq]
    rfl
  have hzE : proof.zE = leNat coins.kBytes.toList +
      equalityChallenge sha bls dalek proof.r1Comb proof.r2Comb st *
        (witness.e.toNat + batchGamma sha bls dalek st * witness.ea.toNat +
          batchGamma sha bls dalek st * batchGamma sha bls dalek st * witness.eb.toNat) := by
    rw [← hproof]
    rfl
  have hcomb : comCombBls st' gamma' =
      (e.toNat + gamma' * ea.toNat + gamma' * gamma' * eb.toNat : Scalar) • valueBase +
        (s + gamma' * sa + gamma' * gamma' * sb) • blindBase := by
    simp only [comCombBls, biguintToBlsScalar_eq, he, hea, heb, Scalar.ofU64]
    push_cast
    module
  have hcoords : (proof.zE : Scalar) • valueBase + proof.zR2 • blindBase =
      (leNat coins.kBytes.toList + c' * (e.toNat + gamma' * ea.toNat +
        gamma' * gamma' * eb.toNat) : Scalar) • valueBase +
        (coins.u2 + c' * (s + gamma' * sa + gamma' * gamma' * sb)) • blindBase := by
    rw [hbls, hr2, hcomb]
    module
  have hvalue := (Extraction.pair_unique hindep hcoords).1
  rw [hzE] at hvalue
  push_cast at hvalue ⊢
  exact add_left_cancel hvalue

end Completeness

section Example

/-- A hash that tells messages by their last byte. -/
def planeSha : Sha2 where
  sha256 := fun msg => leArray 32 (msg.getLastD 0).toNat
  sha512 := fun msg => leArray 64 (msg.getLastD 0).toNat

theorem planeRistrettoGv : ristrettoGv planeSha planeDalek = planeDalek.basepoint := by
  have hlast : planeSha.sha512 "EBUT:V3:Ristretto:GV".toUTF8.toList = leArray 64 86 := by
    decide +kernel
  rw [ristrettoGv, hlast]
  rfl

theorem planeRistrettoG1 : ristrettoG1 planeSha planeDalek = planeDalek.blinding := by
  have hlast : planeSha.sha512 "EBUT:V3:Ristretto:G1".toUTF8.toList = leArray 64 49 := by
    decide +kernel
  rw [ristrettoG1, hlast]
  rfl

/-- The statement of an integer as the expiry, unblinded, with gap ends zero. -/
def expiryStatement (δ : ℤ) : PublicStatement UnitSpace Plane where
  comERist := (δ : DalekScalar) • planeDalek.basepoint
  comEBls := (δ : Scalar) • unitGenerators.h 5
  comEaRist := 0
  comEaBls := 0
  comEbRist := 0
  comEbBls := 0

theorem expiryStatement_opens (δ : ℤ) (gamma : ℕ) : OpensCombination planeSha planeDalek
    (unitGenerators.h 5) (unitGenerators.h 0) (expiryStatement δ) gamma δ := by
  constructor
  · refine ⟨0, ?_⟩
    simp only [comCombRist, expiryStatement, smul_zero, zero_smul, add_zero, planeRistrettoGv]
  · refine ⟨0, ?_⟩
    simp only [comCombBls, expiryStatement, smul_zero, zero_smul, add_zero]

theorem planeRistretto_independent :
    LinearIndependent DalekScalar ![ristrettoGv planeSha planeDalek,
      ristrettoG1 planeSha planeDalek] := by
  rw [planeRistrettoGv, planeRistrettoG1]
  exact planeDalek_independent

theorem unitRevocation_independent :
    LinearIndependent Scalar ![unitGenerators.h 5, unitGenerators.h 0] :=
  independent_pair unitGenerators_independent (by decide)

/-- The statement whose value is the order of the Ristretto group is answered, and has no
value of 225 bits: in one group it is zero, in the other it is not. -/
theorem crt_forgery_answered :
    ¬∀ (st : PublicStatement UnitSpace Plane) (gamma : ℕ), gamma < 2 ^ 80 → ∀ r1 r2,
      EqualityAnswered planeSha planeDalek (unitGenerators.h 5) (unitGenerators.h 0) st gamma
        r1 r2 →
      ∃ E : ℕ, E < 2 ^ 225 ∧ OpensCombination planeSha planeDalek (unitGenerators.h 5)
        (unitGenerators.h 0) st gamma E := by
  intro hlaw
  have hshort : lastEqualityChallenge * |(dalekOrder : ℤ)| < zELimit := by decide +kernel
  have hopen := expiryStatement_opens dalekOrder 0
  rcases (exists_equality_answered_iff planeRistretto_independent
    unitRevocation_independent).mpr ⟨_, hshort, hopen⟩ with ⟨r1, r2, hans⟩
  rcases hlaw _ 0 (by decide) r1 r2 hans with ⟨E, hE, hEopen⟩
  have heq := short_opening_eq orders_coprime.symm (by decide +kernel) (by decide)
    (notMem_span_of_independent planeRistretto_independent)
    (notMem_span_of_independent unitRevocation_independent) hshort hopen hE hEopen
  rw [← Int.ofNat_inj.mp heq] at hE
  exact absurd hE (by decide +kernel)

theorem equality_range_iff_five :
    (∀ r1 r2, EqualityAnswered planeSha planeDalek (unitGenerators.h 5) (unitGenerators.h 0)
        (expiryStatement 5) 3 r1 r2 →
      ∃ E : ℕ, E < 2 ^ 225 ∧ OpensCombination planeSha planeDalek (unitGenerators.h 5)
        (unitGenerators.h 0) (expiryStatement 5) 3 E) ↔
    ∀ δ : ℤ, lastEqualityChallenge * |δ| < zELimit →
      OpensCombination planeSha planeDalek (unitGenerators.h 5) (unitGenerators.h 0)
        (expiryStatement 5) 3 δ → 0 ≤ δ ∧ δ < 2 ^ 225 :=
  equality_range_iff planeRistretto_independent unitRevocation_independent

end Example

end Ebut
