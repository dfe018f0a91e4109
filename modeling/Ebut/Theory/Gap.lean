import Ebut.Core.Gap
import Ebut.Library.Extraction
import Ebut.Theory.Token
import Mathlib.Tactic.FieldSimp

/-!
# What an Accepted Gap Proof Proves

Two accepting answers to one first message open both endpoint commitments, and
the pairing equation then relates the two blinded points by the signing exponent
of the opened endpoints. The relation is a multiple of the first blinded point,
so it is empty when that point is the identity, which no check excludes: the pair
of two identities passes for any two endpoints.

## Main definitions

* `IsGapSignature`: A valid signature on a gap in a context.
* `GapFirst`: The first messages.
* `GapResponses`: The responses to one challenge.
* `identityGap`: First messages without a signature.

## Theorems

* `signIntervalWithContext_valid`: The server's signatures are valid.
* `gapRelation_of_two`: What two accepting answers force.
* `gapVerify_prove`: The honest proof is accepted.
* `identityGap_accepts`: Identities are accepted at every challenge.
* `signed_gap_extracted_iff`: When a signature can be extracted.
-/

namespace Ebut

open Extraction

variable {G1 G2 GT : Type} [AddCommGroup G1] [Module Scalar G1] [AddCommGroup G2]
  [Module Scalar G2] [AddCommGroup GT] [Module Scalar GT]

/-- A valid server signature on `(ea, eb)` in a context. -/
def IsGapSignature (sk : RevocationSecretKey) (ea eb gapCtx : Scalar) (sigma : G1 × G1) : Prop :=
  sigma.1 ≠ 0 ∧ sigma.2 = sk.exponent ea eb gapCtx • sigma.1

theorem signIntervalWithContext_valid (sk : RevocationSecretKey) (ea eb : UInt64)
    (gapCtx : Scalar) {h : G1} (hne : h ≠ 0) :
    IsGapSignature sk (Scalar.ofU64 ea) (Scalar.ofU64 eb) gapCtx
      (signIntervalWithContext sk ea eb gapCtx h) :=
  ⟨hne, rfl⟩

/-- The first messages, fixed before the challenge. -/
structure GapFirst (G1 GT : Type) where
  comEa : G1
  comEb : G1
  sigma1Blind : G1
  sigma2Blind : G1
  a1 : G1
  a2 : G1
  aPair : GT

/-- The responses to one challenge. -/
structure GapResponses where
  sEa : Scalar
  sRa : Scalar
  sEb : Scalar
  sRb : Scalar

def GapFirst.proofAt (first : GapFirst G1 GT) (responses : GapResponses) (challenge : ℕ) :
    GapProof G1 GT where
  comEa := first.comEa
  comEb := first.comEb
  sigma1Blind := first.sigma1Blind
  sigma2Blind := first.sigma2Blind
  a1 := first.a1
  a2 := first.a2
  aPair := first.aPair
  challenge := challenge
  sEa := responses.sEa
  sRa := responses.sRa
  sEb := responses.sEb
  sRb := responses.sRb

variable [DecidableEq G1] [DecidableEq GT] {bls : Blstrs G1 G2 GT} {sk : RevocationSecretKey}
  {gapCtx : Scalar} {valueBase blindBase : G1}

/-- The verifier accepts the answer to a challenge. -/
def GapAccepted (bls : Blstrs G1 G2 GT) (sk : RevocationSecretKey) (gapCtx : Scalar)
    (valueBase blindBase : G1) (first : GapFirst G1 GT) (responses : GapResponses)
    (challenge : ℕ) : Prop :=
  (first.proofAt responses challenge).verifyAt bls (sk.publicKey bls) gapCtx valueBase blindBase
    challenge = true

/-- The pairing equation of an accepted answer, with every point moved to the
first argument. -/
theorem gapPairing_of_accepted {first : GapFirst G1 GT} {responses : GapResponses}
    {challenge : ℕ} (hacc : GapAccepted bls sk gapCtx valueBase blindBase first responses
      challenge) :
    first.aPair = bls.pairing ((sk.y1 * responses.sEa + sk.y2 * responses.sEb +
      challenge * (sk.x + sk.yctx * gapCtx)) • first.sigma1Blind -
        (challenge : Scalar) • first.sigma2Blind) bls.g2Generator := by
  rcases gapVerifyAt_iff.mp hacc with ⟨_, _, _, hpair⟩
  -- every component of the public key is a multiple of the generator
  have hkey : responses.sEa • (sk.publicKey bls).y1G2 + responses.sEb • (sk.publicKey bls).y2G2 +
      (challenge : Scalar) • ((sk.publicKey bls).xG2 + gapCtx • (sk.publicKey bls).yctxG2) =
      (sk.y1 * responses.sEa + sk.y2 * responses.sEb +
        challenge * (sk.x + sk.yctx * gapCtx)) • bls.g2Generator := by
    simp only [RevocationSecretKey.publicKey]
    module
  refine hpair.trans ?_
  show bls.pairing first.sigma1Blind (responses.sEa • (sk.publicKey bls).y1G2 +
      responses.sEb • (sk.publicKey bls).y2G2 +
      (challenge : Scalar) • ((sk.publicKey bls).xG2 + gapCtx • (sk.publicKey bls).yctxG2)) +
    bls.pairing ((challenge : Scalar) • first.sigma2Blind) (-bls.g2Generator) = _
  rw [hkey, map_smul, map_neg, map_sub, LinearMap.sub_apply, map_smul bls.pairing,
    map_smul bls.pairing, LinearMap.smul_apply, LinearMap.smul_apply, ← sub_eq_add_neg]

/-- Two accepting answers open the endpoints and relate the blinded points by the
exponent of the opened endpoints. -/
theorem gapRelation_of_two (hnondeg : ∀ p, bls.pairing p bls.g2Generator = 0 → p = 0)
    {first : GapFirst G1 GT} {responses responses' : GapResponses} {challenge challenge' : ℕ}
    (hne : (challenge : Scalar) ≠ challenge')
    (hacc : GapAccepted bls sk gapCtx valueBase blindBase first responses challenge)
    (hacc' : GapAccepted bls sk gapCtx valueBase blindBase first responses' challenge') :
    ∃ ea ra eb rb : Scalar, first.comEa = ea • valueBase + ra • blindBase ∧
      first.comEb = eb • valueBase + rb • blindBase ∧
      first.sigma2Blind = sk.exponent ea eb gapCtx • first.sigma1Blind := by
  rcases gapVerifyAt_iff.mp hacc with ⟨_, ha1, ha2, _⟩
  rcases gapVerifyAt_iff.mp hacc' with ⟨_, ha1', ha2', _⟩
  refine ⟨_, _, _, _, opening_of_two hne ha1 ha1', opening_of_two hne ha2 ha2', ?_⟩
  -- The pairing with the generator is injective, so its arguments agree.
  have hpair := (gapPairing_of_accepted hacc).symm.trans (gapPairing_of_accepted hacc')
  rw [← sub_eq_zero, ← LinearMap.sub_apply, ← map_sub] at hpair
  have hpoint := sub_eq_zero.mp (hnondeg _ hpair)
  -- the slope of the two answers is the exponent of the endpoints they open
  refine (slope_of_two hne hpoint).trans (congrArg (· • first.sigma1Blind) ?_)
  have hsub : (challenge : Scalar) - challenge' ≠ 0 := sub_ne_zero.mpr hne
  simp only [RevocationSecretKey.exponent, GapFirst.proofAt]
  field_simp
  ring

/-- A signature can be extracted from two accepting answers if and only if the first
blinded point is not the identity. -/
theorem signed_gap_extracted_iff (hnondeg : ∀ p, bls.pairing p bls.g2Generator = 0 → p = 0)
    {first : GapFirst G1 GT} {responses responses' : GapResponses} {challenge challenge' : ℕ}
    (hne : (challenge : Scalar) ≠ challenge')
    (hacc : GapAccepted bls sk gapCtx valueBase blindBase first responses challenge)
    (hacc' : GapAccepted bls sk gapCtx valueBase blindBase first responses' challenge') :
    (∃ ea ra eb rb : Scalar, first.comEa = ea • valueBase + ra • blindBase ∧
      first.comEb = eb • valueBase + rb • blindBase ∧
      IsGapSignature sk ea eb gapCtx (first.sigma1Blind, first.sigma2Blind)) ↔
    first.sigma1Blind ≠ 0 := by
  constructor
  · rintro ⟨_, _, _, _, _, _, hsig⟩
    exact hsig.1
  · intro hsigma
    rcases gapRelation_of_two hnondeg hne hacc hacc' with ⟨ea, ra, eb, rb, hea, heb, hrel⟩
    exact ⟨ea, ra, eb, rb, hea, heb, hsigma, hrel⟩

section Completeness

variable (sha : Sha2)

/-- An honest proof from a signature by the exponent is accepted, on any bases and for any
factor, zero included. -/
theorem gapVerify_prove {ea eb : UInt64} {sigma : G1 × G1}
    (hsigma : sigma.2 = sk.exponent (Scalar.ofU64 ea) (Scalar.ofU64 eb) gapCtx • sigma.1)
    (ra rb t rEa rRa rEb rRb : Scalar) :
    (GapProof.prove sha bls ea eb ra rb sigma.1 sigma.2 t gapCtx (sk.publicKey bls) valueBase
      blindBase rEa rRa rEb rRb).verify sha bls (sk.publicKey bls) gapCtx valueBase blindBase =
        true := by
  unfold GapProof.verify GapProof.prove
  rw [gapVerifyAt_iff]
  refine ⟨rfl, ?_, ?_, ?_⟩
  · simp only [biguintToBlsScalar_eq]
    module
  · simp only [biguintToBlsScalar_eq]
    module
  -- what the signature contributes cancels what the endpoints and the context do
  · simp only [biguintToBlsScalar_eq, hsigma, RevocationSecretKey.publicKey,
      RevocationSecretKey.exponent, map_add, map_smul, map_neg, LinearMap.smul_apply]
    module

end Completeness

section Converse

/-- First messages for any two endpoints, with identities for the signature. -/
def identityGap (ea eb : Scalar) (valueBase : G1) : GapFirst G1 GT :=
  ⟨ea • valueBase, eb • valueBase, 0, 0, 0, 0, 0⟩

/-- The answer to a challenge: the endpoints scaled by it. -/
def identityGapResponses (ea eb : Scalar) (challenge : ℕ) : GapResponses :=
  ⟨challenge * ea, 0, challenge * eb, 0⟩

/-- Identities pass for any endpoints, under any key, in any context and at any
challenge. -/
theorem identityGap_accepts (ea eb : Scalar) (challenge : ℕ) :
    GapAccepted bls sk gapCtx valueBase blindBase (identityGap ea eb valueBase)
      (identityGapResponses ea eb challenge) challenge := by
  refine gapVerifyAt_iff.mpr ⟨rfl, ?_, ?_, ?_⟩
  · show (0 : G1) = ((challenge : Scalar) * ea) • valueBase + (0 : Scalar) • blindBase -
      (challenge : Scalar) • ea • valueBase
    module
  · show (0 : G1) = ((challenge : Scalar) * eb) • valueBase + (0 : Scalar) • blindBase -
      (challenge : Scalar) • eb • valueBase
    module
  -- the pairing of an identity is one, whatever it is paired with
  · simp only [identityGap, GapFirst.proofAt, smul_zero, map_zero, LinearMap.zero_apply, add_zero]

end Converse

section Example

/-- Pairing groups with a non-degenerate pairing: the scalar multiplication. -/
def lineBlstrs : Blstrs UnitSpace Scalar UnitSpace where
  g1Generator := Pi.single 0 1
  g2Generator := 1
  g1Compressed := fun _ => leArray 48 0
  g2Compressed := fun _ => leArray 96 0
  hashToCurve := fun _ _ => Pi.single 7 1
  pairing := (LinearMap.lsmul Scalar UnitSpace).flip
  gtDebug := fun _ => []

theorem lineBlstrs_nondegenerate (p : UnitSpace)
    (hp : lineBlstrs.pairing p lineBlstrs.g2Generator = 0) : p = 0 := by
  rwa [show lineBlstrs.pairing p lineBlstrs.g2Generator = (1 : Scalar) • p from rfl,
    one_smul] at hp

def fourKey : RevocationSecretKey := ⟨2, 3, 5, 7⟩

/-- First messages for the widest gap, without a signature. -/
def wideGap : GapFirst UnitSpace UnitSpace := identityGap 0 4294967295 (unitGenerators.h 5)

theorem wideGap_accepts (challenge : ℕ) :
    GapAccepted lineBlstrs fourKey 11 (unitGenerators.h 5) (unitGenerators.h 0) wideGap
      (identityGapResponses 0 4294967295 challenge) challenge :=
  identityGap_accepts 0 4294967295 challenge

/-- The widest gap passes at the challenges one and two, and has no signature. -/
theorem unsigned_gap_accepted :
    (∀ p, lineBlstrs.pairing p lineBlstrs.g2Generator = 0 → p = 0) ∧
    LinearIndependent Scalar ![unitGenerators.h 5, unitGenerators.h 0] ∧
    GapAccepted lineBlstrs fourKey 11 (unitGenerators.h 5) (unitGenerators.h 0) wideGap
      (identityGapResponses 0 4294967295 1) 1 ∧
    GapAccepted lineBlstrs fourKey 11 (unitGenerators.h 5) (unitGenerators.h 0) wideGap
      (identityGapResponses 0 4294967295 2) 2 ∧
    ¬∃ ea ra eb rb : Scalar,
      wideGap.comEa = ea • unitGenerators.h 5 + ra • unitGenerators.h 0 ∧
      wideGap.comEb = eb • unitGenerators.h 5 + rb • unitGenerators.h 0 ∧
      IsGapSignature fourKey ea eb 11 (wideGap.sigma1Blind, wideGap.sigma2Blind) := by
  refine ⟨lineBlstrs_nondegenerate, independent_pair unitGenerators_independent (by decide),
    wideGap_accepts 1, wideGap_accepts 2, ?_⟩
  rintro ⟨_, _, _, _, _, _, hsig⟩
  exact hsig.1 rfl

theorem signed_gap_extracted_iff_wide :
    (∃ ea ra eb rb : Scalar,
      wideGap.comEa = ea • unitGenerators.h 5 + ra • unitGenerators.h 0 ∧
      wideGap.comEb = eb • unitGenerators.h 5 + rb • unitGenerators.h 0 ∧
      IsGapSignature fourKey ea eb 11 (wideGap.sigma1Blind, wideGap.sigma2Blind)) ↔
    wideGap.sigma1Blind ≠ 0 :=
  signed_gap_extracted_iff lineBlstrs_nondegenerate (by decide +kernel) (wideGap_accepts 1)
    (wideGap_accepts 2)

end Example

end Ebut
