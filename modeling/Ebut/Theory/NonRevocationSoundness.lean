import Ebut.Library.Convergents
import Ebut.Theory.NonRevocation

/-!
# What the Revocation Check Keeps Out

The four proofs of a non-membership proof are sound together although two of them are not
alone. The bound on the equality response leaves room for integers that are congruent to the
opened values in one group only; the range proofs on the differences then ask for a small
number that is a small multiple of one order modulo the other, and zero is the only one.
The gap proof is sound when its first blinded point is not the identity; when it is, the
prover runs on any interval, and the owner of a revoked token is accepted.

## Main definitions

* `NonMembershipAnswered`: What a client that answers the verifier again shows.

## Theorems

* `orders_neighbours`: Approximations of the quotient of the two orders.
* `endpoints_around`: The expiry is between the endpoints of the gap proof.
* `accepted_not_revoked`: It is in a gap of the list, and not revoked.
* `honest_answered`: The honest client shows that much.
* `revocation_bypassed`: Without a signature any expiry passes.
-/

namespace Ebut

open CrossGroup V3Zkp

variable {P G1 G2 GT R : Type} [AddCommGroup G1] [Module Scalar G1] [AddCommGroup G2]
  [Module Scalar G2] [AddCommGroup GT] [Module Scalar GT] [AddCommGroup R] [Module DalekScalar R]

/-- The first messages of a gap proof. -/
def GapProof.first (proof : GapProof G1 GT) : GapFirst G1 GT where
  comEa := proof.comEa
  comEb := proof.comEb
  sigma1Blind := proof.sigma1Blind
  sigma2Blind := proof.sigma2Blind
  a1 := proof.a1
  a2 := proof.a2
  aPair := proof.aPair

variable [DecidableEq G1] [DecidableEq GT] [DecidableEq R]

/-- What a client shows that answers the verifier again, at other hashes and from the same
commitments, with the values that its range proofs are for. -/
structure NonMembershipAnswered (sha : Sha2) (bls : Blstrs G1 G2 GT) (dalek : Dalek R)
    (sk : RevocationSecretKey) (gapCtx : Scalar) (valueBase blindBase : G1)
    (proof : NonMembershipProof P G1 GT R) (userComRist : R) (userComBls : G1) : Prop where
  equality : ∀ gamma < 2 ^ 80, ∃ r1 r2, EqualityAnswered sha dalek valueBase blindBase
    (proof.statement userComRist userComBls) gamma r1 r2
  gap : ∃ (challenge challenge' : ℕ) (responses responses' : GapResponses),
    (challenge : Scalar) ≠ challenge' ∧
    GapAccepted bls sk gapCtx valueBase blindBase proof.gapProof.first responses challenge ∧
    GapAccepted bls sk gapCtx valueBase blindBase proof.gapProof.first responses' challenge'
  differences : userComRist - proof.comEaRist - ristrettoGv sha dalek = proof.comDiff1 ∧
    proof.comEbRist - userComRist - ristrettoGv sha dalek = proof.comDiff2
  ranges : ∃ d₁ d₂ : ℕ, d₁ < 2 ^ 64 ∧ d₂ < 2 ^ 64 ∧
    Opens DalekScalar (ristrettoGv sha dalek) (ristrettoG1 sha dalek) proof.comDiff1 d₁ ∧
    Opens DalekScalar (ristrettoGv sha dalek) (ristrettoG1 sha dalek) proof.comDiff2 d₂

section Integers

/-- Two neighbouring approximations of the quotient of the orders. -/
theorem orders_neighbours : Convergents.Neighbours blsOrder dalekOrder 52410827326585996
    379743744861809645 493963365055888685 3579021886107729294 where
  det := by decide +kernel
  nonneg := by decide +kernel
  above := by decide +kernel
  below := by decide +kernel

/-- A number of 70 bits that is a multiple of 58 bits of one order modulo the other is zero. -/
theorem small_eq_zero {k s : ℤ} (hk : |k| < 2 ^ 58) (hs : |s| < 2 ^ 70)
    (hmod : s ≡ k * blsOrder [ZMOD dalekOrder]) : s = 0 :=
  (orders_neighbours.eq_zero_of_modEq (hk.trans (by decide +kernel)) (hs.trans (by decide +kernel))
    hmod).2

/-- A short integer is congruent to a number of 68 bits with a quotient of 54. -/
theorem exists_small_quotient {δ E : ℤ} (hshort : lastEqualityChallenge * |δ| < zELimit)
    (hE : |E| < 2 ^ 68) (hmod : δ ≡ E [ZMOD blsOrder]) :
    ∃ k : ℤ, |k| < 2 ^ 54 ∧ δ = E + k * blsOrder := by
  rcases hmod.symm.dvd with ⟨k, hk⟩
  refine ⟨k, ?_, by linear_combination hk⟩
  have hδ : |δ| < 2 ^ 306 := by
    by_contra hge
    refine absurd hshort (not_lt.mpr ?_)
    calc (zELimit : ℤ) ≤ lastEqualityChallenge * 2 ^ 306 := by decide +kernel
      _ ≤ lastEqualityChallenge * |δ| :=
          mul_le_mul_of_nonneg_left (not_lt.mp hge) (Int.natCast_nonneg _)
  -- the quotient of the difference by the order
  have hprod : |k| * blsOrder < 2 ^ 54 * blsOrder := by
    calc |k| * blsOrder = |δ - E| := by rw [hk, abs_mul, Nat.abs_cast, mul_comm]
      _ ≤ |δ| + |E| := abs_sub δ E
      _ < 2 ^ 306 + 2 ^ 68 := add_lt_add hδ hE
      _ ≤ 2 ^ 54 * blsOrder := by decide +kernel
  exact lt_of_mul_lt_mul_right hprod (Int.natCast_nonneg _)

end Integers

section Soundness

variable {sha : Sha2} {bls : Blstrs G1 G2 GT} {dalek : Dalek R} {sk : RevocationSecretKey}
  {gapCtx : Scalar} {valueBase blindBase : G1} {proof : NonMembershipProof P G1 GT R}
  {userComRist : R} {userComBls : G1}

omit [AddCommGroup G1] [Module Scalar G1] [AddCommGroup GT] [Module Scalar GT] [DecidableEq G1]
  [DecidableEq GT] [DecidableEq R] in
/-- The commitments to the endpoints open around the one to the expiry, in the Ristretto
group and up to its order. -/
theorem comCombRist_opens {δ d₁ d₂ : ℤ} (gamma : ℕ)
    (hdiff₁ : userComRist - proof.comEaRist - ristrettoGv sha dalek = proof.comDiff1)
    (hdiff₂ : proof.comEbRist - userComRist - ristrettoGv sha dalek = proof.comDiff2)
    (hδ : Opens DalekScalar (ristrettoGv sha dalek) (ristrettoG1 sha dalek) userComRist δ)
    (hd₁ : Opens DalekScalar (ristrettoGv sha dalek) (ristrettoG1 sha dalek) proof.comDiff1 d₁)
    (hd₂ : Opens DalekScalar (ristrettoGv sha dalek) (ristrettoG1 sha dalek) proof.comDiff2 d₂) :
    Opens DalekScalar (ristrettoGv sha dalek) (ristrettoG1 sha dalek)
      (comCombRist (proof.statement userComRist userComBls) gamma)
      (δ + gamma * (δ - d₁ - 1) + gamma * gamma * (δ + d₂ + 1)) := by
  rcases hδ with ⟨ρ, hδ⟩
  rcases hd₁ with ⟨ρ₁, hd₁⟩
  rcases hd₂ with ⟨ρ₂, hd₂⟩
  have hea : proof.comEaRist = userComRist - ristrettoGv sha dalek - proof.comDiff1 := by
    rw [← hdiff₁]
    abel
  have heb : proof.comEbRist = userComRist + ristrettoGv sha dalek + proof.comDiff2 := by
    rw [← hdiff₂]
    abel
  refine ⟨ρ + gamma * (ρ - ρ₁) + gamma * gamma * (ρ + ρ₂), ?_⟩
  simp only [comCombRist, NonMembershipProof.statement, V3Zkp.biguintToRistrettoScalar_eq, hea, heb,
    hδ, hd₁, hd₂]
  push_cast
  module

omit [AddCommGroup GT] [Module Scalar GT] [AddCommGroup R] [Module DalekScalar R]
  [DecidableEq G1] [DecidableEq GT] [DecidableEq R] in
theorem comCombBls_opens {e ea eb : ℕ} (gamma : ℕ)
    (he : Opens Scalar valueBase blindBase userComBls e)
    (hea : Opens Scalar valueBase blindBase proof.gapProof.comEa ea)
    (heb : Opens Scalar valueBase blindBase proof.gapProof.comEb eb) :
    Opens Scalar valueBase blindBase (comCombBls (proof.statement userComRist userComBls) gamma)
      (e + gamma * ea + gamma * gamma * eb : ℤ) := by
  rcases he with ⟨ρ, he⟩
  rcases hea with ⟨ρ₁, hea⟩
  rcases heb with ⟨ρ₂, heb⟩
  refine ⟨ρ + gamma * ρ₁ + gamma * gamma * ρ₂, ?_⟩
  simp only [comCombBls, NonMembershipProof.statement, biguintToBlsScalar_eq, he, hea, heb]
  push_cast
  module

variable (hrist : LinearIndependent DalekScalar ![ristrettoGv sha dalek, ristrettoG1 sha dalek])
  (hbls : LinearIndependent Scalar ![valueBase, blindBase])
  (hanswered : NonMembershipAnswered sha bls dalek sk gapCtx valueBase blindBase proof userComRist
    userComBls)

include hrist hbls hanswered

/-- At a `gamma` up to two the combination opens in both groups to one integer, which has a
small quotient by the order of the pairing group. -/
theorem combination_at {e ea eb : UInt64} {gamma : ℕ} (hgamma : gamma ≤ 2)
    (he : Opens Scalar valueBase blindBase userComBls e.toNat)
    (hea : Opens Scalar valueBase blindBase proof.gapProof.comEa ea.toNat)
    (heb : Opens Scalar valueBase blindBase proof.gapProof.comEb eb.toNat) :
    ∃ k : ℤ, |k| < 2 ^ 54 ∧
      Opens DalekScalar (ristrettoGv sha dalek) (ristrettoG1 sha dalek)
        (comCombRist (proof.statement userComRist userComBls) gamma)
        ((e.toNat + gamma * ea.toNat + gamma * gamma * eb.toNat : ℤ) + k * blsOrder) := by
  rcases hanswered.equality gamma (by omega) with ⟨r1, r2, heq⟩
  rcases (exists_equality_answered_iff hrist hbls).mp ⟨r1, r2, heq⟩ with
    ⟨δ, hshort, hopenRist, hopenBls⟩
  have hcast := opens_cast_eq (notMem_span_of_independent hbls) hopenBls
    (comCombBls_opens gamma he hea heb)
  have hmod := (ZMod.intCast_eq_intCast_iff _ _ _).mp hcast
  have hE : |(e.toNat + gamma * ea.toNat + gamma * gamma * eb.toNat : ℤ)| < 2 ^ 68 := by
    have h := e.toNat_lt
    have ha : gamma * ea.toNat ≤ 2 * 2 ^ 64 := Nat.mul_le_mul hgamma ea.toNat_lt.le
    have hb : gamma * gamma * eb.toNat ≤ 2 * 2 * 2 ^ 64 :=
      Nat.mul_le_mul (Nat.mul_le_mul hgamma hgamma) eb.toNat_lt.le
    have hnat : e.toNat + gamma * ea.toNat + gamma * gamma * eb.toNat < 2 ^ 68 := by omega
    have hnonneg := Nat.zero_le (e.toNat + gamma * ea.toNat + gamma * gamma * eb.toNat)
    rw [abs_of_nonneg (by exact_mod_cast hnonneg)]
    exact_mod_cast hnat
  rcases exists_small_quotient hshort hE hmod with ⟨k, hk, rfl⟩
  exact ⟨k, hk, hopenRist⟩

/-- The opened expiry lies strictly between the opened endpoints. -/
theorem endpoints_around {e ea eb : UInt64}
    (he : Opens Scalar valueBase blindBase userComBls e.toNat)
    (hea : Opens Scalar valueBase blindBase proof.gapProof.comEa ea.toNat)
    (heb : Opens Scalar valueBase blindBase proof.gapProof.comEb eb.toNat) : ea < e ∧ e < eb := by
  rcases hanswered.ranges with ⟨d₁, d₂, hlt₁, hlt₂, hd₁, hd₂⟩
  rcases hanswered.differences with ⟨hdiff₁, hdiff₂⟩
  rcases combination_at hrist hbls hanswered (by decide : 0 ≤ 2) he hea heb with ⟨k₀, hk₀, hopen₀⟩
  rcases combination_at hrist hbls hanswered (by decide : 1 ≤ 2) he hea heb with ⟨k₁, hk₁, hopen₁⟩
  rcases combination_at hrist hbls hanswered (by decide : 2 ≤ 2) he hea heb with ⟨k₂, hk₂, hopen₂⟩
  -- at zero it is the expiry alone, so that the other two are determined by it
  have hδ : Opens DalekScalar (ristrettoGv sha dalek) (ristrettoG1 sha dalek) userComRist
      ((e.toNat : ℤ) + k₀ * blsOrder) := by
    rcases hopen₀ with ⟨ρ, hρ⟩
    refine ⟨ρ, ?_⟩
    simp only [comCombRist, NonMembershipProof.statement, V3Zkp.biguintToRistrettoScalar_eq,
      Nat.cast_zero, mul_zero, zero_mul, zero_smul, add_zero] at hρ
    exact hρ
  have hline : ∀ (gamma : ℕ) (k : ℤ), Opens DalekScalar (ristrettoGv sha dalek)
      (ristrettoG1 sha dalek) (comCombRist (proof.statement userComRist userComBls) gamma)
      ((e.toNat + gamma * ea.toNat + gamma * gamma * eb.toNat : ℤ) + k * blsOrder) →
      (gamma * (ea.toNat - e.toNat + d₁ + 1) + gamma * gamma * (eb.toNat - e.toNat - d₂ - 1) : ℤ) ≡
        ((1 + gamma + gamma * gamma) * k₀ - k) * blsOrder [ZMOD dalekOrder] := by
    intro gamma k hopen
    have hmod := (ZMod.intCast_eq_intCast_iff _ _ _).mp
      (opens_cast_eq (notMem_span_of_independent hrist) hopen
        (comCombRist_opens gamma hdiff₁ hdiff₂ hδ hd₁ hd₂))
    refine (Int.modEq_iff_dvd).mpr ?_
    rcases hmod.dvd with ⟨m, hm⟩
    exact ⟨m, by linear_combination hm⟩
  have he64 := e.toNat_lt
  have hea64 := ea.toNat_lt
  have heb64 := eb.toNat_lt
  rw [abs_lt] at hk₀ hk₁ hk₂
  have hsum := small_eq_zero (abs_lt.mpr (by push_cast; constructor <;> omega))
    (abs_lt.mpr (by push_cast; constructor <;> omega)) (hline 1 k₁ hopen₁)
  have hsum₂ := small_eq_zero (abs_lt.mpr (by push_cast; constructor <;> omega))
    (abs_lt.mpr (by push_cast; constructor <;> omega)) (hline 2 k₂ hopen₂)
  push_cast at hsum hsum₂
  rw [UInt64.lt_iff_toNat_lt, UInt64.lt_iff_toNat_lt]
  omega

end Soundness

section List

variable {sha : Sha2} {bls : Blstrs G1 G2 GT} {dalek : Dalek R} {sk : RevocationSecretKey}
  {h : ℕ → G1} {ctx : RevocationContext} {blacklisted : List UInt64} {valueBase blindBase : G1}
  {proof : NonMembershipProof P G1 GT R} {userComRist : R} {userComBls : G1} {e : UInt64}

/-- A client that holds no signatures but those of the list, and whose first blinded point is
not the identity, shows that the expiry committed to is in a gap of the list. It is not one
of those revoked. -/
theorem accepted_not_revoked
    (hrist : LinearIndependent DalekScalar ![ristrettoGv sha dalek, ristrettoG1 sha dalek])
    (hbls : LinearIndependent Scalar ![valueBase, blindBase])
    (hnondeg : ∀ p, bls.pairing p bls.g2Generator = 0 → p = 0)
    (hopens : ∃ r : Scalar, userComBls = Scalar.ofU64 e • valueBase + r • blindBase)
    (hanswered : NonMembershipAnswered sha bls dalek sk (gapContextScalar sha ctx) valueBase
      blindBase proof userComRist userComBls)
    (hsigma : proof.gapProof.sigma1Blind ≠ 0)
    (hsigned : ∀ ea ra eb rb : Scalar, proof.gapProof.comEa = ea • valueBase + ra • blindBase →
      proof.gapProof.comEb = eb • valueBase + rb • blindBase →
      IsGapSignature sk ea eb (gapContextScalar sha ctx)
        (proof.gapProof.sigma1Blind, proof.gapProof.sigma2Blind) →
      ∃ gap ∈ (signBlacklist sha sk h ctx blacklisted).gaps,
        ea = Scalar.ofU64 gap.left ∧ eb = Scalar.ofU64 gap.right) :
    e ∉ blacklisted ∧ ∃ gap ∈ (signBlacklist sha sk h ctx blacklisted).gaps,
      gap.left < e ∧ e < gap.right := by
  rcases hanswered.gap with ⟨challenge, challenge', responses, responses', hne, hacc, hacc'⟩
  rcases gapRelation_of_two hnondeg hne hacc hacc' with ⟨ea, ra, eb, rb, hea, heb, hrel⟩
  rcases hsigned ea ra eb rb hea heb ⟨hsigma, hrel⟩ with ⟨gap, hmem, rfl, rfl⟩
  rcases hopens with ⟨r, hopens⟩
  have hcast : ∀ v : UInt64, ((v.toNat : ℤ) : Scalar) = Scalar.ofU64 v := fun v =>
    Int.cast_natCast _
  have haround : gap.left < e ∧ e < gap.right := endpoints_around hrist hbls hanswered
    ⟨r, by rw [hcast, hopens]⟩ ⟨ra, by rw [hcast]; exact hea⟩ ⟨rb, by rw [hcast]; exact heb⟩
  exact ⟨fun hrevoked => revoked_not_inside hmem hrevoked haround, gap, hmem, haround⟩

end List

section Honest

variable {sha : Sha2} {bls : Blstrs G1 G2 GT} {dalek : Dalek R} {sk : RevocationSecretKey}
  {gapCtx : Scalar} {valueBase blindBase : G1} {coins : NonMembershipCoins P R} {e ea eb : UInt64}
  {r1E : DalekScalar} {r2E : Scalar} {sigma : G1 × G1} {r2Ea r2Eb : Scalar}
  {r1Ea r1Eb : DalekScalar} {rangeProof : P}

/-- The responses of the honest prover to a challenge. -/
def honestGapResponses (coins : NonMembershipCoins P R) (ea eb : UInt64) (r2Ea r2Eb : Scalar)
    (challenge : ℕ) : GapResponses where
  sEa := coins.rEa + challenge * Scalar.ofU64 ea
  sRa := coins.rRa + challenge * r2Ea
  sEb := coins.rEb + challenge * Scalar.ofU64 eb
  sRb := coins.rRb + challenge * r2Eb

omit [AddCommGroup R] [Module DalekScalar R] [DecidableEq R] in
/-- With a signature every challenge is answered. -/
theorem honestGap_accepted
    (hsigma : sigma.2 = sk.exponent (Scalar.ofU64 ea) (Scalar.ofU64 eb) gapCtx • sigma.1)
    (challenge : ℕ) :
    GapAccepted bls sk gapCtx valueBase blindBase
      (honestGap sha bls coins (sk.publicKey bls) sigma r2Ea r2Eb gapCtx valueBase blindBase ea
        eb).first (honestGapResponses coins ea eb r2Ea r2Eb challenge) challenge := by
  refine gapVerifyAt_iff.mpr ⟨rfl, ?_, ?_, ?_⟩
  · simp only [GapFirst.proofAt, GapProof.first, honestGap, GapProof.prove, honestGapResponses]
    module
  · simp only [GapFirst.proofAt, GapProof.first, honestGap, GapProof.prove, honestGapResponses]
    module
  · simp only [GapFirst.proofAt, GapProof.first, honestGap, GapProof.prove, honestGapResponses,
      hsigma, RevocationSecretKey.publicKey, RevocationSecretKey.exponent, map_add, map_smul,
      map_neg, LinearMap.smul_apply]
    module

/-- The honest combination is short, and opens in both groups. -/
theorem honest_equality (hrist : LinearIndependent DalekScalar
      ![ristrettoGv sha dalek, ristrettoG1 sha dalek])
    (hbls : LinearIndependent Scalar ![valueBase, blindBase]) {gamma : ℕ}
    (hgamma : gamma < 2 ^ 80) :
    ∃ r1 r2, EqualityAnswered sha dalek valueBase blindBase
      (honestStatement sha dalek r1E r2E r2Ea r2Eb r1Ea r1Eb valueBase blindBase e ea eb) gamma r1
        r2 := by
  refine (exists_equality_answered_iff hrist hbls).mpr
    ⟨(e.toNat + gamma * ea.toNat + gamma * gamma * eb.toNat : ℕ), ?_, ⟨?_, ?_⟩, ⟨?_, ?_⟩⟩
  · have hlt := combination_lt hgamma e ea eb
    rw [Nat.abs_cast]
    calc (lastEqualityChallenge : ℤ) * (e.toNat + gamma * ea.toNat + gamma * gamma * eb.toNat : ℕ)
        ≤ lastEqualityChallenge * 2 ^ 225 :=
          mul_le_mul_of_nonneg_left (by exact_mod_cast hlt.le) (Int.natCast_nonneg _)
      _ < zELimit := by decide +kernel
  · exact r1E + gamma * r1Ea + gamma * gamma * r1Eb
  · simp only [comCombRist, honestStatement, ristrettoCommit, V3Zkp.biguintToRistrettoScalar_eq]
    push_cast
    module
  · exact r2E + gamma * r2Ea + gamma * gamma * r2Eb
  · simp only [comCombBls, honestStatement, biguintToBlsScalar_eq, Scalar.ofU64]
    push_cast
    module

/-- The honest client can answer the verifier again as often as it is asked. -/
theorem honest_answered (hrist : LinearIndependent DalekScalar
      ![ristrettoGv sha dalek, ristrettoG1 sha dalek])
    (hbls : LinearIndependent Scalar ![valueBase, blindBase]) (hleft : ea < e) (hright : e < eb)
    (hsigma : sigma.2 = sk.exponent (Scalar.ofU64 ea) (Scalar.ofU64 eb) gapCtx • sigma.1) :
    NonMembershipAnswered sha bls dalek sk gapCtx valueBase blindBase
      (honestNonMembership sha bls dalek coins r1E r2E (sk.publicKey bls) sigma r2Ea r2Eb r1Ea r1Eb
        gapCtx valueBase blindBase e ea eb rangeProof) (ristrettoCommit sha dalek e r1E)
      (Scalar.ofU64 e • valueBase + r2E • blindBase) where
  equality _ hgamma := honest_equality hrist hbls hgamma
  gap := ⟨1, 0, _, _, by rw [Nat.cast_one, Nat.cast_zero]; exact one_ne_zero,
    honestGap_accepted hsigma 1, honestGap_accepted hsigma 0⟩
  differences := ⟨ristrettoCommit_sub sha dalek (checkedSub_pred hleft).2 r1E r1Ea,
    ristrettoCommit_sub sha dalek (checkedSub_pred hright).2 r1Eb r1E⟩
  ranges := ⟨_, _, (e - ea - 1).toNat_lt, (eb - e - 1).toNat_lt,
    ⟨r1E - r1Ea, by rw [Int.cast_natCast]; rfl⟩, ⟨r1Eb - r1E, by rw [Int.cast_natCast]; rfl⟩⟩

end Honest

section Bypass

variable {sha : Sha2} {bls : Blstrs G1 G2 GT} {dalek : Dalek R} {ranges : RangeProofs P R}
  {generators : Generators G1 G2} {redemption : Redemption G1} {nowUnix : UInt64}

/-- The owner of any token passes the revocation check of any list, revoked or not: the library
prover, run on the interval around the expiry with two identities for the signature, succeeds
and is accepted. -/
theorem revocation_bypassed (list : SignedRevocationList G1) (sk : RevocationSecretKey)
    (coins : ClientRevocationCoins P R)
    (hhonest : redemption.HonestAt sha bls dalek generators list.ctx.nowUnix)
    (hpos : 0 < redemption.eMax) (hlast : redemption.eMax.toNat + 1 < 2 ^ 64)
    (hcomplete : AggregationComplete dalek ranges coins.prover.proveMultiple) :
    ∃ proof, createNonMembershipProofTimedWithContextAndBases sha bls dalek coins.prover
        redemption.eMax coins.r1Emax redemption.rDelta (sk.publicKey bls)
        (redemption.eMax - 1, redemption.eMax + 1) (0, 0) coins.r2Ea coins.r2Eb coins.r1Ea
        coins.r1Eb (gapContextScalar sha list.ctx) (generators.h 5) (generators.h 0) = .ok proof ∧
      redemption.verifyNotRevoked sha bls dalek generators list (sk.publicKey bls) ranges
        ⟨proof, ristrettoCommit sha dalek redemption.eMax coins.r1Emax⟩ = .ok () := by
  have hone : (1 : UInt64).toNat = 1 := rfl
  have hleft : redemption.eMax - 1 < redemption.eMax := by
    have hnat : 0 < redemption.eMax.toNat := UInt64.lt_iff_toNat_lt.mp hpos
    have hle : 1 ≤ redemption.eMax := UInt64.le_iff_toNat_le.mpr hnat
    rw [UInt64.lt_iff_toNat_lt, UInt64.toNat_sub_of_le _ _ hle, hone]
    exact Nat.sub_lt hnat Nat.one_pos
  have hright : redemption.eMax < redemption.eMax + 1 := by
    rw [UInt64.lt_iff_toNat_lt, UInt64.toNat_add, hone, Nat.mod_eq_of_lt hlast]
    exact Nat.lt_succ_self _
  -- a multiple of the identity is the identity, whatever the exponent
  obtain ⟨proof, hprove, haccepted⟩ : ∃ proof,
      createNonMembershipProofTimedWithContextAndBases sha bls dalek coins.prover redemption.eMax
        coins.r1Emax redemption.rDelta (sk.publicKey bls)
        (redemption.eMax - 1, redemption.eMax + 1) (0, 0) coins.r2Ea coins.r2Eb coins.r1Ea
        coins.r1Eb (gapContextScalar sha list.ctx) (generators.h 5) (generators.h 0) =
          .ok proof ∧ _ :=
    createNonMembershipProof_accepted hleft hright (smul_zero _).symm hcomplete
  refine ⟨proof, hprove, Redemption.verifyNotRevoked_ok.mpr ?_⟩
  rw [hhonest.emaxBlsCommitment_self]
  exact haccepted

end Bypass

section Example

/-- The owner of the token up to the time 1000 passes the list that revokes it. -/
theorem revocation_bypassed_thousand : ∃ redemption : Redemption UnitSpace,
    redemption.HonestAt lineSha lineBlstrs lineDalek unitGenerators 900 ∧
    redemption.eMax = 1000 ∧ (revokedAt 900 1000).isBlacklisted redemption.eMax = true ∧
    ∃ proof, createNonMembershipProofTimedWithContextAndBases lineSha lineBlstrs lineDalek
        oneRevocationCoins.prover redemption.eMax oneRevocationCoins.r1Emax redemption.rDelta
        (fourKey.publicKey lineBlstrs) (redemption.eMax - 1, redemption.eMax + 1) (0, 0) 1 1 1 1
        (gapContextScalar lineSha (revokedAt 900 1000).ctx) (unitGenerators.h 5)
        (unitGenerators.h 0) = .ok proof ∧
      redemption.verifyNotRevoked lineSha lineBlstrs lineDalek unitGenerators (revokedAt 900 1000)
        (fourKey.publicKey lineBlstrs) openedRanges
        ⟨proof, ristrettoCommit lineSha lineDalek redemption.eMax 1⟩ = .ok () := by
  rcases thousandRefresh with ⟨client, proof, hprove, hemax⟩
  have hhonest : (Redemption.refresh client proof).HonestAt lineSha lineBlstrs lineDalek
      unitGenerators 900 := ⟨_, _, _, _, _, _, _, _, hprove⟩
  have heq : (Redemption.refresh client proof).eMax = 1000 := hemax
  refine ⟨_, hhonest, heq, ?_, ?_⟩
  · rw [heq]
    exact isBlacklisted_iff.mpr (List.mem_singleton_self _)
  · exact revocation_bypassed (revokedAt 900 1000) fourKey oneRevocationCoins hhonest
      (by rw [heq]; decide) (by rw [heq]; decide) oneRevocationCoins_complete

/-- The context of a list at the time 900. -/
def nineHundred : RevocationContext := ⟨[], [], leArray 32 0, 1, 900⟩

/-- The proof for the expiry 900 and the gap below a thousand. -/
def belowThousand : NonMembershipProof ℕ UnitSpace UnitSpace Plane :=
  honestNonMembership planeSha lineBlstrs planeDalek
    ⟨1, 1, 1, 1, 1, ⟨leArray 54 1, leArray 32 1, 1⟩, fun _ _ _ _ _ _ => .ok 0⟩ 1 1
    (fourKey.publicKey lineBlstrs)
    (signIntervalWithContext fourKey 0 1000 (gapContextScalar planeSha nineHundred)
      unitGenerators.g1) 1 1 1 1 (gapContextScalar planeSha nineHundred) (unitGenerators.h 5)
    (unitGenerators.h 0) 900 0 1000 0

theorem belowThousand_answered : NonMembershipAnswered planeSha lineBlstrs planeDalek fourKey
    (gapContextScalar planeSha nineHundred) (unitGenerators.h 5) (unitGenerators.h 0)
    belowThousand (ristrettoCommit planeSha planeDalek 900 1)
    (Scalar.ofU64 900 • unitGenerators.h 5 + (1 : Scalar) • unitGenerators.h 0) :=
  honest_answered planeRistretto_independent unitRevocation_independent (by decide) (by decide)
    rfl

theorem belowThousand_mem : ∃ gap ∈ (signBlacklist planeSha fourKey (fun _ => unitGenerators.g1)
    nineHundred [1000]).gaps, gap.left = 0 ∧ gap.right = 1000 := by
  have hends := ends_signBlacklist planeSha fourKey (fun _ => unitGenerators.g1) nineHundred [1000]
  rw [List.mergeSort_singleton] at hends
  obtain ⟨gap, hmem, heq⟩ : ∃ gap ∈ (signBlacklist planeSha fourKey (fun _ => unitGenerators.g1)
      nineHundred [1000]).gaps, gap.ends = (0, 1000) := by
    rw [← List.mem_map, hends]
    decide
  exact ⟨gap, hmem, UInt64.toNat_inj.mp (congrArg Prod.fst heq),
    UInt64.toNat_inj.mp (congrArg Prod.snd heq)⟩

/-- The expiry 900 passes a list that revokes 1000. -/
theorem accepted_not_revoked_nineHundred :
    (900 : UInt64) ∉ [(1000 : UInt64)] ∧ ∃ gap ∈ (signBlacklist planeSha fourKey
      (fun _ => unitGenerators.g1) nineHundred [1000]).gaps, gap.left < 900 ∧ 900 < gap.right := by
  refine accepted_not_revoked planeRistretto_independent unitRevocation_independent
    lineBlstrs_nondegenerate ⟨1, rfl⟩ belowThousand_answered ?_ ?_
  · show (1 : Scalar) • unitGenerators.g1 ≠ 0
    rw [one_smul]
    decide +kernel
  · intro ea ra eb rb hea heb _
    rcases belowThousand_mem with ⟨gap, hmem, hleft, hright⟩
    refine ⟨gap, hmem, ?_, ?_⟩
    · rw [hleft]
      exact (Extraction.pair_unique unitRevocation_independent hea).1.symm
    · rw [hright]
      exact (Extraction.pair_unique unitRevocation_independent heb).1.symm

end Example

end Ebut
