import Ebut.Core.NonMembership
import Ebut.Theory.Gap
import Ebut.Theory.Honest
import Ebut.Theory.V3BatchedEq

/-!
# Honest Non-Membership Proofs

The prover fails only when the value is not inside the gap or the range prover fails, and
what it returns otherwise is accepted for the commitments to the value, on any bases. The
differences are computed on integers and committed to with differences of blinders; the
verifier computes their commitments from the others, with the base of the values in the
place of the one that the gap is open by.

A proof for one value that is shown for a commitment to another, with the same blinder, is
another matter: it is accepted when two hashes over different statements balance out.

## Main definitions

* `AggregationComplete`: The aggregated range proofs are complete.

## Theorems

* `createNonMembershipProof_ok`: What the prover returns.
* `createNonMembershipProof_accepted`: It is accepted.
* `challengedValue_eq_of_accepted`: When it is accepted for another value.
-/

namespace Ebut

open V3Zkp

variable {P G1 G2 GT R : Type} [AddCommGroup G1] [Module Scalar G1] [AddCommGroup G2]
  [Module Scalar G2] [AddCommGroup GT] [Module Scalar GT] [AddCommGroup R] [Module DalekScalar R]

/-- Whatever power of two of values is within the range asked for and the generators, the
prover returns a proof that is accepted for their commitments. -/
def AggregationComplete (dalek : Dalek R) (ranges : RangeProofs P R)
    (proveMultiple : ProveMultiple P R) : Prop :=
  ∀ (gens : BulletproofGens) (pc : PedersenGens R) (transcript : Transcript)
    (values : List UInt64) (blindings : List DalekScalar) (bits : ℕ),
    values.length = blindings.length → (∃ k, values.length = 2 ^ k) →
    values.length ≤ gens.partyCapacity → bits ∈ [8, 16, 32, 64] → bits ≤ gens.gensCapacity →
    (∀ v ∈ values, v.toNat < 2 ^ bits) →
    ∃ proof, proveMultiple gens pc transcript values blindings bits = .ok proof ∧
      ranges.verifyMultiple proof gens pc transcript (List.zipWith (fun v r =>
        dalek.compress ((v.toNat : DalekScalar) • pc.b + r • pc.bBlinding)) values blindings) bits =
          .ok ()

section Differences

/-- The distance to an end of the gap, less one. -/
theorem checkedSub_pred {a b : UInt64} (hlt : b < a) :
    ((checkedSub a b).bind fun d => checkedSub d 1) = some (a - b - 1) ∧
      (a - b - 1).toNat + b.toNat + 1 = a.toNat := by
  have hnat : b.toNat < a.toNat := UInt64.lt_iff_toNat_lt.mp hlt
  have hdiff := UInt64.toNat_sub_of_le a b (UInt64.le_iff_toNat_le.mpr hnat.le)
  have hone : (1 : UInt64).toNat = 1 := rfl
  have hle : 1 ≤ a - b := by
    rw [UInt64.le_iff_toNat_le, hdiff, hone]
    omega
  refine ⟨?_, ?_⟩
  · rw [checkedSub_of_le (UInt64.le_iff_toNat_le.mpr hnat.le)]
    exact checkedSub_of_le hle
  · rw [UInt64.toNat_sub_of_le _ _ hle, hdiff, hone]
    omega

/-- The number of bits chosen holds both differences, and there are generators for it. -/
theorem revRangeBits_spec (diff1 diff2 : UInt64) :
    revRangeBits diff1 diff2 ∈ [8, 16, 32, 64] ∧
      (∀ v ∈ [diff1, diff2], v.toNat < 2 ^ revRangeBits diff1 diff2) ∧
      revRangeBits diff1 diff2 ≤ (revBpGens (revRangeBits diff1 diff2)).gensCapacity ∧
      (revBpGens (revRangeBits diff1 diff2)).partyCapacity = 2 := by
  have h1 := diff1.toNat_lt
  have h2 := diff2.toNat_lt
  unfold revRangeBits
  by_cases hsmall : diff1.toNat ≤ 4294967295 ∧ diff2.toNat ≤ 4294967295
  · rw [if_pos hsmall]
    refine ⟨by simp, ?_, le_refl 32, rfl⟩
    simp only [List.forall_mem_cons, List.not_mem_nil, false_implies, implies_true, and_true]
    omega
  · rw [if_neg hsmall]
    refine ⟨by simp, ?_, le_refl 64, rfl⟩
    simp only [List.forall_mem_cons, List.not_mem_nil, false_implies, implies_true, and_true]
    omega

variable (sha : Sha2) (dalek : Dalek R)

/-- The commitment to a difference is the one computed from the others. -/
theorem ristrettoCommit_sub {a b d : UInt64} (hd : d.toNat + b.toNat + 1 = a.toNat)
    (r s : DalekScalar) :
    ristrettoCommit sha dalek a r - ristrettoCommit sha dalek b s - ristrettoGv sha dalek =
      ristrettoCommit sha dalek d (r - s) := by
  unfold ristrettoCommit
  rw [← hd]
  push_cast
  module

end Differences

section Prover

variable (sha : Sha2) (bls : Blstrs G1 G2 GT) (dalek : Dalek R) (coins : NonMembershipCoins P R)
  {e ea eb : UInt64} (r1E : DalekScalar) (r2E : Scalar) (pk : RevocationPublicKey G2)
  (sigma : G1 × G1) (r2Ea r2Eb : Scalar) (r1Ea r1Eb : DalekScalar) (gapCtx : Scalar)
  (valueBase blindBase : G1)

/-- The gap proof that the prover makes. -/
def honestGap (ea eb : UInt64) : GapProof G1 GT :=
  GapProof.prove sha bls ea eb r2Ea r2Eb sigma.1 sigma.2 coins.t gapCtx pk valueBase blindBase
    coins.rEa coins.rRa coins.rEb coins.rRb

/-- The statement that the prover makes the equality proof for. -/
def honestStatement (e ea eb : UInt64) : PublicStatement G1 R :=
  ⟨ristrettoCommit sha dalek e r1E, Scalar.ofU64 e • valueBase + r2E • blindBase,
    ristrettoCommit sha dalek ea r1Ea, Scalar.ofU64 ea • valueBase + r2Ea • blindBase,
    ristrettoCommit sha dalek eb r1Eb, Scalar.ofU64 eb • valueBase + r2Eb • blindBase⟩

/-- The proof that the prover puts together, with the range proof it was given. -/
def honestNonMembership (e ea eb : UInt64) (rangeProof : P) : NonMembershipProof P G1 GT R where
  comEaRist := ristrettoCommit sha dalek ea r1Ea
  comEbRist := ristrettoCommit sha dalek eb r1Eb
  batchedEqProof := BatchedEqualityProof.prove sha bls dalek
    ⟨e, ea, eb, r1E, r2E, r1Ea, r2Ea, r1Eb, r2Eb⟩
    (honestStatement sha dalek r1E r2E r2Ea r2Eb r1Ea r1Eb valueBase blindBase e ea eb) valueBase
    blindBase coins.equality
  gapProof := honestGap sha bls coins pk sigma r2Ea r2Eb gapCtx valueBase blindBase ea eb
  aggregatedRangeProof := rangeProof
  comDiff1 := ristrettoCommit sha dalek (e - ea - 1) (r1E - r1Ea)
  comDiff2 := ristrettoCommit sha dalek (eb - e - 1) (r1Eb - r1E)
  rangeBits := revRangeBits (e - ea - 1) (eb - e - 1)

/-- The range part succeeds when the range prover does. -/
theorem rangePart_ok (hleft : ea < e) (hright : e < eb) {rangeProof : P} {com1 com2 : R}
    {bits : ℕ} :
    rangePart sha dalek coins e r1E (ea, eb) r1Ea r1Eb = .ok (rangeProof, com1, com2, bits) ↔
      coins.proveMultiple (revBpGens (revRangeBits (e - ea - 1) (eb - e - 1)))
        (revPcGens sha dalek) aggregatedDiffs [e - ea - 1, eb - e - 1] [r1E - r1Ea, r1Eb - r1E]
        (revRangeBits (e - ea - 1) (eb - e - 1)) = .ok rangeProof ∧
      ristrettoCommit sha dalek (e - ea - 1) (r1E - r1Ea) = com1 ∧
      ristrettoCommit sha dalek (eb - e - 1) (r1Eb - r1E) = com2 ∧
      revRangeBits (e - ea - 1) (eb - e - 1) = bits := by
  unfold rangePart
  -- neither subtraction underflows for a value inside the gap
  simp only [(checkedSub_pred hleft).1, (checkedSub_pred hright).1, okOr_bind_ok,
    Option.some.injEq, exists_eq_left']
  simp only [bind_ok, mapError_ok]
  constructor
  · rintro ⟨given, hgiven, hok⟩
    cases hok
    exact ⟨hgiven, rfl, rfl, rfl⟩
  · rintro ⟨hgiven, rfl, rfl, rfl⟩
    exact ⟨rangeProof, hgiven, rfl⟩

/-- For a value inside the gap the prover returns what it puts together, as soon as it is
given a range proof. -/
theorem createNonMembershipProof_ok (hleft : ea < e) (hright : e < eb)
    {proof : NonMembershipProof P G1 GT R} :
    createNonMembershipProofTimedWithContextAndBases sha bls dalek coins e r1E r2E pk (ea, eb) sigma
        r2Ea r2Eb r1Ea r1Eb gapCtx valueBase blindBase = .ok proof ↔
      ∃ rangeProof, coins.proveMultiple (revBpGens (revRangeBits (e - ea - 1) (eb - e - 1)))
          (revPcGens sha dalek) aggregatedDiffs [e - ea - 1, eb - e - 1] [r1E - r1Ea, r1Eb - r1E]
          (revRangeBits (e - ea - 1) (eb - e - 1)) = .ok rangeProof ∧
        proof = honestNonMembership sha bls dalek coins r1E r2E pk sigma r2Ea r2Eb r1Ea r1Eb gapCtx
          valueBase blindBase e ea eb rangeProof := by
  unfold createNonMembershipProofTimedWithContextAndBases
  simp only [bind_ok]
  constructor
  · rintro ⟨⟨rangeProof, com1, com2, bits⟩, hrange, hok⟩
    rcases (rangePart_ok sha dalek coins r1E r1Ea r1Eb hleft hright).mp hrange with
      ⟨hprove, rfl, rfl, rfl⟩
    exact ⟨rangeProof, hprove, (Except.ok.inj hok).symm⟩
  · rintro ⟨rangeProof, hprove, rfl⟩
    exact ⟨_, (rangePart_ok sha dalek coins r1E r1Ea r1Eb hleft hright).mpr
      ⟨hprove, rfl, rfl, rfl⟩, rfl⟩

variable {sha bls dalek coins r1E r2E sigma r2Ea r2Eb r1Ea r1Eb gapCtx valueBase blindBase}
  {sk : RevocationSecretKey} {ranges : RangeProofs P R}

theorem honestStatement_opens :
    OpensStatementTo sha dalek valueBase blindBase ⟨e, ea, eb, r1E, r2E, r1Ea, r2Ea, r1Eb, r2Eb⟩
      (honestStatement sha dalek r1E r2E r2Ea r2Eb r1Ea r1Eb valueBase blindBase e ea eb) :=
  ⟨rfl, rfl, rfl, rfl, rfl, rfl⟩

variable [DecidableEq G1] [DecidableEq GT] [DecidableEq R]

/-- The prover succeeds, and its proof is accepted for the commitments to the value. -/
theorem createNonMembershipProof_accepted (hleft : ea < e) (hright : e < eb)
    (hsigma : sigma.2 = sk.exponent (Scalar.ofU64 ea) (Scalar.ofU64 eb) gapCtx • sigma.1)
    (hcomplete : AggregationComplete dalek ranges coins.proveMultiple) :
    ∃ proof, createNonMembershipProofTimedWithContextAndBases sha bls dalek coins e r1E r2E
        (sk.publicKey bls) (ea, eb) sigma r2Ea r2Eb r1Ea r1Eb gapCtx valueBase blindBase =
          .ok proof ∧
      verifyNonMembershipProofTimedWithContextAndBases sha bls dalek ranges proof
        (sk.publicKey bls) (ristrettoCommit sha dalek e r1E)
        (Scalar.ofU64 e • valueBase + r2E • blindBase) gapCtx valueBase blindBase = true := by
  rcases revRangeBits_spec (e - ea - 1) (eb - e - 1) with ⟨hbits, hvalues, hgens, hparties⟩
  rcases hcomplete (revBpGens (revRangeBits (e - ea - 1) (eb - e - 1))) (revPcGens sha dalek)
    aggregatedDiffs [e - ea - 1, eb - e - 1] [r1E - r1Ea, r1Eb - r1E]
    (revRangeBits (e - ea - 1) (eb - e - 1)) rfl ⟨1, rfl⟩ hparties.ge hbits hgens hvalues with
    ⟨rangeProof, hprove, hrange⟩
  refine ⟨_, (createNonMembershipProof_ok sha bls dalek coins r1E r2E (sk.publicKey bls) sigma
    r2Ea r2Eb r1Ea r1Eb gapCtx valueBase blindBase hleft hright).mpr ⟨rangeProof, hprove, rfl⟩, ?_⟩
  -- the two commitments to the differences are recomputed from those to the values
  refine verifyNonMembershipProof_iff.mpr ⟨?_, ?_, ⟨?_, ?_⟩, hrange⟩
  · exact verify_prove sha bls dalek valueBase blindBase honestStatement_opens coins.equality
  · exact gapVerify_prove sha hsigma r2Ea r2Eb coins.t coins.rEa coins.rRa coins.rEb coins.rRb
  · exact ristrettoCommit_sub sha dalek (checkedSub_pred hleft).2 r1E r1Ea
  · exact ristrettoCommit_sub sha dalek (checkedSub_pred hright).2 r1Eb r1E

end Prover

section OtherValue

variable {sha : Sha2} {bls : Blstrs G1 G2 GT} {dalek : Dalek R} {coins : NonMembershipCoins P R}
  {e ea eb : UInt64} {r1E : DalekScalar} {r2E : Scalar} {pk : RevocationPublicKey G2}
  {sigma : G1 × G1} {r2Ea r2Eb : Scalar} {r1Ea r1Eb : DalekScalar} {gapCtx : Scalar}
  {valueBase blindBase : G1} {rangeProof : P} [DecidableEq G1] [DecidableEq GT] [DecidableEq R]

/-- The proof for one value is accepted for a commitment to another with the same blinder
only if the two statements are asked for the same value. -/
theorem challengedValue_eq_of_accepted (hindep : LinearIndependent Scalar ![valueBase, blindBase])
    {proof : NonMembershipProof P G1 GT R}
    (hproof : proof = honestNonMembership sha bls dalek coins r1E r2E pk sigma r2Ea r2Eb r1Ea r1Eb
      gapCtx valueBase blindBase e ea eb rangeProof) {ranges : RangeProofs P R} {shown : UInt64}
    (haccepted : verifyNonMembershipProofTimedWithContextAndBases sha bls dalek ranges proof pk
      (ristrettoCommit sha dalek e r1E) (Scalar.ofU64 shown • valueBase + r2E • blindBase) gapCtx
      valueBase blindBase = true) :
    (challengedValue sha bls dalek proof.batchedEqProof (proof.statement
        (ristrettoCommit sha dalek e r1E) (Scalar.ofU64 e • valueBase + r2E • blindBase)) e ea eb :
          Scalar) =
      challengedValue sha bls dalek proof.batchedEqProof (proof.statement
        (ristrettoCommit sha dalek e r1E) (Scalar.ofU64 shown • valueBase + r2E • blindBase))
        shown ea eb := by
  have hverify := (verifyNonMembershipProof_iff.mp haccepted).1
  subst hproof
  exact challenged_eq_of_accepted sha bls dalek valueBase blindBase hindep rfl rfl rfl hverify

end OtherValue

end Ebut
