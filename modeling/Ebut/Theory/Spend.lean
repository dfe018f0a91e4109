import Ebut.Core.Spend
import Ebut.Theory.Token

/-!
# What an Accepted Spend Proves

The three group equations of the spend verifier, against a client that holds a
genuine token and chooses everything else. The challenge weighs the four
relations folded into the combined equation and also scales the responses, so
the coefficient of one relation absorbs what the next one leaves over: the
first message of a relation is fixed before the challenge, and the relation
before it contributes to the same power.

What survives is read off with `coeff_mem`. The responses in `z_x` and `z_E`
are affine, because the two bridges stand alone; the combined equation is then a
polynomial of degree four modulo the span of `h0`, `h2` and `h3`, and only its
top coefficient involves no free first message. It says that `c_bp` lies in that
span. Together with the bridges this is `SpendPresentable`, and
`forgedStrategy` shows that nothing more follows: every statement of that shape
is accepted at every challenge, whatever serial, epoch, expiry and refund
commitment it names.

## Main definitions

* `SpendStatement`: The fields of a proof that state something.
* `SpendStrategy`: First messages, and responses depending on the challenge.
* `SpendStrategy.proofAt`: The proof the strategy sends at a challenge.
* `SpendAcceptedOn`: Acceptance at every challenge of a set.
* `SpendPresentable`: The shape of an acceptable statement.
* `forgedStrategy`: A strategy for any statement of that shape.

## Theorems

* `presentable_of_accepted`: Acceptance forces the shape.
* `forgedStrategy_accepts`: The shape suffices at every challenge.
* `forged_verifySpend`: The forged proof passes the whole verifier.
* `spend_discloses_token_iff`: When disclosed attributes are the token's.
* `refund_carries_state_iff`: When the refund commitment carries the state.
-/

namespace Ebut

open Extraction

variable {G1 G2 GT R : Type} [AddCommGroup G1] [Module Scalar G1]

/-- What a spend states: the disclosed attributes, the commitments, and the two
range proofs that are hashed with them. -/
structure SpendStatement (G1 : Type) where
  s : UInt32
  kCur : Scalar
  tIssue : UInt32
  eMax : UInt64
  kPrime : G1
  cBp : G1
  cDelta : G1
  xBlsCommitment : G1
  batchedEq : BatchedEqualityProof
  expiryEq : BatchedEqualityProof

/-- The first messages, fixed before the challenge. -/
structure SpendFirst (G1 : Type) where
  tBbs : G1
  tScaleT : G1
  tTotal : G1
  tScaleR : G1
  tRefund : G1
  tScaleBp : G1
  tBp : G1
  tScaleX : G1
  tX : G1
  tScaleExp : G1
  tExp : G1

/-- The responses that the showing of the token leaves free. -/
structure SpendFree where
  zSTilde : Scalar
  zXTilde : Scalar
  zCTilde : Scalar
  zETilde : Scalar
  zU : Scalar
  zV : Scalar
  zW : Scalar
  zRX : Scalar
  zRDelta : Scalar

/-- A cheating client: first messages, and responses chosen after the challenge. -/
structure SpendStrategy (G1 : Type) where
  first : SpendFirst G1
  respond : Scalar → SpendFree

variable {generators : Generators G1 G2} {sk : Scalar}

/-- The proof sent at challenge `c` by a client that shows `token` as `poss`
says. The pairing check is `A_bar = sk * A'`. -/
def SpendStrategy.proofAt (strategy : SpendStrategy G1) (token : DailyToken generators sk)
    (poss : Possession) (st : SpendStatement G1) (c : Scalar) : SpendProof G1 where
  aPrime := poss.r1 • token.a
  aBar := sk • poss.r1 • token.a
  tBbs := strategy.first.tBbs
  tScaleT := strategy.first.tScaleT
  tTotal := strategy.first.tTotal
  tScaleR := strategy.first.tScaleR
  tRefund := strategy.first.tRefund
  tScaleBp := strategy.first.tScaleBp
  tBp := strategy.first.tBp
  zE := poss.rhoE + c * token.e
  zR1 := poss.rhoR + c * poss.r1
  zSTilde := (strategy.respond c).zSTilde
  zXTilde := (strategy.respond c).zXTilde
  zCTilde := (strategy.respond c).zCTilde
  zETilde := (strategy.respond c).zETilde
  zU := (strategy.respond c).zU
  zV := (strategy.respond c).zV
  zW := (strategy.respond c).zW
  batchedEq := st.batchedEq
  s := st.s
  kCur := st.kCur
  tIssue := st.tIssue
  kPrime := st.kPrime
  cBp := st.cBp
  eMax := st.eMax
  xBlsCommitment := st.xBlsCommitment
  tScaleX := strategy.first.tScaleX
  tX := strategy.first.tX
  zRX := (strategy.respond c).zRX
  cDelta := st.cDelta
  expiryEq := st.expiryEq
  tScaleExp := strategy.first.tScaleExp
  tExp := strategy.first.tExp
  zRDelta := (strategy.respond c).zRDelta

/-- The x bridge, the expiry bridge and the combined check accept at every
challenge of the set. -/
def SpendAcceptedOn (token : DailyToken generators sk) (poss : Possession)
    (st : SpendStatement G1) (nowUnix : UInt64) (challenges : ChallengeSet)
    (strategy : SpendStrategy G1) : Prop :=
  ∀ c ∈ challenges.challenges,
    SpendAccepts generators nowUnix c (strategy.proofAt token poss st c)

/-- The commitments are Pedersen commitments over the bases they are meant for,
`c_bp` with an arbitrary part in `h2`. -/
def SpendPresentable (generators : Generators G1 G2) (st : SpendStatement G1) : Prop :=
  st.xBlsCommitment ∈ Submodule.span Scalar {generators.h 1, generators.h 0} ∧
    st.cDelta ∈ Submodule.span Scalar {generators.h 5, generators.h 0} ∧
    st.cBp ∈ Submodule.span Scalar {generators.h 0, generators.h 2, generators.h 3}

section Forward

variable {token : DailyToken generators sk} {poss : Possession} {st : SpendStatement G1}
  {nowUnix : UInt64} {challenges : ChallengeSet} {strategy : SpendStrategy G1}

/-- The x bridge makes `z_x` affine in the challenge. -/
theorem xBridge_affine (hind : LinearIndependent Scalar generators.points)
    (hacc : SpendAcceptedOn token poss st nowUnix challenges strategy) :
    ∃ ξ ξ' τ : Scalar, st.xBlsCommitment = ξ • generators.h 1 + ξ' • generators.h 0 ∧
      ∀ c ∈ challenges.challenges,
        (strategy.respond c).zXTilde = τ + c * (poss.r1 * ξ) :=
  bridge_affine hind (by decide) fun c hc => (hacc c hc).1

/-- The expiry bridge makes `z_E` affine in the challenge. -/
theorem expiryBridge_affine (hind : LinearIndependent Scalar generators.points)
    (hacc : SpendAcceptedOn token poss st nowUnix challenges strategy) :
    ∃ ε ε' τ : Scalar, st.cDelta + Scalar.ofU64 nowUnix • generators.h 5 =
        ε • generators.h 5 + ε' • generators.h 0 ∧
      ∀ c ∈ challenges.challenges,
        (strategy.respond c).zETilde = τ + c * (poss.r1 * ε) :=
  bridge_affine hind (by decide) fun c hc => (hacc c hc).2.1

/-- The top coefficient of the combined equation: `c_bp` lies in the span of the
bases whose responses occur nowhere else. -/
theorem cBp_mem_of_accepted (hind : LinearIndependent Scalar generators.points)
    (hacc : SpendAcceptedOn token poss st nowUnix challenges strategy) :
    st.cBp ∈ Submodule.span Scalar {generators.h 0, generators.h 2, generators.h 3} := by
  rcases xBridge_affine hind hacc with ⟨ξ, _, τ, _, hzx⟩
  rcases expiryBridge_affine hind hacc with ⟨ε, _, υ, _, hze⟩
  let ti := Scalar.ofU32 st.tIssue
  let total := st.kPrime + Scalar.ofU32 st.s • generators.h 3
  let aPrime := poss.r1 • token.a
  -- the combined equation by powers of the challenge, the free bases left out
  let P : Fin 5 → G1 := ![
    τ • generators.h 1 + (ti * poss.rhoR) • generators.h 4 + υ • generators.h 5 +
      poss.rhoR • generators.g1 - poss.rhoE • aPrime - strategy.first.tBbs,
    (τ + poss.r1 * ξ) • generators.h 1 + (ti * (poss.rhoR + poss.r1)) • generators.h 4 +
      (υ + poss.r1 * ε) • generators.h 5 + poss.r1 • generators.g1 - token.e • aPrime -
      sk • aPrime - poss.rhoR • total - strategy.first.tTotal + strategy.first.tScaleT,
    (τ + poss.r1 * ξ) • generators.h 1 + (ti * (poss.rhoR + poss.r1)) • generators.h 4 +
      (υ + poss.r1 * ε) • generators.h 5 - poss.r1 • total - poss.rhoR • st.kPrime -
      strategy.first.tRefund + strategy.first.tScaleR,
    (poss.r1 * ξ) • generators.h 1 + (ti * poss.r1) • generators.h 4 +
      (poss.r1 * ε) • generators.h 5 - poss.r1 • st.kPrime - poss.rhoR • st.cBp -
      strategy.first.tBp + strategy.first.tScaleBp,
    -(poss.r1 • st.cBp)]
  have hmem : P 4 ∈ Submodule.span Scalar {generators.h 0, generators.h 2, generators.h 3} := by
    -- four is the degree: the weight of the fourth relation times the challenge in `z_r1`
    refine coeff_mem _ P challenges.five_le ?_ 4
    intro c hc
    have hcomb := (hacc c hc).2.2
    rw [spendCombined_eq] at hcomb
    simp only [SpendStrategy.proofAt, hzx c hc, hze c hc, cTotal] at hcomb
    -- what the free responses contribute, which is all that the equation leaves of the curve
    refine Submodule.mem_span_triple.mpr
      ⟨-((c + c ^ 2) * (strategy.respond c).zV + c ^ 3 * (strategy.respond c).zW +
          (strategy.respond c).zSTilde),
        -((c + c ^ 2) * (strategy.respond c).zU + st.kCur * (poss.rhoR + c * poss.r1)),
        -((1 + c + c ^ 2 + c ^ 3) * (strategy.respond c).zCTilde -
          (c ^ 2 + c ^ 3) * (Scalar.ofU32 st.s * (poss.rhoR + c * poss.r1))), ?_⟩
    rw [← sub_eq_zero, ← neg_eq_zero]
    refine Eq.trans ?_ hcomb
    rw [curve_five]
    simp only [P, ti, total, aPrime, Matrix.cons_val]
    module
  have hneg : -(poss.r1 • st.cBp) ∈
      Submodule.span Scalar {generators.h 0, generators.h 2, generators.h 3} := hmem
  -- the randomisation of the token is not zero, so it divides out
  exact (Submodule.smul_mem_iff _ poss.r1_ne).mp ((Submodule.neg_mem_iff _).mp hneg)

/-- Acceptance at five challenges forces the shape of the statement. -/
theorem presentable_of_accepted (hind : LinearIndependent Scalar generators.points)
    (hacc : SpendAcceptedOn token poss st nowUnix challenges strategy) :
    SpendPresentable generators st := by
  rcases xBridge_affine hind hacc with ⟨ξ, ξ', _, hX, _⟩
  rcases expiryBridge_affine hind hacc with ⟨ε, ε', _, hE, _⟩
  refine ⟨Submodule.mem_span_pair.mpr ⟨ξ, ξ', hX.symm⟩, ?_, cBp_mem_of_accepted hind hacc⟩
  refine Submodule.mem_span_pair.mpr ⟨ε - Scalar.ofU64 nowUnix, ε', ?_⟩
  -- the bridge shifts the commitment by a multiple of its own base
  rw [eq_sub_of_add_eq hE]
  module

end Forward

/-- Openings of the commitments of a presentable statement. -/
structure SpendOpenings (generators : Generators G1 G2) (nowUnix : UInt64)
    (st : SpendStatement G1) where
  x : Scalar
  rX : Scalar
  eMax : Scalar
  rDelta : Scalar
  b0 : Scalar
  b2 : Scalar
  b3 : Scalar
  x_eq : st.xBlsCommitment = x • generators.h 1 + rX • generators.h 0
  delta_eq : st.cDelta + Scalar.ofU64 nowUnix • generators.h 5 =
    eMax • generators.h 5 + rDelta • generators.h 0
  bp_eq : st.cBp = b0 • generators.h 0 + b2 • generators.h 2 + b3 • generators.h 3

theorem SpendPresentable.openings {st : SpendStatement G1}
    (hst : SpendPresentable generators st) (nowUnix : UInt64) :
    Nonempty (SpendOpenings generators nowUnix st) := by
  rcases hst with ⟨hx, hdelta, hbp⟩
  rcases Submodule.mem_span_pair.mp hx with ⟨x, rX, hx⟩
  rcases Submodule.mem_span_pair.mp hdelta with ⟨d, rDelta, hdelta⟩
  rcases Submodule.mem_span_triple.mp hbp with ⟨b0, b2, b3, hbp⟩
  refine ⟨⟨x, rX, d + Scalar.ofU64 nowUnix, rDelta, b0, b2, b3, hx.symm, ?_, hbp.symm⟩⟩
  rw [← hdelta]
  module

section Forgery

variable (token : DailyToken generators sk) (poss : Possession) (st : SpendStatement G1)
  {nowUnix : UInt64} (o : SpendOpenings generators nowUnix st) (σ : Scalar)

/-- The part of the first messages that the three shared responses contribute. -/
def forgedShared : G1 :=
  o.x • generators.h 1 + Scalar.ofU32 st.tIssue • generators.h 4 + o.eMax • generators.h 5

/-- First messages that absorb, power by power, what the relation before them
leaves over. The shared responses are multiples of `z_r1`, as for a token with
the attributes the statement claims. -/
def forgedFirst : SpendFirst G1 where
  tBbs := poss.rhoR • forgedShared st o + (st.kCur * poss.rhoR) • generators.h 2 +
    (poss.rhoR * (o.b3 + Scalar.ofU32 st.s)) • generators.h 3 + poss.rhoR • generators.g1 -
    poss.rhoE • poss.r1 • token.a + σ • generators.h 0
  tScaleT := 0
  tTotal := (poss.rhoR + poss.r1) • forgedShared st o +
    (poss.r1 * o.b2 + st.kCur * poss.r1) • generators.h 2 +
    ((poss.rhoR + poss.r1) * (o.b3 + Scalar.ofU32 st.s)) • generators.h 3 +
    poss.r1 • generators.g1 - token.e • poss.r1 • token.a - sk • poss.r1 • token.a -
    poss.rhoR • (st.kPrime + Scalar.ofU32 st.s • generators.h 3)
  tScaleR := 0
  tRefund := (poss.rhoR + poss.r1) • forgedShared st o +
    (poss.rhoR * o.b3 + poss.r1 * (o.b3 + Scalar.ofU32 st.s)) • generators.h 3 -
    poss.r1 • (st.kPrime + Scalar.ofU32 st.s • generators.h 3) - poss.rhoR • st.kPrime
  tScaleBp := 0
  tBp := poss.r1 • forgedShared st o + (poss.r1 * o.b3) • generators.h 3 -
    poss.r1 • st.kPrime - (poss.rhoR * o.b2) • generators.h 2
  tScaleX := 0
  tX := 0
  tScaleExp := 0
  tExp := 0

/-- The responses at challenge `c`. The one in `z_u` is quadratic in the
challenge: it cancels the part of `c_bp` in `h2` at the fourth power. -/
def forgedRespond (c : Scalar) : SpendFree where
  zSTilde := σ
  zXTilde := (poss.rhoR + c * poss.r1) * o.x
  zCTilde := (poss.rhoR + c * poss.r1) * (o.b3 + Scalar.ofU32 st.s)
  zETilde := (poss.rhoR + c * poss.r1) * o.eMax
  zU := poss.r1 * o.b2 * (c ^ 2 - c + 1)
  zV := 0
  zW := (poss.rhoR + c * poss.r1) * o.b0
  zRX := (poss.rhoR + c * poss.r1) * o.rX
  zRDelta := (poss.rhoR + c * poss.r1) * o.rDelta

/-- A strategy for a statement whose commitments open. -/
def forgedStrategy : SpendStrategy G1 where
  first := forgedFirst token poss st o σ
  respond := forgedRespond poss st o σ

theorem forgedStrategy_accepts (c : Scalar) :
    SpendAccepts generators nowUnix c
      ((forgedStrategy token poss st o σ).proofAt token poss st c) := by
  refine ⟨?_, ?_, ?_⟩
  · simp only [xBridgeHolds, SpendStrategy.proofAt, forgedStrategy, forgedFirst, forgedRespond]
    rw [o.x_eq]
    module
  · simp only [expiryBridgeHolds, spendEmaxBlsCommitment, SpendStrategy.proofAt, forgedStrategy,
      forgedFirst, forgedRespond]
    rw [o.delta_eq]
    module
  · rw [spendCombined_eq]
    simp only [SpendStrategy.proofAt, forgedStrategy, forgedFirst, forgedRespond, forgedShared,
      cTotal]
    rw [o.bp_eq]
    module

/-- One of the two values `0`, `1` of `σ` keeps the first message of the
possession relation away from the identity, which the verifier rejects. -/
theorem exists_forged_tBbs_ne_zero (hind : LinearIndependent Scalar generators.points) :
    ∃ σ, (forgedFirst token poss st o σ).tBbs ≠ 0 := by
  refine exists_ne_zero hind ?_
  simp only [forgedFirst]
  module

end Forgery

section Verifier

variable [AddCommGroup G2] [Module Scalar G2] [AddCommGroup GT] [Module Scalar GT]
  [AddCommGroup R] [Module DalekScalar R] [DecidableEq G1] [DecidableEq GT]

/-- The whole verifier signs a refund for a forged proof whose range proofs
verify: the challenge is computed from the first messages, and the responses
answer whatever it turns out to be. -/
theorem forged_verifySpend (sha : Sha2) (bls : Blstrs G1 G2 GT) (dalek : Dalek R)
    {generators : Generators G1 G2} (keys : ServerKeys generators)
    (token : DailyToken generators keys.skDaily) (poss : Possession) (st : SpendStatement G1)
    {nowUnix : UInt64} (o : SpendOpenings generators nowUnix st) (nonce : Bytes 16)
    (pkDaily : G2) (hCtx eRefund sPrimeRefund : Scalar)
    (hind : LinearIndependent Scalar generators.points) (ha : token.a ≠ 0) (hs : st.s ≠ 0)
    (hdenom : eRefund + keys.skDaily ≠ 0) :
    ∃ σ c, let proof := (forgedStrategy token poss st o σ).proofAt token poss st c
      verifyBatchedEquality sha bls dalek proof.batchedEq proof.cBp (generators.h 3)
          (generators.h 0) (spendBeqCtx hCtx nowUnix nonce proof)
          [proof.aPrime, proof.aBar, proof.tBbs, proof.kPrime, cTotal generators proof,
            proof.xBlsCommitment, proof.cDelta] = .ok () →
        verifyBatchedEquality sha bls dalek proof.expiryEq proof.cDelta (generators.h 5)
          (generators.h 0) (spendExpiryCtx hCtx nowUnix nonce proof)
          [proof.aPrime, proof.aBar, proof.tBbs, proof.kPrime, proof.cDelta,
            proof.xBlsCommitment] = .ok () →
        ∃ response, verifySpend sha bls dalek proof st.tIssue nowUnix nonce generators pkDaily
          keys hCtx eRefund sPrimeRefund = .ok response := by
  rcases exists_forged_tBbs_ne_zero token poss st o hind with ⟨σ, htBbs⟩
  let strategy := forgedStrategy token poss st o σ
  let c := spendChallenge sha bls generators hCtx pkDaily nowUnix nonce
    (strategy.proofAt token poss st 0)
  refine ⟨σ, c, fun hbeq hexpiry => ⟨?_, ?_⟩⟩
  · exact
      { aRefund := (eRefund + keys.skDaily)⁻¹ •
          g1Msm [generators.g1, st.kPrime, generators.h 0] [(1 : Scalar), 1, sPrimeRefund]
        eRefund := eRefund
        sPrimeRefund := sPrimeRefund }
  -- no response enters the transcript, so the challenge is the one answered
  have hc : spendChallenge sha bls generators hCtx pkDaily nowUnix nonce
      (strategy.proofAt token poss st c) = c := rfl
  have hbefore : spendChecksBefore st.tIssue (strategy.proofAt token poss st c) = .ok () := by
    have haPrime : poss.r1 • token.a ≠ 0 := smul_ne_zero poss.r1_ne ha
    simp only [spendChecksBefore, rejectIf_bind_ok, rejectIf_ok, not_and, not_or]
    exact ⟨hs, fun h => absurd rfl h, haPrime, htBbs⟩
  -- whatever the challenge is, the responses answer it
  have hchecks : spendChecksAt generators nowUnix c (strategy.proofAt token poss st c) = .ok () :=
    (spendChecksAt_ok _ _ _ _).mpr (forgedStrategy_accepts token poss st o σ c)
  have hproofs : spendProofsHold sha bls dalek generators keys hCtx nowUnix nonce
      (strategy.proofAt token poss st c) = .ok () := by
    unfold spendProofsHold
    rw [bind_unit_ok, bind_unit_ok]
    refine ⟨hbeq, hexpiry, ?_⟩
    rw [rejectIf_ok]
    exact (Bool.not_eq_false _).mpr (pairing_of_shown bls keys.pkDaily_eq (poss.r1 • token.a))
  show (spendChecksBefore st.tIssue (strategy.proofAt token poss st c) >>= _) = _
  rw [bind_unit_ok]
  refine ⟨hbefore, ?_⟩
  simp only
  rw [hc, bind_unit_ok]
  refine ⟨hchecks, ?_⟩
  rw [bind_unit_ok]
  refine ⟨hproofs, ?_⟩
  simp only [issueOn, rejectIf, if_neg hdenom]
  rfl

end Verifier

/-- What the two range proofs establish: the commitments open to 64-bit values
over their own bases. -/
def SpendRangesSound (generators : Generators G1 G2) (st : SpendStatement G1) : Prop :=
  (∃ (m : ℕ) (r : Scalar), m < 2 ^ 64 ∧
    st.cBp = (m : Scalar) • generators.h 3 + r • generators.h 0) ∧
  ∃ (d : ℕ) (r : Scalar), d < 2 ^ 64 ∧
    st.cDelta = (d : Scalar) • generators.h 5 + r • generators.h 0

theorem SpendRangesSound.presentable {st : SpendStatement G1}
    (hrange : SpendRangesSound generators st)
    (hx : st.xBlsCommitment ∈ Submodule.span Scalar {generators.h 1, generators.h 0}) :
    SpendPresentable generators st := by
  rcases hrange with ⟨⟨m, r, _, hm⟩, d, r', _, hd⟩
  refine ⟨hx, Submodule.mem_span_pair.mpr ⟨d, r', hd.symm⟩,
    Submodule.mem_span_triple.mpr ⟨r, 0, m, ?_⟩⟩
  rw [hm]
  module

/-- The disclosed serial, epoch and expiry are those of the token. -/
def SpendDiscloses (token : DailyToken generators sk) (st : SpendStatement G1) : Prop :=
  st.kCur = token.k ∧ Scalar.ofU32 st.tIssue = token.t ∧ Scalar.ofU64 st.eMax = token.eMax

/-- The refund commitment, the balance commitment and the two bridged
commitments carry the token's attributes, the balance lowered by the amount. -/
def RefundCarries (token : DailyToken generators sk) (st : SpendStatement G1)
    (nowUnix : UInt64) : Prop :=
  ∃ kStar rStar rBp rX rDelta : Scalar,
    st.kPrime = token.x • generators.h 1 + kStar • generators.h 2 +
      (token.c - Scalar.ofU32 st.s) • generators.h 3 + token.t • generators.h 4 +
      token.eMax • generators.h 5 + rStar • generators.h 0 ∧
    st.cBp = (token.c - Scalar.ofU32 st.s) • generators.h 3 + rBp • generators.h 0 ∧
    st.xBlsCommitment = token.x • generators.h 1 + rX • generators.h 0 ∧
    st.cDelta + Scalar.ofU64 nowUnix • generators.h 5 =
      token.eMax • generators.h 5 + rDelta • generators.h 0

/-- A token on `(5, 7, 100, 3, 1000)` under the key `1`. -/
def unitToken : DailyToken unitGenerators 1 where
  a := unitGenerators.g1 + (5 : Scalar) • unitGenerators.h 1 + (7 : Scalar) • unitGenerators.h 2 +
    (100 : Scalar) • unitGenerators.h 3 + (3 : Scalar) • unitGenerators.h 4 +
    (1000 : Scalar) • unitGenerators.h 5
  e := 0
  sig := 0
  x := 5
  k := 7
  c := 100
  t := 3
  eMax := 1000
  valid := by module

/-- A spend of one unit over given commitments of the balance and the refund. -/
def unitStatement (kCur : Scalar) (tIssue : UInt32) (eMax : UInt64)
    (kPrime cBp : UnitSpace) : SpendStatement UnitSpace where
  s := 1
  kCur := kCur
  tIssue := tIssue
  eMax := eMax
  kPrime := kPrime
  cBp := cBp
  cDelta := unitGenerators.h 5
  xBlsCommitment := unitGenerators.h 1
  batchedEq := blankEqualityProof
  expiryEq := blankEqualityProof

/-- A statement that discloses another serial, epoch and expiry than the token
has. -/
def foreignSerial : SpendStatement UnitSpace :=
  unitStatement 8 4 2000 (unitGenerators.h 2) (unitGenerators.h 3)

/-- Openings of the foreign statement's commitments at time zero. -/
def foreignSerialOpenings : SpendOpenings unitGenerators 0 foreignSerial where
  x := 1
  rX := 0
  eMax := 1
  rDelta := 0
  b0 := 0
  b2 := 0
  b3 := 1
  x_eq := by simp only [foreignSerial, unitStatement, one_smul, zero_smul, add_zero]
  delta_eq := by
    have h0 : Scalar.ofU64 0 = 0 := Nat.cast_zero
    simp only [foreignSerial, unitStatement, h0, one_smul, zero_smul, add_zero]
  bp_eq := by simp only [foreignSerial, unitStatement, one_smul, zero_smul, zero_add]

theorem foreignSerial_ranges : SpendRangesSound unitGenerators foreignSerial := by
  refine ⟨⟨1, 0, by norm_num, ?_⟩, 1, 0, by norm_num, ?_⟩
  · simp only [foreignSerial, unitStatement, Nat.cast_one, one_smul, zero_smul, add_zero]
  · simp only [foreignSerial, unitStatement, Nat.cast_one, one_smul, zero_smul, add_zero]

/-- A statement of the token's serial and epoch whose balance commitment hides
five thousand instead of ninety-nine. -/
def inflatedRefund : SpendStatement UnitSpace :=
  unitStatement 7 3 1000 (unitGenerators.h 2) ((5000 : Scalar) • unitGenerators.h 3)

/-- Openings of the inflated statement's commitments at time zero. -/
def inflatedRefundOpenings : SpendOpenings unitGenerators 0 inflatedRefund where
  x := 1
  rX := 0
  eMax := 1
  rDelta := 0
  b0 := 0
  b2 := 0
  b3 := 5000
  x_eq := by simp only [inflatedRefund, unitStatement, one_smul, zero_smul, add_zero]
  delta_eq := by
    have h0 : Scalar.ofU64 0 = 0 := Nat.cast_zero
    simp only [inflatedRefund, unitStatement, h0, one_smul, zero_smul, add_zero]
  bp_eq := by simp only [inflatedRefund, unitStatement, zero_smul, zero_add]

/-- Acceptance makes the disclosed attributes the token's exactly for the
statements that disclose them anyway or whose commitment to `x` is none. -/
theorem spend_discloses_token_iff (hind : LinearIndependent Scalar generators.points)
    (token : DailyToken generators sk) (poss : Possession) (st : SpendStatement G1)
    (nowUnix : UInt64) (challenges : ChallengeSet)
    (hrange : SpendRangesSound generators st) :
    (∀ strategy, SpendAcceptedOn token poss st nowUnix challenges strategy →
        SpendDiscloses token st) ↔
      (st.xBlsCommitment ∈ Submodule.span Scalar {generators.h 1, generators.h 0} →
        SpendDiscloses token st) := by
  constructor
  · intro h hx
    rcases (hrange.presentable hx).openings nowUnix with ⟨o⟩
    -- the statement has the shape, so a client gets it accepted
    exact h (forgedStrategy token poss st o 0) fun c _ =>
      forgedStrategy_accepts token poss st o 0 c
  · intro h strategy hacc
    exact h (presentable_of_accepted hind hacc).1

theorem spend_discloses_token_iff_unit :
    (∀ strategy, SpendAcceptedOn unitToken unitPossession foreignSerial 0 firstChallenges
        strategy → SpendDiscloses unitToken foreignSerial) ↔
      (foreignSerial.xBlsCommitment ∈
          Submodule.span Scalar {unitGenerators.h 1, unitGenerators.h 0} →
        SpendDiscloses unitToken foreignSerial) :=
  spend_discloses_token_iff unitGenerators_independent unitToken unitPossession foreignSerial 0
    firstChallenges foreignSerial_ranges

/-- A token with serial 7 is accepted at five challenges for serial 8. -/
theorem foreign_serial_accepted :
    SpendRangesSound unitGenerators foreignSerial ∧
      SpendAcceptedOn unitToken unitPossession foreignSerial 0 firstChallenges
        (forgedStrategy unitToken unitPossession foreignSerial foreignSerialOpenings 1) ∧
      foreignSerial.kCur ≠ unitToken.k ∧
      Scalar.ofU32 foreignSerial.tIssue ≠ unitToken.t ∧
      Scalar.ofU64 foreignSerial.eMax ≠ unitToken.eMax := by
  refine ⟨foreignSerial_ranges, ?_, by decide +kernel, by decide +kernel, by decide +kernel⟩
  exact fun c _ => forgedStrategy_accepts unitToken unitPossession _ foreignSerialOpenings 1 c

/-- Acceptance makes the refund commitment carry the token's state exactly for
the statements that do so anyway or whose commitments are not of their shape. -/
theorem refund_carries_state_iff (hind : LinearIndependent Scalar generators.points)
    (token : DailyToken generators sk) (poss : Possession) (st : SpendStatement G1)
    (nowUnix : UInt64) (challenges : ChallengeSet) :
    (∀ strategy, SpendAcceptedOn token poss st nowUnix challenges strategy →
        RefundCarries token st nowUnix) ↔
      (SpendPresentable generators st → RefundCarries token st nowUnix) := by
  constructor
  · intro h hst
    rcases hst.openings nowUnix with ⟨o⟩
    -- the statement has the shape, so a client gets it accepted
    exact h (forgedStrategy token poss st o 0) fun c _ =>
      forgedStrategy_accepts token poss st o 0 c
  · intro h strategy hacc
    exact h (presentable_of_accepted hind hacc)

theorem refund_carries_state_iff_unit :
    (∀ strategy, SpendAcceptedOn unitToken unitPossession inflatedRefund 0 firstChallenges
        strategy → RefundCarries unitToken inflatedRefund 0) ↔
      (SpendPresentable unitGenerators inflatedRefund →
        RefundCarries unitToken inflatedRefund 0) :=
  refund_carries_state_iff unitGenerators_independent unitToken unitPossession inflatedRefund 0
    firstChallenges

/-- The token of balance 100 is accepted at five challenges for a refund whose
balance commitment hides 5000, its serial and epoch disclosed truthfully. -/
theorem inflated_refund_accepted :
    inflatedRefund.kCur = unitToken.k ∧ Scalar.ofU32 inflatedRefund.tIssue = unitToken.t ∧
      SpendAcceptedOn unitToken unitPossession inflatedRefund 0 firstChallenges
        (forgedStrategy unitToken unitPossession inflatedRefund inflatedRefundOpenings 1) ∧
      ¬RefundCarries unitToken inflatedRefund 0 := by
  refine ⟨rfl, rfl, ?_, ?_⟩
  · exact fun c _ => forgedStrategy_accepts unitToken unitPossession _ inflatedRefundOpenings 1 c
  · rintro ⟨_, _, rBp, _, _, _, hbp, _⟩
    -- the coordinate of `c_bp` at `h3`
    have h4 : (5000 : Scalar) * 1 = (100 - Scalar.ofU32 1) * 1 + rBp * 0 := congrFun hbp 4
    rw [mul_one, mul_one, mul_zero, add_zero] at h4
    exact absurd h4 (by decide +kernel)

end Ebut
