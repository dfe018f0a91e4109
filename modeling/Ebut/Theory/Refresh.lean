import Ebut.Core.Refresh
import Ebut.Theory.Spend

/-!
# What an Accepted Refresh Proves

The two group equations of the refresh verifier, against a client that holds a
genuine master token and chooses everything else. The argument is that of the
spend verifier: the challenge both weighs the four relations and scales the
responses, so the nullifier, the daily commitment and the possession relation
are absorbed by the first messages of the relations after them.

Only the x bridge stands alone. The combined equation is a polynomial of degree
four modulo the span of `h0`, `h2`, `h3` and `h5`, whose top coefficient is the
expiry commitment. The epoch nullifier occurs in the coefficients of degree one
and two only, both of which a first message balances, so nothing is forced
about it.

## Main definitions

* `RefreshStatement`: The fields of a proof that state something.
* `RefreshStrategy`: First messages, and responses depending on the challenge.
* `RefreshStrategy.proofAt`: The proof the strategy sends at a challenge.
* `RefreshAcceptedOn`: Acceptance at every challenge of a set.
* `RefreshPresentable`: The shape of an acceptable statement.
* `forgedRefresh`: A strategy for any statement of that shape.

## Theorems

* `refresh_presentable_of_accepted`: Acceptance forces the shape.
* `forgedRefresh_accepts`: The shape suffices at every challenge.
* `forged_verifyRefresh`: The forged proof passes the whole verifier.
* `refresh_binds_master_iff`: When a refresh is bound to the master token.
-/

namespace Ebut

open Extraction

variable {G1 G2 GT R : Type} [AddCommGroup G1] [Module Scalar G1]

/-- What a refresh states: the nullifier, the commitments, and the range proof
that is hashed with them. -/
structure RefreshStatement (G1 : Type) where
  nT : G1
  kDaily : G1
  cDelta : G1
  xBlsCommitment : G1
  batchedEq : BatchedEqualityProof

/-- The first messages, fixed before the challenge. -/
structure RefreshFirst (G1 : Type) where
  tBbs : G1
  tScaleN : G1
  tN : G1
  tScaleD : G1
  tD : G1
  tScaleB : G1
  tB : G1
  tScaleX : G1
  tX : G1

/-- The responses that the showing of the token leaves free. -/
structure RefreshFree where
  zSTilde : Scalar
  zKTilde : Scalar
  zCTilde : Scalar
  zETilde : Scalar
  zU : Scalar
  zV : Scalar
  zW : Scalar
  zRX : Scalar

/-- A cheating client: first messages, and responses chosen after the challenge. -/
structure RefreshStrategy (G1 : Type) where
  first : RefreshFirst G1
  respond : Scalar → RefreshFree

variable {generators : Generators G1 G2} {sk : Scalar}

/-- The proof sent at challenge `c` by a client that shows `token` as `poss`
says. The pairing check is `A_bar = sk * A'`. -/
def RefreshStrategy.proofAt (strategy : RefreshStrategy G1) (token : MasterToken generators sk)
    (poss : Possession) (st : RefreshStatement G1) (c : Scalar) : RefreshProof G1 where
  aPrime := poss.r1 • token.a
  aBar := sk • poss.r1 • token.a
  tBbs := strategy.first.tBbs
  tScaleN := strategy.first.tScaleN
  tN := strategy.first.tN
  tScaleD := strategy.first.tScaleD
  tD := strategy.first.tD
  tScaleB := strategy.first.tScaleB
  tB := strategy.first.tB
  zE := poss.rhoE + c * token.e
  zR1 := poss.rhoR + c * poss.r1
  zSTilde := (strategy.respond c).zSTilde
  zKTilde := (strategy.respond c).zKTilde
  zCTilde := (strategy.respond c).zCTilde
  zETilde := (strategy.respond c).zETilde
  zU := (strategy.respond c).zU
  zV := (strategy.respond c).zV
  zW := (strategy.respond c).zW
  batchedEq := st.batchedEq
  nT := st.nT
  kDaily := st.kDaily
  cDelta := st.cDelta
  xBlsCommitment := st.xBlsCommitment
  tScaleX := strategy.first.tScaleX
  tX := strategy.first.tX
  zRX := (strategy.respond c).zRX

/-- The x bridge and the combined check accept at every challenge of the set. -/
def RefreshAcceptedOn (hT : G1) (token : MasterToken generators sk) (poss : Possession)
    (st : RefreshStatement G1) (currentEpoch : UInt32) (nowUnix : UInt64)
    (challenges : ChallengeSet) (strategy : RefreshStrategy G1) : Prop :=
  ∀ c ∈ challenges.challenges,
    RefreshAccepts generators hT currentEpoch nowUnix c (strategy.proofAt token poss st c)

/-- The commitment to `x` is one over its bases, and the expiry commitment has no
part in `g1`, `h1`, `h4` or the nullifier base. -/
def RefreshPresentable (generators : Generators G1 G2) (st : RefreshStatement G1) : Prop :=
  st.xBlsCommitment ∈ Submodule.span Scalar {generators.h 1, generators.h 0} ∧
    st.cDelta ∈ Submodule.span Scalar
      {generators.h 5, generators.h 0, generators.h 2, generators.h 3}

section Forward

variable {hT : G1} {token : MasterToken generators sk} {poss : Possession}
  {st : RefreshStatement G1} {currentEpoch : UInt32} {nowUnix : UInt64}
  {challenges : ChallengeSet} {strategy : RefreshStrategy G1}

/-- The x bridge makes `z_k` affine in the challenge. -/
theorem refreshXBridge_affine (hind : LinearIndependent Scalar generators.points)
    (hacc : RefreshAcceptedOn hT token poss st currentEpoch nowUnix challenges strategy) :
    ∃ ξ ξ' τ : Scalar, st.xBlsCommitment = ξ • generators.h 1 + ξ' • generators.h 0 ∧
      ∀ c ∈ challenges.challenges,
        (strategy.respond c).zKTilde = τ + c * (poss.r1 * ξ) :=
  bridge_affine hind (by decide) fun c hc => (hacc c hc).1

/-- The top coefficient of the combined equation: the shifted expiry commitment
lies in the span of the bases whose responses occur nowhere else. -/
theorem emax_mem_of_accepted (hind : LinearIndependent Scalar generators.points)
    (hacc : RefreshAcceptedOn hT token poss st currentEpoch nowUnix challenges strategy) :
    st.cDelta + Scalar.ofU64 nowUnix • generators.h 5 ∈ Submodule.span Scalar
      {generators.h 5, generators.h 0, generators.h 2, generators.h 3} := by
  rcases refreshXBridge_affine hind hacc with ⟨ξ, _, τ, _, hzk⟩
  let ep := Scalar.ofU32 currentEpoch
  let bridge := st.cDelta + Scalar.ofU64 nowUnix • generators.h 5
  let aPrime := poss.r1 • token.a
  -- the combined equation by powers of the challenge, the free bases left out
  let P : Fin 5 → G1 := ![
    τ • generators.h 1 + poss.rhoR • generators.g1 - poss.rhoE • aPrime - strategy.first.tBbs,
    (poss.r1 * ξ) • generators.h 1 + poss.r1 • generators.g1 + τ • hT - poss.rhoR • st.nT +
      strategy.first.tScaleN - strategy.first.tN - token.e • aPrime - sk • aPrime,
    τ • generators.h 1 + (poss.rhoR * ep) • generators.h 4 + (poss.r1 * ξ) • hT -
      poss.r1 • st.nT - poss.rhoR • st.kDaily - strategy.first.tD + strategy.first.tScaleD,
    (poss.r1 * ξ) • generators.h 1 + (poss.r1 * ep) • generators.h 4 - poss.r1 • st.kDaily -
      poss.rhoR • bridge - strategy.first.tB + strategy.first.tScaleB,
    -(poss.r1 • bridge)]
  have hmem : P 4 ∈ Submodule.span Scalar
      {generators.h 5, generators.h 0, generators.h 2, generators.h 3} := by
    -- four is the degree: the weight of the fourth relation times the challenge in `z_r1`
    refine coeff_mem _ P challenges.five_le ?_ 4
    intro c hc
    have hcomb := (hacc c hc).2
    rw [refreshCombined_eq] at hcomb
    simp only [RefreshStrategy.proofAt, hzk c hc, refreshEmaxBlsCommitment] at hcomb
    -- what the free responses contribute, which is all that the equation leaves of the curve
    refine Submodule.mem_span_insert.mpr ⟨-((1 + c ^ 2 + c ^ 3) * (strategy.respond c).zETilde),
      _, Submodule.mem_span_triple.mpr
        ⟨-(c ^ 2 * (strategy.respond c).zV + c ^ 3 * (strategy.respond c).zW +
            (strategy.respond c).zSTilde), -(c ^ 2 * (strategy.respond c).zU),
          -((1 + c ^ 2) * (strategy.respond c).zCTilde), rfl⟩, ?_⟩
    rw [← sub_eq_zero]
    refine Eq.trans ?_ hcomb
    rw [curve_five]
    simp only [P, ep, bridge, aPrime, Matrix.cons_val]
    module
  have hneg : -(poss.r1 • bridge) ∈ Submodule.span Scalar
      {generators.h 5, generators.h 0, generators.h 2, generators.h 3} := hmem
  -- the randomisation of the token is not zero, so it divides out
  exact (Submodule.smul_mem_iff _ poss.r1_ne).mp ((Submodule.neg_mem_iff _).mp hneg)

/-- Acceptance at five challenges forces the shape of the statement. -/
theorem refresh_presentable_of_accepted (hind : LinearIndependent Scalar generators.points)
    (hacc : RefreshAcceptedOn hT token poss st currentEpoch nowUnix challenges strategy) :
    RefreshPresentable generators st := by
  rcases refreshXBridge_affine hind hacc with ⟨ξ, ξ', _, hX, _⟩
  refine ⟨Submodule.mem_span_pair.mpr ⟨ξ, ξ', hX.symm⟩, ?_⟩
  have hnow : Scalar.ofU64 nowUnix • generators.h 5 ∈ Submodule.span Scalar
      {generators.h 5, generators.h 0, generators.h 2, generators.h 3} :=
    Submodule.smul_mem _ _ (Submodule.mem_span_of_mem (Set.mem_insert _ _))
  exact (Submodule.add_mem_iff_left _ hnow).mp (emax_mem_of_accepted hind hacc)

end Forward

/-- Openings of the commitments of a presentable statement. -/
structure RefreshOpenings (generators : Generators G1 G2) (nowUnix : UInt64)
    (st : RefreshStatement G1) where
  x : Scalar
  rX : Scalar
  g0 : Scalar
  g2 : Scalar
  g3 : Scalar
  g5 : Scalar
  x_eq : st.xBlsCommitment = x • generators.h 1 + rX • generators.h 0
  bridge_eq : st.cDelta + Scalar.ofU64 nowUnix • generators.h 5 =
    g0 • generators.h 0 + g2 • generators.h 2 + g3 • generators.h 3 + g5 • generators.h 5

theorem RefreshPresentable.openings {st : RefreshStatement G1}
    (hst : RefreshPresentable generators st) (nowUnix : UInt64) :
    Nonempty (RefreshOpenings generators nowUnix st) := by
  rcases hst with ⟨hx, hdelta⟩
  rcases Submodule.mem_span_pair.mp hx with ⟨x, rX, hx⟩
  rcases Submodule.mem_span_insert.mp hdelta with ⟨g5, rest, hrest, hdelta⟩
  rcases Submodule.mem_span_triple.mp hrest with ⟨g0, g2, g3, hrest⟩
  refine ⟨⟨x, rX, g0, g2, g3, g5 + Scalar.ofU64 nowUnix, hx.symm, ?_⟩⟩
  rw [hdelta, ← hrest]
  module

section Forgery

variable (hT : G1) (token : MasterToken generators sk) (poss : Possession)
  (st : RefreshStatement G1) (currentEpoch : UInt32) {nowUnix : UInt64}
  (o : RefreshOpenings generators nowUnix st) (σ : Scalar)

/-- First messages that absorb, power by power, what the relation before them
leaves over. -/
def forgedRefreshFirst : RefreshFirst G1 where
  tBbs := (poss.rhoR * o.x) • generators.h 1 - (poss.r1 * o.g3) • generators.h 3 +
    (poss.rhoR * o.g5) • generators.h 5 + poss.rhoR • generators.g1 -
    poss.rhoE • poss.r1 • token.a + σ • generators.h 0
  tScaleN := 0
  tN := (poss.r1 * o.x) • generators.h 1 + (poss.r1 * o.g5) • generators.h 5 +
    poss.r1 • generators.g1 + (poss.rhoR * o.x) • hT - poss.rhoR • st.nT -
    token.e • poss.r1 • token.a - sk • poss.r1 • token.a
  tScaleD := 0
  tD := (poss.rhoR * o.x) • generators.h 1 +
    (poss.rhoR * Scalar.ofU32 currentEpoch) • generators.h 4 +
    (poss.rhoR * o.g5) • generators.h 5 + (poss.r1 * o.x) • hT - poss.r1 • st.nT -
    poss.rhoR • st.kDaily
  tScaleB := 0
  tB := (poss.r1 * o.x) • generators.h 1 +
    (poss.r1 * Scalar.ofU32 currentEpoch) • generators.h 4 +
    (poss.r1 * o.g5) • generators.h 5 - poss.r1 • st.kDaily -
    (poss.rhoR * o.g2) • generators.h 2 - (poss.rhoR * o.g3) • generators.h 3
  tScaleX := 0
  tX := 0

/-- The responses at challenge `c`. Those in `z_u` and `z_c` are quadratic: they
cancel the parts of the expiry commitment in `h2` and `h3` at the fourth power. -/
def forgedRefreshRespond (c : Scalar) : RefreshFree where
  zSTilde := σ
  zKTilde := (poss.rhoR + c * poss.r1) * o.x
  zCTilde := poss.r1 * o.g3 * (c ^ 2 - 1)
  zETilde := (poss.rhoR + c * poss.r1) * o.g5
  zU := c ^ 2 * (poss.r1 * o.g2)
  zV := 0
  zW := (poss.rhoR + c * poss.r1) * o.g0
  zRX := (poss.rhoR + c * poss.r1) * o.rX

/-- A strategy for a statement whose commitments open. -/
def forgedRefresh : RefreshStrategy G1 where
  first := forgedRefreshFirst hT token poss st currentEpoch o σ
  respond := forgedRefreshRespond poss st o σ

theorem forgedRefresh_accepts (c : Scalar) :
    RefreshAccepts generators hT currentEpoch nowUnix c
      ((forgedRefresh hT token poss st currentEpoch o σ).proofAt token poss st c) := by
  refine ⟨?_, ?_⟩
  · simp only [refreshXBridgeHolds, RefreshStrategy.proofAt, forgedRefresh, forgedRefreshFirst,
      forgedRefreshRespond]
    rw [o.x_eq]
    module
  · rw [refreshCombined_eq]
    simp only [RefreshStrategy.proofAt, forgedRefresh, forgedRefreshFirst, forgedRefreshRespond,
      refreshEmaxBlsCommitment]
    rw [o.bridge_eq]
    module

/-- One of the two values `0`, `1` of `σ` keeps the first message of the
possession relation away from the identity. -/
theorem exists_forgedRefresh_tBbs_ne_zero (hind : LinearIndependent Scalar generators.points) :
    ∃ σ, (forgedRefreshFirst hT token poss st currentEpoch o σ).tBbs ≠ 0 := by
  refine exists_ne_zero hind ?_
  simp only [forgedRefreshFirst]
  module

end Forgery

section Verifier

variable [AddCommGroup G2] [Module Scalar G2] [AddCommGroup GT] [Module Scalar GT]
  [AddCommGroup R] [Module DalekScalar R] [DecidableEq G1] [DecidableEq GT]

/-- The whole verifier signs a daily token for a forged proof whose range proof
verifies, whatever nullifier it names. -/
theorem forged_verifyRefresh (sha : Sha2) (bls : Blstrs G1 G2 GT) (dalek : Dalek R)
    {generators : Generators G1 G2} (keys : ServerKeys generators)
    (token : MasterToken generators keys.skMaster) (poss : Possession)
    (st : RefreshStatement G1) (currentEpoch : UInt32) {nowUnix : UInt64}
    (o : RefreshOpenings generators nowUnix st) (pkMaster : G2)
    (hCtx eDaily sPrimeDaily : Scalar) (hind : LinearIndependent Scalar generators.points)
    (ha : token.a ≠ 0) (hn : st.nT ≠ 0) (hdenom : eDaily + keys.skDaily ≠ 0) :
    ∃ σ c, let proof := (forgedRefresh (epochBase bls currentEpoch) token poss st currentEpoch o
        σ).proofAt token poss st c
      verifyBatchedEquality sha bls dalek proof.batchedEq proof.cDelta (generators.h 5)
          (generators.h 0) (refreshBeqCtx hCtx currentEpoch nowUnix)
          [proof.aPrime, proof.aBar, proof.tBbs, proof.nT, proof.kDaily,
            proof.xBlsCommitment] = .ok () →
        ∃ response, verifyRefresh sha bls dalek proof currentEpoch nowUnix generators pkMaster
          keys hCtx eDaily sPrimeDaily = .ok response := by
  let hT := epochBase bls currentEpoch
  rcases exists_forgedRefresh_tBbs_ne_zero hT token poss st currentEpoch o hind with ⟨σ, htBbs⟩
  let strategy := forgedRefresh hT token poss st currentEpoch o σ
  let c := refreshChallenge sha bls hCtx pkMaster currentEpoch nowUnix
    (strategy.proofAt token poss st 0)
  refine ⟨σ, c, fun hbeq => ⟨?_, ?_⟩⟩
  · exact
      { aDaily := (eDaily + keys.skDaily)⁻¹ •
          g1Msm [generators.g1, st.kDaily, generators.h 0] [(1 : Scalar), 1, sPrimeDaily]
        eDaily := eDaily
        sPrimeDaily := sPrimeDaily }
  -- no response enters the transcript, so the challenge is the one answered
  have hc : refreshChallenge sha bls hCtx pkMaster currentEpoch nowUnix
      (strategy.proofAt token poss st c) = c := rfl
  have hbefore : refreshChecksBefore (strategy.proofAt token poss st c) = .ok () := by
    have haPrime : poss.r1 • token.a ≠ 0 := smul_ne_zero poss.r1_ne ha
    simp only [refreshChecksBefore, rejectIf_bind_ok, rejectIf_ok, not_or]
    exact ⟨hn, haPrime, htBbs⟩
  -- whatever the challenge is, the responses answer it
  have hchecks : refreshChecksAt generators hT currentEpoch nowUnix c
      (strategy.proofAt token poss st c) = .ok () :=
    (refreshChecksAt_ok _ _ _ _ _ _).mpr
      (forgedRefresh_accepts hT token poss st currentEpoch o σ c)
  have hproofs : refreshProofsHold sha bls dalek generators keys hCtx currentEpoch nowUnix
      (strategy.proofAt token poss st c) = .ok () := by
    unfold refreshProofsHold
    rw [bind_unit_ok]
    refine ⟨hbeq, ?_⟩
    rw [rejectIf_ok]
    exact (Bool.not_eq_false _).mpr
      (pairing_of_shown bls keys.pkMaster_eq (poss.r1 • token.a))
  show (refreshChecksBefore (strategy.proofAt token poss st c) >>= _) = _
  rw [bind_unit_ok]
  refine ⟨hbefore, ?_⟩
  simp only
  rw [hc, bind_unit_ok]
  refine ⟨hchecks, ?_⟩
  rw [bind_unit_ok]
  refine ⟨hproofs, ?_⟩
  simp only [issueOn, rejectIf, if_neg hdenom]
  rfl

end Verifier

/-- The nullifier and the three commitments are formed from the attributes of
the master token and the current epoch. -/
def RefreshBinds (hT : G1) (token : MasterToken generators sk) (st : RefreshStatement G1)
    (currentEpoch : UInt32) (nowUnix : UInt64) : Prop :=
  st.nT = token.x • hT ∧ ∃ k r rX rDelta : Scalar,
    st.xBlsCommitment = token.x • generators.h 1 + rX • generators.h 0 ∧
    st.kDaily = token.x • generators.h 1 + k • generators.h 2 + token.cMax • generators.h 3 +
      Scalar.ofU32 currentEpoch • generators.h 4 + token.eMax • generators.h 5 +
      r • generators.h 0 ∧
    st.cDelta + Scalar.ofU64 nowUnix • generators.h 5 =
      token.eMax • generators.h 5 + rDelta • generators.h 0

/-- A master token on `(5, 100, 1000)` under the key `1`. -/
def unitMaster : MasterToken unitGenerators 1 where
  a := unitGenerators.g1 + (5 : Scalar) • unitGenerators.h 1 +
    (100 : Scalar) • unitGenerators.h 3 + (1000 : Scalar) • unitGenerators.h 5
  e := 0
  sig := 0
  x := 5
  cMax := 100
  eMax := 1000
  valid := by module

/-- A statement with the token's `x`, under the nullifier of another one. -/
def secondNullifier : RefreshStatement UnitSpace where
  nT := (6 : Scalar) • epochBase unitBlstrs 3
  kDaily := (5 : Scalar) • unitGenerators.h 1 + (100 : Scalar) • unitGenerators.h 3 +
    (3 : Scalar) • unitGenerators.h 4 + (1000 : Scalar) • unitGenerators.h 5
  cDelta := (1000 : Scalar) • unitGenerators.h 5
  xBlsCommitment := (5 : Scalar) • unitGenerators.h 1
  batchedEq := blankEqualityProof

/-- Openings of its commitments at time zero. -/
def secondNullifierOpenings : RefreshOpenings unitGenerators 0 secondNullifier where
  x := 5
  rX := 0
  g0 := 0
  g2 := 0
  g3 := 0
  g5 := 1000
  x_eq := by simp only [secondNullifier, zero_smul, add_zero]
  bridge_eq := by
    have h0 : Scalar.ofU64 0 = 0 := Nat.cast_zero
    simp only [secondNullifier, h0, zero_smul, add_zero, zero_add]

section Binding

variable [AddCommGroup G2] [Module Scalar G2] [AddCommGroup GT] [Module Scalar GT]

/-- Acceptance binds the nullifier and the commitments to the master token
exactly for the statements bound to it anyway or whose commitments are not of
their shape. -/
theorem refresh_binds_master_iff (bls : Blstrs G1 G2 GT) (currentEpoch : UInt32)
    (hind : LinearIndependent Scalar
      (Fin.cons (epochBase bls currentEpoch) generators.points : Fin 8 → G1))
    (token : MasterToken generators sk) (poss : Possession) (st : RefreshStatement G1)
    (nowUnix : UInt64) (challenges : ChallengeSet) :
    (∀ strategy, RefreshAcceptedOn (epochBase bls currentEpoch) token poss st currentEpoch
        nowUnix challenges strategy →
      RefreshBinds (epochBase bls currentEpoch) token st currentEpoch nowUnix) ↔
      (RefreshPresentable generators st →
        RefreshBinds (epochBase bls currentEpoch) token st currentEpoch nowUnix) := by
  -- the generators alone are independent too
  have hpoints : LinearIndependent Scalar generators.points :=
    hind.comp Fin.succ (Fin.succ_injective 7)
  constructor
  · intro h hst
    rcases hst.openings nowUnix with ⟨o⟩
    -- the statement has the shape, so a client gets it accepted
    exact h (forgedRefresh (epochBase bls currentEpoch) token poss st currentEpoch o 0)
      fun c _ => forgedRefresh_accepts _ token poss st currentEpoch o 0 c
  · intro h strategy hacc
    exact h (refresh_presentable_of_accepted hpoints hacc)

end Binding

theorem refresh_binds_master_iff_unit :
    (∀ strategy, RefreshAcceptedOn (epochBase unitBlstrs 3) unitMaster unitPossession
        secondNullifier 3 0 firstChallenges strategy →
      RefreshBinds (epochBase unitBlstrs 3) unitMaster secondNullifier 3 0) ↔
      (RefreshPresentable unitGenerators secondNullifier →
        RefreshBinds (epochBase unitBlstrs 3) unitMaster secondNullifier 3 0) :=
  refresh_binds_master_iff unitBlstrs 3 unitBasis_cons_independent unitMaster unitPossession
    secondNullifier 0 firstChallenges

/-- The token with `x = 5` is accepted at five challenges under the nullifier of
`x = 6`, so it can be refreshed twice in one epoch. -/
theorem second_nullifier_accepted :
    RefreshAcceptedOn (epochBase unitBlstrs 3) unitMaster unitPossession secondNullifier 3 0
        firstChallenges (forgedRefresh (epochBase unitBlstrs 3) unitMaster unitPossession
          secondNullifier 3 secondNullifierOpenings 1) ∧
      ¬RefreshBinds (epochBase unitBlstrs 3) unitMaster secondNullifier 3 0 := by
  refine ⟨fun c _ => forgedRefresh_accepts _ unitMaster unitPossession _ 3
    secondNullifierOpenings 1 c, ?_⟩
  rintro ⟨hn, _⟩
  -- the coordinate of the nullifier at its base
  have h7 : (6 : Scalar) * 1 = 5 * 1 := congrFun hn 7
  rw [mul_one, mul_one] at h7
  exact absurd h7 (by decide +kernel)

end Ebut
