import Ebut.Core.RevocationProof
import Ebut.Theory.LifeCycle
import Ebut.Theory.NonMembership
import Ebut.Theory.RevocationList

/-!
# Which Expiry the Revocation Check Is About

The expiry commitment of a refresh or a spend is to the time that is left. The revocation
check adds a time to it and verifies the non-membership proof against the sum. The prover
subtracted the time of the proof; the verifier adds the time that is stored with the list.
When the two are the same the sum is a commitment to the expiry of the token, and the proof
of its owner is accepted. When they are not it is one to an expiry shifted by their
difference, and what is accepted is the proof for that.

## Main definitions

* `Redemption`: A refresh or a spend, with the state of its client.
* `Redemption.HonestAt`: What an honest prover returns.
* `ChecksOwnEmax`: The check is about the expiry of the token.

## Theorems

* `HonestAt.emaxBlsCommitment_eq`: What the commitment opens to.
* `shifted_accepted`: The proof for the shifted expiry is accepted.
* `shifted_rejected`: At the time of the list no other is.
* `notRevoked_complete`: The owner of an expiry that is not revoked is accepted.
* `checksOwnEmax_iff`: When the check is about the expiry of the token.
-/

namespace Ebut

open V3Zkp

variable {P G1 G2 GT R : Type} [AddCommGroup G1] [Module Scalar G1]

/-- An accepted kind of proof that carries an expiry commitment, with the state that its
client keeps. -/
inductive Redemption (G1 : Type) where
  | refresh (client : RefreshClient) (proof : RefreshProof G1)
  | spend (client : SpendClient) (proof : SpendProof G1)

namespace Redemption

/-- The expiry of the token. -/
def eMax : Redemption G1 → UInt64
  | refresh client _ => client.eMax
  | spend client _ => client.eMax

/-- The blinder of the expiry commitment. -/
def rDelta : Redemption G1 → Scalar
  | refresh client _ => client.rDelta
  | spend client _ => client.rDelta

/-- The commitment that the verifier hands on, for the time that it adds. -/
def emaxBlsCommitment (generators : Generators G1 G2) (nowUnix : UInt64) : Redemption G1 → G1
  | refresh _ proof => refreshEmaxBlsCommitment generators nowUnix proof
  | spend _ proof => spendEmaxBlsCommitment generators nowUnix proof

variable [AddCommGroup G2] [Module Scalar G2] [AddCommGroup GT] [Module Scalar GT]
  [AddCommGroup R] [Module DalekScalar R] (sha : Sha2) (bls : Blstrs G1 G2 GT) (dalek : Dalek R)
  (generators : Generators G1 G2)

/-- What the prover returns at a time, for any token, key and context and whatever it draws. -/
def HonestAt (nowUnix : UInt64) : Redemption G1 → Prop
  | refresh client proof => ∃ coins master kSub cMax eMax t pkMaster hCtx,
      refreshProve generators coins master kSub cMax eMax t nowUnix sha bls dalek pkMaster hCtx =
        .ok (client, proof)
  | spend client proof => ∃ coins token kSub kCur cBal tIssue eMax spendAmount nonce pkDaily hCtx,
      spendProve generators coins token kSub kCur cBal tIssue eMax nowUnix spendAmount sha bls dalek
        nonce pkDaily hCtx = .ok (client, proof)

variable (list : SignedRevocationList G1) (serverPk : RevocationPublicKey G2)

/-- The revocation proof of the client. -/
def proveNotRevoked (coins : ClientRevocationCoins P R) :
    Redemption G1 → Except ActError (ClientRevocationProof P G1 GT R)
  | refresh client _ => list.proveRefreshClient sha bls dalek coins serverPk client generators
  | spend client _ => list.proveSpendClient sha bls dalek coins serverPk client generators

/-- The revocation check of the server. -/
def verifyNotRevoked [DecidableEq G1] [DecidableEq GT] [DecidableEq R] (ranges : RangeProofs P R)
    (revocationProof : ClientRevocationProof P G1 GT R) : Redemption G1 → Except ActError Unit
  | refresh _ proof => verifyRefreshNotRevokedFromClientProof sha bls dalek ranges list
      revocationProof serverPk proof generators
  | spend _ proof => verifySpendNotRevokedFromClientProof sha bls dalek ranges list revocationProof
      serverPk proof generators

variable {sha bls dalek generators list serverPk} {nowUnix : UInt64} {redemption : Redemption G1}

/-- Both clients prove for the expiry and with the blinder of their commitment. -/
theorem proveNotRevoked_eq (coins : ClientRevocationCoins P R) :
    redemption.proveNotRevoked sha bls dalek generators list serverPk coins =
      list.proveEmaxWithBases sha bls dalek coins serverPk redemption.eMax redemption.rDelta
        (generators.h 5) (generators.h 0) := by
  cases redemption with
  | refresh client proof => rfl
  | spend client proof => rfl

/-- Both verifiers add the time of the list. -/
theorem verifyNotRevoked_ok [DecidableEq G1] [DecidableEq GT] [DecidableEq R]
    {ranges : RangeProofs P R} {revocationProof : ClientRevocationProof P G1 GT R} :
    redemption.verifyNotRevoked sha bls dalek generators list serverPk ranges revocationProof =
        .ok () ↔
      verifyNonMembershipProofTimedWithContextAndBases sha bls dalek ranges revocationProof.proof
        serverPk revocationProof.userComRist
        (redemption.emaxBlsCommitment generators list.ctx.nowUnix) (gapContextScalar sha list.ctx)
        (generators.h 5) (generators.h 0) = true := by
  cases redemption with
  | refresh client proof =>
      rw [verifyNotRevoked, verifyRefreshNotRevokedFromClientProof, verifyRefreshNotRevoked,
        verifyEmaxNotRevokedWithBases_ok]
      rfl
  | spend client proof =>
      rw [verifyNotRevoked, verifySpendNotRevokedFromClientProof, verifySpendNotRevoked,
        verifyEmaxNotRevokedWithBases_ok]
      rfl

/-- The honest commitment is to the expiry less the time of the proof. -/
theorem HonestAt.emaxBlsCommitment_eq
    (hhonest : HonestAt sha bls dalek generators nowUnix redemption) (t : UInt64) :
    redemption.emaxBlsCommitment generators t =
      (Scalar.ofU64 redemption.eMax - Scalar.ofU64 nowUnix + Scalar.ofU64 t) • generators.h 5 +
        redemption.rDelta • generators.h 0 := by
  cases redemption with
  | refresh client proof =>
      rcases hhonest with ⟨coins, master, kSub, cMax, eMax, epoch, pkMaster, hCtx, hprove⟩
      rw [refreshProve, rejectIf_bind_ok, UInt64.not_lt] at hprove
      rcases hprove with ⟨hnow, hprove⟩
      rcases bind_ok.mp hprove with ⟨⟨batchedEq, cBls⟩, -, hok⟩
      cases hok
      simp only [emaxBlsCommitment, refreshEmaxBlsCommitment, refreshProofAt, refreshMessage,
        ofU64_sub hnow, Redemption.eMax, Redemption.rDelta]
      module
  | spend client proof =>
      rcases hhonest with ⟨coins, token, kSub, kCur, cBal, tIssue, eMax, spendAmount, nonce,
        pkDaily, hCtx, hprove⟩
      rw [spendProve, rejectIf_bind_ok, rejectIf_bind_ok, rejectIf_bind_ok,
        UInt64.not_lt (a := eMax)] at hprove
      rcases hprove with ⟨-, -, hnow, hprove⟩
      -- neither of the two range proofs has a part in the commitment
      rcases bind_ok.mp hprove with ⟨⟨batchedEq, cBls⟩, -, hprove⟩
      rcases bind_ok.mp hprove with ⟨⟨expiryEq, cDelta⟩, -, hok⟩
      cases hok
      simp only [emaxBlsCommitment, spendEmaxBlsCommitment, spendProofAt, spendMessage,
        ofU64_sub hnow, Redemption.eMax, Redemption.rDelta]
      module

/-- With the time of the proof added it is to the expiry itself. -/
theorem HonestAt.emaxBlsCommitment_self
    (hhonest : HonestAt sha bls dalek generators nowUnix redemption) :
    redemption.emaxBlsCommitment generators nowUnix =
      Scalar.ofU64 redemption.eMax • generators.h 5 + redemption.rDelta • generators.h 0 := by
  rw [hhonest.emaxBlsCommitment_eq, sub_add_cancel]

end Redemption

/-- `witness_inputs` is ok, whatever it draws: nothing drawn is checked. -/
def SignedRevocationList.HasWitness (list : SignedRevocationList G1) (emax : UInt64) : Prop :=
  ∃ r1Emax r2Emax r2Ea r2Eb r1Ea r1Eb inputs,
    list.witnessInputs emax r1Emax r2Emax r2Ea r2Eb r1Ea r1Eb = .ok inputs

section List

variable [AddCommGroup G2] [Module Scalar G2] [AddCommGroup GT] [Module Scalar GT]
  [AddCommGroup R] [Module DalekScalar R] {sha : Sha2} {bls : Blstrs G1 G2 GT} {dalek : Dalek R}
  {sk : RevocationSecretKey} {h : ℕ → G1} {ctx : RevocationContext} {blacklisted : List UInt64}
  {coins : ClientRevocationCoins P R} {emax : UInt64} {r2Emax : Scalar} {valueBase blindBase : G1}

/-- The client proves for the gap that the list has for the expiry. -/
theorem proveEmaxWithBases_ok {list : SignedRevocationList G1} {pk : RevocationPublicKey G2}
    {cp : ClientRevocationProof P G1 GT R} :
    list.proveEmaxWithBases sha bls dalek coins pk emax r2Emax valueBase blindBase = .ok cp ↔
      ∃ gap, list.findGap emax = .ok gap ∧
        validateGapInterval emax (gap.left, gap.right) list.ctx.nowUnix = .ok () ∧
        createNonMembershipProofTimedWithContextAndBases sha bls dalek coins.prover emax
          coins.r1Emax r2Emax pk (gap.left, gap.right) gap.signature coins.r2Ea coins.r2Eb
          coins.r1Ea coins.r1Eb (gapContextScalar sha list.ctx) valueBase blindBase =
            .ok cp.proof ∧
        cp.userComRist = ristrettoCommit sha dalek emax coins.r1Emax := by
  unfold SignedRevocationList.proveEmaxWithBases
  simp only [bind_ok, list.witnessInputs_ok]
  constructor
  · rintro ⟨_, ⟨gap, hfind, hvalid, rfl⟩, proof, hprove, hok⟩
    cases hok
    exact ⟨gap, hfind, hvalid, (bind_unit_ok.mp hprove).2, rfl⟩
  · rintro ⟨gap, hfind, hvalid, hprove, hrist⟩
    refine ⟨_, ⟨gap, hfind, hvalid, rfl⟩, cp.proof, bind_unit_ok.mpr ⟨hvalid, hprove⟩, ?_⟩
    rw [← hrist]
    rfl

variable [DecidableEq G1] [DecidableEq GT] [DecidableEq R] {ranges : RangeProofs P R}

variable (bls r2Emax valueBase blindBase) in
/-- For an expiry with a usable gap the client succeeds, and its proof is accepted for the
commitment to that expiry, on any bases. -/
theorem proveEmaxWithBases_accepted
    (hwitness : (signBlacklist sha sk h ctx blacklisted).HasWitness emax)
    (hcomplete : AggregationComplete dalek ranges coins.prover.proveMultiple) :
    ∃ cp, (signBlacklist sha sk h ctx blacklisted).proveEmaxWithBases sha bls dalek coins
        (sk.publicKey bls) emax r2Emax valueBase blindBase = .ok cp ∧
      verifyNonMembershipProofTimedWithContextAndBases sha bls dalek ranges cp.proof
        (sk.publicKey bls) cp.userComRist (Scalar.ofU64 emax • valueBase + r2Emax • blindBase)
        (gapContextScalar sha ctx) valueBase blindBase = true := by
  rcases hwitness with ⟨_, _, _, _, _, _, _, hwitness⟩
  rcases (SignedRevocationList.witnessInputs_ok _).mp hwitness with ⟨gap, hfind, hvalid, -⟩
  rcases findGap_spec hfind with ⟨hmem, hleft, hright⟩
  obtain ⟨proof, hprove, haccepted⟩ : ∃ proof,
      createNonMembershipProofTimedWithContextAndBases sha bls dalek coins.prover emax coins.r1Emax
        r2Emax (sk.publicKey bls) (gap.left, gap.right) gap.signature coins.r2Ea coins.r2Eb
        coins.r1Ea coins.r1Eb (gapContextScalar sha ctx) valueBase blindBase = .ok proof ∧ _ :=
    createNonMembershipProof_accepted hleft hright (signed_of_mem hmem) hcomplete
  exact ⟨⟨proof, ristrettoCommit sha dalek emax coins.r1Emax⟩,
    proveEmaxWithBases_ok.mpr ⟨gap, hfind, hvalid, hprove, rfl⟩, haccepted⟩

end List

section Check

variable [AddCommGroup G2] [Module Scalar G2] [AddCommGroup GT] [Module Scalar GT]
  [AddCommGroup R] [Module DalekScalar R] [DecidableEq G1] [DecidableEq GT] [DecidableEq R]
  (sha : Sha2) (bls : Blstrs G1 G2 GT) (dalek : Dalek R) (ranges : RangeProofs P R)
  (generators : Generators G1 G2)

/-- The check is about the expiry of the token: the commitment handed on opens to it, its
owner is accepted, and a revoked token is rejected with a proof that was made for another
expiry and the same blinder, unless the hashes over two statements balance out. -/
structure ChecksOwnEmax (list : SignedRevocationList G1) (pk : RevocationPublicKey G2)
    (redemption : Redemption G1) : Prop where
  opens : ∃ r : Scalar, redemption.emaxBlsCommitment generators list.ctx.nowUnix =
    Scalar.ofU64 redemption.eMax • generators.h 5 + r • generators.h 0
  owner : ∀ coins : ClientRevocationCoins P R,
    AggregationComplete dalek ranges coins.prover.proveMultiple →
    list.HasWitness redemption.eMax →
    ∃ cp, redemption.proveNotRevoked sha bls dalek generators list pk coins = .ok cp ∧
      redemption.verifyNotRevoked sha bls dalek generators list pk ranges cp = .ok ()
  shifted : ∀ (coins : ClientRevocationCoins P R) (e : UInt64) (gap : SignedRevocationGap G1)
    (cp : ClientRevocationProof P G1 GT R), e ≠ redemption.eMax →
    list.isBlacklisted redemption.eMax = true → list.findGap e = .ok gap →
    list.proveEmaxWithBases sha bls dalek coins pk e redemption.rDelta (generators.h 5)
      (generators.h 0) = .ok cp →
    (challengedValue sha bls dalek cp.proof.batchedEqProof (cp.proof.statement cp.userComRist
        (Scalar.ofU64 e • generators.h 5 + redemption.rDelta • generators.h 0)) e gap.left
        gap.right : Scalar) ≠
      challengedValue sha bls dalek cp.proof.batchedEqProof (cp.proof.statement cp.userComRist
        (Scalar.ofU64 redemption.eMax • generators.h 5 + redemption.rDelta • generators.h 0))
        redemption.eMax gap.left gap.right →
    redemption.verifyNotRevoked sha bls dalek generators list pk ranges cp ≠ .ok ()

variable {sha bls dalek ranges generators} {sk : RevocationSecretKey} {h : ℕ → G1}
  {ctx : RevocationContext} {blacklisted : List UInt64} {redemption : Redemption G1}
  {nowUnix : UInt64} (hhonest : redemption.HonestAt sha bls dalek generators nowUnix)

include hhonest

/-- A proof for the expiry shifted by the difference of the two times is accepted. -/
theorem shifted_accepted {coins : ClientRevocationCoins P R} {e : UInt64}
    (hshift : Scalar.ofU64 redemption.eMax - Scalar.ofU64 nowUnix + Scalar.ofU64 ctx.nowUnix =
      Scalar.ofU64 e) (hwitness : (signBlacklist sha sk h ctx blacklisted).HasWitness e)
    (hcomplete : AggregationComplete dalek ranges coins.prover.proveMultiple) :
    ∃ cp, (signBlacklist sha sk h ctx blacklisted).proveEmaxWithBases sha bls dalek coins
        (sk.publicKey bls) e redemption.rDelta (generators.h 5) (generators.h 0) = .ok cp ∧
      redemption.verifyNotRevoked sha bls dalek generators (signBlacklist sha sk h ctx blacklisted)
        (sk.publicKey bls) ranges cp = .ok () := by
  rcases proveEmaxWithBases_accepted bls redemption.rDelta (generators.h 5) (generators.h 0)
    hwitness hcomplete with ⟨cp, hprove, haccepted⟩
  refine ⟨cp, hprove, Redemption.verifyNotRevoked_ok.mpr ?_⟩
  rw [hhonest.emaxBlsCommitment_eq]
  exact hshift ▸ haccepted

/-- At the time of the list the owner of an expiry with a usable gap is accepted. -/
theorem owner_accepted (hnow : ctx.nowUnix = nowUnix) {coins : ClientRevocationCoins P R}
    (hwitness : (signBlacklist sha sk h ctx blacklisted).HasWitness redemption.eMax)
    (hcomplete : AggregationComplete dalek ranges coins.prover.proveMultiple) :
    ∃ cp, redemption.proveNotRevoked sha bls dalek generators
        (signBlacklist sha sk h ctx blacklisted) (sk.publicKey bls) coins = .ok cp ∧
      redemption.verifyNotRevoked sha bls dalek generators (signBlacklist sha sk h ctx blacklisted)
        (sk.publicKey bls) ranges cp = .ok () := by
  rw [Redemption.proveNotRevoked_eq]
  refine shifted_accepted hhonest ?_ hwitness hcomplete
  rw [hnow, sub_add_cancel]

/-- Whoever redeems at the time of the list, with an expiry that has witness inputs, can prove
that it is not revoked and is accepted. The response is in range, the verifier computes the
commitments to the differences that the prover made, and the gap proof passes on the bases
of the expiry commitment. -/
theorem notRevoked_complete (hnow : ctx.nowUnix = nowUnix) {coins : ClientRevocationCoins P R}
    (hwitness : (signBlacklist sha sk h ctx blacklisted).HasWitness redemption.eMax)
    (hcomplete : AggregationComplete dalek ranges coins.prover.proveMultiple) :
    ∃ cp, redemption.proveNotRevoked sha bls dalek generators
        (signBlacklist sha sk h ctx blacklisted) (sk.publicKey bls) coins = .ok cp ∧
      redemption.verifyNotRevoked sha bls dalek generators (signBlacklist sha sk h ctx blacklisted)
        (sk.publicKey bls) ranges cp = .ok () ∧
      cp.proof.batchedEqProof.zE < zELimit ∧
      cp.userComRist - cp.proof.comEaRist - ristrettoGv sha dalek = cp.proof.comDiff1 ∧
      cp.proof.comEbRist - cp.userComRist - ristrettoGv sha dalek = cp.proof.comDiff2 ∧
      cp.proof.gapProof.verify sha bls (sk.publicKey bls) (gapContextScalar sha ctx)
        (generators.h 5) (generators.h 0) = true := by
  rcases owner_accepted hhonest hnow hwitness hcomplete with ⟨cp, hprove, haccepted⟩
  rcases verifyNonMembershipProof_iff.mp (Redemption.verifyNotRevoked_ok.mp haccepted) with
    ⟨hequality, hgap, ⟨hdiff1, hdiff2⟩, -⟩
  exact ⟨cp, hprove, haccepted, (verifyAt_iff.mp hequality).1, hdiff1, hdiff2, hgap⟩

/-- At the time of the list a proof made for another value is rejected, unless the hashes over
the two statements balance out. -/
theorem shifted_rejected (hindep : LinearIndependent Scalar ![generators.h 5, generators.h 0])
    (hnow : ctx.nowUnix = nowUnix) {coins : ClientRevocationCoins P R} {e : UInt64}
    {gap : SignedRevocationGap G1} {cp : ClientRevocationProof P G1 GT R}
    (hfind : (signBlacklist sha sk h ctx blacklisted).findGap e = .ok gap)
    (hprove : (signBlacklist sha sk h ctx blacklisted).proveEmaxWithBases sha bls dalek coins
      (sk.publicKey bls) e redemption.rDelta (generators.h 5) (generators.h 0) = .ok cp)
    (hbalance : (challengedValue sha bls dalek cp.proof.batchedEqProof (cp.proof.statement
        cp.userComRist (Scalar.ofU64 e • generators.h 5 + redemption.rDelta • generators.h 0)) e
        gap.left gap.right : Scalar) ≠
      challengedValue sha bls dalek cp.proof.batchedEqProof (cp.proof.statement cp.userComRist
        (Scalar.ofU64 redemption.eMax • generators.h 5 + redemption.rDelta • generators.h 0))
        redemption.eMax gap.left gap.right) :
    redemption.verifyNotRevoked sha bls dalek generators (signBlacklist sha sk h ctx blacklisted)
      (sk.publicKey bls) ranges cp ≠ .ok () := by
  intro haccepted
  rcases proveEmaxWithBases_ok.mp hprove with ⟨found, hfound, -, hcreate, hrist⟩
  cases hfind.symm.trans hfound
  rcases findGap_spec hfind with ⟨-, hleft, hright⟩
  rcases (createNonMembershipProof_ok sha bls dalek coins.prover coins.r1Emax redemption.rDelta
    (sk.publicKey bls) gap.signature coins.r2Ea coins.r2Eb coins.r1Ea coins.r1Eb
    (gapContextScalar sha ctx) (generators.h 5) (generators.h 0) hleft hright).mp hcreate with
    ⟨rangeProof, -, hproof⟩
  -- an accepted proof would make the two statements ask for the same value
  have hverify := Redemption.verifyNotRevoked_ok.mp haccepted
  have hlist : (signBlacklist sha sk h ctx blacklisted).ctx = ctx := rfl
  rw [hlist, hnow, hhonest.emaxBlsCommitment_self, hrist] at hverify
  rw [hrist] at hbalance
  exact hbalance (challengedValue_eq_of_accepted hindep hproof hverify)

/-- The check is about the expiry of the token if and only if the list carries the time of
the proof. -/
theorem checksOwnEmax_iff (hindep : LinearIndependent Scalar ![generators.h 5, generators.h 0]) :
    ChecksOwnEmax sha bls dalek ranges generators (signBlacklist sha sk h ctx blacklisted)
      (sk.publicKey bls) redemption ↔ ctx.nowUnix = nowUnix := by
  constructor
  · intro hchecks
    rcases hchecks.opens with ⟨r, hopen⟩
    rw [hhonest.emaxBlsCommitment_eq] at hopen
    have hcoord := (Extraction.pair_unique hindep hopen).1
    -- the two times are the same scalar, and both are below the order
    refine ofU64_injective ?_
    calc Scalar.ofU64 ctx.nowUnix
        = Scalar.ofU64 redemption.eMax - Scalar.ofU64 nowUnix + Scalar.ofU64 ctx.nowUnix -
          (Scalar.ofU64 redemption.eMax - Scalar.ofU64 nowUnix) := (add_sub_cancel_left _ _).symm
      _ = Scalar.ofU64 redemption.eMax - (Scalar.ofU64 redemption.eMax - Scalar.ofU64 nowUnix) :=
          congrArg (· - _) hcoord
      _ = Scalar.ofU64 nowUnix := sub_sub_cancel _ _
  · intro hnow
    refine ⟨⟨redemption.rDelta, hnow ▸ hhonest.emaxBlsCommitment_self⟩, ?_, ?_⟩
    · intro coins hcomplete hwitness
      exact owner_accepted hhonest hnow hwitness hcomplete
    · intro coins e gap cp _ _ hfind hprove hbalance
      exact shifted_rejected hhonest hindep hnow hfind hprove hbalance

end Check

section Example

/-- Range proofs that reveal the values and their blinders. -/
def openedRanges : RangeProofs (List UInt64 × List DalekScalar) DalekScalar where
  verifyMultiple := fun (values, blindings) _ pc _ commitments bits =>
    if values.all (·.toNat < 2 ^ bits) ∧ commitments = List.zipWith (fun v r =>
      lineDalek.compress ((v.toNat : DalekScalar) • pc.b + r • pc.bBlinding)) values blindings then
      .ok () else .error "VerificationError"

def oneRevocationCoins : ClientRevocationCoins (List UInt64 × List DalekScalar) DalekScalar where
  r1Emax := 1
  r2Ea := 1
  r2Eb := 1
  r1Ea := 1
  r1Eb := 1
  prover := {
    t := 1
    rEa := 1
    rRa := 1
    rEb := 1
    rRb := 1
    equality := ⟨leArray 54 1, leArray 32 1, 1⟩
    proveMultiple := fun _ _ _ values blindings _ => .ok (values, blindings) }

theorem oneRevocationCoins_complete :
    AggregationComplete lineDalek openedRanges oneRevocationCoins.prover.proveMultiple := by
  intro gens pc transcript values blindings bits _ _ _ _ _ hvalues
  have hall : values.all (·.toNat < 2 ^ bits) := by
    simpa only [List.all_eq_true, decide_eq_true_eq] using hvalues
  exact ⟨(values, blindings), rfl, if_pos ⟨hall, rfl⟩⟩

/-- A master token for ten units on the secret five, up to the time 1000. -/
def thousandMaster : BbsSignature UnitSpace where
  a := (1 + unitKeys.skMaster)⁻¹ • masterMessage unitGenerators 1 5 10 1000
  e := 1
  s := 1

theorem thousandMaster_signs : Signs unitKeys.skMaster thousandMaster
    (masterMessage unitGenerators thousandMaster.s 5 10 1000) := by
  have hdenom : thousandMaster.e + unitKeys.skMaster ≠ 0 := by
    show (1 : Scalar) + 1 ≠ 0
    decide +kernel
  exact ⟨hdenom, smul_inv_smul₀ hdenom _⟩

/-- The refresh of that token at the time 900. -/
theorem thousandRefresh : ∃ client proof, refreshProve unitGenerators oneRefreshCoins thousandMaster
    5 10 1000 3 900 lineSha lineBlstrs lineDalek unitKeys.pkMaster 7 = .ok (client, proof) ∧
      client.eMax = 1000 := by
  have hrange : RangeComplete lineDalek oneRefreshCoins.beq := oneBeqCoins_complete
  rcases refreshProve_complete lineSha lineBlstrs lineDalek unitGenerators 7 5 lineDalek_decompress
    hrange thousandMaster 10 3 unitKeys.pkMaster (by decide : (900 : UInt64) ≤ 1000) with
    ⟨_, hprove, -⟩
  exact ⟨_, _, hprove, rfl⟩

/-- A list at a time with one revoked value. -/
def revokedAt (nowUnix revoked : UInt64) : SignedRevocationList UnitSpace :=
  signBlacklist lineSha fourKey (fun _ => unitGenerators.g1) ⟨[], [], leArray 32 0, 1, nowUnix⟩
    [revoked]

/-- One revoked value leaves witness inputs for the others of the domain. -/
theorem oneRevoked_hasWitness {sha : Sha2} {sk : RevocationSecretKey} {h : ℕ → UnitSpace}
    {ctx : RevocationContext} {revoked e : UInt64} (hpos : 0 < e)
    (hdomain : e < revocationDomainMaxV1) (hrevoked : revoked ≤ revocationDomainMaxV1)
    (hnow : ctx.nowUnix ≤ e) (hne : e ≠ revoked) :
    (signBlacklist sha sk h ctx [revoked]).HasWitness e := by
  obtain ⟨gap, hfind⟩ : ∃ gap, (signBlacklist sha sk h ctx [revoked]).findGap e = .ok gap :=
    (findGap_ok_iff hpos hdomain).mpr fun hmem => hne (List.mem_singleton.mp hmem)
  rcases findGap_spec hfind with ⟨hgap, hleft, hright⟩
  have hend : gap.right ≤ revocationDomainMaxV1 := by
    rcases right_revoked_or_last hgap with hcut | ⟨hlast, -⟩
    · rwa [List.mem_singleton.mp hcut]
    · exact hlast ▸ UInt64.le_refl _
  exact ⟨0, 0, 0, 0, 0, 0, _, (SignedRevocationList.witnessInputs_ok _).mpr
    ⟨gap, hfind, validateGapInterval_ok.mpr ⟨hleft, hright, hend, hnow⟩, rfl⟩⟩

/-- The owner of a token up to the time 1000, with another value revoked. -/
theorem notRevoked_complete_thousand : ∃ redemption : Redemption UnitSpace, ∃ cp,
    redemption.HonestAt lineSha lineBlstrs lineDalek unitGenerators 900 ∧
      redemption.proveNotRevoked lineSha lineBlstrs lineDalek unitGenerators (revokedAt 900 2000)
        (fourKey.publicKey lineBlstrs) oneRevocationCoins = .ok cp ∧
      redemption.verifyNotRevoked lineSha lineBlstrs lineDalek unitGenerators (revokedAt 900 2000)
        (fourKey.publicKey lineBlstrs) openedRanges cp = .ok () := by
  rcases thousandRefresh with ⟨client, proof, hprove, hemax⟩
  have hhonest : (Redemption.refresh client proof).HonestAt lineSha lineBlstrs lineDalek
      unitGenerators 900 := ⟨_, _, _, _, _, _, _, _, hprove⟩
  have hwitness : (revokedAt 900 2000).HasWitness (Redemption.refresh client proof).eMax := by
    show (revokedAt 900 2000).HasWitness client.eMax
    rw [hemax]
    exact oneRevoked_hasWitness (by decide) (by decide) (by decide) (by decide) (by decide)
  rcases notRevoked_complete hhonest rfl hwitness oneRevocationCoins_complete with
    ⟨cp, hcp, haccepted, -⟩
  exact ⟨_, cp, hhonest, hcp, haccepted⟩

theorem checksOwnEmax_iff_thousand : ∃ redemption : Redemption UnitSpace,
    redemption.HonestAt lineSha lineBlstrs lineDalek unitGenerators 900 ∧
    ChecksOwnEmax lineSha lineBlstrs lineDalek openedRanges unitGenerators (revokedAt 900 1000)
      (fourKey.publicKey lineBlstrs) redemption := by
  rcases thousandRefresh with ⟨client, proof, hprove, -⟩
  have hhonest : (Redemption.refresh client proof).HonestAt lineSha lineBlstrs lineDalek
      unitGenerators 900 := ⟨_, _, _, _, _, _, _, _, hprove⟩
  exact ⟨_, hhonest, (checksOwnEmax_iff hhonest unitRevocation_independent).mpr rfl⟩

/-- A valid token up to the time 1000, which is revoked by a list of the time 901, and its
refresh at the time 900: the commitment checked does not open to 1000, and the proof for
1001 is accepted. -/
theorem revoked_token_accepted :
    Signs unitKeys.skMaster thousandMaster (masterMessage unitGenerators thousandMaster.s 5 10
      1000) ∧
    LinearIndependent Scalar ![unitGenerators.h 5, unitGenerators.h 0] ∧
    (revokedAt 901 1000).isBlacklisted 1000 = true ∧
    (revokedAt 901 1000).isBlacklisted 1001 = false ∧
    ∃ client proof, refreshProve unitGenerators oneRefreshCoins thousandMaster 5 10 1000 3 900
        lineSha lineBlstrs lineDalek unitKeys.pkMaster 7 = .ok (client, proof) ∧
      client.eMax = 1000 ∧
      (∀ r : Scalar, refreshEmaxBlsCommitment unitGenerators (revokedAt 901 1000).ctx.nowUnix
        proof ≠ Scalar.ofU64 1000 • unitGenerators.h 5 + r • unitGenerators.h 0) ∧
      ∃ cp, (revokedAt 901 1000).proveEmaxWithBases lineSha lineBlstrs lineDalek oneRevocationCoins
          (fourKey.publicKey lineBlstrs) 1001 client.rDelta (unitGenerators.h 5)
          (unitGenerators.h 0) = .ok cp ∧
        verifyRefreshNotRevokedFromClientProof lineSha lineBlstrs lineDalek openedRanges
          (revokedAt 901 1000) cp (fourKey.publicKey lineBlstrs) proof unitGenerators = .ok () := by
  rcases thousandRefresh with ⟨client, proof, hprove, hemax⟩
  have hhonest : (Redemption.refresh client proof).HonestAt lineSha lineBlstrs lineDalek
      unitGenerators 900 := ⟨_, _, _, _, _, _, _, _, hprove⟩
  have hshift : Scalar.ofU64 (Redemption.refresh client proof).eMax - Scalar.ofU64 900 +
      Scalar.ofU64 901 = Scalar.ofU64 1001 := by
    show Scalar.ofU64 client.eMax - _ + _ = _
    rw [hemax]
    decide +kernel
  refine ⟨thousandMaster_signs, unitRevocation_independent, ?_, ?_, client, proof, hprove, hemax,
    ?_, ?_⟩
  · exact isBlacklisted_iff.mpr (List.mem_singleton_self _)
  · exact Bool.eq_false_iff.mpr fun hin => absurd (isBlacklisted_iff.mp hin) (by decide)
  · intro r hopen
    have hshifted := hhonest.emaxBlsCommitment_eq (901 : UInt64)
    rw [hshift] at hshifted
    have hcoord := (Extraction.pair_unique unitRevocation_independent
      (hshifted.symm.trans hopen)).1
    exact absurd (ofU64_injective hcoord) (by decide)
  · exact shifted_accepted hhonest hshift
      (oneRevoked_hasWitness (by decide) (by decide) (by decide) (by decide) (by decide))
      oneRevocationCoins_complete

end Example

end Ebut
