import Ebut.Theory.Accountable
import Ebut.Theory.Honest

/-!
# What the Server Signs Blindly

The client of a master token chooses the point that the server signs. The proof of
knowledge confines the point to the two generators of the secret and its blinder: a first
message that is answered at two challenges opens it there. So the client cannot smuggle a
quota or an expiry into its commitment, and since the signed message has coordinates over
independent generators, the signature is one on nothing else.

## Main definitions

* `SignsMaster`: A signature on a secret, a quota and an expiry.

## Theorems

* `commitment_opens`: A commitment answered at two challenges opens.
* `masterMintIssue_eq`: What the server issues on an opened commitment.
* `signsMaster_unique`: A signature belongs to one triple of messages.
* `mint_signs_server_choice`: The server signs its own choice and nothing else.
-/

namespace Ebut

open Extraction

variable {G1 G2 GT : Type} [AddCommGroup G1] [Module Scalar G1]

/-- The signature is one on the secret `x`, the quota `cMax` and the expiry `eMax`. -/
def SignsMaster (generators : Generators G1 G2) (sk : Scalar) (sig : BbsSignature G1)
    (x cMax eMax : Scalar) : Prop :=
  (sig.e + sk) • sig.a = generators.g1 + sig.s • generators.h 0 + x • generators.h 1 +
    cMax • generators.h 3 + eMax • generators.h 5

variable {generators : Generators G1 G2}

/-- Two answers at distinct challenges open the commitment. -/
theorem commitment_opens {kSubCommit t : G1} {c c' sK sR sK' sR' : Scalar} (hne : c ≠ c')
    (hacc : ProofOfKnowledge.AcceptsAt generators kSubCommit c ⟨t, sK, sR⟩)
    (hacc' : ProofOfKnowledge.AcceptsAt generators kSubCommit c' ⟨t, sK', sR'⟩) :
    ∃ x r, kSubCommit = commit x r (generators.h 1) (generators.h 0) := by
  have hfirst : ∀ {c sK sR : Scalar},
      ProofOfKnowledge.AcceptsAt generators kSubCommit c ⟨t, sK, sR⟩ →
      t = sK • generators.h 1 + sR • generators.h 0 - c • kSubCommit := by
    intro c sK sR h
    refine eq_sub_of_add_eq ?_
    rw [← show _ = t + c • kSubCommit from h]
    simp only [ProofOfKnowledge.bases, g1Msm_cons, g1Msm_nil, add_zero]
  exact ⟨_, _, opening_of_two hne (hfirst hacc) (hfirst hacc')⟩

/-- The opening of a commitment is unique. -/
theorem commit_unique (hind : LinearIndependent Scalar generators.points) {x r x' r' : Scalar}
    (h : commit x r (generators.h 1) (generators.h 0) =
      commit x' r' (generators.h 1) (generators.h 0)) : x = x' ∧ r = r' :=
  pair_unique (independent_pair hind (by decide)) h

/-- One signature signs one triple of messages: they are coordinates over the generators. -/
theorem signsMaster_unique (hind : LinearIndependent Scalar generators.points) {sk : Scalar}
    {a : G1} {e s s' x x' cMax cMax' eMax eMax' : Scalar}
    (h : SignsMaster generators sk ⟨a, e, s⟩ x cMax eMax)
    (h' : SignsMaster generators sk ⟨a, e, s'⟩ x' cMax' eMax') :
    x' = x ∧ cMax' = cMax ∧ eMax' = eMax := by
  have hcoords : ∀ {s x cMax eMax : Scalar},
      SignsMaster generators sk ⟨a, e, s⟩ x cMax eMax →
      (e + sk) • a = ∑ i, ![1, s, x, 0, cMax, 0, eMax] i • generators.points i := by
    intro s x cMax eMax h
    rw [Fin.sum_univ_seven]
    refine Eq.trans h ?_
    show _ = (1 : Scalar) • generators.g1 + s • generators.h 0 + x • generators.h 1 +
      (0 : Scalar) • generators.h 2 + cMax • generators.h 3 + (0 : Scalar) • generators.h 4 +
      eMax • generators.h 5
    rw [one_smul, zero_smul, zero_smul, add_zero, add_zero]
  have heq := hind.eq_coords_of_eq ((hcoords h').symm.trans (hcoords h))
  exact ⟨heq 2, heq 4, heq 6⟩

variable [AddCommGroup G2] [Module Scalar G2] [AddCommGroup GT] [Module Scalar GT]
  [DecidableEq G1]

/-- What the server issues to a client whose commitment opens, finished with the client's
blinder. -/
theorem masterMintIssue_eq {sha : Sha2} {bls : Blstrs G1 G2 GT} {keys : ServerKeys generators}
    {hCtx : Scalar} {request : MasterMintRequest G1} {x r : Scalar}
    (hopen : request.kSubCommit = commit x r (generators.h 1) (generators.h 0))
    (hverify : request.pok.verify sha bls request.kSubCommit generators hCtx = .ok ())
    {cMax : UInt32} (hcMax : 0 < cMax) (eMax : UInt64) {eSub sPrimeSub : Scalar}
    (hdenom : eSub + keys.skMaster ≠ 0) :
    ∃ aSub, masterMintIssue sha bls request cMax eMax generators keys hCtx eSub sPrimeSub =
        .ok (aSub, eSub, sPrimeSub) ∧
      SignsMaster generators keys.skMaster ⟨aSub, eSub, r + sPrimeSub⟩ x (Scalar.ofU32 cMax)
        (Scalar.ofU64 eMax) := by
  have hzero : ¬cMax = 0 := fun hzero => UInt32.lt_irrefl 0 (hzero ▸ hcMax)
  -- the server adds the quota and the expiry to the commitment, and the rest of the blinder
  let message := request.kSubCommit + (sPrimeSub • generators.h 0 +
    (Scalar.ofU32 cMax • generators.h 3 + Scalar.ofU64 eMax • generators.h 5))
  refine ⟨(eSub + keys.skMaster)⁻¹ • (generators.g1 + message), ?_, ?_⟩
  · unfold masterMintIssue
    rw [hverify]
    simp only [rejectIf, if_neg hzero, if_neg hdenom, g1Msm_cons, g1Msm_nil, one_smul, add_zero]
    rfl
  · unfold SignsMaster
    rw [smul_inv_smul₀ hdenom]
    simp only [message, hopen, commit]
    module

/-- A commitment whose proof is accepted at two challenges opens uniquely as `x * h1 + r * h0`.
Whatever the server issues on a request with it is a signature on `x` and on the quota and the
expiry that the server chose, and no blinder makes it one on anything else. -/
theorem mint_signs_server_choice (hind : LinearIndependent Scalar generators.points) (sha : Sha2)
    (bls : Blstrs G1 G2 GT) (keys : ServerKeys generators) (hCtx : Scalar) {kSubCommit t : G1}
    {c c' sK sR sK' sR' : Scalar} (hne : c ≠ c')
    (hacc : ProofOfKnowledge.AcceptsAt generators kSubCommit c ⟨t, sK, sR⟩)
    (hacc' : ProofOfKnowledge.AcceptsAt generators kSubCommit c' ⟨t, sK', sR'⟩) :
    ∃ x r, kSubCommit = commit x r (generators.h 1) (generators.h 0) ∧
      (∀ x' r', kSubCommit = commit x' r' (generators.h 1) (generators.h 0) →
        x' = x ∧ r' = r) ∧
      ∀ request : MasterMintRequest G1, request.kSubCommit = kSubCommit →
        request.pok.verify sha bls request.kSubCommit generators hCtx = .ok () →
        ∀ (cMax : UInt32) (eMax : UInt64) (eSub sPrimeSub : Scalar), 0 < cMax →
          eSub + keys.skMaster ≠ 0 →
          ∃ aSub, masterMintIssue sha bls request cMax eMax generators keys hCtx eSub
              sPrimeSub = .ok (aSub, eSub, sPrimeSub) ∧
            (∀ client : MasterMintClient, client.rSub = r →
              SignsMaster generators keys.skMaster (client.finalize aSub eSub sPrimeSub) x
                (Scalar.ofU32 cMax) (Scalar.ofU64 eMax)) ∧
            ∀ x' c' e', (x', c', e') ≠ (x, Scalar.ofU32 cMax, Scalar.ofU64 eMax) →
              ¬∃ s, SignsMaster generators keys.skMaster ⟨aSub, eSub, s⟩ x' c' e' := by
  rcases commitment_opens hne hacc hacc' with ⟨x, r, hopen⟩
  refine ⟨x, r, hopen, ?_, ?_⟩
  · intro x' r' hopen'
    exact commit_unique hind (hopen'.symm.trans hopen)
  · intro request hrequest hverify cMax eMax eSub sPrimeSub hcMax hdenom
    rcases masterMintIssue_eq (hrequest.trans hopen) hverify hcMax eMax hdenom with
      ⟨aSub, hissue, hsigned⟩
    refine ⟨aSub, hissue, ?_, ?_⟩
    · intro client hclient
      rw [MasterMintClient.finalize, hclient]
      exact hsigned
    · rintro x' c' e' hdiff ⟨s, hsigned'⟩
      rcases signsMaster_unique hind hsigned hsigned' with ⟨rfl, rfl, rfl⟩
      exact hdiff rfl

section Example

/-- The client's secret is five and its blinder three. -/
def unitCommit : UnitSpace := commit 5 3 (unitGenerators.h 1) (unitGenerators.h 0)

/-- The answers `s_k = c * 5` and `s_r = c * 3` to the first message zero. -/
theorem unitCommit_accepted (c : Scalar) :
    ProofOfKnowledge.AcceptsAt unitGenerators unitCommit c ⟨0, c * 5, c * 3⟩ := by
  unfold ProofOfKnowledge.AcceptsAt unitCommit
  simp only [ProofOfKnowledge.bases, g1Msm_cons, g1Msm_nil, commit]
  module

/-- A request for that commitment verifies, and what is issued on one is a signature on the
secret. -/
theorem mint_signs_server_choice_unit :
    (∃ request : MasterMintRequest UnitSpace, request.kSubCommit = unitCommit ∧
      request.pok.verify lineSha unitBlstrs request.kSubCommit unitGenerators 7 = .ok ()) ∧
    ∃ x r, unitCommit = commit x r (unitGenerators.h 1) (unitGenerators.h 0) ∧
      (∀ x' r', unitCommit = commit x' r' (unitGenerators.h 1) (unitGenerators.h 0) →
        x' = x ∧ r' = r) ∧
      ∀ request : MasterMintRequest UnitSpace, request.kSubCommit = unitCommit →
        request.pok.verify lineSha unitBlstrs request.kSubCommit unitGenerators 7 = .ok () →
        ∀ (cMax : UInt32) (eMax : UInt64) (eSub sPrimeSub : Scalar), 0 < cMax →
          eSub + unitKeys.skMaster ≠ 0 →
          ∃ aSub, masterMintIssue lineSha unitBlstrs request cMax eMax unitGenerators unitKeys 7
              eSub sPrimeSub = .ok (aSub, eSub, sPrimeSub) ∧
            (∀ client : MasterMintClient, client.rSub = r →
              SignsMaster unitGenerators unitKeys.skMaster (client.finalize aSub eSub sPrimeSub)
                x (Scalar.ofU32 cMax) (Scalar.ofU64 eMax)) ∧
            ∀ x' c' e', (x', c', e') ≠ (x, Scalar.ofU32 cMax, Scalar.ofU64 eMax) →
              ¬∃ s, SignsMaster unitGenerators unitKeys.skMaster ⟨aSub, eSub, s⟩ x' c' e' :=
  ⟨⟨⟨unitCommit, ProofOfKnowledge.prove lineSha unitBlstrs 2 9 5 3 unitCommit unitGenerators 7⟩,
      rfl, proofOfKnowledge_verify 2 9 5 3⟩,
    mint_signs_server_choice unitGenerators_independent lineSha unitBlstrs unitKeys 7
      (by decide +kernel : (1 : Scalar) ≠ 2) (unitCommit_accepted 1) (unitCommit_accepted 2)⟩

end Example

end Ebut
