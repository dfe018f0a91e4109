import Ebut.Core.BbsProof
import Ebut.Theory.Token

/-!
# What a Disclosed Message Discloses

The verifier of the general proof of possession hashes the disclosed messages into the
challenge and otherwise leaves them alone: a disclosed position has a free response like a
hidden one, and no equation compares it with the disclosed value. The verifiers of a spend
and of a refresh put the disclosed attribute times `z_r1` where the response would be.

So a holder of a signature discloses what it likes. It answers with the messages that are
signed, at every challenge, whatever values the challenge was hashed from, and a mask is
sound only if it discloses nothing.

## Main definitions

* `SignedMessages`: A genuine signature on up to five messages.
* `DisclosureStrategy`: A first message, and responses depending on the challenge.
* `AcceptedTwice`: Acceptance at two distinct challenges.
* `DisclosesSigned`: Every disclosed value is the message that was signed.
* `truthfulStrategy`: The responses of the signed messages.

## Theorems

* `truthfulStrategy_accepted`: They are accepted at every challenge.
* `any_disclosure_verifies`: Any disclosed values pass the whole verifier.
* `disclosure_sound_iff`: Which masks are sound.
-/

namespace Ebut

open Extraction

variable {G1 G2 GT : Type} [AddCommGroup G1] [Module Scalar G1]

/-- A genuine BBS+ signature on up to five messages. -/
structure SignedMessages (generators : Generators G1 G2) (sk : Scalar) where
  a : G1
  e : Scalar
  sig : Scalar
  messages : List Scalar
  length_le : messages.length ≤ 5
  valid : (e + sk) • a = msmTerms
    ((generators.g1, 1) :: (generators.h 0, sig) :: messageTerms generators messages)

/-- A cheating holder: a first message, and the free responses, chosen after the challenge. -/
structure DisclosureStrategy (G1 : Type) where
  tBbs : G1
  zSTilde : Scalar → Scalar
  zMTilde : Scalar → List Scalar

variable {generators : Generators G1 G2} {sk : Scalar}

/-- The proof sent at challenge `c` by a holder that shows its signature as `poss` says. The
pairing check is `A_bar = sk * A'`. -/
def DisclosureStrategy.proofAt (strategy : DisclosureStrategy G1)
    (token : SignedMessages generators sk) (poss : Possession) (c : Scalar) : BbsProof G1 where
  aPrime := poss.r1 • token.a
  aBar := sk • poss.r1 • token.a
  tBbs := strategy.tBbs
  zE := poss.rhoE + c * token.e
  zR1 := poss.rhoR + c * poss.r1
  zSTilde := strategy.zSTilde c
  zMTilde := strategy.zMTilde c

/-- Every disclosed value is the message that was signed. -/
def DisclosesSigned (messages : List Scalar) (disclosed : List (Option Scalar)) : Prop :=
  ∀ (i : ℕ) (v : Scalar), disclosed[i]? = some (some v) → messages[i]? = some v

/-- The responses of the signed messages, blinded by `σ` at the first generator only. -/
def truthfulStrategy (token : SignedMessages generators sk) (poss : Possession) (σ : Scalar) :
    DisclosureStrategy G1 where
  tBbs := poss.rhoR • generators.g1 - poss.rhoE • poss.r1 • token.a + σ • generators.h 0
  zSTilde := fun c => σ + c * (poss.r1 * token.sig)
  zMTilde := fun c => token.messages.map fun m => c * poss.r1 * m

theorem msmTerms_cons (p : G1 × Scalar) (terms : List (G1 × Scalar)) :
    msmTerms (p :: terms) = p.2 • p.1 + msmTerms terms := by
  rw [msmTerms_eq_sum, msmTerms_eq_sum, List.map_cons, List.sum_cons]

/-- A common factor of all messages comes out of the sum. -/
theorem msmTerms_messageTerms_map (k : Scalar) (messages : List Scalar) :
    msmTerms (messageTerms generators (messages.map fun m => k * m)) =
      k • msmTerms (messageTerms generators messages) := by
  rw [msmTerms_eq_sum, msmTerms_eq_sum, List.smul_sum, List.map_map, messageTerms, messageTerms,
    List.zip_map_right, List.map_map]
  refine congrArg List.sum (List.map_congr_left fun p _ => ?_)
  exact mul_smul k p.2 p.1

/-- The truthful responses balance the equation at every challenge. -/
theorem truthfulStrategy_schnorr (token : SignedMessages generators sk) (poss : Possession)
    (σ c : Scalar) :
    ((truthfulStrategy token poss σ).proofAt token poss c).schnorrLhs generators =
      (truthfulStrategy token poss σ).tBbs + c • sk • poss.r1 • token.a := by
  have hvalid := token.valid
  rw [msmTerms_cons, msmTerms_cons] at hvalid
  have hmessages : msmTerms (messageTerms generators token.messages) =
      (token.e + sk) • token.a - (1 : Scalar) • generators.g1 - token.sig • generators.h 0 := by
    rw [hvalid]
    module
  simp only [BbsProof.schnorrLhs, DisclosureStrategy.proofAt, truthfulStrategy]
  rw [msmTerms_cons, msmTerms_cons, msmTerms_cons, msmTerms_messageTerms_map, hmessages]
  module

/-- A signature is not the identity. -/
theorem SignedMessages.a_ne_zero (hind : LinearIndependent Scalar generators.points)
    (token : SignedMessages generators sk) : token.a ≠ 0 := by
  intro hzero
  have hvalid := token.valid
  rw [hzero, smul_zero, msmTerms_cons, msmTerms_cons, one_smul] at hvalid
  have hspan : ∀ i, generators.h i ∈ Submodule.span Scalar (Set.range generators.h) :=
    fun i => Submodule.subset_span ⟨i, rfl⟩
  have hmessages : msmTerms (messageTerms generators token.messages) ∈
      Submodule.span Scalar (Set.range generators.h) := by
    rw [msmTerms_eq_sum]
    refine list_sum_mem fun point hpoint => ?_
    rcases List.mem_map.mp hpoint with ⟨p, hp, rfl⟩
    rcases List.mem_map.mp (List.of_mem_zip hp).1 with ⟨i, _, hi⟩
    rw [← hi]
    exact Submodule.smul_mem _ _ (hspan i.succ)
  -- the first generator would be a combination of the others
  have hg1 : generators.g1 ∈ Submodule.span Scalar (Set.range generators.h) := by
    rw [show generators.g1 = -(token.sig • generators.h 0 +
      msmTerms (messageTerms generators token.messages)) from
      eq_neg_of_add_eq_zero_left hvalid.symm]
    exact Submodule.neg_mem _ (Submodule.add_mem _ (Submodule.smul_mem _ _ (hspan 0)) hmessages)
  exact (linearIndependent_finCons.mp hind).2 hg1

/-- Some blinder keeps the first message away from the identity. -/
theorem exists_truthful_tBbs_ne_zero (hind : LinearIndependent Scalar generators.points)
    (token : SignedMessages generators sk) (poss : Possession) :
    ∃ σ, (truthfulStrategy token poss σ).tBbs ≠ 0 := by
  refine exists_ne_zero hind ?_
  simp only [truthfulStrategy]
  module

variable [AddCommGroup G2] [Module Scalar G2] [AddCommGroup GT] [Module Scalar GT]
  [DecidableEq G1] [DecidableEq GT]

/-- The verifier accepts the strategy at two distinct challenges. -/
def AcceptedTwice (bls : Blstrs G1 G2 GT) (pk : G2) (token : SignedMessages generators sk)
    (poss : Possession) (disclosed : List (Option Scalar)) (strategy : DisclosureStrategy G1) :
    Prop :=
  ∃ c c', c ≠ c' ∧
    (strategy.proofAt token poss c).verifyAt bls generators pk disclosed c = .ok () ∧
    (strategy.proofAt token poss c').verifyAt bls generators pk disclosed c' = .ok ()

/-- The truthful responses are accepted at every challenge, with any values disclosed. -/
theorem truthfulStrategy_accepted (hind : LinearIndependent Scalar generators.points)
    (bls : Blstrs G1 G2 GT) {pk : G2} (hpk : pk = sk • generators.g2)
    (token : SignedMessages generators sk) (poss : Possession) {σ : Scalar}
    (hσ : (truthfulStrategy token poss σ).tBbs ≠ 0) {disclosed : List (Option Scalar)}
    (hlength : disclosed.length = token.messages.length) (c : Scalar) :
    ((truthfulStrategy token poss σ).proofAt token poss c).verifyAt bls generators pk disclosed
      c = .ok () := by
  refine BbsProof.verifyAt_ok.mpr ⟨hlength ▸ token.length_le, ?_, ?_, hσ, ?_, ?_⟩
  · simp only [DisclosureStrategy.proofAt, truthfulStrategy, List.length_map, hlength]
  · exact smul_ne_zero poss.r1_ne (token.a_ne_zero hind)
  · exact pairing_of_shown bls hpk (poss.r1 • token.a)
  · exact truthfulStrategy_schnorr token poss σ c

/-- The holder of a signature passes the whole verifier with any disclosed values. -/
theorem any_disclosure_verifies (hind : LinearIndependent Scalar generators.points) (sha : Sha2)
    (bls : Blstrs G1 G2 GT) {pk : G2} (hpk : pk = sk • generators.g2)
    (token : SignedMessages generators sk) {disclosed : List (Option Scalar)}
    (hlength : disclosed.length = token.messages.length) (hCtx : Scalar) (aux : List UInt8) :
    ∃ proof : BbsProof G1,
      proof.verify sha bls generators pk disclosed hCtx aux = .ok () := by
  rcases exists_truthful_tBbs_ne_zero hind token unitPossession with ⟨σ, hσ⟩
  -- what is hashed into the challenge is fixed before the responses
  let c := BbsProof.computeChallenge sha bls hCtx pk (unitPossession.r1 • token.a)
    (sk • unitPossession.r1 • token.a) (truthfulStrategy token unitPossession σ).tBbs
    (disclosed.map fun opt => opt.getD 0) (disclosed.map Option.isSome) aux
  refine ⟨(truthfulStrategy token unitPossession σ).proofAt token unitPossession c, ?_⟩
  unfold BbsProof.verify
  exact truthfulStrategy_accepted hind bls hpk token unitPossession hσ hlength c

/-- The disclosed vector that names the successor of every message under the mask. -/
def shiftedDisclosure (mask : List Bool) (messages : List Scalar) : List (Option Scalar) :=
  List.zipWith (fun b m => if b then some (m + 1) else none) mask messages

omit [AddCommGroup G1] [Module Scalar G1] [AddCommGroup G2] [Module Scalar G2]
  [AddCommGroup GT] [Module Scalar GT] [DecidableEq G1] [DecidableEq GT] in
theorem shiftedDisclosure_mask {mask : List Bool} {messages : List Scalar}
    (hmask : mask.length = messages.length) :
    (shiftedDisclosure mask messages).map Option.isSome = mask := by
  unfold shiftedDisclosure
  induction mask generalizing messages with
  | nil => rfl
  | cons b mask ih =>
    cases messages with
    | nil => exact absurd hmask (Nat.succ_ne_zero _)
    | cons m messages =>
      rw [List.zipWith_cons_cons, List.map_cons, ih (Nat.succ.inj hmask)]
      cases b <;> rfl

/-- For every signature on up to five messages, every way to show it and every mask: acceptance
at two challenges forces the disclosed values to be the signed messages if and only if the mask
discloses nothing. -/
theorem disclosure_sound_iff (hind : LinearIndependent Scalar generators.points)
    (bls : Blstrs G1 G2 GT) {pk : G2} (hpk : pk = sk • generators.g2)
    (token : SignedMessages generators sk) (poss : Possession) {mask : List Bool}
    (hmask : mask.length = token.messages.length) :
    (∀ disclosed : List (Option Scalar), disclosed.map Option.isSome = mask →
      ∀ strategy : DisclosureStrategy G1,
        AcceptedTwice bls pk token poss disclosed strategy →
        DisclosesSigned token.messages disclosed) ↔ ∀ b ∈ mask, b = false := by
  constructor
  · intro h b hb
    by_contra htrue
    rw [Bool.not_eq_false] at htrue
    rcases List.mem_iff_getElem?.mp (htrue ▸ hb) with ⟨i, hi⟩
    -- the holder discloses the successors of the messages it was signed on
    have hdisclosed := shiftedDisclosure_mask hmask
    have hlength := congrArg List.length hdisclosed
    rw [List.length_map, hmask] at hlength
    rcases exists_truthful_tBbs_ne_zero hind token poss with ⟨σ, hσ⟩
    have haccepted := truthfulStrategy_accepted hind bls hpk token poss hσ hlength
    have hsigned := h _ hdisclosed (truthfulStrategy token poss σ)
      ⟨0, 1, zero_ne_one, haccepted 0, haccepted 1⟩
    have him : i < token.messages.length := hmask ▸ (List.getElem?_eq_some_iff.mp hi).1
    have hm := List.getElem?_eq_getElem him
    have hshifted : (shiftedDisclosure mask token.messages)[i]? =
        some (some (token.messages[i] + 1)) := by
      simp only [shiftedDisclosure, List.getElem?_zipWith, hi, hm, if_true]
    have heq := Option.some.inj (hm.symm.trans (hsigned i _ hshifted))
    exact one_ne_zero (left_eq_add.mp heq)
  · intro hnone disclosed hdisclosed strategy _ i v hv
    have hsome : (some v).isSome ∈ mask := by
      rw [← hdisclosed]
      exact List.mem_map_of_mem (List.mem_of_getElem? hv)
    exact absurd (hnone _ hsome) (by simp only [Option.isSome_some, reduceCtorEq, not_false_iff])

section Example

/-- A signature on the messages two and three. -/
def twoMessages : SignedMessages unitGenerators unitKeys.skMaster where
  a := msmTerms <|
    (unitGenerators.g1, 1) :: (unitGenerators.h 0, 0) :: messageTerms unitGenerators [2, 3]
  e := 0
  sig := 0
  messages := [2, 3]
  length_le := Nat.le_of_ble_eq_true rfl
  valid := by
    rw [zero_add]
    exact one_smul Scalar _

/-- The holder of a signature on two and three discloses seven in place of two. -/
theorem seven_disclosed_for_two :
    ∃ strategy : DisclosureStrategy UnitSpace,
      AcceptedTwice unitBlstrs unitKeys.pkMaster twoMessages unitPossession [some 7, none]
        strategy ∧ ¬DisclosesSigned twoMessages.messages [some 7, none] := by
  rcases exists_truthful_tBbs_ne_zero unitGenerators_independent twoMessages unitPossession with
    ⟨σ, hσ⟩
  have haccepted := truthfulStrategy_accepted unitGenerators_independent unitBlstrs
    unitKeys.pkMaster_eq twoMessages unitPossession hσ
    (show [some 7, none].length = twoMessages.messages.length from rfl)
  refine ⟨_, ⟨0, 1, zero_ne_one, haccepted 0, haccepted 1⟩, fun hsigned => ?_⟩
  have htwo : (2 : Scalar) = 7 := Option.some.inj (hsigned 0 7 rfl)
  exact absurd htwo (by decide +kernel)

theorem disclosure_sound_iff_two :
    (∀ disclosed : List (Option Scalar), disclosed.map Option.isSome = [true, false] →
      ∀ strategy : DisclosureStrategy UnitSpace,
        AcceptedTwice unitBlstrs unitKeys.pkMaster twoMessages unitPossession disclosed
          strategy →
        DisclosesSigned twoMessages.messages disclosed) ↔ ∀ b ∈ [true, false], b = false :=
  disclosure_sound_iff unitGenerators_independent unitBlstrs unitKeys.pkMaster_eq twoMessages
    unitPossession rfl

end Example

end Ebut
