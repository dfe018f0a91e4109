import Ebut.Theory.Accountable
import Ebut.Theory.Disclosure
import Ebut.Theory.Gap

/-!
# What a Proof of Possession Claims

The prover hashes the messages under a mask and the verifier the options it was sent, with
zeros where nothing is disclosed. Both hash the disclosed scalars, one after the other, and
then the auxiliary string. The honest proof is therefore accepted for every mask.

Neither the mask nor the length of the auxiliary string is hashed. A disclosed scalar at
another position hashes to the same bytes, and so does one that is not disclosed but put in
front of the auxiliary string. `one_claim_iff` says that a proof supports a single claim only
where there is nothing to move: nothing is disclosed, and the auxiliary string does not begin
with a scalar that could be.

## Main definitions

* `signedPoint`: What a signature on a message vector signs.
* `disclose`: The options that disclose the messages under a mask.
* `disclosedBytes`, `BbsProof.transcript`: The bytes that are hashed.
* `BbsProofCoins.blinded`: What the prover commits to.
* `StartsWithScalar`: A string begins with the encoding of a scalar.
* `NothingToMove`: The claims that no other claim hashes like.

## Theorems

* `challenge_disclose`: Prover and verifier hash the same bytes.
* `bbsProof_complete`: The honest proof is accepted.
* `verify_of_transcript_eq`: A proof is accepted for every claim that hashes alike.
* `one_claim_iff`: Which claims are the only ones of their proof.
-/

namespace Ebut

variable {G1 G2 GT : Type} [AddCommGroup G1] [Module Scalar G1]

/-- What a signature on a message vector signs. -/
def signedPoint (generators : Generators G1 G2) (s : Scalar) (messages : List Scalar) : G1 :=
  msmTerms ((generators.g1, 1) :: (generators.h 0, s) :: messageTerms generators messages)

/-- The messages at the positions of a mask, and nothing at the others. -/
def disclose (mask : List Bool) (messages : List Scalar) : List (Option Scalar) :=
  List.zipWith (fun b m => if b then some m else none) mask messages

/-- The disclosed scalars, one after the other. -/
def disclosedBytes (disclosed : List (Option Scalar)) : List UInt8 :=
  disclosed.flatMap fun opt => opt.elim [] fun m => (Scalar.toBytes m).toList

section Transcript

/-- The verifier's mask and padded messages hash to the disclosed scalars. -/
theorem flatMap_getD (disclosed : List (Option Scalar)) :
    ((disclosed.map Option.isSome).zip (disclosed.map fun opt => opt.getD 0)).flatMap
        (fun p => if p.1 then (Scalar.toBytes p.2).toList else []) =
      disclosedBytes disclosed := by
  rw [List.zip_map', List.flatMap_map]
  refine congrArg (fun f => disclosed.flatMap f) (funext fun opt => ?_)
  cases opt with
  | none => rfl
  | some m => rfl

/-- So do the prover's mask and messages. -/
theorem flatMap_mask {mask : List Bool} {messages : List Scalar}
    (hmask : mask.length = messages.length) :
    ((mask.zip messages).flatMap fun p => if p.1 then (Scalar.toBytes p.2).toList else []) =
      disclosedBytes (disclose mask messages) := by
  induction mask generalizing messages with
  | nil => rfl
  | cons b mask ih =>
      cases messages with
      | nil => exact absurd hmask (Nat.succ_ne_zero _)
      | cons m messages =>
          rw [List.zip_cons_cons, List.flatMap_cons, ih (Nat.succ.inj hmask)]
          cases b with
          | true => rfl
          | false => rfl

theorem disclose_length {mask : List Bool} {messages : List Scalar}
    (hmask : mask.length = messages.length) :
    (disclose mask messages).length = messages.length := by
  rw [disclose, List.length_zipWith, hmask, min_self]

/-- Where nothing is disclosed nothing is hashed. -/
theorem disclosedBytes_eq_nil {disclosed : List (Option Scalar)}
    (hnone : ∀ opt ∈ disclosed, opt = none) : disclosedBytes disclosed = [] := by
  refine List.flatMap_eq_nil_iff.mpr fun opt hopt => ?_
  rw [hnone opt hopt]
  rfl

end Transcript

/-- The terms of responses are the terms of the blinders and those of the messages. -/
theorem msmTerms_responses (generators : Generators G1 G2) (k : Scalar) {rho messages : List Scalar}
    (hlength : rho.length = messages.length) :
    msmTerms (messageTerms generators (rho.zipWith (fun rho m => rho + k * m) messages)) =
      msmTerms (messageTerms generators rho) +
        k • msmTerms (messageTerms generators messages) := by
  unfold messageTerms
  generalize (List.finRange 5).map (fun i => generators.h i.succ) = bases
  induction bases generalizing rho messages with
  | nil => simp only [List.zip_nil_left, msmTerms_eq_sum, List.map_nil, List.sum_nil, smul_zero,
      add_zero]
  | cons base bases ih =>
      cases rho with
      | nil =>
          rw [List.length_eq_zero_iff.mp hlength.symm]
          simp only [List.zipWith_nil_left, List.zip_nil_right, msmTerms_eq_sum, List.map_nil,
            List.sum_nil, smul_zero, add_zero]
      | cons r rho =>
          cases messages with
          | nil => exact absurd hlength (Nat.succ_ne_zero _)
          | cons m messages =>
              rw [List.zipWith_cons_cons, List.zip_cons_cons, List.zip_cons_cons,
                List.zip_cons_cons, msmTerms_cons, msmTerms_cons, msmTerms_cons,
                ih (Nat.succ.inj hlength)]
              module

/-- What the prover commits to: its blinders on the shown signature and on the generators. -/
def BbsProofCoins.blinded (coins : BbsProofCoins) (generators : Generators G1 G2) (a : G1) : G1 :=
  (-coins.rhoE) • coins.r1 • a + coins.rhoR1 • generators.g1 +
    coins.rhoSTilde • generators.h 0 + msmTerms (messageTerms generators coins.rhoMTilde)

section Completeness

variable {generators : Generators G1 G2} {sk : Scalar} {sig : BbsSignature G1}
  {messages : List Scalar}

/-- The randomised signature is the shown one under the key. -/
theorem aBar_eq (hsig : (sig.e + sk) • sig.a = signedPoint generators sig.s messages)
    (r1 : Scalar) :
    (-sig.e) • r1 • sig.a + r1 • signedPoint generators sig.s messages = sk • r1 • sig.a := by
  rw [← hsig]
  module

/-- The responses of the prover satisfy the Schnorr equation at every challenge. -/
theorem schnorr_responses (hsig : (sig.e + sk) • sig.a = signedPoint generators sig.s messages)
    {coins : BbsProofCoins} (hrho : coins.rhoMTilde.length = messages.length) (c : Scalar) :
    msmTerms ((coins.r1 • sig.a, -(coins.rhoE + c * sig.e)) ::
        (generators.g1, coins.rhoR1 + c * coins.r1) ::
        (generators.h 0, coins.rhoSTilde + c * (sig.s * coins.r1)) ::
        messageTerms generators (coins.rhoMTilde.zipWith (fun rho m => rho + c * m)
          (messages.map (· * coins.r1)))) =
      msmTerms ((coins.r1 • sig.a, -coins.rhoE) :: (generators.g1, coins.rhoR1) ::
        (generators.h 0, coins.rhoSTilde) :: messageTerms generators coins.rhoMTilde) +
      c • sk • coins.r1 • sig.a := by
  have hrandomised : messages.map (· * coins.r1) = messages.map fun m => coins.r1 * m :=
    List.map_congr_left fun m _ => mul_comm m coins.r1
  have hpoint : coins.r1 • (sig.e + sk) • sig.a = coins.r1 • generators.g1 +
      coins.r1 • sig.s • generators.h 0 +
        coins.r1 • msmTerms (messageTerms generators messages) := by
    rw [hsig, signedPoint, msmTerms_cons, msmTerms_cons]
    module
  -- the challenge part of the responses is the randomised signature's message
  rw [hrandomised]
  simp only [msmTerms_cons]
  rw [msmTerms_responses generators c (by rw [hrho, List.length_map]), msmTerms_messageTerms_map]
  have hmessages := eq_sub_of_add_eq' hpoint.symm
  rw [hmessages]
  module

variable [AddCommGroup G2] [Module Scalar G2] [AddCommGroup GT] [Module Scalar GT]
  (sha : Sha2) (bls : Blstrs G1 G2 GT)

/-- Prover and verifier compute one challenge from their own representations. -/
theorem challenge_disclose (hCtx : Scalar) (pk : G2) (aPrime aBar tBbs : G1) {mask : List Bool}
    (hmask : mask.length = messages.length) (aux : List UInt8) :
    BbsProof.computeChallenge sha bls hCtx pk aPrime aBar tBbs
        ((disclose mask messages).map fun opt => opt.getD 0)
        ((disclose mask messages).map Option.isSome) aux =
      BbsProof.computeChallenge sha bls hCtx pk aPrime aBar tBbs messages mask aux := by
  unfold BbsProof.computeChallenge
  rw [flatMap_getD, flatMap_mask hmask]

variable [DecidableEq G1] [DecidableEq GT]

/-- For up to five messages, every mask and all randomness the prover shows the signature times its
randomiser and commits to its blinders. If neither the randomiser, the signature nor that
commitment is zero, the verifier accepts with exactly the messages under the mask disclosed. -/
theorem bbsProof_complete {pk : G2} (hpk : pk = sk • generators.g2)
    (hsig : (sig.e + sk) • sig.a = signedPoint generators sig.s messages)
    (hmany : messages.length ≤ 5) {mask : List Bool} (hmask : mask.length = messages.length)
    {coins : BbsProofCoins} (hrho : coins.rhoMTilde.length = messages.length)
    (hr1 : coins.r1 ≠ 0) (ha : sig.a ≠ 0) (hblinders : coins.blinded generators sig.a ≠ 0)
    (hCtx : Scalar) (aux : List UInt8) :
    ∃ proof ctx, BbsProof.prove sha bls coins generators pk sig messages mask hCtx aux =
        .ok (proof, ctx) ∧
      proof.aPrime = coins.r1 • sig.a ∧ proof.tBbs = coins.blinded generators sig.a ∧
      proof.verify sha bls generators pk (disclose mask messages) hCtx aux = .ok () := by
  have haBar := aBar_eq hsig coins.r1
  unfold signedPoint at haBar
  have hcommits : msmTerms ((coins.r1 • sig.a, -coins.rhoE) :: (generators.g1, coins.rhoR1) ::
      (generators.h 0, coins.rhoSTilde) :: messageTerms generators coins.rhoMTilde) =
      coins.blinded generators sig.a := by
    rw [msmTerms_cons, msmTerms_cons, msmTerms_cons, BbsProofCoins.blinded]
    module
  unfold BbsProof.prove
  simp only [rejectIf_bind_ok]
  refine ⟨_, _, ⟨not_not.mpr hmask, not_lt.mpr hmany, rfl⟩, rfl, hcommits, ?_⟩
  unfold BbsProof.verify
  rw [challenge_disclose sha bls hCtx pk _ _ _ hmask]
  refine BbsProof.verifyAt_ok.mpr ⟨?_, ?_, smul_ne_zero hr1 ha, hcommits ▸ hblinders, ?_, ?_⟩
  · rw [disclose_length hmask]
    exact hmany
  · rw [disclose_length hmask, List.length_zipWith, List.length_map, hrho, min_self]
  · simp only [haBar]
    exact pairing_of_shown bls hpk (coins.r1 • sig.a)
  · simp only [BbsProof.schnorrLhs, haBar]
    exact schnorr_responses hsig hrho _

end Completeness

/-- The string begins with the canonical encoding of a scalar. -/
def StartsWithScalar (aux : List UInt8) : Prop :=
  ∃ (m : Scalar) (rest : List UInt8), aux = (Scalar.toBytes m).toList ++ rest

/-- Nothing is disclosed, and nothing at the front of the auxiliary string could be. -/
def NothingToMove (disclosed : List (Option Scalar)) (aux : List UInt8) : Prop :=
  (∀ opt ∈ disclosed, opt = none) ∧ (disclosed = [] ∨ ¬StartsWithScalar aux)

section Moves

variable {disclosed : List (Option Scalar)}

/-- The last disclosed scalar can be put in front of the auxiliary string. -/
theorem exists_moved_out (hsome : ¬∀ opt ∈ disclosed, opt = none) :
    ∃ (disclosed' : List (Option Scalar)) (m : Scalar), disclosed' ≠ disclosed ∧
      disclosed'.length = disclosed.length ∧
      disclosedBytes disclosed = disclosedBytes disclosed' ++ (Scalar.toBytes m).toList := by
  induction disclosed with
  | nil => exact absurd (fun opt h => absurd h List.not_mem_nil) hsome
  | cons opt rest ih =>
      by_cases hrest : ∀ opt ∈ rest, opt = none
      · cases opt with
        | none =>
            refine absurd (fun opt' h => ?_) hsome
            rcases List.mem_cons.mp h with rfl | hmem
            · rfl
            · exact hrest opt' hmem
        | some m =>
            -- the last one that is disclosed: nothing is hashed after it
            refine ⟨none :: rest, m, ?_, rfl, ?_⟩
            · exact fun h => nomatch (List.cons.inj h).1
            · show (Scalar.toBytes m).toList ++ disclosedBytes rest =
                disclosedBytes rest ++ (Scalar.toBytes m).toList
              rw [disclosedBytes_eq_nil hrest, List.append_nil, List.nil_append]
      · rcases ih hrest with ⟨rest', m, hne, hlength, hbytes⟩
        refine ⟨opt :: rest', m, fun h => hne (List.cons.inj h).2, congrArg Nat.succ hlength, ?_⟩
        show _ ++ disclosedBytes rest = _ ++ disclosedBytes rest' ++ _
        rw [hbytes, List.append_assoc]

/-- What is hashed for some disclosed scalar begins with a scalar. -/
theorem startsWithScalar_of_some (hsome : ¬∀ opt ∈ disclosed, opt = none) (aux : List UInt8) :
    StartsWithScalar (disclosedBytes disclosed ++ aux) := by
  induction disclosed with
  | nil => exact absurd (fun opt h => absurd h List.not_mem_nil) hsome
  | cons opt rest ih =>
      cases opt with
      | some m => exact ⟨m, disclosedBytes rest ++ aux, List.append_assoc _ _ _⟩
      | none =>
          refine ih fun hrest => hsome fun opt h => ?_
          rcases List.mem_cons.mp h with rfl | hmem
          · rfl
          · exact hrest opt hmem

end Moves

section Claims

variable [AddCommGroup G2] [Module Scalar G2] [AddCommGroup GT] [Module Scalar GT]

/-- The bytes hashed into the challenge of a proof, for a claim. -/
def BbsProof.transcript (bls : Blstrs G1 G2 GT) (proof : BbsProof G1) (pk : G2) (hCtx : Scalar)
    (disclosed : List (Option Scalar)) (aux : List UInt8) : List UInt8 :=
  (Scalar.toBytes hCtx).toList ++ (bls.g2Compressed pk).toList ++
    (bls.g1Compressed proof.aPrime).toList ++ (bls.g1Compressed proof.aBar).toList ++
    (bls.g1Compressed proof.tBbs).toList ++ disclosedBytes disclosed ++ aux

variable [DecidableEq G1] [DecidableEq GT] {sha : Sha2} {bls : Blstrs G1 G2 GT}
  {proof : BbsProof G1} {generators : Generators G1 G2} {pk : G2} {hCtx : Scalar}
  {disclosed disclosed' : List (Option Scalar)} {aux aux' : List UInt8}

/-- The verifier runs at the hash of the transcript. -/
theorem verify_eq_verifyAt :
    proof.verify sha bls generators pk disclosed hCtx aux =
      proof.verifyAt bls generators pk disclosed
        (hashToScalar sha (proof.transcript bls pk hCtx disclosed aux)) := by
  unfold BbsProof.verify BbsProof.computeChallenge
  rw [flatMap_getD]
  rfl

omit [DecidableEq G1] [DecidableEq GT] in
/-- The transcripts of two claims differ in the disclosed scalars and the auxiliary string. -/
theorem transcript_eq_iff :
    proof.transcript bls pk hCtx disclosed aux = proof.transcript bls pk hCtx disclosed' aux' ↔
      disclosedBytes disclosed ++ aux = disclosedBytes disclosed' ++ aux' := by
  unfold BbsProof.transcript
  simp only [List.append_assoc, List.append_cancel_left_eq]

/-- A proof accepted for a claim is accepted for every claim about as many messages with the
same transcript. -/
theorem verify_of_transcript_eq
    (haccept : proof.verify sha bls generators pk disclosed hCtx aux = .ok ())
    (hlength : disclosed'.length = disclosed.length)
    (hbytes : disclosedBytes disclosed ++ aux = disclosedBytes disclosed' ++ aux') :
    proof.verify sha bls generators pk disclosed' hCtx aux' = .ok () := by
  rw [verify_eq_verifyAt] at haccept ⊢
  rw [← transcript_eq_iff.mpr hbytes]
  rw [BbsProof.verifyAt_ok] at haccept ⊢
  rwa [hlength]

/-- Under a key that pairs faithfully the randomised signature of an accepted proof is not the
identity, so that the Schnorr equation determines the challenge. -/
theorem challenge_eq_of_accepted (hpairing : ∀ p, bls.pairing p pk = 0 → p = 0)
    {c c' : Scalar} (haccept : proof.verifyAt bls generators pk disclosed c = .ok ())
    (haccept' : proof.verifyAt bls generators pk disclosed' c' = .ok ()) :
    disclosed'.length = disclosed.length ∧ c = c' := by
  rw [BbsProof.verifyAt_ok] at haccept haccept'
  rcases haccept with ⟨-, hlength, haPrime, -, hpair, hschnorr⟩
  rcases haccept' with ⟨-, hlength', -, -, -, hschnorr'⟩
  have haBar : proof.aBar ≠ 0 := by
    intro hzero
    unfold Blstrs.pairingProductIsIdentity at hpair
    rw [decide_eq_true_eq, hzero, neg_zero, map_zero, LinearMap.zero_apply, add_zero] at hpair
    exact haPrime (hpairing _ hpair)
  have hsmul : c • proof.aBar = c' • proof.aBar :=
    add_left_cancel (hschnorr.symm.trans hschnorr')
  exact ⟨hlength'.symm.trans hlength, smul_left_injective Scalar haBar hsmul⟩

/-- A claim that no other claim with its transcript has the proof for has nothing to move. -/
theorem nothingToMove_of_unique
    (hunique : ∀ (disclosed' : List (Option Scalar)) (aux' : List UInt8),
      disclosed'.length = disclosed.length →
      disclosedBytes disclosed ++ aux = disclosedBytes disclosed' ++ aux' →
      disclosed' = disclosed) : NothingToMove disclosed aux := by
  have hnone : ∀ opt ∈ disclosed, opt = none := by
    by_contra hsome
    rcases exists_moved_out hsome with ⟨disclosed', m, hne, hlength, hbytes⟩
    refine hne (hunique disclosed' ((Scalar.toBytes m).toList ++ aux) hlength ?_)
    rw [hbytes, List.append_assoc]
  refine ⟨hnone, ?_⟩
  cases disclosed with
  | nil => exact Or.inl rfl
  | cons opt rest =>
      refine Or.inr ?_
      rintro ⟨m, front, rfl⟩
      have hrest : disclosedBytes rest = [] :=
        disclosedBytes_eq_nil fun o h => hnone o (List.mem_cons_of_mem _ h)
      -- the scalar at the front could be the first message
      have hmoved : some m :: rest = opt :: rest := by
        refine hunique (some m :: rest) front rfl ?_
        rw [disclosedBytes_eq_nil hnone, List.nil_append]
        show _ = (Scalar.toBytes m).toList ++ disclosedBytes rest ++ front
        rw [hrest, List.append_nil]
      rw [hnone opt List.mem_cons_self] at hmoved
      exact nomatch (List.cons.inj hmoved).1

/-- A claim with nothing to move is the only one of its length with its transcript. -/
theorem eq_of_nothingToMove (hclaim : NothingToMove disclosed aux)
    (hlength : disclosed'.length = disclosed.length)
    (hbytes : disclosedBytes disclosed ++ aux = disclosedBytes disclosed' ++ aux') :
    disclosed' = disclosed ∧ aux' = aux := by
  rcases hclaim with ⟨hnone, hfront⟩
  rw [disclosedBytes_eq_nil hnone, List.nil_append] at hbytes
  have hnone' : ∀ opt ∈ disclosed', opt = none := by
    by_contra hsome
    rcases hfront with hnil | hstarts
    · rw [hnil, List.length_nil] at hlength
      exact hsome (List.length_eq_zero_iff.mp hlength ▸ fun opt h => absurd h List.not_mem_nil)
    · exact hstarts (hbytes ▸ startsWithScalar_of_some hsome aux')
  rw [disclosedBytes_eq_nil hnone', List.nil_append] at hbytes
  refine ⟨?_, hbytes.symm⟩
  rw [List.eq_replicate_of_mem hnone', List.eq_replicate_of_mem hnone, hlength]

/-- For every proof that is accepted for a claim: it is accepted for no other claim, unless the
hash collides on the two transcripts, if and only if nothing is disclosed and the auxiliary
string of a proof about some messages does not begin with a scalar. -/
theorem one_claim_iff (hpairing : ∀ p, bls.pairing p pk = 0 → p = 0)
    (haccept : proof.verify sha bls generators pk disclosed hCtx aux = .ok ()) :
    (∀ (disclosed' : List (Option Scalar)) (aux' : List UInt8),
      proof.verify sha bls generators pk disclosed' hCtx aux' = .ok () →
      Set.InjOn (hashToScalar sha) {proof.transcript bls pk hCtx disclosed aux,
        proof.transcript bls pk hCtx disclosed' aux'} →
      disclosed' = disclosed ∧ aux' = aux) ↔ NothingToMove disclosed aux := by
  constructor
  · intro hone
    refine nothingToMove_of_unique fun disclosed' aux' hlength hbytes => ?_
    refine (hone disclosed' aux' (verify_of_transcript_eq haccept hlength hbytes) ?_).1
    rw [transcript_eq_iff.mpr hbytes]
    exact Set.injOn_pair.mpr fun _ => rfl
  · intro hclaim disclosed' aux' haccept' hcollision
    rw [verify_eq_verifyAt] at haccept haccept'
    rcases challenge_eq_of_accepted hpairing haccept haccept' with ⟨hlength, hchallenge⟩
    have htranscript := hcollision (Set.mem_insert _ _)
      (Set.mem_insert_of_mem _ (Set.mem_singleton _)) hchallenge
    exact eq_of_nothingToMove hclaim hlength (transcript_eq_iff.mp htranscript)

end Claims

section Example

/-- A proof that the first of two messages is two is accepted as one that the second is, and as
one that discloses nothing. The three hash the same bytes. -/
theorem moved_disclosure_accepted :
    ∃ proof : BbsProof UnitSpace,
      proof.verify lineSha lineBlstrs unitGenerators unitKeys.pkMaster [some 2, none] 0 [] =
        .ok () ∧
      proof.verify lineSha lineBlstrs unitGenerators unitKeys.pkMaster [none, some 2] 0 [] =
        .ok () ∧
      proof.verify lineSha lineBlstrs unitGenerators unitKeys.pkMaster [none, none] 0
        (Scalar.toBytes 2).toList = .ok () ∧
      proof.transcript lineBlstrs unitKeys.pkMaster 0 [some 2, none] [] =
        proof.transcript lineBlstrs unitKeys.pkMaster 0 [none, some 2] [] ∧
      proof.transcript lineBlstrs unitKeys.pkMaster 0 [some 2, none] [] =
        proof.transcript lineBlstrs unitKeys.pkMaster 0 [none, none]
          (Scalar.toBytes 2).toList := by
  rcases any_disclosure_verifies unitGenerators_independent lineSha lineBlstrs
    unitKeys.pkMaster_eq twoMessages
    (show [some 2, none].length = twoMessages.messages.length from rfl) 0 [] with ⟨proof, haccept⟩
  have hsecond : disclosedBytes [some 2, none] ++ [] = disclosedBytes [none, some 2] ++ [] := rfl
  have hfront : disclosedBytes [some 2, none] ++ [] =
      disclosedBytes [none, none] ++ (Scalar.toBytes 2).toList := rfl
  exact ⟨proof, haccept, verify_of_transcript_eq haccept rfl hsecond,
    verify_of_transcript_eq haccept rfl hfront, transcript_eq_iff.mpr hsecond,
    transcript_eq_iff.mpr hfront⟩

/-- A proof that discloses nothing, without an auxiliary string. -/
theorem one_claim_iff_hidden :
    ∃ proof : BbsProof UnitSpace,
      (∀ (disclosed' : List (Option Scalar)) (aux' : List UInt8),
        proof.verify lineSha lineBlstrs unitGenerators unitKeys.pkMaster disclosed' 0 aux' =
          .ok () →
        Set.InjOn (hashToScalar lineSha)
          {proof.transcript lineBlstrs unitKeys.pkMaster 0 [none, none] [],
            proof.transcript lineBlstrs unitKeys.pkMaster 0 disclosed' aux'} →
        disclosed' = [none, none] ∧ aux' = []) ↔ NothingToMove [none, none] [] := by
  rcases any_disclosure_verifies unitGenerators_independent lineSha lineBlstrs
    unitKeys.pkMaster_eq twoMessages
    (show [none, none].length = twoMessages.messages.length from rfl) 0 [] with ⟨proof, haccept⟩
  exact ⟨proof, one_claim_iff lineBlstrs_nondegenerate haccept⟩

def twoCoins : BbsProofCoins := ⟨1, 2, 3, 5, [7, 8]⟩

/-- A signature on two and three, with the first message disclosed. -/
theorem bbsProof_complete_two :
    ∃ proof ctx, BbsProof.prove lineSha lineBlstrs twoCoins unitGenerators unitKeys.pkMaster
        ⟨twoMessages.a, twoMessages.e, twoMessages.sig⟩ [2, 3] [true, false] 0 [] =
          .ok (proof, ctx) ∧
      proof.aPrime = twoCoins.r1 • twoMessages.a ∧
      proof.tBbs = twoCoins.blinded unitGenerators twoMessages.a ∧
      proof.verify lineSha lineBlstrs unitGenerators unitKeys.pkMaster
        (disclose [true, false] [2, 3]) 0 [] = .ok () := by
  refine bbsProof_complete lineSha lineBlstrs unitKeys.pkMaster_eq ?_ ?_ ?_ ?_ ?_ ?_ ?_ 0 []
  · exact twoMessages.valid
  · exact twoMessages.length_le
  · rfl
  · rfl
  · decide
  · decide +kernel
  · decide +kernel

end Example

end Ebut
