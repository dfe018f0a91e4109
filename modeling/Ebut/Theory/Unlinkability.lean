import Ebut.Library.Alike
import Ebut.Theory.BbsProof
import Ebut.Theory.Transcripts

/-!
# Which Token a Proof of Possession Shows

A proof of possession looks the same for every two tokens that were signed with one key and have
the same messages under the mask: the coins with which one token is shown correspond to those
with which the other is, and lead to the same proof. So do any number of proofs, whatever a
verifier asks for next.

The key is part of what is shown. The client does not check what it was issued, and a token that
was signed with another key is told apart from all others.

## Main definitions

* `DrawnFor`: Coins for a number of messages.
* `showPoints`, `showAt`: The points of a proof, and the proof at a challenge.
* `moveCoins`: The coins of one token as those of the other.
* `SameKey`: Two signatures are related as those of one key are.

## Theorems

* `sameKey_iff`: Which they are if and only if they are those of one key.
* `show_alike`: The proofs of such tokens look alike.
* `showing_alike_iff`: Those of other tokens do not.
* `showings_alike`: Any number of proofs.
-/

namespace Ebut

open Randomised

variable {G1 G2 GT : Type} [AddCommGroup G1] [Module Scalar G1]

/-- The coins for a proof about `n` messages. -/
abbrev DrawnFor (n : ℕ) : Type :=
  {coins : BbsProofCoins // coins.r1 ≠ 0 ∧ coins.rhoMTilde.length = n}

/-- The points of a proof, which are fixed before its challenge. -/
def showPoints (generators : Generators G1 G2) (sig : BbsSignature G1) (messages : List Scalar)
    (coins : BbsProofCoins) : G1 × G1 × G1 :=
  let aPrime := coins.r1 • sig.a
  (aPrime, (-sig.e) • aPrime + coins.r1 • signedPoint generators sig.s messages,
    msmTerms ((aPrime, -coins.rhoE) :: (generators.g1, coins.rhoR1) ::
      (generators.h 0, coins.rhoSTilde) :: messageTerms generators coins.rhoMTilde))

/-- The proof with the responses at challenge `c`. -/
def showAt (generators : Generators G1 G2) (sig : BbsSignature G1) (messages : List Scalar)
    (coins : BbsProofCoins) (c : Scalar) : BbsProof G1 where
  aPrime := (showPoints generators sig messages coins).1
  aBar := (showPoints generators sig messages coins).2.1
  tBbs := (showPoints generators sig messages coins).2.2
  zE := coins.rhoE + c * sig.e
  zR1 := coins.rhoR1 + c * coins.r1
  zSTilde := coins.rhoSTilde + c * (sig.s * coins.r1)
  zMTilde := coins.rhoMTilde.zipWith (fun rho m => rho + c * m) (messages.map (· * coins.r1))

/-- The signatures are related as two of one key are. -/
structure SameKey (generators : Generators G1 G2) (l : Scalar) (sig sig' : BbsSignature G1)
    (messages messages' : List Scalar) : Prop where
  ne_zero : l ≠ 0
  point : sig'.a = l • sig.a
  message : signedPoint generators sig'.s messages' - sig'.e • sig'.a =
    l • (signedPoint generators sig.s messages - sig.e • sig.a)

section Key

variable {generators : Generators G1 G2} {sig sig' : BbsSignature G1}
  {messages messages' : List Scalar}

theorem SameKey.symm {l : Scalar} (h : SameKey generators l sig sig' messages messages') :
    SameKey generators l⁻¹ sig' sig messages' messages where
  ne_zero := inv_ne_zero h.ne_zero
  point := by rw [h.point, inv_smul_smul₀ h.ne_zero]
  message := by rw [h.message, inv_smul_smul₀ h.ne_zero]

/-- Each of two signatures has one key, and the two are related if and only if it is the same. -/
theorem sameKey_iff {sk sk' l : Scalar} (hl : l ≠ 0) (hne : sig.a ≠ 0) (hpoint : sig'.a = l • sig.a)
    (hsig : (sig.e + sk) • sig.a = signedPoint generators sig.s messages)
    (hsig' : (sig'.e + sk') • sig'.a = signedPoint generators sig'.s messages') :
    SameKey generators l sig sig' messages messages' ↔ sk = sk' := by
  have hkey : signedPoint generators sig.s messages - sig.e • sig.a = sk • sig.a := by
    rw [← hsig]
    module
  have hkey' : signedPoint generators sig'.s messages' - sig'.e • sig'.a = sk' • l • sig.a := by
    rw [← hsig', ← hpoint]
    module
  constructor
  · intro h
    have heq := h.message
    rw [hkey, hkey', smul_comm sk' l] at heq
    exact (smul_left_injective Scalar hne (smul_right_injective G1 hl heq)).symm
  · rintro rfl
    exact ⟨hl, hpoint, by rw [hkey, hkey', smul_comm]⟩

end Key

section Coins

/-- The blinders of the responses, moved by what the challenge adds. -/
def moveBlinders (c r r' : Scalar) (messages messages' rho : List Scalar) : List Scalar :=
  rho.zipWith (fun rho d => rho + c * d)
    ((messages.map (r * ·)).zipWith (fun m m' => m + (-1) * m') (messages'.map (r' * ·)))

theorem length_moveBlinders (c r r' : Scalar) {messages messages' rho : List Scalar}
    (hlength : messages'.length = messages.length) (hrho : rho.length = messages.length) :
    (moveBlinders c r r' messages messages' rho).length = messages'.length := by
  rw [moveBlinders, List.length_zipWith, List.length_zipWith, List.length_map, List.length_map,
    hlength, hrho, min_self, min_self]

theorem getElem_moveBlinders (c r r' : Scalar) {messages messages' rho : List Scalar} {i : ℕ}
    (hi : i < (moveBlinders c r r' messages messages' rho).length) (hrho : i < rho.length)
    (hm : i < messages.length) (hm' : i < messages'.length) :
    (moveBlinders c r r' messages messages' rho)[i] =
      rho[i] + c * (r * messages[i] - r' * messages'[i]) := by
  simp only [moveBlinders, List.getElem_zipWith, List.getElem_map]
  ring

/-- Moving back undoes moving. -/
theorem moveBlinders_moveBlinders (c r r' : Scalar) {messages messages' rho : List Scalar}
    (hlength : messages'.length = messages.length) (hrho : rho.length = messages.length) :
    moveBlinders c r' r messages' messages (moveBlinders c r r' messages messages' rho) = rho := by
  have hmoved := length_moveBlinders c r r' hlength hrho
  refine List.ext_getElem ?_ fun i hi hi' => ?_
  · rw [length_moveBlinders c r' r hlength.symm hmoved, hrho]
  · have hm : i < messages.length := hrho ▸ hi'
    rw [getElem_moveBlinders c r' r hi (by omega) (by omega) hm,
      getElem_moveBlinders c r r' (by omega) hi' hm (by omega)]
    ring

/-- The coins with which the other signature is shown by the same proof. -/
def moveCoins (l : Scalar) (sig sig' : BbsSignature G1) (messages messages' : List Scalar)
    (c : Scalar) (coins : BbsProofCoins) : BbsProofCoins where
  r1 := l⁻¹ * coins.r1
  rhoE := coins.rhoE + c * (sig.e - sig'.e)
  rhoR1 := coins.rhoR1 + c * (coins.r1 - l⁻¹ * coins.r1)
  rhoSTilde := coins.rhoSTilde + c * (sig.s * coins.r1 - sig'.s * (l⁻¹ * coins.r1))
  rhoMTilde := moveBlinders c coins.r1 (l⁻¹ * coins.r1) messages messages' coins.rhoMTilde

omit [AddCommGroup G1] [Module Scalar G1] in
theorem moveCoins_moveCoins {l : Scalar} (hl : l ≠ 0) (sig sig' : BbsSignature G1)
    {messages messages' : List Scalar} (hlength : messages'.length = messages.length) (c : Scalar)
    {coins : BbsProofCoins} (hrho : coins.rhoMTilde.length = messages.length) :
    moveCoins l⁻¹ sig' sig messages' messages c
      (moveCoins l sig sig' messages messages' c coins) = coins := by
  have hr : l⁻¹⁻¹ * (l⁻¹ * coins.r1) = coins.r1 := by
    rw [inv_inv, mul_inv_cancel_left₀ hl]
  simp only [moveCoins]
  rw [hr, moveBlinders_moveBlinders c _ _ hlength hrho]
  ring_nf

/-- The correspondence at challenge `c`. -/
def coinsAt {l : Scalar} (hl : l ≠ 0) (sig sig' : BbsSignature G1)
    {messages messages' : List Scalar} {n : ℕ} (hn : messages.length = n)
    (hn' : messages'.length = n) (c : Scalar) : DrawnFor n ≃ DrawnFor n where
  toFun coins := ⟨moveCoins l sig sig' messages messages' c coins.1,
    mul_ne_zero (inv_ne_zero hl) coins.2.1,
    (length_moveBlinders c _ _ (hn'.trans hn.symm) (coins.2.2.trans hn.symm)).trans hn'⟩
  invFun coins := ⟨moveCoins l⁻¹ sig' sig messages' messages c coins.1,
    mul_ne_zero (inv_ne_zero (inv_ne_zero hl)) coins.2.1,
    (length_moveBlinders c _ _ (hn.trans hn'.symm) (coins.2.2.trans hn'.symm)).trans hn⟩
  left_inv coins := Subtype.ext
    (moveCoins_moveCoins hl sig sig' (hn'.trans hn.symm) c (coins.2.2.trans hn.symm))
  right_inv coins := by
    have hback := moveCoins_moveCoins (inv_ne_zero hl) sig' sig (hn.trans hn'.symm) c
      (coins.2.2.trans hn'.symm)
    rw [inv_inv] at hback
    exact Subtype.ext hback

end Coins

section Show

variable {generators : Generators G1 G2} {l : Scalar} {sig sig' : BbsSignature G1}
  {messages messages' : List Scalar}

/-- The terms of moved blinders. -/
theorem msmTerms_moveBlinders (c r r' : Scalar) {rho : List Scalar}
    (hlength : messages'.length = messages.length) (hrho : rho.length = messages.length) :
    msmTerms (messageTerms generators (moveBlinders c r r' messages messages' rho)) =
      msmTerms (messageTerms generators rho) +
        c • (r • msmTerms (messageTerms generators messages) -
          r' • msmTerms (messageTerms generators messages')) := by
  rw [moveBlinders, msmTerms_responses generators c, msmTerms_responses generators (-1),
    msmTerms_messageTerms_map, msmTerms_messageTerms_map]
  · module
  · rw [List.length_map, List.length_map, hlength]
  · rw [List.length_zipWith, List.length_map, List.length_map, hlength, hrho, min_self]

/-- The randomised points and messages of the two signatures. -/
theorem SameKey.randomised (h : SameKey generators l sig sig' messages messages') (r : Scalar) :
    (l⁻¹ * r) • sig'.a = r • sig.a ∧ (l⁻¹ * r) • signedPoint generators sig'.s messages' =
      r • signedPoint generators sig.s messages + (sig'.e - sig.e) • r • sig.a := by
  have hcancel : ∀ p : G1, (l⁻¹ * r) • l • p = r • p := fun p => by
    rw [smul_smul, mul_right_comm, inv_mul_cancel₀ h.ne_zero, one_mul]
  have hpoint : (l⁻¹ * r) • sig'.a = r • sig.a := by rw [h.point, hcancel]
  have hmessage := congrArg ((l⁻¹ * r) • ·) h.message
  simp only [hcancel] at hmessage
  refine ⟨hpoint, ?_⟩
  calc (l⁻¹ * r) • signedPoint generators sig'.s messages'
      = (l⁻¹ * r) • (signedPoint generators sig'.s messages' - sig'.e • sig'.a) +
          sig'.e • (l⁻¹ * r) • sig'.a := by module
    _ = r • (signedPoint generators sig.s messages - sig.e • sig.a) + sig'.e • r • sig.a := by
        rw [hmessage, hpoint]
    _ = _ := by module

/-- The points stay. -/
theorem showPoints_moveCoins (h : SameKey generators l sig sig' messages messages')
    (hlength : messages'.length = messages.length) (c : Scalar) {coins : BbsProofCoins}
    (hrho : coins.rhoMTilde.length = messages.length) :
    showPoints generators sig' messages' (moveCoins l sig sig' messages messages' c coins) =
      showPoints generators sig messages coins := by
  rcases h.randomised coins.r1 with ⟨hpoint, hmessage⟩
  simp only [showPoints, moveCoins, Prod.mk.injEq]
  rw [hpoint, hmessage]
  refine ⟨rfl, by module, ?_⟩
  -- what the challenge adds to the blinders cancels, as the shown messages do
  simp only [signedPoint, msmTerms_cons] at hmessage
  have hmessages : (l⁻¹ * coins.r1) • msmTerms (messageTerms generators messages') =
      coins.r1 • (generators.g1 + sig.s • generators.h 0 +
          msmTerms (messageTerms generators messages)) + (sig'.e - sig.e) • coins.r1 • sig.a -
        (l⁻¹ * coins.r1) • (generators.g1 + sig'.s • generators.h 0) := by
    rw [eq_sub_iff_add_eq]
    calc _ = _ := by module
      _ = _ := hmessage
      _ = _ := by module
  simp only [msmTerms_cons]
  rw [msmTerms_moveBlinders c _ _ hlength hrho, hmessages]
  module

/-- So does the proof at the challenge. -/
theorem showAt_moveCoins (h : SameKey generators l sig sig' messages messages')
    (hlength : messages'.length = messages.length) (c : Scalar) {coins : BbsProofCoins}
    (hrho : coins.rhoMTilde.length = messages.length) :
    showAt generators sig' messages' (moveCoins l sig sig' messages messages' c coins) c =
      showAt generators sig messages coins c := by
  have hpoints := showPoints_moveCoins h hlength c hrho
  have hmoved := length_moveBlinders c coins.r1 (l⁻¹ * coins.r1) hlength hrho
  simp only [showAt, hpoints, BbsProof.mk.injEq, true_and]
  simp only [moveCoins]
  refine ⟨by ring, by ring, by ring, ?_⟩
  refine List.ext_getElem ?_ fun i hi hi' => ?_
  · rw [List.length_zipWith, List.length_zipWith, List.length_map, List.length_map, hmoved, hrho,
      hlength]
  · rw [List.length_zipWith, List.length_map] at hi hi'
    rw [List.getElem_zipWith, List.getElem_zipWith, List.getElem_map, List.getElem_map,
      getElem_moveBlinders c _ _ (by omega) (by omega) (by omega) (by omega)]
    ring

end Show

section Holder

variable [AddCommGroup G2] [Module Scalar G2] [AddCommGroup GT] [Module Scalar GT]
  (sha : Sha2) (bls : Blstrs G1 G2 GT) (generators : Generators G1 G2) (pk : G2)

/-- What a verifier asks for: the positions to disclose, and what the proof is bound to. -/
structure ShowQuery where
  mask : List Bool
  hCtx : Scalar
  aux : List UInt8

/-- A holder of a signature answers with a proof, and stays as it is. -/
def holder (sig : BbsSignature G1) (messages : List Scalar) {n : ℕ} (_ : Unit) (query : ShowQuery)
    (coins : DrawnFor n) : Except ActError (BbsProof G1) × Unit :=
  ((BbsProof.prove sha bls coins.1 generators pk sig messages query.mask query.hCtx query.aux).map
    Prod.fst, ())

variable {sha bls generators pk} {sig sig' : BbsSignature G1} {messages messages' : List Scalar}
  {query : ShowQuery} {n : ℕ}

/-- The challenge of a proof, for its points. -/
def showChallenge (sha : Sha2) (bls : Blstrs G1 G2 GT) (pk : G2) (messages : List Scalar)
    (query : ShowQuery) (points : G1 × G1 × G1) : Scalar :=
  BbsProof.computeChallenge sha bls query.hCtx pk points.1 points.2.1 points.2.2 messages
    query.mask query.aux

/-- For a mask that fits the holder sends the proof at the challenge of its points. -/
theorem holder_ok (hmask : query.mask.length = messages.length) (hmany : messages.length ≤ 5)
    (coins : DrawnFor n) :
    holder sha bls generators pk sig messages () query coins =
      (.ok (showAt generators sig messages coins.1 (showChallenge sha bls pk messages query
        (showPoints generators sig messages coins.1))), ()) := by
  unfold holder BbsProof.prove rejectIf
  rw [if_neg (not_not.mpr hmask), if_neg (not_lt.mpr hmany)]
  rfl

/-- For another mask, or too many messages, it fails whatever it holds. -/
theorem holder_error (hn : messages.length = n) (hn' : messages'.length = n)
    (hfits : ¬(query.mask.length = n ∧ n ≤ 5)) (coins coins' : DrawnFor n) :
    holder sha bls generators pk sig messages () query coins =
      holder sha bls generators pk sig' messages' () query coins' := by
  unfold holder BbsProof.prove rejectIf
  rw [hn, hn']
  by_cases hmask : query.mask.length = n
  · rw [if_neg (not_not.mpr hmask), if_pos (not_le.mp fun hmany => hfits ⟨hmask, hmany⟩)]
    rfl
  · rw [if_pos hmask]
    rfl

/-- The messages under the mask are the same. -/
def SameDisclosed (messages messages' : List Scalar) (query : ShowQuery) : Prop :=
  disclose query.mask messages = disclose query.mask messages'

theorem showChallenge_eq (hn : messages.length = n) (hn' : messages'.length = n)
    (hmask : query.mask.length = n) (hdisclosed : SameDisclosed messages messages' query)
    (points : G1 × G1 × G1) :
    showChallenge sha bls pk messages' query points =
      showChallenge sha bls pk messages query points := by
  unfold showChallenge BbsProof.computeChallenge
  rw [flatMap_mask (hmask.trans hn'.symm), flatMap_mask (hmask.trans hn.symm), hdisclosed]

/-- Two signatures of one key answer alike, where the messages asked for are the same. -/
theorem show_alike {l : Scalar} (h : SameKey generators l sig sig' messages messages')
    (hn : messages.length = n) (hn' : messages'.length = n)
    (hdisclosed : SameDisclosed messages messages' query) :
    ∃ e : DrawnFor n ≃ DrawnFor n, ∀ coins,
      holder sha bls generators pk sig' messages' () query (e coins) =
        holder sha bls generators pk sig messages () query coins := by
  have hlength := hn'.trans hn.symm
  have hpoints : ∀ c (coins : DrawnFor n),
      showPoints generators sig' messages' (coinsAt h.ne_zero sig sig' hn hn' c coins).1 =
        showPoints generators sig messages coins.1 := fun c coins =>
    showPoints_moveCoins h hlength c (coins.2.2.trans hn.symm)
  -- the challenge is hashed from the points, which every correspondence keeps
  refine ⟨hashed (fun coins => showPoints generators sig messages coins.1)
    (fun coins => showPoints generators sig' messages' coins.1)
    (showChallenge sha bls pk messages query) (coinsAt h.ne_zero sig sig' hn hn') hpoints,
    fun coins => ?_⟩
  by_cases hfits : query.mask.length = n ∧ n ≤ 5
  · rcases hfits with ⟨hmask, hmany⟩
    rw [holder_ok (hmask.trans hn'.symm) (hn'.trans_le hmany),
      holder_ok (hmask.trans hn.symm) (hn.trans_le hmany), showChallenge_eq hn hn' hmask hdisclosed]
    simp only [hashed, Equiv.coe_fn_mk]
    rw [hpoints]
    exact congrArg (fun proof => (Except.ok proof, ()))
      (showAt_moveCoins h hlength _ (coins.2.2.trans hn.symm))
  · exact (holder_error hn hn' hfits _ _).symm

/-- A mask under which nothing is disclosed. -/
def hiddenQuery (n : ℕ) : ShowQuery := ⟨List.replicate n false, 0, []⟩

omit [AddCommGroup G1] [Module Scalar G1] in
theorem hiddenQuery_sameDisclosed (hn : messages.length = n) (hn' : messages'.length = n) :
    SameDisclosed messages messages' (hiddenQuery n) := by
  have hnone : ∀ {ms : List Scalar}, ms.length = n →
      disclose (List.replicate n false) ms = List.replicate n none := fun {ms} hms => by
    refine List.eq_replicate_iff.mpr ⟨?_, fun opt hopt => ?_⟩
    · rw [disclose_length (by rw [List.length_replicate, hms]), hms]
    · rcases List.mem_iff_getElem.mp hopt with ⟨i, hi, rfl⟩
      simp only [disclose, List.getElem_zipWith, List.getElem_replicate]
      rfl
  rw [SameDisclosed, hiddenQuery, hnone hn, hnone hn']

/-- Whatever a verifier asks for, one question after the other, two tokens with the same
messages under its masks are shown alike, if and only if they are signed with the same key. -/
theorem showings_alike_iff (sha : Sha2) (bls : Blstrs G1 G2 GT) (pk : G2)
    (hn : messages.length = n) (hn' : messages'.length = n) (hmany : n ≤ 5) {sk sk' l : Scalar}
    (hl : l ≠ 0) (hne : sig.a ≠ 0) (hpoint : sig'.a = l • sig.a)
    (hsig : (sig.e + sk) • sig.a = signedPoint generators sig.s messages)
    (hsig' : (sig'.e + sk') • sig'.a = signedPoint generators sig'.s messages') :
    (∀ (ask : List (Except ActError (BbsProof G1)) →
          {query : ShowQuery // SameDisclosed messages messages' query}) (count : ℕ),
      Alike
        (outputs (fun state query (coins : DrawnFor n) =>
          holder sha bls generators pk sig messages state query.1 coins) ask count [] ())
        (outputs (fun state query (coins : DrawnFor n) =>
          holder sha bls generators pk sig' messages' state query.1 coins) ask count [] ())) ↔
      sk = sk' := by
  constructor
  · intro halike
    let coins : DrawnFor n := ⟨⟨1, 0, 0, 0, List.replicate n 0⟩, one_ne_zero, List.length_replicate⟩
    obtain ⟨coins', hshown⟩ : ∃ coins',
        (holder sha bls generators pk sig' messages' () (hiddenQuery n) coins').1 =
          (holder sha bls generators pk sig messages () (hiddenQuery n) coins).1 :=
      exists_output (halike (fun _ => ⟨hiddenQuery n, hiddenQuery_sameDisclosed hn hn'⟩) 1) coins
    have hmask : (hiddenQuery n).mask.length = n := List.length_replicate
    rw [holder_ok (hmask.trans hn'.symm) (hn'.trans_le hmany),
      holder_ok (hmask.trans hn.symm) (hn.trans_le hmany)] at hshown
    have hproof := Except.ok.inj hshown
    have haPrime : coins'.1.r1 • sig'.a = (1 : Scalar) • sig.a := congrArg BbsProof.aPrime hproof
    have haBar : (-sig'.e) • coins'.1.r1 • sig'.a +
        coins'.1.r1 • signedPoint generators sig'.s messages' =
          (-sig.e) • (1 : Scalar) • sig.a + (1 : Scalar) • signedPoint generators sig.s messages :=
      congrArg BbsProof.aBar hproof
    -- the second point of a proof is the key's multiple of the first
    rw [aBar_eq hsig, aBar_eq hsig', haPrime, one_smul] at haBar
    exact (smul_left_injective Scalar hne haBar).symm
  · intro hkey
    have hsame := (sameKey_iff hl hne hpoint hsig hsig').mpr hkey
    intro ask count
    refine outputs_alike (fun _ _ => True) (fun _ _ query _ => ?_) ask count trivial []
    obtain ⟨e, he⟩ : ∃ e : DrawnFor n ≃ DrawnFor n, ∀ coins,
        holder sha bls generators pk sig' messages' () query.1 (e coins) =
          holder sha bls generators pk sig messages () query.1 coins :=
      show_alike hsame hn hn' query.2
    exact ⟨e, fun coins => ⟨congrArg Prod.fst (he coins), trivial⟩⟩

end Holder

section Example

/-- A group of prime order: every generator is a multiple of every other one. -/
def scalarGenerators : Generators Scalar Scalar := Generators.ofPoints 1 1 fun i => (i : ℕ) + 2

/-- A signature with `e = 0` under the key one. -/
def plainSignature (s : Scalar) (messages : List Scalar) : BbsSignature Scalar :=
  ⟨signedPoint scalarGenerators s messages, 0, s⟩

theorem plainSignature_valid (s : Scalar) (messages : List Scalar) :
    ((plainSignature s messages).e + 1) • (plainSignature s messages).a =
      signedPoint scalarGenerators (plainSignature s messages).s messages := by
  show ((0 : Scalar) + 1) • _ = _
  rw [zero_add]
  exact one_smul Scalar _

/-- Two tokens that differ in the second message. -/
theorem showings_alike_iff_plain :
    (∀ (ask : List (Except ActError (BbsProof Scalar)) →
          {query : ShowQuery // SameDisclosed [3, 1] [3, 4] query}) (count : ℕ),
      Alike
        (outputs (fun state query (coins : DrawnFor 2) => holder lineSha scalarBlstrs
          scalarGenerators 1 (plainSignature 0 [3, 1]) [3, 1] state query.1 coins) ask count [] ())
        (outputs (fun state query (coins : DrawnFor 2) => holder lineSha scalarBlstrs
          scalarGenerators 1 (plainSignature 1 [3, 4]) [3, 4] state query.1 coins) ask count []
            ())) ↔ (1 : Scalar) = 1 := by
  have hne : (plainSignature 0 [3, 1]).a ≠ 0 := by decide +kernel
  have htwice : (plainSignature 1 [3, 4]).a = (2 : Scalar) • (plainSignature 0 [3, 1]).a := by
    decide +kernel
  have htwo : (2 : Scalar) ≠ 0 := by decide +kernel
  have hone : ([3, 1] : List Scalar).length = 2 := rfl
  have hfour : ([3, 4] : List Scalar).length = 2 := rfl
  exact showings_alike_iff lineSha scalarBlstrs 1 hone hfour (by decide) htwo hne htwice
    (plainSignature_valid 0 [3, 1]) (plainSignature_valid 1 [3, 4])

end Example

end Ebut
