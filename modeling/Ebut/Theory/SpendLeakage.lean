import Ebut.Library.Alike
import Ebut.Library.Blocks
import Ebut.Theory.LifeCycle

/-!
# What a Spend Gives Away

The blinders of the Schnorr part of a spend hide everything but the points that they do not
blind. At a challenge that does not depend on them, this part is made from its commitments, the
randomised signature and five multiples by the randomiser, with responses that are drawn:
`spend_leaks_only`. It needs neither the token, the secret and the balance nor the openings. The
two equality proofs that a spend embeds are made from the balance and the expiry; they are left
as any function of the points, and nothing is said about what they give away.

The multiples are needed, and they are enough to recognise a token. The client finalises what it
is sent without a look at it. An issuer that sends back a known multiple of the balance
generator finds the same multiple in the next spend: `spend_names_refund`.

## Main definitions

* `SpendAnswers`, `spendWitness`: The responses, and what the challenge multiplies in them.
* `SpendLeak`, `spendLeak`: The points that are not blinded.
* `simulateSpend`: A proof made from these.
* `TagMatches`: The test of an issuer.

## Theorems

* `spend_leaks_only`: The simulated proofs look like the real ones.
* `spendProve_ok`: What a prover that succeeds has sent.
* `spend_names_refund`: The test recognises the tagged token, and no other.
-/

namespace Ebut

open Blocks Randomised

variable {G1 G2 GT R : Type} [AddCommGroup G1] [Module Scalar G1]

/-- The responses of a spend, and also their blinders. -/
structure SpendAnswers where
  e : Scalar
  r1 : Scalar
  s : Scalar
  x : Scalar
  c : Scalar
  emax : Scalar
  u : Scalar
  v : Scalar
  w : Scalar
  rx : Scalar
  delta : Scalar

/-- A multiple of some values is added to every response. -/
def SpendAnswers.shift (c : Scalar) (w : SpendAnswers) : SpendAnswers ≃ SpendAnswers where
  toFun b := ⟨b.e + c * w.e, b.r1 + c * w.r1, b.s + c * w.s, b.x + c * w.x, b.c + c * w.c,
    b.emax + c * w.emax, b.u + c * w.u, b.v + c * w.v, b.w + c * w.w, b.rx + c * w.rx,
    b.delta + c * w.delta⟩
  invFun z := ⟨z.e - c * w.e, z.r1 - c * w.r1, z.s - c * w.s, z.x - c * w.x, z.c - c * w.c,
    z.emax - c * w.emax, z.u - c * w.u, z.v - c * w.v, z.w - c * w.w, z.rx - c * w.rx,
    z.delta - c * w.delta⟩
  left_inv b := by simp only [add_sub_cancel_right]
  right_inv z := by simp only [sub_add_cancel]

/-- The coins with other blinders. -/
def SpendCoins.withBlinders (coins : SpendCoins) (b : SpendAnswers) : SpendCoins :=
  { coins with
    rhoE := b.e
    rhoR1 := b.r1
    rhoS := b.s
    rhoX := b.x
    rhoC := b.c
    rhoEmax := b.emax
    rhoU := b.u
    rhoV := b.v
    rhoW := b.w
    rhoRx := b.rx
    rhoDelta := b.delta }

/-- What the challenge multiplies in the responses. -/
def spendWitness (coins : SpendCoins) (token : BbsSignature G1) (x : Scalar) (cBal : UInt32)
    (eMax : UInt64) : SpendAnswers where
  e := token.e
  r1 := coins.r1
  s := token.s * coins.r1
  x := x * coins.r1
  c := Scalar.ofU32 cBal * coins.r1
  emax := Scalar.ofU64 eMax * coins.r1
  u := coins.kStar * coins.r1
  v := coins.rStar * coins.r1
  w := coins.rBp * coins.r1
  rx := coins.rX * coins.r1
  delta := coins.rDelta * coins.r1

/-- The points of a spend that are not blinded: the commitments, the randomised signature, and
the commitments times its randomiser. -/
structure SpendLeak (G1 : Type) where
  kPrime : G1
  cBp : G1
  cDelta : G1
  xBlsCommitment : G1
  aPrime : G1
  aBar : G1
  scaledTotal : G1
  scaledRefund : G1
  scaledBp : G1
  scaledX : G1
  scaledExp : G1

section Leak

variable (generators : Generators G1 G2) (nowUnix : UInt64) (spendAmount : UInt32)

/-- What a message gives away of its commitments. -/
def spendLeak (coins : SpendCoins) (msg : SpendMessage G1) : SpendLeak G1 where
  kPrime := msg.kPrime
  cBp := msg.cBp
  cDelta := msg.cDelta
  xBlsCommitment := msg.xBlsCommitment
  aPrime := msg.aPrime
  aBar := msg.aBar
  scaledTotal := coins.r1 • msg.cTotal
  scaledRefund := coins.r1 • msg.kPrime
  scaledBp := coins.r1 • msg.cBp
  scaledX := coins.r1 • msg.xBlsCommitment
  scaledExp := coins.r1 • (msg.cDelta + Scalar.ofU64 nowUnix • generators.h 5)

/-- A proof with the given responses. Every first message is what its equation leaves. -/
def simulateSpend (leak : SpendLeak G1) (kCur : Scalar) (tIssue : UInt32) (eMax : UInt64)
    (batchedEq expiryEq : BatchedEqualityProof) (c : Scalar) (z : SpendAnswers) :
    SpendProof G1 where
  aPrime := leak.aPrime
  aBar := leak.aBar
  tBbs := z.r1 • generators.g1 + z.s • generators.h 0 + z.x • generators.h 1 +
    (kCur * z.r1) • generators.h 2 + z.c • generators.h 3 +
    (Scalar.ofU32 tIssue * z.r1) • generators.h 4 + z.emax • generators.h 5 -
    z.e • leak.aPrime - c • leak.aBar
  tScaleT := z.r1 • (leak.kPrime + Scalar.ofU32 spendAmount • generators.h 3) -
    c • leak.scaledTotal
  tTotal := z.x • generators.h 1 + z.u • generators.h 2 + z.c • generators.h 3 +
    (z.r1 * Scalar.ofU32 tIssue) • generators.h 4 + z.emax • generators.h 5 +
    z.v • generators.h 0 - c • leak.scaledTotal
  tScaleR := z.r1 • leak.kPrime - c • leak.scaledRefund
  tRefund := z.x • generators.h 1 + z.u • generators.h 2 +
    (z.c - Scalar.ofU32 spendAmount * z.r1) • generators.h 3 +
    (z.r1 * Scalar.ofU32 tIssue) • generators.h 4 + z.emax • generators.h 5 +
    z.v • generators.h 0 - c • leak.scaledRefund
  tScaleBp := z.r1 • leak.cBp - c • leak.scaledBp
  tBp := (z.c - Scalar.ofU32 spendAmount * z.r1) • generators.h 3 + z.w • generators.h 0 -
    c • leak.scaledBp
  zE := z.e
  zR1 := z.r1
  zSTilde := z.s
  zXTilde := z.x
  zCTilde := z.c
  zETilde := z.emax
  zU := z.u
  zV := z.v
  zW := z.w
  batchedEq
  s := spendAmount
  kCur
  tIssue
  kPrime := leak.kPrime
  cBp := leak.cBp
  eMax
  xBlsCommitment := leak.xBlsCommitment
  tScaleX := z.r1 • leak.xBlsCommitment - c • leak.scaledX
  tX := z.x • generators.h 1 + z.rx • generators.h 0 - c • leak.scaledX
  zRX := z.rx
  cDelta := leak.cDelta
  expiryEq
  tScaleExp := z.r1 • (leak.cDelta + Scalar.ofU64 nowUnix • generators.h 5) - c • leak.scaledExp
  tExp := z.emax • generators.h 5 + z.delta • generators.h 0 - c • leak.scaledExp
  zRDelta := z.delta

variable {generators nowUnix spendAmount} {coins : SpendCoins} {token : BbsSignature G1}
  {x kCur : Scalar} {cBal tIssue : UInt32} {eMax : UInt64}

/-- The proof is the simulated one with the responses of the prover. -/
theorem simulateSpend_shift (hamount : spendAmount ≤ cBal) (hnow : nowUnix ≤ eMax)
    (batchedEq expiryEq : BatchedEqualityProof) (c : Scalar) (b : SpendAnswers) :
    simulateSpend generators nowUnix spendAmount
        (spendLeak generators nowUnix coins
          (spendMessage generators coins token x kCur cBal tIssue eMax nowUnix spendAmount))
        kCur tIssue eMax batchedEq expiryEq c
        (SpendAnswers.shift c (spendWitness coins token x cBal eMax) b) =
      spendProofAt generators (coins.withBlinders b) token x kCur cBal tIssue eMax nowUnix
        spendAmount batchedEq expiryEq c := by
  simp only [simulateSpend, spendLeak, spendProofAt, spendMessage, SpendCoins.withBlinders,
    SpendAnswers.shift, spendWitness, Equiv.coe_fn_mk, SpendProof.mk.injEq, g1Msm_cons, g1Msm_nil,
    ofU32_sub hamount, ofU64_sub hnow, true_and, and_true]
  refine ⟨?_, ?_, ?_, ?_, ?_, ?_, ?_, ?_, ?_, ?_, ?_⟩ <;> module

/-- The proof with equality proofs that were made for its points. -/
def SpendProof.withRanges (ranges : SpendProof G1 → BatchedEqualityProof × BatchedEqualityProof)
    (proof : SpendProof G1) : SpendProof G1 :=
  { proof with batchedEq := (ranges proof).1, expiryEq := (ranges proof).2 }

/-- Where the challenge is drawn, a spend looks like one whose Schnorr part is made from the points
which are not blinded and from responses that are drawn, with the same equality proofs in it. -/
theorem spend_leaks_only (coins : SpendCoins) (token : BbsSignature G1) (x kCur : Scalar)
    (tIssue : UInt32) (hamount : spendAmount ≤ cBal) (hnow : nowUnix ≤ eMax)
    (ranges : SpendProof G1 → BatchedEqualityProof × BatchedEqualityProof)
    (blank : BatchedEqualityProof) :
    Alike
      (fun p : Scalar × SpendAnswers => (p.1,
        (spendProofAt generators (coins.withBlinders p.2) token x kCur cBal tIssue eMax nowUnix
          spendAmount blank blank p.1).withRanges ranges))
      (fun p : Scalar × SpendAnswers => (p.1,
        (simulateSpend generators nowUnix spendAmount (spendLeak generators nowUnix coins
          (spendMessage generators coins token x kCur cBal tIssue eMax nowUnix spendAmount))
          kCur tIssue eMax blank blank p.1 p.2).withRanges ranges)) := by
  have hdraws : ∀ c, Alike
      (fun b => spendProofAt generators (coins.withBlinders b) token x kCur cBal tIssue eMax
        nowUnix spendAmount blank blank c)
      (fun z => simulateSpend generators nowUnix spendAmount (spendLeak generators nowUnix coins
        (spendMessage generators coins token x kCur cBal tIssue eMax nowUnix spendAmount))
        kCur tIssue eMax blank blank c z) := fun c =>
    ⟨SpendAnswers.shift c (spendWitness coins token x cBal eMax), fun b =>
      simulateSpend_shift hamount hnow blank blank c b⟩
  exact Alike.pair fun c => (hdraws c).map (SpendProof.withRanges ranges)

end Leak

section Tag

variable [AddCommGroup G2] [Module Scalar G2] [AddCommGroup GT] [Module Scalar GT]
  [AddCommGroup R] [Module DalekScalar R] {sha : Sha2} {bls : Blstrs G1 G2 GT} {dalek : Dalek R}
  {generators : Generators G1 G2} {nonce : Bytes 16} {pkDaily : G2} {hCtx x : Scalar}

/-- A prover that succeeds has sent the proof at the challenge of that very proof. -/
theorem spendProve_ok {coins : SpendCoins} {token : BbsSignature G1} {kCur : Scalar}
    {cBal tIssue : UInt32} {eMax nowUnix : UInt64} {spendAmount : UInt32} {client : SpendClient}
    {proof : SpendProof G1}
    (hprove : spendProve generators coins token x kCur cBal tIssue eMax nowUnix spendAmount sha bls
      dalek nonce pkDaily hCtx = .ok (client, proof)) :
    spendAmount ≠ 0 ∧ spendAmount ≤ cBal ∧ nowUnix ≤ eMax ∧ ∃ batchedEq expiryEq,
      proof = spendProofAt generators coins token x kCur cBal tIssue eMax nowUnix spendAmount
        batchedEq expiryEq
        (spendChallenge sha bls generators hCtx pkDaily nowUnix nonce proof) := by
  unfold spendProve at hprove
  rw [rejectIf_bind_ok, rejectIf_bind_ok, rejectIf_bind_ok] at hprove
  rcases hprove with ⟨hpos, hamount, hnow, hrest⟩
  rcases bind_eq_ok.mp hrest with ⟨⟨batchedEq, _⟩, -, hrest⟩
  rcases bind_eq_ok.mp hrest with ⟨⟨expiryEq, _⟩, -, hrest⟩
  refine ⟨hpos, UInt32.not_lt.mp hamount, UInt64.not_lt.mp hnow, batchedEq, expiryEq, ?_⟩
  -- no response is hashed
  rcases Prod.mk.inj (Except.ok.inj hrest) with ⟨-, rfl⟩
  rfl

/-- The test of an issuer that has sent back the multiple `tag` of the balance generator. -/
def TagMatches (generators : Generators G1 G2) (c tag : Scalar) (proof : SpendProof G1) : Prop :=
  tag • (proof.zR1 • Scalar.ofU32 proof.s • generators.h 3 - (proof.tScaleT - proof.tScaleR)) =
    (c * Scalar.ofU32 proof.s) • proof.aPrime

theorem ofU32_ne_zero {n : UInt32} (hn : n ≠ 0) : Scalar.ofU32 n ≠ 0 := by
  intro hzero
  have hlt : n.toNat < blsOrder := n.toNat_lt.trans (by decide +kernel)
  have hdvd := (ZMod.natCast_eq_zero_iff n.toNat blsOrder).mp hzero
  exact hn (UInt32.toNat_inj.mp (Nat.eq_zero_of_dvd_of_lt hdvd hlt))

omit [AddCommGroup G2] [Module Scalar G2] in
/-- The two scaled commitments give the randomised balance generator away, and the test compares
it with the randomised signature. -/
theorem tagMatches_iff {coins : SpendCoins} {token : BbsSignature G1} {kCur : Scalar}
    {cBal tIssue : UInt32} {eMax nowUnix : UInt64} {spendAmount : UInt32}
    (hpos : spendAmount ≠ 0) (batchedEq expiryEq : BatchedEqualityProof) {c : Scalar}
    (hc : c ≠ 0) (tag : Scalar) :
    TagMatches generators c tag (spendProofAt generators coins token x kCur cBal tIssue eMax nowUnix
        spendAmount batchedEq expiryEq c) ↔ token.a = tag • generators.h 3 := by
  have hfactor : c * Scalar.ofU32 spendAmount * coins.r1 ≠ 0 :=
    mul_ne_zero (mul_ne_zero hc (ofU32_ne_zero hpos)) coins.r1_ne
  have hscaled : (coins.rhoR1 + c * coins.r1) • Scalar.ofU32 spendAmount • generators.h 3 -
      (coins.rhoR1 • (spendMessage generators coins token x kCur cBal tIssue eMax nowUnix
          spendAmount).cTotal -
        coins.rhoR1 • (spendMessage generators coins token x kCur cBal tIssue eMax nowUnix
          spendAmount).kPrime) =
        (c * Scalar.ofU32 spendAmount * coins.r1) • generators.h 3 := by
    simp only [spendMessage]
    module
  have hshown : (c * Scalar.ofU32 spendAmount) • coins.r1 • token.a =
      (c * Scalar.ofU32 spendAmount * coins.r1) • token.a := (mul_smul _ _ _).symm
  show tag • (_ - (_ - _)) = (c * Scalar.ofU32 spendAmount) • coins.r1 • token.a ↔ _
  rw [hshown]
  have hleft := congrArg (tag • ·) hscaled
  simp only [smul_comm tag (c * Scalar.ofU32 spendAmount * coins.r1)] at hleft
  constructor
  · intro h
    exact (smul_right_injective G1 hfactor (hleft.symm.trans h)).symm
  · intro h
    rw [h]
    exact hleft

/-- The client finalises whatever it is sent. If an issuer answers every spend with a multiple of
its own of the balance generator, then the next spend matches the multiple that this client was
sent, and no other, whatever the coins of the client are. -/
theorem spend_names_refund (hh3 : generators.h 3 ≠ 0) {ι : Type} {tags : ι → Scalar}
    (htags : Function.Injective tags) {client next : SpendClient} {response : SpendResponse G1}
    {i : ι} (hresponse : response.aRefund = tags i • generators.h 3) {coins : SpendCoins}
    {nowUnix : UInt64} {spendAmount : UInt32} {proof : SpendProof G1}
    (hprove : spendProve generators coins (client.finalize response).sig x
      (client.finalize response).k (client.finalize response).c (client.finalize response).tIssue
      (client.finalize response).eMax nowUnix spendAmount sha bls dalek nonce pkDaily hCtx =
        .ok (next, proof))
    (hc : spendChallenge sha bls generators hCtx pkDaily nowUnix nonce proof ≠ 0) (j : ι) :
    TagMatches generators (spendChallenge sha bls generators hCtx pkDaily nowUnix nonce proof)
      (tags j) proof ↔ j = i := by
  rcases spendProve_ok hprove with ⟨hpos, -, -, batchedEq, expiryEq, hproof⟩
  generalize spendChallenge sha bls generators hCtx pkDaily nowUnix nonce proof = c at hproof hc ⊢
  rw [hproof, tagMatches_iff hpos batchedEq expiryEq hc]
  show response.aRefund = tags j • generators.h 3 ↔ j = i
  rw [hresponse]
  constructor
  · intro h
    exact (htags (smul_left_injective Scalar hh3 h)).symm
  · rintro rfl
    rfl

end Tag

section Example

/-- A token of ten units. -/
def tenToken : BbsSignature UnitSpace := ⟨unitGenerators.h 3, 1, 2⟩

theorem spend_leaks_only_three :
    Alike
      (fun p : Scalar × SpendAnswers => (p.1,
        (spendProofAt unitGenerators (oneSpendCoins.withBlinders p.2) tenToken 5 7 10 3 1000 900 3
          blankEqualityProof blankEqualityProof p.1).withRanges
            fun _ => (blankEqualityProof, blankEqualityProof)))
      (fun p : Scalar × SpendAnswers => (p.1,
        (simulateSpend unitGenerators 900 3 (spendLeak unitGenerators 900 oneSpendCoins
          (spendMessage unitGenerators oneSpendCoins tenToken 5 7 10 3 1000 900 3)) 7 3 1000
          blankEqualityProof blankEqualityProof p.1 p.2).withRanges
            fun _ => (blankEqualityProof, blankEqualityProof))) :=
  spend_leaks_only oneSpendCoins tenToken 5 7 3 (by decide) (by decide) _ blankEqualityProof

/-- The token of a client with seven units left, whose issuer has sent back five times the
balance generator. -/
def taggedToken : HeldToken UnitSpace :=
  SpendClient.finalize ⟨7, 10, 3, 1000, 3, 2, 7, 1, 1⟩ ⟨(5 : Scalar) • unitGenerators.h 3, 1, 2⟩

theorem spend_names_refund_five :
    ∃ next proof, spendProve unitGenerators oneSpendCoins taggedToken.sig 5 taggedToken.k
        taggedToken.c taggedToken.tIssue taggedToken.eMax 900 2 lineSha lineBlstrs lineDalek
        (leArray 16 1) unitKeys.pkDaily 7 = .ok (next, proof) ∧
      ∀ tag : Scalar, TagMatches unitGenerators
        (spendChallenge lineSha lineBlstrs unitGenerators 7 unitKeys.pkDaily 900 (leArray 16 1)
          proof) tag proof ↔ tag = 5 := by
  have hamount : (2 : UInt32) ≤ taggedToken.c := by decide
  have hnow : (900 : UInt64) ≤ taggedToken.eMax := by decide
  have hbeq : RangeComplete lineDalek oneSpendCoins.beq := oneBeqCoins_complete
  have hexpiry : RangeComplete lineDalek oneSpendCoins.expiry := oneBeqCoins_complete
  rcases spendProve_complete lineSha lineBlstrs lineDalek unitGenerators 7 5 lineDalek_decompress
    hbeq hexpiry taggedToken.sig taggedToken.k taggedToken.tIssue (leArray 16 1) unitKeys.pkDaily
    (by decide) hamount hnow with ⟨_, _, hprove, -, -⟩
  refine ⟨_, _, hprove, fun tag => ?_⟩
  -- the hash is constant
  have hchallenge : ∀ preimage, hashToScalar lineSha preimage ≠ 0 := fun preimage => by
    rw [show hashToScalar lineSha preimage = hashToScalar lineSha [] from rfl]
    decide +kernel
  have hh3 : unitGenerators.h 3 ≠ 0 := h_ne_zero unitGenerators_independent 3
  exact spend_names_refund hh3 Function.injective_id rfl hprove (hchallenge _) tag

end Example

end Ebut
