import Ebut.Core.Client
import Ebut.Theory.BatchedEq
import Ebut.Theory.Token

/-!
# Honest Proofs Are Accepted

A client that follows the protocol, one interaction at a time: its request for a master
token, its refresh and its spend. The server accepts exactly when its own guards do not fire:
no point that they look at is the identity, and no drawn scalar is the negative of the signing
key. What it signs then is what the client needs.

Range proofs are complete and points are decoded from their encodings; the hashes are
arbitrary. That the prover answers the verifier's challenge rests on the two computing it
over the same points, and on the relations behind the combined equation, which hold one by
one.

## Main definitions

* `Signs`, `signatureOn`: A BBS+ signature on a message, and the one a key gives.
* `masterMessage`, `dailyMessage`: What the two kinds of token sign.
* `SpendCoins.blinded`, `RefreshCoins.blinded`: What the provers commit to.

## Theorems

* `spendAccepts_proofAt`, `refreshAccepts_proofAt`: The honest responses are accepted.
* `spendProve_accepted`, `refreshProve_accepted`: The honest proofs are accepted.
* `masterMintIssue_honest`, `verifySpend_honest`, `verifyRefresh_honest`: When the server
  answers, and what it signs.
-/

namespace Ebut

variable {G1 G2 GT R : Type} [AddCommGroup G1] [Module Scalar G1]

/-- The signature belongs to the message under the key. -/
structure Signs (sk : Scalar) (sig : BbsSignature G1) (message : G1) : Prop where
  denom_ne : sig.e + sk ≠ 0
  valid : (sig.e + sk) • sig.a = message

/-- The signature that a key gives to a message for the drawn scalars. -/
def signatureOn (sk e s : Scalar) (message : G1) : BbsSignature G1 := ⟨(e + sk)⁻¹ • message, e, s⟩

theorem signs_signatureOn {sk e : Scalar} (hdenom : e + sk ≠ 0) (s : Scalar) (message : G1) :
    Signs sk (signatureOn sk e s message) message :=
  ⟨hdenom, smul_inv_smul₀ hdenom message⟩

/-- What a master signature signs. -/
def masterMessage (generators : Generators G1 G2) (s x : Scalar) (cMax : UInt32)
    (eMax : UInt64) : G1 :=
  generators.g1 + s • generators.h 0 + x • generators.h 1 + Scalar.ofU32 cMax • generators.h 3 +
    Scalar.ofU64 eMax • generators.h 5

/-- What a daily signature signs. -/
def dailyMessage (generators : Generators G1 G2) (s x k : Scalar) (c t : UInt32)
    (eMax : UInt64) : G1 :=
  generators.g1 + s • generators.h 0 + x • generators.h 1 + k • generators.h 2 +
    Scalar.ofU32 c • generators.h 3 + Scalar.ofU32 t • generators.h 4 +
    Scalar.ofU64 eMax • generators.h 5

/-- What the prover of a spend commits to: its blinders on the shown token and on the
generators, those of the disclosed serial and epoch tied to the randomiser's. -/
def SpendCoins.blinded (coins : SpendCoins) (generators : Generators G1 G2) (a : G1)
    (kCur : Scalar) (tIssue : UInt32) : G1 :=
  (-coins.rhoE) • coins.r1 • a + coins.rhoR1 • generators.g1 + coins.rhoS • generators.h 0 +
    coins.rhoX • generators.h 1 + (kCur * coins.rhoR1) • generators.h 2 +
    coins.rhoC • generators.h 3 + (Scalar.ofU32 tIssue * coins.rhoR1) • generators.h 4 +
    coins.rhoEmax • generators.h 5

/-- What the prover of a refresh commits to. -/
def RefreshCoins.blinded (coins : RefreshCoins) (generators : Generators G1 G2) (a : G1) : G1 :=
  (-coins.rhoE) • coins.r1 • a + coins.rhoR1 • generators.g1 + coins.rhoS • generators.h 0 +
    coins.rhoK • generators.h 1 + coins.rhoC • generators.h 3 + coins.rhoEMsg • generators.h 5

section Arithmetic

theorem ofU32_sub {a b : UInt32} (hle : b ≤ a) :
    Scalar.ofU32 (a - b) = Scalar.ofU32 a - Scalar.ofU32 b := by
  have hnat : b.toNat ≤ a.toNat := UInt32.le_iff_toNat_le.mp hle
  unfold Scalar.ofU32
  rw [UInt32.toNat_sub_of_le a b hle, Nat.cast_sub hnat]

theorem ofU64_sub {a b : UInt64} (hle : b ≤ a) :
    Scalar.ofU64 (a - b) = Scalar.ofU64 a - Scalar.ofU64 b := by
  have hnat : b.toNat ≤ a.toNat := UInt64.le_iff_toNat_le.mp hle
  unfold Scalar.ofU64
  rw [UInt64.toNat_sub_of_le a b hle, Nat.cast_sub hnat]

/-- Integers of 64 bits are below the order. -/
theorem ofU64_injective : Function.Injective Scalar.ofU64 := by
  intro a b heq
  unfold Scalar.ofU64 at heq
  rw [ZMod.natCast_eq_natCast_iff] at heq
  have hlt : ∀ v : UInt64, v.toNat < blsOrder := fun v =>
    v.toNat_lt.trans (by decide +kernel : 2 ^ 64 < blsOrder)
  exact UInt64.toNat_inj.mp (Nat.ModEq.eq_of_lt_of_lt heq (hlt a) (hlt b))

end Arithmetic

section Relations

variable (generators : Generators G1 G2) (c : Scalar) (proof : SpendProof G1)

/-- The relation of the shown token, as a point that is zero when it holds. -/
def spendShown : G1 :=
  proof.zSTilde • generators.h 0 + proof.zXTilde • generators.h 1 +
    (proof.kCur * proof.zR1) • generators.h 2 + proof.zCTilde • generators.h 3 +
    (Scalar.ofU32 proof.tIssue * proof.zR1) • generators.h 4 + proof.zETilde • generators.h 5 +
    proof.zR1 • generators.g1 - proof.zE • proof.aPrime - c • proof.aBar - proof.tBbs

/-- The relation of the refund commitment, for a balance response and a commitment. -/
def spendCarried (zBalance : Scalar) (commitment t tScale : G1) : G1 :=
  proof.zV • generators.h 0 + proof.zXTilde • generators.h 1 + proof.zU • generators.h 2 +
    zBalance • generators.h 3 + (Scalar.ofU32 proof.tIssue * proof.zR1) • generators.h 4 +
    proof.zETilde • generators.h 5 - proof.zR1 • commitment - t + tScale

/-- The relation of the balance commitment. -/
def spendBalance : G1 :=
  proof.zW • generators.h 0 +
    (proof.zCTilde - Scalar.ofU32 proof.s * proof.zR1) • generators.h 3 -
    proof.zR1 • proof.cBp - proof.tBp + proof.tScaleBp

/-- The combined equation of a spend weighs its relations with powers of the challenge. -/
theorem spendCombined_eq_weighted : spendCombined generators c proof =
    spendShown generators c proof +
    c • spendCarried generators proof proof.zCTilde (cTotal generators proof) proof.tTotal
      proof.tScaleT +
    c ^ 2 • spendCarried generators proof (proof.zCTilde - Scalar.ofU32 proof.s * proof.zR1)
      proof.kPrime proof.tRefund proof.tScaleR +
    c ^ 3 • spendBalance generators proof := by
  rw [spendCombined_eq, spendShown, spendCarried, spendCarried, spendBalance]
  module

end Relations

section SpendProver

variable (generators : Generators G1 G2) (coins : SpendCoins) (token : BbsSignature G1)
  (kSub kCur : Scalar) {cBal : UInt32} (tIssue : UInt32) {eMax nowUnix : UInt64}
  {spendAmount : UInt32} (beq expiry : BatchedEqualityProof)

/-- The honest responses satisfy the equations at every challenge. -/
theorem spendAccepts_proofAt (hnow : nowUnix ≤ eMax) (hamount : spendAmount ≤ cBal) (c : Scalar) :
    SpendAccepts generators nowUnix c (spendProofAt generators coins token kSub kCur cBal tIssue
      eMax nowUnix spendAmount beq expiry c) := by
  refine ⟨?_, ?_, ?_⟩
  · simp only [xBridgeHolds, spendProofAt, spendMessage, g1Msm_cons, g1Msm_nil]
    module
  · simp only [expiryBridgeHolds, spendEmaxBlsCommitment, spendProofAt, spendMessage, g1Msm_cons,
      g1Msm_nil, ofU64_sub hnow]
    module
  · -- each relation holds on its own
    have hshown : spendShown generators c (spendProofAt generators coins token kSub kCur cBal
        tIssue eMax nowUnix spendAmount beq expiry c) = 0 := by
      simp only [spendShown, spendProofAt, spendMessage, g1Msm_cons, g1Msm_nil]
      module
    rw [spendCombined_eq_weighted, hshown]
    simp only [spendCarried, spendBalance, cTotal, spendProofAt, spendMessage, g1Msm_cons,
      g1Msm_nil, ofU32_sub hamount]
    module

/-- The shown token passes the pairing check. -/
theorem spendMessage_aBar {sk : Scalar}
    (hsigns : Signs sk token (dailyMessage generators token.s kSub kCur cBal tIssue eMax)) :
    (spendMessage generators coins token kSub kCur cBal tIssue eMax nowUnix spendAmount).aBar =
      sk • coins.r1 • token.a := by
  have hvalid := hsigns.valid
  unfold dailyMessage at hvalid
  have hmsg : g1Msm
      [generators.g1, generators.h 0, generators.h 1, generators.h 2, generators.h 3,
        generators.h 4, generators.h 5]
      [1, token.s, kSub, kCur, Scalar.ofU32 cBal, Scalar.ofU32 tIssue, Scalar.ofU64 eMax] =
      (token.e + sk) • token.a := by
    rw [hvalid]
    simp only [g1Msm_cons, g1Msm_nil]
    module
  simp only [spendMessage]
  rw [hmsg]
  module

/-- The first message for the shown token is what was drawn for it. -/
theorem spendMessage_tBbs :
    (spendMessage generators coins token kSub kCur cBal tIssue eMax nowUnix spendAmount).tBbs =
      coins.blinded generators token.a kCur tIssue := by
  simp only [spendMessage, SpendCoins.blinded, g1Msm_cons, g1Msm_nil]
  module

end SpendProver

section RefreshProver

variable (generators : Generators G1 G2) (coins : RefreshCoins) (master : BbsSignature G1)
  (kSub : Scalar) (cMax : UInt32) {eMax : UInt64} (t : UInt32) {nowUnix : UInt64} (hT : G1)
  (beq : BatchedEqualityProof)

/-- The honest responses satisfy the equations at every challenge. -/
theorem refreshAccepts_proofAt (hnow : nowUnix ≤ eMax) (c : Scalar) :
    RefreshAccepts generators hT t nowUnix c (refreshProofAt generators coins master kSub cMax eMax
      t nowUnix hT beq c) := by
  refine ⟨?_, ?_⟩
  · simp only [refreshXBridgeHolds, refreshProofAt, refreshMessage, g1Msm_cons, g1Msm_nil]
    module
  · rw [refreshCombined_eq]
    simp only [refreshEmaxBlsCommitment, refreshProofAt, refreshMessage, g1Msm_cons, g1Msm_nil,
      ofU64_sub hnow]
    module

/-- The shown token passes the pairing check. -/
theorem refreshMessage_aBar {sk : Scalar}
    (hsigns : Signs sk master (masterMessage generators master.s kSub cMax eMax)) :
    (refreshMessage generators coins master kSub cMax eMax t nowUnix hT).aBar =
      sk • coins.r1 • master.a := by
  have hvalid := hsigns.valid
  unfold masterMessage at hvalid
  have hmsg : g1Msm [generators.g1, generators.h 0, generators.h 1, generators.h 3, generators.h 5]
      [1, master.s, kSub, Scalar.ofU32 cMax, Scalar.ofU64 eMax] = (master.e + sk) • master.a := by
    rw [hvalid]
    simp only [g1Msm_cons, g1Msm_nil]
    module
  simp only [refreshMessage]
  rw [hmsg]
  module

/-- The first message for the shown token is what was drawn for it. -/
theorem refreshMessage_tBbs :
    (refreshMessage generators coins master kSub cMax eMax t nowUnix hT).tBbs =
      coins.blinded generators master.a := by
  simp only [refreshMessage, RefreshCoins.blinded, g1Msm_cons, g1Msm_nil]
  module

end RefreshProver

section Issuance

variable (generators : Generators G1 G2) (sk : Scalar) (commitment : G1) (e sPrime : Scalar)

/-- Where the denominator does not vanish the server signs the commitment it was sent. -/
theorem issueOn_ok {a : G1} : issueOn generators sk commitment e sPrime = .ok a ↔
    e + sk ≠ 0 ∧
      a = (e + sk)⁻¹ • (generators.g1 + commitment + sPrime • generators.h 0) := by
  have hmsg : g1Msm [generators.g1, commitment, generators.h 0] [1, 1, sPrime] =
      generators.g1 + commitment + sPrime • generators.h 0 := by
    simp only [g1Msm_cons, g1Msm_nil]
    module
  rw [issueOn, rejectIf_bind_ok, hmsg]
  refine and_congr_right fun _ => ⟨fun h => (Except.ok.inj h).symm, fun h => ?_⟩
  rw [h]
  rfl

end Issuance

section Interaction

variable [AddCommGroup G2] [Module Scalar G2] [AddCommGroup GT] [Module Scalar GT]
  [AddCommGroup R] [Module DalekScalar R] [DecidableEq G1] [DecidableEq GT] (sha : Sha2)
  (bls : Blstrs G1 G2 GT) (dalek : Dalek R) (generators : Generators G1 G2)
  (keys : ServerKeys generators) (hCtx x : Scalar)

omit [DecidableEq G1] [DecidableEq GT] in
/-- The prover succeeds, and its two range proofs are accepted for the commitments and in the
contexts that the verifier reads off the proof. -/
theorem spendProve_complete (hcompress : ∀ p, dalek.decompress (dalek.compress p) = some p)
    {coins : SpendCoins} (hbeq : RangeComplete dalek coins.beq)
    (hexpiry : RangeComplete dalek coins.expiry) (token : BbsSignature G1) (kCur : Scalar)
    {cBal : UInt32} (tIssue : UInt32) {eMax nowUnix : UInt64} {spendAmount : UInt32}
    (nonce : Bytes 16) (pkDaily : G2) (hpos : spendAmount ≠ 0) (hamount : spendAmount ≤ cBal)
    (hnow : nowUnix ≤ eMax) :
    ∃ batchedEq expiryEq,
      let proofAt := spendProofAt generators coins token x kCur cBal tIssue eMax nowUnix
        spendAmount batchedEq expiryEq
      let c := spendChallenge sha bls generators hCtx pkDaily nowUnix nonce (proofAt 0)
      spendProve generators coins token x kCur cBal tIssue eMax nowUnix spendAmount sha bls dalek
          nonce pkDaily hCtx =
        .ok (⟨kCur, cBal, tIssue, eMax, coins.kStar, coins.rStar, cBal - spendAmount, coins.rDelta,
          coins.rBp⟩, proofAt c) ∧
      verifyBatchedEquality sha bls dalek batchedEq (proofAt c).cBp (generators.h 3)
        (generators.h 0) (spendBeqCtx hCtx nowUnix nonce (proofAt c))
        [(proofAt c).aPrime, (proofAt c).aBar, (proofAt c).tBbs, (proofAt c).kPrime,
          cTotal generators (proofAt c), (proofAt c).xBlsCommitment, (proofAt c).cDelta] = .ok () ∧
      verifyBatchedEquality sha bls dalek expiryEq (proofAt c).cDelta (generators.h 5)
        (generators.h 0) (spendExpiryCtx hCtx nowUnix nonce (proofAt c))
        [(proofAt c).aPrime, (proofAt c).aBar, (proofAt c).tBbs, (proofAt c).kPrime,
          (proofAt c).cDelta, (proofAt c).xBlsCommitment] = .ok () := by
  let msg := spendMessage generators coins token x kCur cBal tIssue eMax nowUnix spendAmount
  rcases verify_proveBatchedEquality sha bls dalek hcompress hbeq (cBal - spendAmount).toUInt64
    coins.rBp (generators.h 3) (generators.h 0) ((Scalar.toBytes hCtx).toList ++
      u32LeBytes spendAmount ++ (Scalar.toBytes kCur).toList ++ u32LeBytes tIssue ++
      u64LeBytes eMax ++ u64LeBytes nowUnix ++ nonce.toList)
    [msg.aPrime, msg.aBar, msg.tBbs, msg.kPrime, msg.cTotal, msg.xBlsCommitment, msg.cDelta]
    with ⟨batchedEq, hprove, hverify⟩
  rcases verify_proveBatchedEquality sha bls dalek hcompress hexpiry (eMax - nowUnix) coins.rDelta
    (generators.h 5) (generators.h 0) ((Scalar.toBytes hCtx).toList ++ u32LeBytes tIssue ++
      u64LeBytes eMax ++ u64LeBytes nowUnix ++ (Scalar.toBytes kCur).toList ++ nonce.toList)
    [msg.aPrime, msg.aBar, msg.tBbs, msg.kPrime, msg.cDelta, msg.xBlsCommitment]
    with ⟨expiryEq, hproveE, hverifyE⟩
  -- the contexts name nothing that the challenge changes
  refine ⟨batchedEq, expiryEq, ?_, hverify, hverifyE⟩
  unfold spendProve
  rw [rejectIf_bind_ok, rejectIf_bind_ok, rejectIf_bind_ok]
  refine ⟨hpos, UInt32.not_lt.mpr hamount, UInt64.not_lt.mpr hnow, ?_⟩
  simp only
  rw [hprove, hproveE]
  rfl

omit [DecidableEq G1] [DecidableEq GT] in
/-- The prover succeeds, and its range proof is accepted for the commitments and in the context
that the verifier reads off the proof. -/
theorem refreshProve_complete (hcompress : ∀ p, dalek.decompress (dalek.compress p) = some p)
    {coins : RefreshCoins} (hbeq : RangeComplete dalek coins.beq) (master : BbsSignature G1)
    (cMax : UInt32) (t : UInt32) {eMax nowUnix : UInt64} (pkMaster : G2) (hnow : nowUnix ≤ eMax) :
    ∃ batchedEq,
      let proofAt := refreshProofAt generators coins master x cMax eMax t nowUnix (epochBase bls t)
        batchedEq
      let c := refreshChallenge sha bls hCtx pkMaster t nowUnix (proofAt 0)
      refreshProve generators coins master x cMax eMax t nowUnix sha bls dalek pkMaster hCtx =
        .ok (⟨x, cMax, eMax, t, coins.kDaily, coins.rDaily, coins.rDelta⟩, proofAt c) ∧
      verifyBatchedEquality sha bls dalek batchedEq (proofAt c).cDelta (generators.h 5)
        (generators.h 0) (refreshBeqCtx hCtx t nowUnix)
        [(proofAt c).aPrime, (proofAt c).aBar, (proofAt c).tBbs, (proofAt c).nT,
          (proofAt c).kDaily, (proofAt c).xBlsCommitment] = .ok () := by
  let msg := refreshMessage generators coins master x cMax eMax t nowUnix (epochBase bls t)
  rcases verify_proveBatchedEquality sha bls dalek hcompress hbeq (eMax - nowUnix) coins.rDelta
    (generators.h 5) (generators.h 0) ((Scalar.toBytes hCtx).toList ++ u32LeBytes t ++
      u64LeBytes nowUnix)
    [msg.aPrime, msg.aBar, msg.tBbs, msg.nT, msg.kDaily, msg.xBlsCommitment]
    with ⟨batchedEq, hprove, hverify⟩
  refine ⟨batchedEq, ?_, hverify⟩
  unfold refreshProve
  rw [rejectIf_bind_ok]
  refine ⟨UInt64.not_lt.mpr hnow, ?_⟩
  simp only
  rw [hprove]
  rfl

variable {sha bls dalek generators keys hCtx x}

omit [Module Scalar G1] in
/-- In the epoch of the token or the next the first checks are those for the identity. -/
theorem spendChecksBefore_ok {proof : SpendProof G1} {currentEpoch : UInt32} (hs : proof.s ≠ 0)
    (hepoch : currentEpoch = proof.tIssue ∨ currentEpoch.toNat = proof.tIssue.toNat + 1) :
    spendChecksBefore currentEpoch proof = .ok () ↔ proof.aPrime ≠ 0 ∧ proof.tBbs ≠ 0 := by
  have hwindow : ¬(proof.tIssue ≠ currentEpoch ∧ (if proof.tIssue = UInt32.ofNat (2 ^ 32 - 1) then
      proof.tIssue else proof.tIssue + 1) ≠ currentEpoch) := by
    rintro ⟨hsame, hnext⟩
    rcases hepoch with heq | hsucc
    · exact hsame heq.symm
    · have hlt := currentEpoch.toNat_lt
      have hlast : proof.tIssue ≠ UInt32.ofNat (2 ^ 32 - 1) := by
        intro hlast
        rw [hlast] at hsucc
        have hval : (UInt32.ofNat (2 ^ 32 - 1)).toNat = 2 ^ 32 - 1 := by decide
        omega
      rw [if_neg hlast] at hnext
      refine hnext (UInt32.toNat_inj.mp ?_)
      have hone : (1 : UInt32).toNat = 1 := rfl
      rw [UInt32.toNat_add, hone, hsucc, Nat.mod_eq_of_lt (by omega)]
  rw [spendChecksBefore, rejectIf_bind_ok, rejectIf_bind_ok, rejectIf_ok, not_or]
  exact ⟨fun h => h.2.2, fun h => ⟨hs, hwindow, h⟩⟩

/-- The verifier answers an honest proof unless a guard fires, and signs the refund
commitment. -/
theorem verifySpend_honest {proof : SpendProof G1} {currentEpoch : UInt32} {nowUnix : UInt64}
    {nonce : Bytes 16} {eRefund sPrimeRefund : Scalar} {response : SpendResponse G1}
    (hs : proof.s ≠ 0)
    (hepoch : currentEpoch = proof.tIssue ∨ currentEpoch.toNat = proof.tIssue.toNat + 1)
    (haccepts : SpendAccepts generators nowUnix
      (spendChallenge sha bls generators hCtx keys.pkDaily nowUnix nonce proof) proof)
    (hproofs : spendProofsHold sha bls dalek generators keys hCtx nowUnix nonce proof = .ok ()) :
    verifySpend sha bls dalek proof currentEpoch nowUnix nonce generators keys.pkDaily keys hCtx
        eRefund sPrimeRefund = .ok response ↔
      (proof.aPrime ≠ 0 ∧ proof.tBbs ≠ 0) ∧ eRefund + keys.skDaily ≠ 0 ∧
        response = ⟨(eRefund + keys.skDaily)⁻¹ • (generators.g1 + proof.kPrime +
          sPrimeRefund • generators.h 0), eRefund, sPrimeRefund⟩ := by
  have hchecks := (spendChecksAt_ok generators nowUnix _ proof).mpr haccepts
  rw [verifySpend, bind_unit_ok, spendChecksBefore_ok hs hepoch]
  refine and_congr_right fun _ => ?_
  rw [bind_unit_ok, and_iff_right hchecks, bind_unit_ok, and_iff_right hproofs, bind_ok]
  constructor
  · rintro ⟨aRefund, hissue, hresponse⟩
    rcases (issueOn_ok ..).mp hissue with ⟨hdenom, rfl⟩
    exact ⟨hdenom, (Except.ok.inj hresponse).symm⟩
  · rintro ⟨hdenom, rfl⟩
    exact ⟨_, (issueOn_ok ..).mpr ⟨hdenom, rfl⟩, rfl⟩

variable (sha bls hCtx) in
omit [DecidableEq G1] in
/-- An honest spend proof, as far as the verifier and the next token depend on it. -/
theorem spendProve_accepted (hcompress : ∀ p, dalek.decompress (dalek.compress p) = some p)
    {coins : SpendCoins} (hbeq : RangeComplete dalek coins.beq)
    (hexpiry : RangeComplete dalek coins.expiry) {token : BbsSignature G1} {kCur : Scalar}
    {cBal tIssue : UInt32} {eMax nowUnix : UInt64} {spendAmount : UInt32}
    (hsigns : Signs keys.skDaily token (dailyMessage generators token.s x kCur cBal tIssue eMax))
    (nonce : Bytes 16) (hpos : spendAmount ≠ 0) (hamount : spendAmount ≤ cBal)
    (hnow : nowUnix ≤ eMax) :
    ∃ proof, spendProve generators coins token x kCur cBal tIssue eMax nowUnix spendAmount sha bls
        dalek nonce keys.pkDaily hCtx =
          .ok (⟨kCur, cBal, tIssue, eMax, coins.kStar, coins.rStar, cBal - spendAmount,
            coins.rDelta, coins.rBp⟩, proof) ∧
      proof.s = spendAmount ∧ proof.tIssue = tIssue ∧ proof.aPrime = coins.r1 • token.a ∧
      proof.tBbs = coins.blinded generators token.a kCur tIssue ∧
      proof.kPrime = x • generators.h 1 + coins.kStar • generators.h 2 +
        Scalar.ofU32 (cBal - spendAmount) • generators.h 3 + Scalar.ofU32 tIssue • generators.h 4 +
        (Scalar.ofU64 eMax • generators.h 5 + coins.rStar • generators.h 0) ∧
      SpendAccepts generators nowUnix
        (spendChallenge sha bls generators hCtx keys.pkDaily nowUnix nonce proof) proof ∧
      spendProofsHold sha bls dalek generators keys hCtx nowUnix nonce proof = .ok () := by
  rcases spendProve_complete sha bls dalek generators hCtx x hcompress hbeq hexpiry token kCur
    tIssue nonce keys.pkDaily hpos hamount hnow with
    ⟨batchedEq, expiryEq, hprove, hverify, hverifyExpiry⟩
  -- the challenge of the proof sent is the one that was answered
  have haccepts := spendAccepts_proofAt generators coins token x kCur tIssue batchedEq expiryEq
    hnow hamount (spendChallenge sha bls generators hCtx keys.pkDaily nowUnix nonce
      (spendProofAt generators coins token x kCur cBal tIssue eMax nowUnix spendAmount batchedEq
        expiryEq 0))
  have haBar : (spendMessage generators coins token x kCur cBal tIssue eMax nowUnix
      spendAmount).aBar = keys.skDaily • coins.r1 • token.a :=
    spendMessage_aBar generators coins token x kCur tIssue hsigns
  have hpair := pairing_of_shown bls keys.pkDaily_eq (coins.r1 • token.a)
  rw [← haBar] at hpair
  have htBbs : (spendMessage generators coins token x kCur cBal tIssue eMax nowUnix
      spendAmount).tBbs = coins.blinded generators token.a kCur tIssue :=
    spendMessage_tBbs generators coins token x kCur tIssue
  refine ⟨_, hprove, rfl, rfl, rfl, htBbs, rfl, haccepts, ?_⟩
  unfold spendProofsHold
  rw [bind_unit_ok, bind_unit_ok, rejectIf_ok]
  exact ⟨hverify, hverifyExpiry, (Bool.not_eq_false _).mpr hpair⟩

variable (sha bls hCtx) in
omit [DecidableEq G1] in
/-- An honest refresh proof, as far as the verifier and the daily token depend on it. -/
theorem refreshProve_accepted (hcompress : ∀ p, dalek.decompress (dalek.compress p) = some p)
    {coins : RefreshCoins} (hbeq : RangeComplete dalek coins.beq) {master : BbsSignature G1}
    {cMax : UInt32} {eMax nowUnix : UInt64}
    (hsigns : Signs keys.skMaster master (masterMessage generators master.s x cMax eMax))
    (t : UInt32) (hnow : nowUnix ≤ eMax) :
    ∃ proof, refreshProve generators coins master x cMax eMax t nowUnix sha bls dalek
        keys.pkMaster hCtx =
          .ok (⟨x, cMax, eMax, t, coins.kDaily, coins.rDaily, coins.rDelta⟩, proof) ∧
      proof.nT = x • epochBase bls t ∧ proof.aPrime = coins.r1 • master.a ∧
      proof.tBbs = coins.blinded generators master.a ∧
      proof.kDaily = x • generators.h 1 + coins.kDaily • generators.h 2 +
        Scalar.ofU32 cMax • generators.h 3 + Scalar.ofU32 t • generators.h 4 +
        (Scalar.ofU64 eMax • generators.h 5 + coins.rDaily • generators.h 0) ∧
      RefreshAccepts generators (epochBase bls t) t nowUnix
        (refreshChallenge sha bls hCtx keys.pkMaster t nowUnix proof) proof ∧
      refreshProofsHold sha bls dalek generators keys hCtx t nowUnix proof = .ok () := by
  rcases refreshProve_complete sha bls dalek generators hCtx x hcompress hbeq master cMax t
    keys.pkMaster hnow with ⟨batchedEq, hprove, hverify⟩
  have haccepts := refreshAccepts_proofAt generators coins master x cMax t (epochBase bls t)
    batchedEq hnow (refreshChallenge sha bls hCtx keys.pkMaster t nowUnix
      (refreshProofAt generators coins master x cMax eMax t nowUnix (epochBase bls t) batchedEq 0))
  have haBar : (refreshMessage generators coins master x cMax eMax t nowUnix
      (epochBase bls t)).aBar = keys.skMaster • coins.r1 • master.a :=
    refreshMessage_aBar generators coins master x cMax t (epochBase bls t) hsigns
  have hpair := pairing_of_shown bls keys.pkMaster_eq (coins.r1 • master.a)
  rw [← haBar] at hpair
  have htBbs : (refreshMessage generators coins master x cMax eMax t nowUnix
      (epochBase bls t)).tBbs = coins.blinded generators master.a :=
    refreshMessage_tBbs generators coins master x cMax t (epochBase bls t)
  refine ⟨_, hprove, rfl, rfl, htBbs, rfl, haccepts, ?_⟩
  unfold refreshProofsHold
  rw [bind_unit_ok, rejectIf_ok]
  exact ⟨hverify, (Bool.not_eq_false _).mpr hpair⟩

/-- The verifier answers an honest proof unless a guard fires, and signs the daily
commitment. -/
theorem verifyRefresh_honest {proof : RefreshProof G1} {currentEpoch : UInt32} {nowUnix : UInt64}
    {eDaily sPrimeDaily : Scalar} {response : RefreshResponse G1}
    (haccepts : RefreshAccepts generators (epochBase bls currentEpoch) currentEpoch nowUnix
      (refreshChallenge sha bls hCtx keys.pkMaster currentEpoch nowUnix proof) proof)
    (hproofs : refreshProofsHold sha bls dalek generators keys hCtx currentEpoch nowUnix proof =
      .ok ()) :
    verifyRefresh sha bls dalek proof currentEpoch nowUnix generators keys.pkMaster keys hCtx
        eDaily sPrimeDaily = .ok response ↔
      (proof.nT ≠ 0 ∧ proof.aPrime ≠ 0 ∧ proof.tBbs ≠ 0) ∧ eDaily + keys.skDaily ≠ 0 ∧
        response = ⟨(eDaily + keys.skDaily)⁻¹ • (generators.g1 + proof.kDaily +
          sPrimeDaily • generators.h 0), eDaily, sPrimeDaily⟩ := by
  have hchecks := (refreshChecksAt_ok generators (epochBase bls currentEpoch) currentEpoch nowUnix
    _ proof).mpr haccepts
  have hbefore : refreshChecksBefore proof = .ok () ↔
      proof.nT ≠ 0 ∧ proof.aPrime ≠ 0 ∧ proof.tBbs ≠ 0 := by
    rw [refreshChecksBefore, rejectIf_bind_ok, rejectIf_ok, not_or]
  rw [verifyRefresh, bind_unit_ok, hbefore]
  refine and_congr_right fun _ => ?_
  rw [bind_unit_ok, and_iff_right hchecks, bind_unit_ok, and_iff_right hproofs, bind_ok]
  constructor
  · rintro ⟨aDaily, hissue, hresponse⟩
    rcases (issueOn_ok ..).mp hissue with ⟨hdenom, rfl⟩
    exact ⟨hdenom, (Except.ok.inj hresponse).symm⟩
  · rintro ⟨hdenom, rfl⟩
    exact ⟨_, (issueOn_ok ..).mpr ⟨hdenom, rfl⟩, rfl⟩

omit [AddCommGroup R] [Module DalekScalar R] [DecidableEq GT] in
/-- The proof of an opening is accepted for the commitment to it. -/
theorem proofOfKnowledge_verify (alpha beta kSub rSub : Scalar) :
    (ProofOfKnowledge.prove sha bls alpha beta kSub rSub
        (commit kSub rSub (generators.h 1) (generators.h 0)) generators hCtx).verify sha bls
      (commit kSub rSub (generators.h 1) (generators.h 0)) generators hCtx = .ok () := by
  unfold ProofOfKnowledge.verify ProofOfKnowledge.prove
  rw [rejectIf_ok, not_not]
  simp only [ProofOfKnowledge.bases, g1Msm_cons, g1Msm_nil, commit]
  module

omit [AddCommGroup R] [Module DalekScalar R] [DecidableEq GT] in
/-- Unless the drawn scalar is the negative of its key, the server signs the commitment of a
client that begins with its secret, for the master message on what both have drawn. -/
theorem masterMintIssue_honest {coins : MasterMintCoins} {canonicalX : CanonicalX} {cMax : UInt32}
    (hcMax : 0 < cMax) {eMax : UInt64} {eSub sPrimeSub : Scalar} {issued : G1 × Scalar × Scalar} :
    masterMintIssue sha bls (MasterMintClient.beginWithX sha bls coins canonicalX cMax eMax
        generators hCtx).2 cMax eMax generators keys hCtx eSub sPrimeSub = .ok issued ↔
      eSub + keys.skMaster ≠ 0 ∧ issued = ((eSub + keys.skMaster)⁻¹ • masterMessage generators
        (coins.rSub + sPrimeSub) canonicalX.toBlsScalar cMax eMax, eSub, sPrimeSub) := by
  have hzero : cMax ≠ 0 := fun hzero => UInt32.lt_irrefl 0 (hzero ▸ hcMax)
  have hmsg : g1Msm [generators.g1, commit canonicalX.toBlsScalar coins.rSub (generators.h 1)
      (generators.h 0), generators.h 0, generators.h 3, generators.h 5]
      [1, 1, sPrimeSub, Scalar.ofU32 cMax, Scalar.ofU64 eMax] =
      masterMessage generators (coins.rSub + sPrimeSub) canonicalX.toBlsScalar cMax eMax := by
    simp only [g1Msm_cons, g1Msm_nil, commit, masterMessage]
    module
  simp only [masterMintIssue, MasterMintClient.beginWithX]
  rw [bind_unit_ok, and_iff_right (proofOfKnowledge_verify _ _ _ _), rejectIf_bind_ok,
    and_iff_right hzero, rejectIf_bind_ok, hmsg]
  refine and_congr_right fun _ => ⟨fun h => (Except.ok.inj h).symm, fun h => ?_⟩
  rw [h]
  rfl

end Interaction

end Ebut
