import Ebut.Core.Upload
import Ebut.Theory.AccountableFile
import Ebut.Theory.ContextBinding
import Ebut.Theory.NonRevocation
import Ebut.Theory.SameX
import Ebut.Theory.Transcripts

/-!
# Uploads from End to End

What the four parts of an upload say together. A client that follows all of them with one secret
is accepted: the spend, the file encrypted under the key of the secret, the bridge between the
two, and the proof that the expiry is not revoked. The refund is then a token for what is left.

The parts are not bound to each other in every direction. The bridge and the audit share a
context that the verifier does not read, and neither is in the transcript of the spend. So the
file of an accepted upload can be exchanged for any other, by anyone, without a secret. What
the verifier does recompute is the generator of the file, and it fixes everything that it was
derived from: no upload is accepted in two contexts.

## Main definitions

* `UploadEvent`, `uploadOnce`: An upload by an honest client.
* `UploadGuards`: No guard of an upload fires.

## Theorems

* `honestFile_accepted`: The audit of an honest file.
* `uploadOnce_completes`: The honest client is accepted.
* `upload_file_exchanged`: The file of an accepted upload can be exchanged.
* `upload_one_context`: An upload is accepted in one context.
-/

namespace Ebut

open Blocks Framing V3Zkp

variable {P G1 G2 GT R D : Type} [AddCommGroup G1] [Module Scalar G1] [AddCommGroup G2]
  [Module Scalar G2] [AddCommGroup GT] [Module Scalar GT] [AddCommGroup R] [Module DalekScalar R]
  [DecidableEq R] [DecidableEq D] {sha : Sha2} {dalek : Dalek R} {merkle : MerkleHashes D}
  {leafOf : PackedBlock R → D}

section File

/-- The audit of an honest file is accepted for every count that the file has blocks for, if the
sampling ends. -/
theorem honestFile_accepted (hh : privatePlaintextH sha dalek ≠ 0) {filePublicKey : R}
    (hkey : filePublicKey ≠ 0) {file : AccountableFile R D}
    (hfile : HonestFile sha dalek merkle leafOf filePublicKey file) {count : FileCommitment D → ℕ}
    (hone : 1 ≤ count file.commitment)
    (hmost : count file.commitment ≤ file.commitment.numBlocks.toNat) {challengeNonce : Bytes 32}
    (hends : (deriveChallengeIndices sha challengeIndexDomain challengeNonce
      file.commitment.numBlocks (count file.commitment)).isSome)
    (proofContext : List UInt8) (alphaR alphaS : DalekScalar) :
    ∃ proof, createAccountableFileProof sha dalek merkle file.commitment.fileId file.publicBlocks
        file.leaves file.commitment.rootHash challengeNonce (count file.commitment) filePublicKey
        file.witnesses proofContext alphaR alphaS = some proof ∧
      verifyAccountableFileProofWithConfidence sha dalek merkle leafOf count proof file.commitment
        challengeNonce filePublicKey proofContext = some true := by
  rcases Option.isSome_iff_exists.mp hends with ⟨indices, hindices⟩
  have hpos : 0 < file.commitment.numBlocks.toNat := hone.trans hmost
  rcases deriveChallengeIndices_sampled hpos hone hindices with ⟨hsampled, hlen⟩
  rw [Nat.min_eq_left hmost] at hlen
  have hnum : UInt64.ofNat file.publicBlocks.length = file.commitment.numBlocks := by
    rw [← hfile.count, UInt64.ofNat_toNat]
  rcases createAccountableFileProof_ok hfile (hnum ▸ hindices)
    (fun idx hidx => hfile.count ▸ hsampled.in_range idx hidx) file.commitment.fileId proofContext
    alphaR alphaS with ⟨blocks, witnesses, hproof, hpresented, hhonest⟩
  have hcount : blocks.length = count file.commitment := hpresented.length_eq.symm.trans hlen
  have hblocks : blocks ≠ [] := by
    rw [← List.length_pos_iff_ne_nil, hcount]
    exact hone
  refine ⟨_, hproof, ?_⟩
  rw [verifyAccountableFileProofWithConfidence, if_neg (not_not.mpr hcount)]
  refine verifyAccountableFileProof_ok hfile.version rfl rfl (hcount.trans_le hmost) hblocks
    (hcount ▸ hindices) (challengedBlocksHold_of_presented hfile hpresented) ?_
  exact accountableVerify_prove hh hkey hblocks hhonest proofContext alphaR alphaS

omit [DecidableEq R] [DecidableEq D] in
theorem numBlocks_ne_zero {filePublicKey : R} {file : AccountableFile R D}
    (hfile : HonestFile sha dalek merkle leafOf filePublicKey file) :
    file.commitment.numBlocks ≠ 0 := by
  intro hzero
  have hpos := List.length_pos_of_ne_nil hfile.nonempty
  rw [← hfile.count, hzero] at hpos
  exact absurd hpos (by decide)

/-- The key and the base that hides plaintexts of an accepted audit are not the identity. -/
theorem nonzero_of_audited {count : FileCommitment D → ℕ} {proof : AccountableFileProof R D}
    {commitment : FileCommitment D} {challengeNonce : Bytes 32} {filePublicKey : R}
    {proofContext : List UInt8}
    (haudited : verifyAccountableFileProofWithConfidence sha dalek merkle leafOf count proof
      commitment challengeNonce filePublicKey proofContext = some true) :
    filePublicKey ≠ 0 ∧ privatePlaintextH sha dalek ≠ 0 := by
  -- the batch proof is what the verifier returns in the end
  have hbatch : accountableVerify sha dalek proofContext filePublicKey proof.blocks
      proof.batchProof = true := by
    unfold verifyAccountableFileProofWithConfidence verifyAccountableFileProof at haudited
    rcases check_passed haudited with ⟨-, haudited⟩
    rcases check_passed haudited with ⟨-, haudited⟩
    rcases check_passed haudited with ⟨-, haudited⟩
    rcases check_passed haudited with ⟨-, haudited⟩
    rcases check_passed haudited with ⟨-, haudited⟩
    rcases Option.bind_eq_some_iff.mp haudited with ⟨indices, -, haudited⟩
    exact Option.some.inj (check_passed haudited).2
  unfold accountableVerify at hbatch
  split at hbatch
  · exact absurd hbatch (by decide)
  · rename_i hfirst
    split at hbatch
    · exact absurd hbatch (by decide)
    · rename_i hh
      simp only [Bool.or_eq_true, decide_eq_true_eq, not_or] at hfirst
      exact ⟨hfirst.2, hh⟩

end File

section Client

variable [DecidableEq G1] [DecidableEq GT]

/-- One upload: a spend, the file and its nonce, the context of the bridge, and all that is
drawn. -/
structure UploadEvent (P R : Type) where
  spend : SpendEvent
  fileId : Bytes 32
  fileData : ByteSlice
  fileCoins : AccountableFileCoins
  fileChallengeNonce : Bytes 32
  sameXContext : List UInt8
  alphaR : DalekScalar
  alphaS : DalekScalar
  uBytes : Bytes 48
  alphaBls : Scalar
  alphaRist : DalekScalar
  revocation : ClientRevocationCoins P R

/-- `X_file = x * G`. -/
def uploadKey (dalek : Dalek R) (x : CanonicalX) : R := x.toRistrettoScalar • dalek.basepoint

/-- The statement of the bridge for a spend and the key of its secret. -/
def uploadStatement (generators : Generators G1 G2) (dalek : Dalek R) (x : CanonicalX)
    (spendProof : SpendProof G1) : SameXStatement G1 R :=
  fileTagStatement (generators.h 1) (generators.h 0) spendProof.xBlsCommitment dalek.basepoint
    (uploadKey dalek x)

variable (sha) (bls : Blstrs G1 G2 GT) (dalek) (merkle) (leafOf) (ranges : RangeProofs P R)
  (count : FileCommitment D → ℕ) (generators : Generators G1 G2) (keys : ServerKeys generators)
  (hCtx : Scalar) (list : SignedRevocationList G1) (revocationPk : RevocationPublicKey G2)
  (x : CanonicalX) (token : HeldToken G1) (ev : UploadEvent P R)

/-- What the client presents for a file and a spend. The tag is made as the structure says, and
nothing reads it. -/
def uploadProofOf (version : UInt64) (file : AccountableFile R D)
    (fileProof : AccountableFileProof R D) (spendProof : SpendProof G1)
    (sameXProof : SameXProof G1 R) : UploadSpendProof G1 R D :=
  let bindingGenerator := deriveFileBindingGenerator sha dalek merkle hCtx ev.spend.currentEpoch
    ev.spend.nowUnix spendProof.eMax file.commitment version
  { spendProof, fileProof, sameXProof
    nonce := ev.spend.nonce
    fileCommitment := file.commitment
    fileChallengeNonce := ev.fileChallengeNonce
    fileBinding := ⟨bindingGenerator, x.toRistrettoScalar • bindingGenerator, uploadKey dalek x⟩
    sameXStatement := uploadStatement generators dalek x spendProof
    sameXContext := ev.sameXContext }

/-- The client makes the spend, the bridge and the revocation proof for a file that it has
committed to. The blinder of the commitment to `x` is not in the state that the spend
returns, so it is taken from what was drawn for it. -/
def uploadProve (file : AccountableFile R D) (fileProof : AccountableFileProof R D) :
    Except ActError (SpendClient × UploadSpendProof G1 R D × ClientRevocationProof P G1 GT R) := do
  let (client, spendProof) ← spendProve generators ev.spend.coins token.sig x.toBlsScalar token.k
    token.c token.tIssue token.eMax ev.spend.nowUnix ev.spend.amount sha bls dalek ev.spend.nonce
    keys.pkDaily hCtx
  let sameXProof ← SameXProof.prove sha bls dalek ev.sameXContext x ev.spend.coins.rX 0
    (uploadStatement generators dalek x spendProof) ev.uBytes ev.alphaBls ev.alphaRist
  let revocationProof ← list.proveSpendClient sha bls dalek ev.revocation revocationPk client
    generators
  return (client, uploadProofOf sha dalek merkle generators hCtx x ev
    list.ctx.revocationListVersion file fileProof spendProof sameXProof, revocationProof)

/-- For a file and its proof the client proves, the server verifies and signs, and the client
finalises. -/
def uploadFile (file : AccountableFile R D) (fileProof : AccountableFileProof R D) :
    Option (Except ActError (HeldToken G1)) :=
  match uploadProve sha dalek merkle bls generators keys hCtx list revocationPk x token ev file
    fileProof with
  | .error e => some (.error e)
  | .ok (client, proof, revocationProof) =>
      (verifyUploadSpendWithRevocation sha bls dalek merkle leafOf count ranges proof
        ev.spend.currentEpoch ev.spend.nowUnix generators keys.pkDaily keys hCtx list.ctx
        revocationProof.proof revocationPk revocationProof.userComRist ev.spend.eRefund
        ev.spend.sPrimeRefund).map fun accepted => accepted.map client.finalize

/-- A whole upload. -/
def uploadOnce : Option (Except ActError (HeldToken G1)) := do
  let file ← createAccountableFileCommitmentAuto sha dalek merkle leafOf ev.fileCoins ev.fileId
    ev.fileData (uploadKey dalek x)
  let fileProof ← createAccountableFileProof sha dalek merkle file.commitment.fileId
    file.publicBlocks file.leaves file.commitment.rootHash ev.fileChallengeNonce
    (count file.commitment) (uploadKey dalek x) file.witnesses ev.sameXContext ev.alphaR ev.alphaS
  uploadFile sha dalek merkle leafOf bls ranges count generators keys hCtx list revocationPk x token
    ev file fileProof

/-- No guard of an upload fires: none of its spend, and the commitment to `x` is not the
identity. -/
structure UploadGuards : Prop where
  commitment_ne : x.toBlsScalar • generators.h 1 + ev.spend.coins.rX • generators.h 0 ≠ 0
  spend : SpendGuards keys token ev.spend

variable {sha dalek merkle leafOf bls ranges count generators keys hCtx x token ev}

omit [DecidableEq R] [DecidableEq D] [DecidableEq G1] [DecidableEq GT] in
/-- What the prover of a spend returns has its points from the message. -/
theorem spendProve_message {coins : SpendCoins} {sig : BbsSignature G1} {kSub kCur : Scalar}
    {cBal tIssue : UInt32} {eMax nowUnix : UInt64} {spendAmount : UInt32} {nonce : Bytes 16}
    {pkDaily : G2} {client : SpendClient} {proof : SpendProof G1}
    (hprove : spendProve generators coins sig kSub kCur cBal tIssue eMax nowUnix spendAmount sha bls
      dalek nonce pkDaily hCtx = .ok (client, proof)) :
    ∃ batchedEq expiryEq c, proof = spendProofAt generators coins sig kSub kCur cBal tIssue eMax
      nowUnix spendAmount batchedEq expiryEq c := by
  rw [spendProve, rejectIf_bind_ok, rejectIf_bind_ok, rejectIf_bind_ok] at hprove
  rcases hprove with ⟨-, -, -, hprove⟩
  rcases bind_ok.mp hprove with ⟨⟨batchedEq, cBls⟩, -, hprove⟩
  rcases bind_ok.mp hprove with ⟨⟨expiryEq, cDelta⟩, -, hok⟩
  cases hok
  exact ⟨batchedEq, expiryEq, _, rfl⟩

omit [DecidableEq R] [DecidableEq D] [DecidableEq G1] [DecidableEq GT] in
/-- The commitment to `x` in a spend proof opens to the secret of the token. -/
theorem spendProve_xBlsCommitment {coins : SpendCoins} {sig : BbsSignature G1}
    {kSub kCur : Scalar} {cBal tIssue : UInt32} {eMax nowUnix : UInt64} {spendAmount : UInt32}
    {nonce : Bytes 16} {pkDaily : G2} {client : SpendClient} {proof : SpendProof G1}
    (hprove : spendProve generators coins sig kSub kCur cBal tIssue eMax nowUnix spendAmount sha bls
      dalek nonce pkDaily hCtx = .ok (client, proof)) :
    proof.xBlsCommitment = kSub • generators.h 1 + coins.rX • generators.h 0 := by
  rcases spendProve_message hprove with ⟨batchedEq, expiryEq, c, rfl⟩
  rfl

variable (dalek generators x) in
omit [Module Scalar G1] [DecidableEq D] [AddCommGroup G2] [Module Scalar G2] [DecidableEq GT] in
/-- The statement of the client is rejected only for an identity commitment. -/
theorem uploadStatement_valid {spendProof : SpendProof G1} (h1 : generators.h 1 ≠ 0)
    (h0 : generators.h 0 ≠ 0) (hbase : dalek.basepoint ≠ 0) (hkey : uploadKey dalek x ≠ 0)
    (hcommitment : spendProof.xBlsCommitment ≠ 0) :
    validateStatement (uploadStatement generators dalek x spendProof) = .ok () := by
  refine rejectIf_ok.mpr ?_
  simp only [uploadStatement, fileTagStatement, h1, h0, hbase, hkey, hcommitment, or_false,
    not_false_iff]

variable (hcompress : ∀ p, dalek.decompress (dalek.compress p) = some p)
  (hvalid : DailyValid generators keys x.toBlsScalar token)
  (hfits : EventFits dalek token.tIssue token.eMax ev.spend) (hamount : ev.spend.amount ≤ token.c)
  (h1 : generators.h 1 ≠ 0) (h0 : generators.h 0 ≠ 0) (hbase : dalek.basepoint ≠ 0)
  (hkey : uploadKey dalek x ≠ 0)

variable (sha bls hCtx) in
omit [DecidableEq R] [DecidableEq G1] in
include hcompress hvalid hfits hamount in
/-- The spend of an upload is proved, for the expiry and the secret of the token. -/
theorem spendProve_of_fits : ∃ client spendProof, spendProve generators ev.spend.coins token.sig
    x.toBlsScalar token.k token.c token.tIssue token.eMax ev.spend.nowUnix ev.spend.amount sha bls
    dalek ev.spend.nonce keys.pkDaily hCtx = .ok (client, spendProof) ∧
      client.eMax = token.eMax ∧ spendProof.xBlsCommitment =
        x.toBlsScalar • generators.h 1 + ev.spend.coins.rX • generators.h 0 := by
  have hpos : ev.spend.amount ≠ 0 := fun hzero => UInt32.lt_irrefl 0 (hzero ▸ hfits.amount_pos)
  rcases spendProve_accepted sha bls hCtx hcompress hfits.beq_complete hfits.expiry_complete
    hvalid ev.spend.nonce hpos hamount hfits.before_expiry with ⟨spendProof, hprove, -⟩
  exact ⟨_, spendProof, hprove, rfl, spendProve_xBlsCommitment hprove⟩

variable {sk : RevocationSecretKey} {h : ℕ → G1} {ctx : RevocationContext}
  {blacklisted : List UInt64} {file : AccountableFile R D} {fileProof : AccountableFileProof R D}
  {client : SpendClient} {spendProof : SpendProof G1}

variable (sha bls) in
omit [DecidableEq GT] in
include h1 h0 hbase hkey in
/-- The bridge opens to the secret on both sides, the tag with no blinder. -/
theorem uploadBridge_accepted {rBls : Scalar} (hopen : spendProof.xBlsCommitment =
      x.toBlsScalar • generators.h 1 + rBls • generators.h 0)
    (hcommitment : spendProof.xBlsCommitment ≠ 0) (context : List UInt8) (uBytes : Bytes 48)
    (alphaBls : Scalar) (alphaRist : DalekScalar) :
    ∃ sameXProof, SameXProof.prove sha bls dalek context x rBls 0
        (uploadStatement generators dalek x spendProof) uBytes alphaBls alphaRist =
          .ok sameXProof ∧
      sameXProof.verify (uploadStatement generators dalek x spendProof) sha bls dalek context =
        .ok () := by
  have hstatement := uploadStatement_valid dalek generators x h1 h0 hbase hkey hcommitment
  have hristretto : (uploadStatement generators dalek x spendProof).ristrettoXCommitment =
      x.toRistrettoScalar • (uploadStatement generators dalek x spendProof).ristrettoXBase +
        (0 : DalekScalar) • (uploadStatement generators dalek x spendProof).ristrettoBlindBase := by
    rw [zero_smul, add_zero]
    rfl
  exact ⟨_, sameXProve_eq uBytes alphaBls alphaRist sha bls dalek context hstatement,
    sameXProofAt_accepted uBytes alphaBls alphaRist hstatement hopen hristretto _⟩

include h1 h0 hbase hkey in
/-- With an audited file, a commitment that is not the identity and an expiry that is not revoked
the client succeeds, and the server accepts all but the spend itself. -/
theorem uploadProve_accepted
    (haudited : verifyAccountableFileProofWithConfidence sha dalek merkle leafOf count fileProof
      file.commitment ev.fileChallengeNonce (uploadKey dalek x) ev.sameXContext = some true)
    (hprove : spendProve generators ev.spend.coins token.sig x.toBlsScalar token.k token.c
      token.tIssue token.eMax ev.spend.nowUnix ev.spend.amount sha bls dalek ev.spend.nonce
      keys.pkDaily hCtx = .ok (client, spendProof))
    (hcommitment : spendProof.xBlsCommitment ≠ 0) (hnow : ctx.nowUnix = ev.spend.nowUnix)
    (hwitness : (signBlacklist sha sk h ctx blacklisted).HasWitness client.eMax)
    (hcomplete : AggregationComplete dalek ranges ev.revocation.prover.proveMultiple) :
    ∃ proof revocationProof, uploadProve sha dalek merkle bls generators keys hCtx
        (signBlacklist sha sk h ctx blacklisted) (sk.publicKey bls) x token ev file fileProof =
          .ok (client, proof, revocationProof) ∧
      proof.spendProof = spendProof ∧ proof.nonce = ev.spend.nonce ∧
      proof.fileCommitment = file.commitment ∧ proof.sameXContext = ev.sameXContext ∧
      UploadFileAccepted sha bls dalek merkle leafOf count proof ev.spend.currentEpoch
        ev.spend.nowUnix ctx.revocationListVersion generators hCtx ∧
      verifySpendNotRevoked sha bls dalek ranges ctx revocationProof.proof (sk.publicKey bls)
        spendProof generators revocationProof.userComRist = .ok () := by
  rcases uploadBridge_accepted sha bls h1 h0 hbase hkey
    (spendProve_xBlsCommitment hprove) hcommitment ev.sameXContext ev.uBytes ev.alphaBls
    ev.alphaRist with ⟨sameXProof, hbridge, hverified⟩
  -- the spend proof is one of the time that the list carries
  have hhonest : (Redemption.spend client spendProof).HonestAt sha bls dalek generators
      ev.spend.nowUnix := ⟨_, _, _, _, _, _, _, _, _, _, _, hprove⟩
  rcases owner_accepted hhonest hnow hwitness hcomplete with ⟨cp, hcp, hrevocation⟩
  refine ⟨uploadProofOf sha dalek merkle generators hCtx x ev ctx.revocationListVersion file
    fileProof spendProof sameXProof, cp, ?_, ?_⟩
  · rw [uploadProve, hprove]
    exact bind_ok.mpr ⟨_, rfl, bind_ok.mpr ⟨_, hbridge, bind_ok.mpr ⟨cp, hcp, rfl⟩⟩⟩
  · exact ⟨rfl, rfl, rfl, rfl, ⟨rfl, ⟨⟨rfl, rfl, rfl⟩, rfl, rfl⟩, haudited, hverified⟩,
      hrevocation⟩

include h1 h0 hbase hkey in
/-- With the other parts accepted the server answers an upload as it answers the spend. -/
theorem uploadFile_eq_spendOnce
    (haudited : verifyAccountableFileProofWithConfidence sha dalek merkle leafOf count fileProof
      file.commitment ev.fileChallengeNonce (uploadKey dalek x) ev.sameXContext = some true)
    (hprove : spendProve generators ev.spend.coins token.sig x.toBlsScalar token.k token.c
      token.tIssue token.eMax ev.spend.nowUnix ev.spend.amount sha bls dalek ev.spend.nonce
      keys.pkDaily hCtx = .ok (client, spendProof))
    (hcommitment : spendProof.xBlsCommitment ≠ 0) (hnow : ctx.nowUnix = ev.spend.nowUnix)
    (hwitness : (signBlacklist sha sk h ctx blacklisted).HasWitness client.eMax)
    (hcomplete : AggregationComplete dalek ranges ev.revocation.prover.proveMultiple) :
    uploadFile sha dalek merkle leafOf bls ranges count generators keys hCtx
        (signBlacklist sha sk h ctx blacklisted) (sk.publicKey bls) x token ev file fileProof =
      some (spendOnce sha bls dalek generators keys hCtx x.toBlsScalar token ev.spend) := by
  rcases uploadProve_accepted h1 h0 hbase hkey haudited hprove hcommitment hnow hwitness
    hcomplete with ⟨proof, revocationProof, hupload, rfl, hnonce, -, -, haccepted, hrevocation⟩
  rw [uploadFile, hupload]
  show Option.map _ (verifyUploadSpendWithRevocation sha bls dalek merkle leafOf count ranges proof
    ev.spend.currentEpoch ev.spend.nowUnix generators keys.pkDaily keys hCtx ctx
    revocationProof.proof (sk.publicKey bls) revocationProof.userComRist ev.spend.eRefund
    ev.spend.sPrimeRefund) = _
  rw [verifyUploadSpendWithRevocation_eq hnow haccepted hrevocation, hnonce, Option.map_some,
    spendOnce, hprove]
  refine congrArg some ?_
  show Except.map client.finalize (verifySpend sha bls dalek proof.spendProof ev.spend.currentEpoch
    ev.spend.nowUnix ev.spend.nonce generators keys.pkDaily keys hCtx ev.spend.eRefund
    ev.spend.sPrimeRefund) = (verifySpend sha bls dalek proof.spendProof ev.spend.currentEpoch
    ev.spend.nowUnix ev.spend.nonce generators keys.pkDaily keys hCtx ev.spend.eRefund
    ev.spend.sPrimeRefund >>= fun response => .ok (client.finalize response))
  rcases verifySpend sha bls dalek proof.spendProof ev.spend.currentEpoch ev.spend.nowUnix
    ev.spend.nonce generators keys.pkDaily keys hCtx ev.spend.eRefund ev.spend.sPrimeRefund with
    e | response
  · rfl
  · rfl

omit [DecidableEq D] [DecidableEq GT] in
/-- A commitment that is the identity is refused by the prover of the bridge. -/
theorem uploadProve_identity {list : SignedRevocationList G1} {pk : RevocationPublicKey G2}
    (hprove : spendProve generators ev.spend.coins token.sig x.toBlsScalar token.k token.c
      token.tIssue token.eMax ev.spend.nowUnix ev.spend.amount sha bls dalek ev.spend.nonce
      keys.pkDaily hCtx = .ok (client, spendProof)) (hcommitment : spendProof.xBlsCommitment = 0) :
    uploadProve (P := P) sha dalek merkle bls generators keys hCtx list pk x token ev file
      fileProof = .error (.verificationFailed "same-x statement contains an identity point") := by
  have hrejected : validateStatement (uploadStatement generators dalek x spendProof) =
      .error (.verificationFailed "same-x statement contains an identity point") :=
    if_pos (Or.inr (Or.inr (Or.inl hcommitment)))
  rw [uploadProve, hprove]
  show (SameXProof.prove sha bls dalek ev.sameXContext x ev.spend.coins.rX 0 _ ev.uBytes
    ev.alphaBls ev.alphaRist >>= _) = _
  rw [SameXProof.prove, hrejected]
  rfl

end Client

section Exchange

variable [DecidableEq G1] [DecidableEq GT] {bls : Blstrs G1 G2 GT} {ranges : RangeProofs P R}
  {count : FileCommitment D → ℕ} {generators : Generators G1 G2} {pkDaily : G2}
  {keys : ServerKeys generators} {hCtx : Scalar} {revocationPk : RevocationPublicKey G2}

/-- The upload with another file, under the same key and with the same bridge. -/
def UploadSpendProof.withFile (proof : UploadSpendProof G1 R D) (bindingGenerator bindingTag : R)
    (fileCommitment : FileCommitment D) (fileChallengeNonce : Bytes 32)
    (fileProof : AccountableFileProof R D) : UploadSpendProof G1 R D :=
  { proof with
    fileCommitment, fileChallengeNonce, fileProof
    fileBinding := ⟨bindingGenerator, bindingTag, proof.fileBinding.encryptionPublicKey⟩ }

/-- Whoever sees an accepted upload can put any file in the place of its file: one is made for
the key that the upload names, proved in the context of its bridge, and the generator is public.
The verifier returns the response that it returned before. -/
theorem upload_file_exchanged {proof : UploadSpendProof G1 R D} {currentEpoch : UInt32}
    {nowUnix : UInt64} {revocationCtx : RevocationContext}
    {revocationProof : NonMembershipProof P G1 GT R} {emaxRistrettoCommitment : R}
    {eRefund sPrimeRefund : Scalar} {response : SpendResponse G1}
    (haccepted : verifyUploadSpendWithRevocation sha bls dalek merkle leafOf count ranges proof
      currentEpoch nowUnix generators pkDaily keys hCtx revocationCtx revocationProof revocationPk
      emaxRistrettoCommitment eRefund sPrimeRefund = some (.ok response))
    (hcount : ∀ commitment : FileCommitment D, commitment.numBlocks ≠ 0 →
      1 ≤ count commitment ∧ count commitment ≤ commitment.numBlocks.toNat)
    {fileData : ByteSlice} (hne : fileData.bytes ≠ [])
    (hencodes : ∀ group ∈ chunks accountablePackedBlockPayloadSize fileData.bytes,
      ∀ chunk ∈ chunks accountablePointPayloadSize group,
        ∃ point, encodeChunkToPoint sha dalek chunk = .ok point)
    (coins : AccountableFileCoins) (fileId challengeNonce : Bytes 32) (bindingTag : R)
    (alphaR alphaS : DalekScalar) :
    ∃ file, createAccountableFileCommitmentAuto sha dalek merkle leafOf coins fileId fileData
        proof.fileBinding.encryptionPublicKey = some file ∧
      ((deriveChallengeIndices sha challengeIndexDomain challengeNonce file.commitment.numBlocks
          (count file.commitment)).isSome →
        ∃ fileProof, createAccountableFileProof sha dalek merkle file.commitment.fileId
            file.publicBlocks file.leaves file.commitment.rootHash challengeNonce
            (count file.commitment) proof.fileBinding.encryptionPublicKey file.witnesses
            proof.sameXContext alphaR alphaS = some fileProof ∧
          verifyUploadSpendWithRevocation sha bls dalek merkle leafOf count ranges
            (proof.withFile (deriveFileBindingGenerator sha dalek merkle hCtx currentEpoch nowUnix
              proof.spendProof.eMax file.commitment revocationCtx.revocationListVersion)
              bindingTag file.commitment challengeNonce fileProof)
            currentEpoch nowUnix generators pkDaily keys hCtx revocationCtx revocationProof
            revocationPk emaxRistrettoCommitment eRefund sPrimeRefund = some (.ok response)) := by
  rcases verifyUploadSpendWithRevocation_iff.mp haccepted with
    ⟨htime, hspend, hfileAccepted, hrevocation⟩
  rcases nonzero_of_audited hfileAccepted.audited with ⟨hkey, hh⟩
  rcases createAccountableFile_ok hne hencodes with ⟨file, hcreate, hfile⟩
  refine ⟨file, hcreate, fun hends => ?_⟩
  rcases hcount file.commitment (numBlocks_ne_zero hfile) with ⟨hone, hmost⟩
  rcases honestFile_accepted hh hkey hfile hone hmost hends proof.sameXContext alphaR alphaS with
    ⟨fileProof, hproof, haudited⟩
  exact ⟨fileProof, hproof, verifyUploadSpendWithRevocation_iff.mpr ⟨htime, hspend,
    ⟨rfl, hfileAccepted.bound, haudited, hfileAccepted.bridged⟩, hrevocation⟩⟩

end Exchange

section Context

/-- What is hashed to the generator of a file. -/
def bindingGeneratorBytes (merkle : MerkleHashes D) (hCtx : Scalar) (currentEpoch : UInt32)
    (nowUnix eMax revocationListVersion : UInt64) (fileCommitment : FileCommitment D) :
    List UInt8 :=
  "EBUT:FILE:BINDING-GENERATOR:V1".toUTF8.toList ++ ((Scalar.toBytes hCtx).toList ++
    (u32LeBytes currentEpoch ++ (u64LeBytes nowUnix ++ (u64LeBytes eMax ++
      (u64LeBytes revocationListVersion ++ (fileCommitment.fileId.toList ++
        (merkle.toBytes fileCommitment.rootHash ++ (u64LeBytes fileCommitment.numBlocks ++
          (u64LeBytes fileCommitment.blockSize ++ (u64LeBytes fileCommitment.fileSize ++
            u32LeBytes fileCommitment.encodingVersion))))))))))

omit [DecidableEq R] [DecidableEq D] in
theorem deriveFileBindingGenerator_eq (hCtx : Scalar) (currentEpoch : UInt32)
    (nowUnix eMax revocationListVersion : UInt64) (fileCommitment : FileCommitment D) :
    deriveFileBindingGenerator sha dalek merkle hCtx currentEpoch nowUnix eMax fileCommitment
        revocationListVersion =
      dalek.fromUniformBytes (sha.sha512 (bindingGeneratorBytes merkle hCtx currentEpoch nowUnix
        eMax revocationListVersion fileCommitment)) := by
  simp only [deriveFileBindingGenerator, bindingGeneratorBytes, List.append_assoc]

/-- A digest has 32 bytes, which determine it. -/
structure MerkleHashes.FixedBytes (merkle : MerkleHashes D) : Prop where
  length : ∀ digest, (merkle.toBytes digest).length = 32
  injective : Function.Injective merkle.toBytes

omit [DecidableEq D] in
/-- The bytes determine the context, and the commitment up to the nonce of its author. -/
theorem bindingGeneratorBytes_injective (hbytes : merkle.FixedBytes) {hCtx hCtx' : Scalar}
    {currentEpoch currentEpoch' : UInt32} {nowUnix nowUnix' eMax eMax' version version' : UInt64}
    {commitment commitment' : FileCommitment D}
    (h : bindingGeneratorBytes merkle hCtx currentEpoch nowUnix eMax version commitment =
      bindingGeneratorBytes merkle hCtx' currentEpoch' nowUnix' eMax' version' commitment') :
    hCtx = hCtx' ∧ currentEpoch = currentEpoch' ∧ nowUnix = nowUnix' ∧ eMax = eMax' ∧
      version = version' ∧ commitment = { commitment' with nonce := commitment.nonce } := by
  have hdigest : SelfDelimiting Set.univ merkle.toBytes :=
    selfDelimiting_of_length (fun digest _ => hbytes.length digest) hbytes.injective.injOn
  -- field by field, each with the rest of the string
  rw [bindingGeneratorBytes, bindingGeneratorBytes, List.append_cancel_left_eq] at h
  rcases selfDelimiting_scalar trivial trivial h with ⟨heqCtx, h⟩
  rcases selfDelimiting_u32 trivial trivial h with ⟨heqEpoch, h⟩
  rcases selfDelimiting_u64 trivial trivial h with ⟨heqNow, h⟩
  rcases selfDelimiting_u64 trivial trivial h with ⟨heqEMax, h⟩
  rcases selfDelimiting_u64 trivial trivial h with ⟨heqVersion, h⟩
  rcases selfDelimiting_bytes 32 trivial trivial h with ⟨hid, h⟩
  rcases hdigest trivial trivial h with ⟨hroot, h⟩
  rcases selfDelimiting_u64 trivial trivial h with ⟨hblocks, h⟩
  rcases selfDelimiting_u64 trivial trivial h with ⟨hblockSize, h⟩
  rcases selfDelimiting_u64 trivial trivial h with ⟨hfileSize, h⟩
  have hencoding := selfDelimiting_u32.injOn trivial trivial h
  refine ⟨heqCtx, heqEpoch, heqNow, heqEMax, heqVersion, ?_⟩
  rcases commitment with ⟨fileId, root, blocks, blockSize, fileSize, encoding, nonce⟩
  rcases commitment' with ⟨fileId', root', blocks', blockSize', fileSize', encoding', nonce'⟩
  simp only [FileCommitment.mk.injEq]
  exact ⟨hid, hroot, hblocks, hblockSize, hfileSize, hencoding, trivial⟩

variable [DecidableEq G1] [DecidableEq GT] {bls : Blstrs G1 G2 GT} {ranges : RangeProofs P R}
  {count : FileCommitment D → ℕ} {generators : Generators G1 G2}
  {keys keys' : ServerKeys generators}

/-- Two accepted uploads with one generator, and so one upload that is accepted twice, are about
one context: the application, the epoch, the time, the expiry and the version of the list. Their
files differ at most in the nonce that the author of a commitment draws. -/
theorem upload_one_context (hbytes : merkle.FixedBytes)
    {proof proof' : UploadSpendProof G1 R D} {currentEpoch currentEpoch' : UInt32}
    {nowUnix nowUnix' : UInt64} {pkDaily pkDaily' : G2} {hCtx hCtx' : Scalar}
    {ctx ctx' : RevocationContext} {revocationProof revocationProof' : NonMembershipProof P G1 GT R}
    {revocationPk revocationPk' : RevocationPublicKey G2} {com com' : R}
    {eRefund eRefund' sPrimeRefund sPrimeRefund' : Scalar} {response response' : SpendResponse G1}
    (hcollision : Set.InjOn (fun bytes => dalek.fromUniformBytes (sha.sha512 bytes))
      {bindingGeneratorBytes merkle hCtx currentEpoch nowUnix proof.spendProof.eMax
          ctx.revocationListVersion proof.fileCommitment,
        bindingGeneratorBytes merkle hCtx' currentEpoch' nowUnix' proof'.spendProof.eMax
          ctx'.revocationListVersion proof'.fileCommitment})
    (hgenerator : proof.fileBinding.bindingGenerator = proof'.fileBinding.bindingGenerator)
    (haccepted : verifyUploadSpendWithRevocation sha bls dalek merkle leafOf count ranges proof
      currentEpoch nowUnix generators pkDaily keys hCtx ctx revocationProof revocationPk com eRefund
      sPrimeRefund = some (.ok response))
    (haccepted' : verifyUploadSpendWithRevocation sha bls dalek merkle leafOf count ranges proof'
      currentEpoch' nowUnix' generators pkDaily' keys' hCtx' ctx' revocationProof' revocationPk'
      com' eRefund' sPrimeRefund' = some (.ok response')) :
    hCtx = hCtx' ∧ currentEpoch = currentEpoch' ∧ nowUnix = nowUnix' ∧
      proof.spendProof.eMax = proof'.spendProof.eMax ∧
      ctx.revocationListVersion = ctx'.revocationListVersion ∧
      proof.fileCommitment =
        { proof'.fileCommitment with nonce := proof.fileCommitment.nonce } := by
  rcases verifyUploadSpendWithRevocation_iff.mp haccepted with ⟨-, -, hfile, -⟩
  rcases verifyUploadSpendWithRevocation_iff.mp haccepted' with ⟨-, -, hfile', -⟩
  -- the verifier has derived the generator in both contexts
  have hderived := hfile.generator.symm.trans (hgenerator.trans hfile'.generator)
  rw [deriveFileBindingGenerator_eq, deriveFileBindingGenerator_eq] at hderived
  exact bindingGeneratorBytes_injective hbytes (hcollision (Set.mem_insert _ _)
    (Set.mem_insert_of_mem _ (Set.mem_singleton _)) hderived)

end Context

section Example

/-- A daily token of ten units on the secret five, up to the time 1000. -/
def thousandDaily : HeldToken UnitSpace where
  sig := ⟨dailyMessage unitGenerators 1 (CanonicalX.toBlsScalar (leArray 31 5)) 7 10 3 1000, 0, 1⟩
  k := 7
  c := 10
  tIssue := 3
  eMax := 1000

theorem thousandDaily_valid : DailyValid unitGenerators unitKeys
    (CanonicalX.toBlsScalar (leArray 31 5)) thousandDaily := by
  refine ⟨?_, ?_⟩
  · show (0 : Scalar) + 1 ≠ 0
    rw [zero_add]
    exact one_ne_zero
  · show ((0 : Scalar) + 1) • thousandDaily.sig.a = _
    rw [zero_add, one_smul]
    rfl

/-- Three bytes are uploaded for three units at the time 900. -/
def threeUpload : UploadEvent (List UInt64 × List DalekScalar) DalekScalar where
  spend := ⟨3, 900, 3, leArray 16 1, oneSpendCoins, 1, 1⟩
  fileId := leArray 32 1
  fileData := threeBytes
  fileCoins := ⟨fun _ => 2, fun _ _ => 3, 5⟩
  fileChallengeNonce := leArray 32 2
  sameXContext := [8]
  alphaR := 1
  alphaS := 2
  uBytes := leArray 48 0
  alphaBls := 3
  alphaRist := 5
  revocation := oneRevocationCoins

/-- The challenges that a confidence of nine tenths asks for. -/
def nineTenths (commitment : FileCommitment D) : ℕ :=
  expectedChallengeCount exactOps commitment (9 / 10)

omit [DecidableEq D] in
theorem nineTenths_bounds (commitment : FileCommitment D) (hblocks : commitment.numBlocks ≠ 0) :
    1 ≤ nineTenths commitment ∧ nineTenths commitment ≤ commitment.numBlocks.toNat :=
  expectedChallengeCount_bounds exactOps hblocks (9 / 10)

theorem threeUpload_fits : EventFits lineDalek thousandDaily.tIssue thousandDaily.eMax
    threeUpload.spend :=
  ⟨by decide, by decide, Or.inl rfl, oneBeqCoins_complete, oneBeqCoins_complete⟩

theorem threeBytes_chunks_encode :
    ∀ group ∈ chunks accountablePackedBlockPayloadSize threeBytes.bytes,
      ∀ chunk ∈ chunks accountablePointPayloadSize group,
        ∃ point, encodeChunkToPoint lineSha lineDalek chunk = .ok point := by
  intro group hgroup chunk hchunk
  rw [List.mem_singleton.mp (show group ∈ [threeBytes.bytes] from hgroup)] at hchunk
  rw [List.mem_singleton.mp (show chunk ∈ [threeBytes.bytes] from hchunk)]
  exact threeBytes_encodes

theorem fiveKey_ne : uploadKey lineDalek (leArray 31 5) ≠ 0 := by
  decide +kernel

theorem lineH_ne : privatePlaintextH lineSha lineDalek ≠ 0 := by
  rw [privatePlaintextH_line]
  exact one_ne_zero

theorem thousandDaily_hasWitness : (revokedAt 900 2000).HasWitness thousandDaily.eMax :=
  oneRevoked_hasWitness (by decide) (by decide) (by decide) (by decide) (by decide)

/-- The coordinates of the token and of what is drawn show that no guard fires. -/
theorem threeUpload_guards : UploadGuards unitGenerators unitKeys (leArray 31 5) thousandDaily
    threeUpload := by
  refine ⟨fun hzero => absurd (congrFun hzero 1) ?_, fun hzero => absurd (congrFun hzero 0) ?_,
    fun hzero => absurd (congrFun hzero 2) ?_, ?_⟩
  · decide +kernel
  · decide +kernel
  · decide +kernel
  · show (1 : Scalar) + 1 ≠ 0
    decide +kernel

/-- The spend is proved and answered, and its commitment to the secret is not the identity. -/
theorem threeSpend_accepted : ∃ client spendProof response,
    spendProve unitGenerators threeUpload.spend.coins thousandDaily.sig
        (CanonicalX.toBlsScalar (leArray 31 5)) thousandDaily.k thousandDaily.c
        thousandDaily.tIssue thousandDaily.eMax threeUpload.spend.nowUnix threeUpload.spend.amount
        lineSha lineBlstrs lineDalek threeUpload.spend.nonce unitKeys.pkDaily 7 =
          .ok (client, spendProof) ∧
      client.eMax = thousandDaily.eMax ∧ spendProof.xBlsCommitment ≠ 0 ∧
      verifySpend lineSha lineBlstrs lineDalek spendProof 3 900 (leArray 16 1) unitGenerators
        unitKeys.pkDaily unitKeys 7 1 1 = .ok response := by
  rcases spendProve_of_fits lineSha lineBlstrs 7 lineDalek_decompress thousandDaily_valid
    threeUpload_fits (by decide) with ⟨client, spendProof, hprove, hclient, hopen⟩
  have hspend : spendOnce lineSha lineBlstrs lineDalek unitGenerators unitKeys 7
      (CanonicalX.toBlsScalar (leArray 31 5)) thousandDaily threeUpload.spend = .ok _ :=
    (spendOnce_ok lineDalek_decompress thousandDaily_valid threeUpload_fits (by decide)).mpr
      ⟨threeUpload_guards.spend, rfl⟩
  -- the spend is answered, so its proof was
  rcases bind_ok.mp hspend with ⟨proved, hproved, hspend⟩
  obtain rfl := Except.ok.inj (hproved.symm.trans hprove)
  rcases bind_ok.mp hspend with ⟨response, hresponse, -⟩
  exact ⟨client, spendProof, response, hprove, hclient, hopen ▸ threeUpload_guards.commitment_ne,
    hresponse⟩

/-- The upload with its bridge made in another context. -/
def contextUpload (context : List UInt8) :
    UploadEvent (List UInt64 × List DalekScalar) DalekScalar :=
  { threeUpload with sameXContext := context }

/-- The upload of the three bytes is accepted, in whatever context its bridge is made. -/
theorem threeUpload_accepted (merkle : MerkleHashes D) (leafOf : PackedBlock DalekScalar → D)
    (context : List UInt8) :
    ∃ proof,
    ∃ cp : ClientRevocationProof (List UInt64 × List DalekScalar) UnitSpace UnitSpace DalekScalar,
    ∃ response file,
      createAccountableFileCommitmentAuto lineSha lineDalek merkle leafOf threeUpload.fileCoins
        threeUpload.fileId threeUpload.fileData (uploadKey lineDalek (leArray 31 5)) = some file ∧
      proof.fileCommitment = file.commitment ∧ proof.spendProof.eMax = 1000 ∧
      proof.sameXContext = context ∧
      verifyUploadSpendWithRevocation lineSha lineBlstrs lineDalek merkle
        leafOf nineTenths openedRanges proof 3 900 unitGenerators unitKeys.pkDaily unitKeys 7
        (revokedAt 900 2000).ctx cp.proof (fourKey.publicKey lineBlstrs) cp.userComRist 1 1 =
          some (.ok response) := by
  obtain ⟨file, hcreate, hfile⟩ : ∃ file, createAccountableFileCommitmentAuto lineSha lineDalek
      merkle leafOf threeUpload.fileCoins threeUpload.fileId threeUpload.fileData
      (uploadKey lineDalek (leArray 31 5)) = some file ∧ HonestFile lineSha lineDalek merkle
        leafOf (uploadKey lineDalek (leArray 31 5)) file :=
    createAccountableFile_ok (by decide) threeBytes_chunks_encode
  rcases nineTenths_bounds file.commitment (numBlocks_ne_zero hfile) with ⟨hone, hmost⟩
  rcases honestFile_accepted lineH_ne fiveKey_ne hfile hone hmost
    (deriveChallengeIndices_small exactOps hcreate (by decide)
      (contextUpload context).fileChallengeNonce _) (contextUpload context).sameXContext 1 2 with
    ⟨fileProof, -, haudited⟩
  rcases threeSpend_accepted with
    ⟨client, spendProof, response, hprove, hclient, hcommitment, hresponse⟩
  rcases uploadProve_accepted (unitGenerators_pair.ne_zero 0) (unitGenerators_pair.ne_zero 1)
    one_ne_zero fiveKey_ne haudited hprove hcommitment rfl (hclient ▸ thousandDaily_hasWitness)
    oneRevocationCoins_complete with
    ⟨proof, cp, -, rfl, hnonce, hcommitmentFile, hcontext, hfileAccepted, hrevocation⟩
  rcases spendProve_message hprove with ⟨batchedEq, expiryEq, c, hmessage⟩
  exact ⟨proof, cp, response, file, hcreate, hcommitmentFile, hmessage ▸ rfl, hcontext,
    verifyUploadSpendWithRevocation_iff.mpr
      ⟨rfl, hnonce ▸ hresponse, hfileAccepted, hrevocation⟩⟩

/-- The three bytes are exchanged for themselves under other coins. -/
theorem upload_file_exchanged_three : ∃ proof : UploadSpendProof UnitSpace DalekScalar ℕ,
    ∃ cp : ClientRevocationProof (List UInt64 × List DalekScalar) UnitSpace UnitSpace DalekScalar,
    ∃ response file fileProof,
      createAccountableFileCommitmentAuto lineSha lineDalek lineMerkle (fun _ => 5)
        ⟨fun _ => 7, fun _ _ => 7, 7⟩ (leArray 32 7) threeBytes
        proof.fileBinding.encryptionPublicKey = some file ∧
      verifyUploadSpendWithRevocation lineSha lineBlstrs lineDalek lineMerkle (fun _ => 5)
        nineTenths openedRanges (proof.withFile (deriveFileBindingGenerator lineSha lineDalek
          lineMerkle 7 3 900 proof.spendProof.eMax file.commitment 1) (7 : DalekScalar)
          file.commitment (leArray 32 5) fileProof) 3 900 unitGenerators unitKeys.pkDaily unitKeys 7
        (revokedAt 900 2000).ctx cp.proof (fourKey.publicKey lineBlstrs) cp.userComRist 1 1 =
          some (.ok response) := by
  rcases threeUpload_accepted lineMerkle (fun _ => 5) [8] with
    ⟨proof, cp, response, -, -, -, -, -, haccepted⟩
  rcases upload_file_exchanged haccepted nineTenths_bounds (by decide) threeBytes_chunks_encode
    ⟨fun _ => 7, fun _ _ => 7, 7⟩ (leArray 32 7) (leArray 32 5) (7 : DalekScalar) 1 2 with
    ⟨file, hcreate, hexchanged⟩
  rcases hexchanged (deriveChallengeIndices_small exactOps hcreate (by decide) _ _) with
    ⟨fileProof, -, hverify⟩
  exact ⟨proof, cp, response, file, fileProof, hcreate, hverify⟩

theorem fileMerkle_fixedBytes (sha : Sha2) : (fileMerkle sha).FixedBytes where
  length := fun digest => digest.toList_length
  injective := List.Vector.toList_injective

/-- The upload of the three bytes with its bridge made in two contexts. -/
theorem upload_one_context_three :
    ∃ proof proof' : UploadSpendProof UnitSpace DalekScalar (Bytes 32),
    proof.sameXContext ≠ proof'.sameXContext ∧
      (7 : Scalar) = 7 ∧ (3 : UInt32) = 3 ∧ (900 : UInt64) = 900 ∧
      proof.spendProof.eMax = proof'.spendProof.eMax ∧
      (revokedAt 900 2000).ctx.revocationListVersion =
        (revokedAt 900 2000).ctx.revocationListVersion ∧
      proof.fileCommitment =
        { proof'.fileCommitment with nonce := proof.fileCommitment.nonce } := by
  rcases threeUpload_accepted (fileMerkle lineSha) (fun _ => leArray 32 5) [8] with
    ⟨proof, cp, response, file, hcreate, hcommitment, heMax, hcontext, haccepted⟩
  rcases threeUpload_accepted (fileMerkle lineSha) (fun _ => leArray 32 5) [9] with
    ⟨proof', cp', response', file', hcreate', hcommitment', heMax', hcontext', haccepted'⟩
  have hfile : proof.fileCommitment = proof'.fileCommitment := by
    rw [hcommitment, hcommitment', Option.some.inj (hcreate.symm.trans hcreate')]
  have hEMax : proof.spendProof.eMax = proof'.spendProof.eMax := heMax.trans heMax'.symm
  -- the file and what the generator is derived from are the same
  have hgenerator : proof.fileBinding.bindingGenerator = proof'.fileBinding.bindingGenerator := by
    rcases verifyUploadSpendWithRevocation_iff.mp haccepted with ⟨-, -, hbound, -⟩
    rcases verifyUploadSpendWithRevocation_iff.mp haccepted' with ⟨-, -, hbound', -⟩
    rw [hbound.generator, hbound'.generator, hfile, hEMax]
  refine ⟨proof, proof', ?_, upload_one_context (fileMerkle_fixedBytes lineSha) ?_ hgenerator
    haccepted haccepted'⟩
  · rw [hcontext, hcontext']
    decide
  · exact Set.injOn_pair.mpr fun _ => by rw [hfile, hEMax]

end Example

end Ebut
