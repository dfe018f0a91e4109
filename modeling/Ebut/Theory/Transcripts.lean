import Ebut.Core.Refresh
import Ebut.Library.Framing

/-!
# Unambiguous Transcripts

The strings that are hashed into the challenges of a spend and of a refresh determine
everything that was written into them. Each is one field after another with no framing around
them, and all fields but the embedded equality proofs have a fixed length. An equality proof
has its length in front of its last field, the range proof, so that its end can be found in
the middle of the string, and with it where the next field starts.

The points are written one by one. They are read as lists of known length here, one for each
stretch of points between two fields of another kind.

## Main definitions

* `BatchedEqualityProof.Short`: The length of the range proof fits its four bytes.

## Theorems

* `toBytes_selfDelimiting`: The end of an equality proof can be found.
* `spend_preimage_injective`, `refresh_preimage_injective`: The arguments of each challenge.
* `transcripts_unambiguous`: All of this, for the encodings of the two curves.
-/

namespace Ebut

open Framing LittleEndian

variable {G1 G2 GT : Type} [AddCommGroup G1] [Module Scalar G1] [AddCommGroup G2]
  [Module Scalar G2] [AddCommGroup GT] [Module Scalar GT]

section Fields

theorem selfDelimiting_u32 : SelfDelimiting Set.univ u32LeBytes :=
  (selfDelimiting_leBytes 4).comap (fun n _ => n.toNat_lt) fun _ _ _ _ h => UInt32.toNat_inj.mp h

theorem selfDelimiting_u64 : SelfDelimiting Set.univ u64LeBytes :=
  (selfDelimiting_leBytes 8).comap (fun n _ => n.toNat_lt) fun _ _ _ _ h => UInt64.toNat_inj.mp h

theorem selfDelimiting_scalar :
    SelfDelimiting Set.univ fun s : Scalar => (Scalar.toBytes s).toList :=
  selfDelimiting_vector toBytes_injective

theorem selfDelimiting_bytes (n : ℕ) :
    SelfDelimiting Set.univ fun bytes : Bytes n => bytes.toList :=
  selfDelimiting_vector Function.injective_id

end Fields

section EqualityProof

/-- The length of the range proof is written as a `u32`. -/
def BatchedEqualityProof.Short (proof : BatchedEqualityProof) : Prop :=
  proof.rangeProofBytes.length < 2 ^ 32

theorem u32LeBytes_ofNat {n : ℕ} (hn : n < 2 ^ 32) : u32LeBytes (UInt32.ofNat n) = leBytes 4 n := by
  rw [u32LeBytes, UInt32.toNat_ofNat_of_lt' hn]

/-- An equality proof says where it ends. -/
theorem toBytes_selfDelimiting :
    SelfDelimiting {proof | proof.Short} BatchedEqualityProof.toBytes := by
  intro proof hshort proof' hshort' rest rest' h
  unfold BatchedEqualityProof.toBytes at h
  rw [u32LeBytes_ofNat hshort, u32LeBytes_ofNat hshort'] at h
  simp only [List.append_assoc] at h
  -- field by field, the range proof behind its length
  rcases selfDelimiting_bytes 16 trivial trivial h with ⟨hc, h⟩
  rcases selfDelimiting_bytes 32 trivial trivial h with ⟨hc25519, h⟩
  rcases selfDelimiting_bytes 32 trivial trivial h with ⟨hzE, h⟩
  rcases selfDelimiting_bytes 32 trivial trivial h with ⟨hzRBls, h⟩
  rcases selfDelimiting_bytes 32 trivial trivial h with ⟨hzR25519, h⟩
  rcases selfDelimiting_singleton trivial trivial h with ⟨hbits, h⟩
  rcases lengthPrefixed_injective hshort hshort' h with ⟨hrange, h⟩
  refine ⟨?_, h⟩
  cases proof
  cases proof'
  rw [BatchedEqualityProof.mk.injEq]
  exact ⟨hc, hc25519, hzE, hzRBls, hzR25519, hrange, hbits⟩

end EqualityProof

section Challenges

variable (bls : Blstrs G1 G2 GT)

/-- Points that are written one after the other. -/
def writePoints (points : List G1) : List UInt8 :=
  points.flatMap fun p => (bls.g1Compressed p).toList

/-- The commitments of a spend, in the order of the string. -/
def SpendChallengeInput.commitments (input : SpendChallengeInput G1 G2) : List G1 :=
  [input.kPrime, input.cTotal, input.cBp, input.cDelta, input.xBlsCommitment]

/-- The token shown and the first messages of a spend. -/
def SpendChallengeInput.firstMessages (input : SpendChallengeInput G1 G2) : List G1 :=
  [input.aPrime, input.aBar, input.tBbs, input.tScaleT, input.tTotal, input.tScaleR,
    input.tRefund, input.tScaleBp, input.tBp, input.tScaleX, input.tX, input.tScaleExp,
    input.tExp]

/-- The commitments of a refresh, with the nullifier. -/
def RefreshChallengeInput.commitments (input : RefreshChallengeInput G1 G2) : List G1 :=
  [input.nT, input.kDaily, input.cDelta, input.xBlsCommitment]

/-- The token shown and the first messages of a refresh. -/
def RefreshChallengeInput.firstMessages (input : RefreshChallengeInput G1 G2) : List G1 :=
  [input.aPrime, input.aBar, input.tBbs, input.tScaleN, input.tN, input.tScaleD, input.tD,
    input.tScaleB, input.tB, input.tScaleX, input.tX]

/-- The string of a spend, its points in two lists. -/
theorem spend_preimage_eq (input : SpendChallengeInput G1 G2) :
    input.preimage bls =
      (Scalar.toBytes input.hCtx).toList ++ ((bls.g2Compressed input.pkDaily).toList ++
        (u32LeBytes input.spendAmount ++ ((Scalar.toBytes input.kCur).toList ++
          (u32LeBytes input.tIssue ++ (u64LeBytes input.eMax ++ (u64LeBytes input.nowUnix ++
            (input.nonce.toList ++ (writePoints bls input.commitments ++
              (input.batchedEq.toBytes ++ (input.expiryEq.toBytes ++
                (writePoints bls input.firstMessages ++ "Spend".toUTF8.toList))))))))))) := by
  unfold SpendChallengeInput.preimage writePoints SpendChallengeInput.commitments
    SpendChallengeInput.firstMessages
  simp only [List.flatMap_cons, List.flatMap_nil, List.append_nil, List.append_assoc]

/-- The string of a refresh, its points in two lists. -/
theorem refresh_preimage_eq (input : RefreshChallengeInput G1 G2) :
    input.preimage bls =
      (Scalar.toBytes input.hCtx).toList ++ ((bls.g2Compressed input.pkMaster).toList ++
        (u32LeBytes input.t ++ (u64LeBytes input.nowUnix ++
          (writePoints bls input.commitments ++ (input.batchedEq.toBytes ++
            (writePoints bls input.firstMessages ++ "Refresh".toUTF8.toList)))))) := by
  unfold RefreshChallengeInput.preimage writePoints RefreshChallengeInput.commitments
    RefreshChallengeInput.firstMessages
  simp only [List.flatMap_cons, List.flatMap_nil, List.append_nil, List.append_assoc]

variable {bls}

theorem selfDelimiting_points (hg1 : Function.Injective bls.g1Compressed) (n : ℕ) :
    SelfDelimiting {points : List G1 | points.length = n} (writePoints bls) :=
  fun _ ha _ hb _ _ h =>
    (selfDelimiting_vector hg1).counted n ⟨ha, fun _ _ => trivial⟩ ⟨hb, fun _ _ => trivial⟩ h

/-- Every argument of the challenge of a spend is determined by the string. -/
theorem spend_preimage_injective (hg1 : Function.Injective bls.g1Compressed)
    (hg2 : Function.Injective bls.g2Compressed) {input input' : SpendChallengeInput G1 G2}
    (hshort : input.batchedEq.Short ∧ input.expiryEq.Short)
    (hshort' : input'.batchedEq.Short ∧ input'.expiryEq.Short)
    (h : input.preimage bls = input'.preimage bls) : input = input' := by
  rw [spend_preimage_eq, spend_preimage_eq] at h
  -- every field is read off the front, and what follows it is kept
  rcases selfDelimiting_scalar trivial trivial h with ⟨hCtx, h⟩
  rcases selfDelimiting_vector hg2 trivial trivial h with ⟨pkDaily, h⟩
  rcases selfDelimiting_u32 trivial trivial h with ⟨spendAmount, h⟩
  rcases selfDelimiting_scalar trivial trivial h with ⟨kCur, h⟩
  rcases selfDelimiting_u32 trivial trivial h with ⟨tIssue, h⟩
  rcases selfDelimiting_u64 trivial trivial h with ⟨eMax, h⟩
  rcases selfDelimiting_u64 trivial trivial h with ⟨nowUnix, h⟩
  rcases selfDelimiting_bytes 16 trivial trivial h with ⟨nonce, h⟩
  -- the commitments stand before the equality proofs, the first messages behind them
  rcases selfDelimiting_points hg1 5 rfl rfl h with ⟨hcommitments, h⟩
  rcases toBytes_selfDelimiting hshort.1 hshort'.1 h with ⟨batchedEq, h⟩
  rcases toBytes_selfDelimiting hshort.2 hshort'.2 h with ⟨expiryEq, h⟩
  rcases selfDelimiting_points hg1 13 rfl rfl h with ⟨hmessages, -⟩
  simp only [SpendChallengeInput.commitments, List.cons.injEq, and_true] at hcommitments
  simp only [SpendChallengeInput.firstMessages, List.cons.injEq, and_true] at hmessages
  rcases hcommitments with ⟨kPrime, cTotal, cBp, cDelta, xBls⟩
  rcases hmessages with
    ⟨aPrime, aBar, tBbs, tScaleT, tTotal, tScaleR, tRefund, tScaleBp, tBp, tScaleX, tX,
      tScaleExp, tExp⟩
  exact SpendChallengeInput.ext hCtx pkDaily spendAmount kCur tIssue eMax nowUnix nonce kPrime
    cTotal cBp cDelta xBls batchedEq expiryEq aPrime aBar tBbs tScaleT tTotal tScaleR tRefund
    tScaleBp tBp tScaleX tX tScaleExp tExp

/-- Every argument of the challenge of a refresh is determined by the string. -/
theorem refresh_preimage_injective (hg1 : Function.Injective bls.g1Compressed)
    (hg2 : Function.Injective bls.g2Compressed) {input input' : RefreshChallengeInput G1 G2}
    (hshort : input.batchedEq.Short) (hshort' : input'.batchedEq.Short)
    (h : input.preimage bls = input'.preimage bls) : input = input' := by
  rw [refresh_preimage_eq, refresh_preimage_eq] at h
  rcases selfDelimiting_scalar trivial trivial h with ⟨hCtx, h⟩
  rcases selfDelimiting_vector hg2 trivial trivial h with ⟨pkMaster, h⟩
  rcases selfDelimiting_u32 trivial trivial h with ⟨t, h⟩
  rcases selfDelimiting_u64 trivial trivial h with ⟨nowUnix, h⟩
  rcases selfDelimiting_points hg1 4 rfl rfl h with ⟨hcommitments, h⟩
  rcases toBytes_selfDelimiting hshort hshort' h with ⟨batchedEq, h⟩
  rcases selfDelimiting_points hg1 11 rfl rfl h with ⟨hmessages, -⟩
  simp only [RefreshChallengeInput.commitments, List.cons.injEq, and_true] at hcommitments
  simp only [RefreshChallengeInput.firstMessages, List.cons.injEq, and_true] at hmessages
  rcases hcommitments with ⟨nT, kDaily, cDelta, xBls⟩
  rcases hmessages with
    ⟨aPrime, aBar, tBbs, tScaleN, tN, tScaleD, tD, tScaleB, tB, tScaleX, tX⟩
  exact RefreshChallengeInput.ext hCtx pkMaster t nowUnix nT kDaily cDelta xBls batchedEq aPrime
    aBar tBbs tScaleN tN tScaleD tD tScaleB tB tScaleX tX

end Challenges

/-- Encodings of equality proofs can be told from each other and from what follows them, and
the strings hashed for a spend and for a refresh determine all that the challenge is about. -/
theorem transcripts_unambiguous (bls : Blstrs G1 G2 GT)
    (hg1 : Function.Injective bls.g1Compressed) (hg2 : Function.Injective bls.g2Compressed) :
    (∀ proof proof' : BatchedEqualityProof, proof.Short → proof'.Short →
      (proof.toBytes = proof'.toBytes → proof = proof') ∧
      (proof.toBytes <+: proof'.toBytes → proof = proof')) ∧
    (∀ input input' : SpendChallengeInput G1 G2,
      input.batchedEq.Short → input.expiryEq.Short →
      input'.batchedEq.Short → input'.expiryEq.Short →
      input.preimage bls = input'.preimage bls → input = input') ∧
    ∀ input input' : RefreshChallengeInput G1 G2,
      input.batchedEq.Short → input'.batchedEq.Short →
      input.preimage bls = input'.preimage bls → input = input' := by
  refine ⟨fun proof proof' hshort hshort' => ⟨fun h => ?_, fun h => ?_⟩, ?_, ?_⟩
  · exact toBytes_selfDelimiting.injOn hshort hshort' h
  · exact toBytes_selfDelimiting.prefixFree hshort hshort' h
  · intro input input' hbatched hexpiry hbatched' hexpiry' h
    exact spend_preimage_injective hg1 hg2 ⟨hbatched, hexpiry⟩ ⟨hbatched', hexpiry'⟩ h
  · intro input input' hshort hshort' h
    exact refresh_preimage_injective hg1 hg2 hshort hshort' h

section Example

/-- Groups whose points are scalars, encoded by their values. -/
def scalarBlstrs : Blstrs Scalar Scalar Scalar where
  g1Generator := 1
  g2Generator := 1
  g1Compressed := fun p => leArray 48 p.val
  g2Compressed := fun p => leArray 96 p.val
  hashToCurve := fun _ _ => 1
  pairing := LinearMap.lsmul Scalar Scalar
  gtDebug := fun _ => []

theorem leArray_val_injective {n : ℕ} (hn : 32 ≤ n) :
    Function.Injective fun p : Scalar => leArray n p.val := by
  intro p p' h
  have hbound : ∀ s : Scalar, s.val < 256 ^ n := fun s =>
    (s.val_lt.trans (by decide +kernel : blsOrder < 256 ^ 32)).trans_le
      (Nat.pow_le_pow_right (by decide) hn)
  have hvalue := congrArg (fun bytes : Bytes n => leNat bytes.toList) h
  simp only [leNat_leArray (hbound _)] at hvalue
  exact ZMod.val_injective blsOrder hvalue

/-- The transcripts over these groups. -/
theorem transcripts_unambiguous_scalars :
    (∀ proof proof' : BatchedEqualityProof, proof.Short → proof'.Short →
      (proof.toBytes = proof'.toBytes → proof = proof') ∧
      (proof.toBytes <+: proof'.toBytes → proof = proof')) ∧
    (∀ input input' : SpendChallengeInput Scalar Scalar,
      input.batchedEq.Short → input.expiryEq.Short →
      input'.batchedEq.Short → input'.expiryEq.Short →
      input.preimage scalarBlstrs = input'.preimage scalarBlstrs → input = input') ∧
    ∀ input input' : RefreshChallengeInput Scalar Scalar,
      input.batchedEq.Short → input'.batchedEq.Short →
      input.preimage scalarBlstrs = input'.preimage scalarBlstrs → input = input' :=
  transcripts_unambiguous scalarBlstrs (leArray_val_injective (by decide))
    (leArray_val_injective (by decide))

end Example

end Ebut
