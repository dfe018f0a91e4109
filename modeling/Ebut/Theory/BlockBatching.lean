import Ebut.Core.FileProof
import Ebut.Theory.Batching
import Ebut.Theory.HiddenFileProof

/-!
# What the Other Two Batches Can Hide

The file proofs of the first format and of private files answer for one combination of the
presented blocks, with one coefficient for each block. What can be answered for is a submodule
here too: the pairs `(r * B, r * X - s * H)` for a private file, and for the first format the
pairs with the logarithm of the tag. A block that is not in it is hidden by at most one value of
its coefficient, whatever the others are.

The proof of the first format puts the pair of the slot in front, so that the coefficient of a
block is one further than its place.

## Main definitions

* `PairAccepts`: The two equations of a proof of equal logarithms.
* `PairAnswersTwice`: Some first message has answers at two challenges.

## Theorems

* `hiddenPlaintextVerify_accepts`, `verifyPairs_accepts`: What an accepted batch answers for.
* `pairAnswersTwice_log`: A pair that is answered twice has the logarithm of the tag.
* `privateBatch_hides_no_block`: A private batch does not hide a block.
* `pairBatch_hides_no_point`: A batch of the first format does not hide a wrong point.
-/

namespace Ebut

open Extraction

variable {R D : Type} [AddCommGroup R] [Module DalekScalar R] {sha : Sha2} {dalek : Dalek R}

section Private

variable {filePublicKey : R}

/-- The header of a private block and the difference of its points. -/
def privateTerm (b : ChallengedBlock (PrivateCiphertextBlock R) D) : R × R :=
  (b.block.c1, b.block.c2 - b.block.plaintextCommitment)

theorem aggregatePrivateStatement_eq
    (blocks : List (ChallengedBlock (PrivateCiphertextBlock R) D)) (coeffs : List DalekScalar) :
    aggregatePrivateStatement blocks coeffs = combined (blocks.map privateTerm) coeffs := by
  unfold aggregatePrivateStatement combined
  rw [List.zip_map_left, List.foldl_map]
  rfl

/-- An accepted private batch answers for the statement aggregated from its blocks, with one
coefficient for each. -/
theorem hiddenPlaintextVerify_accepts [DecidableEq R] {proofContext : List UInt8}
    {blocks : List (ChallengedBlock (PrivateCiphertextBlock R) D)}
    {proof : HiddenPlaintextBatchProof R}
    (h : hiddenPlaintextVerify sha dalek proofContext filePublicKey blocks proof = true) :
    ∃ (coeffs : List DalekScalar) (c : DalekScalar), coeffs.length = blocks.length ∧
      BatchAccepts (accountableBases sha dalek filePublicKey)
        (aggregatePrivateStatement blocks coeffs) (proof.a1, proof.a2) c
        (proof.zR, proof.zMinusS) := by
  unfold hiddenPlaintextVerify at h
  simp only at h
  split at h
  · exact absurd h Bool.false_ne_true
  · rw [Bool.and_eq_true, decide_eq_true_eq, decide_eq_true_eq] at h
    exact ⟨_, _, by rw [derivePrivateBatchCoefficients, List.length_map, List.length_range], h⟩

/-- An accepted private batch answers for a combination of its blocks. For every list of blocks
and every choice of the other coefficients, a block that no witness opens leaves at most one
value of its own coefficient for which the combination has a first message that is answered at
two challenges. -/
theorem privateBatch_hides_no_block {blocks : List (ChallengedBlock (PrivateCiphertextBlock R) D)}
    {i : ℕ} {b : ChallengedBlock (PrivateCiphertextBlock R) D} (hb : blocks[i]? = some b)
    (hill : ∀ witness, ¬PrivateOpens sha dalek filePublicKey b.block witness)
    {coeffs : List DalekScalar} (hmatch : coeffs.length = blocks.length) :
    Set.Subsingleton {rho : DalekScalar |
      AnswersTwice (accountableBases sha dalek filePublicKey)
        (aggregatePrivateStatement blocks (coeffs.set i rho))} := by
  have hi : i < coeffs.length := hmatch ▸ (List.getElem?_eq_some_iff.mp hb).1
  have hterm : (blocks.map privateTerm)[i]? = some (privateTerm b) := by
    rw [List.getElem?_map, hb, Option.map_some]
  refine (combined_hides_once (W := openings (accountableBases sha dalek filePublicKey)) hterm hi
    ?_).anti fun rho hrho => ?_
  · -- a term inside the submodule would be opened
    intro hmem
    rcases mem_openings.mp hmem with ⟨r, s, h1, h2⟩
    exact hill ⟨r, s⟩ ⟨h1, h2⟩
  · have hmem := answersTwice_mem hrho
    rw [aggregatePrivateStatement_eq] at hmem
    exact hmem

end Private

section Pairs

variable {x : DalekScalar} {slotGenerator tag : R}

/-- The two equations of a proof of equal logarithms, for a first message, a challenge and a
response. -/
def PairAccepts (slotGenerator tag : R) (statement first : R × R) (c s : DalekScalar) : Prop :=
  s • slotGenerator - c • tag = first.1 ∧ s • statement.1 - c • statement.2 = first.2

/-- Some first message has accepted responses at two challenges. -/
def PairAnswersTwice (slotGenerator tag : R) (statement : R × R) : Prop :=
  ∃ first c c' s s', c ≠ c' ∧ PairAccepts slotGenerator tag statement first c s ∧
    PairAccepts slotGenerator tag statement first c' s'

/-- The pairs with a common logarithm. -/
def pairsOfLog (x : DalekScalar) : Submodule DalekScalar (R × R) :=
  (LinearMap.lsmul DalekScalar R x).graph

theorem mem_pairsOfLog {p : R × R} : p ∈ pairsOfLog x ↔ p.2 = x • p.1 :=
  LinearMap.mem_graph_iff _ p

theorem combinePairs_eq (pairs : List (R × R)) (coeffs : List DalekScalar) :
    combinePairs pairs coeffs = combined pairs coeffs := rfl

/-- A pair that is answered twice has the logarithm of the tag, since that is the slope of the
responses. -/
theorem pairAnswersTwice_log (hslot : slotGenerator ≠ 0) (htag : tag = x • slotGenerator)
    {statement : R × R} (h : PairAnswersTwice slotGenerator tag statement) :
    statement ∈ pairsOfLog x := by
  rcases h with ⟨first, c, c', s, s', hne, ⟨h1, h2⟩, h1', h2'⟩
  have hsub : c - c' ≠ 0 := sub_ne_zero.mpr hne
  have hslope : (s - s') • slotGenerator = ((c - c') * x) • slotGenerator := by
    have heq := h1.trans h1'.symm
    rw [htag, ← sub_eq_zero] at heq
    rw [← sub_eq_zero, ← heq]
    module
  have hanswer : s - s' = (c - c') * x := smul_left_injective DalekScalar hslot hslope
  have hscaled : (c - c') • statement.2 = (c - c') • x • statement.1 := by
    rw [← mul_smul, ← hanswer]
    have heq := h2.trans h2'.symm
    rw [← sub_eq_zero] at heq
    rw [eq_comm, ← sub_eq_zero, ← heq]
    module
  exact mem_pairsOfLog.mpr (smul_right_injective R hsub hscaled)

/-- An accepted batch of the first format answers for a combination of the pair of the slot and
the pairs of the blocks, with one coefficient for each. -/
theorem verifyPairs_accepts [DecidableEq R] {pairs : List (R × R)} {proof : DLEQProof R}
    (h : verifyPairs sha dalek proof slotGenerator tag pairs = true) :
    ∃ (coeffs : List DalekScalar) (c : DalekScalar), coeffs.length = pairs.length + 1 ∧
      PairAccepts slotGenerator tag (combinePairs ((slotGenerator, tag) :: pairs) coeffs)
        (proof.t1, proof.t2) c proof.s := by
  unfold verifyPairs DLEQProof.verify at h
  rw [Bool.and_eq_true, decide_eq_true_eq, decide_eq_true_eq] at h
  exact ⟨_, _, by rw [deriveBatchCoefficients, List.length_map, List.length_range]; rfl, h⟩

/-- For every list of presented blocks and every choice of the other coefficients, a block whose
point is not the one that the secret of the tag decrypts its ciphertext to leaves at most one
value of its own coefficient for which the combination has a first message that is answered at
two challenges. -/
theorem pairBatch_hides_no_point (hslot : slotGenerator ≠ 0) (htag : tag = x • slotGenerator)
    {blocks : List (BlockProof R D)} {i : ℕ} {block : BlockProof R D}
    (hblock : blocks[i]? = some block)
    (hwrong : block.decryptedPoint ≠
      elgamalDecryptBlock x block.ciphertext.c1 block.ciphertext.c2)
    {coeffs : List DalekScalar} (hmatch : coeffs.length = blocks.length + 1) :
    Set.Subsingleton {rho : DalekScalar |
      PairAnswersTwice slotGenerator tag
        (combinePairs ((slotGenerator, tag) :: blocks.map BlockProof.pair)
          (coeffs.set (i + 1) rho))} := by
  have hi : i + 1 < coeffs.length := by
    rw [hmatch]
    exact Nat.succ_lt_succ (List.getElem?_eq_some_iff.mp hblock).1
  have hpair : ((slotGenerator, tag) :: blocks.map BlockProof.pair)[i + 1]? =
      some block.pair := by
    rw [List.getElem?_cons_succ, List.getElem?_map, hblock, Option.map_some]
  refine (combined_hides_once (W := pairsOfLog x) hpair hi fun hmem => ?_).anti fun rho hrho => ?_
  · -- a pair with the logarithm of the tag is that of the right point
    have hmask : block.ciphertext.c2 - block.decryptedPoint = x • block.ciphertext.c1 :=
      mem_pairsOfLog.mp hmem
    refine hwrong ?_
    rw [elgamalDecryptBlock, ← hmask, sub_sub_cancel]
  · have hlog := pairAnswersTwice_log hslot htag hrho
    rw [combinePairs_eq] at hlog
    exact hlog

end Pairs

section Example

/-- A group of rank two, whose second base is independent of the first one. -/
def rankTwoDalek : Dalek (DalekScalar × DalekScalar) where
  basepoint := (1, 0)
  blinding := (0, 2)
  compress := fun p => leArray 32 p.1.val
  decompress := fun _ => none
  fromUniformBytes := fun _ => (0, 1)
  rangeFromBytes := fun _ => .ok ()
  verifySingle := fun _ _ _ _ => .ok ()

/-- A block whose mask is not its header under the key `x = 3`. -/
def privateMasked : ChallengedBlock (PrivateCiphertextBlock (DalekScalar × DalekScalar)) ℕ where
  index := 0
  block := ⟨(7, 0), (5, 0), (0, 0)⟩
  merklePath := []

theorem privateMasked_closed (witness : PrivateFileWitnessBlock) :
    ¬PrivateOpens lineSha rankTwoDalek (3, 0) privateMasked.block witness := by
  rintro ⟨hc1, hdiff⟩
  have hr : (7 : DalekScalar) = witness.encryptionRandomness * 1 := congrArg Prod.fst hc1
  have hpoint : (5 : DalekScalar) - 0 = witness.encryptionRandomness * 3 -
    witness.commitmentBlinding * 0 := congrArg Prod.fst hdiff
  rw [mul_one] at hr
  rw [← hr, mul_zero] at hpoint
  exact absurd hpoint (by decide +kernel)

theorem privateBatch_hides_no_block_one :
    Set.Subsingleton {rho : DalekScalar |
      AnswersTwice (accountableBases lineSha rankTwoDalek (3, 0))
        (aggregatePrivateStatement [privateMasked] ([2].set 0 rho))} :=
  privateBatch_hides_no_block rfl privateMasked_closed rfl

/-- A point that the secret `x = 3` does not decrypt the ciphertext to. -/
theorem pairBatch_hides_no_point_one :
    Set.Subsingleton {rho : DalekScalar |
      PairAnswersTwice (1 : DalekScalar) 3
        (combinePairs ((1, 3) :: [(⟨0, ⟨2, 7⟩, 5, [], none⟩ : BlockProof DalekScalar ℕ)].map
          BlockProof.pair) ([1, 1].set (0 + 1) rho))} :=
  pairBatch_hides_no_point one_ne_zero (mul_one (3 : DalekScalar)).symm rfl (by decide +kernel) rfl

end Example

end Ebut
