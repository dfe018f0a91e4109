import Ebut.Theory.Accountable
import Ebut.Library.Extraction

/-!
# What Batching Can Hide

The batch proofs answer for one random combination of the points of all presented
blocks. The aggregated statement is affine in every single coefficient: a change of
the coefficient of one point moves it along that point's header and difference. The
statements a prover can answer for form a submodule, the pairs `(r * B, r * X - s * H)`,
and a point that is not in it leaves it for all but one value of its coefficient.

One header carries up to sixteen points, so a coefficient enters the first component
through the sum of its row and the second one through its own point only.

## Main definitions

* `BatchAccepts`: The two equations of the verifiers.
* `AnswersTwice`: Some first message has answers at two challenges.
* `PointOpens`: A point has the form an honest block gives it.
* `withCoefficient`: The coefficients with one of them replaced.
* `CoefficientsMatch`: A coefficient for every point.

## Theorems

* `batchVerify_iff`: What the verifiers check.
* `aggregateStatement_withCoefficient`: The statement is affine in a coefficient.
* `answersTwice_mem`: A statement that is answered twice opens.
* `batching_hides_no_point`: An ill-formed point is hidden by at most one coefficient.
-/

namespace Ebut

open Extraction

variable {R D : Type} [AddCommGroup R] [Module DalekScalar R]

/-- The two equations of the verifiers, for a first message, a challenge and a response. -/
def BatchAccepts (bases : BatchBases R) (statement first : R × R) (c : DalekScalar)
    (response : DalekScalar × DalekScalar) : Prop :=
  response.1 • bases.base = first.1 + c • statement.1 ∧
    response.1 • bases.publicKey + response.2 • bases.h = first.2 + c • statement.2

/-- Some first message has accepted responses at two challenges. -/
def AnswersTwice (bases : BatchBases R) (statement : R × R) : Prop :=
  ∃ first c c' response response', c ≠ c' ∧ BatchAccepts bases statement first c response ∧
    BatchAccepts bases statement first c' response'

/-- A point of a block is as an honest block has it: the header is `r * B` and the difference of
ciphertext and commitment is `r * X - s * H`. -/
def PointOpens (bases : BatchBases R) (block : PackedBlock R) (j : ℕ) : Prop :=
  ∃ (r s : DalekScalar) (c2 k : R),
    block.c2Points[j]? = some c2 ∧ block.plaintextCommitments[j]? = some k ∧
    block.c1 = r • bases.base ∧ c2 - k = r • bases.publicKey - s • bases.h

/-- The coefficients with the one of a point replaced. -/
def withCoefficient (coeffs : List (List DalekScalar)) (b j : ℕ) (rho : DalekScalar) :
    List (List DalekScalar) :=
  coeffs.modify b fun row => row.set j rho

/-- A row for every block and a coefficient for every point. -/
def CoefficientsMatch (blocks : List (PackedBlock R)) (coeffs : List (List DalekScalar)) : Prop :=
  List.Forall₂ (fun block row => row.length = block.c2Points.length) blocks coeffs

section Verifiers

variable [DecidableEq R]

theorem batchVerify_iff {bases : BatchBases R} {payload : ℕ}
    {challenge : R → R → R → R → DalekScalar} {coeffs : List (List DalekScalar)}
    {blocks : List (PackedBlock R)} {proof : BatchProof R} :
    batchVerify bases payload challenge coeffs blocks proof = true ↔
      (∀ block ∈ blocks, packedBlockOk payload block = true) ∧
        BatchAccepts bases (aggregateStatement blocks coeffs) (proof.a1, proof.a2)
          (challenge (aggregateStatement blocks coeffs).1 (aggregateStatement blocks coeffs).2
            proof.a1 proof.a2) (proof.zR, proof.zMinusS) := by
  unfold batchVerify BatchAccepts
  rw [Bool.and_eq_true, List.all_eq_true]
  simp only [Bool.and_eq_true, decide_eq_true_eq]

/-- An accepted accountable batch answers for the statement aggregated from its blocks. -/
theorem accountableVerify_accepts {sha : Sha2} {dalek : Dalek R} {proofContext : List UInt8}
    {filePublicKey : R} {blocks : List (ChallengedBlock (PackedBlock R) D)}
    {proof : BatchProof R}
    (h : accountableVerify sha dalek proofContext filePublicKey blocks proof = true) :
    (∀ b ∈ blocks, packedBlockOk accountablePointPayloadSize b.block = true) ∧
      ∃ c, BatchAccepts (accountableBases sha dalek filePublicKey)
        (aggregateStatement (blocks.map (·.block))
          (deriveAccountableBatchCoefficients sha dalek blocks proofContext filePublicKey))
        (proof.a1, proof.a2) c (proof.zR, proof.zMinusS) := by
  unfold accountableVerify at h
  split at h
  · exact absurd h Bool.false_ne_true
  · split at h
    · exact absurd h Bool.false_ne_true
    · rcases batchVerify_iff.mp h with ⟨hok, haccept⟩
      exact ⟨fun b hb => hok _ (List.mem_map_of_mem hb), _, haccept⟩

/-- The same for the Option 1 batch. -/
theorem option1Verify_accepts {merkle : MerkleHashes D} {sha : Sha2} {dalek : Dalek R}
    {context : List UInt8} {commitment : Option1FileCommitment R D}
    {blocks : List (ChallengedBlock (Option1CiphertextBlock R) D)} {proof : BatchProof R}
    (h : option1Verify merkle sha dalek context commitment blocks proof = true) :
    (∀ b ∈ blocks, packedBlockOk option1PointPayloadSize b.block.toPackedBlock = true) ∧
      ∃ c, BatchAccepts commitment.bases
        (aggregateStatement (blocks.map (·.block.toPackedBlock))
          (option1BatchCoefficients merkle sha dalek blocks context commitment))
        (proof.a1, proof.a2) c (proof.zR, proof.zMinusS) := by
  unfold option1Verify at h
  split at h
  · exact absurd h Bool.false_ne_true
  · rcases batchVerify_iff.mp h with ⟨hok, haccept⟩
    exact ⟨fun b hb => hok _ (List.mem_map_of_mem hb), _, haccept⟩

end Verifiers

section Derived

omit [AddCommGroup R] [Module DalekScalar R] in
/-- Coefficients that are derived for each block and each of its points match the blocks. -/
theorem coefficientsMatch_mapIdx {B : Type} (blocks : List B) (packed : B → PackedBlock R)
    (rho : ℕ → B → ℕ → DalekScalar) :
    CoefficientsMatch (blocks.map packed)
      (blocks.mapIdx fun i b => (List.range (packed b).c2Points.length).map (rho i b)) := by
  unfold CoefficientsMatch
  refine List.forall₂_iff_get.mpr ⟨?_, fun i hi hi' => ?_⟩
  · simp only [List.length_map, List.length_mapIdx]
  · simp only [List.get_eq_getElem, List.getElem_mapIdx, List.length_map, List.length_range,
      List.getElem_map]

theorem accountable_coefficientsMatch (sha : Sha2) (dalek : Dalek R)
    (blocks : List (ChallengedBlock (PackedBlock R) D)) (proofContext : List UInt8)
    (filePublicKey : R) :
    CoefficientsMatch (blocks.map (·.block))
      (deriveAccountableBatchCoefficients sha dalek blocks proofContext filePublicKey) :=
  coefficientsMatch_mapIdx blocks (·.block) _

theorem option1_coefficientsMatch (merkle : MerkleHashes D) (sha : Sha2) (dalek : Dalek R)
    (blocks : List (ChallengedBlock (Option1CiphertextBlock R) D)) (context : List UInt8)
    (commitment : Option1FileCommitment R D) :
    CoefficientsMatch (blocks.map (·.block.toPackedBlock))
      (option1BatchCoefficients merkle sha dalek blocks context commitment) :=
  coefficientsMatch_mapIdx blocks (·.block.toPackedBlock) _

end Derived

section Affine

/-- A loop whose turns only add to the accumulator starts from any offset. -/
theorem foldl_add_offset {V A : Type} [AddCommGroup V] {f : V → A → V}
    (hf : ∀ acc e a, f (acc + e) a = f acc a + e) (l : List A) (acc e : V) :
    l.foldl f (acc + e) = l.foldl f acc + e := by
  induction l generalizing acc with
  | nil => rfl
  | cons a l ih => rw [List.foldl_cons, List.foldl_cons, hf, ih]

theorem aggregateRow_offset (row : List DalekScalar) (c2s ks : List R)
    (acc e : DalekScalar × R) :
    aggregateRow row c2s ks (acc + e) = aggregateRow row c2s ks acc + e := by
  refine foldl_add_offset ?_ _ acc e
  intro acc e p
  exact Prod.ext (add_right_comm _ _ _) (add_right_comm _ _ _)

/-- One coefficient of a row adds itself to the sum and scales its own difference. -/
theorem aggregateRow_set (rho : DalekScalar) {c2 k : R} (j : ℕ) {row : List DalekScalar}
    {c2s ks : List R} (hrow : j < row.length) (hc2 : c2s[j]? = some c2)
    (hk : ks[j]? = some k) (acc : DalekScalar × R) :
    aggregateRow (row.set j rho) c2s ks acc =
      aggregateRow (row.set j 0) c2s ks acc + (rho, rho • (c2 - k)) := by
  induction j generalizing row c2s ks acc with
  | zero =>
    match row, c2s, ks, hrow, hc2, hk with
    | x :: row, _ :: c2s, _ :: ks, _, rfl, rfl =>
      show aggregateRow row c2s ks (acc.1 + rho, acc.2 + rho • (c2 - k)) =
        aggregateRow row c2s ks (acc.1 + 0, acc.2 + (0 : DalekScalar) • (c2 - k)) +
          (rho, rho • (c2 - k))
      rw [← aggregateRow_offset, zero_smul, add_zero, add_zero]
      rfl
  | succ j ih =>
    match row, c2s, ks, hrow, hc2, hk with
    | x :: row, c :: c2s, d :: ks, hrow, hc2, hk =>
      exact ih (Nat.lt_of_succ_lt_succ hrow) hc2 hk (acc.1 + x, acc.2 + x • (c - d))

theorem aggregateBlock_offset (acc e : R × R) (p : PackedBlock R × List DalekScalar) :
    aggregateBlock (acc + e) p = aggregateBlock acc p + e := by
  have hrow := aggregateRow_offset p.2 p.1.c2Points p.1.plaintextCommitments (0, acc.2) (0, e.2)
  rw [show ((0, acc.2) : DalekScalar × R) + (0, e.2) = (0, acc.2 + e.2) from
    Prod.ext (add_zero _) rfl] at hrow
  refine Prod.ext ?_ ?_
  · simp only [aggregateBlock, Prod.fst_add, Prod.snd_add]
    rw [hrow, Prod.fst_add, add_zero, add_right_comm]
  · simp only [aggregateBlock, Prod.snd_add]
    rw [hrow, Prod.snd_add]

/-- One coefficient of a block scales the header and the point's difference. -/
theorem aggregateBlock_set (rho : DalekScalar) {block : PackedBlock R} {c2 k : R} {j : ℕ}
    {row : List DalekScalar} (hrow : j < row.length) (hc2 : block.c2Points[j]? = some c2)
    (hk : block.plaintextCommitments[j]? = some k) (acc : R × R) :
    aggregateBlock acc (block, row.set j rho) =
      aggregateBlock acc (block, row.set j 0) + rho • (block.c1, c2 - k) := by
  have hset := aggregateRow_set rho j hrow hc2 hk (0, acc.2)
  refine Prod.ext ?_ ?_
  · simp only [aggregateBlock, Prod.fst_add, Prod.smul_fst]
    rw [hset, Prod.fst_add, add_smul, add_assoc]
  · simp only [aggregateBlock, Prod.snd_add, Prod.smul_snd]
    rw [hset, Prod.snd_add]

/-- The aggregated statement is affine in the coefficient of a point. -/
theorem aggregateStatement_withCoefficient {blocks : List (PackedBlock R)}
    {coeffs : List (List DalekScalar)} (hmatch : CoefficientsMatch blocks coeffs) {b j : ℕ}
    {block : PackedBlock R} (hb : blocks[b]? = some block) {c2 k : R}
    (hc2 : block.c2Points[j]? = some c2) (hk : block.plaintextCommitments[j]? = some k)
    (rho : DalekScalar) :
    aggregateStatement blocks (withCoefficient coeffs b j rho) =
      aggregateStatement blocks (withCoefficient coeffs b j 0) + rho • (block.c1, c2 - k) := by
  unfold aggregateStatement withCoefficient
  have hj : j < block.c2Points.length := (List.getElem?_eq_some_iff.mp hc2).1
  generalize ((0, 0) : R × R) = acc
  induction hmatch generalizing b acc with
  | nil => exact absurd hb (by simp only [List.getElem?_nil, reduceCtorEq, not_false_iff])
  | @cons head row blocks coeffs hlength _ ih =>
    cases b with
    | zero =>
      rcases Option.some.inj hb with rfl
      show (blocks.zip coeffs).foldl aggregateBlock (aggregateBlock acc (head, row.set j rho)) = _
      rw [aggregateBlock_set rho (hlength ▸ hj) hc2 hk, foldl_add_offset aggregateBlock_offset]
      rfl
    | succ b => exact ih hb (aggregateBlock acc (head, row))

end Affine

/-- The statements that have an opening. -/
def openings (bases : BatchBases R) : Submodule DalekScalar (R × R) :=
  Submodule.span DalekScalar {(bases.base, bases.publicKey), (0, bases.h)}

theorem mem_openings {bases : BatchBases R} {point : R × R} :
    point ∈ openings bases ↔
      ∃ r s : DalekScalar, point.1 = r • bases.base ∧
        point.2 = r • bases.publicKey - s • bases.h := by
  unfold openings
  rw [Submodule.mem_span_pair]
  constructor
  · rintro ⟨r, t, rfl⟩
    refine ⟨r, -t, ?_, ?_⟩
    · rw [Prod.fst_add, Prod.smul_fst, Prod.smul_fst, smul_zero, add_zero]
    · rw [Prod.snd_add, Prod.smul_snd, Prod.smul_snd, neg_smul, sub_neg_eq_add]
  · rintro ⟨r, s, h1, h2⟩
    refine ⟨r, -s, Prod.ext ?_ ?_⟩
    · rw [h1, Prod.fst_add, Prod.smul_fst, Prod.smul_fst, smul_zero, add_zero]
    · rw [h2, Prod.snd_add, Prod.smul_snd, Prod.smul_snd, neg_smul, ← sub_eq_add_neg]

/-- A statement that is answered at two challenges has an opening. -/
theorem answersTwice_mem {bases : BatchBases R} {statement : R × R}
    (h : AnswersTwice bases statement) : statement ∈ openings bases := by
  rcases h with ⟨first, c, c', response, response', hne, haccept, haccept'⟩
  -- both equations of an answer as one equation between pairs
  have hpair : ∀ {c : DalekScalar} {response : DalekScalar × DalekScalar},
      BatchAccepts bases statement first c response →
      first = response.1 • (bases.base, bases.publicKey) + response.2 • ((0 : R), bases.h) -
        c • statement := by
    rintro c response ⟨h1, h2⟩
    refine eq_sub_of_add_eq (Prod.ext ?_ ?_)
    · rw [Prod.fst_add, Prod.smul_fst, ← h1, Prod.fst_add, Prod.smul_fst, Prod.smul_fst,
        smul_zero, add_zero]
    · rw [Prod.snd_add, Prod.smul_snd, ← h2, Prod.snd_add, Prod.smul_snd, Prod.smul_snd]
  exact Submodule.mem_span_pair.mpr
    ⟨_, _, (opening_of_two hne (hpair haccept) (hpair haccept')).symm⟩

/-- For every list of blocks that passes the structural checks and every choice of the other
coefficients, an ill-formed point leaves at most one value of its own coefficient for which the
aggregated statement has a first message that is answered at two challenges. -/
theorem batching_hides_no_point (bases : BatchBases R) (payload : ℕ)
    {blocks : List (PackedBlock R)} (hok : ∀ block ∈ blocks, packedBlockOk payload block = true)
    {coeffs : List (List DalekScalar)} (hmatch : CoefficientsMatch blocks coeffs) {b j : ℕ}
    {block : PackedBlock R} (hb : blocks[b]? = some block) (hj : j < block.c2Points.length)
    (hill : ¬PointOpens bases block j) :
    Set.Subsingleton {rho : DalekScalar |
      AnswersTwice bases (aggregateStatement blocks (withCoefficient coeffs b j rho))} := by
  have hlength := (packedBlockOk_iff.mp (hok block (List.mem_of_getElem? hb))).2
  have hc2 := List.getElem?_eq_getElem hj
  have hk := List.getElem?_eq_getElem (hlength.symm ▸ hj : j < block.plaintextCommitments.length)
  intro rho hrho rho' hrho'
  have hmem := answersTwice_mem hrho
  have hmem' := answersTwice_mem hrho'
  rw [aggregateStatement_withCoefficient hmatch hb hc2 hk] at hmem hmem'
  refine line_meets_once ?_ hmem hmem'
  -- a direction inside the submodule would be an opening of the point
  intro hdir
  rcases mem_openings.mp hdir with ⟨r, s, h1, h2⟩
  exact hill ⟨r, s, _, _, hc2, hk, h1, h2⟩

section Example

/-- Independent bases, under the key `x = 3`. -/
def planeBases : BatchBases (DalekScalar × DalekScalar) where
  base := (1, 0)
  publicKey := (3, 0)
  h := (0, 1)

/-- The first point is encrypted as the header says, the second one is not. -/
def halfOpenBlock : PackedBlock (DalekScalar × DalekScalar) where
  c1 := (7, 0)
  c2Points := [(21, 5), (5, 0)]
  plaintextCommitments := [(0, 0), (0, 0)]
  pointLengths := [17, 3]

theorem halfOpenBlock_illFormed : ¬PointOpens planeBases halfOpenBlock 1 := by
  rintro ⟨r, s, c2, k, hc2, hk, hc1, hdiff⟩
  rcases Option.some.inj hc2 with rfl
  rcases Option.some.inj hk with rfl
  have hr : (7 : DalekScalar) = r * 1 := congrArg Prod.fst hc1
  have hpoint : (5 : DalekScalar) - 0 = r * 3 - s * 0 := congrArg Prod.fst hdiff
  rw [mul_one] at hr
  rw [← hr, mul_zero] at hpoint
  exact absurd hpoint (by decide +kernel)

theorem batching_hides_no_point_half :
    Set.Subsingleton {rho : DalekScalar |
      AnswersTwice planeBases
        (aggregateStatement [halfOpenBlock] (withCoefficient [[2, 1]] 0 1 rho))} :=
  batching_hides_no_point planeBases accountablePointPayloadSize
    (List.forall_mem_singleton.mpr (by decide)) (List.Forall₂.cons rfl List.Forall₂.nil) rfl
    (by decide) halfOpenBlock_illFormed

end Example

end Ebut
