import Ebut.Core.FileBinding
import Ebut.Core.Option1FileBinding
import Mathlib.Tactic.Module

/-!
# What an Accountable Block Is Accountable For

The batch proof shows one opening of the aggregate of `C1 = r * B` and
`C2 - K = r * X - s * H`. It is complete: a witness that opens every point of
every block is accepted.

The uploader chooses the commitment `K` together with the ciphertext, and the
equations constrain only their difference. A block encrypted under another key
`Y` as `C2 = M + r * Y` is also one under `X`, of the plaintext
`M + r * (Y - X)`, and a commitment to that plaintext opens it. So the batch
proof alone never ties a ciphertext to the key it is verified against.

## Main definitions

* `PointsOpen`, `BlockOpens`: A witness satisfies the equations of a block.
* `packedShape`: The part of the structural check that the commitments cannot
  change.
* `encryptedBlock`: A block encrypted under a given key.
* `AccountableRejects`, `Option1Rejects`: No proof with the block is accepted.

## Theorems

* `aggregateRow_of_open`, `aggregateBlock_of_open`: One turn of the two loops.
* `aggregateStatement_of_open`: The loops aggregate the equations.
* `batchVerify_batchProve`: The batch proof is complete.
* `encryptedBlock_opens`: A block under one key opens under any other.
* `wrong_key_rejected_iff`: When a block under another key is rejected.
-/

namespace Ebut

variable {R D : Type} [AddCommGroup R] [Module DalekScalar R]

/-- Every point of a block satisfies `C2 - K = r * X - s * H`. -/
def PointsOpen (bases : BatchBases R) (r : DalekScalar) :
    List R → List R → List DalekScalar → Prop
  | [], [], [] => True
  | c2 :: c2s, k :: ks, s :: ss =>
      c2 - k = r • bases.publicKey - s • bases.h ∧ PointsOpen bases r c2s ks ss
  | _, _, _ => False

/-- The witness satisfies the equations of the block. -/
def BlockOpens (bases : BatchBases R) (block : PackedBlock R) (witness : WitnessBlock) : Prop :=
  block.c1 = witness.encryptionRandomness • bases.base ∧
    PointsOpen bases witness.encryptionRandomness block.c2Points block.plaintextCommitments
      witness.commitmentBlindings

section Complete

variable {bases : BatchBases R}

/-- The inner loops of the statement and of the witness sum the same coefficients,
and the statement's point is the witness's opening. -/
theorem aggregateRow_of_open {r : DalekScalar} (row : List DalekScalar) :
    ∀ {c2s ks : List R} {ss : List DalekScalar}, PointsOpen bases r c2s ks ss →
      ∀ (sum minusS : DalekScalar) (point : R),
        (aggregateRow row c2s ks (sum, point)).1 = (witnessRow row ss (sum, minusS)).1 ∧
          (aggregateRow row c2s ks (sum, point)).2 =
            point + ((witnessRow row ss (sum, minusS)).1 - sum) • r • bases.publicKey +
              ((witnessRow row ss (sum, minusS)).2 - minusS) • bases.h := by
  induction row with
  | nil =>
    intro c2s ks ss _ sum minusS point
    refine ⟨rfl, ?_⟩
    show point = point + (sum - sum) • r • bases.publicKey + (minusS - minusS) • bases.h
    module
  | cons rho row ih =>
    intro c2s ks ss hopen sum minusS point
    match c2s, ks, ss, hopen with
    | [], [], [], _ =>
      refine ⟨rfl, ?_⟩
      show point = point + (sum - sum) • r • bases.publicKey + (minusS - minusS) • bases.h
      module
    | c2 :: c2s, k :: ks, s :: ss, hopen =>
      rcases hopen with ⟨hpoint, hrest⟩
      -- One turn of the loops, then the loops over the rest of the row.
      have htail := ih hrest (sum + rho) (minusS - rho * s) (point + rho • (c2 - k))
      refine ⟨htail.1, ?_⟩
      show (aggregateRow row c2s ks (sum + rho, point + rho • (c2 - k))).2 = point +
        ((witnessRow row ss (sum + rho, minusS - rho * s)).1 - sum) • r • bases.publicKey +
        ((witnessRow row ss (sum + rho, minusS - rho * s)).2 - minusS) • bases.h
      rw [htail.2, hpoint]
      module

/-- The statement's points are the openings given by the witness's scalars. -/
def AggregateOpens (bases : BatchBases R) (statement : R × R)
    (witness : DalekScalar × DalekScalar) : Prop :=
  statement.1 = witness.1 • bases.base ∧
    statement.2 = witness.1 • bases.publicKey + witness.2 • bases.h

theorem aggregateBlock_of_open {block : PackedBlock R} {witness : WitnessBlock}
    (hopen : BlockOpens bases block witness) (row : List DalekScalar) {statement : R × R}
    {scalars : DalekScalar × DalekScalar} (hagg : AggregateOpens bases statement scalars) :
    AggregateOpens bases (aggregateBlock statement (block, row))
      (witnessBlock scalars (row, witness)) := by
  rcases hopen with ⟨hc1, hpoints⟩
  rcases hagg with ⟨hstmt1, hstmt2⟩
  have hrow := aggregateRow_of_open row hpoints 0 scalars.2 statement.2
  constructor
  · simp only [aggregateBlock, witnessBlock]
    -- the header is scaled by the sum of the row on both sides
    rw [hrow.1, hstmt1, hc1]
    module
  · simp only [aggregateBlock, witnessBlock]
    rw [hrow.2, hstmt2]
    module

/-- The outer loops, by induction over the blocks. -/
theorem aggregate_fold_of_open {blocks : List (PackedBlock R)} {witnesses : List WitnessBlock}
    (hopen : List.Forall₂ (BlockOpens bases) blocks witnesses) :
    ∀ (coeffs : List (List DalekScalar)) {statement : R × R}
      {scalars : DalekScalar × DalekScalar}, AggregateOpens bases statement scalars →
      AggregateOpens bases ((blocks.zip coeffs).foldl aggregateBlock statement)
        ((((coeffs.zip blocks).zip witnesses).map fun p => (p.1.1, p.2)).foldl witnessBlock
          scalars) := by
  induction hopen with
  | nil =>
    intro coeffs statement scalars hagg
    simpa only [List.zip_nil_right, List.zip_nil_left, List.map_nil, List.foldl_nil] using hagg
  | cons hblock _ ih =>
    intro coeffs statement scalars hagg
    match coeffs with
    -- no coefficients are left, and both loops stop
    | [] => exact hagg
    | row :: coeffs => exact ih coeffs (aggregateBlock_of_open hblock row hagg)

theorem aggregateStatement_of_open {blocks : List (PackedBlock R)}
    {witnesses : List WitnessBlock} (hopen : List.Forall₂ (BlockOpens bases) blocks witnesses)
    (coeffs : List (List DalekScalar)) :
    AggregateOpens bases (aggregateStatement blocks coeffs)
      (aggregateWitness coeffs blocks witnesses) := by
  refine aggregate_fold_of_open hopen coeffs ⟨?_, ?_⟩
  · show (0 : R) = (0 : DalekScalar) • bases.base
    rw [zero_smul]
  · show (0 : R) = (0 : DalekScalar) • bases.publicKey + (0 : DalekScalar) • bases.h
    rw [zero_smul, zero_smul, add_zero]

variable [DecidableEq R]

/-- Completeness: a witness that opens every well-formed block is accepted, whatever
the coefficients, the challenge and the prover's randomness. -/
theorem batchVerify_batchProve {payload : ℕ} {blocks : List (PackedBlock R)}
    {witnesses : List WitnessBlock} (hok : ∀ block ∈ blocks, packedBlockOk payload block = true)
    (hopen : List.Forall₂ (BlockOpens bases) blocks witnesses)
    (challenge : R → R → R → R → DalekScalar) (coeffs : List (List DalekScalar))
    (alphaR alphaS : DalekScalar) :
    batchVerify bases payload challenge coeffs blocks
      (batchProve bases challenge coeffs blocks witnesses alphaR alphaS) = true := by
  rcases aggregateStatement_of_open hopen coeffs with ⟨hc1, hd⟩
  unfold batchVerify batchProve
  simp only [Bool.and_eq_true, decide_eq_true_eq, List.all_eq_true]
  refine ⟨hok, ?_, ?_⟩
  · rw [hc1]
    module
  · rw [hd]
    module

end Complete

/-- One to sixteen points, as many lengths, every length between one and the
payload. -/
def packedShape (payload : ℕ) (points : ℕ) (lengths : List UInt8) : Prop :=
  (1 ≤ points ∧ points ≤ 16) ∧ lengths.length = points ∧
    ∀ l ∈ lengths, l ≠ 0 ∧ l.toNat ≤ payload

omit [AddCommGroup R] [Module DalekScalar R] in
theorem packedBlockOk_iff {payload : ℕ} {block : PackedBlock R} :
    packedBlockOk payload block = true ↔
      packedShape payload block.c2Points.length block.pointLengths ∧
        block.plaintextCommitments.length = block.c2Points.length := by
  have hempty : block.c2Points.isEmpty = true ↔ block.c2Points.length = 0 := by
    rw [List.isEmpty_iff, List.length_eq_zero_iff]
  have hlengths : (block.pointLengths.any fun l => decide (l = 0) || decide (l.toNat > payload)) =
      false ↔ ∀ l ∈ block.pointLengths, l ≠ 0 ∧ l.toNat ≤ payload := by
    simp only [List.any_eq_false, Bool.or_eq_true, decide_eq_true_eq, not_or, not_lt, ne_eq,
      gt_iff_lt]
  unfold packedBlockOk packedShape
  simp only [Bool.and_eq_true, Bool.not_eq_true', Bool.or_eq_false_iff, decide_eq_false_iff_not,
    ← Bool.not_eq_true block.c2Points.isEmpty, hempty, hlengths, not_not, not_lt]
  constructor
  · rintro ⟨⟨⟨⟨h1, h2⟩, h3⟩, h4⟩, h5⟩
    exact ⟨⟨⟨by omega, h4⟩, h3.symm, h5⟩, h2.symm⟩
  · rintro ⟨⟨⟨h1, h4⟩, h3, h5⟩, h2⟩
    exact ⟨⟨⟨⟨by omega, h2.symm⟩, h3.symm⟩, h4⟩, h5⟩

/-- The block with `C1 = r * B` and `C2 = M + r * Y` for `Y = y * B`, with any
commitments. -/
def encryptedBlock (base : R) (y r : DalekScalar) (plaintexts commitments : List R)
    (lengths : List UInt8) : PackedBlock R where
  c1 := r • base
  c2Points := plaintexts.map fun m => m + r • y • base
  plaintextCommitments := commitments
  pointLengths := lengths

/-- The commitments, without blinding, to what a block under `y` decrypts to
under `x`. -/
def shiftedPlaintexts (base : R) (x y r : DalekScalar) (plaintexts : List R) : List R :=
  plaintexts.map fun m => m + r • (y - x) • base

theorem encryptedBlock_opens {bases : BatchBases R} {x y r : DalekScalar}
    (hkey : bases.publicKey = x • bases.base) (plaintexts : List R) (lengths : List UInt8) :
    BlockOpens bases
      (encryptedBlock bases.base y r plaintexts (shiftedPlaintexts bases.base x y r plaintexts)
        lengths)
      ⟨r, plaintexts.map fun _ => 0⟩ := by
  refine ⟨rfl, ?_⟩
  show PointsOpen bases r (plaintexts.map fun m => m + r • y • bases.base)
    (plaintexts.map fun m => m + r • (y - x) • bases.base) (plaintexts.map fun _ => 0)
  induction plaintexts with
  | nil => trivial
  | cons m plaintexts ih =>
    refine ⟨?_, ih⟩
    rw [hkey]
    module

theorem encryptedBlock_ok_iff {payload : ℕ} {base : R} {y r : DalekScalar}
    {plaintexts commitments : List R} {lengths : List UInt8} :
    packedBlockOk payload (encryptedBlock base y r plaintexts commitments lengths) = true ↔
      packedShape payload plaintexts.length lengths ∧ commitments.length = plaintexts.length := by
  rw [packedBlockOk_iff]
  simp only [encryptedBlock, List.length_map]

variable [DecidableEq R]

/-- A batch with a block that fails the structural check is rejected. -/
theorem batchVerify_of_not_ok {bases : BatchBases R} {payload : ℕ}
    {challenge : R → R → R → R → DalekScalar} {coeffs : List (List DalekScalar)}
    {blocks : List (PackedBlock R)} {proof : BatchProof R} {block : PackedBlock R}
    (hmem : block ∈ blocks) (hok : ¬packedBlockOk payload block = true) :
    batchVerify bases payload challenge coeffs blocks proof = false := by
  have hall : blocks.all (packedBlockOk payload) = false := by
    rw [List.all_eq_false]
    exact ⟨block, hmem, hok⟩
  rw [batchVerify, hall, Bool.false_and]

/-- The block alone is accepted, with commitments to the plaintexts it has under
`x` and no blinding. -/
theorem wrongKey_accepted (bases : BatchBases R) {payload : ℕ} {x y r : DalekScalar}
    {plaintexts : List R} {lengths : List UInt8} (hkey : bases.publicKey = x • bases.base)
    (hshape : packedShape payload plaintexts.length lengths)
    (challenge : R → R → R → R → DalekScalar) (coeffs : List (List DalekScalar))
    (alphaR alphaS : DalekScalar) :
    let blocks := [encryptedBlock bases.base y r plaintexts
      (shiftedPlaintexts bases.base x y r plaintexts) lengths]
    batchVerify bases payload challenge coeffs blocks
      (batchProve bases challenge coeffs blocks [⟨r, plaintexts.map fun _ => 0⟩] alphaR
        alphaS) = true := by
  intro blocks
  -- the witness is the encryption randomness itself, with no blindings
  refine batchVerify_batchProve ?_ ?_ challenge coeffs alphaR alphaS
  · intro block hmem
    rw [List.mem_singleton.mp hmem]
    refine encryptedBlock_ok_iff.mpr ⟨hshape, ?_⟩
    rw [shiftedPlaintexts, List.length_map]
  · exact List.Forall₂.cons (encryptedBlock_opens hkey plaintexts lengths) List.Forall₂.nil

/-- No accountable batch proof that the prover can produce, for any proof with a
block encrypted under `y`, is accepted under the key of `x`. -/
def AccountableRejects (D : Type) (sha : Sha2) (dalek : Dalek R) (x y r : DalekScalar)
    (plaintexts : List R) (lengths : List UInt8) : Prop :=
  ∀ (commitments : List R) (index : UInt64) (path : List (Bool × D))
    (before after : List (ChallengedBlock (PackedBlock R) D))
    (provedContext proofContext : List UInt8) (provedKey : R) (witnesses : List WitnessBlock)
    (alphaR alphaS : DalekScalar),
    let blocks := before ++
      ⟨index, encryptedBlock dalek.basepoint y r plaintexts commitments lengths, path⟩ :: after
    accountableVerify sha dalek proofContext (x • dalek.basepoint) blocks
      (accountableProve sha dalek provedContext provedKey blocks witnesses alphaR alphaS) = false

/-- The commitment of a file whose public key is that of `x` over the file's base. -/
def Option1FileCommitment.keyed (commitment : Option1FileCommitment R D) (x : DalekScalar) :
    Option1FileCommitment R D :=
  { commitment with filePublicKey := x • commitment.fileBase }

/-- No Option 1 batch proof that the prover can produce, for any proof with a block
encrypted under `y`, is accepted under the key of `x`. -/
def Option1Rejects (merkle : MerkleHashes D) (sha : Sha2) (dalek : Dalek R)
    (commitment : Option1FileCommitment R D) (x y r : DalekScalar) (plaintexts : List R)
    (lengths : List UInt8) : Prop :=
  ∀ (commitments : List R) (selectorCiphertext : List UInt8) (index : UInt64)
    (path : List (Bool × D))
    (before after : List (ChallengedBlock (Option1CiphertextBlock R) D))
    (provedContext proofContext : List UInt8) (provedCommitment : Option1FileCommitment R D)
    (witnesses : List WitnessBlock) (alphaR alphaS : DalekScalar),
    let blocks := before ++
      ⟨index, ⟨encryptedBlock commitment.fileBase y r plaintexts commitments lengths,
        selectorCiphertext⟩, path⟩ :: after
    option1Verify merkle sha dalek proofContext (commitment.keyed x) blocks
      (option1Prove merkle sha dalek provedContext provedCommitment blocks witnesses alphaR
        alphaS) = false

/-- Past the checks on the bases, the verifier is the batch verifier. -/
theorem accountableVerify_eq {sha : Sha2} {dalek : Dalek R} {proofContext : List UInt8}
    {filePublicKey : R} {blocks : List (ChallengedBlock (PackedBlock R) D)}
    {proof : BatchProof R} (hne : blocks.isEmpty = false) (hkey : filePublicKey ≠ 0)
    (hh : privatePlaintextH sha dalek ≠ 0) :
    accountableVerify sha dalek proofContext filePublicKey blocks proof =
      batchVerify (accountableBases sha dalek filePublicKey) accountablePointPayloadSize
        (accountableChallenge sha dalek proofContext filePublicKey)
        (deriveAccountableBatchCoefficients sha dalek blocks proofContext filePublicKey)
        (blocks.map (·.block)) proof := by
  rw [accountableVerify, hne, decide_eq_false hkey, Bool.or_false, if_neg Bool.false_ne_true,
    if_neg hh]

/-- Past the checks on the bases, the verifier is the batch verifier. -/
theorem option1Verify_eq {merkle : MerkleHashes D} {sha : Sha2} {dalek : Dalek R}
    {context : List UInt8} (commitment : Option1FileCommitment R D)
    {blocks : List (ChallengedBlock (Option1CiphertextBlock R) D)} {proof : BatchProof R}
    (hne : blocks.isEmpty = false) (hbase : commitment.fileBase ≠ 0)
    (hkey : commitment.filePublicKey ≠ 0) (hh : commitment.commitmentBase ≠ 0) :
    option1Verify merkle sha dalek context commitment blocks proof =
      batchVerify commitment.bases option1PointPayloadSize
        (option1Challenge merkle sha dalek context commitment)
        (option1BatchCoefficients merkle sha dalek blocks context commitment)
        (blocks.map (·.block.toPackedBlock)) proof := by
  rw [option1Verify, hne, decide_eq_false hbase, decide_eq_false hkey, decide_eq_false hh,
    Bool.or_false, Bool.or_false, Bool.or_false, if_neg Bool.false_ne_true]

theorem accountableRejects_iff (sha : Sha2) (dalek : Dalek R) (x y r : DalekScalar)
    (plaintexts : List R) (lengths : List UInt8) :
    AccountableRejects D sha dalek x y r plaintexts lengths ↔
      ¬(packedShape accountablePointPayloadSize plaintexts.length lengths ∧
        x • dalek.basepoint ≠ 0 ∧ privatePlaintextH sha dalek ≠ 0) := by
  constructor
  · rintro hrejects ⟨hshape, hkey, hh⟩
    -- The block alone, with a commitment to the plaintext it has under `x`.
    have hverify := hrejects (shiftedPlaintexts dalek.basepoint x y r plaintexts) 0 [] [] [] [] []
      (x • dalek.basepoint) [⟨r, plaintexts.map fun _ => 0⟩] 0 0
    have hfalse := (accountableVerify_eq (by rfl) hkey hh).symm.trans hverify
    have htrue := wrongKey_accepted (y := y) (r := r)
      (accountableBases sha dalek (x • dalek.basepoint)) rfl hshape
    exact absurd (htrue _ _ 0 0) (Bool.eq_false_iff.mp hfalse)
  · intro hcond commitments index path before after provedContext proofContext provedKey
      witnesses alphaR alphaS blocks
    by_cases hbases : x • dalek.basepoint ≠ 0 ∧ privatePlaintextH sha dalek ≠ 0
    · -- The bases are fine, so the block itself fails the structural check.
      have hne : (before ++ (⟨index, encryptedBlock dalek.basepoint y r plaintexts commitments
          lengths, path⟩ : ChallengedBlock (PackedBlock R) D) :: after) ≠ [] :=
        List.append_ne_nil_of_right_ne_nil _ (List.cons_ne_nil _ _)
      rw [accountableVerify_eq (List.isEmpty_eq_false_iff.mpr hne) hbases.1 hbases.2]
      refine batchVerify_of_not_ok (List.mem_map_of_mem List.mem_append_cons_self) ?_
      exact fun hok => hcond ⟨(encryptedBlock_ok_iff.mp hok).1, hbases⟩
    · unfold accountableVerify
      by_cases hkey : x • dalek.basepoint = 0
      · rw [decide_eq_true hkey, Bool.or_true, if_pos rfl]
      · have hh : privatePlaintextH sha dalek = 0 := not_not.mp fun hh => hbases ⟨hkey, hh⟩
        rw [if_pos hh, ite_self]

theorem option1Rejects_iff (merkle : MerkleHashes D) (sha : Sha2) (dalek : Dalek R)
    (commitment : Option1FileCommitment R D) (x y r : DalekScalar) (plaintexts : List R)
    (lengths : List UInt8) :
    Option1Rejects merkle sha dalek commitment x y r plaintexts lengths ↔
      ¬(packedShape option1PointPayloadSize plaintexts.length lengths ∧
        x • commitment.fileBase ≠ 0 ∧ commitment.commitmentBase ≠ 0) := by
  -- an identity base has an identity key, so the first check adds nothing
  have hbase : x • commitment.fileBase ≠ 0 → commitment.fileBase ≠ 0 :=
    fun hkey h => hkey (by rw [h, smul_zero])
  constructor
  · rintro hrejects ⟨hshape, hkey, hh⟩
    have hverify := hrejects (shiftedPlaintexts commitment.fileBase x y r plaintexts) [] 0 [] [] []
      [] [] (commitment.keyed x) [⟨r, plaintexts.map fun _ => 0⟩] 0 0
    have hfalse := (option1Verify_eq (commitment.keyed x) (by rfl) (hbase hkey) hkey hh).symm.trans
      hverify
    have htrue := wrongKey_accepted (y := y) (r := r) (commitment.keyed x).bases rfl hshape
    exact absurd (htrue _ _ 0 0) (Bool.eq_false_iff.mp hfalse)
  · intro hcond commitments selectorCiphertext index path before after provedContext proofContext
      provedCommitment witnesses alphaR alphaS blocks
    by_cases hbases : x • commitment.fileBase ≠ 0 ∧ commitment.commitmentBase ≠ 0
    · -- The bases are fine, so the block itself fails the structural check.
      have hne : (before ++ (⟨index, ⟨encryptedBlock commitment.fileBase y r plaintexts commitments
          lengths, selectorCiphertext⟩, path⟩ : ChallengedBlock (Option1CiphertextBlock R) D) ::
          after) ≠ [] := List.append_ne_nil_of_right_ne_nil _ (List.cons_ne_nil _ _)
      rw [option1Verify_eq (commitment.keyed x) (List.isEmpty_eq_false_iff.mpr hne)
        (hbase hbases.1) hbases.1 hbases.2]
      refine batchVerify_of_not_ok (List.mem_map_of_mem List.mem_append_cons_self) ?_
      exact fun hok => hcond ⟨(encryptedBlock_ok_iff.mp hok).1, hbases⟩
    · unfold option1Verify
      by_cases hkey : x • commitment.fileBase = 0
      · have hkeyed : (commitment.keyed x).filePublicKey = 0 := hkey
        rw [decide_eq_true hkeyed, Bool.or_true, Bool.true_or, if_pos rfl]
      · have hh : (commitment.keyed x).commitmentBase = 0 :=
          not_not.mp fun hh => hbases ⟨hkey, hh⟩
        rw [decide_eq_true hh, Bool.or_true, if_pos rfl]

/-- A block encrypted under another key is rejected only where every block is:
where it fails the structural check, or the bases fail theirs. -/
theorem wrong_key_rejected_iff (merkle : MerkleHashes D) (sha : Sha2) (dalek : Dalek R)
    (commitment : Option1FileCommitment R D) (x y r : DalekScalar) (plaintexts : List R)
    (lengths : List UInt8) :
    (AccountableRejects D sha dalek x y r plaintexts lengths ↔
      ¬(packedShape accountablePointPayloadSize plaintexts.length lengths ∧
        x • dalek.basepoint ≠ 0 ∧ privatePlaintextH sha dalek ≠ 0)) ∧
    (Option1Rejects merkle sha dalek commitment x y r plaintexts lengths ↔
      ¬(packedShape option1PointPayloadSize plaintexts.length lengths ∧
        x • commitment.fileBase ≠ 0 ∧ commitment.commitmentBase ≠ 0)) :=
  ⟨accountableRejects_iff sha dalek x y r plaintexts lengths,
    option1Rejects_iff merkle sha dalek commitment x y r plaintexts lengths⟩

section Example

/-- The Ristretto group as the scalars, with a point encoded by its logarithm. -/
def lineDalek : Dalek DalekScalar where
  basepoint := 1
  blinding := 2
  compress := fun p => leArray 32 p.val
  decompress := fun bytes =>
    if LittleEndian.leNat bytes.toList < dalekOrder then
      some (LittleEndian.leNat bytes.toList : DalekScalar)
    else none
  fromUniformBytes := fun bytes => (LittleEndian.leNat bytes.toList : DalekScalar)
  rangeFromBytes := fun _ => .ok ()
  verifySingle := fun _ _ _ _ => .ok ()

theorem lineDalek_decompress (p : DalekScalar) :
    lineDalek.decompress (lineDalek.compress p) = some p := by
  have hlt : p.val < 256 ^ 32 := (ZMod.val_lt p).trans (by decide +kernel : dalekOrder < 256 ^ 32)
  unfold lineDalek
  simp only [leNat_leArray hlt]
  rw [if_pos (ZMod.val_lt p), ZMod.natCast_zmod_val]

/-- A hash whose only digest is the number one. -/
def lineSha : Sha2 where
  sha256 := fun _ => leArray 32 1
  sha512 := fun _ => leArray 64 1

theorem privatePlaintextH_line : privatePlaintextH lineSha lineDalek = 1 := by
  decide +kernel

/-- Digests as numbers, with hash functions that are injective and disjoint. -/
def lineMerkle : MerkleHashes ℕ where
  hash := fun leaf => 2 * leaf + 1
  combine := fun left right => 2 * Nat.pair left right + 2
  zero := 0
  toBytes := fun digest => LittleEndian.leBytes 32 digest

def lineCommitment : Option1FileCommitment DalekScalar ℕ where
  fileId := leArray 32 42
  rootHash := 1
  numBlocks := 1
  fileSize := 1
  pointPayloadSize := 31
  pointsPerBlock := 16
  encodingVersion := 3
  fileBase := 1
  filePublicKey := 3
  commitmentBase := 1
  fileSalt := leArray 32 0
  serverNonce := leArray 32 0

/-- One plaintext point encrypted under `y = 5`, verified under `x = 3`. -/
theorem block_under_five_accepted_under_three :
    (5 : DalekScalar) ≠ 3 ∧
      ¬AccountableRejects ℕ lineSha lineDalek 3 5 7 [1] [17] ∧
      ¬Option1Rejects lineMerkle lineSha lineDalek lineCommitment 3 5 7 [1] [17] := by
  have hthree : (3 : DalekScalar) • (1 : DalekScalar) ≠ 0 := by decide +kernel
  have hone : (1 : DalekScalar) ≠ 0 := one_ne_zero
  have hlengths : ∀ l ∈ [(17 : UInt8)], l ≠ 0 ∧ l.toNat ≤ 17 := by decide +kernel
  have hlengths' : ∀ l ∈ [(17 : UInt8)], l ≠ 0 ∧ l.toNat ≤ 31 := by decide +kernel
  refine ⟨by decide +kernel, ?_, ?_⟩
  · rw [accountableRejects_iff, not_not, privatePlaintextH_line]
    exact ⟨⟨⟨le_rfl, by decide⟩, rfl, hlengths⟩, hthree, hone⟩
  · rw [option1Rejects_iff, not_not]
    exact ⟨⟨⟨le_rfl, by decide⟩, rfl, hlengths'⟩, hthree, hone⟩

end Example

end Ebut
