import Ebut.Core.FileProof
import Ebut.Theory.Audit

/-!
# Every Presented Block Is Checked

The prover samples for the number of challenges it was given, the verifiers for the number of
blocks they were sent. Both come to the same positions: a sample has as many positions as were
asked for or as there are, and sampling for its own length has the same target, which is what
is hashed.

A verifier checks its blocks against the positions pair by pair and stops with the shorter
list. With no more blocks than the file has, the lists are of one length, and no block is left
over.

## Main definitions

* `drawn`: The positions that the first turns of the loop draw.
* `SamplingEnds`: No loop is entered, or enough positions can be drawn.
* `EveryBlockChecked`: Every block is at its sampled position, with its path.
* `BlockProof.challenged`: A block of the first format as one of the others.

## Theorems

* `deriveChallengeIndices_spec`: What is sampled, whatever was asked for.
* `exists_deriveChallengeIndices_iff`: When a sample is made.
* `deriveChallengeIndices_again`: Sampling for the length of a sample.
* `everyBlockChecked_of_zip`, `everyBlockChecked_of_passed`: The loop reaches every block.
* `verifyFileProof_checked`: The same for the two loops of the first format.
* `challenges_cover_blocks`: The sampling and the four verifiers.
-/

namespace Ebut

section Sampling

variable {sha : Sha2} {domain : String} {nonce : Bytes 32} {numBlocks : UInt64} {count : ℕ}
  {out : List UInt64}

/-- Nothing is sampled from a file without blocks, or for no challenge. -/
theorem deriveChallengeIndices_none (h : numBlocks = 0 ∨ count = 0) :
    deriveChallengeIndices sha domain nonce numBlocks count = some [] :=
  if_pos h

/-- Whatever is asked for, ascending positions of the file come out, as many as were asked for
or as there are. -/
theorem deriveChallengeIndices_spec
    (hout : deriveChallengeIndices sha domain nonce numBlocks count = some out) :
    out.Pairwise (· < ·) ∧ out.length = min count numBlocks.toNat ∧ ∀ i ∈ out, i < numBlocks := by
  by_cases hnone : numBlocks = 0 ∨ count = 0
  · rw [deriveChallengeIndices_none hnone, Option.some.injEq] at hout
    subst hout
    refine ⟨List.Pairwise.nil, ?_, fun i hi => absurd hi List.not_mem_nil⟩
    rcases hnone with rfl | rfl
    · exact (Nat.min_zero count).symm
    · exact (Nat.zero_min _).symm
  · rw [not_or] at hnone
    have hpos : 0 < numBlocks.toNat := by
      refine Nat.pos_of_ne_zero fun hzero => hnone.1 ?_
      exact UInt64.toNat_inj.mp hzero
    rcases deriveChallengeIndices_sampled hpos (Nat.pos_of_ne_zero hnone.2) hout with
      ⟨hsampled, hlength⟩
    exact ⟨hsampled.ascending, hlength,
      fun i hi => UInt64.lt_iff_toNat_lt.mpr (hsampled.in_range i hi)⟩

/-- Sampling for the length of a sample gives the sample: the number asked for enters only
through the target. -/
theorem deriveChallengeIndices_again
    (hout : deriveChallengeIndices sha domain nonce numBlocks count = some out) :
    deriveChallengeIndices sha domain nonce numBlocks out.length = some out := by
  have hlength := (deriveChallengeIndices_spec hout).2.1
  by_cases hnone : numBlocks = 0 ∨ count = 0
  · have hempty := hout
    rw [deriveChallengeIndices_none hnone, Option.some.injEq] at hempty
    subst hempty
    exact deriveChallengeIndices_none (Or.inr rfl)
  · have hnone' : ¬(numBlocks = 0 ∨ out.length = 0) := by
      rw [not_or] at hnone ⊢
      have hpos : numBlocks.toNat ≠ 0 := fun hzero => hnone.1 (UInt64.toNat_inj.mp hzero)
      exact ⟨hnone.1, by omega⟩
    have htarget : min out.length numBlocks.toNat = min count numBlocks.toNat := by omega
    unfold deriveChallengeIndices at hout ⊢
    rw [if_neg hnone] at hout
    rw [if_neg hnone']
    simp only [htarget]
    exact hout

/-- The positions that the first turns of the loop draw, ascending. -/
def drawn (sample : UInt64 → UInt64) : ℕ → List UInt64
  | 0 => []
  | turns + 1 => insertSorted (sample (UInt64.ofNat turns)) (drawn sample turns)

theorem mem_drawn {sample : UInt64 → UInt64} {turns : ℕ} {i : UInt64} :
    i ∈ drawn sample turns ↔ ∃ turn < turns, sample (UInt64.ofNat turn) = i := by
  induction turns with
  | zero => simp only [drawn, List.not_mem_nil, Nat.not_lt_zero, false_and, exists_false]
  | succ turns ih =>
      rw [drawn, mem_insertSorted, ih]
      constructor
      · rintro (rfl | ⟨turn, hturn, rfl⟩)
        · exact ⟨turns, Nat.lt_succ_self _, rfl⟩
        · exact ⟨turn, Nat.lt_succ_of_lt hturn, rfl⟩
      · rintro ⟨turn, hturn, rfl⟩
        rcases Nat.lt_succ_iff_lt_or_eq.mp hturn with hlt | rfl
        · exact Or.inr ⟨turn, hlt, rfl⟩
        · exact Or.inl rfl

theorem drawn_nodup (sample : UInt64 → UInt64) (turns : ℕ) : (drawn sample turns).Nodup := by
  have hascending : (drawn sample turns).Pairwise (· < ·) := by
    induction turns with
    | zero => exact List.Pairwise.nil
    | succ turns ih => exact insertSorted_ascending ih
  exact hascending.imp fun hlt => UInt64.ne_of_lt hlt

/-- The loop ends with what is drawn at the first turn by which enough positions are. -/
theorem sampleLoop_eq_some_iff {sample : UInt64 → UInt64} {target : ℕ} (fuel turns : ℕ)
    {res : List UInt64} :
    sampleLoop sample target fuel (UInt64.ofNat turns) (drawn sample turns) = some res ↔
      ∃ last, turns ≤ last ∧ last ≤ turns + fuel ∧ target ≤ (drawn sample last).length ∧
        (∀ turn, turns ≤ turn → turn < last → (drawn sample turn).length < target) ∧
        drawn sample last = res := by
  induction fuel generalizing turns with
  | zero =>
      unfold sampleLoop
      constructor
      · intro h
        split at h
        · exact absurd h (Option.some_ne_none _).symm
        · rename_i hfull
          exact ⟨turns, le_rfl, le_rfl, not_lt.mp hfull, fun turn h1 h2 => by omega,
            Option.some.inj h⟩
      · rintro ⟨last, hle, hlast, hfull, -, rfl⟩
        have heq : last = turns := by omega
        subst heq
        rw [if_neg (not_lt.mpr hfull)]
  | succ fuel ih =>
      have hnext : UInt64.ofNat turns + 1 = UInt64.ofNat (turns + 1) := (UInt64.ofNat_add _ _).symm
      unfold sampleLoop
      by_cases hroom : (drawn sample turns).length < target
      · -- one more turn: the rest of the loop is the one after it
        rw [if_pos hroom, hnext, show insertSorted (sample (UInt64.ofNat turns))
          (drawn sample turns) = drawn sample (turns + 1) from rfl, ih (turns + 1)]
        constructor
        · rintro ⟨last, hle, hlast, hfull, hfirst, hres⟩
          refine ⟨last, by omega, by omega, hfull, fun turn h1 h2 => ?_, hres⟩
          rcases Nat.eq_or_lt_of_le h1 with rfl | hlt
          · exact hroom
          · exact hfirst turn hlt h2
        · rintro ⟨last, hle, hlast, hfull, hfirst, hres⟩
          have hne : last ≠ turns := by
            rintro rfl
            exact absurd hroom (not_lt.mpr hfull)
          exact ⟨last, by omega, by omega, hfull, fun turn h1 h2 => hfirst turn (by omega) h2,
            hres⟩
      · rw [if_neg hroom, Option.some.injEq]
        constructor
        · intro hres
          exact ⟨turns, le_rfl, by omega, not_lt.mp hroom, fun turn h1 h2 => by omega, hres⟩
        · rintro ⟨last, hle, -, -, hfirst, rfl⟩
          rcases Nat.eq_or_lt_of_le hle with rfl | hlt
          · rfl
          · exact absurd (hfirst turns le_rfl hlt) hroom

/-- Either nothing is drawn, since no position or every one is asked for, or the digests lead to as
many different positions as are asked for. -/
def SamplingEnds (sha : Sha2) (domain : String) (nonce : Bytes 32) (numBlocks : UInt64)
    (count : ℕ) : Prop :=
  numBlocks = 0 ∨ count = 0 ∨ numBlocks.toNat ≤ count ∨
    ∃ positions : List UInt64, positions.Nodup ∧ positions.length = count ∧
      ∀ i ∈ positions, ∃ counter, sampleIndex sha domain nonce numBlocks count counter = i

/-- The loop is entered for fewer positions than there are. -/
theorem deriveChallengeIndices_loop (hblocks : numBlocks ≠ 0) (hcount : count ≠ 0)
    (hfew : count < numBlocks.toNat) :
    deriveChallengeIndices sha domain nonce numBlocks count =
      sampleLoop (sampleIndex sha domain nonce numBlocks count) count (2 ^ 64) (UInt64.ofNat 0)
        (drawn (sampleIndex sha domain nonce numBlocks count) 0) := by
  unfold deriveChallengeIndices
  rw [if_neg (not_or.mpr ⟨hblocks, hcount⟩)]
  simp only [min_eq_left hfew.le]
  rw [if_neg hfew.ne]
  rfl

/-- A sample is made if and only if the loop can end. -/
theorem exists_deriveChallengeIndices_iff :
    (∃ out, deriveChallengeIndices sha domain nonce numBlocks count = some out) ↔
      SamplingEnds sha domain nonce numBlocks count := by
  by_cases hblocks : numBlocks = 0
  · exact iff_of_true ⟨_, deriveChallengeIndices_none (Or.inl hblocks)⟩ (Or.inl hblocks)
  by_cases hcount : count = 0
  · exact iff_of_true ⟨_, deriveChallengeIndices_none (Or.inr hcount)⟩ (Or.inr (Or.inl hcount))
  by_cases hall : numBlocks.toNat ≤ count
  · refine iff_of_true ⟨(List.range numBlocks.toNat).map UInt64.ofNat, ?_⟩
      (Or.inr (Or.inr (Or.inl hall)))
    unfold deriveChallengeIndices
    rw [if_neg (not_or.mpr ⟨hblocks, hcount⟩)]
    simp only [min_eq_right hall, if_true]
  rw [deriveChallengeIndices_loop hblocks hcount (not_le.mp hall)]
  simp only [sampleLoop_eq_some_iff]
  generalize hsample : sampleIndex sha domain nonce numBlocks count = sample
  constructor
  · rintro ⟨out, last, -, -, hfull, -, rfl⟩
    -- the first positions of the sample are enough
    refine Or.inr (Or.inr (Or.inr ⟨(drawn sample last).take count, ?_, ?_, fun i hi => ?_⟩))
    · exact (drawn_nodup sample last).sublist (List.take_sublist _ _)
    · rw [List.length_take, min_eq_left hfull]
    · rcases mem_drawn.mp (List.mem_of_mem_take hi) with ⟨turn, -, hturn⟩
      exact ⟨UInt64.ofNat turn, by rw [hsample]; exact hturn⟩
  · rintro (h | h | h | ⟨positions, hnodup, hlength, hdrawn⟩)
    · exact absurd h hblocks
    · exact absurd h hcount
    · exact absurd h hall
    · -- every counter has its turn, so that all the positions are drawn in the end
      have hsubset : positions ⊆ drawn sample (2 ^ 64) := by
        intro i hi
        rcases hdrawn i hi with ⟨counter, hcounter⟩
        rw [hsample] at hcounter
        exact mem_drawn.mpr ⟨counter.toNat, counter.toNat_lt, by rw [UInt64.ofNat_toNat, hcounter]⟩
      have hfull := (List.subperm_of_subset hnodup hsubset).length_le
      generalize 2 ^ 64 = turns at hfull ⊢
      rw [hlength] at hfull
      have henough : ∃ last, count ≤ (drawn sample last).length := ⟨turns, hfull⟩
      refine ⟨drawn sample (Nat.find henough), Nat.find henough, Nat.zero_le _, ?_,
        Nat.find_spec henough, fun turn _ h => not_le.mp (Nat.find_min henough h), rfl⟩
      rw [Nat.zero_add]
      exact Nat.find_min' henough hfull

/-- For at most as many blocks as the file has, a position is sampled for every block. -/
theorem deriveChallengeIndices_length {β : Type} {blocks : List β}
    (hle : blocks.length ≤ numBlocks.toNat)
    (hout : deriveChallengeIndices sha domain nonce numBlocks blocks.length = some out) :
    blocks.length = out.length := by
  rw [(deriveChallengeIndices_spec hout).2.1, min_eq_left hle]

end Sampling

section Checked

variable {B R D : Type} [DecidableEq D]

/-- Every presented block is at the position sampled for it, and its path is accepted. -/
def EveryBlockChecked (merkle : MerkleHashes D) (leafOf : B → D) (sha : Sha2) (domain : String)
    (root : D) (nonce : Bytes 32) (numBlocks : UInt64) (blocks : List (ChallengedBlock B D)) :
    Prop :=
  ∃ expected, deriveChallengeIndices sha domain nonce numBlocks blocks.length = some expected ∧
    List.Forall₂ (fun b i => b.index = i ∧
      verifyMerklePath merkle (leafOf b.block) b.index.toNat b.merklePath root = true)
      blocks expected

variable {merkle : MerkleHashes D} {leafOf : B → D} {sha : Sha2} {domain : String} {root : D}
  {nonce : Bytes 32} {numBlocks : UInt64}

/-- A loop that checks the pairs of no more blocks than the file has reaches every block. -/
theorem everyBlockChecked_of_zip {β : Type} (challenged : β → ChallengedBlock B D)
    {blocks : List β} {expected : List UInt64} (hle : blocks.length ≤ numBlocks.toNat)
    (hexpected : deriveChallengeIndices sha domain nonce numBlocks blocks.length = some expected)
    (hpair : ∀ b i, (b, i) ∈ blocks.zip expected → (challenged b).index = i ∧
      verifyMerklePath merkle (leafOf (challenged b).block) (challenged b).index.toNat
        (challenged b).merklePath root = true) :
    EveryBlockChecked merkle leafOf sha domain root nonce numBlocks (blocks.map challenged) := by
  refine ⟨expected, by rwa [List.length_map], List.forall₂_map_left_iff.mpr ?_⟩
  exact List.forall₂_iff_zip.mpr
    ⟨deriveChallengeIndices_length hle hexpected, fun {b i} hmem => hpair b i hmem⟩

/-- The loop of the other formats. -/
theorem everyBlockChecked_of_passed {blocks : List (ChallengedBlock B D)}
    (h : AuditPassed merkle leafOf sha domain root nonce numBlocks blocks) :
    EveryBlockChecked merkle leafOf sha domain root nonce numBlocks blocks := by
  rcases h with ⟨hle, -, expected, hexpected, hhold⟩
  rw [challengedBlocksHold, List.all_eq_true] at hhold
  rw [← List.map_id blocks]
  refine everyBlockChecked_of_zip id hle hexpected fun b i hmem => ?_
  have hpair := hhold (b, i) hmem
  rw [Bool.and_eq_true, decide_eq_true_eq] at hpair
  exact hpair

/-- A presented block of the first format, without what proves its point. -/
def BlockProof.challenged (block : BlockProof R D) : ChallengedBlock (CiphertextBlock R) D :=
  ⟨block.index, block.ciphertext, block.merklePath⟩

end Checked

section Verifiers

variable {R D : Type} [AddCommGroup R] [Module DalekScalar R] [DecidableEq R] [DecidableEq D]
  {sha : Sha2} {dalek : Dalek R} {merkle : MerkleHashes D}

/-- Pairs of two lists of one length are those of all elements. -/
theorem map_fst_zip_map {α β γ : Type} (f : α → γ) {xs : List α} {ys : List β}
    (hlen : xs.length = ys.length) : (xs.zip ys).map (fun p => f p.1) = xs.map f := by
  rw [show (fun p : α × β => f p.1) = f ∘ Prod.fst from rfl, ← List.map_map,
    List.map_fst_zip hlen.le]

/-- An accepted proof of the first format: all its blocks are checked, and the points of all of
them are proved, in one proof or each in its own. -/
theorem verifyFileProof_checked {leafOf : CiphertextBlock R → D} {proof : FileProof R D}
    {storedCommitment : FileCommitment D} {challengeNonce : Bytes 32} {slotGenerator tag : R}
    (h : verifyFileProof sha dalek merkle leafOf proof storedCommitment challengeNonce
      slotGenerator tag = some true) :
    EveryBlockChecked merkle leafOf sha challengeIndexDomain storedCommitment.rootHash
      challengeNonce storedCommitment.numBlocks (proof.blocks.map BlockProof.challenged) ∧
    (∀ batchProof, proof.batchProof = some batchProof →
      verifyPairs sha dalek batchProof slotGenerator tag (proof.blocks.map BlockProof.pair) =
        true) ∧
    (proof.batchProof = none → ∀ b ∈ proof.blocks, ∃ dleq, b.dleqProof = some dleq ∧
      dleq.verify sha dalek slotGenerator tag b.pair.1 b.pair.2 = true) := by
  unfold verifyFileProof at h
  rcases check_passed h with ⟨-, h⟩
  rcases check_passed h with ⟨-, h⟩
  rcases check_passed h with ⟨-, h⟩
  rcases check_passed h with ⟨hle, h⟩
  rcases check_passed h with ⟨-, h⟩
  rcases Option.bind_eq_some_iff.mp h with ⟨expected, hexpected, h⟩
  have hlen := deriveChallengeIndices_length (not_lt.mp hle) hexpected
  -- whatever else a loop checks about a pair, position and path are enough for the first part
  rcases hbatch : proof.batchProof with _ | batchProof
  · -- a proof for each block
    rw [hbatch] at h
    have hall := List.all_eq_true.mp (Option.some.inj h)
    simp only [Bool.and_eq_true, decide_eq_true_eq] at hall
    refine ⟨everyBlockChecked_of_zip BlockProof.challenged (not_lt.mp hle) hexpected
      fun b i hmem => (hall (b, i) hmem).1, fun _ hnone => (nomatch hnone), ?_⟩
    intro _ b hb
    rw [← List.map_fst_zip hlen.le] at hb
    rcases List.mem_map.mp hb with ⟨p, hmem, rfl⟩
    exact (Option.any_eq_true _ _).mp (hall p hmem).2
  · -- one proof for the pairs of the loop, which are those of all blocks
    rw [hbatch] at h
    rcases check_passed h with ⟨hhold, hverify⟩
    rw [Bool.not_eq_true', Bool.not_eq_false, List.all_eq_true] at hhold
    simp only [Bool.and_eq_true, decide_eq_true_eq] at hhold
    refine ⟨everyBlockChecked_of_zip BlockProof.challenged (not_lt.mp hle) hexpected
      fun b i hmem => ?_, ?_, fun hnone => (nomatch hnone)⟩
    · exact ⟨(hhold (b, i) hmem).1.1, (hhold (b, i) hmem).2⟩
    · intro batchProof' hsome
      cases hsome
      rw [map_fst_zip_map BlockProof.pair hlen] at hverify
      exact Option.some.inj hverify

/-- For every nonce, a sample is made if the loop can end, and only then. It is ascending, in range
and of the expected length, and sampling for its length gives it again. For a proof with no more
blocks than the file every block is paired with a position, and each of the four verifiers accepts
only when all blocks pass. -/
theorem challenges_cover_blocks (sha : Sha2) (dalek : Dalek R) (merkle : MerkleHashes D)
    (challengeNonce : Bytes 32) :
    (∀ (domain : String) (numBlocks : UInt64) (count : ℕ),
      SamplingEnds sha domain challengeNonce numBlocks count ↔
        ∃ out, deriveChallengeIndices sha domain challengeNonce numBlocks count = some out ∧
          out.Pairwise (· < ·) ∧ out.length = min count numBlocks.toNat ∧
          (∀ i ∈ out, i < numBlocks) ∧
          deriveChallengeIndices sha domain challengeNonce numBlocks out.length = some out) ∧
    (∀ (β : Type) (domain : String) (numBlocks : UInt64) (blocks : List β),
      blocks.length ≤ numBlocks.toNat →
      SamplingEnds sha domain challengeNonce numBlocks blocks.length →
      ∃ out, deriveChallengeIndices sha domain challengeNonce numBlocks blocks.length = some out ∧
        (blocks.zip out).map Prod.fst = blocks) ∧
    (∀ (leafOf : PackedBlock R → D) (proof : AccountableFileProof R D)
      (storedCommitment : FileCommitment D) (filePublicKey : R) (proofContext : List UInt8),
      verifyAccountableFileProof sha dalek merkle leafOf proof storedCommitment challengeNonce
        filePublicKey proofContext = some true →
      EveryBlockChecked merkle leafOf sha challengeIndexDomain storedCommitment.rootHash
        challengeNonce storedCommitment.numBlocks proof.blocks) ∧
    (∀ (leafOf : PrivateCiphertextBlock R → D) (proof : PrivateFileProof R D)
      (storedCommitment : FileCommitment D) (filePublicKey : R) (proofContext : List UInt8),
      verifyPrivateFileProof sha dalek merkle leafOf proof storedCommitment challengeNonce
        filePublicKey proofContext = some true →
      EveryBlockChecked merkle leafOf sha challengeIndexDomain storedCommitment.rootHash
        challengeNonce storedCommitment.numBlocks proof.blocks) ∧
    (∀ (leafOf : Option1CiphertextBlock R → D) (proof : Option1FileProof R D)
      (commitment : Option1FileCommitment R D) (proofContext : List UInt8),
      verifyOption1FileProof merkle sha dalek leafOf proof commitment challengeNonce
        proofContext = some true →
      EveryBlockChecked merkle leafOf sha option1ChallengeIndexDomain commitment.rootHash
        challengeNonce commitment.numBlocks proof.blocks) ∧
    ∀ (leafOf : CiphertextBlock R → D) (proof : FileProof R D)
      (storedCommitment : FileCommitment D) (slotGenerator tag : R),
      verifyFileProof sha dalek merkle leafOf proof storedCommitment challengeNonce
        slotGenerator tag = some true →
      EveryBlockChecked merkle leafOf sha challengeIndexDomain storedCommitment.rootHash
        challengeNonce storedCommitment.numBlocks (proof.blocks.map BlockProof.challenged) ∧
      (∀ batchProof, proof.batchProof = some batchProof →
        verifyPairs sha dalek batchProof slotGenerator tag
          (proof.blocks.map BlockProof.pair) = true) ∧
      (proof.batchProof = none → ∀ b ∈ proof.blocks, ∃ dleq, b.dleqProof = some dleq ∧
        dleq.verify sha dalek slotGenerator tag b.pair.1 b.pair.2 = true) := by
  refine ⟨?_, ?_, ?_, ?_, ?_, ?_⟩
  · intro domain numBlocks count
    rw [← exists_deriveChallengeIndices_iff]
    refine ⟨fun ⟨out, hout⟩ => ⟨out, hout, ?_⟩, fun ⟨out, hout, _⟩ => ⟨out, hout⟩⟩
    rcases deriveChallengeIndices_spec hout with ⟨hascending, hlength, hrange⟩
    exact ⟨hascending, hlength, hrange, deriveChallengeIndices_again hout⟩
  · intro β domain numBlocks blocks hle hends
    rcases exists_deriveChallengeIndices_iff.mpr hends with ⟨out, hout⟩
    exact ⟨out, hout, List.map_fst_zip (deriveChallengeIndices_length hle hout).le⟩
  · intro leafOf proof storedCommitment filePublicKey proofContext hverify
    exact everyBlockChecked_of_passed (accountable_passed hverify)
  · intro leafOf proof storedCommitment filePublicKey proofContext hverify
    exact everyBlockChecked_of_passed (private_passed hverify)
  · intro leafOf proof commitment proofContext hverify
    exact everyBlockChecked_of_passed (option1_passed hverify)
  · intro leafOf proof storedCommitment slotGenerator tag hverify
    exact verifyFileProof_checked hverify

end Verifiers

section Example

/-- A hash that answers with the last eight bytes, which are those of the counter. -/
def countingSha : Sha2 where
  sha256 := fun _ => leArray 32 0
  sha512 := fun bytes => leArray 64 (LittleEndian.leNat (bytes.reverse.take 8).reverse)

theorem countingSha_ends :
    SamplingEnds countingSha challengeIndexDomain (leArray 32 1) 10 3 := by
  refine Or.inr (Or.inr (Or.inr ⟨[0, 1, 2], by decide, rfl, fun i hi => ⟨i, ?_⟩⟩))
  fin_cases hi <;> decide +kernel

/-- Three of ten positions are sampled, with the loop. -/
theorem challenges_cover_blocks_ten :
    ∃ out, deriveChallengeIndices countingSha challengeIndexDomain (leArray 32 1) 10 3 = some out ∧
      out.Pairwise (· < ·) ∧ out.length = min 3 10 ∧ (∀ i ∈ out, i < 10) ∧
      deriveChallengeIndices countingSha challengeIndexDomain (leArray 32 1) 10 out.length =
        some out :=
  ((challenges_cover_blocks countingSha lineDalek lineMerkle (leArray 32 1)).1
    challengeIndexDomain 10 3).mp countingSha_ends

end Example

end Ebut
