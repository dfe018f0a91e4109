import Ebut.Core.Option1FileBinding
import Ebut.Theory.ContextBinding
import Ebut.Theory.Transcripts

/-!
# Transcripts of Block Lists

What the transcripts of the two batched file proofs say about the blocks they are made from.
The coefficients of a batch proof are hashed from its transcript, so a prover who could send
two lists of blocks with one transcript would know the coefficients of one while choosing the
other.

The accountable transcript has the number of blocks in front of the blocks and in each block
the number of its points, so it is read back block by block. The lists of points, commitments
and lengths are zipped, which cuts them to the shortest; the structural check of the verifier
has them of one length, and then the zip loses nothing.

The transcript of Option 1 has none of these numbers, and its blocks end in a string of any
length. A list of blocks has the same transcript as a single block that has only the first
point of the first block, and everything behind it for its selectors. What the transcript
determines is the list among those of the same shape, and among all lists it determines the
empty one, and single points whose selectors cannot be taken for more points or blocks.

## Main definitions

* `PackedBlock.entries`, `PackedBlock.ofEntries`: A block as the list that is written.
* `accountableCoefficientPreimage`: The bytes hashed into one coefficient.
* `ChallengedBlock.statement`: What of a presented block the transcripts contain.
* `Option1CiphertextBlock.shape`: The numbers missing from the transcript of Option 1.
* `BeginsWithEntry`, `ContainsHead`, `Unmistakable`: When a selector string can be mistaken.

## Theorems

* `packedBody_selfDelimiting`: A block of the accountable transcript says where it ends.
* `accountable_transcripts_bind`: The accountable transcripts determine the blocks.
* `eq_of_shape`: So does the transcript of Option 1 for a known shape.
* `unmistakable_iff`: And for no other lists than those without ambiguity.
* `option1_transcript_binds_iff`: When the transcript of Option 1 determines the blocks.
-/

namespace Ebut

open Framing LittleEndian

variable {R : Type}

section Entries

/-- The points, commitments and lengths of a block as they are zipped. -/
def PackedBlock.entries (block : PackedBlock R) : List ((R × R) × UInt8) :=
  (block.c2Points.zip block.plaintextCommitments).zip block.pointLengths

/-- The block with these entries. -/
def PackedBlock.ofEntries (c1 : R) (entries : List ((R × R) × UInt8)) : PackedBlock R where
  c1
  c2Points := entries.map (·.1.1)
  plaintextCommitments := entries.map (·.1.2)
  pointLengths := entries.map (·.2)

/-- One to sixteen entries, every length between one and the payload. -/
def EntriesOk (payload : ℕ) (entries : List ((R × R) × UInt8)) : Prop :=
  (1 ≤ entries.length ∧ entries.length ≤ 16) ∧ ∀ e ∈ entries, e.2 ≠ 0 ∧ e.2.toNat ≤ payload

theorem entriesOk_singleton {payload : ℕ} {e : (R × R) × UInt8}
    (he : e.2 ≠ 0 ∧ e.2.toNat ≤ payload) : EntriesOk payload [e] :=
  ⟨⟨le_rfl, by simp⟩, List.forall_mem_singleton.mpr he⟩

@[simp]
theorem entries_ofEntries (c1 : R) (entries : List ((R × R) × UInt8)) :
    (PackedBlock.ofEntries c1 entries).entries = entries := by
  simp only [PackedBlock.entries, PackedBlock.ofEntries, List.zip_map', List.map_id']

/-- The structural check of a block, on its entries. -/
theorem packedBlockOk_ofEntries {payload : ℕ} {c1 : R} {entries : List ((R × R) × UInt8)} :
    packedBlockOk payload (PackedBlock.ofEntries c1 entries) = true ↔
      EntriesOk payload entries := by
  rw [packedBlockOk_iff]
  simp only [PackedBlock.ofEntries, packedShape, EntriesOk, List.length_map, List.forall_mem_map,
    true_and, and_true]

/-- A block that passes the check is the one with its entries. -/
theorem ofEntries_entries {payload : ℕ} {block : PackedBlock R}
    (hok : packedBlockOk payload block = true) :
    PackedBlock.ofEntries block.c1 block.entries = block := by
  rcases packedBlockOk_iff.mp hok with ⟨⟨-, hlengths, -⟩, hcommitments⟩
  have hzip : (block.c2Points.zip block.plaintextCommitments).length = block.c2Points.length := by
    rw [List.length_zip, hcommitments, Nat.min_self]
  have hpairs : block.entries.map (·.1) = block.c2Points.zip block.plaintextCommitments :=
    List.map_fst_zip (by rw [hzip, hlengths])
  have hpoints : block.entries.map (·.1.1) = block.c2Points := by
    have hfst := congrArg (List.map Prod.fst) hpairs
    rwa [List.map_map, List.map_fst_zip hcommitments.ge] at hfst
  have hhidden : block.entries.map (·.1.2) = block.plaintextCommitments := by
    have hsnd := congrArg (List.map Prod.snd) hpairs
    rwa [List.map_map, List.map_snd_zip hcommitments.le] at hsnd
  have hlast : block.entries.map (·.2) = block.pointLengths :=
    List.map_snd_zip (by rw [hzip, hlengths])
  unfold PackedBlock.ofEntries
  rw [hpoints, hhidden, hlast]

theorem entriesOk_of_ok {payload : ℕ} {block : PackedBlock R}
    (hok : packedBlockOk payload block = true) : EntriesOk payload block.entries := by
  rw [← ofEntries_entries hok, packedBlockOk_ofEntries] at hok
  exact hok

theorem entries_length {payload : ℕ} {block : PackedBlock R}
    (hok : packedBlockOk payload block = true) : block.entries.length = block.c2Points.length := by
  conv_rhs => rw [← ofEntries_entries hok]
  exact (List.length_map ..).symm

/-- Two blocks that pass the check are equal when their headers and their entries are. -/
theorem eq_of_entries {payload payload' : ℕ} {block block' : PackedBlock R}
    (hok : packedBlockOk payload block = true) (hok' : packedBlockOk payload' block' = true)
    (hc1 : block.c1 = block'.c1) (hentries : block.entries = block'.entries) : block = block' := by
  rw [← ofEntries_entries hok, ← ofEntries_entries hok', hc1, hentries]

end Entries

variable [AddCommGroup R] [Module DalekScalar R]

section Encodings

variable (dalek : Dalek R)

/-- One entry as transcripts contain it. -/
def entryBytes (e : (R × R) × UInt8) : List UInt8 :=
  (dalek.compress e.1.1).toList ++ (dalek.compress e.1.2).toList ++ [e.2]

theorem packedPointBytes_eq (block : PackedBlock R) :
    packedPointBytes dalek block = block.entries.flatMap (entryBytes dalek) := rfl

theorem option1PointBytes_eq (block : PackedBlock R) :
    option1PointBytes dalek block = block.entries.flatMap (entryBytes dalek) := rfl

variable {dalek}

theorem u64LeBytes_append_ne_nil (n : UInt64) (rest : List UInt8) : u64LeBytes n ++ rest ≠ [] := by
  intro hnil
  have hlength := congrArg List.length hnil
  rw [List.length_append, u64LeBytes, leBytes_length, List.length_nil] at hlength
  omega

theorem selfDelimiting_usize : SelfDelimiting {n | n < 2 ^ 64} usizeLeBytes := by
  intro a ha b hb rest rest' h
  rw [usizeLeBytes_eq ha, usizeLeBytes_eq hb] at h
  exact selfDelimiting_leBytes 8 ha hb h

theorem selfDelimiting_entry (hdalek : Function.Injective dalek.compress) :
    SelfDelimiting Set.univ (entryBytes dalek) := by
  have hpoint := selfDelimiting_vector hdalek
  intro a _ b _ rest rest' h
  exact (hpoint.prod hpoint).prod selfDelimiting_singleton ⟨⟨trivial, trivial⟩, trivial⟩
    ⟨⟨trivial, trivial⟩, trivial⟩ h

end Encodings

section Accountable

variable {dalek : Dalek R} {D : Type}

/-- What of a presented block the transcripts contain. The Merkle path is not in them. -/
def ChallengedBlock.statement {B : Type} (b : ChallengedBlock B D) : UInt64 × B :=
  (b.index, b.block)

/-- A packed block as the accountable transcripts contain it. -/
def packedBody (dalek : Dalek R) (block : PackedBlock R) : List UInt8 :=
  (dalek.compress block.c1).toList ++ (usizeLeBytes block.c2Points.length ++
    packedPointBytes dalek block)

/-- A block that passes the check says where it ends. -/
theorem packedBody_selfDelimiting (hdalek : Function.Injective dalek.compress) (payload : ℕ) :
    SelfDelimiting {block | packedBlockOk payload block = true} (packedBody dalek) := by
  intro block hok block' hok' rest rest' h
  unfold packedBody at h
  rw [← entries_length hok, ← entries_length hok', packedPointBytes_eq, packedPointBytes_eq,
    List.append_assoc, List.append_assoc (dalek.compress block'.c1).toList] at h
  rcases selfDelimiting_vector hdalek trivial trivial h with ⟨hc1, h⟩
  -- at most sixteen entries, so that their number fits its eight bytes
  have hsmall : ∀ {b : PackedBlock R}, packedBlockOk payload b = true →
      b.entries.length < 2 ^ 64 :=
    fun hb => (entriesOk_of_ok hb).1.2.trans_lt (by decide)
  rcases selfDelimiting_usize.framed (selfDelimiting_entry hdalek)
    ⟨hsmall hok, fun _ _ => trivial⟩ ⟨hsmall hok', fun _ _ => trivial⟩ h with ⟨hentries, hrest⟩
  exact ⟨eq_of_entries hok hok' hc1 hentries, hrest⟩

theorem packedStatement_selfDelimiting (hdalek : Function.Injective dalek.compress)
    (payload : ℕ) :
    SelfDelimiting {p : UInt64 × PackedBlock R | p.1 ∈ Set.univ ∧ packedBlockOk payload p.2 = true}
      fun p => u64LeBytes p.1 ++ packedBody dalek p.2 :=
  selfDelimiting_u64.prod (packedBody_selfDelimiting hdalek payload)

theorem accountableLeafPreimage_eq (block : PackedBlock R) :
    accountableLeafPreimage dalek block =
      "EBUT:ACCOUNTABLE-PACKED-CIPHER-LEAF:V1".toUTF8.toList ++ packedBody dalek block := by
  unfold accountableLeafPreimage packedBody
  rw [List.append_assoc, List.append_assoc]

theorem accountableBatchTranscript_eq (blocks : List (ChallengedBlock (PackedBlock R) D))
    (proofContext : List UInt8) (filePublicKey : R) :
    accountableBatchTranscript dalek blocks proofContext filePublicKey =
      "EBUT:ACCOUNTABLE-PACKED-RHO-TRANSCRIPT:V2".toUTF8.toList ++ proofContext ++
        (dalek.compress filePublicKey).toList ++ (usizeLeBytes blocks.length ++
          (blocks.map ChallengedBlock.statement).flatMap fun p =>
            u64LeBytes p.1 ++ packedBody dalek p.2) := by
  unfold accountableBatchTranscript packedBody
  rw [List.flatMap_map, List.append_assoc]
  simp only [ChallengedBlock.statement, List.append_assoc]

/-- The bytes hashed into the coefficient of point `j` of block `bi`. -/
def accountableCoefficientPreimage (digest : Bytes 64) (bi : ℕ) (index : UInt64) (j : ℕ) :
    List UInt8 :=
  "EBUT:ACCOUNTABLE-PACKED-RHO-COEFF:V2".toUTF8.toList ++ digest.toList ++ usizeLeBytes bi ++
    u64LeBytes index ++ usizeLeBytes j

theorem deriveAccountableBatchCoefficients_eq (sha : Sha2)
    (blocks : List (ChallengedBlock (PackedBlock R) D)) (proofContext : List UInt8)
    (filePublicKey : R) :
    deriveAccountableBatchCoefficients sha dalek blocks proofContext filePublicKey =
      blocks.mapIdx fun bi b => (List.range b.block.c2Points.length).map fun j =>
        DalekScalar.fromBytesModOrderWide (sha.sha512 (accountableCoefficientPreimage
          (sha.sha512 (accountableBatchTranscript dalek blocks proofContext filePublicKey)) bi
          b.index j)) := rfl

/-- The position is in the preimage of its coefficient. -/
theorem coefficientPreimage_injective {digest : Bytes 64} {bi bi' j j' : ℕ}
    {index index' : UInt64} (hbi : bi < 2 ^ 64) (hbi' : bi' < 2 ^ 64) (hj : j < 2 ^ 64)
    (hj' : j' < 2 ^ 64)
    (h : accountableCoefficientPreimage digest bi index j =
      accountableCoefficientPreimage digest bi' index' j') : bi = bi' ∧ j = j' := by
  unfold accountableCoefficientPreimage at h
  simp only [List.append_assoc, List.append_cancel_left_eq] at h
  rcases selfDelimiting_usize hbi hbi' h with ⟨hblock, h⟩
  rcases selfDelimiting_u64 trivial trivial h with ⟨-, h⟩
  exact ⟨hblock, selfDelimiting_usize.injOn hj hj' h⟩

/-- The accountable transcript determines the positions and the blocks. -/
theorem accountableBatchTranscript_injective (hdalek : Function.Injective dalek.compress)
    {proofContext : List UInt8} {filePublicKey : R}
    {blocks blocks' : List (ChallengedBlock (PackedBlock R) D)}
    (hok : ∀ b ∈ blocks, packedBlockOk accountablePointPayloadSize b.block = true)
    (hok' : ∀ b ∈ blocks', packedBlockOk accountablePointPayloadSize b.block = true)
    (h : accountableBatchTranscript dalek blocks proofContext filePublicKey =
      accountableBatchTranscript dalek blocks' proofContext filePublicKey) :
    blocks.map ChallengedBlock.statement = blocks'.map ChallengedBlock.statement := by
  rw [accountableBatchTranscript_eq, accountableBatchTranscript_eq,
    List.append_cancel_left_eq] at h
  have hcount : (usizeLeBytes blocks.length).length = (usizeLeBytes blocks'.length).length := by
    rw [usizeLeBytes, usizeLeBytes, u64LeBytes, u64LeBytes, leBytes_length, leBytes_length]
  -- the blocks end the string, so that their number is not needed to read them
  refine (packedStatement_selfDelimiting hdalek accountablePointPayloadSize).flatMap_injOn
    (fun p _ => u64LeBytes_append_ne_nil _ _) (fun p hp => ?_) (fun p hp => ?_)
    (List.append_inj h hcount).2
  · rcases List.mem_map.mp hp with ⟨b, hb, rfl⟩
    exact ⟨trivial, hok b hb⟩
  · rcases List.mem_map.mp hp with ⟨b, hb, rfl⟩
    exact ⟨trivial, hok' b hb⟩

omit [AddCommGroup R] [Module DalekScalar R] in
/-- Within a proof no two points have one preimage for their coefficients. -/
theorem eq_of_coefficientPreimage {digest : Bytes 64}
    {blocks : List (ChallengedBlock (PackedBlock R) D)} (hmem : blocks.length ≤ 2 ^ 64)
    (hok : ∀ b ∈ blocks, packedBlockOk accountablePointPayloadSize b.block = true)
    {bi bi' j j' : ℕ} {b b' : ChallengedBlock (PackedBlock R) D} (hb : blocks[bi]? = some b)
    (hj : j < b.block.c2Points.length) (hb' : blocks[bi']? = some b')
    (hj' : j' < b'.block.c2Points.length)
    (h : accountableCoefficientPreimage digest bi b.index j =
      accountableCoefficientPreimage digest bi' b'.index j') : (bi, j) = (bi', j') := by
  have hblock : ∀ {i : ℕ} {b : ChallengedBlock (PackedBlock R) D}, blocks[i]? = some b →
      i < 2 ^ 64 := fun hi => (List.getElem?_eq_some_iff.mp hi).1.trans_le hmem
  have hpoint : ∀ {i k : ℕ} {b : ChallengedBlock (PackedBlock R) D}, blocks[i]? = some b →
      k < b.block.c2Points.length → k < 2 ^ 64 := by
    intro i k b hi hk
    have hmany := (packedBlockOk_iff.mp (hok b (List.mem_of_getElem? hi))).1.1.2
    exact (hk.trans_le hmany).trans (by decide)
  rcases coefficientPreimage_injective (hblock hb) (hblock hb') (hpoint hb hj) (hpoint hb' hj') h
    with ⟨rfl, rfl⟩
  rfl

/-- The accountable leaf determines the block, the accountable transcript determines the
positions and the blocks, and within a proof no two points have one preimage for their
coefficients. -/
theorem accountable_transcripts_bind (dalek : Dalek R)
    (hdalek : Function.Injective dalek.compress) :
    (∀ block block' : PackedBlock R,
      packedBlockOk accountablePointPayloadSize block = true →
      packedBlockOk accountablePointPayloadSize block' = true →
      accountableLeafPreimage dalek block = accountableLeafPreimage dalek block' →
      block = block') ∧
    (∀ (D : Type) (proofContext : List UInt8) (filePublicKey : R)
      (blocks blocks' : List (ChallengedBlock (PackedBlock R) D)),
      (∀ b ∈ blocks, packedBlockOk accountablePointPayloadSize b.block = true) →
      (∀ b ∈ blocks', packedBlockOk accountablePointPayloadSize b.block = true) →
      accountableBatchTranscript dalek blocks proofContext filePublicKey =
        accountableBatchTranscript dalek blocks' proofContext filePublicKey →
      blocks.map ChallengedBlock.statement = blocks'.map ChallengedBlock.statement) ∧
    ∀ (D : Type) (digest : Bytes 64) (blocks : List (ChallengedBlock (PackedBlock R) D)),
      blocks.length ≤ 2 ^ 64 →
      (∀ b ∈ blocks, packedBlockOk accountablePointPayloadSize b.block = true) →
      ∀ bi b j bi' b' j', blocks[bi]? = some b → j < b.block.c2Points.length →
        blocks[bi']? = some b' → j' < b'.block.c2Points.length → (bi, j) ≠ (bi', j') →
        accountableCoefficientPreimage digest bi b.index j ≠
          accountableCoefficientPreimage digest bi' b'.index j' := by
  refine ⟨fun block block' hok hok' h => ?_, ?_, ?_⟩
  · rw [accountableLeafPreimage_eq, accountableLeafPreimage_eq, List.append_cancel_left_eq] at h
    exact (packedBody_selfDelimiting hdalek _).injOn hok hok' h
  · intro D proofContext filePublicKey blocks blocks' hok hok' h
    exact accountableBatchTranscript_injective hdalek hok hok' h
  · intro D digest blocks hmem hok bi b j bi' b' j' hb hj hb' hj' hne h
    exact hne (eq_of_coefficientPreimage hmem hok hb hj hb' hj' h)

end Accountable

section Option1

variable {dalek : Dalek R} {D : Type}

/-- What the checks of the verifier ask of a block. -/
def Option1CiphertextBlock.Ok (block : Option1CiphertextBlock R) : Prop :=
  packedBlockOk option1PointPayloadSize block.toPackedBlock = true

/-- The numbers that the transcript does not contain. -/
def Option1CiphertextBlock.shape (block : Option1CiphertextBlock R) : ℕ × ℕ :=
  (block.c2Points.length, block.selectorCiphertext.length)

/-- A presented block as the transcript contains it. -/
def option1Body (dalek : Dalek R) (p : UInt64 × Option1CiphertextBlock R) : List UInt8 :=
  u64LeBytes p.1 ++ ((dalek.compress p.2.c1).toList ++
    (p.2.entries.flatMap (entryBytes dalek) ++ p.2.selectorCiphertext))

theorem option1BatchTranscript_eq (merkle : MerkleHashes D)
    (blocks : List (ChallengedBlock (Option1CiphertextBlock R) D)) (context : List UInt8)
    (commitment : Option1FileCommitment R D) :
    option1BatchTranscript merkle dalek blocks context commitment =
      "EBUT:OPTION1:BATCH-TRANSCRIPT:V3".toUTF8.toList ++ context ++
        option1CommitmentBytes merkle dalek commitment ++
          (blocks.map ChallengedBlock.statement).flatMap (option1Body dalek) := by
  unfold option1BatchTranscript option1Body
  rw [List.flatMap_map]
  simp only [ChallengedBlock.statement, List.append_assoc, option1PointBytes_eq]

/-- The block with these entries and selectors. -/
def Option1CiphertextBlock.ofEntries (c1 : R) (entries : List ((R × R) × UInt8))
    (selectors : List UInt8) : Option1CiphertextBlock R :=
  { PackedBlock.ofEntries c1 entries with selectorCiphertext := selectors }

theorem option1Body_ofEntries (index : UInt64) (c1 : R) (entries : List ((R × R) × UInt8))
    (selectors : List UInt8) :
    option1Body dalek (index, .ofEntries c1 entries selectors) =
      u64LeBytes index ++ ((dalek.compress c1).toList ++
        (entries.flatMap (entryBytes dalek) ++ selectors)) := by
  unfold option1Body Option1CiphertextBlock.ofEntries
  rw [entries_ofEntries]
  rfl

omit [AddCommGroup R] [Module DalekScalar R] in
theorem option1_eq {block block' : Option1CiphertextBlock R} (hok : block.Ok) (hok' : block'.Ok)
    (hc1 : block.c1 = block'.c1) (hentries : block.entries = block'.entries)
    (hselectors : block.selectorCiphertext = block'.selectorCiphertext) : block = block' := by
  have hpacked := eq_of_entries hok hok' hc1 hentries
  cases block
  cases block'
  rw [Option1CiphertextBlock.mk.injEq]
  exact ⟨hpacked, hselectors⟩

section Shape

/-- A block of known shape says where it ends. -/
theorem option1Body_selfDelimiting (hdalek : Function.Injective dalek.compress)
    (shape : ℕ × ℕ) :
    SelfDelimiting {p : UInt64 × Option1CiphertextBlock R | p.2.Ok ∧ p.2.shape = shape}
      (option1Body dalek) := by
  rintro ⟨index, block⟩ ⟨hok, hshape⟩ ⟨index', block'⟩ ⟨hok', hshape'⟩ rest rest' h
  rcases Prod.mk.inj (hshape.trans hshape'.symm) with ⟨hpoints, hselectors⟩
  unfold option1Body at h
  simp only [List.append_assoc] at h
  rcases selfDelimiting_u64 trivial trivial h with ⟨hindex, h⟩
  rcases selfDelimiting_vector hdalek trivial trivial h with ⟨hc1, h⟩
  rcases (selfDelimiting_entry hdalek).counted block.c2Points.length
    ⟨entries_length hok, fun _ _ => trivial⟩
    ⟨(entries_length hok').trans hpoints.symm, fun _ _ => trivial⟩ h with ⟨hentries, h⟩
  rcases List.append_inj h hselectors with ⟨hstring, hrest⟩
  exact ⟨Prod.ext hindex (option1_eq hok hok' hc1 hentries hstring), hrest⟩

/-- Among the lists of one shape the transcript determines the blocks. -/
theorem eq_of_shape (hdalek : Function.Injective dalek.compress)
    {as bs : List (UInt64 × Option1CiphertextBlock R)} (hok : ∀ p ∈ as, p.2.Ok)
    (hok' : ∀ p ∈ bs, p.2.Ok)
    (hshape : as.map (fun p => p.2.shape) = bs.map (fun p => p.2.shape))
    (h : as.flatMap (option1Body dalek) = bs.flatMap (option1Body dalek)) : as = bs := by
  induction as generalizing bs with
  | nil => exact (List.map_eq_nil_iff.mp hshape.symm).symm
  | cons a as ih =>
      rcases bs with _ | ⟨b, bs⟩
      · exact absurd hshape (List.cons_ne_nil _ _)
      rw [List.forall_mem_cons] at hok hok'
      rw [List.map_cons, List.map_cons, List.cons.injEq] at hshape
      rcases option1Body_selfDelimiting hdalek b.2.shape ⟨hok.1, hshape.1⟩ ⟨hok'.1, rfl⟩ h
        with ⟨hhead, htail⟩
      rw [hhead, ih hok.2 hok'.2 hshape.2 htail]

end Shape

section Ambiguity

variable (dalek)

/-- The string could go on with one more point. -/
def BeginsWithEntry (selectors : List UInt8) : Prop :=
  ∃ e rest, (e.2 ≠ 0 ∧ e.2.toNat ≤ option1PointPayloadSize) ∧
    selectors = entryBytes dalek e ++ rest

/-- The string could end, and another block begin. -/
def ContainsHead (selectors : List UInt8) : Prop :=
  ∃ before index c1 e rest, (e.2 ≠ 0 ∧ e.2.toNat ≤ option1PointPayloadSize) ∧
    selectors = before ++ (u64LeBytes index ++ ((dalek.compress c1).toList ++
      (entryBytes dalek e ++ rest)))

/-- No block at all, or a single point whose selectors are taken for nothing else. -/
def Unmistakable (blocks : List (UInt64 × Option1CiphertextBlock R)) : Prop :=
  blocks = [] ∨ ∃ p, blocks = [p] ∧ p.2.c2Points.length = 1 ∧
    ¬BeginsWithEntry dalek p.2.selectorCiphertext ∧ ¬ContainsHead dalek p.2.selectorCiphertext

variable {dalek}

theorem option1Body_ne_nil (p : UInt64 × Option1CiphertextBlock R) : option1Body dalek p ≠ [] :=
  u64LeBytes_append_ne_nil _ _

omit [AddCommGroup R] [Module DalekScalar R] in
/-- The first entry of a block that passes the check. -/
theorem exists_first_entry {block : Option1CiphertextBlock R} (hok : block.Ok) :
    ∃ e es, block.entries = e :: es ∧ e.2 ≠ 0 ∧ e.2.toNat ≤ option1PointPayloadSize := by
  rcases entriesOk_of_ok hok with ⟨⟨hpos, -⟩, hlengths⟩
  rcases List.exists_cons_of_length_pos hpos with ⟨e, es, hes⟩
  exact ⟨e, es, hes, hlengths e (by rw [hes]; exact List.mem_cons_self)⟩

/-- A list that cannot be mistaken is the only one with its transcript. -/
theorem eq_of_unmistakable (hdalek : Function.Injective dalek.compress)
    {as bs : List (UInt64 × Option1CiphertextBlock R)} (hok : ∀ p ∈ as, p.2.Ok)
    (hok' : ∀ p ∈ bs, p.2.Ok) (hunmistakable : Unmistakable dalek as)
    (h : as.flatMap (option1Body dalek) = bs.flatMap (option1Body dalek)) : as = bs := by
  rcases hunmistakable with rfl | ⟨⟨index, block⟩, rfl, hone, hbegins, hcontains⟩
  · rcases bs with _ | ⟨b, bs⟩
    · rfl
    · exact absurd (List.append_eq_nil_iff.mp h.symm).1 (option1Body_ne_nil b)
  rcases bs with _ | ⟨⟨index', block'⟩, bs⟩
  · exact absurd (List.append_eq_nil_iff.mp h).1 (option1Body_ne_nil _)
  have hblock : block.Ok := hok _ List.mem_cons_self
  have hblock' : block'.Ok := hok' _ List.mem_cons_self
  rcases exists_first_entry hblock with ⟨e, es, hes, -⟩
  rcases exists_first_entry hblock' with ⟨e', es', hes', -⟩
  -- the first point of the other list is the only one of this
  have hlast : es = [] := by
    have hcount := entries_length hblock
    rw [hes, hone, List.length_cons] at hcount
    exact List.length_eq_zero_iff.mp (by omega)
  simp only [List.flatMap_cons, List.flatMap_nil, List.append_nil, option1Body,
    List.append_assoc, hes, hes', hlast] at h
  rcases selfDelimiting_u64 trivial trivial h with ⟨hindex, h⟩
  rcases selfDelimiting_vector hdalek trivial trivial h with ⟨hc1, h⟩
  rcases selfDelimiting_entry hdalek trivial trivial h with ⟨hentry, h⟩
  -- what is left is a selector string on one side, and may be more on the other
  have hnomore : es' = [] := by
    rcases es' with _ | ⟨e2, es'⟩
    · rfl
    · have he2 := (entriesOk_of_ok hblock').2 e2
        (by rw [hes']; exact List.mem_cons_of_mem _ List.mem_cons_self)
      rw [List.flatMap_cons, List.append_assoc] at h
      exact absurd ⟨e2, _, he2, h⟩ hbegins
  rw [hnomore, List.flatMap_nil, List.nil_append] at h
  have hnoblock : bs = [] := by
    rcases bs with _ | ⟨⟨index2, block2⟩, bs⟩
    · rfl
    · rcases exists_first_entry (hok' _ (List.mem_cons_of_mem _ List.mem_cons_self)) with
        ⟨e2, es2, hes2, he2⟩
      simp only [List.flatMap_cons, option1Body, List.append_assoc] at h
      rw [hes2, List.flatMap_cons, List.append_assoc] at h
      exact absurd ⟨_, index2, block2.c1, e2, _, he2, h⟩ hcontains
  rw [hnoblock, List.flatMap_nil, List.append_nil] at h
  rw [hnoblock, hindex, option1_eq hblock hblock' hc1 (by rw [hes, hes', hlast, hnomore, hentry]) h]

theorem flatMap_option1Body_cons (index : UInt64) (block : Option1CiphertextBlock R)
    (as : List (UInt64 × Option1CiphertextBlock R)) :
    ((index, block) :: as).flatMap (option1Body dalek) =
      u64LeBytes index ++ ((dalek.compress block.c1).toList ++
        (block.entries.flatMap (entryBytes dalek) ++ (block.selectorCiphertext ++
          as.flatMap (option1Body dalek)))) := by
  simp only [List.flatMap_cons, option1Body, List.append_assoc]

/-- A first block with these entries shares its transcript with the list that has only a first
part of the entries in it, and the rest for its selectors or for what follows. -/
theorem mistaken {index : UInt64} {block : Option1CiphertextBlock R}
    {as : List (UInt64 × Option1CiphertextBlock R)} (entries : List ((R × R) × UInt8))
    (selectors : List UInt8) (bs : List (UInt64 × Option1CiphertextBlock R))
    (hentries : EntriesOk option1PointPayloadSize entries) (hbs : ∀ p ∈ bs, p.2.Ok)
    (hbytes : block.entries.flatMap (entryBytes dalek) ++ (block.selectorCiphertext ++
        as.flatMap (option1Body dalek)) =
      entries.flatMap (entryBytes dalek) ++ (selectors ++ bs.flatMap (option1Body dalek)))
    (hne : block.entries ≠ entries ∨ as.length ≠ bs.length) :
    ∃ bs : List (UInt64 × Option1CiphertextBlock R), (∀ p ∈ bs, p.2.Ok) ∧
      ((index, block) :: as).flatMap (option1Body dalek) = bs.flatMap (option1Body dalek) ∧
      (index, block) :: as ≠ bs := by
  refine ⟨(index, .ofEntries block.c1 entries selectors) :: bs, ?_, ?_, ?_⟩
  · rw [List.forall_mem_cons]
    exact ⟨packedBlockOk_ofEntries.mpr hentries, hbs⟩
  · have hread : (Option1CiphertextBlock.ofEntries block.c1 entries selectors).entries = entries :=
      entries_ofEntries block.c1 entries
    rw [flatMap_option1Body_cons, flatMap_option1Body_cons, hbytes, hread]
    rfl
  · intro heq
    rw [List.cons.injEq, Prod.mk.injEq] at heq
    rcases hne with hne | hne
    · refine hne ?_
      rw [heq.1.2]
      exact entries_ofEntries block.c1 entries
    · exact hne (congrArg List.length heq.2)

/-- A list of another kind shares its transcript with a different one. -/
theorem exists_mistaken {as : List (UInt64 × Option1CiphertextBlock R)}
    (hok : ∀ p ∈ as, p.2.Ok) (hmistakable : ¬Unmistakable dalek as) :
    ∃ bs : List (UInt64 × Option1CiphertextBlock R), (∀ p ∈ bs, p.2.Ok) ∧
      as.flatMap (option1Body dalek) = bs.flatMap (option1Body dalek) ∧ as ≠ bs := by
  rcases as with _ | ⟨⟨index, block⟩, as⟩
  · exact absurd (Or.inl rfl) hmistakable
  have hblock : block.Ok := hok _ List.mem_cons_self
  have hall := entriesOk_of_ok hblock
  rcases exists_first_entry hblock with ⟨e, es, hes, he⟩
  have hfirst : EntriesOk option1PointPayloadSize [e] := entriesOk_singleton he
  have hempty : ∀ p ∈ ([] : List (UInt64 × Option1CiphertextBlock R)), p.2.Ok :=
    fun p hp => absurd hp List.not_mem_nil
  rcases as with _ | ⟨a, as⟩
  · rcases es with _ | ⟨e2, es⟩
    · have hone : block.c2Points.length = 1 := by
        rw [← entries_length hblock, hes]
        rfl
      -- a single point can be mistaken by its selectors only
      have hstring : BeginsWithEntry dalek block.selectorCiphertext ∨
          ContainsHead dalek block.selectorCiphertext := by
        by_contra hneither
        rw [not_or] at hneither
        exact hmistakable (Or.inr ⟨_, rfl, hone, hneither.1, hneither.2⟩)
      rcases hstring with ⟨e2, rest, he2, hrest⟩ | ⟨before, index2, c1, e2, rest, he2, hrest⟩
      · -- the selectors are read as a second point
        refine mistaken [e, e2] rest []
          ⟨⟨by simp, by simp⟩, ?_⟩ hempty ?_ (Or.inl ?_)
        · rw [List.forall_mem_cons, List.forall_mem_singleton]
          exact ⟨he, he2⟩
        · simp only [hes, hrest, List.flatMap_cons, List.flatMap_nil, List.append_nil,
            List.append_assoc]
        · rw [hes]
          exact fun h => absurd (congrArg List.length h) (by simp)
      · -- the selectors are read as the end of the block, and a second one
        have hnext : (Option1CiphertextBlock.ofEntries c1 [e2] rest).entries = [e2] :=
          entries_ofEntries c1 [e2]
        refine mistaken [e] before [(index2, .ofEntries c1 [e2] rest)] hfirst ?_ ?_
          (Or.inr (by simp))
        · rw [List.forall_mem_singleton]
          exact packedBlockOk_ofEntries.mpr (entriesOk_singleton he2)
        · rw [flatMap_option1Body_cons, hnext, hes, hrest]
          simp only [List.flatMap_cons, List.flatMap_nil, List.append_nil]
          rfl
    · -- the points behind the first are read as selectors
      refine mistaken [e] ((e2 :: es).flatMap (entryBytes dalek) ++ block.selectorCiphertext) []
        hfirst hempty ?_ (Or.inl ?_)
      · simp only [hes, List.flatMap_cons, List.flatMap_nil, List.append_nil, List.append_assoc]
      · rw [hes]
        exact fun h => absurd (congrArg List.length h) (by simp)
  · -- the blocks behind the first are read as selectors
    refine mistaken block.entries
      (block.selectorCiphertext ++ (a :: as).flatMap (option1Body dalek)) [] hall hempty ?_
      (Or.inr (by simp))
    rw [List.flatMap_nil, List.append_nil]

/-- The lists that are the only ones with their transcripts. -/
theorem unmistakable_iff (hdalek : Function.Injective dalek.compress)
    {as : List (UInt64 × Option1CiphertextBlock R)} (hok : ∀ p ∈ as, p.2.Ok) :
    (∀ bs : List (UInt64 × Option1CiphertextBlock R), (∀ p ∈ bs, p.2.Ok) →
      as.flatMap (option1Body dalek) = bs.flatMap (option1Body dalek) → as = bs) ↔
      Unmistakable dalek as := by
  constructor
  · intro honly
    by_contra hmistakable
    rcases exists_mistaken hok hmistakable with ⟨bs, hbs, hbytes, hne⟩
    exact hne (honly bs hbs hbytes)
  · exact fun hunmistakable bs hbs hbytes =>
      eq_of_unmistakable hdalek hok hbs hunmistakable hbytes

end Ambiguity

section Presented

omit [AddCommGroup R] [Module DalekScalar R] in
theorem statements_ok {blocks : List (ChallengedBlock (Option1CiphertextBlock R) D)}
    (hok : ∀ b ∈ blocks, b.block.Ok) :
    ∀ p ∈ blocks.map ChallengedBlock.statement, p.2.Ok := by
  rw [List.forall_mem_map]
  exact hok

/-- Two lists with one transcript have the same blocks exactly when they have the same shape.
A list is the only one with its transcript exactly when it has no block, or a single point
whose selectors could not be a point, and do not contain the head of a block. -/
theorem option1_transcript_binds_iff (merkle : MerkleHashes D) (dalek : Dalek R)
    (hdalek : Function.Injective dalek.compress) (context : List UInt8)
    (commitment : Option1FileCommitment R D)
    (blocks : List (ChallengedBlock (Option1CiphertextBlock R) D))
    (hok : ∀ b ∈ blocks, b.block.Ok) :
    (∀ blocks' : List (ChallengedBlock (Option1CiphertextBlock R) D),
      (∀ b ∈ blocks', b.block.Ok) →
      option1BatchTranscript merkle dalek blocks context commitment =
        option1BatchTranscript merkle dalek blocks' context commitment →
      (blocks.map ChallengedBlock.statement = blocks'.map ChallengedBlock.statement ↔
        blocks.map (fun b => b.block.shape) = blocks'.map fun b => b.block.shape)) ∧
    ((∀ blocks' : List (ChallengedBlock (Option1CiphertextBlock R) D),
      (∀ b ∈ blocks', b.block.Ok) →
      option1BatchTranscript merkle dalek blocks context commitment =
        option1BatchTranscript merkle dalek blocks' context commitment →
      blocks.map ChallengedBlock.statement = blocks'.map ChallengedBlock.statement) ↔
        Unmistakable dalek (blocks.map ChallengedBlock.statement)) := by
  have hshapes : ∀ bs : List (ChallengedBlock (Option1CiphertextBlock R) D),
      (bs.map ChallengedBlock.statement).map (fun p => p.2.shape) =
        bs.map fun b => b.block.shape := fun bs => by rw [List.map_map]; rfl
  refine ⟨fun blocks' hok' h => ?_, ?_⟩
  · rw [option1BatchTranscript_eq, option1BatchTranscript_eq, List.append_cancel_left_eq] at h
    constructor
    · intro hsame
      rw [← hshapes, hsame, hshapes]
    · intro hshape
      rw [← hshapes, ← hshapes blocks'] at hshape
      exact eq_of_shape hdalek (statements_ok hok) (statements_ok hok') hshape h
  · rw [← unmistakable_iff hdalek (statements_ok hok)]
    constructor
    · intro honly bs hbs hbytes
      -- any list of blocks is presented with some paths
      have hpresent : (bs.map fun p => (⟨p.1, p.2, []⟩ : ChallengedBlock _ D)).map
          ChallengedBlock.statement = bs := by
        rw [List.map_map]
        exact List.map_id' bs
      have h := honly (bs.map fun p => ⟨p.1, p.2, []⟩)
        (by rw [List.forall_mem_map]; exact hbs)
        (by rw [option1BatchTranscript_eq, option1BatchTranscript_eq, hpresent, hbytes])
      rwa [hpresent] at h
    · intro honly blocks' hok' h
      rw [option1BatchTranscript_eq, option1BatchTranscript_eq, List.append_cancel_left_eq] at h
      exact honly _ (statements_ok hok') h

end Presented

end Option1

section Example

theorem lineDalek_compress_injective : Function.Injective lineDalek.compress := fun p q h => by
  have hdecode := congrArg lineDalek.decompress h
  rwa [lineDalek_decompress, lineDalek_decompress, Option.some.injEq] at hdecode

/-- Accountable transcripts over the scalar line. -/
theorem accountable_transcripts_bind_line :
    (∀ block block' : PackedBlock DalekScalar,
      packedBlockOk accountablePointPayloadSize block = true →
      packedBlockOk accountablePointPayloadSize block' = true →
      accountableLeafPreimage lineDalek block = accountableLeafPreimage lineDalek block' →
      block = block') ∧
    (∀ (D : Type) (proofContext : List UInt8) (filePublicKey : DalekScalar)
      (blocks blocks' : List (ChallengedBlock (PackedBlock DalekScalar) D)),
      (∀ b ∈ blocks, packedBlockOk accountablePointPayloadSize b.block = true) →
      (∀ b ∈ blocks', packedBlockOk accountablePointPayloadSize b.block = true) →
      accountableBatchTranscript lineDalek blocks proofContext filePublicKey =
        accountableBatchTranscript lineDalek blocks' proofContext filePublicKey →
      blocks.map ChallengedBlock.statement = blocks'.map ChallengedBlock.statement) ∧
    ∀ (D : Type) (digest : Bytes 64)
      (blocks : List (ChallengedBlock (PackedBlock DalekScalar) D)),
      blocks.length ≤ 2 ^ 64 →
      (∀ b ∈ blocks, packedBlockOk accountablePointPayloadSize b.block = true) →
      ∀ bi b j bi' b' j', blocks[bi]? = some b → j < b.block.c2Points.length →
        blocks[bi']? = some b' → j' < b'.block.c2Points.length → (bi, j) ≠ (bi', j') →
        accountableCoefficientPreimage digest bi b.index j ≠
          accountableCoefficientPreimage digest bi' b'.index j' :=
  accountable_transcripts_bind lineDalek lineDalek_compress_injective

/-- One block of two points, without selectors. -/
def twoPointBlocks : List (ChallengedBlock (Option1CiphertextBlock DalekScalar) ℕ) :=
  [⟨0, .ofEntries 1 [((1, 2), 31), ((3, 5), 7)] [], []⟩]

/-- One block of the first point, whose selectors are what the second was written as. -/
def onePointBlocks : List (ChallengedBlock (Option1CiphertextBlock DalekScalar) ℕ) :=
  [⟨0, .ofEntries 1 [((1, 2), 31)] (entryBytes lineDalek ((3, 5), 7)), []⟩]

theorem twoPointBlocks_ok : ∀ b ∈ twoPointBlocks, b.block.Ok := by
  have hfirst : (31 : UInt8) ≠ 0 ∧ (31 : UInt8).toNat ≤ 31 := by decide
  have hsecond : (7 : UInt8) ≠ 0 ∧ (7 : UInt8).toNat ≤ 31 := by decide
  rw [twoPointBlocks, List.forall_mem_singleton]
  refine packedBlockOk_ofEntries.mpr ⟨⟨by simp, by simp⟩, ?_⟩
  rw [List.forall_mem_cons, List.forall_mem_singleton]
  exact ⟨hfirst, hsecond⟩

theorem onePointBlocks_ok : ∀ b ∈ onePointBlocks, b.block.Ok := by
  have hfirst : (31 : UInt8) ≠ 0 ∧ (31 : UInt8).toNat ≤ 31 := by decide
  rw [onePointBlocks, List.forall_mem_singleton]
  exact packedBlockOk_ofEntries.mpr (entriesOk_singleton hfirst)

/-- What the transcript of the two points determines. -/
theorem option1_transcript_two_points :
    (∀ blocks' : List (ChallengedBlock (Option1CiphertextBlock DalekScalar) ℕ),
      (∀ b ∈ blocks', b.block.Ok) →
      option1BatchTranscript lineMerkle lineDalek twoPointBlocks [] lineCommitment =
        option1BatchTranscript lineMerkle lineDalek blocks' [] lineCommitment →
      (twoPointBlocks.map ChallengedBlock.statement = blocks'.map ChallengedBlock.statement ↔
        twoPointBlocks.map (fun b => b.block.shape) = blocks'.map fun b => b.block.shape)) ∧
    ((∀ blocks' : List (ChallengedBlock (Option1CiphertextBlock DalekScalar) ℕ),
      (∀ b ∈ blocks', b.block.Ok) →
      option1BatchTranscript lineMerkle lineDalek twoPointBlocks [] lineCommitment =
        option1BatchTranscript lineMerkle lineDalek blocks' [] lineCommitment →
      twoPointBlocks.map ChallengedBlock.statement = blocks'.map ChallengedBlock.statement) ↔
        Unmistakable lineDalek (twoPointBlocks.map ChallengedBlock.statement)) :=
  option1_transcript_binds_iff lineMerkle lineDalek lineDalek_compress_injective []
    lineCommitment twoPointBlocks twoPointBlocks_ok

/-- Both pass the checks and have one transcript, and they are not the same blocks. -/
theorem option1_transcript_two_readings :
    Function.Injective lineDalek.compress ∧
      (∀ b ∈ twoPointBlocks, b.block.Ok) ∧ (∀ b ∈ onePointBlocks, b.block.Ok) ∧
      option1BatchTranscript lineMerkle lineDalek twoPointBlocks [] lineCommitment =
        option1BatchTranscript lineMerkle lineDalek onePointBlocks [] lineCommitment ∧
      twoPointBlocks.map ChallengedBlock.statement ≠
        onePointBlocks.map ChallengedBlock.statement := by
  refine ⟨lineDalek_compress_injective, twoPointBlocks_ok, onePointBlocks_ok, ?_, fun h => ?_⟩
  · rw [option1BatchTranscript_eq, option1BatchTranscript_eq, twoPointBlocks, onePointBlocks]
    simp only [List.map_cons, List.map_nil, ChallengedBlock.statement, List.flatMap_cons,
      List.flatMap_nil, option1Body_ofEntries, List.append_nil]
  · have hcount := congrArg (List.map fun p => p.2.c2Points.length) h
    exact absurd hcount (by decide)

end Example

end Ebut
