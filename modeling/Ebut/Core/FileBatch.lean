import Ebut.Core.FileMerkle

/-!
# Batch Proofs of Packed Blocks

The accountable and the Option 1 file proofs batch their challenged blocks in
the same way. A packed block is one ElGamal header with up to sixteen encrypted
points and as many commitments to the same plaintexts; the proof aggregates all
points with random coefficients and shows one opening of the aggregate

  `C1 = r * B`, `C2 - K = r * X - s * H`.

The two modules differ in the bases, the coefficients and the challenge, which
are parameters here.

## Main definitions

* `PackedBlock`: A packed ciphertext block.
* `WitnessBlock`: The encryption randomness and the blindings of a block.
* `BatchBases`: The bases of the two equations.
* `aggregateStatement`, `aggregateWitness`: The aggregation loops.
* `packedBlockOk`: The structural check of a block.
* `batchProve`, `batchVerify`: The prover and the verifier.
-/

namespace Ebut

variable {R : Type} [AddCommGroup R] [Module DalekScalar R]

/-- A packed ciphertext block. -/
structure PackedBlock (R : Type) where
  c1 : R
  c2Points : List R
  plaintextCommitments : List R
  pointLengths : List UInt8

/-- The prover's knowledge of a block. -/
structure WitnessBlock where
  encryptionRandomness : DalekScalar
  commitmentBlindings : List DalekScalar

/-- The aggregated proof. -/
structure BatchProof (R : Type) where
  a1 : R
  a2 : R
  zR : DalekScalar
  zMinusS : DalekScalar

/-- The base of the headers, the file public key and the commitment base. -/
structure BatchBases (R : Type) where
  base : R
  publicKey : R
  h : R

/-- The inner loop of the statement: the coefficients of a row and the differences
`C2 - K` they scale. -/
def aggregateRow (row : List DalekScalar) (c2Points commitments : List R)
    (acc : DalekScalar × R) : DalekScalar × R :=
  ((row.zip c2Points).zip commitments).foldl
    (fun acc p => (acc.1 + p.1.1, acc.2 + p.1.1 • (p.1.2 - p.2))) acc

/-- The outer loop of the statement at one block. -/
def aggregateBlock (acc : R × R) (p : PackedBlock R × List DalekScalar) : R × R :=
  -- one header carries all points of the block, so it is scaled by the sum of their coefficients
  let inner := aggregateRow p.2 p.1.c2Points p.1.plaintextCommitments (0, acc.2)
  (acc.1 + inner.1 • p.1.c1, inner.2)

/-- `aggregate_statement`: the points `C1_bar` and `D_bar`. -/
def aggregateStatement (blocks : List (PackedBlock R)) (coeffs : List (List DalekScalar)) :
    R × R :=
  (blocks.zip coeffs).foldl aggregateBlock (0, 0)

/-- The inner loop of the witness. -/
def witnessRow (row blindings : List DalekScalar) (acc : DalekScalar × DalekScalar) :
    DalekScalar × DalekScalar :=
  (row.zip blindings).foldl (fun acc p => (acc.1 + p.1, acc.2 - p.1 * p.2)) acc

/-- The outer loop of the witness at one block. -/
def witnessBlock (acc : DalekScalar × DalekScalar) (p : List DalekScalar × WitnessBlock) :
    DalekScalar × DalekScalar :=
  let inner := witnessRow p.1 p.2.commitmentBlindings (0, acc.2)
  (acc.1 + inner.1 * p.2.encryptionRandomness, inner.2)

/-- The scalars `r_bar` and `minus_s_bar`. The loop also zips the blocks, so it
stops at the shortest of the three lists. -/
def aggregateWitness (coeffs : List (List DalekScalar)) (blocks : List (PackedBlock R))
    (witnesses : List WitnessBlock) : DalekScalar × DalekScalar :=
  (((coeffs.zip blocks).zip witnesses).map fun p => (p.1.1, p.2)).foldl witnessBlock (0, 0)

/-- The structural check of a block: one to sixteen points, as many commitments
and lengths, every length between one and the payload of a point. -/
def packedBlockOk (payload : ℕ) (block : PackedBlock R) : Bool :=
  !(block.c2Points.isEmpty
    || decide (block.c2Points.length ≠ block.plaintextCommitments.length)
    || decide (block.c2Points.length ≠ block.pointLengths.length)
    || decide (block.c2Points.length > 16))
  && !(block.pointLengths.any fun l => decide (l = 0) || decide (l.toNat > payload))

/-- The prover. `alphaR` and `alphaS` are its randomness, `challenge` the hash of
the aggregated statement and the first messages. -/
def batchProve (bases : BatchBases R) (challenge : R → R → R → R → DalekScalar)
    (coeffs : List (List DalekScalar)) (blocks : List (PackedBlock R))
    (witnesses : List WitnessBlock) (alphaR alphaS : DalekScalar) : BatchProof R :=
  let statement := aggregateStatement blocks coeffs
  let witness := aggregateWitness coeffs blocks witnesses
  let a1 := alphaR • bases.base
  let a2 := alphaR • bases.publicKey + alphaS • bases.h
  let c := challenge statement.1 statement.2 a1 a2
  { a1, a2, zR := alphaR + c * witness.1, zMinusS := alphaS + c * witness.2 }

/-- The verifier, after the checks on the bases. -/
def batchVerify [DecidableEq R] (bases : BatchBases R) (payload : ℕ)
    (challenge : R → R → R → R → DalekScalar) (coeffs : List (List DalekScalar))
    (blocks : List (PackedBlock R)) (proof : BatchProof R) : Bool :=
  blocks.all (packedBlockOk payload) &&
    (let statement := aggregateStatement blocks coeffs
     -- the challenge is recomputed over the first messages that the proof names
     let c := challenge statement.1 statement.2 proof.a1 proof.a2
     decide (proof.zR • bases.base = proof.a1 + c • statement.1) &&
       decide (proof.zR • bases.publicKey + proof.zMinusS • bases.h =
         proof.a2 + c • statement.2))

end Ebut
