import Ebut.Core.Hash
import Ebut.Core.Msm

/-!
# Generators and Server Keys

The BBS+ generators with their precomputed tables, and the two signing keys of
the server. Both have a single constructor in the code, and both carry what that
constructor establishes: the tables are tables of the generators, and the public
keys belong to the secret ones.

The prepared forms of points of the second group only speed the pairing up, and
stand for the points themselves.

## Main definitions

* `Generators`: The generators and their tables.
* `Generators.ofPoints`: Generators with given points.
* `Generators.compute`: The generators of the process.
* `Generators.points`: The seven generators of the first group as one family.
* `ServerKeys`: The master and the daily key pair.
* `hashToG1`: Hashing to the first group under a domain separator.
* `computeHCtx`: The context hash of a deployment.
-/

namespace Ebut

open LittleEndian

variable {G1 G2 GT : Type} [AddCommGroup G1] [Module Scalar G1]

/-- BBS+ generators `g1`, `g2` and `h_0 … h_5`, with the fixed-base tables of
those in the first group. -/
structure Generators (G1 G2 : Type) [AddCommGroup G1] where
  g1 : G1
  g2 : G2
  h : Fin 6 → G1
  g1Table : FixedBaseTable G1
  hTables : Fin 6 → FixedBaseTable G1
  g1Table_eq : g1Table = FixedBaseTable.new g1
  hTables_eq : ∀ i, hTables i = FixedBaseTable.new (h i)

/-- Generators with given points and the tables computed from them. -/
def Generators.ofPoints (g1 : G1) (g2 : G2) (h : Fin 6 → G1) : Generators G1 G2 :=
  ⟨g1, g2, h, FixedBaseTable.new g1, fun i => FixedBaseTable.new (h i), rfl, fun _ => rfl⟩

/-- The generators of the first group as one family: `g1`, then `h_0 … h_5`. -/
def Generators.points (generators : Generators G1 G2) : Fin 7 → G1 :=
  Fin.cons generators.g1 generators.h

@[simp]
theorem Generators.g1Table_mul (generators : Generators G1 G2) (s : Scalar) :
    generators.g1Table.mul s = s • generators.g1 := by
  rw [generators.g1Table_eq, mul_new]

@[simp]
theorem Generators.hTables_mul (generators : Generators G1 G2) (i : Fin 6) (s : Scalar) :
    (generators.hTables i).mul s = s • generators.h i := by
  rw [generators.hTables_eq, mul_new]

variable [AddCommGroup G2] [Module Scalar G2] [AddCommGroup GT] [Module Scalar GT]

/-- `hash_to_g1`. -/
def hashToG1 (bls : Blstrs G1 G2 GT) (dst : String) (message : List UInt8) : G1 :=
  bls.hashToCurve message dst.toUTF8.toList

/-- `Generators::compute`. The message of `h_i` is the big-endian `u32` index. -/
def Generators.compute (bls : Blstrs G1 G2 GT) : Generators G1 G2 :=
  Generators.ofPoints bls.g1Generator bls.g2Generator fun i =>
    hashToG1 bls "ACT:BBS:" (leBytes 4 i).reverse

/-- The server's master and daily key pairs, over the generator `g2`. -/
structure ServerKeys (generators : Generators G1 G2) where
  skMaster : Scalar
  pkMaster : G2
  skDaily : Scalar
  pkDaily : G2
  pkMaster_eq : pkMaster = skMaster • generators.g2
  pkDaily_eq : pkDaily = skDaily • generators.g2
  skMaster_ne : skMaster ≠ 0
  skDaily_ne : skDaily ≠ 0

/-- `compute_h_ctx`: the context hash binding every challenge to a deployment. -/
def computeHCtx (sha : Sha2) (bls : Blstrs G1 G2 GT) (appId : String) (pkMaster pkDaily : G2)
    (generators : Generators G1 G2) : Scalar :=
  hashToScalar sha <|
    "ACT:Context".toUTF8.toList ++ appId.toUTF8.toList ++
    (bls.g2Compressed pkMaster).toList ++ (bls.g2Compressed pkDaily).toList ++
    (bls.g1Compressed generators.g1).toList ++ (bls.g2Compressed generators.g2).toList ++
    (List.finRange 6).flatMap fun i => (bls.g1Compressed (generators.h i)).toList

end Ebut
