import Ebut.Core.BatchedEq
import Ebut.Library.Extraction
import Mathlib.LinearAlgebra.StdBasis

/-!
# Genuine Tokens and Cheating Clients

What a client of the server may legitimately hold, and what the analysis lets
it do. A genuine token is a BBS+ signature under the server's key; it carries the
signature equation as a field. The client shows the token re-randomised by a
factor it chooses, with the two responses that go with it, and everything else
it sends is arbitrary.

A challenge set is what the rewinding argument needs: five distinct challenges,
none of them zero.

## Main definitions

* `DailyToken`: A signature on `(x, k, c, t, E)` under the daily key.
* `MasterToken`: A signature on `(x, c_max, E)` under the master key.
* `Possession`: The randomisation of a shown token.
* `ChallengeSet`: Five or more distinct non-zero challenges.
* `unitGenerators`: Generators that are the standard basis.
* `planeDalek`: A Ristretto group with independent bases.

## Theorems

* `independent_pair`: Two of the generators are independent.
* `exists_ne_zero`: A point that moves by a generator can avoid the identity.
* `bridge_affine`: A response in a bridge is affine in the challenge.
* `pairing_of_shown`: A shown token passes the pairing check.
* `unitGenerators_independent`: The standard basis is independent.
-/

namespace Ebut

open Extraction

variable {G1 G2 : Type} [AddCommGroup G1] [Module Scalar G1]

/-- A genuine BBS+ signature on a daily token. -/
structure DailyToken (generators : Generators G1 G2) (sk : Scalar) where
  a : G1
  e : Scalar
  sig : Scalar
  x : Scalar
  k : Scalar
  c : Scalar
  t : Scalar
  eMax : Scalar
  valid : (e + sk) • a = generators.g1 + sig • generators.h 0 + x • generators.h 1 +
    k • generators.h 2 + c • generators.h 3 + t • generators.h 4 + eMax • generators.h 5

/-- A genuine BBS+ signature on a master token. -/
structure MasterToken (generators : Generators G1 G2) (sk : Scalar) where
  a : G1
  e : Scalar
  sig : Scalar
  x : Scalar
  cMax : Scalar
  eMax : Scalar
  valid : (e + sk) • a = generators.g1 + sig • generators.h 0 + x • generators.h 1 +
    cMax • generators.h 3 + eMax • generators.h 5

/-- How a token is shown: `A' = r1 * A`, with the blinders of the responses
`z_e = rho_e + c * e` and `z_r1 = rho_r + c * r1`. -/
structure Possession where
  r1 : Scalar
  rhoE : Scalar
  rhoR : Scalar
  r1_ne : r1 ≠ 0

/-- At least five pairwise distinct non-zero challenges. -/
structure ChallengeSet where
  challenges : Finset Scalar
  five_le : 5 ≤ challenges.card
  zero_notMem : 0 ∉ challenges

section Independence

variable {generators : Generators G1 G2} (hind : LinearIndependent Scalar generators.points)

include hind

/-- Two distinct generators `h_i`, `h_j` are independent. -/
theorem independent_pair {i j : Fin 6} (hij : i ≠ j) :
    LinearIndependent Scalar ![generators.h i, generators.h j] := by
  have hinj : Function.Injective ![Fin.succ i, Fin.succ j] := by
    intro a b hab
    fin_cases a <;> fin_cases b
    · rfl
    · exact absurd (Fin.succ_injective _ hab) hij
    · exact absurd (Fin.succ_injective _ hab.symm) hij
    · rfl
  have hpair := hind.comp _ hinj
  have heq : generators.points ∘ ![Fin.succ i, Fin.succ j] =
      ![generators.h i, generators.h j] := by
    ext a
    fin_cases a <;> rfl
  rwa [heq] at hpair

theorem h_ne_zero (i : Fin 6) : generators.h i ≠ 0 := hind.ne_zero i.succ

/-- A point that moves by a generator is kept away from the identity by one of two
values. -/
theorem exists_ne_zero {point : Scalar → G1} (hmoves : point 1 = point 0 + generators.h 0) :
    ∃ σ, point σ ≠ 0 := by
  by_cases h0 : point 0 = 0
  · refine ⟨1, fun h1 => h_ne_zero hind 0 ?_⟩
    rwa [hmoves, h0, zero_add] at h1
  · exact ⟨0, h0⟩

/-- A bridge over two of the generators, at every challenge of the set: the bridged
commitment opens over them, and the first response is affine in the challenge. -/
theorem bridge_affine {i j : Fin 6} (hij : i ≠ j) {poss : Possession} {challenges : ChallengeSet}
    {X t tScale : G1} {z w : Scalar → Scalar}
    (h : ∀ c ∈ challenges.challenges, z c • generators.h i + w c • generators.h j - t =
      (poss.rhoR + c * poss.r1) • X - tScale) :
    ∃ ξ ξ' τ : Scalar, X = ξ • generators.h i + ξ' • generators.h j ∧
      ∀ c ∈ challenges.challenges, z c = τ + c * (poss.r1 * ξ) := by
  have hcard : 2 ≤ challenges.challenges.card := by
    have h5 := challenges.five_le
    omega
  -- the part of the equation that does not depend on the challenge is one point
  refine affine_response (independent_pair hind hij) poss.r1_ne hcard
    (D := t - tScale + poss.rhoR • X) (w := w) ?_
  intro c hc
  rw [sub_eq_iff_eq_add.mp (h c hc)]
  module

end Independence

/-- A re-randomised signature passes the pairing check of its key. -/
theorem pairing_of_shown {GT : Type} [AddCommGroup G2] [Module Scalar G2] [AddCommGroup GT]
    [Module Scalar GT] [DecidableEq GT] (bls : Blstrs G1 G2 GT) {g2 pk : G2} {sk : Scalar}
    (hpk : pk = sk • g2) (p : G1) :
    bls.pairingProductIsIdentity p pk (-(sk • p)) g2 = true := by
  unfold Blstrs.pairingProductIsIdentity
  rw [decide_eq_true_eq, hpk, map_smul, map_neg, map_smul, LinearMap.neg_apply,
    LinearMap.smul_apply, add_neg_cancel]

/-- The points of a concrete instance: the standard basis of an eight-dimensional
space. The last one is left for the base of an epoch nullifier. -/
abbrev UnitSpace := Fin 8 → Scalar

/-- Generators that are the first seven standard basis vectors. -/
def unitGenerators : Generators UnitSpace Scalar :=
  Generators.ofPoints (Pi.single 0 1) 1 fun i => Pi.single i.succ.castSucc 1

theorem unitBasis_independent :
    LinearIndependent Scalar (fun i : Fin 8 => (Pi.single i 1 : UnitSpace)) :=
  Pi.linearIndependent_single_one (Fin 8) Scalar

theorem unitGenerators_independent : LinearIndependent Scalar unitGenerators.points := by
  have hpoints : unitGenerators.points = (fun i => Pi.single i 1) ∘ Fin.castSucc := by
    ext i
    refine Fin.cases ?_ ?_ i <;> intros <;> rfl
  rw [hpoints]
  exact unitBasis_independent.comp _ (Fin.castSucc_injective 7)

/-- The pairing groups of the concrete instance. Every message hashes to the
last basis vector. -/
def unitBlstrs : Blstrs UnitSpace Scalar Scalar where
  g1Generator := Pi.single 0 1
  g2Generator := 1
  g1Compressed := fun _ => leArray 48 0
  g2Compressed := fun _ => leArray 96 0
  hashToCurve := fun _ _ => Pi.single 7 1
  pairing := 0
  gtDebug := fun _ => []

/-- The nullifier base of the concrete instance completes its generators. -/
theorem unitBasis_cons_independent : LinearIndependent Scalar
    (Fin.cons (Pi.single 7 1) unitGenerators.points : Fin 8 → UnitSpace) := by
  have hpoints : (Fin.cons (Pi.single 7 1) unitGenerators.points : Fin 8 → UnitSpace) =
      (fun i => Pi.single i 1) ∘ ![7, 0, 1, 2, 3, 4, 5, 6] := by
    ext i
    fin_cases i <;> rfl
  rw [hpoints]
  exact unitBasis_independent.comp _ (by decide)

/-- The points of a Ristretto group with two independent bases. -/
abbrev Plane := Fin 2 → DalekScalar

/-- The Ristretto side of the concrete instance. Points of the first axis are encoded by
their coordinate, and bytes hash to a base by their parity. -/
def planeDalek : Dalek Plane where
  basepoint := Pi.single 0 1
  blinding := Pi.single 1 1
  compress := fun p => leArray 32 (p 0).val
  decompress := fun bytes =>
    if LittleEndian.leNat bytes.toList < dalekOrder then
      some (Pi.single 0 (LittleEndian.leNat bytes.toList : DalekScalar))
    else none
  fromUniformBytes := fun bytes =>
    if LittleEndian.leNat bytes.toList % 2 = 0 then Pi.single 0 1 else Pi.single 1 1
  rangeFromBytes := fun _ => .ok ()
  verifySingle := fun _ _ _ _ => .ok ()

theorem planeDalek_independent :
    LinearIndependent DalekScalar ![planeDalek.basepoint, planeDalek.blinding] := by
  have hpoints : ![planeDalek.basepoint, planeDalek.blinding] =
      fun i : Fin 2 => (Pi.single i 1 : Plane) := by
    ext i
    fin_cases i <;> rfl
  rw [hpoints]
  exact Pi.linearIndependent_single_one (Fin 2) DalekScalar

/-- An equality proof with all bytes zero. -/
def blankEqualityProof : BatchedEqualityProof :=
  ⟨leArray 16 0, leArray 32 0, leArray 32 0, leArray 32 0, leArray 32 0, [], 32⟩

/-- A token shown without blinding. -/
def unitPossession : Possession := ⟨1, 0, 0, one_ne_zero⟩

def unitKeys : ServerKeys unitGenerators where
  skMaster := 1
  pkMaster := unitGenerators.g2
  skDaily := 1
  pkDaily := unitGenerators.g2
  pkMaster_eq := (one_smul _ _).symm
  pkDaily_eq := (one_smul _ _).symm
  skMaster_ne := unitPossession.r1_ne
  skDaily_ne := unitPossession.r1_ne

/-- The challenges one to five. -/
def firstChallenges : ChallengeSet where
  challenges := {1, 2, 3, 4, 5}
  five_le := by decide +kernel
  zero_notMem := by decide +kernel

end Ebut
