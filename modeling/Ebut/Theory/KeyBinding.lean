import Ebut.Core.Upload
import Ebut.Library.Extraction
import Ebut.Library.IntegerResponse
import Ebut.Theory.Accountable
import Ebut.Theory.Token

/-!
# Which Key an Upload Is Bound To

The bridge, against a client that answers every 128-bit challenge. Its integer
response is checked modulo the two group orders, whose product is far above the
bound on the response, so the responses to consecutive challenges form an
arithmetic progression of integers. Its step is the secret in both groups.

Two things keep the step from being the canonical `x`. The bound of 385 bits
leaves room for a step of up to 257 bits, while the pairing group sees it modulo
an order of 255 bits: `x + k * r` passes for `k` from minus four to four. And the
Ristretto blinding base is a field of the client's statement that no check
reads, so the client may blind the key as it likes.

## Main definitions

* `SameXStrategy`: First messages, and responses depending on the challenge.
* `SameXAccepted`: Acceptance at every challenge.
* `IsAliasKey`: The keys the bridge cannot tell from `x * G`.
* `forgedSameX`: A strategy for an alias key.

## Theorems

* `response_affine_bls`, `response_affine_ristretto`: The responses in the two groups.
* `aliasKey_of_accepted`: An accepted key is an alias key.
* `forgedSameX_accepts`: Every alias key is accepted.
* `upload_key_bound_iff`: When an upload is bound to the key of `x`.
-/

namespace Ebut

open LittleEndian Extraction IntegerResponse

variable {G1 G2 R D : Type} [AddCommGroup G1] [Module Scalar G1] [AddCommGroup R]
  [Module DalekScalar R]

/-- The responses to one challenge. -/
structure SameXResponses where
  zXLe : List UInt8
  zRBls : Scalar
  zRRistretto : DalekScalar

/-- A client of the bridge: first messages, and responses to every challenge. -/
structure SameXStrategy (G1 R : Type) where
  tBls : G1
  tRistretto : R
  respond : Bytes 16 → SameXResponses

def SameXStrategy.proofAt (strategy : SameXStrategy G1 R) (c : Bytes 16) : SameXProof G1 R where
  tBls := strategy.tBls
  tRistretto := strategy.tRistretto
  cBytes := c
  zXLe := (strategy.respond c).zXLe
  zRBls := (strategy.respond c).zRBls
  zRRistretto := (strategy.respond c).zRRistretto

/-- The verifier accepts at every 128-bit challenge. -/
def SameXAccepted [DecidableEq G1] [DecidableEq R] (strategy : SameXStrategy G1 R)
    (statement : SameXStatement G1 R) : Prop :=
  ∀ c : Bytes 16, (strategy.proofAt c).verifyAt statement c = .ok ()

/-- The integer response to the challenge `n`. -/
def SameXStrategy.response (strategy : SameXStrategy G1 R) (n : ℕ) : ℤ :=
  (leNat (strategy.respond (leArray 16 n)).zXLe : ℤ)

/-- The largest challenge. -/
def lastChallenge : ℕ := 2 ^ 128 - 1

theorem challenge_le (c : Bytes 16) : leNat c.toList ≤ lastChallenge :=
  Nat.le_of_lt_succ ((leNat_toList_lt c).trans_le (by decide))

/-- A key that differs from `x * G` by a multiple of the blinding base, or by up to
four times the order of the other group. -/
def IsAliasKey (base blindBase : R) (x : ℕ) (key : R) : Prop :=
  ∃ k : ℤ, |k| ≤ 4 ∧
    key - (((x : ℤ) + k * blsOrder : ℤ) : DalekScalar) • base ∈
      Submodule.span DalekScalar {blindBase}

section Forward

variable [DecidableEq G1] [DecidableEq R] {strategy : SameXStrategy G1 R}
  {statement : SameXStatement G1 R}

theorem leNat_challenge {n : ℕ} (hn : n ≤ lastChallenge) : leNat (leArray 16 n).toList = n := by
  show leNat (leBytes 16 n) = n
  rw [leNat_leBytes]
  -- a challenge fits in its sixteen bytes
  refine Nat.mod_eq_of_lt (lt_of_le_of_lt hn ?_)
  decide

/-- The bound and the two equations at one challenge. -/
theorem response_spec (hacc : SameXAccepted strategy statement) {n : ℕ}
    (hn : n ≤ lastChallenge) :
    (0 ≤ strategy.response n ∧ strategy.response n < 2 ^ xBridgeZBoundBits) ∧
      (∃ zR : Scalar, ((strategy.response n : ℤ) : Scalar) • statement.blsXBase +
        zR • statement.blsBlindBase =
          strategy.tBls + (n : Scalar) • statement.blsXCommitment) ∧
      ∃ zR : DalekScalar, ((strategy.response n : ℤ) : DalekScalar) • statement.ristrettoXBase +
        zR • statement.ristrettoBlindBase =
          strategy.tRistretto + (n : DalekScalar) • statement.ristrettoXCommitment := by
  rcases (verifyAt_ok _ _).mp (hacc (leArray 16 n)) with ⟨_, _, _, hbound, hbls, hrist⟩
  unfold sameXBlsHolds at hbls
  unfold sameXRistrettoHolds at hrist
  -- the embedding into the Ristretto field reads 64 bytes, which the bound leaves room for
  have hwide : leNat (strategy.proofAt (leArray 16 n)).zXLe < 256 ^ 64 :=
    hbound.trans (by decide +kernel)
  have hchal : n < 256 ^ 64 := lt_of_le_of_lt hn (by decide +kernel)
  have hc : leNat (strategy.proofAt (leArray 16 n)).cBytes.toList = n := leNat_challenge hn
  rw [hc, biguintToBlsScalar_eq, biguintToBlsScalar_eq] at hbls
  rw [hc, biguintToRistrettoScalar_eq hwide, biguintToRistrettoScalar_eq hchal] at hrist
  refine ⟨⟨Int.natCast_nonneg _, ?_⟩, ⟨(strategy.respond (leArray 16 n)).zRBls, ?_⟩,
    ⟨(strategy.respond (leArray 16 n)).zRRistretto, ?_⟩⟩
  · have hcast := Int.ofNat_lt.mpr hbound
    rw [Nat.cast_pow] at hcast
    exact hcast
  · rw [SameXStrategy.response, Int.cast_natCast]
    exact hbls
  · rw [SameXStrategy.response, Int.cast_natCast]
    exact hrist

/-- In the pairing group the responses are affine with slope `x`. -/
theorem response_affine_bls (hacc : SameXAccepted strategy statement)
    (hind : LinearIndependent Scalar ![statement.blsXBase, statement.blsBlindBase])
    {x ρ : Scalar} (hopen : statement.blsXCommitment =
      x • statement.blsXBase + ρ • statement.blsBlindBase) {n : ℕ} (hn : n ≤ lastChallenge) :
    ((strategy.response n : ℤ) : Scalar) = (strategy.response 0 : ℤ) + n * x := by
  rcases (response_spec hacc hn).2.1 with ⟨zn, hn⟩
  rcases (response_spec hacc (Nat.zero_le lastChallenge)).2.1 with ⟨z0, h0⟩
  rw [Nat.cast_zero, zero_smul, add_zero] at h0
  rw [← h0, hopen] at hn
  have heq : ((strategy.response n : ℤ) : Scalar) • statement.blsXBase +
      zn • statement.blsBlindBase =
      ((strategy.response 0 : ℤ) + n * x : Scalar) • statement.blsXBase +
        (z0 + n * ρ) • statement.blsBlindBase := by
    rw [hn]
    module
  -- both sides are openings over the two bases
  exact (pair_unique hind heq).1

/-- In the Ristretto group the equations hold modulo the blinding base. -/
theorem response_mem_ristretto (hacc : SameXAccepted strategy statement) {n : ℕ}
    (hn : n ≤ lastChallenge) :
    ((strategy.response n - strategy.response 0 : ℤ) : DalekScalar) • statement.ristrettoXBase -
      (n : DalekScalar) • statement.ristrettoXCommitment ∈
        Submodule.span DalekScalar {statement.ristrettoBlindBase} := by
  rcases (response_spec hacc hn).2.2 with ⟨zn, hn⟩
  rcases (response_spec hacc (Nat.zero_le lastChallenge)).2.2 with ⟨z0, h0⟩
  rw [Nat.cast_zero, zero_smul, add_zero] at h0
  rw [Submodule.mem_span_singleton]
  refine ⟨z0 - zn, ?_⟩
  have hpoint : (n : DalekScalar) • statement.ristrettoXCommitment =
      ((strategy.response n : ℤ) : DalekScalar) • statement.ristrettoXBase +
        zn • statement.ristrettoBlindBase - strategy.tRistretto := by
    rw [hn, add_sub_cancel_left]
  rw [hpoint, ← h0, Int.cast_sub]
  module

/-- The key is the step of the responses, up to the blinding base. -/
theorem key_sub_step_mem (hacc : SameXAccepted strategy statement) :
    statement.ristrettoXCommitment -
      ((strategy.response 1 - strategy.response 0 : ℤ) : DalekScalar) •
        statement.ristrettoXBase ∈ Submodule.span DalekScalar {statement.ristrettoBlindBase} := by
  have hmem := response_mem_ristretto hacc (n := 1) (by decide)
  rw [Nat.cast_one, one_smul] at hmem
  rw [← neg_sub]
  exact Submodule.neg_mem _ hmem

/-- In the Ristretto group the responses are affine too, unless the base is itself
a multiple of the blinding base. -/
theorem response_affine_ristretto (hacc : SameXAccepted strategy statement)
    (hbase : statement.ristrettoXBase ∉
      Submodule.span DalekScalar {statement.ristrettoBlindBase}) {n : ℕ}
    (hn : n ≤ lastChallenge) :
    ((strategy.response n : ℤ) : DalekScalar) =
      (strategy.response 0 : ℤ) +
        n * ((strategy.response 1 - strategy.response 0 : ℤ) : DalekScalar) := by
  have hmem := Submodule.add_mem _ (response_mem_ristretto hacc hn)
    (Submodule.smul_mem _ (n : DalekScalar) (key_sub_step_mem hacc))
  by_contra hne
  -- A non-zero multiple of the base would lie in the span of the blinding base.
  have hcoeff : ((strategy.response n : ℤ) : DalekScalar) - (strategy.response 0 : ℤ) -
      n * ((strategy.response 1 - strategy.response 0 : ℤ) : DalekScalar) ≠ 0 := by
    intro hzero
    exact hne (by rw [sub_sub, sub_eq_zero] at hzero; exact hzero)
  refine hbase ((Submodule.smul_mem_iff _ hcoeff).mp ?_)
  convert hmem using 1
  rw [Int.cast_sub (strategy.response n)]
  module

/-- Consecutive responses differ by the same amount modulo both orders, so they do
as integers. -/
theorem response_progression (hacc : SameXAccepted strategy statement)
    (hind : LinearIndependent Scalar ![statement.blsXBase, statement.blsBlindBase])
    {x ρ : Scalar} (hopen : statement.blsXCommitment =
      x • statement.blsXBase + ρ • statement.blsBlindBase)
    (hbase : statement.ristrettoXBase ∉
      Submodule.span DalekScalar {statement.ristrettoBlindBase}) :
    strategy.response lastChallenge = strategy.response 0 +
      lastChallenge * (strategy.response 1 - strategy.response 0) := by
  have hlarge : (2 : ℤ) * 2 ^ xBridgeZBoundBits ≤ blsOrder * dalekOrder := by decide +kernel
  -- the two orders together exceed twice the bound, so the congruences are equations
  refine progression_of_coprime orders_coprime hlarge (fun c hc => (response_spec hacc hc).1) ?_ ?_
    le_rfl
  · intro c hc
    have hstep := response_affine_bls hacc hind hopen (n := 1) (by decide)
    rw [← ZMod.intCast_eq_intCast_iff, Int.cast_add, Int.cast_sub, hstep,
      response_affine_bls hacc hind hopen hc, response_affine_bls hacc hind hopen hc.le]
    push_cast
    ring
  · intro c hc
    rw [← ZMod.intCast_eq_intCast_iff, Int.cast_add, response_affine_ristretto hacc hbase hc,
      response_affine_ristretto hacc hbase hc.le]
    push_cast
    ring

omit [AddCommGroup G1] [Module Scalar G1] [AddCommGroup R] [Module DalekScalar R]
  [DecidableEq G1] [DecidableEq R] in
/-- A step that the bound allows is off by at most four orders. -/
theorem multiple_le_four {x : ℕ} (hx : x < 2 ^ 248) {δ k : ℤ}
    (hbound : lastChallenge * |δ| < 2 ^ xBridgeZBoundBits) (hk : δ - x = blsOrder * k) :
    |k| ≤ 4 := by
  have hsmall : |δ| < 5 * blsOrder - 2 ^ 248 := by
    by_contra hlarge
    -- a step of five orders takes the last response past the bound
    have hprod := mul_le_mul_of_nonneg_left (not_lt.mp hlarge) (Int.natCast_nonneg lastChallenge)
    refine absurd (hprod.trans_lt hbound) (not_lt.mpr ?_)
    decide +kernel
  rw [abs_lt] at hsmall
  rw [abs_le]
  unfold blsOrder at hsmall hk
  constructor <;> omega

/-- An accepted key is an alias key. -/
theorem aliasKey_of_accepted (hacc : SameXAccepted strategy statement)
    (hind : LinearIndependent Scalar ![statement.blsXBase, statement.blsBlindBase]) {x : ℕ}
    (hx : x < 2 ^ 248) {ρ : Scalar} (hopen : statement.blsXCommitment =
      (x : Scalar) • statement.blsXBase + ρ • statement.blsBlindBase) :
    IsAliasKey statement.ristrettoXBase statement.ristrettoBlindBase x
      statement.ristrettoXCommitment := by
  have hkey := key_sub_step_mem hacc
  by_cases hbase : statement.ristrettoXBase ∈
      Submodule.span DalekScalar {statement.ristrettoBlindBase}
  · -- The base is blinded away, so every multiple of it is.
    refine ⟨0, by decide, ?_⟩
    have hany := fun a : DalekScalar => Submodule.smul_mem _ a hbase
    have hcommitment := Submodule.add_mem _ hkey
      (hany ((strategy.response 1 - strategy.response 0 : ℤ) : DalekScalar))
    rw [sub_add_cancel] at hcommitment
    exact Submodule.sub_mem _ hcommitment (hany _)
  · have hlast := response_progression hacc hind hopen hbase
    -- the bound of a single response is shared out among all the challenges
    have hbound := abs_step_lt (fun c hc => (response_spec hacc hc).1) hlast
    have hslope := response_affine_bls hacc hind hopen (n := 1) (by decide)
    generalize hδ : strategy.response 1 - strategy.response 0 = δ at hkey hbound
    -- In the pairing group the step is `x`.
    have hcast : ((δ : ℤ) : Scalar) = ((x : ℤ) : Scalar) := by
      rw [← hδ, Int.cast_sub, hslope, Nat.cast_one, one_mul, add_sub_cancel_left,
        Int.cast_natCast]
    rcases ((ZMod.intCast_eq_intCast_iff _ _ _).mp hcast).symm.dvd with ⟨k, hk⟩
    refine ⟨k, multiple_le_four hx hbound hk, ?_⟩
    have hstep : (x : ℤ) + k * blsOrder = δ := by
      rw [mul_comm, ← hk]
      exact add_sub_cancel _ _
    rw [hstep]
    exact hkey

end Forward

section Converse

/-- The first message of a progression with step `δ` that never goes below zero. -/
def forgedStart (δ : ℤ) : ℤ := if 0 ≤ δ then 0 else lastChallenge * -δ

/-- The progression of the responses. -/
def forgedResponse (δ : ℤ) (n : ℕ) : ℕ := (forgedStart δ + n * δ).toNat

/-- Steps off by at most four orders stay within the bound. -/
theorem forgedResponse_spec {x : ℕ} (hx : x < 2 ^ 248) {k : ℤ} (hk : |k| ≤ 4) {n : ℕ}
    (hn : n ≤ lastChallenge) :
    (forgedResponse (x + k * blsOrder) n : ℤ) =
        forgedStart (x + k * blsOrder) + n * (x + k * blsOrder) ∧
      forgedResponse (x + k * blsOrder) n < 2 ^ xBridgeZBoundBits := by
  generalize hδ : (x : ℤ) + k * blsOrder = δ
  -- the extremes of `x` and of `k`
  have hsmall : |δ| ≤ 4 * blsOrder + 2 ^ 248 := by
    rw [abs_le] at hk ⊢
    unfold blsOrder at hδ ⊢
    constructor <;> omega
  have hnat : (n : ℤ) ≤ lastChallenge := Int.ofNat_le.mpr hn
  have hspan : (0 : ℤ) ≤ forgedStart δ + n * δ ∧
      forgedStart δ + n * δ ≤ lastChallenge * |δ| := by
    unfold forgedStart
    by_cases hsign : 0 ≤ δ
    -- an ascending progression starts at zero
    · rw [if_pos hsign, abs_of_nonneg hsign, zero_add]
      exact ⟨mul_nonneg (Int.natCast_nonneg n) hsign, mul_le_mul_of_nonneg_right hnat hsign⟩
    · have hneg : 0 ≤ -δ := by omega
      -- a descending one ends there
      rw [if_neg hsign, abs_of_neg (not_le.mp hsign)]
      have hlow := mul_le_mul_of_nonneg_right hnat hneg
      have hhigh := mul_nonneg (Int.natCast_nonneg n) hneg
      rw [mul_neg] at hlow hhigh
      constructor <;> omega
  have htop : (lastChallenge : ℤ) * (4 * blsOrder + 2 ^ 248) < 2 ^ xBridgeZBoundBits := by
    decide +kernel
  have hvalue := Int.toNat_of_nonneg hspan.1
  refine ⟨hvalue, ?_⟩
  have hlt := hspan.2.trans_lt
    ((mul_le_mul_of_nonneg_left hsmall (Int.natCast_nonneg lastChallenge)).trans_lt htop)
  rw [← hvalue] at hlt
  exact_mod_cast hlt

/-- A strategy for the key `(x + k * r) * G + β * B`, where `ρ` opens the commitment
to `x`. -/
def forgedSameX (statement : SameXStatement G1 R) (x : ℕ) (k : ℤ) (ρ : Scalar)
    (β : DalekScalar) : SameXStrategy G1 R where
  tBls := ((forgedStart (x + k * blsOrder) : ℤ) : Scalar) • statement.blsXBase
  tRistretto := ((forgedStart (x + k * blsOrder) : ℤ) : DalekScalar) • statement.ristrettoXBase
  respond := fun c =>
    ⟨leMinimal (forgedResponse (x + k * blsOrder) (leNat c.toList)),
      leNat c.toList * ρ, leNat c.toList * β⟩

theorem canonical_leMinimal {n : ℕ} (hn : n < 256 ^ (xBridgeBlindingBytes + 1)) :
    canonicalBiguintLe (leMinimal n) = true := by
  unfold canonicalBiguintLe
  rw [Bool.and_eq_true, decide_eq_true_eq, Bool.or_eq_true, decide_eq_true_eq, decide_eq_true_eq]
  refine ⟨leMinimal_length_le hn, ?_⟩
  by_cases hzero : n = 0
  -- zero is written as no byte at all
  · left
    rw [hzero]
    exact (leMinimal_length_le (by decide : 0 < 256 ^ 1))
  · rcases leMinimal_getLast? hzero with ⟨b, hlast, hb⟩
    right
    rw [hlast]
    exact hb

variable [DecidableEq G1] [DecidableEq R]

/-- Every alias key is accepted, at every challenge. -/
theorem forgedSameX_accepts {statement : SameXStatement G1 R}
    (hvalid : validateStatement statement = .ok ()) {x : ℕ} (hx : x < 2 ^ 248) {k : ℤ}
    (hk : |k| ≤ 4) {ρ : Scalar} (hopen : statement.blsXCommitment =
      (x : Scalar) • statement.blsXBase + ρ • statement.blsBlindBase) {β : DalekScalar}
    (hkey : statement.ristrettoXCommitment =
      (((x : ℤ) + k * blsOrder : ℤ) : DalekScalar) • statement.ristrettoXBase +
        β • statement.ristrettoBlindBase) :
    SameXAccepted (forgedSameX statement x k ρ β) statement := by
  intro c
  have hc := challenge_le c
  rcases forgedResponse_spec hx hk hc with ⟨hvalue, hbound⟩
  have hz : leNat ((forgedSameX statement x k ρ β).proofAt c).zXLe =
      forgedResponse (x + k * blsOrder) (leNat c.toList) := leNat_leMinimal _
  have hwide : forgedResponse (x + k * blsOrder) (leNat c.toList) < 256 ^ 64 :=
    hbound.trans (by decide +kernel)
  -- The step `x + k * r` is `x` in the pairing group.
  have hstep : (((x : ℤ) + k * blsOrder : ℤ) : Scalar) = x := by
    rw [Int.cast_add, Int.cast_mul, Int.cast_natCast, Int.cast_natCast,
      ZMod.natCast_self, mul_zero, add_zero]
  refine (verifyAt_ok _ _).mpr ⟨hvalid, ?_, rfl, hz ▸ hbound, ?_, ?_⟩
  · exact canonical_leMinimal (hbound.trans (by decide +kernel))
  · unfold sameXBlsHolds
    have hscalar : ((forgedResponse (x + k * blsOrder) (leNat c.toList) : ℕ) : Scalar) =
        (forgedStart (x + k * blsOrder) : ℤ) + (leNat c.toList : Scalar) * x := by
      rw [← Int.cast_natCast, hvalue, Int.cast_add, Int.cast_mul, hstep, Int.cast_natCast]
    rw [hz, biguintToBlsScalar_eq, hscalar, biguintToBlsScalar_eq, hopen]
    simp only [forgedSameX, SameXStrategy.proofAt]
    module
  · unfold sameXRistrettoHolds
    have hscalar : ((forgedResponse (x + k * blsOrder) (leNat c.toList) : ℕ) : DalekScalar) =
        (forgedStart (x + k * blsOrder) : ℤ) +
          (leNat c.toList : DalekScalar) * (((x : ℤ) + k * blsOrder : ℤ) : DalekScalar) := by
      rw [← Int.cast_natCast, hvalue, Int.cast_add, Int.cast_mul, Int.cast_natCast]
    have hchal : leNat ((forgedSameX statement x k ρ β).proofAt c).cBytes.toList < 256 ^ 64 :=
      hc.trans_lt (by decide +kernel)
    rw [hz, biguintToRistrettoScalar_eq hwide, hscalar, biguintToRistrettoScalar_eq hchal, hkey]
    simp only [forgedSameX, SameXStrategy.proofAt]
    module

end Converse

/-- An upload is bound to the key of its canonical `x` if and only if its statement
is not one the bridge accepts, or is the honest one: the commitment or the key is
the identity, the key is `x * G`, or it is no alias of `x * G`. -/
theorem upload_key_bound_iff [DecidableEq G1] [DecidableEq R] {generators : Generators G1 G2}
    {dalek : Dalek R} (hind : LinearIndependent Scalar ![generators.h 1, generators.h 0])
    (hbase : dalek.basepoint ≠ 0) {proof : UploadSpendProof G1 R D}
    (hbound : UploadStatementBound generators dalek proof) {x : ℕ} (hx : x < 2 ^ 248)
    {ρ : Scalar} (hopen : proof.spendProof.xBlsCommitment =
      (x : Scalar) • generators.h 1 + ρ • generators.h 0) :
    (∀ strategy : SameXStrategy G1 R, SameXAccepted strategy proof.sameXStatement →
      proof.fileBinding.encryptionPublicKey = (x : DalekScalar) • dalek.basepoint) ↔
    (proof.spendProof.xBlsCommitment = 0 ∨ proof.fileBinding.encryptionPublicKey = 0 ∨
      proof.fileBinding.encryptionPublicKey = (x : DalekScalar) • dalek.basepoint ∨
      ¬IsAliasKey dalek.basepoint proof.sameXStatement.ristrettoBlindBase x
        proof.fileBinding.encryptionPublicKey) := by
  rcases hbound with ⟨⟨hb1, hb0, hcommitment⟩, hg, hkey⟩
  -- three of the five points tested are generators, which are not the identity
  have hvalid : validateStatement proof.sameXStatement = .ok () ↔
      proof.spendProof.xBlsCommitment ≠ 0 ∧ proof.fileBinding.encryptionPublicKey ≠ 0 := by
    have h1 : generators.h 1 ≠ 0 := hind.ne_zero 0
    have h0 : generators.h 0 ≠ 0 := hind.ne_zero 1
    rw [validateStatement, rejectIf_ok, hb1, hb0, hcommitment, hg, hkey]
    simp only [h1, h0, hbase, false_or, not_or, ne_eq]
  have hopen' : proof.sameXStatement.blsXCommitment =
      (x : Scalar) • proof.sameXStatement.blsXBase +
        ρ • proof.sameXStatement.blsBlindBase := by
    rw [hcommitment, hb1, hb0, hopen]
  constructor
  · intro hlaw
    by_contra hcond
    simp only [not_or, not_not] at hcond
    rcases hcond with ⟨hx0, hkey0, hne, k, hk, hspan⟩
    rcases Submodule.mem_span_singleton.mp hspan with ⟨β, hβ⟩
    -- an alias key that is not the honest one is accepted
    refine hne (hlaw _ (forgedSameX_accepts (hvalid.mpr ⟨hx0, hkey0⟩) hx hk hopen' (β := β) ?_))
    rw [hkey, hg, hβ, add_sub_cancel]
  · intro hcond strategy hacc
    have hok := ((verifyAt_ok _ _).mp (hacc (leArray 16 0))).1
    rcases hvalid.mp hok with ⟨hx0, hkey0⟩
    have halias := aliasKey_of_accepted hacc (by rw [hb1, hb0]; exact hind) hx hopen'
    rw [hg, hkey] at halias
    rcases hcond with h | h | h | h
    · exact absurd h hx0
    · exact absurd h hkey0
    · exact h
    · exact absurd halias h

section Example

/-- A spend whose commitment opens to `x = 5`. -/
def fiveSpend : SpendProof UnitSpace where
  aPrime := 0
  aBar := 0
  tBbs := 0
  tScaleT := 0
  tTotal := 0
  tScaleR := 0
  tRefund := 0
  tScaleBp := 0
  tBp := 0
  zE := 0
  zR1 := 0
  zSTilde := 0
  zXTilde := 0
  zCTilde := 0
  zETilde := 0
  zU := 0
  zV := 0
  zW := 0
  batchedEq := blankEqualityProof
  s := 1
  kCur := 0
  tIssue := 0
  kPrime := 0
  cBp := 0
  eMax := 0
  xBlsCommitment := ((5 : ℕ) : Scalar) • unitGenerators.h 1 + (0 : Scalar) • unitGenerators.h 0
  tScaleX := 0
  tX := 0
  zRX := 0
  cDelta := 0
  expiryEq := blankEqualityProof
  tScaleExp := 0
  tExp := 0
  zRDelta := 0

/-- The upload of that spend with a blinding base and a key of the client's choice. -/
def fiveUpload (blindBase key : DalekScalar) : UploadSpendProof UnitSpace DalekScalar ℕ where
  spendProof := fiveSpend
  nonce := leArray 16 0
  fileCommitment := ⟨leArray 32 42, 1, 1, 272, 272, 2, leArray 32 0⟩
  fileChallengeNonce := leArray 32 9
  fileProof := ⟨leArray 32 42, 1, [], ⟨0, 0, 0, 0⟩⟩
  fileBinding := ⟨1, key, key⟩
  sameXStatement :=
    ⟨unitGenerators.h 1, unitGenerators.h 0, fiveSpend.xBlsCommitment, 1, blindBase, key⟩
  sameXProof := ⟨0, 0, leArray 16 0, [], 0, 0⟩
  sameXContext := []

theorem fiveUpload_bound (blindBase key : DalekScalar) :
    UploadStatementBound unitGenerators lineDalek (fiveUpload blindBase key) :=
  ⟨⟨rfl, rfl, rfl⟩, rfl, rfl⟩

theorem unitGenerators_pair :
    LinearIndependent Scalar ![unitGenerators.h 1, unitGenerators.h 0] :=
  independent_pair unitGenerators_independent (by decide)

theorem fiveUpload_valid {blindBase key : DalekScalar} (hkey : key ≠ 0) :
    validateStatement (fiveUpload blindBase key).sameXStatement = .ok () := by
  have h1 : unitGenerators.h 1 ≠ 0 := h_ne_zero unitGenerators_independent 1
  have h0 : unitGenerators.h 0 ≠ 0 := h_ne_zero unitGenerators_independent 0
  have hfive : ((5 : ℕ) : Scalar) ≠ 0 := by decide +kernel
  have hcommitment : fiveSpend.xBlsCommitment ≠ 0 := by
    show ((5 : ℕ) : Scalar) • unitGenerators.h 1 + (0 : Scalar) • unitGenerators.h 0 ≠ 0
    rw [zero_smul, add_zero]
    exact smul_ne_zero hfive h1
  rw [validateStatement, rejectIf_ok]
  simp only [fiveUpload, h1, h0, hcommitment, hkey, one_ne_zero, or_self, not_false_iff]

/-- With a blinding base of its own the client passes off the key `7 * G`, and
without one the key `(5 + r) * G`. -/
theorem foreign_key_accepted :
    (UploadStatementBound unitGenerators lineDalek (fiveUpload 1 7) ∧
      SameXAccepted (forgedSameX (fiveUpload 1 7).sameXStatement 5 0 0 2)
        (fiveUpload 1 7).sameXStatement ∧
      (fiveUpload 1 7).fileBinding.encryptionPublicKey ≠
        ((5 : ℕ) : DalekScalar) • lineDalek.basepoint) ∧
    (UploadStatementBound unitGenerators lineDalek (fiveUpload 0 (5 + (blsOrder : ℕ))) ∧
      SameXAccepted (forgedSameX (fiveUpload 0 (5 + (blsOrder : ℕ))).sameXStatement 5 1 0 0)
        (fiveUpload 0 (5 + (blsOrder : ℕ))).sameXStatement ∧
      (fiveUpload 0 (5 + (blsOrder : ℕ))).fileBinding.encryptionPublicKey ≠
        ((5 : ℕ) : DalekScalar) • lineDalek.basepoint) := by
  have hx : 5 < 2 ^ 248 := by decide +kernel
  refine ⟨⟨fiveUpload_bound _ _, ?_, by decide +kernel⟩,
    ⟨fiveUpload_bound _ _, ?_, by decide +kernel⟩⟩
  · exact forgedSameX_accepts (fiveUpload_valid (by decide +kernel)) hx (by decide) rfl
      (by decide +kernel)
  · exact forgedSameX_accepts (fiveUpload_valid (by decide +kernel)) hx (by decide) rfl
      (by decide +kernel)

theorem upload_key_bound_iff_five :
    (∀ strategy : SameXStrategy UnitSpace DalekScalar,
      SameXAccepted strategy (fiveUpload 0 5).sameXStatement →
      (fiveUpload 0 5).fileBinding.encryptionPublicKey =
        ((5 : ℕ) : DalekScalar) • lineDalek.basepoint) ↔
    (fiveSpend.xBlsCommitment = 0 ∨ (5 : DalekScalar) = 0 ∨
      (5 : DalekScalar) = ((5 : ℕ) : DalekScalar) • lineDalek.basepoint ∨
      ¬IsAliasKey lineDalek.basepoint 0 5 5) :=
  upload_key_bound_iff unitGenerators_pair (by decide +kernel) (fiveUpload_bound 0 5)
    (by decide +kernel) (ρ := 0) rfl

end Example

end Ebut
