import Ebut.Library.IntegerResponse
import Mathlib.Algebra.Field.ZMod
import Mathlib.LinearAlgebra.LinearIndependent.Lemmas
import Mathlib.Tactic.LinearCombination
import Mathlib.Tactic.Module

/-!
# One Integer Opening Two Commitments

A prover opens a commitment in each of two groups of coprime prime orders by one
integer. It answers a challenge `c` up to `n` by an integer `z` below a bound, which
both verification equations see reduced modulo their own order.

What acceptance at every challenge amounts to is settled exactly. It is that some
integer opens both commitments whose multiple by the number of challenges is below
the bound; that integer is unique, and may be negative. A bound on it follows from the
bound on the answers alone, and nothing smaller does. With an opening known in one group
three answers are enough for the other.

## Main definitions

* `Opens`: An integer opens a commitment.
* `Answers`: The equation of one answer.
* `JointlyAnswered`: Bounded answers to all challenges, in both groups.

## Theorems

* `opens_step`: The difference of two consecutive answers opens the commitment.
* `opens_of_jointlyAnswered`: Answers to all challenges give a short joint opening.
* `jointlyAnswered_of_opens`: A short joint opening gives answers to all challenges.
* `opens_of_three_answers`: Three answers transfer an opening to the other group.
* `joint_opening_unique`: A short joint opening is unique.
* `short_openings_iff`: When a commitment with a short joint opening has one in a range.
-/

namespace CrossGroup

open IntegerResponse

section Group

variable (K : Type*) {V : Type*} [Field K] [AddCommGroup V] [Module K V] (g h X : V)

/-- The integer `δ` opens the commitment `X`, blinded by a multiple of `h`. -/
def Opens (δ : ℤ) : Prop := ∃ ρ : K, X = (δ : K) • g + ρ • h

/-- The answer `z` to the challenge `c` for the first message `t`. -/
def Answers (t : V) (c z : ℕ) : Prop := ∃ w : K, (z : K) • g + w • h = t + (c : K) • X

variable {K g h X} {t : V}

theorem opens_iff_mem {δ : ℤ} : Opens K g h X δ ↔ X - (δ : K) • g ∈ Submodule.span K {h} := by
  rw [Submodule.mem_span_singleton]
  constructor
  · rintro ⟨ρ, hX⟩
    exact ⟨ρ, by rw [hX, add_sub_cancel_left]⟩
  · rintro ⟨ρ, hX⟩
    exact ⟨ρ, by rw [hX, add_sub_cancel]⟩

theorem notMem_span_of_independent (hind : LinearIndependent K ![g, h]) :
    g ∉ Submodule.span K {h} := by
  intro hmem
  rcases Submodule.mem_span_singleton.mp hmem with ⟨a, ha⟩
  have hzero : (1 : K) • g + (-a) • h = 0 := by
    rw [← ha]
    module
  exact one_ne_zero (LinearIndependent.pair_iff.mp hind _ _ hzero).1

/-- Without a blinding base a value base only has to be a point other than zero. -/
theorem notMem_span_of_eq_zero (hh : h = 0) (hg : g ≠ 0) : g ∉ Submodule.span K {h} := by
  rw [hh, Submodule.span_zero_singleton, Submodule.mem_bot]
  exact hg

/-- Two answers to one first message: their difference opens the multiple of the
commitment, up to the blinding base. -/
theorem answers_sub_mem {c c' z z' : ℕ} (hc : Answers K g h X t c z)
    (hc' : Answers K g h X t c' z') :
    ((z : K) - z') • g - ((c : K) - c') • X ∈ Submodule.span K {h} := by
  rcases hc with ⟨w, hw⟩
  rcases hc' with ⟨w', hw'⟩
  rw [Submodule.mem_span_singleton]
  refine ⟨w' - w, ?_⟩
  have hX : (c : K) • X = (z : K) • g + w • h - t := by rw [hw, add_sub_cancel_left]
  have hX' : (c' : K) • X = (z' : K) • g + w' • h - t := by rw [hw', add_sub_cancel_left]
  rw [sub_smul (c : K), hX, hX']
  module

/-- Answers to two challenges on one line open the commitment to the slope. -/
theorem opens_of_two_answers {c c' z z' : ℕ} {δ : ℤ} (hc : Answers K g h X t c z)
    (hc' : Answers K g h X t c' z') (hne : (c : K) ≠ c')
    (hline : (z : K) - c * δ = z' - c' * δ) : Opens K g h X δ := by
  have hmem := answers_sub_mem hc hc'
  rw [opens_iff_mem, ← Submodule.smul_mem_iff _ (sub_ne_zero.mpr hne), ← Submodule.neg_mem_iff]
  convert hmem using 1
  have hz : (z : K) = z' + (c - c') * δ := by linear_combination hline
  rw [hz]
  module

/-- The first step of the answers opens the commitment. -/
theorem opens_step {z z' : ℕ} (h1 : Answers K g h X t 1 z) (h0 : Answers K g h X t 0 z') :
    Opens K g h X ((z : ℤ) - z') := by
  refine opens_of_two_answers h1 h0 (by rw [Nat.cast_one, Nat.cast_zero]; exact one_ne_zero) ?_
  push_cast
  ring

/-- Unless the value base is a multiple of the blinding base, all answers are on one line,
with an opening as the slope. -/
theorem answers_line (hg : g ∉ Submodule.span K {h}) {δ : ℤ} (hopen : Opens K g h X δ)
    {c c' z z' : ℕ} (hc : Answers K g h X t c z) (hc' : Answers K g h X t c' z') :
    (z : K) - c * δ = z' - c' * δ := by
  have hmem := Submodule.add_mem _ (answers_sub_mem hc hc')
    (Submodule.smul_mem _ ((c : K) - c') (opens_iff_mem.mp hopen))
  by_contra hne
  -- otherwise a non-zero multiple of the value base would be one of the blinding base
  refine hg ((Submodule.smul_mem_iff _ (sub_ne_zero.mpr hne)).mp ?_)
  convert hmem using 1
  module

/-- The answers are affine in the challenge. -/
theorem answers_affine (hg : g ∉ Submodule.span K {h}) {δ : ℤ} (hopen : Opens K g h X δ)
    {c z z' : ℕ} (hc : Answers K g h X t c z) (h0 : Answers K g h X t 0 z') :
    (z : K) = z' + c * δ := by
  have hline := answers_line hg hopen hc h0
  rw [Nat.cast_zero, zero_mul, sub_zero] at hline
  rw [← hline, sub_add_cancel]

/-- Two openings have the same image in the field. -/
theorem opens_cast_eq (hg : g ∉ Submodule.span K {h}) {δ δ' : ℤ} (hδ : Opens K g h X δ)
    (hδ' : Opens K g h X δ') : (δ : K) = (δ' : K) := by
  have hmem := Submodule.sub_mem _ (opens_iff_mem.mp hδ') (opens_iff_mem.mp hδ)
  by_contra hne
  refine hg ((Submodule.smul_mem_iff _ (sub_ne_zero.mpr hne)).mp ?_)
  convert hmem using 1
  module

/-- Answers on a line whose step opens the commitment. -/
theorem answers_of_opens {δ : ℤ} (hopen : Opens K g h X δ) {start : ℤ} {c z : ℕ}
    (hz : (z : ℤ) = start + c * δ) : Answers K g h X ((start : K) • g) c z := by
  rcases hopen with ⟨ρ, hX⟩
  have hcast : (z : K) = (start : K) + c * (δ : K) := by
    have h := congrArg (Int.cast (R := K)) hz
    rwa [Int.cast_natCast, Int.cast_add, Int.cast_mul, Int.cast_natCast] at h
  refine ⟨c * ρ, ?_⟩
  rw [hX, hcast]
  module

end Group

section Joint

variable {P Q : ℕ} [Fact P.Prime] [Fact Q.Prime] {V W : Type*} [AddCommGroup V]
  [Module (ZMod P) V] [AddCommGroup W] [Module (ZMod Q) W] {g h X t : V} {g' h' X' t' : W}
  {n bound : ℕ}

/-- Answers below the bound to the challenges up to `n`, each valid in both groups. -/
def JointlyAnswered (P Q : ℕ) [Fact P.Prime] [Fact Q.Prime] [Module (ZMod P) V] [Module (ZMod Q) W]
    (g h X t : V) (g' h' X' t' : W) (n bound : ℕ) : Prop :=
  ∀ c ≤ n, ∃ z < bound, Answers (ZMod P) g h X t c z ∧ Answers (ZMod Q) g' h' X' t' c z

/-- Answers to all challenges are a progression of integers, since the product of the two
orders exceeds twice the bound. Its step opens both commitments, and is short because
the whole progression stays below the bound. -/
theorem opens_of_jointlyAnswered (hcop : P.Coprime Q) (hlarge : 2 * bound ≤ P * Q) (hn : 1 ≤ n)
    (hg : g ∉ Submodule.span (ZMod P) {h}) (hg' : g' ∉ Submodule.span (ZMod Q) {h'})
    (hans : JointlyAnswered P Q g h X t g' h' X' t' n bound) :
    ∃ δ : ℤ, n * |δ| < bound ∧ Opens (ZMod P) g h X δ ∧ Opens (ZMod Q) g' h' X' δ := by
  choose! z hbound hP hQ using hans
  have h0 := Nat.zero_le n
  have hopenP := opens_step (hP 1 hn) (hP 0 h0)
  have hopenQ := opens_step (hQ 1 hn) (hQ 0 h0)
  have hbounded : Bounded (fun c => (z c : ℤ)) n bound := fun c hc =>
    ⟨Int.natCast_nonneg _, Int.ofNat_lt.mpr (hbound c hc)⟩
  have hlast : (z n : ℤ) = z 0 + n * ((z 1 : ℤ) - z 0) := by
    refine progression_of_coprime hcop (by exact_mod_cast hlarge) hbounded ?_ ?_ le_rfl
    · intro c hc
      rw [← ZMod.intCast_eq_intCast_iff, Int.cast_add, Int.cast_natCast, Int.cast_natCast,
        answers_affine hg hopenP (hP (c + 1) hc) (hP 0 h0),
        answers_affine hg hopenP (hP c hc.le) (hP 0 h0), Nat.cast_succ]
      ring
    · intro c hc
      rw [← ZMod.intCast_eq_intCast_iff, Int.cast_add, Int.cast_natCast, Int.cast_natCast,
        answers_affine hg' hopenQ (hQ (c + 1) hc) (hQ 0 h0),
        answers_affine hg' hopenQ (hQ c hc.le) (hQ 0 h0), Nat.cast_succ]
      ring
  exact ⟨(z 1 : ℤ) - z 0, abs_step_lt hbounded hlast, hopenP, hopenQ⟩

/-- The start of a progression with step `δ` that never goes below zero. -/
def startOf (n : ℕ) (δ : ℤ) : ℤ := if 0 ≤ δ then 0 else n * -δ

/-- A short progression stays between zero and the bound. -/
theorem startOf_spec {δ : ℤ} (hshort : n * |δ| < bound) {c : ℕ} (hc : c ≤ n) :
    0 ≤ startOf n δ + c * δ ∧ startOf n δ + c * δ < bound := by
  have hnat : (c : ℤ) ≤ n := Int.ofNat_le.mpr hc
  unfold startOf
  by_cases hsign : 0 ≤ δ
  · rw [if_pos hsign, zero_add]
    rw [abs_of_nonneg hsign] at hshort
    exact ⟨mul_nonneg (Int.natCast_nonneg c) hsign,
      (mul_le_mul_of_nonneg_right hnat hsign).trans_lt hshort⟩
  · have hneg : 0 ≤ -δ := by omega
    rw [if_neg hsign]
    rw [abs_of_neg (not_le.mp hsign)] at hshort
    have hlow := mul_le_mul_of_nonneg_right hnat hneg
    have hhigh := mul_nonneg (Int.natCast_nonneg c) hneg
    rw [mul_neg] at hlow hhigh
    constructor <;> omega

/-- A short joint opening answers every challenge: the answers start at zero and ascend, or
descend to it. -/
theorem jointlyAnswered_of_opens {δ : ℤ} (hshort : n * |δ| < bound)
    (hopenP : Opens (ZMod P) g h X δ) (hopenQ : Opens (ZMod Q) g' h' X' δ) :
    JointlyAnswered P Q g h X ((startOf n δ : ZMod P) • g) g' h' X' ((startOf n δ : ZMod Q) • g') n
      bound := by
  intro c hc
  rcases startOf_spec hshort hc with ⟨hnonneg, hlt⟩
  have hz := Int.toNat_of_nonneg hnonneg
  refine ⟨(startOf n δ + c * δ).toNat, ?_, answers_of_opens hopenP hz, answers_of_opens hopenQ hz⟩
  rw [← hz] at hlt
  exact_mod_cast hlt

/-- An opening in the first group transfers to the second. The answers are below the order
of the first, whose line they are on, and so is every multiple of the opening; three of
them leave two on a line of integers. -/
theorem opens_of_three_answers {m : ℕ} (hsmall : n * m < P) (hg : g ∉ Submodule.span (ZMod P) {h})
    (hopen : Opens (ZMod P) g h X m) {c z : Fin 3 → ℕ} (hc : ∀ i, c i ≤ n)
    (hdistinct : ∀ i j, i ≠ j → (c i : ZMod Q) ≠ c j) (hz : ∀ i, z i < P)
    (hP : ∀ i, Answers (ZMod P) g h X t (c i) (z i))
    (hQ : ∀ i, Answers (ZMod Q) g' h' X' t' (c i) (z i)) : Opens (ZMod Q) g' h' X' m := by
  -- the starts of the lines are congruent and less than twice the order apart
  have hcong : ∀ i j, (z i : ℤ) - c i * m ≡ z j - c j * m [ZMOD P] := by
    intro i j
    have hline := answers_line hg hopen (hP i) (hP j)
    rw [← ZMod.intCast_eq_intCast_iff]
    push_cast at hline ⊢
    exact hline
  have hclose : ∀ i j, |((z i : ℤ) - c i * m) - (z j - c j * m)| < 2 * P := by
    intro i j
    have hmul : ∀ i, (c i : ℤ) * m < P := fun i => by
      exact_mod_cast (Nat.mul_le_mul_right m (hc i)).trans_lt hsmall
    have hnonneg : ∀ i, 0 ≤ (c i : ℤ) * m := fun i =>
      mul_nonneg (Int.natCast_nonneg _) (Int.natCast_nonneg _)
    have hi := hmul i
    have hj := hmul j
    have hi0 := hnonneg i
    have hj0 := hnonneg j
    have hzi := hz i
    have hzj := hz j
    rw [abs_lt]
    constructor <;> omega
  have hpair : ∀ i j, i ≠ j → (z i : ℤ) - c i * m = z j - c j * m → Opens (ZMod Q) g' h' X' m := by
    intro i j hij heq
    refine opens_of_two_answers (hQ i) (hQ j) (hdistinct i j hij) ?_
    have hcast := congrArg (Int.cast (R := ZMod Q)) heq
    push_cast at hcast ⊢
    exact hcast
  rcases two_eq_of_three (hcong 0 1) (hcong 1 2) (hclose 0 1) (hclose 1 2) (hclose 0 2) with
    h | h | h
  · exact hpair 0 1 (by decide) h
  · exact hpair 1 2 (by decide) h
  · exact hpair 0 2 (by decide) h

/-- Two joint openings that differ by less than the product of the orders are equal. -/
theorem joint_opening_unique (hcop : P.Coprime Q) (hg : g ∉ Submodule.span (ZMod P) {h})
    (hg' : g' ∉ Submodule.span (ZMod Q) {h'}) {δ ε : ℤ} (hclose : |δ - ε| < P * Q)
    (hδ : Opens (ZMod P) g h X δ) (hδ' : Opens (ZMod Q) g' h' X' δ) (hε : Opens (ZMod P) g h X ε)
    (hε' : Opens (ZMod Q) g' h' X' ε) : δ = ε := by
  have hP := (ZMod.intCast_eq_intCast_iff _ _ _).mp (opens_cast_eq hg hδ hε)
  have hQ := (ZMod.intCast_eq_intCast_iff _ _ _).mp (opens_cast_eq hg' hδ' hε')
  exact eq_of_modEq_of_abs_lt
    ((Int.modEq_and_modEq_iff_modEq_mul (m := (P : ℤ)) (n := (Q : ℤ)) hcop).mp ⟨hP, hQ⟩) hclose

/-- A short joint opening is the one in a range, when the bound and the range together do
not exceed the product of the orders. -/
theorem short_opening_eq {range : ℕ} (hcop : P.Coprime Q) (hfit : bound + range ≤ P * Q)
    (hn : 1 ≤ n) (hg : g ∉ Submodule.span (ZMod P) {h}) (hg' : g' ∉ Submodule.span (ZMod Q) {h'})
    {δ : ℤ} {m : ℕ} (hshort : n * |δ| < bound)
    (hδ : Opens (ZMod P) g h X δ ∧ Opens (ZMod Q) g' h' X' δ) (hm : m < range)
    (hmopen : Opens (ZMod P) g h X m ∧ Opens (ZMod Q) g' h' X' m) : δ = m := by
  have habs : |δ| ≤ n * |δ| := le_mul_of_one_le_left (abs_nonneg δ) (by exact_mod_cast hn)
  have hclose : |δ - m| < (P : ℤ) * Q := by
    calc |δ - m| ≤ |δ| + |(m : ℤ)| := abs_sub δ m
      _ = |δ| + m := by rw [Nat.abs_cast]
      _ < bound + range := add_lt_add (habs.trans_lt hshort) (Int.ofNat_lt.mpr hm)
      _ ≤ P * Q := by exact_mod_cast hfit
  exact joint_opening_unique hcop hg hg' hclose hδ.1 hδ.2 hmopen.1 hmopen.2

variable (X X') in
/-- A commitment that has a short joint opening has one in a range if and only if none of
its short joint openings is outside. -/
theorem short_openings_iff {range : ℕ} (hcop : P.Coprime Q) (hfit : bound + range ≤ P * Q)
    (hn : 1 ≤ n) (hg : g ∉ Submodule.span (ZMod P) {h})
    (hg' : g' ∉ Submodule.span (ZMod Q) {h'}) :
    ((∃ δ : ℤ, n * |δ| < bound ∧ Opens (ZMod P) g h X δ ∧ Opens (ZMod Q) g' h' X' δ) →
        ∃ m : ℕ, m < range ∧ Opens (ZMod P) g h X m ∧ Opens (ZMod Q) g' h' X' m) ↔
      ∀ δ : ℤ, n * |δ| < bound → Opens (ZMod P) g h X δ ∧ Opens (ZMod Q) g' h' X' δ →
        0 ≤ δ ∧ δ < range := by
  constructor
  · intro hlaw δ hshort hopen
    rcases hlaw ⟨δ, hshort, hopen⟩ with ⟨m, hm, hmopen⟩
    rw [short_opening_eq hcop hfit hn hg hg' hshort hopen hm hmopen]
    exact ⟨Int.natCast_nonneg m, Int.ofNat_lt.mpr hm⟩
  · rintro hcond ⟨δ, hshort, hopen⟩
    rcases hcond δ hshort hopen with ⟨hnonneg, hlt⟩
    have hcast := Int.toNat_of_nonneg hnonneg
    refine ⟨δ.toNat, ?_, by rwa [hcast]⟩
    rw [← hcast] at hlt
    exact Int.ofNat_lt.mp hlt

end Joint

end CrossGroup
