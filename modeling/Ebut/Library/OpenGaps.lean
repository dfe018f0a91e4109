import Mathlib.Order.Lattice
import Mathlib.Data.List.Basic
import Mathlib.Tactic.Common

/-!
# Open Gaps Between Cuts

A strictly increasing list of cuts divides the values above a left end into open
intervals. The intervals that hold a value are the gaps; a final one reaches from
the last cut to a right end.

The right end is only where the last interval stops: cuts may lie at it or beyond
it, and then there is no final gap. What holds for the values strictly between the
two ends holds all the same.

`wide` stands for the test whether an interval holds a value, which an order of
machine integers decides by arithmetic on the ends.

## Main definitions

* `Inside`: A value strictly inside an interval.
* `gapsFrom`: The gaps from a left end through the cuts to a right end.

## Theorems

* `wide_of_mem_gapsFrom`: Every gap holds a value.
* `le_left_of_mem`: The gaps start at or after the left end.
* `cut_not_inside`: No cut is inside a gap.
* `gapsFrom_pairwise`: Each gap ends before the next starts.
* `countP_gapsFrom`: A value is inside one gap, or is a cut and inside none.
* `right_of_mem`: Where a gap ends.
-/

namespace OpenGaps

variable {α : Type*} (wide : α → α → Prop) [DecidableRel wide]

/-- The interval from `left` to `right`, if it holds a value. -/
def gapIfWide (left right : α) : List (α × α) := if wide left right then [(left, right)] else []

/-- The gaps from `left` through the cuts to `stop`. -/
def gapsFrom (left : α) : List α → α → List (α × α)
  | [], stop => gapIfWide wide left stop
  | right :: cuts, stop => gapIfWide wide left right ++ gapsFrom right cuts stop

variable {wide}

theorem mem_gapIfWide {left right : α} {gap : α × α} :
    gap ∈ gapIfWide wide left right ↔ wide left right ∧ gap = (left, right) := by
  unfold gapIfWide
  by_cases hwide : wide left right
  · rw [if_pos hwide, List.mem_singleton]
    exact ⟨fun h => ⟨hwide, h⟩, fun h => h.2⟩
  · rw [if_neg hwide]
    exact ⟨fun h => absurd h List.not_mem_nil, fun h => absurd h.1 hwide⟩

theorem wide_of_mem_gapsFrom {left stop : α} {cuts : List α} {gap : α × α}
    (h : gap ∈ gapsFrom wide left cuts stop) : wide gap.1 gap.2 := by
  induction cuts generalizing left with
  | nil =>
      rcases mem_gapIfWide.mp h with ⟨hwide, rfl⟩
      exact hwide
  | cons right cuts ih =>
      rcases List.mem_append.mp h with hfirst | hrest
      · rcases mem_gapIfWide.mp hfirst with ⟨hwide, rfl⟩
        exact hwide
      · exact ih hrest

variable [LinearOrder α]

/-- Strictly inside an interval. -/
def Inside (e : α) (gap : α × α) : Prop := gap.1 < e ∧ e < gap.2

instance (e : α) : DecidablePred (Inside e) :=
  fun gap => inferInstanceAs (Decidable (gap.1 < e ∧ e < gap.2))

/-- The gaps start at or after the left end. -/
theorem le_left_of_mem {left stop : α} {cuts : List α} {gap : α × α}
    (hsorted : (left :: cuts).Pairwise (· ≤ ·)) (h : gap ∈ gapsFrom wide left cuts stop) :
    left ≤ gap.1 := by
  induction cuts generalizing left with
  | nil =>
      rcases mem_gapIfWide.mp h with ⟨-, rfl⟩
      exact le_rfl
  | cons right cuts ih =>
      rcases List.mem_append.mp h with hfirst | hrest
      · rcases mem_gapIfWide.mp hfirst with ⟨-, rfl⟩
        exact le_rfl
      · have hnext := List.rel_of_pairwise_cons hsorted List.mem_cons_self
        exact hnext.trans (ih hsorted.of_cons hrest)

/-- A gap ends at a cut, or it is the final one and starts after all cuts. -/
theorem right_of_mem {left stop : α} {cuts : List α} {gap : α × α}
    (hsorted : (left :: cuts).Pairwise (· ≤ ·)) (h : gap ∈ gapsFrom wide left cuts stop) :
    gap.2 ∈ cuts ∨ gap.2 = stop ∧ ∀ c ∈ cuts, c ≤ gap.1 := by
  induction cuts generalizing left with
  | nil =>
      rcases mem_gapIfWide.mp h with ⟨-, rfl⟩
      exact Or.inr ⟨rfl, fun c hc => absurd hc List.not_mem_nil⟩
  | cons right cuts ih =>
      rcases List.mem_append.mp h with hfirst | hrest
      · rcases mem_gapIfWide.mp hfirst with ⟨-, rfl⟩
        exact Or.inl List.mem_cons_self
      · rcases ih hsorted.of_cons hrest with hcut | ⟨hstop, hafter⟩
        · exact Or.inl (List.mem_cons_of_mem right hcut)
        · refine Or.inr ⟨hstop, fun c hc => ?_⟩
          rcases List.mem_cons.mp hc with rfl | hc
          · exact le_left_of_mem hsorted.of_cons hrest
          · exact hafter c hc

/-- No cut is inside a gap: the gaps after a cut start at it, the gap before it ends there. -/
theorem cut_not_inside {left stop : α} {cuts : List α} {gap : α × α} {c : α}
    (hsorted : (left :: cuts).Pairwise (· ≤ ·)) (h : gap ∈ gapsFrom wide left cuts stop)
    (hc : c ∈ cuts) : ¬Inside c gap := by
  induction cuts generalizing left with
  | nil => exact absurd hc List.not_mem_nil
  | cons right cuts ih =>
      have hle : ∀ c ∈ right :: cuts, right ≤ c := by
        intro c hc
        rcases List.mem_cons.mp hc with rfl | hc
        · exact le_rfl
        · exact List.rel_of_pairwise_cons hsorted.of_cons hc
      rcases List.mem_append.mp h with hfirst | hrest
      · rcases mem_gapIfWide.mp hfirst with ⟨-, rfl⟩
        exact fun hin => (hle c hc).not_gt hin.2
      · rcases List.mem_cons.mp hc with rfl | hc
        · exact fun hin => (le_left_of_mem hsorted.of_cons hrest).not_gt hin.1
        · exact ih hsorted.of_cons hrest hc

/-- Each gap ends before the next one starts. -/
theorem gapsFrom_pairwise {left stop : α} {cuts : List α}
    (hsorted : (left :: cuts).Pairwise (· ≤ ·)) :
    (gapsFrom wide left cuts stop).Pairwise fun g g' => g.2 ≤ g'.1 := by
  induction cuts generalizing left with
  | nil =>
      rw [gapsFrom, gapIfWide]
      split_ifs
      · exact List.pairwise_singleton _ _
      · exact List.Pairwise.nil
  | cons right cuts ih =>
      rw [gapsFrom, List.pairwise_append]
      refine ⟨?_, ih hsorted.of_cons, fun g hg g' hg' => ?_⟩
      · rw [gapIfWide]
        split_ifs
        · exact List.pairwise_singleton _ _
        · exact List.Pairwise.nil
      · rcases mem_gapIfWide.mp hg with ⟨-, rfl⟩
        exact le_left_of_mem hsorted.of_cons hg'

section Cover

variable (hwide : ∀ a b, wide a b ↔ ∃ c, Inside c (a, b))

include hwide

theorem countP_gapIfWide {left right e : α} :
    (gapIfWide wide left right).countP (Inside e) = if Inside e (left, right) then 1 else 0 := by
  unfold gapIfWide
  by_cases hin : Inside e (left, right)
  · rw [if_pos hin, if_pos ((hwide left right).mpr ⟨e, hin⟩), List.countP_singleton]
    simp only [hin, decide_true, if_true]
  · rw [if_neg hin]
    split_ifs
    · rw [List.countP_singleton]
      simp only [hin, decide_false, Bool.false_eq_true, if_false]
    · rfl

/-- A value strictly between the two ends is inside exactly one gap, unless it is a cut.
By induction on the cuts, comparing the value with the first. -/
theorem countP_gapsFrom {left stop e : α} {cuts : List α}
    (hsorted : (left :: cuts).Pairwise (· ≤ ·)) (hleft : left < e) (hstop : e < stop) :
    (gapsFrom wide left cuts stop).countP (Inside e) = if e ∈ cuts then 0 else 1 := by
  induction cuts generalizing left with
  | nil =>
      rw [gapsFrom, countP_gapIfWide hwide, if_pos ⟨hleft, hstop⟩, if_neg List.not_mem_nil]
  | cons right cuts ih =>
      rw [gapsFrom, List.countP_append, countP_gapIfWide hwide]
      -- at or before the first cut, no later gap has begun
      have hlater : e ≤ right → (gapsFrom wide right cuts stop).countP (Inside e) = 0 := by
        intro hle
        rw [List.countP_eq_zero]
        intro gap hgap
        have hstart := le_left_of_mem hsorted.of_cons hgap
        simp only [decide_eq_true_eq]
        exact fun hin => (hle.trans hstart).not_gt hin.1
      rcases lt_trichotomy e right with hlt | rfl | hgt
      · have hnot : e ∉ right :: cuts := by
          intro hmem
          rcases List.mem_cons.mp hmem with rfl | hmem
          · exact lt_irrefl _ hlt
          · exact (List.rel_of_pairwise_cons hsorted.of_cons hmem).not_gt hlt
        rw [if_pos ⟨hleft, hlt⟩, hlater hlt.le, if_neg hnot]
      · rw [if_neg fun hin => lt_irrefl _ hin.2, hlater le_rfl, if_pos List.mem_cons_self]
      · rw [if_neg fun hin => hgt.not_gt hin.2, ih hsorted.of_cons hgt, Nat.zero_add]
        simp only [List.mem_cons, hgt.ne', false_or]

end Cover

end OpenGaps
