import Mathlib.Data.List.Basic
import Mathlib.Tactic.Common

/-!
# Deduplication and Binary Search

What a slice library offers on sorted lists: removing the repetitions of a sorted
list, and searching a strictly increasing one by halving.

Neither needs a linear order. Removing neighbours that are equal leaves no
repetition as soon as the relation the list is sorted by is antisymmetric, and a
search that halves finds its target as soon as the relation is asymmetric.

## Main definitions

* `dedup`: Removing an element equal to the one before it.
* `searchLoop`: The search in a range of positions.
* `binarySearch`: The search in a whole list.

## Theorems

* `mem_dedup`: Deduplication keeps the elements.
* `dedup_pairwise`: A sorted list deduplicated is strictly sorted.
* `binarySearch_isSome_iff`: The search succeeds on the elements of the list.
-/

namespace SortedList

variable {α : Type*} [DecidableEq α]

/-- Remove every element that equals the one before it. -/
def dedup : List α → List α
  | a :: b :: rest => if a = b then dedup (b :: rest) else a :: dedup (b :: rest)
  | [a] => [a]
  | [] => []

theorem mem_dedup {l : List α} {x : α} : x ∈ dedup l ↔ x ∈ l := by
  induction l using dedup.induct with
  | case1 b rest ih =>
      rw [dedup, if_pos rfl, ih, List.mem_cons (a := x) (b := b) (l := b :: rest), List.mem_cons,
        or_self_left]
  | case2 a b rest hne ih =>
      rw [dedup, if_neg hne, List.mem_cons, ih, List.mem_cons (l := b :: rest)]
  | case3 a => rfl
  | case4 => rfl

/-- The first of two different neighbours is different from all that follow, since
an equal one would have the second between the two. -/
theorem dedup_pairwise {r : α → α → Prop} (hanti : ∀ a b, r a b → r b a → a = b) {l : List α}
    (h : l.Pairwise r) : (dedup l).Pairwise fun a b => r a b ∧ a ≠ b := by
  induction l using dedup.induct with
  | case1 b rest ih =>
      rw [dedup, if_pos rfl]
      exact ih h.of_cons
  | case2 a b rest hne ih =>
      rw [dedup, if_neg hne, List.pairwise_cons]
      refine ⟨fun c hc => ?_, ih h.of_cons⟩
      have hc' := mem_dedup.mp hc
      refine ⟨List.rel_of_pairwise_cons h hc', ?_⟩
      rintro rfl
      rcases List.mem_cons.mp hc' with rfl | hrest
      · exact hne rfl
      · exact hne (hanti a b (List.rel_of_pairwise_cons h List.mem_cons_self)
          (List.rel_of_pairwise_cons h.of_cons hrest))
  | case3 a => exact List.pairwise_singleton _ a
  | case4 => exact List.Pairwise.nil

variable [LT α] [DecidableLT α]

/-- Search the positions from `lo` up to `hi`, with `n` turns left. -/
def searchLoop (l : List α) (x : α) : ℕ → ℕ → ℕ → Option ℕ
  | 0, _, _ => none
  | n + 1, lo, hi =>
      if lo < hi then
        let mid := lo + (hi - lo) / 2
        match l[mid]? with
        | none => none
        | some y =>
            if y = x then some mid
            else if y < x then searchLoop l x n (mid + 1) hi
            else searchLoop l x n lo mid
      else none

/-- The position of an element of a sorted list. -/
def binarySearch (l : List α) (x : α) : Option ℕ := searchLoop l x l.length 0 l.length

/-- Whatever the list, a position found holds the element searched for. -/
theorem searchLoop_found {l : List α} {x : α} {n lo hi i : ℕ}
    (h : searchLoop l x n lo hi = some i) : l[i]? = some x := by
  induction n generalizing lo hi with
  | zero => exact absurd h (by simp only [searchLoop, reduceCtorEq, not_false_iff])
  | succ n ih =>
      rw [searchLoop] at h
      by_cases hlt : lo < hi
      · rw [if_pos hlt] at h
        rcases hmid : l[lo + (hi - lo) / 2]? with _ | y
        · simp only [hmid, reduceCtorEq] at h
        · simp only [hmid] at h
          by_cases heq : y = x
          · rw [if_pos heq, Option.some.injEq] at h
            rw [← h, hmid, heq]
          · -- whichever half is searched, the position is one of the list
            rw [if_neg heq] at h
            by_cases hyx : y < x
            · rw [if_pos hyx] at h
              exact ih h
            · rw [if_neg hyx] at h
              exact ih h
      · rw [if_neg hlt] at h
        exact absurd h (by simp only [reduceCtorEq, not_false_iff])

/-- An element in the range is found: the half that is dropped does not hold it. -/
theorem searchLoop_isSome (hasymm : ∀ a b : α, a < b → ¬b < a) {l : List α}
    (hsorted : l.Pairwise (· < ·)) {x : α} {n lo hi k : ℕ} (hk : l[k]? = some x)
    (hlo : lo ≤ k) (hhi : k < hi) (hlen : hi ≤ l.length) (hfuel : hi - lo ≤ n) :
    (searchLoop l x n lo hi).isSome := by
  induction n generalizing lo hi with
  | zero => omega
  | succ n ih =>
      have hmid : lo + (hi - lo) / 2 < l.length := by omega
      have hklen : k < l.length := by omega
      have hget : l[k] = x := by rwa [List.getElem?_eq_getElem hklen, Option.some.injEq] at hk
      have hincr := List.pairwise_iff_getElem.mp hsorted
      simp only [searchLoop, if_pos (show lo < hi by omega), List.getElem?_eq_getElem hmid]
      by_cases heq : l[lo + (hi - lo) / 2] = x
      · rw [if_pos heq]
        rfl
      · rw [if_neg heq]
        have hne : k ≠ lo + (hi - lo) / 2 := by
          rintro rfl
          exact heq hget
        by_cases hlt : l[lo + (hi - lo) / 2] < x
        · rw [if_pos hlt]
          -- a position before the middle holds something below the middle
          have hafter : lo + (hi - lo) / 2 < k := by
            by_contra hbefore
            have h := hincr k (lo + (hi - lo) / 2) hklen hmid (by omega)
            rw [hget] at h
            exact hasymm _ _ h hlt
          exact ih (by omega) hhi hlen (by omega)
        · rw [if_neg hlt]
          have hbefore : k < lo + (hi - lo) / 2 := by
            by_contra hafter
            have h := hincr (lo + (hi - lo) / 2) k hmid hklen (by omega)
            rw [hget] at h
            exact hlt h
          exact ih hlo hbefore (by omega) (by omega)

theorem binarySearch_isSome_iff (hasymm : ∀ a b : α, a < b → ¬b < a) {l : List α}
    (hsorted : l.Pairwise (· < ·)) {x : α} : (binarySearch l x).isSome ↔ x ∈ l := by
  constructor
  · intro h
    rcases Option.isSome_iff_exists.mp h with ⟨i, hi⟩
    exact List.mem_of_getElem? (searchLoop_found hi)
  · intro h
    rcases List.mem_iff_getElem?.mp h with ⟨k, hk⟩
    have hlt : k < l.length := (List.getElem?_eq_some_iff.mp hk).1
    exact searchLoop_isSome hasymm hsorted hk (Nat.zero_le k) hlt (Nat.le_refl _)
      (Nat.sub_le _ _)

end SortedList
