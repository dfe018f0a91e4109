import Mathlib.Data.List.Forall2
import Mathlib.Tactic.Common

/-!
# Lists in Blocks

A list cut into blocks of a size, the last one shorter when the size does not divide its
length, and a computation that may fail made for every element of a list.

## Main definitions

* `chunks`: The blocks of a list.

## Theorems

* `mem_chunks`: A block is not empty and not larger than the size.
* `flatten_chunks`: The blocks are the list.
* `blocks_induction`: Induction on a list by a block.
* `flatMap_chunks`: Blocks cut into smaller ones that divide them.
* `length_chunks_le`: A list of `k` times the size has at most `k` blocks.
* `mapM_eq_some`, `mapM_eq_ok`: What a computation made for every element returns.
* `bind_eq_ok`, `guard_eq_ok`: What one computation after another returns, or behind a check.
* `foldlM_flatten`: A loop that reads one block at a time reads all of them.
-/

namespace Blocks

universe v

variable {α β : Type*}

/-- The blocks of a list, at most as many as there are turns. -/
def chunksTurns (n : ℕ) : ℕ → List α → List (List α)
  | 0, _ => []
  | _ + 1, [] => []
  | turns + 1, a :: rest => (a :: rest).take n :: chunksTurns n turns ((a :: rest).drop n)

/-- The blocks of a list. It never has more blocks than elements. -/
def chunks (n : ℕ) (l : List α) : List (List α) := chunksTurns n l.length l

theorem mem_chunksTurns {n : ℕ} (hn : 0 < n) {turns : ℕ} {l c : List α}
    (hc : c ∈ chunksTurns n turns l) : c ≠ [] ∧ c.length ≤ n := by
  induction turns generalizing l with
  | zero => exact absurd hc List.not_mem_nil
  | succ turns ih =>
      cases l with
      | nil => exact absurd hc List.not_mem_nil
      | cons a rest =>
          rcases List.mem_cons.mp hc with rfl | hrest
          · refine ⟨?_, List.length_take_le n _⟩
            rw [ne_eq, List.take_eq_nil_iff]
            simp [Nat.ne_of_gt hn]
          · exact ih hrest

theorem mem_chunks {n : ℕ} (hn : 0 < n) {l c : List α} (hc : c ∈ chunks n l) :
    c ≠ [] ∧ c.length ≤ n := mem_chunksTurns hn hc

theorem flatten_chunksTurns {n : ℕ} (hn : 0 < n) {turns : ℕ} {l : List α}
    (hl : l.length ≤ turns) : (chunksTurns n turns l).flatten = l := by
  induction turns generalizing l with
  | zero => rw [List.length_eq_zero_iff.mp (Nat.le_zero.mp hl)]; rfl
  | succ turns ih =>
      cases l with
      | nil => rfl
      | cons a rest =>
          have hdrop : ((a :: rest).drop n).length ≤ turns := by
            rw [List.length_drop, List.length_cons]
            rw [List.length_cons] at hl
            omega
          rw [chunksTurns, List.flatten_cons, ih hdrop, List.take_append_drop]

theorem flatten_chunks {n : ℕ} (hn : 0 < n) (l : List α) : (chunks n l).flatten = l :=
  flatten_chunksTurns hn (Nat.le_refl _)

theorem chunksTurns_eq {n : ℕ} (hn : 0 < n) {turns turns' : ℕ} {l : List α}
    (hl : l.length ≤ turns) (hl' : l.length ≤ turns') :
    chunksTurns n turns l = chunksTurns n turns' l := by
  induction turns generalizing turns' l with
  | zero =>
      rw [List.length_eq_zero_iff.mp (Nat.le_zero.mp hl)]
      cases turns' with
      | zero => rfl
      | succ turns' => rfl
  | succ turns ih =>
      cases l with
      | nil =>
          cases turns' with
          | zero => rfl
          | succ turns' => rfl
      | cons a rest =>
          cases turns' with
          | zero => exact absurd hl' (Nat.not_succ_le_zero _)
          | succ turns' =>
              rw [List.length_cons] at hl hl'
              have hdrop : ((a :: rest).drop n).length ≤ rest.length := by
                rw [List.length_drop, List.length_cons]
                omega
              exact congrArg ((a :: rest).take n :: ·) (ih (by omega) (by omega))

theorem chunks_nil (n : ℕ) : chunks n ([] : List α) = [] := rfl

/-- The first block is taken off, and the rest is cut up. -/
theorem chunks_eq {n : ℕ} (hn : 0 < n) {l : List α} (hl : l ≠ []) :
    chunks n l = l.take n :: chunks n (l.drop n) := by
  cases l with
  | nil => exact absurd rfl hl
  | cons a rest =>
      have hdrop : ((a :: rest).drop n).length ≤ rest.length := by
        rw [List.length_drop, List.length_cons]
        omega
      show (a :: rest).take n :: chunksTurns n rest.length ((a :: rest).drop n) = _
      rw [chunksTurns_eq hn hdrop (Nat.le_refl _)]
      rfl

/-- Induction on a list by a block. -/
theorem blocks_induction {n : ℕ} (hn : 0 < n) {motive : List α → Prop} (nil : motive [])
    (block : ∀ l, l ≠ [] → motive (l.drop n) → motive l) (l : List α) : motive l := by
  induction hlen : l.length using Nat.strongRecOn generalizing l with
  | ind len ih =>
      by_cases hl : l = []
      · exact hl ▸ nil
      · have hpos : 0 < l.length := List.length_pos_of_ne_nil hl
        refine block l hl (ih _ ?_ (l.drop n) rfl)
        rw [List.length_drop]
        omega

theorem chunks_append {n : ℕ} (hn : 0 < n) {a : List α} (ha : n ∣ a.length) (b : List α) :
    chunks n (a ++ b) = chunks n a ++ chunks n b := by
  induction a using blocks_induction hn with
  | nil => rfl
  | block a hne ih =>
      have hlen : n ≤ a.length := Nat.le_of_dvd (List.length_pos_of_ne_nil hne) ha
      have hdvd : n ∣ (a.drop n).length := by
        rw [List.length_drop]
        exact Nat.dvd_sub ha (Nat.dvd_refl n)
      rw [chunks_eq hn (List.append_ne_nil_of_left_ne_nil hne b), chunks_eq hn hne,
        List.take_append_of_le_length hlen, List.drop_append_of_le_length hlen, ih hdvd,
        List.cons_append]

/-- Blocks whose size is a multiple of a smaller one, cut up into the smaller ones. -/
theorem flatMap_chunks {n k : ℕ} (hn : 0 < n) (hk : 0 < k) (l : List α) :
    (chunks (n * k) l).flatMap (chunks n) = chunks n l := by
  have hnk : 0 < n * k := Nat.mul_pos hn hk
  induction l using blocks_induction hnk with
  | nil => rfl
  | block l hne ih =>
      rw [chunks_eq hnk hne, List.flatMap_cons, ih]
      by_cases hlen : l.length ≤ n * k
      · rw [List.take_of_length_le hlen, List.drop_eq_nil_of_le hlen, chunks_nil,
          List.append_nil]
      · have hdvd : n ∣ (l.take (n * k)).length := by
          rw [List.length_take, Nat.min_eq_left (Nat.le_of_not_le hlen)]
          exact Nat.dvd_mul_right n k
        rw [← chunks_append hn hdvd, List.take_append_drop]

theorem mem_chunks_of_mem {n k : ℕ} (hn : 0 < n) (hk : 0 < k) {l c d : List α}
    (hc : c ∈ chunks (n * k) l) (hd : d ∈ chunks n c) : d ∈ chunks n l := by
  rw [← flatMap_chunks hn hk l]
  exact List.mem_flatMap.mpr ⟨c, hc, hd⟩

theorem length_chunksTurns_le {n k turns : ℕ} {l : List α} (hl : l.length ≤ n * k) :
    (chunksTurns n turns l).length ≤ k := by
  induction turns generalizing l k with
  | zero => exact Nat.zero_le k
  | succ turns ih =>
      cases l with
      | nil => exact Nat.zero_le k
      | cons a rest =>
          cases k with
          | zero => exact absurd hl (Nat.not_succ_le_zero _)
          | succ k =>
              rw [chunksTurns, List.length_cons]
              refine Nat.succ_le_succ (ih ?_)
              rw [List.length_drop, Nat.mul_succ] at *
              omega

theorem length_chunks_le {n k : ℕ} {l : List α} (hl : l.length ≤ n * k) :
    (chunks n l).length ≤ k := length_chunksTurns_le hl

theorem chunks_ne_nil {n : ℕ} (hn : 0 < n) {l : List α} (hl : l ≠ []) : chunks n l ≠ [] := by
  intro hnil
  have hflat := flatten_chunks hn l
  rw [hnil] at hflat
  exact hl hflat.symm

/-- A computation made for every element returns when each of them does. -/
theorem mapM_eq_some {f : α → Option β} {l : List α} {bs : List β} :
    l.mapM f = some bs ↔ List.Forall₂ (fun a b => f a = some b) l bs := by
  induction l generalizing bs with
  | nil =>
      rw [List.mapM_nil, List.forall₂_nil_left_iff]
      exact ⟨fun h => (Option.some.inj h).symm, fun h => h ▸ rfl⟩
  | cons a l ih =>
      rw [List.mapM_cons, List.forall₂_cons_left_iff]
      constructor
      · intro h
        rcases Option.bind_eq_some_iff.mp h with ⟨b, hb, hrest⟩
        rcases Option.bind_eq_some_iff.mp hrest with ⟨bs', hbs, heq⟩
        exact ⟨b, bs', hb, ih.mp hbs, (Option.some.inj heq).symm⟩
      · rintro ⟨b, bs', hb, hbs, rfl⟩
        rw [hb, ih.mpr hbs]
        rfl

/-- If it returns for each of them, it returns. -/
theorem exists_mapM_eq_some {f : α → Option β} {l : List α} (h : ∀ a ∈ l, ∃ b, f a = some b) :
    ∃ bs, l.mapM f = some bs := by
  induction l with
  | nil => exact ⟨[], rfl⟩
  | cons a l ih =>
      rcases h a List.mem_cons_self with ⟨b, hb⟩
      rcases ih fun a' ha' => h a' (List.mem_cons_of_mem a ha') with ⟨bs, hbs⟩
      exact ⟨b :: bs, mapM_eq_some.mpr (List.Forall₂.cons hb (mapM_eq_some.mp hbs))⟩

/-- What it returns was returned for some element. -/
theorem exists_of_mem_mapM {f : α → Option β} {l : List α} {bs : List β}
    (hbs : l.mapM f = some bs) {b : β} (hb : b ∈ bs) : ∃ a ∈ l, f a = some b := by
  have hrel := mapM_eq_some.mp hbs
  clear hbs
  induction hrel with
  | nil => exact absurd hb List.not_mem_nil
  | cons hhead _ ih =>
      rcases List.mem_cons.mp hb with rfl | hb
      · exact ⟨_, List.mem_cons_self, hhead⟩
      · rcases ih hb with ⟨a, ha, hfa⟩
        exact ⟨a, List.mem_cons_of_mem _ ha, hfa⟩

/-- Two computations that may fail, one after the other. -/
theorem bind_eq_ok {ε : Type*} {σ τ : Type v} {x : Except ε σ} {f : σ → Except ε τ} {b : τ} :
    (x >>= f) = .ok b ↔ ∃ a, x = .ok a ∧ f a = .ok b := by
  cases x with
  | error e => exact ⟨fun h => (nomatch h), fun h => h.elim fun _ ha => (nomatch ha.1)⟩
  | ok a => exact ⟨fun h => ⟨a, rfl, h⟩, fun h => h.elim fun _ ha => Except.ok.inj ha.1 ▸ ha.2⟩

/-- A computation behind a check. -/
theorem guard_eq_ok {ε σ : Type*} {p : Prop} [Decidable p] {e : ε} {x : Except ε σ} {b : σ} :
    (if p then .error e else x) = .ok b ↔ ¬p ∧ x = .ok b := by
  by_cases hp : p
  · rw [if_pos hp]
    exact ⟨fun h => (nomatch h), fun h => absurd hp h.1⟩
  · rw [if_neg hp]
    exact ⟨fun h => ⟨hp, h⟩, fun h => h.2⟩

/-- The same for a computation that fails with an error. -/
theorem mapM_eq_ok {ε : Type*} {f : α → Except ε β} {l : List α} {bs : List β} :
    l.mapM f = .ok bs ↔ List.Forall₂ (fun a b => f a = .ok b) l bs := by
  induction l generalizing bs with
  | nil =>
      rw [List.mapM_nil, List.forall₂_nil_left_iff]
      exact ⟨fun h => (Except.ok.inj h).symm, fun h => h ▸ rfl⟩
  | cons a l ih =>
      rw [List.mapM_cons, List.forall₂_cons_left_iff, bind_eq_ok]
      constructor
      · rintro ⟨b, hb, h⟩
        rcases bind_eq_ok.mp h with ⟨bs', hbs, hcons⟩
        exact ⟨b, bs', hb, ih.mp hbs, (Except.ok.inj hcons).symm⟩
      · rintro ⟨b, bs', hb, hbs, rfl⟩
        exact ⟨b, hb, bind_eq_ok.mpr ⟨bs', ih.mpr hbs, rfl⟩⟩

/-- If it returns for each of them, it returns, and what holds of each result holds. -/
theorem exists_mapM_eq_ok {ε : Type*} {f : α → Except ε β} {Q : α → β → Prop} {l : List α}
    (h : ∀ a ∈ l, ∃ b, f a = .ok b ∧ Q a b) :
    ∃ bs, l.mapM f = .ok bs ∧ List.Forall₂ Q l bs := by
  induction l with
  | nil => exact ⟨[], rfl, List.Forall₂.nil⟩
  | cons a l ih =>
      rcases h a List.mem_cons_self with ⟨b, hb, hQ⟩
      rcases ih fun a' ha' => h a' (List.mem_cons_of_mem a ha') with ⟨bs, hbs, hall⟩
      exact ⟨b :: bs, mapM_eq_ok.mpr (List.Forall₂.cons hb (mapM_eq_ok.mp hbs)),
        List.Forall₂.cons hQ hall⟩

/-- A loop that may fail and does not is one that cannot. -/
theorem foldlM_eq_pure {m : Type v → Type*} [Monad m] [LawfulMonad m] {σ : Type v}
    {f : σ → α → m σ} {g : σ → α → σ} {l : List α}
    (h : ∀ a ∈ l, ∀ acc, f acc a = pure (g acc a)) (acc : σ) :
    l.foldlM f acc = pure (l.foldl g acc) := by
  induction l generalizing acc with
  | nil => rfl
  | cons a l ih =>
      rw [List.foldlM_cons, h a List.mem_cons_self, pure_bind]
      exact ih (fun a' ha' => h a' (List.mem_cons_of_mem a ha')) _

theorem foldlM_eq_ok {ε σ : Type*} {f : σ → α → Except ε σ} {g : σ → α → σ} {l : List α}
    (h : ∀ a ∈ l, ∀ acc, f acc a = .ok (g acc a)) (acc : σ) :
    l.foldlM f acc = .ok (l.foldl g acc) :=
  foldlM_eq_pure h acc

theorem foldlM_eq_some {σ : Type*} {f : σ → α → Option σ} {g : σ → α → σ} {l : List α}
    (h : ∀ a ∈ l, ∀ acc, f acc a = some (g acc a)) (acc : σ) :
    l.foldlM f acc = some (l.foldl g acc) :=
  foldlM_eq_pure h acc

/-- A loop over items that each add a block, as long as there is room, adds all of them. -/
theorem foldlM_flatten {ε : Type*} {step : List α → β → Except ε (List α)} {size : ℕ}
    {blocks : List (List α)} {items : List β}
    (h : List.Forall₂ (fun block item => ∀ out, out.length + block.length ≤ size →
      step out item = .ok (out ++ block)) blocks items) {out : List α}
    (hsize : out.length + blocks.flatten.length ≤ size) :
    items.foldlM step out = .ok (out ++ blocks.flatten) := by
  induction h generalizing out with
  | nil =>
      rw [List.flatten_nil, List.append_nil]
      rfl
  | cons hstep _ ih =>
      rw [List.flatten_cons, List.length_append] at hsize
      rw [List.foldlM_cons, hstep out (by omega)]
      refine (ih ?_).trans ?_
      · rw [List.length_append]
        omega
      · rw [List.flatten_cons, List.append_assoc]

/-- What holds of every element with its position holds of the elements. -/
theorem forall₂_of_zipIdx {P : α → ℕ → β → Prop} {l : List α} {bs : List β}
    (h : List.Forall₂ (fun p b => P p.1 p.2 b) l.zipIdx bs) :
    List.Forall₂ (fun a b => ∃ i, P a i b) l bs := by
  rw [← List.zipIdx_map_fst 0 l, List.forall₂_map_left_iff]
  exact h.imp fun p b hp => ⟨p.2, hp⟩

/-- The positions of the elements are those of what they are related to. -/
theorem forall₂_zipIdx {P : α → ℕ → β → Prop} {l : List α} {bs : List β} {k : ℕ}
    (h : List.Forall₂ (fun p b => P p.1 p.2 b) (l.zipIdx k) bs) :
    List.Forall₂ (fun a q => P a q.2 q.1) l (bs.zipIdx k) := by
  induction l generalizing bs k with
  | nil =>
      rw [List.zipIdx_nil, List.forall₂_nil_left_iff] at h
      rw [h]
      exact List.Forall₂.nil
  | cons a l ih =>
      rw [List.zipIdx_cons, List.forall₂_cons_left_iff] at h
      rcases h with ⟨b, bs', hb, hrest, rfl⟩
      exact List.Forall₂.cons hb (ih hrest)

/-- Two lists related to a third element by element are related to each other. -/
theorem forall₂_of_common {γ : Type*} {P : α → β → Prop} {Q : α → γ → Prop} {S : β → γ → Prop}
    (hS : ∀ a b c, P a b → Q a c → S b c) {l : List α} {bs : List β} {cs : List γ}
    (hP : List.Forall₂ P l bs) (hQ : List.Forall₂ Q l cs) : List.Forall₂ S bs cs := by
  induction hP generalizing cs with
  | nil =>
      rw [List.forall₂_nil_left_iff.mp hQ]
      exact List.Forall₂.nil
  | cons hab _ ih =>
      rcases List.forall₂_cons_left_iff.mp hQ with ⟨c, cs', hac, hrest, rfl⟩
      exact List.Forall₂.cons (hS _ _ _ hab hac) (ih hrest)

end Blocks
