import Mathlib.Data.Nat.Init
import Mathlib.Logic.Equiv.Prod
import Mathlib.Tactic.Choose

/-!
# Randomised Computations That Look Alike

Two randomised computations have the same distribution when a bijection of their coins carries
the result of one to that of the other. What is proved so holds against every observer, and
whatever a hash in the computation is: where the coins are moved by an amount that depends on
the hash of a part of the result, the part that is hashed has to stay.

A machine that is asked by an adversary, who sees all outputs so far, is followed step by step:
states that stay related answer alike for any number of questions.

## Main definitions

* `Alike`: The coins of two computations correspond.
* `hashed`: A correspondence that depends on a common part of the results.
* `Tape`, `outputs`: The coins and the outputs of a number of steps.

## Theorems

* `Alike.bind`: Composition, where the rest depends on the first coins.
* `Alike.pair`: Composition with a common draw that is seen.
* `outputs_alike`: Related states answer alike.
-/

namespace Randomised

variable {α α' β β' γ δ : Type*}

/-- The coins of the two computations correspond, and lead to the same results. -/
def Alike (f : α → δ) (g : β → δ) : Prop := ∃ e : α ≃ β, ∀ a, g (e a) = f a

theorem Alike.refl (f : α → δ) : Alike f f := ⟨Equiv.refl α, fun _ => rfl⟩

theorem Alike.symm {f : α → δ} {g : β → δ} (h : Alike f g) : Alike g f := by
  rcases h with ⟨e, he⟩
  exact ⟨e.symm, fun b => by rw [← he, e.apply_symm_apply]⟩

/-- Whatever is computed from the results is alike. -/
theorem Alike.map {f : α → γ} {g : β → γ} (h : Alike f g) (k : γ → δ) :
    Alike (fun a => k (f a)) (fun b => k (g b)) := by
  rcases h with ⟨e, he⟩
  exact ⟨e, fun a => congrArg k (he a)⟩

/-- First coins that correspond, and for each of them a rest that is alike. -/
theorem Alike.bind {f : α → β → δ} {g : α' → β' → δ} (e : α ≃ α')
    (hrest : ∀ a, Alike (f a) (g (e a))) :
    Alike (fun p : α × β => f p.1 p.2) (fun p : α' × β' => g p.1 p.2) := by
  choose E hE using hrest
  exact ⟨Equiv.prodShear e E, fun p => hE p.1 p.2⟩

/-- A common first draw that is also seen. -/
theorem Alike.pair {f : γ → α → δ} {g : γ → β → δ} (h : ∀ c, Alike (f c) (g c)) :
    Alike (fun p : γ × α => (p.1, f p.1 p.2)) (fun p : γ × β => (p.1, g p.1 p.2)) :=
  Alike.bind (f := fun c a => (c, f c a)) (g := fun c b => (c, g c b)) (Equiv.refl γ) fun c =>
    (h c).map (Prod.mk c)

/-- The correspondence for a value that is computed from a part of the result which every one of
the correspondences keeps. -/
def hashed (part : α → γ) (part' : β → γ) (hash : γ → δ) (T : δ → α ≃ β)
    (hpart : ∀ d a, part' (T d a) = part a) : α ≃ β where
  toFun a := T (hash (part a)) a
  invFun b := (T (hash (part' b))).symm b
  left_inv a := by
    show (T (hash (part' (T (hash (part a)) a)))).symm (T (hash (part a)) a) = a
    rw [hpart, Equiv.symm_apply_apply]
  right_inv b := by
    show T (hash (part ((T (hash (part' b))).symm b))) ((T (hash (part' b))).symm b) = b
    have hkept : part ((T (hash (part' b))).symm b) = part' b := by
      rw [← hpart (hash (part' b)), Equiv.apply_symm_apply]
    rw [hkept, Equiv.apply_symm_apply]

section Machine

variable {σ σ' ι κ ω : Type}

/-- The coins of a number of steps. -/
def Tape (κ : Type) : ℕ → Type
  | 0 => Unit
  | n + 1 => κ × Tape κ n

/-- The outputs of a machine after those that were `seen`. The question of every step is chosen
from all outputs before it. -/
def outputs (step : σ → ι → κ → ω × σ) (ask : List ω → ι) :
    (n : ℕ) → List ω → σ → Tape κ n → List ω
  | 0, seen, _, _ => seen
  | n + 1, seen, s, (k, tape) =>
      let out := step s (ask seen) k
      outputs step ask n (seen ++ [out.1]) out.2 tape

/-- By induction on the number of steps. The states stay related, so that the coins of every
step correspond, whatever is asked. -/
theorem outputs_alike {step : σ → ι → κ → ω × σ} {step' : σ' → ι → κ → ω × σ'}
    (Related : σ → σ' → Prop)
    (hstep : ∀ s s' i, Related s s' → ∃ e : κ ≃ κ, ∀ k,
      (step' s' i (e k)).1 = (step s i k).1 ∧ Related (step s i k).2 (step' s' i (e k)).2)
    (ask : List ω → ι) (n : ℕ) {s : σ} {s' : σ'} (hrelated : Related s s') (seen : List ω) :
    Alike (outputs step ask n seen s) (outputs step' ask n seen s') := by
  induction n generalizing s s' seen with
  | zero => exact Alike.refl _
  | succ n ih =>
      rcases hstep s s' (ask seen) hrelated with ⟨e, he⟩
      have hrest : ∀ k, Alike
          (outputs step ask n (seen ++ [(step s (ask seen) k).1]) (step s (ask seen) k).2)
          (outputs step' ask n (seen ++ [(step' s' (ask seen) (e k)).1])
            (step' s' (ask seen) (e k)).2) := by
        intro k
        rw [(he k).1]
        exact ih (he k).2 _
      exact Alike.bind (g := fun k => outputs step' ask n (seen ++ [(step' s' (ask seen) k).1])
        (step' s' (ask seen) k).2) e hrest

/-- Where single outputs are alike, every answer of one machine is one of the other. -/
theorem exists_output {step : σ → ι → κ → ω × σ} {step' : σ' → ι → κ → ω × σ'} {ask : List ω → ι}
    {s : σ} {s' : σ'} (h : Alike (outputs step ask 1 [] s) (outputs step' ask 1 [] s')) (k : κ) :
    ∃ k', (step' s' (ask []) k').1 = (step s (ask []) k).1 := by
  rcases h with ⟨e, he⟩
  let tape : Tape κ 1 := (k, ())
  exact ⟨(e tape).1, (List.cons.inj (he tape)).1⟩

end Machine

end Randomised
