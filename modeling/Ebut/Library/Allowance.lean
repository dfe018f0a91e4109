import Mathlib.Algebra.Order.BigOperators.Group.List
import Mathlib.Algebra.Order.Ring.Nat
import Mathlib.Tactic.Common

/-!
# Allowances Carried by Tokens

An account is granted amounts, each as a token with a serial. A spend names a
token that was issued before and takes some of its amount; the rest is issued as a
new token under a serial that the spender chooses. Serials are not required to
differ: what is required of a history is that no spend names a serial that an
earlier spend has named.

A token whose serial was spent is worthless, and the tokens of an account that are
not worthless, together with what was spent on the account, never exceed what it
was granted.

Histories are lists of events, newest first.

## Main definitions

* `Token`, `Event`: What is issued, and what happens.
* `Valid`: Every spend is of an issued token under an unspent serial.
* `granted`, `spent`: What an account was granted and what was spent on it.
* `outstanding`: What the unspent tokens of an account carry.

## Theorems

* `spent_add_outstanding_le`: The invariant of a valid history.
* `spent_le_granted`: No account is overspent.
-/

namespace Allowance

structure Token (α κ : Type) where
  account : α
  serial : κ
  amount : ℕ
  deriving DecidableEq

inductive Event (α κ : Type) where
  | grant (token : Token α κ)
  /-- An amount is taken from a token; the rest carries the serial `next`. -/
  | spend (token : Token α κ) (amount : ℕ) (next : κ)

variable {α κ : Type}

/-- The token that an event issues. -/
def Event.issued : Event α κ → Token α κ
  | .grant token => token
  | .spend token amount next => ⟨token.account, next, token.amount - amount⟩

/-- The serial that an event spends. -/
def Event.serial : Event α κ → Option κ
  | .grant _ => none
  | .spend token _ _ => some token.serial

/-- The serials spent in a history. -/
def serials (history : List (Event α κ)) : List κ := history.filterMap Event.serial

/-- The tokens issued in a history. -/
def tokens (history : List (Event α κ)) : List (Token α κ) := history.map Event.issued

/-- Every spend is of an issued token that carries the amount, under a serial that
was not spent before. -/
def Valid : List (Event α κ) → Prop
  | [] => True
  | .grant _ :: history => Valid history
  | .spend token amount _ :: history =>
      token ∈ tokens history ∧ amount ≤ token.amount ∧ token.serial ∉ serials history ∧
        Valid history

variable [DecidableEq α] [DecidableEq κ] (account : α)

def grantedBy : Event α κ → ℕ
  | .grant token => if token.account = account then token.amount else 0
  | .spend _ _ _ => 0

def spentBy : Event α κ → ℕ
  | .grant _ => 0
  | .spend token amount _ => if token.account = account then amount else 0

/-- What an account was granted. -/
def granted (history : List (Event α κ)) : ℕ := (history.map (grantedBy account)).sum

/-- What was spent on an account. -/
def spent (history : List (Event α κ)) : ℕ := (history.map (spentBy account)).sum

/-- What a token still carries for an account, given the serials spent. -/
def worth (used : List κ) (token : Token α κ) : ℕ :=
  if token.account = account ∧ token.serial ∉ used then token.amount else 0

/-- What the unspent tokens of an account carry. -/
def outstanding (history : List (Event α κ)) : ℕ :=
  ((tokens history).map (worth account (serials history))).sum

theorem worth_cons_le (used : List κ) (serial : κ) (token : Token α κ) :
    worth account (serial :: used) token ≤ worth account used token := by
  unfold worth
  by_cases hnew : token.account = account ∧ token.serial ∉ serial :: used
  · have hold : token.account = account ∧ token.serial ∉ used :=
      ⟨hnew.1, fun hmem => hnew.2 (List.mem_cons_of_mem serial hmem)⟩
    rw [if_pos hnew, if_pos hold]
  · rw [if_neg hnew]
    exact Nat.zero_le _

theorem worth_le (used : List κ) (token : Token α κ) :
    worth account used token ≤ token.amount := by
  unfold worth
  by_cases h : token.account = account ∧ token.serial ∉ used
  · rw [if_pos h]
  · rw [if_neg h]
    exact Nat.zero_le _

theorem worth_le_grantedBy (used : List κ) (token : Token α κ) :
    worth account used token ≤ grantedBy account (.grant token : Event α κ) := by
  by_cases hacc : token.account = account
  · exact (worth_le account used token).trans_eq (if_pos hacc).symm
  · exact (if_neg fun h => hacc h.1).trans_le (Nat.zero_le _)

/-- Spending one more serial takes nothing away from what the tokens are worth
beyond that. -/
theorem sum_worth_cons_le (used : List κ) (serial : κ) (issued : List (Token α κ)) :
    (issued.map (worth account (serial :: used))).sum ≤
      (issued.map (worth account used)).sum :=
  List.sum_le_sum fun token _ => worth_cons_le account used serial token

/-- Spending the serial of an issued token takes at least its amount away. -/
theorem sum_worth_retire {used : List κ} {issued : List (Token α κ)} {token : Token α κ}
    (hmem : token ∈ issued) (hfresh : token.serial ∉ used) :
    (issued.map (worth token.account (token.serial :: used))).sum + token.amount ≤
      (issued.map (worth token.account used)).sum := by
  induction issued with
  | nil => exact absurd hmem List.not_mem_nil
  | cons first issued ih =>
      simp only [List.map_cons, List.sum_cons]
      by_cases hfirst : token = first
      · -- the token itself is worthless afterwards and carried its amount before
        subst hfirst
        have hafter : worth token.account (token.serial :: used) token = 0 :=
          if_neg fun h => h.2 List.mem_cons_self
        have hbefore : worth token.account used token = token.amount := if_pos ⟨rfl, hfresh⟩
        have hrest := sum_worth_cons_le token.account used token.serial issued
        omega
      · have hrest := ih ((List.mem_cons.mp hmem).resolve_left hfirst)
        have hhead := worth_cons_le token.account used token.serial first
        omega

/-- What was spent on an account and what its unspent tokens carry never exceed
what it was granted. -/
theorem spent_add_outstanding_le {history : List (Event α κ)} (h : Valid history) :
    spent account history + outstanding account history ≤ granted account history := by
  induction history with
  | nil => exact Nat.le_refl 0
  | cons event history ih =>
      cases event with
      | grant token =>
          have hold := ih h
          have hnew := worth_le_grantedBy account (serials history) token
          simp only [spent, granted, outstanding, tokens, serials, List.map_cons, List.sum_cons,
            List.filterMap_cons, Event.serial, Event.issued, spentBy] at hold hnew ⊢
          omega
      | spend token amount next =>
          rcases h with ⟨hmem, hle, hfresh, hvalid⟩
          have hold := ih hvalid
          simp only [spent, granted, outstanding, tokens, serials, List.map_cons, List.sum_cons,
            List.filterMap_cons, Event.serial, Event.issued, spentBy, grantedBy]
            at hold hmem hfresh ⊢
          -- the token spent is worthless from here on, and its rest is worth no more
          by_cases hacc : token.account = account
          · subst hacc
            have hretire := sum_worth_retire hmem hfresh
            have hissued := worth_le token.account
              (token.serial :: history.filterMap Event.serial)
              (⟨token.account, next, token.amount - amount⟩ : Token α κ)
            rw [if_pos rfl]
            simp only at hissued
            omega
          · have hissued : worth account (token.serial :: history.filterMap Event.serial)
                (⟨token.account, next, token.amount - amount⟩ : Token α κ) = 0 :=
              if_neg fun h => hacc h.1
            have hrest := sum_worth_cons_le account (history.filterMap Event.serial) token.serial
              (history.map Event.issued)
            rw [if_neg hacc, hissued]
            omega

/-- No account is overspent. -/
theorem spent_le_granted {history : List (Event α κ)} (h : Valid history) :
    spent account history ≤ granted account history :=
  (Nat.le_add_right _ _).trans (spent_add_outstanding_le account h)

end Allowance
