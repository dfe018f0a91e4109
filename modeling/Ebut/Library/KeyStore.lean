import Mathlib.Logic.Function.Basic
import Mathlib.Data.List.Basic

/-!
# Key Stores with Expiry

A store whose entries can carry a deadline. An entry whose deadline has passed
is not read any more, but its value stays in the store until the key is written
again, so that a statement can still refer to it.

Time is a number that the operations take as an argument; a deadline has passed
from the moment it names.

## Main definitions

* `Entry`, `Store`: Values with deadlines, and the map from keys to them.
* `Store.get`, `Store.setEx`: Reading and writing a value.
* `Store.setNx`: Writing a value where there is none.
* `Store.sadd`, `Store.expire`: Adding to a set and setting its deadline.
* `Store.Unexpired`: No deadline of a key has passed.
* `Store.Permanent`: No entry has a deadline.
* `Store.Recorded`: A member was added to a key's set, expired or not.

## Theorems

* `Store.setNx_eq_one`, `Store.setNx_fst_of_unexpired`: Writing a value once.
* `Store.sadd_cases`: What an addition can do.
* `Store.recorded_sadd_self`, `Store.Recorded.sadd`: What a set records after an
  addition.
* `Store.sadd_fst_of_recorded`: A recorded member of an unexpired set is not new.
* `Store.Recorded.expire`: A deadline changes no member.
-/

namespace KeyStore

/-- A value and the moment from which it is not read any more, if any. -/
structure Entry (V : Type) where
  value : V
  deadline : Option ℕ

def Entry.Expired {V : Type} (entry : Entry V) (now : ℕ) : Prop :=
  ∃ deadline, entry.deadline = some deadline ∧ deadline ≤ now

instance {V : Type} (entry : Entry V) (now : ℕ) : Decidable (entry.Expired now) :=
  match h : entry.deadline with
  | none => isFalse fun ⟨_, hd, _⟩ => nomatch h.symm.trans hd
  | some deadline =>
      decidable_of_iff (deadline ≤ now)
        ⟨fun hle => ⟨deadline, h, hle⟩,
          fun ⟨_, hd, hle⟩ => Option.some.inj (h.symm.trans hd) ▸ hle⟩

abbrev Store (K V : Type) := K → Option (Entry V)

namespace Store

variable {K V M : Type}

def empty : Store K V := fun _ => none

/-- The entry that a read at `now` sees. -/
def live (store : Store K V) (now : ℕ) (key : K) : Option (Entry V) :=
  (store key).filter fun entry => !decide (entry.Expired now)

def get (store : Store K V) (now : ℕ) (key : K) : Option V :=
  (store.live now key).map Entry.value

/-- The key holds nothing, or something that is still read. -/
def Unexpired (store : Store K V) (now : ℕ) (key : K) : Prop :=
  ∀ entry, store key = some entry → ¬entry.Expired now

instance (store : Store K V) (now : ℕ) (key : K) : Decidable (store.Unexpired now key) :=
  match h : store key with
  | none => isTrue fun _ hentry => nomatch h.symm.trans hentry
  | some entry =>
      decidable_of_iff (¬entry.Expired now)
        ⟨fun hlive _ hentry => Option.some.inj (h.symm.trans hentry) ▸ hlive,
          fun hall => hall entry h⟩

/-- No entry of the store has a deadline. -/
def Permanent (store : Store K V) : Prop :=
  ∀ key entry, store key = some entry → entry.deadline = none

theorem Permanent.unexpired {store : Store K V} (h : store.Permanent) (now : ℕ) (key : K) :
    store.Unexpired now key := by
  intro entry hentry hexpired
  rcases hexpired with ⟨deadline, hdeadline, _⟩
  exact nomatch (h key entry hentry).symm.trans hdeadline

theorem live_eq_of_unexpired {store : Store K V} {now : ℕ} {key : K}
    (h : store.Unexpired now key) : store.live now key = store key := by
  unfold live
  cases hentry : store key with
  | none => rfl
  | some entry =>
      simp only [Option.filter_some, h entry hentry, decide_false, Bool.not_false, if_true]

theorem of_live {store : Store K V} {now : ℕ} {key : K} {entry : Entry V}
    (h : store.live now key = some entry) : store key = some entry :=
  (Option.filter_eq_some_iff.mp h).1

variable [DecidableEq K]

/-- `SETEX`. -/
def setEx (store : Store K V) (key : K) (value : V) (deadline : Option ℕ) : Store K V :=
  Function.update store key (some ⟨value, deadline⟩)

/-- `EXISTS`, and `SETEX` if there is nothing: whether the value was written. -/
def setNx (store : Store K V) (now : ℕ) (key : K) (value : V) (deadline : Option ℕ) :
    ℕ × Store K V :=
  match store.live now key with
  | some _ => (0, store)
  | none => (1, store.setEx key value deadline)

/-- A value that was written is there. -/
theorem setNx_eq_one {store next : Store K V} {now : ℕ} {key : K} {value : V}
    {deadline : Option ℕ} (h : store.setNx now key value deadline = (1, next)) :
    next key = some ⟨value, deadline⟩ := by
  unfold setNx at h
  cases hlive : store.live now key with
  | some entry =>
      rw [hlive] at h
      exact absurd (congrArg Prod.fst h) Nat.zero_ne_one
  | none =>
      rw [hlive] at h
      have hnext : store.setEx key value deadline = next := congrArg Prod.snd h
      rw [← hnext]
      exact Function.update_self ..

/-- Nothing is written over an entry that has not expired. -/
theorem setNx_fst_of_unexpired {store : Store K V} {now : ℕ} {key : K} {entry : Entry V}
    (hentry : store key = some entry) (hkeep : store.Unexpired now key) (value : V)
    (deadline : Option ℕ) : (store.setNx now key value deadline).1 = 0 := by
  simp only [setNx, (live_eq_of_unexpired hkeep).trans hentry]

/-- `EXPIRE`: a key that holds nothing stays as it is. -/
def expire (store : Store K V) (now : ℕ) (key : K) (deadline : Option ℕ) : Store K V :=
  match store.live now key with
  | none => store
  | some entry => Function.update store key (some { entry with deadline := deadline })

theorem expire_of_ne (store : Store K V) (now : ℕ) {key other : K} (deadline : Option ℕ)
    (hne : other ≠ key) : store.expire now key deadline other = store other := by
  unfold expire
  cases store.live now key with
  | none => rfl
  | some entry => exact Function.update_of_ne hne _ _

theorem Permanent.update {store : Store K V} (h : store.Permanent) (key : K) {entry : Entry V}
    (hentry : entry.deadline = none) :
    Permanent (Function.update store key (some entry)) := by
  intro other found hfound
  by_cases hkey : other = key
  · subst hkey
    rw [Function.update_self] at hfound
    exact Option.some.inj hfound ▸ hentry
  · rw [Function.update_of_ne hkey] at hfound
    exact h other found hfound

theorem Permanent.expire {store : Store K V} (h : store.Permanent) (now : ℕ) (key : K) :
    (store.expire now key none).Permanent := by
  unfold Store.expire
  cases store.live now key with
  | none => exact h
  | some entry => exact h.update key rfl

section Sets

variable {store : Store K (List M)} {now : ℕ} {key other : K} {member added : M}

/-- The member was added to the key's set, whether the set has expired or not. -/
def Recorded (store : Store K (List M)) (key : K) (member : M) : Prop :=
  ∃ entry, store key = some entry ∧ member ∈ entry.value

/-- A deadline changes no member. -/
theorem Recorded.expire (h : store.Recorded key member) (deadline : Option ℕ) :
    (store.expire now other deadline).Recorded key member := by
  rcases h with ⟨entry, hentry, hmem⟩
  by_cases hkey : key = other
  · subst hkey
    unfold Store.expire
    cases hlive : store.live now key with
    | none => exact ⟨entry, hentry, hmem⟩
    | some found =>
        have hfound : entry = found := Option.some.inj (hentry.symm.trans (of_live hlive))
        exact ⟨_, Function.update_self .., hfound ▸ hmem⟩
  · exact ⟨entry, (expire_of_ne store now deadline hkey).trans hentry, hmem⟩

variable [DecidableEq M]

/-- `SADD`: how many members were added. A set that has expired is started anew,
without a deadline. -/
def sadd (store : Store K (List M)) (now : ℕ) (key : K) (member : M) : ℕ × Store K (List M) :=
  match store.live now key with
  | none => (1, Function.update store key (some ⟨[member], none⟩))
  | some entry =>
      if member ∈ entry.value then (0, store)
      else (1, Function.update store key (some { entry with value := member :: entry.value }))

/-- An addition finds the member there, or writes an entry that holds it. A live entry
keeps its members and its deadline. -/
theorem sadd_cases (store : Store K (List M)) (now : ℕ) (key : K) (member : M) :
    (store.sadd now key member = (0, store) ∧
      ∃ entry, store key = some entry ∧ member ∈ entry.value) ∨
    ∃ entry, store.sadd now key member = (1, Function.update store key (some entry)) ∧
      member ∈ entry.value ∧
      (store.live now key = none ∧ entry.deadline = none ∨
        ∃ old, store.live now key = some old ∧ old.value ⊆ entry.value ∧
          entry.deadline = old.deadline) := by
  unfold sadd
  cases hlive : store.live now key with
  | none => exact Or.inr ⟨_, rfl, List.mem_singleton_self member, Or.inl ⟨rfl, rfl⟩⟩
  | some entry =>
      by_cases hmem : member ∈ entry.value
      · simp only [if_pos hmem]
        exact Or.inl ⟨trivial, entry, of_live hlive, hmem⟩
      · simp only [if_neg hmem]
        exact Or.inr ⟨_, rfl, List.mem_cons_self,
          Or.inr ⟨entry, rfl, List.subset_cons_self member entry.value, rfl⟩⟩

theorem Permanent.sadd (h : store.Permanent) : (store.sadd now key member).2.Permanent := by
  rcases sadd_cases store now key member with ⟨heq, _⟩ | ⟨entry, heq, _, hfrom⟩
  · rw [heq]
    exact h
  · rw [heq]
    refine h.update key ?_
    rcases hfrom with ⟨_, hdeadline⟩ | ⟨old, hlive, _, hdeadline⟩
    · exact hdeadline
    · exact hdeadline.trans (h key old (of_live hlive))

theorem sadd_of_ne (hne : other ≠ key) : (store.sadd now key member).2 other = store other := by
  rcases sadd_cases store now key member with ⟨heq, _⟩ | ⟨entry, heq, _⟩
  · rw [heq]
  · rw [heq]
    exact Function.update_of_ne hne _ _

theorem recorded_sadd_self : (store.sadd now key member).2.Recorded key member := by
  rcases sadd_cases store now key member with ⟨heq, hthere⟩ | ⟨entry, heq, hmem, _⟩
  · rw [heq]
    exact hthere
  · rw [heq]
    exact ⟨entry, Function.update_self .., hmem⟩

/-- An addition to an unexpired set keeps its members. -/
theorem Recorded.sadd (h : store.Recorded key member)
    (hkeep : other = key → store.Unexpired now other) :
    (store.sadd now other added).2.Recorded key member := by
  by_cases hkey : key = other
  · subst hkey
    rcases sadd_cases store now key added with ⟨heq, _⟩ | ⟨entry, heq, _, hfrom⟩
    · rw [heq]
      exact h
    · rcases h with ⟨found, hfound, hmem⟩
      have hlive : store.live now key = some found :=
        (live_eq_of_unexpired (hkeep rfl)).trans hfound
      rw [heq]
      refine ⟨entry, Function.update_self .., ?_⟩
      -- the set is live, so the entry written extends the one that was found
      rcases hfrom with ⟨hnone, _⟩ | ⟨old, hold, hsub, _⟩
      · exact nomatch hlive.symm.trans hnone
      · exact hsub (Option.some.inj (hlive.symm.trans hold) ▸ hmem)
  · rcases h with ⟨entry, hentry, hmem⟩
    exact ⟨entry, (sadd_of_ne hkey).trans hentry, hmem⟩

/-- A recorded member of an unexpired set is not new. -/
theorem sadd_fst_of_recorded (h : store.Recorded key member) (hkeep : store.Unexpired now key) :
    (store.sadd now key member).1 = 0 := by
  rcases h with ⟨entry, hentry, hmem⟩
  simp only [sadd, (live_eq_of_unexpired hkeep).trans hentry, if_pos hmem]

end Sets

end Store

end KeyStore
