import Ebut.Library.LittleEndian
import Mathlib.Data.Set.Function

/-!
# Self-Delimiting Encodings

When a string says what was written into it. An encoding is self-delimiting on a set when two
equal strings that begin with encodings of elements of the set begin with the same element and
go on in the same way: whoever reads the string knows where the encoding ends, without knowing
what follows.

This is stronger than injectivity and composes. Encodings of fixed length are self-delimiting
when they are injective, so is one of them after another, where the second may depend on what
the first has encoded, and so is a list behind its length. At the end of a string, where
nothing follows, a list needs no length.

## Main definitions

* `SelfDelimiting`: The end of an encoding can be found.

## Theorems

* `SelfDelimiting.injOn`, `SelfDelimiting.prefixFree`: What it implies.
* `selfDelimiting_vector`: Encodings of fixed length.
* `SelfDelimiting.bind`, `SelfDelimiting.prod`, `SelfDelimiting.comap`: Composition.
* `SelfDelimiting.counted`, `SelfDelimiting.framed`: Lists of known length, and behind it.
* `SelfDelimiting.flatMap_injOn`: A list that ends the string.
-/

namespace Framing

open LittleEndian

variable {α β σ : Type*}

/-- Equal strings that begin with encodings of elements of `S` begin with the same element and
go on in the same way. -/
def SelfDelimiting (S : Set α) (encode : α → List σ) : Prop :=
  ∀ ⦃a⦄, a ∈ S → ∀ ⦃b⦄, b ∈ S → ∀ ⦃rest rest' : List σ⦄,
    encode a ++ rest = encode b ++ rest' → a = b ∧ rest = rest'

section Consequences

variable {S : Set α} {encode : α → List σ}

theorem SelfDelimiting.injOn (h : SelfDelimiting S encode) : Set.InjOn encode S :=
  fun _ ha _ hb heq => (h ha hb (congrArg (· ++ []) heq)).1

/-- No encoding is the beginning of another. -/
theorem SelfDelimiting.prefixFree (h : SelfDelimiting S encode) {a b : α} (ha : a ∈ S)
    (hb : b ∈ S) (hbegins : encode a <+: encode b) : a = b := by
  rcases hbegins with ⟨rest, hrest⟩
  rw [← List.append_nil (encode b)] at hrest
  exact (h ha hb hrest).1

end Consequences

section Basic

/-- An injective encoding of fixed length. -/
theorem selfDelimiting_of_length {S : Set α} {encode : α → List σ} {n : ℕ}
    (hlength : ∀ a ∈ S, (encode a).length = n) (hinj : Set.InjOn encode S) :
    SelfDelimiting S encode := by
  intro a ha b hb rest rest' heq
  rcases List.append_inj heq ((hlength a ha).trans (hlength b hb).symm) with ⟨hcode, hrest⟩
  exact ⟨hinj ha hb hcode, hrest⟩

theorem selfDelimiting_vector {n : ℕ} {encode : α → List.Vector σ n}
    (hinj : Function.Injective encode) :
    SelfDelimiting Set.univ fun a => (encode a).toList :=
  selfDelimiting_of_length (fun a _ => (encode a).toList_length)
    fun _ _ _ _ h => hinj (List.Vector.toList_injective h)

theorem selfDelimiting_singleton : SelfDelimiting (Set.univ : Set σ) fun a => [a] :=
  selfDelimiting_of_length (n := 1) (fun _ _ => rfl) fun _ _ _ _ h => (List.cons.inj h).1

theorem selfDelimiting_leBytes (n : ℕ) : SelfDelimiting {v | v < 256 ^ n} (leBytes n) :=
  selfDelimiting_of_length (fun v _ => leBytes_length n v) fun _ ha _ hb h =>
    leBytes_injOn ha hb h

end Basic

section Composition

variable {S : Set α} {encode : α → List σ}

/-- The encoding of what an element is turned into. -/
theorem SelfDelimiting.comap {T : Set β} {encode : β → List σ} (h : SelfDelimiting T encode)
    {f : α → β} (hmaps : Set.MapsTo f S T) (hinj : Set.InjOn f S) :
    SelfDelimiting S fun a => encode (f a) := by
  intro a ha b hb rest rest' heq
  rcases h (hmaps ha) (hmaps hb) heq with ⟨hf, hrest⟩
  exact ⟨hinj ha hb hf, hrest⟩

/-- One encoding after another, which may depend on what the first has encoded. -/
theorem SelfDelimiting.bind {T : α → Set β} {next : α → β → List σ}
    (h : SelfDelimiting S encode) (hnext : ∀ a ∈ S, SelfDelimiting (T a) (next a)) :
    SelfDelimiting {p : α × β | p.1 ∈ S ∧ p.2 ∈ T p.1} fun p => encode p.1 ++ next p.1 p.2 := by
  rintro ⟨a, b⟩ ⟨ha, hb⟩ ⟨a', b'⟩ ⟨ha', hb'⟩ rest rest' heq
  simp only [List.append_assoc] at ha hb ha' hb' heq
  rcases h ha ha' heq with ⟨rfl, htail⟩
  rcases hnext a ha hb hb' htail with ⟨rfl, hrest⟩
  exact ⟨rfl, hrest⟩

theorem SelfDelimiting.prod {T : Set β} {next : β → List σ} (h : SelfDelimiting S encode)
    (hnext : SelfDelimiting T next) :
    SelfDelimiting {p : α × β | p.1 ∈ S ∧ p.2 ∈ T} fun p => encode p.1 ++ next p.2 :=
  h.bind fun _ _ => hnext

/-- A list whose length is known. -/
theorem SelfDelimiting.counted (h : SelfDelimiting S encode) (n : ℕ) :
    SelfDelimiting {l : List α | l.length = n ∧ ∀ a ∈ l, a ∈ S} fun l => l.flatMap encode := by
  induction n with
  | zero =>
      rintro as ⟨ha, -⟩ bs ⟨hb, -⟩ rest rest' heq
      rw [List.length_eq_zero_iff.mp ha, List.length_eq_zero_iff.mp hb] at heq ⊢
      exact ⟨rfl, heq⟩
  | succ n ih =>
      rintro as ⟨ha, hin⟩ bs ⟨hb, hin'⟩ rest rest' heq
      -- both lists have a first element, since both have the length
      rcases as with _ | ⟨a, as⟩
      · exact absurd ha (Nat.succ_ne_zero n).symm
      rcases bs with _ | ⟨b, bs⟩
      · exact absurd hb (Nat.succ_ne_zero n).symm
      rw [List.forall_mem_cons] at hin hin'
      simp only [List.flatMap_cons, List.append_assoc] at heq
      rcases h hin.1 hin'.1 heq with ⟨rfl, htail⟩
      rcases ih ⟨Nat.succ_inj.mp ha, hin.2⟩ ⟨Nat.succ_inj.mp hb, hin'.2⟩ htail with ⟨rfl, hrest⟩
      exact ⟨rfl, hrest⟩

/-- A list behind its length. -/
theorem SelfDelimiting.framed {N : Set ℕ} {count : ℕ → List σ} (hcount : SelfDelimiting N count)
    (h : SelfDelimiting S encode) :
    SelfDelimiting {l : List α | l.length ∈ N ∧ ∀ a ∈ l, a ∈ S} fun l =>
      count l.length ++ l.flatMap encode :=
  -- the number that is read says how many elements are left to read
  (hcount.bind fun n _ => h.counted n).comap (f := fun l : List α => (l.length, l))
    (fun _ hl => ⟨hl.1, rfl, hl.2⟩) fun _ _ _ _ heq => (Prod.mk.inj heq).2

/-- A list that ends the string, of elements that are not encoded by the empty string. -/
theorem SelfDelimiting.flatMap_injOn (h : SelfDelimiting S encode)
    (hne : ∀ a ∈ S, encode a ≠ []) :
    Set.InjOn (fun l : List α => l.flatMap encode) {l | ∀ a ∈ l, a ∈ S} := by
  intro as
  induction as with
  | nil =>
      intro _ bs hin' heq
      rcases bs with _ | ⟨b, bs⟩
      · rfl
      · have hhead : encode b = [] := (List.append_eq_nil_iff.mp heq.symm).1
        exact absurd hhead (hne b (hin' b List.mem_cons_self))
  | cons a as ih =>
      intro hin bs hin' heq
      rcases bs with _ | ⟨b, bs⟩
      · have hhead : encode a = [] := (List.append_eq_nil_iff.mp heq).1
        exact absurd hhead (hne a (hin a List.mem_cons_self))
      · have hin2 := List.forall_mem_cons.mp hin
        have hin2' := List.forall_mem_cons.mp hin'
        rcases h hin2.1 hin2'.1 heq with ⟨rfl, htail⟩
        rw [ih hin2.2 hin2'.2 htail]

end Composition

end Framing
