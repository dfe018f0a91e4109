import Ebut.Library.Blocks
import Mathlib.Algebra.GroupWithZero.Nat

/-!
# Reading Pieces up to a Size

A loop that reads pieces of wanted lengths one after the other into a buffer, until the buffer
has a given size. A piece is cut at what is missing, and nothing is read once the buffer is
full, so the buffer never has more than the size and a difference to it never underflows.

The loop does not notice when the pieces run out first. It ends with as many bytes as were
wanted or as fit, whichever is less, and it fails only where a piece that is read cannot be
decoded at the length asked for.

## Main definitions

* `readPiece`: One turn.
* `Reached`: What holds of every piece that is read, at the length asked for.
* `ReadsOver`: A piece is read at a length above a bound.

## Theorems

* `foldlM_readPiece_length`: How much a loop that succeeds has read.
* `foldlM_readPiece_le`: It is no more than the size.
* `foldlM_readPiece_nil_length`, `foldlM_readPiece_nil_ok_iff`: The same from an empty buffer.
* `foldlM_readPiece_ok_iff`: When the loop succeeds.
* `reached_iff`: The pieces that are read are those with room left by the ones before them.
* `not_reached_iff`: A bound that is not kept is exceeded at one of them.
* `reached_const`: Pieces that are all wanted at one length.
* `foldlM_pieces_ok`: A loop over lists of pieces that have to be found first.
-/

namespace BoundedRead

universe v

variable {α β ε : Type*}

/-- One turn: a piece is cut at what is missing, and skipped if nothing is. -/
def readPiece (decode : α → ℕ → Except ε (List β)) (want : α → ℕ) (size : ℕ) (out : List β)
    (a : α) : Except ε (List β) :=
  if out.length ≥ size then .ok out
  else (decode a (min (size - out.length) (want a))).map fun piece => out ++ piece

/-- Every piece that is read has the property at the length asked for, when so much has been
read before. -/
def Reached (p : α → ℕ → Prop) (want : α → ℕ) (size : ℕ) : ℕ → List α → Prop
  | _, [] => True
  | read, a :: as => (read < size → p a (min (size - read) (want a))) ∧
      Reached p want size (min size (read + want a)) as

section Loop

variable {decode : α → ℕ → Except ε (List β)} {want : α → ℕ} {size : ℕ} {out : List β}
  (hlen : ∀ a n piece, n ≤ want a → decode a n = .ok piece → piece.length = n)

include hlen

theorem readPiece_length (hout : out.length ≤ size) {a : α} {out' : List β}
    (h : readPiece decode want size out a = .ok out') :
    out'.length = min size (out.length + want a) := by
  unfold readPiece at h
  by_cases hfull : out.length ≥ size
  · rw [if_pos hfull] at h
    cases h
    omega
  · rw [if_neg hfull] at h
    rcases hpiece : decode a (min (size - out.length) (want a)) with e | piece
    · rw [hpiece] at h
      exact nomatch h
    · rw [hpiece] at h
      cases h
      have hcut := hlen a _ piece (Nat.min_le_right _ _) hpiece
      rw [List.length_append, hcut]
      omega

/-- A loop that succeeds has read what was wanted, or what fits. -/
theorem foldlM_readPiece_length {as : List α} (hout : out.length ≤ size) {out' : List β}
    (h : as.foldlM (readPiece decode want size) out = .ok out') :
    out'.length = min size (out.length + (as.map want).sum) := by
  induction as generalizing out with
  | nil =>
      cases h
      rw [List.map_nil, List.sum_nil]
      omega
  | cons a as ih =>
      rw [List.foldlM_cons] at h
      rcases hstep : readPiece decode want size out a with e | next
      · rw [hstep] at h
        exact nomatch h
      · rw [hstep] at h
        have hnext := readPiece_length hlen hout hstep
        rw [ih (by omega) h, hnext, List.map_cons, List.sum_cons]
        omega

/-- The same from an empty buffer, which is not cut by taking as much as the size again. -/
theorem foldlM_readPiece_nil_length {as : List α} {out' : List β}
    (h : as.foldlM (readPiece decode want size) [] = .ok out') :
    out'.length = min size (as.map want).sum ∧ out'.take size = out' := by
  have hread := foldlM_readPiece_length hlen (Nat.zero_le size) h
  rw [List.length_nil, Nat.zero_add] at hread
  refine ⟨hread, List.take_of_length_le ?_⟩
  rw [hread]
  exact Nat.min_le_left _ _

/-- What was read never exceeds the size. -/
theorem foldlM_readPiece_le {as : List α} (hout : out.length ≤ size) {out' : List β}
    (h : as.foldlM (readPiece decode want size) out = .ok out') : out'.length ≤ size := by
  rw [foldlM_readPiece_length hlen hout h]
  exact Nat.min_le_left _ _

/-- The loop succeeds when every piece that is read can be decoded. -/
theorem foldlM_readPiece_ok_iff {as : List α} (hout : out.length ≤ size) :
    (∃ out', as.foldlM (readPiece decode want size) out = .ok out') ↔
      Reached (fun a n => ∃ piece, decode a n = .ok piece) want size out.length as := by
  induction as generalizing out with
  | nil => exact ⟨fun _ => trivial, fun _ => ⟨out, rfl⟩⟩
  | cons a as ih =>
      rw [Reached, List.foldlM_cons]
      rcases hstep : readPiece decode want size out a with e | next
      · -- the turn fails, so a piece is read and not decoded
        constructor
        · rintro ⟨out', h⟩
          exact nomatch h
        · rintro ⟨hread, -⟩
          unfold readPiece at hstep
          by_cases hfull : out.length ≥ size
          · rw [if_pos hfull] at hstep
            exact nomatch hstep
          · rcases hread (by omega) with ⟨piece, hpiece⟩
            rw [if_neg hfull, hpiece] at hstep
            exact nomatch hstep
      · have hnext := readPiece_length hlen hout hstep
        have hread : out.length < size →
            ∃ piece, decode a (min (size - out.length) (want a)) = .ok piece := by
          intro hopen
          unfold readPiece at hstep
          rw [if_neg (by omega)] at hstep
          rcases hpiece : decode a (min (size - out.length) (want a)) with e | piece
          · rw [hpiece] at hstep
            exact nomatch hstep
          · exact ⟨piece, rfl⟩
        rw [← hnext]
        exact (ih (by omega)).trans ⟨fun h => ⟨hread, h⟩, fun h => h.2⟩

theorem foldlM_readPiece_nil_ok_iff {as : List α} :
    (∃ out', as.foldlM (readPiece decode want size) [] = .ok out') ↔
      Reached (fun a n => ∃ piece, decode a n = .ok piece) want size 0 as :=
  foldlM_readPiece_ok_iff hlen (Nat.zero_le size)

end Loop

variable {p q : α → ℕ → Prop} {want : α → ℕ} {size read : ℕ} {as : List α}

theorem Reached.congr (hpq : ∀ a n, p a n ↔ q a n) :
    Reached p want size read as ↔ Reached q want size read as := by
  induction as generalizing read with
  | nil => exact Iff.rfl
  | cons a as ih => rw [Reached, Reached, ih, hpq]

/-- A weaker property of the pieces, at no more than the length wanted. -/
theorem Reached.mono (hpq : ∀ a ∈ as, ∀ n ≤ want a, p a n → q a n)
    (h : Reached p want size read as) : Reached q want size read as := by
  induction as generalizing read with
  | nil => exact trivial
  | cons a as ih =>
      exact ⟨fun hlt => hpq a List.mem_cons_self _ (Nat.min_le_right _ _) (h.1 hlt),
        ih (fun b hb => hpq b (List.mem_cons_of_mem a hb)) h.2⟩

/-- A piece is read when those before it leave room, at what is missing then. -/
theorem reached_iff : Reached p want size read as ↔
    ∀ before a after, as = before ++ a :: after → read + (before.map want).sum < size →
      p a (min (size - (read + (before.map want).sum)) (want a)) := by
  induction as generalizing read with
  | nil =>
      exact ⟨fun _ before a after h => absurd h.symm (List.append_ne_nil_of_right_ne_nil before
        (List.cons_ne_nil a after)), fun _ => trivial⟩
  | cons b as ih =>
      rw [Reached, ih]
      constructor
      · rintro ⟨hfirst, hrest⟩ before a after hsplit hroom
        cases before with
        | nil =>
            obtain ⟨rfl, rfl⟩ := List.cons.inj hsplit
            exact hfirst hroom
        | cons c before =>
            obtain ⟨rfl, htail⟩ := List.cons.inj hsplit
            rw [List.map_cons, List.sum_cons] at hroom ⊢
            have hnext := hrest before a after htail (by omega)
            have hsame : min size (read + want b) + (before.map want).sum =
                read + (want b + (before.map want).sum) := by omega
            rwa [hsame] at hnext
      · intro h
        refine ⟨fun hlt => h [] b as rfl hlt, fun before a after hsplit hroom => ?_⟩
        have hroom' : read + ((b :: before).map want).sum < size := by
          rw [List.map_cons, List.sum_cons]
          omega
        have hnext := h (b :: before) a after (congrArg (b :: ·) hsplit) hroom'
        have hsame : read + ((b :: before).map want).sum =
            min size (read + want b) + (before.map want).sum := by
          rw [List.map_cons, List.sum_cons] at hroom' ⊢
          omega
        rwa [hsame] at hnext

/-- Some piece is read at a length above the bound: those before it leave room for more. -/
def ReadsOver (bound size : ℕ) (lengths : List ℕ) : Prop :=
  ∃ before n after, lengths = before ++ n :: after ∧ bound < min (size - before.sum) n

theorem not_reached_iff {bound : ℕ} {lengths : List ℕ} :
    ¬Reached (fun _ n => n ≤ bound) id size 0 lengths ↔ ReadsOver bound size lengths := by
  simp only [reached_iff, List.map_id, Nat.zero_add, id_eq]
  constructor
  · intro h
    simp only [not_forall, exists_prop] at h
    rcases h with ⟨before, n, after, hsplit, -, hover⟩
    exact ⟨before, n, after, hsplit, Nat.lt_of_not_ge hover⟩
  · rintro ⟨before, n, after, hsplit, hover⟩ h
    have := h before n after hsplit (by omega)
    omega

theorem reached_map {γ : Type*} (f : γ → α) {cs : List γ} :
    Reached p want size read (cs.map f) ↔
      Reached (fun c n => p (f c) n) (fun c => want (f c)) size read cs := by
  induction cs generalizing read with
  | nil => exact Iff.rfl
  | cons c cs ih => rw [List.map_cons, Reached, Reached, ih]

/-- Pieces that are all wanted at one length: the first one is read at the greatest length. -/
theorem reached_const {bound w : ℕ} (hread : read = 0 ∨ min size w ≤ bound) :
    Reached (fun _ n => n ≤ bound) (fun _ : α => w) size read as ↔
      as = [] ∨ min size w ≤ bound := by
  cases as with
  | nil => exact ⟨fun _ => Or.inl rfl, fun _ => trivial⟩
  | cons a as =>
      have hrest : ∀ (as : List α) (read : ℕ), min size w ≤ bound →
          Reached (fun _ n => n ≤ bound) (fun _ : α => w) size read as := by
        intro as
        induction as with
        | nil => exact fun _ _ => trivial
        | cons a as ih => exact fun read h => ⟨fun _ => by dsimp only; omega, ih _ h⟩
      constructor
      · -- nothing was read before the first piece, so its cut is the largest
        rintro ⟨hfirst, -⟩
        refine Or.inr ?_
        rcases hread with rfl | hbound
        · by_cases hzero : 0 < size
          · have := hfirst hzero
            omega
          · omega
        · exact hbound
      · rintro (hnil | hbound)
        · exact absurd hnil (List.cons_ne_nil a as)
        · exact hrest (a :: as) read hbound

/-- A loop over lists of pieces is one over all their pieces. -/
theorem foldlM_flatMap {γ : Type*} {τ σ : Type v} {step : σ → τ → Except ε σ} {pieces : γ → List τ}
    {blocks : List γ} {out : σ} :
    blocks.foldlM (fun out b => (pieces b).foldlM step out) out =
      (blocks.flatMap pieces).foldlM step out := by
  induction blocks generalizing out with
  | nil => rfl
  | cons b blocks ih =>
      rw [List.foldlM_cons, List.flatMap_cons, List.foldlM_append]
      simp only [ih]

/-- A loop over lists of pieces, each of which has to be found first, succeeds when all lists are
found and the loop over all their pieces does. -/
theorem foldlM_pieces_ok {γ : Type*} {τ σ : Type v} {step : σ → τ → Except ε σ}
    {pieces : γ → Except ε (List τ)} {blocks : List γ} {out out' : σ} :
    blocks.foldlM (fun out b => pieces b >>= fun items => items.foldlM step out) out = .ok out' ↔
      ∃ lists, blocks.mapM pieces = .ok lists ∧ lists.flatten.foldlM step out = .ok out' := by
  induction blocks generalizing out with
  | nil =>
      constructor
      · intro h
        exact ⟨[], rfl, h⟩
      · rintro ⟨lists, hlists, h⟩
        cases hlists
        exact h
  | cons b blocks ih =>
      rw [List.foldlM_cons]
      constructor
      · intro h
        rcases Blocks.bind_eq_ok.mp h with ⟨next, hnext, hrest⟩
        rcases Blocks.bind_eq_ok.mp hnext with ⟨items, hitems, hread⟩
        rcases ih.mp hrest with ⟨lists, hlists, hloop⟩
        refine ⟨items :: lists, Blocks.mapM_eq_ok.mpr
          (List.Forall₂.cons hitems (Blocks.mapM_eq_ok.mp hlists)), ?_⟩
        rw [List.flatten_cons, List.foldlM_append, hread]
        exact hloop
      · rintro ⟨lists, hlists, h⟩
        rcases List.forall₂_cons_left_iff.mp (Blocks.mapM_eq_ok.mp hlists) with
          ⟨items, rest, hitems, hrest, rfl⟩
        -- the loop over all pieces is in the middle of the list where the first one ends
        rw [List.flatten_cons, List.foldlM_append] at h
        rcases Blocks.bind_eq_ok.mp h with ⟨next, hread, hloop⟩
        refine Blocks.bind_eq_ok.mpr ⟨next, ?_, ih.mpr
          ⟨rest, Blocks.mapM_eq_ok.mpr hrest, hloop⟩⟩
        exact Blocks.bind_eq_ok.mpr ⟨items, hitems, hread⟩

end BoundedRead
