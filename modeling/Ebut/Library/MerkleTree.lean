import Mathlib.Data.List.Induction
import Mathlib.Data.List.Basic
import Mathlib.Algebra.Order.Group.Nat
import Mathlib.Tactic.Common

/-!
# Merkle Trees Built Level by Level

A tree over a list of digests, built by combining neighbours until one digest
is left. The last digest of an odd level moves up unchanged, so a path has no
step at such a level and paths of one tree differ in length.

A path is a list of steps from the bottom up, each a sibling with a flag that
says whether the sibling stands on the left. `climb` folds a digest along a path
that anybody may have written; `pathAt` is the path the builder records for a
position.

`climb_hits` is the soundness argument, by induction on the levels from the root
down: a path that reaches the root passes through one node of every level, and
the flags of its remaining steps are those of that node's own path. Nothing ties
the node to a position the verifier has in mind, except its flags, and
`pathAt_suffix_free` says that the flags determine the position.

## Main definitions

* `pairUp`: The level above a level.
* `levels`: All levels, bottom up.
* `pathAt`: The path of a position, read off the levels.
* `climb`: The digest a path leads to.
* `flags`: The flags of a path.
* `Tree`: A tree as a term over its leaves.
* `Tree.eval`: The digest of such a term.
* `Tree.Perfect`: All leaves at one depth.

## Theorems

* `pairUp_getElem?`: The nodes of the level above.
* `levels_induction`: Induction on the levels.
* `levels_ends`: Enough turns end in a single digest.
* `climb_pathAt`: The path of a position leads to the root.
* `levels_position`: The ancestors of a position lie in their levels.
* `climb_hits`: A path to the root hits a node of the bottom level.
* `pathAt_suffix_free`: No position's flags are a suffix of another's.
* `Tree.eval_injective`: A digest determines the term.
* `rootOf_levels_perfect`: Over a power of two of leaves the tree is perfect.
* `root_determines_leaves`: A root determines the list of leaves.
-/

namespace MerkleTree

variable {D : Type*} (combine : D → D → D)

/-- Neighbours combined, a last odd one moved up. -/
def pairUp : List D → List D
  | a :: b :: rest => combine a b :: pairUp rest
  | [a] => [a]
  | [] => []

/-- The levels above and including `level`, with `n` turns to build them. -/
def levels : ℕ → List D → List (List D)
  | 0, level => [level]
  | n + 1, level =>
      if level.length > 1 then level :: levels n (pairUp combine level) else [level]

/-- The step recorded at a level, if the position has a sibling there. -/
def stepAt (level : List D) (idx : ℕ) : List (Bool × D) :=
  let siblingIdx := if idx % 2 = 0 then idx + 1 else idx - 1
  match level[siblingIdx]? with
  | some sibling => [(decide (siblingIdx < idx), sibling)]
  | none => []

/-- The path of a position. The last level is the root and has no step. -/
def pathAt : List (List D) → ℕ → List (Bool × D)
  | level :: next :: rest, idx => stepAt level idx ++ pathAt (next :: rest) (idx / 2)
  | _, _ => []

/-- One step of a path. -/
def climbStep (current : D) (step : Bool × D) : D :=
  if step.1 then combine step.2 current else combine current step.2

/-- The digest a path leads to. -/
def climb (digest : D) (path : List (Bool × D)) : D := path.foldl (climbStep combine) digest

/-- The flags of a path. -/
def flags (path : List (Bool × D)) : List Bool := path.map Prod.fst

/-- The root: the first digest of the last level. -/
def rootOf (tree : List (List D)) : Option D := tree.getLast?.bind List.head?

theorem pairUp_length (level : List D) :
    (pairUp combine level).length = (level.length + 1) / 2 := by
  induction level using pairUp.induct with
  | case1 a b rest ih =>
      rw [pairUp, List.length_cons, ih, List.length_cons, List.length_cons]
      omega
  | case2 a => rw [pairUp, List.length_singleton]
  | case3 => rw [pairUp, List.length_nil]

/-- A node of the level above: two neighbours combined, or the last one alone. -/
theorem pairUp_getElem? (level : List D) (k : ℕ) :
    (pairUp combine level)[k]? =
      match level[2 * k]?, level[2 * k + 1]? with
      | some a, some b => some (combine a b)
      | some a, none => some a
      | none, _ => none := by
  induction level using pairUp.induct generalizing k with
  | case1 a b rest ih =>
      cases k with
      | zero => rfl
      | succ k =>
          rw [pairUp, List.getElem?_cons_succ, ih]
          rfl
  | case2 a =>
      cases k with
      | zero => rfl
      | succ k => rfl
  | case3 => rfl

theorem pairUp_ne_nil {level : List D} (hmany : level.length > 1) :
    pairUp combine level ≠ [] := by
  intro hnil
  have hup := pairUp_length combine level
  rw [hnil, List.length_nil] at hup
  omega

/-- A single digest is the root already. -/
theorem levels_singleton (n : ℕ) (x : D) : levels combine n [x] = [[x]] := by
  cases n with
  | zero => rfl
  | succ n => exact if_neg (Nat.lt_irrefl 1)

/-- Induction on the levels: a single digest, or more of them below a level for which
the statement holds. With a turn for every digest nothing else occurs. -/
theorem levels_induction {motive : ℕ → List D → Prop} (single : ∀ n x, motive n [x])
    (many : ∀ n level, level.length > 1 → motive n (pairUp combine level) →
      motive (n + 1) level) (n : ℕ) {level : List D} (hpos : level ≠ [])
    (hlen : level.length ≤ n + 1) : motive n level := by
  have hsingle : ∀ n, ∀ level : List D, level ≠ [] → ¬level.length > 1 → motive n level := by
    intro n level hpos hone
    have hcount := List.length_pos_of_ne_nil hpos
    rcases List.length_eq_one_iff.mp (by omega : level.length = 1) with ⟨x, rfl⟩
    exact single n x
  induction n generalizing level with
  | zero => exact hsingle 0 level hpos (by omega)
  | succ n ih =>
      by_cases hmany : level.length > 1
      · have hup := pairUp_length combine level
        exact many n level hmany (ih (pairUp_ne_nil combine hmany) (by omega))
      · exact hsingle (n + 1) level hpos hmany

/-- With a turn for every digest, the levels end in a single one. -/
theorem levels_ends (n : ℕ) {level : List D} (hpos : level ≠ []) (hlen : level.length ≤ n + 1) :
    ∃ root, (levels combine n level).getLast? = some [root] := by
  refine levels_induction combine (motive := fun n level =>
    ∃ root, (levels combine n level).getLast? = some [root]) ?_ ?_ n hpos hlen
  · intro n x
    exact ⟨x, by rw [levels_singleton]; rfl⟩
  · rintro n level hmany ⟨root, hroot⟩
    refine ⟨root, ?_⟩
    rw [levels, if_pos hmany, List.getLast?_cons, hroot]
    rfl

theorem levels_ne_nil (n : ℕ) (level : List D) :
    ∃ rest, levels combine n level = level :: rest := by
  cases n with
  | zero => exact ⟨[], rfl⟩
  | succ n =>
      unfold levels
      by_cases hmany : level.length > 1
      · exact ⟨_, if_pos hmany⟩
      · exact ⟨_, if_neg hmany⟩

/-- The path of a position at a level with more than one digest. -/
theorem pathAt_levels_succ (n : ℕ) {level : List D} (hmany : level.length > 1) (idx : ℕ) :
    pathAt (levels combine (n + 1) level) idx =
      stepAt level idx ++ pathAt (levels combine n (pairUp combine level)) (idx / 2) := by
  rcases levels_ne_nil combine n (pairUp combine level) with ⟨rest, hrest⟩
  rw [levels, if_pos hmany, hrest, pathAt]

theorem rootOf_levels_succ (n : ℕ) {level : List D} (hmany : level.length > 1) :
    rootOf (levels combine (n + 1) level) = rootOf (levels combine n (pairUp combine level)) := by
  rcases levels_ne_nil combine n (pairUp combine level) with ⟨rest, hrest⟩
  rw [levels, if_pos hmany, hrest]
  rfl

/-- A left child with a sibling. -/
theorem stepAt_left {level : List D} {k : ℕ} {b : D} (hb : level[2 * k + 1]? = some b) :
    stepAt level (2 * k) = [(false, b)] := by
  unfold stepAt
  have heven : 2 * k % 2 = 0 := by omega
  simp only [heven, if_true, hb]
  rw [decide_eq_false (by omega)]

/-- A last digest without a sibling. -/
theorem stepAt_last {level : List D} {k : ℕ} (hb : level[2 * k + 1]? = none) :
    stepAt level (2 * k) = [] := by
  unfold stepAt
  have heven : 2 * k % 2 = 0 := by omega
  simp only [heven, if_true, hb]

/-- A right child. -/
theorem stepAt_right {level : List D} {k : ℕ} {a : D} (ha : level[2 * k]? = some a) :
    stepAt level (2 * k + 1) = [(true, a)] := by
  unfold stepAt
  have hodd : ¬(2 * k + 1) % 2 = 0 := by omega
  simp only [if_neg hodd, Nat.add_sub_cancel, ha]
  rw [decide_eq_true (by omega)]

/-- The step of a level turns a digest into its parent, or moves a last one up. -/
theorem climb_stepAt {level : List D} {p : ℕ} {digest : D} (hp : level[p]? = some digest) :
    (pairUp combine level)[p / 2]? = some (climb combine digest (stepAt level p)) := by
  rw [pairUp_getElem?]
  have hparity : ∃ k, p = 2 * k ∨ p = 2 * k + 1 := ⟨p / 2, by omega⟩
  rcases hparity with ⟨k, rfl | rfl⟩
  · rw [Nat.mul_div_cancel_left k Nat.two_pos, hp]
    rcases hb : level[2 * k + 1]? with _ | b
    · rw [stepAt_last hb]
      rfl
    · rw [stepAt_left hb]
      rfl
  · have hk : 2 * k < level.length := by
      have hlt := (List.getElem?_eq_some_iff.mp hp).1
      omega
    rw [show (2 * k + 1) / 2 = k by omega, hp, stepAt_right (List.getElem?_eq_getElem hk),
      List.getElem?_eq_getElem hk]
    rfl

/-- The path of a position leads from its digest to the root. -/
theorem climb_pathAt (n : ℕ) {level : List D} (hlen : level.length ≤ n + 1) {p : ℕ} {digest : D}
    (hp : level[p]? = some digest) :
    rootOf (levels combine n level) =
      some (climb combine digest (pathAt (levels combine n level) p)) := by
  have hpos : level ≠ [] := by
    rintro rfl
    simp only [List.getElem?_nil, reduceCtorEq] at hp
  refine levels_induction combine (motive := fun n level => ∀ p digest,
    level[p]? = some digest → rootOf (levels combine n level) =
      some (climb combine digest (pathAt (levels combine n level) p))) ?_ ?_ n hpos hlen p digest hp
  · intro n x p digest hp
    rcases List.getElem?_eq_some_iff.mp hp with ⟨hlt, rfl⟩
    rw [List.getElem_singleton, levels_singleton]
    rfl
  · intro n level hmany ih p digest hp
    rw [rootOf_levels_succ combine n hmany, pathAt_levels_succ combine n hmany, climb,
      List.foldl_append]
    exact ih (p / 2) _ (climb_stepAt combine hp)

/-- The position of an ancestor lies in its level. -/
theorem levels_position (j n : ℕ) {leaves level : List D} {p : ℕ} (hp : p < leaves.length)
    (hlevel : (levels combine n leaves)[j]? = some level) : p / 2 ^ j < level.length := by
  induction j generalizing n leaves p with
  | zero =>
      rcases levels_ne_nil combine n leaves with ⟨rest, hrest⟩
      rw [hrest, List.getElem?_cons_zero] at hlevel
      cases hlevel
      rwa [pow_zero, Nat.div_one]
  | succ j ih =>
      cases n with
      | zero => exact absurd hlevel (by rw [levels, List.getElem?_cons_succ]; simp)
      | succ n =>
          rw [levels] at hlevel
          by_cases hmany : leaves.length > 1
          · have hup := pairUp_length combine leaves
            rw [if_pos hmany, List.getElem?_cons_succ] at hlevel
            rw [pow_succ', ← Nat.div_div_eq_div_mul]
            exact ih n (by omega) hlevel
          · rw [if_neg hmany, List.getElem?_cons_succ] at hlevel
            exact absurd hlevel (by simp)

section Soundness

variable {combine} (hinj : ∀ a b c d, combine a b = combine c d → a = c ∧ b = d)

include hinj

/-- A path to a node of the level above, from a digest that is no combination, goes through a
child of the node, and ends with the flags of the child's step. -/
theorem climb_hits_child {digest : D} (hleaf : ∀ a b, digest ≠ combine a b) {level : List D}
    {p : ℕ} {path : List (Bool × D)}
    (hp : (pairUp combine level)[p]? = some (climb combine digest path)) :
    ∃ q below last, level[q]? = some (climb combine digest below) ∧ path = below ++ last ∧
      q / 2 = p ∧ flags last = flags (stepAt level q) := by
  -- the node is a pair, or a digest moved up
  rw [pairUp_getElem?] at hp
  rcases ha : level[2 * p]? with _ | a
  · rw [ha] at hp
    exact absurd hp (by simp only [reduceCtorEq, not_false_iff])
  · rcases hb : level[2 * p + 1]? with _ | b
    · rw [ha, hb] at hp
      refine ⟨2 * p, path, [], by rw [ha]; exact hp, (List.append_nil _).symm,
        Nat.mul_div_cancel_left p Nat.two_pos, ?_⟩
      rw [stepAt_last hb]
    · rw [ha, hb] at hp
      have hpair : combine a b = climb combine digest path := Option.some.inj hp
      rcases List.eq_nil_or_concat path with hnil | ⟨below, ⟨flag, sibling⟩, hsplit⟩
      · rw [hnil] at hpair
        exact absurd hpair.symm (hleaf a b)
      · rw [List.concat_eq_append] at hsplit
        rw [hsplit, climb, List.foldl_append] at hpair
        -- the flag of the last step decides which child was passed
        cases flag with
        | true =>
            have hb' := (hinj _ _ _ _ hpair).2
            refine ⟨2 * p + 1, below, [(true, sibling)], ?_, hsplit, by omega, ?_⟩
            · rw [hb, hb']
              rfl
            · rw [stepAt_right ha]
              rfl
        | false =>
            have ha' := (hinj _ _ _ _ hpair).1
            refine ⟨2 * p, below, [(false, sibling)], ?_, hsplit, by omega, ?_⟩
            · rw [ha, ha']
              rfl
            · rw [stepAt_left hb]
              rfl

/-- A path from a digest that is no combination to the root goes through a node
of the bottom level, and from there on has the flags of that node's path. -/
theorem climb_hits {digest : D} (hleaf : ∀ a b, digest ≠ combine a b) (n : ℕ) {level : List D}
    (hpos : level ≠ []) (hlen : level.length ≤ n + 1) {path : List (Bool × D)}
    (hroot : rootOf (levels combine n level) = some (climb combine digest path)) :
    ∃ p below above, level[p]? = some (climb combine digest below) ∧ path = below ++ above ∧
      flags above = flags (pathAt (levels combine n level) p) := by
  refine levels_induction combine (motive := fun n level =>
    rootOf (levels combine n level) = some (climb combine digest path) →
    ∃ p below above, level[p]? = some (climb combine digest below) ∧ path = below ++ above ∧
      flags above = flags (pathAt (levels combine n level) p)) ?_ ?_ n hpos hlen hroot
  · intro n x hroot
    rw [levels_singleton] at hroot ⊢
    exact ⟨0, path, [], hroot, (List.append_nil _).symm, rfl⟩
  · intro n level hmany ih hroot
    rw [rootOf_levels_succ combine n hmany] at hroot
    rcases ih hroot with ⟨p, below, above, hp, hpath, hflags⟩
    rcases climb_hits_child hinj hleaf hp with ⟨q, init, last, hq, hsplit, hhalf, hlast⟩
    refine ⟨q, init, last ++ above, hq, ?_, ?_⟩
    · rw [hpath, hsplit, List.append_assoc]
    · rw [pathAt_levels_succ combine n hmany, hhalf, flags, flags, List.map_append,
        List.map_append]
      exact congrArg₂ (· ++ ·) hlast hflags

end Soundness

/-- Children of one parent with the same flag are the same. -/
theorem eq_of_stepAt_suffix {level : List D} {p q : ℕ} (hp : p < level.length)
    (hq : q < level.length) (hparent : p / 2 = q / 2)
    (hsuffix : flags (stepAt level p) <:+ flags (stepAt level q)) : p = q := by
  by_contra hne
  -- distinct children of one parent both have a sibling, with opposite flags
  have hchildren : ∃ k, 2 * k + 1 < level.length ∧
      ((p = 2 * k ∧ q = 2 * k + 1) ∨ (q = 2 * k ∧ p = 2 * k + 1)) :=
    ⟨q / 2, by omega, by omega⟩
  rcases hchildren with ⟨k, hk, hpq⟩
  have hleft := stepAt_left (List.getElem?_eq_getElem hk)
  have hright := stepAt_right (List.getElem?_eq_getElem (Nat.lt_of_succ_lt hk))
  rcases hpq with ⟨rfl, rfl⟩ | ⟨rfl, rfl⟩
  · rw [hleft, hright] at hsuffix
    exact absurd (show [false] <:+ [true] from hsuffix) (by decide)
  · rw [hleft, hright] at hsuffix
    exact absurd (show [true] <:+ [false] from hsuffix) (by decide)

/-- No position's flags are a suffix of another's. -/
theorem pathAt_suffix_free (n : ℕ) {level : List D} (hlen : level.length ≤ n + 1) {p q : ℕ}
    (hp : p < level.length) (hq : q < level.length)
    (hsuffix : flags (pathAt (levels combine n level) p) <:+
      flags (pathAt (levels combine n level) q)) : p = q := by
  have hpos : level ≠ [] := List.ne_nil_of_length_pos (Nat.zero_lt_of_lt hp)
  refine levels_induction combine (motive := fun n level => ∀ p q, p < level.length →
    q < level.length → flags (pathAt (levels combine n level) p) <:+
      flags (pathAt (levels combine n level) q) → p = q) ?_ ?_ n hpos hlen p q hp hq hsuffix
  · intro n x p q hp hq _
    rw [List.length_singleton] at hp hq
    omega
  · intro n level hmany ih p q hp hq hsuffix
    have hup := pairUp_length combine level
    rw [pathAt_levels_succ combine n hmany, pathAt_levels_succ combine n hmany, flags, flags,
      List.map_append, List.map_append] at hsuffix
    -- both parents' paths are suffixes of one list, so one is a suffix of the other
    have hparent : p / 2 = q / 2 := by
      have hp' : p / 2 < (pairUp combine level).length := by omega
      have hq' : q / 2 < (pairUp combine level).length := by omega
      rcases List.suffix_or_suffix_of_suffix ((List.suffix_append _ _).trans hsuffix)
        (List.suffix_append _ _) with h | h
      · exact ih _ _ hp' hq' h
      · exact (ih _ _ hq' hp' h).symm
    rw [hparent, List.suffix_append_self_iff] at hsuffix
    exact eq_of_stepAt_suffix hp hq hparent hsuffix

section Terms

variable {α : Type*}

/-- A tree as a term over its leaves. -/
inductive Tree (α : Type*) where
  | leaf (x : α)
  | node (left right : Tree α)

/-- The leaves of a tree, from left to right. -/
def Tree.fringe : Tree α → List α
  | .leaf x => [x]
  | .node left right => left.fringe ++ right.fringe

/-- The digest of a tree. -/
def Tree.eval (hash : α → D) : Tree α → D
  | .leaf x => hash x
  | .node left right => combine (left.eval hash) (right.eval hash)

/-- Digests of trees collide only for equal trees. -/
theorem Tree.eval_injective {combine : D → D → D} {hash : α → D}
    (hhash : Function.Injective hash)
    (hcombine : ∀ a b c d, combine a b = combine c d → a = c ∧ b = d)
    (hdisjoint : ∀ x a b, hash x ≠ combine a b) :
    Function.Injective (Tree.eval combine hash) := by
  intro s
  induction s with
  | leaf x =>
      intro t h
      cases t with
      | leaf y => exact congrArg Tree.leaf (hhash h)
      | node left right => exact absurd h (hdisjoint _ _ _)
  | node left right ihl ihr =>
      intro t h
      cases t with
      | leaf y => exact absurd h.symm (hdisjoint _ _ _)
      | node left' right' =>
          rcases hcombine _ _ _ _ h with ⟨hl, hr⟩
          rw [ihl hl, ihr hr]

theorem pairUp_map {E : Type*} (combine' : E → E → E) (f : E → D)
    (hf : ∀ a b, f (combine' a b) = combine (f a) (f b)) (level : List E) :
    pairUp combine (level.map f) = (pairUp combine' level).map f := by
  induction level using pairUp.induct with
  | case1 a b rest ih =>
      rw [List.map_cons, List.map_cons, pairUp, pairUp, ih, List.map_cons, hf]
  | case2 a => rfl
  | case3 => rfl

/-- Building the levels commutes with a map that respects the combination. -/
theorem levels_map {E : Type*} (combine' : E → E → E) (f : E → D)
    (hf : ∀ a b, f (combine' a b) = combine (f a) (f b)) (n : ℕ) (level : List E) :
    levels combine n (level.map f) = (levels combine' n level).map (List.map f) := by
  induction n generalizing level with
  | zero => rfl
  | succ n ih =>
      rw [levels, levels, List.length_map]
      by_cases hmany : level.length > 1
      · rw [if_pos hmany, if_pos hmany, pairUp_map combine combine' f hf, ih, List.map_cons]
      · rw [if_neg hmany, if_neg hmany]
        rfl

/-- A level holds the same leaves as the one below. -/
theorem pairUp_fringe (level : List (Tree α)) :
    (pairUp Tree.node level).flatMap Tree.fringe = level.flatMap Tree.fringe := by
  induction level using pairUp.induct with
  | case1 a b rest ih =>
      rw [pairUp, List.flatMap_cons, ih, List.flatMap_cons, List.flatMap_cons, Tree.fringe,
        List.append_assoc]
  | case2 a => rfl
  | case3 => rfl

/-- The tree over some leaves has these leaves. A promoted node keeps its place. -/
theorem fringe_rootOf_levels (n : ℕ) {level : List (Tree α)} (hpos : level ≠ [])
    (hlen : level.length ≤ n + 1) :
    ∃ t, rootOf (levels Tree.node n level) = some t ∧ t.fringe = level.flatMap Tree.fringe := by
  refine levels_induction Tree.node (motive := fun n level =>
    ∃ t, rootOf (levels Tree.node n level) = some t ∧
      t.fringe = level.flatMap Tree.fringe) ?_ ?_ n hpos hlen
  · intro n t
    refine ⟨t, ?_, (List.append_nil _).symm⟩
    rw [levels_singleton]
    rfl
  · rintro n level hmany ⟨t, hroot, hfringe⟩
    exact ⟨t, (rootOf_levels_succ Tree.node n hmany).trans hroot,
      hfringe.trans (pairUp_fringe level)⟩

/-- The root over hashed leaves is the digest of the tree over these leaves. -/
theorem rootOf_levels_of_tree (hash : α → D) {n : ℕ} {leaves : List α} {t : Tree α}
    (hroot : rootOf (levels Tree.node n (leaves.map Tree.leaf)) = some t) :
    rootOf (levels combine n (leaves.map hash)) = some (t.eval combine hash) := by
  have hmap := levels_map combine Tree.node (Tree.eval combine hash) (fun _ _ => rfl) n
    (leaves.map Tree.leaf)
  rw [List.map_map] at hmap
  rw [show leaves.map hash = leaves.map (Tree.eval combine hash ∘ Tree.leaf) from rfl, hmap,
    rootOf, List.getLast?_map]
  rcases Option.bind_eq_some_iff.mp hroot with ⟨top, htop, hhead⟩
  rw [htop, Option.map_some, Option.bind_some, List.head?_map, hhead]
  rfl

theorem flatMap_fringe_leaf (leaves : List α) :
    (leaves.map Tree.leaf).flatMap Tree.fringe = leaves := by
  rw [List.flatMap_map]
  exact List.flatMap_singleton' leaves

/-- Every root over hashed leaves is the digest of a tree with these leaves. -/
theorem rootOf_levels_eval (hash : α → D) (n : ℕ) {leaves : List α} (hpos : leaves ≠ [])
    (hlen : leaves.length ≤ n + 1) :
    ∃ t : Tree α, rootOf (levels combine n (leaves.map hash)) = some (t.eval combine hash) ∧
      t.fringe = leaves := by
  have hpos' : leaves.map Tree.leaf ≠ [] := fun h => hpos (List.map_eq_nil_iff.mp h)
  have hlen' : (leaves.map Tree.leaf).length ≤ n + 1 := by rwa [List.length_map]
  rcases fringe_rootOf_levels n hpos' hlen' with ⟨t, hroot, hfringe⟩
  exact ⟨t, rootOf_levels_of_tree combine hash hroot, hfringe.trans (flatMap_fringe_leaf leaves)⟩

/-- A tree whose leaves all stand at one depth. -/
inductive Tree.Perfect : ℕ → Tree α → Prop
  | leaf (x : α) : Perfect 0 (.leaf x)
  | node {k : ℕ} {left right : Tree α} (hleft : Perfect k left) (hright : Perfect k right) :
      Perfect (k + 1) (.node left right)

/-- An even level of perfect trees is paired up to perfect trees. -/
theorem pairUp_perfect {level : List (Tree α)} (heven : level.length % 2 = 0) {j : ℕ}
    (hlevel : ∀ t ∈ level, t.Perfect j) : ∀ t ∈ pairUp Tree.node level, t.Perfect (j + 1) := by
  induction level using pairUp.induct with
  | case1 a b rest ih =>
      rw [List.length_cons, List.length_cons] at heven
      intro t ht
      rw [pairUp] at ht
      rcases List.mem_cons.mp ht with rfl | ht
      · exact .node (hlevel a List.mem_cons_self)
          (hlevel b (List.mem_cons_of_mem _ List.mem_cons_self))
      · exact ih (by omega) (fun t ht => hlevel t
          (List.mem_cons_of_mem _ (List.mem_cons_of_mem _ ht))) t ht
  | case2 a => exact absurd heven (by rw [List.length_singleton]; omega)
  | case3 => exact fun t ht => absurd ht List.not_mem_nil

/-- Over a power of two of perfect trees nothing is promoted, so the tree is perfect. -/
theorem rootOf_levels_perfect (k n : ℕ) {level : List (Tree α)} (hlen : level.length = 2 ^ k)
    (hturns : 2 ^ k ≤ n + 1) {j : ℕ} (hlevel : ∀ t ∈ level, t.Perfect j) {t : Tree α}
    (hroot : rootOf (levels Tree.node n level) = some t) : t.Perfect (j + k) := by
  induction k generalizing n level j with
  | zero =>
      rcases List.length_eq_one_iff.mp hlen with ⟨x, rfl⟩
      rw [levels_singleton] at hroot
      cases hroot
      exact hlevel t List.mem_cons_self
  | succ k ih =>
      have hpow : 2 ^ (k + 1) = 2 * 2 ^ k := pow_succ' 2 k
      have hpos : 0 < 2 ^ k := Nat.two_pow_pos k
      cases n with
      | zero => omega
      | succ n =>
          rw [rootOf_levels_succ Tree.node n (by omega)] at hroot
          have hup := pairUp_length Tree.node level
          have hperfect := ih n (by omega) (by omega)
            (pairUp_perfect (by omega) hlevel) hroot
          rwa [Nat.add_assoc, Nat.add_comm 1 k] at hperfect

/-- Under collision-free digests two lists of leaves of any lengths with one root are equal. -/
theorem root_determines_leaves {combine : D → D → D} {hash : α → D}
    (hhash : Function.Injective hash)
    (hcombine : ∀ a b c d, combine a b = combine c d → a = c ∧ b = d)
    (hdisjoint : ∀ x a b, hash x ≠ combine a b) {n m : ℕ} {leaves leaves' : List α}
    (hpos : leaves ≠ []) (hpos' : leaves' ≠ []) (hlen : leaves.length ≤ n + 1)
    (hlen' : leaves'.length ≤ m + 1)
    (hroot : rootOf (levels combine n (leaves.map hash)) =
      rootOf (levels combine m (leaves'.map hash))) : leaves = leaves' := by
  rcases rootOf_levels_eval combine hash n hpos hlen with ⟨s, hs, hfringe⟩
  rcases rootOf_levels_eval combine hash m hpos' hlen' with ⟨t, ht, hfringe'⟩
  have hdigest : s.eval combine hash = t.eval combine hash :=
    Option.some.inj (hs.symm.trans (hroot.trans ht))
  rw [← hfringe, ← hfringe', Tree.eval_injective hhash hcombine hdisjoint hdigest]

end Terms

end MerkleTree
