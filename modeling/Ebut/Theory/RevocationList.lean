import Ebut.Core.Revocation
import Ebut.Library.OpenGaps
import Ebut.Theory.Accountable

/-!
# The Revocation List as a Partition

The signing loop keeps a running left boundary, compares with a saturating successor
and closes with a gap to the end of the domain. `ends_signBlacklist` says that the
intervals it signs are the open gaps between the sorted values, and everything else
about the list is read off those.

A value beyond the domain is a cut like any other. It is the end of a gap that
`validateGapInterval` refuses, and there is no final gap then: everybody above the
largest revoked value of the domain is without a usable gap.

## Main definitions

* `SignedRevocationGap.ends`: The ends of a gap as integers.
* `SignedRevocationGap.Signed`: The signature is on the ends of the gap.

## Theorems

* `ends_signBlacklist`: What the loop signs.
* `signed_of_mem`: Every gap of the list carries its signature.
* `signBlacklist_partition`: The list is an exact partition of the domain.
* `witnessInputs_ok_iff`: Who gets witness inputs.
* `revoked_beyond_domain_blocks`: A value beyond the domain leaves others without.
-/

namespace Ebut

open OpenGaps SortedList

variable {G1 : Type}

/-- The ends of a gap as integers. -/
def SignedRevocationGap.ends (gap : SignedRevocationGap G1) : ℕ × ℕ :=
  (gap.left.toNat, gap.right.toNat)

theorem inside_ends {gap : SignedRevocationGap G1} {e : UInt64} :
    Inside e.toNat gap.ends ↔ gap.left < e ∧ e < gap.right := by
  simp only [Inside, SignedRevocationGap.ends, UInt64.lt_iff_toNat_lt]

/-- What `find_gap` returns is a gap of the list with the value inside. -/
theorem findGap_spec {list : SignedRevocationList G1} {e : UInt64}
    {gap : SignedRevocationGap G1}
    (hfind : list.findGap e = .ok gap) : gap ∈ list.gaps ∧ gap.left < e ∧ e < gap.right := by
  unfold SignedRevocationList.findGap at hfind
  rw [rejectIf_bind_ok] at hfind
  rcases hfound : list.gaps.find? fun gap => gap.left < e ∧ e < gap.right with _ | found
  · rw [hfound] at hfind
    exact absurd hfind.2 (by simp only [okOr, reduceCtorEq, not_false_iff])
  · rw [hfound, okOr, Except.ok.injEq] at hfind
    rw [← hfind.2]
    have hin := List.find?_some hfound
    rw [decide_eq_true_eq] at hin
    exact ⟨List.mem_of_find?_eq_some hfound, hin⟩

/-- The saturating comparison is the one of integers: nothing is above the largest value. -/
theorem saturatingAdd_one_lt {left right : UInt64} :
    right > saturatingAdd left 1 ↔ left.toNat + 1 < right.toNat := by
  have hleft := left.toNat_lt
  have hright := right.toNat_lt
  have hsize : UInt64.size = 2 ^ 64 := rfl
  have hone : (1 : UInt64).toNat = 1 := rfl
  rw [gt_iff_lt, saturatingAdd, hone, hsize, UInt64.lt_iff_toNat_lt]
  by_cases hfits : left.toNat + 1 < 2 ^ 64
  · rw [if_pos hfits, UInt64.toNat_add, hone, Nat.mod_eq_of_lt hfits]
  · rw [if_neg hfits, UInt64.toNat_ofNat', Nat.mod_eq_of_lt (by omega)]
    omega

/-- An integer interval holds a value when its ends are two apart. -/
theorem succ_lt_iff_inside (a b : ℕ) : a + 1 < b ↔ ∃ c, Inside c (a, b) := by
  constructor
  · intro h
    exact ⟨a + 1, Nat.lt_succ_self a, h⟩
  · rintro ⟨c, hac, hcb⟩
    exact Nat.lt_of_le_of_lt hac hcb

/-- The sorted and deduplicated values. -/
theorem sortedValues_pairwise (blacklisted : List UInt64) :
    (dedup (blacklisted.mergeSort (· ≤ ·))).Pairwise (· < ·) := by
  have hsort : (blacklisted.mergeSort (· ≤ ·)).Pairwise (· ≤ ·) := by
    have h := @List.pairwise_mergeSort _ (fun a b : UInt64 => decide (a ≤ b))
      (by simp only [decide_eq_true_eq]; exact fun a b c => UInt64.le_trans)
      (by simp only [Bool.or_eq_true, decide_eq_true_eq]; exact UInt64.le_total) blacklisted
    simpa only [decide_eq_true_eq] using h
  have h := dedup_pairwise (fun a b => UInt64.le_antisymm) hsort
  exact h.imp fun hab => UInt64.lt_of_le_of_ne hab.1 hab.2

theorem mem_sortedValues {blacklisted : List UInt64} {v : UInt64} :
    v ∈ dedup (blacklisted.mergeSort (· ≤ ·)) ↔ v ∈ blacklisted := by
  rw [mem_dedup, List.mem_mergeSort]

variable [AddCommGroup G1] [Module Scalar G1] (sha : Sha2) (sk : RevocationSecretKey) (h : ℕ → G1)
  (ctx : RevocationContext)

theorem ends_pushGap (gaps : List (SignedRevocationGap G1)) (left right : UInt64) :
    (pushGap sha sk h ctx gaps left right).map SignedRevocationGap.ends =
      gaps.map SignedRevocationGap.ends ++ [(left.toNat, right.toNat)] := by
  rw [pushGap, List.map_append]
  rfl

/-- One comparison of the loop: it signs the interval if it is wide. -/
theorem ends_pushGap_if {gaps : List (SignedRevocationGap G1)} {left right : UInt64} {p : Prop}
    [Decidable p] (hp : p ↔ left.toNat + 1 < right.toNat) :
    (if p then pushGap sha sk h ctx gaps left right else gaps).map SignedRevocationGap.ends =
      gaps.map SignedRevocationGap.ends ++
        gapIfWide (fun a b : ℕ => a + 1 < b) left.toNat right.toNat := by
  unfold gapIfWide
  by_cases hwide : left.toNat + 1 < right.toNat
  · rw [if_pos (hp.mpr hwide), if_pos hwide, ends_pushGap]
  · rw [if_neg fun hyes => hwide (hp.mp hyes), if_neg hwide, List.append_nil]

/-- The loop from any state, followed by the closing gap. -/
theorem ends_foldl_signStep (cuts : List UInt64) (gaps : List (SignedRevocationGap G1))
    (left : UInt64) :
    (signLast sha sk h ctx (cuts.foldl (signStep sha sk h ctx) (gaps, left))).map
        SignedRevocationGap.ends =
      gaps.map SignedRevocationGap.ends ++
        gapsFrom (fun a b : ℕ => a + 1 < b) left.toNat (cuts.map UInt64.toNat)
          revocationDomainMaxV1.toNat := by
  induction cuts generalizing gaps left with
  | nil =>
      -- the closing gap is compared with the end of the domain
      refine ends_pushGap_if sha sk h ctx ?_
      rw [saturatingAdd_one_lt, UInt64.lt_iff_toNat_lt]
      omega
  | cons right cuts ih =>
      rw [List.foldl_cons, signStep, ih, ends_pushGap_if sha sk h ctx saturatingAdd_one_lt,
        List.append_assoc]
      rfl

/-- The signed intervals are the open gaps between the sorted values. -/
theorem ends_signBlacklist (blacklisted : List UInt64) :
    (signBlacklist sha sk h ctx blacklisted).gaps.map SignedRevocationGap.ends =
      gapsFrom (fun a b : ℕ => a + 1 < b) 0
        ((dedup (blacklisted.mergeSort (· ≤ ·))).map UInt64.toNat)
        revocationDomainMaxV1.toNat :=
  ends_foldl_signStep sha sk h ctx _ [] 0

/-- The cuts behind the sentinel are sorted. -/
theorem cuts_pairwise (blacklisted : List UInt64) :
    (0 :: (dedup (blacklisted.mergeSort (· ≤ ·))).map UInt64.toNat).Pairwise (· ≤ ·) := by
  rw [List.pairwise_cons, List.pairwise_map]
  refine ⟨fun c _ => Nat.zero_le c, (sortedValues_pairwise blacklisted).imp fun hlt => ?_⟩
  exact (UInt64.lt_iff_toNat_lt.mp hlt).le

theorem mem_cuts {blacklisted : List UInt64} {v : UInt64} :
    v.toNat ∈ (dedup (blacklisted.mergeSort (· ≤ ·))).map UInt64.toNat ↔ v ∈ blacklisted := by
  rw [List.mem_map]
  constructor
  · rintro ⟨w, hw, heq⟩
    rw [← UInt64.toNat_inj.mp heq]
    exact mem_sortedValues.mp hw
  · exact fun hv => ⟨v, mem_sortedValues.mpr hv, rfl⟩

/-- The signature of a gap is on its ends in the context. -/
def SignedRevocationGap.Signed (gap : SignedRevocationGap G1) : Prop :=
  gap.signature.2 = sk.exponent (Scalar.ofU64 gap.left) (Scalar.ofU64 gap.right)
    (gapContextScalar sha ctx) • gap.signature.1

theorem signed_pushGap_if {gaps : List (SignedRevocationGap G1)}
    (hgaps : ∀ gap ∈ gaps, gap.Signed sha sk ctx) (left right : UInt64) (p : Prop)
    [Decidable p] :
    ∀ gap ∈ if p then pushGap sha sk h ctx gaps left right else gaps, gap.Signed sha sk ctx := by
  by_cases hp : p
  · rw [if_pos hp]
    intro gap hmem
    rcases List.mem_append.mp hmem with hold | hnew
    · exact hgaps gap hold
    · rw [List.mem_singleton.mp hnew]
      rfl
  · rwa [if_neg hp]

/-- The loop signs every gap it adds, and so does the turn after it. -/
theorem signed_foldl_signStep (cuts : List UInt64) {gaps : List (SignedRevocationGap G1)}
    (hgaps : ∀ gap ∈ gaps, gap.Signed sha sk ctx) (left : UInt64) :
    ∀ gap ∈ signLast sha sk h ctx (cuts.foldl (signStep sha sk h ctx) (gaps, left)),
      gap.Signed sha sk ctx := by
  induction cuts generalizing gaps left with
  | nil => exact signed_pushGap_if sha sk h ctx hgaps left revocationDomainMaxV1 _
  | cons right cuts ih =>
      rw [List.foldl_cons, signStep]
      exact ih (signed_pushGap_if sha sk h ctx hgaps left right _) right

variable {sha sk h ctx} {blacklisted : List UInt64} {gap : SignedRevocationGap G1}

theorem signed_of_mem (hgap : gap ∈ (signBlacklist sha sk h ctx blacklisted).gaps) :
    gap.Signed sha sk ctx :=
  signed_foldl_signStep sha sk h ctx _ (fun _ hnone => absurd hnone List.not_mem_nil) 0 gap hgap

theorem ends_mem (hgap : gap ∈ (signBlacklist sha sk h ctx blacklisted).gaps) :
    gap.ends ∈ gapsFrom (fun a b : ℕ => a + 1 < b) 0
      ((dedup (blacklisted.mergeSort (· ≤ ·))).map UInt64.toNat) revocationDomainMaxV1.toNat := by
  rw [← ends_signBlacklist sha sk h ctx]
  exact List.mem_map_of_mem hgap

/-- No revoked value is inside a signed gap. -/
theorem revoked_not_inside (hgap : gap ∈ (signBlacklist sha sk h ctx blacklisted).gaps)
    {v : UInt64} (hv : v ∈ blacklisted) : ¬(gap.left < v ∧ v < gap.right) := by
  rw [← inside_ends]
  exact cut_not_inside (cuts_pairwise blacklisted) (ends_mem hgap) (mem_cuts.mpr hv)

/-- A gap ends at a revoked value, or it is the last one and all of them are below it. -/
theorem right_revoked_or_last (hgap : gap ∈ (signBlacklist sha sk h ctx blacklisted).gaps) :
    gap.right ∈ blacklisted ∨
      gap.right = revocationDomainMaxV1 ∧ ∀ v ∈ blacklisted, v ≤ gap.left := by
  rcases right_of_mem (cuts_pairwise blacklisted) (ends_mem hgap) with hcut | ⟨hstop, hafter⟩
  · exact Or.inl (mem_cuts.mp hcut)
  · exact Or.inr ⟨UInt64.toNat_inj.mp hstop,
      fun v hv => UInt64.le_iff_toNat_le.mpr (hafter v.toNat (mem_cuts.mpr hv))⟩

/-- The gaps are ordered. -/
theorem gaps_pairwise :
    (signBlacklist sha sk h ctx blacklisted).gaps.Pairwise fun g g' => g.right ≤ g'.left := by
  have hends : ((signBlacklist sha sk h ctx blacklisted).gaps.map
      SignedRevocationGap.ends).Pairwise fun g g' => g.2 ≤ g'.1 := by
    rw [ends_signBlacklist]
    exact gapsFrom_pairwise (cuts_pairwise blacklisted)
  rw [List.pairwise_map] at hends
  exact hends.imp fun hle => UInt64.le_iff_toNat_le.mpr hle

/-- A value of the domain is inside one gap, or it is revoked and inside none. -/
theorem countP_gaps {e : UInt64} (hpos : 0 < e) (hdomain : e < revocationDomainMaxV1) :
    (signBlacklist sha sk h ctx blacklisted).gaps.countP
        (fun gap => gap.left < e ∧ e < gap.right) = if e ∈ blacklisted then 0 else 1 := by
  have hcount := countP_gapsFrom (e := e.toNat) succ_lt_iff_inside (cuts_pairwise blacklisted)
    (UInt64.lt_iff_toNat_lt.mp hpos) (UInt64.lt_iff_toNat_lt.mp hdomain)
  rw [← ends_signBlacklist sha sk h ctx, List.countP_map] at hcount
  simp only [mem_cuts] at hcount
  rw [← hcount]
  -- the code compares the values, and the library their integers
  refine List.countP_congr fun gap _ => ?_
  simp only [Function.comp_apply, decide_eq_true_eq, inside_ends]

theorem isBlacklisted_iff {e : UInt64} :
    (signBlacklist sha sk h ctx blacklisted).isBlacklisted e = true ↔ e ∈ blacklisted := by
  have hasymm : ∀ a b : UInt64, a < b → ¬b < a := fun a b hab hba => UInt64.lt_asymm hab hba
  exact (binarySearch_isSome_iff hasymm (sortedValues_pairwise blacklisted)).trans mem_sortedValues

/-- Two gaps of the list with one value inside are the same gap. -/
theorem gap_unique {e : UInt64} {gap' : SignedRevocationGap G1}
    (hgap : gap ∈ (signBlacklist sha sk h ctx blacklisted).gaps)
    (hgap' : gap' ∈ (signBlacklist sha sk h ctx blacklisted).gaps)
    (hin : gap.left < e ∧ e < gap.right) (hin' : gap'.left < e ∧ e < gap'.right) : gap' = gap := by
  rcases List.mem_iff_getElem.mp hgap with ⟨i, hi, rfl⟩
  rcases List.mem_iff_getElem.mp hgap' with ⟨j, hj, rfl⟩
  have hpairwise : (signBlacklist sha sk h ctx blacklisted).gaps.Pairwise
      fun gap gap' => gap.right ≤ gap'.left := gaps_pairwise
  have hordered := List.pairwise_iff_getElem.mp hpairwise
  simp only [UInt64.lt_iff_toNat_lt, UInt64.le_iff_toNat_le] at hin hin' hordered
  -- of two gaps one ends where the other begins, or before
  rcases Nat.lt_trichotomy i j with hlt | rfl | hgt
  · have hle := hordered i j hi hj hlt
    omega
  · rfl
  · have hle := hordered j i hj hi hgt
    omega

/-- A gap is found for exactly the values of the domain that are not revoked. -/
theorem findGap_ok_iff {e : UInt64} (hpos : 0 < e) (hdomain : e < revocationDomainMaxV1) :
    (∃ gap, (signBlacklist sha sk h ctx blacklisted).findGap e = .ok gap) ↔ e ∉ blacklisted := by
  have hcount : (signBlacklist sha sk h ctx blacklisted).gaps.countP
      (fun gap => gap.left < e ∧ e < gap.right) = if e ∈ blacklisted then 0 else 1 :=
    countP_gaps hpos hdomain
  constructor
  · rintro ⟨gap, hfind⟩ hmem
    rcases findGap_spec hfind with ⟨hgap, hin⟩
    exact revoked_not_inside hgap hmem hin
  · intro hmem
    rw [if_neg hmem] at hcount
    -- one gap has the value inside, so the search finds one
    rcases List.countP_pos_iff.mp (hcount ▸ Nat.one_pos) with ⟨gap, hgap, hin⟩
    have hfound : ((signBlacklist sha sk h ctx blacklisted).gaps.find?
        fun gap => gap.left < e ∧ e < gap.right).isSome := List.find?_isSome.mpr ⟨gap, hgap, hin⟩
    rcases Option.isSome_iff_exists.mp hfound with ⟨first, hfirst⟩
    refine ⟨first, ?_⟩
    unfold SignedRevocationList.findGap
    rw [rejectIf_bind_ok, isBlacklisted_iff, hfirst]
    exact ⟨hmem, rfl⟩

/-- The signed list is an exact partition: its values are those revoked, in increasing
order, and of the domain everything else is strictly inside one signed gap, which is
the one found for it. -/
theorem signBlacklist_partition (sha : Sha2) (sk : RevocationSecretKey) (h : ℕ → G1)
    (ctx : RevocationContext) (blacklisted : List UInt64) :
    let list := signBlacklist sha sk h ctx blacklisted
    list.blacklistedEmax.Pairwise (· < ·) ∧
    (∀ v, v ∈ list.blacklistedEmax ↔ v ∈ blacklisted) ∧
    (∀ gap ∈ list.gaps, gap.left.toNat + 1 < gap.right.toNat ∧
      ∀ v ∈ blacklisted, ¬(gap.left < v ∧ v < gap.right)) ∧
    list.gaps.Pairwise (fun gap gap' => gap.right ≤ gap'.left ∧
      ∀ e, ¬((gap.left < e ∧ e < gap.right) ∧ gap'.left < e ∧ e < gap'.right)) ∧
    ∀ e, 0 < e → e < revocationDomainMaxV1 →
      list.gaps.countP (fun gap => gap.left < e ∧ e < gap.right) =
        (if e ∈ blacklisted then 0 else 1) ∧
      ((∃ gap, list.findGap e = .ok gap) ↔ e ∉ blacklisted) ∧
      ∀ gap, list.findGap e = .ok gap →
        gap ∈ list.gaps ∧ (gap.left < e ∧ e < gap.right) ∧
        ∀ gap' ∈ list.gaps, gap'.left < e ∧ e < gap'.right → gap' = gap := by
  refine ⟨sortedValues_pairwise blacklisted, fun v => mem_sortedValues, fun gap hgap => ?_, ?_,
    fun e hpos hdomain => ⟨countP_gaps hpos hdomain, findGap_ok_iff hpos hdomain, ?_⟩⟩
  · exact ⟨wide_of_mem_gapsFrom (ends_mem hgap), fun v hv => revoked_not_inside hgap hv⟩
  · refine gaps_pairwise.imp fun hle => ⟨hle, fun e hin => ?_⟩
    simp only [UInt64.lt_iff_toNat_lt, UInt64.le_iff_toNat_le] at hin hle
    omega
  · intro gap hfind
    rcases findGap_spec hfind with ⟨hgap, hin⟩
    exact ⟨hgap, hin, fun gap' hgap' hin' => gap_unique hgap hgap' hin hin'⟩

/-- Who gets witness inputs. The gap of a value that is not revoked ends at the next
revoked value, so it is inside the domain unless that is the first one beyond it. -/
theorem witnessInputs_ok_iff (sha : Sha2) (sk : RevocationSecretKey) (h : ℕ → G1)
    (ctx : RevocationContext) (blacklisted : List UInt64) {e : UInt64} (hpos : 0 < e)
    (hdomain : e < revocationDomainMaxV1) (hnow : ctx.nowUnix ≤ e) (hfree : e ∉ blacklisted)
    (r1Emax : DalekScalar) (r2Emax r2Ea r2Eb : Scalar) (r1Ea r1Eb : DalekScalar) :
    (∃ inputs, (signBlacklist sha sk h ctx blacklisted).witnessInputs e r1Emax r2Emax r2Ea r2Eb
        r1Ea r1Eb = .ok inputs) ↔
      (∀ v ∈ blacklisted, v ≤ revocationDomainMaxV1) ∨
        ∃ v ∈ blacklisted, e < v ∧ v ≤ revocationDomainMaxV1 := by
  rcases (@findGap_ok_iff _ _ _ sha sk h ctx blacklisted e hpos hdomain).mpr hfree
    with ⟨gap, hfind⟩
  rcases findGap_spec hfind with ⟨hgap, hleft, hright⟩
  have hend : (∃ inputs, (signBlacklist sha sk h ctx blacklisted).witnessInputs e r1Emax r2Emax
      r2Ea r2Eb r1Ea r1Eb = .ok inputs) ↔ gap.right ≤ revocationDomainMaxV1 := by
    simp only [SignedRevocationList.witnessInputs_ok, hfind, Except.ok.injEq, exists_eq_left',
      validateGapInterval_ok]
    constructor
    · rintro ⟨inputs, ⟨-, -, hle, -⟩, -⟩
      exact hle
    · intro hle
      exact ⟨_, ⟨hleft, hright, hle, hnow⟩, rfl⟩
  rw [hend]
  simp only [UInt64.lt_iff_toNat_lt, UInt64.le_iff_toNat_le] at hleft hright hdomain ⊢
  have hcut := right_revoked_or_last hgap
  constructor
  · intro hle
    rcases hcut with hcut | ⟨-, hafter⟩
    · -- the gap ends at a revoked value of the domain
      exact Or.inr ⟨gap.right, hcut, hright, hle⟩
    · -- the gap is the last one, and all revoked values are below it
      refine Or.inl fun v hv => ?_
      have hbelow := UInt64.le_iff_toNat_le.mp (hafter v hv)
      omega
  · rintro (hall | ⟨v, hv, hev, hvmax⟩)
    · rcases hcut with hcut | ⟨hlast, -⟩
      · exact hall gap.right hcut
      · rw [hlast]
    · -- a revoked value above is not inside the gap, so the gap ends before it
      have hout := revoked_not_inside hgap hv
      simp only [UInt64.lt_iff_toNat_lt] at hout
      omega

/-- A value strictly between two revoked values of the domain. -/
theorem witnessInputs_ok_iff_between :
    ∃ inputs, (signBlacklist lineSha ⟨2, 3, 5, 7⟩ (fun _ => (1 : Scalar))
      ⟨[], [], leArray 32 0, 0, 4⟩ [7, 3]).witnessInputs 5 0 0 0 0 0 0 = .ok inputs :=
  (witnessInputs_ok_iff lineSha ⟨2, 3, 5, 7⟩ (fun _ => (1 : Scalar)) ⟨[], [], leArray 32 0, 0, 4⟩
    [7, 3] (by decide) (by decide) (by decide) (by decide) 0 0 0 0 0 0).mpr
    (Or.inl (List.forall_mem_cons.mpr ⟨by decide, List.forall_mem_singleton.mpr (by decide)⟩))

/-- One revoked value beyond the domain, and nobody gets witness inputs: the only gap
ends at it. -/
theorem revoked_beyond_domain_blocks :
    ¬∀ (ctx : RevocationContext) (blacklisted : List UInt64) (e : UInt64), 0 < e →
      e < revocationDomainMaxV1 → ctx.nowUnix ≤ e → e ∉ blacklisted →
      ∃ inputs, (signBlacklist lineSha ⟨2, 3, 5, 7⟩ (fun _ => (1 : Scalar)) ctx
        blacklisted).witnessInputs e 0 0 0 0 0 0 = .ok inputs := by
  intro hall
  rcases hall ⟨[], [], leArray 32 0, 0, 0⟩ [4294967296] 5 (by decide) (by decide) (by decide)
    (by decide) with ⟨inputs, hok⟩
  rcases (SignedRevocationList.witnessInputs_ok _).mp hok with ⟨gap, hfind, hvalid, -⟩
  rcases validateGapInterval_ok.mp hvalid with ⟨hleft, -, hright, -⟩
  rcases right_revoked_or_last (findGap_spec hfind).1 with hcut | ⟨-, hafter⟩
  · rw [List.mem_singleton.mp hcut] at hright
    exact absurd hright (by decide)
  · have hbelow := hafter 4294967296 (List.mem_singleton_self _)
    simp only [UInt64.lt_iff_toNat_lt, UInt64.le_iff_toNat_le] at hleft hbelow
    have hfive : (5 : UInt64).toNat = 5 := rfl
    have hbig : (4294967296 : UInt64).toNat = 4294967296 := rfl
    omega

end Ebut
