import Ebut.Core.BatchedEq
import Ebut.Core.Gap
import Ebut.Library.SortedList

/-!
# Signed Revocation Lists

The server sorts and deduplicates the revoked expiries and signs every open gap
between neighbours, from the sentinel zero to the end of the domain. A client finds
the gap that holds its own expiry and proves that it does.

What an expiry is and what the list takes are full 64-bit values; the gap proof is
for a domain of 32 bits, which `validateGapInterval` checks.

## Main definitions

* `RevocationContext`, `gapContextScalar`: What a gap signature is bound to.
* `validateGapInterval`: The static checks on a gap.
* `SignedRevocationList`, `signBlacklist`: The signed list.
* `SignedRevocationList.isBlacklisted`, `SignedRevocationList.findGap`: Looking an expiry up.
* `SignedRevocationList.witnessInputs`: What a client takes from the list to prove.

## Theorems

* `validateGapInterval_ok`: What the static checks come to.
* `witnessInputs_ok`: What the witness inputs are made from.
-/

namespace Ebut

open LittleEndian

/-- `REVOCATION_DOMAIN_MAX_V1`. -/
def revocationDomainMaxV1 : UInt64 := 4294967295

/-- Public revocation context. -/
structure RevocationContext where
  appId : List UInt8
  policyId : List UInt8
  serverKeyId : Bytes 32
  revocationListVersion : UInt64
  nowUnix : UInt64

/-- `gap_context_scalar`. The time is not part of it. -/
def gapContextScalar (sha : Sha2) (ctx : RevocationContext) : Scalar :=
  reduceScalar <| sha.sha256 <|
    "EBUT:REVOCATION:GAP-CONTEXT:V1".toUTF8.toList ++
    usizeLeBytes ctx.appId.length ++ ctx.appId ++
    usizeLeBytes ctx.policyId.length ++ ctx.policyId ++
    ctx.serverKeyId.toList ++ u64LeBytes ctx.revocationListVersion

/-- Signed gap with the blinders of the commitments that the proof makes. -/
structure GapWitnessInputs (G1 : Type) where
  emax : UInt64
  r1Emax : DalekScalar
  r2Emax : Scalar
  interval : UInt64 × UInt64
  signature : G1 × G1
  r2Ea : Scalar
  r2Eb : Scalar
  r1Ea : DalekScalar
  r1Eb : DalekScalar

/-- `validate_gap_interval`. -/
def validateGapInterval (emax : UInt64) (interval : UInt64 × UInt64) (nowUnix : UInt64) :
    Except ActError Unit := do
  let (ea, eb) := interval
  rejectIf (emax > revocationDomainMaxV1 ∨ ea > revocationDomainMaxV1 ∨ eb > revocationDomainMaxV1)
    (.protocolError "revocation proof v1 supports Emax/gap endpoints <= u32::MAX")
  rejectIf (¬(ea < emax ∧ emax < eb)) (.protocolError "Emax not inside revocation gap")
  rejectIf (eb ≤ ea) (.protocolError "invalid revocation gap")
  rejectIf (nowUnix > emax) (.protocolError "Emax expired")

theorem validateGapInterval_ok {emax ea eb nowUnix : UInt64} :
    validateGapInterval emax (ea, eb) nowUnix = .ok () ↔
      ea < emax ∧ emax < eb ∧ eb ≤ revocationDomainMaxV1 ∧ nowUnix ≤ emax := by
  simp only [validateGapInterval, rejectIf_bind_ok, rejectIf_ok, UInt64.lt_iff_toNat_lt,
    UInt64.le_iff_toNat_le]
  omega

/-- One signed open interval `(left, right)`. -/
structure SignedRevocationGap (G1 : Type) where
  left : UInt64
  right : UInt64
  /-- Server signature on `(left, right, revocation_context)`. -/
  signature : G1 × G1

/-- Sorted, context-bound signed revocation list. -/
structure SignedRevocationList (G1 : Type) where
  ctx : RevocationContext
  /-- Sorted unique revoked Emax values. -/
  blacklistedEmax : List UInt64
  /-- Signed non-empty open gaps. -/
  gaps : List (SignedRevocationGap G1)

/-- `u64::saturating_add`. -/
def saturatingAdd (a b : UInt64) : UInt64 :=
  if a.toNat + b.toNat < UInt64.size then a + b else UInt64.ofNat (UInt64.size - 1)

variable {G1 : Type} [AddCommGroup G1] [Module Scalar G1]

section Sign

variable (sha : Sha2) (sk : RevocationSecretKey) (h : ℕ → G1) (ctx : RevocationContext)

/-- `gaps.push(..)` of the gap from `left` to `right`. The point that the signature
draws is the one of the gap's position. -/
def pushGap (gaps : List (SignedRevocationGap G1)) (left right : UInt64) :
    List (SignedRevocationGap G1) :=
  gaps ++ [{
    left, right
    signature := signIntervalWithContext sk left right (gapContextScalar sha ctx) (h gaps.length) }]

/-- One turn of the loop over the blacklisted values: the gaps so far and the running
left boundary. -/
def signStep (state : List (SignedRevocationGap G1) × UInt64) (right : UInt64) :
    List (SignedRevocationGap G1) × UInt64 :=
  let (gaps, left) := state
  (if right > saturatingAdd left 1 then pushGap sha sk h ctx gaps left right else gaps, right)

/-- After the loop: the last gap reaches to the end of the domain, if the last value is
in it. -/
def signLast (state : List (SignedRevocationGap G1) × UInt64) : List (SignedRevocationGap G1) :=
  let (gaps, left) := state
  let right := revocationDomainMaxV1
  if left < right ∧ right > saturatingAdd left 1 then pushGap sha sk h ctx gaps left right else gaps

/-- `SignedRevocationList::sign_blacklist`, with the points `h` it draws. -/
def signBlacklist (blacklisted : List UInt64) : SignedRevocationList G1 :=
  let blacklisted := SortedList.dedup (blacklisted.mergeSort (· ≤ ·))
  { ctx
    blacklistedEmax := blacklisted
    gaps := signLast sha sk h ctx (blacklisted.foldl (signStep sha sk h ctx) ([], 0)) }

end Sign

namespace SignedRevocationList

variable {G1 : Type} (list : SignedRevocationList G1)

def isBlacklisted (emax : UInt64) : Bool :=
  (SortedList.binarySearch list.blacklistedEmax emax).isSome

/-- `find_gap`: the first gap with the value strictly inside. -/
def findGap (emax : UInt64) : Except ActError (SignedRevocationGap G1) := do
  rejectIf (list.isBlacklisted emax = true) (.verificationFailed "Emax is blacklisted")
  okOr (list.gaps.find? fun gap => gap.left < emax ∧ emax < gap.right)
    (.verificationFailed "no signed revocation gap contains Emax")

/-- `contains_current_gap_for_debug_only`. -/
def containsCurrentGapForDebugOnly (interval : UInt64 × UInt64) : Bool :=
  list.gaps.any fun gap => (gap.left, gap.right) = interval

/-- `witness_inputs`, with the four blinders it draws. -/
def witnessInputs (emax : UInt64) (r1Emax : DalekScalar) (r2Emax r2Ea r2Eb : Scalar)
    (r1Ea r1Eb : DalekScalar) : Except ActError (GapWitnessInputs G1) := do
  let g ← list.findGap emax
  validateGapInterval emax (g.left, g.right) list.ctx.nowUnix
  let gap ← list.findGap emax
  return {
    emax, r1Emax, r2Emax
    interval := (gap.left, gap.right)
    signature := gap.signature
    r2Ea, r2Eb, r1Ea, r1Eb }

/-- The two lookups return the same gap. -/
theorem witnessInputs_ok {emax : UInt64} {r1Emax : DalekScalar} {r2Emax r2Ea r2Eb : Scalar}
    {r1Ea r1Eb : DalekScalar} {inputs : GapWitnessInputs G1} :
    list.witnessInputs emax r1Emax r2Emax r2Ea r2Eb r1Ea r1Eb = .ok inputs ↔
      ∃ gap, list.findGap emax = .ok gap ∧
        validateGapInterval emax (gap.left, gap.right) list.ctx.nowUnix = .ok () ∧
        inputs = {
          emax, r1Emax, r2Emax
          interval := (gap.left, gap.right)
          signature := gap.signature
          r2Ea, r2Eb, r1Ea, r1Eb } := by
  unfold witnessInputs
  rcases list.findGap emax with e | gap
  · exact ⟨fun h => (nomatch h), fun ⟨_, h, _⟩ => (nomatch h)⟩
  · show (validateGapInterval emax (gap.left, gap.right) list.ctx.nowUnix >>= _) = _ ↔ _
    rw [bind_unit_ok]
    constructor
    · rintro ⟨hvalid, hok⟩
      exact ⟨gap, rfl, hvalid, (Except.ok.inj hok).symm⟩
    · rintro ⟨_, hgap, hvalid, rfl⟩
      rw [← Except.ok.inj hgap] at hvalid ⊢
      exact ⟨hvalid, rfl⟩

end SignedRevocationList

end Ebut
