import Ebut.Theory.Accountable
import Ebut.Theory.NonRevocation

/-!
# One Context for a Revocation Proof

The bytes behind the scalar of a revocation context frame the two identifiers of variable
length by their lengths, so different contexts give different bytes; the time is not part of
them. The scalar is hashed into the transcript of the gap proof, and the gap proof carries
the digest of its transcript. So a proof that is accepted under two contexts exhibits a
collision, among the bytes of the contexts or among the two transcripts.

## Main definitions

* `gapContextBytes`, `gapTranscript`: The bytes that are hashed.
* `RevocationContext.InMemory`: The identifiers have lengths that fit their type.
* `RevocationContext.Differs`: The contexts differ in what the scalar binds.

## Theorems

* `gapContextBytes_injective`: The framing is unambiguous.
* `gapTranscript_injective`: The transcript determines the scalar of the context.
* `revocation_proof_one_context`: A proof is accepted in at most one context.
-/

namespace Ebut

open LittleEndian V3Zkp

variable {P G1 G2 GT R : Type} [AddCommGroup G1] [Module Scalar G1] [AddCommGroup G2]
  [Module Scalar G2] [AddCommGroup GT] [Module Scalar GT] [AddCommGroup R] [Module DalekScalar R]

/-- The bytes hashed by `gap_context_scalar`. -/
def gapContextBytes (ctx : RevocationContext) : List UInt8 :=
  "EBUT:REVOCATION:GAP-CONTEXT:V1".toUTF8.toList ++
    usizeLeBytes ctx.appId.length ++ ctx.appId ++
    usizeLeBytes ctx.policyId.length ++ ctx.policyId ++
    ctx.serverKeyId.toList ++ u64LeBytes ctx.revocationListVersion

theorem gapContextScalar_eq (sha : Sha2) (ctx : RevocationContext) :
    gapContextScalar sha ctx = reduceScalar (sha.sha256 (gapContextBytes ctx)) := rfl

/-- A `Vec` has a length of 64 bits. -/
def RevocationContext.InMemory (ctx : RevocationContext) : Prop :=
  ctx.appId.length < 2 ^ 64 ∧ ctx.policyId.length < 2 ^ 64

/-- The contexts differ in an identifier, the key or the version of the list. -/
def RevocationContext.Differs (ctx ctx' : RevocationContext) : Prop :=
  ctx.appId ≠ ctx'.appId ∨ ctx.policyId ≠ ctx'.policyId ∨
    ctx.serverKeyId ≠ ctx'.serverKeyId ∨
    ctx.revocationListVersion ≠ ctx'.revocationListVersion

theorem usizeLeBytes_eq {n : ℕ} (hn : n < 2 ^ 64) : usizeLeBytes n = leBytes 8 n := by
  rw [usizeLeBytes, u64LeBytes, UInt64.toNat_ofNat_of_lt' hn]

/-- The framing is unambiguous for identifiers of any lengths. -/
theorem gapContextBytes_injective {ctx ctx' : RevocationContext} (hmem : ctx.InMemory)
    (hmem' : ctx'.InMemory) (h : gapContextBytes ctx = gapContextBytes ctx') :
    ¬ctx.Differs ctx' := by
  rcases hmem with ⟨happ, hpolicy⟩
  rcases hmem' with ⟨happ', hpolicy'⟩
  unfold gapContextBytes at h
  rw [usizeLeBytes_eq happ, usizeLeBytes_eq happ', usizeLeBytes_eq hpolicy,
    usizeLeBytes_eq hpolicy'] at h
  simp only [List.append_assoc, List.append_cancel_left_eq] at h
  -- field by field, each with the rest of the string
  rcases lengthPrefixed_injective happ happ' h with ⟨heqApp, h⟩
  rcases lengthPrefixed_injective hpolicy hpolicy' h with ⟨heqPolicy, h⟩
  have hkeys : ctx.serverKeyId.toList.length = ctx'.serverKeyId.toList.length := by
    rw [List.Vector.toList_length, List.Vector.toList_length]
  rcases List.append_inj h hkeys with ⟨heqKey, hversion⟩
  have heqVersion := leBytes_injOn ctx.revocationListVersion.toNat_lt
    ctx'.revocationListVersion.toNat_lt hversion
  rintro (hdiff | hdiff | hdiff | hdiff)
  · exact hdiff heqApp
  · exact hdiff heqPolicy
  · exact hdiff (List.Vector.toList_injective heqKey)
  · exact hdiff (UInt64.toNat_inj.mp heqVersion)

/-- The bytes hashed by `hash_gap_transcript` when a gap proof is verified. -/
def gapTranscript (bls : Blstrs G1 G2 GT) (pk : RevocationPublicKey G2) (gapCtx : Scalar)
    (valueBase blindBase : G1) (proof : GapProof G1 GT) : List UInt8 :=
  let g1 := fun p : G1 => (bls.g1Compressed p).toList
  let g2 := fun p : G2 => (bls.g2Compressed p).toList
  "gap_proof_v3_ctx_bound".toUTF8.toList ++ g2 pk.xG2 ++ g2 pk.y1G2 ++ g2 pk.y2G2 ++
    g2 pk.yctxG2 ++ (Scalar.toBytes gapCtx).toList ++ g1 valueBase ++ g1 blindBase ++
    g1 proof.comEa ++ g1 proof.comEb ++ g1 proof.sigma1Blind ++ g1 proof.sigma2Blind ++
    g1 proof.a1 ++ g1 proof.a2 ++ bls.gtDebug proof.aPair

/-- The transcripts of one proof under one key determine the scalar of the context. -/
theorem gapTranscript_injective {bls : Blstrs G1 G2 GT} {pk : RevocationPublicKey G2}
    {gapCtx gapCtx' : Scalar} {valueBase blindBase : G1} {proof : GapProof G1 GT}
    (h : gapTranscript bls pk gapCtx valueBase blindBase proof =
      gapTranscript bls pk gapCtx' valueBase blindBase proof) : gapCtx = gapCtx' := by
  unfold gapTranscript at h
  simp only [List.append_cancel_right_eq, List.append_cancel_left_eq] at h
  exact toBytes_injective (List.Vector.toList_injective h)

/-- A digest read as an integer determines the digest. -/
theorem digest_injective {n : ℕ} {digest digest' : Bytes n}
    (h : leNat digest.toList.reverse = leNat digest'.toList.reverse) : digest = digest' := by
  have hlength : digest.toList.reverse.length = digest'.toList.reverse.length := by
    rw [List.length_reverse, List.length_reverse, List.Vector.toList_length,
      List.Vector.toList_length]
  exact List.Vector.toList_injective (List.reverse_injective (eq_of_leNat_eq hlength h))

variable [DecidableEq G1] [DecidableEq GT]

/-- An accepted gap proof carries the digest of its transcript. -/
theorem challenge_of_accepted {sha : Sha2} {bls : Blstrs G1 G2 GT} {proof : GapProof G1 GT}
    {pk : RevocationPublicKey G2} {gapCtx : Scalar} {valueBase blindBase : G1}
    (h : proof.verify sha bls pk gapCtx valueBase blindBase = true) :
    proof.challenge =
      leNat (sha.sha256 (gapTranscript bls pk gapCtx valueBase blindBase proof)).toList.reverse :=
  (gapVerifyAt_iff.mp h).1

variable [DecidableEq R]

/-- Two contexts that differ in an identifier, the key or the version hash different bytes, and
no proof is accepted under both: the contexts' digests, reduced to scalars, and the digests of
the two transcripts do not collide. -/
theorem revocation_proof_one_context (sha : Sha2) (bls : Blstrs G1 G2 GT) (dalek : Dalek R)
    (ranges : RangeProofs P R) (revocationProof : NonMembershipProof P G1 GT R)
    (serverPk : RevocationPublicKey G2) (userComRist : R)
    (userComBls blsValueBase blsBlindBase : G1) {ctx ctx' : RevocationContext}
    (hmem : ctx.InMemory) (hmem' : ctx'.InMemory) (hdiffers : ctx.Differs ctx')
    (hcontexts : Set.InjOn (fun bytes => reduceScalar (sha.sha256 bytes))
      {gapContextBytes ctx, gapContextBytes ctx'})
    (htranscripts : Set.InjOn sha.sha256
      {gapTranscript bls serverPk (gapContextScalar sha ctx) blsValueBase blsBlindBase
          revocationProof.gapProof,
        gapTranscript bls serverPk (gapContextScalar sha ctx') blsValueBase blsBlindBase
          revocationProof.gapProof}) :
    gapContextBytes ctx ≠ gapContextBytes ctx' ∧
      ¬(verifyEmaxNotRevokedWithBases sha bls dalek ranges ctx revocationProof serverPk
            userComRist userComBls blsValueBase blsBlindBase = .ok () ∧
          verifyEmaxNotRevokedWithBases sha bls dalek ranges ctx' revocationProof serverPk
            userComRist userComBls blsValueBase blsBlindBase = .ok ()) := by
  have hbytes : gapContextBytes ctx ≠ gapContextBytes ctx' :=
    fun h => gapContextBytes_injective hmem hmem' h hdiffers
  refine ⟨hbytes, ?_⟩
  rintro ⟨haccept, haccept'⟩
  rw [verifyEmaxNotRevokedWithBases_ok, verifyNonMembershipProof_iff] at haccept haccept'
  -- both verifications recompute the one challenge in the proof
  have hdigest := digest_injective
    ((challenge_of_accepted haccept.2.1).symm.trans (challenge_of_accepted haccept'.2.1))
  have htranscript := htranscripts (Set.mem_insert _ _)
    (Set.mem_insert_of_mem _ (Set.mem_singleton _)) hdigest
  have hscalar := gapTranscript_injective htranscript
  rw [gapContextScalar_eq, gapContextScalar_eq] at hscalar
  exact hbytes (hcontexts (Set.mem_insert _ _)
    (Set.mem_insert_of_mem _ (Set.mem_singleton _)) hscalar)

section Example

/-- A hash that adds the bytes of its input up. -/
def sumSha : Sha2 where
  sha256 := fun bytes => leArray 32 (bytes.map UInt8.toNat).sum
  sha512 := fun bytes => leArray 64 (bytes.map UInt8.toNat).sum

/-- The context of a version of the list. -/
def versionContext (version : UInt64) : RevocationContext where
  appId := [7, 7]
  policyId := [5]
  serverKeyId := leArray 32 3
  revocationListVersion := version
  nowUnix := 1000

omit [DecidableEq G1] [DecidableEq GT] in
/-- Transcripts with different contexts have different sums, whatever else is in them. -/
theorem sumSha_gapTranscript_ne {bls : Blstrs G1 G2 GT} {pk : RevocationPublicKey G2}
    {gapCtx gapCtx' : Scalar} {valueBase blindBase : G1} {proof : GapProof G1 GT}
    (hne : ((Scalar.toBytes gapCtx).toList.map UInt8.toNat).sum % 256 ^ 32 ≠
      ((Scalar.toBytes gapCtx').toList.map UInt8.toNat).sum % 256 ^ 32) :
    sumSha.sha256 (gapTranscript bls pk gapCtx valueBase blindBase proof) ≠
      sumSha.sha256 (gapTranscript bls pk gapCtx' valueBase blindBase proof) := by
  intro h
  have hsums := congrArg (fun digest : Bytes 32 => leNat digest.toList) h
  simp only [sumSha, leArray, List.Vector.toList_mk, leNat_leBytes, gapTranscript, List.map_append,
    List.sum_append] at hsums
  omega

/-- The proof of the owner of an expiry is accepted under the version it was made for, and not
under the next one. -/
theorem revocation_proof_one_context_versions :
    ∃ cp : ClientRevocationProof (List UInt64 × List DalekScalar) UnitSpace UnitSpace DalekScalar,
      let userComBls := Scalar.ofU64 1500 • unitGenerators.h 5 + (1 : Scalar) • unitGenerators.h 0
      let accepted := fun version => verifyEmaxNotRevokedWithBases sumSha lineBlstrs lineDalek
        openedRanges (versionContext version) cp.proof (fourKey.publicKey lineBlstrs)
        cp.userComRist userComBls (unitGenerators.h 5) (unitGenerators.h 0) = .ok ()
      accepted 1 ∧ gapContextBytes (versionContext 1) ≠ gapContextBytes (versionContext 2) ∧
        ¬(accepted 1 ∧ accepted 2) := by
  have hwitness : (signBlacklist sumSha fourKey (fun _ => unitGenerators.g1) (versionContext 1)
      [2000]).HasWitness 1500 :=
    oneRevoked_hasWitness (by decide) (by decide) (by decide) (by decide) (by decide)
  rcases proveEmaxWithBases_accepted lineBlstrs 1 (unitGenerators.h 5) (unitGenerators.h 0)
    hwitness oneRevocationCoins_complete with ⟨cp, -, haccepted⟩
  refine ⟨cp, verifyEmaxNotRevokedWithBases_ok.mpr haccepted, ?_⟩
  refine revocation_proof_one_context sumSha lineBlstrs lineDalek openedRanges cp.proof
    (fourKey.publicKey lineBlstrs) cp.userComRist _ (unitGenerators.h 5) (unitGenerators.h 0)
    ⟨by decide, by decide⟩ ⟨by decide, by decide⟩
    (Or.inr (Or.inr (Or.inr (by decide)))) ?_ ?_
  · exact Set.injOn_pair.mpr fun h => absurd h (by decide +kernel)
  · exact Set.injOn_pair.mpr fun h => absurd h (sumSha_gapTranscript_ne (by decide +kernel))

end Example

end Ebut
