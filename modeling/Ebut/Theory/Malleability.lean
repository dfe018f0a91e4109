import Ebut.Theory.BatchedEq

/-!
# Encodings of an Accepted Proof

How many byte strings the verifier of the batched equality proof accepts for one proof. Each of
the three responses is decoded in its own way. The common response is compared with the smaller
order as an integer, and the response of the pairing group is decoded only if it is below the
order, so each of these has one encoding. The response of the Ristretto group is reduced, and
nothing compares it with the order: each of the fifteen or sixteen strings with its residue is
accepted in place of it.

So two accepted proofs that denote the same responses are equal as far as the quotient of that
one string by the order is.

## Main definitions

* `SameResponses`: Two proofs carry the same data and denote the same scalars.
* `BatchedEqualityProof.withZR25519`: The proof with another string for that response.

## Theorems

* `eq_of_modEq_of_div_eq`: A string is determined by residue and quotient.
* `eq_iff_of_accepted`: When two accepted proofs are equal.
* `verify_withZR25519`: The verifier sees the residue only.
* `exists_modEq_ne`: Every string shares its residue with another.
* `accepted_encodings`: The encodings that are accepted.
-/

namespace Ebut

open LittleEndian

variable {G1 G2 GT R : Type} [AddCommGroup G1] [Module Scalar G1] [AddCommGroup G2]
  [Module Scalar G2] [AddCommGroup GT] [Module Scalar GT] [AddCommGroup R]
  [Module DalekScalar R]

/-- The proofs carry the same challenge, commitment and range proof, and their responses denote
the same scalars: the common one modulo both orders, the others modulo their own. -/
structure SameResponses (proof proof' : BatchedEqualityProof) : Prop where
  challenge : proof.cBytes = proof'.cBytes
  commitment : proof.c25519Bytes = proof'.c25519Bytes
  rangeProof : proof.rangeProofBytes = proof'.rangeProofBytes
  rangeBits : proof.rangeBits = proof'.rangeBits
  zEBls : leNat proof.zEBytes.toList ≡ leNat proof'.zEBytes.toList [MOD blsOrder]
  zE25519 : leNat proof.zEBytes.toList ≡ leNat proof'.zEBytes.toList [MOD dalekOrder]
  zRBls : leNat proof.zRBlsBytes.toList ≡ leNat proof'.zRBlsBytes.toList [MOD blsOrder]
  zR25519 : leNat proof.zR25519Bytes.toList ≡ leNat proof'.zR25519Bytes.toList [MOD dalekOrder]

/-- The proof with another string for the response of the Ristretto group. -/
def BatchedEqualityProof.withZR25519 (proof : BatchedEqualityProof) (bytes : Bytes 32) :
    BatchedEqualityProof :=
  { proof with zR25519Bytes := bytes }

section Strings

/-- A string is determined by its residue and its quotient. -/
theorem eq_of_modEq_of_div_eq {n m : ℕ} {as bs : Bytes n}
    (hmod : leNat as.toList ≡ leNat bs.toList [MOD m])
    (hdiv : leNat as.toList / m = leNat bs.toList / m) : as = bs := by
  have hvalue : leNat as.toList = leNat bs.toList := by
    rw [← Nat.div_add_mod (leNat as.toList) m, hdiv, hmod, Nat.div_add_mod]
  have hlength : as.toList.length = bs.toList.length := by
    rw [as.toList_length, bs.toList_length]
  exact List.Vector.toList_injective (eq_of_leNat_eq hlength hvalue)

/-- Two strings below the modulus that have one residue are equal. -/
theorem eq_of_modEq_of_lt {n m : ℕ} {as bs : Bytes n}
    (hmod : leNat as.toList ≡ leNat bs.toList [MOD m]) (has : leNat as.toList < m)
    (hbs : leNat bs.toList < m) : as = bs :=
  eq_of_modEq_of_div_eq hmod (by rw [Nat.div_eq_of_lt has, Nat.div_eq_of_lt hbs])

/-- Another number of the same residue is written as another string. -/
theorem exists_modEq_ne_of {bytes : Bytes 32} {v : ℕ} (hroom : v < 256 ^ 32)
    (hmod : leNat bytes.toList ≡ v [MOD dalekOrder]) (hne : leNat bytes.toList ≠ v) :
    ∃ other : Bytes 32, leNat bytes.toList ≡ leNat other.toList [MOD dalekOrder] ∧
      bytes ≠ other := by
  have hvalue : leNat (leArray 32 v).toList = v := leNat_leArray hroom
  refine ⟨leArray 32 v, ?_, fun h => hne ?_⟩
  · rw [hvalue]
    exact hmod
  · rw [h, hvalue]

/-- Every string of 32 bytes shares its residue modulo the order of Curve25519 with another. -/
theorem exists_modEq_ne (bytes : Bytes 32) :
    ∃ other : Bytes 32, leNat bytes.toList ≡ leNat other.toList [MOD dalekOrder] ∧
      bytes ≠ other := by
  have hpos : 0 < dalekOrder := by decide +kernel
  have hroom : dalekOrder + dalekOrder < 256 ^ 32 := by decide +kernel
  have hbound := leNat_toList_lt bytes
  by_cases hlow : leNat bytes.toList < dalekOrder
  · exact exists_modEq_ne_of (v := leNat bytes.toList + dalekOrder) (by omega)
      Nat.add_modEq_right.symm (by omega)
  · -- what is not below the order can be lowered by it
    have hsub : leNat bytes.toList - dalekOrder + dalekOrder = leNat bytes.toList :=
      Nat.sub_add_cancel (Nat.le_of_not_lt hlow)
    refine exists_modEq_ne_of (v := leNat bytes.toList - dalekOrder) (by omega) ?_ (by omega)
    conv_lhs => rw [← hsub]
    exact Nat.add_modEq_right

end Strings

section Accepted

variable {sha : Sha2} {bls : Blstrs G1 G2 GT} {dalek : Dalek R}
  {proof proof' : BatchedEqualityProof} {cBls h4 h0 : G1} {context : List UInt8}
  {commitments : List G1}

/-- Accepted responses of the other two kinds are canonical. -/
theorem canonical_of_accepted
    (h : verifyBatchedEquality sha bls dalek proof cBls h4 h0 context commitments = .ok ()) :
    leNat proof.zEBytes.toList < dalekOrder ∧ leNat proof.zRBlsBytes.toList < blsOrder := by
  rcases verifyBatchedEquality_ok.mp h with ⟨-, c25519, rBls, r25519, hpasses, -⟩
  rcases hpasses.bls with ⟨zRBls, hdecode, -⟩
  refine ⟨hpasses.response_lt, ?_⟩
  by_contra hge
  -- the decoding has the order as its only bound
  rw [fromBytesLe, if_neg hge] at hdecode
  exact absurd hdecode.symm (Option.some_ne_none zRBls)

/-- Two accepted proofs with the same responses are equal up to the quotient. -/
theorem eq_iff_of_accepted
    (h : verifyBatchedEquality sha bls dalek proof cBls h4 h0 context commitments = .ok ())
    (h' : verifyBatchedEquality sha bls dalek proof' cBls h4 h0 context commitments = .ok ())
    (hsame : SameResponses proof proof') :
    proof = proof' ↔ leNat proof.zR25519Bytes.toList / dalekOrder =
      leNat proof'.zR25519Bytes.toList / dalekOrder := by
  rcases canonical_of_accepted h with ⟨hzE, hzRBls⟩
  rcases canonical_of_accepted h' with ⟨hzE', hzRBls'⟩
  constructor
  · intro heq
    rw [heq]
  · intro hdiv
    -- two of the strings are canonical, and the third is known by its quotient
    have hE := eq_of_modEq_of_lt hsame.zE25519 hzE hzE'
    have hBls := eq_of_modEq_of_lt hsame.zRBls hzRBls hzRBls'
    have h25519 := eq_of_modEq_of_div_eq hsame.zR25519 hdiv
    rcases hsame with ⟨hc, hcommitment, hrange, hbits, -, -, -, -⟩
    cases proof
    cases proof'
    rw [BatchedEqualityProof.mk.injEq]
    exact ⟨hc, hcommitment, hE, hBls, h25519, hrange, hbits⟩

/-- The verifier reduces the response of the Ristretto group before it looks at it. -/
theorem verify_withZR25519 {bytes : Bytes 32}
    (hmod : leNat proof.zR25519Bytes.toList ≡ leNat bytes.toList [MOD dalekOrder]) :
    verifyBatchedEquality sha bls dalek (proof.withZR25519 bytes) cBls h4 h0 context commitments =
      verifyBatchedEquality sha bls dalek proof cBls h4 h0 context commitments := by
  have hreduced : DalekScalar.fromBytesModOrder (proof.withZR25519 bytes).zR25519Bytes =
      DalekScalar.fromBytesModOrder proof.zR25519Bytes :=
    (ZMod.natCast_eq_natCast_iff _ _ _).mpr hmod.symm
  unfold verifyBatchedEquality
  rw [hreduced]
  rfl

theorem sameResponses_withZR25519 {bytes : Bytes 32}
    (hmod : leNat proof.zR25519Bytes.toList ≡ leNat bytes.toList [MOD dalekOrder]) :
    SameResponses proof (proof.withZR25519 bytes) :=
  ⟨rfl, rfl, rfl, rfl, rfl, rfl, rfl, hmod⟩

/-- For an accepted proof: another accepted proof with the same responses is equal to it
exactly when the strings of the Ristretto response have one quotient by the order, which two
canonical ones have. Every string of the same residue is accepted in its place, so there is
always a different accepted proof with the same responses. -/
theorem accepted_encodings
    (h : verifyBatchedEquality sha bls dalek proof cBls h4 h0 context commitments = .ok ()) :
    (∀ proof', verifyBatchedEquality sha bls dalek proof' cBls h4 h0 context commitments =
        .ok () → SameResponses proof proof' →
      (proof = proof' ↔ leNat proof.zR25519Bytes.toList / dalekOrder =
        leNat proof'.zR25519Bytes.toList / dalekOrder)) ∧
    (∀ bytes : Bytes 32, leNat proof.zR25519Bytes.toList ≡ leNat bytes.toList [MOD dalekOrder] →
      verifyBatchedEquality sha bls dalek (proof.withZR25519 bytes) cBls h4 h0 context
        commitments = .ok ()) ∧
    ∃ proof', verifyBatchedEquality sha bls dalek proof' cBls h4 h0 context commitments =
      .ok () ∧ SameResponses proof proof' ∧ proof ≠ proof' := by
  refine ⟨fun proof' h' hsame => eq_iff_of_accepted h h' hsame, fun bytes hmod => ?_, ?_⟩
  · rw [verify_withZR25519 hmod]
    exact h
  · rcases exists_modEq_ne proof.zR25519Bytes with ⟨bytes, hmod, hne⟩
    refine ⟨proof.withZR25519 bytes, ?_, sameResponses_withZR25519 hmod, fun heq => ?_⟩
    · rw [verify_withZR25519 hmod]
      exact h
    · exact hne (congrArg BatchedEqualityProof.zR25519Bytes heq)

end Accepted

section Example

/-- A proof about zero whose challenge is one, with a string for the Ristretto response. -/
def oneEquality (zR25519 : Bytes 32) : BatchedEqualityProof where
  cBytes := leArray 16 1
  c25519Bytes := leArray 32 0
  zEBytes := leArray 32 0
  zRBlsBytes := leArray 32 0
  zR25519Bytes := zR25519
  rangeProofBytes := []
  rangeBits := 32

/-- The digest of the concrete hash is one whatever is hashed, and so is the challenge. -/
theorem oneEquality_accepted (zR25519 : Bytes 32) :
    verifyBatchedEquality lineSha unitBlstrs lineDalek (oneEquality zR25519) 0
      (unitGenerators.h 3) (unitGenerators.h 0) [7] [unitGenerators.g1] = .ok () := by
  have hzero : fromBytesLe (leArray 32 0) = some 0 := by decide +kernel
  have hpoint : lineDalek.decompress (leArray 32 0) = some 0 := by decide +kernel
  have hresponse : u256Lt (leBytesToU64x4 (leArray 32 0)) q25519Limbs = true := by
    decide +kernel
  rw [verifyBatchedEquality_ok]
  exact ⟨Or.inl rfl, 0, _, _, ⟨hresponse, hpoint, ⟨0, hzero, rfl⟩, rfl⟩, rfl, rfl, rfl⟩

/-- The encodings of the concrete proof. -/
theorem accepted_encodings_one :
    (∀ proof', verifyBatchedEquality lineSha unitBlstrs lineDalek proof' 0 (unitGenerators.h 3)
        (unitGenerators.h 0) [7] [unitGenerators.g1] = .ok () →
      SameResponses (oneEquality (leArray 32 0)) proof' →
      (oneEquality (leArray 32 0) = proof' ↔
        leNat (oneEquality (leArray 32 0)).zR25519Bytes.toList / dalekOrder =
          leNat proof'.zR25519Bytes.toList / dalekOrder)) ∧
    (∀ bytes : Bytes 32, leNat (oneEquality (leArray 32 0)).zR25519Bytes.toList ≡
        leNat bytes.toList [MOD dalekOrder] →
      verifyBatchedEquality lineSha unitBlstrs lineDalek
        ((oneEquality (leArray 32 0)).withZR25519 bytes) 0 (unitGenerators.h 3)
        (unitGenerators.h 0) [7] [unitGenerators.g1] = .ok ()) ∧
    ∃ proof', verifyBatchedEquality lineSha unitBlstrs lineDalek proof' 0 (unitGenerators.h 3)
        (unitGenerators.h 0) [7] [unitGenerators.g1] = .ok () ∧
      SameResponses (oneEquality (leArray 32 0)) proof' ∧ oneEquality (leArray 32 0) ≠ proof' :=
  accepted_encodings (oneEquality_accepted (leArray 32 0))

/-- Zero and the order as the response: both are accepted, they denote the same scalar, and
they are different strings. -/
theorem two_encodings_accepted :
    verifyBatchedEquality lineSha unitBlstrs lineDalek (oneEquality (leArray 32 0)) 0
        (unitGenerators.h 3) (unitGenerators.h 0) [7] [unitGenerators.g1] = .ok () ∧
      verifyBatchedEquality lineSha unitBlstrs lineDalek (oneEquality (leArray 32 dalekOrder)) 0
        (unitGenerators.h 3) (unitGenerators.h 0) [7] [unitGenerators.g1] = .ok () ∧
      SameResponses (oneEquality (leArray 32 0)) (oneEquality (leArray 32 dalekOrder)) ∧
      oneEquality (leArray 32 0) ≠ oneEquality (leArray 32 dalekOrder) := by
  have hmod : leNat (leArray 32 0).toList ≡ leNat (leArray 32 dalekOrder).toList
      [MOD dalekOrder] := by decide +kernel
  have hne : leNat (leArray 32 0).toList ≠ leNat (leArray 32 dalekOrder).toList := by
    decide +kernel
  refine ⟨oneEquality_accepted _, oneEquality_accepted _,
    ⟨rfl, rfl, rfl, rfl, rfl, rfl, rfl, hmod⟩, fun h => ?_⟩
  exact hne (congrArg (fun proof => leNat proof.zR25519Bytes.toList) h)

end Example

end Ebut
