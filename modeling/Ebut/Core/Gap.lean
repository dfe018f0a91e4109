import Ebut.Core.Suite

/-!
# Signed Revocation Gaps

The signature the server puts on an open gap `(ea, eb)` of the revocation list
under a context, and the proof that a client holds such a signature on two
committed endpoints. The proof shows the signature multiplied by a random factor
and opens the two commitments inside the pairing equation.

The verifier is cut at its challenge, which `verifyAt` takes as an argument.

## Main definitions

* `RevocationSecretKey`, `RevocationPublicKey`: The signing keys.
* `signIntervalWithContext`: The signature on a gap.
* `GapProof`: The proof.
* `GapProof.prove`: The prover, its randomness given.
* `GapProof.verifyAt`: The verifier at an expected challenge.
* `GapProof.verify`: The verifier.

## Theorems

* `gapVerifyAt_iff`: What the verifier accepts.
-/

namespace Ebut

open LittleEndian

/-- `ServerSecretKey` of the gap signatures. -/
structure RevocationSecretKey where
  x : Scalar
  y1 : Scalar
  y2 : Scalar
  yctx : Scalar

/-- `ServerPublicKey` of the gap signatures. -/
structure RevocationPublicKey (G2 : Type) where
  xG2 : G2
  y1G2 : G2
  y2G2 : G2
  /-- Public key component binding signed gaps to a revocation context. -/
  yctxG2 : G2

structure GapProof (G1 GT : Type) where
  comEa : G1
  comEb : G1
  sigma1Blind : G1
  sigma2Blind : G1
  a1 : G1
  a2 : G1
  aPair : GT
  challenge : ℕ
  sEa : Scalar
  sRa : Scalar
  sEb : Scalar
  sRb : Scalar

variable {G1 G2 GT : Type} [AddCommGroup G1] [Module Scalar G1] [AddCommGroup G2]
  [Module Scalar G2] [AddCommGroup GT] [Module Scalar GT]

/-- The public key that `generate` returns with a secret one. -/
def RevocationSecretKey.publicKey (sk : RevocationSecretKey) (bls : Blstrs G1 G2 GT) :
    RevocationPublicKey G2 where
  xG2 := sk.x • bls.g2Generator
  y1G2 := sk.y1 • bls.g2Generator
  y2G2 := sk.y2 • bls.g2Generator
  yctxG2 := sk.yctx • bls.g2Generator

/-- The exponent of a signature on `(ea, eb)` in a context. -/
def RevocationSecretKey.exponent (sk : RevocationSecretKey) (ea eb gapCtx : Scalar) : Scalar :=
  sk.x + sk.y1 * ea + sk.y2 * eb + sk.yctx * gapCtx

/-- `sign_interval_with_context`, with the random point `h` it draws. -/
def signIntervalWithContext (sk : RevocationSecretKey) (ea eb : UInt64) (gapCtx : Scalar)
    (h : G1) : G1 × G1 :=
  (h, sk.exponent (Scalar.ofU64 ea) (Scalar.ofU64 eb) gapCtx • h)

/-- `hash_gap_transcript`: a digest read as a big-endian integer. -/
def hashGapTranscript (sha : Sha2) (bls : Blstrs G1 G2 GT) (pk : RevocationPublicKey G2)
    (gapCtx : Scalar) (valueBase blindBase comEa comEb sigma1Blind sigma2Blind a1 a2 : G1)
    (aPair : GT) : ℕ :=
  let g1 := fun p : G1 => (bls.g1Compressed p).toList
  let g2 := fun p : G2 => (bls.g2Compressed p).toList
  leNat (sha.sha256 <|
    "gap_proof_v3_ctx_bound".toUTF8.toList ++ g2 pk.xG2 ++ g2 pk.y1G2 ++ g2 pk.y2G2 ++
    g2 pk.yctxG2 ++ (Scalar.toBytes gapCtx).toList ++ g1 valueBase ++ g1 blindBase ++
    g1 comEa ++ g1 comEb ++ g1 sigma1Blind ++ g1 sigma2Blind ++ g1 a1 ++ g1 a2 ++
    bls.gtDebug aPair).toList.reverse

/-- `GapProof::prove_with_context_and_bases`, with the four blinders it draws. -/
def GapProof.prove (sha : Sha2) (bls : Blstrs G1 G2 GT) (ea eb : UInt64) (ra rb : Scalar)
    (sigma1 sigma2 : G1) (t gapCtx : Scalar) (pk : RevocationPublicKey G2)
    (valueBase blindBase : G1) (rEa rRa rEb rRb : Scalar) : GapProof G1 GT :=
  let eaScalar := Scalar.ofU64 ea
  let ebScalar := Scalar.ofU64 eb
  let comEa := eaScalar • valueBase + ra • blindBase
  let comEb := ebScalar • valueBase + rb • blindBase
  -- the signature scaled by one factor is a signature on the same gap
  let sigma1Blind := t • sigma1
  let sigma2Blind := t • sigma2
  let a1 := rEa • valueBase + rRa • blindBase
  let a2 := rEb • valueBase + rRb • blindBase
  -- the pairing equation at the blinders of the two endpoints
  let aPair := bls.pairing sigma1Blind (rEa • pk.y1G2 + rEb • pk.y2G2)
  let challenge := hashGapTranscript sha bls pk gapCtx valueBase blindBase comEa comEb sigma1Blind
    sigma2Blind a1 a2 aPair
  let c := biguintToBlsScalar challenge
  { comEa, comEb, sigma1Blind, sigma2Blind, a1, a2, aPair, challenge
    sEa := rEa + c * eaScalar
    sRa := rRa + c * ra
    sEb := rEb + c * ebScalar
    sRb := rRb + c * rb }

section Verify

variable [DecidableEq G1] [DecidableEq GT]

/-- The verifier with the challenge it recomputed. -/
def GapProof.verifyAt (proof : GapProof G1 GT) (bls : Blstrs G1 G2 GT)
    (pk : RevocationPublicKey G2) (gapCtx : Scalar) (valueBase blindBase : G1)
    (challengeRecomputed : ℕ) : Bool :=
  if proof.challenge ≠ challengeRecomputed then false
  else
    -- neither blinded point is compared with the identity
    let c := biguintToBlsScalar proof.challenge
    if proof.a1 ≠ proof.sEa • valueBase + proof.sRa • blindBase - c • proof.comEa then false
    else if proof.a2 ≠ proof.sEb • valueBase + proof.sRb • blindBase - c • proof.comEb then false
    else
      -- the public key of the opened endpoints and the context, in the exponent
      let combinedPkG2 := proof.sEa • pk.y1G2 + proof.sEb • pk.y2G2 +
        c • (pk.xG2 + gapCtx • pk.yctxG2)
      decide (proof.aPair = bls.pairing proof.sigma1Blind combinedPkG2 +
        bls.pairing (c • proof.sigma2Blind) (-bls.g2Generator))

/-- `GapProof::verify_with_context_and_bases`. -/
def GapProof.verify (proof : GapProof G1 GT) (sha : Sha2) (bls : Blstrs G1 G2 GT)
    (pk : RevocationPublicKey G2) (gapCtx : Scalar) (valueBase blindBase : G1) : Bool :=
  proof.verifyAt bls pk gapCtx valueBase blindBase
    (hashGapTranscript sha bls pk gapCtx valueBase blindBase proof.comEa proof.comEb
      proof.sigma1Blind proof.sigma2Blind proof.a1 proof.a2 proof.aPair)

theorem gapVerifyAt_iff {proof : GapProof G1 GT} {bls : Blstrs G1 G2 GT}
    {pk : RevocationPublicKey G2} {gapCtx : Scalar} {valueBase blindBase : G1}
    {challengeRecomputed : ℕ} :
    proof.verifyAt bls pk gapCtx valueBase blindBase challengeRecomputed = true ↔
      proof.challenge = challengeRecomputed ∧
      proof.a1 = proof.sEa • valueBase + proof.sRa • blindBase -
        (proof.challenge : Scalar) • proof.comEa ∧
      proof.a2 = proof.sEb • valueBase + proof.sRb • blindBase -
        (proof.challenge : Scalar) • proof.comEb ∧
      proof.aPair = bls.pairing proof.sigma1Blind (proof.sEa • pk.y1G2 + proof.sEb • pk.y2G2 +
          (proof.challenge : Scalar) • (pk.xG2 + gapCtx • pk.yctxG2)) +
        bls.pairing ((proof.challenge : Scalar) • proof.sigma2Blind) (-bls.g2Generator) := by
  unfold GapProof.verifyAt
  simp only [biguintToBlsScalar_eq, ne_eq, ite_not, Bool.if_false_right, Bool.and_eq_true,
    decide_eq_true_eq]

end Verify

end Ebut
