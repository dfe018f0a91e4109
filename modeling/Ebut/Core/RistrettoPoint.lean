import Ebut.Core.Gf25519

/-!
# The Points of the Vendored Library

Points of the twisted Edwards curve in extended coordinates, as the vendored C library computes
with them: sums, differences, doubles and negatives, the test of a point, the comparison of two
points up to torsion, the decoding of a string and the map from strings to points.

Sums and differences of limbs are not reduced where a product follows. The results that are
written into an argument's place are read in the order of the source, which reads every coordinate
before it is overwritten.

## Main definitions

* `RistrettoPoint`: The four coordinates.
* `pointAdd`, `pointSub`, `pointDouble`, `pointNegate`: The operations.
* `pointValid`, `pointEq`: The tests.
* `deisogenize`, `pointEncode`, `pointDecode`: The string of a point, and the point of a string.
* `pointFromHashNonuniform`, `pointFromHashUniform`: The map from strings.
-/

namespace Ebut

/-- `RISTRETTO255_EDWARDS_D`. -/
def edwardsD : ℤ := -121665

/-- `TWISTED_D`. -/
def twistedD : ℤ := -edwardsD

/-- `RISTRETTO255_FACTOR`. -/
def ristrettoFactor : Gf25519 :=
  ⟨0x702557fa2bf03, 0x514b7d1a82cc6, 0x7f89efd8b43a7, 0x1aef49ec23700, 0x079376fa30500⟩

/-- `ristretto255_point_t`. -/
structure RistrettoPoint where
  x : Gf25519
  y : Gf25519
  z : Gf25519
  t : Gf25519
  deriving DecidableEq, Repr

/-- `ristretto255_point_base`. -/
def pointBase : RistrettoPoint where
  x := ⟨0x485cca7e8859, 0x41dc396dfb8fc, 0x5584743ad3a93, 0x6ae1e23d9233c, 0x56f798c3a929c⟩
  y := ⟨0x4ccccccccccc2, 0x1999999999999, 0x3333333333333, 0x6666666666666, 0x4cccccccccccc⟩
  z := ⟨1, 0, 0, 0, 0⟩
  t := ⟨0x4f837acb251cf, 0xdea88db96efd, 0x19b5df567eff2, 0x59babaf1be1f1, 0x342e2875657f7⟩

/-- `base_point_ser_for_pregen`, which the tables are generated from. -/
def basePointSer : Bytes 32 :=
  ⟨[0xe2, 0xf2, 0xae, 0x0a, 0x6a, 0xbc, 0x4e, 0x71, 0xa8, 0x84, 0xa9, 0x61, 0xc5, 0x00, 0x51, 0x5f,
    0x58, 0xe3, 0x0b, 0x6a, 0xa5, 0x82, 0xdd, 0x8d, 0xb6, 0xa6, 0x59, 0x45, 0xe0, 0x8d, 0x2d, 0x76],
    rfl⟩

section Operations

/-- `ristretto255_point_sub`. -/
def pointSub (q r : RistrettoPoint) : RistrettoPoint :=
  let b := gfSubNr q.y q.x
  let d := gfSubNr r.y r.x
  let c := gfAddRaw r.y r.x
  let a := gfMul c b
  let b := gfAddRaw q.y q.x
  let y := gfMul d b
  let b := gfMul r.t q.t
  let x := gfMulw b (2 * twistedD)
  let b := gfAddRaw a y
  let c := gfSubNr y a
  let a := gfMul q.z r.z
  let a := gfAddRaw a a
  let y := gfAddRaw a x
  let a := gfSubNr a x
  let z := gfMul a y
  let x := gfMul y c
  let y := gfMul a b
  let t := gfMul b c
  ⟨x, y, z, t⟩

/-- `ristretto255_point_add`. -/
def pointAdd (q r : RistrettoPoint) : RistrettoPoint :=
  let b := gfSubNr q.y q.x
  let c := gfSubNr r.y r.x
  let d := gfAddRaw r.y r.x
  let a := gfMul c b
  let b := gfAddRaw q.y q.x
  let y := gfMul d b
  let b := gfMul r.t q.t
  let x := gfMulw b (2 * twistedD)
  let b := gfAddRaw a y
  let c := gfSubNr y a
  let a := gfMul q.z r.z
  let a := gfAddRaw a a
  let y := gfSubNr a x
  let a := gfAddRaw a x
  let z := gfMul a y
  let x := gfMul y c
  let y := gfMul a b
  let t := gfMul b c
  ⟨x, y, z, t⟩

/-- `point_double_internal`, where no other double follows. -/
def pointDouble (q : RistrettoPoint) : RistrettoPoint :=
  let c := gfSqr q.x
  let a := gfSqr q.y
  let d := gfAddRaw c a
  let t := gfAddRaw q.y q.x
  let b := gfSqr t
  let b := gfSubxNr b d 3
  let t := gfSubNr a c
  let x := gfSqr q.z
  let z := gfAddRaw x x
  let a := gfSubxNr z t 4
  let x := gfMul a b
  let z := gfMul t a
  let y := gfMul t d
  let t := gfMul b d
  ⟨x, y, z, t⟩

/-- `ristretto255_point_negate`. -/
def pointNegate (a : RistrettoPoint) : RistrettoPoint :=
  ⟨gfSub gfZero a.x, a.y, a.z, gfSub gfZero a.t⟩

end Operations

section Tests

/-- `ristretto255_point_eq`: the points differ by a point of the two-torsion, or of the
four-torsion. -/
def pointEq (p q : RistrettoPoint) : Bool :=
  let a := gfMul p.y q.x
  let b := gfMul q.y p.x
  let succ := gfEq a b
  let a := gfMul p.y q.y
  let b := gfMul q.x p.x
  succ || gfEq a b

/-- `ristretto255_point_valid`. -/
def pointValid (p : RistrettoPoint) : Bool :=
  let a := gfMul p.x p.y
  let b := gfMul p.z p.t
  let out := gfEq a b
  let a := gfSqr p.x
  let b := gfSqr p.y
  let a := gfSub b a
  let b := gfSqr p.t
  let c := gfMulw b twistedD
  let b := gfSqr p.z
  let b := gfAdd b c
  let out := out && gfEq a b
  out && !gfEq p.z gfZero

end Tests

section Strings

/-- The end of `ristretto255_deisogenize`, from the roots of the numerator and the denominator in
the order in which they are after the rotation. -/
def deisogenizeRotated (p : RistrettoPoint) (t1 t2 : Gf25519)
    (rotate toggleS toggleAltx : Bool) : Gf25519 × Gf25519 × Gf25519 :=
  let t4 := gfMulI p.x
  let t4 := gfCondSel p.y t4 rotate
  let t5 := gfMulI ristrettoFactor
  let t3 := gfMul t5 t2
  let t2 := gfMul t5 t1
  let t5 := gfMul t2 p.t
  let negx := gfLobit t5 ^^ toggleAltx
  let t1 := gfCondNeg t1 (negx ^^ rotate)
  let t2 := gfMul t1 p.z
  let t2 := gfAdd t2 gfOne
  let invElSum := gfMul t2 t4
  let s := gfMul invElSum t3
  let negs := gfLobit s
  let s := gfCondNeg s negs
  let negz := !negs ^^ toggleS ^^ negx
  let invElM1 := gfCondNeg p.z negz
  let invElM1 := gfSub invElM1 t4
  (s, invElSum, invElM1)

/-- `ristretto255_deisogenize`: the coordinate on the isogenous curve, and what else its callers
compute with. -/
def deisogenize (p : RistrettoPoint) (toggleS toggleAltx toggleRotation : Bool) :
    Gf25519 × Gf25519 × Gf25519 :=
  let t1 := gfAdd p.z p.y
  let t2 := gfSub p.z p.y
  let t3 := gfMul t1 t2
  let t2 := gfMul p.x p.y
  let t1 := gfSqr t2
  let t4 := gfMul t1 t3
  let t1 := gfMulw t4 (-1 - twistedD)
  let t4 := (gfIsr t1).1
  let t1 := gfMul t2 t4
  let t2 := gfMul t1 ristrettoFactor
  let t1 := gfMul t3 t4
  let t3 := gfMul t1 t2
  let t4 := gfMulI t3
  let t3 := gfMul t4 p.t
  let t4 := gfMul t3 p.t
  let t3 := gfMulw t4 (twistedD + 1)
  let rotate := toggleRotation ^^ gfLobit t3
  let swapped := gfCondSwap t1 t2 rotate
  deisogenizeRotated p swapped.1 swapped.2 rotate toggleS toggleAltx

/-- `ristretto255_point_encode`. -/
def pointEncode (p : RistrettoPoint) : Bytes 32 := gfSerialize (deisogenize p false false false).1

/-- `ristretto255_point_decode`: the point, and whether the string is accepted. -/
def pointDecode (ser : Bytes 32) (allowIdentity : Bool) : RistrettoPoint × Bool :=
  let (s, succ) := gfDeserialize ser true 0
  let succ := succ && (allowIdentity || !gfEq s gfZero)
  let succ := succ && !gfLobit s
  let s2 := gfSqr s
  let s2 := gfSub gfZero s2
  let den := gfSub gfOne s2
  let ynum := gfAdd gfOne s2
  let num := gfMulw s2 (-4 * twistedD)
  let tmp := gfSqr den
  let num := gfAdd tmp num
  let tmp2 := gfMul num tmp
  let (isr, square) := gfIsr tmp2
  let succ := succ && square
  let tmp := gfMul isr den
  let y := gfMul tmp ynum
  let tmp2 := gfMul tmp s
  let tmp2 := gfAdd tmp2 tmp2
  let tmp := gfMul tmp2 isr
  let x := gfMul tmp num
  let tmp := gfMul tmp2 ristrettoFactor
  let x := gfCondNeg x (gfLobit tmp)
  let succ := succ && !gfEq y gfZero
  let tmp := gfMul x y
  let tmp2 := gfMul tmp ristrettoFactor
  let succ := succ && !gfLobit tmp2
  let tmp := x
  let x := gfMulI tmp
  let z := gfOne
  let t := gfMul x y
  (⟨x, y, z, t⟩, succ)

/-- `ristretto255_point_from_hash_nonuniform`. The encoder of messages computes the point alike. -/
def pointFromHashNonuniform (ser : Bytes 32) : RistrettoPoint :=
  let mask : UInt8 := 0x80
  let r0 := (gfDeserialize ser false mask).1
  let r0 := gfStrongReduce r0
  let a := gfSqr r0
  let r := gfMulI a
  let a := gfSub r gfOne
  let b := gfMulw a edwardsD
  let a := gfAdd b gfOne
  let b := gfSub b r
  let c := gfMul a b
  let a := gfAdd r gfOne
  let n := gfMulw a (1 - 2 * edwardsD)
  let a := gfMul c n
  let (b, square) := gfIsr a
  let c := gfCondSel r0 gfOne square
  let e := gfMul b c
  let a := gfMul n e
  let a := gfCondNeg a (gfLobit a ^^ !square)
  let c := gfMulw e (1 - 2 * edwardsD)
  let b := gfSqr c
  let e := gfSub r gfOne
  let c := gfMul b e
  let b := gfMul c n
  let b := gfCondNeg b square
  let b := gfSub b gfOne
  let c := gfMul a sqrtMinusOne
  let a := c
  let c := gfSqr a
  let a := gfAdd a a
  let e := gfAdd c gfOne
  let t := gfMul a e
  let x := gfMul a b
  let a := gfSub gfOne c
  let y := gfMul e a
  let z := gfMul a b
  ⟨x, y, z, t⟩

/-- `ristretto255_point_from_hash_uniform`, of the two halves of the data. -/
def pointFromHashUniform (hashedData : Bytes 32 × Bytes 32) : RistrettoPoint :=
  let pt := pointFromHashNonuniform hashedData.1
  let pt2 := pointFromHashNonuniform hashedData.2
  pointAdd pt pt2

end Strings

end Ebut
