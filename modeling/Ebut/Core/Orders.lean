import Ebut.Library.Primality
import Mathlib.Tactic.NormNum.Prime

/-!
# The Two Group Orders

The orders of the BLS12-381 and the Curve25519 prime-order groups. Every
extraction argument divides by a difference of challenges, so both orders have
to be primes; they are certified here rather than assumed. Each certificate is
a witness and a factorisation of the predecessor, down to primes that trial
division settles.

## Main definitions

* `blsOrder`: The order of the BLS12-381 scalar field.
* `dalekOrder`: The order of the Curve25519 scalar field.

## Theorems

* `blsOrder_prime`: The BLS12-381 order is prime.
* `dalekOrder_prime`: The Curve25519 order is prime.
* `orders_coprime`: The two orders have no common factor.
-/

namespace Ebut

open Primality

/-- `r = 0x73eda753299d7d483339d80809a1d80553bda402fffe5bfeffffffff00000001`. -/
def blsOrder : ℕ := 0x73eda753299d7d483339d80809a1d80553bda402fffe5bfeffffffff00000001

/-- `q = 2^252 + 27742317777372353535851937790883648493`. -/
def dalekOrder : ℕ := 0x1000000000000000000000000000000014def9dea2f79cd65812631a5cf5d3ed

theorem blsOrder_prime : blsOrder.Prime := by
  have h1 : (52437899).Prime :=
    prime_of_lucasTest 32 2 [(2, 1), (43, 1), (609743, 1)]
      ⟨by norm_num, by norm_num, by norm_num⟩ (by decide +kernel)
  have h2 : (63690073).Prime :=
    prime_of_lucasTest 32 7 [(2, 3), (3, 1), (2653753, 1)]
      ⟨by norm_num, by norm_num, by norm_num⟩ (by decide +kernel)
  have h3 : (254760293).Prime :=
    prime_of_lucasTest 32 2 [(2, 2), (63690073, 1)] ⟨by norm_num, h2⟩ (by decide +kernel)
  exact prime_of_lucasTest 256 7
    [(2, 32), (3, 1), (11, 1), (19, 1), (10177, 1), (125527, 1), (859267, 1), (906349, 2),
      (2508409, 1), (2529403, 1), (52437899, 1), (254760293, 2)]
    ⟨by norm_num, by norm_num, by norm_num, by norm_num, by norm_num, by norm_num,
      by norm_num, by norm_num, by norm_num, by norm_num, h1, h3⟩ (by decide +kernel)

/-- The smaller of the two large prime factors of `dalekOrder - 1`. -/
theorem dalekFactor_prime : (198211423230930754013084525763697).Prime := by
  have h1 : (14741173).Prime :=
    prime_of_lucasTest 32 2 [(2, 2), (3, 2), (409477, 1)]
      ⟨by norm_num, by norm_num, by norm_num⟩ (by decide +kernel)
  have h2 : (58964693).Prime :=
    prime_of_lucasTest 32 2 [(2, 2), (14741173, 1)] ⟨by norm_num, h1⟩ (by decide +kernel)
  have h3 : (3044861653679985063343).Prime :=
    prime_of_lucasTest 128 5
      [(2, 1), (3, 1), (11, 1), (30703, 1), (82163, 1), (132667, 1), (137849, 1)]
      ⟨by norm_num, by norm_num, by norm_num, by norm_num, by norm_num, by norm_num,
        by norm_num⟩ (by decide +kernel)
  exact prime_of_lucasTest 128 5
    [(2, 4), (3, 1), (23, 1), (58964693, 1), (3044861653679985063343, 1)]
    ⟨by norm_num, by norm_num, by norm_num, h2, h3⟩ (by decide +kernel)

/-- The larger of the two large prime factors of `dalekOrder - 1`. -/
theorem dalekCofactor_prime : (276602624281642239937218680557139826668747).Prime := by
  have h1 : (1257559732178653).Prime :=
    prime_of_lucasTest 64 2 [(2, 2), (3, 1), (7, 1), (23, 1), (531581, 1), (1224481, 1)]
      ⟨by norm_num, by norm_num, by norm_num, by norm_num, by norm_num, by norm_num⟩
      (by decide +kernel)
  have h2 : (4434155615661930479).Prime :=
    prime_of_lucasTest 64 17 [(2, 1), (41, 1), (43, 1), (1257559732178653, 1)]
      ⟨by norm_num, by norm_num, by norm_num, h1⟩ (by decide +kernel)
  have h3 : (172054593956031949258510691).Prime :=
    prime_of_lucasTest 128 2
      [(2, 1), (5, 1), (1361, 1), (2851, 1), (4434155615661930479, 1)]
      ⟨by norm_num, by norm_num, by norm_num, by norm_num, h2⟩ (by decide +kernel)
  have h4 : (292386187).Prime :=
    prime_of_lucasTest 32 2 [(2, 1), (3, 4), (307, 1), (5879, 1)]
      ⟨by norm_num, by norm_num, by norm_num, by norm_num⟩ (by decide +kernel)
  have h5 : (213441916511).Prime :=
    prime_of_lucasTest 64 13 [(2, 1), (5, 1), (73, 1), (292386187, 1)]
      ⟨by norm_num, by norm_num, by norm_num, h4⟩ (by decide +kernel)
  have h6 : (19757330305831588566944191468367130476339).Prime :=
    prime_of_lucasTest 192 2
      [(2, 1), (269, 1), (213441916511, 1), (172054593956031949258510691, 1)]
      ⟨by norm_num, by norm_num, h5, h3⟩ (by decide +kernel)
  exact prime_of_lucasTest 192 2
    [(2, 1), (7, 1), (19757330305831588566944191468367130476339, 1)]
    ⟨by norm_num, by norm_num, h6⟩ (by decide +kernel)

theorem dalekOrder_prime : dalekOrder.Prime :=
  prime_of_lucasTest 256 2
    [(2, 2), (3, 1), (11, 1), (198211423230930754013084525763697, 1),
      (276602624281642239937218680557139826668747, 1)]
    ⟨by norm_num, by norm_num, by norm_num, dalekFactor_prime, dalekCofactor_prime⟩
    (by decide +kernel)

instance : Fact blsOrder.Prime := ⟨blsOrder_prime⟩

instance : Fact dalekOrder.Prime := ⟨dalekOrder_prime⟩

theorem orders_coprime : blsOrder.Coprime dalekOrder :=
  (Nat.coprime_primes blsOrder_prime dalekOrder_prime).mpr (by decide +kernel)

end Ebut
