import Mathlib.NumberTheory.LucasPrimality
import Mathlib.Data.Nat.Prime.Factorial
import Mathlib.Algebra.BigOperators.Group.List.Lemmas

/-!
# Primality Certificates

Lucas's test with the exponentiations done by repeated squaring, so that the
kernel can evaluate it on a 255-bit modulus. A certificate for `p` is a witness
and a factorisation of `p - 1` whose bases are already known to be prime.

`powMod` carries an accumulator: the value still to be multiplied is
`acc * base ^ e`, and each turn moves one binary digit of `e` into `acc`.

## Main definitions

* `powMod`: Modular exponentiation by repeated squaring.
* `lucasTest`: Lucas's conditions on a witness and a factorisation.

## Theorems

* `powMod_modEq`: Repeated squaring computes the power.
* `prime_of_lucasTest`: A modulus that passes the test is prime.
-/

namespace Primality

/-- `acc * base ^ e` modulo `m`, over the `fuel` low binary digits of `e`. -/
def powMod (m : ℕ) : ℕ → ℕ → ℕ → ℕ → ℕ
  | 0, _, _, acc => acc % m
  | fuel + 1, base, e, acc =>
      powMod m fuel (base * base % m) (e / 2) (if e % 2 = 1 then acc * base % m else acc)

theorem powMod_modEq (m fuel : ℕ) :
    ∀ base e acc, e < 2 ^ fuel → powMod m fuel base e acc ≡ acc * base ^ e [MOD m] := by
  induction fuel with
  | zero =>
      intro base e acc he
      have h0 : e = 0 := by simpa using he
      subst h0
      simpa only [powMod, pow_zero, mul_one] using Nat.mod_modEq acc m
  | succ fuel ih =>
      intro base e acc he
      have hhalf : e / 2 < 2 ^ fuel := by
        rw [pow_succ] at he
        omega
      refine (ih _ _ _ hhalf).trans ?_
      have hsq : (base * base % m) ^ (e / 2) ≡ base ^ (2 * (e / 2)) [MOD m] := by
        rw [pow_mul, pow_two]
        exact (Nat.mod_modEq _ m).pow _
      -- the digit taken off `e` decides whether `base` joins the accumulator
      rcases Nat.mod_two_eq_zero_or_one e with hbit | hbit
      · rw [if_neg (by omega)]
        have hexp : 2 * (e / 2) = e := by omega
        rw [hexp] at hsq
        exact hsq.mul_left acc
      · rw [if_pos hbit]
        have hexp : base * base ^ (2 * (e / 2)) = base ^ e := by
          rw [← pow_succ']
          congr 1
          omega
        calc acc * base % m * (base * base % m) ^ (e / 2)
            ≡ acc * base * base ^ (2 * (e / 2)) [MOD m] := (Nat.mod_modEq _ m).mul hsq
          _ = acc * base ^ e := by rw [mul_assoc, hexp]

/-- Lucas's conditions: the bases multiply up to `p - 1`, the witness has order
dividing `p - 1`, and its order divides no `(p - 1) / q`. -/
def lucasTest (bits p a : ℕ) (factors : List (ℕ × ℕ)) : Bool :=
  decide (2 ≤ p) && decide (p < 2 ^ bits) &&
    decide ((factors.map fun f => f.1 ^ f.2).prod = p - 1) &&
    decide (powMod p bits a (p - 1) 1 = 1) &&
    factors.all fun f => decide (powMod p bits a ((p - 1) / f.1) 1 ≠ 1)

theorem powMod_eq_one_iff {bits p a e : ℕ} (hp : 2 ≤ p) (he : e < 2 ^ bits) :
    powMod p bits a e 1 = 1 ↔ ((a : ℕ) : ZMod p) ^ e = 1 := by
  have hmod : powMod p bits a e 1 % p = powMod p bits a e 1 := by
    have hlt : ∀ fuel base e acc, powMod p fuel base e acc < p := by
      intro fuel
      induction fuel with
      | zero => exact fun _ _ acc => Nat.mod_lt acc (by omega)
      | succ fuel ih => exact fun _ _ _ => ih _ _ _
    exact Nat.mod_eq_of_lt (hlt _ _ _ _)
  have hpow := powMod_modEq p bits a e 1 he
  rw [one_mul] at hpow
  have hcast : ((a : ℕ) : ZMod p) ^ e = 1 ↔ a ^ e ≡ 1 [MOD p] := by
    rw [← ZMod.natCast_eq_natCast_iff, Nat.cast_pow, Nat.cast_one]
  rw [hcast]
  constructor
  · intro h
    rw [h] at hpow
    exact hpow.symm
  · intro h
    have h1 : powMod p bits a e 1 % p = 1 % p := hpow.trans h
    rwa [hmod, Nat.mod_eq_of_lt (by omega : 1 < p)] at h1

theorem prime_of_lucasTest (bits : ℕ) {p : ℕ} (a : ℕ) (factors : List (ℕ × ℕ))
    (hprime : factors.Forall fun f => f.1.Prime) (htest : lucasTest bits p a factors = true) :
    p.Prime := by
  simp only [lucasTest, Bool.and_eq_true, decide_eq_true_eq, List.all_eq_true] at htest
  rcases htest with ⟨⟨⟨⟨hp, hbits⟩, hprod⟩, hone⟩, hne⟩
  have hfit : ∀ e, e ≤ p - 1 → e < 2 ^ bits := fun e he => by omega
  refine lucas_primality p (a : ZMod p) ((powMod_eq_one_iff hp (hfit _ le_rfl)).mp hone) ?_
  intro q hq hdvd
  rw [← hprod] at hdvd
  rcases (hq.prime.dvd_prod_iff).mp hdvd with ⟨x, hx, hqx⟩
  rcases List.mem_map.mp hx with ⟨f, hf, rfl⟩
  -- a prime dividing one of the powers is its base
  have hf1 : f.1.Prime := List.forall_iff_forall_mem.mp hprime f hf
  have hqf : q = f.1 := (Nat.prime_dvd_prime_iff_eq hq hf1).mp (hq.dvd_of_dvd_pow hqx)
  subst hqf
  intro h
  exact hne f hf ((powMod_eq_one_iff hp (hfit _ (Nat.div_le_self _ _))).mpr h)

end Primality
