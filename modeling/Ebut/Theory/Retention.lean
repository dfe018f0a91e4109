import Ebut.Theory.Failure
import Ebut.Theory.RateLimit

/-!
# How Long Serials Are Remembered

The set of the serials spent in an epoch expires a grace period and a day after the
last spend of the epoch was checked. A spend of the epoch is accepted for as long as
the epoch or its successor is current. Nothing makes the first last as long as the
second: with epochs of a day, the serials of an epoch are forgotten on the next day
unless another spend of the epoch comes in.

As long as no spend is checked against a set that has expired, no serial is verified
twice, whatever the verifiers do.

## Main definitions

* `System.SpendKeysKept`: No spend is checked against an expired set.
* `replay`: A run over two days in which a serial is spent twice.

## Theorems

* `serial_verified_once`: No serial is verified twice while the sets last.
-/

namespace Ebut

open Transition

variable {G1 P Q A B L M : Type}

/-- When a spend adds its serial to the set of its epoch, the set has not expired: its
key was never written, or fewer than `epoch_grace_period_secs + 86400` seconds have
passed since its deadline was last set. -/
def System.SpendKeysKept (backend : Backend G1 P Q A B L M) (system : System P Q A B L)
    (action : Action P Q M) : Prop :=
  ∀ epoch, system.KeyKept backend (.spend epoch) action

instance (backend : Backend G1 P Q A B L M) (system : System P Q A B L) (action : Action P Q M) :
    Decidable (system.SpendKeysKept backend action) :=
  match h : system.addsTo backend action with
  | some (.spend epoch) =>
      decidable_of_iff (system.server.redis.nullifiers.Unexpired system.server.clock (.spend epoch))
        ⟨fun hkept _ hadds => NullifierKey.spend.inj (Option.some.inj (h.symm.trans hadds)) ▸ hkept,
          fun hall => hall epoch h⟩
  | some (.epoch _) => isTrue fun _ hadds => nomatch h.symm.trans hadds
  | none => isTrue fun _ hadds => nomatch h.symm.trans hadds

/-- In a run in which no spend is checked against an expired set, no serial of an epoch
passes the check and the verification in two requests. -/
theorem serial_verified_once (backend : Backend G1 P Q A B L M) (bloom : BloomFilter)
    (ledger : L) (config : ServerConfig) (actions : List (Action P Q M))
    (hkept : Along (System.step backend keysExpire) (System.SpendKeysKept backend)
      (System.start bloom ledger config) actions) (k : Scalar) (epoch : UInt32) :
    (run (System.step backend keysExpire) (System.start bloom ledger config)
      actions).server.spendsOf backend k epoch ≤ 1 := by
  -- the condition for one epoch is that for all of them
  have hone : Along (System.step backend keysExpire) (System.KeyKept backend (.spend epoch))
      (System.start bloom ledger config) actions :=
    Along.imp (fun _ _ hall => hall epoch) hkept
  exact (spendsOf_le_uses _ k epoch).trans (verified_once bloom ledger config hone)

section Example

/-- Encodings that tell refreshes from spends, the epochs of refreshes from each other and the
nonces of spends. -/
def plainCodec : Codec Scalar (IdealRefresh Scalar) IdealSpend DailyAttributes DailyAttributes where
  sha :=
    { lineSha with
      sha256 := fun bytes => ⟨(bytes ++ List.replicate 32 0).take 32, by
        rw [List.length_take, List.length_append, List.length_replicate]; omega⟩ }
  hasher := fun _ _ => 0
  compress := fun p => leArray 48 p.val
  refreshDebug := fun proof => [1, proof.kDaily.epoch.toUInt8]
  spendDebug := fun _ => [2]
  serializeRefresh := fun _ => some []
  deserializeRefresh := fun _ => none
  serializeSpend := fun _ => some []
  deserializeSpend := fun _ => none

def plainBackend : Backend Scalar (IdealRefresh Scalar) IdealSpend DailyAttributes DailyAttributes
    IdealLedger MasterAttributes :=
  idealBackend (fun _ => 1) plainCodec

/-- A token of epoch three with ten left, under the serial eight. -/
def tenLeft : DailyAttributes := ⟨5, 8, 10, 3, 4000000000⟩

def refreshTen : Request (IdealRefresh Scalar) IdealSpend := .refresh ⟨5, tenLeft⟩

/-- A spend of one from the token, under the nonce. -/
def spendOne (nonce : ℕ) : Request (IdealRefresh Scalar) IdealSpend :=
  .spend ⟨8, 3, 1, tenLeft, { tenLeft with k := 9, c := 9 }⟩ (leArray 16 nonce) none none

/-- A request that arrives and is handled at once. -/
def handled (id : ℕ) (request : Request (IdealRefresh Scalar) IdealSpend) :
    List (Action (IdealRefresh Scalar) IdealSpend MasterAttributes) :=
  .arrive id request :: List.replicate 7 (.advance id calm)

/-- A token is spent, the next day begins, and five minutes later it is spent again. -/
def replay : List (Action (IdealRefresh Scalar) IdealSpend MasterAttributes) :=
  [.mint ⟨5, 10, 4000000000⟩] ++ handled 0 refreshTen ++ handled 1 (spendOne 1) ++
    [.tick 86400, .reconfigure { epochThree with currentEpoch := 4 }, .tick 301] ++
    handled 2 (spendOne 2)

/-- The epochs last a day, and the serial is verified twice. -/
theorem replayed_serial_accepted :
    Along (System.step plainBackend keysExpire) System.DayLongEpochs
      (System.start oneByteFilter IdealLedger.empty epochThree) replay ∧
    (run (System.step plainBackend keysExpire)
      (System.start oneByteFilter IdealLedger.empty epochThree) replay).server.spendsOf
        plainBackend 8 3 = 2 := by
  decide +kernel

/-- The first day of that run, and a second spend of the serial on the same day. -/
def firstDayTwice : List (Action (IdealRefresh Scalar) IdealSpend MasterAttributes) :=
  replay.take 17 ++ [.tick 3600] ++ handled 2 (spendOne 2)

/-- The second spend comes while the set is kept, and is refused. -/
theorem serial_verified_once_first_day :
    (run (System.step plainBackend keysExpire)
      (System.start oneByteFilter IdealLedger.empty epochThree) firstDayTwice).server.spendsOf
        plainBackend 8 3 ≤ 1 ∧
    (run (System.step plainBackend keysExpire)
      (System.start oneByteFilter IdealLedger.empty epochThree) firstDayTwice).server.spendsOf
        plainBackend 8 3 = 1 ∧
    ((run (System.step plainBackend keysExpire)
      (System.start oneByteFilter IdealLedger.empty epochThree) firstDayTwice).tasks 2).map
        Task.phase =
      some (.failed .nullifier (.verificationFailed "Spend nullifier already used")) :=
  ⟨serial_verified_once plainBackend oneByteFilter IdealLedger.empty epochThree firstDayTwice
    (by decide +kernel) 8 3, by decide +kernel, rfl⟩

end Example

end Ebut
