import Ebut.Core.Nonce
import Ebut.Library.ByteBits
import Ebut.Library.Transition

/-!
# The Filter under Concurrent Calls

The Bloom filter as it is shared by the threads of the server: an array of atomic bytes that
calls read and write without a lock. A call is a loop over the hashes of its item, and each
turn of the loop touches the array once, by a `fetch_or` or by a `load`. Nothing else of a
call is visible to the others, so one step of the system is one turn of one call, or the start
of a call, or its return.

An action that names a call which is not under way changes nothing, so that every list of
actions is a run.

## Main definitions

* `SharedFilter`: The bytes, with the calls under way and returned.
* `SharedFilter.hash`: The position of one hash.
* `SharedFilter.insertTurn`, `SharedFilter.containsTurn`: One turn of each loop.
* `SharedFilter.step`: The answer to an action.
-/

namespace Ebut

open ByteBits

/-- A call to the filter. -/
inductive FilterCall where
  | insert (item : List UInt8)
  | contains (item : List UInt8)
  deriving DecidableEq, Repr

/-- How far a call has come. -/
inductive FilterProgress where
  /-- The next turn of the loop is for this hash. -/
  | turn (i : ℕ)
  /-- An insertion has returned. -/
  | inserted
  /-- A query has returned its answer. -/
  | answered (result : Bool)
  deriving DecidableEq, Repr

structure FilterThread where
  call : FilterCall
  progress : FilterProgress
  deriving DecidableEq, Repr

inductive FilterAction where
  | start (id : ℕ) (call : FilterCall)
  | advance (id : ℕ)
  deriving DecidableEq, Repr

/-- The filter with the calls that have reached it. -/
structure SharedFilter where
  bits : List UInt8
  numHashes : ℕ
  threads : ℕ → Option FilterThread

namespace SharedFilter

variable (hasher : List UInt8 → ℕ → UInt64)

/-- A filter that no call has reached yet. -/
def start (bits : List UInt8) (numHashes : ℕ) : SharedFilter := ⟨bits, numHashes, fun _ => none⟩

/-- The position of one hash. `DefaultHasher` is an argument. -/
def hash (filter : SharedFilter) (data : List UInt8) (seed : ℕ) : ℕ :=
  (hasher data seed).toNat % (filter.bits.length * 8)

/-- The call moves on. -/
def setProgress (filter : SharedFilter) (id : ℕ) (call : FilterCall) (progress : FilterProgress) :
    SharedFilter :=
  { filter with threads := Function.update filter.threads id (some ⟨call, progress⟩) }

/-- `insert` at the turn for hash `i`: one `fetch_or`, or the return behind the loop. -/
def insertTurn (filter : SharedFilter) (id : ℕ) (item : List UInt8) (i : ℕ) : SharedFilter :=
  if i < filter.numHashes then
    let bit := filter.hash hasher item i
    { filter with bits := orBit filter.bits bit }.setProgress id (.insert item) (.turn (i + 1))
  else filter.setProgress id (.insert item) .inserted

/-- `contains` at the turn for hash `i`: one `load`, with the early return, or the return
behind the loop. -/
def containsTurn (filter : SharedFilter) (id : ℕ) (item : List UInt8) (i : ℕ) : SharedFilter :=
  if i < filter.numHashes then
    let bit := filter.hash hasher item i
    let mask := (1 : UInt8) <<< UInt8.ofNat (bit % 8)
    if filter.bits.getD (bit / 8) 0 &&& mask == 0 then
      filter.setProgress id (.contains item) (.answered false)
    else filter.setProgress id (.contains item) (.turn (i + 1))
  else filter.setProgress id (.contains item) (.answered true)

/-- The answer to an action. An identifier in use does not name a second call, and a call that
has returned takes no more steps. -/
def step (filter : SharedFilter) : FilterAction → SharedFilter
  | .start id call =>
      match filter.threads id with
      | some _ => filter
      | none => filter.setProgress id call (.turn 0)
  | .advance id =>
      match filter.threads id with
      | some ⟨.insert item, .turn i⟩ => filter.insertTurn hasher id item i
      | some ⟨.contains item, .turn i⟩ => filter.containsTurn hasher id item i
      | _ => filter

@[simp]
theorem setProgress_bits (filter : SharedFilter) (id : ℕ) (call : FilterCall)
    (progress : FilterProgress) : (filter.setProgress id call progress).bits = filter.bits := rfl

@[simp]
theorem setProgress_numHashes (filter : SharedFilter) (id : ℕ) (call : FilterCall)
    (progress : FilterProgress) :
    (filter.setProgress id call progress).numHashes = filter.numHashes := rfl

theorem setProgress_self (filter : SharedFilter) (id : ℕ) (call : FilterCall)
    (progress : FilterProgress) :
    (filter.setProgress id call progress).threads id = some ⟨call, progress⟩ :=
  Function.update_self ..

theorem setProgress_of_ne (filter : SharedFilter) {id other : ℕ} (h : other ≠ id)
    (call : FilterCall) (progress : FilterProgress) :
    (filter.setProgress id call progress).threads other = filter.threads other :=
  Function.update_of_ne h ..

theorem hash_lt {filter : SharedFilter} (hbytes : filter.bits ≠ []) (data : List UInt8)
    (seed : ℕ) : filter.hash hasher data seed < 8 * filter.bits.length := by
  have hpos := List.length_pos_iff.mpr hbytes
  rw [Nat.mul_comm]
  exact Nat.mod_lt _ (by omega)

end SharedFilter

end Ebut
