import Ebut.Core.Server
import Ebut.Library.Bincode

/-!
# The Wire Format of the Responses

How the responses are written into the idempotency cache and read from it: a point as a
tuple of 48 bytes, through the module the crate has for it, and two scalars.

## Main definitions

* `actScalarSerde`, `g1Serde`: A scalar and a point.
* `refreshResponseCodec`, `spendResponseCodec`: The codecs.
* `Backend.overWire`: The handlers with these codecs.
-/

namespace Ebut

/-- `Deserialize` for `Scalar`, on the bytes read. -/
def actScalarOfWire (bytes : Bytes 32) : Except Bincode.Error Scalar :=
  match fromBytesLe bytes with
  | some s => .ok s
  | none => .error (.custom "Invalid scalar: not in field")

def actScalarSerde : Bincode.Codec Scalar :=
  (Bincode.array 32).refine Scalar.toBytes actScalarOfWire

variable {G1 P Q L M : Type}

/-- A point of the bytes read, or an error. -/
def g1OfWire (fromCompressed : Bytes 48 → Option G1) (bytes : Bytes 48) :
    Except Bincode.Error G1 :=
  match fromCompressed bytes with
  | some p => .ok p
  | none => .error (.custom "invalid compressed G1")

/-- `g1_serde`: written and read as a tuple. -/
def g1Serde (compress : G1 → Bytes 48) (fromCompressed : Bytes 48 → Option G1) :
    Bincode.Codec G1 :=
  (Bincode.array 48).refine compress (g1OfWire fromCompressed)

def refreshResponseCodec (compress : G1 → Bytes 48) (fromCompressed : Bytes 48 → Option G1) :
    Bincode.Codec (RefreshResponse G1) :=
  ((g1Serde compress fromCompressed).pair (actScalarSerde.pair actScalarSerde)).iso
    (fun v => (v.aDaily, v.eDaily, v.sPrimeDaily)) fun p => ⟨p.1, p.2.1, p.2.2⟩

def spendResponseCodec (compress : G1 → Bytes 48) (fromCompressed : Bytes 48 → Option G1) :
    Bincode.Codec (SpendResponse G1) :=
  ((g1Serde compress fromCompressed).pair (actScalarSerde.pair actScalarSerde)).iso
    (fun v => (v.aRefund, v.eRefund, v.sPrimeRefund)) fun p => ⟨p.1, p.2.1, p.2.2⟩

/-- The handlers with the responses written and read in the wire format. -/
def Backend.overWire (backend : Backend G1 P Q (RefreshResponse G1) (SpendResponse G1) L M)
    (fromCompressed : Bytes 48 → Option G1) :
    Backend G1 P Q (RefreshResponse G1) (SpendResponse G1) L M :=
  { backend with
    serializeRefresh := fun response =>
      some ((refreshResponseCodec backend.compress fromCompressed).serialize response)
    deserializeRefresh := fun bytes =>
      ((refreshResponseCodec backend.compress fromCompressed).deserialize bytes).toOption
    serializeSpend := fun response =>
      some ((spendResponseCodec backend.compress fromCompressed).serialize response)
    deserializeSpend := fun bytes =>
      ((spendResponseCodec backend.compress fromCompressed).deserialize bytes).toOption }

end Ebut
