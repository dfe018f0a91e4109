import Ebut.Library.Blocks
import Ebut.Library.LittleEndian
import Mathlib.Data.List.Forall2
import Mathlib.Data.Vector.Basic

/-!
# The Bincode Format

The default wire format of the bincode serializer: integers of fixed width with the least
significant byte first, a byte for a truth value or for the tag of an option, the elements
of a sequence behind their number, and the fields of a record or the elements of an array
one after the other with nothing around them. Bytes that are left over are ignored.

A codec is a writer and a reader of one type. That they fit together is not a field of it,
since a type may be written in one shape and read in another. What such a codec reads is
stated by where its reader starts: `ReadsBehind c D E P` says that a reader that is behind by
the bytes `D` reads a value `a` back just when `P a` holds, and is then behind by `E a`. The
usual round trip is the case where nothing is behind and `P` is true. The law of a record is
composed from those of its fields, whatever they are behind by.

A byte string that is written behind its length and read without it leaves the reader behind
by the length. `eq_power_of_overlap` is what follows for whatever is read from then on: it
has to repeat the bytes that the reader is behind by.

## Main definitions

* `Codec`: A writer and a reader.
* `byte`, `array`, `u32`, `u64`, `bool`, `Codec.option`, `Codec.seq`: The shapes of the format.
* `arrayBehindLength`: An array in two shapes, one to write and one to read.
* `Codec.pair`, `Codec.iso`, `Codec.refine`: Two fields, a record, another representation.
* `ReadsBehind`: What a reader reads that is behind the writer.
* `power`: A word repeated.

## Theorems

* `readsBehind_pair`, `readsBehind_iso`, `readsBehind_refine`, `readsBehind_option`,
  `readsBehind_seq`: The laws
  of the combinators.
* `eq_power_of_overlap`: A string that overlaps itself repeats the overlap.
* `readsBehind_array_power`, `readsBehind_u64_power`, `readsBehind_bytes_power`,
  `readsBehind_arrayBehindLength`: What a reader reads that is behind by a repeated word.
* `deserialize_serialize_iff`: What is read back from the start.
-/

namespace Bincode

open Blocks (bind_eq_ok)
open LittleEndian

/-- What a reader answers when it does not read a value. -/
inductive Error where
  | unexpectedEof
  | invalidBoolEncoding (b : UInt8)
  | invalidTagEncoding (tag : UInt8)
  | custom (message : String)
  deriving DecidableEq, Repr

/-- A writer of a type, and a reader that also returns the bytes it has not read. -/
structure Codec (α : Type) where
  encode : α → List UInt8
  decode : List UInt8 → Except Error (α × List UInt8)

variable {α β : Type}

def Codec.serialize (c : Codec α) (a : α) : List UInt8 := c.encode a

/-- The value in front of the bytes. What is left over is ignored. -/
def Codec.deserialize (c : Codec α) (bytes : List UInt8) : Except Error α :=
  match c.decode bytes with
  | .error e => .error e
  | .ok (a, _) => .ok a

def byte : Codec UInt8 where
  encode := fun b => [b]
  decode := fun bytes =>
    match bytes with
    | [] => .error .unexpectedEof
    | b :: rest => .ok (b, rest)

/-- An array of `n` bytes. -/
def array (n : ℕ) : Codec (List.Vector UInt8 n) where
  encode := fun a => a.toList
  decode := fun bytes =>
    if h : n ≤ bytes.length then
      .ok (⟨bytes.take n, List.length_take_of_le h⟩, bytes.drop n)
    else .error .unexpectedEof

/-- Two values one after the other. -/
def Codec.pair (c : Codec α) (d : Codec β) : Codec (α × β) where
  encode := fun p => c.encode p.1 ++ d.encode p.2
  decode := fun bytes => do
    let first ← c.decode bytes
    let second ← d.decode first.2
    .ok ((first.1, second.1), second.2)

/-- A type that is written as another, and read from it where that is possible. -/
def Codec.refine (c : Codec α) (toWire : β → α) (ofWire : α → Except Error β) : Codec β where
  encode := fun b => c.encode (toWire b)
  decode := fun bytes => do
    let read ← c.decode bytes
    let b ← ofWire read.1
    .ok (b, read.2)

/-- A record, which is written as the tuple of its fields. -/
def Codec.iso (c : Codec α) (toWire : β → α) (ofWire : α → β) : Codec β :=
  c.refine toWire fun a => .ok (ofWire a)

def u32 : Codec UInt32 :=
  (array 4).refine (fun v => leVector 4 v.toNat) fun a =>
    .ok (UInt32.ofNat (leNat a.toList))

def u64 : Codec UInt64 :=
  (array 8).refine (fun v => leVector 8 v.toNat) fun a =>
    .ok (UInt64.ofNat (leNat a.toList))

def bool : Codec Bool :=
  byte.refine (fun v => if v then 1 else 0) fun b =>
    if b = 0 then .ok false else if b = 1 then .ok true else .error (.invalidBoolEncoding b)

def Codec.option (c : Codec α) : Codec (Option α) where
  encode := fun o =>
    match o with
    | none => [0]
    | some a => 1 :: c.encode a
  decode := fun bytes => do
    let tag ← byte.decode bytes
    if tag.1 = 0 then .ok (none, tag.2)
    else if tag.1 = 1 then do
      let read ← c.decode tag.2
      .ok (some read.1, read.2)
    else .error (.invalidTagEncoding tag.1)

/-- The elements of a sequence, so many of them. -/
def decodeMany (c : Codec α) : ℕ → List UInt8 → Except Error (List α × List UInt8)
  | 0, bytes => .ok ([], bytes)
  | n + 1, bytes => do
      let first ← c.decode bytes
      let others ← decodeMany c n first.2
      .ok (first.1 :: others.1, others.2)

/-- A sequence: the number of its elements and the elements. -/
def Codec.seq (c : Codec α) : Codec (List α) where
  encode := fun l => u64.encode (UInt64.ofNat l.length) ++ l.flatMap c.encode
  decode := fun bytes => do
    let len ← u64.decode bytes
    decodeMany c len.1.toNat len.2

/-- `serialize_bytes`: a byte string behind its length. -/
def serializeBytes (bytes : List UInt8) : List UInt8 :=
  u64.encode (UInt64.ofNat bytes.length) ++ bytes

/-- An array that is written behind its length and read without it. -/
def arrayBehindLength (n : ℕ) : Codec (List.Vector UInt8 n) where
  encode := fun a => serializeBytes a.toList
  decode := (array n).decode

section Behind

/-- What a reader reads that is behind the writer by some bytes: the values with a property,
after which it is behind by the bytes that the value says. -/
def ReadsBehind (c : Codec α) (D : List UInt8) (E : α → List UInt8) (P : α → Prop) : Prop :=
  ∀ a rest out, c.decode (D ++ (c.encode a ++ rest)) = .ok (a, out) ↔ P a ∧ out = E a ++ rest

/-- From the start, a value is read back just when it has the property. -/
theorem deserialize_serialize_iff {c : Codec α} {E : α → List UInt8} {P : α → Prop}
    (hc : ReadsBehind c [] E P) (a : α) : c.deserialize (c.serialize a) = .ok a ↔ P a := by
  have hread := hc a []
  rw [List.append_nil, List.nil_append] at hread
  unfold Codec.deserialize Codec.serialize
  constructor
  · intro h
    cases hdecode : c.decode (c.encode a) with
    | error e =>
        rw [hdecode] at h
        exact nomatch h
    | ok read =>
        rw [hdecode] at h
        exact ((hread read.2).mp (hdecode.trans (by rw [← Except.ok.inj h]))).1
  · intro h
    rw [(hread _).mpr ⟨h, rfl⟩]

theorem readsBehind_pair {c : Codec α} {d : Codec β} {D E : List UInt8} {F : β → List UInt8}
    {P : α → Prop} {Q : β → Prop} (hc : ReadsBehind c D (fun _ => E) P)
    (hd : ReadsBehind d E F Q) :
    ReadsBehind (c.pair d) D (fun p => F p.2) fun p => P p.1 ∧ Q p.2 := by
  intro p rest out
  show (c.decode (D ++ (c.encode p.1 ++ d.encode p.2 ++ rest)) >>= fun first =>
    d.decode first.2 >>= fun second => .ok ((first.1, second.1), second.2)) = _ ↔ _
  rw [List.append_assoc]
  constructor
  · intro h
    rcases bind_eq_ok.mp h with ⟨first, hfirst, h⟩
    rcases bind_eq_ok.mp h with ⟨second, hsecond, h⟩
    cases h
    rcases (hc _ _ _).mp hfirst with ⟨hP, hrest⟩
    rw [hrest] at hsecond
    rcases (hd _ _ _).mp hsecond with ⟨hQ, hout⟩
    exact ⟨⟨hP, hQ⟩, hout⟩
  · rintro ⟨⟨hP, hQ⟩, rfl⟩
    exact bind_eq_ok.mpr ⟨_, (hc _ _ _).mpr ⟨hP, rfl⟩,
      bind_eq_ok.mpr ⟨_, (hd _ _ _).mpr ⟨hQ, rfl⟩, rfl⟩⟩

/-- Nothing after a field that is not read back matters. -/
theorem readsBehind_pair_false {c : Codec α} {D : List UInt8} {E : α → List UInt8}
    (hc : ReadsBehind c D E fun _ => False) (d : Codec β) (F : α × β → List UInt8) :
    ReadsBehind (c.pair d) D F fun _ => False := by
  intro p rest out
  refine ⟨fun h => ?_, fun h => h.1.elim⟩
  rcases bind_eq_ok.mp h with ⟨first, hfirst, h⟩
  rcases bind_eq_ok.mp h with ⟨second, -, h⟩
  cases h
  have hread := hc first.1 (d.encode second.1 ++ rest) first.2
  rw [← List.append_assoc (c.encode _)] at hread
  exact (hread.mp hfirst).1.elim

theorem readsBehind_refine {c : Codec α} {toWire : β → α} {ofWire : α → Except Error β}
    (hof : ∀ a b, ofWire a = .ok b ↔ toWire b = a) {D : List UInt8} {E : α → List UInt8}
    {P : α → Prop} (hc : ReadsBehind c D E P) :
    ReadsBehind (c.refine toWire ofWire) D (fun b => E (toWire b)) fun b => P (toWire b) := by
  intro b rest out
  show (c.decode (D ++ (c.encode (toWire b) ++ rest)) >>= fun read =>
    ofWire read.1 >>= fun b => .ok (b, read.2)) = _ ↔ _
  rw [← hc]
  constructor
  · intro h
    rcases bind_eq_ok.mp h with ⟨read, hread, h⟩
    rcases bind_eq_ok.mp h with ⟨b', hb', h⟩
    cases h
    rw [hread, (hof _ _).mp hb']
  · intro h
    exact bind_eq_ok.mpr ⟨_, h, bind_eq_ok.mpr ⟨b, (hof _ _).mpr rfl, rfl⟩⟩

theorem readsBehind_iso {c : Codec α} {toWire : β → α} {ofWire : α → β}
    (hread : ∀ b, ofWire (toWire b) = b) (hwritten : ∀ a, toWire (ofWire a) = a) {D : List UInt8}
    {E : α → List UInt8} {P : α → Prop} (hc : ReadsBehind c D E P) :
    ReadsBehind (c.iso toWire ofWire) D (fun b => E (toWire b)) fun b => P (toWire b) := by
  refine readsBehind_refine (fun a b => ?_) hc
  rw [Except.ok.injEq]
  exact ⟨fun h => h ▸ hwritten a, fun h => h ▸ hread b⟩

/-- A representation from which a value is read back, whatever else is read. -/
theorem readsBehind_refine_of_read {c : Codec α} {toWire : β → α} {ofWire : α → Except Error β}
    (hof : ∀ b, ofWire (toWire b) = .ok b)
    (hc : ReadsBehind c [] (fun _ => []) fun _ => True) :
    ReadsBehind (c.refine toWire ofWire) [] (fun _ => []) fun _ => True := by
  intro b rest out
  have hread : c.decode ([] ++ (c.encode (toWire b) ++ rest)) = .ok (toWire b, rest) :=
    (hc (toWire b) rest rest).mpr ⟨trivial, rfl⟩
  show (c.decode ([] ++ (c.encode (toWire b) ++ rest)) >>= fun read =>
    ofWire read.1 >>= fun b => .ok (b, read.2)) = _ ↔ _
  rw [hread]
  show (ofWire (toWire b) >>= fun b => Except.ok (b, rest)) = _ ↔ _
  rw [hof]
  show Except.ok (b, rest) = _ ↔ _
  rw [Except.ok.injEq, Prod.mk.injEq]
  exact ⟨fun h => ⟨trivial, h.2.symm⟩, fun h => ⟨rfl, h.2.symm⟩⟩

/-- A property that never holds: the reader never returns the value. -/
theorem readsBehind_false {c : Codec α} {D : List UInt8}
    (h : ∀ a rest out, c.decode (D ++ (c.encode a ++ rest)) ≠ .ok (a, out))
    (E : α → List UInt8) : ReadsBehind c D E fun _ => False := fun a rest out =>
  ⟨fun hread => absurd hread (h a rest out), fun hfalse => hfalse.1.elim⟩

theorem ReadsBehind.congr {c : Codec α} {D : List UInt8} {E : α → List UInt8} {P Q : α → Prop}
    (hc : ReadsBehind c D E P) (h : ∀ a, P a ↔ Q a) : ReadsBehind c D E Q := fun a rest out =>
  (hc a rest out).trans (and_congr_left' (h a))

/-- Where no value is read back, it does not matter what the reader is behind by then. -/
theorem ReadsBehind.of_false {c : Codec α} {D : List UInt8} {E : α → List UInt8} {P : α → Prop}
    (hc : ReadsBehind c D E P) (h : ∀ a, ¬P a) (F : α → List UInt8) :
    ReadsBehind c D F fun _ => False :=
  readsBehind_false (fun a rest out hread => h a ((hc a rest out).mp hread).1) F

/-- An array is read as the first bytes. -/
theorem array_decode_eq {n : ℕ} {bytes out : List UInt8} {a : List.Vector UInt8 n} :
    (array n).decode bytes = .ok (a, out) ↔ bytes = a.toList ++ out := by
  unfold array
  simp only
  by_cases hlen : n ≤ bytes.length
  · rw [dif_pos hlen]
    constructor
    · intro h
      cases h
      exact (List.take_append_drop n bytes).symm
    · rintro rfl
      have htake : a.toList.length = n := a.toList_length
      exact congrArg Except.ok (Prod.ext
        (List.Vector.toList_injective (List.take_left' htake)) (List.drop_left' htake))
  · rw [dif_neg hlen]
    refine ⟨fun h => (nomatch h), fun h => absurd ?_ hlen⟩
    rw [h, List.length_append, a.toList_length]
    exact Nat.le_add_right _ _

theorem readsBehind_array (n : ℕ) : ReadsBehind (array n) [] (fun _ => []) fun _ => True := by
  intro a rest out
  rw [array_decode_eq]
  show a.toList ++ rest = _ ↔ _
  rw [List.append_cancel_left_eq]
  exact ⟨fun h => ⟨trivial, h.symm⟩, fun h => h.2.symm⟩

theorem ofNat_leNat_u64 (a : List.Vector UInt8 8) (v : UInt64) :
    (Except.ok (UInt64.ofNat (leNat a.toList)) : Except Error UInt64) = .ok v ↔
      leVector 8 v.toNat = a := by
  have hfits : leNat a.toList < 2 ^ 64 := leNat_toList_lt a
  rw [Except.ok.injEq]
  constructor
  · rintro rfl
    rw [UInt64.toNat_ofNat', Nat.mod_eq_of_lt hfits, leVector_leNat]
  · rintro rfl
    rw [leNat_leVector (show v.toNat < 256 ^ 8 from v.toNat_lt), UInt64.ofNat_toNat]

theorem ofNat_leNat_u32 (a : List.Vector UInt8 4) (v : UInt32) :
    (Except.ok (UInt32.ofNat (leNat a.toList)) : Except Error UInt32) = .ok v ↔
      leVector 4 v.toNat = a := by
  have hfits : leNat a.toList < 2 ^ 32 := leNat_toList_lt a
  rw [Except.ok.injEq]
  constructor
  · rintro rfl
    rw [UInt32.toNat_ofNat', Nat.mod_eq_of_lt hfits, leVector_leNat]
  · rintro rfl
    rw [leNat_leVector (show v.toNat < 256 ^ 4 from v.toNat_lt), UInt32.ofNat_toNat]

theorem readsBehind_u64 : ReadsBehind u64 [] (fun _ => []) fun _ => True :=
  readsBehind_refine ofNat_leNat_u64 (readsBehind_array 8)

theorem readsBehind_u32 : ReadsBehind u32 [] (fun _ => []) fun _ => True :=
  readsBehind_refine ofNat_leNat_u32 (readsBehind_array 4)

theorem readsBehind_option {c : Codec α} {E : α → List UInt8} {P : α → Prop}
    (hc : ReadsBehind c [] E P) :
    ReadsBehind c.option [] (fun o => (o.map E).getD []) fun o => ∀ a ∈ o, P a := by
  intro o rest out
  cases o with
  | none =>
      show Except.ok (none, rest) = _ ↔ _
      rw [Except.ok.injEq, Prod.mk.injEq]
      exact ⟨fun h => ⟨fun a ha => (nomatch ha), h.2.symm⟩, fun h => ⟨rfl, h.2.symm⟩⟩
  | some a =>
      show (c.decode (c.encode a ++ rest) >>= fun read => .ok (some read.1, read.2)) = _ ↔ _
      have hread := hc a rest out
      rw [List.nil_append] at hread
      constructor
      · intro h
        rcases bind_eq_ok.mp h with ⟨read, hdecode, h⟩
        cases h
        rcases hread.mp hdecode with ⟨hP, hout⟩
        exact ⟨fun a' ha' => Option.some.inj ha' ▸ hP, hout⟩
      · rintro ⟨hP, hout⟩
        exact bind_eq_ok.mpr ⟨(a, out), hread.mpr ⟨hP a rfl, hout⟩, rfl⟩

theorem decodeMany_length {c : Codec α} {n : ℕ} {bytes out : List UInt8} {l : List α}
    (h : decodeMany c n bytes = .ok (l, out)) : l.length = n := by
  induction n generalizing bytes l with
  | zero =>
      cases h
      rfl
  | succ n ih =>
      rcases bind_eq_ok.mp h with ⟨first, -, h⟩
      rcases bind_eq_ok.mp h with ⟨others, hothers, h⟩
      cases h
      rw [List.length_cons, ih hothers]

theorem decodeMany_iff {c : Codec α} {D : List UInt8} {P : α → Prop}
    (hc : ReadsBehind c D (fun _ => D) P) (l : List α) (rest out : List UInt8) :
    decodeMany c l.length (D ++ (l.flatMap c.encode ++ rest)) = .ok (l, out) ↔
      (∀ a ∈ l, P a) ∧ out = D ++ rest := by
  induction l with
  | nil =>
      show Except.ok ([], D ++ rest) = _ ↔ _
      rw [Except.ok.injEq, Prod.mk.injEq]
      exact ⟨fun h => ⟨fun a ha => absurd ha List.not_mem_nil, h.2.symm⟩,
        fun h => ⟨rfl, h.2.symm⟩⟩
  | cons a l ih =>
      rw [List.flatMap_cons, List.append_assoc, List.forall_mem_cons]
      constructor
      · intro h
        rcases bind_eq_ok.mp h with ⟨first, hfirst, h⟩
        rcases bind_eq_ok.mp h with ⟨others, hothers, h⟩
        cases h
        rcases (hc _ _ _).mp hfirst with ⟨hP, hrest⟩
        rw [hrest] at hothers
        rcases ih.mp hothers with ⟨hall, hout⟩
        exact ⟨⟨hP, hall⟩, hout⟩
      · rintro ⟨⟨hP, hall⟩, hout⟩
        exact bind_eq_ok.mpr ⟨_, (hc _ _ _).mpr ⟨hP, rfl⟩,
          bind_eq_ok.mpr ⟨_, ih.mpr ⟨hall, hout⟩, rfl⟩⟩

/-- The number in front of a sequence is read back, and then its elements are. -/
theorem seq_decode_iff {c : Codec α} {D : List UInt8} {L : UInt64 → Prop}
    (hlen : ReadsBehind u64 D (fun _ => D) L) (l : List α) (rest out : List UInt8) :
    c.seq.decode (D ++ (c.seq.encode l ++ rest)) = .ok (l, out) ↔
      (l.length < 2 ^ 64 ∧ L (UInt64.ofNat l.length)) ∧
        decodeMany c l.length (D ++ (l.flatMap c.encode ++ rest)) = .ok (l, out) := by
  show (u64.decode (D ++ (u64.encode (UInt64.ofNat l.length) ++ l.flatMap c.encode ++ rest)) >>=
    fun len => decodeMany c len.1.toNat len.2) = _ ↔ _
  rw [List.append_assoc]
  constructor
  · intro h
    rcases bind_eq_ok.mp h with ⟨len, hread, hmany⟩
    -- as many elements were read as the number says, which is the number that was written
    have hcount := decodeMany_length hmany
    have hlt : l.length < 2 ^ 64 := hcount ▸ len.1.toNat_lt
    have hlen' : len = (UInt64.ofNat l.length, len.2) := by rw [hcount, UInt64.ofNat_toNat]
    rw [hlen'] at hread
    rcases (hlen _ _ _).mp hread with ⟨hL, hrest⟩
    rw [hrest, ← hcount] at hmany
    exact ⟨⟨hlt, hL⟩, hmany⟩
  · rintro ⟨⟨hlt, hL⟩, hmany⟩
    refine bind_eq_ok.mpr ⟨_, (hlen _ _ _).mpr ⟨hL, rfl⟩, ?_⟩
    show decodeMany c (UInt64.ofNat l.length).toNat _ = _
    rw [UInt64.toNat_ofNat', Nat.mod_eq_of_lt hlt]
    exact hmany

/-- A sequence whose reader stays behind by the same bytes. -/
theorem readsBehind_seq {c : Codec α} {D : List UInt8} {L : UInt64 → Prop} {P : α → Prop}
    (hlen : ReadsBehind u64 D (fun _ => D) L) (hc : ReadsBehind c D (fun _ => D) P) :
    ReadsBehind c.seq D (fun _ => D) fun l =>
      (l.length < 2 ^ 64 ∧ L (UInt64.ofNat l.length)) ∧ ∀ a ∈ l, P a := by
  intro l rest out
  rw [seq_decode_iff hlen, decodeMany_iff hc]
  exact and_assoc.symm

/-- A sequence from the start whose elements are never read back is read back when empty. -/
theorem readsBehind_seq_false {c : Codec α} (hc : ReadsBehind c [] (fun _ => []) fun _ => False) :
    ReadsBehind c.seq [] (fun _ => []) fun l => l = [] := by
  refine (readsBehind_seq readsBehind_u64 hc).congr fun l => ?_
  rw [← List.eq_nil_iff_forall_not_mem]
  refine ⟨fun h => h.2, fun h => ⟨⟨?_, trivial⟩, h⟩⟩
  rw [h, List.length_nil]
  exact Nat.two_pow_pos 64

theorem flatMap_byte (l : List UInt8) : l.flatMap byte.encode = l := List.flatMap_singleton' l

theorem decodeMany_byte_iff {n : ℕ} {bytes l out : List UInt8} :
    decodeMany byte n bytes = .ok (l, out) ↔ bytes = l ++ out ∧ l.length = n := by
  induction n generalizing bytes l with
  | zero =>
      show Except.ok ([], bytes) = _ ↔ _
      rw [Except.ok.injEq, Prod.mk.injEq, List.length_eq_zero_iff]
      constructor
      · rintro ⟨rfl, rfl⟩
        exact ⟨rfl, rfl⟩
      · rintro ⟨rfl, rfl⟩
        exact ⟨rfl, rfl⟩
  | succ n ih =>
      constructor
      · intro h
        rcases bind_eq_ok.mp h with ⟨first, hfirst, h⟩
        rcases bind_eq_ok.mp h with ⟨others, hothers, h⟩
        cases h
        cases bytes with
        | nil => exact nomatch hfirst
        | cons b rest =>
            cases hfirst
            rcases ih.mp hothers with ⟨hrest, hlen⟩
            exact ⟨congrArg (b :: ·) hrest, congrArg (· + 1) hlen⟩
      · rintro ⟨rfl, hlen⟩
        cases l with
        | nil => exact absurd hlen (Nat.zero_ne_add_one n)
        | cons b l =>
            exact bind_eq_ok.mpr ⟨(b, l ++ out), rfl,
              bind_eq_ok.mpr ⟨(l, out), ih.mpr ⟨rfl, Nat.succ_inj.mp hlen⟩, rfl⟩⟩

end Behind

section Repeated

/-- A word repeated. -/
def power (w : List UInt8) (k : ℕ) : List UInt8 := (List.replicate k w).flatten

theorem power_zero (w : List UInt8) : power w 0 = [] := rfl

theorem power_succ (w : List UInt8) (k : ℕ) : power w (k + 1) = w ++ power w k := by
  rw [power, List.replicate_succ, List.flatten_cons]
  rfl

theorem power_one (w : List UInt8) : power w 1 = w := by
  rw [power_succ, power_zero, List.append_nil]

theorem power_add (w : List UInt8) (i k : ℕ) : power w (i + k) = power w i ++ power w k := by
  rw [power, List.replicate_add, List.flatten_append]
  rfl

theorem power_length (w : List UInt8) (k : ℕ) : (power w k).length = k * w.length := by
  induction k with
  | zero => rw [power_zero, List.length_nil, Nat.zero_mul]
  | succ k ih => rw [power_succ, List.length_append, ih, Nat.succ_mul, Nat.add_comm]

theorem power_comm (w : List UInt8) (i k : ℕ) (rest : List UInt8) :
    power w i ++ (power w k ++ rest) = power w k ++ (power w i ++ rest) := by
  rw [← List.append_assoc, ← power_add, Nat.add_comm, power_add, List.append_assoc]

/-- A string that is read from behind a repeated word, of a length that the word divides, and
is read back, repeats the word: its first part is the word, and every other part was read from
the part that is as far back as the word is long. -/
theorem eq_power_of_overlap {w a rest out : List UInt8} {k m : ℕ} (hk : 0 < k)
    (hlen : a.length = m * w.length) (h : power w k ++ (a ++ rest) = a ++ out) :
    a = power w m := by
  have hparts : ∀ j ≤ m, a.take (j * w.length) = power w j := by
    intro j
    induction j using Nat.strongRecOn with
    | ind j ih =>
        intro hj
        have hfits : j * w.length ≤ a.length := by
          rw [hlen]
          exact Nat.mul_le_mul_right _ hj
        have hread : a.take (j * w.length) = (power w k ++ (a ++ rest)).take (j * w.length) := by
          rw [h, List.take_append_of_le_length hfits]
        rw [hread]
        by_cases hjk : j ≤ k
        · -- the part lies in the words in front
          rcases Nat.exists_eq_add_of_le hjk with ⟨i, rfl⟩
          rw [power_add, List.append_assoc, List.take_left' (power_length w j)]
        · -- it reaches beyond them, into a shorter part of the same string
          rcases Nat.exists_eq_add_of_le (Nat.le_of_not_le hjk) with ⟨i, rfl⟩
          have hi : i * w.length ≤ a.length := by
            rw [hlen]
            exact Nat.mul_le_mul_right _ (by omega)
          rw [Nat.add_mul, ← power_length w k, List.take_length_add_append,
            List.take_append_of_le_length hi, ih i (by omega) (by omega), power_add]
  have hall := hparts m (Nat.le_refl m)
  rwa [← hlen, List.take_length] at hall

variable {α : Type} {w : List UInt8} {k m n : ℕ}

/-- What is read from behind a repeated word is read back just when it repeats the word. -/
theorem overlap_iff (hk : 0 < k) {a : List UInt8} (hlen : a.length = m * w.length)
    (rest out : List UInt8) :
    power w k ++ (a ++ rest) = a ++ out ↔ a = power w m ∧ out = power w k ++ rest := by
  constructor
  · intro h
    have ha := eq_power_of_overlap hk hlen h
    rw [ha, power_comm, List.append_cancel_left_eq] at h
    exact ⟨ha, h.symm⟩
  · rintro ⟨rfl, rfl⟩
    exact power_comm w k m rest

theorem readsBehind_array_power (hk : 0 < k) (hn : n = m * w.length) :
    ReadsBehind (array n) (power w k) (fun _ => power w k) fun a => a.toList = power w m := by
  intro a rest out
  rw [array_decode_eq]
  exact overlap_iff hk (a.toList_length.trans hn) rest out

theorem readsBehind_u64_power (hk : 0 < k) (hn : n < 2 ^ 64) :
    ReadsBehind u64 (power (leBytes 8 n) k) (fun _ => power (leBytes 8 n) k) fun v =>
      v.toNat = n := by
  refine (readsBehind_refine ofNat_leNat_u64
    (readsBehind_array_power hk (m := 1) (by rw [leBytes_length]))).congr fun v => ?_
  rw [power_one]
  exact ⟨leBytes_injOn v.toNat_lt hn, congrArg (leBytes 8)⟩

/-- A truth value is not read from behind a word that starts with another byte. -/
theorem readsBehind_bool_power {b : UInt8} (hk : 0 < k) (hzero : b ≠ 0) (hone : b ≠ 1)
    (E : Bool → List UInt8) : ReadsBehind bool (power (b :: w) k) E fun _ => False := by
  refine readsBehind_false (fun v rest out h => ?_) E
  cases k with
  | zero => exact absurd hk (Nat.lt_irrefl 0)
  | succ k =>
      rw [power_succ, List.cons_append, List.cons_append] at h
      rcases bind_eq_ok.mp h with ⟨read, hread, h⟩
      cases hread
      rcases bind_eq_ok.mp h with ⟨v', hv', -⟩
      simp only [if_neg hzero, if_neg hone] at hv'
      exact nomatch hv'

/-- A sequence of bytes, from behind the length that it then has. -/
theorem readsBehind_bytes_power (hk : 0 < k) (hn : n = m * 8) (hlt : n < 2 ^ 64) :
    ReadsBehind byte.seq (power (leBytes 8 n) k) (fun _ => power (leBytes 8 n) k) fun l =>
      l = power (leBytes 8 n) m := by
  have hword : (leBytes 8 n).length = 8 := leBytes_length 8 n
  intro l rest out
  rw [seq_decode_iff (readsBehind_u64_power hk hlt), decodeMany_byte_iff, flatMap_byte]
  constructor
  · rintro ⟨⟨hfits, hlen⟩, hread, -⟩
    rw [UInt64.toNat_ofNat', Nat.mod_eq_of_lt hfits] at hlen
    exact (overlap_iff hk (by rw [hlen, hword, hn]) rest out).mp hread
  · rintro ⟨rfl, rfl⟩
    have hlen : (power (leBytes 8 n) m).length = n := by rw [power_length, hword, hn]
    rw [hlen, UInt64.toNat_ofNat', Nat.mod_eq_of_lt hlt]
    exact ⟨⟨hlt, rfl⟩, power_comm _ k m rest, rfl⟩

/-- The length that is written and not read is one more word to be behind by. -/
theorem readsBehind_arrayBehindLength (k : ℕ) (hn : n = m * 8) (hlt : n < 2 ^ 64) :
    ReadsBehind (arrayBehindLength n) (power (leBytes 8 n) k)
      (fun _ => power (leBytes 8 n) (k + 1)) fun a => a.toList = power (leBytes 8 n) m := by
  intro a rest out
  have hlen : serializeBytes a.toList = leBytes 8 n ++ a.toList := by
    show leBytes 8 (UInt64.ofNat a.toList.length).toNat ++ a.toList = _
    rw [a.toList_length, UInt64.toNat_ofNat', Nat.mod_eq_of_lt hlt]
  have hbehind : power (leBytes 8 n) k ++ (serializeBytes a.toList ++ rest) =
      power (leBytes 8 n) (k + 1) ++ (a.toList ++ rest) := by
    rw [hlen, power_add, power_one, List.append_assoc, List.append_assoc]
  show (array n).decode (power (leBytes 8 n) k ++ (serializeBytes a.toList ++ rest)) = _ ↔ _
  rw [hbehind]
  exact readsBehind_array_power (Nat.succ_pos k) (by rw [leBytes_length, hn]) a rest out

end Repeated

end Bincode
