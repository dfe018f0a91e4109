import Ebut.Core.AtomicFilter

/-!
# No False Negatives

An item whose insertion has returned is found by every query that starts afterwards, whatever
other calls do in between.

The filter is written by `fetch_or` only, so a bit that is set stays set: `Grows` is what every
step of every call does to the array. An insertion at turn `i` has set the first `i` of its
bits, and since nobody clears them they are still set, however many steps of other calls came
between. Once it has returned all of them are set, and a query that then starts finds each of
its loads to be of a set bit. Its progress is therefore the number of its own steps.

A call that runs alone does what the filter of the sequential server does in one step.

## Main definitions

* `HashesSet`: The bits of the first hashes of an item are set.
* `Grows`: Only bits are set.
* `FilterEffect`: What a step can do.
* `Marked`: Every insertion has set the bits of the turns behind it.
* `progressAt`: How far a query has come that has seen set bits only.
* `SharedFilter.toBloomFilter`: The filter of the sequential server.

## Theorems

* `step_effect`: Every step has one of the effects.
* `grows_run`, `marked_run`: What whole runs keep.
* `query_run`: A query for set bits goes on by its own steps.
* `no_false_negatives`: An inserted item is found.
* `insert_alone`, `contains_alone`: Calls that run alone are those of the sequential filter.
-/

namespace Ebut

open ByteBits Transition

namespace SharedFilter

variable (hasher : List UInt8 → ℕ → UInt64)

/-- The bits of the first `n` hashes of an item are set. -/
def HashesSet (filter : SharedFilter) (item : List UInt8) (n : ℕ) : Prop :=
  ∀ i < n, bitAt filter.bits (filter.hash hasher item i) = true

/-- What every step does to the array. -/
structure Grows (before after : SharedFilter) : Prop where
  length : after.bits.length = before.bits.length
  numHashes : after.numHashes = before.numHashes
  bits : ∀ k, bitAt before.bits k = true → bitAt after.bits k = true

/-- What an action can do. -/
inductive FilterEffect (filter : SharedFilter) : FilterAction → SharedFilter → Prop
  /-- The action names no call that could take a step, or one that cannot start. -/
  | nothing (action : FilterAction) : FilterEffect filter action filter
  | starts {id : ℕ} {call : FilterCall} (hfree : filter.threads id = none) :
      FilterEffect filter (.start id call) (filter.setProgress id call (.turn 0))
  | sets {id : ℕ} {item : List UInt8} {i : ℕ}
      (hthread : filter.threads id = some ⟨.insert item, .turn i⟩) (hi : i < filter.numHashes) :
      FilterEffect filter (.advance id)
        ({ filter with bits := orBit filter.bits (filter.hash hasher item i) }.setProgress id
          (.insert item) (.turn (i + 1)))
  | inserted {id : ℕ} {item : List UInt8} {i : ℕ}
      (hthread : filter.threads id = some ⟨.insert item, .turn i⟩) (hi : filter.numHashes ≤ i) :
      FilterEffect filter (.advance id) (filter.setProgress id (.insert item) .inserted)
  | reads {id : ℕ} {item : List UInt8} {i : ℕ} (progress : FilterProgress)
      (hthread : filter.threads id = some ⟨.contains item, .turn i⟩) :
      FilterEffect filter (.advance id) (filter.setProgress id (.contains item) progress)

variable {hasher}

theorem containsTurn_eq (filter : SharedFilter) (id : ℕ) (item : List UInt8) (i : ℕ) :
    filter.containsTurn hasher id item i = filter.setProgress id (.contains item)
      (if i < filter.numHashes then
        if bitAt filter.bits (filter.hash hasher item i) then .turn (i + 1) else .answered false
      else .answered true) := by
  have hbit : ∀ k, (filter.bits.getD (k / 8) 0 &&& 1 <<< UInt8.ofNat (k % 8) == 0) =
      !bitAt filter.bits k := fun k => mask_eq_zero _ (Nat.mod_lt _ (by omega))
  unfold containsTurn
  simp only [hbit]
  by_cases hi : i < filter.numHashes
  · rw [if_pos hi, if_pos hi]
    cases bitAt filter.bits (filter.hash hasher item i) <;> rfl
  · rw [if_neg hi, if_neg hi]

variable (hasher) in
theorem step_effect (filter : SharedFilter) (action : FilterAction) :
    FilterEffect hasher filter action (filter.step hasher action) := by
  cases action with
  | start id call =>
      rw [step]
      rcases hthread : filter.threads id with _ | thread
      · exact .starts hthread
      · exact .nothing _
  | advance id =>
      rw [step]
      rcases hthread : filter.threads id with _ | ⟨call | call, i | _ | _⟩
      · exact .nothing _
      · simp only [insertTurn]
        by_cases hi : i < filter.numHashes
        · rw [if_pos hi]
          exact .sets hthread hi
        · rw [if_neg hi]
          exact .inserted hthread (Nat.le_of_not_lt hi)
      · exact .nothing _
      · exact .nothing _
      · simp only [containsTurn_eq]
        exact .reads _ hthread
      · exact .nothing _
      · exact .nothing _

section Invariants

theorem Grows.refl (filter : SharedFilter) : Grows filter filter := ⟨rfl, rfl, fun _ h => h⟩

theorem grows_setProgress (filter : SharedFilter) (id : ℕ) (call : FilterCall)
    (progress : FilterProgress) : Grows filter (filter.setProgress id call progress) :=
  ⟨rfl, rfl, fun _ h => h⟩

theorem Grows.trans {f g h : SharedFilter} (hfg : Grows f g) (hgh : Grows g h) : Grows f h :=
  ⟨hgh.length.trans hfg.length, hgh.numHashes.trans hfg.numHashes,
    fun k hk => hgh.bits k (hfg.bits k hk)⟩

theorem Grows.bytes {before after : SharedFilter} (h : Grows before after)
    (hbytes : before.bits ≠ []) : after.bits ≠ [] := by
  rw [← List.length_pos_iff] at hbytes ⊢
  rwa [h.length]

/-- A position does not depend on the bits. -/
theorem Grows.hash {before after : SharedFilter} (h : Grows before after) (item : List UInt8)
    (i : ℕ) : after.hash hasher item i = before.hash hasher item i := by
  unfold SharedFilter.hash
  rw [h.length]

theorem Grows.hashesSet {before after : SharedFilter} (h : Grows before after)
    {item : List UInt8} {n : ℕ} (hset : HashesSet hasher before item n) :
    HashesSet hasher after item n := by
  intro i hi
  rw [h.hash]
  exact h.bits _ (hset i hi)

/-- No step clears a bit. -/
theorem FilterEffect.grows {filter next : SharedFilter} {action : FilterAction}
    (h : FilterEffect hasher filter action next) (hbytes : filter.bits ≠ []) :
    Grows filter next := by
  cases h with
  | nothing => exact Grows.refl filter
  | starts _ => exact grows_setProgress filter _ _ _
  | sets _ _ =>
      refine ⟨orBit_length _ _, rfl, fun k hk => ?_⟩
      rw [setProgress_bits, bitAt_orBit (hash_lt hasher hbytes _ _), hk, Bool.or_true]
  | inserted _ _ => exact grows_setProgress filter _ _ _
  | reads _ _ => exact grows_setProgress filter _ _ _

variable (hasher) in
/-- The bits of the turns behind it, of an insertion that has come some way. -/
structure Marked (filter : SharedFilter) : Prop where
  turn : ∀ id item i, filter.threads id = some ⟨.insert item, .turn i⟩ →
    HashesSet hasher filter item i
  inserted : ∀ id item, filter.threads id = some ⟨.insert item, .inserted⟩ →
    HashesSet hasher filter item filter.numHashes

/-- A step that sets bits and moves one call on keeps the invariant, if it does so for this
call. -/
theorem Marked.setProgress {filter next : SharedFilter} (h : Marked hasher filter)
    (hgrows : Grows filter next) {id : ℕ} {call : FilterCall} {progress : FilterProgress}
    (hthreads : next.threads = Function.update filter.threads id (some ⟨call, progress⟩))
    (hturn : ∀ item i, call = .insert item → progress = .turn i → HashesSet hasher next item i)
    (hinserted : ∀ item, call = .insert item → progress = .inserted →
      HashesSet hasher next item filter.numHashes) : Marked hasher next where
  turn := by
    intro other item i hother
    rw [hthreads] at hother
    by_cases hid : other = id
    · rw [hid, Function.update_self, Option.some.injEq, FilterThread.mk.injEq] at hother
      exact hturn item i hother.1 hother.2
    · rw [Function.update_of_ne hid] at hother
      exact hgrows.hashesSet (h.turn other item i hother)
  inserted := by
    intro other item hother
    rw [hthreads] at hother
    rw [hgrows.numHashes]
    by_cases hid : other = id
    · rw [hid, Function.update_self, Option.some.injEq, FilterThread.mk.injEq] at hother
      exact hinserted item hother.1 hother.2
    · rw [Function.update_of_ne hid] at hother
      exact hgrows.hashesSet (h.inserted other item hother)

theorem FilterEffect.marked {filter next : SharedFilter} {action : FilterAction}
    (h : FilterEffect hasher filter action next) (hbytes : filter.bits ≠ [])
    (hmarked : Marked hasher filter) : Marked hasher next := by
  have hgrows := h.grows hbytes
  cases h with
  | nothing => exact hmarked
  | starts _ =>
      refine hmarked.setProgress hgrows rfl (fun item i _ hturn => ?_)
        fun item _ hdone => (nomatch hdone)
      -- no turn is behind a call that starts
      rw [FilterProgress.turn.injEq] at hturn
      rw [← hturn]
      exact fun j hj => absurd hj (Nat.not_lt_zero j)
  | @sets id item i hthread hi =>
      refine hmarked.setProgress hgrows rfl (fun item' i' hcall hturn => ?_)
        fun item _ hdone => (nomatch hdone)
      rw [FilterCall.insert.injEq] at hcall
      rw [FilterProgress.turn.injEq] at hturn
      rw [← hcall, ← hturn]
      intro j hj
      -- this turn has set the bit of its hash, and the turns before it those of theirs
      by_cases hji : j = i
      · rw [hji, hgrows.hash, setProgress_bits, bitAt_orBit (hash_lt hasher hbytes _ _),
          decide_eq_true rfl, Bool.true_or]
      · exact hgrows.hashesSet (hmarked.turn id item i hthread) j (by omega)
  | @inserted id item i hthread hi =>
      refine hmarked.setProgress hgrows rfl (fun item _ _ hturn => (nomatch hturn))
        fun item' hcall _ => ?_
      rw [FilterCall.insert.injEq] at hcall
      rw [← hcall]
      -- no turn is left when an insertion returns
      exact fun j hj => hmarked.turn id item i hthread j (hj.trans_le hi)
  | reads _ _ =>
      exact hmarked.setProgress hgrows rfl (fun item _ hcall => (nomatch hcall))
        fun item hcall => (nomatch hcall)

variable (hasher) in
theorem marked_start (bits : List UInt8) (numHashes : ℕ) :
    Marked hasher (SharedFilter.start bits numHashes) :=
  ⟨fun _ _ _ h => (nomatch h), fun _ _ h => (nomatch h)⟩

variable (hasher) in
theorem grows_run {filter : SharedFilter} (hbytes : filter.bits ≠ [])
    (actions : List FilterAction) : Grows filter (run (step hasher) filter actions) := by
  refine run_of_invariant (fun state action hgrows => ?_) actions (Grows.refl filter)
  exact hgrows.trans ((step_effect hasher state action).grows (hgrows.bytes hbytes))

theorem marked_run {filter : SharedFilter} (hbytes : filter.bits ≠ [])
    (hmarked : Marked hasher filter) (actions : List FilterAction) :
    Marked hasher (run (step hasher) filter actions) := by
  -- a position is taken modulo the number of bits, so that the array is kept non-empty too
  have hboth : (run (step hasher) filter actions).bits ≠ [] ∧
      Marked hasher (run (step hasher) filter actions) :=
    run_of_invariant (I := fun state => state.bits ≠ [] ∧ Marked hasher state)
      (fun state action hinv =>
        ⟨((step_effect hasher state action).grows hinv.1).bytes hinv.1,
          (step_effect hasher state action).marked hinv.1 hinv.2⟩) actions ⟨hbytes, hmarked⟩
  exact hboth.2

end Invariants

section Query

/-- How far a query has come that has made `k` steps and found every bit set. -/
def progressAt (numHashes k : ℕ) : FilterProgress :=
  if k ≤ numHashes then .turn k else .answered true

/-- The steps of other calls leave a call where it is. -/
theorem step_of_ne {filter : SharedFilter} {id : ℕ} {thread : FilterThread}
    (hthread : filter.threads id = some thread) {action : FilterAction}
    (hother : action ≠ .advance id) : (filter.step hasher action).threads id = some thread := by
  have heffect := step_effect hasher filter action
  generalize filter.step hasher action = next at heffect ⊢
  have hne : ∀ other, action = .advance other → id ≠ other :=
    fun other haction hid => hother (hid ▸ haction)
  cases heffect with
  | nothing => exact hthread
  | @starts other _ hfree =>
      have hid : id ≠ other := by
        rintro rfl
        rw [hthread] at hfree
        exact nomatch hfree
      rw [setProgress_of_ne _ hid, hthread]
  | sets _ _ => exact (setProgress_of_ne _ (hne _ rfl) _ _).trans hthread
  | inserted _ _ => exact (setProgress_of_ne _ (hne _ rfl) _ _).trans hthread
  | reads _ _ => exact (setProgress_of_ne _ (hne _ rfl) _ _).trans hthread

theorem query_step {filter : SharedFilter} {id k : ℕ} {item : List UInt8}
    (hset : HashesSet hasher filter item filter.numHashes)
    (hthread : filter.threads id = some ⟨.contains item, progressAt filter.numHashes k⟩) :
    (filter.step hasher (.advance id)).threads id =
      some ⟨.contains item, progressAt filter.numHashes (k + 1)⟩ := by
  unfold progressAt at hthread ⊢
  by_cases hk : k ≤ filter.numHashes
  · rw [if_pos hk] at hthread
    simp only [step, hthread, containsTurn_eq, setProgress_self]
    by_cases hlt : k < filter.numHashes
    · rw [if_pos hlt, if_pos (hset k hlt), if_pos (show k + 1 ≤ filter.numHashes from hlt)]
    · rw [if_neg hlt, if_neg (show ¬k + 1 ≤ filter.numHashes from hlt)]
  · -- it has answered
    rw [if_neg hk] at hthread
    simp only [step, hthread]
    rw [if_neg (by omega)]

/-- A query for an item whose bits are set goes on by its own steps, and by those alone. -/
theorem query_run {filter : SharedFilter} {id k : ℕ} {item : List UInt8}
    (hbytes : filter.bits ≠ []) (hset : HashesSet hasher filter item filter.numHashes)
    (hthread : filter.threads id = some ⟨.contains item, progressAt filter.numHashes k⟩)
    (actions : List FilterAction) :
    (run (step hasher) filter actions).threads id =
      some ⟨.contains item, progressAt filter.numHashes (k + actions.count (.advance id))⟩ := by
  induction actions generalizing filter k with
  | nil => exact hthread
  | cons action actions ih =>
      have hgrows := (step_effect hasher filter action).grows hbytes
      have hset' := hgrows.hashesSet hset
      rw [← hgrows.numHashes] at hset' hthread ⊢
      rw [run]
      -- the other calls move neither the query nor the bits it has found
      by_cases hown : action = .advance id
      · have hnext : (filter.step hasher action).threads id =
            some ⟨.contains item, progressAt (filter.step hasher action).numHashes (k + 1)⟩ := by
          rw [hgrows.numHashes] at hthread ⊢
          rw [hown]
          exact query_step hset hthread
        rw [ih (hgrows.bytes hbytes) hset' hnext, hown, List.count_cons_self,
          Nat.add_right_comm, Nat.add_assoc]
      · have hcount : (action :: actions).count (.advance id) = actions.count (.advance id) :=
          List.count_cons_of_ne hown
        rw [ih (hgrows.bytes hbytes) hset' (step_of_ne hthread hown), hcount]

end Query

section Alone

/-- The filter of the sequential server, which keeps the set of bits. -/
def toBloomFilter (filter : SharedFilter) (hbytes : filter.bits ≠ []) : BloomFilter :=
  ⟨filter.bits.length, filter.numHashes, bitAt filter.bits, List.length_pos_iff.mpr hbytes⟩

/-- The turns of an insertion that are left, with nothing in between. -/
theorem insert_turns {filter : SharedFilter} (bloom : BloomFilter) {id i n : ℕ}
    {item : List UInt8} (hcount : bloom.byteCount = filter.bits.length)
    (hthread : filter.threads id = some ⟨.insert item, .turn i⟩)
    (hleft : i + n = filter.numHashes) :
    (run (step hasher) filter (List.replicate (n + 1) (.advance id))).threads id =
        some ⟨.insert item, .inserted⟩ ∧
      bitAt (run (step hasher) filter (List.replicate (n + 1) (.advance id))).bits =
        bloom.insertLoop hasher item (List.range' i n) (bitAt filter.bits) := by
  induction n generalizing filter i with
  | zero =>
      have hstep : filter.step hasher (.advance id) =
          filter.setProgress id (.insert item) .inserted := by
        simp only [step, hthread, insertTurn]
        rw [if_neg (by omega)]
      rw [List.replicate_succ, List.replicate_zero, run, run, hstep, setProgress_self]
      exact ⟨rfl, rfl⟩
  | succ n ih =>
      have hstep : filter.step hasher (.advance id) =
          { filter with bits := orBit filter.bits (filter.hash hasher item i) }.setProgress id
            (.insert item) (.turn (i + 1)) := by
        simp only [step, hthread, insertTurn]
        rw [if_pos (by omega)]
      have hpos : filter.bits ≠ [] := by
        rw [← List.length_pos_iff, ← hcount]
        exact bloom.byteCount_pos
      have hhash : filter.hash hasher item i = bloom.hash hasher item i := by
        rw [BloomFilter.hash, hcount]
        rfl
      -- what `fetch_or` leaves behind is the set with one more bit
      have hbits : bitAt (orBit filter.bits (filter.hash hasher item i)) =
          Function.update (bitAt filter.bits) (bloom.hash hasher item i) true := by
        funext k
        rw [bitAt_orBit (hash_lt hasher hpos _ _), hhash]
        by_cases hk : k = bloom.hash hasher item i
        · rw [hk, Function.update_self, decide_eq_true rfl, Bool.true_or]
        · rw [Function.update_of_ne hk, decide_eq_false (Ne.symm hk), Bool.false_or]
      rw [List.replicate_succ, run, hstep, List.range'_succ, BloomFilter.insertLoop, ← hbits]
      exact ih (by rw [hcount]; exact (orBit_length _ _).symm) (setProgress_self _ _ _ _)
        (by rw [setProgress_numHashes]; show i + 1 + n = filter.numHashes; omega)

/-- An insertion that runs alone is the insertion of the sequential filter. -/
theorem insert_alone {filter : SharedFilter} (hbytes : filter.bits ≠ []) {id : ℕ}
    {item : List UInt8} (hthread : filter.threads id = some ⟨.insert item, .turn 0⟩) :
    (run (step hasher) filter
        (List.replicate (filter.numHashes + 1) (.advance id))).threads id =
          some ⟨.insert item, .inserted⟩ ∧
      bitAt (run (step hasher) filter
        (List.replicate (filter.numHashes + 1) (.advance id))).bits =
          ((filter.toBloomFilter hbytes).insert hasher item).isSet := by
  rw [BloomFilter.insert, List.range_eq_range']
  exact insert_turns (filter.toBloomFilter hbytes) rfl hthread (Nat.zero_add _)

/-- A query that has answered takes no more steps. -/
theorem answered_stays {filter : SharedFilter} {id : ℕ} {item : List UInt8} {result : Bool}
    (hthread : filter.threads id = some ⟨.contains item, .answered result⟩) (n : ℕ) :
    (run (step hasher) filter (List.replicate n (.advance id))).threads id =
      some ⟨.contains item, .answered result⟩ := by
  induction n with
  | zero => exact hthread
  | succ n ih =>
      have hsame : filter.step hasher (.advance id) = filter := by simp only [step, hthread]
      rw [List.replicate_succ, run, hsame]
      exact ih

/-- The turns of a query that are left, with nothing in between. -/
theorem contains_turns {filter : SharedFilter} {id i n : ℕ} {item : List UInt8}
    (hthread : filter.threads id = some ⟨.contains item, .turn i⟩)
    (hleft : i + n = filter.numHashes) :
    (run (step hasher) filter (List.replicate (n + 1) (.advance id))).threads id =
      some ⟨.contains item, .answered ((List.range' i n).all fun seed =>
        bitAt filter.bits (filter.hash hasher item seed))⟩ := by
  induction n generalizing filter i with
  | zero =>
      have hown : filter.step hasher (.advance id) = filter.containsTurn hasher id item i := by
        simp only [step, hthread]
      rw [List.replicate_succ, List.replicate_zero, run, run, hown, containsTurn_eq,
        if_neg (by omega), setProgress_self]
      rfl
  | succ n ih =>
      have hown : filter.step hasher (.advance id) = filter.containsTurn hasher id item i := by
        simp only [step, hthread]
      rw [List.replicate_succ, run, hown, containsTurn_eq, if_pos (by omega), List.range'_succ,
        List.all_cons]
      -- the loop returns at the first bit that is clear
      by_cases hbit : bitAt filter.bits (filter.hash hasher item i)
      · rw [if_pos hbit, hbit, Bool.true_and]
        have hthread' := setProgress_self filter id (.contains item) (.turn (i + 1))
        exact ih hthread' (by rw [setProgress_numHashes]; omega)
      · rw [if_neg hbit, Bool.not_eq_true _ |>.mp hbit, Bool.false_and]
        exact answered_stays (setProgress_self filter _ _ _) _

/-- A query that runs alone gives the answer of the sequential filter. -/
theorem contains_alone {filter : SharedFilter} (hbytes : filter.bits ≠ []) {id : ℕ}
    {item : List UInt8} (hthread : filter.threads id = some ⟨.contains item, .turn 0⟩) :
    (run (step hasher) filter
        (List.replicate (filter.numHashes + 1) (.advance id))).threads id =
      some ⟨.contains item,
        .answered ((filter.toBloomFilter hbytes).contains hasher item)⟩ := by
  rw [BloomFilter.contains, List.range_eq_range']
  exact contains_turns hthread (Nat.zero_add _)

end Alone

/-- From any bytes, with any calls before, between and after: once an insertion has returned, a
query for its item that starts then answers `true` if it has answered, and it has answered when
it has taken one step for each hash and one to return. -/
theorem no_false_negatives (hasher : List UInt8 → ℕ → UInt64) (bits : List UInt8)
    (hbytes : bits ≠ []) (numHashes : ℕ) (before after : List FilterAction) (item : List UInt8)
    (inserter reader : ℕ)
    (hinserted : (run (step hasher) (start bits numHashes) before).threads inserter =
      some ⟨.insert item, .inserted⟩)
    (hfresh : (run (step hasher) (start bits numHashes) before).threads reader = none) :
    (∀ result, (run (step hasher) (start bits numHashes)
        (before ++ .start reader (.contains item) :: after)).threads reader =
          some ⟨.contains item, .answered result⟩ → result = true) ∧
      (numHashes < after.count (.advance reader) →
        (run (step hasher) (start bits numHashes)
          (before ++ .start reader (.contains item) :: after)).threads reader =
            some ⟨.contains item, .answered true⟩) := by
  have hmarked : Marked hasher (run (step hasher) (start bits numHashes) before) :=
    marked_run hbytes (marked_start hasher bits numHashes) before
  have hgrows : Grows (start bits numHashes) (run (step hasher) (start bits numHashes) before) :=
    grows_run hasher hbytes before
  rw [run_append]
  generalize run (step hasher) (start bits numHashes) before = filter at *
  have hhashes : filter.numHashes = numHashes := hgrows.numHashes
  have hset := hmarked.inserted inserter item hinserted
  -- the query starts, and nothing else happens in this step
  have hstarted : filter.step hasher (.start reader (.contains item)) =
      filter.setProgress reader (.contains item) (.turn 0) := by
    simp only [step, hfresh]
  have hstart := grows_setProgress filter reader (.contains item) (.turn 0)
  have hprogress : progressAt numHashes 0 = .turn 0 := if_pos (Nat.zero_le _)
  have hquery : (run (step hasher) (filter.setProgress reader (.contains item) (.turn 0))
      after).threads reader =
        some ⟨.contains item, progressAt filter.numHashes (0 + after.count (.advance reader))⟩ :=
    query_run (hstart.bytes (hgrows.bytes hbytes)) (hstart.hashesSet hset)
      (by rw [setProgress_self, setProgress_numHashes, hhashes, hprogress]) after
  rw [run, hstarted, hquery, hhashes, Nat.zero_add]
  unfold progressAt
  by_cases hleft : after.count (.advance reader) ≤ numHashes
  · rw [if_pos hleft]
    refine ⟨fun result hresult => ?_, fun henough => absurd hleft (Nat.not_le.mpr henough)⟩
    exact absurd hresult (by simp only [Option.some.injEq, FilterThread.mk.injEq, reduceCtorEq,
      and_false, not_false_eq_true])
  · rw [if_neg hleft]
    refine ⟨fun result hresult => ?_, fun _ => rfl⟩
    rw [Option.some.injEq, FilterThread.mk.injEq, FilterProgress.answered.injEq] at hresult
    exact hresult.2.symm

/-- A hasher that spreads items by their length. -/
def lengthHasher : List UInt8 → ℕ → UInt64 := fun item seed =>
  UInt64.ofNat (item.length * 3 + seed * 5)

/-- Two insertions turn by turn, and a query that starts when the first has returned. -/
theorem no_false_negatives_two_inserts :
    (run (step lengthHasher) (start [0, 0] 2)
      ([.start 0 (.insert [7]), .advance 0, .start 1 (.insert [8, 8]), .advance 1, .advance 0,
        .advance 0] ++ .start 2 (.contains [7]) ::
        [.advance 2, .advance 1, .advance 2, .advance 1, .advance 2])).threads 2 =
      some ⟨.contains [7], .answered true⟩ :=
  (no_false_negatives lengthHasher [0, 0] (by decide) 2 _ _ [7] 0 2 rfl rfl).2 (by decide)

end SharedFilter

end Ebut
