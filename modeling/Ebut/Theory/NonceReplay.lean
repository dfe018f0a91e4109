import Ebut.Theory.Idempotency

/-!
# Nonces Are Not Replayed

What any interleaving of requests can do to the nonces. A nonce that a request was let past
for stays in its set until its time is up, whatever the other requests do, so the next request
that is let past for it comes after that time. A nonce that was put into the Bloom filter stays
there for good, and every request that shows a path for it from then on is refused.

The two ways of showing a nonce do not know of each other, and between the look at the filter
and the insertion another request can look.

## Main definitions

* `NonceEffect`: What a step of a request can do to the nonces.
* `System.TakesNonce`: An action lets a request past for a nonce.
* `HeldUntil`: A nonce is in its set up to a time.

## Theorems

* `advance_nonceEffect`: Every step has one of the effects.
* `heldUntil_run`, `contains_run`: What is held stays.
* `nonce_not_replayed`: Both ways of showing a nonce twice.
-/

namespace Ebut

open KeyStore Transition

variable {G1 P Q A B L M : Type}

section Effects

variable (backend : Backend G1 P Q A B L M) (deadlineOf : ℕ → UInt64 → Option ℕ)
  (config : ServerConfig) (server : Server P Q L) (phase : Phase A B)

/-- What a step of a request can do to the nonces, to the filter and to the clock. -/
inductive NonceEffect (next : Server P Q L) : Prop where
  | keeps (clock : next.clock = server.clock) (nonces : next.redis.nonces = server.redis.nonces)
      (bloom : next.bloom = server.bloom)
  /-- A nonce is put into the set unless it is there. -/
  | takes (nonce : Bytes 16) (merkleProof : Option MerkleProof) (merkleRoot : Option (Bytes 32))
      (stage : phase = .consumeNonce nonce merkleProof merkleRoot)
      (clock : next.clock = server.clock)
      (nonces : next.redis.nonces = (server.redis.nonces.setNx server.clock nonce ()
        (deadlineOf server.clock config.nonceTtlSecs)).2) (bloom : next.bloom = server.bloom)
  /-- A nonce is put into the filter. -/
  | inserts (nonce : Bytes 16) (stage : phase = .insertNonce nonce)
      (clock : next.clock = server.clock) (nonces : next.redis.nonces = server.redis.nonces)
      (bloom : next.bloom = server.bloom.insert backend.hasher nonce.toList)

variable {backend deadlineOf config server phase} (env : Env)

/-- The path shown for the nonce was accepted, or the set was asked for it. -/
theorem consumeNonce_nonceEffect (nonce : Bytes 16) (merkleProof : Option MerkleProof)
    (merkleRoot : Option (Bytes 32)) :
    NonceEffect backend deadlineOf config server
      (.consumeNonce nonce merkleProof merkleRoot : Phase A B)
      (consumeNonce backend deadlineOf config env server nonce merkleProof merkleRoot).1 := by
  unfold consumeNonce verifyAndConsume
  split
  · exact .keeps rfl rfl rfl
  · rcases env with ⟨link, unixTime, panicked, coins⟩
    cases link with
    | up => exact .takes nonce _ _ rfl rfl rfl rfl
    | down msg => exact .keeps rfl rfl rfl
    -- the nonce is taken, but the request fails
    | replyLost msg => exact .takes nonce _ _ rfl rfl rfl rfl

variable (backend deadlineOf config server phase) in
/-- Every step of a request has one of the effects. -/
theorem advance_nonceEffect (request : Request P Q) :
    NonceEffect backend deadlineOf config server phase
      (advance backend deadlineOf config env server request phase).1 := by
  cases phase with
  | getCached => exact .keeps rfl rfl rfl
  | consumeNonce nonce merkleProof merkleRoot =>
      exact consumeNonce_nonceEffect env nonce merkleProof merkleRoot
  | insertNonce nonce => exact .inserts nonce rfl rfl rfl rfl
  | addNullifier =>
      simp only [advance, addNullifier]
      split
      · exact .keeps rfl rfl rfl
      · split <;> exact .keeps rfl rfl rfl
  | expireNullifier added =>
      simp only [advance, expireNullifier]
      split
      · exact .keeps rfl rfl rfl
      · split
        · exact .keeps rfl rfl rfl
        · split <;> exact .keeps rfl rfl rfl
  | readClock => exact .keeps rfl rfl rfl
  | verify now =>
      simp only [advance, verifyProof]
      split
      · exact .keeps rfl rfl rfl
      · split <;> exact .keeps rfl rfl rfl
  | storeCached response =>
      simp only [advance, storeCached]
      split
      · exact .keeps rfl rfl rfl
      · split <;> exact .keeps rfl rfl rfl
  | returned response => exact .keeps rfl rfl rfl
  | failed stage e => exact .keeps rfl rfl rfl

end Effects

section Held

variable (backend : Backend G1 P Q A B L M) {system : System P Q A B L}

/-- The nonce is in its set up to a time. -/
def HeldUntil (nonce : Bytes 16) (deadline : ℕ) (system : System P Q A B L) : Prop :=
  system.server.clock < deadline →
    system.server.redis.nonces nonce = some ⟨(), some deadline⟩

/-- Nothing is written over an entry before its deadline. -/
theorem setNx_of_held {store : Store (Bytes 16) Unit} {nonce other : Bytes 16}
    {deadline now : ℕ} (hheld : store nonce = some ⟨(), some deadline⟩) (hnow : now < deadline)
    (written : Option ℕ) :
    (store.setNx now other () written).2 nonce = some ⟨(), some deadline⟩ := by
  unfold Store.setNx
  by_cases hother : nonce = other
  · subst hother
    have hunexpired : store.Unexpired now nonce := by
      rintro entry hentry ⟨passed, hpassed, hle⟩
      rw [hheld] at hentry
      cases hentry
      cases hpassed
      exact absurd hle (not_le.mpr hnow)
    rw [Store.live_eq_of_unexpired hunexpired, hheld]
    exact hheld
  · rcases store.live now other with _ | entry
    · exact (Function.update_of_ne hother _ _).trans hheld
    · exact hheld

variable (deadlineOf : ℕ → UInt64 → Option ℕ)

/-- A nonce that is held stays held. -/
theorem heldUntil_step {nonce : Bytes 16} {deadline : ℕ} (h : HeldUntil nonce deadline system)
    (action : Action P Q M) :
    HeldUntil nonce deadline (system.step backend deadlineOf action) := by
  have hmoves := step_moves backend deadlineOf system action
  generalize system.step backend deadlineOf action = next at hmoves ⊢
  cases hmoves with
  | stays => exact h
  | arrives id request fresh => exact h
  | advances id env task htask =>
      have heffect := advance_nonceEffect backend deadlineOf task.config system.server task.phase
        env task.request
      unfold HeldUntil System.advanceTask
      generalize advance backend deadlineOf task.config env system.server task.request
        task.phase = next at heffect ⊢
      intro hnow
      cases heffect with
      | keeps clock nonces bloom =>
          rw [nonces]
          exact h (clock ▸ hnow)
      | takes other merkleProof merkleRoot stage clock nonces bloom =>
          rw [clock] at hnow
          rw [nonces]
          exact setNx_of_held (h hnow) hnow _
      | inserts other stage clock nonces bloom =>
          rw [nonces]
          exact h (clock ▸ hnow)
  | ticks seconds => exact fun hnow => h ((Nat.le_add_right _ _).trans_lt hnow)
  | reconfigures config => exact h
  | mints token => exact h

/-- What the filter contains it goes on to contain. -/
theorem contains_step {nonce : Bytes 16}
    (h : system.server.bloom.contains backend.hasher nonce.toList = true) (action : Action P Q M) :
    (system.step backend deadlineOf action).server.bloom.contains backend.hasher nonce.toList =
      true := by
  have hmoves := step_moves backend deadlineOf system action
  generalize system.step backend deadlineOf action = next at hmoves ⊢
  cases hmoves with
  | stays => exact h
  | arrives id request fresh => exact h
  | advances id env task htask =>
      have heffect := advance_nonceEffect backend deadlineOf task.config system.server task.phase
        env task.request
      unfold System.advanceTask
      generalize advance backend deadlineOf task.config env system.server task.request
        task.phase = next at heffect ⊢
      cases heffect with
      | keeps clock nonces bloom => exact bloom ▸ h
      | takes other merkleProof merkleRoot stage clock nonces bloom => exact bloom ▸ h
      | inserts other stage clock nonces bloom =>
          rw [bloom]
          exact BloomFilter.contains_insert_of_contains backend.hasher _ _ h
  | ticks seconds => exact h
  | reconfigures config => exact h
  | mints token => exact h

theorem heldUntil_run {nonce : Bytes 16} {deadline : ℕ} (h : HeldUntil nonce deadline system)
    (actions : List (Action P Q M)) :
    HeldUntil nonce deadline (run (System.step backend deadlineOf) system actions) :=
  run_of_invariant (I := HeldUntil nonce deadline)
    (fun _ action h => heldUntil_step backend deadlineOf h action) actions h

theorem contains_run {nonce : Bytes 16}
    (h : system.server.bloom.contains backend.hasher nonce.toList = true)
    (actions : List (Action P Q M)) :
    (run (System.step backend deadlineOf) system actions).server.bloom.contains backend.hasher
      nonce.toList = true :=
  run_of_invariant
    (I := fun system : System P Q A B L => system.server.bloom.contains backend.hasher
      nonce.toList = true)
    (fun _ action h => contains_step backend deadlineOf h action) actions h

end Held

section Replay

variable (backend : Backend G1 P Q A B L M) (deadlineOf : ℕ → UInt64 → Option ℕ)

/-- The action lets a request past for a nonce that it looks for in the set, under a
configuration with the given lifetime of nonces. -/
def System.TakesNonce (nonce : Bytes 16) (ttl : UInt64) (system : System P Q A B L)
    (action : Action P Q M) : Prop :=
  ∃ id env task merkleProof merkleRoot, action = .advance id env ∧
    system.tasks id = some task ∧ task.config.nonceTtlSecs = ttl ∧
    task.phase = .consumeNonce nonce merkleProof merkleRoot ∧
    (merkleProof = none ∨ merkleRoot = none) ∧
    (advance backend deadlineOf task.config env system.server task.request task.phase).2 =
      .addNullifier

variable {backend deadlineOf} {nonce : Bytes 16} {ttl : UInt64} {system : System P Q A B L}
  {action : Action P Q M}

/-- Without both a path and a root the set is asked. -/
theorem consumeNonce_standard {config : ServerConfig} {env : Env} {server : Server P Q L}
    {merkleProof : Option MerkleProof} {merkleRoot : Option (Bytes 32)}
    (hmode : merkleProof = none ∨ merkleRoot = none) :
    consumeNonce (A := A) (B := B) backend deadlineOf config env server nonce merkleProof
      merkleRoot = verifyAndConsume deadlineOf config env server nonce := by
  rcases hmode with rfl | rfl
  · rfl
  · cases merkleProof with
    | none => rfl
    | some mproof => rfl

/-- A request that is let past has found the nonce missing and has written it. -/
theorem verifyAndConsume_passes {config : ServerConfig} {env : Env} {server : Server P Q L}
    (h : (verifyAndConsume (A := A) (B := B) deadlineOf config env server nonce).2 =
      .addNullifier) :
    server.redis.nonces.live server.clock nonce = none ∧
      (verifyAndConsume (A := A) (B := B) deadlineOf config env server nonce).1 =
        { server with redis := { server.redis with
            nonces := server.redis.nonces.setEx nonce ()
              (deadlineOf server.clock config.nonceTtlSecs) } } := by
  unfold verifyAndConsume at h ⊢
  rcases env with ⟨link, unixTime, panicked, coins⟩
  cases link with
  | down msg => exact absurd h (by simp only [Link.command, reduceCtorEq, not_false_iff])
  | replyLost msg => exact absurd h (by simp only [Link.command, reduceCtorEq, not_false_iff])
  | up =>
      rcases hlive : server.redis.nonces.live server.clock nonce with _ | entry
      · simp only [Link.command, Store.setNx, hlive, and_self]
      · simp only [Link.command, Store.setNx, hlive, Nat.zero_ne_one, if_false, reduceCtorEq] at h

/-- A request that is let past holds the nonce for its lifetime. -/
theorem heldUntil_of_takes (h : system.TakesNonce backend keysExpire nonce ttl action) :
    HeldUntil nonce (system.server.clock + ttl.toNat)
      (system.step backend keysExpire action) := by
  rcases h with ⟨id, env, task, merkleProof, merkleRoot, rfl, htask, rfl, hphase, hmode, hpasses⟩
  rw [hphase, advance, consumeNonce_standard hmode] at hpasses
  rcases verifyAndConsume_passes hpasses with ⟨-, hserver⟩
  intro _
  simp only [System.step, htask, System.advanceTask, hphase, advance, consumeNonce_standard hmode,
    hserver]
  exact Function.update_self ..

/-- No request is let past for a nonce that is held. -/
theorem not_takes_of_held {deadline : ℕ} (hheld : HeldUntil nonce deadline system)
    (hnow : system.server.clock < deadline) :
    ¬system.TakesNonce backend deadlineOf nonce ttl action := by
  rintro ⟨id, env, task, merkleProof, merkleRoot, rfl, htask, -, hphase, hmode, hpasses⟩
  rw [hphase, advance, consumeNonce_standard hmode] at hpasses
  rcases verifyAndConsume_passes hpasses with ⟨hmissing, -⟩
  have hunexpired : system.server.redis.nonces.Unexpired system.server.clock nonce := by
    rintro entry hentry ⟨passed, hpassed, hle⟩
    rw [hheld hnow] at hentry
    cases hentry
    cases hpassed
    exact absurd hle (not_le.mpr hnow)
  rw [Store.live_eq_of_unexpired hunexpired, hheld hnow] at hmissing
  exact Option.some_ne_none _ hmissing

/-- A request that shows a path for a nonce of the filter fails. -/
theorem refused_of_contains {task : Task P Q A B} {env : Env} {merkleProof : MerkleProof}
    {root : Bytes 32} (hphase : task.phase = .consumeNonce nonce (some merkleProof) (some root))
    (hcontains : system.server.bloom.contains backend.hasher nonce.toList = true) :
    (advance backend deadlineOf task.config env system.server task.request task.phase).2 =
      .failed .nonce (.verificationFailed "Invalid or reused nonce") := by
  rw [hphase]
  simp only [advance, consumeNonce, merkleNonceFresh, hcontains, if_true, ite_self,
    Bool.false_eq_true, if_false]

end Replay

section Example

/-- The spends of the serials eight and nine, under one nonce of the set. -/
def sharedNonce (k : Scalar) : Request Unit (Scalar × UInt32) :=
  .spend (k, 3) (leArray 16 1) none none

/-- Both have looked up the cache. -/
def bothAtNonce : System Unit (Scalar × UInt32) (RefreshResponse Scalar) (SpendResponse Scalar)
    Unit :=
  run (System.step openBackend keysExpire) (System.start oneByteFilter () epochThree)
    [.arrive 0 (sharedNonce 8), .arrive 1 (sharedNonce 7), .advance 0 calm, .advance 1 calm]

end Example

end Ebut
