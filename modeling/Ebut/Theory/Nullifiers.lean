import Ebut.Core.System

/-!
# Nullifiers Admit One Request

What any interleaving of requests can do to a nullifier. `advance_effect` says
once what a step of a request can do to the nullifier sets, to the history of
verified requests and to what the verifiers remember; everything below reads it
off there.

A request holds a nullifier from the `SADD` that found it new until its proof has
been verified or it has failed. `Guarded` says of one nullifier that it is in its
set while a request holds it or a verified request carries it, and that these are
one request in all. A step keeps this as long as the set has not expired when a
nullifier is added to it.

## Main definitions

* `Backend.nullifier`: The nullifier of a request.
* `Effect`: What a step of a request can do.
* `System.Moves`: What an action does to the system.
* `Server.uses`, `Server.spendsOf`: Verified requests with a nullifier, a serial.
* `System.addsTo`, `System.KeyKept`: A set that is added to has not expired.
* `Guarded`: The invariant of one nullifier.

## Theorems

* `advance_effect`, `advanceTask_effect`: Every step has one of the effects.
* `step_moves`: Every action does one of the moves.
* `guarded_step`, `guarded_run`: The invariant is kept.
* `verified_once`: At most one verified request carries a nullifier.
-/

namespace Ebut

open KeyStore Transition

variable {G1 P Q A B L M : Type}

/-- The nullifier of a request, whatever epoch it names. -/
def Backend.nullifier (backend : Backend G1 P Q A B L M) (config : ServerConfig) :
    Request P Q → Nullifier
  | .refresh proof => checkEpochNullifier config (backend.compress (backend.nT proof))
  | .spend proof _ _ _ =>
      (.spend (backend.tIssue proof), (Scalar.toBytes (backend.kCur proof)).toList)

theorem checkSpendNullifier_ok {config : ServerConfig} {kCur : Scalar} {tIssue : UInt32}
    {n : Nullifier} (h : checkSpendNullifier config kCur tIssue = .ok n) :
    n = (.spend tIssue, (Scalar.toBytes kCur).toList) := by
  unfold checkSpendNullifier at h
  split_ifs at h with hcur hprev
  · rw [hcur]
    exact (Except.ok.inj h).symm
  · rw [hprev.2]
    exact (Except.ok.inj h).symm

/-- A nullifier check that passes the epoch window adds the request's own
nullifier. -/
theorem checkNullifier_ok {backend : Backend G1 P Q A B L M} {config : ServerConfig}
    {request : Request P Q} {n : Nullifier} (h : backend.checkNullifier config request = .ok n) :
    backend.nullifier config request = n := by
  cases request with
  | refresh proof => exact Except.ok.inj h
  | spend proof nonce merkleProof merkleRoot => exact (checkSpendNullifier_ok h).symm

/-- The request has added a new nullifier, and its proof is not verified yet. -/
def Phase.Holding : Phase A B → Prop
  | .expireNullifier added => added = 1
  | .readClock => True
  | .verify _ => True
  | _ => False

/-- Redis runs the command, whatever the client sees of it. -/
def Link.runs : Link → Bool
  | .up => true
  | .down _ => false
  | .replyLost _ => true

section Effects

variable (backend : Backend G1 P Q A B L M) (deadlineOf : ℕ → UInt64 → Option ℕ)
  (config : ServerConfig) (env : Env) (server : Server P Q L) (request : Request P Q)
  (phase : Phase A B)

/-- What a step of a request can do to the nullifier sets, to the history and to
the ledger, and whether the request holds its nullifier afterwards. -/
inductive Effect (next : Server P Q L × Phase A B) : Prop where
  /-- At most a deadline is set. -/
  | keeps
      (nullifiers : next.1.redis.nullifiers = server.redis.nullifiers ∨
        ∃ key ttl, next.1.redis.nullifiers =
          server.redis.nullifiers.expire server.clock key (deadlineOf server.clock ttl))
      (verified : next.1.verified = server.verified) (ledger : next.1.ledger = server.ledger)
      (holding : next.2.Holding → phase.Holding)
  /-- A nullifier is added. -/
  | adds (key : NullifierKey) (member : List UInt8)
      (stage : phase = .addNullifier)
      (checked : backend.checkNullifier config request = .ok (key, member))
      (runs : env.link.runs = true)
      (nullifiers : next.1.redis.nullifiers =
        (server.redis.nullifiers.sadd server.clock key member).2)
      (verified : next.1.verified = server.verified) (ledger : next.1.ledger = server.ledger)
      (holding : next.2.Holding →
        (server.redis.nullifiers.sadd server.clock key member).1 = 1)
  /-- A proof is verified. -/
  | verifies (now : UInt64) (coins : Scalar × Scalar)
      (response : Response A B) (stage : phase = .verify now)
      (accepted : backend.verify server.ledger request config.currentEpoch now coins =
        .ok (response, next.1.ledger))
      (nullifiers : next.1.redis.nullifiers = server.redis.nullifiers)
      (verified : next.1.verified = (request, config) :: server.verified)
      (released : ¬next.2.Holding)

variable {backend deadlineOf config env server request phase}

/-- A step that touches none of the three. -/
theorem Effect.quiet {next : Server P Q L × Phase A B}
    (hnull : next.1.redis.nullifiers = server.redis.nullifiers)
    (hverified : next.1.verified = server.verified) (hledger : next.1.ledger = server.ledger)
    (hholding : ¬next.2.Holding) : Effect backend deadlineOf config env server request phase next :=
  .keeps (Or.inl hnull) hverified hledger fun h => absurd h hholding

variable (env)

theorem not_holding_afterCache : ¬(afterCache backend request).Holding := by
  cases request with
  | refresh proof => exact id
  | spend proof nonce merkleProof merkleRoot =>
      by_cases hzero : backend.kCur proof = 0
      · simp only [afterCache, if_pos hzero]
        exact id
      · simp only [afterCache, if_neg hzero]
        exact id

theorem not_holding_getCached : ¬(getCached backend env server request).Holding := by
  unfold getCached
  simp only
  split
  · exact id
  · exact not_holding_afterCache
  · split <;> exact id

theorem consumeNonce_effect (nonce : Bytes 16) (merkleProof : Option MerkleProof)
    (merkleRoot : Option (Bytes 32)) : Effect backend deadlineOf config env server request phase
      (consumeNonce backend deadlineOf config env server nonce merkleProof merkleRoot) := by
  unfold consumeNonce verifyAndConsume
  split
  · refine .quiet rfl rfl rfl ?_
    split <;> exact id
  · split
    · exact .quiet rfl rfl rfl id
    · refine .quiet rfl rfl rfl ?_
      split <;> exact id

theorem addNullifier_effect :
    Effect backend deadlineOf config env server request .addNullifier
      (addNullifier backend config env server request) := by
  unfold addNullifier
  split
  · exact .quiet rfl rfl rfl id
  · rename_i key member hchecked
    -- a command that is refused leaves the sets alone, one whose reply is lost does not
    rcases env with ⟨link, unixTime, panicked, coins⟩
    cases link with
    | up => exact .adds key member rfl hchecked rfl rfl rfl rfl id
    | down msg => exact .quiet rfl rfl rfl id
    | replyLost msg => exact .adds key member rfl hchecked rfl rfl rfl rfl fun h => h.elim

theorem expireNullifier_effect (added : ℕ) :
    Effect backend deadlineOf config env server request (.expireNullifier added)
      (expireNullifier backend deadlineOf config env server request added) := by
  unfold expireNullifier
  rcases backend.checkNullifier config request with e | ⟨key, member⟩
  · exact .quiet rfl rfl rfl id
  · rcases nullifierTtl config with e | ttl
    · exact .quiet rfl rfl rfl id
    · rcases env with ⟨link, unixTime, panicked, coins⟩
      cases link with
      | up =>
          refine .keeps (Or.inr ⟨_, _, rfl⟩) rfl rfl fun h => ?_
          by_cases hadded : added = 1
          · exact hadded
          · simp only [Link.command, if_neg hadded] at h
            exact h.elim
      | down msg => exact .quiet rfl rfl rfl id
      -- the deadline is set, but the request fails
      | replyLost msg => exact .keeps (Or.inr ⟨_, _, rfl⟩) rfl rfl fun h => h.elim

theorem verifyProof_effect (now : UInt64) :
    Effect backend deadlineOf config env server request (.verify now)
      (verifyProof backend config env server request now) := by
  unfold verifyProof
  split
  · exact .quiet rfl rfl rfl id
  · split
    · exact .quiet rfl rfl rfl id
    · rename_i response ledger haccepted
      exact .verifies now env.coins response rfl haccepted rfl rfl id

theorem storeCached_effect (response : Response A B) :
    Effect backend deadlineOf config env server request phase
      (storeCached backend deadlineOf config env server request response) := by
  unfold storeCached
  split
  · exact .quiet rfl rfl rfl id
  · split <;> exact .quiet rfl rfl rfl id

theorem readClock_effect :
    Effect backend deadlineOf config env server request .readClock
      (server, readClock (A := A) (B := B) env) :=
  .keeps (Or.inl rfl) rfl rfl fun _ => trivial

/-- Every step of a request has one of the effects. -/
theorem advance_effect :
    Effect backend deadlineOf config env server request phase
      (advance backend deadlineOf config env server request phase) := by
  cases phase with
  | getCached => exact .quiet rfl rfl rfl (not_holding_getCached env)
  | consumeNonce nonce merkleProof merkleRoot =>
      exact consumeNonce_effect env nonce merkleProof merkleRoot
  | insertNonce nonce => exact .quiet rfl rfl rfl id
  | addNullifier => exact addNullifier_effect env
  | expireNullifier added => exact expireNullifier_effect env added
  | readClock => exact readClock_effect env
  | verify now => exact verifyProof_effect env now
  | storeCached response => exact storeCached_effect env response
  | returned response => exact .quiet rfl rfl rfl id
  | failed stage e => exact .quiet rfl rfl rfl id

end Effects

/-- What an action does to a system. -/
inductive System.Moves (backend : Backend G1 P Q A B L M) (deadlineOf : ℕ → UInt64 → Option ℕ)
    (system : System P Q A B L) : Action P Q M → System P Q A B L → Prop
  /-- An arrival under an identifier in use, or a step of a request that is not there. -/
  | stays (action : Action P Q M) : Moves backend deadlineOf system action system
  | arrives (id : ℕ) (request : Request P Q) (fresh : system.tasks id = none) :
      Moves backend deadlineOf system (.arrive id request)
        { system with
          tasks := Function.update system.tasks id
            (some { request, config := system.config, phase := .getCached }) }
  | advances (id : ℕ) (env : Env) (task : Task P Q A B) (htask : system.tasks id = some task) :
      Moves backend deadlineOf system (.advance id env)
        (system.advanceTask backend deadlineOf id env task)
  | ticks (seconds : ℕ) :
      Moves backend deadlineOf system (.tick seconds)
        { system with
          server := { system.server with clock := system.server.clock + seconds } }
  | reconfigures (config : ServerConfig) :
      Moves backend deadlineOf system (.reconfigure config)
        { system with config, since := system.server.clock }
  | mints (token : M) :
      Moves backend deadlineOf system (.mint token)
        { system with
          server := { system.server with ledger := backend.mint token system.server.ledger } }

/-- Every action does one of these. -/
theorem step_moves (backend : Backend G1 P Q A B L M) (deadlineOf : ℕ → UInt64 → Option ℕ)
    (system : System P Q A B L) (action : Action P Q M) :
    system.Moves backend deadlineOf action (system.step backend deadlineOf action) := by
  cases action with
  | arrive id request =>
      cases htask : system.tasks id with
      | none =>
          simp only [System.step, htask]
          exact .arrives id request htask
      | some task =>
          simp only [System.step, htask]
          exact .stays _
  | advance id env =>
      cases htask : system.tasks id with
      | none =>
          simp only [System.step, htask]
          exact .stays _
      | some task =>
          simp only [System.step, htask]
          exact .advances id env task htask
  | tick seconds => exact .ticks seconds
  | reconfigure config => exact .reconfigures config
  | mint token => exact .mints token

/-- A step of one request touches the server as one of the effects does, and its own task. -/
theorem advanceTask_effect (backend : Backend G1 P Q A B L M)
    (deadlineOf : ℕ → UInt64 → Option ℕ) (system : System P Q A B L) (id : ℕ) (env : Env)
    (task : Task P Q A B) :
    ∃ next, Effect backend deadlineOf task.config env system.server task.request task.phase next ∧
      system.advanceTask backend deadlineOf id env task =
        { system with
          server := next.1
          tasks := Function.update system.tasks id (some { task with phase := next.2 }) } :=
  ⟨_, advance_effect env, rfl⟩

/-- A step of the system is a step of a request, or it leaves the sets and the history
alone and at most mints a token. -/
theorem step_cases (backend : Backend G1 P Q A B L M) (deadlineOf : ℕ → UInt64 → Option ℕ)
    (system : System P Q A B L) (action : Action P Q M) :
    (∃ task env phase, Effect backend deadlineOf task.config env system.server task.request
      task.phase ((system.step backend deadlineOf action).server, phase) ∧
        ∃ id, system.tasks id = some task) ∨
    ((system.step backend deadlineOf action).server.redis = system.server.redis ∧
      (system.step backend deadlineOf action).server.verified = system.server.verified ∧
      ((system.step backend deadlineOf action).server.ledger = system.server.ledger ∨
        ∃ token, (system.step backend deadlineOf action).server.ledger =
          backend.mint token system.server.ledger)) := by
  have hmoves := step_moves backend deadlineOf system action
  generalize system.step backend deadlineOf action = next at hmoves ⊢
  cases hmoves with
  | stays => exact Or.inr ⟨rfl, rfl, Or.inl rfl⟩
  | arrives id request fresh => exact Or.inr ⟨rfl, rfl, Or.inl rfl⟩
  | advances id env task htask => exact Or.inl ⟨task, env, _, advance_effect env, id, htask⟩
  | ticks seconds => exact Or.inr ⟨rfl, rfl, Or.inl rfl⟩
  | reconfigures config => exact Or.inr ⟨rfl, rfl, Or.inl rfl⟩
  | mints token => exact Or.inr ⟨rfl, rfl, Or.inr ⟨token, rfl⟩⟩

/-- The request has added the nullifier, found it new, and is not verified yet. -/
def Task.Holds (backend : Backend G1 P Q A B L M) (n : Nullifier) (task : Task P Q A B) : Prop :=
  task.phase.Holding ∧ backend.nullifier task.config task.request = n

/-- How many verified requests carry the nullifier. -/
def Server.uses (backend : Backend G1 P Q A B L M) (n : Nullifier) (server : Server P Q L) : ℕ :=
  server.verified.countP fun entry => decide (backend.nullifier entry.2 entry.1 = n)

/-- How many verified spends carry the serial in an epoch. -/
def Server.spendsOf (backend : Backend G1 P Q A B L M) (k : Scalar) (epoch : UInt32)
    (server : Server P Q L) : ℕ :=
  server.verified.countP fun entry =>
    match entry.1 with
    | .refresh _ => false
    | .spend proof _ _ _ => decide (backend.kCur proof = k ∧ backend.tIssue proof = epoch)

/-- All spends of a serial in an epoch use one nullifier. -/
theorem spendsOf_le_uses {backend : Backend G1 P Q A B L M} (server : Server P Q L) (k : Scalar)
    (epoch : UInt32) : server.spendsOf backend k epoch ≤
      server.uses backend (.spend epoch, (Scalar.toBytes k).toList) := by
  refine List.countP_mono_left fun entry _ hspend => ?_
  rcases entry with ⟨request, config⟩
  cases request with
  | refresh proof => exact nomatch hspend
  | spend proof nonce merkleProof merkleRoot =>
      have hserial : backend.kCur proof = k ∧ backend.tIssue proof = epoch :=
        of_decide_eq_true hspend
      refine decide_eq_true ?_
      show (NullifierKey.spend (backend.tIssue proof),
        (Scalar.toBytes (backend.kCur proof)).toList) = _
      rw [hserial.1, hserial.2]

/-- The set to which an action adds a nullifier, if it does. -/
def System.addsTo (backend : Backend G1 P Q A B L M) (system : System P Q A B L) :
    Action P Q M → Option NullifierKey
  | .advance id env =>
      match system.tasks id with
      | none => none
      | some task =>
          match task.phase, env.link.runs, backend.checkNullifier task.config task.request with
          | .addNullifier, true, .ok (key, _) => some key
          | _, _, _ => none
  | _ => none

/-- When an action adds to the set, the set has not expired. -/
def System.KeyKept (backend : Backend G1 P Q A B L M) (key : NullifierKey)
    (system : System P Q A B L) (action : Action P Q M) : Prop :=
  system.addsTo backend action = some key →
    system.server.redis.nullifiers.Unexpired system.server.clock key

/-- One nullifier, its set and the requests that carry it. -/
structure Guarded (backend : Backend G1 P Q A B L M) (n : Nullifier)
    (system : System P Q A B L) : Prop where
  /-- A request that holds the nullifier has put it into its set. -/
  recorded : ∀ id task, system.tasks id = some task → task.Holds backend n →
    system.server.redis.nullifiers.Recorded n.1 n.2
  /-- So has one that was verified. -/
  kept : 0 < system.server.uses backend n → system.server.redis.nullifiers.Recorded n.1 n.2
  /-- At most one request holds it. -/
  single : ∀ id task other task', system.tasks id = some task → task.Holds backend n →
    system.tasks other = some task' → task'.Holds backend n → id = other
  /-- None does once one was verified. -/
  pending : ∀ id task, system.tasks id = some task → task.Holds backend n →
    system.server.uses backend n = 0
  once : system.server.uses backend n ≤ 1

section Invariant

variable {backend : Backend G1 P Q A B L M} {deadlineOf : ℕ → UInt64 → Option ℕ} {n : Nullifier}
  {system : System P Q A B L}

/-- A request of a system in which one request was moved on is that one or was there
before. -/
theorem task_update {tasks : ℕ → Option (Task P Q A B)} {id other : ℕ}
    {task task' : Task P Q A B} (hother : Function.update tasks id (some task) other = some task') :
    other = id ∧ task' = task ∨ other ≠ id ∧ tasks other = some task' := by
  by_cases hid : other = id
  · subst hid
    rw [Function.update_self] at hother
    exact Or.inl ⟨rfl, (Option.some.inj hother).symm⟩
  · rw [Function.update_of_ne hid] at hother
    exact Or.inr ⟨hid, hother⟩

/-- What holds of every request holds in a system in which one was moved on, if it holds of
that one. -/
theorem forall_task_update {tasks : ℕ → Option (Task P Q A B)} {id : ℕ} {task : Task P Q A B}
    {T : Task P Q A B → Prop} (hnew : T task)
    (hold : ∀ other found, tasks other = some found → T found) (other : ℕ)
    (found : Task P Q A B)
    (hfound : Function.update tasks id (some task) other = some found) : T found := by
  rcases task_update hfound with ⟨_, rfl⟩ | ⟨_, hsame⟩
  · exact hnew
  · exact hold other found hsame

/-- The invariant of a system in which one request was moved on, from what the
move did to the sets and the history. -/
theorem Guarded.update (h : Guarded backend n system) {id : ℕ} {task' : Task P Q A B}
    {server : Server P Q L}
    (hrecorded : system.server.redis.nullifiers.Recorded n.1 n.2 →
      server.redis.nullifiers.Recorded n.1 n.2)
    (huses : server.uses backend n = system.server.uses backend n)
    (hholds : task'.Holds backend n →
      ∃ task, system.tasks id = some task ∧ task.Holds backend n) :
    Guarded backend n { system with
      server := server, tasks := Function.update system.tasks id (some task') } := by
  -- every holder was one before
  have hback : ∀ other found, Function.update system.tasks id (some task') other = some found →
      found.Holds backend n → ∃ before, system.tasks other = some before ∧
        before.Holds backend n := by
    intro other found hfound hheld
    rcases task_update hfound with ⟨rfl, rfl⟩ | ⟨_, hsame⟩
    · exact hholds hheld
    · exact ⟨found, hsame, hheld⟩
  constructor
  · intro other found hfound hheld
    rcases hback other found hfound hheld with ⟨before, hbefore, hold⟩
    exact hrecorded (h.recorded other before hbefore hold)
  · intro hpos
    exact hrecorded (h.kept (huses ▸ hpos))
  · intro first task₁ second task₂ h₁ held₁ h₂ held₂
    rcases hback first task₁ h₁ held₁ with ⟨before₁, hbefore₁, hold₁⟩
    rcases hback second task₂ h₂ held₂ with ⟨before₂, hbefore₂, hold₂⟩
    exact h.single first before₁ second before₂ hbefore₁ hold₁ hbefore₂ hold₂
  · intro other found hfound hheld
    rcases hback other found hfound hheld with ⟨before, hbefore, hold⟩
    exact huses.trans (h.pending other before hbefore hold)
  · exact huses ▸ h.once

/-- A nullifier that is in its set when it is added again is not new, so a request
that finds it new is the only one that carries it. -/
theorem Guarded.add (h : Guarded backend n system) {id : ℕ} {task' : Task P Q A B}
    {server : Server P Q L}
    (hkeep : system.server.redis.nullifiers.Unexpired system.server.clock n.1)
    (hnew : (system.server.redis.nullifiers.sadd system.server.clock n.1 n.2).1 = 1)
    (hset : server.redis.nullifiers =
      (system.server.redis.nullifiers.sadd system.server.clock n.1 n.2).2)
    (hverified : server.verified = system.server.verified) :
    Guarded backend n { system with
      server := server, tasks := Function.update system.tasks id (some task') } := by
  have hfresh : ¬system.server.redis.nullifiers.Recorded n.1 n.2 := by
    intro hrecorded
    rw [Store.sadd_fst_of_recorded hrecorded hkeep] at hnew
    exact absurd hnew (by decide)
  have huses : server.uses backend n = 0 := by
    have hnone : system.server.uses backend n = 0 :=
      Nat.eq_zero_of_not_pos fun hpos => hfresh (h.kept hpos)
    unfold Server.uses at hnone ⊢
    rw [hverified, hnone]
  have hrecorded : server.redis.nullifiers.Recorded n.1 n.2 := hset ▸ Store.recorded_sadd_self
  -- nobody held it before, so only the request that was moved can hold it
  have honly : ∀ other found, Function.update system.tasks id (some task') other = some found →
      found.Holds backend n → other = id := by
    intro other found hfound hheld
    rcases task_update hfound with ⟨hid, _⟩ | ⟨_, hsame⟩
    · exact hid
    · exact absurd (h.recorded other found hsame hheld) hfresh
  constructor
  · intro other found hfound hheld
    exact hrecorded
  · intro hpos
    exact hrecorded
  · intro first task₁ second task₂ h₁ held₁ h₂ held₂
    exact (honly first task₁ h₁ held₁).trans (honly second task₂ h₂ held₂).symm
  · intro other found hfound hheld
    exact huses
  · exact huses.trans_le (Nat.zero_le 1)

/-- The request that holds the nullifier is verified. -/
theorem Guarded.verify (h : Guarded backend n system) {id : ℕ} {task task' : Task P Q A B}
    {server : Server P Q L} (htask : system.tasks id = some task) (hheld : task.Holds backend n)
    (hset : server.redis.nullifiers = system.server.redis.nullifiers)
    (hverified : server.verified = (task.request, task.config) :: system.server.verified)
    (hreleased : ¬task'.phase.Holding) :
    Guarded backend n { system with
      server := server, tasks := Function.update system.tasks id (some task') } := by
  have huses : server.uses backend n = 1 := by
    have hnone : system.server.uses backend n = 0 := h.pending id task htask hheld
    unfold Server.uses at hnone ⊢
    rw [hverified, List.countP_cons_of_pos (by simp only [hheld.2, decide_true]), hnone]
  -- the one holder has let go of it
  have hnone : ∀ other found, Function.update system.tasks id (some task') other = some found →
      ¬found.Holds backend n := by
    intro other found hfound hstill
    rcases task_update hfound with ⟨_, rfl⟩ | ⟨hne, hsame⟩
    · exact hreleased hstill.1
    · exact hne (h.single other found id task hsame hstill htask hheld)
  constructor
  · intro other found hfound hstill
    exact absurd hstill (hnone other found hfound)
  · intro _
    rw [hset]
    exact h.recorded id task htask hheld
  · intro first task₁ second task₂ h₁ held₁ _ _
    exact absurd held₁ (hnone first task₁ h₁)
  · intro other found hfound hstill
    exact absurd hstill (hnone other found hfound)
  · exact huses.le

/-- A step of one request keeps the invariant. -/
theorem Guarded.advanceTask (h : Guarded backend n system) {id : ℕ} {env : Env}
    {task : Task P Q A B} (htask : system.tasks id = some task)
    (hkeep : ∀ member, task.phase = .addNullifier → env.link.runs = true →
      backend.checkNullifier task.config task.request = .ok (n.1, member) →
      system.server.redis.nullifiers.Unexpired system.server.clock n.1) :
    Guarded backend n (system.advanceTask backend deadlineOf id env task) := by
  rcases advanceTask_effect backend deadlineOf system id env task with ⟨next, heffect, hnext⟩
  rw [hnext]
  -- what the step did decides which of the three lemmas applies
  cases heffect with
  | keeps hset hverified _ hholding =>
      refine h.update (fun hrec => ?_) (by unfold Server.uses; rw [hverified])
        fun hheld => ⟨task, htask, hholding hheld.1, hheld.2⟩
      rcases hset with hset | ⟨key, ttl, hset⟩
      · exact hset ▸ hrec
      · exact hset ▸ hrec.expire _
  | adds key member hstage hchecked hruns hset hverified _ hholding =>
      have hown : backend.nullifier task.config task.request = (key, member) :=
        checkNullifier_ok hchecked
      -- the request may have added another nullifier, or found this one used
      by_cases hheld : next.2.Holding ∧ (key, member) = n
      · rcases hheld with ⟨hhold, rfl⟩
        exact h.add (hkeep member hstage hruns hchecked) (hholding hhold) hset hverified
      · refine h.update (fun hrec => ?_) (by unfold Server.uses; rw [hverified])
          fun hnext => absurd ⟨hnext.1, hown.symm.trans hnext.2⟩ hheld
        rw [hset]
        exact hrec.sadd fun hkey => hkey ▸ hkeep member hstage hruns (hkey ▸ hchecked)
  | verifies now coins response hstage _ hset hverified hreleased =>
      -- a verified request that carries another nullifier does not count
      by_cases hown : backend.nullifier task.config task.request = n
      · have hheld : task.Holds backend n := ⟨hstage ▸ trivial, hown⟩
        exact h.verify htask hheld hset hverified hreleased
      · refine h.update (fun hrec => hset ▸ hrec) ?_ fun hnext => absurd hnext.2 hown
        unfold Server.uses
        rw [hverified, List.countP_cons_of_neg (by simp only [hown, decide_false,
          Bool.false_eq_true, not_false_iff])]

/-- Every step keeps the invariant, if the nullifier's set has not expired when
something is added to it. -/
theorem guarded_step (h : Guarded backend n system) {action : Action P Q M}
    (hkept : system.KeyKept backend n.1 action) :
    Guarded backend n (system.step backend deadlineOf action) := by
  have hmoves := step_moves backend deadlineOf system action
  generalize system.step backend deadlineOf action = next at hmoves ⊢
  cases hmoves with
  | stays => exact h
  | arrives id request fresh =>
      exact h.update (fun hrec => hrec) rfl fun hheld => absurd hheld.1 not_false
  | advances id env task htask =>
      refine h.advanceTask htask fun member hstage hruns hchecked => hkept ?_
      simp only [System.addsTo, htask, hstage, hruns, hchecked]
  -- neither the sets, the history nor the requests are touched
  | ticks seconds => exact ⟨h.recorded, h.kept, h.single, h.pending, h.once⟩
  | reconfigures config => exact ⟨h.recorded, h.kept, h.single, h.pending, h.once⟩
  | mints token => exact ⟨h.recorded, h.kept, h.single, h.pending, h.once⟩

theorem guarded_start (bloom : BloomFilter) (ledger : L) (config : ServerConfig) :
    Guarded backend n (System.start bloom ledger config) := by
  constructor
  · intro id task htask
    exact nomatch htask
  · intro hpos
    exact absurd hpos (by simp only [System.start, Server.uses, List.countP_nil, lt_irrefl,
      not_false_iff])
  · intro id task other task' htask
    exact nomatch htask
  · intro id task htask
    exact nomatch htask
  · simp only [System.start, Server.uses, List.countP_nil, Nat.zero_le]

/-- The invariant holds where a run ends. -/
theorem guarded_run (h : Guarded backend n system) {actions : List (Action P Q M)}
    (hkept : Along (System.step backend deadlineOf) (System.KeyKept backend n.1) system actions) :
    Guarded backend n (run (System.step backend deadlineOf) system actions) :=
  run_invariant (I := Guarded backend n) (fun _ _ hinv hholds => guarded_step hinv hholds) h hkept

/-- Two verified requests are never about one nullifier. -/
theorem verified_once (bloom : BloomFilter) (ledger : L) (config : ServerConfig)
    {actions : List (Action P Q M)}
    (hkept : Along (System.step backend deadlineOf) (System.KeyKept backend n.1)
      (System.start bloom ledger config) actions) :
    (run (System.step backend deadlineOf) (System.start bloom ledger config)
      actions).server.uses backend n ≤ 1 :=
  (guarded_run (guarded_start bloom ledger config) hkept).once

end Invariant

end Ebut
