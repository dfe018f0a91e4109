import Ebut.Core.ResponseFormat
import Ebut.Theory.Failure
import Ebut.Theory.Nullifiers

/-!
# One Response for Each Nullifier

Whatever requests arrive and however they interleave, all responses that are ever returned
for one nullifier are one response, and a request that is made again while its cache entry is
alive gets that response and changes nothing.

A receipt is a verified request with the response it was given. `Issued` says that the
receipts account for everything that carries a response: every cache entry is the response of
a receipt under the key of its request, and so is every response that a request has in hand
or has returned. A step makes at most one receipt, and only for a proof it verifies; since
two verified requests never carry one nullifier, a nullifier has one receipt at most.

## Main definitions

* `Request.call`: The arguments that the cache key is computed from.
* `Backend.serial`: What a response is issued for.
* `CacheEffect`: What a step of a request can do to the cache and to responses.
* `Receipt`, `Issued`: The responses given so far, and the invariant.
* `ReadsItsOwn`: What is written into the cache is read back.

## Theorems

* `advance_cacheEffect`: Every step has one of the effects.
* `issued_step`: Every step keeps the invariant.
* `receipt_unique`: A nullifier has one receipt.
* `issued_once`: One response for each nullifier, and a retry that changes nothing.
-/

namespace Ebut

open KeyStore LittleEndian Transition

variable {G1 P Q A B L M : Type}

/-- What the cache key of a request is computed from: the Merkle arguments are not in it. -/
def Request.call : Request P Q → P ⊕ Q × Bytes 16
  | .refresh proof => .inl proof
  | .spend proof nonce _ _ => .inr (proof, nonce)

/-- What a response is issued for: `n_t`, or `k_cur` with `t_issue`. -/
def Backend.serial (backend : Backend G1 P Q A B L M) : Request P Q → G1 ⊕ Scalar × UInt32
  | .refresh proof => .inl (backend.nT proof)
  | .spend proof _ _ _ => .inr (backend.kCur proof, backend.tIssue proof)

/-- The response is of the request's kind. -/
def Response.Answers : Response A B → Request P Q → Prop
  | .refresh _, .refresh _ => True
  | .spend _, .spend _ _ _ _ => True
  | _, _ => False

/-- The response that a request has in hand or has returned. -/
def Phase.response? : Phase A B → Option (Response A B)
  | .storeCached response => some response
  | .returned response => some response
  | _ => none

section Keys

variable {backend : Backend G1 P Q A B L M} {request request' : Request P Q}

theorem idemKey_of_call (h : request.call = request'.call) :
    backend.idemKey request = backend.idemKey request' := by
  cases request <;> cases request' <;> cases h <;> rfl

theorem serial_of_call (h : request.call = request'.call) :
    backend.serial request = backend.serial request' := by
  cases request <;> cases request' <;> cases h <;> rfl

theorem refresh_of_call {proof : P} (h : Request.call (.refresh proof) = request.call) :
    request = .refresh proof := by
  cases request with
  | refresh proof' => rw [Sum.inl.inj h]
  | spend proof' nonce merkleProof merkleRoot => exact nomatch h

theorem answers_of_call {response : Response A B} (hans : response.Answers request)
    (h : request.call = request'.call) : response.Answers request' := by
  cases request <;> cases request' <;> cases h <;> cases response <;> exact hans

/-- A response that verification makes is of the request's kind. -/
theorem answers_of_verify {ledger ledger' : L} {epoch : UInt32} {now : UInt64}
    {coins : Scalar × Scalar} {response : Response A B}
    (h : backend.verify ledger request epoch now coins = .ok (response, ledger')) :
    response.Answers request := by
  cases request with
  | refresh proof =>
      rcases bind_ok.mp h with ⟨_, _, hresponse⟩
      cases hresponse
      trivial
  | spend proof nonce merkleProof merkleRoot =>
      rcases bind_ok.mp h with ⟨_, _, hresponse⟩
      cases hresponse
      trivial

/-- Requests with one serial add one nullifier, if they are spends or of one epoch. -/
theorem nullifier_of_serial {config config' : ServerConfig}
    (h : backend.serial request = backend.serial request')
    (hepoch : ∀ proof, request = .refresh proof → config.currentEpoch = config'.currentEpoch) :
    backend.nullifier config request = backend.nullifier config' request' := by
  cases request with
  | refresh proof =>
      cases request' with
      | refresh proof' =>
          have hnT : backend.nT proof = backend.nT proof' := Sum.inl.inj h
          simp only [Backend.nullifier, checkEpochNullifier, hnT, hepoch proof rfl]
      | spend proof' nonce merkleProof merkleRoot => exact nomatch h
  | spend proof nonce merkleProof merkleRoot =>
      cases request' with
      | refresh proof' => exact nomatch h
      | spend proof' nonce' merkleProof' merkleRoot' =>
          have hpair := Sum.inr.inj h
          rw [Prod.mk.injEq] at hpair
          simp only [Backend.nullifier, hpair.1, hpair.2]

end Keys

section Effects

variable (backend : Backend G1 P Q A B L M) (config : ServerConfig) (server : Server P Q L)
  (request : Request P Q) (phase : Phase A B)

/-- What a step of a request can do to the cache, to the history and to the response the
request has. -/
inductive CacheEffect (next : Server P Q L × Phase A B) : Prop where
  /-- No response is made or found. -/
  | silent
      (idempotency : next.1.redis.idempotency = server.redis.idempotency)
      (verified : next.1.verified = server.verified)
      (response : next.2.response? = none ∨ next.2 = phase)
  /-- A response is read from the cache. -/
  | finds (entry : Entry (List UInt8)) (response : Response A B)
      (found : server.redis.idempotency (backend.idemKey request) = some entry)
      (read : backend.deserialize request entry.value = .ok response)
      (unchanged : next = (server, .returned response))
  /-- A response is made. -/
  | makes (response : Response A B)
      (answers : response.Answers request)
      (idempotency : next.1.redis.idempotency = server.redis.idempotency)
      (verified : next.1.verified = (request, config) :: server.verified)
      (stage : next.2 = .storeCached response)
  /-- A response is cached, and is returned unless the reply was lost. -/
  | stores (response : Response A B) (entry : Entry (List UInt8))
      (stage : phase = .storeCached response)
      (written : backend.serialize response = .ok entry.value)
      (idempotency : next.1.redis.idempotency =
        Function.update server.redis.idempotency (backend.idemKey request) (some entry))
      (verified : next.1.verified = server.verified)
      (returned : next.2 = .returned response ∨ next.2.response? = none)

variable {backend config server request phase} (deadlineOf : ℕ → UInt64 → Option ℕ) (env : Env)

theorem afterCache_response? :
    (afterCache backend request).response? = none := by
  cases request with
  | refresh proof => rfl
  | spend proof nonce merkleProof merkleRoot =>
      by_cases hzero : backend.kCur proof = 0
      · simp only [afterCache, if_pos hzero, Phase.response?]
      · simp only [afterCache, if_neg hzero, Phase.response?]

theorem getCached_cacheEffect :
    CacheEffect backend config server request phase
      (server, getCached backend env server request) := by
  unfold getCached
  simp only
  split
  · exact .silent rfl rfl (Or.inl rfl)
  · exact .silent rfl rfl (Or.inl afterCache_response?)
  · rename_i cached hfound
    split
    · exact .silent rfl rfl (Or.inl rfl)
    · rename_i response hread
      -- the look-up was answered, so the entry is in the store
      have hget : server.redis.idempotency.get server.clock (backend.idemKey request) =
          some cached := by
        rcases env with ⟨link, unixTime, panicked, coins⟩
        cases link with
        | up => exact Except.ok.inj hfound
        | down msg => exact nomatch hfound
        | replyLost msg => exact nomatch hfound
      rcases Option.map_eq_some_iff.mp hget with ⟨entry, hlive, hvalue⟩
      exact .finds entry response (Store.of_live hlive) (hvalue ▸ hread) rfl

theorem consumeNonce_cacheEffect (nonce : Bytes 16) (merkleProof : Option MerkleProof)
    (merkleRoot : Option (Bytes 32)) : CacheEffect backend config server request phase
      (consumeNonce backend deadlineOf config env server nonce merkleProof merkleRoot) := by
  unfold consumeNonce verifyAndConsume
  split
  · refine .silent rfl rfl (Or.inl ?_)
    split <;> rfl
  · split
    · exact .silent rfl rfl (Or.inl rfl)
    · refine .silent rfl rfl (Or.inl ?_)
      split <;> rfl

theorem addNullifier_cacheEffect : CacheEffect backend config server request phase
    (addNullifier backend config env server request) := by
  unfold addNullifier
  split
  · exact .silent rfl rfl (Or.inl rfl)
  · split <;> exact .silent rfl rfl (Or.inl rfl)

theorem expireNullifier_cacheEffect (added : ℕ) : CacheEffect backend config server request phase
    (expireNullifier backend deadlineOf config env server request added) := by
  unfold expireNullifier
  rcases backend.checkNullifier config request with e | ⟨key, member⟩
  · exact .silent rfl rfl (Or.inl rfl)
  · rcases nullifierTtl config with e | ttl
    · exact .silent rfl rfl (Or.inl rfl)
    · rcases env with ⟨link, unixTime, panicked, coins⟩
      cases link with
      | up =>
          refine .silent rfl rfl (Or.inl ?_)
          by_cases hadded : added = 1
          · simp only [Link.command, if_pos hadded, Phase.response?]
          · simp only [Link.command, if_neg hadded, Phase.response?]
      | down msg => exact .silent rfl rfl (Or.inl rfl)
      | replyLost msg => exact .silent rfl rfl (Or.inl rfl)

theorem readClock_response? : (readClock (A := A) (B := B) env).response? = none := by
  unfold readClock
  split <;> rfl

theorem verifyProof_cacheEffect (now : UInt64) : CacheEffect backend config server request phase
    (verifyProof backend config env server request now) := by
  unfold verifyProof
  split
  · exact .silent rfl rfl (Or.inl rfl)
  · split
    · exact .silent rfl rfl (Or.inl rfl)
    · rename_i response ledger haccepted
      exact .makes response (answers_of_verify haccepted) rfl rfl rfl

theorem storeCached_cacheEffect (response : Response A B) :
    CacheEffect backend config server request (.storeCached response)
      (storeCached backend deadlineOf config env server request response) := by
  unfold storeCached
  split
  · exact .silent rfl rfl (Or.inl rfl)
  · rename_i bytes hwritten
    rcases env with ⟨link, unixTime, panicked, coins⟩
    cases link with
    | up => exact .stores response _ rfl hwritten rfl rfl (Or.inl rfl)
    | down msg => exact .silent rfl rfl (Or.inl rfl)
    -- the response is cached although the client does not get it
    | replyLost msg => exact .stores response _ rfl hwritten rfl rfl (Or.inr rfl)

/-- Every step of a request has one of the effects. -/
theorem advance_cacheEffect : CacheEffect backend config server request phase
    (advance backend deadlineOf config env server request phase) := by
  cases phase with
  | getCached => exact getCached_cacheEffect env
  | consumeNonce nonce merkleProof merkleRoot =>
      exact consumeNonce_cacheEffect deadlineOf env nonce merkleProof merkleRoot
  | insertNonce nonce => exact .silent rfl rfl (Or.inl rfl)
  | addNullifier => exact addNullifier_cacheEffect env
  | expireNullifier added => exact expireNullifier_cacheEffect deadlineOf env added
  | readClock => exact .silent rfl rfl (Or.inl (readClock_response? env))
  | verify now => exact verifyProof_cacheEffect env now
  | storeCached response => exact storeCached_cacheEffect deadlineOf env response
  | returned response => exact .silent rfl rfl (Or.inr rfl)
  | failed stage e => exact .silent rfl rfl (Or.inr rfl)

end Effects

/-- A verified request with the response it was given. -/
structure Receipt (P Q A B : Type) where
  request : Request P Q
  config : ServerConfig
  response : Response A B

/-- A response that was written for a request is read back for it. -/
def ReadsItsOwn (backend : Backend G1 P Q A B L M) : Prop :=
  ∀ (request : Request P Q) (response : Response A B) (bytes : List UInt8),
    response.Answers request → backend.serialize response = .ok bytes →
      backend.deserialize request bytes = .ok response

/-- The digests of the requests are free of collisions. -/
def DigestsApart (backend : Backend G1 P Q A B L M) (sent : Request P Q → Prop) : Prop :=
  ∀ request request', sent request → sent request' →
    backend.idemKey request = backend.idemKey request' → request.call = request'.call

/-- The receipts account for every response that is cached, in hand or returned. -/
structure Issued (backend : Backend G1 P Q A B L M) (sent : Request P Q → Prop)
    (receipts : List (Receipt P Q A B)) (system : System P Q A B L) : Prop where
  history : receipts.map (fun receipt => (receipt.request, receipt.config)) =
    system.server.verified
  sound : ∀ receipt ∈ receipts, sent receipt.request ∧ receipt.response.Answers receipt.request
  arrived : ∀ id task, system.tasks id = some task → sent task.request
  /-- A cache entry is the response of a receipt. -/
  cached : ∀ key entry, system.server.redis.idempotency key = some entry →
    ∃ receipt ∈ receipts, backend.idemKey receipt.request = key ∧
      backend.serialize receipt.response = .ok entry.value
  /-- So is a response that a request has. -/
  answered : ∀ id task response, system.tasks id = some task →
    task.phase.response? = some response →
      ∃ receipt ∈ receipts, receipt.request.call = task.request.call ∧
        receipt.response = response
  /-- A response that was returned has been cached. -/
  stored : ∀ id task response, system.tasks id = some task → task.phase = .returned response →
    ∃ entry, system.server.redis.idempotency (backend.idemKey task.request) = some entry

section Invariant

variable {backend : Backend G1 P Q A B L M} {deadlineOf : ℕ → UInt64 → Option ℕ}
  {sent : Request P Q → Prop} {receipts : List (Receipt P Q A B)} {system : System P Q A B L}

/-- The invariant of a system in which one request was moved on: what was cached stays so, and
the receipts account for what the request has and for the cache. -/
theorem Issued.update (h : Issued backend sent receipts system) {id : ℕ} {task : Task P Q A B}
    {server : Server P Q L} {receipts' : List (Receipt P Q A B)} (hsub : receipts ⊆ receipts')
    (hhistory : receipts'.map (fun receipt => (receipt.request, receipt.config)) =
      server.verified)
    (hsound : ∀ receipt ∈ receipts',
      sent receipt.request ∧ receipt.response.Answers receipt.request)
    (hsent : sent task.request)
    (hcached : ∀ key entry, server.redis.idempotency key = some entry →
      system.server.redis.idempotency key = some entry ∨
        ∃ receipt ∈ receipts', backend.idemKey receipt.request = key ∧
          backend.serialize receipt.response = .ok entry.value)
    (hkeys : ∀ key entry, system.server.redis.idempotency key = some entry →
      ∃ entry', server.redis.idempotency key = some entry')
    (hanswered : ∀ response, task.phase.response? = some response →
      ∃ receipt ∈ receipts', receipt.request.call = task.request.call ∧
        receipt.response = response)
    (hstored : ∀ response, task.phase = .returned response →
      ∃ entry, server.redis.idempotency (backend.idemKey task.request) = some entry) :
    Issued backend sent receipts' { system with
      server := server, tasks := Function.update system.tasks id (some task) } := by
  refine ⟨hhistory, hsound, forall_task_update hsent h.arrived, ?_, ?_, ?_⟩
  · intro key entry hentry
    rcases hcached key entry hentry with hold | hnew
    · rcases h.cached key entry hold with ⟨receipt, hmem, hreceipt⟩
      exact ⟨receipt, hsub hmem, hreceipt⟩
    · exact hnew
  · intro other found response hfound hhas
    rcases task_update hfound with ⟨_, rfl⟩ | ⟨_, hsame⟩
    · exact hanswered response hhas
    · rcases h.answered other found response hsame hhas with ⟨receipt, hmem, hreceipt⟩
      exact ⟨receipt, hsub hmem, hreceipt⟩
  · intro other found response hfound hreturned
    rcases task_update hfound with ⟨_, rfl⟩ | ⟨_, hsame⟩
    · exact hstored response hreturned
    · rcases h.stored other found response hsame hreturned with ⟨entry, hentry⟩
      exact hkeys _ entry hentry

section Advance

variable {id : ℕ} {task : Task P Q A B} {server : Server P Q L} {phase : Phase A B}
  {response : Response A B} {entry : Entry (List UInt8)}

/-- A request that has ended stays as it is, and any other has no response. -/
theorem Issued.silent (h : Issued backend sent receipts system)
    (htask : system.tasks id = some task)
    (hcache : server.redis.idempotency = system.server.redis.idempotency)
    (hverified : server.verified = system.server.verified)
    (hresponse : phase.response? = none ∨ phase = task.phase) :
    Issued backend sent receipts { system with
      server := server, tasks := Function.update system.tasks id (some { task with phase }) } := by
  refine h.update (List.Subset.refl _) (h.history.trans hverified.symm) h.sound
    (h.arrived id task htask) ?_ ?_ ?_ ?_
  · intro key entry hentry
    exact Or.inl (hcache ▸ hentry)
  · intro key entry hentry
    exact ⟨entry, hcache ▸ hentry⟩
  · intro response hhas
    rcases hresponse with hnone | rfl
    · exact nomatch hnone.symm.trans hhas
    · exact h.answered id task response htask hhas
  · intro response hreturned
    rw [hcache]
    rcases hresponse with hnone | rfl
    · exact nomatch hnone.symm.trans (congrArg Phase.response? hreturned)
    · exact h.stored id task response htask hreturned

/-- The cache entry of a request is the response of a receipt whose request is identical. -/
theorem Issued.found (h : Issued backend sent receipts system) (hreads : ReadsItsOwn backend)
    (hapart : DigestsApart backend sent) (htask : system.tasks id = some task)
    (hfound : system.server.redis.idempotency (backend.idemKey task.request) = some entry) :
    ∃ receipt ∈ receipts, receipt.request.call = task.request.call ∧
      backend.deserialize task.request entry.value = .ok receipt.response := by
  rcases h.cached _ entry hfound with ⟨receipt, hmem, hkey, hwritten⟩
  rcases h.sound receipt hmem with ⟨hsent, hanswers⟩
  have hcall := hapart _ _ hsent (h.arrived id task htask) hkey
  exact ⟨receipt, hmem, hcall, hreads _ _ _ (answers_of_call hanswers hcall) hwritten⟩

/-- A response that is read from the cache is one that was issued. -/
theorem Issued.finds (h : Issued backend sent receipts system) (hreads : ReadsItsOwn backend)
    (hapart : DigestsApart backend sent) (htask : system.tasks id = some task)
    (hfound : system.server.redis.idempotency (backend.idemKey task.request) = some entry)
    (hread : backend.deserialize task.request entry.value = .ok response) :
    Issued backend sent receipts { system with
      tasks := Function.update system.tasks id
        (some { task with phase := .returned response }) } := by
  refine h.update (List.Subset.refl _) h.history h.sound (h.arrived id task htask)
    (fun _ _ hentry => Or.inl hentry) (fun _ entry hentry => ⟨entry, hentry⟩) ?_ ?_
  · intro response' hhas
    rcases h.found hreads hapart htask hfound with ⟨receipt, hmem, hcall, hown⟩
    have hresponse : receipt.response = response := Except.ok.inj (hown.symm.trans hread)
    exact ⟨receipt, hmem, hcall, hresponse.trans (Option.some.inj hhas)⟩
  · intro response' _
    exact ⟨entry, hfound⟩

/-- A response that is made has a new receipt. -/
theorem Issued.makes (h : Issued backend sent receipts system)
    (htask : system.tasks id = some task) (hanswers : response.Answers task.request)
    (hcache : server.redis.idempotency = system.server.redis.idempotency)
    (hverified : server.verified = (task.request, task.config) :: system.server.verified) :
    Issued backend sent (⟨task.request, task.config, response⟩ :: receipts) { system with
      server := server
      tasks := Function.update system.tasks id
        (some { task with phase := .storeCached response }) } := by
  have hsent : sent task.request := h.arrived id task htask
  refine h.update (List.subset_cons_self _ _) ?_ ?_ hsent ?_ ?_ ?_ ?_
  · rw [List.map_cons, h.history, hverified]
  · rw [List.forall_mem_cons]
    exact ⟨⟨hsent, hanswers⟩, h.sound⟩
  · intro key entry hentry
    exact Or.inl (hcache ▸ hentry)
  · intro key entry hentry
    exact ⟨entry, hcache ▸ hentry⟩
  · intro response' hhas
    exact ⟨_, List.mem_cons_self, rfl, Option.some.inj hhas⟩
  · intro response' hreturned
    cases hreturned

/-- A response that is cached was issued when it was made. -/
theorem Issued.stores (h : Issued backend sent receipts system)
    (htask : system.tasks id = some task) (hstage : task.phase = .storeCached response)
    (hwritten : backend.serialize response = .ok entry.value)
    (hcache : server.redis.idempotency = Function.update system.server.redis.idempotency
      (backend.idemKey task.request) (some entry))
    (hverified : server.verified = system.server.verified)
    (hreturned : phase = .returned response ∨ phase.response? = none) :
    Issued backend sent receipts { system with
      server := server, tasks := Function.update system.tasks id (some { task with phase }) } := by
  rcases h.answered id task response htask (hstage ▸ rfl) with ⟨receipt, hmem, hcall, hresponse⟩
  have hentry : server.redis.idempotency (backend.idemKey task.request) = some entry := by
    rw [hcache, Function.update_self]
  refine h.update (List.Subset.refl _) (h.history.trans hverified.symm) h.sound
    (h.arrived id task htask) ?_ ?_ ?_ fun _ _ => ⟨entry, hentry⟩
  · intro key found hfound
    by_cases hkey : key = backend.idemKey task.request
    · -- the entry that was written, for the receipt of its response
      subst hkey
      have hsame : entry = found := Option.some.inj (hentry.symm.trans hfound)
      exact Or.inr ⟨receipt, hmem, idemKey_of_call hcall, by rw [hresponse, ← hsame, hwritten]⟩
    · rw [hcache, Function.update_of_ne hkey] at hfound
      exact Or.inl hfound
  · intro key found hfound
    by_cases hkey : key = backend.idemKey task.request
    · exact ⟨entry, hkey ▸ hentry⟩
    · exact ⟨found, by rw [hcache, Function.update_of_ne hkey, hfound]⟩
  · intro response' hhas
    rcases hreturned with rfl | hnone
    · exact ⟨receipt, hmem, hcall, hresponse.trans (Option.some.inj hhas)⟩
    · exact nomatch hnone.symm.trans hhas

/-- A step of one request keeps the invariant, with one more receipt if it verifies a
proof. -/
theorem Issued.advanceTask (h : Issued backend sent receipts system)
    (hreads : ReadsItsOwn backend) (hapart : DigestsApart backend sent) {env : Env}
    (htask : system.tasks id = some task) :
    ∃ receipts', Issued backend sent receipts'
      (system.advanceTask backend deadlineOf id env task) := by
  have heffect : CacheEffect backend task.config system.server task.request task.phase
      (advance backend deadlineOf task.config env system.server task.request task.phase) :=
    advance_cacheEffect deadlineOf env
  unfold System.advanceTask
  simp only
  generalize advance backend deadlineOf task.config env system.server task.request task.phase =
    next at heffect
  rcases next with ⟨server, phase⟩
  -- what the step did decides which of the four lemmas applies
  cases heffect with
  | silent hcache hverified hresponse =>
      exact ⟨receipts, h.silent htask hcache hverified hresponse⟩
  | finds entry response hfound hread hnext =>
      cases hnext
      exact ⟨receipts, h.finds hreads hapart htask hfound hread⟩
  | makes response hanswers hcache hverified hstage =>
      rcases hstage with rfl
      exact ⟨_, h.makes htask hanswers hcache hverified⟩
  | stores response entry hstage hwritten hcache hverified hreturned =>
      exact ⟨receipts, h.stores htask hstage hwritten hcache hverified hreturned⟩

end Advance

/-- Every step keeps the invariant, if what arrives is one of the requests it is about. -/
theorem issued_step (hreads : ReadsItsOwn backend) (hapart : DigestsApart backend sent)
    (h : ∃ receipts, Issued backend sent receipts system) {action : Action P Q M}
    (hsent : ∀ id request, action = .arrive id request → sent request) :
    ∃ receipts, Issued backend sent receipts (system.step backend deadlineOf action) := by
  rcases h with ⟨receipts, h⟩
  have hmoves := step_moves backend deadlineOf system action
  generalize system.step backend deadlineOf action = next at hmoves ⊢
  cases hmoves with
  | stays => exact ⟨receipts, h⟩
  | arrives id request fresh =>
      refine ⟨receipts, h.update (List.Subset.refl _) h.history h.sound (hsent id request rfl)
        (fun _ _ hentry => Or.inl hentry) (fun _ entry hentry => ⟨entry, hentry⟩) ?_ ?_⟩
      · intro response hhas
        cases hhas
      · intro response hreturned
        cases hreturned
  | advances id env task htask => exact h.advanceTask hreads hapart htask
  -- neither the cache, the history nor the requests are touched
  | ticks seconds =>
      exact ⟨receipts, h.history, h.sound, h.arrived, h.cached, h.answered, h.stored⟩
  | reconfigures config =>
      exact ⟨receipts, h.history, h.sound, h.arrived, h.cached, h.answered, h.stored⟩
  | mints token =>
      exact ⟨receipts, h.history, h.sound, h.arrived, h.cached, h.answered, h.stored⟩

theorem issued_start (bloom : BloomFilter) (ledger : L) (config : ServerConfig) :
    Issued backend sent [] (System.start bloom ledger config) where
  history := rfl
  sound := fun _ hmem => absurd hmem List.not_mem_nil
  arrived := fun _ _ htask => nomatch htask
  cached := fun _ _ hentry => nomatch hentry
  answered := fun _ _ _ htask => nomatch htask
  stored := fun _ _ _ htask => nomatch htask

/-- The request is one of those that arrive. -/
def Arrives (actions : List (Action P Q M)) (request : Request P Q) : Prop :=
  ∃ id, Action.arrive id request ∈ actions

/-- The invariant holds where a run ends. -/
theorem issued_run (hreads : ReadsItsOwn backend) (bloom : BloomFilter) (ledger : L)
    (config : ServerConfig) {actions : List (Action P Q M)}
    (hapart : DigestsApart backend (Arrives actions)) :
    ∃ receipts, Issued backend (Arrives actions) receipts
      (run (System.step backend deadlineOf) (System.start bloom ledger config) actions) := by
  have hsent : ∀ action ∈ actions, ∀ id request, action = Action.arrive id request →
      Arrives actions request := by
    intro action hmem id request harrive
    exact ⟨id, harrive ▸ hmem⟩
  exact run_invariant (I := fun system => ∃ receipts,
    Issued backend (Arrives actions) receipts system)
    (fun _ _ hinv harrives => issued_step hreads hapart hinv harrives)
    ⟨[], issued_start bloom ledger config⟩ (along_of_forall hsent)

/-- Two receipts of a nullifier that was used once are one. -/
theorem receipt_unique (h : Issued backend sent receipts system) {n : Nullifier}
    (honce : system.server.uses backend n ≤ 1) {receipt receipt' : Receipt P Q A B}
    (hmem : receipt ∈ receipts) (hmem' : receipt' ∈ receipts)
    (hn : backend.nullifier receipt.config receipt.request = n)
    (hn' : backend.nullifier receipt'.config receipt'.request = n) : receipt = receipt' := by
  -- the receipts of the nullifier are as many as its uses, and both receipts are among them
  let carries : Receipt P Q A B → Bool := fun receipt =>
    decide (backend.nullifier receipt.config receipt.request = n)
  have hlength : (receipts.filter carries).length ≤ 1 := by
    unfold Server.uses at honce
    rw [← h.history, List.countP_map, List.countP_eq_length_filter] at honce
    exact honce
  have hfound : receipt ∈ receipts.filter carries :=
    List.mem_filter.mpr ⟨hmem, decide_eq_true hn⟩
  have hfound' : receipt' ∈ receipts.filter carries :=
    List.mem_filter.mpr ⟨hmem', decide_eq_true hn'⟩
  cases hlist : receipts.filter carries with
  | nil =>
      rw [hlist] at hfound
      exact absurd hfound List.not_mem_nil
  | cons only others =>
      rw [hlist] at hfound hfound' hlength
      have hnone : others = [] := by
        rw [List.length_cons] at hlength
        exact List.length_eq_zero_iff.mp (by omega)
      subst hnone
      exact (List.mem_singleton.mp hfound).trans (List.mem_singleton.mp hfound').symm

end Invariant

section Epoch

/-- A change of configuration leaves the epoch as it is. -/
def System.KeepsEpoch (system : System P Q A B L) : Action P Q M → Prop
  | .reconfigure config => config.currentEpoch = system.config.currentEpoch
  | _ => True

/-- Every request, under way or verified, is of one epoch. -/
structure InEpoch (epoch : UInt32) (system : System P Q A B L) : Prop where
  current : system.config.currentEpoch = epoch
  tasks : ∀ id task, system.tasks id = some task → task.config.currentEpoch = epoch
  verified : ∀ entry ∈ system.server.verified, entry.2.currentEpoch = epoch

variable {backend : Backend G1 P Q A B L M} {deadlineOf : ℕ → UInt64 → Option ℕ}
  {system : System P Q A B L} {epoch : UInt32}

/-- A step of a request verifies that request or none. -/
theorem CacheEffect.history {config : ServerConfig} {server : Server P Q L}
    {request : Request P Q} {phase : Phase A B} {next : Server P Q L × Phase A B}
    (h : CacheEffect backend config server request phase next) :
    next.1.verified = server.verified ∨
      next.1.verified = (request, config) :: server.verified := by
  cases h with
  | silent _ hverified _ => exact Or.inl hverified
  | finds _ _ _ _ hnext => exact Or.inl (hnext ▸ rfl)
  | makes _ _ _ hverified _ => exact Or.inr hverified
  | stores _ _ _ _ _ hverified _ => exact Or.inl hverified

theorem inEpoch_step (h : InEpoch epoch system) {action : Action P Q M}
    (hkeeps : system.KeepsEpoch action) :
    InEpoch epoch (system.step backend deadlineOf action) := by
  have hmoves := step_moves backend deadlineOf system action
  generalize system.step backend deadlineOf action = next at hmoves ⊢
  cases hmoves with
  | stays => exact h
  | arrives id request fresh =>
      exact ⟨h.current, forall_task_update h.current h.tasks, h.verified⟩
  | advances id env task htask =>
      have hown : task.config.currentEpoch = epoch := h.tasks id task htask
      have heffect : CacheEffect backend task.config system.server task.request task.phase
          (advance backend deadlineOf task.config env system.server task.request
            task.phase) := advance_cacheEffect deadlineOf env
      refine ⟨h.current, forall_task_update hown h.tasks, fun entry hentry => ?_⟩
      rcases heffect.history with hverified | hverified
      · exact h.verified entry (hverified ▸ hentry)
      · rcases List.mem_cons.mp (hverified ▸ hentry) with rfl | hold
        · exact hown
        · exact h.verified entry hold
  | ticks seconds => exact ⟨h.current, h.tasks, h.verified⟩
  | reconfigures config => exact ⟨hkeeps.trans h.current, h.tasks, h.verified⟩
  | mints token => exact ⟨h.current, h.tasks, h.verified⟩

/-- A run in one epoch. -/
theorem inEpoch_run (bloom : BloomFilter) (ledger : L) {config : ServerConfig}
    {actions : List (Action P Q M)}
    (hkeeps : Along (System.step backend deadlineOf) System.KeepsEpoch
      (System.start bloom ledger config) actions) :
    InEpoch config.currentEpoch
      (run (System.step backend deadlineOf) (System.start bloom ledger config) actions) :=
  run_invariant (I := InEpoch config.currentEpoch)
    (fun _ _ hinv hkeeps => inEpoch_step hinv hkeeps)
    ⟨rfl, fun _ _ hnone => (nomatch hnone), fun _ hnone => absurd hnone List.not_mem_nil⟩ hkeeps

end Epoch

section Retry

variable {backend : Backend G1 P Q A B L M} {deadlineOf : ℕ → UInt64 → Option ℕ}
  {sent : Request P Q → Prop} {receipts : List (Receipt P Q A B)} {system : System P Q A B L}

/-- A receipt of a request's serial is the receipt of the request, if it is a spend or all
requests are of one epoch. -/
theorem receipt_of_serial (h : Issued backend sent receipts system)
    (honce : ∀ n, system.server.uses backend n ≤ 1) {request : Request P Q}
    (hepoch : ∀ proof, request = .refresh proof → ∃ epoch, InEpoch epoch system)
    {receipt receipt' : Receipt P Q A B} (hmem : receipt ∈ receipts)
    (hcall : receipt.request.call = request.call) (hmem' : receipt' ∈ receipts)
    (hserial : backend.serial receipt'.request = backend.serial request) :
    receipt' = receipt := by
  have hown : backend.serial receipt.request = backend.serial request := serial_of_call hcall
  refine (receipt_unique h (honce _) hmem hmem'
    (nullifier_of_serial (hown.trans hserial.symm) ?_) rfl).symm
  intro proof hrefresh
  rcases hepoch proof (refresh_of_call (hrefresh ▸ hcall)) with ⟨epoch, hin⟩
  have hof : ∀ found ∈ receipts, found.config.currentEpoch = epoch := by
    intro found hfound
    have hverified : (found.request, found.config) ∈ system.server.verified :=
      h.history ▸ List.mem_map_of_mem hfound
    exact hin.verified _ hverified
  rw [hof receipt hmem, hof receipt' hmem']

/-- A request that has returned takes no further step. -/
theorem run_advance_returned {id : ℕ} {task : Task P Q A B} {response : Response A B}
    (htask : system.tasks id = some task) (hreturned : task.phase = .returned response)
    (envs : List Env) :
    run (System.step backend deadlineOf) system (envs.map (Action.advance (M := M) id)) =
      system := by
  induction envs with
  | nil => rfl
  | cons env envs ih =>
      have hstep : system.step backend deadlineOf (.advance id env) = system := by
        rcases task with ⟨request, config, phase⟩
        subst hreturned
        simp only [System.step, htask, System.advanceTask, advance]
        rw [← htask, Function.update_eq_self]
      rw [List.map_cons, run, hstep, ih]

theorem getCached_of_cached {env : Env} {server : Server P Q L} {request : Request P Q}
    {entry : Entry (List UInt8)} {response : Response A B} (hup : env.link = .up)
    (hentry : server.redis.idempotency (backend.idemKey request) = some entry)
    (halive : server.redis.idempotency.Unexpired server.clock (backend.idemKey request))
    (hread : backend.deserialize request entry.value = .ok response) :
    getCached backend env server request = .returned response := by
  simp only [getCached, hup, Link.command, Store.get, Store.live_eq_of_unexpired halive, hentry,
    Option.map_some, hread]

/-- A request whose look-up finds the entry alive returns its response, and nothing else
happens however many steps it takes. -/
theorem run_advance_cached {id : ℕ} {task : Task P Q A B} {entry : Entry (List UInt8)}
    {response : Response A B} {env : Env} (htask : system.tasks id = some task)
    (hfirst : task.phase = .getCached) (hup : env.link = .up)
    (hentry : system.server.redis.idempotency (backend.idemKey task.request) = some entry)
    (halive : system.server.redis.idempotency.Unexpired system.server.clock
      (backend.idemKey task.request))
    (hread : backend.deserialize task.request entry.value = .ok response) (envs : List Env) :
    run (System.step backend deadlineOf) system
        ((env :: envs).map (Action.advance (M := M) id)) =
      { system with
        tasks := Function.update system.tasks id
          (some { task with phase := .returned response }) } := by
  have hget : getCached backend env system.server task.request = .returned response :=
    getCached_of_cached hup hentry halive hread
  have hstep : system.step backend deadlineOf (.advance id env) =
      { system with
        tasks := Function.update system.tasks id
          (some { task with phase := .returned response }) } := by
    simp only [System.step, htask, System.advanceTask, hfirst, advance, hget]
  rw [List.map_cons, run, hstep]
  exact run_advance_returned (Function.update_self ..) rfl envs

end Retry

section Wire

variable {backend : Backend G1 P Q (RefreshResponse G1) (SpendResponse G1) L M}
  {compress : G1 → Bytes 48} {fromCompressed : Bytes 48 → Option G1}

theorem readsBehind_g1 (hpoints : ∀ p, fromCompressed (compress p) = some p) :
    Bincode.ReadsBehind (g1Serde compress fromCompressed) [] (fun _ => []) fun _ => True := by
  refine Bincode.readsBehind_refine_of_read (fun p => ?_) (Bincode.readsBehind_array 48)
  simp only [g1OfWire, hpoints]

theorem readsBehind_actScalar :
    Bincode.ReadsBehind actScalarSerde [] (fun _ => []) fun _ => True := by
  refine Bincode.readsBehind_refine_of_read (fun s => ?_) (Bincode.readsBehind_array 32)
  simp only [actScalarOfWire, fromBytesLe_toBytes]

/-- A point and two scalars are read back. -/
theorem readsBehind_pointAndScalars (hpoints : ∀ p, fromCompressed (compress p) = some p) :
    Bincode.ReadsBehind ((g1Serde compress fromCompressed).pair
      (actScalarSerde.pair actScalarSerde)) [] (fun _ => []) fun _ => True :=
  (Bincode.readsBehind_pair (readsBehind_g1 hpoints)
    (Bincode.readsBehind_pair readsBehind_actScalar readsBehind_actScalar)).congr fun _ => by
      simp only [and_self]

theorem refreshResponse_readBack (hpoints : ∀ p, fromCompressed (compress p) = some p)
    (response : RefreshResponse G1) :
    (refreshResponseCodec compress fromCompressed).deserialize
      ((refreshResponseCodec compress fromCompressed).serialize response) = .ok response := by
  have hread : Bincode.ReadsBehind (refreshResponseCodec compress fromCompressed) []
      (fun _ => []) fun _ => True := by
    unfold refreshResponseCodec Bincode.Codec.iso
    exact Bincode.readsBehind_refine_of_read (fun _ => rfl) (readsBehind_pointAndScalars hpoints)
  exact (Bincode.deserialize_serialize_iff hread response).mpr trivial

theorem spendResponse_readBack (hpoints : ∀ p, fromCompressed (compress p) = some p)
    (response : SpendResponse G1) :
    (spendResponseCodec compress fromCompressed).deserialize
      ((spendResponseCodec compress fromCompressed).serialize response) = .ok response := by
  have hread : Bincode.ReadsBehind (spendResponseCodec compress fromCompressed) []
      (fun _ => []) fun _ => True := by
    unfold spendResponseCodec Bincode.Codec.iso
    exact Bincode.readsBehind_refine_of_read (fun _ => rfl) (readsBehind_pointAndScalars hpoints)
  exact (Bincode.deserialize_serialize_iff hread response).mpr trivial

/-- What is written into the cache is read back, as points are from their encoding. -/
theorem overWire_readsItsOwn (hpoints : ∀ p, fromCompressed (backend.compress p) = some p) :
    ReadsItsOwn (backend.overWire fromCompressed) := by
  intro request response bytes hanswers hwritten
  cases response with
  | refresh response =>
      cases request with
      | refresh proof =>
          cases hwritten
          simp only [Codec.deserialize, Backend.overWire, refreshResponse_readBack hpoints]
          rfl
      | spend proof nonce merkleProof merkleRoot => exact hanswers.elim
  | spend response =>
      cases request with
      | refresh proof => exact hanswers.elim
      | spend proof nonce merkleProof merkleRoot =>
          cases hwritten
          simp only [Codec.deserialize, Backend.overWire, spendResponse_readBack hpoints]
          rfl

end Wire

/-- When an action adds to a nullifier set, the set has not expired. -/
def System.KeysKept (backend : Backend G1 P Q A B L M) (system : System P Q A B L)
    (action : Action P Q M) : Prop :=
  ∀ key, system.KeyKept backend key action

instance (backend : Backend G1 P Q A B L M) (system : System P Q A B L) (action : Action P Q M) :
    Decidable (system.KeysKept backend action) :=
  match h : system.addsTo backend action with
  | some key =>
      decidable_of_iff (system.server.redis.nullifiers.Unexpired system.server.clock key)
        ⟨fun hkept _ hadds => Option.some.inj (h.symm.trans hadds) ▸ hkept,
          fun hall => hall key h⟩
  | none => isTrue fun _ hadds => nomatch h.symm.trans hadds

/-- When no nullifier set is added to after it has expired and no two requests share a digest,
all responses ever returned for a serial are one response. A request that is identical to one
that has returned, and whose look-up is answered while the cache entry is alive, returns the
same response and changes nothing else, however many steps it takes. For a refresh, whose
nullifier belongs to the epoch of the server, the run is of one epoch. -/
theorem issued_once (backend : Backend G1 P Q (RefreshResponse G1) (SpendResponse G1) L M)
    (fromCompressed : Bytes 48 → Option G1)
    (hpoints : ∀ p, fromCompressed (backend.compress p) = some p)
    (deadlineOf : ℕ → UInt64 → Option ℕ) (bloom : BloomFilter) (ledger : L)
    (config : ServerConfig) (actions : List (Action P Q M))
    (hkept : Along (System.step (backend.overWire fromCompressed) deadlineOf)
      (System.KeysKept (backend.overWire fromCompressed)) (System.start bloom ledger config)
      actions)
    (hapart : DigestsApart (backend.overWire fromCompressed) (Arrives actions))
    {final : System P Q (RefreshResponse G1) (SpendResponse G1) L}
    (hfinal : run (System.step (backend.overWire fromCompressed) deadlineOf)
      (System.start bloom ledger config) actions = final)
    {id other : ℕ} {task task' : Task P Q (RefreshResponse G1) (SpendResponse G1)}
    {response : Response (RefreshResponse G1) (SpendResponse G1)}
    (htask : final.tasks id = some task) (hreturned : task.phase = .returned response)
    (hother : final.tasks other = some task')
    (hepoch : ∀ proof, task.request = .refresh proof →
      Along (System.step (backend.overWire fromCompressed) deadlineOf) System.KeepsEpoch
        (System.start bloom ledger config) actions) :
    (∀ response', task'.phase = .returned response' →
      backend.serial task'.request = backend.serial task.request → response' = response) ∧
    (task'.phase = .getCached → task'.request.call = task.request.call →
      final.server.redis.idempotency.Unexpired final.server.clock
        (backend.idemKey task'.request) →
      ∀ env envs, env.link = .up →
        run (System.step (backend.overWire fromCompressed) deadlineOf) final
          ((env :: envs).map (Action.advance other)) =
        { final with
          tasks := Function.update final.tasks other
            (some { task' with phase := .returned response }) }) := by
  have hreads : ReadsItsOwn (backend.overWire fromCompressed) := overWire_readsItsOwn hpoints
  have honce : ∀ n, final.server.uses (backend.overWire fromCompressed) n ≤ 1 := by
    intro n
    exact hfinal ▸ verified_once bloom ledger config
      (Along.imp (fun _ _ hall => hall n.1) hkept)
  have hissued : ∃ receipts,
      Issued (backend.overWire fromCompressed) (Arrives actions) receipts final :=
    hfinal ▸ issued_run hreads bloom ledger config hapart
  rcases hissued with ⟨receipts, h⟩
  rcases h.answered id task response htask (hreturned ▸ rfl) with
    ⟨receipt, hmem, hcall, hresponse⟩
  have hin : ∀ proof, task.request = .refresh proof → ∃ epoch, InEpoch epoch final := by
    intro proof hrefresh
    exact ⟨config.currentEpoch, hfinal ▸ inEpoch_run bloom ledger (hepoch proof hrefresh)⟩
  constructor
  · intro response' hreturned' hserial
    rcases h.answered other task' response' hother (hreturned' ▸ rfl) with
      ⟨receipt', hmem', hcall', hresponse'⟩
    have hsame := receipt_of_serial h honce hin hmem hcall hmem'
      ((serial_of_call hcall').trans hserial)
    rw [← hresponse', hsame, hresponse]
  · intro hfirst hidentical halive env envs hup
    -- the entry is there since a request that is identical has returned
    rcases h.stored id task response htask hreturned with ⟨entry, hentry⟩
    rw [← idemKey_of_call hidentical] at hentry
    rcases h.found hreads hapart hother hentry with ⟨receipt', hmem', hcall', hread⟩
    have hsame := receipt_of_serial h honce hin hmem hcall hmem'
      ((serial_of_call hcall').trans (serial_of_call hidentical))
    rw [hsame, hresponse] at hread
    exact run_advance_cached hother hfirst hup hentry halive hread envs

section Example

/-- Handlers whose verifiers accept every proof. The response depends on the scalars drawn. -/
def openBackend : Backend Scalar Unit (Scalar × UInt32) (RefreshResponse Scalar)
    (SpendResponse Scalar) Unit Unit where
  sha := { lineSha with sha256 := fun bytes => leArray 32 (leNat bytes) }
  hasher := fun _ _ => 0
  compress := fun p => leArray 48 p.val
  refreshDebug := fun _ => [1]
  spendDebug := fun _ => [2]
  serializeRefresh := fun _ => none
  deserializeRefresh := fun _ => none
  serializeSpend := fun _ => none
  deserializeSpend := fun _ => none
  nT := fun _ => 1
  kCur := Prod.fst
  tIssue := Prod.snd
  verifyRefresh := fun _ _ _ _ coins => .ok (⟨coins.1, coins.1, coins.2⟩, ())
  verifySpend := fun _ _ _ _ _ coins => .ok (⟨coins.1, coins.1, coins.2⟩, ())
  mint := fun _ _ => ()

/-- The point of a compressed one. -/
def pointOfBytes (bytes : Bytes 48) : Option Scalar := some (leNat bytes.toList : ℕ)

theorem pointOfBytes_compress (p : Scalar) : pointOfBytes (openBackend.compress p) = some p := by
  have hlt : p.val < 256 ^ 48 :=
    (ZMod.val_lt p).trans (blsOrder_lt.trans (Nat.pow_lt_pow_right (by norm_num) (by norm_num)))
  have hread : leNat (openBackend.compress p).toList = p.val := leNat_leArray hlt
  unfold pointOfBytes
  rw [hread, ZMod.natCast_zmod_val]

/-- A spend of the serial eight. -/
def spendEight : Request Unit (Scalar × UInt32) := .spend (8, 3) (leArray 16 1) none none

/-- Three identical spends. Two of them look up the cache before either is verified, and the
third has not started when the first returns. -/
def race : List (Action Unit (Scalar × UInt32) Unit) :=
  [.arrive 0 spendEight, .arrive 1 spendEight, .arrive 2 spendEight, .advance 0 calm,
    .advance 1 calm, .advance 0 calm, .advance 1 calm, .tick 5] ++
    List.replicate 5 (.advance 0 calm)

/-- The server after the race, with the spend of it that returned. -/
def raced : System Unit (Scalar × UInt32) (RefreshResponse Scalar) (SpendResponse Scalar) Unit :=
  run (System.step (openBackend.overWire pointOfBytes) keysExpire)
    (System.start oneByteFilter () epochThree) race

theorem raced_zero : raced.tasks 0 =
    some ⟨spendEight, epochThree, .returned (.spend ⟨1, 1, 1⟩)⟩ := by
  rfl

theorem raced_two : raced.tasks 2 = some ⟨spendEight, epochThree, .getCached⟩ := by
  rfl

theorem raced_apart :
    DigestsApart (openBackend.overWire pointOfBytes) (Arrives race) := by
  have hone : ∀ request, Arrives race request → request = spendEight := by
    intro request harrives
    rcases harrives with ⟨id, hmem⟩
    simp [race] at hmem
    rcases hmem with ⟨_, h⟩ | ⟨_, h⟩ | ⟨_, h⟩ <;> exact h
  intro request request' harrives harrives' _
  rw [hone request harrives, hone request' harrives']

/-- The third spend finds the entry alive and returns what the first has returned. -/
theorem issued_once_race :
    run (System.step (openBackend.overWire pointOfBytes) keysExpire) raced
      ([calm, calm].map (Action.advance 2)) =
    { raced with
      tasks := Function.update raced.tasks 2
        (some ⟨spendEight, epochThree, .returned (.spend ⟨1, 1, 1⟩)⟩) } :=
  (issued_once openBackend pointOfBytes pointOfBytes_compress keysExpire oneByteFilter ()
    epochThree race (by decide +kernel) raced_apart rfl raced_zero rfl raced_two
    (fun _ hrefresh => nomatch hrefresh)).2 rfl rfl (by decide +kernel) calm [calm] rfl

end Example

end Ebut
