import Ebut.Theory.Accountable
import Ebut.Theory.Gap
import Ebut.Theory.Nullifiers

/-!
# What a Failed Request Leaves Behind

The handlers take the nonce and the nullifier of a request before they look at its
proof, and give neither back. A request that ends because its proof does not verify,
because the blocking task panics or because the clock cannot be read has been charged
both. It has left nothing else behind.

`Progress` says where a request that runs alone has got to in being charged. A step
keeps it, so it holds where the request ends.

## Main definitions

* `NonceTaken`, `NullifierTaken`: What the two checks leave behind.
* `Charged`: A server after a request was charged, and otherwise unchanged.
* `Refused`: A server whose checks refuse a request.
* `Progress`: How much a request has been charged at each phase.

## Theorems

* `progress_advance`, `progress_serve`: The progress of a request that runs alone.
* `failed_request_charged`: A request that fails at its proof has been charged.
* `Charged.refused`: A request that was charged is refused a second time.
-/

namespace Ebut

open KeyStore

variable {G1 P Q A B L M : Type}

section Charges

variable (backend : Backend G1 P Q A B L M) (deadlineOf : ℕ → UInt64 → Option ℕ)
  (config : ServerConfig) (request : Request P Q) (before after : Server P Q L)

/-- The nonce of a request was fresh and has been taken, in the mode that its
arguments select. A refresh has no nonce. -/
def NonceTaken : Prop :=
  match request with
  | .refresh _ => after.bloom = before.bloom ∧ after.redis.nonces = before.redis.nonces
  | .spend _ nonce merkleProof merkleRoot =>
      match merkleProof, merkleRoot with
      | some mproof, some root =>
          merkleNonceFresh backend.sha backend.hasher before.bloom nonce mproof root = true ∧
            after.bloom = before.bloom.insert backend.hasher nonce.toList ∧
            after.redis.nonces = before.redis.nonces
      | _, _ =>
          after.bloom = before.bloom ∧ ∃ now, before.clock ≤ now ∧
            before.redis.nonces.setNx now nonce () (deadlineOf now config.nonceTtlSecs) =
              (1, after.redis.nonces)

/-- The nullifier of a request was new and has been added to its set, and the deadline
of the set has been reset. -/
def NullifierTaken : Prop :=
  ∃ added expired ttl nullifiers, before.clock ≤ added ∧ added ≤ expired ∧
    nullifierTtl config = .ok ttl ∧
    before.redis.nullifiers.sadd added (backend.nullifier config request).1
      (backend.nullifier config request).2 = (1, nullifiers) ∧
    after.redis.nullifiers = nullifiers.expire expired (backend.nullifier config request).1
      (deadlineOf expired ttl)

/-- Nothing but the clock, the nonces and the nullifiers has changed. -/
structure ElseUnchanged : Prop where
  clock : before.clock ≤ after.clock
  idempotency : after.redis.idempotency = before.redis.idempotency
  ledger : after.ledger = before.ledger
  verified : after.verified = before.verified

/-- The request has been charged, and nothing else has happened. -/
structure Charged : Prop extends ElseUnchanged before after where
  nonce : NonceTaken backend deadlineOf config request before after
  nullifier : NullifierTaken backend deadlineOf config request before after

/-- The checks of the request's nullifier and nonce refuse it a second time, unless the
key has expired. -/
structure Refused : Prop where
  nullifier : ∀ now, after.redis.nullifiers.Unexpired now (backend.nullifier config request).1 →
    (after.redis.nullifiers.sadd now (backend.nullifier config request).1
      (backend.nullifier config request).2).1 = 0
  nonce : match request with
    | .refresh _ => True
    | .spend _ nonce (some _) (some _) => ∀ mproof root,
        merkleNonceFresh backend.sha backend.hasher after.bloom nonce mproof root = false
    | .spend _ nonce _ _ => ∀ now deadline, after.redis.nonces.Unexpired now nonce →
        (after.redis.nonces.setNx now nonce () deadline).1 = 0

/-- Nothing but the clock has changed. -/
structure Unstarted : Prop extends ElseUnchanged before after where
  bloom : after.bloom = before.bloom
  nonces : after.redis.nonces = before.redis.nonces
  nullifiers : after.redis.nullifiers = before.redis.nullifiers

/-- How much a request has been charged at each phase. The phases in which it ends
otherwise than at its proof are of no interest here. -/
def Progress (state : Server P Q L × Phase A B) : Prop :=
  match state.2 with
  | .getCached => Unstarted before state.1
  | .consumeNonce nonce merkleProof merkleRoot =>
      Unstarted before state.1 ∧ ∃ proof, request = .spend proof nonce merkleProof merkleRoot
  | .insertNonce nonce =>
      Unstarted before state.1 ∧ ∃ proof mproof root,
        request = .spend proof nonce (some mproof) (some root) ∧
          merkleNonceFresh backend.sha backend.hasher before.bloom nonce mproof root = true
  | .addNullifier =>
      ElseUnchanged before state.1 ∧
        NonceTaken backend deadlineOf config request before state.1 ∧
        state.1.redis.nullifiers = before.redis.nullifiers
  | .expireNullifier added =>
      ElseUnchanged before state.1 ∧
        NonceTaken backend deadlineOf config request before state.1 ∧
        ∃ now, before.clock ≤ now ∧ now ≤ state.1.clock ∧
          before.redis.nullifiers.sadd now (backend.nullifier config request).1
            (backend.nullifier config request).2 = (added, state.1.redis.nullifiers)
  | .readClock => Charged backend deadlineOf config request before state.1
  | .verify _ => Charged backend deadlineOf config request before state.1
  | .failed .clock _ => Charged backend deadlineOf config request before state.1
  | .failed .verification _ => Charged backend deadlineOf config request before state.1
  | _ => True

end Charges

section Steps

variable {backend : Backend G1 P Q A B L M} {deadlineOf : ℕ → UInt64 → Option ℕ}
  {config : ServerConfig} {request : Request P Q} {before server : Server P Q L} {env : Env}

/-- Time passing changes nothing. -/
theorem progress_tick {phase : Phase A B}
    (h : Progress backend deadlineOf config request before (server, phase)) (seconds : ℕ) :
    Progress backend deadlineOf config request before
      ({ server with clock := server.clock + seconds }, phase) := by
  -- only the clock moves, and it moves forward
  have hlater : ElseUnchanged before server →
      ElseUnchanged before { server with clock := server.clock + seconds } :=
    fun h => ⟨h.clock.trans (Nat.le_add_right _ _), h.idempotency, h.ledger, h.verified⟩
  have hidle : Unstarted before server →
      Unstarted before { server with clock := server.clock + seconds } :=
    fun h => ⟨hlater h.toElseUnchanged, h.bloom, h.nonces, h.nullifiers⟩
  have hcharged : Charged backend deadlineOf config request before server →
      Charged backend deadlineOf config request before
        { server with clock := server.clock + seconds } :=
    fun h => ⟨hlater h.toElseUnchanged, h.nonce, h.nullifier⟩
  cases phase with
  | getCached => exact hidle h
  | consumeNonce nonce merkleProof merkleRoot => exact ⟨hidle h.1, h.2⟩
  | insertNonce nonce => exact ⟨hidle h.1, h.2⟩
  | addNullifier => exact ⟨hlater h.1, h.2⟩
  | expireNullifier added =>
      rcases h with ⟨helse, hnonce, now, hstart, hle, hadded⟩
      exact ⟨hlater helse, hnonce, now, hstart, hle.trans (Nat.le_add_right _ _), hadded⟩
  | readClock => exact hcharged h
  | verify now => exact hcharged h
  | storeCached response => trivial
  | returned response => trivial
  | failed stage e =>
      cases stage with
      | clock => exact hcharged h
      | verification => exact hcharged h
      | _ => trivial

theorem progress_afterCache (h : Unstarted before server) :
    Progress backend deadlineOf config request before (server, afterCache backend request) := by
  cases request with
  | refresh proof => exact ⟨h.toElseUnchanged, ⟨h.bloom, h.nonces⟩, h.nullifiers⟩
  | spend proof nonce merkleProof merkleRoot =>
      by_cases hzero : backend.kCur proof = 0
      · simp only [afterCache, if_pos hzero]
        trivial
      · simp only [afterCache, if_neg hzero]
        exact ⟨h, proof, rfl⟩

theorem progress_getCached (h : Unstarted before server) :
    Progress backend deadlineOf config request before
      (server, getCached backend env server request) := by
  unfold getCached
  simp only
  split
  · trivial
  · exact progress_afterCache h
  · split <;> trivial

/-- The nonce in the standard mode: one of the two arguments is missing. -/
theorem progress_verifyAndConsume {proof : Q} {nonce : Bytes 16}
    {merkleProof : Option MerkleProof} {merkleRoot : Option (Bytes 32)}
    (hmode : merkleProof = none ∨ merkleRoot = none) (h : Unstarted before server) :
    Progress backend deadlineOf config (.spend proof nonce merkleProof merkleRoot) before
      (verifyAndConsume (A := A) (B := B) deadlineOf config env server nonce) := by
  rcases env with ⟨link, unixTime, panicked, coins⟩
  unfold verifyAndConsume
  cases link with
  | down msg => trivial
  -- a request that fails here is not one that fails at its proof
  | replyLost msg => trivial
  | up =>
      simp only [Link.command]
      split_ifs with hresult
      · -- the script answered 1, so the nonce was not there and is now
        refine ⟨⟨h.clock, h.idempotency, h.ledger, h.verified⟩, ?_, h.nullifiers⟩
        have htaken : before.redis.nonces.setNx server.clock nonce ()
            (deadlineOf server.clock config.nonceTtlSecs) =
              (1, (server.redis.nonces.setNx server.clock nonce ()
                (deadlineOf server.clock config.nonceTtlSecs)).2) := by
          rw [← h.nonces, ← hresult]
        rcases hmode with rfl | rfl
        · exact ⟨h.bloom, server.clock, h.clock, htaken⟩
        · cases merkleProof <;> exact ⟨h.bloom, server.clock, h.clock, htaken⟩
      · trivial

theorem progress_consumeNonce {proof : Q} {nonce : Bytes 16}
    {merkleProof : Option MerkleProof} {merkleRoot : Option (Bytes 32)}
    (h : Unstarted before server) :
    Progress backend deadlineOf config (.spend proof nonce merkleProof merkleRoot) before
      (consumeNonce backend deadlineOf config env server nonce merkleProof merkleRoot) := by
  unfold consumeNonce
  cases merkleProof with
  | none => exact progress_verifyAndConsume (Or.inl rfl) h
  | some mproof =>
      cases merkleRoot with
      | none => exact progress_verifyAndConsume (Or.inr rfl) h
      | some root =>
          by_cases hfresh :
              merkleNonceFresh backend.sha backend.hasher server.bloom nonce mproof root = true
          · simp only [if_pos hfresh]
            exact ⟨h, proof, mproof, root, rfl, h.bloom ▸ hfresh⟩
          · simp only [if_neg hfresh]
            trivial

theorem progress_addNullifier
    (h : Progress backend deadlineOf config request before (server, (.addNullifier : Phase A B))) :
    Progress backend deadlineOf config request before
      (addNullifier backend config env server request) := by
  rcases h with ⟨helse, hnonce, hset⟩
  rcases env with ⟨link, unixTime, panicked, coins⟩
  unfold addNullifier
  rcases hchecked : backend.checkNullifier config request with e | ⟨key, member⟩
  · trivial
  · cases link with
    | down msg => trivial
    | replyLost msg => trivial
    | up =>
        refine ⟨⟨helse.clock, helse.idempotency, helse.ledger, helse.verified⟩, hnonce,
          server.clock, helse.clock, le_rfl, ?_⟩
        rw [checkNullifier_ok hchecked, ← hset]
        rfl

theorem progress_expireNullifier {added : ℕ}
    (h : Progress backend deadlineOf config request before
      (server, (.expireNullifier added : Phase A B))) :
    Progress backend deadlineOf config request before
      (expireNullifier backend deadlineOf config env server request added) := by
  rcases h with ⟨helse, hnonce, now, hstart, hle, hadded⟩
  rcases env with ⟨link, unixTime, panicked, coins⟩
  unfold expireNullifier
  rcases hchecked : backend.checkNullifier config request with e | ⟨key, member⟩
  · trivial
  · rcases httl : nullifierTtl config with e | ttl
    · trivial
    · cases link with
      | down msg => trivial
      | replyLost msg => trivial
      | up =>
          -- only a new nullifier lets the request go on
          by_cases hone : added = 1
          · subst hone
            refine ⟨⟨helse.clock, helse.idempotency, helse.ledger, helse.verified⟩, hnonce,
              now, server.clock, ttl, server.redis.nullifiers, hstart, hle, httl, hadded, ?_⟩
            rw [checkNullifier_ok hchecked]
            rfl
          · simp only [Link.command, if_neg hone]
            trivial

theorem progress_readClock (h : Charged backend deadlineOf config request before server) :
    Progress backend deadlineOf config request before
      (server, (readClock env : Phase A B)) := by
  rcases env with ⟨link, unixTime, panicked, coins⟩
  cases unixTime with
  | none => exact h
  | some now => exact h

theorem progress_verifyProof {now : UInt64}
    (h : Charged backend deadlineOf config request before server) :
    Progress backend deadlineOf config request before
      (verifyProof backend config env server request now) := by
  unfold verifyProof
  split
  · exact h
  · split
    · exact h
    · trivial

theorem progress_storeCached (response : Response A B) :
    Progress backend deadlineOf config request before
      (storeCached backend deadlineOf config env server request response) := by
  unfold storeCached
  split
  · trivial
  · split <;> trivial

/-- Every step of the request keeps its progress. -/
theorem progress_advance {phase : Phase A B}
    (h : Progress backend deadlineOf config request before (server, phase)) :
    Progress backend deadlineOf config request before
      (advance backend deadlineOf config env server request phase) := by
  cases phase with
  | getCached => exact progress_getCached h
  | consumeNonce nonce merkleProof merkleRoot =>
      rcases h with ⟨hidle, proof, rfl⟩
      exact progress_consumeNonce hidle
  | insertNonce nonce =>
      -- the nonce enters the filter here, after the check and before the nullifier
      rcases h with ⟨hidle, proof, mproof, root, rfl, hfresh⟩
      refine ⟨⟨hidle.clock, hidle.idempotency, hidle.ledger, hidle.verified⟩,
        ⟨hfresh, ?_, hidle.nonces⟩, hidle.nullifiers⟩
      rw [← hidle.bloom]
      rfl
  | addNullifier => exact progress_addNullifier h
  | expireNullifier added =>
      rw [advance]
      exact progress_expireNullifier h
  | readClock => exact progress_readClock h
  | verify now => exact progress_verifyProof h
  | storeCached response => exact progress_storeCached response
  | returned response => trivial
  | failed stage e => exact h

/-- The progress holds at the end of a request that runs alone. -/
theorem progress_serve {state : Server P Q L × Phase A B}
    (h : Progress backend deadlineOf config request before state) (steps : List (ℕ × Env)) :
    Progress backend deadlineOf config request before
      (serve backend deadlineOf config request steps state) := by
  induction steps generalizing state with
  | nil => exact h
  | cons step steps ih => exact ih (progress_advance (progress_tick h step.1))

end Steps

/-- A nullifier that was taken is in its set. -/
theorem NullifierTaken.recorded {backend : Backend G1 P Q A B L M}
    {deadlineOf : ℕ → UInt64 → Option ℕ} {config : ServerConfig} {request : Request P Q}
    {before after : Server P Q L}
    (h : NullifierTaken backend deadlineOf config request before after) :
    after.redis.nullifiers.Recorded (backend.nullifier config request).1
      (backend.nullifier config request).2 := by
  rcases h with ⟨added, expired, ttl, nullifiers, _, _, _, hadded, hexpire⟩
  have hset : (before.redis.nullifiers.sadd added (backend.nullifier config request).1
      (backend.nullifier config request).2).2 = nullifiers := congrArg Prod.snd hadded
  rw [hexpire, ← hset]
  exact Store.recorded_sadd_self.expire _

/-- A request that was charged is refused a second time. -/
theorem Charged.refused {backend : Backend G1 P Q A B L M} {deadlineOf : ℕ → UInt64 → Option ℕ}
    {config : ServerConfig} {request : Request P Q} {before after : Server P Q L}
    (h : Charged backend deadlineOf config request before after) :
    Refused backend config request after where
  nullifier := fun _ hkeep => Store.sadd_fst_of_recorded h.nullifier.recorded hkeep
  nonce := by
    have hnonce := h.nonce
    cases request with
    | refresh proof => trivial
    | spend proof nonce merkleProof merkleRoot =>
        -- the nonce was set when it was taken, so a second `SETEX` does not happen
        have hstandard : (∃ now, before.clock ≤ now ∧ before.redis.nonces.setNx now nonce ()
            (deadlineOf now config.nonceTtlSecs) = (1, after.redis.nonces)) →
            ∀ now deadline, after.redis.nonces.Unexpired now nonce →
              (after.redis.nonces.setNx now nonce () deadline).1 = 0 := by
          rintro ⟨taken, _, hset⟩ now deadline hkeep
          exact Store.setNx_fst_of_unexpired (Store.setNx_eq_one hset) hkeep () deadline
        cases merkleProof with
        | none => exact hstandard hnonce.2
        | some mproof =>
            cases merkleRoot with
            | none => exact hstandard hnonce.2
            | some root =>
                intro mproof' root'
                rw [hnonce.2.1]
                exact merkleNonceFresh_insert ..

/-- A request that runs alone and ends at its proof, because the clock cannot be read,
the blocking task panics or the proof does not verify, has been charged its nonce and
its nullifier, and nothing else has changed. It is refused if it is made again. -/
theorem failed_request_charged (backend : Backend G1 P Q A B L M)
    (deadlineOf : ℕ → UInt64 → Option ℕ) (config : ServerConfig) (request : Request P Q)
    (steps : List (ℕ × Env)) (before after : Server P Q L) (stage : Stage) (e : ActError)
    (hfailed : serve backend deadlineOf config request steps (before, .getCached) =
      (after, .failed stage e)) (hstage : stage = .clock ∨ stage = .verification) :
    Charged backend deadlineOf config request before after ∧
      Refused backend config request after := by
  have hstart : Progress backend deadlineOf config request before
      (before, (.getCached : Phase A B)) := ⟨⟨le_rfl, rfl, rfl, rfl⟩, rfl, rfl, rfl⟩
  have hend := progress_serve hstart steps
  rw [hfailed] at hend
  have hcharged : Charged backend deadlineOf config request before after := by
    rcases hstage with rfl | rfl
    · exact hend
    · exact hend
  exact ⟨hcharged, hcharged.refused⟩

section Example

/-- Encodings that hold no information. -/
def blankCodec (G1 P Q A B : Type) : Codec G1 P Q A B where
  sha := lineSha
  hasher := fun _ _ => 0
  compress := fun _ => leArray 48 0
  refreshDebug := fun _ => []
  spendDebug := fun _ => []
  serializeRefresh := fun _ => none
  deserializeRefresh := fun _ => none
  serializeSpend := fun _ => none
  deserializeSpend := fun _ => none

/-- A spend of nothing under the serial eight, of a token of epoch three. -/
def emptySpend : SpendProof UnitSpace where
  aPrime := 0
  aBar := 0
  tBbs := 0
  tScaleT := 0
  tTotal := 0
  tScaleR := 0
  tRefund := 0
  tScaleBp := 0
  tBp := 0
  zE := 0
  zR1 := 0
  zSTilde := 0
  zXTilde := 0
  zCTilde := 0
  zETilde := 0
  zU := 0
  zV := 0
  zW := 0
  batchedEq := blankEqualityProof
  s := 0
  kCur := 8
  tIssue := 3
  kPrime := 0
  cBp := 0
  eMax := 0
  xBlsCommitment := 0
  tScaleX := 0
  tX := 0
  zRX := 0
  cDelta := 0
  expiryEq := blankEqualityProof
  tScaleExp := 0
  tExp := 0
  zRDelta := 0

/-- The code's own verifiers over the unit generators. -/
def unitBackend : Backend UnitSpace (RefreshProof UnitSpace) (SpendProof UnitSpace)
    (RefreshResponse UnitSpace) (SpendResponse UnitSpace) Unit Unit :=
  ebutBackend (blankCodec ..) lineBlstrs lineDalek unitGenerators unitKeys 0

def epochThree : ServerConfig := { ServerConfig.default with currentEpoch := 3 }

def oneByteFilter : BloomFilter := ⟨1, 1, fun _ => false, Nat.one_pos⟩

/-- A server that has done nothing yet. -/
def idleServer : Server (RefreshProof UnitSpace) (SpendProof UnitSpace) Unit where
  redis := Redis.empty
  clock := 0
  bloom := oneByteFilter
  ledger := ()
  verified := []

/-- Nothing goes wrong outside the server. -/
def calm : Env := ⟨.up, some 1000, none, (1, 1)⟩

def emptySpendRequest : Request (RefreshProof UnitSpace) (SpendProof UnitSpace) :=
  .spend emptySpend (leArray 16 7) none none

/-- The six steps of a spend up to its verification, a second apart. -/
def sixSteps : List (ℕ × Env) := List.replicate 6 (1, calm)

/-- The spend of nothing is refused at its proof, and its serial and its nonce are
gone. -/
theorem refused_spend_charged :
    (serve unitBackend keysExpire epochThree emptySpendRequest sixSteps
      (idleServer, .getCached)).2 =
        .failed .verification (.verificationFailed "Spend amount must be positive") ∧
    idleServer.redis.nullifiers (.spend 3) = none ∧
    (serve unitBackend keysExpire epochThree emptySpendRequest sixSteps
      (idleServer, .getCached)).1.redis.nullifiers (.spend 3) =
        some ⟨[(Scalar.toBytes 8).toList], some (4 + 86700)⟩ ∧
    idleServer.redis.nonces (leArray 16 7) = none ∧
    (serve unitBackend keysExpire epochThree emptySpendRequest sixSteps
      (idleServer, .getCached)).1.redis.nonces (leArray 16 7) = some ⟨(), some (2 + 60)⟩ := by
  exact ⟨rfl, rfl, rfl, rfl, rfl⟩

theorem failed_request_charged_empty :
    Charged unitBackend keysExpire epochThree emptySpendRequest idleServer
      (serve unitBackend keysExpire epochThree emptySpendRequest sixSteps
        (idleServer, .getCached)).1 ∧
    Refused unitBackend epochThree emptySpendRequest
      (serve unitBackend keysExpire epochThree emptySpendRequest sixSteps
        (idleServer, .getCached)).1 :=
  failed_request_charged unitBackend keysExpire epochThree emptySpendRequest sixSteps idleServer
    _ .verification (.verificationFailed "Spend amount must be positive")
    (Prod.ext rfl rfl) (Or.inr rfl)

end Example

end Ebut
