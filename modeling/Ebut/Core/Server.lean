import Ebut.Core.Nonce
import Ebut.Core.Refresh
import Ebut.Library.KeyStore

/-!
# The Request Handlers

`handle_refresh` and `handle_spend` as the steps they take. A step ends where
another request can run: at every `await`, and between the test and the insertion
of the Bloom filter. `advance` takes one request from where it stands to its next
such point, against the state that all requests share.

Redis runs each command at once, but a command can fail to reach it and its reply
can be lost, so the client sees an error in either case. A refusal by Redis of
what it is asked for is a command that did not reach it.

The verifiers, the encodings and the debug texts are a `Backend`. The code's own
is `ebutBackend`; results that idealise the proofs take another. `L` is what the
verifiers remember between requests, which is nothing for the code's own.

## Main definitions

* `ServerConfig`, `Redis`, `Server`: What requests share.
* `Backend`, `ebutBackend`: What the handlers call in other modules.
* `Request`, `Phase`: A request and how far it has got.
* `checkEpochNullifier`, `checkSpendNullifier`: Which nullifier a request adds.
* `advance`: One step of a request.
* `serve`: A request that runs alone.
-/

namespace Ebut

open KeyStore

/-- The fields of `ServerConfig` that the handlers read. -/
structure ServerConfig where
  currentEpoch : UInt32
  /-- Grace period in seconds after an epoch rollover. -/
  epochGracePeriodSecs : UInt64
  idempotencyTtlSecs : UInt64
  nonceTtlSecs : UInt64
  deriving DecidableEq

/-- `ServerConfig::default`. -/
def ServerConfig.default : ServerConfig where
  currentEpoch := 0
  epochGracePeriodSecs := 300
  idempotencyTtlSecs := 60
  nonceTtlSecs := 60

/-- The key of a nullifier set. -/
inductive NullifierKey where
  /-- `act:epoch:{}:nullifiers`. -/
  | epoch (epoch : UInt32)
  /-- `act:spend:{}:nullifiers`. -/
  | spend (epoch : UInt32)
  deriving DecidableEq

/-- A nullifier: the set it belongs to and the bytes that are added. -/
abbrev Nullifier := NullifierKey × List UInt8

/-- The keys that the server keeps in Redis. -/
structure Redis where
  nullifiers : Store NullifierKey (List (List UInt8))
  /-- `act:nonce:{}`, whose value is always `1`. -/
  nonces : Store (Bytes 16) Unit
  /-- `act:idem:{}`. -/
  idempotency : Store (Bytes 32) (List UInt8)

def Redis.empty : Redis := ⟨Store.empty, Store.empty, Store.empty⟩

/-- What becomes of a Redis command. -/
inductive Link where
  | up
  /-- The command is not run, and the client sees an error. -/
  | down (msg : String)
  /-- The command is run, and the client sees an error. -/
  | replyLost (msg : String)

/-- What the client sees of a command, and the state it leaves. -/
def Link.command {α σ : Type} (link : Link) (state : σ) (result : α × σ) :
    Except ActError α × σ :=
  match link with
  | .up => (.ok result.1, result.2)
  | .down msg => (.error (.databaseError msg), state)
  | .replyLost msg => (.error (.databaseError msg), result.2)

/-- The arguments of a handler. -/
inductive Request (P Q : Type) where
  | refresh (proof : P)
  | spend (proof : Q) (nonce : Bytes 16) (merkleProof : Option MerkleProof)
      (merkleRoot : Option (Bytes 32))

inductive Response (A B : Type) where
  | refresh (response : A)
  | spend (response : B)

/-- The encodings the handlers use. -/
structure Codec (G1 P Q A B : Type) where
  sha : Sha2
  /-- `DefaultHasher` of a byte string and a seed. -/
  hasher : List UInt8 → ℕ → UInt64
  /-- `G1Affine::to_compressed`. -/
  compress : G1 → Bytes 48
  /-- The debug text of a proof. -/
  refreshDebug : P → List UInt8
  spendDebug : Q → List UInt8
  /-- `bincode::serialize` and `bincode::deserialize`, `none` for an error. -/
  serializeRefresh : A → Option (List UInt8)
  deserializeRefresh : List UInt8 → Option A
  serializeSpend : B → Option (List UInt8)
  deserializeSpend : List UInt8 → Option B

/-- The encodings, and what the handlers use of the proofs. -/
structure Backend (G1 P Q A B L M : Type) extends Codec G1 P Q A B where
  nT : P → G1
  kCur : Q → Scalar
  tIssue : Q → UInt32
  /-- `verify_refresh`, of a proof, an epoch, a time and the scalars drawn. -/
  verifyRefresh : L → P → UInt32 → UInt64 → Scalar × Scalar → Except ActError (A × L)
  /-- `verify_spend`, which also takes the nonce. -/
  verifySpend : L → Q → UInt32 → UInt64 → Bytes 16 → Scalar × Scalar → Except ActError (B × L)
  /-- What `handle_master_mint` leaves behind. -/
  mint : M → L → L

variable {G1 P Q A B L M : Type}

namespace Codec

variable (codec : Codec G1 P Q A B)

/-- The digest in the key of the idempotency cache: `compute_key_no_nonce` and
`compute_key`. -/
def idemKey : Request P Q → Bytes 32
  | .refresh proof => codec.sha.sha256 (codec.refreshDebug proof)
  | .spend proof nonce _ _ => codec.sha.sha256 (codec.spendDebug proof ++ nonce.toList)

def deserialize (request : Request P Q) (cached : List UInt8) :
    Except ActError (Response A B) :=
  match request with
  | .refresh _ => do
    let response ← okOr (codec.deserializeRefresh cached)
      (.protocolError "Failed to deserialize cached refresh response")
    return .refresh response
  | .spend _ _ _ _ => do
    let response ← okOr (codec.deserializeSpend cached)
      (.protocolError "Failed to deserialize cached spend response")
    return .spend response

def serialize : Response A B → Except ActError (List UInt8)
  | .refresh response =>
      okOr (codec.serializeRefresh response)
        (.protocolError "Failed to serialize refresh response")
  | .spend response =>
      okOr (codec.serializeSpend response)
        (.protocolError "Failed to serialize spend response")

end Codec

/-- The nullifier that `check_epoch_nullifier` adds. -/
def checkEpochNullifier (config : ServerConfig) (nT : Bytes 48) : Nullifier :=
  (.epoch config.currentEpoch, nT.toList)

/-- The nullifier that `check_spend_nullifier` adds. -/
def checkSpendNullifier (config : ServerConfig) (kCur : Scalar) (tIssue : UInt32) :
    Except ActError Nullifier :=
  if tIssue = config.currentEpoch then
    .ok (.spend config.currentEpoch, (Scalar.toBytes kCur).toList)
  -- the previous epoch is accepted for as long as this one lasts, grace period or not
  else if 0 < config.currentEpoch ∧ tIssue = config.currentEpoch - 1 then
    .ok (.spend (config.currentEpoch - 1), (Scalar.toBytes kCur).toList)
  else .error (.verificationFailed "Epoch mismatch")

namespace Backend

variable (backend : Backend G1 P Q A B L M)

/-- The nullifier that a request adds, if its epoch is one that is accepted. -/
def checkNullifier (config : ServerConfig) : Request P Q → Except ActError Nullifier
  | .refresh proof => .ok (checkEpochNullifier config (backend.compress (backend.nT proof)))
  | .spend proof _ _ _ => checkSpendNullifier config (backend.kCur proof) (backend.tIssue proof)

/-- The error of a nullifier that was there already. -/
def usedError : Request P Q → ActError
  | .refresh _ => .verificationFailed "Epoch nullifier already used"
  | .spend _ _ _ _ => .verificationFailed "Spend nullifier already used"

def verify (ledger : L) (request : Request P Q) (currentEpoch : UInt32) (now : UInt64)
    (coins : Scalar × Scalar) : Except ActError (Response A B × L) :=
  match request with
  | .refresh proof => do
    let (response, ledger) ← backend.verifyRefresh ledger proof currentEpoch now coins
    return (.refresh response, ledger)
  | .spend proof nonce _ _ => do
    let (response, ledger) ← backend.verifySpend ledger proof currentEpoch now nonce coins
    return (.spend response, ledger)

end Backend

/-- The verifiers of this development, which remember nothing. -/
def ebutBackend {G1 G2 GT R : Type} [AddCommGroup G1] [Module Scalar G1] [AddCommGroup G2]
    [Module Scalar G2] [AddCommGroup GT] [Module Scalar GT] [AddCommGroup R]
    [Module DalekScalar R] [DecidableEq G1] [DecidableEq GT]
    (codec : Codec G1 (RefreshProof G1) (SpendProof G1) (RefreshResponse G1) (SpendResponse G1))
    (bls : Blstrs G1 G2 GT) (dalek : Dalek R) (generators : Generators G1 G2)
    (keys : ServerKeys generators) (hCtx : Scalar) :
    Backend G1 (RefreshProof G1) (SpendProof G1) (RefreshResponse G1) (SpendResponse G1)
      Unit Unit where
  toCodec := { codec with compress := bls.g1Compressed }
  nT := RefreshProof.nT
  kCur := SpendProof.kCur
  tIssue := SpendProof.tIssue
  verifyRefresh := fun _ proof currentEpoch now coins => do
    let response ← verifyRefresh codec.sha bls dalek proof currentEpoch now generators
      keys.pkMaster keys hCtx coins.1 coins.2
    return (response, ())
  verifySpend := fun _ proof currentEpoch now nonce coins => do
    let response ← verifySpend codec.sha bls dalek proof currentEpoch now nonce generators
      keys.pkDaily keys hCtx coins.1 coins.2
    return (response, ())
  mint := fun _ _ => ()

/-- The part of a handler in which an error arose. -/
inductive Stage where
  | idempotency
  | precheck
  | nonce
  | nullifier
  | clock
  | verification
  | cache
  deriving DecidableEq

/-- How far a request has got: what it does next, or how it ended. -/
inductive Phase (A B : Type) where
  | getCached
  | consumeNonce (nonce : Bytes 16) (merkleProof : Option MerkleProof)
      (merkleRoot : Option (Bytes 32))
  | insertNonce (nonce : Bytes 16)
  | addNullifier
  | expireNullifier (added : ℕ)
  | readClock
  | verify (now : UInt64)
  | storeCached (response : Response A B)
  | returned (response : Response A B)
  | failed (stage : Stage) (error : ActError)

/-- What lies outside the server when a step is taken. -/
structure Env where
  link : Link
  /-- The system clock, `none` before the Unix epoch. -/
  unixTime : Option UInt64
  /-- The panic of the blocking task, if it panics. -/
  panicked : Option String
  /-- The two scalars the verifier draws. -/
  coins : Scalar × Scalar

/-- What requests share. -/
structure Server (P Q L : Type) where
  redis : Redis
  /-- The clock of Redis, in seconds. -/
  clock : ℕ
  bloom : BloomFilter
  ledger : L
  /-- The requests whose proof was verified, newest first, with the configuration
  they ran under. No step reads it. -/
  verified : List (Request P Q × ServerConfig)

/-- `epoch_grace_period_secs + 86400` as an `i64`. The sum wraps, as it does in a release
build. -/
def nullifierTtl (config : ServerConfig) : Except ActError UInt64 :=
  let ttl := config.epochGracePeriodSecs + 86400
  if ttl.toNat < 2 ^ 63 then .ok ttl else .error (.protocolError "TTL overflow")

/-- A key expires the given number of seconds after the command. -/
def keysExpire (now : ℕ) (ttl : UInt64) : Option ℕ := some (now + ttl.toNat)

/-- No key ever expires. -/
def keysPersist (_now : ℕ) (_ttl : UInt64) : Option ℕ := none

section Handlers

variable (backend : Backend G1 P Q A B L M) (deadlineOf : ℕ → UInt64 → Option ℕ)
  (config : ServerConfig) (env : Env) (server : Server P Q L)

/-- The handler after a look-up that found nothing. -/
def afterCache : Request P Q → Phase A B
  | .refresh _ => .addNullifier
  | .spend proof nonce merkleProof merkleRoot =>
      -- a zero serial is refused before the nonce is taken
      if backend.kCur proof = 0 then .failed .precheck (.verificationFailed "k_cur is zero")
      else .consumeNonce nonce merkleProof merkleRoot

/-- The idempotency check. -/
def getCached (request : Request P Q) : Phase A B :=
  let found := server.redis.idempotency.get server.clock (backend.idemKey request)
  match (env.link.command server.redis (found, server.redis)).1 with
  | .error e => .failed .idempotency e
  | .ok none => afterCache backend request
  -- a cached response is handed out again: nothing else is checked
  | .ok (some cached) =>
      match backend.deserialize request cached with
      | .error e => .failed .idempotency e
      | .ok response => .returned response

/-- `verify_and_consume`. -/
def verifyAndConsume (nonce : Bytes 16) : Server P Q L × Phase A B :=
  match env.link.command server.redis.nonces (server.redis.nonces.setNx server.clock nonce ()
    (deadlineOf server.clock config.nonceTtlSecs)) with
  -- the nonce may have been taken all the same, when only the reply was lost
  | (.error e, nonces) =>
      ({ server with redis := { server.redis with nonces } }, .failed .nonce e)
  | (.ok result, nonces) =>
      ({ server with redis := { server.redis with nonces } },
        -- the script answers 1 if and only if the nonce was not there
        if result = 1 then .addNullifier
        else .failed .nonce (.verificationFailed "Nonce already used"))

/-- The nonce check, in the mode that the arguments select. -/
def consumeNonce (nonce : Bytes 16) (merkleProof : Option MerkleProof)
    (merkleRoot : Option (Bytes 32)) : Server P Q L × Phase A B :=
  match merkleProof, merkleRoot with
  | some mproof, some root =>
      (server, if merkleNonceFresh backend.sha backend.hasher server.bloom nonce mproof root then
          .insertNonce nonce
        else .failed .nonce (.verificationFailed "Invalid or reused nonce"))
  -- a path without a root, or a root without a path, falls back to the set of nonces
  | _, _ => verifyAndConsume deadlineOf config env server nonce

/-- The `SADD` of the nullifier checks. -/
def addNullifier (request : Request P Q) : Server P Q L × Phase A B :=
  match backend.checkNullifier config request with
  | .error e => (server, .failed .nullifier e)
  | .ok (key, member) =>
      match env.link.command server.redis.nullifiers
        (server.redis.nullifiers.sadd server.clock key member) with
      | (.error e, nullifiers) =>
          ({ server with redis := { server.redis with nullifiers } }, .failed .nullifier e)
      | (.ok added, nullifiers) =>
          ({ server with redis := { server.redis with nullifiers } }, .expireNullifier added)

/-- The `EXPIRE` of the nullifier checks, and what the handlers do with their
result. -/
def expireNullifier (request : Request P Q) (added : ℕ) : Server P Q L × Phase A B :=
  match backend.checkNullifier config request with
  | .error e => (server, .failed .nullifier e)
  | .ok (key, _) =>
      -- the lifetime is converted after the nullifier was added, so its error comes too late
      match nullifierTtl config with
      | .error e => (server, .failed .nullifier e)
      | .ok ttl =>
          match env.link.command server.redis.nullifiers ((), server.redis.nullifiers.expire
            server.clock key (deadlineOf server.clock ttl)) with
          | (.error e, nullifiers) =>
              ({ server with redis := { server.redis with nullifiers } }, .failed .nullifier e)
          | (.ok _, nullifiers) =>
              ({ server with redis := { server.redis with nullifiers } },
                -- the answer of the `SADD` is read after the `EXPIRE`, which is sent in either case
                if added = 1 then .readClock
                else .failed .nullifier (Backend.usedError request))

/-- `now_unix`. -/
def readClock : Phase A B :=
  match env.unixTime with
  | none => .failed .clock (.protocolError "system clock before Unix epoch")
  | some now => .verify now

/-- The verification on a blocking thread. -/
def verifyProof (request : Request P Q) (now : UInt64) : Server P Q L × Phase A B :=
  -- a panic of the blocking task reaches the handler as an error like any other
  match env.panicked with
  | some e => (server, .failed .verification (.protocolError ("Blocking task panicked: " ++ e)))
  | none =>
      match backend.verify server.ledger request config.currentEpoch now env.coins with
      | .error e => (server, .failed .verification e)
      | .ok (response, ledger) =>
          -- the proof is verified here, whatever becomes of the response
          ({ server with ledger, verified := (request, config) :: server.verified },
            .storeCached response)

/-- The response is cached and returned. -/
def storeCached (request : Request P Q) (response : Response A B) : Server P Q L × Phase A B :=
  match backend.serialize response with
  | .error e => (server, .failed .cache e)
  | .ok bytes =>
      match env.link.command server.redis.idempotency ((), server.redis.idempotency.setEx
        (backend.idemKey request) bytes (deadlineOf server.clock config.idempotencyTtlSecs)) with
      -- the response was signed, but the client does not get it
      | (.error e, idempotency) =>
          ({ server with redis := { server.redis with idempotency } }, .failed .cache e)
      | (.ok _, idempotency) =>
          ({ server with redis := { server.redis with idempotency } }, .returned response)

/-- One step of `handle_refresh` or `handle_spend`. -/
def advance (request : Request P Q) : Phase A B → Server P Q L × Phase A B
  | .getCached => (server, getCached backend env server request)
  | .consumeNonce nonce merkleProof merkleRoot =>
      consumeNonce backend deadlineOf config env server nonce merkleProof merkleRoot
  | .insertNonce nonce =>
      ({ server with bloom := server.bloom.insert backend.hasher nonce.toList }, .addNullifier)
  | .addNullifier => addNullifier backend config env server request
  | .expireNullifier added => expireNullifier backend deadlineOf config env server request added
  | .readClock => (server, readClock env)
  | .verify now => verifyProof backend config env server request now
  | .storeCached response => storeCached backend deadlineOf config env server request response
  | .returned response => (server, .returned response)
  | .failed stage e => (server, .failed stage e)

/-- A request that runs alone. Before each of its steps some seconds pass. -/
def serve (request : Request P Q) : List (ℕ × Env) → Server P Q L × Phase A B →
    Server P Q L × Phase A B
  | [], state => state
  | (seconds, env) :: steps, (server, phase) =>
      serve request steps (advance backend deadlineOf config env
        { server with clock := server.clock + seconds } request phase)

end Handlers

end Ebut
