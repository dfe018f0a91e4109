import Ebut.Library.Allowance
import Ebut.Theory.Nullifiers

/-!
# The Rate Limit

Over idealised proofs and keys that do not expire, no interleaving of requests
lets a client spend more in an epoch than its master token allows.

An idealised proof shows what it is a proof of: the opening of the commitment that
is signed and, for a spend, the token that is spent. The idealised verifiers
remember the tokens that were issued and accept exactly what the tokens bear out.
They do not look at nullifiers. That a master secret is refreshed once and a serial
spent once in an epoch is the nullifier sets' doing, and with it the history of
verified requests is a valid history of allowances.

## Main definitions

* `MasterAttributes`, `DailyAttributes`, `IdealLedger`: The tokens issued, by what
  is signed.
* `idealVerifyRefresh`, `idealVerifySpend`, `idealBackend`: The idealised proofs.
* `refreshesOn`, `spentOn`: What was verified.
* `Accounted`: The ledger and the history of a system agree.

## Theorems

* `accounted_step`: Every step keeps the agreement.
* `rate_limited`: The rate limit, over any interleaving.
-/

namespace Ebut

open Allowance KeyStore Transition

/-- What is signed in a master token. -/
structure MasterAttributes where
  x : Scalar
  cMax : UInt32
  eMax : UInt64
  deriving DecidableEq

/-- What is signed in a daily or a refund token, and what a commitment opens to. -/
structure DailyAttributes where
  x : Scalar
  k : Scalar
  c : UInt32
  epoch : UInt32
  eMax : UInt64
  deriving DecidableEq

/-- A refresh proof: its nullifier and the opening of `K_daily`. -/
structure IdealRefresh (G1 : Type) where
  nT : G1
  kDaily : DailyAttributes

/-- A spend proof: its public values, the token it spends and the opening of `K'`. -/
structure IdealSpend where
  kCur : Scalar
  tIssue : UInt32
  s : UInt32
  token : DailyAttributes
  kPrime : DailyAttributes

/-- The tokens that the server has issued. -/
structure IdealLedger where
  masters : List MasterAttributes
  dailies : List DailyAttributes

def IdealLedger.empty : IdealLedger := ⟨[], []⟩

/-- The account and the serial of a token, both within its epoch. -/
def DailyAttributes.toToken (token : DailyAttributes) : Token (Scalar × UInt32) (Scalar × UInt32) :=
  ⟨(token.x, token.epoch), (token.k, token.epoch), token.c.toNat⟩

section Ideal

variable {G1 : Type} [AddCommGroup G1] [Module Scalar G1] (hT : UInt32 → G1)

/-- A master token was issued for what the daily token is to hold, and the nullifier
is its own. -/
def RefreshBorneOut (ledger : IdealLedger) (proof : IdealRefresh G1) (currentEpoch : UInt32) :
    Prop :=
  ⟨proof.kDaily.x, proof.kDaily.c, proof.kDaily.eMax⟩ ∈ ledger.masters ∧
    proof.kDaily.epoch = currentEpoch ∧ proof.nT = proof.kDaily.x • hT currentEpoch

/-- A token was issued under the serial, it carries the amount, and the refund holds
the rest. -/
def SpendBorneOut (ledger : IdealLedger) (proof : IdealSpend) : Prop :=
  proof.token ∈ ledger.dailies ∧ proof.token.k = proof.kCur ∧
    proof.token.epoch = proof.tIssue ∧ 0 < proof.s ∧ proof.s ≤ proof.token.c ∧
    proof.kPrime =
      { proof.token with k := proof.kPrime.k, c := proof.token.c - proof.s }

instance (ledger : IdealLedger) (proof : IdealSpend) : Decidable (SpendBorneOut ledger proof) := by
  unfold SpendBorneOut
  infer_instance

/-- `verify_spend` with an ideal proof. -/
def idealVerifySpend (ledger : IdealLedger) (proof : IdealSpend) :
    Except ActError (DailyAttributes × IdealLedger) :=
  if SpendBorneOut ledger proof then
    .ok (proof.kPrime, { ledger with dailies := proof.kPrime :: ledger.dailies })
  else .error (.verificationFailed "Combined bridge+Schnorr check failed")

variable [DecidableEq G1]

instance (ledger : IdealLedger) (proof : IdealRefresh G1) (currentEpoch : UInt32) :
    Decidable (RefreshBorneOut hT ledger proof currentEpoch) := by
  unfold RefreshBorneOut
  infer_instance

/-- `verify_refresh` with an ideal proof. -/
def idealVerifyRefresh (ledger : IdealLedger) (proof : IdealRefresh G1) (currentEpoch : UInt32) :
    Except ActError (DailyAttributes × IdealLedger) :=
  if RefreshBorneOut hT ledger proof currentEpoch then
    .ok (proof.kDaily, { ledger with dailies := proof.kDaily :: ledger.dailies })
  else .error (.verificationFailed "Combined bridge+Schnorr check failed")

/-- The handlers over idealised proofs. -/
def idealBackend (codec : Codec G1 (IdealRefresh G1) IdealSpend DailyAttributes DailyAttributes) :
    Backend G1 (IdealRefresh G1) IdealSpend DailyAttributes DailyAttributes IdealLedger
      MasterAttributes where
  toCodec := codec
  nT := IdealRefresh.nT
  kCur := IdealSpend.kCur
  tIssue := IdealSpend.tIssue
  verifyRefresh := fun ledger proof currentEpoch _ _ =>
    idealVerifyRefresh hT ledger proof currentEpoch
  verifySpend := fun ledger proof _ _ _ _ => idealVerifySpend ledger proof
  mint := fun token ledger => { ledger with masters := token :: ledger.masters }

end Ideal

section Verified

variable {G1 : Type}

/-- The allowance event that a verified request is. -/
def Request.event : Request (IdealRefresh G1) IdealSpend →
    Event (Scalar × UInt32) (Scalar × UInt32)
  | .refresh proof => .grant proof.kDaily.toToken
  | .spend proof _ _ _ =>
      .spend proof.token.toToken proof.s.toNat (proof.kPrime.k, proof.kPrime.epoch)

/-- The `c_max` of a refresh of the master secret `x` in an epoch. -/
def Request.refreshAmount (x : Scalar) (epoch : UInt32) :
    Request (IdealRefresh G1) IdealSpend → Option ℕ
  | .refresh proof =>
      if proof.kDaily.x = x ∧ proof.kDaily.epoch = epoch then some proof.kDaily.c.toNat else none
  | .spend _ _ _ _ => none

/-- The amount of a spend of a token of `x` in an epoch. -/
def Request.spendAmount (x : Scalar) (epoch : UInt32) :
    Request (IdealRefresh G1) IdealSpend → ℕ
  | .refresh _ => 0
  | .spend proof _ _ _ =>
      if proof.token.x = x ∧ proof.token.epoch = epoch then proof.s.toNat else 0

variable (verified : List (Request (IdealRefresh G1) IdealSpend × ServerConfig))

/-- The `c_max` of each verified refresh of the master secret `x` in an epoch. -/
def refreshesOn (x : Scalar) (epoch : UInt32) : List ℕ :=
  verified.filterMap fun entry => entry.1.refreshAmount x epoch

/-- The amounts of the verified spends of tokens of `x` in an epoch, added up. -/
def spentOn (x : Scalar) (epoch : UInt32) : ℕ :=
  (verified.map fun entry => entry.1.spendAmount x epoch).sum

/-- The events of the verified requests, newest first. -/
def historyOf : List (Event (Scalar × UInt32) (Scalar × UInt32)) :=
  verified.map fun entry => entry.1.event

theorem Request.refreshAmount_some {x : Scalar} {epoch : UInt32}
    {request : Request (IdealRefresh G1) IdealSpend} {cMax : ℕ}
    (h : request.refreshAmount x epoch = some cMax) :
    ∃ proof, request = .refresh proof ∧ proof.kDaily.x = x ∧ proof.kDaily.epoch = epoch ∧
      proof.kDaily.c.toNat = cMax := by
  cases request with
  | refresh proof =>
      by_cases hacc : proof.kDaily.x = x ∧ proof.kDaily.epoch = epoch
      · simp only [Request.refreshAmount, if_pos hacc, Option.some.injEq] at h
        exact ⟨proof, rfl, hacc.1, hacc.2, h⟩
      · simp only [Request.refreshAmount, if_neg hacc, reduceCtorEq] at h
  | spend proof nonce merkleProof merkleRoot => exact nomatch h

theorem grantedBy_event (x : Scalar) (epoch : UInt32)
    (request : Request (IdealRefresh G1) IdealSpend) :
    grantedBy (x, epoch) request.event = (request.refreshAmount x epoch).getD 0 := by
  cases request with
  | refresh proof =>
      by_cases hacc : proof.kDaily.x = x ∧ proof.kDaily.epoch = epoch <;>
        simp only [Request.event, grantedBy, DailyAttributes.toToken, Prod.mk.injEq,
          Request.refreshAmount, hacc, and_self, if_true, if_false, Option.getD_some,
          Option.getD_none]
  | spend proof nonce merkleProof merkleRoot => rfl

theorem spentBy_event (x : Scalar) (epoch : UInt32)
    (request : Request (IdealRefresh G1) IdealSpend) :
    spentBy (x, epoch) request.event = request.spendAmount x epoch := by
  cases request with
  | refresh proof => rfl
  | spend proof nonce merkleProof merkleRoot =>
      simp only [Request.event, spentBy, DailyAttributes.toToken, Prod.mk.injEq,
        Request.spendAmount]

theorem granted_historyOf (x : Scalar) (epoch : UInt32) :
    granted (x, epoch) (historyOf verified) = (refreshesOn verified x epoch).sum := by
  unfold granted historyOf refreshesOn
  induction verified with
  | nil => rfl
  | cons entry verified ih =>
      rw [List.map_cons, List.map_cons, List.sum_cons, ih, grantedBy_event]
      cases hamount : entry.1.refreshAmount x epoch with
      | none => simp only [List.filterMap_cons, hamount, Option.getD_none, Nat.zero_add]
      | some cMax => simp only [List.filterMap_cons, hamount, Option.getD_some, List.sum_cons]

theorem spent_historyOf (x : Scalar) (epoch : UInt32) :
    spent (x, epoch) (historyOf verified) = spentOn verified x epoch := by
  unfold spent historyOf spentOn
  simp only [List.map_map, Function.comp_def, spentBy_event]

end Verified

section Accounts

variable {G1 : Type} [AddCommGroup G1] [Module Scalar G1] {hT : UInt32 → G1}

variable (hT) in
/-- What the idealised verifiers leave true of a verified request. -/
def BorneOut (ledger : IdealLedger) (request : Request (IdealRefresh G1) IdealSpend)
    (config : ServerConfig) : Prop :=
  match request with
  | .refresh proof => RefreshBorneOut hT ledger proof config.currentEpoch
  | .spend proof _ _ _ => proof.token.k = proof.kCur ∧ proof.token.epoch = proof.tIssue

theorem BorneOut.mono {ledger ledger' : IdealLedger}
    {request : Request (IdealRefresh G1) IdealSpend} {config : ServerConfig}
    (h : BorneOut hT ledger request config) (hsub : ledger.masters ⊆ ledger'.masters) :
    BorneOut hT ledger' request config := by
  cases request with
  | refresh proof => exact ⟨hsub h.1, h.2⟩
  | spend proof nonce merkleProof merkleRoot => exact h

variable (hT) in
/-- The tokens remembered are those that the history issued, and the history is a
valid one of verified requests. -/
structure Accounted (server : Server (IdealRefresh G1) IdealSpend IdealLedger) : Prop where
  issued : server.ledger.dailies.map DailyAttributes.toToken = tokens (historyOf server.verified)
  valid : Valid (historyOf server.verified)
  borneOut : ∀ entry ∈ server.verified, BorneOut hT server.ledger entry.1 entry.2

/-- A verified refresh used a master token that was issued. -/
theorem master_of_refreshesOn {server : Server (IdealRefresh G1) IdealSpend IdealLedger}
    (h : Accounted hT server) {x : Scalar} {epoch : UInt32} {cMax : ℕ}
    (hmem : cMax ∈ refreshesOn server.verified x epoch) :
    ∃ master ∈ server.ledger.masters, master.x = x ∧ master.cMax.toNat = cMax := by
  rcases List.mem_filterMap.mp hmem with ⟨⟨request, config⟩, hentry, hamount⟩
  have hborne := h.borneOut _ hentry
  rcases Request.refreshAmount_some hamount with ⟨proof, rfl, hx, _, hc⟩
  exact ⟨_, hborne.1, hx, hc⟩

variable [DecidableEq G1]
  {codec : Codec G1 (IdealRefresh G1) IdealSpend DailyAttributes DailyAttributes}

/-- A serial that was spent in a history was verified, so its nullifier was used. -/
theorem serial_notMem {server : Server (IdealRefresh G1) IdealSpend IdealLedger}
    (h : Accounted hT server) {k : Scalar} {epoch : UInt32}
    (huses : server.uses (idealBackend hT codec)
      (.spend epoch, (Scalar.toBytes k).toList) = 0) :
    (k, epoch) ∉ serials (historyOf server.verified) := by
  intro hmem
  rcases List.mem_filterMap.mp hmem with ⟨event, hevent, hserial⟩
  rcases List.mem_map.mp hevent with ⟨⟨request, config⟩, hentry, rfl⟩
  have hborne := h.borneOut _ hentry
  have hunused := List.countP_eq_zero.mp huses _ hentry
  cases request with
  | refresh proof => exact nomatch hserial
  | spend proof nonce merkleProof merkleRoot =>
      have hpair : (proof.token.k, proof.token.epoch) = (k, epoch) := Option.some.inj hserial
      rw [Prod.mk.injEq] at hpair
      -- the idealised spend is of the serial and the epoch it names
      refine hunused (decide_eq_true ?_)
      show (NullifierKey.spend proof.tIssue, (Scalar.toBytes proof.kCur).toList) = _
      rw [← hborne.1, ← hborne.2, hpair.1, hpair.2]

theorem idealVerify_refresh_ok {ledger ledger' : IdealLedger} {proof : IdealRefresh G1}
    {currentEpoch : UInt32} {now : UInt64} {coins : Scalar × Scalar}
    {response : Response DailyAttributes DailyAttributes}
    (h : (idealBackend hT codec).verify ledger (.refresh proof) currentEpoch now coins =
      .ok (response, ledger')) :
    RefreshBorneOut hT ledger proof currentEpoch ∧
      ledger' = { ledger with dailies := proof.kDaily :: ledger.dailies } := by
  by_cases hborne : RefreshBorneOut hT ledger proof currentEpoch
  · simp only [Backend.verify, idealBackend, idealVerifyRefresh, if_pos hborne] at h
    have hledger := (Prod.mk.injEq .. ▸ Except.ok.inj h).2
    exact ⟨hborne, hledger.symm⟩
  · simp only [Backend.verify, idealBackend, idealVerifyRefresh, if_neg hborne] at h
    exact nomatch h

theorem idealVerify_spend_ok {ledger ledger' : IdealLedger} {proof : IdealSpend}
    {nonce : Bytes 16} {merkleProof : Option MerkleProof} {merkleRoot : Option (Bytes 32)}
    {currentEpoch : UInt32} {now : UInt64} {coins : Scalar × Scalar}
    {response : Response DailyAttributes DailyAttributes}
    (h : (idealBackend hT codec).verify ledger (.spend proof nonce merkleProof merkleRoot)
      currentEpoch now coins = .ok (response, ledger')) :
    SpendBorneOut ledger proof ∧
      ledger' = { ledger with dailies := proof.kPrime :: ledger.dailies } := by
  by_cases hborne : SpendBorneOut ledger proof
  · simp only [Backend.verify, idealBackend, idealVerifySpend, if_pos hborne] at h
    have hledger := (Prod.mk.injEq .. ▸ Except.ok.inj h).2
    exact ⟨hborne, hledger.symm⟩
  · simp only [Backend.verify, idealBackend, idealVerifySpend, if_neg hborne] at h
    exact nomatch h

/-- The refund that a spend is entitled to is the token that the event issues. -/
theorem toToken_kPrime {ledger : IdealLedger} {proof : IdealSpend}
    (h : SpendBorneOut ledger proof) :
    proof.kPrime.toToken = ⟨proof.token.toToken.account, (proof.kPrime.k, proof.kPrime.epoch),
      proof.token.toToken.amount - proof.s.toNat⟩ := by
  rcases h with ⟨_, _, _, _, hle, hrefund⟩
  have hc : proof.kPrime.c.toNat = proof.token.c.toNat - proof.s.toNat := by
    rw [hrefund]
    exact UInt32.toNat_sub_of_le _ _ hle
  have hx : proof.kPrime.x = proof.token.x := by rw [hrefund]
  have hepoch : proof.kPrime.epoch = proof.token.epoch := by rw [hrefund]
  simp only [DailyAttributes.toToken, hc, hx, hepoch]

/-- A verified proof keeps the accounts, if its nullifier was not used before. -/
theorem accounted_verify {server next : Server (IdealRefresh G1) IdealSpend IdealLedger}
    (h : Accounted hT server) {request : Request (IdealRefresh G1) IdealSpend}
    {config : ServerConfig} {now : UInt64} {coins : Scalar × Scalar}
    {response : Response DailyAttributes DailyAttributes}
    (haccepted : (idealBackend hT codec).verify server.ledger request config.currentEpoch now
      coins = .ok (response, next.ledger))
    (hverified : next.verified = (request, config) :: server.verified)
    (huses : server.uses (idealBackend hT codec)
      ((idealBackend hT codec).nullifier config request) = 0) :
    Accounted hT next := by
  have hhistory : historyOf next.verified = request.event :: historyOf server.verified := by
    rw [hverified]
    rfl
  -- what earlier requests showed stays true: master tokens are never forgotten
  have hborneOut : server.ledger.masters ⊆ next.ledger.masters →
      BorneOut hT server.ledger request config →
      ∀ entry ∈ next.verified, BorneOut hT next.ledger entry.1 entry.2 := by
    intro hmasters hnew entry hentry
    rw [hverified] at hentry
    rcases List.mem_cons.mp hentry with rfl | hold
    · exact hnew.mono hmasters
    · exact (h.borneOut entry hold).mono hmasters
  cases request with
  | refresh proof =>
      rcases idealVerify_refresh_ok haccepted with ⟨hborne, hledger⟩
      refine ⟨?_, ?_, hborneOut (hledger ▸ List.Subset.refl _) hborne⟩
      · rw [hledger, hhistory, List.map_cons, h.issued]
        rfl
      · rw [hhistory]
        exact h.valid
  | spend proof nonce merkleProof merkleRoot =>
      rcases idealVerify_spend_ok haccepted with ⟨hborne, hledger⟩
      have hrefund := toToken_kPrime hborne
      rcases hborne with ⟨hmem, hk, hepoch, _, hle, _⟩
      refine ⟨?_, ?_, hborneOut (hledger ▸ List.Subset.refl _) ⟨hk, hepoch⟩⟩
      · rw [hledger, hhistory, List.map_cons, h.issued, hrefund]
        rfl
      -- the nullifier was not used, so the serial was not spent
      · have hfresh : (proof.token.k, proof.token.epoch) ∉ serials (historyOf server.verified) := by
          rw [hk, hepoch]
          exact serial_notMem h huses
        rw [hhistory]
        exact ⟨h.issued ▸ List.mem_map_of_mem hmem, hle, hfresh, h.valid⟩

variable (hT codec) in
/-- The invariant of a system over idealised proofs whose keys do not expire. -/
structure RateLimited
    (system : System (IdealRefresh G1) IdealSpend DailyAttributes DailyAttributes IdealLedger) :
    Prop where
  permanent : system.server.redis.nullifiers.Permanent
  guarded : ∀ n, Guarded (idealBackend hT codec) n system
  accounted : Accounted hT system.server

variable {system : System (IdealRefresh G1) IdealSpend DailyAttributes DailyAttributes IdealLedger}

/-- A step leaves no deadline behind. -/
theorem permanent_step (h : system.server.redis.nullifiers.Permanent)
    (action : Action (IdealRefresh G1) IdealSpend MasterAttributes) :
    (system.step (idealBackend hT codec) keysPersist action).server.redis.nullifiers.Permanent := by
  rcases step_cases (idealBackend hT codec) keysPersist system action with
    ⟨task, env, phase, heffect, _⟩ | ⟨hredis, _, _⟩
  · cases heffect with
    | keeps hset _ _ _ =>
        rcases hset with hset | ⟨key, ttl, hset⟩
        · exact hset ▸ h
        · exact hset ▸ h.expire _ _
    | adds key member _ _ _ hset _ _ _ => exact hset ▸ h.sadd
    | verifies now coins response _ _ hset _ _ => exact hset ▸ h
  · exact hredis ▸ h

/-- A step keeps the accounts. -/
theorem accounted_step (h : RateLimited hT codec system)
    (action : Action (IdealRefresh G1) IdealSpend MasterAttributes) :
    Accounted hT (system.step (idealBackend hT codec) keysPersist action).server := by
  -- the accounts depend on the history and the ledger alone
  have hsame : ∀ server : Server (IdealRefresh G1) IdealSpend IdealLedger,
      server.verified = system.server.verified →
      server.ledger.dailies = system.server.ledger.dailies →
      system.server.ledger.masters ⊆ server.ledger.masters → Accounted hT server := by
    intro server hverified hdailies hmasters
    refine ⟨?_, hverified ▸ h.accounted.valid, ?_⟩
    · rw [hdailies, hverified, h.accounted.issued]
    · rw [hverified]
      intro entry hentry
      exact (h.accounted.borneOut entry hentry).mono hmasters
  rcases step_cases (idealBackend hT codec) keysPersist system action with
    ⟨task, env, phase, heffect, id, htask⟩ | ⟨_, hverified, hledger⟩
  · cases heffect with
    | keeps _ hverified hledger _ =>
        exact hsame _ hverified (hledger ▸ rfl) (hledger ▸ List.Subset.refl _)
    | adds key member _ _ _ _ hverified hledger _ =>
        exact hsame _ hverified (hledger ▸ rfl) (hledger ▸ List.Subset.refl _)
    | verifies now coins response hstage haccepted _ hverified _ =>
        -- the request holds its nullifier, so no verified request has used it
        have hheld : task.Holds (idealBackend hT codec)
            ((idealBackend hT codec).nullifier task.config task.request) :=
          ⟨hstage ▸ trivial, rfl⟩
        exact accounted_verify h.accounted haccepted hverified
          ((h.guarded _).pending id task htask hheld)
  · rcases hledger with hledger | ⟨token, hledger⟩
    · exact hsame _ hverified (hledger ▸ rfl) (hledger ▸ List.Subset.refl _)
    · rw [idealBackend] at hledger
      exact hsame _ hverified (hledger ▸ rfl) (hledger ▸ List.subset_cons_self ..)

theorem rateLimited_step (action : Action (IdealRefresh G1) IdealSpend MasterAttributes)
    (h : RateLimited hT codec system) :
    RateLimited hT codec (system.step (idealBackend hT codec) keysPersist action) where
  permanent := permanent_step h.permanent action
  guarded := fun n => guarded_step (h.guarded n) fun _ => h.permanent.unexpired _ _
  accounted := accounted_step h action

theorem rateLimited_start (bloom : BloomFilter) (config : ServerConfig) :
    RateLimited hT codec (System.start bloom IdealLedger.empty config) where
  permanent := fun _ _ h => nomatch h
  guarded := fun _ => guarded_start bloom IdealLedger.empty config
  accounted := ⟨rfl, trivial, fun _ h => absurd h List.not_mem_nil⟩

/-- The invariant holds where a run ends. -/
theorem rateLimited_run (bloom : BloomFilter) (config : ServerConfig)
    (actions : List (Action (IdealRefresh G1) IdealSpend MasterAttributes)) :
    RateLimited hT codec (run (System.step (idealBackend hT codec) keysPersist)
      (System.start bloom IdealLedger.empty config) actions) :=
  run_of_invariant (fun _ action h => rateLimited_step action h) actions
    (rateLimited_start bloom config)

variable (codec) in
/-- All refreshes of a master secret in an epoch use one nullifier. -/
theorem refreshesOn_length_le {server : Server (IdealRefresh G1) IdealSpend IdealLedger}
    (h : Accounted hT server) (x : Scalar) (epoch : UInt32) :
    (refreshesOn server.verified x epoch).length ≤ server.uses (idealBackend hT codec)
      (.epoch epoch, (codec.compress (x • hT epoch)).toList) := by
  unfold refreshesOn Server.uses
  rw [List.length_filterMap_eq_countP]
  refine List.countP_mono_left fun entry hentry hsome => ?_
  rcases Option.isSome_iff_exists.mp hsome with ⟨cMax, hamount⟩
  have hborne := h.borneOut entry hentry
  rcases entry with ⟨request, config⟩
  rcases Request.refreshAmount_some hamount with ⟨proof, rfl, rfl, rfl, _⟩
  rcases hborne with ⟨_, hcurrent, hnT⟩
  refine decide_eq_true ?_
  show checkEpochNullifier config (codec.compress proof.nT) = _
  -- the nullifier is determined by the master secret and the epoch
  rw [checkEpochNullifier, hnT, hcurrent]

variable (hT codec) in
/-- The rate limit: whatever requests arrive and however they interleave, a master
secret is refreshed at most once in an epoch, no serial of an epoch is spent twice,
and the amounts spent on the secret's tokens of the epoch stay within the `c_max` of
the master token that the refresh used. -/
theorem rate_limited (bloom : BloomFilter) (config : ServerConfig)
    (actions : List (Action (IdealRefresh G1) IdealSpend MasterAttributes)) (x : Scalar)
    (epoch : UInt32) :
    let server := (run (System.step (idealBackend hT codec) keysPersist)
      (System.start bloom IdealLedger.empty config) actions).server
    (refreshesOn server.verified x epoch).length ≤ 1 ∧
      (∀ cMax ∈ refreshesOn server.verified x epoch,
        ∃ master ∈ server.ledger.masters, master.x = x ∧ master.cMax.toNat = cMax) ∧
      (∀ k, server.spendsOf (idealBackend hT codec) k epoch ≤ 1) ∧
      spentOn server.verified x epoch ≤ (refreshesOn server.verified x epoch).sum := by
  intro server
  have hinv : RateLimited hT codec _ := rateLimited_run bloom config actions
  refine ⟨?_, fun cMax => master_of_refreshesOn hinv.accounted, fun k => ?_, ?_⟩
  · exact (refreshesOn_length_le codec hinv.accounted x epoch).trans
      (hinv.guarded _).once
  · exact (spendsOf_le_uses server k epoch).trans (hinv.guarded _).once
  · rw [← granted_historyOf, ← spent_historyOf]
    exact spent_le_granted (x, epoch) hinv.accounted.valid

end Accounts

end Ebut
