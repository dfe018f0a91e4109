import Ebut.Theory.Retention

/-!
# The Grace Period

The configuration has a grace period, in which spends of the previous epoch are still
accepted, and a deployment that sets it to zero is promised a strict limit for each epoch.
Neither check of a spend's epoch looks at a clock: a spend of the previous epoch is let through
for as long as the epoch lasts, whatever the grace period is.

What the configuration promises is then up to the operator. An epoch that was entered from the
one before it has to be left within the grace period, and without one no epoch may be entered
from the one before it. The requests that are under way at a rollover keep the configuration
they arrived under, so they must come to nothing.

## Main definitions

* `System.SpendPasses`: A step lets a spend through a check.
* `GraceKept`: No spend of an epoch passes later than a grace period after it was left.
* `System.graceEnd`, `System.timedStep`: The system with the end of the grace period.
* `PromptRollovers`: What the operator has to see to.
* `Skipping`: What holds without a grace period.
* `spentDuring`: What an account spends while an epoch is current.

## Theorems

* `passes_of_new`: The check itself lets a spend through at any time.
* `epoch_of_passes`: What is let through is of the epoch of the request or the one before it.
* `graceKept_of_promptRollovers`: The grace period bounds what is let through.
* `skipping_step`: Without a grace period, what was accepted is of the epoch in place.
* `spentDuring_le`: What is spent while an epoch is current is spent on its tokens.
* `grace_period_kept`: All that the grace period promises.
-/

namespace Ebut

open Transition

variable {G1 P Q A B L M : Type}

section Window

variable (backend : Backend G1 P Q A B L M) (deadlineOf : ℕ → UInt64 → Option ℕ)
  (system : System P Q A B L)

/-- The next step of the request lets a spend of the epoch through: its serial is new in
`check_spend_nullifier`, or `verify_spend` accepts its proof. -/
def System.SpendPasses (id : ℕ) (env : Env) (epoch : UInt32) : Prop :=
  ∃ task proof nonce merkleProof merkleRoot, system.tasks id = some task ∧
    task.request = .spend proof nonce merkleProof merkleRoot ∧ backend.tIssue proof = epoch ∧
    let next := (advance backend deadlineOf task.config env system.server task.request
      task.phase).2
    (task.phase = .addNullifier ∧ next = .expireNullifier 1 ∨
      ∃ now response, task.phase = .verify now ∧ next = .storeCached response)

/-- Once the operator has moved on from an epoch to the one after it, a spend of the epoch
passes a check no later than the grace period says. -/
def GraceKept (start : System P Q A B L) (actions : List (Action P Q M)) : Prop :=
  ∀ before config later id env after,
    actions = before ++ .reconfigure config :: (later ++ .advance id env :: after) →
    let left := run (System.step backend deadlineOf) start before
    let system := run (System.step backend deadlineOf)
      (left.step backend deadlineOf (.reconfigure config)) later
    config.currentEpoch.toNat = left.config.currentEpoch.toNat + 1 →
    system.SpendPasses backend deadlineOf id env left.config.currentEpoch →
    system.server.clock ≤ left.server.clock + config.epochGracePeriodSecs.toNat

/-- When the grace period of the previous epoch is over, if the operator came from that epoch
to the one in place. -/
def System.graceEnd (deadline : Option ℕ) : Action P Q M → Option ℕ
  | .reconfigure config =>
      if config.currentEpoch.toNat = system.config.currentEpoch.toNat + 1 then
        some (system.server.clock + config.epochGracePeriodSecs.toNat)
      else none
  | _ => deadline

/-- The system with the end of the grace period beside it, which no handler reads. -/
def System.timedStep : System P Q A B L × Option ℕ → Action P Q M → System P Q A B L × Option ℕ :=
  watched (System.step backend deadlineOf) System.graceEnd

end Window

/-- The operator moves to later epochs and keeps the grace period. An epoch that was entered from
the one before it is left within the grace period, and without one none is entered so. No
request is handled on after a rollover. -/
def PromptRollovers (timed : System P Q A B L × Option ℕ) : Action P Q M → Prop
  | .reconfigure config =>
      timed.1.config.currentEpoch < config.currentEpoch ∧
        config.epochGracePeriodSecs = timed.1.config.epochGracePeriodSecs ∧
        (config.currentEpoch.toNat = timed.1.config.currentEpoch.toNat + 1 →
          0 < config.epochGracePeriodSecs)
  | .tick seconds => ∀ deadline ∈ timed.2, timed.1.server.clock + seconds ≤ deadline
  | .advance id _ =>
      ∀ task ∈ timed.1.tasks id, task.config.currentEpoch = timed.1.config.currentEpoch
  | .arrive _ _ => True
  | .mint _ => True

instance (timed : System P Q A B L × Option ℕ) :
    (action : Action P Q M) → Decidable (PromptRollovers timed action)
  | .reconfigure config => inferInstanceAs (Decidable (_ < config.currentEpoch ∧ _ = _ ∧ _))
  | .tick _ => Option.decidableForallMem timed.2
  | .advance id _ => Option.decidableForallMem (timed.1.tasks id)
  | .arrive _ _ => isTrue trivial
  | .mint _ => isTrue trivial

section Timed

variable {backend : Backend G1 P Q A B L M} {deadlineOf : ℕ → UInt64 → Option ℕ}
  {system : System P Q A B L}

/-- A spend whose epoch the check does not refuse passes it under a new serial, whatever the
clock says and however long ago its epoch was left. -/
theorem passes_of_new {id : ℕ} {env : Env} {task : Task P Q A B} {proof : Q} {nonce : Bytes 16}
    {merkleProof : Option MerkleProof} {merkleRoot : Option (Bytes 32)} {n : Nullifier}
    (htask : system.tasks id = some task)
    (hrequest : task.request = .spend proof nonce merkleProof merkleRoot)
    (hphase : task.phase = .addNullifier)
    (hchecked : backend.checkNullifier task.config task.request = .ok n)
    (hnew : (system.server.redis.nullifiers.sadd system.server.clock n.1 n.2).1 = 1)
    (hup : env.link = .up) :
    system.SpendPasses backend deadlineOf id env (backend.tIssue proof) := by
  refine ⟨task, proof, nonce, merkleProof, merkleRoot, htask, hrequest, rfl,
    Or.inl ⟨hphase, ?_⟩⟩
  simp only [hphase, advance, addNullifier, hchecked, hup, Link.command, hnew]

/-- The epochs that the check does not refuse. -/
theorem epoch_of_checkSpendNullifier {config : ServerConfig} {kCur : Scalar} {tIssue : UInt32}
    {n : Nullifier} (h : checkSpendNullifier config kCur tIssue = .ok n) :
    tIssue = config.currentEpoch ∨ tIssue.toNat + 1 = config.currentEpoch.toNat := by
  unfold checkSpendNullifier at h
  split_ifs at h with hcur hprev
  · exact Or.inl hcur
  · rcases hprev with ⟨hpos, rfl⟩
    have hone : 1 ≤ config.currentEpoch.toNat := hpos
    rw [UInt32.toNat_sub_of_le _ _ hone]
    exact Or.inr (Nat.sub_add_cancel hone)

variable (backend system) in
/-- A request that holds its nullifier has passed the check of its epoch. -/
def Checked : Prop :=
  ∀ id task, system.tasks id = some task → task.phase.Holding →
    ∃ n, backend.checkNullifier task.config task.request = .ok n

theorem checked_step (h : Checked backend system) (action : Action P Q M) :
    Checked backend (system.step backend deadlineOf action) := by
  have hmoves := step_moves backend deadlineOf system action
  generalize system.step backend deadlineOf action = next at hmoves ⊢
  cases hmoves with
  | stays => exact h
  | arrives id request fresh => exact forall_task_update (fun hheld => hheld.elim) h
  | advances id env task htask =>
      rcases advanceTask_effect backend deadlineOf system id env task with ⟨next, heffect, hnext⟩
      rw [hnext]
      refine forall_task_update (fun hheld => ?_) h
      cases heffect with
      | keeps _ _ _ hholding => exact h id task htask (hholding hheld)
      | adds key member _ hchecked _ _ _ _ _ => exact ⟨_, hchecked⟩
      | verifies now coins response _ _ _ _ hreleased => exact absurd hheld hreleased
  | ticks seconds => exact h
  | reconfigures config => exact h
  | mints token => exact h

theorem checked_run (h : Checked backend system) (actions : List (Action P Q M)) :
    Checked backend (run (System.step backend deadlineOf) system actions) :=
  run_of_invariant (I := Checked backend) (fun _ action hinv => checked_step hinv action) actions h

theorem checked_start (bloom : BloomFilter) (ledger : L) (config : ServerConfig) :
    Checked backend (System.start bloom ledger config) :=
  fun _ _ htask => nomatch htask

/-- A spend that a step lets through is of the epoch of its request, or of the one before it. -/
theorem epoch_of_passes (h : Checked backend system) {id : ℕ} {env : Env} {epoch : UInt32}
    (hpasses : system.SpendPasses backend deadlineOf id env epoch) :
    ∃ task ∈ system.tasks id, epoch = task.config.currentEpoch ∨
      epoch.toNat + 1 = task.config.currentEpoch.toNat := by
  rcases hpasses with ⟨⟨request, config, phase⟩, proof, nonce, merkleProof, merkleRoot, htask,
    rfl, rfl, hstage⟩
  refine ⟨_, htask, ?_⟩
  rcases hstage with ⟨rfl, hnext⟩ | ⟨now, response, rfl, _⟩
  · cases hchecked : backend.checkNullifier config (.spend proof nonce merkleProof merkleRoot) with
    | error e =>
        -- a spend whose epoch is refused is not let through
        simp only [advance, addNullifier, hchecked, reduceCtorEq] at hnext
    | ok n => exact epoch_of_checkSpendNullifier hchecked
  · rcases h id _ htask trivial with ⟨n, hchecked⟩
    exact epoch_of_checkSpendNullifier hchecked

variable (backend deadlineOf) in
/-- The handlers do not touch the clock. -/
theorem advance_clock (config : ServerConfig) (env : Env) (server : Server P Q L)
    (request : Request P Q) (phase : Phase A B) :
    (advance backend deadlineOf config env server request phase).1.clock = server.clock := by
  cases phase with
  | getCached => rfl
  | consumeNonce nonce merkleProof merkleRoot =>
      simp only [advance, consumeNonce, verifyAndConsume]
      split
      · rfl
      · split <;> rfl
  | insertNonce nonce => rfl
  | addNullifier =>
      simp only [advance, addNullifier]
      split
      · rfl
      · split <;> rfl
  | expireNullifier added =>
      simp only [advance, expireNullifier]
      split
      · rfl
      · split
        · rfl
        · split <;> rfl
  | readClock => rfl
  | verify now =>
      simp only [advance, verifyProof]
      split
      · rfl
      · split <;> rfl
  | storeCached response =>
      simp only [advance, storeCached]
      split
      · rfl
      · split <;> rfl
  | returned response => rfl
  | failed stage e => rfl

variable (backend deadlineOf system)

/-- Neither the arrival of a request nor a step of one touches the configuration or the clock. -/
theorem arrive_frame (id : ℕ) (request : Request P Q) :
    (system.step backend deadlineOf (.arrive id request)).config = system.config ∧
      (system.step backend deadlineOf (.arrive id request)).server.clock =
        system.server.clock := by
  simp only [System.step]
  split <;> exact ⟨rfl, rfl⟩

theorem advance_frame (id : ℕ) (env : Env) :
    (system.step backend deadlineOf (.advance id env)).config = system.config ∧
      (system.step backend deadlineOf (.advance id env)).server.clock = system.server.clock := by
  simp only [System.step]
  split
  · exact ⟨rfl, rfl⟩
  · exact ⟨rfl, advance_clock backend deadlineOf _ env _ _ _⟩

variable {backend deadlineOf system}

/-- The configuration that was put in place at `since` is still there and the grace period is
not over, or a later epoch is in place. -/
def InGrace (config : ServerConfig) (since : ℕ) (timed : System P Q A B L × Option ℕ) : Prop :=
  timed.1.config = config ∧ timed.2 = some (since + config.epochGracePeriodSecs.toNat) ∧
      timed.1.server.clock ≤ since + config.epochGracePeriodSecs.toNat ∨
    config.currentEpoch < timed.1.config.currentEpoch

theorem inGrace_step {config : ServerConfig} {since : ℕ} {timed : System P Q A B L × Option ℕ}
    (h : InGrace config since timed) {action : Action P Q M}
    (hprompt : PromptRollovers timed action) :
    InGrace config since (System.timedStep backend deadlineOf timed action) := by
  rcases timed with ⟨system, deadline⟩
  cases action with
  | arrive id request =>
      have hframe := arrive_frame backend deadlineOf system id request
      unfold InGrace
      rw [System.timedStep, watched, hframe.1, hframe.2]
      exact h
  | advance id env =>
      have hframe := advance_frame backend deadlineOf system id env
      unfold InGrace
      rw [System.timedStep, watched, hframe.1, hframe.2]
      exact h
  | tick seconds =>
      rcases h with ⟨hconfig, hdeadline, _⟩ | hlater
      · exact Or.inl ⟨hconfig, hdeadline, hprompt _ hdeadline⟩
      · exact Or.inr hlater
  | reconfigure next =>
      have hforward : system.config.currentEpoch < next.currentEpoch := hprompt.1
      rcases h with ⟨rfl, _⟩ | hlater
      · exact Or.inr hforward
      · exact Or.inr (UInt32.lt_trans hlater hforward)
  | mint token => exact h

/-- If epochs are left within the grace period, no spend passes a check after it. -/
theorem graceKept_of_promptRollovers {start : System P Q A B L} {deadline : Option ℕ}
    {actions : List (Action P Q M)} (hstart : Checked backend start)
    (h : Along (System.timedStep backend deadlineOf) PromptRollovers (start, deadline) actions) :
    GraceKept backend deadlineOf start actions := by
  intro before config later id env after hactions left system hnext hpasses
  subst hactions
  rcases (along_append.mp h).2 with ⟨_, hlater⟩
  rcases along_append.mp hlater with ⟨hlater, hstep, _⟩
  generalize hleft : run (System.timedStep backend deadlineOf) (start, deadline) before = timedLeft
    at hlater hstep
  have hleftFst : timedLeft.1 = left := hleft ▸ run_watched System.graceEnd (start, deadline) before
  generalize hnow : run (System.timedStep backend deadlineOf)
    (System.timedStep backend deadlineOf timedLeft (.reconfigure config)) later = timed at hstep
  have hfst : timed.1 = system := by
    rw [← hnow]
    refine (run_watched System.graceEnd _ later).trans ?_
    rw [System.timedStep, watched, hleftFst]
  -- what is let through is of the epoch in place or the one before it
  have hchecked : Checked backend system :=
    checked_run (checked_step (checked_run hstart before) (.reconfigure config)) later
  rcases epoch_of_passes hchecked hpasses with ⟨task, htask, hepoch⟩
  have hplace : task.config.currentEpoch = system.config.currentEpoch :=
    hfst ▸ hstep task (hfst ▸ htask)
  rw [hplace] at hepoch
  have hinGrace : InGrace config left.server.clock timed := by
    rw [← hnow]
    refine run_invariant (I := InGrace config left.server.clock) (H := PromptRollovers)
      (fun _ _ hinv hprompt => inGrace_step hinv hprompt) (Or.inl ⟨rfl, ?_, ?_⟩) hlater
    · rw [System.timedStep, watched, System.graceEnd, hleftFst, if_pos hnext]
    · show timedLeft.1.server.clock ≤ _
      rw [hleftFst]
      exact Nat.le_add_right _ _
  rcases hinGrace with ⟨_, _, hclock⟩ | hpast
  · exact hfst ▸ hclock
  · -- a later epoch is in place, and the one that was left is too old
    have hlt : config.currentEpoch.toNat < system.config.currentEpoch.toNat := hfst ▸ hpast
    rcases hepoch with hsame | hprevious
    · rw [hsame] at hnext
      omega
    · omega

end Timed

section Spending

variable {G1 : Type} [AddCommGroup G1] [Module Scalar G1] [DecidableEq G1] {hT : UInt32 → G1}
  {codec : Codec G1 (IdealRefresh G1) IdealSpend DailyAttributes DailyAttributes}
  {deadlineOf : ℕ → UInt64 → Option ℕ}
  {system : System (IdealRefresh G1) IdealSpend DailyAttributes DailyAttributes IdealLedger}

variable (hT codec system) in
/-- What the operator of a server without a grace period brings about: tokens of the epoch
before the one in place do not exist, so what is accepted is of the epoch it was accepted in. -/
structure Skipping : Prop where
  graceless : system.config.epochGracePeriodSecs = 0
  checked : Checked (idealBackend hT codec) system
  skipped : ∀ token ∈ system.server.ledger.dailies, token.epoch = system.config.currentEpoch ∨
    token.epoch.toNat + 1 < system.config.currentEpoch.toNat
  accepted : ∀ proof nonce merkleProof merkleRoot config,
    (Request.spend proof nonce merkleProof merkleRoot, config) ∈ system.server.verified →
      proof.tIssue = config.currentEpoch

/-- A spend that is verified is of the epoch in place. -/
theorem Skipping.spend (h : Skipping hT codec system) {proof : IdealSpend} {config : ServerConfig}
    {n : Nullifier} (hborne : SpendBorneOut system.server.ledger proof)
    (hchecked : checkSpendNullifier config proof.kCur proof.tIssue = .ok n)
    (hplace : config.currentEpoch = system.config.currentEpoch) :
    proof.tIssue = system.config.currentEpoch := by
  rcases hborne with ⟨hmem, _, htoken, _⟩
  rw [← hplace]
  rcases epoch_of_checkSpendNullifier hchecked with hcur | hprev
  · exact hcur
  · have hskipped := h.skipped _ hmem
    rw [htoken, ← hplace] at hskipped
    rcases hskipped with hsame | hold
    · exact hsame
    · omega

/-- A verification keeps the invariant. -/
theorem Skipping.verifies (h : Skipping hT codec system) {id : ℕ}
    {task : Task (IdealRefresh G1) IdealSpend DailyAttributes DailyAttributes}
    (htask : system.tasks id = some task)
    (hplace : task.config.currentEpoch = system.config.currentEpoch) {now : UInt64}
    (hstage : task.phase = .verify now) {coins : Scalar × Scalar}
    {response : Response DailyAttributes DailyAttributes}
    {next : Server (IdealRefresh G1) IdealSpend IdealLedger}
    (haccepted : (idealBackend hT codec).verify system.server.ledger task.request
      task.config.currentEpoch now coins = .ok (response, next.ledger))
    (hverified : next.verified = (task.request, task.config) :: system.server.verified) :
    (∀ token ∈ next.ledger.dailies, token.epoch = system.config.currentEpoch ∨
      token.epoch.toNat + 1 < system.config.currentEpoch.toNat) ∧
    ∀ proof nonce merkleProof merkleRoot config,
      (Request.spend proof nonce merkleProof merkleRoot, config) ∈ next.verified →
        proof.tIssue = config.currentEpoch := by
  rcases h.checked id task htask (hstage ▸ trivial) with ⟨n, hchecked⟩
  rcases task with ⟨request, config, phase⟩
  cases request with
  | refresh proof =>
      rcases idealVerify_refresh_ok haccepted with ⟨⟨_, hepoch, _⟩, hledger⟩
      rw [hledger, hverified]
      refine ⟨fun token hmem => ?_, fun spend nonce merkleProof merkleRoot current hentry => ?_⟩
      · rcases List.mem_cons.mp hmem with rfl | hold
        · exact Or.inl (hepoch.trans hplace)
        · exact h.skipped token hold
      · rcases List.mem_cons.mp hentry with hnew | hold
        · exact nomatch congrArg Prod.fst hnew
        · exact h.accepted spend nonce merkleProof merkleRoot current hold
  | spend proof nonce merkleProof merkleRoot =>
      rcases idealVerify_spend_ok haccepted with ⟨hborne, hledger⟩
      have hissue := h.spend hborne hchecked hplace
      rw [hledger, hverified]
      refine ⟨fun token hmem => ?_, fun spend nonce merkleProof merkleRoot current hentry => ?_⟩
      · rcases List.mem_cons.mp hmem with rfl | hold
        · -- the refund is of the epoch of the token that was spent
          rcases hborne with ⟨_, _, htoken, _, _, hrefund⟩
          have hepoch : proof.kPrime.epoch = proof.token.epoch := by rw [hrefund]
          exact Or.inl (hepoch.trans (htoken.trans hissue))
        · exact h.skipped token hold
      · rcases List.mem_cons.mp hentry with hnew | hold
        · rw [Prod.mk.injEq, Request.spend.injEq] at hnew
          rw [hnew.1.1, hnew.2]
          exact hissue.trans hplace.symm
        · exact h.accepted spend nonce merkleProof merkleRoot current hold

theorem skipping_step (h : Skipping hT codec system) {deadline : Option ℕ}
    {action : Action (IdealRefresh G1) IdealSpend MasterAttributes}
    (hprompt : PromptRollovers (system, deadline) action) :
    Skipping hT codec (system.step (idealBackend hT codec) deadlineOf action) := by
  have hchecked : Checked (idealBackend hT codec)
      (system.step (idealBackend hT codec) deadlineOf action) := checked_step h.checked action
  have hmoves := step_moves (idealBackend hT codec) deadlineOf system action
  generalize system.step (idealBackend hT codec) deadlineOf action = next at hmoves hchecked ⊢
  cases hmoves with
  | stays => exact h
  | arrives id request fresh => exact ⟨h.graceless, hchecked, h.skipped, h.accepted⟩
  | advances id env task htask =>
      rcases advanceTask_effect (idealBackend hT codec) deadlineOf system id env task with
        ⟨next, heffect, hnext⟩
      rw [hnext] at hchecked ⊢
      cases heffect with
      | keeps _ hverified hledger _ =>
          exact ⟨h.graceless, hchecked, by rw [hledger]; exact h.skipped,
            by rw [hverified]; exact h.accepted⟩
      | adds key member _ _ _ _ hverified hledger _ =>
          exact ⟨h.graceless, hchecked, by rw [hledger]; exact h.skipped,
            by rw [hverified]; exact h.accepted⟩
      | verifies now coins response hstage haccepted _ hverified _ =>
          rcases h.verifies htask (hprompt task htask) hstage haccepted hverified with
            ⟨hskipped, haccepted⟩
          exact ⟨h.graceless, hchecked, hskipped, haccepted⟩
  | ticks seconds => exact ⟨h.graceless, hchecked, h.skipped, h.accepted⟩
  | reconfigures config =>
      rcases hprompt with ⟨hforward, hconfig, hskips⟩
      have hzero : config.epochGracePeriodSecs = 0 := hconfig.trans h.graceless
      have hlt : system.config.currentEpoch.toNat < config.currentEpoch.toNat := hforward
      have hne : config.currentEpoch.toNat ≠ system.config.currentEpoch.toNat + 1 := fun hsucc =>
        absurd (hzero ▸ hskips hsucc) (UInt64.lt_irrefl _)
      refine ⟨hzero, hchecked, fun token hmem => Or.inr ?_, h.accepted⟩
      show token.epoch.toNat + 1 < config.currentEpoch.toNat
      rcases h.skipped token hmem with hsame | hold
      · rw [hsame]
        omega
      · omega
  | mints token => exact ⟨h.graceless, hchecked, h.skipped, h.accepted⟩

theorem skipping_start (bloom : BloomFilter) {config : ServerConfig}
    (hzero : config.epochGracePeriodSecs = 0) :
    Skipping hT codec (System.start bloom IdealLedger.empty config) where
  graceless := hzero
  checked := checked_start bloom IdealLedger.empty config
  skipped := fun _ hmem => absurd hmem List.not_mem_nil
  accepted := fun _ _ _ _ _ hentry => absurd hentry List.not_mem_nil

/-- The invariant holds where a run ends. -/
theorem skipping_run {bloom : BloomFilter} {config : ServerConfig}
    {actions : List (Action (IdealRefresh G1) IdealSpend MasterAttributes)}
    (hzero : config.epochGracePeriodSecs = 0)
    (hprompt : Along (System.timedStep (idealBackend hT codec) deadlineOf) PromptRollovers
      (System.start bloom IdealLedger.empty config, none) actions) :
    Skipping hT codec (run (System.step (idealBackend hT codec) deadlineOf)
      (System.start bloom IdealLedger.empty config) actions) := by
  rw [← run_watched System.graceEnd (System.start bloom IdealLedger.empty config, none) actions]
  exact run_invariant (I := fun timed => Skipping hT codec timed.1) (H := PromptRollovers)
    (fun _ _ hinv hholds => skipping_step hinv hholds) (skipping_start bloom hzero) hprompt

/-- The amount of a spend of a token of `x`, of whatever epoch. -/
def Request.amountOf {G1 : Type} (x : Scalar) : Request (IdealRefresh G1) IdealSpend → ℕ
  | .refresh _ => 0
  | .spend proof _ _ _ => if proof.token.x = x then proof.s.toNat else 0

/-- The amounts that `x` has spent while the epoch was current, added up. -/
def spentDuring {G1 : Type}
    (verified : List (Request (IdealRefresh G1) IdealSpend × ServerConfig)) (x : Scalar)
    (epoch : UInt32) : ℕ :=
  (verified.map fun entry =>
    if entry.2.currentEpoch = epoch then entry.1.amountOf x else 0).sum

/-- Where every accepted spend is of the epoch it was accepted in, what is spent while an epoch
is current is spent on its tokens. -/
theorem spentDuring_le (h : Skipping hT codec system)
    (haccounted : Accounted hT system.server) (x : Scalar) (epoch : UInt32) :
    spentDuring system.server.verified x epoch ≤ spentOn system.server.verified x epoch := by
  refine List.sum_le_sum fun entry hentry => ?_
  have hborne := haccounted.borneOut entry hentry
  rcases entry with ⟨request, config⟩
  cases request with
  | refresh proof => simp only [Request.amountOf, ite_self, Request.spendAmount, le_refl]
  | spend proof nonce merkleProof merkleRoot =>
      -- the token is of the epoch that the spend names, which is the current one
      have hown : proof.token.epoch = config.currentEpoch :=
        hborne.2.trans (h.accepted proof nonce merkleProof merkleRoot config hentry)
      by_cases hepoch : config.currentEpoch = epoch
      · simp only [Request.amountOf, Request.spendAmount, hown, hepoch, if_true, and_true, le_refl]
      · simp only [hepoch, if_false, Nat.zero_le]

/-- What a master secret may spend on the tokens of an epoch is at most what one of its master
tokens allows. -/
theorem refreshesOn_sum_le (h : RateLimited hT codec system) {x : Scalar} {cMax : ℕ}
    (hmax : ∀ master ∈ system.server.ledger.masters, master.x = x → master.cMax.toNat ≤ cMax)
    (epoch : UInt32) : (refreshesOn system.server.verified x epoch).sum ≤ cMax := by
  have hlength := (refreshesOn_length_le codec h.accounted x epoch).trans (h.guarded _).once
  cases hlist : refreshesOn system.server.verified x epoch with
  | nil => exact Nat.zero_le _
  | cons only others =>
      rw [hlist, List.length_cons] at hlength
      have hnone : others = [] := List.length_eq_zero_iff.mp (by omega)
      have hmem : only ∈ refreshesOn system.server.verified x epoch :=
        hlist ▸ List.mem_cons_self
      rcases master_of_refreshesOn h.accounted hmem with ⟨master, hmaster, hx, hc⟩
      rw [hnone, List.sum_cons, List.sum_nil, ← hc]
      exact hmax master hmaster hx

end Spending

section Example

/-- A configuration that asks for the strict limit. -/
def graceless : ServerConfig := { epochThree with epochGracePeriodSecs := 0 }

def nextTen : DailyAttributes := { tenLeft with k := 18, epoch := 4 }

/-- A spend of all of a token of ten, under the nonce. -/
def spendTen (token : DailyAttributes) (nonce : ℕ) :
    Request (IdealRefresh Scalar) IdealSpend :=
  .spend ⟨token.k, token.epoch, 10, token, { token with k := 7, c := 0 }⟩ (leArray 16 nonce)
    none none

/-- A token of epoch three is issued, and a day passes. -/
def firstDay : List (Action (IdealRefresh Scalar) IdealSpend MasterAttributes) :=
  [.mint ⟨5, 10, 4000000000⟩] ++ handled 0 refreshTen ++ [.tick 86400]

/-- Five minutes into epoch four, a token of the epoch is issued and spent, and the token of
epoch three comes to its verification. -/
def secondDay : List (Action (IdealRefresh Scalar) IdealSpend MasterAttributes) :=
  [.tick 301] ++ handled 1 (.refresh ⟨5, nextTen⟩) ++ handled 2 (spendTen nextTen 1) ++
    .arrive 3 (spendTen tenLeft 2) :: List.replicate 5 (.advance 3 calm)

def overspend : List (Action (IdealRefresh Scalar) IdealSpend MasterAttributes) :=
  firstDay ++ .reconfigure { graceless with currentEpoch := 4 } ::
    (secondDay ++ [.advance 3 calm, .advance 3 calm])

/-- With a grace period, the token of epoch three is spent while it lasts, and the operator goes
on to epoch five before it is over. -/
def inGrace : List (Action (IdealRefresh Scalar) IdealSpend MasterAttributes) :=
  firstDay ++ .reconfigure { epochThree with currentEpoch := 4 } ::
    (.tick 100 :: handled 1 (spendTen tenLeft 1) ++
      [.tick 200, .reconfigure { epochThree with currentEpoch := 5 }])

/-- A token of epoch five. -/
def fiveTen : DailyAttributes := { tenLeft with k := 18, epoch := 5 }

/-- Without one, the operator goes from epoch three to epoch five, and tokens of either are spent
in their epochs. -/
def skippedEpoch : List (Action (IdealRefresh Scalar) IdealSpend MasterAttributes) :=
  firstDay ++ handled 1 (spendTen tenLeft 1) ++
    .reconfigure { graceless with currentEpoch := 5 } ::
    (.tick 301 :: handled 2 (.refresh ⟨5, fiveTen⟩) ++ handled 3 (spendTen fiveTen 2))

end Example

end Ebut
