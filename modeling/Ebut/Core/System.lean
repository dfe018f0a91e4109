import Ebut.Core.Server
import Ebut.Library.Transition

/-!
# Interleaved Requests

The server with every request it has been sent. Requests arrive at any time and
take their steps in any order; a request that is never advanced again is one whose
caller has gone away. In between, time passes, master tokens are minted and the
operator puts a new configuration in place, in whatever order.

A request keeps the configuration it arrived under, as the handlers hold on to
their `AppState`. The nonce manager outlives a change of configuration.

## Main definitions

* `Task`: A request under way.
* `System`, `Action`, `System.step`: The server with its requests.
* `DayLongEpochs`: Each epoch is current for a day or longer.
-/

namespace Ebut

variable {G1 P Q A B L M : Type}

/-- A request under way, with the configuration it arrived under. -/
structure Task (P Q A B : Type) where
  request : Request P Q
  config : ServerConfig
  phase : Phase A B

structure System (P Q A B L : Type) where
  server : Server P Q L
  config : ServerConfig
  /-- When the configuration was put in place. -/
  since : ℕ
  tasks : ℕ → Option (Task P Q A B)

inductive Action (P Q M : Type) where
  | arrive (id : ℕ) (request : Request P Q)
  | advance (id : ℕ) (env : Env)
  | tick (seconds : ℕ)
  | reconfigure (config : ServerConfig)
  | mint (token : M)

namespace System

/-- A server that no request has reached yet. -/
def start (bloom : BloomFilter) (ledger : L) (config : ServerConfig) : System P Q A B L where
  server := { redis := Redis.empty, clock := 0, bloom, ledger, verified := [] }
  config
  since := 0
  tasks := fun _ => none

variable (backend : Backend G1 P Q A B L M) (deadlineOf : ℕ → UInt64 → Option ℕ)
  (system : System P Q A B L)

/-- The system after a step of the given request. -/
def advanceTask (id : ℕ) (env : Env) (task : Task P Q A B) : System P Q A B L :=
  let next := Ebut.advance backend deadlineOf task.config env system.server task.request task.phase
  { system with
    server := next.1
    tasks := Function.update system.tasks id (some { task with phase := next.2 }) }

/-- The answer to an action. An identifier in use does not name a second request. -/
def step : Action P Q M → System P Q A B L
  | .arrive id request =>
      match system.tasks id with
      | some _ => system
      | none =>
          { system with
            tasks := Function.update system.tasks id
              (some { request, config := system.config, phase := .getCached }) }
  | .advance id env =>
      match system.tasks id with
      | none => system
      | some task => advanceTask backend deadlineOf system id env task
  | .tick seconds =>
      { system with
        server := { system.server with clock := system.server.clock + seconds } }
  -- requests under way keep the configuration they have
  | .reconfigure config => { system with config, since := system.server.clock }
  | .mint token =>
      { system with
        server := { system.server with ledger := backend.mint token system.server.ledger } }

/-- The operator moves to the next epoch after a day or later, and changes nothing
else. -/
def DayLongEpochs (system : System P Q A B L) : Action P Q M → Prop
  | .reconfigure config =>
      system.since + 86400 ≤ system.server.clock ∧
        config = { system.config with currentEpoch := system.config.currentEpoch + 1 }
  | _ => True

instance (action : Action P Q M) : Decidable (system.DayLongEpochs action) := by
  unfold DayLongEpochs
  split <;> infer_instance

end System

end Ebut
