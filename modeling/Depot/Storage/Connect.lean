import Depot.Config.Basic
import Depot.Storage.Machine

/-!
# Connecting

A storage begins with settings that pass their checks, an empty pool, and one client of its own that
stays outside of the pool.
-/

set_option autoImplicit false

namespace Depot.Storage

variable {World Writer : Type}

/-- What a storage of some kind is set up with under these settings. -/
def Setup.ofConfig (kind : String) (c : Config) : Setup := ⟨kind, c.bucket, c.roots, c.writeOptions⟩

/-- The number of the client outside of the pool, which is created before all others. -/
def directClient : Client := 1

/-- The storage is ready. -/
def connectedLog (kind : String) (c : Config) : LogLine :=
  ⟨.debug, "storage connected",
    [("kind", kind), ("bucket", c.bucket), ("pool_size", toString c.poolSize)]⟩

/-- A storage at its beginning, over a backend in some state. As said with `Pool.new`, the size of
its pool has no upper limit here. -/
def connect (kind : String) (backend : Backend World Writer) (c : Config) (world : World) :
    Except StoreError (Machine World Writer) := do
  c.validate
  let pool ← Pool.new c.poolSize c.waitMillis (directClient + 1)
  let a := backend.create world
  match a.result with
  | .error e => .error e.toConnectFailed
  | .ok () =>
    let m : Machine World Writer :=
      { pool
        world := a.world
        direct := some directClient
        tasks := []
        nextTask := 0
        now := 0
        alarms := 0
        woken := []
        log := [] }
    .ok (m.note (a.log ++ [connectedLog kind c]))

end Depot.Storage
