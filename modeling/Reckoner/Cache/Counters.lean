import Reckoner.Cache.Basic
import Reckoner.Json.Basic

/-!
# Counters of a cache

* `RateCache.counters` — the counters of a cache, with its name and the lifetime of its values.
-/

namespace Reckoner

variable {ω ν : Type}

/-- The counters of a cache, with its name and the lifetime of its values in seconds. -/
def RateCache.counters (name : String) (lifetime : Float) (c : RateCache ω ν) : Json :=
  .obj [("name", .str name), ("ttl_seconds", .float lifetime), ("entries", .int c.entries.length),
    ("in_flight", .int c.flights.length), ("hits", .int c.hits), ("joins", .int c.joins),
    ("fetches", .int c.fetches), ("failures", .int c.failures)]

end Reckoner
