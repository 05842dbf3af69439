import HedgedForecast.Cache.Basic

/-! # Keys and their slots

A call finds the slot of its key or makes one. A cache that is full first drops the key that was
called least recently; keys with a flight are never dropped for that. Keys are also dropped when
nothing that could be served is left of them.
-/

namespace HedgedForecast.Cache

variable {V : Type}

/-- The number of the last call on a key. -/
def lastAccessOf (cache : Cache V) (slot : Nat) : Nat :=
  match cache.slots[slot]? with
  | some slot => slot.lastAccess
  | none => 0

/-- Of two keys, the one that was called less recently. -/
def lessRecent (cache : Cache V) (best : Option (String × Nat)) (key : String × Nat) :
    Option (String × Nat) :=
  match best with
  | none => some key
  | some other =>
    if cache.lastAccessOf key.2 < cache.lastAccessOf other.2 then some key else some other

/-- The key to drop from a full cache: the least recently called one without a flight. -/
def victim? (cache : Cache V) : Option (String × Nat) :=
  (cache.keys.filter fun key => cache.isIdle key.2).foldl cache.lessRecent none

/-- Drops a key. -/
def dropKey (cache : Cache V) (key : String) : Cache V :=
  { cache with keys := cache.keys.filter (·.1 != key) }

/-- Drops a key if the cache is full. -/
def makeRoom (cache : Cache V) : Cache V :=
  if cache.maxEntries ≤ cache.keys.length then
    match cache.victim? with
    | some (key, _) =>
      (cache.dropKey key).count fun stats => { stats with evictions := stats.evictions + 1 }
    | none => cache
  else cache

/-- The slot of a key for a new call, made if there is none. -/
def touch (cache : Cache V) (key : String) : Nat × Cache V :=
  let tick := cache.tick
  let cache := { cache with tick := tick + 1 }
  match cache.keys.lookup key with
  | some slot => (slot, cache.modifySlot slot fun old => { old with lastAccess := tick })
  | none =>
    let cache := cache.makeRoom
    let slot := cache.slots.size
    (slot, { cache with
      keys := cache.keys ++ [(key, slot)]
      slots := cache.slots.push { key, lastAccess := tick } })

/-- Whether nothing that could be served is left in a slot. -/
def isSpent (cache : Cache V) (slot : Nat) : Bool :=
  match cache.entryOf slot with
  | some entry => entry.servableUntil ≤ cache.clock.now
  | none => true

/-- Drops the key of a slot after a computation failed, if nothing that could be served is left and
the key still has this slot and no flight. -/
def evictFailed (cache : Cache V) (key : String) (slot : Nat) : Cache V :=
  if cache.keys.lookup key == some slot && cache.isIdle slot && cache.isSpent slot then
    (cache.dropKey key).count fun stats => { stats with evictions := stats.evictions + 1 }
  else cache

/-- Drops a key whatever its state; tells whether there was one. -/
def remove (cache : Cache V) (key : String) : Bool × Cache V :=
  ((cache.keys.lookup key).isSome, cache.dropKey key)

/-- Drops all keys of which nothing that could be served is left; tells how many. -/
def purge (cache : Cache V) : Nat × Cache V :=
  let kept := cache.keys.filter fun key => !(cache.isIdle key.2 && cache.isSpent key.2)
  let purged := cache.keys.length - kept.length
  (purged, { cache with keys := kept }.count fun stats =>
    { stats with evictions := stats.evictions + purged })

end HedgedForecast.Cache
