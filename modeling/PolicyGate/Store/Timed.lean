import PolicyGate.Store.Memory
import PolicyGate.Time.Instant

/-!
The cache whose entries expire a fixed time after they were written. An expired entry reads as
absent; reading it takes it away, in a second step of its own, and a sweep takes away all that have
expired. Main statement: whatever is taken away for its age has expired by then.
-/

namespace PolicyGate

/-- An entry of a cache. -/
structure TimedEntry where
  fields : FlatFields
  expiresAt : Instant

/-- A cache with a time to live. -/
structure TimedCache where
  ttl : Duration
  entries : SortedMap TimedEntry

namespace TimedEntry

/-- Whether an entry has not yet expired. -/
def isLive (e : TimedEntry) (now : Instant) : Bool := now < e.expiresAt

end TimedEntry

/-- What a look-up finds in a cache. -/
inductive TimedAnswer where
  | absent
  | expired
  | live (fields : FlatFields)

namespace TimedCache

variable {α : Type}

def new (ttl : Duration) : TimedCache := ⟨ttl, ∅⟩

/-- How long an entry lives: as long as it is asked for, but no longer than the cache allows. -/
def effectiveTtl (c : TimedCache) (requested : Option Duration) : Duration :=
  match requested with
  | some d => if d.nanos ≤ c.ttl.nanos then d else c.ttl
  | none => c.ttl

/-- Looks for an entry. -/
def find (c : TimedCache) (now : Instant) (key : String) : TimedAnswer :=
  match c.entries.get? key with
  | none => .absent
  | some e => if e.isLive now then .live e.fields else .expired

/-- Takes an entry away if it has expired. -/
def dropExpired (c : TimedCache) (now : Instant) (key : String) : TimedCache :=
  match c.entries.get? key with
  | some e => if e.isLive now then c else { c with entries := c.entries.erase key }
  | none => c

/-- The record that a look-up found. -/
def answer (type : RecordType α) : TimedAnswer → Except StoreError (Option α)
  | .live fields => (type.ofFields fields).map some
  | _ => .ok none

/-- The record under a key, and the cache without it if it has expired. -/
def get (c : TimedCache) (type : RecordType α) (now : Instant) (key : String) :
    Except StoreError (Option α) × TimedCache :=
  let found := c.find now (type.fullKey key)
  (answer type found, match found with
    | .expired => c.dropExpired now (type.fullKey key)
    | _ => c)

/-- Puts a record under a key; nothing if the clock cannot hold the end of its life. -/
def put (c : TimedCache) (type : RecordType α) (now : Instant) (key : String) (record : α)
    (requested : Option Duration) : Option TimedCache :=
  (now.after? (c.effectiveTtl requested)).map fun expiresAt =>
    { c with entries := c.entries.insert (type.fullKey key) ⟨type.toFields record, expiresAt⟩ }

def delete (c : TimedCache) (type : RecordType α) (key : String) : TimedCache :=
  { c with entries := c.entries.erase (type.fullKey key) }

def size (c : TimedCache) : Nat := c.entries.size

/-- Takes all expired entries away. -/
def purge (c : TimedCache) (now : Instant) : TimedCache :=
  { c with entries := c.entries.filter fun e => e.isLive now }

theorem get?_purge (c : TimedCache) (now : Instant) (key : String) :
    (c.purge now).entries.get? key = (c.entries.get? key).filter fun e => e.isLive now :=
  SortedMap.get?_filter c.entries _ key

/-- To drop an expired entry touches no other key. -/
theorem get?_dropExpired (c : TimedCache) (now : Instant) (key key' : String) :
    (c.dropExpired now key).entries.get? key' =
      if key' = key then (c.entries.get? key').filter fun e => e.isLive now
      else c.entries.get? key' := by
  unfold dropExpired
  split
  · next e he =>
    by_cases hl : e.isLive now
    · by_cases hk : key' = key <;> simp_all [Option.filter]
    · by_cases hk : key' = key <;> simp_all [SortedMap.get?_erase, Option.filter]
  · next he => by_cases hk : key' = key <;> simp_all

end TimedCache

/-- A task that sweeps a cache from time to time. -/
structure Sweeper where
  period : Duration
  nextTick : Instant
  isFinished : Bool := false

namespace Sweeper

/-- The shortest period of a sweeper. -/
def minPeriod : Duration := .ofMillis 10

def new (period : Duration) (now : Instant) : Sweeper where
  period := if period.nanos ≤ minPeriod.nanos then minPeriod else period
  nextTick := now

end Sweeper

/-- A cache with the sweepers that serve it; without any holder the sweepers end at their
next tick. -/
structure SweptCache where
  cache : TimedCache
  isHeld : Bool := true
  sweepers : List Sweeper := []

namespace SweptCache

/-- The first tick among those not later than a point in time, with the place of its sweeper. -/
def nextTick? (s : SweptCache) (until_ : Instant) : Option (Nat × Instant) :=
  s.sweepers.zipIdx.foldl (fun best (sweeper, place) =>
    if sweeper.isFinished ∨ until_ < sweeper.nextTick then best
    else match best with
      | some (_, tick) => if sweeper.nextTick < tick then some (place, sweeper.nextTick) else best
      | none => some (place, sweeper.nextTick)) none

/-- A tick of the sweeper at a place: a sweep, or its end when nobody holds the cache. -/
def tick (s : SweptCache) (place : Nat) (now : Instant) : SweptCache :=
  if s.isHeld then
    { s with
      cache := s.cache.purge now
      sweepers := s.sweepers.modify place fun sweeper =>
        { sweeper with nextTick := now.plus sweeper.period } }
  else { s with
    sweepers := s.sweepers.modify place fun sweeper => { sweeper with isFinished := true } }

/-- All ticks up to a point in time, each at its own time. -/
def runUntil (until_ : Instant) : Nat → SweptCache → SweptCache
  | 0, s => s
  | fuel + 1, s =>
    match s.nextTick? until_ with
    | some (place, now) => runUntil until_ fuel (s.tick place now)
    | none => s

/-- A bound on the number of ticks in a length of time: no sweeper ticks more often than every ten
milliseconds. -/
def tickBound (s : SweptCache) (elapsed : Duration) : Nat :=
  (elapsed.millis / 10 + 2) * s.sweepers.length + 1

/-- Lets the clock go on from one point in time to another. -/
def advance (s : SweptCache) (now : Instant) (elapsed : Duration) : SweptCache :=
  runUntil (now.plus elapsed) (s.tickBound elapsed) s

/-- Starts a sweeper, which sweeps at once. -/
def startSweeper (s : SweptCache) (period : Duration) (now : Instant) : SweptCache :=
  { s with sweepers := s.sweepers ++ [Sweeper.new period now] }.advance now ⟨0⟩

end SweptCache

end PolicyGate
