import NgBigCache.Queue
import NgBigCache.Ttl
import Mathlib.Data.List.AList

/-! # A cache shard

`cacheShard` of `shard.go`: a map from a key's 64-bit hash to the index of the key's
wrapped entry in the shard's queue, the queue itself, the TTL table, the statistics,
and the read-write lock guarding them.  Each method is a function from the shard's
state and the method's arguments to the new state and what the Go method returns.

What the model keeps of the source:
* `hashmap map[uint64]uint32` is an `AList` from hash to a `UInt32` index, and Go's
  `s.hashmap[h]`, which reads 0 for an absent hash, is `indexOf`; `set` records
  `uint32(index)`, so an index of `2 ^ 32` or more is recorded modulo `2 ^ 32`;
* the lock is a `RWMutex` record that every path of every method locks and unlocks
  where the source does, so that lock balance is a statement about each path;
* the counters move where the source calls `hit()`, `miss()`, `collision()`,
  `delhit()`, `delmiss()` and `EvictCount++`;
* `onRemove(wrappedEntry)` appends the entry to `removed`;
* `set` takes the clock's reading `s.clock.epoch()` (Unix seconds) as `epoch`, and the
  index the queue's `Push` places the entry at as `placement` (`Queue.lean`).

Left out: `isVerbose`, `logger` and the collision log line, `sharedNum`, the scratch
`entryBuffer` (its bytes are what `wrapEntry` returns), `lifeWindow`, which only
`onEvict` reads and is its argument in `Shard/Expiry.lean`, and the capacity hints of
`reset`. -/

set_option autoImplicit false

namespace NgBigCache

/-- `NO_EXPIRY`: the expiry second stored for an entry that never expires. -/
def noExpiry : UInt64 := 0

/-- `time.Duration`: a signed number of nanoseconds. -/
abbrev Duration := Int

/-- Go's `uint64(x)` of a signed integer: two's complement, modulo `2 ^ 64`. -/
def uint64OfInt (x : Int) : UInt64 := UInt64.ofNat (x % 2 ^ 64).toNat

/-- `uint64(duration.Seconds())`.  `Seconds()` is a float64 that the conversion
truncates toward zero; the model takes the quotient truncated toward zero, which the
float agrees with for durations under `2 ^ 24` seconds.  A negative quotient converts
modulo `2 ^ 64`, as on amd64. -/
def durationSeconds (duration : Duration) : UInt64 := uint64OfInt (duration.tdiv 1000000000)

/-- The first lines of `set`: the expiry second stored for an entry set at clock
reading `epoch` with `duration`. -/
def expiryTimestampOf (epoch : Int) (duration : Duration) : UInt64 :=
  if duration ≠ 0 then uint64OfInt epoch + durationSeconds duration else noExpiry

/-- `sync.RWMutex`, as whether a writer holds it and how many readers do. -/
structure RWMutex where
  writer : Bool
  readers : Nat
  deriving DecidableEq, Repr

namespace RWMutex

def lock (m : RWMutex) : RWMutex := { m with writer := true }

def unlock (m : RWMutex) : RWMutex := { m with writer := false }

def rLock (m : RWMutex) : RWMutex := { m with readers := m.readers + 1 }

def rUnlock (m : RWMutex) : RWMutex := { m with readers := m.readers - 1 }

@[simp] theorem rUnlock_rLock (m : RWMutex) : m.rLock.rUnlock = m := by
  simp [rLock, rUnlock]

@[simp] theorem unlock_lock (m : RWMutex) : m.lock.unlock = m.unlock := rfl

end RWMutex

structure Stats where
  hits : Nat := 0
  misses : Nat := 0
  delHits : Nat := 0
  delMisses : Nat := 0
  collisions : Nat := 0
  evictCount : Nat := 0
  deriving DecidableEq, Repr

/-- The errors a shard method returns: `notFound(key)`, or the queue's own error. -/
inductive ShardError
  | entryNotFound (key : Bytes)
  | queue (error : QueueError)
  deriving DecidableEq, Repr

structure CacheShard where
  hashmap : AList (fun _ : UInt64 => UInt32)
  entries : BytesQueue
  lock : RWMutex
  stats : Stats
  ttlTable : TtlManager
  removed : List Bytes

/-- `initNewShard(config, callback, clock, num)`: an empty shard whose TTL table hashes
with `config.Hasher`. -/
def initNewShard (hasher : Bytes → UInt64) : CacheShard :=
  { hashmap := ∅, entries := ⟨[]⟩, lock := ⟨false, 0⟩, stats := {},
    ttlTable := TtlManager.empty hasher, removed := [] }

namespace CacheShard

theorem toNat_ofNat_index {n : Nat} (fits : n < 2 ^ 32) : (UInt32.ofNat n).toNat = n :=
  UInt32.toNat_ofNat_of_lt fits

theorem index_eq_of_toNat_eq {i j : UInt32} (same : i.toNat = j.toNat) : i = j :=
  UInt32.eq_of_toBitVec_eq (BitVec.eq_of_toNat_eq same)

/-- `s.hashmap[hashedKey]`, which is 0 for a hash with no binding. -/
def indexOf (s : CacheShard) (hashedKey : UInt64) : UInt32 := (s.hashmap.lookup hashedKey).getD 0

def hit (s : CacheShard) : CacheShard := { s with stats := { s.stats with hits := s.stats.hits + 1 } }

def miss (s : CacheShard) : CacheShard :=
  { s with stats := { s.stats with misses := s.stats.misses + 1 } }

def delhit (s : CacheShard) : CacheShard :=
  { s with stats := { s.stats with delHits := s.stats.delHits + 1 } }

def delmiss (s : CacheShard) : CacheShard :=
  { s with stats := { s.stats with delMisses := s.stats.delMisses + 1 } }

def collision (s : CacheShard) : CacheShard :=
  { s with stats := { s.stats with collisions := s.stats.collisions + 1 } }

def readUnlocked (s : CacheShard) : CacheShard := { s with lock := s.lock.rUnlock }

def writeUnlocked (s : CacheShard) : CacheShard := { s with lock := s.lock.unlock }

def get (s : CacheShard) (key : Bytes) (hashedKey : UInt64) : CacheShard × Except ShardError Bytes :=
  let s := { s with lock := s.lock.rLock }
  let itemIndex := s.indexOf hashedKey
  if itemIndex = 0 then (s.readUnlocked.miss, .error (.entryNotFound key))
  else match s.entries.get itemIndex.toNat with
    | .error err => (s.readUnlocked.miss, .error (.queue err))
    | .ok wrappedEntry =>
      if key ≠ readKeyFromEntry wrappedEntry then
        (s.readUnlocked.collision, .error (.entryNotFound key))
      else (s.readUnlocked.hit, .ok (readEntry wrappedEntry))

/-- The block of `set` that invalidates the entry a hash was bound to: forget it in the
TTL table under the new key, zero its key length and tombstone its slot. -/
def invalidatePrevious (s : CacheShard) (key : Bytes) (hashedKey : UInt64) : CacheShard :=
  let previousIndex := s.indexOf hashedKey
  if previousIndex = 0 then s
  else match s.entries.get previousIndex.toNat with
    | .ok previousEntry =>
      { s with ttlTable := s.ttlTable.remove (readTimestampFromEntry previousEntry) key,
               entries := s.entries.delete previousIndex.toNat }
    | .error _ => s

/-- `set(key, hashedKey, entry, duration)`.  The failure branch returns the outer `err`,
which the `if index, err := ...` shadows and which is still nil, and returns without
unlocking. -/
def set (s : CacheShard) (key : Bytes) (hashedKey : UInt64) (entry : Bytes) (duration : Duration)
    (epoch : Int) (placement : Option Nat) : CacheShard × UInt64 × Option ShardError :=
  let expiryTimestamp := expiryTimestampOf epoch duration
  let s := invalidatePrevious { s with lock := s.lock.lock } key hashedKey
  let w := wrapEntry expiryTimestamp hashedKey key entry
  match s.entries.push w placement with
  | .ok (index, entries) =>
    let s := { s with entries, hashmap := s.hashmap.insert hashedKey (UInt32.ofNat index),
                      lock := s.lock.unlock }
    let s := if duration ≠ 0 then { s with ttlTable := s.ttlTable.put expiryTimestamp key } else s
    (s, expiryTimestamp, none)
  | .error _ => (s, 0, none)

/-- One iteration of `evictDel`'s loop over the cohort's keys. -/
def evictOne (timeStamp : UInt64) (s : CacheShard) (v : Bytes) : CacheShard :=
  let s := { s with stats := { s.stats with evictCount := s.stats.evictCount + 1 } }
  let keyHash := s.ttlTable.shardHasher v
  let itemIndex := s.indexOf keyHash
  if itemIndex = 0 then s.delmiss
  else match s.entries.get itemIndex.toNat with
    | .error _ => s.delmiss
    | .ok wrappedEntry =>
      if readTimestampFromEntry wrappedEntry = timeStamp then
        { s with hashmap := s.hashmap.erase keyHash, removed := s.removed ++ [wrappedEntry],
                 entries := s.entries.delete itemIndex.toNat }.delhit
      else s

/-- `evictDel(timeStamp, set)`, with the keys in the order `set.Values()` lists them. -/
def evictDel (s : CacheShard) (timeStamp : UInt64) (values : List Bytes) :
    CacheShard × Option ShardError :=
  ((values.foldl (evictOne timeStamp) { s with lock := s.lock.lock }).writeUnlocked, none)

def del (s : CacheShard) (key : Bytes) (hashedKey : UInt64) : CacheShard × Option ShardError :=
  let s := { s with lock := s.lock.lock }
  let itemIndex := s.indexOf hashedKey
  if itemIndex = 0 then (s.writeUnlocked.delmiss, some (.entryNotFound key))
  else match s.entries.get itemIndex.toNat with
    | .error err => (s.writeUnlocked.delmiss, some (.queue err))
    | .ok wrappedEntry =>
      let s := { s with hashmap := s.hashmap.erase hashedKey, removed := s.removed ++ [wrappedEntry],
                        entries := s.entries.delete itemIndex.toNat, lock := s.lock.unlock }
      let timestamp := readTimestampFromEntry (resetKeyFromEntry wrappedEntry)
      ({ s with ttlTable := s.ttlTable.remove timestamp key }.delhit, none)

/-- `removeOldestEntry()`, which takes no lock of its own. -/
def removeOldestEntry (s : CacheShard) : CacheShard × Option ShardError :=
  match s.entries.pop with
  | .ok (oldest, entries) =>
    ({ s with entries, hashmap := s.hashmap.erase (readHashFromEntry oldest),
              removed := s.removed ++ [oldest] }, none)
  | .error err => (s, some (.queue err))

def reset (s : CacheShard) : CacheShard :=
  { s with hashmap := ∅, entries := s.entries.reset, ttlTable := s.ttlTable.reset,
           lock := s.lock.lock.unlock }

def len (s : CacheShard) : Nat := s.hashmap.entries.length

def getStats (s : CacheShard) : Stats := s.stats

def getOldestEntry (s : CacheShard) : Except QueueError Bytes := s.entries.peek

def getEntry (s : CacheShard) (index : Nat) : Except QueueError Bytes := s.entries.get index

/-- `copyKeys()`: the indices the map holds and their count.  Go ranges over a map in
no fixed order; the model lists them in the `AList`'s order. -/
def copyKeys (s : CacheShard) : List UInt32 × Nat :=
  (s.hashmap.entries.map Sigma.snd, s.hashmap.entries.length)

/-- Modelled from the spec: the TTL timer firing for the cohort of `timeStamp`, which
hands the cohort's keys to `evictDel` and drops the cohort. -/
def fire (s : CacheShard) (timeStamp : UInt64) (values : List Bytes) : CacheShard :=
  let s := (s.evictDel timeStamp values).1
  { s with ttlTable := s.ttlTable.dropCohort timeStamp }

end CacheShard

/-! ## Runs of a shard -/

/-- One step of a run: a call of a shard method with its arguments, a `set` whose entry
the queue pushes at `index`, or a firing of the TTL timer. -/
inductive ShardOp
  | get (key : Bytes) (hashedKey : UInt64)
  | set (key : Bytes) (hashedKey : UInt64) (entry : Bytes) (duration : Duration) (epoch : Int)
      (index : Nat)
  | del (key : Bytes) (hashedKey : UInt64)
  | evictDel (timeStamp : UInt64) (values : List Bytes)
  | removeOldestEntry
  | reset
  | fire (timeStamp : UInt64) (values : List Bytes)

namespace ShardOp

def apply (s : CacheShard) : ShardOp → CacheShard
  | get key hashedKey => (s.get key hashedKey).1
  | set key hashedKey entry duration epoch index =>
    (s.set key hashedKey entry duration epoch (some index)).1
  | del key hashedKey => (s.del key hashedKey).1
  | evictDel timeStamp values => (s.evictDel timeStamp values).1
  | removeOldestEntry => s.removeOldestEntry.1
  | reset => s.reset
  | fire timeStamp values => s.fire timeStamp values

/-- The contracts of the queue and the timer: a `set`'s entry is pushed at a fresh index,
and a firing hands over exactly its cohort's keys, in the order its hash set lists them. -/
def Contract (s : CacheShard) : ShardOp → Prop
  | set _ _ _ _ _ index => s.entries.Fresh index
  | fire timeStamp values => values.Perm (s.ttlTable.cohorts timeStamp)
  | _ => True

def IndexFits : ShardOp → Prop
  | set _ _ _ _ _ index => index < 2 ^ 32
  | _ => True

instance : (op : ShardOp) → Decidable op.IndexFits
  | set _ _ _ _ _ index => inferInstanceAs (Decidable (index < 2 ^ 32))
  | get .. | del .. | evictDel .. | removeOldestEntry | reset | fire .. => inferInstanceAs (Decidable True)

def HashedBy (hasher : Bytes → UInt64) : ShardOp → Prop
  | get key hashedKey | set key hashedKey _ _ _ _ | del key hashedKey => hashedKey = hasher key
  | _ => True

end ShardOp

/-- The states a shard reaches from `initNewShard hasher` by steps that `allowed` admits. -/
inductive Reachable (hasher : Bytes → UInt64) (allowed : CacheShard → ShardOp → Prop) :
    CacheShard → Prop
  | init : Reachable hasher allowed (initNewShard hasher)
  | step {s : CacheShard} (op : ShardOp) :
      Reachable hasher allowed s → allowed s op → Reachable hasher allowed (op.apply s)

end NgBigCache
