import NgBigCache.Binary
import Mathlib.Data.List.Basic

/-! # The TTL table of a shard

Every shard owns a `ttlManager` that groups the keys stored with a finite TTL by
their expiry second, so that one timer per shard can evict a whole second's cohort
at once.  The manager's source is not among the sources; the shard calls
`ttlTable.put(expiry, key)`, `ttlTable.remove(expiry, key)`, `ttlTable.reset()` and
reads `ttlTable.ShardHasher`, and the manager is modelled from §4.3 of the spec:

* `cohorts` maps an expiry second to its set of keys, the empty set standing for a
  dropped cohort, so each cohort carries the proof that it has no repeated key;
* `put` inserts a key into its cohort, `remove` deletes it, `reset` clears them all;
* `shardHasher` is the 64-bit hasher the manager is built with, the one the cache
  hashes keys with.

The timer that decides when a cohort fires is left out: a firing is a step a run
may take for any second at any moment (`Expiry.lean`), which covers every timer. -/

set_option autoImplicit false

namespace NgBigCache

/-- Modelled from the spec: the `ttlManager` of a shard. -/
structure TtlManager where
  cohorts : UInt64 → List Bytes
  nodup : ∀ timestamp, (cohorts timestamp).Nodup
  shardHasher : Bytes → UInt64

namespace TtlManager

/-- Modelled from the spec: `newTtlManager(shard, hasher)`, with no cohort. -/
def empty (hasher : Bytes → UInt64) : TtlManager := ⟨fun _ => [], fun _ => List.nodup_nil, hasher⟩

private theorem nodup_update (m : TtlManager) (timestamp : UInt64) (cohort : List Bytes)
    (nodup : cohort.Nodup) : ∀ t, (Function.update m.cohorts timestamp cohort t).Nodup := by
  intro t
  by_cases here : t = timestamp
  · subst here; simpa using nodup
  · simpa [here] using m.nodup t

/-- Modelled from the spec: `put(timestamp, key)` adds the key to its cohort. -/
def put (m : TtlManager) (timestamp : UInt64) (key : Bytes) : TtlManager :=
  let cohort := m.cohorts timestamp
  ⟨Function.update m.cohorts timestamp (if key ∈ cohort then cohort else key :: cohort),
    nodup_update m timestamp _ (by
      split
      · exact m.nodup timestamp
      · exact List.nodup_cons.mpr ⟨‹_›, m.nodup timestamp⟩), m.shardHasher⟩

/-- Modelled from the spec: `remove(timestamp, key)` deletes the key from its cohort,
and with the last key the cohort. -/
def remove (m : TtlManager) (timestamp : UInt64) (key : Bytes) : TtlManager :=
  ⟨Function.update m.cohorts timestamp ((m.cohorts timestamp).filter (· ≠ key)),
    nodup_update m timestamp _ ((m.nodup timestamp).filter _), m.shardHasher⟩

/-- Drop the cohort of one second, after it has fired. -/
def dropCohort (m : TtlManager) (timestamp : UInt64) : TtlManager :=
  ⟨Function.update m.cohorts timestamp [], nodup_update m timestamp _ List.nodup_nil,
    m.shardHasher⟩

/-- Modelled from the spec: `reset()` clears every cohort. -/
def reset (m : TtlManager) : TtlManager := empty m.shardHasher

@[simp] theorem shardHasher_put (m : TtlManager) (timestamp : UInt64) (key : Bytes) :
    (m.put timestamp key).shardHasher = m.shardHasher := rfl

@[simp] theorem shardHasher_remove (m : TtlManager) (timestamp : UInt64) (key : Bytes) :
    (m.remove timestamp key).shardHasher = m.shardHasher := rfl

@[simp] theorem shardHasher_dropCohort (m : TtlManager) (timestamp : UInt64) :
    (m.dropCohort timestamp).shardHasher = m.shardHasher := rfl

@[simp] theorem shardHasher_reset (m : TtlManager) : m.reset.shardHasher = m.shardHasher := rfl

theorem mem_put {m : TtlManager} {timestamp t : UInt64} {key k : Bytes} :
    k ∈ (m.put timestamp key).cohorts t ↔ k ∈ m.cohorts t ∨ (t = timestamp ∧ k = key) := by
  by_cases here : t = timestamp
  · subst here
    by_cases present : key ∈ m.cohorts t <;> by_cases same : k = key <;> simp_all [put]
  · simp [put, here]

theorem mem_remove {m : TtlManager} {timestamp t : UInt64} {key k : Bytes} :
    k ∈ (m.remove timestamp key).cohorts t ↔ k ∈ m.cohorts t ∧ ¬ (t = timestamp ∧ k = key) := by
  by_cases here : t = timestamp
  · subst here; simp [remove]
  · simp [remove, here]

theorem mem_dropCohort {m : TtlManager} {timestamp t : UInt64} {k : Bytes} :
    k ∈ (m.dropCohort timestamp).cohorts t ↔ k ∈ m.cohorts t ∧ t ≠ timestamp := by
  by_cases here : t = timestamp
  · subst here; simp [dropCohort]
  · simp [dropCohort, here]

@[simp] theorem cohorts_reset (m : TtlManager) (t : UInt64) : m.reset.cohorts t = [] := rfl

end TtlManager

end NgBigCache
