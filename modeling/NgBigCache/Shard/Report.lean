import NgBigCache.Shard.Concurrent

/-! # What a shard reports

`getStats()` returns the counters that the methods bump with atomic adds:
* `get` bumps one of `Hits`, `Misses` and `Collisions`;
* `del` bumps `DelHits` when it deletes an entry and `DelMisses` when it does not;
* `evictDel` bumps `EvictCount` once for each key of the cohort, then `DelHits` for each
  entry it deletes and `DelMisses` for each key with no readable entry.

`stats_run` holds over every run, from any shard.  `Hits + Misses + Collisions` grows by
the number of `get` calls.  `EvictCount` grows by the number of keys handed to `evictDel`.
`DelHits` grows by exactly the number of entries handed to `onRemove`, as long as the run
does not call `removeOldestEntry`.  No source calls `removeOldestEntry`, and it hands its
entry to `onRemove` without counting it.

`get_counts_reachable`: in every reachable state a `get` bumps `Misses` when its hash holds
nothing, `Hits` when it holds the key's own entry, and `Collisions` when it holds another
key's entry.

`copyKeys_reachable`: in every reachable state, `copyKeys()` returns the indices of the
live entries, each once, and their number.  That is `copyKeys()` when nothing runs between
its `make([]uint32, len(s.hashmap))`, read without the lock, and its `s.lock.RLock()`
(`copyKeysSized_len`).  A `set` of a new hash that runs there makes the loop write past the
slice: `copyKeys()` panics (`copyKeys_panics_after_set`).

`delHits_interleaved` holds over every interleaving of `Shard/Concurrent.lean`.  `del`
hands its entry to `onRemove` under the lock and calls `delhit()` only after its deferred
`remove`.  So `DelHits`, plus the `del` calls still between the two, is the number of
entries handed to `onRemove`. -/

set_option autoImplicit false

namespace NgBigCache

namespace CacheShard

/-- What a stretch of a run adds to the counters: `gets` to the lookup counters and
`handed` to `EvictCount`; and, when it makes no `removeOldestEntry` call (`pops = 0`), as
much to `DelHits` as to the entries handed to `onRemove`. -/
structure Tallies (s t : CacheShard) (gets handed pops : Nat) : Prop where
  lookups : t.stats.hits + t.stats.misses + t.stats.collisions =
    s.stats.hits + s.stats.misses + s.stats.collisions + gets
  evictions : t.stats.evictCount = s.stats.evictCount + handed
  removals : pops = 0 → t.removed.length + s.stats.delHits = s.removed.length + t.stats.delHits

section Tallies
variable {s t u : CacheShard} {gets handed pops gets' handed' pops' : Nat}

theorem Tallies.same (sameStats : t.stats = s.stats) (sameRemoved : t.removed = s.removed) :
    Tallies s t 0 0 0 where
  lookups := by rw [sameStats]; rfl
  evictions := by rw [sameStats]; rfl
  removals _ := by rw [sameStats, sameRemoved]

theorem Tallies.trans (first : Tallies s t gets handed pops) (second : Tallies t u gets' handed' pops') :
    Tallies s u (gets + gets') (handed + handed') (pops + pops') where
  lookups := by have := first.lookups; have := second.lookups; omega
  evictions := by have := first.evictions; have := second.evictions; omega
  removals noPop := by
    have := first.removals (by omega); have := second.removals (by omega); omega

/-- `hit()`, `miss()` and `collision()` each add one to the lookup counters. -/
theorem Tallies.lookup (sameStats : t.stats = s.stats) (sameRemoved : t.removed = s.removed)
    {bump : CacheShard → CacheShard} (bumps : bump = hit ∨ bump = miss ∨ bump = collision) :
    Tallies s (bump t) 1 0 0 := by
  rcases bumps with rfl | rfl | rfl <;>
    exact ⟨by simp only [hit, miss, collision, sameStats]; omega, by rw [← sameStats]; rfl,
      fun _ => by rw [← sameStats, ← sameRemoved]; rfl⟩

theorem Tallies.delmiss (sameStats : t.stats = s.stats) (sameRemoved : t.removed = s.removed) :
    Tallies s t.delmiss 0 0 0 :=
  ⟨by rw [← sameStats]; rfl, by rw [← sameStats]; rfl, fun _ => by rw [← sameStats, ← sameRemoved]; rfl⟩

/-- Handing an entry to `onRemove` and counting it. -/
theorem Tallies.delhit {e : Bytes} (sameStats : t.stats = s.stats) (handed : t.removed = s.removed ++ [e]) :
    Tallies s t.delhit 0 0 0 :=
  ⟨by simp only [CacheShard.delhit, sameStats, Nat.add_zero], by simp only [CacheShard.delhit, sameStats, Nat.add_zero],
    fun _ => by simp only [CacheShard.delhit, sameStats, handed, List.length_append, List.length_singleton]; omega⟩

end Tallies

/-! ## What each method adds -/

section Methods
variable (s : CacheShard) (key : Bytes) (h : UInt64)

theorem tallies_get : Tallies s (s.get key h).1 1 0 0 := by
  unfold CacheShard.get
  dsimp only
  split
  · exact Tallies.lookup rfl rfl (.inr (.inl rfl))
  · split
    · exact Tallies.lookup rfl rfl (.inr (.inl rfl))
    · split
      · exact Tallies.lookup rfl rfl (.inr (.inr rfl))
      · exact Tallies.lookup rfl rfl (.inl rfl)

theorem invalidatePrevious_stats_removed :
    (s.invalidatePrevious key h).stats = s.stats ∧ (s.invalidatePrevious key h).removed = s.removed := by
  unfold invalidatePrevious
  dsimp only
  split
  · exact ⟨rfl, rfl⟩
  · split <;> exact ⟨rfl, rfl⟩

theorem tallies_set (entry : Bytes) (duration : Duration) (epoch : Int) (index : Nat) :
    Tallies s (s.set key h entry duration epoch (some index)).1 0 0 0 := by
  obtain ⟨sameStats, sameRemoved⟩ := invalidatePrevious_stats_removed { s with lock := s.lock.lock } key h
  rw [set_some_fst]
  split <;> exact Tallies.same sameStats sameRemoved

theorem tallies_del : Tallies s (s.del key h).1 0 0 0 := by
  unfold CacheShard.del
  dsimp only
  split
  · exact Tallies.delmiss rfl rfl
  · split
    · exact Tallies.delmiss rfl rfl
    · exact Tallies.delhit rfl rfl

theorem tallies_evictOne (timeStamp : UInt64) (v : Bytes) : Tallies s (evictOne timeStamp s v) 0 1 0 := by
  have counted : Tallies s { s with stats := { s.stats with evictCount := s.stats.evictCount + 1 } } 0 1 0 :=
    ⟨rfl, rfl, fun _ => rfl⟩
  unfold evictOne
  dsimp only
  split
  · exact counted.trans (Tallies.delmiss rfl rfl)
  · split
    · exact counted.trans (Tallies.delmiss rfl rfl)
    · split
      · rename_i w _ _
        refine counted.trans (Tallies.delhit (e := w) ?_ ?_) <;> rfl
      · exact counted

theorem tallies_evictDel (timeStamp : UInt64) (values : List Bytes) :
    Tallies s (s.evictDel timeStamp values).1 0 values.length 0 := by
  have loop : ∀ (rest : List Bytes) (u : CacheShard),
      Tallies u (rest.foldl (evictOne timeStamp) u) 0 rest.length 0 := by
    intro rest
    induction rest with
    | nil => exact fun u => Tallies.same rfl rfl
    | cons v rest ih =>
      intro u
      have step := (tallies_evictOne u timeStamp v).trans (ih _)
      rw [List.foldl_cons, List.length_cons, Nat.add_comm]
      exact step
  have run := loop values { s with lock := s.lock.lock }
  exact ⟨run.lookups, run.evictions, run.removals⟩

end Methods

end CacheShard

/-! ## Over a run -/

/-- How many `get` calls a step makes. -/
def ShardOp.gets : ShardOp → Nat
  | .get .. => 1
  | _ => 0

/-- How many keys a step hands to `evictDel`. -/
def ShardOp.handed : ShardOp → Nat
  | .evictDel _ values | .fire _ values => values.length
  | _ => 0

/-- How many `removeOldestEntry` calls a step makes. -/
def ShardOp.pops : ShardOp → Nat
  | .removeOldestEntry => 1
  | _ => 0

/-- What a count of the steps adds up to over a run. -/
def ShardOp.total (count : ShardOp → Nat) : List ShardOp → Nat
  | [] => 0
  | op :: ops => count op + total count ops

namespace CacheShard

theorem tallies_removeOldestEntry (s : CacheShard) : Tallies s s.removeOldestEntry.1 0 0 1 := by
  unfold CacheShard.removeOldestEntry
  split <;> exact ⟨rfl, rfl, nofun⟩

theorem tallies_apply (s : CacheShard) (op : ShardOp) : Tallies s (op.apply s) op.gets op.handed op.pops := by
  cases op with
  | get key h => exact tallies_get s key h
  | set key h entry duration epoch index => exact tallies_set s key h entry duration epoch index
  | del key h => exact tallies_del s key h
  | evictDel timeStamp values => exact tallies_evictDel s timeStamp values
  | removeOldestEntry => exact tallies_removeOldestEntry s
  | reset => exact Tallies.same rfl rfl
  | fire timeStamp values =>
    refine (tallies_evictDel s timeStamp values).trans (Tallies.same ?_ ?_) <;> rfl

theorem total_pops_eq_zero : ∀ (ops : List ShardOp), ShardOp.removeOldestEntry ∉ ops → ShardOp.total ShardOp.pops ops = 0
  | [], _ => rfl
  | op :: ops, absent => by
    have rest := total_pops_eq_zero ops fun mem => absent (List.mem_cons_of_mem op mem)
    cases op <;> first
      | exact absurd (List.mem_cons_self _ _) absent
      | simp only [ShardOp.total, ShardOp.pops, rest]

theorem tallies_foldl : ∀ (ops : List ShardOp) (s : CacheShard),
    Tallies s (ops.foldl ShardOp.apply s) (ShardOp.total ShardOp.gets ops)
      (ShardOp.total ShardOp.handed ops) (ShardOp.total ShardOp.pops ops)
  | [], _ => Tallies.same rfl rfl
  | op :: ops, s => (tallies_apply s op).trans (tallies_foldl ops (op.apply s))

/-- Over every run of calls from any shard: the lookup counters grow by the number of
`get` calls, `EvictCount` by the number of keys handed to `evictDel`, and, when the run
calls no `removeOldestEntry`, `DelHits` by the number of entries handed to `onRemove`. -/
theorem stats_run (s : CacheShard) (ops : List ShardOp) :
    (ops.foldl ShardOp.apply s).stats.hits + (ops.foldl ShardOp.apply s).stats.misses +
        (ops.foldl ShardOp.apply s).stats.collisions =
      s.stats.hits + s.stats.misses + s.stats.collisions + ShardOp.total ShardOp.gets ops ∧
    (ops.foldl ShardOp.apply s).stats.evictCount = s.stats.evictCount + ShardOp.total ShardOp.handed ops ∧
    (ShardOp.removeOldestEntry ∉ ops →
      (ops.foldl ShardOp.apply s).removed.length + s.stats.delHits =
        s.removed.length + (ops.foldl ShardOp.apply s).stats.delHits) := by
  have run := tallies_foldl ops s
  exact ⟨run.lookups, run.evictions, fun absent => run.removals (total_pops_eq_zero ops absent)⟩

/-- A `set`, a hit, a miss, a `del` and a firing of a cohort of two keys. -/
theorem stats_run_new_shard :
    let s := initNewShard fun _ => 7
    let ops := [ShardOp.set [1] 7 [2] 0 0 1, .get [1] 7, .get [3] 7, .del [1] 7, .fire 5 [[1], [3]]]
    ShardOp.removeOldestEntry ∉ ops ∧
    (ops.foldl ShardOp.apply s).stats.hits + (ops.foldl ShardOp.apply s).stats.misses +
        (ops.foldl ShardOp.apply s).stats.collisions =
      s.stats.hits + s.stats.misses + s.stats.collisions + ShardOp.total ShardOp.gets ops ∧
    (ops.foldl ShardOp.apply s).stats.evictCount = s.stats.evictCount + ShardOp.total ShardOp.handed ops ∧
    (ShardOp.removeOldestEntry ∉ ops →
      (ops.foldl ShardOp.apply s).removed.length + s.stats.delHits =
        s.removed.length + (ops.foldl ShardOp.apply s).stats.delHits) := by
  intro s ops
  have absent : ShardOp.removeOldestEntry ∉ ops := by simp [ops]
  exact ⟨absent, stats_run s ops⟩

/-! ## Which counter a `get` bumps -/

/-- In every reachable state, `copyKeys()` returns the index of each live entry exactly
once, and their number. -/
theorem copyKeys_reachable {hasher : Bytes → UInt64} {s : CacheShard}
    (reach : Reachable hasher FitsContract s) :
    (s.copyKeys.1.map UInt32.toNat).Perm (s.entries.liveSlots.map Slot.index) ∧
      s.copyKeys.2 = s.entries.liveSlots.length := by
  have c := consistent_reachable (fun _ _ allowed => allowed) reach
  refine ⟨?_, c.len_eq⟩
  rw [copyKeys, List.map_map]
  exact c.bound_indices_perm

theorem copyKeys_reachable_after_sets :
    let s := (ShardOp.set [2] 9 [3] 0 0 2).apply ((ShardOp.set [1] 7 [2] 0 0 1).apply (initNewShard fun _ => 8))
    (s.copyKeys.1.map UInt32.toNat).Perm (s.entries.liveSlots.map Slot.index) ∧
      s.copyKeys.2 = s.entries.liveSlots.length :=
  copyKeys_reachable (.step _ (.step _ .init ⟨⟨by decide, by simp [initNewShard]⟩, by decide⟩)
    ⟨⟨by decide, by decide⟩, by decide⟩)

/-! ## `copyKeys()` sized before its lock -/

/-- The loop of `copyKeys()`: `keys[next] = index; next++` for each index the map holds,
or `none` where `next` runs past the slice, which panics. -/
def fillKeys : List UInt32 → List UInt32 → Nat → Option (List UInt32 × Nat)
  | keys, [], next => some (keys, next)
  | keys, index :: rest, next =>
    if next < keys.length then fillKeys (keys.set next index) rest (next + 1) else none

/-- `copyKeys()` as the source runs it: the slice made with the `len(s.hashmap)` read
before `s.lock.RLock()`, here `size`, and the loop run on the map `s` holds once it has
the lock. -/
def copyKeysSized (size : Nat) (s : CacheShard) : Option (List UInt32 × Nat) :=
  fillKeys (List.replicate size 0) (s.hashmap.entries.map Sigma.snd) 0

/-- The loop fills the zeroed tail of the slice in order, and panics exactly when the map
holds more indices than the tail has room for. -/
theorem fillKeys_replicate (indices : List UInt32) :
    ∀ (pre : List UInt32) (room : Nat), fillKeys (pre ++ List.replicate room 0) indices pre.length =
      if indices.length ≤ room then
        some (pre ++ indices ++ List.replicate (room - indices.length) 0, pre.length + indices.length)
      else none := by
  induction indices with
  | nil => intro pre room; simp [fillKeys]
  | cons index rest ih =>
    intro pre room
    cases room with
    | zero => simp [fillKeys]
    | succ room =>
      have filled : (pre ++ List.replicate (room + 1) 0).set pre.length index =
          (pre ++ [index]) ++ List.replicate room 0 := by
        simp [List.set_append_right, List.replicate_succ]
      rw [fillKeys, if_pos (by simp), filled, show pre.length + 1 = (pre ++ [index]).length by simp, ih]
      by_cases fits : rest.length ≤ room <;> simp [fits, Nat.add_assoc, Nat.add_comm 1]

/-- `copyKeys()` sized to `size`: the map's indices then zeros when they fit, a panic when
the map holds more than `size`. -/
theorem copyKeysSized_eq (size : Nat) (s : CacheShard) :
    copyKeysSized size s =
      if s.len ≤ size then some (s.copyKeys.1 ++ List.replicate (size - s.len) 0, s.len) else none := by
  have loop := fillKeys_replicate (s.hashmap.entries.map Sigma.snd) [] size
  simp only [List.nil_append, List.length_nil, List.length_map, Nat.zero_add] at loop
  exact loop

/-- Sized while nothing intervenes, `copyKeys()` is the one step `copyKeys` of the model. -/
theorem copyKeysSized_len (s : CacheShard) : copyKeysSized s.len s = some s.copyKeys := by
  rw [copyKeysSized_eq, if_pos (Nat.le_refl _), Nat.sub_self, List.replicate_zero, List.append_nil]
  rfl

/-- A `set` of a hash the map does not hold adds one index to it. -/
theorem len_set_of_lookup_none {s : CacheShard} {key : Bytes} {h : UInt64} (entry : Bytes)
    (duration : Duration) (epoch : Int) (index : Nat) (unbound : s.hashmap.lookup h = none) :
    (s.set key h entry duration epoch (some index)).1.len = s.len + 1 := by
  have locked : { s with lock := s.lock.lock }.hashmap.lookup h = none := unbound
  rw [len, set_some_hashmap, invalidatePrevious_of_lookup_none _ key h locked,
    AList.insert_entries_of_neg (AList.lookup_eq_none.mp unbound)]
  rfl

/-- `copyKeys()` reads `len(s.hashmap)` before it takes the read lock.  A `set` of a hash
the map does not hold, run by another goroutine between the two, leaves the map one index
longer than the slice, and the loop's last `keys[next] = index` panics. -/
theorem copyKeys_panics_after_set {s : CacheShard} {key : Bytes} {h : UInt64} (entry : Bytes)
    (duration : Duration) (epoch : Int) (index : Nat) (unbound : s.hashmap.lookup h = none) :
    copyKeysSized s.len (s.set key h entry duration epoch (some index)).1 = none := by
  rw [copyKeysSized_eq, len_set_of_lookup_none entry duration epoch index unbound,
    if_neg (Nat.not_succ_le_self _)]

theorem copyKeys_panics_after_set_new_shard :
    (initNewShard fun _ => 7).hashmap.lookup 7 = none ∧
      copyKeysSized (initNewShard fun _ => 7).len
        ((initNewShard fun _ => 7).set [1] 7 [5] 0 0 (some 1)).1 = none :=
  ⟨rfl, copyKeys_panics_after_set [5] 0 0 1 rfl⟩

end CacheShard

/-! ## Over an interleaving -/

/-- A `del`'s deferred `remove`, whose `delhit()` is still to come. -/
def Deferred.isRemove : Deferred → Bool
  | .remove .. => true
  | _ => false

namespace SharedShard

section Counted
variable {hasher : Bytes → UInt64} {t t' : SharedShard}

/-- `DelHits`, plus the `del` calls between their unlock and their `delhit()`, is the
number of entries handed to `onRemove`. -/
def DelsCounted (t : SharedShard) : Prop :=
  t.shard.stats.delHits + t.inFlight.countP Deferred.isRemove = t.shard.removed.length

/-- A step that moves `DelHits` and `onRemove` together and starts or ends no `remove`. -/
theorem DelsCounted.of_tallies (counted : DelsCounted t)
    (together : t'.shard.removed.length + t.shard.stats.delHits =
      t.shard.removed.length + t'.shard.stats.delHits)
    (sameRemoves : t'.inFlight.countP Deferred.isRemove = t.inFlight.countP Deferred.isRemove) :
    DelsCounted t' := by
  unfold DelsCounted at counted ⊢
  omega

/-- `del`'s critical section hands its entry to `onRemove` and leaves its `remove` in
flight, or counts a miss. -/
theorem delLocked_counted (s : CacheShard) (key : Bytes) (h : UInt64) :
    (s.delLocked key h).1.stats.delHits + (afterDel key (s.delLocked key h).2).countP Deferred.isRemove +
        s.removed.length = (s.delLocked key h).1.removed.length + s.stats.delHits := by
  unfold CacheShard.delLocked
  dsimp only
  split
  · exact Nat.add_comm _ _
  · split
    · exact Nat.add_comm _ _
    · simp [afterDel, Deferred.isRemove]
      omega

theorem DelsCounted.step (counted : DelsCounted t) {e : ShardStep} (next : t.step e = some t') :
    DelsCounted t' := by
  cases e with
  | get key h => cases next; exact counted.of_tallies ((CacheShard.tallies_get _ key h).removals rfl) rfl
  | set key h entry duration epoch index =>
    cases next
    obtain ⟨sameStats, sameRemoved⟩ :=
      CacheShard.invalidatePrevious_stats_removed { t.shard with lock := t.shard.lock.lock } key h
    refine counted.of_tallies (by rw [CacheShard.setLocked]; dsimp only; rw [sameStats, sameRemoved]) ?_
    rw [List.countP_append, afterSet]
    split <;> rfl
  | del key h =>
    cases next
    have del := delLocked_counted t.shard key h
    unfold DelsCounted at counted ⊢
    dsimp only
    rw [List.countP_append]
    omega
  | reset => cases next; exact counted.of_tallies rfl rfl
  | pop => cases next; exact counted.of_tallies rfl (by rw [List.countP_append]; rfl)
  | resume call =>
    simp only [SharedShard.step] at next
    split at next
    · rename_i mem
      cases next
      have erased := (List.perm_cons_erase mem).countP_eq Deferred.isRemove
      rw [List.countP_cons] at erased
      cases call with
      | put => exact counted.of_tallies rfl (by rw [erased]; rfl)
      | remove =>
        unfold DelsCounted at counted ⊢
        simp only [Deferred.isRemove, if_true] at erased
        simp only [Deferred.run, CacheShard.delhit]
        omega
      | evict timeStamp values =>
        exact counted.of_tallies ((CacheShard.tallies_evictDel _ timeStamp values).removals rfl)
          (by rw [erased]; rfl)
    · cases next

/-- Over every interleaving of concurrent shard calls, in any order and with any
arguments, `DelHits` plus the number of `del` calls that have released the lock and not
yet run `delhit()` is the number of entries handed to `onRemove`: no deletion is counted
twice or lost, and `DelHits` lags behind `onRemove` only by the `del`s still in flight. -/
theorem delHits_interleaved {allowed : SharedShard → ShardStep → Prop}
    (reach : Reachable hasher allowed t) :
    t.shard.stats.delHits + t.inFlight.countP Deferred.isRemove = t.shard.removed.length := by
  induction reach with
  | init => rfl
  | step e _ _ next counted => exact DelsCounted.step counted next

/-- A `set`, then a `del` whose `remove` is still in flight. -/
theorem delHits_interleaved_del_in_flight :
    let t := ((⟨initNewShard fun _ => 7, []⟩ : SharedShard).run [.set [1] 7 [5] 1000000000 0 1, .del [1] 7]).getD
      ⟨initNewShard fun _ => 7, []⟩
    t.shard.stats.delHits + t.inFlight.countP Deferred.isRemove = t.shard.removed.length := by
  intro t
  have reach : Reachable (fun _ => 7) (fun _ _ => True) t :=
    .step (.del [1] 7) (.step (.set [1] 7 [5] 1000000000 0 1) .init trivial rfl) trivial rfl
  exact delHits_interleaved reach

end Counted

end SharedShard

end NgBigCache
