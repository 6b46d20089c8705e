import NgBigCache.Shard.Cache

/-! # Interleaved calls of a shard

Many goroutines call one shard at once.  Each method holds the shard's lock for its
critical section.  But `set` and `del` call the TTL manager after `s.lock.Unlock()`:
`set` puts the key into the cohort of its expiry second, and `del` removes it from the
cohort of the entry it deleted.  The TTL manager's source is not among the sources.  As
the spec has it, the manager has its own mutex, and its timer pops a second's cohort
before it calls `evictDel` with the cohort's keys.

`SharedShard` is a shard together with the calls in flight between those steps:
* a `set` that has released the lock and has not yet put its key;
* a `del` that has not yet removed its key;
* a firing that has popped its cohort and has not yet run `evictDel`.

A run interleaves the critical sections, which the lock makes atomic, with the deferred
steps, in any order.  `setLocked` and `delLocked` are the two methods up to their unlock.
`set_some_eq_setLocked` and `del_eq_delUnlocked` put them back together into the methods
of `Shard.lean`.  A sequential run is the interleaving that resumes each call's deferred
step right after its critical section, so an interleaving reaches every state a sequential
run reaches (`reachable_of_sequential`).  `removeOldestEntry` takes no lock and no source
calls it, so it is not a step here.  `del` reads the timestamp from the deleted blob after
the unlock.  The model reads it at the unlock, since the blob's bytes stay in the queue
until its slot is popped.

The map and the queue change only under the lock.  So they agree over every interleaving
(`consistent_interleaved`).  The cohorts can go wrong:
* `covered_interleaved`: every live entry with a TTL stays tracked for its expiry second,
  in a run where no `del`'s deferred `remove` runs while its key holds a live entry of
  the second it removes.
* `del_remove_after_set_uncovers`: that one step does break it.  Take a key stored with
  expiry `T`.  A `del` of the key, then a `set` of it that also expires at `T` and puts
  its key first, then the `del`'s `remove`, leave the new entry live with expiry `T` and
  the key in no cohort, with nothing in flight.  No later firing of `T` is handed the
  key, where a run of the same calls one after another keeps it in the cohort
  (`ttl_firing_exact`).
* `covered_unless_races`: only such a race reaches that step.  A `set` races a `del` when
  it stores under the hash of a key whose `remove` for the new entry's expiry second is
  still in flight.  Over every interleaving with no racing `set`, every live entry stays
  tracked. -/

set_option autoImplicit false

namespace NgBigCache

namespace CacheShard

/-! ## The methods up to their unlock -/

/-- `set` up to `s.lock.Unlock()`, for an entry the queue pushes at `index`: the entry the
hash was bound to invalidated, the new one pushed and bound. -/
def setLocked (s : CacheShard) (key : Bytes) (hashedKey : UInt64) (entry : Bytes)
    (duration : Duration) (epoch : Int) (index : Nat) : CacheShard :=
  let s := invalidatePrevious { s with lock := s.lock.lock } key hashedKey
  { s with entries := ⟨s.entries.slots ++
             [⟨index, wrapEntry (expiryTimestampOf epoch duration) hashedKey key entry, true⟩]⟩,
           hashmap := s.hashmap.insert hashedKey (UInt32.ofNat index), lock := s.lock.unlock }

/-- `set` is its locked part, then `ttlTable.put` when the duration is not zero. -/
theorem set_some_eq_setLocked (s : CacheShard) (key : Bytes) (h : UInt64) (entry : Bytes)
    (duration : Duration) (epoch : Int) (index : Nat) :
    (s.set key h entry duration epoch (some index)).1 =
      if duration ≠ 0 then
        { s.setLocked key h entry duration epoch index with
          ttlTable := (s.setLocked key h entry duration epoch index).ttlTable.put
            (expiryTimestampOf epoch duration) key }
      else s.setLocked key h entry duration epoch index := rfl

/-- `del` up to `s.lock.Unlock()`, with a miss counted: the shard, and the expiry second
of the entry it deleted, which `ttlTable.remove` takes after the unlock, or the error
`del` returns. -/
def delLocked (s : CacheShard) (key : Bytes) (hashedKey : UInt64) :
    CacheShard × Except ShardError UInt64 :=
  let s := { s with lock := s.lock.lock }
  let itemIndex := s.indexOf hashedKey
  if itemIndex = 0 then (s.writeUnlocked.delmiss, .error (.entryNotFound key))
  else match s.entries.get itemIndex.toNat with
    | .error err => (s.writeUnlocked.delmiss, .error (.queue err))
    | .ok wrappedEntry =>
      ({ s with hashmap := s.hashmap.erase hashedKey, removed := s.removed ++ [wrappedEntry],
                entries := s.entries.delete itemIndex.toNat, lock := s.lock.unlock },
        .ok (readTimestampFromEntry (resetKeyFromEntry wrappedEntry)))

/-- The rest of `del` after the unlock: `ttlTable.remove` and `delhit()`. -/
def delUnlocked (key : Bytes) : CacheShard × Except ShardError UInt64 → CacheShard × Option ShardError
  | (s, .error err) => (s, some err)
  | (s, .ok timestamp) => ({ s with ttlTable := s.ttlTable.remove timestamp key }.delhit, none)

theorem del_eq_delUnlocked (s : CacheShard) (key : Bytes) (h : UInt64) :
    s.del key h = delUnlocked key (s.delLocked key h) := by
  unfold del delLocked
  dsimp only
  split
  · rfl
  · split <;> rename_i read <;> simp only [read, delUnlocked]

/-! ## What the locked parts do -/

section Locked
variable {s : CacheShard} (key : Bytes) (h : UInt64)

theorem mem_cohorts_invalidatePrevious {k : Bytes} {T : UInt64} (other : k ≠ key) :
    k ∈ (s.invalidatePrevious key h).ttlTable.cohorts T ↔ k ∈ s.ttlTable.cohorts T := by
  unfold invalidatePrevious
  dsimp only
  split
  · rfl
  · split
    · simp [TtlManager.mem_remove, other]
    · rfl

theorem Consistent.setLocked (c : Consistent s) (entry : Bytes) (duration : Duration) (epoch : Int)
    {index : Nat} (fresh : s.entries.Fresh index) (fits : index < 2 ^ 32) :
    Consistent (s.setLocked key h entry duration epoch index) :=
  (c.set key h entry duration epoch fresh fits).congr (set_some_entries s key h entry duration epoch index).symm
    fun _ => by rw [set_some_hashmap]; rfl

theorem Consistent.liveSlots_setLocked (c : Consistent s) (entry : Bytes) (duration : Duration)
    (epoch : Int) (index : Nat) :
    (s.setLocked key h entry duration epoch index).entries.liveSlots =
      s.liveWithout h ++ [⟨index, wrapEntry (expiryTimestampOf epoch duration) h key entry, true⟩] := by
  have locked : Consistent { s with lock := s.lock.lock } := c.congr rfl fun _ => rfl
  show BytesQueue.liveSlots ⟨_ ++ _⟩ = _
  rw [BytesQueue.liveSlots_push, locked.liveSlots_invalidatePrevious key h]
  rfl

theorem Consistent.boundEntry_setLocked (c : Consistent s) (entry : Bytes) (duration : Duration)
    (epoch : Int) {index : Nat} (fresh : s.entries.Fresh index) (fits : index < 2 ^ 32) :
    (s.setLocked key h entry duration epoch index).boundEntry =
      Function.update s.boundEntry h (some (wrapEntry (expiryTimestampOf epoch duration) h key entry)) := by
  rw [← c.boundEntry_set key h entry duration epoch fresh fits, set_some_eq_setLocked]
  split <;> rfl

theorem delLocked_ttlTable : (s.delLocked key h).1.ttlTable = s.ttlTable := by
  unfold delLocked
  dsimp only
  split
  · rfl
  · split <;> rfl

theorem fresh_delLocked {index : Nat} (fresh : s.entries.Fresh index) :
    (s.delLocked key h).1.entries.Fresh index := by
  unfold delLocked
  dsimp only
  split
  · exact fresh
  · split
    · exact fresh
    · exact BytesQueue.fresh_delete fresh

/-- The rest of `del` touches only the TTL table and the counters. -/
theorem delUnlocked_fst (r : CacheShard × Except ShardError UInt64) :
    ∃ ttlTable stats, (delUnlocked key r).1 = { r.1 with ttlTable, stats } := by
  obtain ⟨s, _ | _⟩ := r
  · exact ⟨s.ttlTable, s.stats, rfl⟩
  · exact ⟨_, _, rfl⟩

theorem Consistent.delLocked (c : Consistent s) : Consistent (s.delLocked key h).1 := by
  obtain ⟨ttlTable, stats, eq⟩ := delUnlocked_fst key (s.delLocked key h)
  have agree := c.del key h
  rw [del_eq_delUnlocked, eq] at agree
  exact agree.congr rfl fun _ => rfl

theorem Consistent.liveSlots_delLocked (c : Consistent s) :
    (s.delLocked key h).1.entries.liveSlots = s.liveWithout h := by
  obtain ⟨ttlTable, stats, eq⟩ := delUnlocked_fst key (s.delLocked key h)
  have live := c.liveSlots_del key h
  rwa [del_eq_delUnlocked, eq] at live

/-- A `del` of a bound hash leaves the `remove` of its entry's expiry second to do. -/
theorem Consistent.delLocked_of_boundEntry (c : Consistent s) {e : Bytes}
    (bound : s.boundEntry h = some e) :
    (s.delLocked key h).2 = .ok (readTimestampFromEntry (resetKeyFromEntry e)) := by
  cases found : s.hashmap.lookup h with
  | none => simp [boundEntry, found] at bound
  | some i =>
    cases read : s.entries.get i.toNat with
    | error err => simp [boundEntry, found, read] at bound
    | ok e' =>
      simp only [boundEntry, found, read, Option.some.injEq] at bound
      subst bound
      unfold CacheShard.delLocked
      simp [indexOf, found, (c.bound h i found).1, read]

end Locked

/-! ## Popping a cohort commutes with `evictDel` -/

section Pop
variable {s : CacheShard} (timeStamp : UInt64)

/-- `evictDel` reads the TTL table only for its hasher. -/
theorem evictOne_with_ttlTable {m : TtlManager} (same : m.shardHasher = s.ttlTable.shardHasher)
    (v : Bytes) : evictOne timeStamp { s with ttlTable := m } v = { evictOne timeStamp s v with ttlTable := m } := by
  obtain ⟨hashmap, entries, lock, stats, ⟨cohorts, nodup, hasher⟩, removed⟩ := s
  obtain ⟨cohorts', nodup', hasher'⟩ := m
  cases same
  simp only [evictOne, indexOf]
  by_cases zero : (hashmap.lookup (hasher v)).getD 0 = 0
  · simp only [zero, if_true]; rfl
  · simp only [zero, if_false]
    cases entries.get ((hashmap.lookup (hasher v)).getD 0).toNat with
    | error => rfl
    | ok e =>
      by_cases expired : readTimestampFromEntry e = timeStamp
      · simp only [expired, if_true]; rfl
      · simp only [expired, if_false]

theorem evictDel_with_ttlTable {m : TtlManager} (same : m.shardHasher = s.ttlTable.shardHasher)
    (values : List Bytes) :
    ({ s with ttlTable := m }.evictDel timeStamp values).1 =
      { (s.evictDel timeStamp values).1 with ttlTable := m } := by
  have loop : ∀ (rest : List Bytes) (u : CacheShard), m.shardHasher = u.ttlTable.shardHasher →
      rest.foldl (evictOne timeStamp) { u with ttlTable := m } =
        { rest.foldl (evictOne timeStamp) u with ttlTable := m } := by
    intro rest
    induction rest with
    | nil => intro u _; rfl
    | cons v rest ih =>
      intro u sameU
      rw [List.foldl_cons, List.foldl_cons, evictOne_with_ttlTable timeStamp sameU, ih]
      rw [evictOne_ttlTable]
      exact sameU
  exact congrArg writeUnlocked (loop values { s with lock := s.lock.lock } same)

end Pop

end CacheShard

/-! ## Calls in flight -/

/-- What a call has left to do after the shard's lock: `set`'s `ttlTable.put`, `del`'s
`ttlTable.remove` and `delhit()`, or a firing's `evictDel` of the cohort it popped. -/
inductive Deferred
  | put (timestamp : UInt64) (key : Bytes)
  | remove (timestamp : UInt64) (key : Bytes)
  | evict (timeStamp : UInt64) (values : List Bytes)
  deriving DecidableEq, Repr

/-- The deferred step, run on the shard. -/
def Deferred.run (s : CacheShard) : Deferred → CacheShard
  | .put timestamp key => { s with ttlTable := s.ttlTable.put timestamp key }
  | .remove timestamp key => { s with ttlTable := s.ttlTable.remove timestamp key }.delhit
  | .evict timeStamp values => (s.evictDel timeStamp values).1

/-- The deferred call will bring `key` to an `evictDel` of second `T`: it is a `put` of
the key into the cohort of `T`, or the `evictDel` of a popped cohort of `T` that holds it. -/
def Deferred.Tracks : Deferred → UInt64 → Bytes → Prop
  | .put timestamp key, T, k => timestamp = T ∧ key = k
  | .remove _ _, _, _ => False
  | .evict timeStamp values, T, k => timeStamp = T ∧ k ∈ values

theorem CacheShard.Consistent.deferred {s : CacheShard} (c : Consistent s) (call : Deferred) :
    Consistent (call.run s) := by
  cases call with
  | put | remove => exact c.congr rfl fun _ => rfl
  | evict timeStamp values => exact c.evictDel timeStamp values

theorem Deferred.shardHasher_run (s : CacheShard) (call : Deferred) :
    (call.run s).ttlTable.shardHasher = s.ttlTable.shardHasher := by
  cases call with
  | put | remove => rfl
  | evict timeStamp values => exact congrArg _ (CacheShard.evictDel_ttlTable timeStamp values)

/-- A shard shared by goroutines, and the deferred steps of the calls in flight. -/
structure SharedShard where
  shard : CacheShard
  inFlight : List Deferred

/-- One step of an interleaving: a critical section, the timer popping the cohort of a
second (whose keys `set.Values()` lists as `values`), or a call in flight taking its
deferred step. -/
inductive ShardStep
  | get (key : Bytes) (hashedKey : UInt64)
  | set (key : Bytes) (hashedKey : UInt64) (entry : Bytes) (duration : Duration) (epoch : Int)
      (index : Nat)
  | del (key : Bytes) (hashedKey : UInt64)
  | reset
  | pop (timeStamp : UInt64) (values : List Bytes)
  | resume (call : Deferred)

/-- What a `set` leaves in flight: its `put`, when the duration is not zero. -/
def afterSet (key : Bytes) (duration : Duration) (epoch : Int) : List Deferred :=
  if duration ≠ 0 then [.put (expiryTimestampOf epoch duration) key] else []

/-- What a `del` leaves in flight: its `remove`, when it deleted an entry. -/
def afterDel (key : Bytes) : Except ShardError UInt64 → List Deferred
  | .ok timestamp => [.remove timestamp key]
  | .error _ => []

namespace SharedShard

/-- The state after a step; `none` when the step resumes a call that is not in flight. -/
def step (t : SharedShard) : ShardStep → Option SharedShard
  | .get key hashedKey => some ⟨(t.shard.get key hashedKey).1, t.inFlight⟩
  | .set key hashedKey entry duration epoch index =>
    some ⟨t.shard.setLocked key hashedKey entry duration epoch index,
      t.inFlight ++ afterSet key duration epoch⟩
  | .del key hashedKey =>
    some ⟨(t.shard.delLocked key hashedKey).1,
      t.inFlight ++ afterDel key (t.shard.delLocked key hashedKey).2⟩
  | .reset => some ⟨t.shard.reset, t.inFlight⟩
  | .pop timeStamp values =>
    some ⟨{ t.shard with ttlTable := t.shard.ttlTable.dropCohort timeStamp },
      t.inFlight ++ [.evict timeStamp values]⟩
  | .resume call =>
    if call ∈ t.inFlight then some ⟨call.run t.shard, t.inFlight.erase call⟩ else none

/-- The steps one after another; `none` from the first that cannot be taken. -/
def run (t : SharedShard) : List ShardStep → Option SharedShard
  | [] => some t
  | e :: rest => (t.step e).bind fun t => t.run rest

/-- The contracts of the queue, the timer and the callers, as for a sequential run: a
`set` pushes at a fresh index below `2 ^ 32`, a firing pops exactly its cohort, and
`get`, `set` and `del` carry their key's hash. -/
def Contract (hasher : Bytes → UInt64) (t : SharedShard) : ShardStep → Prop
  | .get key hashedKey | .del key hashedKey => hashedKey = hasher key
  | .set key hashedKey _ _ _ index =>
    hashedKey = hasher key ∧ t.shard.entries.Fresh index ∧ index < 2 ^ 32
  | .pop timeStamp values => values.Perm (t.shard.ttlTable.cohorts timeStamp)
  | .reset | .resume _ => True

/-- The states an interleaving reaches from a new shard with nothing in flight. -/
inductive Reachable (hasher : Bytes → UInt64) (allowed : SharedShard → ShardStep → Prop) :
    SharedShard → Prop
  | init : Reachable hasher allowed ⟨initNewShard hasher, []⟩
  | step {t t' : SharedShard} (e : ShardStep) :
      Reachable hasher allowed t → allowed t e → t.step e = some t' → Reachable hasher allowed t'

/-! ## The map and the queue agree over every interleaving -/

section Agree
variable {hasher : Bytes → UInt64} {t t' : SharedShard}

/-- What every interleaving keeps: the map agrees with the queue, and the TTL table
hashes with the run's hasher. -/
structure Agrees (hasher : Bytes → UInt64) (t : SharedShard) : Prop where
  agree : CacheShard.Consistent t.shard
  sameHasher : t.shard.ttlTable.shardHasher = hasher

theorem Agrees.step (inv : Agrees hasher t) {e : ShardStep} (contract : Contract hasher t e)
    (next : t.step e = some t') : Agrees hasher t' := by
  obtain ⟨c, sameHasher⟩ := inv
  cases e with
  | get key h =>
    cases next
    obtain ⟨stats, eq⟩ := CacheShard.get_fst t.shard key h
    exact ⟨c.get key h, by rw [eq]; exact sameHasher⟩
  | set key h entry duration epoch index =>
    cases next
    have locked : CacheShard.Consistent { t.shard with lock := t.shard.lock.lock } :=
      c.congr rfl fun _ => rfl
    exact ⟨c.setLocked key h entry duration epoch contract.2.1 contract.2.2,
      (locked.forgets_invalidatePrevious key h).1.trans sameHasher⟩
  | del key h =>
    cases next
    exact ⟨c.delLocked key h, (CacheShard.delLocked_ttlTable key h).symm ▸ sameHasher⟩
  | reset => cases next; exact ⟨c.reset, sameHasher⟩
  | pop => cases next; exact ⟨c.congr rfl fun _ => rfl, sameHasher⟩
  | resume call =>
    simp only [SharedShard.step] at next
    split at next
    · cases next
      exact ⟨c.deferred call, (Deferred.shardHasher_run t.shard call).trans sameHasher⟩
    · cases next

theorem agrees_reachable {allowed : SharedShard → ShardStep → Prop}
    (contract : ∀ t e, allowed t e → Contract hasher t e) (reach : Reachable hasher allowed t) :
    Agrees hasher t := by
  induction reach with
  | init => exact ⟨CacheShard.consistent_initNewShard hasher, rfl⟩
  | step e _ allowed next inv => exact inv.step (contract _ e allowed) next

/-- Over every interleaving of critical sections, deferred TTL-table steps and firings
under the contract, the map binds each hash to the index of the one live entry carrying
it, and the TTL table hashes with the run's hasher. -/
theorem consistent_interleaved (reach : Reachable hasher (Contract hasher) t) :
    CacheShard.Consistent t.shard ∧ t.shard.ttlTable.shardHasher = hasher :=
  let inv := agrees_reachable (fun _ _ => id) reach
  ⟨inv.agree, inv.sameHasher⟩

/-- A `set` whose `put` runs only after a `del` of its key. -/
theorem consistent_interleaved_set_del :
    let t := ((⟨initNewShard fun _ => 7, []⟩ : SharedShard).run
      [.set [1] 7 [5] 1000000000 0 1, .del [1] 7, .resume (.put 1 [1])]).getD ⟨initNewShard fun _ => 7, []⟩
    CacheShard.Consistent t.shard ∧ t.shard.ttlTable.shardHasher = fun _ => 7 := by
  intro t
  exact consistent_interleaved (.step (.resume (.put 1 [1])) (.step (.del [1] 7)
    (.step (.set [1] 7 [5] 1000000000 0 1) .init ⟨rfl, by decide, by decide⟩ rfl) rfl rfl) trivial rfl)

end Agree

/-! ## Every live entry stays tracked, but for one step -/

section Cover
variable {hasher : Bytes → UInt64} {t t' : SharedShard} {T : UInt64} {key : Bytes}

/-- The TTL manager is still to hand `key` to an `evictDel` of second `T`: the key is in
the cohort of `T`, or a call in flight will bring it there. -/
def Tracked (t : SharedShard) (T : UInt64) (key : Bytes) : Prop :=
  key ∈ t.shard.ttlTable.cohorts T ∨ ∃ call ∈ t.inFlight, call.Tracks T key

/-- Every live entry is the wrapped entry of a key under `hasher`, and a key stored with a
non-zero expiry second is tracked for that second. -/
def Covered (hasher : Bytes → UInt64) (t : SharedShard) : Prop :=
  ∀ x ∈ t.shard.entries.liveSlots, ∃ key value,
    x.payload = wrapEntry (readTimestampFromEntry x.payload) (hasher key) key value ∧
    (readTimestampFromEntry x.payload ≠ 0 → Tracked t (readTimestampFromEntry x.payload) key)

/-- The step that can take a live entry's key out of its cohort: the deferred `remove` of a
key that holds a live entry of the second it removes. -/
def Strikes (hasher : Bytes → UInt64) (t : SharedShard) : ShardStep → Prop
  | .resume (.remove timestamp key) =>
    ∃ x ∈ t.shard.entries.liveSlots, ∃ value, x.payload = wrapEntry timestamp (hasher key) key value
  | _ => False

theorem Tracked.of_call {call : Deferred} (mem : call ∈ t.inFlight) (tracks : call.Tracks T key) :
    Tracked t T key :=
  .inr ⟨call, mem, tracks⟩

theorem Tracked.mono (tracked : Tracked t T key)
    (cohort : key ∈ t.shard.ttlTable.cohorts T → Tracked t' T key)
    (calls : ∀ call ∈ t.inFlight, call.Tracks T key → Tracked t' T key) : Tracked t' T key := by
  rcases tracked with mem | ⟨call, mem, tracks⟩
  exacts [cohort mem, calls call mem tracks]

/-- A step that keeps no entry it did not have, and keeps each survivor's key tracked. -/
theorem Covered.keep (covered : Covered hasher t)
    (survives : ∀ x ∈ t'.shard.entries.liveSlots, x ∈ t.shard.entries.liveSlots ∧
      ∀ key value, x.payload = wrapEntry (readTimestampFromEntry x.payload) (hasher key) key value →
        Tracked t (readTimestampFromEntry x.payload) key →
        Tracked t' (readTimestampFromEntry x.payload) key) :
    Covered hasher t' := by
  intro x live
  obtain ⟨old, tracks⟩ := survives x live
  obtain ⟨key, value, wrapped, tracked⟩ := covered x old
  exact ⟨key, value, wrapped, fun nonzero => tracks key value wrapped (tracked nonzero)⟩

/-- A step that keeps the live entries and the cohorts, and adds calls in flight. -/
theorem Covered.grow (covered : Covered hasher t)
    (sameLive : t'.shard.entries.liveSlots ⊆ t.shard.entries.liveSlots)
    (sameCohorts : t'.shard.ttlTable.cohorts = t.shard.ttlTable.cohorts)
    (more : t.inFlight ⊆ t'.inFlight) : Covered hasher t' :=
  covered.keep fun _ live => ⟨sameLive live, fun _ _ _ tracked =>
    tracked.mono (fun mem => .inl (sameCohorts ▸ mem)) fun _ mem => .of_call (more mem)⟩

theorem Covered.set (agrees : Agrees hasher t) (covered : Covered hasher t) {key : Bytes}
    {h : UInt64} (hashed : h = hasher key) (entry : Bytes) (duration : Duration) (epoch : Int)
    (index : Nat) :
    Covered hasher ⟨t.shard.setLocked key h entry duration epoch index,
      t.inFlight ++ afterSet key duration epoch⟩ := by
  intro x live
  rw [agrees.agree.liveSlots_setLocked, List.mem_append] at live
  rcases live with old | new
  · obtain ⟨old, other⟩ := List.mem_filter.mp old
    obtain ⟨key', value, wrapped, tracked⟩ := covered x old
    have otherKey : key' ≠ key := by
      rintro rfl
      rw [wrapped, readHashFromEntry_wrapEntry, ← hashed] at other
      simp at other
    refine ⟨key', value, wrapped, fun nonzero => (tracked nonzero).mono (fun mem => .inl ?_)
      fun _ mem => .of_call (List.mem_append_left _ mem)⟩
    exact (CacheShard.mem_cohorts_invalidatePrevious key h otherKey).mpr mem
  · rw [List.mem_singleton.mp new]
    refine ⟨key, entry, by rw [readTimestampFromEntry_wrapEntry, hashed], fun nonzero => ?_⟩
    rw [readTimestampFromEntry_wrapEntry] at nonzero ⊢
    have timed : duration ≠ 0 := fun zero => nonzero (by simp [expiryTimestampOf, zero, noExpiry])
    exact @Tracked.of_call _ _ _ (.put _ key) (by simp [afterSet, timed]) ⟨rfl, rfl⟩

theorem Covered.pop (covered : Covered hasher t) {timeStamp : UInt64} {values : List Bytes}
    (cohort : values.Perm (t.shard.ttlTable.cohorts timeStamp)) :
    Covered hasher ⟨{ t.shard with ttlTable := t.shard.ttlTable.dropCohort timeStamp },
      t.inFlight ++ [.evict timeStamp values]⟩ :=
  covered.keep fun x live => ⟨live, fun _ _ _ tracked => tracked.mono (fun mem => by
    by_cases fired : readTimestampFromEntry x.payload = timeStamp
    · rw [fired] at mem ⊢
      exact .of_call (List.mem_append_right _ (List.mem_singleton_self _)) ⟨rfl, cohort.mem_iff.mpr mem⟩
    · exact .inl (TtlManager.mem_dropCohort.mpr ⟨mem, fired⟩))
    fun _ mem => .of_call (List.mem_append_left _ mem)⟩

/-- A call in flight takes its deferred step: a `put` adds to a cohort, an `evictDel`
deletes every entry its popped cohort tracks, and a `remove` that strikes no live entry
takes away no tracked key. -/
theorem Covered.resume (agrees : Agrees hasher t) (covered : Covered hasher t) {call : Deferred}
    (safe : ¬ Strikes hasher t (.resume call)) :
    Covered hasher ⟨call.run t.shard, t.inFlight.erase call⟩ := by
  have kept : ∀ {c : Deferred} {T : UInt64} {key : Bytes}, c ∈ t.inFlight → c ≠ call →
      c.Tracks T key → Tracked ⟨call.run t.shard, t.inFlight.erase call⟩ T key :=
    fun mem other tracks => .of_call ((List.mem_erase_of_ne other).mpr mem) tracks
  cases call with
  | put timestamp k =>
    refine covered.keep fun x live => ⟨live, fun _ _ _ tracked => tracked.mono
      (fun mem => .inl (TtlManager.mem_put.mpr (.inl mem))) fun c mem tracks => ?_⟩
    by_cases same : c = .put timestamp k
    · subst same
      exact .inl (TtlManager.mem_put.mpr (.inr ⟨tracks.1.symm, tracks.2.symm⟩))
    · exact kept mem same tracks
  | remove timestamp k =>
    refine covered.keep fun x live => ⟨live, fun key value wrapped tracked => tracked.mono
      (fun mem => .inl (TtlManager.mem_remove.mpr ⟨mem, ?_⟩)) fun c mem tracks => ?_⟩
    · rintro ⟨stamp, rfl⟩
      exact safe ⟨x, live, value, stamp ▸ wrapped⟩
    · exact kept mem (by rintro rfl; exact tracks) tracks
  | evict timeStamp values =>
    have live' := agrees.agree.evictDel_liveSlots timeStamp values
    refine covered.keep fun x live => ?_
    rw [Deferred.run, live', List.mem_filter, decide_eq_true_iff] at live
    refine ⟨live.1, fun key value wrapped tracked => tracked.mono
      (fun mem => .inl ((CacheShard.evictDel_ttlTable timeStamp values).symm ▸ mem))
      fun c mem tracks => ?_⟩
    by_cases same : c = .evict timeStamp values
    · subst same
      refine absurd ⟨tracks.1.symm, key, tracks.2, ?_⟩ live.2
      rw [agrees.sameHasher, wrapped, readHashFromEntry_wrapEntry]
    · exact kept mem same tracks

theorem Covered.step (agrees : Agrees hasher t) (covered : Covered hasher t) {e : ShardStep}
    (contract : Contract hasher t e) (safe : ¬ Strikes hasher t e) (next : t.step e = some t') :
    Covered hasher t' := by
  cases e with
  | get key h =>
    cases next
    obtain ⟨stats, eq⟩ := CacheShard.get_fst t.shard key h
    exact covered.grow (by rw [eq]; exact List.Subset.refl _) (by rw [eq]) (List.Subset.refl _)
  | set key h entry duration epoch index =>
    cases next
    exact covered.set agrees contract.1 entry duration epoch index
  | del key h =>
    cases next
    refine covered.grow (fun x live => ?_) (by rw [CacheShard.delLocked_ttlTable])
      (List.subset_append_left _ _)
    rw [agrees.agree.liveSlots_delLocked] at live
    exact (List.mem_filter.mp live).1
  | reset => cases next; exact fun _ live => nomatch live
  | pop => cases next; exact covered.pop contract
  | resume call =>
    simp only [SharedShard.step] at next
    split at next
    · cases next
      exact covered.resume agrees safe
    · cases next

/-- Over every interleaving under the contract in which no `del`'s deferred `remove` runs
while its key holds a live entry of the second it removes, every live entry stored with a
non-zero expiry second `T` has its key in the cohort of `T`, in a `set`'s `put` into that
cohort still in flight, or in a popped cohort of `T` whose `evictDel` is still in flight. -/
theorem covered_interleaved
    (reach : Reachable hasher (fun t e => Contract hasher t e ∧ ¬ Strikes hasher t e) t) :
    Covered hasher t := by
  have both : Agrees hasher t ∧ Covered hasher t := by
    induction reach with
    | init =>
      exact ⟨⟨CacheShard.consistent_initNewShard hasher, rfl⟩, fun _ live => nomatch live⟩
    | step e _ allowed next inv =>
      exact ⟨inv.1.step allowed.1 next, inv.2.step inv.1 allowed.1 allowed.2 next⟩
  exact both.2

/-- A `set` and its `put`, then a `del` and its `remove`. -/
theorem covered_interleaved_set_del :
    Covered (fun _ => 7) (((⟨initNewShard fun _ => 7, []⟩ : SharedShard).run
      [.set [1] 7 [5] 1000000000 0 1, .resume (.put 1 [1]), .del [1] 7, .resume (.remove 1 [1])]).getD
        ⟨initNewShard fun _ => 7, []⟩) :=
  covered_interleaved (.step (.resume (.remove 1 [1])) (.step (.del [1] 7) (.step (.resume (.put 1 [1]))
    (.step (.set [1] 7 [5] 1000000000 0 1) .init ⟨⟨rfl, by decide, by decide⟩, nofun⟩ rfl) ⟨trivial, nofun⟩ rfl)
    ⟨rfl, nofun⟩ rfl) ⟨trivial, by rintro ⟨x, live, -⟩; exact nomatch live⟩ rfl)

end Cover

/-! ## A sequential run is the interleaving that resumes each call at once -/

section Sequential
variable {hasher : Bytes → UInt64} {t t' : SharedShard}

theorem Reachable.resumes {allowed : SharedShard → ShardStep → Prop}
    (free : ∀ t call, allowed t (.resume call)) {calls : List Deferred} :
    ∀ {t : SharedShard}, Reachable hasher allowed t → t.run (calls.map .resume) = some t' →
      Reachable hasher allowed t' := by
  induction calls with
  | nil => intro t reach ran; cases ran; exact reach
  | cons call calls ih =>
    intro t reach ran
    obtain ⟨t₁, resumed, rest⟩ := Option.bind_eq_some.mp ran
    exact ih (reach.step _ (free t call) resumed) rest

end Sequential

end SharedShard

/-- A call of a sequential run as an interleaving: the step of its critical section, and
the deferred calls that step leaves in flight, which the sequential run resumes at once;
`none` for `evictDel` and `removeOldestEntry`, which are not calls here. -/
def ShardOp.interleaved (s : CacheShard) : ShardOp → Option (ShardStep × List Deferred)
  | .get key h => some (.get key h, [])
  | .set key h entry duration epoch index =>
    some (.set key h entry duration epoch index, afterSet key duration epoch)
  | .del key h => some (.del key h, afterDel key (s.delLocked key h).2)
  | .reset => some (.reset, [])
  | .fire timeStamp values => some (.pop timeStamp values, [.evict timeStamp values])
  | .evictDel .. | .removeOldestEntry => none

namespace SharedShard

section Sequential
variable {hasher : Bytes → UInt64}

/-- A sequential step is its critical section with its deferred calls resumed at once. -/
theorem run_interleaved (s : CacheShard) {op : ShardOp} {first : ShardStep} {calls : List Deferred}
    (split : op.interleaved s = some (first, calls)) :
    SharedShard.run ⟨s, []⟩ (first :: calls.map .resume) = some ⟨op.apply s, []⟩ := by
  cases op with
  | get key h => cases split; rfl
  | set key h entry duration epoch index =>
    cases split
    rw [ShardOp.apply, CacheShard.set_some_eq_setLocked]
    by_cases timed : duration ≠ 0 <;> simp [afterSet, timed, run, step, Deferred.run]
  | del key h =>
    cases split
    rw [ShardOp.apply, CacheShard.del_eq_delUnlocked]
    simp only [run, step]
    generalize s.delLocked key h = r
    rcases r with ⟨s', _ | stamp⟩ <;> simp [afterDel, run, step, Deferred.run, CacheShard.delUnlocked]
  | reset => cases split; rfl
  | fire timeStamp values =>
    cases split
    simp [run, step, Deferred.run, ShardOp.apply, CacheShard.fire, CacheShard.evictDel_ttlTable,
      CacheShard.evictDel_with_ttlTable timeStamp (TtlManager.shardHasher_dropCohort _ _)]
  | evictDel | removeOldestEntry => cases split

theorem contract_interleaved {s : CacheShard} {op : ShardOp} {first : ShardStep} {calls : List Deferred}
    (contract : CacheShard.HashedContract hasher s op) (split : op.interleaved s = some (first, calls)) :
    Contract hasher ⟨s, []⟩ first := by
  obtain ⟨⟨fresh, fits⟩, hashed⟩ := contract
  cases op <;> cases split
  exacts [hashed, ⟨hashed, fresh, fits⟩, hashed, trivial, fresh]

/-- Every state a sequential run of calls reaches under the contract, an interleaving
reaches under the contract with nothing in flight: the one that runs each call's deferred
step right after its critical section. -/
theorem reachable_of_sequential {s : CacheShard}
    (reach : NgBigCache.Reachable hasher (fun s op => CacheShard.HashedContract hasher s op ∧ (op.interleaved s).isSome) s) :
    Reachable hasher (Contract hasher) ⟨s, []⟩ := by
  induction reach with
  | init => exact .init
  | step op _ allowed ih =>
    obtain ⟨contract, split⟩ := allowed
    obtain ⟨⟨first, calls⟩, split⟩ := Option.isSome_iff_exists.mp split
    obtain ⟨t₁, critical, rest⟩ := Option.bind_eq_some.mp (run_interleaved _ split)
    exact (ih.step first (contract_interleaved contract split) critical).resumes (fun _ _ => trivial) rest

/-- A `set` with a TTL, then the firing of its second. -/
theorem reachable_of_sequential_set_fire :
    Reachable (fun _ => 7) (Contract fun _ => 7)
      ⟨(ShardOp.fire 1 [[1]]).apply ((ShardOp.set [1] 7 [5] 1000000000 0 1).apply (initNewShard fun _ => 7)), []⟩ :=
  reachable_of_sequential (.step _ (.step _ .init ⟨⟨⟨by unfold ShardOp.Contract; decide, by decide⟩, rfl⟩, rfl⟩)
    ⟨⟨⟨by unfold ShardOp.Contract; decide, trivial⟩, trivial⟩, rfl⟩)

end Sequential

/-! ## A `del`'s late `remove` takes a new entry's key out of its cohort -/

section Race
variable {hasher : Bytes → UInt64} {t : SharedShard}

/-- Take a state where the map agrees with the queue, no call is in flight, and `key` is
stored with expiry `T`.  Run a `del` of the key, then a `set` of it whose entry also
expires at `T`, then that `set`'s `put`, and only then the `del`'s `remove`.  These steps
keep to the contract.  They end with nothing in flight, the new entry bound, and the key
in no cohort of `T`. -/
theorem del_remove_after_set_uncovers (agrees : Agrees hasher t) (idle : t.inFlight = [])
    {key value entry : Bytes} {T : UInt64} {duration : Duration} {epoch : Int} {index : Nat}
    (bound : t.shard.boundEntry (hasher key) = some (wrapEntry T (hasher key) key value))
    (timed : duration ≠ 0) (expires : expiryTimestampOf epoch duration = T)
    (fresh : t.shard.entries.Fresh index) (fits : index < 2 ^ 32) :
    ∃ t', t.run [.del key (hasher key), .set key (hasher key) entry duration epoch index,
        .resume (.put T key), .resume (.remove T key)] = some t' ∧
      (Reachable hasher (Contract hasher) t → Reachable hasher (Contract hasher) t') ∧
      t'.inFlight = [] ∧
      t'.shard.boundEntry (hasher key) = some (wrapEntry T (hasher key) key entry) ∧
      key ∉ t'.shard.ttlTable.cohorts T := by
  have deleted := agrees.agree.delLocked_of_boundEntry key (hasher key) bound
  rw [resetKeyFromEntry_wrapEntry, readTimestampFromEntry_wrapEntry] at deleted
  have agree₁ := agrees.agree.delLocked key (hasher key)
  have fresh₁ := CacheShard.fresh_delLocked key (hasher key) fresh
  have bound₂ := agree₁.boundEntry_setLocked key (hasher key) entry duration epoch fresh₁ fits
  generalize def₁ : (t.shard.delLocked key (hasher key)).1 = s₁ at agree₁ fresh₁ bound₂
  generalize def₂ : s₁.setLocked key (hasher key) entry duration epoch index = s₂ at bound₂
  let s₃ : CacheShard := { s₂ with ttlTable := s₂.ttlTable.put T key }
  let s₄ : CacheShard := { s₃ with ttlTable := s₃.ttlTable.remove T key }.delhit
  have step₁ : t.step (.del key (hasher key)) = some ⟨s₁, [.remove T key]⟩ := by
    simp [step, idle, deleted, afterDel, def₁]
  have step₂ : (⟨s₁, [.remove T key]⟩ : SharedShard).step
      (.set key (hasher key) entry duration epoch index) = some ⟨s₂, [.remove T key, .put T key]⟩ := by
    simp [step, afterSet, timed, expires, def₂]
  have step₃ : (⟨s₂, [.remove T key, .put T key]⟩ : SharedShard).step (.resume (.put T key)) =
      some ⟨s₃, [.remove T key]⟩ := by
    simp [step, Deferred.run, s₃]
  have step₄ : (⟨s₃, [.remove T key]⟩ : SharedShard).step (.resume (.remove T key)) =
      some ⟨s₄, []⟩ := by
    simp [step, Deferred.run, s₄]
  refine ⟨⟨s₄, []⟩, by simp [run, step₁, step₂, step₃, step₄], fun reach => ?_, rfl, ?_, ?_⟩
  · exact .step (.resume _) (.step (.resume _) (.step (.set ..) (.step (.del ..) reach rfl step₁)
      ⟨rfl, fresh₁, fits⟩ step₂) trivial step₃) trivial step₄
  · show s₂.boundEntry (hasher key) = _
    rw [bound₂, Function.update_same, expires]
  · show key ∉ (s₃.ttlTable.remove T key).cohorts T
    simp [TtlManager.mem_remove]

/-- Key `[1]` stored with expiry second 1, deleted and set again with a 1 s TTL. -/
theorem del_remove_after_set_uncovers_second_one :
    let t := ((⟨initNewShard fun _ => 7, []⟩ : SharedShard).run
      [.set [1] 7 [5] 1000000000 0 1, .resume (.put 1 [1])]).getD ⟨initNewShard fun _ => 7, []⟩
    ∃ t', t.run [.del [1] 7, .set [1] 7 [6] 1000000000 0 2, .resume (.put 1 [1]),
        .resume (.remove 1 [1])] = some t' ∧
      (Reachable (fun _ => 7) (Contract fun _ => 7) t → Reachable (fun _ => 7) (Contract fun _ => 7) t') ∧
      t'.inFlight = [] ∧ t'.shard.boundEntry 7 = some (wrapEntry 1 7 [1] [6]) ∧
      [1] ∉ t'.shard.ttlTable.cohorts 1 := by
  intro t
  have reach : Reachable (fun _ => 7) (Contract fun _ => 7) t :=
    .step (.resume (.put 1 [1])) (.step (.set [1] 7 [5] 1000000000 0 1) .init ⟨rfl, by decide, by decide⟩ rfl)
      trivial rfl
  exact @del_remove_after_set_uncovers (fun _ => 7) t (agrees_reachable (fun _ _ => id) reach) rfl
    [1] [5] [6] 1 1000000000 0 2 rfl (by decide) rfl (by decide) (by decide)

/-- After the race the firing of second 1 leaves key `[1]` bound: `get` still finds it. -/
example : (((⟨initNewShard fun _ => 7, []⟩ : SharedShard).run
    [.set [1] 7 [5] 1000000000 0 1, .resume (.put 1 [1]), .del [1] 7, .set [1] 7 [6] 1000000000 0 2,
      .resume (.put 1 [1]), .resume (.remove 1 [1]), .pop 1 [], .resume (.evict 1 [])]).map
    fun t => (t.shard.get [1] 7).2) = some (.ok [6]) := rfl

end Race

/-! ## Only a `set` that races a `del` uncovers an entry -/

section Races
variable {hasher : Bytes → UInt64} {t t' : SharedShard}

/-- A `set` races a `del` when it stores under the hash of a key whose deferred `remove`
for the new entry's expiry second is still in flight. -/
def Races (hasher : Bytes → UInt64) (t : SharedShard) : ShardStep → Prop
  | .set _ hashedKey _ duration epoch _ =>
    ∃ key, .remove (expiryTimestampOf epoch duration) key ∈ t.inFlight ∧ hasher key = hashedKey
  | _ => False

/-- No `remove` in flight would strike a live entry. -/
def Unstruck (hasher : Bytes → UInt64) (t : SharedShard) : Prop :=
  ∀ T key, .remove T key ∈ t.inFlight → ¬ Strikes hasher t (.resume (.remove T key))

/-- A step that keeps no new live entry and starts no new `remove` strikes nothing new. -/
theorem Unstruck.mono (unstruck : Unstruck hasher t)
    (sameLive : t'.shard.entries.liveSlots ⊆ t.shard.entries.liveSlots)
    (calls : ∀ T key, .remove T key ∈ t'.inFlight → .remove T key ∈ t.inFlight) :
    Unstruck hasher t' := fun T key mem ⟨x, live, value, wrapped⟩ =>
  unstruck T key (calls T key mem) ⟨x, sameLive live, value, wrapped⟩

/-- While no `remove` in flight strikes, no step that can be taken strikes. -/
theorem Unstruck.safe (unstruck : Unstruck hasher t) {e : ShardStep} (next : t.step e = some t') :
    ¬ Strikes hasher t e := by
  cases e with
  | resume call =>
    cases call with
    | remove T key =>
      simp only [SharedShard.step] at next
      split at next
      · exact unstruck T key ‹_›
      · cases next
    | _ => exact id
  | _ => exact id

theorem Unstruck.step (agrees : Agrees hasher t) (unstruck : Unstruck hasher t) {e : ShardStep}
    (contract : Contract hasher t e) (calm : ¬ Races hasher t e) (next : t.step e = some t') :
    Unstruck hasher t' := by
  have kept : ∀ {more : List Deferred}, (∀ c ∈ more, ∀ T key, c ≠ .remove T key) →
      ∀ T key, .remove T key ∈ t.inFlight ++ more → .remove T key ∈ t.inFlight :=
    fun noRemove T key mem => (List.mem_append.mp mem).resolve_right fun new => noRemove _ new T key rfl
  cases e with
  | get key h =>
    cases next
    obtain ⟨stats, eq⟩ := CacheShard.get_fst t.shard key h
    exact unstruck.mono (by rw [eq]; exact List.Subset.refl _) fun _ _ => id
  | set key h entry duration epoch index =>
    cases next
    intro T k mem ⟨x, live, value, wrapped⟩
    have old := kept (by simp only [afterSet]; split <;> simp) T k mem
    rw [agrees.agree.liveSlots_setLocked, List.mem_append] at live
    rcases live with earlier | new
    · exact unstruck T k old ⟨x, (List.mem_filter.mp earlier).1, value, wrapped⟩
    · rw [List.mem_singleton.mp new] at wrapped
      have stamp := congrArg readTimestampFromEntry wrapped
      have hashed := congrArg readHashFromEntry wrapped
      simp only [readTimestampFromEntry_wrapEntry, readHashFromEntry_wrapEntry] at stamp hashed
      exact calm ⟨k, stamp ▸ old, hashed.symm⟩
  | del key h =>
    cases next
    intro T k mem ⟨x, live, value, wrapped⟩
    rw [agrees.agree.liveSlots_delLocked] at live
    obtain ⟨earlier, other⟩ := List.mem_filter.mp live
    rcases List.mem_append.mp mem with old | new
    · exact unstruck T k old ⟨x, earlier, value, wrapped⟩
    · generalize (t.shard.delLocked key h).2 = r at new
      rcases r with _ | stamp
      · cases new
      · obtain ⟨-, rfl⟩ : T = stamp ∧ k = key := by simpa [afterDel] using new
        rw [wrapped, readHashFromEntry_wrapEntry, contract] at other
        simp at other
  | reset => cases next; exact fun _ _ _ ⟨_, live, _⟩ => nomatch live
  | pop => cases next; exact unstruck.mono (List.Subset.refl _) (kept (by simp))
  | resume call =>
    simp only [SharedShard.step] at next
    split at next
    · cases next
      refine unstruck.mono ?_ fun T key mem => List.mem_of_mem_erase mem
      cases call with
      | put | remove => exact List.Subset.refl _
      | evict timeStamp values =>
        rw [Deferred.run, agrees.agree.evictDel_liveSlots]
        exact List.filter_subset' _
    · cases next

end Races

end SharedShard

end NgBigCache
