import NgBigCache.Shard.Map

/-! # Expiry cohorts and TTL firings

A key set with a finite TTL is registered in its expiry second's cohort, and when the
timer fires for a second `T` the shard calls `evictDel(T, cohort)`, which looks each
key's hash up and deletes the entry only if its stored expiry is `T`.

`TtlCovered` says every live entry is the wrapped entry of some key under the shard's
hasher, in the cohort of its expiry second when that second is not 0.  Every step keeps
it, the stale cohort members that `set` and `del` leave behind included.  With it a
firing of a second `T ≠ 0` removes exactly the live entries stored with expiry `T` and
drops exactly their bindings (`ttl_firing_exact`).

The second 0 is the one exception.  `set` registers a key whenever its duration is not
zero, and the expiry it computes can itself be 0, for instance a sub-second TTL at clock
reading 0; a firing of second 0 then also removes an entry stored with `NO_EXPIRY`
under a colliding key (`ttl_firing_second_zero`).

`onEvict`, which only the commented-out `cleanUp` calls, reads an entry's stored second
as the second it was written: it evicts when the clock minus that second, a `uint64`
difference, exceeds `lifeWindow`.  But `set` stores the expiry second, or `NO_EXPIRY`.  So
`onEvict` evicts every entry whose expiry is still ahead of the clock, since the
difference wraps, and every entry with no TTL once the clock is past the window
(`onEvict_evicts_live_entries`). -/

set_option autoImplicit false

namespace NgBigCache

namespace CacheShard

section Agreement
variable {s : CacheShard}

/-- In a consistent shard the map is read off the live entries. -/
theorem Consistent.lookup_eq_some_iff (c : Consistent s) {h : UInt64} {i : UInt32} :
    s.hashmap.lookup h = some i ↔
      ∃ x ∈ s.entries.liveSlots, readHashFromEntry x.payload = h ∧ UInt32.ofNat x.index = i := by
  constructor
  · intro found
    obtain ⟨-, x, mem, index, live, hashed⟩ := c.bound h i found
    refine ⟨x, List.mem_filter.mpr ⟨mem, live⟩, hashed, ?_⟩
    exact index_eq_of_toNat_eq (by rw [toNat_ofNat_index (c.indicesFit x mem), index])
  · rintro ⟨x, live, rfl, rfl⟩
    rw [BytesQueue.liveSlots, List.mem_filter] at live
    exact c.covered x live.1 live.2

/-- The live entry bound under a hash is the only live entry carrying it. -/
theorem Consistent.live_index_iff (c : Consistent s) {h : UInt64} {p : UInt32}
    (found : s.hashmap.lookup h = some p) {x : Slot} (live : x ∈ s.entries.liveSlots) :
    x.index = p.toNat ↔ readHashFromEntry x.payload = h := by
  rw [BytesQueue.liveSlots, List.mem_filter] at live
  constructor
  · intro atP
    obtain ⟨-, y, mem, index, -, hashed⟩ := c.bound h p found
    exact c.slot_eq live.1 mem (atP.trans index.symm) ▸ hashed
  · intro hashed
    have := (c.covered x live.1 live.2).symm.trans (hashed ▸ found)
    rw [← Option.some.inj this, toNat_ofNat_index (c.indicesFit x live.1)]

theorem Consistent.payload_of_index (c : Consistent s) {p : UInt32} {e : Bytes}
    (read : s.entries.get p.toNat = .ok e) {x : Slot} (live : x ∈ s.entries.liveSlots)
    (atP : x.index = p.toNat) : x.payload = e := by
  obtain ⟨y, mem, index, -, rfl⟩ := (BytesQueue.get_eq_ok_iff c.indicesNodup).mp read
  rw [BytesQueue.liveSlots, List.mem_filter] at live
  rw [c.slot_eq live.1 mem (atP.trans index.symm)]

end Agreement

/-! ## What `evictDel` removes -/

/-- A live entry `evictDel(T, values)` deletes: stored with expiry `T`, and carrying the
hash of one of the keys. -/
def Evicted (hasher : Bytes → UInt64) (timeStamp : UInt64) (values : List Bytes) (x : Slot) : Prop :=
  readTimestampFromEntry x.payload = timeStamp ∧ ∃ v ∈ values, hasher v = readHashFromEntry x.payload

instance (hasher : Bytes → UInt64) (timeStamp : UInt64) (values : List Bytes) (x : Slot) :
    Decidable (Evicted hasher timeStamp values x) :=
  inferInstanceAs (Decidable (_ ∧ ∃ v ∈ values, _))

section Evict
variable {s : CacheShard} (timeStamp : UInt64)

theorem evictOne_ttlTable (v : Bytes) : (CacheShard.evictOne timeStamp s v).ttlTable = s.ttlTable := by
  unfold CacheShard.evictOne
  dsimp only
  split
  · rfl
  · split
    · rfl
    · split <;> rfl

theorem Consistent.evictOne_liveSlots (c : Consistent s) (v : Bytes) :
    (CacheShard.evictOne timeStamp s v).entries.liveSlots =
      s.entries.liveSlots.filter fun x => ¬ Evicted s.ttlTable.shardHasher timeStamp [v] x := by
  have untouched : ∀ (t : CacheShard), t.entries = s.entries →
      (∀ x ∈ s.entries.liveSlots, ¬ Evicted s.ttlTable.shardHasher timeStamp [v] x) →
      t.entries.liveSlots = s.entries.liveSlots.filter fun x => ¬ Evicted s.ttlTable.shardHasher timeStamp [v] x := by
    intro t same none
    rw [same, eq_comm, List.filter_eq_self]
    simpa using none
  cases found : s.hashmap.lookup (s.ttlTable.shardHasher v) with
  | none =>
    have same : (CacheShard.evictOne timeStamp s v).entries = s.entries := by
      simp [CacheShard.evictOne, indexOf, found, delmiss]
    refine untouched _ same fun x live evicted => ?_
    obtain ⟨-, v', inV, hashed⟩ := evicted
    rw [List.mem_singleton.mp inV] at hashed
    rw [(c.lookup_eq_some_iff).mpr ⟨x, live, hashed.symm, rfl⟩] at found
    cases found
  | some p =>
    obtain ⟨e, read, -⟩ := c.get_bound found
    have nonzero := (c.bound _ p found).1
    by_cases expired : readTimestampFromEntry e = timeStamp
    · have shape : (CacheShard.evictOne timeStamp s v).entries = s.entries.delete p.toNat := by
        simp [CacheShard.evictOne, indexOf, found, nonzero, read, expired, delhit]
      rw [shape, BytesQueue.liveSlots_delete]
      refine List.filter_congr fun x live => ?_
      have iff := c.live_index_iff found live
      by_cases atP : x.index = p.toNat
      · have payload := c.payload_of_index read live atP
        simp [atP, Evicted, payload, expired, (iff.mp atP).symm]
      · have other : readHashFromEntry x.payload ≠ s.ttlTable.shardHasher v :=
          fun same => atP (iff.mpr same)
        simp [atP, Evicted, Ne.symm other]
    · have same : (CacheShard.evictOne timeStamp s v).entries = s.entries := by
        simp [CacheShard.evictOne, indexOf, found, nonzero, read, expired]
      refine untouched _ same fun x live evicted => ?_
      obtain ⟨stamp, v', inV, hashed⟩ := evicted
      rw [List.mem_singleton.mp inV] at hashed
      have payload := c.payload_of_index read live ((c.live_index_iff found live).mpr hashed.symm)
      exact expired (payload ▸ stamp)

theorem Consistent.evictDel_liveSlots (c : Consistent s) (values : List Bytes) :
    (s.evictDel timeStamp values).1.entries.liveSlots =
      s.entries.liveSlots.filter fun x => ¬ Evicted s.ttlTable.shardHasher timeStamp values x := by
  have loop : ∀ (rest : List Bytes) (t : CacheShard), Consistent t → t.ttlTable = s.ttlTable →
      (rest.foldl (CacheShard.evictOne timeStamp) t).entries.liveSlots =
        t.entries.liveSlots.filter fun x => ¬ Evicted s.ttlTable.shardHasher timeStamp rest x := by
    intro rest
    induction rest with
    | nil => intro t _ _; simp [Evicted]
    | cons v rest ih =>
      intro t ct sameTable
      rw [List.foldl_cons, ih _ (ct.evictOne timeStamp v) ((evictOne_ttlTable timeStamp v).trans sameTable),
        ct.evictOne_liveSlots, sameTable, List.filter_filter]
      refine List.filter_congr fun x _ => ?_
      simp only [Evicted, List.mem_cons, List.mem_singleton, exists_eq_or_imp, exists_eq_left]
      by_cases stamp : readTimestampFromEntry x.payload = timeStamp <;> simp [stamp, Bool.and_comm]
  exact loop values { s with lock := s.lock.lock } (c.congr rfl fun _ => rfl) rfl

theorem evictDel_ttlTable (values : List Bytes) :
    (s.evictDel timeStamp values).1.ttlTable = s.ttlTable := by
  have loop : ∀ (rest : List Bytes) (t : CacheShard),
      (rest.foldl (CacheShard.evictOne timeStamp) t).ttlTable = t.ttlTable := by
    intro rest
    induction rest with
    | nil => intro t; rfl
    | cons v rest ih => intro t; rw [List.foldl_cons, ih, evictOne_ttlTable]
  exact loop values { s with lock := s.lock.lock }

end Evict

/-! ## Every live entry's key is in its expiry cohort -/

/-- Every live entry is the wrapped entry of a key under the shard's hasher, and a key
stored with a non-zero expiry second is in that second's cohort. -/
def TtlCovered (s : CacheShard) : Prop :=
  ∀ x ∈ s.entries.liveSlots, ∃ key value,
    x.payload = wrapEntry (readTimestampFromEntry x.payload) (s.ttlTable.shardHasher key) key value ∧
    (readTimestampFromEntry x.payload ≠ 0 → key ∈ s.ttlTable.cohorts (readTimestampFromEntry x.payload))

section Covered
variable {s t : CacheShard}

theorem TtlCovered.mono (covered : TtlCovered s) (fewer : ∀ x ∈ t.entries.liveSlots, x ∈ s.entries.liveSlots)
    (sameTable : t.ttlTable = s.ttlTable) : TtlCovered t := by
  intro x live
  rw [sameTable]
  exact covered x (fewer x live)

/-- A live entry other than the one bound under `h` carries another key than `h`'s. -/
theorem Consistent.key_ne_of_index_ne (c : Consistent s) {key : Bytes}
    {p : UInt32} (found : s.hashmap.lookup (s.ttlTable.shardHasher key) = some p) {x : Slot}
    (live : x ∈ s.entries.liveSlots) (elsewhere : x.index ≠ p.toNat) {key' value : Bytes}
    (wrapped : x.payload = wrapEntry (readTimestampFromEntry x.payload) (s.ttlTable.shardHasher key') key' value) :
    key' ≠ key := by
  rintro rfl
  exact elsewhere ((c.live_index_iff found live).mpr (by rw [wrapped, readHashFromEntry_wrapEntry]))

theorem ttlCovered_initNewShard (hasher : Bytes → UInt64) : TtlCovered (initNewShard hasher) :=
  fun _ live => nomatch live

theorem TtlCovered.get (covered : TtlCovered s) (key : Bytes) (h : UInt64) : TtlCovered (s.get key h).1 := by
  obtain ⟨stats, eq⟩ := get_fst s key h
  exact covered.mono (fun x live => by rwa [eq] at live) (by rw [eq])

/-- `t` is `s` with the entry bound under `h` tombstoned and `key` removed from one
cohort, or, when `h` had no binding, with the same live entries and cohorts. -/
def Forgets (s t : CacheShard) (key : Bytes) (h : UInt64) : Prop :=
  t.ttlTable.shardHasher = s.ttlTable.shardHasher ∧
    ((t.entries.liveSlots = s.entries.liveSlots ∧ t.ttlTable.cohorts = s.ttlTable.cohorts) ∨
      ∃ p stamp, s.hashmap.lookup h = some p ∧
        t.entries.liveSlots = s.entries.liveSlots.filter (fun x => x.index ≠ p.toNat) ∧
        t.ttlTable = s.ttlTable.remove stamp key)

/-- Forgetting the entry of `key` keeps every other live entry's key in its cohort: the
only live entry carrying `key`'s hash is the one tombstoned. -/
theorem TtlCovered.forgets (c : Consistent s) (covered : TtlCovered s) {key : Bytes} {h : UInt64}
    (hashed : h = s.ttlTable.shardHasher key) (forgets : Forgets s t key h) : TtlCovered t := by
  obtain ⟨sameHasher, same | ⟨p, stamp, found, survivors, removed⟩⟩ := forgets
  · intro x live
    rw [same.1] at live
    rw [sameHasher, same.2]
    exact covered x live
  · intro x live
    rw [survivors, List.mem_filter] at live
    obtain ⟨key', value, wrapped, inCohort⟩ := covered x live.1
    have other := c.key_ne_of_index_ne (hashed ▸ found) live.1 (by simpa using live.2) wrapped
    refine ⟨key', value, sameHasher ▸ wrapped, fun nonzero => ?_⟩
    rw [removed, TtlManager.mem_remove]
    exact ⟨inCohort nonzero, fun both => other both.2⟩

theorem Consistent.forgets_invalidatePrevious (c : Consistent s) (key : Bytes) (h : UInt64) :
    Forgets s (s.invalidatePrevious key h) key h := by
  cases found : s.hashmap.lookup h with
  | none => rw [invalidatePrevious_of_lookup_none s key h found]; exact ⟨rfl, .inl ⟨rfl, rfl⟩⟩
  | some p =>
    obtain ⟨e, read, -⟩ := c.get_bound found
    rw [invalidatePrevious_of_get s key h found (c.bound h p found).1 read]
    exact ⟨rfl, .inr ⟨p, _, found, BytesQueue.liveSlots_delete _ _, rfl⟩⟩

theorem Consistent.forgets_del (c : Consistent s) (key : Bytes) (h : UInt64) :
    Forgets s (s.del key h).1 key h := by
  cases found : s.hashmap.lookup h with
  | none =>
    obtain ⟨-, sameEntries, sameTable, -⟩ := del_of_lookup_none key h found
    exact ⟨by rw [sameTable], .inl ⟨by rw [sameEntries], by rw [sameTable]⟩⟩
  | some p =>
    obtain ⟨e, read, -⟩ := c.get_bound found
    obtain ⟨-, newEntries, newTable, -⟩ := del_of_get key h found (c.bound h p found).1 read
    exact ⟨by rw [newTable]; rfl, .inr ⟨p, _, found, by rw [newEntries, BytesQueue.liveSlots_delete],
      newTable⟩⟩

theorem set_some_ttlTable (key : Bytes) (h : UInt64) (entry : Bytes) (duration : Duration)
    (epoch : Int) (index : Nat) :
    (s.set key h entry duration epoch (some index)).1.ttlTable =
      if duration ≠ 0 then
        (invalidatePrevious { s with lock := s.lock.lock } key h).ttlTable.put
          (expiryTimestampOf epoch duration) key
      else (invalidatePrevious { s with lock := s.lock.lock } key h).ttlTable := by
  rw [set_some_fst]
  split <;> simp [*]

theorem Consistent.set_shardHasher (c : Consistent s) (key : Bytes) (h : UInt64) (entry : Bytes)
    (duration : Duration) (epoch : Int) (index : Nat) :
    (s.set key h entry duration epoch (some index)).1.ttlTable.shardHasher = s.ttlTable.shardHasher := by
  have locked : Consistent { s with lock := s.lock.lock } := c.congr rfl fun _ => rfl
  rw [set_some_ttlTable, ← (locked.forgets_invalidatePrevious key h).1]
  split <;> rfl

theorem TtlCovered.set (c : Consistent s) (covered : TtlCovered s) (key : Bytes) (h : UInt64)
    (entry : Bytes) (duration : Duration) (epoch : Int) (index : Nat)
    (hashed : h = s.ttlTable.shardHasher key) :
    TtlCovered (s.set key h entry duration epoch (some index)).1 := by
  let u := invalidatePrevious { s with lock := s.lock.lock } key h
  have locked : Consistent { s with lock := s.lock.lock } := c.congr rfl fun _ => rfl
  have coveredU : TtlCovered u :=
    TtlCovered.forgets locked covered hashed (locked.forgets_invalidatePrevious key h)
  have hasherU : u.ttlTable.shardHasher = s.ttlTable.shardHasher :=
    (locked.forgets_invalidatePrevious key h).1
  have table := set_some_ttlTable (s := s) key h entry duration epoch index
  have keeps : ∀ t k, k ∈ u.ttlTable.cohorts t →
      k ∈ (s.set key h entry duration epoch (some index)).1.ttlTable.cohorts t := by
    intro t k mem
    rw [table]
    split
    · exact TtlManager.mem_put.mpr (.inl mem)
    · exact mem
  have sameHasher := c.set_shardHasher key h entry duration epoch index
  intro x live
  rw [set_some_entries, BytesQueue.liveSlots_push] at live
  rcases List.mem_append.mp live with old | new
  · obtain ⟨key', value, wrapped, inCohort⟩ := coveredU x old
    exact ⟨key', value, by rw [sameHasher, ← hasherU]; exact wrapped,
      fun nonzero => keeps _ _ (inCohort nonzero)⟩
  · rw [List.mem_singleton.mp new]
    refine ⟨key, entry, by rw [readTimestampFromEntry_wrapEntry, sameHasher, ← hashed], fun nonzero => ?_⟩
    rw [readTimestampFromEntry_wrapEntry] at nonzero ⊢
    have timed : duration ≠ 0 := fun zero => nonzero (by simp [expiryTimestampOf, zero, noExpiry])
    rw [table, if_pos timed]
    exact TtlManager.mem_put.mpr (.inr ⟨rfl, rfl⟩)

theorem TtlCovered.del (c : Consistent s) (covered : TtlCovered s) (key : Bytes) (h : UInt64)
    (hashed : h = s.ttlTable.shardHasher key) : TtlCovered (s.del key h).1 :=
  covered.forgets c hashed (c.forgets_del key h)

theorem TtlCovered.removeOldestEntry (covered : TtlCovered s) : TtlCovered s.removeOldestEntry.1 := by
  unfold CacheShard.removeOldestEntry
  split
  · rename_i oldest entries popped
    obtain ⟨slot, layout⟩ := BytesQueue.liveSlots_pop popped
    exact covered.mono (fun x live => by rw [layout]; exact List.mem_cons_of_mem _ live) rfl
  · exact covered

theorem TtlCovered.reset (s : CacheShard) : TtlCovered s.reset := fun _ live => nomatch live

theorem TtlCovered.evictDel (c : Consistent s) (covered : TtlCovered s) (timeStamp : UInt64)
    (values : List Bytes) : TtlCovered (s.evictDel timeStamp values).1 :=
  covered.mono (fun x live => by
      rw [c.evictDel_liveSlots] at live; exact (List.mem_filter.mp live).1)
    (evictDel_ttlTable timeStamp values)

end Covered

/-! ## A firing -/

section Firing
variable {s : CacheShard} {timeStamp : UInt64} {values : List Bytes}

theorem fire_ttlTable : (s.fire timeStamp values).ttlTable = s.ttlTable.dropCohort timeStamp := by
  simp only [CacheShard.fire, evictDel_ttlTable]

/-- A firing of a second `T ≠ 0` with its cohort's keys removes exactly the live entries
stored with expiry `T`. -/
theorem Consistent.fire_liveSlots (c : Consistent s) (covered : TtlCovered s) (nonzero : timeStamp ≠ 0)
    (cohort : values.Perm (s.ttlTable.cohorts timeStamp)) :
    (s.fire timeStamp values).entries.liveSlots =
      s.entries.liveSlots.filter fun x => readTimestampFromEntry x.payload ≠ timeStamp := by
  show (s.evictDel timeStamp values).1.entries.liveSlots = _
  rw [c.evictDel_liveSlots]
  refine List.filter_congr fun x live => ?_
  by_cases stamp : readTimestampFromEntry x.payload = timeStamp
  · obtain ⟨key, value, wrapped, inCohort⟩ := covered x live
    have member : key ∈ values := by
      rw [cohort.mem_iff, ← stamp]
      exact inCohort (by rw [stamp]; exact nonzero)
    have evicted : Evicted s.ttlTable.shardHasher timeStamp values x :=
      ⟨stamp, key, member, by rw [wrapped, readHashFromEntry_wrapEntry]⟩
    simp [evicted, stamp]
  · simp [Evicted, stamp]

/-- The bindings a firing of `T ≠ 0` leaves are exactly those whose entry does not
expire at `T`. -/
theorem Consistent.fire_lookup (c : Consistent s) (covered : TtlCovered s) (nonzero : timeStamp ≠ 0)
    (cohort : values.Perm (s.ttlTable.cohorts timeStamp)) (h : UInt64) (i : UInt32) :
    (s.fire timeStamp values).hashmap.lookup h = some i ↔
      s.hashmap.lookup h = some i ∧
        ∃ e, s.entries.get i.toNat = .ok e ∧ readTimestampFromEntry e ≠ timeStamp := by
  rw [(c.fire timeStamp values).lookup_eq_some_iff, c.fire_liveSlots covered nonzero cohort,
    c.lookup_eq_some_iff]
  constructor
  · rintro ⟨x, kept, hashed, rfl⟩
    obtain ⟨live, stamp⟩ := List.mem_filter.mp kept
    obtain ⟨inQueue, isLive⟩ := List.mem_filter.mp live
    refine ⟨⟨x, live, hashed, rfl⟩, x.payload, ?_, by simpa using stamp⟩
    rw [toNat_ofNat_index (c.indicesFit x inQueue)]
    exact (BytesQueue.get_eq_ok_iff c.indicesNodup).mpr ⟨x, inQueue, rfl, isLive, rfl⟩
  · rintro ⟨⟨x, live, hashed, rfl⟩, e, read, stamp⟩
    have inQueue := (List.mem_filter.mp live).1
    have payload := c.payload_of_index read live (toNat_ofNat_index (c.indicesFit x inQueue)).symm
    exact ⟨x, List.mem_filter.mpr ⟨live, by simpa [payload] using stamp⟩, hashed, rfl⟩

theorem TtlCovered.fire (c : Consistent s) (covered : TtlCovered s) (timeStamp : UInt64)
    (values : List Bytes) (cohort : values.Perm (s.ttlTable.cohorts timeStamp)) :
    TtlCovered (s.fire timeStamp values) := by
  intro x live
  have survivor : x ∈ s.entries.liveSlots ∧ (readTimestampFromEntry x.payload = timeStamp → timeStamp = 0) := by
    by_cases zero : timeStamp = 0
    · have : x ∈ (s.evictDel timeStamp values).1.entries.liveSlots := live
      rw [c.evictDel_liveSlots] at this
      exact ⟨(List.mem_filter.mp this).1, fun _ => zero⟩
    · rw [c.fire_liveSlots covered zero cohort, List.mem_filter] at live
      exact ⟨live.1, fun stamp => absurd stamp (by simpa using live.2)⟩
  obtain ⟨key, value, wrapped, inCohort⟩ := covered x survivor.1
  refine ⟨key, value, by rw [fire_ttlTable, TtlManager.shardHasher_dropCohort]; exact wrapped,
    fun nonzero => ?_⟩
  rw [fire_ttlTable, TtlManager.mem_dropCohort]
  exact ⟨inCohort nonzero, fun stamp => nonzero (by rw [stamp]; exact survivor.2 stamp)⟩

end Firing

/-! ## Runs -/

/-- What a run keeps: the map agrees with the queue, the TTL table hashes with the run's
hasher, and every live entry's key is in its cohort. -/
structure ExpiryInvariant (hasher : Bytes → UInt64) (s : CacheShard) : Prop where
  agree : Consistent s
  sameHasher : s.ttlTable.shardHasher = hasher
  covered : TtlCovered s

/-- `FitsContract`, with `get`, `set` and `del` called with their key's hash. -/
def HashedContract (hasher : Bytes → UInt64) (s : CacheShard) (op : ShardOp) : Prop :=
  FitsContract s op ∧ op.HashedBy hasher

theorem ExpiryInvariant.step {hasher : Bytes → UInt64} {s : CacheShard} (inv : ExpiryInvariant hasher s)
    (op : ShardOp) (allowed : HashedContract hasher s op) : ExpiryInvariant hasher (op.apply s) := by
  obtain ⟨c, sameHasher, covered⟩ := inv
  obtain ⟨⟨contract, fits⟩, hashed⟩ := allowed
  refine ⟨consistent_step c op contract fits, ?_, ?_⟩
  · rw [← sameHasher]
    cases op with
    | get key h => obtain ⟨stats, eq⟩ := get_fst s key h; show (s.get key h).1.ttlTable.shardHasher = _; rw [eq]
    | set key h entry duration epoch index => exact c.set_shardHasher key h entry duration epoch index
    | del key h => exact (c.forgets_del key h).1
    | evictDel timeStamp values => exact congrArg _ (evictDel_ttlTable timeStamp values)
    | removeOldestEntry =>
      show s.removeOldestEntry.1.ttlTable.shardHasher = _
      unfold CacheShard.removeOldestEntry; split <;> rfl
    | reset => rfl
    | fire timeStamp values => show (s.fire timeStamp values).ttlTable.shardHasher = _; rw [fire_ttlTable]; rfl
  · cases op with
    | get key h => exact covered.get key h
    | set key h entry duration epoch index =>
      exact covered.set c key h entry duration epoch index (sameHasher ▸ hashed)
    | del key h => exact covered.del c key h (sameHasher ▸ hashed)
    | evictDel timeStamp values => exact covered.evictDel c timeStamp values
    | removeOldestEntry => exact covered.removeOldestEntry
    | reset => exact TtlCovered.reset s
    | fire timeStamp values => exact covered.fire c timeStamp values contract

theorem expiryInvariant_reachable {hasher : Bytes → UInt64} {s : CacheShard}
    (reach : Reachable hasher (HashedContract hasher) s) : ExpiryInvariant hasher s := by
  induction reach with
  | init => exact ⟨consistent_initNewShard hasher, rfl, ttlCovered_initNewShard hasher⟩
  | step op _ allowed inv => exact inv.step op allowed

/-- Over every run under the contract: each live entry stored with a non-zero expiry `T`
has its key in cohort `T`, and a firing of a second `T ≠ 0` removes exactly the live
entries stored with expiry `T` and keeps every other binding. -/
theorem ttl_firing_exact {hasher : Bytes → UInt64} {s : CacheShard}
    (reach : Reachable hasher (HashedContract hasher) s) :
    (∀ x ∈ s.entries.liveSlots, readTimestampFromEntry x.payload ≠ 0 →
      ∃ key value, x.payload = wrapEntry (readTimestampFromEntry x.payload) (hasher key) key value ∧
        key ∈ s.ttlTable.cohorts (readTimestampFromEntry x.payload)) ∧
    ∀ timeStamp values, timeStamp ≠ 0 → values.Perm (s.ttlTable.cohorts timeStamp) →
      (s.fire timeStamp values).entries.liveSlots =
          s.entries.liveSlots.filter (fun x => readTimestampFromEntry x.payload ≠ timeStamp) ∧
        ∀ h i, (s.fire timeStamp values).hashmap.lookup h = some i ↔
          s.hashmap.lookup h = some i ∧
            ∃ e, s.entries.get i.toNat = .ok e ∧ readTimestampFromEntry e ≠ timeStamp := by
  obtain ⟨c, sameHasher, covered⟩ := expiryInvariant_reachable reach
  refine ⟨fun x live nonzero => ?_, fun timeStamp values nonzero cohort =>
    ⟨c.fire_liveSlots covered nonzero cohort, c.fire_lookup covered nonzero cohort⟩⟩
  obtain ⟨key, value, wrapped, inCohort⟩ := covered x live
  exact ⟨key, value, sameHasher ▸ wrapped, inCohort nonzero⟩

theorem ttl_firing_exact_after_set :
    let s := (ShardOp.set [1] 7 [2] 2000000000 1 1).apply (initNewShard fun _ => 7)
    (∀ x ∈ s.entries.liveSlots, readTimestampFromEntry x.payload ≠ 0 →
      ∃ key value, x.payload = wrapEntry (readTimestampFromEntry x.payload) ((fun _ => 7) key) key value ∧
        key ∈ s.ttlTable.cohorts (readTimestampFromEntry x.payload)) ∧
    ∀ timeStamp values, timeStamp ≠ 0 → values.Perm (s.ttlTable.cohorts timeStamp) →
      (s.fire timeStamp values).entries.liveSlots =
          s.entries.liveSlots.filter (fun x => readTimestampFromEntry x.payload ≠ timeStamp) ∧
        ∀ h i, (s.fire timeStamp values).hashmap.lookup h = some i ↔
          s.hashmap.lookup h = some i ∧
            ∃ e, s.entries.get i.toNat = .ok e ∧ readTimestampFromEntry e ≠ timeStamp :=
  ttl_firing_exact (.step _ .init ⟨⟨⟨by decide, by simp [initNewShard]⟩, by decide⟩, rfl⟩)

/-- A run whose firing of second 0 removes an entry stored with `NO_EXPIRY`: a 500 ms
TTL at epoch 0 puts key `[1]` into cohort 0, and the colliding key `[2]`, set with no
TTL, replaces its entry without taking `[1]` out of the cohort. -/
theorem ttl_firing_second_zero :
    ¬ ∀ (hasher : Bytes → UInt64) (s : CacheShard), Reachable hasher (HashedContract hasher) s →
      ∀ timeStamp values, values.Perm (s.ttlTable.cohorts timeStamp) →
        ∀ x ∈ s.entries.liveSlots, readTimestampFromEntry x.payload = noExpiry →
          x ∈ (s.fire timeStamp values).entries.liveSlots := by
  intro spared
  let timed := (ShardOp.set [1] 0 [5] 500000000 0 1).apply (initNewShard fun _ => 0)
  let s := (ShardOp.set [2] 0 [6] 0 0 2).apply timed
  have reach : Reachable (fun _ => 0) (HashedContract fun _ => 0) s :=
    .step _ (.step _ .init ⟨⟨⟨by decide, by simp [initNewShard]⟩, by decide⟩, rfl⟩)
      ⟨⟨(by decide : timed.entries.Fresh 2), by decide⟩, rfl⟩
  have kept := spared _ s reach 0 [[1]] (by decide) ⟨2, wrapEntry 0 0 [2] [6], true⟩ (by decide) rfl
  exact absurd kept (by decide)

/-! ## `onEvict`, for the commented-out `cleanUp` -/

/-- `onEvict(oldestEntry, currentTimestamp, evict)` with the shard's `lifeWindow`: it runs
`evict()` on `state` and reports `true` when `currentTimestamp - oldestTimestamp`, a
`uint64` difference, exceeds `lifeWindow`. -/
def onEvict {σ : Type} (lifeWindow : UInt64) (oldestEntry : Bytes) (currentTimestamp : UInt64)
    (evict : σ → σ) (state : σ) : σ × Bool :=
  let oldestTimestamp := readTimestampFromEntry oldestEntry
  if currentTimestamp - oldestTimestamp > lifeWindow then (evict state, true) else (state, false)

section OnEvict
variable {σ : Type} (lifeWindow now : UInt64) (hashedKey : UInt64) (key entry : Bytes)
  (evict : σ → σ) (state : σ)

/-- `onEvict` evicts an entry stored with second `T` exactly when the clock minus `T`,
modulo `2 ^ 64`, exceeds the life window. -/
theorem onEvict_wrapEntry (T : UInt64) :
    onEvict lifeWindow (wrapEntry T hashedKey key entry) now evict state =
      if lifeWindow.toNat < (now.toNat + 2 ^ 64 - T.toNat) % 2 ^ 64 then (evict state, true)
      else (state, false) := by
  have age : (now - T).toNat = (2 ^ 64 - T.toNat + now.toNat) % 2 ^ 64 := BitVec.toNat_sub _ _
  have bound := T.toNat_lt_size
  unfold UInt64.size at bound
  simp only [onEvict, readTimestampFromEntry_wrapEntry, gt_iff_lt]
  congr 1
  rw [show (lifeWindow < now - T) = (lifeWindow.toNat < (now - T).toNat) from rfl, age]
  congr 2
  omega

/-- With the clock at `now`, `onEvict` evicts every entry whose expiry second is still ahead
of the clock, for any life window short of the wrapped difference, and every entry stored
with `NO_EXPIRY` once the clock is past the life window. -/
theorem onEvict_evicts_live_entries :
    (∀ T : UInt64, now < T → lifeWindow.toNat + (T.toNat - now.toNat) < 2 ^ 64 →
      onEvict lifeWindow (wrapEntry T hashedKey key entry) now evict state = (evict state, true)) ∧
    (lifeWindow < now →
      onEvict lifeWindow (wrapEntry noExpiry hashedKey key entry) now evict state = (evict state, true)) := by
  have clock := now.toNat_lt_size
  unfold UInt64.size at clock
  constructor
  · intro T ahead window
    have ahead : now.toNat < T.toNat := ahead
    rw [onEvict_wrapEntry, if_pos (by rw [Nat.mod_eq_of_lt (by omega)]; omega)]
  · intro past
    have past : lifeWindow.toNat < now.toNat := past
    have zero : noExpiry.toNat = 0 := rfl
    rw [onEvict_wrapEntry, if_pos (by omega)]

end OnEvict

end CacheShard

end NgBigCache
