import NgBigCache.Shard.Expiry

/-! # The shard as an expiring map

A client sees a shard through `get`, `set`, `del` and `reset`, and sees the TTL timer
through its firings.  To the client the shard is a map from a key's hash to the key, the
value and the expiry second last `set` under that hash.  `ExpiringMap` is that map, and
`ExpiringMap.call` says what each call does to it and answers:
* a `set` binds the hash, whatever the hash held;
* a `get` finds the value only under its own key;
* a `del` unbinds the hash, whichever key it holds;
* a firing of a second drops every entry that expires in that second.

`boundEntry` is what `get` reads for a hash: the queue's blob at the index the map binds
the hash to.  `stored` decodes that blob.  In a consistent shard the entry bound to a hash
is the live entry carrying it (`Consistent.boundEntry_eq_some_iff`).  So what a method
does to the live entries is what it does to the map (`ExpiryInvariant.call`).

`serve_refines_expiringMap` holds over every run from a reachable state that keeps to the
contract.  Each `set` pushes at a fresh index, a firing hands over its cohort, and calls
carry their key's hash.  Each key is shorter than `2 ^ 16` bytes, and no firing is of
second 0.  On such a run the shard answers every call as the map does, and its `stored`
is the map's state after each call.

`evictDel` and `removeOldestEntry` are not calls of their own here.  `evictDel` is what a
firing runs.  What `removeOldestEntry` removes depends on the queue's order, which the map
does not hold. -/

set_option autoImplicit false

namespace NgBigCache

/-- What a client reads back of an entry: its key, its value and its expiry second. -/
structure Stored where
  key : Bytes
  value : Bytes
  expiry : UInt64
  deriving DecidableEq, Repr

/-- For each hash, the entry last set under it. -/
abbrev ExpiringMap := UInt64 → Option Stored

/-- A call the shard serves: a client's `get`, `set` (with the index its entry is pushed
at), `del` or `reset`, or the TTL timer's firing of a second with its cohort's keys. -/
inductive ShardCall
  | get (key : Bytes) (hashedKey : UInt64)
  | set (key : Bytes) (hashedKey : UInt64) (entry : Bytes) (duration : Duration) (epoch : Int)
      (index : Nat)
  | del (key : Bytes) (hashedKey : UInt64)
  | reset
  | fire (timeStamp : UInt64) (values : List Bytes)

/-- What a call returns to its caller: `get`'s value or error, `set`'s expiry second and
error, `del`'s error, or nothing. -/
inductive Answer
  | value (result : Except ShardError Bytes)
  | stored (result : UInt64 × Option ShardError)
  | deleted (result : Option ShardError)
  | none
  deriving Repr

namespace ShardCall

/-- The step of a shard run the call is. -/
def toOp : ShardCall → ShardOp
  | get key hashedKey => .get key hashedKey
  | set key hashedKey entry duration epoch index => .set key hashedKey entry duration epoch index
  | del key hashedKey => .del key hashedKey
  | reset => .reset
  | fire timeStamp values => .fire timeStamp values

/-- A `set` of a key shorter than the entry's `u16` key-length field can hold, and a
firing of a second other than 0. -/
def Sound : ShardCall → Prop
  | set key .. => key.length < 2 ^ 16
  | fire timeStamp _ => timeStamp ≠ 0
  | _ => True

/-- The contract of a call in a run of the hasher `hasher`. -/
def Allowed (hasher : Bytes → UInt64) (s : CacheShard) (c : ShardCall) : Prop :=
  CacheShard.HashedContract hasher s c.toOp ∧ c.Sound

end ShardCall

namespace ExpiringMap

/-- A `get` finds the value only under its own key. -/
def get (m : ExpiringMap) (key : Bytes) (hashedKey : UInt64) : Except ShardError Bytes :=
  match m hashedKey with
  | some e => if e.key = key then .ok e.value else .error (.entryNotFound key)
  | none => .error (.entryNotFound key)

/-- What each call does to the map and answers. -/
def call (m : ExpiringMap) : ShardCall → ExpiringMap × Answer
  | .get key hashedKey => (m, .value (m.get key hashedKey))
  | .set key hashedKey entry duration epoch _ =>
    (Function.update m hashedKey (some ⟨key, entry, expiryTimestampOf epoch duration⟩),
      .stored (expiryTimestampOf epoch duration, none))
  | .del key hashedKey =>
    (Function.update m hashedKey none,
      .deleted (if m hashedKey = none then some (.entryNotFound key) else none))
  | .reset => (fun _ => none, .none)
  | .fire timeStamp _ => (fun h => (m h).filter (·.expiry ≠ timeStamp), .none)

end ExpiringMap

/-- The answers to `calls` served in order from `s`, and the state they leave. -/
def serve {σ : Type} (call : σ → ShardCall → σ × Answer) : σ → List ShardCall → List Answer × σ
  | s, [] => ([], s)
  | s, c :: calls => Prod.map ((call s c).2 :: ·) id (serve call (call s c).1 calls)

namespace CacheShard

/-- The wrapped entry `get` reads for a hash: the blob at the index the map binds it to. -/
def boundEntry (s : CacheShard) (h : UInt64) : Option Bytes :=
  match s.hashmap.lookup h with
  | none => none
  | some i =>
    match s.entries.get i.toNat with
    | .ok e => some e
    | .error _ => none

/-- The fields of a wrapped entry. -/
def decodeEntry (e : Bytes) : Stored := ⟨readKeyFromEntry e, readEntry e, readTimestampFromEntry e⟩

/-- The shard read as an expiring map. -/
def stored (s : CacheShard) : ExpiringMap := fun h => (s.boundEntry h).map decodeEntry

/-- A call of the shard's method, and what it returns. -/
def call (s : CacheShard) : ShardCall → CacheShard × Answer
  | .get key hashedKey => ((s.get key hashedKey).1, .value (s.get key hashedKey).2)
  | .set key hashedKey entry duration epoch index =>
    ((s.set key hashedKey entry duration epoch (some index)).1,
      .stored (s.set key hashedKey entry duration epoch (some index)).2)
  | .del key hashedKey => ((s.del key hashedKey).1, .deleted (s.del key hashedKey).2)
  | .reset => (s.reset, .none)
  | .fire timeStamp values => (s.fire timeStamp values, .none)

theorem call_fst (s : CacheShard) (c : ShardCall) : (s.call c).1 = c.toOp.apply s := by
  cases c <;> rfl

/-! ## The bound entry is the live entry carrying the hash -/

section Bound
variable {s t : CacheShard}

theorem contents_eq_map (s : CacheShard) (h : UInt64) :
    s.contents h = (s.boundEntry h).map fun e => (readKeyFromEntry e, readEntry e) := by
  unfold contents boundEntry
  cases s.hashmap.lookup h with
  | none => rfl
  | some i => dsimp only; cases s.entries.get i.toNat <;> rfl

/-- In a consistent shard, the entry bound to `h` is the live entry whose stored hash is `h`. -/
theorem Consistent.boundEntry_eq_some_iff (c : Consistent s) {h : UInt64} {e : Bytes} :
    s.boundEntry h = some e ↔ e ∈ s.entries.liveSlots.map Slot.payload ∧ readHashFromEntry e = h := by
  constructor
  · intro bound
    unfold boundEntry at bound
    split at bound
    · cases bound
    · rename_i i found
      obtain ⟨e', read, hashed⟩ := c.get_bound found
      rw [read] at bound
      cases bound
      obtain ⟨x, mem, -, live, rfl⟩ := (BytesQueue.get_eq_ok_iff c.indicesNodup).mp read
      exact ⟨List.mem_map_of_mem _ (List.mem_filter.mpr ⟨mem, live⟩), hashed⟩
  · rintro ⟨mem, rfl⟩
    obtain ⟨x, live, rfl⟩ := List.mem_map.mp mem
    obtain ⟨inQueue, isLive⟩ := List.mem_filter.mp live
    have read : s.entries.get (UInt32.ofNat x.index).toNat = .ok x.payload := by
      rw [toNat_ofNat_index (c.indicesFit x inQueue)]
      exact (BytesQueue.get_eq_ok_iff c.indicesNodup).mpr ⟨x, inQueue, rfl, isLive, rfl⟩
    simp only [boundEntry, c.covered x inQueue isLive, read]

theorem mem_payloads_filter {l : List Slot} {p : Bytes → Bool} {e : Bytes} :
    e ∈ (l.filter fun x => p x.payload).map Slot.payload ↔ e ∈ l.map Slot.payload ∧ p e := by
  simp only [List.mem_map, List.mem_filter]
  constructor
  · rintro ⟨x, ⟨mem, kept⟩, rfl⟩
    exact ⟨⟨x, mem, rfl⟩, kept⟩
  · rintro ⟨⟨x, mem, rfl⟩, kept⟩
    exact ⟨x, ⟨mem, kept⟩, rfl⟩

/-- The live entries but the one carrying `h`. -/
def liveWithout (s : CacheShard) (h : UInt64) : List Slot :=
  s.entries.liveSlots.filter fun x => readHashFromEntry x.payload ≠ h

/-- Read off the live entries but the one carrying `h`, the bound entries are those of `s`
with `h` unbound. -/
theorem Consistent.mem_liveWithout_iff (c : Consistent s) {h h' : UInt64} {e : Bytes} :
    e ∈ (s.liveWithout h).map Slot.payload ∧ readHashFromEntry e = h' ↔
      Function.update s.boundEntry h none h' = some e := by
  rw [liveWithout, @mem_payloads_filter _ fun e => readHashFromEntry e ≠ h]
  by_cases same : h' = h
  · subst same
    simp
  · rw [Function.update_noteq same, c.boundEntry_eq_some_iff]
    constructor
    · rintro ⟨⟨mem, -⟩, hashed⟩
      exact ⟨mem, hashed⟩
    · rintro ⟨mem, hashed⟩
      exact ⟨⟨mem, by simpa [hashed] using same⟩, hashed⟩

theorem Consistent.liveWithout_of_lookup_none (c : Consistent s) {h : UInt64}
    (unbound : s.hashmap.lookup h = none) : s.liveWithout h = s.entries.liveSlots := by
  refine List.filter_eq_self.mpr fun x live => ?_
  obtain ⟨inQueue, isLive⟩ := List.mem_filter.mp live
  have bound := c.covered x inQueue isLive
  have other : readHashFromEntry x.payload ≠ h := fun same => by rw [same, unbound] at bound; cases bound
  simpa using other

/-- Tombstoning the entry bound to `h` leaves the live entries but the one carrying `h`. -/
theorem Consistent.liveSlots_delete_bound (c : Consistent s) {h : UInt64} {p : UInt32}
    (found : s.hashmap.lookup h = some p) :
    (s.entries.delete p.toNat).liveSlots = s.liveWithout h := by
  rw [BytesQueue.liveSlots_delete, liveWithout]
  refine List.filter_congr fun x live => ?_
  simp only [ne_eq, c.live_index_iff found live]

theorem Consistent.liveSlots_invalidatePrevious (c : Consistent s) (key : Bytes) (h : UInt64) :
    (s.invalidatePrevious key h).entries.liveSlots = s.liveWithout h := by
  cases found : s.hashmap.lookup h with
  | none => rw [invalidatePrevious_of_lookup_none s key h found, c.liveWithout_of_lookup_none found]
  | some p =>
    obtain ⟨e, read, -⟩ := c.get_bound found
    rw [invalidatePrevious_of_get s key h found (c.bound h p found).1 read]
    exact c.liveSlots_delete_bound found

theorem Consistent.liveSlots_del (c : Consistent s) (key : Bytes) (h : UInt64) :
    (s.del key h).1.entries.liveSlots = s.liveWithout h := by
  cases found : s.hashmap.lookup h with
  | none => rw [(del_of_lookup_none key h found).2.1, c.liveWithout_of_lookup_none found]
  | some p =>
    obtain ⟨e, read, -⟩ := c.get_bound found
    rw [(del_of_get key h found (c.bound h p found).1 read).2.1]
    exact c.liveSlots_delete_bound found

end Bound

/-! ## What each call does to the bound entries -/

section Calls
variable {s : CacheShard}

theorem boundEntry_get (s : CacheShard) (key : Bytes) (h : UInt64) :
    (s.get key h).1.boundEntry = s.boundEntry := by
  obtain ⟨stats, eq⟩ := get_fst s key h
  rw [eq]
  rfl

/-- `set` binds the hash to the entry it wraps and keeps every other binding. -/
theorem Consistent.boundEntry_set (c : Consistent s) (key : Bytes) (h : UInt64) (entry : Bytes)
    (duration : Duration) (epoch : Int) {index : Nat} (fresh : s.entries.Fresh index)
    (fits : index < 2 ^ 32) :
    (s.set key h entry duration epoch (some index)).1.boundEntry =
      Function.update s.boundEntry h (some (wrapEntry (expiryTimestampOf epoch duration) h key entry)) := by
  have locked : Consistent { s with lock := s.lock.lock } := c.congr rfl fun _ => rfl
  have hashed := readHashFromEntry_wrapEntry (expiryTimestampOf epoch duration) h key entry
  funext h'
  refine Option.ext fun e => ?_
  rw [Option.mem_def, Option.mem_def, (c.set key h entry duration epoch fresh fits).boundEntry_eq_some_iff, set_some_entries,
    BytesQueue.liveSlots_push, locked.liveSlots_invalidatePrevious, List.map_append, List.mem_append,
    or_and_right, locked.mem_liveWithout_iff]
  by_cases same : h' = h
  · subst same
    simp only [Function.update_same, reduceCtorEq, false_or, List.map_cons, List.map_nil,
      List.mem_singleton, Option.some.injEq]
    constructor
    · rintro ⟨rfl, -⟩
      rfl
    · rintro rfl
      exact ⟨rfl, hashed⟩
  · simp only [Function.update_noteq same, List.map_cons, List.map_nil, List.mem_singleton]
    constructor
    · rintro (bound | ⟨rfl, hashedE⟩)
      exacts [bound, absurd (hashedE.symm.trans hashed) same]
    · exact .inl

theorem Consistent.boundEntry_del (c : Consistent s) (key : Bytes) (h : UInt64) :
    (s.del key h).1.boundEntry = Function.update s.boundEntry h none := by
  funext h'
  refine Option.ext fun e => ?_
  rw [Option.mem_def, Option.mem_def, (c.del key h).boundEntry_eq_some_iff, c.liveSlots_del key h, c.mem_liveWithout_iff]

theorem boundEntry_reset (s : CacheShard) : s.reset.boundEntry = fun _ => none := by
  funext h
  simp [boundEntry, CacheShard.reset]

/-- A firing of a second `T ≠ 0` with its cohort's keys unbinds exactly the hashes whose
entry expires at `T`. -/
theorem Consistent.boundEntry_fire (c : Consistent s) (covered : TtlCovered s) {timeStamp : UInt64}
    {values : List Bytes} (nonzero : timeStamp ≠ 0) (cohort : values.Perm (s.ttlTable.cohorts timeStamp)) :
    (s.fire timeStamp values).boundEntry =
      fun h => (s.boundEntry h).filter fun e => readTimestampFromEntry e ≠ timeStamp := by
  funext h
  refine Option.ext fun e => ?_
  rw [Option.mem_def, Option.mem_def, (c.fire timeStamp values).boundEntry_eq_some_iff,
    c.fire_liveSlots covered nonzero cohort, @mem_payloads_filter _ fun e => readTimestampFromEntry e ≠ timeStamp,
    Option.filter_eq_some, Option.mem_def, c.boundEntry_eq_some_iff]
  constructor
  · rintro ⟨⟨mem, kept⟩, hashed⟩
    exact ⟨⟨mem, hashed⟩, kept⟩
  · rintro ⟨⟨mem, hashed⟩, kept⟩
    exact ⟨⟨mem, kept⟩, hashed⟩

end Calls

/-! ## The shard serves calls as the expiring map does -/

section Serve
variable {hasher : Bytes → UInt64} {s t : CacheShard}

theorem decodeEntry_wrapEntry {key : Bytes} (short : key.length < 2 ^ 16) (timestamp hash : UInt64)
    (entry : Bytes) : decodeEntry (wrapEntry timestamp hash key entry) = ⟨key, entry, timestamp⟩ := by
  obtain ⟨stamp, -, readKey, readValue⟩ := wrap_roundtrip timestamp hash key entry short
  rw [decodeEntry, stamp, readKey, readValue]

theorem stored_congr (same : t.boundEntry = s.boundEntry) : t.stored = s.stored := by
  unfold stored
  rw [same]

theorem stored_update {h : UInt64} {v : Option Bytes}
    (bound : t.boundEntry = Function.update s.boundEntry h v) :
    t.stored = Function.update s.stored h (v.map decodeEntry) := by
  funext h'
  by_cases same : h' = h
  · subst same
    simp [stored, bound]
  · simp [stored, bound, Function.update_noteq same]

/-- `get` answers from the expiring map. -/
theorem Consistent.get_answer (c : Consistent s) (key : Bytes) (h : UInt64) :
    (s.get key h).2 = s.stored.get key h := by
  rw [c.get_eq]
  unfold ExpiringMap.get KeyValueMap.get
  rw [contents_eq_map]
  cases bound : s.boundEntry h with
  | none => simp [stored, bound]
  | some e => by_cases same : readKeyFromEntry e = key <;> simp [stored, bound, decodeEntry, same]

/-- `del` answers not-found exactly when the hash holds nothing. -/
theorem Consistent.del_answer (c : Consistent s) (key : Bytes) (h : UInt64) :
    (s.del key h).2 = if s.stored h = none then some (.entryNotFound key) else none := by
  rw [(c.contents_del key h).2, contents_eq_map, stored]
  simp only [Option.map_eq_none']

/-- One call under the invariant and the contract: the shard answers as the map does, and
its `stored` moves as the map does. -/
theorem ExpiryInvariant.call_stored (inv : ExpiryInvariant hasher s) {c : ShardCall}
    (allowed : c.Allowed hasher s) : ((s.call c).1.stored, (s.call c).2) = s.stored.call c := by
  obtain ⟨agree, -, covered⟩ := inv
  obtain ⟨⟨⟨contract, fits⟩, -⟩, sound⟩ := allowed
  cases c with
  | get key h =>
    rw [call, ExpiringMap.call, agree.get_answer, stored_congr (boundEntry_get s key h)]
  | set key h entry duration epoch index =>
    rw [call, ExpiringMap.call, stored_update (agree.boundEntry_set key h entry duration epoch contract fits),
      Option.map_some', decodeEntry_wrapEntry sound]
    rfl
  | del key h => rw [call, ExpiringMap.call, stored_update (agree.boundEntry_del key h), agree.del_answer]; rfl
  | reset =>
    rw [call, ExpiringMap.call]
    unfold stored
    rw [boundEntry_reset]
    rfl
  | fire timeStamp values =>
    rw [call, ExpiringMap.call]
    refine Prod.ext (funext fun h => ?_) rfl
    simp only [stored, agree.boundEntry_fire covered sound contract]
    cases s.boundEntry h with
    | none => rfl
    | some e => by_cases stamp : readTimestampFromEntry e = timeStamp <;> simp [Option.filter, decodeEntry, stamp]

/-- Every call of `calls` keeps to the contract in the state the calls before it leave. -/
def Obeys (hasher : Bytes → UInt64) : CacheShard → List ShardCall → Prop
  | _, [] => True
  | s, c :: calls => c.Allowed hasher s ∧ Obeys hasher (s.call c).1 calls

/-- Over a run that keeps to the contract, the shard read through `stored` is the expiring
map served the same calls. -/
theorem ExpiryInvariant.serve_stored : ∀ {s : CacheShard} (calls : List ShardCall),
    ExpiryInvariant hasher s → Obeys hasher s calls →
      Prod.map id stored (serve call s calls) = serve ExpiringMap.call s.stored calls
  | _, [], _, _ => rfl
  | s, c :: calls, inv, ⟨allowed, rest⟩ => by
    have next : ExpiryInvariant hasher (s.call c).1 := call_fst s c ▸ inv.step c.toOp allowed.1
    rw [serve, serve, ← inv.call_stored allowed, ← serve_stored calls next rest, Prod.map_map, Prod.map_map]
    rfl

/-- Over every run from a reachable state that keeps to the contract (fresh pushes below
`2 ^ 32`, firings with their cohort, calls with their key's hash, keys shorter than
`2 ^ 16` bytes, no firing of second 0), the shard answers every call as the expiring map
does, and after the run it reads as the map does. -/
theorem serve_refines_expiringMap (reach : Reachable hasher (HashedContract hasher) s)
    (calls : List ShardCall) (obeys : Obeys hasher s calls) :
    (serve call s calls).1 = (serve ExpiringMap.call s.stored calls).1 ∧
      (serve call s calls).2.stored = (serve ExpiringMap.call s.stored calls).2 := by
  have run := (expiryInvariant_reachable reach).serve_stored calls obeys
  exact ⟨congrArg Prod.fst run, congrArg Prod.snd run⟩

theorem serve_refines_expiringMap_new_shard :
    (serve call (initNewShard fun _ => 7) [.set [1] 7 [2] 0 5 1, .get [1] 7, .get [3] 7, .del [3] 7]).1 =
        (serve ExpiringMap.call (initNewShard fun _ => 7).stored
          [.set [1] 7 [2] 0 5 1, .get [1] 7, .get [3] 7, .del [3] 7]).1 ∧
      (serve call (initNewShard fun _ => 7) [.set [1] 7 [2] 0 5 1, .get [1] 7, .get [3] 7, .del [3] 7]).2.stored =
        (serve ExpiringMap.call (initNewShard fun _ => 7).stored
          [.set [1] 7 [2] 0 5 1, .get [1] 7, .get [3] 7, .del [3] 7]).2 :=
  serve_refines_expiringMap .init _
    ⟨⟨⟨⟨⟨by decide, by simp [initNewShard]⟩, by decide⟩, rfl⟩, show List.length [1] < 2 ^ 16 by decide⟩, ⟨⟨⟨trivial, trivial⟩, rfl⟩, trivial⟩,
      ⟨⟨⟨trivial, trivial⟩, rfl⟩, trivial⟩, ⟨⟨⟨trivial, trivial⟩, rfl⟩, trivial⟩, trivial⟩

example : (serve call (initNewShard fun _ => 7) [.set [1] 7 [2] 0 5 1, .get [1] 7, .get [3] 7, .del [3] 7]).1 =
    [.stored (0, none), .value (.ok [2]), .value (.error (.entryNotFound [3])), .deleted none] := by
  rfl

end Serve

end CacheShard

end NgBigCache
