import NgBigCache.Shard

/-! # The index map and the queue agree

`Consistent` is the agreement between a shard's `hashmap` and its queue that every
method relies on: each binding `h ↦ i` has `i ≠ 0` and points at a live entry whose
stored hash is `h`, and each live entry is what the map binds its stored hash to.

Every step of a run keeps it, provided the queue pushes at fresh indices that the
map's `uint32` can hold (`consistent_step`); so every reachable state has it, and with
it at most one live entry per hash and `len()` equal to the number of live entries
(`shard_index_consistent`).  Without the `uint32` bound the agreement fails: a push at
index `2 ^ 32 + 1` is recorded as 1 (`shard_index_wraps`). -/

set_option autoImplicit false

namespace NgBigCache

namespace BytesQueue

theorem mem_delete {q : BytesQueue} {index : Nat} {slot' : Slot} :
    slot' ∈ (q.delete index).slots ↔ ∃ slot ∈ q.slots, slot' =
      if slot.index = index then { slot with live := false, payload := resetKeyFromEntry slot.payload }
      else slot := by
  simp only [delete_slots, List.mem_map]
  exact ⟨fun ⟨slot, mem, same⟩ => ⟨slot, mem, same.symm⟩, fun ⟨slot, mem, same⟩ => ⟨slot, mem, same.symm⟩⟩

/-- A tombstone keeps its slot's index. -/
theorem index_mem_delete {q : BytesQueue} {index : Nat} {slot' : Slot}
    (mem : slot' ∈ (q.delete index).slots) : ∃ slot ∈ q.slots, slot.index = slot'.index ∧
      (slot.index ≠ index → slot' = slot) := by
  obtain ⟨slot, inQueue, rfl⟩ := mem_delete.mp mem
  exact ⟨slot, inQueue, by split <;> rfl, fun differ => by simp [differ]⟩

/-- A live blob after a `Delete` was there before, at another index. -/
theorem mem_delete_of_live {q : BytesQueue} {index : Nat} {slot' : Slot}
    (mem : slot' ∈ (q.delete index).slots) (live : slot'.live) :
    slot' ∈ q.slots ∧ slot'.index ≠ index := by
  obtain ⟨slot, inQueue, rfl⟩ := mem_delete.mp mem
  by_cases here : slot.index = index
  · simp [here] at live
  · simpa [here] using inQueue

theorem fresh_delete {q : BytesQueue} {index fresh : Nat} (isFresh : q.Fresh fresh) :
    (q.delete index).Fresh fresh := by
  refine ⟨isFresh.1, fun slot' mem => ?_⟩
  obtain ⟨slot, inQueue, sameIndex, -⟩ := index_mem_delete mem
  exact sameIndex ▸ isFresh.2 slot inQueue

end BytesQueue

namespace CacheShard

/-- The map and the queue agree. -/
structure Consistent (s : CacheShard) : Prop where
  indicesNodup : s.entries.IndicesNodup
  indicesFit : ∀ slot ∈ s.entries.slots, slot.index < 2 ^ 32
  bound : ∀ h i, s.hashmap.lookup h = some i → i ≠ 0 ∧
    ∃ slot ∈ s.entries.slots, slot.index = i.toNat ∧ slot.live ∧ readHashFromEntry slot.payload = h
  covered : ∀ slot ∈ s.entries.slots, slot.live →
    s.hashmap.lookup (readHashFromEntry slot.payload) = some (UInt32.ofNat slot.index)

section Consistent
variable {s t : CacheShard}

theorem Consistent.slot_eq (c : Consistent s) {a b : Slot} (ina : a ∈ s.entries.slots)
    (inb : b ∈ s.entries.slots) (same : a.index = b.index) : a = b :=
  List.inj_on_of_nodup_map c.indicesNodup ina inb same

/-- The agreement only reads the map through `lookup`. -/
theorem Consistent.congr (c : Consistent s) (sameEntries : t.entries = s.entries)
    (sameMap : ∀ h, t.hashmap.lookup h = s.hashmap.lookup h) : Consistent t where
  indicesNodup := sameEntries ▸ c.indicesNodup
  indicesFit := sameEntries ▸ c.indicesFit
  bound h i found := sameEntries ▸ c.bound h i (sameMap h ▸ found)
  covered slot mem live := (sameMap _).trans (c.covered slot (sameEntries ▸ mem) live)

theorem consistent_initNewShard (hasher : Bytes → UInt64) : Consistent (initNewShard hasher) where
  indicesNodup := List.nodup_nil
  indicesFit _ mem := nomatch mem
  bound h i found := by simp [initNewShard, AList.lookup_empty] at found
  covered _ mem := nomatch mem

theorem lookup_of_indexOf_ne_zero {h : UInt64} (bound : s.indexOf h ≠ 0) :
    s.hashmap.lookup h = some (s.indexOf h) := by
  unfold indexOf at *
  cases found : s.hashmap.lookup h <;> simp_all

/-- A bound index reads back a live entry carrying the hash. -/
theorem Consistent.get_bound (c : Consistent s) {h : UInt64} {i : UInt32}
    (found : s.hashmap.lookup h = some i) :
    ∃ e, s.entries.get i.toNat = .ok e ∧ readHashFromEntry e = h := by
  obtain ⟨-, slot, mem, index, live, hashed⟩ := c.bound h i found
  exact ⟨slot.payload, (BytesQueue.get_eq_ok_iff c.indicesNodup).mpr ⟨slot, mem, index, live, rfl⟩,
    hashed⟩

/-- Dropping a binding and tombstoning the slot it points at keeps the agreement. -/
theorem Consistent.unbind (c : Consistent s) {h : UInt64} {p : UInt32}
    (found : s.hashmap.lookup h = some p) (newEntries : t.entries = s.entries.delete p.toNat)
    (newMap : ∀ h', t.hashmap.lookup h' = (s.hashmap.erase h).lookup h') : Consistent t := by
  obtain ⟨-, target, inTarget, targetIndex, -, targetHash⟩ := c.bound h p found
  have kept : ∀ slot ∈ s.entries.slots, slot.live → readHashFromEntry slot.payload ≠ h →
      slot ∈ t.entries.slots := by
    intro slot mem live other
    have differ : slot.index ≠ p.toNat := fun same =>
      other (c.slot_eq mem inTarget (same.trans targetIndex.symm) ▸ targetHash)
    rw [newEntries, BytesQueue.mem_delete]
    exact ⟨slot, mem, by simp [differ]⟩
  refine ⟨newEntries ▸ BytesQueue.indicesNodup_delete _ c.indicesNodup, ?_, ?_, ?_⟩
  · intro slot' mem
    obtain ⟨slot, inQueue, sameIndex, -⟩ := BytesQueue.index_mem_delete (newEntries ▸ mem)
    exact sameIndex ▸ c.indicesFit slot inQueue
  · intro h' i found'
    rw [newMap] at found'
    have other : h' ≠ h := by rintro rfl; simp [AList.lookup_erase] at found'
    rw [AList.lookup_erase_ne other] at found'
    obtain ⟨nonzero, slot, mem, index, live, hashed⟩ := c.bound h' i found'
    exact ⟨nonzero, slot, kept slot mem live (hashed ▸ other), index, live, hashed⟩
  · intro slot' mem live
    obtain ⟨inQueue, differ⟩ := BytesQueue.mem_delete_of_live (newEntries ▸ mem) live
    have other : readHashFromEntry slot'.payload ≠ h := by
      intro same
      have := (c.covered slot' inQueue live).symm.trans (same ▸ found)
      exact differ (by rw [← Option.some.inj this, toNat_ofNat_index (c.indicesFit slot' inQueue)])
    rw [newMap, AList.lookup_erase_ne other]
    exact c.covered slot' inQueue live

/-- Binding a hash that had no binding to a fresh live slot carrying it keeps the
agreement. -/
theorem Consistent.bind (c : Consistent s) {h : UInt64} {i : Nat} {w : Bytes}
    (unbound : s.hashmap.lookup h = none) (fresh : s.entries.Fresh i) (fits : i < 2 ^ 32)
    (hashed : readHashFromEntry w = h)
    (newEntries : t.entries = ⟨s.entries.slots ++ [⟨i, w, true⟩]⟩)
    (newMap : ∀ h', t.hashmap.lookup h' = (s.hashmap.insert h (UInt32.ofNat i)).lookup h') :
    Consistent t := by
  have ofNatIndex : (UInt32.ofNat i).toNat = i := toNat_ofNat_index fits
  have inNew : ∀ {slot}, slot ∈ t.entries.slots ↔ slot ∈ s.entries.slots ∨ slot = ⟨i, w, true⟩ := by
    intro slot; rw [newEntries]; simp
  refine ⟨newEntries ▸ BytesQueue.indicesNodup_push w c.indicesNodup fresh, ?_, ?_, ?_⟩
  · intro slot mem
    rcases inNew.mp mem with old | rfl
    · exact c.indicesFit slot old
    · exact fits
  · intro h' j found
    rw [newMap] at found
    by_cases same : h' = h
    · subst same
      rw [AList.lookup_insert] at found
      cases found
      refine ⟨fun zero => ?_, ⟨i, w, true⟩, inNew.mpr (.inr rfl), ofNatIndex.symm, rfl, hashed⟩
      have := congrArg UInt32.toNat zero
      rw [ofNatIndex, UInt32.toNat_zero] at this
      exact absurd this (Nat.pos_iff_ne_zero.mp fresh.1)
    · rw [AList.lookup_insert_ne same] at found
      obtain ⟨nonzero, slot, mem, index, live, hashed'⟩ := c.bound h' j found
      exact ⟨nonzero, slot, inNew.mpr (.inl mem), index, live, hashed'⟩
  · intro slot mem live
    rcases inNew.mp mem with old | rfl
    · have other : readHashFromEntry slot.payload ≠ h := fun same => by
        have := c.covered slot old live
        rw [same, unbound] at this
        cases this
      rw [newMap, AList.lookup_insert_ne other]
      exact c.covered slot old live
    · rw [newMap, hashed, AList.lookup_insert]

end Consistent

/-! ## What each method does to the map and the queue -/

section Methods
variable (s : CacheShard) (key : Bytes) (h : UInt64)

theorem get_fst : ∃ stats, (s.get key h).1 = { s with stats } := by
  unfold get
  dsimp only
  split
  · exact ⟨_, rfl⟩
  · split
    · exact ⟨_, rfl⟩
    · split <;> exact ⟨_, rfl⟩

theorem invalidatePrevious_of_lookup_none (unbound : s.hashmap.lookup h = none) :
    s.invalidatePrevious key h = s := by
  simp [invalidatePrevious, indexOf, unbound]

theorem invalidatePrevious_of_get {p : UInt32} {e : Bytes} (found : s.hashmap.lookup h = some p)
    (nonzero : p ≠ 0) (read : s.entries.get p.toNat = .ok e) :
    s.invalidatePrevious key h =
      { s with ttlTable := s.ttlTable.remove (readTimestampFromEntry e) key,
               entries := s.entries.delete p.toNat } := by
  simp [invalidatePrevious, indexOf, found, nonzero, read]

variable (entry : Bytes) (duration : Duration) (epoch : Int) (index : Nat)

theorem set_some_fst : (s.set key h entry duration epoch (some index)).1 =
    let u := invalidatePrevious { s with lock := s.lock.lock } key h
    let v : CacheShard :=
      { u with entries := ⟨u.entries.slots ++
                 [⟨index, wrapEntry (expiryTimestampOf epoch duration) h key entry, true⟩]⟩,
               hashmap := u.hashmap.insert h (UInt32.ofNat index), lock := u.lock.unlock }
    if duration ≠ 0 then { v with ttlTable := v.ttlTable.put (expiryTimestampOf epoch duration) key }
    else v := rfl

theorem set_some_hashmap : (s.set key h entry duration epoch (some index)).1.hashmap =
    (invalidatePrevious { s with lock := s.lock.lock } key h).hashmap.insert h (UInt32.ofNat index) := by
  rw [set_some_fst]; split <;> rfl

theorem set_some_entries : (s.set key h entry duration epoch (some index)).1.entries =
    ⟨(invalidatePrevious { s with lock := s.lock.lock } key h).entries.slots ++
      [⟨index, wrapEntry (expiryTimestampOf epoch duration) h key entry, true⟩]⟩ := by
  rw [set_some_fst]; split <;> rfl

end Methods

/-! ## Every step keeps the agreement -/

section Steps
variable {s : CacheShard}

theorem Consistent.get (c : Consistent s) (key : Bytes) (h : UInt64) : Consistent (s.get key h).1 := by
  obtain ⟨stats, eq⟩ := get_fst s key h
  exact eq ▸ c.congr rfl fun _ => rfl

theorem Consistent.set (c : Consistent s) (key : Bytes) (h : UInt64) (entry : Bytes)
    (duration : Duration) (epoch : Int) {index : Nat} (fresh : s.entries.Fresh index)
    (fits : index < 2 ^ 32) : Consistent (s.set key h entry duration epoch (some index)).1 := by
  have hashed := readHashFromEntry_wrapEntry (expiryTimestampOf epoch duration) h key entry
  cases found : s.hashmap.lookup h with
  | none =>
    have unchanged := invalidatePrevious_of_lookup_none { s with lock := s.lock.lock } key h found
    refine c.bind found fresh fits hashed ?_ fun _ => ?_
    · rw [set_some_entries, unchanged]
    · rw [set_some_hashmap, unchanged]
  | some p =>
    obtain ⟨e, read, -⟩ := c.get_bound found
    have invalidated := invalidatePrevious_of_get { s with lock := s.lock.lock } key h found
      (c.bound h p found).1 read
    let u : CacheShard := { s with hashmap := s.hashmap.erase h, entries := s.entries.delete p.toNat }
    have cu : Consistent u := c.unbind found rfl fun _ => rfl
    refine cu.bind (AList.lookup_erase h _) (BytesQueue.fresh_delete fresh) fits hashed ?_ fun h' => ?_
    · rw [set_some_entries, invalidated]
    · rw [set_some_hashmap, invalidated]
      by_cases same : h' = h
      · rw [same, AList.lookup_insert, AList.lookup_insert]
      · simp [u, AList.lookup_insert_ne same, AList.lookup_erase_ne same]

theorem Consistent.del (c : Consistent s) (key : Bytes) (h : UInt64) : Consistent (s.del key h).1 := by
  unfold CacheShard.del
  dsimp only
  split
  · exact c.congr rfl fun _ => rfl
  · split
    · exact c.congr rfl fun _ => rfl
    · exact c.unbind (lookup_of_indexOf_ne_zero ‹_›) rfl fun _ => rfl

theorem Consistent.evictOne (c : Consistent s) (timeStamp : UInt64) (v : Bytes) :
    Consistent (evictOne timeStamp s v) := by
  unfold CacheShard.evictOne
  dsimp only
  split
  · exact c.congr rfl fun _ => rfl
  · split
    · exact c.congr rfl fun _ => rfl
    · split
      · exact c.unbind (lookup_of_indexOf_ne_zero ‹_›) rfl fun _ => rfl
      · exact c.congr rfl fun _ => rfl

theorem Consistent.evictDel (c : Consistent s) (timeStamp : UInt64) (values : List Bytes) :
    Consistent (s.evictDel timeStamp values).1 := by
  have loop : ∀ (rest : List Bytes) (t : CacheShard), Consistent t →
      Consistent (rest.foldl (CacheShard.evictOne timeStamp) t) := by
    intro rest
    induction rest with
    | nil => exact fun _ ct => ct
    | cons v rest ih => exact fun t ct => ih _ (ct.evictOne timeStamp v)
  exact (loop values { s with lock := s.lock.lock } (c.congr rfl fun _ => rfl)).congr rfl fun _ => rfl

theorem Consistent.removeOldestEntry (c : Consistent s) : Consistent s.removeOldestEntry.1 := by
  unfold CacheShard.removeOldestEntry
  split
  · rename_i oldest entries popped
    obtain ⟨front, slot, layout, dead, live, rfl⟩ := BytesQueue.pop_eq_ok popped
    have nodup := c.indicesNodup
    rw [BytesQueue.IndicesNodup, layout, List.map_append, List.map_cons] at nodup
    have notRest : slot.index ∉ entries.slots.map Slot.index := (List.nodup_append.mp nodup).2.1.not_mem
    have inQueue : ∀ {x}, x ∈ entries.slots → x ∈ s.entries.slots := fun mem => by simp [layout, mem]
    have oldestBound := c.covered slot (by simp [layout]) live
    refine ⟨BytesQueue.indicesNodup_pop c.indicesNodup popped, fun x mem => c.indicesFit x (inQueue mem),
      fun h' i found => ?_, fun x mem liveX => ?_⟩
    · have other : h' ≠ readHashFromEntry slot.payload := by
        rintro rfl; simp [AList.lookup_erase] at found
      rw [AList.lookup_erase_ne other] at found
      obtain ⟨nonzero, x, mem, index, liveX, hashed⟩ := c.bound h' i found
      refine ⟨nonzero, x, ?_, index, liveX, hashed⟩
      rw [layout] at mem
      rcases List.mem_append.mp mem with early | late
      · simp [dead x early] at liveX
      · rcases List.mem_cons.mp late with rfl | later
        · exact absurd hashed.symm other
        · exact later
    · have other : readHashFromEntry x.payload ≠ readHashFromEntry slot.payload := by
        intro same
        have sameIndex := (c.covered x (inQueue mem) liveX).symm.trans (same ▸ oldestBound)
        have := congrArg UInt32.toNat (Option.some.inj sameIndex)
        rw [toNat_ofNat_index (c.indicesFit x (inQueue mem)),
          toNat_ofNat_index (c.indicesFit slot (by simp [layout]))] at this
        exact notRest (this ▸ List.mem_map_of_mem _ mem)
      rw [AList.lookup_erase_ne other]
      exact c.covered x (inQueue mem) liveX
  · exact c

theorem Consistent.reset (_ : Consistent s) : Consistent s.reset where
  indicesNodup := List.nodup_nil
  indicesFit _ mem := nomatch mem
  bound h i found := by simp [CacheShard.reset, AList.lookup_empty] at found
  covered _ mem := nomatch mem

theorem Consistent.fire (c : Consistent s) (timeStamp : UInt64) (values : List Bytes) :
    Consistent (s.fire timeStamp values) :=
  (c.evictDel timeStamp values).congr rfl fun _ => rfl

/-- One step keeps the agreement, when the queue pushes at a fresh index below `2 ^ 32`. -/
theorem consistent_step (c : Consistent s) (op : ShardOp) (contract : op.Contract s)
    (fits : op.IndexFits) : Consistent (op.apply s) := by
  cases op with
  | get key h => exact c.get key h
  | set key h entry duration epoch index => exact c.set key h entry duration epoch contract fits
  | del key h => exact c.del key h
  | evictDel timeStamp values => exact c.evictDel timeStamp values
  | removeOldestEntry => exact c.removeOldestEntry
  | reset => exact c.reset
  | fire timeStamp values => exact c.fire timeStamp values

theorem consistent_reachable {hasher : Bytes → UInt64} {allowed : CacheShard → ShardOp → Prop}
    (admits : ∀ s op, allowed s op → op.Contract s ∧ op.IndexFits)
    (reach : Reachable hasher allowed s) : Consistent s := by
  induction reach with
  | init => exact consistent_initNewShard hasher
  | step op _ allowedStep c =>
    exact consistent_step c op (admits _ op allowedStep).1 (admits _ op allowedStep).2

end Steps

/-! ## What the agreement gives -/

section Consequences
variable {s : CacheShard}

/-- At most one live entry carries a given hash. -/
theorem Consistent.live_unique (c : Consistent s) {a b : Slot} (ina : a ∈ s.entries.liveSlots)
    (inb : b ∈ s.entries.liveSlots) (same : readHashFromEntry a.payload = readHashFromEntry b.payload) :
    a = b := by
  rw [BytesQueue.liveSlots, List.mem_filter] at ina inb
  have sameIndex := (c.covered a ina.1 ina.2).symm.trans (same ▸ c.covered b inb.1 inb.2)
  have := congrArg UInt32.toNat (Option.some.inj sameIndex)
  rw [toNat_ofNat_index (c.indicesFit a ina.1), toNat_ofNat_index (c.indicesFit b inb.1)] at this
  exact c.slot_eq ina.1 inb.1 this

/-- The bound indices are exactly the indices of the live entries, each once. -/
theorem Consistent.bound_indices_perm (c : Consistent s) :
    (s.hashmap.entries.map fun binding => binding.2.toNat).Perm
      (s.entries.liveSlots.map Slot.index) := by
  have boundNodup : (s.hashmap.entries.map fun binding => binding.2.toNat).Nodup := by
    refine List.Nodup.map_on ?_ s.hashmap.nodupKeys.nodup
    rintro ⟨h₁, i₁⟩ in₁ ⟨h₂, i₂⟩ in₂ sameIndex
    obtain ⟨-, x₁, mem₁, index₁, -, hash₁⟩ := c.bound h₁ i₁ (AList.mem_lookup_iff.mpr in₁)
    obtain ⟨-, x₂, mem₂, index₂, -, hash₂⟩ := c.bound h₂ i₂ (AList.mem_lookup_iff.mpr in₂)
    have sameSlot := c.slot_eq mem₁ mem₂ (index₁.trans (sameIndex.trans index₂.symm))
    obtain rfl : h₁ = h₂ := hash₁.symm.trans (sameSlot ▸ hash₂)
    obtain rfl : i₁ = i₂ := index_eq_of_toNat_eq sameIndex
    rfl
  have liveNodup : (s.entries.liveSlots.map Slot.index).Nodup :=
    c.indicesNodup.sublist ((List.filter_sublist _).map _)
  refine (List.perm_ext_iff_of_nodup boundNodup liveNodup).mpr fun n => ?_
  simp only [List.mem_map, BytesQueue.liveSlots, List.mem_filter]
  constructor
  · rintro ⟨⟨h, i⟩, mem, rfl⟩
    obtain ⟨-, x, inQueue, index, live, -⟩ := c.bound h i (AList.mem_lookup_iff.mpr mem)
    exact ⟨x, ⟨inQueue, live⟩, index⟩
  · rintro ⟨x, ⟨inQueue, live⟩, rfl⟩
    exact ⟨⟨_, _⟩, AList.mem_lookup_iff.mp (c.covered x inQueue live),
      toNat_ofNat_index (c.indicesFit x inQueue)⟩

/-- `len()` counts the live entries. -/
theorem Consistent.len_eq (c : Consistent s) : s.len = s.entries.liveSlots.length := by
  simpa [len] using c.bound_indices_perm.length_eq

end Consequences

/-- The queue's and the timer's contract with the `uint32` bound on indices: every `set`
pushes at a fresh index below `2 ^ 32`, and every firing evicts its cohort. -/
def FitsContract (s : CacheShard) (op : ShardOp) : Prop := op.Contract s ∧ op.IndexFits

/-- In every reachable state each binding points at a live entry carrying its hash, each
live entry is bound under its hash, no hash has two live entries, and `len()` is the
number of live entries. -/
theorem shard_index_consistent {hasher : Bytes → UInt64} {s : CacheShard}
    (reach : Reachable hasher FitsContract s) :
    (∀ h i, s.hashmap.lookup h = some i →
      i ≠ 0 ∧ ∃ e, s.entries.get i.toNat = .ok e ∧ readHashFromEntry e = h) ∧
    (∀ slot ∈ s.entries.slots, slot.live →
      s.hashmap.lookup (readHashFromEntry slot.payload) = some (UInt32.ofNat slot.index)) ∧
    (∀ a ∈ s.entries.liveSlots, ∀ b ∈ s.entries.liveSlots,
      readHashFromEntry a.payload = readHashFromEntry b.payload → a = b) ∧
    s.len = s.entries.liveSlots.length := by
  have c := consistent_reachable (fun _ _ allowed => allowed) reach
  exact ⟨fun h i found => ⟨(c.bound h i found).1, c.get_bound found⟩, c.covered,
    fun _ ina _ inb same => c.live_unique ina inb same, c.len_eq⟩

/-- Two keys that collide under a constant hasher: the second `set` rebinds the hash
that the first entry holds. -/
theorem shard_index_consistent_after_collision :
    let first := (ShardOp.set [1] 7 [2] 0 0 1).apply (initNewShard fun _ => 7)
    let s := (ShardOp.set [2] 7 [3] 0 0 2).apply first
    (∀ h i, s.hashmap.lookup h = some i →
      i ≠ 0 ∧ ∃ e, s.entries.get i.toNat = .ok e ∧ readHashFromEntry e = h) ∧
    (∀ slot ∈ s.entries.slots, slot.live →
      s.hashmap.lookup (readHashFromEntry slot.payload) = some (UInt32.ofNat slot.index)) ∧
    (∀ a ∈ s.entries.liveSlots, ∀ b ∈ s.entries.liveSlots,
      readHashFromEntry a.payload = readHashFromEntry b.payload → a = b) ∧
    s.len = s.entries.liveSlots.length := by
  intro first s
  have reach : Reachable (fun _ => 7) FitsContract s :=
    .step _ (.step _ .init ⟨⟨by decide, by simp [initNewShard]⟩, by decide⟩)
      ⟨(by decide : first.entries.Fresh 2), by decide⟩
  exact shard_index_consistent reach

/-- Under the queue's contract alone the agreement fails: a fresh index of `2 ^ 32 + 1`
is recorded as `uint32` 1, where no entry starts. -/
theorem shard_index_wraps :
    ¬ ∀ (hasher : Bytes → UInt64) (s : CacheShard), Reachable hasher (fun s op => op.Contract s) s →
      ∀ h i, s.hashmap.lookup h = some i →
        i ≠ 0 ∧ ∃ e, s.entries.get i.toNat = .ok e ∧ readHashFromEntry e = h := by
  intro agrees
  have reach : Reachable (fun _ => 0) (fun s op => op.Contract s)
      ((ShardOp.set [] 0 [] 0 0 (2 ^ 32 + 1)).apply (initNewShard fun _ => 0)) :=
    .step _ .init ⟨by decide, by simp [initNewShard]⟩
  obtain ⟨-, e, read, -⟩ := agrees _ _ reach 0 1 (by decide)
  have missing : ((ShardOp.set [] 0 [] 0 0 (2 ^ 32 + 1)).apply (initNewShard fun _ => 0)).entries.get
      (1 : UInt32).toNat = .error .outOfBounds := rfl
  rw [missing] at read
  cases read

end CacheShard

end NgBigCache
