import NgBigCache.Shard.Invariant

/-! # The shard as a map from hash to key and value

Read through its methods, a shard is a map from a hash to the key and value last set
under that hash: the last writer for a hash wins, also across distinct keys whose
hashes collide.  `contents` reads that map off a shard's state, and `KeyValueMap` states
what the three methods should do to it.

On a consistent shard:
* `get(k, h)` returns the value exactly when `contents` holds `k` under `h`, and
  reports not-found otherwise, never another key's value (`Consistent.get_eq`);
* `set(k, h, v)` makes `contents` hold `(k, v)` under `h` for a key shorter than
  `2 ^ 16` bytes, the width of the entry's key-length field (`Consistent.contents_set`);
* `del(k, h)` removes whatever `h` holds and returns nil, without comparing the stored
  key with `k` (`Consistent.contents_del`), so deleting a key removes the entry of
  another key that shares its hash (`del_removes_colliding_key`). -/

set_option autoImplicit false

namespace NgBigCache

/-- For each hash, the key and value stored under it. -/
abbrev KeyValueMap := UInt64 → Option (Bytes × Bytes)

namespace KeyValueMap

/-- A set binds the hash to the key and value, whatever the hash held. -/
def set (m : KeyValueMap) (key : Bytes) (hashedKey : UInt64) (value : Bytes) : KeyValueMap :=
  Function.update m hashedKey (some (key, value))

/-- A get finds the value only under its own key. -/
def get (m : KeyValueMap) (key : Bytes) (hashedKey : UInt64) : Option Bytes :=
  match m hashedKey with
  | some (stored, value) => if stored = key then some value else none
  | none => none

/-- A delete removes the binding only when it holds the key; `none` is not-found. -/
def del (m : KeyValueMap) (key : Bytes) (hashedKey : UInt64) : Option KeyValueMap :=
  match m hashedKey with
  | some (stored, _) => if stored = key then some (Function.update m hashedKey none) else none
  | none => none

end KeyValueMap

namespace CacheShard

/-- The key and value the entry bound under each hash reads back as. -/
def contents (s : CacheShard) : KeyValueMap := fun h =>
  match s.hashmap.lookup h with
  | none => none
  | some i =>
    match s.entries.get i.toNat with
    | .ok e => some (readKeyFromEntry e, readEntry e)
    | .error _ => none

section Refinement
variable {s : CacheShard} (key : Bytes) (h : UInt64)

theorem contents_of_lookup_none {h' : UInt64} (unbound : s.hashmap.lookup h' = none) :
    s.contents h' = none := by
  simp [contents, unbound]

theorem contents_of_get {h' : UInt64} {i : UInt32} {e : Bytes} (found : s.hashmap.lookup h' = some i)
    (read : s.entries.get i.toNat = .ok e) : s.contents h' = some (readKeyFromEntry e, readEntry e) := by
  simp [contents, found, read]

/-- `get` answers from `contents`: the value under its own key, not-found otherwise. -/
theorem Consistent.get_eq (c : Consistent s) :
    (s.get key h).2 = match s.contents.get key h with
      | some v => .ok v
      | none => .error (.entryNotFound key) := by
  cases found : s.hashmap.lookup h with
  | none =>
    have zero : s.indexOf h = 0 := by simp [indexOf, found]
    simp [CacheShard.get, KeyValueMap.get, contents_of_lookup_none found, indexOf, found]
  | some i =>
    obtain ⟨e, read, -⟩ := c.get_bound found
    have nonzero : s.indexOf h ≠ 0 := by simpa [indexOf, found] using (c.bound h i found).1
    have index : s.indexOf h = i := by simp [indexOf, found]
    rw [KeyValueMap.get, contents_of_get found read]
    simp only [CacheShard.get, indexOf] at nonzero ⊢
    simp only [found, Option.getD_some] at nonzero ⊢
    by_cases same : readKeyFromEntry e = key
    · simp [nonzero, read, same]
    · simp [nonzero, read, same, Ne.symm same]

theorem invalidatePrevious_hashmap (s : CacheShard) :
    (s.invalidatePrevious key h).hashmap = s.hashmap := by
  unfold invalidatePrevious
  dsimp only
  split
  · rfl
  · split <;> rfl

theorem Consistent.invalidatePrevious_get (c : Consistent s) {j : Nat}
    (other : ∀ p, s.hashmap.lookup h = some p → j ≠ p.toNat) :
    (s.invalidatePrevious key h).entries.get j = s.entries.get j := by
  cases found : s.hashmap.lookup h with
  | none => rw [invalidatePrevious_of_lookup_none s key h found]
  | some p =>
    obtain ⟨e, read, -⟩ := c.get_bound found
    rw [invalidatePrevious_of_get s key h found (c.bound h p found).1 read]
    exact BytesQueue.get_delete_ne (other p found)

theorem Consistent.invalidatePrevious_fresh (c : Consistent s) {index : Nat}
    (fresh : s.entries.Fresh index) : (s.invalidatePrevious key h).entries.Fresh index := by
  cases found : s.hashmap.lookup h with
  | none => rwa [invalidatePrevious_of_lookup_none s key h found]
  | some p =>
    obtain ⟨e, read, -⟩ := c.get_bound found
    rw [invalidatePrevious_of_get s key h found (c.bound h p found).1 read]
    exact BytesQueue.fresh_delete fresh

/-- Two hashes bound in a consistent shard point at different slots. -/
theorem Consistent.index_ne (c : Consistent s) {h₁ h₂ : UInt64} {i₁ i₂ : UInt32}
    (found₁ : s.hashmap.lookup h₁ = some i₁) (found₂ : s.hashmap.lookup h₂ = some i₂)
    (differ : h₁ ≠ h₂) : i₁.toNat ≠ i₂.toNat := by
  intro same
  obtain ⟨-, x₁, mem₁, index₁, -, hash₁⟩ := c.bound h₁ i₁ found₁
  obtain ⟨-, x₂, mem₂, index₂, -, hash₂⟩ := c.bound h₂ i₂ found₂
  exact differ (hash₁.symm.trans (c.slot_eq mem₁ mem₂ (index₁.trans (same.trans index₂.symm)) ▸ hash₂))

/-- A bound index is not a fresh one. -/
theorem Consistent.index_ne_fresh (c : Consistent s) {h' : UInt64} {j : UInt32} {index : Nat}
    (found : s.hashmap.lookup h' = some j) (fresh : s.entries.Fresh index) : j.toNat ≠ index := by
  obtain ⟨-, x, mem, atIndex, -, -⟩ := c.bound h' j found
  exact fun same => fresh.2 x mem (atIndex.trans same)

/-- `set` binds the hash to the key and value, for a key shorter than `2 ^ 16` bytes. -/
theorem Consistent.contents_set (c : Consistent s) (entry : Bytes) (duration : Duration)
    (epoch : Int) {index : Nat} (fresh : s.entries.Fresh index) (fits : index < 2 ^ 32)
    (short : key.length < 2 ^ 16) :
    (s.set key h entry duration epoch (some index)).1.contents = s.contents.set key h entry := by
  have locked : Consistent { s with lock := s.lock.lock } := c.congr rfl fun _ => rfl
  have roundtrip := wrap_roundtrip (expiryTimestampOf epoch duration) h key entry short
  funext h'
  by_cases same : h' = h
  · subst same
    rw [KeyValueMap.set, Function.update_same]
    refine (contents_of_get (i := UInt32.ofNat index)
      (e := wrapEntry (expiryTimestampOf epoch duration) h' key entry) ?_ ?_).trans ?_
    · rw [set_some_hashmap, AList.lookup_insert]
    · rw [set_some_entries, toNat_ofNat_index fits]
      exact BytesQueue.get_push_self _ (locked.invalidatePrevious_fresh key h' fresh)
    · rw [roundtrip.2.2.1, roundtrip.2.2.2]
  · rw [KeyValueMap.set, Function.update_noteq same]
    have sameBinding : (s.set key h entry duration epoch (some index)).1.hashmap.lookup h' =
        s.hashmap.lookup h' := by
      rw [set_some_hashmap, AList.lookup_insert_ne same, invalidatePrevious_hashmap]
    cases found : s.hashmap.lookup h' with
    | none =>
      rw [contents_of_lookup_none found]
      exact contents_of_lookup_none (sameBinding.trans found)
    | some j =>
      have sameRead : (s.set key h entry duration epoch (some index)).1.entries.get j.toNat =
          s.entries.get j.toNat := by
        rw [set_some_entries, BytesQueue.get_push_ne _ (c.index_ne_fresh found fresh)]
        exact locked.invalidatePrevious_get key h fun p bound => c.index_ne found bound same
      simp only [contents, sameBinding, found, sameRead]

theorem del_of_lookup_none (unbound : s.hashmap.lookup h = none) :
    (s.del key h).1.hashmap = s.hashmap ∧ (s.del key h).1.entries = s.entries ∧
      (s.del key h).1.ttlTable = s.ttlTable ∧ (s.del key h).2 = some (.entryNotFound key) := by
  simp [CacheShard.del, indexOf, unbound, writeUnlocked, delmiss]

theorem del_of_get {p : UInt32} {e : Bytes} (found : s.hashmap.lookup h = some p) (nonzero : p ≠ 0)
    (read : s.entries.get p.toNat = .ok e) :
    (s.del key h).1.hashmap = s.hashmap.erase h ∧ (s.del key h).1.entries = s.entries.delete p.toNat ∧
      (s.del key h).1.ttlTable =
        s.ttlTable.remove (readTimestampFromEntry (resetKeyFromEntry e)) key ∧
      (s.del key h).2 = none := by
  simp [CacheShard.del, indexOf, found, nonzero, read, delhit]

/-- `del` removes whatever the hash holds, whichever key that is, and returns nil exactly
when the hash was bound. -/
theorem Consistent.contents_del (c : Consistent s) :
    (s.del key h).1.contents = Function.update s.contents h none ∧
      (s.del key h).2 = if s.contents h = none then some (.entryNotFound key) else none := by
  cases found : s.hashmap.lookup h with
  | none =>
    obtain ⟨sameMap, sameEntries, -, result⟩ := del_of_lookup_none key h found
    have unchanged : (s.del key h).1.contents = s.contents := by
      funext h'; simp only [contents, sameMap, sameEntries]
    rw [unchanged, result, contents_of_lookup_none found]
    simp [Function.update_eq_self_iff, contents_of_lookup_none found]
  | some p =>
    obtain ⟨e, read, -⟩ := c.get_bound found
    obtain ⟨newMap, newEntries, -, result⟩ := del_of_get key h found (c.bound h p found).1 read
    refine ⟨funext fun h' => ?_, by rw [result, contents_of_get found read]; simp⟩
    by_cases same : h' = h
    · subst same
      rw [Function.update_same]
      exact contents_of_lookup_none (by rw [newMap, AList.lookup_erase])
    · rw [Function.update_noteq same]
      cases other : s.hashmap.lookup h' with
      | none =>
        rw [contents_of_lookup_none other]
        exact contents_of_lookup_none (by rw [newMap, AList.lookup_erase_ne same, other])
      | some j =>
        have sameRead : (s.del key h).1.entries.get j.toNat = s.entries.get j.toNat := by
          rw [newEntries]; exact BytesQueue.get_delete_ne (c.index_ne other found same)
        simp only [contents, newMap, AList.lookup_erase_ne same, other, sameRead]

end Refinement

end CacheShard

/-- Two keys sharing the hash 0: `[2]` is stored, and a `del` of `[1]` returns nil and
removes `[2]`'s entry, which a `get` of `[2]` then no longer finds. -/
theorem del_removes_colliding_key :
    (((initNewShard fun _ => 0).set [2] 0 [9] 0 0 (some 1)).1.get [2] 0).2 = .ok [9] ∧
      (((initNewShard fun _ => 0).set [2] 0 [9] 0 0 (some 1)).1.del [1] 0).2 = none ∧
      ((((initNewShard fun _ => 0).set [2] 0 [9] 0 0 (some 1)).1.del [1] 0).1.get [2] 0).2 =
        .error (.entryNotFound [2]) :=
  ⟨rfl, rfl, rfl⟩

end NgBigCache
