import NgBigCache.Shard.Map

/-! # Lock balance of a shard

`get` takes the shard's read lock and `set`, `del`, `evictDel` and `reset` its write
lock; `removeOldestEntry` takes none.  Every path out of them gives the lock back as it
found it (`apply_lock`), so every state a run reaches has its lock free
(`lock_reachable`).

The one path that does not is `set`'s failure branch, taken when `entries.Push` fails
with the queue at its maximum size.  Its `if index, err := s.entries.Push(w); err == nil`
declares a second `err`, so the `return 0, err` after it returns the outer one, still
nil; it returns without `s.lock.Unlock()`; and the hash stays bound to the previous
entry, which the branch has already tombstoned (`Consistent.set_of_push_none`). -/

set_option autoImplicit false

namespace NgBigCache

namespace RWMutex

/-- Unlocking a mutex no writer holds changes nothing. -/
theorem unlock_of_writer_false {m : RWMutex} (free : m.writer = false) : m.unlock = m := by
  cases m
  simp_all [unlock]

end RWMutex

namespace CacheShard

section Balance
variable (s : CacheShard) (key : Bytes) (h : UInt64)

theorem invalidatePrevious_lock : (s.invalidatePrevious key h).lock = s.lock := by
  unfold invalidatePrevious
  dsimp only
  split
  · rfl
  · split <;> rfl

theorem get_lock : (s.get key h).1.lock = s.lock := by
  obtain ⟨stats, eq⟩ := get_fst s key h
  rw [eq]

theorem set_some_lock (entry : Bytes) (duration : Duration) (epoch : Int) (index : Nat) :
    (s.set key h entry duration epoch (some index)).1.lock = s.lock.unlock := by
  have unlocked : (invalidatePrevious { s with lock := s.lock.lock } key h).lock.unlock = s.lock.unlock := by
    rw [invalidatePrevious_lock]; rfl
  rw [set_some_fst]
  split <;> exact unlocked

theorem del_lock : (s.del key h).1.lock = s.lock.unlock := by
  unfold CacheShard.del
  dsimp only
  split
  · rfl
  · split <;> rfl

theorem evictOne_lock (timeStamp : UInt64) (v : Bytes) : (evictOne timeStamp s v).lock = s.lock := by
  unfold CacheShard.evictOne
  dsimp only
  split
  · rfl
  · split
    · rfl
    · split <;> rfl

theorem evictDel_lock (timeStamp : UInt64) (values : List Bytes) :
    (s.evictDel timeStamp values).1.lock = s.lock.unlock := by
  have loop : ∀ (rest : List Bytes) (t : CacheShard),
      (rest.foldl (CacheShard.evictOne timeStamp) t).lock = t.lock := by
    intro rest
    induction rest with
    | nil => exact fun _ => rfl
    | cons v rest ih => exact fun t => (ih _).trans (evictOne_lock t timeStamp v)
  show (values.foldl (CacheShard.evictOne timeStamp) { s with lock := s.lock.lock }).lock.unlock = _
  rw [loop]
  rfl

theorem removeOldestEntry_lock : s.removeOldestEntry.1.lock = s.lock := by
  unfold CacheShard.removeOldestEntry
  split <;> rfl

/-- Every step, on every path, gives the lock back as it found it, when no writer
held it. -/
theorem apply_lock (op : ShardOp) (free : s.lock.writer = false) : (op.apply s).lock = s.lock := by
  have unlocked := RWMutex.unlock_of_writer_false free
  cases op with
  | get key h => exact get_lock s key h
  | set key h entry duration epoch index =>
    exact (set_some_lock s key h entry duration epoch index).trans unlocked
  | del key h => exact (del_lock s key h).trans unlocked
  | evictDel timeStamp values => exact (evictDel_lock s timeStamp values).trans unlocked
  | removeOldestEntry => exact removeOldestEntry_lock s
  | reset => exact unlocked
  | fire timeStamp values => exact (evictDel_lock s timeStamp values).trans unlocked

end Balance

/-- No writer and no reader holds the lock of a state a run reaches. -/
theorem lock_reachable {hasher : Bytes → UInt64} {allowed : CacheShard → ShardOp → Prop}
    {s : CacheShard} (reach : Reachable hasher allowed s) : s.lock = ⟨false, 0⟩ := by
  induction reach with
  | init => rfl
  | step op _ _ free => rw [apply_lock _ op (by rw [free]), free]

/-- After a `set`, a `get` and a `del` of one key in a new shard. -/
theorem lock_reachable_set_get_del :
    ((ShardOp.del [1] 7).apply ((ShardOp.get [1] 7).apply
      ((ShardOp.set [1] 7 [2] 0 0 1).apply (initNewShard fun _ => 7)))).lock = ⟨false, 0⟩ :=
  @lock_reachable (fun _ => 7) (fun _ _ => True) _ (.step _ (.step _ (.step _ .init trivial) trivial) trivial)

/-! ## The failure branch of `set` -/

section PushFails
variable {s : CacheShard} (key : Bytes) (h : UInt64) (entry : Bytes) (duration : Duration)
  (epoch : Int)

theorem set_none : s.set key h entry duration epoch none =
    (invalidatePrevious { s with lock := s.lock.lock } key h, 0, none) := rfl

/-- When `Push` fails on a key whose hash is bound, `set` returns `0` and no error,
keeps the write lock, and leaves the hash bound to the slot it has tombstoned. -/
theorem Consistent.set_of_push_none (c : Consistent s) {p : UInt32} (found : s.hashmap.lookup h = some p) :
    let r := s.set key h entry duration epoch none
    r.2 = (0, none) ∧ r.1.lock.writer = true ∧ r.1.hashmap.lookup h = some p ∧
      r.1.entries.get p.toNat = .error .outOfBounds := by
  obtain ⟨e, read, -⟩ := c.get_bound found
  have invalidated := invalidatePrevious_of_get { s with lock := s.lock.lock } key h found
    (c.bound h p found).1 read
  rw [set_none, invalidated]
  exact ⟨rfl, rfl, found, BytesQueue.get_delete_self _ _⟩

end PushFails

/-- Key `[1]` is stored at index 1, and a second `set` of it finds the queue full: it
returns `0` and a nil error, keeps the write lock, and leaves hash 0 bound to index 1,
which it has tombstoned. -/
theorem set_full_keeps_lock :
    (((initNewShard fun _ => 0).set [1] 0 [5] 0 0 (some 1)).1.set [1] 0 [6] 0 0 none).2 = (0, none) ∧
      (((initNewShard fun _ => 0).set [1] 0 [5] 0 0 (some 1)).1.set [1] 0 [6] 0 0 none).1.lock.writer ∧
      (((initNewShard fun _ => 0).set [1] 0 [5] 0 0 (some 1)).1.set [1] 0 [6] 0 0 none).1.hashmap.lookup 0 =
        some 1 ∧
      (((initNewShard fun _ => 0).set [1] 0 [5] 0 0 (some 1)).1.set [1] 0 [6] 0 0 none).1.entries.get 1 =
        .error .outOfBounds :=
  ⟨rfl, rfl, rfl, rfl⟩

end CacheShard

end NgBigCache
