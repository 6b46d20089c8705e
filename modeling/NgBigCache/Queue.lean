import NgBigCache.Encoding

/-! # The byte queue of a shard, by its contract

Each shard keeps its wrapped entries in a `queue.BytesQueue`, a ring buffer of
length-prefixed blobs.  The queue package is not among the sources.  The shard only
relies on its contract, which the spec states in §3 and §4.1, and the queue is
modelled by that contract:

* the queue is the list of the blobs pushed and not yet popped, oldest first, each
  at the 1-based byte index `Push` returned for it and either live or tombstoned;
* `Push` appends a live blob at the index the ring buffer's layout gives, or fails
  with `Full`; which index that is depends on head, tail and capacity, which the
  contract leaves out, so `push` takes it as an argument (`placement`), and the
  runs of a shard only ever push at a fresh index (`BytesQueue.Fresh`);
* `Get` reads a live blob and fails on a tombstone or on an index no blob starts at;
* `Delete` tombstones a blob in place and zeroes its `key_length` field;
* `Peek` and `Pop` skip tombstones and read, or remove, the oldest live blob. -/

set_option autoImplicit false

namespace NgBigCache

/-- Modelled from the spec: the errors of the queue, `OutOfBounds`, `Empty` and
`QueueFull`. -/
inductive QueueError
  | outOfBounds
  | empty
  | full
  deriving DecidableEq, Repr

/-- One blob of the queue: the index `Push` returned for it, its bytes, and whether
it is still live. -/
structure Slot where
  index : Nat
  payload : Bytes
  live : Bool
  deriving DecidableEq, Repr

/-- Modelled from the spec: `queue.BytesQueue`, as the blobs between head and tail,
oldest first. -/
structure BytesQueue where
  slots : List Slot
  deriving DecidableEq, Repr

namespace BytesQueue

/-- An index `Push` may hand out: 1-based, and not the index of any blob in the queue. -/
def Fresh (q : BytesQueue) (index : Nat) : Prop := 0 < index ∧ ∀ slot ∈ q.slots, slot.index ≠ index

instance (q : BytesQueue) (index : Nat) : Decidable (q.Fresh index) :=
  inferInstanceAs (Decidable (0 < index ∧ ∀ slot ∈ q.slots, slot.index ≠ index))

/-- Modelled from the spec: `Push(data)`, placing the blob at `placement` or failing
with `Full` when the layout gives none. -/
def push (q : BytesQueue) (data : Bytes) : Option Nat → Except QueueError (Nat × BytesQueue)
  | none => .error .full
  | some index => .ok (index, ⟨q.slots ++ [⟨index, data, true⟩]⟩)

def get (q : BytesQueue) (index : Nat) : Except QueueError Bytes :=
  match q.slots.find? (fun slot => slot.index = index) with
  | some slot => if slot.live then .ok slot.payload else .error .outOfBounds
  | none => .error .outOfBounds

/-- Modelled from the spec: `Delete(index)` writes the tombstone header and zeroes the
entry's `key_length` field. -/
def delete (q : BytesQueue) (index : Nat) : BytesQueue :=
  ⟨q.slots.map fun slot =>
    if slot.index = index then { slot with live := false, payload := resetKeyFromEntry slot.payload }
    else slot⟩

/-- Modelled from the spec: `Peek()`, the oldest live blob. -/
def peek (q : BytesQueue) : Except QueueError Bytes :=
  match q.slots.dropWhile (fun slot => !slot.live) with
  | [] => .error .empty
  | slot :: _ => .ok slot.payload

/-- Modelled from the spec: `Pop()`, which also frees the tombstones before it. -/
def pop (q : BytesQueue) : Except QueueError (Bytes × BytesQueue) :=
  match q.slots.dropWhile (fun slot => !slot.live) with
  | [] => .error .empty
  | slot :: rest => .ok (slot.payload, ⟨rest⟩)

def reset (_ : BytesQueue) : BytesQueue := ⟨[]⟩

def liveSlots (q : BytesQueue) : List Slot := q.slots.filter (·.live)

/-! ## The contract as lemmas -/

/-- No two blobs share an index, which pushing at fresh indices keeps. -/
def IndicesNodup (q : BytesQueue) : Prop := (q.slots.map Slot.index).Nodup

theorem find?_index_of_mem {slots : List Slot} {slot : Slot}
    (nodup : (slots.map Slot.index).Nodup) (mem : slot ∈ slots) :
    slots.find? (fun s => s.index = slot.index) = some slot := by
  induction slots with
  | nil => cases mem
  | cons first rest ih =>
    rw [List.map_cons, List.nodup_cons] at nodup
    rcases List.mem_cons.mp mem with rfl | inRest
    · simp
    · have differ : first.index ≠ slot.index :=
        fun same => nodup.1 (same ▸ List.mem_map_of_mem _ inRest)
      simp [List.find?_cons, differ, ih nodup.2 inRest]

/-- `Get` succeeds exactly on the index of a live blob, and reads its bytes. -/
theorem get_eq_ok_iff {q : BytesQueue} {index : Nat} {data : Bytes} (nodup : q.IndicesNodup) :
    q.get index = .ok data ↔
      ∃ slot ∈ q.slots, slot.index = index ∧ slot.live ∧ slot.payload = data := by
  constructor
  · intro read
    unfold get at read
    split at read
    · rename_i slot found
      split at read
      · cases read
        exact ⟨slot, List.mem_of_find?_eq_some found, by simpa using List.find?_some found,
          ‹_›, rfl⟩
      · cases read
    · cases read
  · rintro ⟨slot, mem, rfl, live, rfl⟩
    simp [get, find?_index_of_mem nodup mem, live]

@[simp] theorem push_some (q : BytesQueue) (data : Bytes) (index : Nat) :
    q.push data (some index) = .ok (index, ⟨q.slots ++ [⟨index, data, true⟩]⟩) := rfl

@[simp] theorem push_none (q : BytesQueue) (data : Bytes) :
    q.push data none = .error .full := rfl

@[simp] theorem delete_slots (q : BytesQueue) (index : Nat) :
    (q.delete index).slots = q.slots.map fun slot =>
      if slot.index = index then { slot with live := false, payload := resetKeyFromEntry slot.payload }
      else slot := rfl

theorem indicesNodup_push {q : BytesQueue} {index : Nat} (data : Bytes) (nodup : q.IndicesNodup)
    (fresh : q.Fresh index) : IndicesNodup ⟨q.slots ++ [⟨index, data, true⟩]⟩ := by
  simp only [IndicesNodup, List.map_append, List.map_cons, List.map_nil, List.nodup_append,
    List.nodup_singleton, List.disjoint_singleton]
  exact ⟨nodup, trivial, fun mem => by
    obtain ⟨slot, inQueue, same⟩ := List.mem_map.mp mem
    exact fresh.2 slot inQueue same⟩

theorem indicesNodup_delete {q : BytesQueue} (index : Nat) (nodup : q.IndicesNodup) :
    (q.delete index).IndicesNodup := by
  unfold IndicesNodup at *
  rw [delete_slots, List.map_map]
  convert nodup using 2
  funext slot
  by_cases here : slot.index = index <;> simp [here]

/-- `Pop` removes the tombstones at the front and then the oldest live blob. -/
theorem pop_eq_ok {q q' : BytesQueue} {data : Bytes} (popped : q.pop = .ok (data, q')) :
    ∃ front slot, q.slots = front ++ slot :: q'.slots ∧ (∀ dead ∈ front, dead.live = false) ∧
      slot.live ∧ slot.payload = data := by
  unfold pop at popped
  split at popped
  · cases popped
  · rename_i slot rest dropped
    cases popped
    have head : (!slot.live) = false := by
      have := List.head_dropWhile_not (fun slot : Slot => !slot.live) q.slots (by simp [dropped])
      simpa [dropped] using this
    refine ⟨q.slots.takeWhile (fun slot => !slot.live), slot, ?_, ?_, by simpa using head, rfl⟩
    · rw [← dropped, List.takeWhile_append_dropWhile]
    · intro dead mem
      simpa using List.mem_takeWhile_imp mem

theorem indicesNodup_pop {q q' : BytesQueue} {data : Bytes} (nodup : q.IndicesNodup)
    (popped : q.pop = .ok (data, q')) : q'.IndicesNodup := by
  obtain ⟨front, slot, split, -, -, -⟩ := pop_eq_ok popped
  unfold IndicesNodup at *
  rw [split, List.map_append, List.map_cons] at nodup
  exact (List.nodup_append.mp nodup).2.1.of_cons

theorem get_delete_ne {q : BytesQueue} {index other : Nat} (differ : other ≠ index) :
    (q.delete index).get other = q.get other := by
  unfold get
  rw [delete_slots, List.find?_map]
  have sameTest : ((fun slot : Slot => decide (slot.index = other)) ∘ fun slot =>
      if slot.index = index then { slot with live := false, payload := resetKeyFromEntry slot.payload }
      else slot) = fun slot => decide (slot.index = other) := by
    funext slot; by_cases here : slot.index = index <;> simp [here]
  rw [sameTest]
  cases found : q.slots.find? (fun slot => decide (slot.index = other)) with
  | none => rfl
  | some slot =>
    have atOther : slot.index = other := by simpa using List.find?_some found
    simp [atOther, differ]

theorem get_delete_self (q : BytesQueue) (index : Nat) :
    (q.delete index).get index = .error .outOfBounds := by
  unfold get
  rw [delete_slots, List.find?_map]
  cases found : q.slots.find? _ with
  | none => rfl
  | some slot =>
    have atIndex : slot.index = index := by
      have := List.find?_some found
      by_cases here : slot.index = index
      · exact here
      · simp [here] at this
    simp [atIndex]

theorem get_push_ne {q : BytesQueue} {index other : Nat} (data : Bytes) (differ : other ≠ index) :
    BytesQueue.get ⟨q.slots ++ [⟨index, data, true⟩]⟩ other = q.get other := by
  unfold get
  rw [List.find?_append]
  cases q.slots.find? (fun slot => decide (slot.index = other)) <;>
    simp [List.find?_cons, Ne.symm differ]

theorem get_push_self {q : BytesQueue} {index : Nat} (data : Bytes) (fresh : q.Fresh index) :
    BytesQueue.get ⟨q.slots ++ [⟨index, data, true⟩]⟩ index = .ok data := by
  unfold get
  have absent : q.slots.find? (fun slot => decide (slot.index = index)) = none :=
    List.find?_eq_none.mpr fun slot mem => by simpa using fresh.2 slot mem
  rw [List.find?_append, absent]
  simp

theorem liveSlots_delete (q : BytesQueue) (index : Nat) :
    (q.delete index).liveSlots = q.liveSlots.filter (fun slot => slot.index ≠ index) := by
  obtain ⟨slots⟩ := q
  simp only [liveSlots, delete_slots]
  induction slots with
  | nil => rfl
  | cons slot rest ih =>
    by_cases here : slot.index = index <;> cases live : slot.live <;>
      simp [List.filter_cons, here, live, ih]

theorem liveSlots_push (q : BytesQueue) (index : Nat) (data : Bytes) :
    BytesQueue.liveSlots ⟨q.slots ++ [⟨index, data, true⟩]⟩ = q.liveSlots ++ [⟨index, data, true⟩] := by
  simp [liveSlots, List.filter_append]

theorem liveSlots_pop {q q' : BytesQueue} {data : Bytes} (popped : q.pop = .ok (data, q')) :
    ∃ slot, q.liveSlots = slot :: q'.liveSlots := by
  obtain ⟨front, slot, layout, dead, live, -⟩ := pop_eq_ok popped
  refine ⟨slot, ?_⟩
  have noneLive : front.filter (·.live) = [] := List.filter_eq_nil_iff.mpr fun x mem => by simp [dead x mem]
  simp [liveSlots, layout, List.filter_append, noneLive, live]

end BytesQueue

end NgBigCache
