import NgBigCache.Binary

/-! # The wrapped entry a shard stores in its queue

A shard never stores a key and a value as such: `set` packs them with the expiry
second and the key's hash into one byte string, the wrapped entry, and every other
operation reads the fields it needs back out of those bytes.

The packing functions live in the `bigcache` package's `encoding.go`, which is not
among the sources; they are modelled from the layout the spec gives for a
`WrappedEntry`:

    [0..8)   expiry_epoch_seconds : u64   (0 = never expires)
    [8..16)  key_hash             : u64
    [16..18) key_length           : u16
    [18..18+key_length) key_bytes
    [18+key_length..) value_bytes

`wrap_roundtrip` reads every field of a wrapped entry back.  The key length is a u16
field, so the key and the value come back exactly when the key is shorter than
`2 ^ 16` bytes; `readKeyFromEntry_wrapEntry_long` is what a longer key reads as. -/

set_option autoImplicit false

namespace NgBigCache

open LittleEndian

def timestampSizeInBytes : Nat := 8

def hashSizeInBytes : Nat := 8

def headersSizeInBytes : Nat := timestampSizeInBytes + hashSizeInBytes + 2

/-- Modelled from the spec: `wrapEntry(timestamp, hash, key, entry, &buffer)` of
`encoding.go`, the §3 `WrappedEntry` layout with the key's length written as a u16.
The scratch buffer only holds the bytes returned, which the queue copies. -/
def wrapEntry (timestamp hash : UInt64) (key entry : Bytes) : Bytes :=
  putUint64 timestamp ++ putUint64 hash ++ putUint16 (UInt16.ofNat key.length) ++ key ++ entry

/-- Modelled from the spec: the u16 `key_length` field at offset 16. -/
def readKeyLength (data : Bytes) : Nat := (uint16 (data.drop 16)).toNat

def readTimestampFromEntry (data : Bytes) : UInt64 := uint64 data

def readHashFromEntry (data : Bytes) : UInt64 := uint64 (data.drop timestampSizeInBytes)

/-- Modelled from the spec: `readKeyFromEntry`, the `key_length` bytes after the header. -/
def readKeyFromEntry (data : Bytes) : Bytes :=
  (data.drop headersSizeInBytes).take (readKeyLength data)

def readEntry (data : Bytes) : Bytes := data.drop (headersSizeInBytes + readKeyLength data)

/-- Modelled from the spec: `resetKeyFromEntry` zeroes the `key_length` field in place. -/
def resetKeyFromEntry (data : Bytes) : Bytes :=
  data.take (timestampSizeInBytes + hashSizeInBytes) ++ putUint16 0 ++
    data.drop headersSizeInBytes

section Roundtrip
variable (timestamp hash : UInt64) (key entry : Bytes)

private theorem wrapEntry_assoc :
    wrapEntry timestamp hash key entry =
      putUint64 timestamp ++ (putUint64 hash ++ (putUint16 (UInt16.ofNat key.length) ++
        (key ++ entry))) := by
  simp [wrapEntry]

@[simp] theorem readTimestampFromEntry_wrapEntry :
    readTimestampFromEntry (wrapEntry timestamp hash key entry) = timestamp := by
  rw [wrapEntry_assoc, readTimestampFromEntry, uint64_putUint64]

@[simp] theorem readHashFromEntry_wrapEntry :
    readHashFromEntry (wrapEntry timestamp hash key entry) = hash := by
  rw [wrapEntry_assoc, readHashFromEntry, timestampSizeInBytes,
    List.drop_left' (length_putUint64 _), uint64_putUint64]

@[simp] theorem readKeyLength_wrapEntry :
    readKeyLength (wrapEntry timestamp hash key entry) = key.length % 2 ^ 16 := by
  have header : (putUint64 timestamp ++ putUint64 hash).length = 16 := by simp
  rw [wrapEntry, readKeyLength, List.append_assoc, List.append_assoc,
    List.drop_left' header, uint16_putUint16]
  simp [UInt16.toNat, UInt16.ofNat]

private theorem drop_headers_wrapEntry :
    (wrapEntry timestamp hash key entry).drop headersSizeInBytes = key ++ entry := by
  have header : (putUint64 timestamp ++ putUint64 hash ++
      putUint16 (UInt16.ofNat key.length)).length = headersSizeInBytes := by
    simp [headersSizeInBytes, timestampSizeInBytes, hashSizeInBytes]
  rw [wrapEntry, List.append_assoc _ key, List.drop_left' header]

@[simp] theorem readKeyFromEntry_wrapEntry :
    readKeyFromEntry (wrapEntry timestamp hash key entry) = key.take (key.length % 2 ^ 16) := by
  rw [readKeyFromEntry, drop_headers_wrapEntry, readKeyLength_wrapEntry,
    List.take_append_of_le_length (Nat.mod_le _ _)]

/-- Zeroing the key length turns the entry into one with an empty key, whose value
starts with the old key's bytes. -/
@[simp] theorem resetKeyFromEntry_wrapEntry :
    resetKeyFromEntry (wrapEntry timestamp hash key entry) =
      wrapEntry timestamp hash [] (key ++ entry) := by
  have front : (wrapEntry timestamp hash key entry).take (timestampSizeInBytes + hashSizeInBytes) =
      putUint64 timestamp ++ putUint64 hash := by
    rw [wrapEntry_assoc, ← List.append_assoc]
    exact List.take_left' (by simp [timestampSizeInBytes, hashSizeInBytes])
  rw [resetKeyFromEntry, front, drop_headers_wrapEntry]
  rfl

/-- A key shorter than `2 ^ 16` bytes and the value come back out exactly. -/
theorem wrap_roundtrip (short : key.length < 2 ^ 16) :
    readTimestampFromEntry (wrapEntry timestamp hash key entry) = timestamp ∧
      readHashFromEntry (wrapEntry timestamp hash key entry) = hash ∧
      readKeyFromEntry (wrapEntry timestamp hash key entry) = key ∧
      readEntry (wrapEntry timestamp hash key entry) = entry := by
  have fits : key.length % 2 ^ 16 = key.length := Nat.mod_eq_of_lt short
  refine ⟨by simp, by simp, by rw [readKeyFromEntry_wrapEntry, fits, List.take_length], ?_⟩
  rw [readEntry, readKeyLength_wrapEntry, fits, ← List.drop_drop, drop_headers_wrapEntry,
    List.drop_left]

/-- A key of `2 ^ 16` bytes or more reads back as a strictly shorter byte string. -/
theorem readKeyFromEntry_wrapEntry_long (long : 2 ^ 16 ≤ key.length) :
    readKeyFromEntry (wrapEntry timestamp hash key entry) ≠ key := by
  intro same
  have shorter : key.length % 2 ^ 16 < key.length :=
    lt_of_lt_of_le (Nat.mod_lt _ (Nat.two_pow_pos 16)) long
  have := congrArg List.length same
  simp only [readKeyFromEntry_wrapEntry, List.length_take] at this
  omega

end Roundtrip

end NgBigCache
