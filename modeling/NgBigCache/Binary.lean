import Mathlib.Data.UInt

/-! # Little-endian integers, as `encoding/binary` lays them out

`putUint width v` is the byte string `binary.LittleEndian.PutUint16/32/64` write for
`v`: its low `width` bytes, lowest first.  `getUint` reads a byte string back as a
number.  The entry codec of the shard and the frames of the cluster protocol are both
built on these two.

`getUint_putUint` is the round trip: reading back what was written gives `v` modulo
`256 ^ width`, so a value is recovered exactly when it fits the width.  Go reads with
a bounds check (`_ = b[7]`) and panics on a short slice; the model reads whatever
prefix is there, and every reader below is only applied to slices long enough. -/

set_option autoImplicit false

namespace NgBigCache

/-- Go's `[]byte`; a Go `string` is the same byte sequence. -/
abbrev Bytes := List UInt8

namespace LittleEndian

def putUint : Nat → Nat → Bytes
  | 0, _ => []
  | width + 1, v => UInt8.ofNat v :: putUint width (v / 256)

def getUint : Bytes → Nat
  | [] => 0
  | b :: rest => b.toNat + 256 * getUint rest

@[simp] theorem length_putUint (width v : Nat) : (putUint width v).length = width := by
  induction width generalizing v <;> simp [putUint, *]

theorem toNat_uint8_ofNat (n : Nat) : (UInt8.ofNat n).toNat = n % 256 := by
  simp [UInt8.toNat, UInt8.ofNat]

theorem getUint_putUint (width v : Nat) : getUint (putUint width v) = v % 256 ^ width := by
  induction width generalizing v with
  | zero => simp [putUint, getUint, Nat.mod_one]
  | succ width ih =>
    rw [putUint, getUint, ih, toNat_uint8_ofNat, Nat.pow_succ', Nat.mod_mul]

@[simp] theorem take_putUint_append (width v : Nat) (rest : Bytes) :
    (putUint width v ++ rest).take width = putUint width v := by
  simp

/-- `binary.LittleEndian.PutUint16`. -/
def putUint16 (v : UInt16) : Bytes := putUint 2 v.toNat

/-- `binary.LittleEndian.PutUint32`. -/
def putUint32 (v : UInt32) : Bytes := putUint 4 v.toNat

/-- `binary.LittleEndian.PutUint64`. -/
def putUint64 (v : UInt64) : Bytes := putUint 8 v.toNat

/-- `binary.LittleEndian.Uint16`. -/
def uint16 (b : Bytes) : UInt16 := UInt16.ofNat (getUint (b.take 2))

/-- `binary.LittleEndian.Uint32`. -/
def uint32 (b : Bytes) : UInt32 := UInt32.ofNat (getUint (b.take 4))

/-- `binary.LittleEndian.Uint64`. -/
def uint64 (b : Bytes) : UInt64 := UInt64.ofNat (getUint (b.take 8))

@[simp] theorem length_putUint16 (v : UInt16) : (putUint16 v).length = 2 := length_putUint ..

@[simp] theorem length_putUint32 (v : UInt32) : (putUint32 v).length = 4 := length_putUint ..

@[simp] theorem length_putUint64 (v : UInt64) : (putUint64 v).length = 8 := length_putUint ..

theorem uint16_putUint16 (v : UInt16) (rest : Bytes) : uint16 (putUint16 v ++ rest) = v := by
  rw [uint16, putUint16, take_putUint_append, getUint_putUint,
    Nat.mod_eq_of_lt (show v.toNat < 256 ^ 2 from v.toBitVec.isLt)]
  exact UInt16.eq_of_toBitVec_eq (by simp [UInt16.toNat, UInt16.ofNat])

theorem uint32_putUint32 (v : UInt32) (rest : Bytes) : uint32 (putUint32 v ++ rest) = v := by
  rw [uint32, putUint32, take_putUint_append, getUint_putUint,
    Nat.mod_eq_of_lt (show v.toNat < 256 ^ 4 from v.toBitVec.isLt)]
  exact UInt32.eq_of_toBitVec_eq (by simp [UInt32.toNat, UInt32.ofNat])

theorem uint64_putUint64 (v : UInt64) (rest : Bytes) : uint64 (putUint64 v ++ rest) = v := by
  rw [uint64, putUint64, take_putUint_append, getUint_putUint,
    Nat.mod_eq_of_lt (show v.toNat < 256 ^ 8 from v.toBitVec.isLt)]
  exact UInt64.eq_of_toBitVec_eq (by simp [UInt64.toNat, UInt64.ofNat])

end LittleEndian

end NgBigCache
