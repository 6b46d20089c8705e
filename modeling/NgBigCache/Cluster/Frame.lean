import NgBigCache.Cluster.Message

/-! # Frames on a peer connection

`networkSender` writes each message it takes off the outbound queue as one frame: the
body's length plus 2 as a little-endian `uint32`, the code as a `uint16`, then the body.
`networkConsumer` reads a 6-byte header, takes `Uint32(header) - 2` as the body's length,
reads that many bytes when it is positive, and queues the code with the body.

The connection is `comms`' `ReadData(n)` and `SendData(buf)`, which are not among the
sources; as the spec has it, a read returns exactly `n` bytes or fails.  A connection is the
byte stream its peer sends before it hangs up, and a read fails where it would run past its
end.  A send error, on which `networkSender` breaks, is left out.  Serialisation
(`Serialize`, `DeSerialize`) is not among the sources either: the sender starts from the
serialised `NodeWireMessage`, and the node model of `Node.lean` takes a frame as the message
it decodes to, which `networkConsumer_networkSender` justifies for bodies that fit.

`networkConsumer_networkSender` is the round trip: for bodies of at most `2 ^ 32 - 3` bytes
the consumer queues exactly the messages the sender wrote, in order, and finds every frame
boundary again whatever stream follows.  `frameDataLength_toNat` is the arithmetic of the
length field: `L - 2` modulo `2 ^ 32`, so `L - 2` for `L ≥ 2` and `L + 2 ^ 32 - 2` below. -/

set_option autoImplicit false

namespace NgBigCache

namespace Cluster

open LittleEndian

structure NodeWireMessage where
  code : UInt16
  data : Bytes
  deriving DecidableEq, Repr

/-- The frame `networkSender` builds for `msg`: `PutUint32(data, uint32(len(msg.Data)+2))`,
`PutUint16(data[4:], msg.Code)`, `copy(data[6:], msg.Data)`. -/
def frameOf (msg : NodeWireMessage) : Bytes :=
  putUint32 (UInt32.ofNat (msg.data.length + 2)) ++ putUint16 msg.code ++ msg.data

/-- `networkSender`'s loop: the bytes it sends for the messages it takes off the outbound
queue, each with the state it reads first.  It skips a message while `Disconnected`. -/
def networkSender : List (NodeState × NodeWireMessage) → Bytes
  | [] => []
  | (state, msg) :: rest =>
    if state = .disconnected then networkSender rest else frameOf msg ++ networkSender rest

/-- Modelled from the spec: `connection.ReadData(n, 0)` on the stream `stream`, exactly `n`
bytes and the stream after them, or an error where the stream ends first. -/
def readData (stream : Bytes) (n : Nat) : Option (Bytes × Bytes) :=
  if n ≤ stream.length then some (stream.take n, stream.drop n) else none

/-- The body length `networkConsumer` takes from a header,
`binary.LittleEndian.Uint32(header) - 2`, a `uint32` difference. -/
def frameDataLength (header : Bytes) : UInt32 := uint32 header - 2

/-- One pass of `networkConsumer`'s loop over `stream`: the message it queues and the
stream left, or `none` where a read fails and the loop breaks. -/
def readFrame (stream : Bytes) : Option (NodeWireMessage × Bytes) :=
  match readData stream 6 with
  | none => none
  | some (header, stream) =>
    if frameDataLength header > 0 then
      (readData stream (frameDataLength header).toNat).map fun (data, stream) =>
        (⟨uint16 (header.drop 4), data⟩, stream)
    else some (⟨uint16 (header.drop 4), []⟩, stream)

theorem readData_length {stream taken rest : Bytes} {n : Nat}
    (read : readData stream n = some (taken, rest)) : rest.length + n = stream.length := by
  unfold readData at read
  split at read
  · cases read
    rw [List.length_drop]
    omega
  · cases read

theorem readData_append {pre rest : Bytes} {n : Nat} (length : pre.length = n) :
    readData (pre ++ rest) n = some (pre, rest) := by
  rw [readData, if_pos (by simp; omega), List.take_left' length, List.drop_left' length]

theorem readFrame_length {stream rest : Bytes} {msg : NodeWireMessage}
    (read : readFrame stream = some (msg, rest)) : rest.length + 6 ≤ stream.length := by
  unfold readFrame at read
  split at read
  · cases read
  · rename_i header after header_read
    have header_length := readData_length header_read
    split at read
    · obtain ⟨⟨data, after_body⟩, body_read, eq⟩ := Option.map_eq_some'.mp read
      cases eq
      have body_length := readData_length body_read
      omega
    · cases read
      omega

/-- `networkConsumer`'s loop over the stream, while the state stays `Connected` or
`Handshake`: the messages it queues, up to the read that fails. -/
def networkConsumer (stream : Bytes) : List NodeWireMessage :=
  match read : readFrame stream with
  | none => []
  | some (msg, rest) =>
    have : rest.length < stream.length := by have := readFrame_length read; omega
    msg :: networkConsumer rest
termination_by stream.length

theorem networkConsumer_of_readFrame {stream rest : Bytes} {msg : NodeWireMessage}
    (read : readFrame stream = some (msg, rest)) :
    networkConsumer stream = msg :: networkConsumer rest := by
  rw [networkConsumer]
  split <;> simp_all

theorem networkConsumer_of_readFrame_none {stream : Bytes} (read : readFrame stream = none) :
    networkConsumer stream = [] := by
  rw [networkConsumer]
  split <;> simp_all

@[simp] theorem networkConsumer_nil : networkConsumer [] = [] :=
  networkConsumer_of_readFrame_none rfl

/-! ## The length field -/

theorem frameDataLength_toNat (header : Bytes) :
    (frameDataLength header).toNat = ((uint32 header).toNat + 2 ^ 32 - 2) % 2 ^ 32 := by
  have diff : (uint32 header - 2).toNat = (2 ^ 32 - 2 + (uint32 header).toNat) % 2 ^ 32 :=
    BitVec.toNat_sub _ _
  rw [frameDataLength, diff]
  omega

theorem frameDataLength_of_two_le {header : Bytes} (two : 2 ≤ (uint32 header).toNat) :
    (frameDataLength header).toNat = (uint32 header).toNat - 2 := by
  have bound := (uint32 header).toNat_lt_size
  unfold UInt32.size at bound
  rw [frameDataLength_toNat]
  omega

theorem frameDataLength_of_lt_two {header : Bytes} (small : (uint32 header).toNat < 2) :
    (frameDataLength header).toNat = (uint32 header).toNat + 2 ^ 32 - 2 := by
  rw [frameDataLength_toNat]
  omega

theorem uint32_frameOf (msg : NodeWireMessage) :
    (uint32 (frameOf msg)).toNat = (msg.data.length + 2) % 2 ^ 32 := by
  rw [frameOf, List.append_assoc, uint32_putUint32]
  exact BitVec.toNat_ofNat _ _

/-! ## The round trip -/

theorem uint32_pos_iff (x : UInt32) : 0 < x ↔ 0 < x.toNat := BitVec.lt_def

/-- After a 6-byte header whose length field is the body's length plus 2, the consumer reads
exactly that body and stops right after it. -/
theorem readFrame_header {header data rest : Bytes} (six : header.length = 6)
    (field : (uint32 header).toNat = data.length + 2) :
    readFrame (header ++ data ++ rest) = some (⟨uint16 (header.drop 4), data⟩, rest) := by
  have body_length : (frameDataLength header).toNat = data.length := by
    rw [frameDataLength_of_two_le (by omega), field, Nat.add_sub_cancel]
  rw [List.append_assoc, readFrame, readData_append six]
  simp only [gt_iff_lt, uint32_pos_iff, body_length]
  split
  · rw [readData_append rfl]
    rfl
  · rename_i empty
    rw [List.eq_nil_of_length_eq_zero (Nat.eq_zero_of_not_pos empty), List.nil_append]

/-- The consumer reads a frame of a body that fits back as its message, and stops right
after it. -/
theorem readFrame_frameOf (msg : NodeWireMessage) (rest : Bytes)
    (fits : msg.data.length ≤ 2 ^ 32 - 3) : readFrame (frameOf msg ++ rest) = some (msg, rest) := by
  have field : (uint32 (putUint32 (UInt32.ofNat (msg.data.length + 2)) ++ putUint16 msg.code)).toNat =
      msg.data.length + 2 := by
    rw [uint32_putUint32, UInt32.toNat_ofNat_of_lt (by unfold UInt32.size; omega)]
  have code : uint16 ((putUint32 (UInt32.ofNat (msg.data.length + 2)) ++ putUint16 msg.code).drop 4) =
      msg.code := by
    rw [List.drop_left' (length_putUint32 _), ← List.append_nil (putUint16 msg.code), uint16_putUint16]
  rw [frameOf, readFrame_header (by simp) field, code]

/-- For bodies of at most `2 ^ 32 - 3` bytes, the consumer reading what the sender wrote,
followed by any stream, queues the messages the sender did not skip, in order, and then
what it reads from that stream. -/
theorem networkConsumer_networkSender (sent : List (NodeState × NodeWireMessage)) (rest : Bytes)
    (fits : ∀ m ∈ sent, m.2.data.length ≤ 2 ^ 32 - 3) :
    networkConsumer (networkSender sent ++ rest) =
      (sent.filter fun m => m.1 ≠ .disconnected).map Prod.snd ++ networkConsumer rest := by
  induction sent with
  | nil => rfl
  | cons m sent ih =>
    obtain ⟨state, msg⟩ := m
    have fits_rest := ih fun m mem => fits m (List.mem_cons_of_mem _ mem)
    by_cases skipped : state = .disconnected
    · simpa [networkSender, skipped] using fits_rest
    · have read := readFrame_frameOf msg (networkSender sent ++ rest) (fits _ (List.mem_cons_self _ _))
      rw [networkSender, if_neg skipped, List.append_assoc, networkConsumer_of_readFrame read,
        fits_rest]
      simp [skipped]

theorem networkConsumer_networkSender_two :
    (∀ m ∈ [((NodeState.handshake), (⟨1, []⟩ : NodeWireMessage)), (.connected, ⟨9, [5, 6]⟩)],
        m.2.data.length ≤ 2 ^ 32 - 3) ∧
      networkConsumer (networkSender [(.handshake, ⟨1, []⟩), (.connected, ⟨9, [5, 6]⟩)] ++ []) =
        ([(NodeState.handshake, (⟨1, []⟩ : NodeWireMessage)), (.connected, ⟨9, [5, 6]⟩)].filter
          fun m => m.1 ≠ .disconnected).map Prod.snd ++ networkConsumer [] :=
  ⟨by decide, networkConsumer_networkSender _ _ (by decide)⟩

/-- A header with length field 1, then a frame of code 7 and body `[9]`, then the peer hangs
up: the consumer asks for `2 ^ 32 - 1` body bytes, swallows the frame after the header and
queues nothing.  A body of `2 ^ 32 - 2` bytes goes out with length field 0. -/
theorem frame_length_wraps :
    (frameDataLength [1, 0, 0, 0, 7, 0]).toNat = 2 ^ 32 - 1 ∧
      networkConsumer ([1, 0, 0, 0, 7, 0] ++ frameOf ⟨7, [9]⟩) = [] ∧
      uint32 (frameOf ⟨7, List.replicate (2 ^ 32 - 2) 0⟩) = 0 := by
  have field (body : Bytes) (length : body.length = 2 ^ 32 - 2) : uint32 (frameOf ⟨7, body⟩) = 0 :=
    UInt32.toNat.inj (by rw [uint32_frameOf, length]; rfl)
  exact ⟨by decide, networkConsumer_of_readFrame_none (by decide), field _ (List.length_replicate _ _)⟩

end Cluster

end NgBigCache
