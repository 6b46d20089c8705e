import NgBigCache.Cluster.Node

/-! # SYNC_RSP: the peers a node tells a requester about

`handleSyncRequest` decodes a SYNC_REQ and calls `sendSyncResponse`, which walks the
registry's `getRemoteNodes()` in order, skips the requester itself and, for a passive
requester, every passive peer, and lists each other peer under the address
`net.JoinHostPort(host, n.config.ServicePort)`, where `host` is what `net.SplitHostPort`
gives for `n.config.IpAddress` (`""` when it fails, as `host, _, _ :=` keeps it).  It sends
a SYNC_RSP only when the list is not empty.

`SplitHostPort` and `JoinHostPort` are translated from Go's `net` package on characters; the
delimiters are ASCII, so the pieces are the same as on bytes.  The error values of
`SplitHostPort` are left out, since the only caller drops them.

`sendSyncResponse_eq` gives the message for every registry, requester and mode, and
`dispatch_syncReq` shows that the node model's `syncList` is this list.
`splitHostPort_joinHostPort` is the round trip of the address format: an address built by
`JoinHostPort` splits back into its host and port.  With `hostOf_plain` it gives
`splitHostPort_proposedPeerOf`: every address a SYNC_RSP lists splits back into the peer's
host and its service port.

The SYNC_REQ comes from the goroutine `handleVerifyOK` starts.  It polls `r.state` once a
second while it reads `Handshake`, gives up after five seconds, and otherwise calls
`sendMessage` with a SYNC_REQ when `config.Sync` is set.  `handleVerifyOK` runs it over the
states its loop test reads.  `handleVerifyOK_eq` gives the outcome for every sequence of
readings: the goroutine leaves the loop at the first reading that is not `Handshake`,
whichever state that is, so it also asks a torn-down peer to sync, and only `sendMessage`'s
own test for `Disconnected` stops that request. -/

set_option autoImplicit false

namespace NgBigCache

namespace Cluster

/-! ## `net.SplitHostPort` and `net.JoinHostPort` -/

/-- `bytealg.IndexByteString(s, c)`: the index of the first `c` in `s`. -/
def indexByte (c : Char) : List Char → Option Nat
  | [] => none
  | d :: s => if d = c then some 0 else (indexByte c s).map (· + 1)

/-- `bytealg.LastIndexByteString(s, c)`: the index of the last `c` in `s`. -/
def lastIndexByte (c : Char) : List Char → Option Nat
  | [] => none
  | d :: s => match lastIndexByte c s with
    | some i => some (i + 1)
    | none => if d = c then some 0 else none

/-- Where `SplitHostPort` takes the host from, once it has found the last colon at `i`: the
host, and the positions `j` and `k` from which no `[` and no `]` may follow; `none` for an
`AddrError`. -/
def hostPart (hostport : List Char) (i : Nat) : Option (List Char × Nat × Nat) :=
  if hostport.head? = some '[' then
    match indexByte ']' hostport with
    | none => none
    | some close =>
      if close + 1 = hostport.length then none
      else if close + 1 = i then some ((hostport.take close).drop 1, 1, close + 1)
      else none
  else if ':' ∈ hostport.take i then none
  else some (hostport.take i, 0, 0)

/-- `net.SplitHostPort(hostport)`: the host and the port, or `none` where it returns an
`AddrError`. -/
def splitHostPort (hostport : List Char) : Option (List Char × List Char) :=
  match lastIndexByte ':' hostport with
  | none => none
  | some i =>
    match hostPart hostport i with
    | none => none
    | some (host, j, k) =>
      if '[' ∈ hostport.drop j then none
      else if ']' ∈ hostport.drop k then none
      else some (host, hostport.drop (i + 1))

/-- `net.JoinHostPort(host, port)`: a host with a colon is taken for an IPv6 literal and
bracketed. -/
def joinHostPort (host port : String) : String :=
  if ':' ∈ host.data then "[" ++ host ++ "]:" ++ port else host ++ ":" ++ port

/-- The `host` of `host, _, _ := net.SplitHostPort(ipAddress)`. -/
def hostOf (ipAddress : String) : String :=
  match splitHostPort ipAddress.data with
  | some (host, _) => ⟨host⟩
  | none => ""

theorem joinHostPort_of_not_mem {host : String} (port : String) (plain : ':' ∉ host.data) :
    joinHostPort host port = host ++ ":" ++ port := if_neg plain

theorem indexByte_append_cons {c : Char} {l : List Char} (r : List Char) (absent : c ∉ l) :
    indexByte c (l ++ c :: r) = some l.length := by
  induction l with
  | nil => simp [indexByte]
  | cons d l ih =>
    have other : d ≠ c := fun same => absent (same ▸ List.mem_cons_self d l)
    simp [indexByte, other, ih (fun mem => absent (List.mem_cons_of_mem d mem))]

theorem lastIndexByte_eq_none {c : Char} {r : List Char} (absent : c ∉ r) :
    lastIndexByte c r = none := by
  induction r with
  | nil => rfl
  | cons d r ih =>
    have other : d ≠ c := fun same => absent (same ▸ List.mem_cons_self d r)
    simp [lastIndexByte, other, ih (fun mem => absent (List.mem_cons_of_mem d mem))]

theorem lastIndexByte_append_cons {c : Char} (l : List Char) {r : List Char} (absent : c ∉ r) :
    lastIndexByte c (l ++ c :: r) = some l.length := by
  induction l with
  | nil => simp [lastIndexByte, lastIndexByte_eq_none absent]
  | cons d l ih => simp [lastIndexByte, ih]

/-- `SplitHostPort` once the last colon, the host and the bracket checks are known. -/
theorem splitHostPort_of_hostPart {hostport host : List Char} {i j k : Nat}
    (last : lastIndexByte ':' hostport = some i) (part : hostPart hostport i = some (host, j, k))
    (noOpen : '[' ∉ hostport.drop j) (noClose : ']' ∉ hostport.drop k) :
    splitHostPort hostport = some (host, hostport.drop (i + 1)) := by
  rw [splitHostPort, last]
  simp only [part, if_neg noOpen, if_neg noClose]

theorem hostPart_plain {host rest : List Char} (noOpen : '[' ∉ host) (noColon : ':' ∉ host) :
    hostPart (host ++ ':' :: rest) host.length = some (host, 0, 0) := by
  have head : (host ++ ':' :: rest).head? ≠ some '[' := by
    cases host with
    | nil => simp
    | cons d host =>
      simp only [List.cons_append, List.head?_cons, ne_eq, Option.some.injEq]
      rintro rfl
      exact noOpen (List.mem_cons_self _ _)
  rw [hostPart, if_neg head, List.take_left, if_neg noColon]

theorem hostPart_bracketed {host rest : List Char} (noClose : ']' ∉ host) :
    hostPart ('[' :: (host ++ ']' :: ':' :: rest)) (host.length + 2) =
      some (host, 1, host.length + 2) := by
  have close : indexByte ']' ('[' :: (host ++ ']' :: ':' :: rest)) = some (host.length + 1) :=
    @indexByte_append_cons ']' ('[' :: host) (':' :: rest) (by simpa using noClose)
  simp [hostPart, close, List.take_left]

section RoundTrip
variable {host port : String}

/-- An address `JoinHostPort` builds splits back into its host and port, for a host without
brackets and a port without colons or brackets. -/
theorem splitHostPort_joinHostPort (hostPlain : '[' ∉ host.data ∧ ']' ∉ host.data)
    (portPlain : ':' ∉ port.data ∧ '[' ∉ port.data ∧ ']' ∉ port.data) :
    splitHostPort (joinHostPort host port).data = some (host.data, port.data) := by
  obtain ⟨colon, noOpen, noClose⟩ := portPlain
  by_cases ipv6 : ':' ∈ host.data
  · have layout : (joinHostPort host port).data = '[' :: (host.data ++ ']' :: ':' :: port.data) := by
      simp [joinHostPort, ipv6]
    have last : lastIndexByte ':' ('[' :: (host.data ++ ']' :: ':' :: port.data)) =
        some (host.data.length + 2) := by
      simpa using lastIndexByte_append_cons ('[' :: host.data ++ [']']) colon
    have after_close : ']' ∉ (host.data ++ ']' :: ':' :: port.data).drop (host.data.length + 1) := by
      rw [List.drop_append 1]
      simp [noClose]
    rw [layout, splitHostPort_of_hostPart last (hostPart_bracketed hostPlain.2)
      (by simp [hostPlain.1, noOpen]) after_close]
    exact congrArg (some ∘ Prod.mk host.data) (List.drop_append 2)
  · have layout : (joinHostPort host port).data = host.data ++ ':' :: port.data := by
      simp [joinHostPort, ipv6]
    rw [layout, splitHostPort_of_hostPart (lastIndexByte_append_cons host.data colon)
      (hostPart_plain hostPlain.1 ipv6) (by simp [hostPlain.1, noOpen])
      (by simp [hostPlain.2, noClose])]
    exact congrArg (some ∘ Prod.mk host.data) (List.drop_append 1)

end RoundTrip

theorem not_mem_take_of_indexByte {c : Char} {l : List Char} {k : Nat}
    (found : indexByte c l = some k) : c ∉ l.take k := by
  induction l generalizing k with
  | nil => cases found
  | cons d l ih =>
    simp only [indexByte] at found
    split at found
    · cases found
      exact List.not_mem_nil c
    · rename_i other
      obtain ⟨k', rest, rfl⟩ := Option.map_eq_some'.mp found
      exact List.not_mem_cons_of_ne_of_not_mem (Ne.symm other) (ih rest)

/-- The host `SplitHostPort` returns has no brackets. -/
theorem splitHostPort_host_plain {hostport host port : List Char}
    (split : splitHostPort hostport = some (host, port)) : '[' ∉ host ∧ ']' ∉ host := by
  unfold splitHostPort at split
  split at split
  · cases split
  · split at split
    · cases split
    · rename_i part
      split_ifs at split with noOpen noClose
      cases split
      unfold hostPart at part
      split_ifs at part
      · split at part
        · cases part
        · rename_i close found
          split_ifs at part
          cases part
          refine ⟨fun mem => noOpen ?_, fun mem =>
            not_mem_take_of_indexByte found (List.mem_of_mem_drop mem)⟩
          rw [List.drop_take] at mem
          exact List.mem_of_mem_take mem
      · cases part
        exact ⟨fun mem => noOpen (List.mem_of_mem_take mem),
          fun mem => noClose (List.mem_of_mem_take mem)⟩

theorem hostOf_plain (ipAddress : String) :
    '[' ∉ (hostOf ipAddress).data ∧ ']' ∉ (hostOf ipAddress).data := by
  unfold hostOf
  split
  · rename_i split
    exact splitHostPort_host_plain split
  · decide


/-! ## `sendSyncResponse` -/

/-- The fields of a registered `remoteNode` that `sendSyncResponse` reads: `config.Id`,
`config.IpAddress`, `config.ServicePort` and `mode`. -/
structure RegisteredPeer where
  id : String
  ipAddress : String
  servicePort : String
  mode : ClusterMode
  deriving DecidableEq, Repr

/-- The `ProposedPeer` that `sendSyncResponse` lists for the registered peer `n`. -/
def proposedPeerOf (n : RegisteredPeer) : ProposedPeer :=
  ⟨n.id, joinHostPort (hostOf n.ipAddress) n.servicePort⟩

/-- Every address `sendSyncResponse` lists splits back into the peer's host and its service
port, for a service port without colons or brackets. -/
theorem splitHostPort_proposedPeerOf (n : RegisteredPeer)
    (portPlain : ':' ∉ n.servicePort.data ∧ '[' ∉ n.servicePort.data ∧ ']' ∉ n.servicePort.data) :
    splitHostPort (proposedPeerOf n).ipAddress.data =
      some ((hostOf n.ipAddress).data, n.servicePort.data) :=
  splitHostPort_joinHostPort (hostOf_plain n.ipAddress) portPlain

/-- A peer registered at `10.0.0.1:40000` that serves on port 9911. -/
theorem splitHostPort_proposedPeerOf_registered :
    splitHostPort (proposedPeerOf ⟨"a", "10.0.0.1:40000", "9911", .active⟩).ipAddress.data =
      some ((hostOf "10.0.0.1:40000").data, "9911".data) :=
  splitHostPort_proposedPeerOf _ (by decide)

/-- One pass of `sendSyncResponse`'s loop, for the requester's `id` and the request's
`mode`: the two `continue`s, then the `append`. -/
def syncStep (id : String) (mode : ClusterMode) (nodeList : List ProposedPeer)
    (n : RegisteredPeer) : List ProposedPeer :=
  if n.id = id then nodeList
  else if n.mode = .passive ∧ mode = .passive then nodeList
  else nodeList ++ [proposedPeerOf n]

/-- The `nodeList` that `sendSyncResponse`'s loop builds over `values`. -/
def syncNodeList (values : List RegisteredPeer) (id : String) (mode : ClusterMode) :
    List ProposedPeer :=
  values.foldl (syncStep id mode) []

/-- `sendSyncResponse(msg)` of the remote node of the peer `id`, over the registry's
`getRemoteNodes()`, for the request's `mode` and the parent's `ReplicationFactor`: the
SYNC_RSP it passes to `sendMessage`, if any. -/
def sendSyncResponse (values : List RegisteredPeer) (id : String) (mode : ClusterMode)
    (replicationFactor : UInt8) : Option NodeMessage :=
  if (syncNodeList values id mode).length > 0 then
    some (.syncRsp replicationFactor (syncNodeList values id mode))
  else none

/-- Whether `sendSyncResponse` lists the registered peer `n` for the requester `id` and
mode `mode`. -/
def syncListed (id : String) (mode : ClusterMode) (n : RegisteredPeer) : Bool :=
  n.id ≠ id ∧ ¬(n.mode = .passive ∧ mode = .passive)

theorem foldl_syncStep (id : String) (mode : ClusterMode) (values : List RegisteredPeer) :
    ∀ nodeList : List ProposedPeer, values.foldl (syncStep id mode) nodeList =
      nodeList ++ (values.filter (syncListed id mode)).map proposedPeerOf := by
  induction values with
  | nil => simp
  | cons n values ih =>
    intro nodeList
    rw [List.foldl_cons, ih]
    by_cases self : n.id = id
    · simp [syncStep, syncListed, self]
    · by_cases both : n.mode = .passive ∧ mode = .passive <;>
        simp [syncStep, syncListed, self, both]

theorem syncNodeList_eq (values : List RegisteredPeer) (id : String) (mode : ClusterMode) :
    syncNodeList values id mode = (values.filter (syncListed id mode)).map proposedPeerOf := by
  rw [syncNodeList, foldl_syncStep, List.nil_append]

theorem sendSyncResponse_eq (values : List RegisteredPeer) (id : String) (mode : ClusterMode)
    (replicationFactor : UInt8) :
    sendSyncResponse values id mode replicationFactor =
      if values.filter (syncListed id mode) = [] then none
      else some (.syncRsp replicationFactor ((values.filter (syncListed id mode)).map proposedPeerOf)) := by
  rw [sendSyncResponse, syncNodeList_eq]
  by_cases empty : values.filter (syncListed id mode) = [] <;> simp [empty]

/-- Every peer a SYNC_RSP lists is a registered peer other than the requester, and an active
one when the requester is passive. -/
theorem mem_of_sendSyncResponse {values : List RegisteredPeer} {id : String} {mode : ClusterMode}
    {replicationFactor : UInt8} {list : List ProposedPeer}
    (sent : sendSyncResponse values id mode replicationFactor = some (.syncRsp replicationFactor list)) :
    ∀ p ∈ list, ∃ n ∈ values, p = proposedPeerOf n ∧ n.id ≠ id ∧ (mode = .passive → n.mode = .active) := by
  rw [sendSyncResponse_eq] at sent
  split at sent
  · cases sent
  · cases sent
    intro p listed
    obtain ⟨n, kept, rfl⟩ := List.mem_map.mp listed
    obtain ⟨registered, condition⟩ := List.mem_filter.mp kept
    simp only [syncListed, decide_eq_true_eq] at condition
    refine ⟨n, registered, rfl, condition.1, fun passive => ?_⟩
    cases other : n.mode
    · rfl
    · exact absurd ⟨other, passive⟩ condition.2

/-- The SYNC_RSP for every registry, requester and request mode: the registered peers other
than the requester, and other than the passive ones when the requester is passive, once each
and in registry order, each under the address `JoinHostPort` builds; nothing when there are
none.  So no entry is the requester, and a passive requester hears of no passive peer. -/
theorem sendSyncResponse_lists (values : List RegisteredPeer) (id : String) (mode : ClusterMode)
    (replicationFactor : UInt8) :
    sendSyncResponse values id mode replicationFactor =
        (if values.filter (fun n => n.id ≠ id ∧ ¬(n.mode = .passive ∧ mode = .passive)) = [] then none
        else some (.syncRsp replicationFactor
          ((values.filter fun n => n.id ≠ id ∧ ¬(n.mode = .passive ∧ mode = .passive)).map
            proposedPeerOf))) ∧
      ∀ list, sendSyncResponse values id mode replicationFactor =
          some (.syncRsp replicationFactor list) →
        ∀ p ∈ list, ∃ n ∈ values, p = proposedPeerOf n ∧ n.id ≠ id ∧
          (mode = .passive → n.mode = .active) :=
  ⟨sendSyncResponse_eq values id mode replicationFactor, fun _ => mem_of_sendSyncResponse⟩

example : sendSyncResponse [⟨"a", "10.0.0.1:40000", "9911", .active⟩,
    ⟨"b", "10.0.0.2:40001", "9911", .passive⟩, ⟨"c", "[::1]:40002", "9912", .active⟩] "a" .passive 2 =
      some (.syncRsp 2 [⟨"c", "[::1]:9912"⟩]) := by
  decide

/-! ## The node model's `syncList` -/

/-- The node model's context whose `syncList` is the list `sendSyncResponse` builds over the
registry `values` for the peer `id`. -/
def Context.withRegistry (ctx : Context) (values : List RegisteredPeer) (id : String) : Context :=
  { ctx with syncList := syncNodeList values id }

/-- The node model's dispatch of a SYNC_REQ is `handleSyncRequest`: over the registry, for the
node's peer, the handler goes on to `sendMessage` with `sendSyncResponse`'s message, and back
to its loop when there is none. -/
theorem dispatch_syncReq (ctx : Context) (values : List RegisteredPeer) (s : Node)
    (mode : ClusterMode) :
    Node.dispatch (ctx.withRegistry values s.config.id) s (.syncReq mode) =
      some (match sendSyncResponse values s.config.id mode ctx.replicationFactor with
        | none => { s with handler := .loop }
        | some msg => { s with handler := .replying .check msg }) := by
  by_cases empty : syncNodeList values s.config.id mode = [] <;>
    simp [Node.dispatch, Context.withRegistry, sendSyncResponse, empty, List.length_pos]

/-! ## SYNC_REQ: the goroutine `handleVerifyOK` starts -/

/-- The loop of the goroutine `handleVerifyOK` starts, `count` seconds slept, over the
states its loop test reads in turn: the `count` it leaves the loop with, or `none` when the
readings run out while it still polls. -/
def verifyOKLoop (count : Nat) : List NodeState → Option Nat
  | [] => none
  | state :: rest =>
    if state = .handshake then
      if 5 ≤ count + 1 then some (count + 1) else verifyOKLoop (count + 1) rest
    else some count

/-- The goroutine `handleVerifyOK` starts, for the node's `config.Sync` and the parent's
mode, over the states its loop test reads: once it has left the loop, the SYNC_REQ it passes
to `sendMessage`, if any. -/
def handleVerifyOK (sync : Bool) (parentMode : ClusterMode) (observed : List NodeState) :
    Option (Option NodeMessage) :=
  (verifyOKLoop 0 observed).map fun count =>
    if count < 5 then (if sync then some (.syncReq parentMode) else none) else none

/-- The readings in `Handshake` before the first that is not. -/
def leadingHandshakes (observed : List NodeState) : Nat :=
  (observed.takeWhile (· = .handshake)).length

@[simp] theorem leadingHandshakes_nil : leadingHandshakes [] = 0 := rfl

theorem leadingHandshakes_handshake (rest : List NodeState) :
    leadingHandshakes (.handshake :: rest) = leadingHandshakes rest + 1 := by
  simp [leadingHandshakes, List.takeWhile_cons]

theorem leadingHandshakes_other {state : NodeState} (left : state ≠ .handshake) (rest : List NodeState) :
    leadingHandshakes (state :: rest) = 0 := by
  simp [leadingHandshakes, List.takeWhile_cons, left]

/-- The loop from any count below 5: it stops at the fifth second in `Handshake`, else at
the first reading that is not `Handshake`. -/
theorem verifyOKLoop_eq : ∀ (count : Nat) (observed : List NodeState), count < 5 →
    verifyOKLoop count observed =
      if 5 ≤ count + leadingHandshakes observed then some 5
      else if leadingHandshakes observed < observed.length then some (count + leadingHandshakes observed)
      else none
  | count, [], below => by
    rw [verifyOKLoop, leadingHandshakes_nil, if_neg (by omega), if_neg (by simp)]
  | count, state :: rest, below => by
    by_cases polls : state = .handshake
    · subst polls
      rw [verifyOKLoop, if_pos rfl, leadingHandshakes_handshake, List.length_cons]
      by_cases last : 5 ≤ count + 1
      · rw [if_pos last, if_pos (by omega)]
        congr 1; omega
      · rw [if_neg last, verifyOKLoop_eq (count + 1) rest (by omega)]
        split_ifs <;> first | rfl | omega | (congr 1; omega)
    · rw [verifyOKLoop, if_neg polls, leadingHandshakes_other polls, if_neg (by omega),
        if_pos (by simp), Nat.add_zero]

/-- The goroutine `handleVerifyOK` starts gives up after five readings in `Handshake` and
sends nothing.  Otherwise it leaves its loop at the first reading that is not `Handshake`,
whichever state that is, `Disconnected` included, and passes a SYNC_REQ with the parent's
mode to `sendMessage` exactly when `Sync` is set.  After fewer than five readings, all in
`Handshake`, it is still polling. -/
theorem handleVerifyOK_eq (sync : Bool) (parentMode : ClusterMode) (observed : List NodeState) :
    handleVerifyOK sync parentMode observed =
      if 5 ≤ leadingHandshakes observed then some none
      else if leadingHandshakes observed < observed.length then
        some (if sync then some (.syncReq parentMode) else none)
      else none := by
  rw [handleVerifyOK, verifyOKLoop_eq 0 observed (by decide), Nat.zero_add]
  by_cases givenUp : 5 ≤ leadingHandshakes observed
  · rw [if_pos givenUp, if_pos givenUp]
    rfl
  · by_cases left : leadingHandshakes observed < observed.length
    · rw [if_neg givenUp, if_neg givenUp, if_pos left, if_pos left, Option.map_some', if_pos (by omega)]
    · rw [if_neg givenUp, if_neg givenUp, if_neg left, if_neg left]
      rfl

end Cluster

end NgBigCache
