import NgBigCache.Binary

/-! # Messages and configuration of a remote node

A `remoteNode` of `remoteNode.go` is one peer connection of a cluster node.  This module
holds what its goroutines exchange and read:

* `NodeState`, the four states of the `iota` block;
* the messages of the peer protocol.  The `message` package, with the codes and the
  encodings, is not among the sources; a message is modelled by the body it decodes to
  (§4.5 of the spec), and a frame on the wire by the message it carries, so that the
  code tests of `queueInboundMessage` and `handleMessage` become matches on the message;
* `remoteNodeConfig` and `checkConfig`, which fills in the liveness defaults:
  `checkConfig_valid` shows that every value it leaves passes its own test. -/

set_option autoImplicit false

namespace NgBigCache

namespace Cluster

inductive NodeState
  | connecting
  | connected
  | disconnected
  | handshake
  deriving DecidableEq, Repr

inductive ClusterMode
  | active
  | passive
  deriving DecidableEq, Repr

structure ProposedPeer where
  id : String
  ipAddress : String
  deriving DecidableEq, Repr

structure VerifyMessage where
  id : String
  servicePort : String
  mode : ClusterMode
  deriving DecidableEq, Repr

/-- Modelled from the spec: `message.PutMessage`; an `expiry` of 0 means no expiry. -/
structure PutMessage where
  key : Bytes
  expiry : UInt64
  data : Bytes
  deriving DecidableEq, Repr

/-- Modelled from the spec: the messages of the peer protocol, by their bodies.
`unknown` is a frame whose code no case of `handleMessage` matches. -/
inductive NodeMessage
  | verify (msg : VerifyMessage)
  | verifyOK
  | ping
  | pong
  | syncReq (mode : ClusterMode)
  | syncRsp (replicationFactor : UInt8) (list : List ProposedPeer)
  | getReq (key pendingKey : Bytes)
  | getRsp (pendingKey data : Bytes)
  | put (msg : PutMessage)
  | del (key : Bytes)
  | unknown (code : UInt16)
  deriving DecidableEq, Repr

/-- The codes `queueInboundMessage` lets through in `Handshake`: `MsgVERIFY` and
`MsgVERIFYOK`. -/
def NodeMessage.isVerify : NodeMessage → Bool
  | verify _ | verifyOK => true
  | _ => false

structure RemoteNodeConfig where
  id : String
  ipAddress : String
  pingFailureThreshHold : Int
  pingInterval : Int
  pingTimeout : Int
  connectRetries : Int
  servicePort : String
  sync : Bool
  reconnectOnDisconnect : Bool
  deriving DecidableEq, Repr

/-- `checkConfig(logger, config)`: the config with its defaults, and whether it logs
that pings will never time out. -/
def checkConfig (config : RemoteNodeConfig) : RemoteNodeConfig × Bool :=
  let config := if config.pingInterval < 1 then { config with pingInterval := 5 } else config
  let config := if config.pingTimeout < 1 then { config with pingTimeout := 3 } else config
  let warned := decide (config.pingTimeout > config.pingInterval)
  let config :=
    if config.pingFailureThreshHold = 0 then { config with pingFailureThreshHold := 5 } else config
  (config, warned)

def RemoteNodeConfig.Valid (config : RemoteNodeConfig) : Prop :=
  1 ≤ config.pingInterval ∧ 1 ≤ config.pingTimeout ∧ config.pingFailureThreshHold ≠ 0

/-- Every value `checkConfig` leaves passes its own test, the other fields are kept, it
warns exactly when the timeout it leaves exceeds the interval, and it changes nothing in
a config that already passes. -/
theorem checkConfig_valid (config : RemoteNodeConfig) :
    (checkConfig config).1.Valid ∧
      (∃ interval timeout threshold, (checkConfig config).1 =
        { config with pingInterval := interval, pingTimeout := timeout,
                      pingFailureThreshHold := threshold }) ∧
      ((checkConfig config).2 ↔
        (checkConfig config).1.pingInterval < (checkConfig config).1.pingTimeout) ∧
      (config.Valid → (checkConfig config).1 = config) := by
  obtain ⟨id, ip, threshold, interval, timeout, retries, port, sync, reconnect⟩ := config
  by_cases fixInterval : interval < 1 <;> by_cases fixTimeout : timeout < 1 <;>
    by_cases fixThreshold : threshold = 0 <;>
    simp [checkConfig, RemoteNodeConfig.Valid, fixInterval, fixTimeout, fixThreshold] <;> omega

end Cluster

end NgBigCache
