import NgBigCache.Binary
import NgBigCache.Encoding
import NgBigCache.Queue
import NgBigCache.Ttl
import NgBigCache.Shard
import NgBigCache.Shard.Invariant
import NgBigCache.Shard.Map
import NgBigCache.Shard.Expiry
import NgBigCache.Shard.Lock
import NgBigCache.Shard.Cache
import NgBigCache.Shard.Concurrent
import NgBigCache.Shard.Report
import NgBigCache.Cluster.Message
import NgBigCache.Cluster.Node
import NgBigCache.Cluster.Handshake
import NgBigCache.Cluster.Teardown
import NgBigCache.Cluster.Put
import NgBigCache.Cluster.Frame
import NgBigCache.Cluster.Sync
import NgBigCache.Cluster.Get
