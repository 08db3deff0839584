import BurstHttp.Lib.Feed
import BurstHttp.Basic
import BurstHttp.Response
import BurstHttp.Header
import BurstHttp.Fields
import BurstHttp.Chunked
import BurstHttp.Parser
import BurstHttp.ReadHead
import BurstHttp.Recycled
import BurstHttp.Agreement
import BurstHttp.Succession
import BurstHttp.ChunkedEncoding
import BurstHttp.TimeCache
import BurstHttp.Connection
import BurstHttp.StoredHead
import BurstHttp.Sequential
import BurstHttp.Lib.Guarded
import BurstHttp.Pipeline.Protocol
import BurstHttp.Pipeline.Machine
import BurstHttp.Pipeline.Refinement
import BurstHttp.Pipeline.Soundness
import BurstHttp.Pipeline.Pairing
import BurstHttp.Pipeline.Custody
import BurstHttp.Pipeline.Desync
import BurstHttp.FailedReads
import BurstHttp.Lib.Lease
import BurstHttp.Pool.Machine
import BurstHttp.Pool.Exclusive
import BurstHttp.Scheduler.Machine
import BurstHttp.Scheduler.Ownership
import BurstHttp.BodySize
import BurstHttp.Lib.Tally
import BurstHttp.Pipeline.Accounting
import BurstHttp.Pipeline.Attended
import BurstHttp.Pipeline.Rotation
import BurstHttp.Lifecycle
import BurstHttp.Traffic
import BurstHttp.Lib.Roster
import BurstHttp.Pool.System
import BurstHttp.Pool.Workers
import BurstHttp.Pool.Books
import BurstHttp.Pool.Holders
import BurstHttp.Pool.Eviction
import BurstHttp.Pool.Shutdown
import BurstHttp.Lib.Page
import BurstHttp.Lib.Decimal
import BurstHttp.Writer
import BurstHttp.RequestHead
import BurstHttp.PreEncoded
import BurstHttp.Pool.Targets
import BurstHttp.Dns.Exclusion
import BurstHttp.Dns.SingleFlight
import BurstHttp.Dns.Machine
import BurstHttp.Pipeline.Wakeup
import BurstHttp.Lib.TokenBucket
import BurstHttp.RateLimit
import BurstHttp.Lib.Admission
import BurstHttp.Pool.Depth
import BurstHttp.Residue
import BurstHttp.ContentLength
import BurstHttp.FramingFields
import BurstHttp.CloseDelimited
import BurstHttp.OneLimit
import BurstHttp.ChunkedRange
import BurstHttp.ChunkedSound
import BurstHttp.ExpectContinue
import BurstHttp.ConnectionClose
import BurstHttp.Interim
import BurstHttp.StatusLine
import BurstHttp.SetHeader
import BurstHttp.HeaderBytes
import BurstHttp.Lib.Binary64
import BurstHttp.Retry
import BurstHttp.Dispatch
import BurstHttp.RetryLoop
import BurstHttp.Cancellation
import BurstHttp.Routing
import BurstHttp.Pool.Selection
import BurstHttp.IdleTime
import BurstHttp.BufferRoom
import BurstHttp.Pipeline.EncodeFailure
import BurstHttp.Lib.Authority
import BurstHttp.Lib.Socks
import BurstHttp.Address
import BurstHttp.HostHeader
import BurstHttp.Lib.Exchange
import BurstHttp.Socks5
import BurstHttp.Tunnel
import BurstHttp.Dialer
import BurstHttp.Dns.Dialing
import BurstHttp.Lib.Ewma
import BurstHttp.Health
import BurstHttp.WriteInt
import BurstHttp.Lib.Recent
import BurstHttp.Lib.Rank
import BurstHttp.Metrics
import BurstHttp.Measured
import BurstHttp.Requests
import BurstHttp.Batch
import BurstHttp.Waiting
