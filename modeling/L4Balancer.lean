import L4Balancer.Bpf.Map
import L4Balancer.Machine
import L4Balancer.Maglev
import L4Balancer.Xdp.Structs
import L4Balancer.Xdp.Balance
import L4Balancer.Xdp.Find
import L4Balancer.Bytes
import L4Balancer.OnesComplement
import L4Balancer.Scan
import L4Balancer.Xdp.Ddos
import L4Balancer.Xdp.Ban
import L4Balancer.Xdp.Handler
import L4Balancer.Xdp.Checksum
import L4Balancer.Xdp.Dsr
import L4Balancer.Xdp.Transport
import L4Balancer.Xdp.Traffic
import L4Balancer.Xdp.SynLimit
import L4Balancer.Xdp.Frame
import L4Balancer.Xdp.Session
import L4Balancer.Xdp.Affinity
import L4Balancer.Xdp.LifeCycle
import L4Balancer.Xdp.Accounting
import L4Balancer.Control.Config
import L4Balancer.Control.Proto
import L4Balancer.Control.Server
import L4Balancer.Control.ConsistentHash
import L4Balancer.Control.Translate
import L4Balancer.Control.Layout
import L4Balancer.Control.Dataplane
import L4Balancer.Control.Publish
import L4Balancer.Control.Reloader
import L4Balancer.Control.Phase
import L4Balancer.Control.History
import L4Balancer.Xdp.Sets
import L4Balancer.Control.Invisible
import L4Balancer.Xdp.Cursors
import L4Balancer.Xdp.Scans
import L4Balancer.Xdp.Isolation
import L4Balancer.Xdp.Calls
import L4Balancer.Control.Validator
import L4Balancer.Control.Accepted
import L4Balancer.Control.Json
import L4Balancer.Control.Startup
import L4Balancer.Control.Loaded
import L4Balancer.Control.Containment
import L4Balancer.Control.Publication
import L4Balancer.Control.Hitless
import L4Balancer.Control.DualTable
import L4Balancer.Control.Stable
import L4Balancer.Control.Written
import L4Balancer.Control.Kernel
import L4Balancer.Mixing
import L4Balancer.Xdp.Hash
import L4Balancer.Control.Reals
import L4Balancer.Control.Operation
import L4Balancer.Control.Distinct
import L4Balancer.Control.Reset
import L4Balancer.Control.Failure
import L4Balancer.Control.Settings
import L4Balancer.Control.Single
import L4Balancer.Control.Current
import L4Balancer.Control.Addressed
import L4Balancer.Control.Disabled
import L4Balancer.Control.Sharing
import L4Balancer.Xdp.Flow
import L4Balancer.Control.Positions
import L4Balancer.Control.Turns
import L4Balancer.Control.Served
import L4Balancer.Control.Identity
import L4Balancer.Control.Stability
import L4Balancer.Window
import L4Balancer.Xdp.SynWindow
import L4Balancer.Rotation
import L4Balancer.Control.Shares
import L4Balancer.Xdp.Merge
import L4Balancer.Control.Metrics
import L4Balancer.Collect
import L4Balancer.Control.Totals
import L4Balancer.Control.Exporter
import L4Balancer.Control.MergeTiming
import L4Balancer.Control.OwnList
import L4Balancer.Control.PartialPublication
import L4Balancer.Xdp.StableFlows
import L4Balancer.Xdp.DropCount
import L4Balancer.Purge
import L4Balancer.Xdp.Floods
import L4Balancer.Control.Acceptance
import L4Balancer.Control.Matching
import L4Balancer.Control.AddressText
import L4Balancer.Outcome
import L4Balancer.Control.Reported
import L4Balancer.Control.Narrowing
import L4Balancer.Control.RoundTrip
import L4Balancer.Cli.ConfigFile
import L4Balancer.Bpf.Walk
import L4Balancer.Control.BlackList
import L4Balancer.Records
import L4Balancer.Netutils.Ndp
import L4Balancer.Netutils.Arp
import L4Balancer.Xdp.SessionKeys
import L4Balancer.Xdp.AddressChecksum
import L4Balancer.Compare
import L4Balancer.Control.Equality
import L4Balancer.Bpf.Drain
import L4Balancer.Control.SmallStep
import L4Balancer.Progress
import L4Balancer.Control.Returns
import L4Balancer.Xdp.Ownership
import L4Balancer.Control.Settling
import L4Balancer.Xdp.GlobalLimit
import L4Balancer.Xdp.Unfiltered
import L4Balancer.Control.Delivery
import L4Balancer.Control.Replicas
import L4Balancer.Control.Switches
import L4Balancer.Netutils.Exchange
import L4Balancer.Dispatcher
import L4Balancer.Xdp.Dispatch
import L4Balancer.Xdp.Payload
import L4Balancer.Control.Restore
import L4Balancer.Control.Launch
import L4Balancer.Control.Owner
import L4Balancer.Control.Balancer
