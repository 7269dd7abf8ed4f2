import PingoraMesh.Lib.Prog
import PingoraMesh.Domain
import PingoraMesh.Lib.Text
import PingoraMesh.Release.Version
import PingoraMesh.Hub.Memory
import PingoraMesh.Lib.Pool
import PingoraMesh.Lib.Twin
import PingoraMesh.Hub.Config
import PingoraMesh.Hub.Calls
import PingoraMesh.Hub.Sites
import PingoraMesh.Hub.Nodes
import PingoraMesh.Hub.Accounts
import PingoraMesh.Hub.Certificates
import PingoraMesh.Hub.Service
import PingoraMesh.Hub.Indexes
import PingoraMesh.Hub.Alone
import PingoraMesh.Hub.Effects
import PingoraMesh.Hub.Cleanup
import PingoraMesh.Hub.Bindings
import PingoraMesh.Hub.Sound
import PingoraMesh.Hub.Releases
import PingoraMesh.Hub.References
import PingoraMesh.Hub.Provenance
import PingoraMesh.Hub.Confinement
import PingoraMesh.Hub.Operations
import PingoraMesh.Hub.Registration
import PingoraMesh.Hub.NodeWrites
import PingoraMesh.Failover.DnsSwitch
import PingoraMesh.Failover.Versions
import PingoraMesh.Failover.OnePrimary
import PingoraMesh.Failover.Dispatch
import PingoraMesh.Failover.Primary
import PingoraMesh.Agent.Reports
import PingoraMesh.Hub.RedisTokens
import PingoraMesh.Status.Worker
import PingoraMesh.Failover.Faults
import PingoraMesh.Lib.Faulty
import PingoraMesh.Failover.Abandoned
import PingoraMesh.Failover.Latest
import PingoraMesh.Failover.Twice
import PingoraMesh.Hub.Passwords
import PingoraMesh.Failover.Statuses
import PingoraMesh.Dns.Renewals
import PingoraMesh.Dns.Zones
import PingoraMesh.Lib.Maps
import PingoraMesh.Hub.Routes
import PingoraMesh.Hub.MemoryTokens
import PingoraMesh.Hub.Switch
import PingoraMesh.Failover.Failback
import PingoraMesh.Hub.Publish
import PingoraMesh.Hub.Halfway
import PingoraMesh.Failover.Halfway
import PingoraMesh.Dns.Issued
import PingoraMesh.Agent.Delivery
import PingoraMesh.Hub.Templates
import PingoraMesh.Dns.Refusals
import PingoraMesh.Dns.Starvation
import PingoraMesh.Lib.Words
import PingoraMesh.Dns.Names
import PingoraMesh.Dns.ZoneChoice
import PingoraMesh.Dns.Versions
import PingoraMesh.Dns.Stranded
import PingoraMesh.Failover.Delivered
import PingoraMesh.Lib.Replace
import PingoraMesh.Agent.Activation
import PingoraMesh.Hub.TokenStores
import PingoraMesh.Lib.Machine
import PingoraMesh.Status.Heartbeats
import PingoraMesh.Dns.ZoneMatch
import PingoraMesh.Dns.RecordNames
import PingoraMesh.Hub.SiteCodes
import PingoraMesh.Failover.Priorities
import PingoraMesh.Agent.Causes
import PingoraMesh.Dns.Leaks
import PingoraMesh.Hub.Http
import PingoraMesh.Lib.Own
import PingoraMesh.Hub.Guards
import PingoraMesh.Hub.Methods
import PingoraMesh.Hub.NodeScope
import PingoraMesh.Hub.Sessions
import PingoraMesh.Hub.Cookies
import PingoraMesh.Dns.Acme
import PingoraMesh.Dns.AcmeConduct
import PingoraMesh.Dns.AcmeRuns
