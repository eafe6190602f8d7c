import JaspyNexus.Snmp.WalkSoundness
import JaspyNexus.Lib.RoundRobin
import JaspyNexus.Snmp.Agent
import JaspyNexus.Snmp.WalkCompleteness
import JaspyNexus.Lib.ParentGraph
import JaspyNexus.Utilities.Stp
import JaspyNexus.Utilities.StpForest
import JaspyNexus.Lib.Runs
import JaspyNexus.Models.Metrics
import JaspyNexus.Utilities.Health
import JaspyNexus.Utilities.Imds
import JaspyNexus.Utilities.ImdsHistory
import JaspyNexus.Utilities.ImdsRates
import JaspyNexus.Utilities.ImdsIdentity
import JaspyNexus.Models.Dbo
import JaspyNexus.Utilities.ImdsOrdering
import JaspyNexus.Utilities.ImdsRefresh
import JaspyNexus.Collectors.Tables
import JaspyNexus.Collectors.Vendor
import JaspyNexus.Lib.LastWrite
import JaspyNexus.Collectors.Lagpoller
import JaspyNexus.Collectors.Vlanpoller
import JaspyNexus.Collectors.LagSpec
import JaspyNexus.Collectors.VlanSpec
import JaspyNexus.Collectors.PollKeeps
import JaspyNexus.Collectors.Retention
import JaspyNexus.Collectors.Pinger
import JaspyNexus.Collectors.PingerAgreement
import JaspyNexus.Lib.Prog
import JaspyNexus.Lib.Relink
import JaspyNexus.Models.Calls
import JaspyNexus.Utilities.Discovery
import JaspyNexus.Utilities.DiscoveryLinks
import JaspyNexus.Utilities.DiscoveryStable
import JaspyNexus.Models.Constraints
import JaspyNexus.Utilities.DiscoveryColumns
import JaspyNexus.Lib.Rows
import JaspyNexus.Routes.Devices
import JaspyNexus.Utilities.DiscoveryUnique
import JaspyNexus.Utilities.Deletion
import JaspyNexus.Collectors.Crawl
import JaspyNexus.Collectors.CrawlClosed
import JaspyNexus.Utilities.Issues
import JaspyNexus.Models.IssueAck
import JaspyNexus.Routes.Issues
import JaspyNexus.Utilities.StpSeverity
import JaspyNexus.Routes.Occurrences
import JaspyNexus.Routes.Acknowledge
import JaspyNexus.Lib.Log
import JaspyNexus.Routes.IssueSteps
import JaspyNexus.Routes.AckPruning
import JaspyNexus.Routes.IssueCache
import JaspyNexus.Lib.HashMap
import JaspyNexus.Collectors.Detection
import JaspyNexus.Collectors.Links
import JaspyNexus.Collectors.LinksSound
import JaspyNexus.Collectors.LinksOrder
import JaspyNexus.Collectors.NeighborNames
import JaspyNexus.Routes.Connections
import JaspyNexus.Routes.Weathermap
import JaspyNexus.Routes.WeathermapCache
import JaspyNexus.Utilities.InterfaceIssues
import JaspyNexus.Utilities.HealthSignals
import JaspyNexus.Collectors.PortChannel
import JaspyNexus.Collectors.FarEnd
import JaspyNexus.Utilities.FleetIssues
import JaspyNexus.Routes.Fleet
import JaspyNexus.Routes.IssueParts
import JaspyNexus.Routes.IssueKeys
import JaspyNexus.Utilities.HealthPruning
import JaspyNexus.Snmp.Adapt
import JaspyNexus.Snmp.Sessions
import JaspyNexus.Snmp.HostSpec
import JaspyNexus.Collectors.Poller
import JaspyNexus.Collectors.PollWorkers
import JaspyNexus.Lib.Paths
import JaspyNexus.Collectors.DiscoveryControl
import JaspyNexus.Collectors.DiscoveryLanes
import JaspyNexus.Lib.WorkerPool
import JaspyNexus.Collectors.VlanQueue
import JaspyNexus.Collectors.VlanTickets
import JaspyNexus.Lib.Overwrites
import JaspyNexus.Lib.Quoted
import JaspyNexus.Routes.Settings
import JaspyNexus.Collectors.StpMetrics
import JaspyNexus.Collectors.Rpvst
import JaspyNexus.Lib.Exposition
import JaspyNexus.Models.MetricText
import JaspyNexus.Collectors.PingHysteresis
import JaspyNexus.Collectors.Unhex
import JaspyNexus.Lib.Edges
import JaspyNexus.Utilities.ImdsReports
import JaspyNexus.Utilities.CounterGuard
import JaspyNexus.Utilities.Transitions
import JaspyNexus.Utilities.HardwareSwap
import JaspyNexus.Utilities.HealthSums
import JaspyNexus.Utilities.LagStates
import JaspyNexus.Lib.Broadcast
import JaspyNexus.Utilities.Livelog
import JaspyNexus.Snmp.Mib
import JaspyNexus.Collectors.TopologyAge
import JaspyNexus.Collectors.PingerPause
import JaspyNexus.Collectors.Bitmaps
import JaspyNexus.Collectors.CiscoVlans
import JaspyNexus.Collectors.BridgeVlans
import JaspyNexus.Collectors.LagMembers
import JaspyNexus.Lib.StableSort
import JaspyNexus.Collectors.Qos
import JaspyNexus.Collectors.QosOrder
import JaspyNexus.Snmp.CachedSession
import JaspyNexus.Collectors.VendorOrder
import JaspyNexus.Snmp.DeadStreak
import JaspyNexus.Lib.LeastWrite
import JaspyNexus.Routes.RootDepth
import JaspyNexus.Routes.ClientLocations
import JaspyNexus.Collectors.Pool
import JaspyNexus.Lib.Condvar
import JaspyNexus.Utilities.Semaphore
import JaspyNexus.Snmp.Source
import JaspyNexus.Lib.Radix
import JaspyNexus.Utilities.BridgeIds
import JaspyNexus.Collectors.CrawlNames
import JaspyNexus.Lib.Timers
import JaspyNexus.Webui.LiveSocket
import JaspyNexus.Webui.LiveStatus
import JaspyNexus.Webui.LiveLog
import JaspyNexus.Snmp.SessionKeys
import JaspyNexus.Snmp.LearnedState
import JaspyNexus.Weathermap.DeviceGraph
import JaspyNexus.Lib.MaxBy
import JaspyNexus.Routes.StpSummary
import JaspyNexus.Snmp.Inflight
import JaspyNexus.Utilities.Pollstats
import JaspyNexus.Utilities.PollstatsText
import JaspyNexus.Lib.Codec
import JaspyNexus.Utilities.HealthJson
import JaspyNexus.Utilities.HealthFile
import JaspyNexus.Lib.FirstWrite
import JaspyNexus.Snmp.Trap
import JaspyNexus.Traphandler
import JaspyNexus.Lib.Journal
