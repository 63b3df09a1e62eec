import OpenVibeHost.Nightly
import OpenVibeHost.Reconcile
import OpenVibeHost.Footprints
import OpenVibeHost.Json
import OpenVibeHost.EffectLogic
import OpenVibeHost.Newest
import OpenVibeHost.Retention
import OpenVibeHost.OffsiteCopies
import OpenVibeHost.ServiceLockSafety
import OpenVibeHost.FreezeLedger
import OpenVibeHost.FreezeHold
import OpenVibeHost.SwitchFailures
import OpenVibeHost.RollbackBoundary
import OpenVibeHost.SocketRule
import OpenVibeHost.WorkerUnits
import OpenVibeHost.SessionCounts
import OpenVibeHost.BackupPrune
import OpenVibeHost.TamperResistance
import OpenVibeHost.ArchiveRestores
import OpenVibeHost.WalBaseline
import OpenVibeHost.BackupOutcomes
import OpenVibeHost.DrillScratch
import OpenVibeHost.Sessions
import OpenVibeHost.Decimals
import OpenVibeHost.Catalog
import OpenVibeHost.Benchmarks
import OpenVibeHost.LinkSpending
import OpenVibeHost.Console
import OpenVibeHost.CountGates
import OpenVibeHost.Limits
import OpenVibeHost.Pages
import OpenVibeHost.KeyedTables
import OpenVibeHost.Mapping
import OpenVibeHost.TldPrices
import OpenVibeHost.CatalogStore
import OpenVibeHost.Histories
import OpenVibeHost.StoreFacts
import OpenVibeHost.CatalogRuns
import OpenVibeHost.PriceHistory
import OpenVibeHost.Observations
import OpenVibeHost.Reapplying
import OpenVibeHost.DeliveryOrder
import OpenVibeHost.LockedWrites
import OpenVibeHost.ConcurrentEdits
import OpenVibeHost.IdleGuard
import OpenVibeHost.UnitReports
import OpenVibeHost.FileTree
import OpenVibeHost.NodeModules
import OpenVibeHost.MergeObstacles
import OpenVibeHost.Utf8
import OpenVibeHost.UntrackedFiles
import OpenVibeHost.TornAppends
import OpenVibeHost.Doubles
import OpenVibeHost.InferencePlanner
import OpenVibeHost.PlannedCosts
import OpenVibeHost.Tar
import OpenVibeHost.Multipart
import OpenVibeHost.Calendar
import OpenVibeHost.Vhosts
import OpenVibeHost.VhostUndo
import OpenVibeHost.VhostPlacing
import OpenVibeHost.Declarations
import OpenVibeHost.ArtifactNames
import OpenVibeHost.PathOverlap
import OpenVibeHost.SafeOut
import OpenVibeHost.SelfUpdate
import OpenVibeHost.IsoDates
import OpenVibeHost.DumpCadence
import OpenVibeHost.CheckRuns
import OpenVibeHost.PsqlCsv
import OpenVibeHost.ObjectBlobs
import OpenVibeHost.DrillEnvironment
import OpenVibeHost.EnvFile
import OpenVibeHost.EnvReaders
import OpenVibeHost.UnitRedaction
import OpenVibeHost.BodyComparison
import OpenVibeHost.TarListing
import OpenVibeHost.BreakEvens
import OpenVibeHost.DoubleOrder
import OpenVibeHost.Versions
import OpenVibeHost.Pieces
import OpenVibeHost.ServiceEnv
import OpenVibeHost.PriceTrends
import OpenVibeHost.MarketTrends
import OpenVibeHost.PriceFreshness
import OpenVibeHost.Answers
import OpenVibeHost.ChangeReaders
import OpenVibeHost.Firsts
import OpenVibeHost.TldDocuments
import OpenVibeHost.Matching
import OpenVibeHost.OfferPrices
import OpenVibeHost.GpuRents
import OpenVibeHost.CalendarDates
import OpenVibeHost.DailySeries
import OpenVibeHost.ForecastVariance
import OpenVibeHost.DemandFeed
import OpenVibeHost.Exact
import OpenVibeHost.InferenceCosts
import OpenVibeHost.DomainNames
import OpenVibeHost.OrderedMaps
import OpenVibeHost.DomainLookups
import OpenVibeHost.DomainLookupSafety
import OpenVibeHost.EffectRuns
import OpenVibeHost.OperatorCalls
import OpenVibeHost.Announcements
import OpenVibeHost.AnnouncementRuns
import OpenVibeHost.ConsoleCalls
import OpenVibeHost.ConsoleSafety
import OpenVibeHost.HostSessions
import OpenVibeHost.MetricFiles
import OpenVibeHost.AlertRelay
import OpenVibeHost.AlertRelayRuns
import OpenVibeHost.DnsRecords
import OpenVibeHost.DnsChanges
import OpenVibeHost.DnsZones
