import W3Stats.StepMachine
import W3Stats.NearestEven
import W3Stats.SwiftRuntime
import W3Stats.Records
import W3Stats.KeyedTable
import W3Stats.Realm
import W3Stats.RealmDataProvider
import W3Stats.PlayerMap
import W3Stats.RealmRefinesMap
import W3Stats.ProviderHistories
import W3Stats.CommitFailures
import W3Stats.OrphanRows
import W3Stats.StatsUtil
import W3Stats.SlideUpForm
import W3Stats.StatsViewController
import W3Stats.StatsOverflow
import W3Stats.PlayersViewController
import W3Stats.PlayersList
import W3Stats.SubmittedNames
import W3Stats.App
import W3Stats.Navigation
import W3Stats.CounterHistory
import W3Stats.FailedUpdates
import W3Stats.PercentageOrder
import W3Stats.DecimalText
import W3Stats.EditAlert
import W3Stats.Overlay
import W3Stats.SubmittedForm
import W3Stats.SelectedRows
import W3Stats.ObjectHeap
import W3Stats.SharedPlayers
import W3Stats.Crashes
import W3Stats.Relaunch
import W3Stats.SharedParser
import W3Stats.CopiedObjects
import W3Stats.CreatePlayer
import W3Stats.MatchForm
import W3Stats.PlayersTable
import W3Stats.GrowingMap
import W3Stats.Schema
import W3Stats.SchemaChanges
import W3Stats.SchemaFiles
import W3Stats.SchemaHistory
import W3Stats.StoredRows
