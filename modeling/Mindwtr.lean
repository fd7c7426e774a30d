import Mindwtr.Calendar.FreeSlot
import Mindwtr.Calendar.IcsCandidates
import Mindwtr.Calendar.IcsExpansion
import Mindwtr.Calendar.IcsOccurrences
import Mindwtr.Calendar.IcsRecurrence
import Mindwtr.Calendar.IcsText
import Mindwtr.Calendar.LocalDates
import Mindwtr.Calendar.PushPartial
import Mindwtr.Capture.QuickAdd
import Mindwtr.Capture.QuickAddEscapes
import Mindwtr.Capture.QuickAddPrinted
import Mindwtr.Capture.QuickAddRemoval
import Mindwtr.Capture.QuickAddSpans
import Mindwtr.Capture.QuickAddText
import Mindwtr.Cloud.AttachmentGc
import Mindwtr.Cloud.DataValidation
import Mindwtr.Cloud.TaskActions
import Mindwtr.Cloud.TaskActionsAgreement
import Mindwtr.Cloud.WriteQueueSafety
import Mindwtr.Desktop.ArbitrationAgreement
import Mindwtr.Desktop.ContainerPatchAgreement
import Mindwtr.Desktop.SanitiserAgreement
import Mindwtr.Entity.Dates
import Mindwtr.Entity.ProjectionBudget
import Mindwtr.Entity.RecurrenceReload
import Mindwtr.Import.CellMatrix
import Mindwtr.Import.CsvReimport
import Mindwtr.Js.Equality
import Mindwtr.Js.JsonText
import Mindwtr.Js.SortedJson
import Mindwtr.Lib.LittleEndian
import Mindwtr.Lib.Periods
import Mindwtr.Lib.Regex
import Mindwtr.Mcp.LinkReplacement
import Mindwtr.Search.PrintedQuery
import Mindwtr.Store.OrderingActions
import Mindwtr.Store.PeopleDedupe
import Mindwtr.Store.PeopleLoad
import Mindwtr.Store.ProjectRoundTrip
import Mindwtr.Store.SaveQueueSafety
import Mindwtr.Store.SequentialHeadsCanonical
import Mindwtr.Store.SqliteSafety
import Mindwtr.Store.TaskLifecycle
import Mindwtr.Store.TaskReactivation
import Mindwtr.Store.TaskSortingCanonical
import Mindwtr.Sync.AttachmentCleanupSafety
import Mindwtr.Sync.AttachmentMerge
import Mindwtr.Sync.AttachmentTransferSafety
import Mindwtr.Sync.AutoSyncSafety
import Mindwtr.Sync.CanonicalAreas
import Mindwtr.Sync.ConfigurationSafety
import Mindwtr.Sync.ContainerAgreement
import Mindwtr.Sync.Convergence
import Mindwtr.Sync.CryptoContainer
import Mindwtr.Sync.DeepEquality
import Mindwtr.Sync.EncryptionState
import Mindwtr.Sync.FastSyncSafety
import Mindwtr.Sync.FenceSafety
import Mindwtr.Sync.NormalizeAgain
import Mindwtr.Sync.OrchestratorSafety
import Mindwtr.Sync.PendingWrite
import Mindwtr.Sync.RemoteBackoff
import Mindwtr.Sync.RemoteNoninterference
import Mindwtr.Sync.SettingsAgreement
import Mindwtr.Sync.SettingsIsolation
import Mindwtr.Sync.StableJson
import Mindwtr.Sync.SyncRunSafety
