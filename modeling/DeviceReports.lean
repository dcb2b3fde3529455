import DeviceReports.Counter.Bank
import DeviceReports.Device.Document
import DeviceReports.Device.Edit
import DeviceReports.Device.Sample
import DeviceReports.Diagnostics.Scripted
import DeviceReports.Document.Json
import DeviceReports.Lock.Bench
import DeviceReports.Main
import DeviceReports.Proofs.AnyCapacity
import DeviceReports.Proofs.AreaRows
import DeviceReports.Proofs.BufferContent
import DeviceReports.Proofs.CarriedDevices
import DeviceReports.Proofs.CarriedFields
import DeviceReports.Proofs.CatRuns
import DeviceReports.Proofs.CatalogViews
import DeviceReports.Proofs.CounterRuns
import DeviceReports.Proofs.Counts
import DeviceReports.Proofs.CutBodies
import DeviceReports.Proofs.CutNames
import DeviceReports.Proofs.CutShort
import DeviceReports.Proofs.DecodedText
import DeviceReports.Proofs.DigitKeys
import DeviceReports.Proofs.Draining
import DeviceReports.Proofs.FailedChecks
import DeviceReports.Proofs.HexColumns
import DeviceReports.Proofs.LastEntries
import DeviceReports.Proofs.ListedNames
import DeviceReports.Proofs.LockPrograms
import DeviceReports.Proofs.LockTraces
import DeviceReports.Proofs.Mounting
import DeviceReports.Proofs.NamedRows
import DeviceReports.Proofs.OptionGroups
import DeviceReports.Proofs.Outcomes
import DeviceReports.Proofs.PageSizes
import DeviceReports.Proofs.PoolRows
import DeviceReports.Proofs.QueueRows
import DeviceReports.Proofs.Raising
import DeviceReports.Proofs.RemovedTrees
import DeviceReports.Proofs.ReportLines
import DeviceReports.Proofs.ResolvedSettings
import DeviceReports.Proofs.Sessions
import DeviceReports.Proofs.SettingsKeys
import DeviceReports.Proofs.SideBySide
import DeviceReports.Proofs.SlicePositions
import DeviceReports.Proofs.SplitReads
import DeviceReports.Proofs.TableRows
import DeviceReports.Proofs.Teardowns
import DeviceReports.Proofs.TreeCalls
import DeviceReports.Proofs.UndeclaredKeys
import DeviceReports.Proofs.Windows
