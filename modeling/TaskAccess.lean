import TaskAccess.Permission.Lookup
import TaskAccess.Permission.MaskText
import TaskAccess.Pool
import TaskAccess.Query.Sql
import TaskAccess.Record.Exchange
import TaskAccess.Settings.Load
import TaskAccess.Proofs.Denial
import TaskAccess.Proofs.EveryTask
import TaskAccess.Proofs.CallerIndependence
import TaskAccess.Proofs.Changes
import TaskAccess.Proofs.OnePerSlot
import TaskAccess.Proofs.OnePerId
import TaskAccess.Proofs.Survival
import TaskAccess.Proofs.Failure
import TaskAccess.Proofs.KeptAccess
import TaskAccess.Proofs.Merging
import TaskAccess.Proofs.Monotone
import TaskAccess.Proofs.Confinement
import TaskAccess.Proofs.Lifting
import TaskAccess.Proofs.Asking
import TaskAccess.Proofs.BrokenStore
import TaskAccess.Proofs.Selection
import TaskAccess.Proofs.Locality
import TaskAccess.Proofs.Independence
import TaskAccess.Proofs.Saving
import TaskAccess.Proofs.OneGrant
import TaskAccess.Proofs.ExchangeForm
import TaskAccess.Proofs.RowForm
import TaskAccess.Proofs.Purging
import TaskAccess.Proofs.OnlyWellFormed
import TaskAccess.Proofs.Causes
import TaskAccess.Proofs.LinkingOutcome
import TaskAccess.Proofs.SavingOutcome
import TaskAccess.Proofs.PermissionNames
import TaskAccess.Proofs.Readable
import TaskAccess.Proofs.SlotLookup
import TaskAccess.Proofs.Provisioning
import TaskAccess.Proofs.OwnerWalk
import TaskAccess.Proofs.NewIds
