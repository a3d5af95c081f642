import SyncedBookmarks.Error.Code
import SyncedBookmarks.Main
import SyncedBookmarks.Report
import SyncedBookmarks.Proofs.Gathering
import SyncedBookmarks.Proofs.Mutations
import SyncedBookmarks.Proofs.Propagation
import SyncedBookmarks.Proofs.StoreRuns
import SyncedBookmarks.Proofs.Unsealing
import SyncedBookmarks.Proofs.Atomicity
import SyncedBookmarks.Proofs.Convergence
import SyncedBookmarks.Proofs.LateEdits
import SyncedBookmarks.Proofs.RootSafety
import SyncedBookmarks.Proofs.OwnItem
import SyncedBookmarks.Proofs.OrphanPass
import SyncedBookmarks.Proofs.Vigilance
import SyncedBookmarks.Proofs.FolderOrder
import SyncedBookmarks.Proofs.Caching
import SyncedBookmarks.Proofs.LastCall
import SyncedBookmarks.Proofs.KeyHolding
import SyncedBookmarks.Proofs.Logout
import SyncedBookmarks.Proofs.Signatures
import SyncedBookmarks.Proofs.NodeKeeping
import SyncedBookmarks.Proofs.Unreadable
import SyncedBookmarks.Proofs.Journaling
import SyncedBookmarks.Proofs.Turns
import SyncedBookmarks.Proofs.TagRelation
import SyncedBookmarks.Proofs.Recreating
import SyncedBookmarks.Proofs.TagReplacement
import SyncedBookmarks.Proofs.Repeating
import SyncedBookmarks.Proofs.Refusals
import SyncedBookmarks.Proofs.Withdrawal
import SyncedBookmarks.Proofs.Agreement
import SyncedBookmarks.Proofs.Mooring
import SyncedBookmarks.Proofs.Binding
import SyncedBookmarks.Proofs.Listing
import SyncedBookmarks.Proofs.Departures
import SyncedBookmarks.Proofs.Exits
import SyncedBookmarks.Proofs.StartingOver
import SyncedBookmarks.Proofs.QueryOffsets
import SyncedBookmarks.Proofs.QueryRewriting
import SyncedBookmarks.Proofs.FileWriting
import SyncedBookmarks.Proofs.IndentedText
import SyncedBookmarks.Proofs.SettingsKeeping
import SyncedBookmarks.Proofs.SignedTexts
