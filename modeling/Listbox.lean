import Listbox.Attributes
import Listbox.Collection.Lemmas
import Listbox.Collection.NodeTest
import Listbox.Identifier
import Listbox.Key
import Listbox.KeySet.Lemmas
import Listbox.ListControl.Event
import Listbox.Load.Abort
import Listbox.Load.Loader
import Listbox.Settings.Codec
import Listbox.Settings.Describe
import Listbox.Settings.Json
import Listbox.Proofs.Proposal
import Listbox.Proofs.Consistency
import Listbox.Proofs.Selectability
import Listbox.Proofs.Announcement
import Listbox.Proofs.Flattening
import Listbox.Proofs.Range
import Listbox.Proofs.RangeHistory
import Listbox.Proofs.NonEmpty
import Listbox.Proofs.ObedientOwner
import Listbox.Proofs.PressFrame
import Listbox.Proofs.Polling
import Listbox.Proofs.Ownership
import Listbox.Proofs.LoadHistory
import Listbox.Proofs.Recovery
import Listbox.Proofs.Appending
import Listbox.Proofs.Filtering
import Listbox.Proofs.ReadingOrder
import Listbox.Proofs.Response
import Listbox.Proofs.Restraint
import Listbox.Proofs.Activation
import Listbox.Proofs.LongPress
import Listbox.Proofs.Editing
import Listbox.Proofs.Queries
import Listbox.Proofs.Destination
import Listbox.Proofs.FocusMoves
import Listbox.Proofs.FocusTarget
import Listbox.Proofs.AnchorFallback
import Listbox.Proofs.Stretching
import Listbox.Proofs.Choosing
import Listbox.Proofs.Flipping
import Listbox.Proofs.NewEdition
import Listbox.Proofs.Reverting
import Listbox.Proofs.Trails
import Listbox.Proofs.Families
import Listbox.Proofs.Scope
import Listbox.Proofs.FilterLaws
import Listbox.Proofs.Stops
import Listbox.Proofs.Searching
import Listbox.Proofs.Typing
import Listbox.Proofs.Targets
import Listbox.Proofs.Paging
import Listbox.Proofs.Grid
import Listbox.Proofs.Mirroring
import Listbox.Proofs.Collation
import Listbox.Proofs.Straying
import Listbox.Proofs.Clicking
import Listbox.Proofs.Waiting
import Listbox.Proofs.PressHistory
import Listbox.Proofs.Identifiers
import Listbox.Proofs.Layering
import Listbox.Proofs.HeldPress
