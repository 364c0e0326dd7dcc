import ScimDirectory.Directory.Command
import ScimDirectory.Json.Read
import ScimDirectory.Json.Write
import ScimDirectory.Store.Outage
import ScimDirectory.Proofs.Filter.Meaning
import ScimDirectory.Proofs.Filter.Preservation
import ScimDirectory.Proofs.Store.Items
import ScimDirectory.Proofs.Store.WellFormed
import ScimDirectory.Proofs.Store.History
import ScimDirectory.Proofs.Directory.Runs
import ScimDirectory.Proofs.Store.Changes
import ScimDirectory.Proofs.Store.Sound
import ScimDirectory.Proofs.Patch.Plans
import ScimDirectory.Proofs.Patch.Columns
import ScimDirectory.Proofs.Directory.Writes
import ScimDirectory.Proofs.Patch.Steps
import ScimDirectory.Proofs.Directory.Commands
import ScimDirectory.Proofs.Directory.Preferred
import ScimDirectory.Proofs.Store.Records
import ScimDirectory.Proofs.Directory.Isolation
import ScimDirectory.Proofs.Directory.Stamps
import ScimDirectory.Proofs.Directory.Versions
import ScimDirectory.Proofs.Version.Content
import ScimDirectory.Proofs.Directory.Confinement
import ScimDirectory.Proofs.Filter.Display
import ScimDirectory.Proofs.Patch.Atomicity
import ScimDirectory.Proofs.Directory.Searching
import ScimDirectory.Proofs.Directory.Batches
import ScimDirectory.Proofs.Directory.Rebuilt
import ScimDirectory.Proofs.Directory.EmptiedValues
import ScimDirectory.Proofs.Directory.RequiredNames
import ScimDirectory.Proofs.Directory.Listing
import ScimDirectory.Proofs.Filter.Limits
import ScimDirectory.Proofs.Directory.Departures
import ScimDirectory.Proofs.Directory.Passwords
import ScimDirectory.Proofs.Directory.Paging
import ScimDirectory.Proofs.Store.Keys
import ScimDirectory.Proofs.Directory.WholeWrites
import ScimDirectory.Proofs.Directory.Views
import ScimDirectory.Proofs.Directory.ReadBack
import ScimDirectory.Proofs.Directory.Revisions
import ScimDirectory.Proofs.Store.Names
import ScimDirectory.Proofs.Store.IdleCalls
import ScimDirectory.Proofs.Directory.Times
import ScimDirectory.Proofs.Patch.Pathless
import ScimDirectory.Proofs.Patch.AtHand
import ScimDirectory.Proofs.Patch.Additions
import ScimDirectory.Proofs.Patch.Replacements
import ScimDirectory.Proofs.Predicate.Folding
import ScimDirectory.Proofs.Filter.Supported
import ScimDirectory.Proofs.Directory.UserGroups
import ScimDirectory.Proofs.Patch.Selections
import ScimDirectory.Proofs.Patch.Pointwise
import ScimDirectory.Proofs.Filter.ItemFilters
import ScimDirectory.Proofs.Filter.Presence
import ScimDirectory.Proofs.Directory.Preconditions
import ScimDirectory.Proofs.Patch.LetterCase
import ScimDirectory.Proofs.Patch.Lenses
import ScimDirectory.Proofs.Store.Replacing
import ScimDirectory.Proofs.Directory.Messages
import ScimDirectory.Proofs.Filter.Boundaries
