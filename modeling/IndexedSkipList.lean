import IndexedSkipList.Pool.Session
import IndexedSkipList.SkipList.Command
import IndexedSkipList.Proofs.Trace
import IndexedSkipList.Proofs.Binary64.Patterns
import IndexedSkipList.Proofs.Binary64.Nearest
import IndexedSkipList.Proofs.Pool.Occupancy
import IndexedSkipList.Proofs.Pool.Store
import IndexedSkipList.Proofs.HeightPolicy
import IndexedSkipList.Proofs.Lanes.Links
import IndexedSkipList.Proofs.Lanes.Columns
import IndexedSkipList.Proofs.Lanes.Represents
import IndexedSkipList.Proofs.Lanes.Insertion
import IndexedSkipList.Proofs.Lanes.Housing
import IndexedSkipList.Proofs.Lanes.Removal
import IndexedSkipList.Proofs.Lanes.Determined
import IndexedSkipList.Proofs.Key.Division
import IndexedSkipList.Proofs.Key.Dictionary
import IndexedSkipList.Proofs.SkipList.Represents
import IndexedSkipList.Proofs.SkipList.Iteration
import IndexedSkipList.Proofs.SkipList.Changes
import IndexedSkipList.Proofs.SkipList.Reference
import IndexedSkipList.Proofs.SkipList.Simulation
import IndexedSkipList.Proofs.Lanes.Chains
import IndexedSkipList.Proofs.SkipList.Runs
import IndexedSkipList.Proofs.SkipList.WellFormed
import IndexedSkipList.Proofs.SkipList.Ledger
import IndexedSkipList.Proofs.SkipList.Independence
import IndexedSkipList.Proofs.SkipList.Inversion
import IndexedSkipList.Proofs.SkipList.Refinement
import IndexedSkipList.Proofs.SkipList.Safety
import IndexedSkipList.Proofs.SkipList.Parts
import IndexedSkipList.Proofs.SkipList.Storage
import IndexedSkipList.Proofs.Key.Collection
import IndexedSkipList.Proofs.SkipList.Bulk
import IndexedSkipList.Proofs.Lanes.Locality
import IndexedSkipList.Proofs.SkipList.Locality
import IndexedSkipList.Proofs.SkipList.Bookmarks
import IndexedSkipList.Proofs.SkipList.Overwriting
import IndexedSkipList.Proofs.Lanes.Trails
import IndexedSkipList.Proofs.SkipList.Termination
import IndexedSkipList.Proofs.SkipList.Reports
import IndexedSkipList.Proofs.SkipList.Visits
import IndexedSkipList.Proofs.SkipList.Construction
import IndexedSkipList.Proofs.SkipList.Stops
