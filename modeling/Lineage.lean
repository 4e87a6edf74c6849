import Lineage.Definition.Decode
import Lineage.Definition.Encode
import Lineage.Json.Reader
import Lineage.Json.Writer
import Lineage.Native.Catalogue
import Lineage.Session.Command
import Lineage.Proofs.Hierarchy.Nearest
import Lineage.Proofs.Call.Discipline
import Lineage.Proofs.Call.Confinement
import Lineage.Proofs.Call.Coupling
import Lineage.Proofs.Call.Renaming
import Lineage.Proofs.Naive.Host
import Lineage.Proofs.Table.Layout
import Lineage.Proofs.Naive.Lineage
import Lineage.Proofs.Naive.Abstraction
import Lineage.Proofs.Naive.Refinement
import Lineage.Proofs.Call.Parametric
import Lineage.Proofs.Store.Evolution
import Lineage.Proofs.Call.Commutation
import Lineage.Proofs.Call.Gate
import Lineage.Proofs.Call.Arity
import Lineage.Proofs.Call.Course
import Lineage.Proofs.Session.Change
import Lineage.Proofs.Session.Evolution
import Lineage.Proofs.Session.Reference
import Lineage.Proofs.Naive.Extension
import Lineage.Proofs.Naive.Account
import Lineage.Proofs.Table.Representation
import Lineage.Proofs.Session.Typing
import Lineage.Proofs.Call.Pairing
import Lineage.Proofs.Call.Isolation
import Lineage.Proofs.Hierarchy.Marks
import Lineage.Proofs.Call.Domains
import Lineage.Proofs.Call.Cutoff
import Lineage.Proofs.Call.Failures
import Lineage.Proofs.Call.Unbroken
import Lineage.Proofs.Session.Failures
import Lineage.Proofs.Session.Unbroken
import Lineage.Proofs.Store.Closed
import Lineage.Proofs.Session.Careful
import Lineage.Proofs.Store.Ledger
import Lineage.Proofs.Session.History
import Lineage.Proofs.Session.Hiding
import Lineage.Proofs.Definition.Acceptance
import Lineage.Proofs.Definition.Presentation
import Lineage.Proofs.Definition.RoundTrip
import Lineage.Proofs.Call.Edit
import Lineage.Proofs.Call.Substitution
import Lineage.Proofs.Call.Frames
import Lineage.Proofs.Call.Trace
import Lineage.Proofs.Hierarchy.Admission
import Lineage.Proofs.Store.Views
import Lineage.Proofs.Call.Nodes
import Lineage.Proofs.Call.Ascent
import Lineage.Proofs.Call.Footprint
import Lineage.Proofs.Call.Repetition
import Lineage.Proofs.Table.Ancestry
import Lineage.Proofs.Call.Unoverridden
import Lineage.Proofs.Call.Ending
import Lineage.Proofs.Call.Containment
import Lineage.Proofs.Call.Raising
import Lineage.Proofs.Session.Faults
