import Deduce.Catalog.Basic
import Deduce.Catalog.Resolve
import Deduce.Chaining.Engine
import Deduce.Chaining.Round
import Deduce.Chaining.Tally
import Deduce.Data.Index
import Deduce.Data.Lookup
import Deduce.Data.Table
import Deduce.Facts.Graph
import Deduce.Facts.Ledger
import Deduce.Failure
import Deduce.Inspect.Annotated
import Deduce.Inspect.Profile
import Deduce.Inspect.Query
import Deduce.Inspect.Threshold
import Deduce.Log
import Deduce.Proofs.Catalog.History
import Deduce.Proofs.Catalog.Resolution
import Deduce.Proofs.Chaining.Accounting
import Deduce.Proofs.Chaining.Composition
import Deduce.Proofs.Chaining.Convergence
import Deduce.Proofs.Chaining.Fixpoint
import Deduce.Proofs.Chaining.Probing
import Deduce.Proofs.Chaining.Repetitions
import Deduce.Proofs.Chaining.Rounds
import Deduce.Proofs.Chaining.Starvation
import Deduce.Proofs.Chaining.Tallies
import Deduce.Proofs.Chaining.Trace
import Deduce.Proofs.Data.Attempts
import Deduce.Proofs.Data.Dedup
import Deduce.Proofs.Data.WholeFloats
import Deduce.Proofs.Facts.Indexing
import Deduce.Proofs.Faults
import Deduce.Proofs.Inspect.Consistency
import Deduce.Proofs.Inspect.ExactMatching
import Deduce.Proofs.Inspect.Replacing
import Deduce.Proofs.Inspect.Symmetries
import Deduce.Proofs.Reasoner.Blocks
import Deduce.Proofs.Reasoner.Construction
import Deduce.Proofs.Reasoner.Entry
import Deduce.Proofs.Reasoner.Growth
import Deduce.Proofs.Reasoner.Items
import Deduce.Proofs.Reasoner.Names
import Deduce.Proofs.Reasoner.Orientation
import Deduce.Proofs.Reasoner.Reachable
import Deduce.Proofs.Reasoner.Vocabulary
import Deduce.Proofs.Reduction.Fixpoint
import Deduce.Proofs.Reduction.NormalForm
import Deduce.Proofs.Reduction.Optimizer
import Deduce.Proofs.Reduction.Ordering
import Deduce.Proofs.Reduction.Runs
import Deduce.Proofs.Reduction.Terms
import Deduce.Proofs.Rule.Canonical
import Deduce.Proofs.Rule.Scans
import Deduce.Proofs.Semantics.Arithmetic
import Deduce.Proofs.Semantics.Interpretation
import Deduce.Proofs.Semantics.Optimizer
import Deduce.Proofs.Semantics.Soundness
import Deduce.Proofs.Term.Building
import Deduce.Proofs.Term.Nodes
import Deduce.Proofs.Term.Occurrence
import Deduce.Proofs.Term.Patterns
import Deduce.Proofs.Term.Reading
import Deduce.Proofs.Term.Rebuilding
import Deduce.Proofs.Term.Similarity
import Deduce.Proofs.Term.Variables
import Deduce.Reasoner.Basic
import Deduce.Reasoner.Model
import Deduce.Reasoner.Session
import Deduce.Reasoner.Validation
import Deduce.Reduction.Basic
import Deduce.Reduction.Optimize
import Deduce.Reduction.Stock
import Deduce.Release
import Deduce.Rule.Basic
import Deduce.Rule.Canonical
import Deduce.Rule.Stock
import Deduce.Settings
import Deduce.Term.Basic
import Deduce.Term.Build
import Deduce.Term.Metrics
import Deduce.Term.Operator
import Deduce.Term.Pattern
import Deduce.Term.Printer
import Deduce.Term.Similarity
import Deduce.Term.Sort
import Deduce.Term.Sorting
import Deduce.Term.Substitution
import Deduce.Term.Variables
import Deduce.Text.Decimal
import Deduce.Text.Numeral
import Deduce.Text.Printable
import Deduce.Text.Quoted
import Deduce.Value.Basic
import Deduce.Value.Build
import Deduce.Value.Equality
