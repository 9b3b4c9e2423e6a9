import Linkage.Cache.Leases
import Linkage.CommandLine.Json
import Linkage.Files.Cleanup
import Linkage.Format.Encode
import Linkage.Format.Json
import Linkage.Hierarchy.Json
import Linkage.Main
import Linkage.Verification.Json
import Linkage.Proofs.Format.RoundTrip
import Linkage.Proofs.Format.Rewriting
import Linkage.Proofs.Format.Bytecode
import Linkage.Proofs.Cache.Callers
import Linkage.Proofs.Cache.Conservation
import Linkage.Proofs.Cache.Order
import Linkage.Proofs.Cache.Creation
import Linkage.Proofs.Plugin.Repository
import Linkage.Proofs.Classpath.Sources
import Linkage.Proofs.Hierarchy.Nodes
import Linkage.Proofs.Hierarchy.Exploration
import Linkage.Proofs.Data.Sorted
import Linkage.Proofs.Dependency.Accounting
import Linkage.Proofs.Classpath.Lookup
import Linkage.Proofs.Hierarchy.Memo
import Linkage.Proofs.Hierarchy.Completeness
import Linkage.Proofs.Hierarchy.Acyclic
import Linkage.Proofs.Classpath.Only
import Linkage.Proofs.Resolution.Reordering
import Linkage.Proofs.Resolution.Fields
import Linkage.Proofs.Resolution.PlainFields
import Linkage.Proofs.Tasks.Bookkeeping
import Linkage.Proofs.Check.Partition
import Linkage.Proofs.Check.External
import Linkage.Proofs.Check.Extension
import Linkage.Proofs.Check.Implementation
import Linkage.Proofs.Check.Documented
import Linkage.Proofs.Verification.Leases
import Linkage.Proofs.Verification.Results
import Linkage.Proofs.Verification.Report
import Linkage.Proofs.Files.Guards
import Linkage.Proofs.Files.Cleanup
import Linkage.Proofs.Host.Bounds
import Linkage.Proofs.Text.Grammar
import Linkage.Proofs.Format.AddedText
import Linkage.Proofs.Settings.Flattening
import Linkage.Proofs.Settings.Intervals
import Linkage.Proofs.Resolution.Reachability
import Linkage.Proofs.Format.Numbering
import Linkage.Proofs.Tasks.Shares
