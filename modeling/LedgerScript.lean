import LedgerScript.ErrorReport
import LedgerScript.Main
import LedgerScript.Proofs.Addresses
import LedgerScript.Proofs.Admission
import LedgerScript.Proofs.Arithmetic
import LedgerScript.Proofs.Batch
import LedgerScript.Proofs.Conservation
import LedgerScript.Proofs.Conventions
import LedgerScript.Proofs.Depth
import LedgerScript.Proofs.Dumps
import LedgerScript.Proofs.Equivariance
import LedgerScript.Proofs.FrontEnds
import LedgerScript.Proofs.Isolation
import LedgerScript.Proofs.Items
import LedgerScript.Proofs.Layout
import LedgerScript.Proofs.Metering
import LedgerScript.Proofs.Noninterference
import LedgerScript.Proofs.Payment
import LedgerScript.Proofs.Permanence
import LedgerScript.Proofs.Reloading
import LedgerScript.Proofs.Rendering
import LedgerScript.Proofs.ScopeTree
import LedgerScript.Proofs.Sequence
import LedgerScript.Proofs.Shadowing
import LedgerScript.Proofs.Spending
import LedgerScript.Proofs.Taxonomy
import LedgerScript.Proofs.Tracing
import LedgerScript.Proofs.Truncation
import LedgerScript.Service.ReferenceFramework
