import RowExpr.CorrelationId.Json
import RowExpr.DataType.Json
import RowExpr.Literal.Json
import RowExpr.Operator.Json
import RowExpr.Workbench.Basic
import RowExpr.Proofs.DigestCache
import RowExpr.Proofs.Request
import RowExpr.Proofs.Builder
import RowExpr.Proofs.Sharing
import RowExpr.Proofs.History
import RowExpr.Proofs.Transparency
import RowExpr.Proofs.Faithful
import RowExpr.Proofs.Placed
import RowExpr.Proofs.Reached
import RowExpr.Proofs.Resolved
import RowExpr.Proofs.Operands
import RowExpr.Proofs.Readable
import RowExpr.Proofs.Typed
import RowExpr.Proofs.Checked
import RowExpr.Proofs.Remaining
import RowExpr.Proofs.CacheHistory
import RowExpr.Proofs.Buckets
import RowExpr.Proofs.WellMade
import RowExpr.Proofs.Detached
import RowExpr.Proofs.KeyText
import RowExpr.Proofs.Spelled
import RowExpr.Proofs.Written
import RowExpr.Proofs.RoundTrip
import RowExpr.Proofs.Contexts
import RowExpr.Proofs.Leaves
import RowExpr.Proofs.Congruence
import RowExpr.Proofs.Analyses
import RowExpr.Proofs.Repeated
import RowExpr.Proofs.Commuting
import RowExpr.Proofs.Renaming
import RowExpr.Proofs.Refused
import RowExpr.Proofs.Nullable
import RowExpr.Proofs.Collisions
import RowExpr.Proofs.Settings
import RowExpr.Proofs.Names
import RowExpr.Proofs.Decimals
import RowExpr.Proofs.Warnings
import RowExpr.Proofs.Hashing
