import ToolCatalog.Descriptor.Document
import ToolCatalog.Log
import ToolCatalog.Memo.Held
import ToolCatalog.Proofs.Constraining
import ToolCatalog.Proofs.Defaults
import ToolCatalog.Proofs.Failing
import ToolCatalog.Proofs.Members
import ToolCatalog.Proofs.Merging
import ToolCatalog.Proofs.Nesting
import ToolCatalog.Proofs.Nullable
import ToolCatalog.Proofs.OneByOne
import ToolCatalog.Proofs.Orders
import ToolCatalog.Proofs.Placeholders
import ToolCatalog.Proofs.Recycling
import ToolCatalog.Proofs.Refusal
import ToolCatalog.Proofs.Rewriting
import ToolCatalog.Proofs.Stacking
import ToolCatalog.Proofs.Standing
import ToolCatalog.Proofs.Unresolved
import ToolCatalog.Proofs.Unwrapping
import ToolCatalog.Proofs.Validating
import ToolCatalog.Proofs.Wire
import ToolCatalog.Registry
import ToolCatalog.Time.Reading
