import ModuleLoader.Session
import ModuleLoader.Proofs.Retrieval
import ModuleLoader.Proofs.Callbacks
import ModuleLoader.Proofs.Lifecycle
import ModuleLoader.Proofs.Compilation
import ModuleLoader.Proofs.Coherence
import ModuleLoader.Proofs.Listed.Completeness
import ModuleLoader.Proofs.Listed.Answer
import ModuleLoader.Proofs.Meaning
import ModuleLoader.Proofs.Patches.Order
import ModuleLoader.Proofs.Packages
import ModuleLoader.Proofs.Sharing
import ModuleLoader.Proofs.Readiness
import ModuleLoader.Proofs.Derivation
import ModuleLoader.Proofs.Precedence
import ModuleLoader.Proofs.Preloads
import ModuleLoader.Proofs.Pruning.Circles
import ModuleLoader.Proofs.Ending
import ModuleLoader.Proofs.Places
import ModuleLoader.Proofs.Allocation
import ModuleLoader.Proofs.Calls
import ModuleLoader.Proofs.Handing
import ModuleLoader.Proofs.Interfaces
import ModuleLoader.Proofs.Padding
import ModuleLoader.Proofs.Results
import ModuleLoader.Proofs.Joining
import ModuleLoader.Proofs.Scanning
import ModuleLoader.Proofs.Paths.Directories
import ModuleLoader.Proofs.Equality.Equivalence
