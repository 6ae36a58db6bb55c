import ModularGlsl.Program
import ModularGlsl.Ty.Equality
import ModularGlsl.Proofs.Binding.Failure
import ModularGlsl.Proofs.Binding.Bound
import ModularGlsl.Proofs.Binding.Program
import ModularGlsl.Proofs.Build
import ModularGlsl.Proofs.Liveness.Least
import ModularGlsl.Proofs.Liveness.Splicing
import ModularGlsl.Proofs.Naming.Assignment
import ModularGlsl.Proofs.Naming.Capture
import ModularGlsl.Proofs.Binding.Exports
import ModularGlsl.Proofs.Closed.Output
import ModularGlsl.Proofs.Closed.Written
import ModularGlsl.Proofs.Entry
import ModularGlsl.Proofs.Internal
import ModularGlsl.Proofs.Renaming
import ModularGlsl.Proofs.Naming.Builtins
import ModularGlsl.Proofs.Version
import ModularGlsl.Proofs.Interface
import ModularGlsl.Proofs.Constants
import ModularGlsl.Proofs.Accessor.Selection
import ModularGlsl.Proofs.Accessor.Clash
import ModularGlsl.Proofs.Accessor.Shadowing
import ModularGlsl.Proofs.AccessPaths
import ModularGlsl.Proofs.AppendOrder
import ModularGlsl.Proofs.Typing.Congruence
import ModularGlsl.Proofs.Constants.Injection
import ModularGlsl.Proofs.Constants.Range
import ModularGlsl.Proofs.Accessor.Bisection
import ModularGlsl.Proofs.Placement.Circle
import ModularGlsl.Proofs.Typing.Compound
import ModularGlsl.Proofs.ReturnPaths
import ModularGlsl.Proofs.Typing.ReadOnly
import ModularGlsl.Proofs.Typing.Arguments
import ModularGlsl.Proofs.Liveness.Stable
import ModularGlsl.Proofs.Naming.Claims
import ModularGlsl.Proofs.Respacing
import ModularGlsl.Proofs.Text.Expression
import ModularGlsl.Proofs.Naming.Search
import ModularGlsl.Proofs.Naming.Numeration
import ModularGlsl.Proofs.Binding.Frames
import ModularGlsl.Proofs.Liveness.Queue
