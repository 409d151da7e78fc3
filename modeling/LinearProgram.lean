import LinearProgram.Proofs.Expression.Accumulation
import LinearProgram.Proofs.Expression.Key
import LinearProgram.Proofs.Expression.Scaling
import LinearProgram.Proofs.Expression.Summation
import LinearProgram.Proofs.Heap.Algebra
import LinearProgram.Proofs.Heap.Operators
import LinearProgram.Proofs.Model.ByRows
import LinearProgram.Proofs.Model.ColumnAssignment
import LinearProgram.Proofs.Model.ConflictGraph
import LinearProgram.Proofs.Model.Refusals
import LinearProgram.Proofs.Model.Rendering
import LinearProgram.Proofs.Model.Targets
import LinearProgram.Proofs.Names.Search
import LinearProgram.Proofs.Workspace.Additions
import LinearProgram.Proofs.Workspace.Evaluation
import LinearProgram.Proofs.Workspace.Handles
import LinearProgram.Proofs.Workspace.Stored
import LinearProgram.Proofs.Workspace.Unbounded
import LinearProgram.Proofs.Workspace.Violation
