import Stencil.Main
import Stencil.Value.Conversion
import Stencil.Files.Tree
import Stencil.Proofs.Render.Strictness
import Stencil.Proofs.Template.Spelling
import Stencil.Proofs.Template.Tiling
import Stencil.Proofs.Template.Join
import Stencil.Proofs.Render.Relocation
import Stencil.Proofs.Render.Concatenation
import Stencil.Proofs.Template.Enclosing
import Stencil.Proofs.Render.Agreement
import Stencil.Proofs.Render.Unrolling
import Stencil.Proofs.Template.Draft
import Stencil.Proofs.Template.Stopping
import Stencil.Proofs.Survey.Pieces
import Stencil.Proofs.Survey.Directive
import Stencil.Proofs.Store.Reachable
import Stencil.Proofs.Survey.Validity
import Stencil.Proofs.Text.Order
import Stencil.Proofs.Survey.Statistics
import Stencil.Proofs.Value.Sameness
import Stencil.Proofs.Render.Likeness
import Stencil.Proofs.Render.Similarity
import Stencil.Proofs.Render.Dependence
import Stencil.Proofs.Survey.Faults
import Stencil.Proofs.Store.Builtin
import Stencil.Proofs.Store.Client
import Stencil.Proofs.Store.Registration
import Stencil.Proofs.Store.Session
import Stencil.Proofs.Render.Depth
import Stencil.Proofs.Render.Complement
import Stencil.Proofs.Render.Filler
import Stencil.Proofs.Render.Warning
import Stencil.Proofs.Render.Arrangement
import Stencil.Proofs.Text.Continuation
import Stencil.Proofs.Store.Directory
import Stencil.Proofs.Command.Consistency
import Stencil.Proofs.Checked.Evaluation
import Stencil.Proofs.Render.Log
import Stencil.Proofs.Render.Environment
import Stencil.Proofs.Store.Loading
import Stencil.Proofs.Number.Exactness
import Stencil.Proofs.Value.RoundTrip
import Stencil.Proofs.Engine.Batch
import Stencil.Proofs.Render.Bookkeeping
import Stencil.Proofs.Render.Surroundings
import Stencil.Proofs.Survey.Occurrence
import Stencil.Proofs.Survey.Stray
import Stencil.Proofs.Number.Whole
import Stencil.Proofs.Value.Numeral
import Stencil.Proofs.Text.Lines
import Stencil.Proofs.Survey.Location
