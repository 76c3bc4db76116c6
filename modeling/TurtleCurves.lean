import TurtleCurves.Catalog.Classic
import TurtleCurves.Proofs.Branch
import TurtleCurves.Proofs.Bracketing
import TurtleCurves.Proofs.Expansion
import TurtleCurves.Proofs.Refusal
import TurtleCurves.Proofs.Rendering
import TurtleCurves.Proofs.Replay
import TurtleCurves.Proofs.RuleMerging
import TurtleCurves.Render
import TurtleCurves.Turtle.Json
import TurtleCurves.Proofs.RuleText
import TurtleCurves.Proofs.Validation
import TurtleCurves.Proofs.Ceilings
import TurtleCurves.Proofs.Agreement
import TurtleCurves.Proofs.Budget
import TurtleCurves.Proofs.Catalogs
import TurtleCurves.Proofs.Blanks
import TurtleCurves.Proofs.Polylines
import TurtleCurves.Proofs.Values
import TurtleCurves.Proofs.ContextFree
import TurtleCurves.Proofs.Generations
import TurtleCurves.Proofs.PrimitiveCounts
import TurtleCurves.Proofs.Colors
import TurtleCurves.Proofs.Spelling
import TurtleCurves.Proofs.FloatSigns
import TurtleCurves.Proofs.FloatOrder
import TurtleCurves.Proofs.Mirror
import TurtleCurves.Proofs.Planarity
import TurtleCurves.Proofs.Bounds
import TurtleCurves.Proofs.Logging
import TurtleCurves.Proofs.TallyOrder
import TurtleCurves.Proofs.Members
import TurtleCurves.Proofs.Orientation
import TurtleCurves.Proofs.RecordForms
import TurtleCurves.Proofs.Buffers
