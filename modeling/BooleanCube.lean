import BooleanCube.Main
import BooleanCube.Proofs.Grammar
import BooleanCube.Proofs.Precedence
import BooleanCube.Proofs.CubeGeometry
import BooleanCube.Proofs.RoundTrip
import BooleanCube.Proofs.StepLabels
import BooleanCube.Proofs.ColumnLayout
import BooleanCube.Proofs.Renaming
import BooleanCube.Proofs.Cutting
import BooleanCube.Proofs.Item
import BooleanCube.Proofs.Language
import BooleanCube.Proofs.Border
import BooleanCube.Proofs.Spacing
import BooleanCube.Proofs.Stretch
import BooleanCube.Proofs.Words
import BooleanCube.Proofs.ErrorPlace
import BooleanCube.Proofs.Naming
import BooleanCube.Proofs.LetterCase
import BooleanCube.Proofs.TextOrder
import BooleanCube.Proofs.FirstOccurrence
import BooleanCube.Proofs.Implicant
import BooleanCube.Proofs.CubeUnion
import BooleanCube.Proofs.MergeLevels
import BooleanCube.Proofs.Halves
import BooleanCube.Proofs.CubeTerm
import BooleanCube.Proofs.MinimalForm
import BooleanCube.Proofs.MergeLoop
import BooleanCube.Proofs.MergeTrace
import BooleanCube.Proofs.FormText
import BooleanCube.Proofs.SumOfProducts
import BooleanCube.Proofs.ProductOfSums
import BooleanCube.Proofs.Derived
import BooleanCube.Proofs.Branch
import BooleanCube.Proofs.Unwritten
import BooleanCube.Proofs.Symmetry
import BooleanCube.Proofs.Editing
import BooleanCube.Proofs.Replay
import BooleanCube.Proofs.CanonicalText
import BooleanCube.Proofs.Growth
import BooleanCube.Proofs.Surplus
import BooleanCube.Proofs.Reduction
