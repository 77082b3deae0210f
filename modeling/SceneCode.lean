import SceneCode.Generate
import SceneCode.Proofs.ClassPrefix.Substituted
import SceneCode.Proofs.Code.Containers
import SceneCode.Proofs.Code.LineEnds
import SceneCode.Proofs.Code.Wrapped
import SceneCode.Proofs.Color.Contrast
import SceneCode.Proofs.Color.Hex
import SceneCode.Proofs.Html.Decoded
import SceneCode.Proofs.Html.WellFormed
import SceneCode.Proofs.Joined
import SceneCode.Proofs.Layers.Inert
import SceneCode.Proofs.Layout.Arranged
import SceneCode.Proofs.Layout.Counted
import SceneCode.Proofs.Layout.Hints
import SceneCode.Proofs.Layout.Transposed
import SceneCode.Proofs.Look.Chained
import SceneCode.Proofs.Look.Shown
import SceneCode.Proofs.Markup.Inline
import SceneCode.Proofs.Number.Numerals
import SceneCode.Proofs.Payload.Foreign
import SceneCode.Proofs.Placement.Coordinates
import SceneCode.Proofs.Placement.Document
import SceneCode.Proofs.Pruning.Code
import SceneCode.Proofs.RoundTrip
import SceneCode.Proofs.Selection.Palette
import SceneCode.Proofs.Selection.Summary
import SceneCode.Proofs.Settings.Used
import SceneCode.Proofs.Skeleton
import SceneCode.Proofs.Style.History
import SceneCode.Proofs.Style.Steps
import SceneCode.Proofs.Tailwind.Marked
import SceneCode.Proofs.Tailwind.WellFormed
import SceneCode.Proofs.Template.TypeName
import SceneCode.Proofs.Template.Unwrapped
import SceneCode.Proofs.Text.Runs
import SceneCode.Scene.Reader
import SceneCode.Scene.Writer
import SceneCode.Selection
import SceneCode.Settings.Reader
import SceneCode.Settings.Writer
import SceneCode.Trace
