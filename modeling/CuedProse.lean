import CuedProse.CommandLine.Play
import CuedProse.Export
import CuedProse.Main
import CuedProse.Pointer.Tooltip
import CuedProse.Proofs.Cue.Neighbours
import CuedProse.Proofs.Glyph.Clusters
import CuedProse.Proofs.Glyph.Growth
import CuedProse.Proofs.Line.Anchoring
import CuedProse.Proofs.Line.Cleanliness
import CuedProse.Proofs.Line.Growth
import CuedProse.Proofs.Line.Ink
import CuedProse.Proofs.Line.Markers
import CuedProse.Proofs.Line.Parted
import CuedProse.Proofs.Line.Prose
import CuedProse.Proofs.Line.Spacing
import CuedProse.Proofs.Markup.Grammar
import CuedProse.Proofs.Markup.Hidden
import CuedProse.Proofs.Markup.Unfinished
import CuedProse.Proofs.Pointer.Overlay
import CuedProse.Proofs.Pointer.Silence
import CuedProse.Proofs.Reading.Accounting
import CuedProse.Proofs.Reading.Cleanliness
import CuedProse.Proofs.Reading.Firing
import CuedProse.Proofs.Reading.Grouping
import CuedProse.Proofs.Reading.Joins
import CuedProse.Proofs.Reading.Position
import CuedProse.Proofs.Reading.Prose
import CuedProse.Proofs.Reading.Replay
import CuedProse.Proofs.Reading.Trace
import CuedProse.Proofs.Reading.Window
import CuedProse.Proofs.Text.Pick
import CuedProse.Proofs.Text.Split
import CuedProse.Proofs.Visible.LineText
import CuedProse.Proofs.Visible.Places
import CuedProse.Proofs.Visible.Rank
import CuedProse.Proofs.Visible.Select
import CuedProse.Proofs.Visible.Stretches
import CuedProse.Proofs.Visible.Union
import CuedProse.Proofs.Markup.Held
import CuedProse.Proofs.Reading.Source
import CuedProse.Proofs.Visible.PlaceOffset
import CuedProse.Proofs.Visible.Canonical
import CuedProse.Proofs.Cue.Params
import CuedProse.Proofs.CommandLine.Grammar
import CuedProse.Proofs.Reading.Bounds
