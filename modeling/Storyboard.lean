import Storyboard.Main
import Storyboard.Scalar.Exact
import Storyboard.Session
import Storyboard.Proofs.Except
import Storyboard.Proofs.Placeholder.Pieces
import Storyboard.Proofs.Placeholder.Numbers
import Storyboard.Proofs.Fields
import Storyboard.Proofs.Mention
import Storyboard.Proofs.Composition.Layout
import Storyboard.Proofs.Composition.Overlay
import Storyboard.Proofs.Composition.Numbering
import Storyboard.Proofs.Gate.Raising
import Storyboard.Proofs.Gate.Passage
import Storyboard.Proofs.Gate.Steady
import Storyboard.Proofs.Gate.Range
import Storyboard.Proofs.Gate.Faults
import Storyboard.Proofs.Draft.Grounded
import Storyboard.Proofs.Gate.Sequence
import Storyboard.Proofs.Draft.Canvas
import Storyboard.Proofs.Composition.Closure
import Storyboard.Proofs.Quality
import Storyboard.Proofs.Compiler.Coherence
import Storyboard.Proofs.Binary.Order
import Storyboard.Proofs.Binary.Size
import Storyboard.Proofs.Binary.Sign
import Storyboard.Proofs.Draft.Fits
import Storyboard.Proofs.Draft.Pace
import Storyboard.Proofs.Draft.Fitting
import Storyboard.Proofs.Binary.Share
import Storyboard.Proofs.Prompt.Tempered
import Storyboard.Proofs.Compiler.Ungated
import Storyboard.Proofs.Binary.Exact
import Storyboard.Proofs.Binary.Whole
import Storyboard.Proofs.Gate.Projection
import Storyboard.Proofs.Contract.Acceptance
import Storyboard.Proofs.Contract.Admission
import Storyboard.Proofs.Composition.Carriage
import Storyboard.Proofs.Draft.Sizing
import Storyboard.Proofs.Contract.Orderly
import Storyboard.Proofs.Compiler.Carriage
import Storyboard.Proofs.Compiler.Keeping
import Storyboard.Proofs.Binary.Bound
import Storyboard.Proofs.Binary.Tame
import Storyboard.Proofs.Finite
import Storyboard.Proofs.Draft.Room
import Storyboard.Proofs.Draft.Place
import Storyboard.Proofs.Draft.Finite
import Storyboard.Proofs.Draft.FiniteCanvas
import Storyboard.Proofs.Compiler.Finite
import Storyboard.Proofs.Service
import Storyboard.Proofs.Placeholder.Moves
import Storyboard.Proofs.Prompt.Unmarked
import Storyboard.Proofs.Draft.Renumbering
import Storyboard.Proofs.Draft.RenumberingCanvas
import Storyboard.Proofs.Generator
import Storyboard.Proofs.Stamp
import Storyboard.Proofs.Composition.Tracks
import Storyboard.Proofs.Draft.Timely
import Storyboard.Proofs.Compiler.Timeline
import Storyboard.Proofs.Compiler.Steps
import Storyboard.Proofs.Binary.Portion
import Storyboard.Proofs.Draft.Lasting
import Storyboard.Proofs.Compiler.Lasting
import Storyboard.Proofs.Composition.Contents
import Storyboard.Proofs.Session
import Storyboard.Proofs.Prompt.Digits
import Storyboard.Proofs.Draft.Wholeless
import Storyboard.Proofs.Gate.Answerable
import Storyboard.Proofs.Draft.Legible
import Storyboard.Proofs.Compiler.Failing
import Storyboard.Proofs.Binary.Opposite
import Storyboard.Proofs.Standing
import Storyboard.Proofs.Composition.Standing
import Storyboard.Proofs.Compiler.Standing
import Storyboard.Proofs.Compiler.Titles
import Storyboard.Proofs.Compiler.Empty
import Storyboard.Proofs.Compiler.Revising
import Storyboard.Proofs.Assessment
import Storyboard.Proofs.Binary.Half
import Storyboard.Proofs.Binary.Product
import Storyboard.Proofs.Track
import Storyboard.Proofs.Animation
import Storyboard.Proofs.Plan
import Storyboard.Proofs.Edit.Scope
import Storyboard.Proofs.Edit.Arrival
import Storyboard.Proofs.Edit.Departure
import Storyboard.Proofs.Selection
import Storyboard.Proofs.Edit.Reach
import Storyboard.Proofs.Edit.Margin
import Storyboard.Proofs.Edit.Asked
import Storyboard.Proofs.Edit.Scaling
import Storyboard.Proofs.Soundness
import Storyboard.Proofs.Prompt.Keywords
import Storyboard.Proofs.Prompt.Percent
import Storyboard.Proofs.Prompt.Sizes
import Storyboard.Proofs.Prompt.Quotes
import Storyboard.Proofs.Prompt.FirstSeen
import Storyboard.Proofs.Prompt.Colours
import Storyboard.Proofs.Palette
import Storyboard.Proofs.Binary.Part
import Storyboard.Proofs.Artboard
import Storyboard.Proofs.Photo
import Storyboard.Proofs.Arrangement
import Storyboard.Proofs.Draft.Rooted
import Storyboard.Proofs.Edit.Creation
import Storyboard.Proofs.Binary.Natural
import Storyboard.Proofs.Beats
import Storyboard.Proofs.Planning
import Storyboard.Proofs.Placeholder.Addition
import Storyboard.Proofs.Contract.Sorting
import Storyboard.Proofs.Service.Counters
import Storyboard.Proofs.Curve
