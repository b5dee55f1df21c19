import Storyboard.Scalar
/-!
# Curves

Path data drawn around the origin: blobs, waves, spirals and the outlines of landscapes. A curve
is a row of commands; its text has one numeral for each coordinate, rounded to two places.
-/

namespace Storyboard.Curve

variable {α : Type}

/-- A point of a curve. -/
abbrev Point (α : Type) := α × α

/-- A command of path data. -/
inductive Command (α : Type) where
  | move (p : Point α)
  | line (p : Point α)
  | quadratic (control p : Point α)
  | cubic (first second p : Point α)
  | smooth (p : Point α)
  | close

/-- A full turn is twice this. -/
def pi [OfScientific α] : α := 3.141592653589793

variable [Scalar α]

/-- A coordinate rounded to two places. -/
def coordinate (x : α) : String :=
  match Scalar.toRat? x with
  | some q => Decimal.hundredths (Decimal.atPlaces 2 q)
  | none => Scalar.text x

def pointText (p : Point α) : String := coordinate p.1 ++ "," ++ coordinate p.2

def Command.text : Command α → String
  | move p => "M" ++ pointText p
  | line p => "L" ++ pointText p
  | quadratic c p => "Q" ++ pointText c ++ " " ++ pointText p
  | cubic a b p => "C" ++ pointText a ++ " " ++ pointText b ++ " " ++ pointText p
  | smooth p => "T" ++ pointText p
  | close => "Z"

/-- The path data of a row of commands. -/
def render (commands : List (Command α)) : String := " ".intercalate (commands.map Command.text)

def polar (angle r : α) : Point α := (Scalar.cos angle * r, Scalar.sin angle * r)

def midpoint (p q : Point α) : Point α := ((p.1 + q.1) / 2.0, (p.2 + q.2) / 2.0)

/-- The outline points of a blob. -/
def blobPoints (radius : α) (lobes : Nat) : List (Point α) :=
  (List.range lobes).map fun index =>
    let angle : α := pi * 2.0 * Scalar.ofNat index / Scalar.ofNat lobes
    polar angle (radius * (1.0 + 0.18 * Scalar.sin (angle * 2.0)))

/-- A closed curve through the midpoints of its outline. -/
def blob (radius : α) (lobes : Int) : List (Command α) :=
  match blobPoints radius lobes.toNat with
  | [] => [.move (0.0, 0.0)]
  | first :: rest =>
    let points := first :: rest
    [.move first]
      ++ (points.zip (rest ++ [first])).map (fun (p, next) => .quadratic p (midpoint p next))
      ++ [.close]

/-- Arches above and below the axis; `x` is where the next one starts. -/
def arches (amplitude step : α) (index : Nat) (x : α) : Nat → List (Command α)
  | 0 => []
  | n + 1 =>
    let crest := if index % 2 = 0 then -amplitude else amplitude
    .quadratic (x + step / 2.0, crest) (x + step, 0.0)
      :: arches amplitude step (index + 1) (x + step) n

/-- A wave along the axis, two arches to a cycle. -/
def wave (width amplitude : α) (cycles : Int) : List (Command α) :=
  let segments := (max 1 cycles).toNat * 2
  let x := -width / 2.0
  .move (x, 0.0) :: arches amplitude (width / Scalar.ofNat segments) 0 x segments

/-- A spiral that opens outwards from the origin. -/
def spiral (turns radius : α) (points : Int) : List (Command α) :=
  let total := (max 12 points).toNat
  .move (0.0, 0.0) :: (List.range (total + 1)).map fun index =>
    let t : α := Scalar.ofNat index / Scalar.ofNat total
    let angle := turns * pi * 2.0 * t
    .line (Scalar.cos angle * radius * t, Scalar.sin angle * radius * t)

def heart (size : α) : List (Command α) :=
  let s := size / 2.0
  [.move (0.0, s * 0.35),
    .cubic (s * -0.9, s * -0.6) (s * -1.6, s * 0.6) (0.0, s * 1.4),
    .cubic (s * 1.6, s * 0.6) (s * 0.9, s * -0.6) (0.0, s * 0.35),
    .close]

/-- A star whose points alternate between two circles. -/
def star (points : Int) (outer inner : α) : List (Command α) :=
  let count := (max 2 points).toNat
  let step : α := pi / Scalar.ofNat count
  (List.range (count * 2)).map (fun index =>
    let r := if index % 2 = 0 then outer else inner
    let p := polar (Scalar.ofNat index * step - pi / 2.0) r
    if index = 0 then .move p else .line p) ++ [.close]

/-- An open line over half the width, alternating above and below the axis. -/
def zigzag (width height : α) (peaks : Int) : List (Command α) :=
  let count := (max 3 peaks).toNat
  let half := width * 0.25
  let step := (half * 2.0) / Scalar.ofNat (count - 1)
  [.move (-half, 0.0)]
    ++ (List.range (count - 2)).map (fun i =>
      let index := i + 1
      let y := if index % 2 = 1 then -height * 0.08 else height * 0.08
      .line (-half + step * Scalar.ofNat index, y))
    ++ [.line (half, 0.0)]

/-- A ridge with its foot, as wide as given and centred. -/
def mountain (width height : α) : List (Command α) :=
  let half := width / 2.0
  [.move (-half, height * 0.6), .line (-half * 0.6, height * 0.15),
    .line (-half * 0.1, height * 0.65), .line (half * 0.1, height * 0.2),
    .line (half * 0.6, height * 0.7), .line (half, height * 0.4), .line (half, height),
    .line (-half, height), .close]

def cloud (w h : α) : List (Command α) :=
  [.move (-w * 0.35, h * 0.2),
    .cubic (-w * 0.55, h * -0.1) (-w * 0.15, h * -0.4) (0.0, h * -0.1),
    .cubic (w * 0.05, h * -0.45) (w * 0.45, h * -0.35) (w * 0.4, h * -0.05),
    .cubic (w * 0.6, h * 0.05) (w * 0.55, h * 0.4) (w * 0.2, h * 0.35),
    .line (-w * 0.35, h * 0.35), .close]

def dune (width height : α) : List (Command α) :=
  let half := width / 2.0
  [.move (-half, height), .quadratic (-half * 0.5, height * 0.2) (0.0, height * 0.6),
    .smooth (half, height * 0.4), .line (half, height), .close]

end Storyboard.Curve
