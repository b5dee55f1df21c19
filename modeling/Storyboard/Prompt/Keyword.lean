import Storyboard.Text.Phrase
/-!
# Keywords

The words that a prompt is searched for, each with the phrases that raise it.
-/

namespace Storyboard

/-- What a prompt can mention. -/
inductive Keyword where
  | add | makeA | new | draw
  | animate | loop | play | pause | bounce | dance | spin | pulse | fade | move | walk | run
  | wave | idle | float
  | pan | zoom | camera | kenBurns | parallax | glow
  | left | right | up | down | center | leftmost | rightmost | topmost | bottommost | largest
  | smallest | small | large
  | background | foreground | subject | existing | all
  | scene | sunset | ocean | city | forest | mountain | desert | space | studio | neon | night
  | snow | rain | clouds | stars | moon | river | lake | meadow
  | character | robot | animal
  | circle | rect | text | path | blob | wavePath | spiral | heart | starShape | polygon
  | zigzag
  | stroke | fill | bigger | smaller | grid | column | row | gradient | pastel | bold | minimal
  | flat | outline | dark | light
  | photo | silhouette | boundingBox | textOnPath
  deriving DecidableEq, Repr

namespace Keyword

/-- The name of a keyword and the phrases that mention it. -/
def entry : Keyword → String × List String
  | .add => ("add", ["add", "create", "draw", "insert", "generate"])
  | .makeA => ("makeA", ["make a", "make an", "make another", "make new"])
  | .new => ("new", ["new"])
  | .draw => ("draw", ["draw", "sketch", "trace"])
  | .animate => ("animate", ["animate", "animation", "loop", "motion"])
  | .loop => ("loop", ["loop", "repeat", "seamless"])
  | .play => ("play", ["play", "start"])
  | .pause => ("pause", ["pause", "stop"])
  | .bounce => ("bounce", ["bounce", "bouncy", "jump"])
  | .dance => ("dance", ["dance", "groove"])
  | .spin => ("spin", ["spin", "rotate", "twirl"])
  | .pulse => ("pulse", ["pulse", "pulsate", "throb"])
  | .fade => ("fade", ["fade", "fading", "fades"])
  | .move => ("move", ["move", "travel", "slide", "across"])
  | .walk => ("walk", ["walk", "walks", "walking", "stroll"])
  | .run => ("run", ["run", "running", "sprint"])
  | .wave => ("wave", ["wave", "waves", "waving"])
  | .idle => ("idle", ["idle", "breathing", "still"])
  | .float => ("float", ["float", "drift", "hover"])
  | .pan => ("pan", ["pan", "panning"])
  | .zoom => ("zoom", ["zoom", "zooming"])
  | .camera => ("camera", ["camera", "cinematic", "shot"])
  | .kenBurns => ("kenBurns", ["ken burns", "pan and zoom", "pan", "zoom"])
  | .parallax => ("parallax", ["parallax", "depth"])
  | .glow => ("glow", ["glow", "glowing", "neon"])
  | .left => ("left", ["left"])
  | .right => ("right", ["right"])
  | .up => ("up", ["up", "top"])
  | .down => ("down", ["down", "bottom"])
  | .center => ("center", ["center", "centre", "middle"])
  | .leftmost => ("leftmost", ["leftmost"])
  | .rightmost => ("rightmost", ["rightmost"])
  | .topmost => ("topmost", ["topmost"])
  | .bottommost => ("bottommost", ["bottommost"])
  | .largest => ("largest", ["largest", "biggest"])
  | .smallest => ("smallest", ["smallest", "tiny"])
  | .small => ("small", ["small"])
  | .large => ("large", ["large"])
  | .background => ("background", ["background", "bg"])
  | .foreground => ("foreground", ["foreground", "front"])
  | .subject => ("subject", ["subject", "person", "main"])
  | .existing => ("existing", ["existing", "current", "selected"])
  | .all => ("all", ["all", "everything", "entire"])
  | .scene => ("scene", ["scene", "landscape", "environment"])
  | .sunset => ("sunset", ["sunset", "sunrise", "dawn", "dusk"])
  | .ocean => ("ocean", ["ocean", "sea", "beach"])
  | .city => ("city", ["city", "buildings", "skyline"])
  | .forest => ("forest", ["forest", "woods", "trees", "pine"])
  | .mountain => ("mountain", ["mountain", "mountains", "hills", "peaks"])
  | .desert => ("desert", ["desert", "dunes", "cactus"])
  | .space => ("space", ["space", "galaxy", "cosmos", "nebula"])
  | .studio => ("studio", ["studio", "room", "stage", "interior"])
  | .neon => ("neon", ["neon", "cyberpunk", "synth"])
  | .night => ("night", ["night", "midnight", "nighttime"])
  | .snow => ("snow", ["snow", "winter", "frost"])
  | .rain => ("rain", ["rain", "storm", "thunder"])
  | .clouds => ("clouds", ["cloud", "clouds"])
  | .stars => ("stars", ["stars", "starry", "starlit"])
  | .moon => ("moon", ["moon"])
  | .river => ("river", ["river", "stream"])
  | .lake => ("lake", ["lake"])
  | .meadow => ("meadow", ["meadow", "meadows", "fields", "grass", "grassland", "grassy"])
  | .character => ("character", [
      "character", "person", "human", "rider", "girl", "boy", "man", "woman"])
  | .robot => ("robot", ["robot", "android", "bot"])
  | .animal => ("animal", ["animal", "cat", "dog", "bird", "horse", "fox", "owl", "wolf"])
  | .circle => ("circle", ["circle", "circles", "ball", "balls", "orb", "orbs"])
  | .rect => ("rect", [
      "rect", "rects", "rectangle", "rectangles", "square", "squares", "box", "boxes"])
  | .text => ("text", ["text", "title", "label"])
  | .path => ("path", ["path", "curve", "bezier", "vector"])
  | .blob => ("blob", ["blob", "goo", "amoeba"])
  | .wavePath => ("wavePath", ["wave", "waves", "sine"])
  | .spiral => ("spiral", ["spiral", "swirl", "twist"])
  | .heart => ("heart", ["heart", "love"])
  | .starShape => ("starShape", ["star", "sparkle"])
  | .polygon => ("polygon", ["polygon", "triangle", "hexagon", "octagon"])
  | .zigzag => ("zigzag", ["zigzag", "zig-zag"])
  | .stroke => ("stroke", ["stroke", "outline", "border"])
  | .fill => ("fill", ["fill"])
  | .bigger => ("bigger", ["bigger", "larger", "increase", "grow"])
  | .smaller => ("smaller", ["smaller", "decrease", "shrink"])
  | .grid => ("grid", ["grid"])
  | .column => ("column", ["column", "vertical"])
  | .row => ("row", ["row", "horizontal"])
  | .gradient => ("gradient", ["gradient", "ombre"])
  | .pastel => ("pastel", ["pastel", "soft"])
  | .bold => ("bold", ["bold", "thick", "chunky"])
  | .minimal => ("minimal", ["minimal", "clean", "simple"])
  | .flat => ("flat", ["flat", "2d"])
  | .outline => ("outline", ["outline", "lineart", "wireframe"])
  | .dark => ("dark", ["dark", "night", "moody"])
  | .light => ("light", ["light", "bright"])
  | .photo => ("photo", ["photo", "photograph", "image", "picture", "portrait", "selfie"])
  | .silhouette => ("silhouette", ["silhouette", "cutout"])
  | .boundingBox => ("boundingBox", ["bounding box", "bbox", "selection box"])
  | .textOnPath => ("textOnPath", ["text on path", "text along", "label along", "type on path"])

def name (k : Keyword) : String := k.entry.1

def phrases (k : Keyword) : List (List Char) := k.entry.2.map String.toList

/-- Every keyword. -/
def inventory : List Keyword := [
  .add, .makeA, .new, .draw, .animate, .loop, .play, .pause, .bounce, .dance, .spin, .pulse,
  .fade, .move, .walk, .run, .wave, .idle, .float, .pan, .zoom, .camera, .kenBurns, .parallax,
  .glow, .left, .right, .up, .down, .center, .leftmost, .rightmost, .topmost, .bottommost,
  .largest, .smallest, .small, .large, .background, .foreground, .subject, .existing, .all,
  .scene, .sunset, .ocean, .city, .forest, .mountain, .desert, .space, .studio, .neon, .night,
  .snow, .rain, .clouds, .stars, .moon, .river, .lake, .meadow, .character, .robot, .animal,
  .circle, .rect, .text, .path, .blob, .wavePath, .spiral, .heart, .starShape, .polygon, .zigzag,
  .stroke, .fill, .bigger, .smaller, .grid, .column, .row, .gradient, .pastel, .bold, .minimal,
  .flat, .outline, .dark, .light, .photo, .silhouette, .boundingBox, .textOnPath]

theorem mem_inventory (k : Keyword) : k ∈ inventory := by
  cases k <;> decide

/-- A text mentions a keyword when it holds one of its phrases as whole words. -/
def isIn (k : Keyword) (cs : List Char) : Bool := k.phrases.any (Text.mentions cs)

end Keyword

end Storyboard
