import Storyboard.Figure.Rig
/-!
# Motions of figures

Keyframes timed by the beats of a plan. A motion that needs limbs is empty for a figure without
them, which then idles.
-/

namespace Storyboard

/-- A way for a figure to move. -/
inductive Motion where
  | idle | wave | walk | bounce | spin | pulse | waveAndIdle
  deriving DecidableEq, Repr

namespace Motion

open Storyboard.Action (key)

variable {α : Type} [Scalar α]

def inventory : List (String × Motion) := [
  ("idle", idle), ("wave", wave), ("walk", walk), ("bounce", bounce), ("spin", spin),
  ("pulse", pulse), ("wave_and_idle", waveAndIdle)]

def ofName? (name : String) : Option Motion := (inventory.find? (·.1 = name)).map (·.2)

/-- A slow rise and fall. -/
def idling (rig : Rig α) (b : Beats α) : List (Action α) :=
  if rig.group = "" then []
  else [
    key rig.group "y" b.intro.start rig.y,
    key rig.group "y" b.action.mid (rig.y - 6.0) "ease-in-out",
    key rig.group "y" b.settle.finish rig.y]

/-- The right arm lifts once the intro is over and is lowered by the settle beat. -/
def waving (rig : Rig α) (b : Beats α) : List (Action α) :=
  match rig.limb .armRight with
  | none => []
  | some arm => [
      key arm "rotation" b.intro.finish 0.0,
      key arm "rotation" b.action.mid (-35.0) "ease-in-out",
      key arm "rotation" b.settle.start 0.0]

/-- A limb that swings to the other side and back. -/
def swing (limb : String) (angle : α) (b : Beats α) : List (Action α) := [
  key limb "rotation" b.intro.start angle,
  key limb "rotation" b.action.mid (-angle) "ease-in-out",
  key limb "rotation" b.settle.finish angle]

/-- A stride across the artboard during intro and action; then the figure stands still. -/
def walking (rig : Rig α) (b : Beats α) : List (Action α) :=
  match rig.limb .legLeft, rig.limb .legRight, rig.limb .armLeft, rig.limb .armRight with
  | some legLeft, some legRight, some armLeft, some armRight =>
    if rig.group = "" then []
    else
      swing legLeft (-20.0) b ++ swing legRight 20.0 b
        ++ swing armLeft 15.0 b ++ swing armRight (-15.0) b
        ++ [key rig.group "x" b.intro.start (rig.x - 140.0),
          key rig.group "x" b.settle.start (rig.x + 140.0) "ease-in-out",
          key rig.group "y" b.intro.start rig.y,
          key rig.group "y" b.intro.finish (rig.y - 4.0) "ease-in-out",
          key rig.group "y" b.action.mid rig.y,
          key rig.group "y" b.settle.start (rig.y - 4.0) "ease-in-out",
          key rig.group "y" b.settle.finish rig.y]
  | _, _, _, _ => []

/-- The peak is in the action beat; the figure lands as the settle beat begins. -/
def bouncing (rig : Rig α) (b : Beats α) : List (Action α) := [
  key rig.group "y" b.intro.start rig.y,
  key rig.group "y" b.intro.finish rig.y,
  key rig.group "y" b.action.mid (rig.y - 40.0) "ease-out",
  key rig.group "y" b.settle.start rig.y "ease-in",
  key rig.group "y" b.settle.finish rig.y]

def spinning (rig : Rig α) (b : Beats α) : List (Action α) := [
  key rig.group "rotation" b.intro.finish 0.0,
  key rig.group "rotation" b.settle.start 360.0 "ease-in-out"]

def pulsing (rig : Rig α) (b : Beats α) : List (Action α) := [
  key rig.group "scale" b.intro.start 1.0,
  key rig.group "scale" b.action.mid 1.1,
  key rig.group "scale" b.settle.finish 1.0]

/-- The keyframes of a motion. -/
def keyframes : Motion → Rig α → Beats α → List (Action α)
  | idle => idling
  | wave => waving
  | walk => walking
  | bounce => bouncing
  | spin => spinning
  | pulse => pulsing
  | waveAndIdle => fun rig b => waving rig b ++ idling rig b

/-- Some motions move the group whatever its id. -/
def movesGroup : Motion → Bool
  | bounce | spin | pulse => true
  | _ => false

/-- The keyframes of a motion for a figure given by its parts. -/
def ofParts (m : Motion) (parts : Fields α) (b : Beats α) : Except Fault (List (Action α)) := do
  if m.movesGroup && (Fields.get? parts "group").isNone then throw (.missingPart "group")
  let rig ← Rig.ofParts parts
  return m.keyframes rig b

/-- The motion that a preset stands for. -/
def ofPreset : MotionPreset → Motion
  | .walk => walk
  | .wave => waveAndIdle
  | .idle | .none => idle
  | .bounce => bounce
  | .spin => spin
  | .pulse => pulse

/-- The motion of a figure: that of the preset, or idling when the figure cannot follow it. -/
def ofRig (preset : MotionPreset) (rig : Rig α) (b : Beats α) : List (Action α) :=
  match (ofPreset preset).keyframes rig b with
  | [] => idling rig b
  | ks => ks

end Motion

/-- The figure of a plan, in motion. -/
def Rig.animated {α : Type} [Scalar α] (p : Plan α) (n : Nat) : Draft α :=
  let still := Rig.draft p n
  { still with actions := still.actions ++ Motion.ofRig p.motion (Rig.ofPlan p n) p.beats }

end Storyboard
