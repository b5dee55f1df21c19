import Storyboard.Value
/-!
# Names of actions

The actions that the editor knows, by their names on the wire.
-/

namespace Storyboard

/-- The actions that the editor knows. -/
inductive ActionName where
  | addElement | updateElement | setArtboard | addKeyframe
  | setDuration | setTime | setSpeed | setPlaying
  | group | reparent | toFront | toBack | forward | backward
  deriving DecidableEq, Repr

namespace ActionName

def text : ActionName → String
  | addElement => "ADD_ELEMENT"
  | updateElement => "UPDATE_ELEMENT_PROPS"
  | setArtboard => "SET_ARTBOARD_PROPS"
  | addKeyframe => "ADD_KEYFRAME"
  | setDuration => "UPDATE_ANIMATION_DURATION"
  | setTime => "SET_CURRENT_TIME"
  | setSpeed => "SET_PLAYBACK_SPEED"
  | setPlaying => "SET_IS_PLAYING"
  | group => "GROUP_ELEMENT"
  | reparent => "REPARENT_ELEMENT"
  | toFront => "BRING_TO_FRONT"
  | toBack => "SEND_TO_BACK"
  | forward => "BRING_FORWARD"
  | backward => "SEND_BACKWARD"

def inventory : List ActionName := [
  addElement, updateElement, setArtboard, addKeyframe, setDuration, setTime, setSpeed,
  setPlaying, group, reparent, toFront, toBack, forward, backward]

def ofText? (s : String) : Option ActionName := inventory.find? fun n => n.text = s

/-- The name of an action on the wire. -/
def ofValue? {α : Type} (action : Value α) : Option ActionName :=
  ((action.field? "type").bind Value.text?).bind ofText?

end ActionName

end Storyboard
