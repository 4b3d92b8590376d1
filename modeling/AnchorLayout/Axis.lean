/-!
# Axes

Anchor names tell along which axis a number lies: `left` and `right` are
horizontal, `top` and `bottom` vertical. Which names do is configured
(`AxisConfig`); all other names, such as `width`, fit either axis.
-/

namespace AnchorLayout

/-- The axes of the plane. -/
inductive Axis where
  | x
  | y
  deriving DecidableEq, Repr

namespace Axis

/-- The name of an axis. -/
def name : Axis → String
  | .x => "x"
  | .y => "y"

/-- The axis of a name. -/
def ofName? (s : String) : Option Axis :=
  if s == "x" then some .x else if s == "y" then some .y else none

/-- The name of an axis with its article. -/
def withArticle : Axis → String
  | .x => "an x-axis"
  | .y => "a y-axis"

end Axis

/-- The anchor names that belong to an axis. -/
structure AxisConfig where
  horizontal : List String
  vertical : List String

namespace AxisConfig

/-- The names that belong to an axis unless another choice is made. -/
def standard : AxisConfig where
  horizontal := ["left", "right", "centerX", "startX", "endX"]
  vertical := ["top", "bottom", "centerY", "startY", "endY"]

/-- The axis that an anchor name belongs to. A name that is given for both is
    horizontal. -/
def axisOf (config : AxisConfig) (anchor : String) : Option Axis :=
  if config.horizontal.contains anchor then some .x
  else if config.vertical.contains anchor then some .y
  else none

end AxisConfig

end AnchorLayout
