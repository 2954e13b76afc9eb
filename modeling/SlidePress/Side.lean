import SlidePress.Text.Basic

/-! The four sides of a box. -/
namespace SlidePress

inductive Side where
  | top
  | right
  | bottom
  | left
  deriving DecidableEq, Repr

namespace Side

/-- The sides in the order in which shorthands list them. -/
def all : List Side := [.top, .right, .bottom, .left]

theorem mem_all (side : Side) : side ∈ all := by
  cases side <;> decide

def name : Side → Text
  | .top => "top"
  | .right => "right"
  | .bottom => "bottom"
  | .left => "left"

end Side

end SlidePress
