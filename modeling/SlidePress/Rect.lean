/-! Rectangles, by their top left corner and their size. -/
namespace SlidePress

structure Rect (α : Type) where
  x : α
  y : α
  width : α
  height : α

namespace Rect

variable {α β : Type}

def right [Add α] (rect : Rect α) : α := rect.x + rect.width

def bottom [Add α] (rect : Rect α) : α := rect.y + rect.height

def map (change : α → β) (rect : Rect α) : Rect β :=
  ⟨change rect.x, change rect.y, change rect.width, change rect.height⟩

end Rect

end SlidePress
