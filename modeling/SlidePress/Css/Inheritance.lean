import SlidePress.Table

/-! Inherited properties. Decorations are counted among them: they show on all text inside an
element. -/
namespace SlidePress.Css

def inheritedProperties : List Text :=
  ["color", "font-family", "font-size", "font-style", "font-weight", "line-height", "text-align",
    "text-transform", "letter-spacing", "white-space", "visibility", "list-style-type",
    "text-decoration"]

def isInherited (property : Text) : Bool :=
  inheritedProperties.contains property

/-- One entry of the parent's style passed on: to a style without the property, or to one that
asks for it. -/
def passOn (style : Properties) (entry : Text × Text) : Properties :=
  match style.get? entry.1 with
  | none => style.insert entry.1 entry.2
  | some value =>
      if Text.keyword value == "inherit" then style.insert entry.1 entry.2 else style

def inherit (parent style : Properties) : Properties :=
  (parent.filterKeys isInherited).entries.foldl passOn style

end SlidePress.Css
