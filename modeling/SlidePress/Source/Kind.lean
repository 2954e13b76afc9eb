import SlidePress.Text.Basic

/-! What a tag means for a slide. -/
namespace SlidePress.Source

inductive Kind where
  | text
  | paragraph
  | heading
  | list
  | listItem
  | inline
  | lineBreak
  | image
  | container
  deriving DecidableEq, Repr

namespace Kind

def headingTags : List Text := ["h1", "h2", "h3", "h4", "h5", "h6"]

def inlineTags : List Text :=
  ["span", "b", "strong", "i", "em", "u", "s", "a", "code", "small", "sub", "sup", "mark", "label",
    "abbr", "cite", "q", "del", "ins"]

def ofTag (tag : Text) : Kind :=
  if tag == "#text" then .text
  else if tag == "p" then .paragraph
  else if headingTags.contains tag then .heading
  else if tag == "ul" || tag == "ol" then .list
  else if tag == "li" then .listItem
  else if tag == "br" then .lineBreak
  else if tag == "img" then .image
  else if inlineTags.contains tag then .inline
  else .container

def name : Kind → Text
  | .text => "text"
  | .paragraph => "paragraph"
  | .heading => "heading"
  | .list => "list"
  | .listItem => "list-item"
  | .inline => "inline"
  | .lineBreak => "line-break"
  | .image => "image"
  | .container => "container"

end Kind

end SlidePress.Source
