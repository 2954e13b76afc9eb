import SlidePress.Source.Node

/-! The text of a node with its white space collapsed, gathered in one pass. The text gathered so
far is kept with its last byte first; a blank goes in only after a byte that is none. -/
namespace SlidePress.Source

/-- A blank at the end of the gathered text, unless it is empty or ends with one. -/
def addBlank (gathered : Text) : Text :=
  match gathered with
  | [] => []
  | last :: _ => if last == ' '.toUInt8 then gathered else ' '.toUInt8 :: gathered

def addByte (gathered : Text) (byte : UInt8) : Text :=
  if Byte.isSpace byte then addBlank gathered else byte :: gathered

mutual

/-- The gathered text after a node: a text adds its bytes, and a line break a blank. -/
def Node.gather : Node → Text → Text
  | ⟨tag, _, text, _, _, children, _, _⟩, gathered =>
      let gathered :=
        match Kind.ofTag tag with
        | .text => text.foldl addByte gathered
        | .lineBreak => addBlank gathered
        | _ => gathered
      gatherAll children gathered

def gatherAll : List Node → Text → Text
  | [], gathered => gathered
  | node :: rest, gathered => gatherAll rest (node.gather gathered)

end

def eraseBlank : Text → Text
  | [] => []
  | first :: rest => if first == ' '.toUInt8 then rest else first :: rest

/-- All text inside a node, words with single blanks between them. -/
def Node.collapsedText (node : Node) : Text :=
  eraseBlank ((node.gather []).dropWhile (· == ' '.toUInt8)).reverse

end SlidePress.Source
