import SlidePress.Html.Node
import SlidePress.Html.Reference

/-! Tokens of a markup text. Every text is a sequence of tokens: what cannot be a tag is a stray
opening bracket, and what is never closed reaches to the end. The content of an element that
holds raw text belongs to the token of its start tag, so that the tokens of a text do not depend
on the tree that is built from them. -/
namespace SlidePress.Html

inductive Token where
  /-- Text up to the next opening bracket, with its references replaced. -/
  | text (content : Text)
  /-- An opening bracket that begins no tag. -/
  | strayBracket
  | comment (closed : Bool)
  /-- A document type or a processing instruction. -/
  | declaration (closed : Bool)
  | endTag (tag : Text)
  | startTag (head : Element) (selfClosing : Bool)
  /-- An element whose content is raw text, up to its end tag. -/
  | rawElement (head : Element) (content : Text) (closed : Bool)

/-- Elements whose content is kept as it stands up to the matching end tag. -/
def rawTextTags : List Text := ["script", "style", "title", "textarea"]

/-- Raw text elements in which references are still replaced. -/
def referenceTags : List Text := ["title", "textarea"]

namespace Token

def isNameByte (byte : UInt8) : Bool :=
  Byte.isAlphanumeric byte || byte == '-'.toUInt8 || byte == '_'.toUInt8 ||
    byte == ':'.toUInt8 || byte == '.'.toUInt8

def isAttributeNameByte (byte : UInt8) : Bool :=
  !(Byte.isSpace byte || byte == '='.toUInt8 || byte == '>'.toUInt8 || byte == '/'.toUInt8)

/-- A value without quotation marks: it ends before white space, a closing bracket, or a slash
that closes the tag. -/
def readBareValue : Text → Text × Text
  | [] => ([], [])
  | byte :: rest =>
      if Byte.isSpace byte || byte == '>'.toUInt8 ||
          (byte == '/'.toUInt8 && rest.head? == some '>'.toUInt8) then
        ([], byte :: rest)
      else
        let (value, left) := readBareValue rest
        (byte :: value, left)

def readValue (text : Text) : Text × Text :=
  match text with
  | quote :: rest =>
      if quote == Byte.doubleQuote || quote == Byte.singleQuote then
        (Text.before quote rest, Text.after quote rest)
      else readBareValue text
  | [] => ([], [])

/-- The value after an attribute name, empty when no equals sign follows. -/
def readAssignment (text : Text) : Text × Text :=
  match Text.trimLeft text with
  | byte :: rest =>
      if byte == '='.toUInt8 then readValue (Text.trimLeft rest) else ([], byte :: rest)
  | [] => ([], [])

theorem length_dropWhile_le (inside : UInt8 → Bool) (text : Text) :
    (text.dropWhile inside).length ≤ text.length :=
  (List.dropWhile_sublist inside).length_le

theorem length_after_le (mark : UInt8) (text : Text) :
    (Text.after mark text).length ≤ text.length := by
  have shorter := length_dropWhile_le (· != mark) text
  simp only [Text.after, List.length_drop]
  omega

theorem length_readBareValue_le (text : Text) : (readBareValue text).2.length ≤ text.length := by
  induction text with
  | nil => simp [readBareValue]
  | cons byte rest step =>
    simp only [readBareValue]
    split
    · exact Nat.le_refl _
    · exact Nat.le_succ_of_le step

theorem length_readValue_le (text : Text) : (readValue text).2.length ≤ text.length := by
  cases text with
  | nil => simp [readValue]
  | cons quote rest =>
    simp only [readValue]
    split
    · exact Nat.le_succ_of_le (length_after_le quote rest)
    · exact length_readBareValue_le _

theorem length_readAssignment_le (text : Text) :
    (readAssignment text).2.length ≤ text.length := by
  have trimmed : (Text.trimLeft text).length ≤ text.length := length_dropWhile_le _ text
  unfold readAssignment
  split
  · rename_i byte rest same
    rw [same] at trimmed
    split
    · have inner : (Text.trimLeft rest).length ≤ rest.length := length_dropWhile_le _ rest
      have value := length_readValue_le (Text.trimLeft rest)
      simp only [List.length_cons] at trimmed
      omega
    · exact trimmed
  · simp

/-- The attributes of a tag up to its end, whether the tag closes itself, and what follows it. The
first of two attributes with the same name counts. A byte that fits nowhere is passed over. -/
def readAttributes (found : Properties) (text : Text) : Properties × Bool × Text :=
  match _same : Text.trimLeft text with
  | [] => (found, false, [])
  | byte :: rest =>
      if byte == '>'.toUInt8 then (found, false, rest)
      else if byte == '/'.toUInt8 && rest.head? == some '>'.toUInt8 then (found, true, rest.drop 1)
      else
        let name := (byte :: rest).takeWhile isAttributeNameByte
        if name.isEmpty then readAttributes found rest
        else
          let assigned := readAssignment (rest.dropWhile isAttributeNameByte)
          readAttributes (found.insertNew (Text.lower name) (Reference.decode assigned.1))
            assigned.2
termination_by text.length
decreasing_by
  all_goals
    have trimmed : (Text.trimLeft text).length ≤ text.length := length_dropWhile_le _ text
    rw [_same, List.length_cons] at trimmed
  · omega
  · have value := length_readAssignment_le (rest.dropWhile isAttributeNameByte)
    have name := length_dropWhile_le isAttributeNameByte rest
    omega

theorem length_readAttributes_le (found : Properties) (text : Text) :
    (readAttributes found text).2.2.length ≤ text.length := by
  fun_induction readAttributes found text with
  | case1 => simp
  | case2 found text byte rest same _ =>
    have trimmed : (Text.trimLeft text).length ≤ text.length := length_dropWhile_le _ text
    rw [same, List.length_cons] at trimmed
    simp only
    omega
  | case3 found text byte rest same _ _ =>
    have trimmed : (Text.trimLeft text).length ≤ text.length := length_dropWhile_le _ text
    rw [same, List.length_cons] at trimmed
    simp only [List.length_drop]
    omega
  | case4 found text byte rest same _ _ _ _ step =>
    have trimmed : (Text.trimLeft text).length ≤ text.length := length_dropWhile_le _ text
    rw [same, List.length_cons] at trimmed
    omega
  | case5 found text byte rest same _ _ _ _ assigned step =>
    have trimmed : (Text.trimLeft text).length ≤ text.length := length_dropWhile_le _ text
    rw [same, List.length_cons] at trimmed
    have value : assigned.2.length ≤ _ :=
      length_readAssignment_le (rest.dropWhile isAttributeNameByte)
    have name := length_dropWhile_le isAttributeNameByte rest
    omega

/-- The content before an end tag, and the text from that end tag on. -/
def splitAtEndTag? (tag : Text) : Text → Option (Text × Text)
  | [] => none
  | byte :: rest =>
      if ("</" ++ tag).isPrefixOf (Text.lower ((byte :: rest).take (tag.length + 2))) then
        some ([], byte :: rest)
      else (splitAtEndTag? tag rest).map fun (content, left) => (byte :: content, left)

/-- The token of a start tag that is not closed in itself and holds raw text. -/
def readRaw (head : Element) (text : Text) : Token × Text :=
  let (content, left, closed) :=
    match splitAtEndTag? head.tag text with
    | some (content, left) => (content, Text.after '>'.toUInt8 left, true)
    | none => (text, [], false)
  let content :=
    if referenceTags.contains head.tag then Reference.decode content else content
  (.rawElement head content closed, left)

def readHead (name text : Text) : Token × Text :=
  let (attributes, selfClosing, rest) := readAttributes ∅ text
  let head : Element := ⟨Text.lower name, attributes⟩
  if !selfClosing && rawTextTags.contains head.tag then readRaw head rest
  else (.startTag head selfClosing, rest)

/-- A start tag after its opening bracket; none when no name follows. -/
def readStartTag? (text : Text) : Option (Token × Text) :=
  let name := text.takeWhile isNameByte
  if name.isEmpty then none else some (readHead name (text.dropWhile isNameByte))

/-- An end tag after its slash. Whatever stands between its name and its bracket is dropped. -/
def readEndTag (text : Text) : Token × Text :=
  let (name, rest) := Text.cut isNameByte (Text.trimLeft text)
  (.endTag (Text.lower name), Text.after '>'.toUInt8 rest)

def readComment (text : Text) : Token × Text :=
  match Text.splitAtWord? "-->" text with
  | some (_, rest) => (.comment true, rest)
  | none => (.comment false, [])

def readDeclaration (text : Text) : Token × Text :=
  match Text.splitAtByte? '>'.toUInt8 text with
  | some (_, rest) => (.declaration true, rest)
  | none => (.declaration false, [])

def readMarkup (text : Text) : Token × Text :=
  if ("!--" : Text).isPrefixOf text then readComment (text.drop 3)
  else if ("/" : Text).isPrefixOf text then readEndTag (text.drop 1)
  else if ("!" : Text).isPrefixOf text || ("?" : Text).isPrefixOf text then
    readDeclaration (text.drop 1)
  else (readStartTag? text).getD (.strayBracket, text)

def read (first : UInt8) (rest : Text) : Token × Text :=
  if first == '<'.toUInt8 then readMarkup rest
  else
    let (content, left) := Text.cut (· != '<'.toUInt8) (first :: rest)
    (.text (Reference.decode content), left)

theorem length_splitAtEndTag?_le {tag text content left : Text}
    (found : splitAtEndTag? tag text = some (content, left)) : left.length ≤ text.length := by
  induction text generalizing content with
  | nil => simp [splitAtEndTag?] at found
  | cons byte rest step =>
    simp only [splitAtEndTag?] at found
    split at found
    · simp only [Option.some.injEq, Prod.mk.injEq] at found
      simp [← found.2]
    · obtain ⟨⟨inner, tail⟩, inside, equal⟩ := Option.map_eq_some_iff.mp found
      simp only [Prod.mk.injEq] at equal
      obtain ⟨_, rfl⟩ := equal
      exact Nat.le_succ_of_le (step inside)

theorem length_readRaw_le (head : Element) (text : Text) :
    (readRaw head text).2.length ≤ text.length := by
  unfold readRaw
  split
  rename_i content left closed same
  split at same
  · rename_i content' left' found
    simp only [Prod.mk.injEq] at same
    have shorter := length_splitAtEndTag?_le found
    have close := length_after_le '>'.toUInt8 left'
    simp only [← same.2.1]
    omega
  · simp only [Prod.mk.injEq] at same
    simp [← same.2.1]

theorem length_readHead_le (name text : Text) : (readHead name text).2.length ≤ text.length := by
  have attributes := length_readAttributes_le ∅ text
  unfold readHead
  split
  rename_i found selfClosing rest same
  rw [same] at attributes
  simp only
  split
  · exact Nat.le_trans (length_readRaw_le _ rest) attributes
  · exact attributes

theorem length_readStartTag?_le {text : Text} {result : Token × Text}
    (found : readStartTag? text = some result) : result.2.length ≤ text.length := by
  unfold readStartTag? at found
  simp only at found
  split at found
  · cases found
  · simp only [Option.some.injEq] at found
    rw [← found]
    exact Nat.le_trans (length_readHead_le _ _) (length_dropWhile_le isNameByte text)

theorem length_readComment_le (text : Text) : (readComment text).2.length ≤ text.length := by
  unfold readComment
  split
  · rename_i found
    exact Text.length_splitAtWord?_le found
  · simp

theorem length_readDeclaration_le (text : Text) :
    (readDeclaration text).2.length ≤ text.length := by
  unfold readDeclaration
  split
  · rename_i found
    have whole := (Text.splitAtByte?_eq_some found).1
    simp only [whole, List.length_append, List.length_cons]
    omega
  · simp

theorem length_readEndTag_le (text : Text) : (readEndTag text).2.length ≤ text.length := by
  have spaces : (Text.trimLeft text).length ≤ text.length := length_dropWhile_le _ text
  have name := length_dropWhile_le isNameByte (Text.trimLeft text)
  have close := length_after_le '>'.toUInt8 ((Text.trimLeft text).dropWhile isNameByte)
  simp only [readEndTag, Text.cut]
  omega

theorem length_readMarkup_le (text : Text) : (readMarkup text).2.length ≤ text.length := by
  unfold readMarkup
  split
  · exact Nat.le_trans (length_readComment_le _) (by simp)
  · split
    · exact Nat.le_trans (length_readEndTag_le _) (by simp)
    · split
      · exact Nat.le_trans (length_readDeclaration_le _) (by simp)
      · cases found : readStartTag? text with
        | none => simp
        | some result => exact length_readStartTag?_le found

/-- A token takes at least the first byte. -/
theorem length_read_le (first : UInt8) (rest : Text) :
    (read first rest).2.length ≤ rest.length := by
  unfold read
  split
  · exact length_readMarkup_le rest
  · rename_i other
    have keep : (first != '<'.toUInt8) = true := by simpa using other
    simp only [Text.cut, List.dropWhile_cons, keep, if_true]
    exact length_dropWhile_le _ rest

def readAll (text : Text) : List Token :=
  match text with
  | [] => []
  | first :: rest => (read first rest).1 :: readAll (read first rest).2
termination_by text.length
decreasing_by exact Nat.lt_succ_of_le (length_read_le first rest)

end Token

end SlidePress.Html
