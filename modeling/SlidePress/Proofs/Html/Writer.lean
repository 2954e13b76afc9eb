import SlidePress.Html.Tree
import SlidePress.Proofs.Text.Marks

/-! The plain writer of markup. Texts and values are written with the bytes that would end them
replaced by references, the content of scripts and style sheets stands as it is, and an element
without content has no end tag. The second half says what reading makes of the pieces: references
give back what they stand for, and no escaped piece holds the byte that ends it. -/

namespace SlidePress.Html

def escapeByte (mark : UInt8) (reference : Text) (byte : UInt8) : Text :=
  if byte == '&'.toUInt8 then "&amp;" else if byte == mark then reference else [byte]

def escape (mark : UInt8) (reference text : Text) : Text :=
  text.flatMap (escapeByte mark reference)

def escapeText (text : Text) : Text := escape '<'.toUInt8 "&lt;" text

def escapeValue (value : Text) : Text := escape Byte.doubleQuote "&quot;" value

def verbatimTags : List Text := ["script", "style"]

def writeAttributes (entries : List (Text × Text)) : Text :=
  entries.flatMap fun (name, value) => " " ++ name ++ "=\"" ++ escapeValue value ++ "\""

def writeText (parent content : Text) : Text :=
  if verbatimTags.contains parent then content else escapeText content

def writeStartTag (head : Element) : Text :=
  "<" ++ head.tag ++ writeAttributes head.attributes.entries ++ ">"

def writeEndTag (tag : Text) : Text :=
  if voidTags.contains tag then [] else "</" ++ tag ++ ">"

mutual

/-- A node as markup, told the tag of its parent. -/
def Node.write (parent : Text) : Node → Text
  | .text content => writeText parent content
  | .element head children =>
      writeStartTag head ++ writeAll head.tag children ++ writeEndTag head.tag

def writeAll (parent : Text) : List Node → Text
  | [] => []
  | node :: rest => node.write parent ++ writeAll parent rest

end

def Document.write (document : Document) : Text :=
  writeAll documentTag document.children

namespace Reference

theorem decode_nil : decode [] = [] := by rw [decode]

theorem decode_cons_of_ne {byte : UInt8} (other : byte ≠ '&'.toUInt8) (rest : Text) :
    decode (byte :: rest) = byte :: decode rest := by
  rw [decode, if_neg (by simpa using other)]

/-- A short body is read as the character that it names, or stays as it is written when it names
none. -/
theorem decode_body {body : Text} (closed : ';'.toUInt8 ∉ body) (short : body.length ≤ longestBody)
    (rest : Text) :
    decode ('&'.toUInt8 :: (body ++ ';'.toUInt8 :: rest)) =
      (character? body).getD ('&'.toUInt8 :: body ++ ";") ++ decode rest := by
  rw [decode, if_pos (by simp)]
  split
  · rename_i inner more found
    rw [Text.splitAtByte?_append closed] at found
    cases found
    rw [if_pos short]
  · rename_i missing
    rw [Text.splitAtByte?_append closed] at missing
    cases missing

/-- A short body that names a character is read as that character, whatever follows. -/
theorem decode_reference (body : Text) {character : Text} (closed : ';'.toUInt8 ∉ body)
    (short : body.length ≤ longestBody) (named : character? body = some character) (rest : Text) :
    decode ('&'.toUInt8 :: (body ++ ';'.toUInt8 :: rest)) = character ++ decode rest := by
  rw [decode_body closed short, named, Option.getD_some]

theorem decode_ampersand (rest : Text) :
    decode (("&amp;" : Text) ++ rest) = '&'.toUInt8 :: decode rest :=
  decode_reference "amp" (by decide) (by decide) rfl rest

end Reference

section Escape

variable {mark : UInt8} {reference : Text}

/-- Escaping is undone by reading references, when the second reference stands for its mark. -/
theorem decode_escape
    (reads : ∀ rest, Reference.decode (reference ++ rest) = mark :: Reference.decode rest)
    (text : Text) : Reference.decode (escape mark reference text) = text := by
  induction text with
  | nil => exact Reference.decode_nil
  | cons byte rest ih =>
      change Reference.decode (escapeByte mark reference byte ++ escape mark reference rest) = _
      unfold escapeByte
      split
      · rename_i same
        rw [Reference.decode_ampersand, ih, beq_iff_eq.mp same]
      · rename_i other
        split
        · rename_i same
          rw [reads, ih, beq_iff_eq.mp same]
        · rw [List.singleton_append, Reference.decode_cons_of_ne (by simpa using other), ih]

theorem mark_not_mem_escape (outside : mark ∉ ("&amp;" : Text)) (absent : mark ∉ reference)
    (text : Text) : mark ∉ escape mark reference text := by
  intro member
  obtain ⟨byte, _, inside⟩ := List.mem_flatMap.mp member
  unfold escapeByte at inside
  split at inside
  · exact outside inside
  · split at inside
    · exact absent inside
    · rename_i other
      exact other (beq_iff_eq.mpr (List.mem_singleton.mp inside).symm)

end Escape

theorem decode_escapeText (text : Text) : Reference.decode (escapeText text) = text :=
  decode_escape (Reference.decode_reference "lt" (by decide) (by decide) rfl) text

theorem decode_escapeValue (value : Text) : Reference.decode (escapeValue value) = value :=
  decode_escape (Reference.decode_reference "quot" (by decide) (by decide) rfl) value

theorem bracket_not_mem_escapeText (text : Text) : '<'.toUInt8 ∉ escapeText text :=
  mark_not_mem_escape (by decide) (by decide) text

theorem quote_not_mem_escapeValue (value : Text) : Byte.doubleQuote ∉ escapeValue value :=
  mark_not_mem_escape (by decide) (by decide) value

theorem escapeText_ne_nil {text : Text} (some : text ≠ []) : escapeText text ≠ [] := by
  intro empty
  have read := decode_escapeText text
  rw [empty, Reference.decode_nil] at read
  exact some read.symm

end SlidePress.Html
