import SlidePress.Proofs.Payload.Contents

/-! Payloads are JSON. When the texts of an outcome are valid UTF-8 and its numbers come out as JSON
writes them, the payload is a JSON text, it stands for one value, and that value tells all contents
of the outcome. -/

namespace SlidePress.Payload

open Slide Source Json
open Style (Color)

section Gathering

def refTexts (ref : NodeRef) : List Text := [ref.tag, ref.id, ref.path]

def bodyTexts : Body → List Text
  | .text content => content.font.family :: content.runs.map (·.text)
  | .image source _ => [source]
  | .shape _ | .placeholder => []

def primitiveTexts (primitive : Primitive) : List Text :=
  primitive.header.id :: refTexts primitive.header.source ++ bodyTexts primitive.body

def issueTexts (issue : Issue) : List Text := issue.detail :: issue.nodes.flatMap refTexts

def texts : Outcome → List Text
  | .slide deck => deck.primitives.flatMap primitiveTexts ++ deck.placeholders.entries.map (·.1)
  | .rejected issues => issues.flatMap issueTexts

def rectNumbers (rect : Rect Number) : List Number := [rect.x, rect.y, rect.width, rect.height]

def shadowNumbers (shadow : Shadow) : List Number :=
  [shadow.angle, shadow.distance, shadow.blur, shadow.opacity]

def bodyNumbers : Body → List Number
  | .text content =>
      [content.font.size, content.font.lineSpacing, content.insets.left, content.insets.top,
        content.insets.right, content.insets.bottom]
  | .shape style =>
      style.cornerRadius :: style.outline.toList.map (·.width) ++
        style.shadow.toList.flatMap shadowNumbers
  | .image _ fitted => rectNumbers fitted
  | .placeholder => []

def primitiveNumbers (primitive : Primitive) : List Number :=
  rectNumbers primitive.header.frame ++ bodyNumbers primitive.body

def issueNumbers (issue : Issue) : List Number :=
  issue.overage.toList.flatMap fun overage => overage.sides.map (·.2)

/-- The numbers that an outcome holds, orders and shares of transparency apart. -/
def numbers : Outcome → List Number
  | .slide deck =>
      [deck.canvas.width, deck.canvas.height] ++ deck.primitives.flatMap primitiveNumbers ++
        deck.placeholders.entries.flatMap fun entry => rectNumbers entry.2
  | .rejected issues => issues.flatMap issueNumbers

end Gathering

section Soundness

@[simp] theorem isUtf8_ofString (string : String) : IsUtf8 (Text.ofString string) := ⟨string, rfl⟩

theorem utf8EncodeChar_ofNat {byte : UInt8} (ascii : byte.toNat < 128) :
    String.utf8EncodeChar (Char.ofNat byte.toNat) = [byte] := by
  have number : (Char.ofNat byte.toNat).toNat = byte.toNat := by
    rw [Char.ofNat, dif_pos (.inl (Nat.lt_trans ascii (by decide)))]
    rfl
  have small : (Char.ofNat byte.toNat).toNat < 128 := by
    rw [number]
    exact ascii
  rw [Utf8.utf8EncodeChar_of_ascii small, number]
  exact congrArg (fun first => [first]) UInt8.ofNat_toNat

theorem isUtf8_of_ascii {text : Text} (ascii : ∀ byte ∈ text, byte.toNat < 128) : IsUtf8 text := by
  refine ⟨String.ofList (text.map fun byte => Char.ofNat byte.toNat), ?_⟩
  rw [ofString_eq_flatMap, String.toList_ofList]
  induction text with
  | nil => rfl
  | cons byte rest ih =>
      obtain ⟨first, others⟩ := List.forall_mem_cons.mp ascii
      rw [List.map_cons, List.flatMap_cons, utf8EncodeChar_ofNat first, ← ih others]
      rfl

namespace Value

@[simp] theorem sound_string {text : Text} : (Value.string text).Sound ↔ IsUtf8 text :=
  ⟨fun | .string valid => valid, .string⟩

@[simp] theorem sound_number {written : Text} :
    (Value.number written).Sound ↔ NumberToken written :=
  ⟨fun | .number token => token, .number⟩

@[simp] theorem sound_boolean (value : Bool) : (Value.boolean value).Sound := .boolean value

@[simp] theorem sound_array {items : List Value} :
    (Value.array items).Sound ↔ ∀ item ∈ items, item.Sound :=
  ⟨fun | .array each => each, .array⟩

end Value

def SoundMembers (members : List (Text × Value)) : Prop :=
  ∀ member ∈ members, IsUtf8 member.1 ∧ member.2.Sound

section Members

variable {name : Text} {value : Value} {members others : List (Text × Value)}

@[simp] theorem soundMembers_nil : SoundMembers [] := by simp [SoundMembers]

@[simp] theorem soundMembers_cons :
    SoundMembers ((name, value) :: members) ↔ IsUtf8 name ∧ value.Sound ∧ SoundMembers members := by
  simp [SoundMembers, and_assoc]

@[simp] theorem soundMembers_append :
    SoundMembers (members ++ others) ↔ SoundMembers members ∧ SoundMembers others :=
  List.forall_mem_append

@[simp] theorem soundMembers_optional {α : Type} (name : String) (encode : α → Value)
    (value : Option α) :
    SoundMembers (optional name encode value) ↔ ∀ given ∈ value, (encode given).Sound := by
  cases value <;> simp [optional]

@[simp] theorem sound_object : (Value.object members).Sound ↔ SoundMembers members := by
  constructor
  · rintro (_ | _ | _ | _ | ⟨names, each⟩) member inside
    exact ⟨names member inside, each member inside⟩
  · intro sound
    exact .object (fun member inside => (sound member inside).1)
      fun member inside => (sound member inside).2

@[simp] theorem sound_record {groups : List (List (Text × Value))} :
    (Value.record groups).Sound ↔ SoundMembers groups.flatten :=
  sound_object

end Members

/-- The digits of a color are ASCII. -/
theorem isUtf8_hex (color : Color) : IsUtf8 color.hex := by
  have digit : ∀ value < 16, (Color.hexDigit value).toNat < 128 := by decide
  refine isUtf8_of_ascii fun byte member => ?_
  obtain ⟨channel, _, inside⟩ := List.mem_flatMap.mp member
  have high := digit (channel.toNat / 16) (Nat.div_lt_of_lt_mul channel.toNat_lt)
  have low := digit (channel.toNat % 16) (Nat.mod_lt _ (by decide))
  simp only [List.mem_cons, List.not_mem_nil, or_false] at inside
  rcases inside with rfl | rfl
  · exact high
  · exact low

def Valid (texts : List Text) : Prop := ∀ text ∈ texts, IsUtf8 text

/-- The numbers come out as JSON writes them. -/
def Printed (numbers : List Number) : Prop :=
  ∀ number ∈ numbers, NumberToken (writtenNumber number)

@[simp] theorem sound_ofNat (number : Nat) : (Value.ofNat number).Sound :=
  .number (numberToken_ofNat number)

@[simp] theorem sound_ofColor (color : Color) : (ofColor color).Sound := by
  simp [ofColor, isUtf8_hex, Value.ofInt, numberToken_ofInt]

theorem sound_ofRef {ref : NodeRef} (valid : Valid (refTexts ref)) : (ofRef ref).Sound := by
  simp only [Valid, refTexts, List.forall_mem_cons] at valid
  simp [ofRef, valid]

theorem sound_ofRun {run : TextRun} (valid : IsUtf8 run.text) : (ofRun run).Sound := by
  have align : IsUtf8 run.align.name := by cases run.align <;> exact isUtf8_ofString _
  have marker : IsUtf8 run.marker.name := by cases run.marker <;> exact isUtf8_ofString _
  simp [ofRun, valid, align, marker]

theorem soundMembers_rectMembers {rect : Rect Number} (printed : Printed (rectNumbers rect)) :
    SoundMembers (rectMembers rect) := by
  simp only [Printed, rectNumbers, List.forall_mem_cons] at printed
  simp [rectMembers, ofNumber, printed]

theorem sound_ofOutline {outline : Outline} (printed : NumberToken (writtenNumber outline.width)) :
    (ofOutline outline).Sound := by
  have dash : IsUtf8 outline.dash.name := by cases outline.dash <;> exact isUtf8_ofString _
  simp [ofOutline, ofNumber, printed, dash]

theorem sound_ofShadow {shadow : Shadow} (printed : Printed (shadowNumbers shadow)) :
    (ofShadow shadow).Sound := by
  simp only [Printed, shadowNumbers, List.forall_mem_cons] at printed
  simp [ofShadow, ofNumber, printed]

theorem sound_ofFont {font : Font} (valid : IsUtf8 font.family)
    (printed : Printed [font.size, font.lineSpacing]) : (ofFont font).Sound := by
  simp only [Printed, List.forall_mem_cons] at printed
  simp [ofFont, ofNumber, valid, printed]

theorem sound_ofInsets {insets : Insets}
    (printed : Printed [insets.left, insets.top, insets.right, insets.bottom]) :
    (ofInsets insets).Sound := by
  simp only [Printed, List.forall_mem_cons] at printed
  simp [ofInsets, ofNumber, printed]

theorem soundMembers_bodyMembers {body : Body} (valid : Valid (bodyTexts body))
    (printed : Printed (bodyNumbers body)) : SoundMembers (bodyMembers body) := by
  cases body with
  | text content =>
      obtain ⟨family, texts⟩ := List.forall_mem_cons.mp valid
      obtain ⟨font, insets⟩ : Printed [content.font.size, content.font.lineSpacing] ∧ Printed _ :=
        List.forall_mem_append.mp printed
      have runs : ∀ run ∈ content.runs, (ofRun run).Sound :=
        fun run inside => sound_ofRun (texts _ (List.mem_map_of_mem inside))
      simpa [bodyMembers, sound_ofFont family font, sound_ofInsets insets] using runs
  | shape style =>
      obtain ⟨fill, outline, radius, shadow⟩ := style
      obtain ⟨first, more⟩ := List.forall_mem_append.mp printed
      obtain ⟨round, widths⟩ := List.forall_mem_cons.mp first
      have drawn : ∀ given ∈ outline, (ofOutline given).Sound := by
        rintro given rfl
        exact sound_ofOutline (widths _ (by simp))
      have cast : ∀ given ∈ shadow, (ofShadow given).Sound := by
        rintro given rfl
        exact sound_ofShadow (by simpa [Printed] using more)
      simp only [bodyMembers, List.flatten_cons, List.flatten_nil, soundMembers_append,
        soundMembers_optional, soundMembers_cons, soundMembers_nil, isUtf8_ofString, ofNumber,
        Value.sound_number, sound_ofColor, true_and, and_true, implies_true]
      exact ⟨drawn, round, cast⟩
  | image source fitted =>
      have named : IsUtf8 source := valid source List.mem_cons_self
      simp [bodyMembers, ofRect, named, soundMembers_rectMembers printed]
  | placeholder => exact soundMembers_nil

theorem sound_ofPrimitive {primitive : Primitive} (valid : Valid (primitiveTexts primitive))
    (printed : Printed (primitiveNumbers primitive)) : (ofPrimitive primitive).Sound := by
  obtain ⟨frame, body⟩ := List.forall_mem_append.mp printed
  obtain ⟨headed, bodied⟩ := List.forall_mem_append.mp valid
  obtain ⟨id, source⟩ := List.forall_mem_cons.mp headed
  have kind : IsUtf8 primitive.kindName := by
    cases h : primitive.body <;> simp [Primitive.kindName, h, Body.kindName]
  simp [ofPrimitive, ofRect, kind, id, soundMembers_rectMembers frame, sound_ofRef source,
    soundMembers_bodyMembers bodied body]

theorem sound_ofOverage {overage : Overage} (printed : Printed (overage.sides.map (·.2))) :
    (ofOverage overage).Sound := by
  simp only [Printed, Overage.sides, List.map_cons, List.map_nil, List.forall_mem_cons] at printed
  simp [ofOverage, Overage.sides, ofNumber, printed]

theorem sound_ofIssue {issue : Issue} (valid : Valid (issueTexts issue))
    (printed : Printed (issueNumbers issue)) : (ofIssue issue).Sound := by
  obtain ⟨kind, detail, nodes, overage⟩ := issue
  obtain ⟨detailed, refs⟩ := List.forall_mem_cons.mp valid
  have named : IsUtf8 kind.name := by cases kind <;> exact isUtf8_ofString _
  have listed : ∀ node ∈ nodes, (ofRef node).Sound := fun node inside =>
    sound_ofRef (List.forall_mem_flatMap.mp refs node inside)
  have beyond : ∀ given ∈ overage, (ofOverage given).Sound := by
    rintro given rfl
    exact sound_ofOverage (by simpa [issueNumbers] using printed)
  simpa [ofIssue, named, detailed] using ⟨listed, beyond⟩

theorem sound_ofPlaceholder {placeholder : Text × Rect Number} (valid : IsUtf8 placeholder.1)
    (printed : Printed (rectNumbers placeholder.2)) : (ofPlaceholder placeholder).Sound := by
  simp [ofPlaceholder, valid, soundMembers_rectMembers printed]

theorem sound_ofDeck {deck : Deck} (valid : Valid (texts (.slide deck)))
    (printed : Printed (numbers (.slide deck))) : (ofDeck deck).Sound := by
  obtain ⟨named, ids⟩ := List.forall_mem_append.mp valid
  obtain ⟨drawn, framed⟩ := List.forall_mem_append.mp printed
  obtain ⟨canvas, drawn⟩ := List.forall_mem_append.mp drawn
  simp only [List.forall_mem_cons] at canvas
  rw [List.forall_mem_map] at ids
  rw [List.forall_mem_flatMap] at named drawn framed
  have primitives : (Value.array (deck.primitives.map ofPrimitive)).Sound :=
    .array (List.forall_mem_map.mpr fun primitive inside =>
      sound_ofPrimitive (named primitive inside) (drawn primitive inside))
  have placeholders : (Value.array (deck.placeholders.entries.map ofPlaceholder)).Sound :=
    .array (List.forall_mem_map.mpr fun entry inside =>
      sound_ofPlaceholder (ids entry inside) (framed entry inside))
  have sides : (ofNumber deck.canvas.width).Sound ∧ (ofNumber deck.canvas.height).Sound :=
    ⟨.number canvas.1, .number canvas.2.1⟩
  simp only [ofDeck, sound_record, List.flatten_cons, List.flatten_nil, soundMembers_append,
    soundMembers_optional, soundMembers_cons, soundMembers_nil, isUtf8_ofString, sound_object,
    sound_ofColor, true_and, and_true, implies_true]
  exact ⟨sides, primitives, placeholders⟩

theorem sound_ofOutcome {outcome : Outcome} (valid : Valid (texts outcome))
    (printed : Printed (numbers outcome)) : (ofOutcome outcome).Sound := by
  cases outcome with
  | slide deck => exact sound_ofDeck valid printed
  | rejected issues =>
      have each : ∀ issue ∈ issues, (ofIssue issue).Sound := fun issue inside => sound_ofIssue
        (List.forall_mem_flatMap.mp valid issue inside)
        (List.forall_mem_flatMap.mp printed issue inside)
      simpa [ofOutcome] using each

end Soundness

def Contents.placeholderIds : Contents → List Text
  | .slide _ _ placeholders => placeholders.map (·.1)
  | .rejected _ => []

theorem ascending_placeholderIds (outcome : Outcome) :
    (contents outcome).placeholderIds.Pairwise (· < ·) := by
  cases outcome with
  | slide deck =>
      have ids : (contents (.slide deck)).placeholderIds = deck.placeholders.entries.map (·.1) := by
        simp [contents, Contents.placeholderIds, placeholderContents]
      rw [ids]
      exact List.pairwise_map.mpr deck.placeholders.ascending
  | rejected issues => exact .nil

/-- The payload of an outcome is a JSON text, which stands for one value, and in this value the
contents of the outcome are found again, with the placeholders in the order of their names. -/
theorem payload_carries_contents (outcome : Outcome) (valid : Valid (texts outcome))
    (printed : Printed (numbers outcome)) :
    ∃ json, Denotes (payload outcome) json ∧
      (∀ other, Denotes (payload outcome) other → other = json) ∧
      decode json = some (contents outcome) ∧
      (contents outcome).placeholderIds.Pairwise (· < ·) := by
  have denotes : Denotes (payload outcome) (ofOutcome outcome).json :=
    denotes_write (sound_ofOutcome valid printed)
  refine ⟨_, denotes, fun other denotesToo => denotesToo.unique denotes, ?_,
    ascending_placeholderIds outcome⟩
  cases outcome with
  | slide deck => exact decode_ofDeck deck
  | rejected issues => exact decode_rejected issues

/-- A slide with quotation marks, a backslash, control characters and a letter beyond ASCII in its
texts. -/
def markedDeck : Deck where
  primitives :=
    [⟨⟨"a \"b\"", ⟨0, 0, 1, 1⟩, 0, { order := 7, tag := "p", id := "\\", path := "p[0]" }⟩,
        .text
          { runs := [{ text := "\x00\t\"é\"\n", color := some Color.black }, { text := "" }]
            font := { family := "Arial" } }⟩,
      ⟨⟨"shape-1", ⟨0, 0, 720, 1⟩, 1, {}⟩, .shape { fill := some Color.black, shadow := some {} }⟩]
  placeholders := ⟨[("a", ⟨0, 0, 1, 1⟩), ("b", ⟨0, 0, 1, 1⟩)], by decide⟩
  canvas := ⟨720, 405⟩
  background := some Color.black

theorem valid_markedDeck : Valid (texts (.slide markedDeck)) := by
  have empty : IsUtf8 [] := isUtf8_ofString ""
  simp [Valid, texts, markedDeck, primitiveTexts, refTexts, bodyTexts, empty]

theorem printed_markedDeck : Printed (numbers (.slide markedDeck)) := by
  have written : ∀ number ∈ numbers (.slide markedDeck),
      ∃ whole ∈ ["0", "1", "12", "405", "720"].map Text.ofString,
        writtenNumber number = whole ++ ".00" := by
    decide +kernel
  have wholes : ∀ whole ∈ ["0", "1", "12", "405", "720"].map Text.ofString, WholePart whole := by
    decide +kernel
  intro number inside
  obtain ⟨whole, known, same⟩ := written number inside
  rw [same]
  exact ⟨[], whole, ".00", [], by simp, by simp, wholes whole known, .inr ⟨"00", rfl, by decide⟩,
    .inl rfl⟩

theorem payload_carries_contents_markedDeck :
    (Valid (texts (.slide markedDeck)) ∧ Printed (numbers (.slide markedDeck))) ∧
      ∃ json, Denotes (payload (.slide markedDeck)) json ∧
        (∀ other, Denotes (payload (.slide markedDeck)) other → other = json) ∧
        decode json = some (contents (.slide markedDeck)) ∧
        (contents (.slide markedDeck)).placeholderIds.Pairwise (· < ·) :=
  ⟨⟨valid_markedDeck, printed_markedDeck⟩,
    payload_carries_contents _ valid_markedDeck printed_markedDeck⟩

end SlidePress.Payload
