import SlidePress.Proofs.Style.ColorText
import SlidePress.Style.Snapshot

/-! Lists of shadows. Every shadow comes from one entry. A list is cut at the commas outside of all
parentheses, so two lists with such a comma between them give the shadows of the first and then those
of the second. It does not matter where white space stands at their ends, nor whether one of them says
that there is no shadow: the special forms of a whole list give what its entries give on their own. -/

namespace SlidePress.Text

/-! ## Pieces of joined texts -/

section Pieces

variable {separator : UInt8} (divides : Divides separator)
include divides

/-- A separator behind a text that leaves no parenthesis open ends the last piece of the text. -/
theorem piecesFrom_closed {first : Text} {depth : Nat} (closed : first.foldl nesting depth = 0)
    (second : Text) :
    piecesFrom (· == separator) depth (first ++ separator :: second) =
      ((piecesFrom (· == separator) depth first).1,
        (piecesFrom (· == separator) depth first).2 ++ pieces (· == separator) second) := by
  induction first generalizing depth with
  | nil =>
      have outermost : depth = 0 := closed
      have level : nesting 0 separator = 0 := by
        simp [nesting, divides.notOpen, divides.notClose]
      rw [outermost, List.nil_append, pieces, piecesFrom]
      simp [piecesFrom, level]
  | cons byte rest ih =>
      rw [List.cons_append, piecesFrom, piecesFrom, ih closed]
      dsimp only
      split
      · rfl
      · rfl

theorem pieces_closed {first : Text} (closed : first.foldl nesting 0 = 0) (second : Text) :
    pieces (· == separator) (first ++ separator :: second) =
      pieces (· == separator) first ++ pieces (· == separator) second := by
  rw [pieces, piecesFrom_closed divides closed]
  rfl

/-- White space at the end of a text comes to stand at the end of its last piece, at any depth. -/
theorem piecesFrom_append_blank {tail : Text} (blank : tail.isBlank = true) (depth : Nat)
    (text : Text) :
    ∃ gap : Text, gap.isBlank = true ∧
      (piecesFrom (· == separator) depth (text ++ tail)).1 =
        (piecesFrom (· == separator) depth text).1 ++ gap ∧
      (piecesFrom (· == separator) depth (text ++ tail)).2.map trim =
        (piecesFrom (· == separator) depth text).2.map trim := by
  induction text generalizing depth with
  | nil =>
      have absent : ∀ byte ∈ outside depth tail, (byte == separator) = false := fun byte member =>
        beq_false_of_not_mem (not_mem_of_blank divides.solid blank) byte (mem_of_mem_outside member)
      have whole := piecesFrom_append divides.closeKept absent []
      rw [List.append_nil] at whole
      refine ⟨tail, blank, ?_⟩
      rw [List.nil_append, whole]
      simp [piecesFrom]
  | cons byte rest ih =>
      obtain ⟨gap, isGap, piece, others⟩ := ih (nesting depth byte)
      rw [List.cons_append, piecesFrom, piecesFrom]
      dsimp only
      split
      · refine ⟨[], rfl, rfl, ?_⟩
        rw [List.map_cons, List.map_cons, piece, others, trim_append_blank isGap]
      · refine ⟨gap, isGap, ?_, others⟩
        rw [piece, List.cons_append]

/-- Pieces are trimmed, so it does not matter whether the whole text was. -/
theorem map_trim_pieces_trim (text : Text) :
    (pieces (· == separator) (trim text)).map trim = (pieces (· == separator) text).map trim := by
  obtain ⟨lead, tail, isLead, isTail, whole⟩ := exists_ends text
  have leading := Entry.of_blank divides isLead
  obtain ⟨gap, isGap, piece, others⟩ := piecesFrom_append_blank divides isTail 0 (trim text)
  have split := piecesFrom_append divides.closeKept (beq_false_of_not_mem leading.uncut)
    (trim text ++ tail)
  rw [← List.append_assoc, ← whole, foldl_nesting leading.balanced] at split
  rw [pieces, pieces, split, List.map_cons, List.map_cons, piece, others,
    trim_blank_append isLead, trim_append_blank isGap]

end Pieces

/-- Lowering leaves the depth as it is. -/
theorem foldl_nesting_lower (depth : Nat) (text : Text) :
    (lower text).foldl nesting depth = text.foldl nesting depth := by
  have alike : ∀ (depth : Nat) (byte : UInt8), nesting depth (Byte.toLower byte) = nesting depth byte := by
    intro depth byte
    have isOpen : Byte.toLower byte = '('.toUInt8 ↔ byte = '('.toUInt8 :=
      Byte.toLower_eq_iff (by decide)
    have isClose : Byte.toLower byte = ')'.toUInt8 ↔ byte = ')'.toUInt8 :=
      Byte.toLower_eq_iff (by decide)
    simp only [nesting, beq_iff_eq, isOpen, isClose]
  rw [lower, List.foldl_map]
  simp only [alike]

theorem trimLeft_lower (text : Text) : trimLeft (lower text) = lower (trimLeft text) := by
  rw [trimLeft, trimLeft, lower, List.dropWhile_map]
  simp only [Function.comp_def, Byte.isSpace_toLower]
  rfl

theorem trim_lower (text : Text) : trim (lower text) = lower (trim text) := by
  have mirrored : ∀ text : Text, (lower text).reverse = lower text.reverse := fun text =>
    List.map_reverse.symm
  have tail : ∀ text : Text, trimRight (lower text) = lower (trimRight text) := by
    intro text
    change (trimLeft (lower text).reverse).reverse = lower (trimLeft text.reverse).reverse
    rw [mirrored, trimLeft_lower, mirrored]
  rw [trim, trimLeft_lower, tail, trim]

end SlidePress.Text

/-! ## Shadows by their entries -/

namespace SlidePress.Style

def shadowEntries (value : Text) : List Text := Text.listing ','.toUInt8 (Text.keyword value)

def asksInset (entry : Text) : Bool := (Text.listing ' '.toUInt8 entry).contains "inset"

namespace ShadowParts

theorem inset_add? {current : Color} {parts next : ShadowParts} {token : Text}
    (added : parts.add? current token = some next) :
    next.inset = (parts.inset || token == "inset") := by
  rw [add?] at added
  split at added
  · rename_i isInset
    cases added
    rw [isInset, Bool.or_true]
  · rename_i notInset
    rw [Bool.not_eq_true] at notInset
    rw [notInset, Bool.or_false]
    split at added
    · split at added
      · cases added
      · cases added
        rfl
    · obtain ⟨color, -, rfl⟩ := Option.map_eq_some_iff.mp added
      rfl

/-- An entry that can be read is one of an inner shadow if one of its tokens says so. -/
theorem inset_foldlM {current : Color} {tokens : List Text} {parts result : ShadowParts}
    (read : tokens.foldlM (add? current) parts = some result) :
    result.inset = (parts.inset || tokens.contains "inset") := by
  induction tokens generalizing parts with
  | nil =>
      cases read
      rw [List.contains_nil, Bool.or_false]
  | cons token rest ih =>
      rw [List.foldlM_cons] at read
      obtain ⟨next, added, more⟩ := Option.bind_eq_some_iff.mp read
      rw [ih more, inset_add? added, Bool.or_assoc, List.contains_cons, Bool.beq_comm]

theorem inset_shadow? {parts : ShadowParts} {shadow : BoxShadow}
    (complete : parts.shadow? = some shadow) : shadow.inset = parts.inset := by
  rw [shadow?] at complete
  split at complete <;> cases complete <;> rfl

end ShadowParts

namespace BoxShadow

theorem inset_parse? {current : Color} {entry : Text} {shadow : BoxShadow}
    (read : parse? current entry = some shadow) : shadow.inset = asksInset entry := by
  obtain ⟨parts, tokens, complete⟩ := Option.bind_eq_some_iff.mp read
  rw [ShadowParts.inset_shadow? complete, ShadowParts.inset_foldlM tokens, Bool.false_or]
  rfl

/-- The word that stands for no shadow at all is no entry either. -/
theorem parse?_none (current : Color) : parse? current "none" = none := by
  have tokens : Text.listing ' '.toUInt8 "none" = [Text.ofString "none"] := by decide +kernel
  have notInset : (("none" : Text) == "inset") = false := by decide +kernel
  have noLength : Length.parse? "none" = none := Option.isNone_iff_eq_none.mp (by decide +kernel)
  have noColor : Color.parse? "none" current = none := by
    rw [Color.parse?, show Text.keyword "none" = "none" by decide +kernel,
      if_neg (by decide +kernel), if_neg (by decide +kernel)]
    exact Option.isNone_iff_eq_none.mp (by decide +kernel)
  rw [parse?, tokens, List.foldlM_cons, ShadowParts.add?, notInset, noLength, noColor]
  rfl

/-- Every shadow of a list comes from an entry; no entry of the list is read but by itself. -/
theorem parseList_eq_filterMap (current : Color) (value : Text) :
    parseList current value = (shadowEntries value).filterMap (parse? current) := by
  rw [parseList, shadowEntries]
  split
  · rename_i nothing
    rw [Bool.or_eq_true, List.isEmpty_iff, beq_iff_eq] at nothing
    rcases nothing with empty | isNone
    · rw [empty]
      rfl
    · rw [isNone, show Text.listing ','.toUInt8 "none" = [Text.ofString "none"] by decide +kernel,
        List.filterMap_cons_none (parse?_none current)]
      rfl
  · rfl

/-! ## Joined lists -/

theorem divides_comma : Text.Divides ','.toUInt8 := ⟨by decide, by decide, by decide⟩

/-- An entry without lengths is no shadow. -/
theorem parse?_nil (current : Color) : parse? current [] = none := rfl

/-- A list that is blank has an entry that is none, like any other blank entry. -/
theorem filterMap_listing (current : Color) (text : Text) :
    (Text.listing ','.toUInt8 text).filterMap (parse? current) =
      ((Text.pieces (· == ','.toUInt8) text).map Text.trim).filterMap (parse? current) := by
  rw [Text.listing, if_neg (by decide)]
  split
  · rename_i blank
    rw [blank, List.filterMap_cons_none (parse?_nil current)]
  · rfl

/-- A list gives the shadows of its trimmed pieces, whatever it says as a whole. -/
theorem parseList_eq (current : Color) (value : Text) :
    parseList current value =
      ((Text.pieces (· == ','.toUInt8) (Text.lower value)).map Text.trim).filterMap
        (parse? current) := by
  rw [parseList_eq_filterMap, shadowEntries, filterMap_listing, Text.keyword, ← Text.trim_lower,
    Text.map_trim_pieces_trim divides_comma (Text.lower value)]

theorem parseList_append (current : Color) {first : Text}
    (closed : first.foldl Text.nesting 0 = 0) (second : Text) :
    parseList current (first ++ "," ++ second) =
      parseList current first ++ parseList current second := by
  have lowered : Text.lower (first ++ "," ++ second) =
      Text.lower first ++ ','.toUInt8 :: Text.lower second := by
    rw [Text.lower_append, Text.lower_append, List.append_assoc]
    rfl
  have ends : (Text.lower first).foldl Text.nesting 0 = 0 :=
    (Text.foldl_nesting_lower 0 first).trans closed
  rw [parseList_eq, parseList_eq, parseList_eq, lowered, Text.pieces_closed divides_comma ends,
    List.map_append, List.filterMap_append]

/-- An entry without a comma at the top level is read as a whole. -/
theorem parseList_entry (current : Color) {entry : Text}
    (uncut : ','.toUInt8 ∉ Text.outside 0 entry) :
    parseList current entry = (parse? current (Text.keyword entry)).toList := by
  have lowered : ','.toUInt8 ∉ Text.outside 0 (Text.lower entry) := by
    rw [Text.outside_lower, Text.mem_lower_iff (by decide)]
    exact uncut
  rw [parseList_eq, Text.pieces_entry divides_comma lowered, List.map_singleton, Text.trim_lower]
  cases shadow : parse? current (Text.lower (Text.trim entry)) with
  | none => rw [List.filterMap_cons_none shadow, Text.keyword, shadow]; rfl
  | some found => rw [List.filterMap_cons_some shadow, Text.keyword, shadow]; rfl

/-- An entry that gives no shadow: it is blank, says that there is none, or cannot be read. -/
def IsIdle (current : Color) (entry : Text) : Prop :=
  entry.isBlank = true ∨ Text.keyword entry = "none" ∨
    (','.toUInt8 ∉ Text.outside 0 entry ∧ parse? current (Text.keyword entry) = none)

theorem parseList_of_idle {current : Color} {entry : Text} (idle : IsIdle current entry) :
    parseList current entry = [] := by
  rcases idle with blank | isNone | ⟨uncut, unread⟩
  · rw [parseList, Text.keyword, Text.trim_of_blank blank]
    rfl
  · rw [parseList, isNone]
    rfl
  · rw [parseList_entry current uncut, unread]
    rfl

/-- A comma outside of all parentheses parts a list into two that are read on their own, so an entry
that gives no shadow changes nothing for the entries around it. -/
theorem parseList_entrywise (current : Color) {first : Text}
    (closed : first.foldl Text.nesting 0 = 0) (second : Text) :
    parseList current (first ++ "," ++ second) =
        parseList current first ++ parseList current second ∧
      ∀ entry : Text, entry.foldl Text.nesting 0 = 0 → IsIdle current entry →
        parseList current entry = [] ∧
          parseList current (first ++ "," ++ entry ++ "," ++ second) =
            parseList current (first ++ "," ++ second) := by
  refine ⟨parseList_append current closed second, fun entry closedToo idle => ?_⟩
  have nothing := parseList_of_idle idle
  have both : (first ++ "," ++ entry).foldl Text.nesting 0 = 0 := by
    rw [List.foldl_append, List.foldl_append, closed]
    exact closedToo
  refine ⟨nothing, ?_⟩
  rw [parseList_append current both, parseList_append current closed, nothing, List.append_nil,
    parseList_append current closed]

/-- The first list closes a parenthesis that was never opened, and has a call with commas. -/
theorem parseList_entrywise_calls :
    ("1px 2px), 1px 2px rgb(1, 2, 3)" : Text).foldl Text.nesting 0 = 0 ∧
      ("NONE" : Text).foldl Text.nesting 0 = 0 ∧ IsIdle .black "NONE" ∧
      (parseList .black ("1px 2px), 1px 2px rgb(1, 2, 3)" ++ "," ++ "NONE" ++ "," ++ "3px 4px,")).length =
        2 := by
  have closed : ("1px 2px), 1px 2px rgb(1, 2, 3)" : Text).foldl Text.nesting 0 = 0 := by
    decide +kernel
  have closedToo : ("NONE" : Text).foldl Text.nesting 0 = 0 := by decide +kernel
  have idle : IsIdle .black "NONE" := .inr (.inl (by decide +kernel))
  obtain ⟨parted, unaffected⟩ := parseList_entrywise .black closed "3px 4px,"
  refine ⟨closed, closedToo, idle, ?_⟩
  rw [(unaffected "NONE" closedToo idle).2, parted]
  decide +kernel

end BoxShadow

end SlidePress.Style
