import SlidePress.Css.Embedded
import SlidePress.Proofs.Css.Joined
import SlidePress.Proofs.Html.Nesting

/-! The style elements of a document. They are read as one text, with a line end after each of them;
what the rules of one are depends on whether those before it are complete. -/

namespace SlidePress.Html

open Css (Complete rulesIn)

def Document.sheets (document : Document) : List Text :=
  (document.withTag "style").map (·.node.innerText)

def sheetLines (found : List Located) : Text :=
  (found.filter (·.head.tag == ("style" : Text))).flatMap fun style => style.node.innerText ++ "\n"

theorem sheetLines_flatMap (found : Node → List Located) (nodes : List Node) :
    sheetLines (nodes.flatMap found) = nodes.flatMap fun node => sheetLines (found node) := by
  rw [sheetLines, List.filter_flatMap, List.flatMap_assoc]
  rfl

theorem styleTexts_eq_flatMap (nodes : List Node) : styleTexts nodes = nodes.flatMap Node.styleText := by
  induction nodes with
  | nil => rfl
  | cons node rest ih => rw [styleTexts, List.flatMap_cons, ih]

/-- Style elements that hold no elements are gathered one by one. -/
theorem styleText_eq_sheetLines (node : Node) :
    ∀ ancestors : List Element,
      (∀ found ∈ node.located ancestors, found.head.tag = "style" →
        ∀ around, locatedAll around found.children = []) →
      node.styleText = sheetLines (node.located ancestors) := by
  induction node using Node.byChildren with
  | text content => exact fun _ _ => rfl
  | element head children ih =>
      intro ancestors bare
      rw [Node.located] at bare ⊢
      by_cases isStyle : head.tag = "style"
      · have below := bare _ List.mem_cons_self isStyle (head :: ancestors)
        rw [Node.styleText, if_pos (beq_iff_eq.mpr isStyle), below, sheetLines,
          List.filter_cons_of_pos (by simpa using isStyle), List.filter_nil,
          List.flatMap_singleton]
        rfl
      · rw [Node.styleText, if_neg (by simpa using isStyle), sheetLines,
          List.filter_cons_of_neg (by simpa using isStyle)]
        change _ = sheetLines (locatedAll (head :: ancestors) children)
        rw [locatedAll_eq_flatMap] at bare ⊢
        rw [styleTexts_eq_flatMap, sheetLines_flatMap]
        refine List.flatMap_congr fun child isChild => ih child isChild _ fun found inside => ?_
        exact bare found
          (List.mem_cons_of_mem _ (List.mem_flatMap.mpr ⟨child, isChild, inside⟩))

theorem styleText_parse (html : Text) :
    (Document.parse html).1.styleText =
      (Document.parse html).1.sheets.flatMap fun sheet => sheet ++ ("\n" : Text) := by
  have bare : ∀ found ∈ (Document.parse html).1.located, found.head.tag = "style" →
      ∀ around, locatedAll around found.children = [] := by
    intro found member isStyle around
    have isRaw : rawTextTags.contains found.head.tag = true := by
      rw [isStyle]
      decide +kernel
    rcases (standing_of_mem_parse member).raw isRaw with empty | ⟨content, single⟩
    · rw [empty]
      rfl
    · rw [single]
      rfl
  have lines : ((Document.parse html).1.sheets.flatMap fun sheet => sheet ++ ("\n" : Text)) =
      sheetLines (Document.parse html).1.located := by
    rw [Document.sheets, Document.withTag, show Text.lower "style" = "style" by decide +kernel,
      List.flatMap_map]
    rfl
  rw [lines, Document.styleText, Document.located, styleTexts_eq_flatMap, locatedAll_eq_flatMap,
    sheetLines_flatMap]
  refine List.flatMap_congr fun child isChild => ?_
  apply styleText_eq_sheetLines
  intro found inside
  apply bare found
  rw [Document.located, locatedAll_eq_flatMap]
  exact List.mem_flatMap.mpr ⟨child, isChild, inside⟩

/-- The rules of a document are those of its style elements one after the other, if all of these but
the last are complete. To be complete is just what a sheet needs for this: it is so exactly when
every text can follow it without a change to the rules of either. -/
theorem rules_of_complete_sheets (html : Text) :
    ((∀ sheet ∈ (Document.parse html).1.sheets.dropLast, Complete sheet) →
      (Css.Stylesheet.parse (Document.parse html).1.styleText).1.rules =
        (Document.parse html).1.sheets.flatMap fun sheet => (Css.Stylesheet.parse sheet).1.rules) ∧
    ∀ sheet : Text, Complete sheet ↔ ∀ next : Text,
      (Css.Stylesheet.parse (sheet ++ "\n" ++ next)).1.rules =
        (Css.Stylesheet.parse sheet).1.rules ++ (Css.Stylesheet.parse next).1.rules := by
  constructor
  · intro complete
    rw [styleText_parse]
    exact Css.rulesIn_lines complete
  · exact Css.complete_iff

/-- Two style elements: one with a brace inside a comment, and one that leaves a comment open. -/
def styledPage : Text :=
  "<style>/*\x7b*/p\x7bcolor:red\x7d</style><style>q\x7b\x7d/*</style>"

theorem rules_of_complete_sheets_styledPage :
    (Document.parse styledPage).1.sheets = ["/*\x7b*/p\x7bcolor:red\x7d", "q\x7b\x7d/*"] ∧
    (∀ sheet ∈ (Document.parse styledPage).1.sheets.dropLast, Complete sheet) ∧
    (Css.Stylesheet.parse (Document.parse styledPage).1.styleText).1.rules =
      (Document.parse styledPage).1.sheets.flatMap fun sheet =>
        (Css.Stylesheet.parse sheet).1.rules := by
  have listed : (Document.parse styledPage).1.sheets =
      ["/*\x7b*/p\x7bcolor:red\x7d", "q\x7b\x7d/*"] := by decide +kernel
  have complete : ∀ sheet ∈ (Document.parse styledPage).1.sheets.dropLast, Complete sheet := by
    rw [listed]
    intro sheet member
    rw [List.mem_singleton.mp member]
    refine ⟨"p\x7bcolor:red\x7d", ?_, ?_⟩
    · have closed : Text.splitAtWord? "*/" "\x7b*/p\x7bcolor:red\x7d" =
          some (("\x7b" : Text), ("p\x7bcolor:red\x7d" : Text)) := by decide +kernel
      apply Css.Uncomments.comment closed
      apply Css.Uncommented.uncomments
      decide +kernel
    · show Css.Finished ("p" ++ Byte.openBrace :: ("color:red" ++ Byte.closeBrace :: []))
      apply Css.Finished.rule
      · decide +kernel
      · decide +kernel
      · decide +kernel
      · exact .blank rfl
  exact ⟨listed, complete, (rules_of_complete_sheets styledPage).1 complete⟩

/-- A comment that is not closed reaches into the next style element. -/
theorem not_independent_open_comment :
    ¬ ∀ html : Text, (Css.Stylesheet.parse (Document.parse html).1.styleText).1.rules =
      (Document.parse html).1.sheets.flatMap fun sheet => (Css.Stylesheet.parse sheet).1.rules := by
  intro independent
  have same := congrArg List.length
    (independent "<style>/*</style><style>p\x7bwidth:10px\x7d</style><p>x</p>")
  revert same
  decide +kernel

end SlidePress.Html
