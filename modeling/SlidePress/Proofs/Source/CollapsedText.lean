import Mathlib.Data.List.Chain
import SlidePress.Proofs.Slide.Stretches

/-! Collapsed text is joined words. What a node says is the text of the texts inside it, in document
order, with a blank for every line break. The text that is gathered on the way through the tree is at
every moment what has been said so far with its white space collapsed. So in the end it holds the words of
the node with single blanks between them, up to a blank behind the last one. -/

namespace SlidePress.Text

/-- Words are what stands between white space, where anything does. -/
theorem words_eq_splitOnP (text : Text) :
    words text = (text.splitOnP Byte.isSpace).filter (· ≠ []) := by
  -- The word at the beginning is the first piece, which may be empty.
  have cut : text.splitOnP Byte.isSpace = (wordsFrom text).1 :: (text.splitOnP Byte.isSpace).tail ∧
      (wordsFrom text).2 = (text.splitOnP Byte.isSpace).tail.filter (· ≠ []) := by
    induction text with
    | nil => exact ⟨rfl, rfl⟩
    | cons byte rest ih =>
        obtain ⟨first, others⟩ := ih
        rw [List.splitOnP_cons_eq_if_modifyHead]
        cases kind : Byte.isSpace byte with
        | true =>
            rw [wordsFrom_space kind, if_pos rfl, words_eq, others]
            refine ⟨rfl, ?_⟩
            rw [List.tail_cons, first, List.filter_cons]
            by_cases empty : (wordsFrom rest).1 = []
            · simp [empty]
            · simp [empty]
        | false =>
            rw [wordsFrom_solid kind, if_neg Bool.false_ne_true, first, List.modifyHead_cons]
            exact ⟨rfl, others⟩
  obtain ⟨first, others⟩ := cut
  rw [words_eq, others, first, List.filter_cons]
  by_cases empty : (wordsFrom text).1 = []
  · simp [empty]
  · simp [empty]

/-- A text without the blanks at its end does not end with a blank. -/
theorem getLast?_dropBlanks (text : Text) : (dropBlanks text).getLast? ≠ some ' '.toUInt8 := by
  intro isBlank
  have solid := List.head?_dropWhile_not (· == ' '.toUInt8) text.reverse
  rw [dropBlanks, List.getLast?_reverse] at isBlank
  rw [isBlank] at solid
  exact absurd solid (by decide)

end SlidePress.Text

namespace SlidePress.Slide

def SingleBlanks (text : Text) : Prop :=
  text.IsChain fun byte next => ¬ (byte = ' '.toUInt8 ∧ next = ' '.toUInt8)

/-- White space is collapsed to single blanks, and to none behind a blank. -/
theorem singleBlanks_collapse (text : Text) :
    ((collapse true text).head? ≠ some ' '.toUInt8 ∧ SingleBlanks (collapse true text)) ∧
      SingleBlanks (collapse false text) := by
  induction text with
  | nil => exact ⟨⟨nofun, .nil⟩, .nil⟩
  | cons byte rest ih =>
      obtain ⟨⟨unspaced, behindBlank⟩, behindOther⟩ := ih
      cases kind : Byte.isSpace byte with
      | true =>
          rw [collapse, collapse, kind]
          refine ⟨⟨unspaced, behindBlank⟩, List.isChain_cons.mpr ⟨?_, behindBlank⟩⟩
          exact fun next isNext both => unspaced (both.2 ▸ isNext)
      | false =>
          have solid := Text.ne_blank_of_solid kind
          have single : SingleBlanks (byte :: collapse false rest) :=
            List.isChain_cons.mpr ⟨fun _ _ both => solid both.1, behindOther⟩
          rw [collapse, collapse, kind]
          exact ⟨⟨fun same => solid (Option.some.inj same), single⟩, single⟩

end SlidePress.Slide

namespace SlidePress.Source

open Slide (collapse SingleBlanks)
open Text (dropBlanks)

def Node.ownSpeech (node : Node) : Text :=
  match node.kind with
  | .text => node.text
  | .lineBreak => " "
  | _ => []

/-- What a node says with everything inside it, in document order. -/
def Node.speech (node : Node) : Text := node.subtree.flatMap Node.ownSpeech

mutual

/-- Nodes add what they say, byte by byte. -/
theorem gather_eq_foldl (node : Node) (gathered : Text) :
    node.gather gathered = node.speech.foldl addByte gathered := by
  obtain ⟨tag, attributes, text, style, box, children, order, path⟩ := node
  rw [Node.speech, Node.subtree, List.flatMap_cons, List.foldl_append, Node.gather,
    gatherAll_eq_foldl children]
  congr 1
  -- A line break adds what a text of one blank would add.
  rw [Node.ownSpeech, Node.kind]
  cases Kind.ofTag tag <;> rfl

theorem gatherAll_eq_foldl (nodes : List Node) (gathered : Text) :
    gatherAll nodes gathered = ((subtrees nodes).flatMap Node.ownSpeech).foldl addByte gathered := by
  cases nodes with
  | nil => rfl
  | cons node rest =>
      rw [gatherAll, subtrees, List.flatMap_append, List.foldl_append, gatherAll_eq_foldl rest,
        gather_eq_foldl node, Node.speech]

end

/-- A text gathered behind another one is collapsed as what that one ends with has it. -/
theorem foldl_addByte_eq (text gathered : Text) :
    text.foldl addByte gathered =
      (collapse (gathered.head?.all (· == ' '.toUInt8)) text).reverse ++ gathered := by
  induction text generalizing gathered with
  | nil => rfl
  | cons byte rest ih =>
      rw [List.foldl_cons, ih, collapse, addByte]
      cases kind : Byte.isSpace byte with
      | false =>
          have solid : (byte == ' '.toUInt8) = false :=
            beq_false_of_ne (Text.ne_blank_of_solid kind)
          rw [if_neg Bool.false_ne_true, if_neg Bool.false_ne_true, List.head?_cons,
            Option.all_some, solid, List.reverse_cons, List.append_assoc, List.singleton_append]
      | true =>
          rw [if_pos rfl, if_pos rfl]
          cases gathered with
          | nil => rfl
          | cons last earlier =>
              rw [addBlank, List.head?_cons, Option.all_some]
              cases blank : last == ' '.toUInt8 with
              | true => rw [if_pos rfl, if_pos rfl, List.head?_cons, Option.all_some, blank]
              | false =>
                  rw [if_neg Bool.false_ne_true, if_neg Bool.false_ne_true, List.head?_cons,
                    Option.all_some, beq_self_eq_true, List.reverse_cons, List.append_assoc,
                    List.singleton_append]

theorem eraseBlank_of_unspaced {text : Text} (unspaced : text.head? ≠ some ' '.toUInt8) :
    eraseBlank text = text := by
  cases text with
  | nil => rfl
  | cons first rest => rw [eraseBlank, if_neg fun blank => unspaced (by simpa using blank)]

/-- No blank is gathered at the front, so none is erased there. -/
theorem collapsedText_eq (node : Node) :
    node.collapsedText = dropBlanks (collapse true node.speech) := by
  have gathered : ((node.gather []).dropWhile (· == ' '.toUInt8)).reverse =
      dropBlanks (collapse true node.speech) := by
    rw [gather_eq_foldl, foldl_addByte_eq, List.append_nil]
    rfl
  rw [Node.collapsedText, gathered]
  apply eraseBlank_of_unspaced
  intro spaced
  obtain ⟨rest, same⟩ : dropBlanks (collapse true node.speech) <+: collapse true node.speech :=
    List.rdropWhile_prefix _ _
  have unspaced := (Slide.singleBlanks_collapse node.speech).1.1
  rw [← same, List.head?_append, spaced] at unspaced
  exact unspaced rfl

/-- The collapsed text of a node holds the words of what it says with single blanks between them, and
no other blank. -/
theorem collapsedText_joins_words (node : Node) :
    node.collapsedText =
        Text.join " " ((node.speech.splitOnP Byte.isSpace).filter (· ≠ [])) ∧
      ¬ (" " : Text) <+: node.collapsedText ∧
      ¬ (" " : Text) <:+ node.collapsedText ∧
      ¬ ("  " : Text) <:+: node.collapsedText := by
  have within : node.collapsedText <+: collapse true node.speech := by
    rw [collapsedText_eq]
    exact List.rdropWhile_prefix _ _
  obtain ⟨⟨unspaced, single⟩, -⟩ := Slide.singleBlanks_collapse node.speech
  refine ⟨?_, fun leads => ?_, fun ends => ?_, fun doubled => ?_⟩
  · rw [← Text.words_eq_splitOnP, collapsedText_eq, ← Slide.settled_eq]
    rfl
  · obtain ⟨rest, same⟩ := leads.trans within
    rw [← same] at unspaced
    exact unspaced rfl
  · obtain ⟨before, same⟩ := ends
    apply Text.getLast?_dropBlanks (collapse true node.speech)
    rw [← collapsedText_eq, ← same]
    exact List.getLast?_concat ..
  · obtain ⟨before, after, same⟩ := doubled.trans within.isInfix
    rw [← same] at single
    have chain := (List.isChain_append.mp (List.isChain_append.mp single).1).2.1
    exact (List.isChain_cons_cons.mp chain).1 ⟨rfl, rfl⟩

end SlidePress.Source
