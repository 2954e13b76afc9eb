import Mathlib.Data.List.Chain
import Mathlib.Data.List.TakeWhile
import SlidePress.Proofs.Html.Writer
import SlidePress.Proofs.Text.Case

/-! The trees that reading can build. `Grown outer node` says that a node can stand inside open
elements with the given tags, innermost first: its names are those that a reader produces, its
beginning closes nothing that is open around it, two texts are never neighbours, and what an
element may hold depends on its tag alone. Every token is sound, a sound token keeps a builder
sound, and so every document that is read has grown. -/

namespace SlidePress.Html

/-- An attribute name as a reader gives it: some bytes, none of which ends a name, in lower case. -/
structure AttributeName (name : Text) : Prop where
  some : name ≠ []
  bytes : ∀ byte ∈ name, Token.isAttributeNameByte byte = true
  lower : Text.lower name = name

structure TagName (tag : Text) : Prop where
  some : tag ≠ []
  bytes : ∀ byte ∈ tag, Token.isNameByte byte = true
  lower : Text.lower tag = tag

def Properties.Readable (attributes : Properties) : Prop :=
  ∀ entry ∈ attributes.entries, AttributeName entry.1

structure Element.Readable (head : Element) : Prop where
  tag : TagName head.tag
  attributes : Properties.Readable head.attributes

/-- An open element with the tag is met, innermost first, before any boundary. -/
def reaches (tag : Text) : List Text → Bool
  | [] => false
  | first :: outer => first == tag || (!closingBoundaries.contains first && reaches tag outer)

/-- The beginning of an element with the tag closes none of the open elements around it. -/
structure Opens (tag : Text) (outer : List Text) : Prop where
  paragraph : paragraphClosers.contains tag = true → reaches "p" outer = false
  item : tag = "li" → reaches "li" outer = false

structure HoldsNodes (tag : Text) : Prop where
  notVoid : voidTags.contains tag = false
  notRaw : rawTextTags.contains tag = false

theorem not_void_of_raw {tag : Text} (isRaw : rawTextTags.contains tag = true) :
    voidTags.contains tag = false := by
  simp only [rawTextTags, List.contains_cons, List.contains_nil, Bool.or_false, Bool.or_eq_true,
    beq_iff_eq] at isRaw
  rcases isRaw with rfl | rfl | rfl | rfl <;> decide

def Node.isText : Node → Bool
  | .text _ => true
  | .element _ _ => false

def Apart (children : List Node) : Prop :=
  children.IsChain fun first second => (first.isText && second.isText) = false

/-- Raw text that is written as it stands does not hold the end tag of its element. -/
def KeptRaw (tag content : Text) : Prop :=
  verbatimTags.contains tag = true → Token.splitAtEndTag? tag content = none

def textNodes (content : Text) : List Node := if content.isEmpty then [] else [.text content]

inductive Grown : List Text → Node → Prop where
  | text {outer : List Text} {content : Text} (some : content ≠ []) : Grown outer (.text content)
  | void {outer : List Text} {head : Element} (readable : head.Readable)
      (opens : Opens head.tag outer) (isVoid : voidTags.contains head.tag = true) :
      Grown outer (.element head [])
  | raw {outer : List Text} {head : Element} {content : Text} (readable : head.Readable)
      (opens : Opens head.tag outer) (isRaw : rawTextTags.contains head.tag = true)
      (kept : KeptRaw head.tag content) : Grown outer (.element head (textNodes content))
  | nodes {outer : List Text} {head : Element} {children : List Node} (readable : head.Readable)
      (opens : Opens head.tag outer) (holds : HoldsNodes head.tag) (apart : Apart children)
      (inner : ∀ child ∈ children, Grown (head.tag :: outer) child) :
      Grown outer (.element head children)

structure Siblings (outer : List Text) (children : List Node) : Prop where
  apart : Apart children
  grown : ∀ child ∈ children, Grown outer child

theorem eq_text_of_mem_textNodes {content : Text} {node : Node}
    (member : node ∈ textNodes content) : node = .text content := by
  unfold textNodes at member
  split at member
  · cases member
  · exact List.mem_singleton.mp member

theorem nodesOf_addText_nil (parent : Link) (content : Text) :
    nodesOf (addText parent content []) = textNodes content := by
  unfold addText textNodes
  split
  · rfl
  · rfl

theorem Apart.reverse {children : List Node} (apart : Apart children) :
    Apart children.reverse := by
  unfold Apart
  rw [List.isChain_reverse]
  exact apart.imp fun first second different => by rwa [Bool.and_comm]

namespace Siblings

variable {outer : List Text} {children : List Node}

theorem nil : Siblings outer [] := ⟨.nil, fun _ member => nomatch member⟩

theorem reverse (siblings : Siblings outer children) : Siblings outer children.reverse :=
  ⟨siblings.apart.reverse, fun child member => siblings.grown child (List.mem_reverse.mp member)⟩

theorem cons_element {head : Element} {inner : List Node}
    (grown : Grown outer (.element head inner)) (siblings : Siblings outer children) :
    Siblings outer (.element head inner :: children) := by
  refine ⟨siblings.apart.cons fun _ _ => rfl, ?_⟩
  intro child member
  rcases List.mem_cons.mp member with same | inside
  · exact same ▸ grown
  · exact siblings.grown child inside

theorem textNodes (content : Text) : Siblings outer (Html.textNodes content) := by
  unfold Html.textNodes
  split
  · exact nil
  · rename_i some
    rw [List.isEmpty_iff] at some
    refine ⟨.singleton _, fun child member => ?_⟩
    rw [List.mem_singleton.mp member]
    exact .text some

/-- A text that joins the one before it is as much apart from the rest as that one was. -/
theorem addText {children : List Linked} (siblings : Siblings outer (nodesOf children))
    (parent : Link) (content : Text) :
    Siblings outer (nodesOf (Html.addText parent content children)) := by
  unfold Html.addText
  split
  · exact siblings
  · rename_i some
    rw [List.isEmpty_iff] at some
    split
    · rename_i link previous rest
      obtain ⟨head, tail⟩ := List.isChain_cons.mp siblings.apart
      refine ⟨List.isChain_cons.mpr ⟨head, tail⟩, ?_⟩
      intro child member
      rcases List.mem_cons.mp member with same | inside
      · exact same ▸ Grown.text fun empty => some (List.append_eq_nil_iff.mp empty).2
      · exact siblings.grown child (List.mem_cons_of_mem _ inside)
    · rename_i noText
      refine ⟨List.isChain_cons.mpr ⟨?_, siblings.apart⟩, ?_⟩
      · intro next first
        match children with
        | .text link previous :: rest => exact (noText link previous rest rfl).elim
        | .element link head inner :: rest => cases first; rfl
      · intro child member
        rcases List.mem_cons.mp member with same | inside
        · exact same ▸ Grown.text some
        · exact siblings.grown child inside

end Siblings

namespace Grown

variable {outer : List Text} {head : Element} {children : List Node}

theorem eq_nil_of_void (grown : Grown outer (.element head children))
    (isVoid : voidTags.contains head.tag = true) : children = [] := by
  cases grown with
  | void => rfl
  | raw _ _ isRaw =>
      rw [not_void_of_raw isRaw] at isVoid
      cases isVoid
  | nodes _ _ holds =>
      rw [holds.notVoid] at isVoid
      cases isVoid

/-- What is inside an element has grown as well. -/
theorem exists_inside (grown : Grown outer (.element head children)) :
    ∀ child ∈ children, ∃ around, Grown around child := by
  cases grown with
  | void => exact List.forall_mem_nil _
  | raw => exact fun child member => ⟨outer, (Siblings.textNodes _).grown child member⟩
  | nodes _ _ _ _ inner => exact fun child member => ⟨_, inner child member⟩

end Grown

end SlidePress.Html

namespace SlidePress.Html.Token

theorem isNameByte_of_isLower (byte : UInt8) (small : Byte.isLower byte = true) :
    isNameByte byte = true := by
  simp [isNameByte, Byte.isAlphanumeric, Byte.isLetter, small]

theorem isAttributeNameByte_of_isLower (byte : UInt8) (small : Byte.isLower byte = true) :
    isAttributeNameByte byte = true := by
  simp only [Byte.isLower, Bool.and_eq_true, decide_eq_true_eq, UInt8.le_iff_toNat_le] at small
  simp only [isAttributeNameByte, Byte.isSpace, Bool.not_eq_true', Bool.or_eq_false_iff,
    Bool.and_eq_false_iff, decide_eq_false_iff_not, beq_eq_false_iff_ne, ne_eq, ← UInt8.toNat_inj,
    UInt8.le_iff_toNat_le]
  change 97 ≤ byte.toNat ∧ byte.toNat ≤ 122 at small
  change ((((¬ byte.toNat = 32) ∧ ((¬ 9 ≤ byte.toNat) ∨ ¬ byte.toNat ≤ 13)) ∧ ¬ byte.toNat = 61) ∧
    ¬ byte.toNat = 62) ∧ ¬ byte.toNat = 47
  omega

theorem lower_bytes {inside : UInt8 → Bool}
    (letters : ∀ byte, Byte.isLower byte = true → inside byte = true) (text : Text) :
    ∀ byte ∈ Text.lower (text.takeWhile inside), inside byte = true := by
  intro byte member
  obtain ⟨source, inner, rfl⟩ := List.mem_map.mp member
  exact Byte.class_toLower letters (List.mem_takeWhile_imp inner)

theorem lower_ne_nil {text : Text} (some : text ≠ []) : Text.lower text ≠ [] := by
  simpa [Text.lower] using some

theorem attributeName_lower {text : Text}
    (some : text.takeWhile isAttributeNameByte ≠ []) :
    AttributeName (Text.lower (text.takeWhile isAttributeNameByte)) :=
  ⟨lower_ne_nil some, lower_bytes isAttributeNameByte_of_isLower text, Text.lower_idem _⟩

theorem tagName_lower {text : Text} (some : text.takeWhile isNameByte ≠ []) :
    TagName (Text.lower (text.takeWhile isNameByte)) :=
  ⟨lower_ne_nil some, lower_bytes isNameByte_of_isLower text, Text.lower_idem _⟩

theorem readable_insertNew {found : Properties} {name value : Text}
    (readable : Properties.Readable found) (isName : AttributeName name) :
    Properties.Readable (found.insertNew name value) := by
  unfold Table.insertNew
  split
  · exact readable
  · intro entry member
    rcases Table.mem_insertEntry member with same | inside
    · exact same ▸ isName
    · exact readable entry inside

theorem readable_readAttributes {found : Properties} (readable : Properties.Readable found)
    (text : Text) : Properties.Readable (readAttributes found text).1 := by
  fun_induction readAttributes found text with
  | case1 => exact readable
  | case2 => exact readable
  | case3 => exact readable
  | case4 found text byte rest same _ _ name empty ih => exact ih readable
  | case5 found text byte rest same _ _ name some assigned ih =>
      have isName := attributeName_lower fun empty => some (List.isEmpty_iff.mpr empty)
      exact ih (readable_insertNew readable isName)

def endMark (tag : Text) : Text := "</" ++ tag

/-- An end tag is met where the lowered text begins with its mark. -/
theorem isPrefixOf_endMark {tag text : Text} :
    ("</" ++ tag).isPrefixOf (Text.lower (text.take (tag.length + 2))) = true ↔
      endMark tag <+: Text.lower text := by
  have same : Text.lower (text.take (tag.length + 2)) = (Text.lower text).take (tag.length + 2) :=
    List.map_take
  have size : (endMark tag).length ≤ tag.length + 2 := by
    rw [endMark, List.length_append, Nat.add_comm]
    exact Nat.le_refl _
  rw [List.isPrefixOf_iff_prefix, same]
  exact List.prefix_take_iff.trans ⟨And.left, fun found => ⟨found, size⟩⟩

theorem splitAtEndTag?_whole {tag text content left : Text}
    (found : splitAtEndTag? tag text = some (content, left)) : text = content ++ left := by
  induction text generalizing content with
  | nil => cases found
  | cons byte rest ih =>
      rw [splitAtEndTag?] at found
      split at found
      · cases found
        rfl
      · obtain ⟨⟨inner, tail⟩, inside, equal⟩ := Option.map_eq_some_iff.mp found
        cases equal
        rw [ih inside, List.cons_append]

/-- What is found before an end tag does not hold that end tag. -/
theorem splitAtEndTag?_content {tag text content left : Text}
    (found : splitAtEndTag? tag text = some (content, left)) :
    splitAtEndTag? tag content = none := by
  induction text generalizing content with
  | nil => cases found
  | cons byte rest ih =>
      rw [splitAtEndTag?] at found
      split at found
      · cases found
        rfl
      · rename_i absent
        obtain ⟨⟨inner, tail⟩, inside, equal⟩ := Option.map_eq_some_iff.mp found
        cases equal
        rw [splitAtEndTag?, ih inside, if_neg, Option.map_none]
        intro present
        apply absent
        rw [isPrefixOf_endMark] at present ⊢
        have longer : Text.lower (byte :: inner) <+: Text.lower (byte :: rest) := by
          rw [splitAtEndTag?_whole inside, ← List.cons_append, Text.lower_append]
          exact List.prefix_append _ _
        exact present.trans longer

/-- What every token that is read satisfies. -/
def Sound : Token → Prop
  | .startTag head selfClosing =>
      head.Readable ∧ (selfClosing = false → rawTextTags.contains head.tag = false)
  | .rawElement head content _ =>
      head.Readable ∧ rawTextTags.contains head.tag = true ∧ KeptRaw head.tag content
  | _ => True

theorem not_verbatim_of_reference {tag : Text} (decoded : referenceTags.contains tag = true) :
    verbatimTags.contains tag = false := by
  simp only [referenceTags, List.contains_cons, List.contains_nil, Bool.or_false, Bool.or_eq_true,
    beq_iff_eq] at decoded
  rcases decoded with rfl | rfl <;> decide

theorem sound_readRaw {head : Element} (readable : head.Readable)
    (isRaw : rawTextTags.contains head.tag = true) (text : Text) : (readRaw head text).1.Sound := by
  have kept : ∀ content, splitAtEndTag? head.tag content = none →
      KeptRaw head.tag (if referenceTags.contains head.tag then Reference.decode content else content) := by
    intro content absent verbatim
    split
    · rename_i decoded
      rw [not_verbatim_of_reference decoded] at verbatim
      cases verbatim
    · exact absent
  unfold readRaw
  split
  rename_i content left closed same
  refine ⟨readable, isRaw, kept content ?_⟩
  split at same
  · rename_i found
    cases same
    exact splitAtEndTag?_content found
  · rename_i missing
    cases same
    exact missing

theorem sound_readStartTag? {text : Text} {result : Token × Text}
    (found : readStartTag? text = some result) : result.1.Sound := by
  unfold readStartTag? at found
  dsimp only at found
  split at found
  · cases found
  · rename_i some
    cases found
    have readable : Element.Readable
        ⟨Text.lower (text.takeWhile isNameByte),
          (readAttributes ∅ (text.dropWhile isNameByte)).1⟩ :=
      ⟨tagName_lower (by simpa using some),
        readable_readAttributes (fun entry member => (List.not_mem_nil member).elim) _⟩
    unfold readHead
    dsimp only
    split
    · rename_i raw
      rw [Bool.and_eq_true] at raw
      exact sound_readRaw readable raw.2 _
    · rename_i notRaw
      refine ⟨readable, fun opened => ?_⟩
      dsimp only at opened notRaw ⊢
      rw [opened] at notRaw
      simpa using notRaw

theorem sound_read (first : UInt8) (rest : Text) : (read first rest).1.Sound := by
  unfold read
  split
  · unfold readMarkup
    split
    · unfold readComment
      split <;> trivial
    · split
      · trivial
      · split
        · unfold readDeclaration
          split <;> trivial
        · cases found : readStartTag? rest with
          | none => trivial
          | some result => exact sound_readStartTag? found
  · trivial

theorem sound_readAll (text : Text) : ∀ token ∈ readAll text, token.Sound := by
  fun_induction readAll text with
  | case1 => exact fun token member => nomatch member
  | case2 first rest ih =>
      intro token member
      rcases List.mem_cons.mp member with same | later
      · exact same ▸ sound_read first rest
      · exact ih token later

end SlidePress.Html.Token

namespace SlidePress.Html

def openTags (frames : List Frame) : List Text := frames.map (·.head.tag)

/-- Open elements each of which could be opened inside the others around it. -/
inductive OpenFrames : List Frame → Prop where
  | nil : OpenFrames []
  | cons {frame : Frame} {outer : List Frame} (rest : OpenFrames outer)
      (readable : frame.head.Readable) (opens : Opens frame.head.tag (openTags outer))
      (holds : HoldsNodes frame.head.tag)
      (siblings : Siblings (frame.head.tag :: openTags outer) (nodesOf frame.children)) :
      OpenFrames (frame :: outer)

namespace Builder

/-- What holds of a builder goes on to hold when something is warned of or closed. -/
structure Kept (holds : Builder → Prop) : Prop where
  warn : ∀ {builder : Builder}, holds builder → ∀ warning, holds (builder.warn warning)
  close : ∀ {builder : Builder}, holds builder → holds builder.close

namespace Kept

variable {holds : Builder → Prop} (kept : Kept holds) {builder : Builder} (held : holds builder)
include kept held

theorem closeMany (count : Nat) : holds (Builder.closeMany count builder) := by
  induction count generalizing builder with
  | zero => exact held
  | succ count ih => exact ih (kept.close held)

theorem closeImplicitly (tag : Text) : holds (Builder.closeImplicitly tag builder) := by
  unfold Builder.closeImplicitly
  split
  · exact kept.closeMany held _
  · exact held

theorem prepareFor (tag : Text) : holds (Builder.prepareFor tag builder) := by
  have first : holds (if paragraphClosers.contains tag then
      Builder.closeImplicitly "p" builder else builder) := by
    split
    · exact kept.closeImplicitly held _
    · exact held
  unfold Builder.prepareFor
  dsimp only
  split
  · exact kept.closeImplicitly first _
  · exact first

theorem endTag (tag : Text) : holds (builder.endTag tag) := by
  have warned : ∀ (between : List Frame) (builder : Builder), holds builder →
      holds (between.foldl
        (fun builder frame => builder.warn (.closedBy frame.head.tag tag)) builder) := by
    intro between
    induction between with
    | nil => exact fun builder held => held
    | cons frame rest ih => exact fun builder held => ih _ (kept.warn held _)
  unfold Builder.endTag
  split
  · exact held
  · split
    · exact kept.warn held _
    · split
      · exact kept.warn held _
      · exact kept.closeMany (warned _ builder held) _

end Kept

structure Sound (builder : Builder) : Prop where
  frames : OpenFrames builder.frames
  roots : Siblings [] (nodesOf builder.roots)

variable {builder : Builder}

theorem sound_start : Sound start := ⟨.nil, .nil⟩

theorem Sound.warn (sound : Sound builder) (warning : Warning) : Sound (builder.warn warning) :=
  ⟨sound.frames, sound.roots⟩

/-- A builder stays sound when its latest children are changed to others that may stand there. -/
theorem Sound.change (sound : Sound builder) {edit : List Linked → List Linked}
    (keeps : ∀ {children}, Siblings (openTags builder.frames) (nodesOf children) →
      Siblings (openTags builder.frames) (nodesOf (edit children))) :
    Sound (builder.change edit) := by
  obtain ⟨frames, roots, warnings⟩ := builder
  cases frames with
  | nil => exact ⟨.nil, keeps sound.roots⟩
  | cons frame outer =>
      obtain ⟨frames, roots⟩ := sound
      cases frames with
      | cons rest readable opens holds siblings =>
          exact ⟨.cons rest readable opens holds (keeps siblings), roots⟩

theorem Sound.close (sound : Sound builder) : Sound builder.close := by
  obtain ⟨frames, roots, warnings⟩ := builder
  cases frames with
  | nil => exact sound
  | cons frame outer =>
      obtain ⟨frames, inRoots⟩ := sound
      cases frames with
      | cons rest readable opens holds siblings =>
          have closed : Sound ⟨outer, roots, warnings⟩ := ⟨rest, inRoots⟩
          have inner := siblings.reverse
          rw [← nodesOf_reverse] at inner
          exact closed.change fun others =>
            others.cons_element (.nodes readable opens holds inner.apart inner.grown)

theorem frames_close (builder : Builder) :
    openTags builder.close.frames = (openTags builder.frames).drop 1 := by
  obtain ⟨frames, roots, warnings⟩ := builder
  cases frames with
  | nil => rfl
  | cons frame outer => cases outer <;> rfl

theorem kept_sound : Kept Sound := ⟨Sound.warn, Sound.close⟩

theorem openTags_closeMany (count : Nat) (builder : Builder) :
    openTags (closeMany count builder).frames = (openTags builder.frames).drop count := by
  induction count generalizing builder with
  | zero => rfl
  | succ count ih => rw [closeMany, ih, frames_close, List.drop_drop, Nat.add_comm]

theorem framesTo?_eq_none {tag : Text} {frames : List Frame} :
    framesTo? tag closingBoundaries frames = none ↔ reaches tag (openTags frames) = false := by
  induction frames with
  | nil => simp [framesTo?, openTags, reaches]
  | cons frame outer ih =>
      change _ ↔ (frame.head.tag == tag || (!closingBoundaries.contains frame.head.tag &&
        reaches tag (openTags outer))) = false
      rw [framesTo?]
      cases frame.head.tag == tag with
      | true => simp
      | false =>
          cases closingBoundaries.contains frame.head.tag with
          | true => simp
          | false => simpa using ih

/-- Once the innermost element that is reached is closed, a tag that closes its own kind is reached
no more: the elements around the closed one were not reached when it was opened. -/
theorem reaches_after {tag : Text}
    (closesOwn : ∀ outer, Opens tag outer → reaches tag outer = false) {frames : List Frame}
    (opened : OpenFrames frames) {count : Nat}
    (found : framesTo? tag closingBoundaries frames = some count) :
    reaches tag ((openTags frames).drop count) = false := by
  induction opened generalizing count with
  | nil => cases found
  | cons rest readable opens holds siblings ih =>
      rename_i frame outer
      rw [framesTo?] at found
      split at found
      · rename_i same
        cases found
        exact closesOwn _ (beq_iff_eq.mp same ▸ opens)
      · split at found
        · cases found
        · obtain ⟨inner, inside, equal⟩ := Option.map_eq_some_iff.mp found
          cases equal
          exact ih inside

theorem reaches_closeImplicitly {tag : Text}
    (closesOwn : ∀ outer, Opens tag outer → reaches tag outer = false) (sound : Sound builder) :
    reaches tag (openTags (closeImplicitly tag builder).frames) = false := by
  unfold closeImplicitly
  split
  · rename_i count found
    rw [openTags_closeMany]
    exact reaches_after closesOwn sound.frames found
  · rename_i missing
    exact framesTo?_eq_none.mp missing

theorem not_closer_item : paragraphClosers.contains ("li" : Text) = false := by decide

/-- What the beginning of an element closes is enough for it to be opened. -/
theorem opens_prepareFor (sound : Sound builder) (tag : Text) :
    Opens tag (openTags (prepareFor tag builder).frames) := by
  by_cases item : tag = "li"
  · subst item
    refine ⟨fun closer => ?_, fun _ => ?_⟩
    · rw [not_closer_item] at closer
      cases closer
    · have same : prepareFor "li" builder = closeImplicitly "li" builder := by
        simp only [prepareFor, not_closer_item, Bool.false_eq_true, if_false, beq_self_eq_true,
          if_true]
      rw [same]
      exact reaches_closeImplicitly (fun _ opens => opens.item rfl) sound
  · refine ⟨fun closer => ?_, fun same => (item same).elim⟩
    have same : prepareFor tag builder = closeImplicitly "p" builder := by
      simp only [prepareFor, closer, if_true, beq_iff_eq, if_neg item]
    rw [same]
    exact reaches_closeImplicitly (fun _ opens => opens.paragraph (by decide)) sound

/-- The step of the reader: a sound token keeps a builder sound. -/
theorem Sound.add (sound : Sound builder) {token : Token} (isSound : token.Sound) :
    Sound (builder.add token) := by
  cases token with
  | text content => exact sound.change fun siblings => siblings.addText _ content
  | strayBracket => exact (sound.warn _).change fun siblings => siblings.addText _ "<"
  | comment closed =>
      cases closed with
      | true => exact sound
      | false => exact sound.warn _
  | declaration closed =>
      cases closed with
      | true => exact sound
      | false => exact sound.warn _
  | endTag tag => exact kept_sound.endTag sound tag
  | startTag head selfClosing =>
      obtain ⟨readable, notRaw⟩ := isSound
      have prepared := kept_sound.prepareFor sound head.tag
      have opens := opens_prepareFor sound head.tag
      simp only [Builder.add]
      split
      · rename_i empty
        refine prepared.change fun siblings => siblings.cons_element ?_
        cases void : voidTags.contains head.tag with
        | true => exact .void readable opens void
        | false =>
            cases raw : rawTextTags.contains head.tag with
            | true =>
                have kept : KeptRaw head.tag [] := fun _ => rfl
                exact Grown.raw readable opens raw kept
            | false => exact .nodes readable opens ⟨void, raw⟩ .nil (fun _ member => nomatch member)
      · rename_i opened
        simp only [Bool.or_eq_true, not_or, Bool.not_eq_true] at opened
        exact ⟨.cons prepared.frames readable opens ⟨opened.2, notRaw opened.1⟩ .nil, prepared.roots⟩
  | rawElement head content closed =>
      obtain ⟨readable, isRaw, kept⟩ := isSound
      have prepared := kept_sound.prepareFor sound head.tag
      have opens := opens_prepareFor sound head.tag
      have added : ∀ (link own : Link) {children : List Linked},
          Siblings (openTags (Builder.prepareFor head.tag builder).frames) (nodesOf children) →
          Siblings (openTags (Builder.prepareFor head.tag builder).frames)
            (nodesOf (.element link head (addText own content []) :: children)) := by
        intro link own children siblings
        rw [nodesOf, Linked.node, nodesOf_addText_nil]
        exact siblings.cons_element (.raw readable opens isRaw kept)
      cases closed with
      | true => exact prepared.change (added _ _)
      | false => exact (prepared.warn _).change (added _ _)

theorem Sound.addAll (sound : Sound builder) {tokens : List Token}
    (allSound : ∀ token ∈ tokens, token.Sound) : Sound (tokens.foldl Builder.add builder) := by
  induction tokens generalizing builder with
  | nil => exact sound
  | cons token rest ih =>
      exact ih (sound.add (allSound token List.mem_cons_self))
        fun other member => allSound other (List.mem_cons_of_mem _ member)

end Builder

/-- Every document that is read has grown. -/
theorem siblings_parse (html : Text) : Siblings [] (Document.parse html).1.children := by
  have sound := Builder.sound_start.addAll (Token.sound_readAll html)
  change Siblings [] (nodesOf (Builder.closeMany _ _).roots.reverse)
  rw [nodesOf_reverse]
  exact (Builder.kept_sound.closeMany sound _).roots.reverse

end SlidePress.Html
