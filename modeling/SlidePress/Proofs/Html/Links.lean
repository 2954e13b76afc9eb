import SlidePress.Proofs.Html.Grown

/-! Who holds a node, by the links that are set when nodes are added. While a document is built, an
open element has the link of the place where it will stand once it is closed, and every finished node is
linked to the node that holds it. So in the end the link of each node leads to the one that holds it. -/

namespace SlidePress.Html

/-- Children of the node that a link leads to: at every depth, the link of a node leads to the node that
holds it. -/
def LinksFrom (link : Link) (children : List Linked) : Prop :=
  ∀ below inside, childrenAt? children below = some inside →
    ∀ child ∈ inside, child.parent = link ++ below

theorem linksFrom_iff {link : Link} {children : List Linked} :
    LinksFrom link children ↔ (∀ child ∈ children, child.parent = link) ∧
      ∀ index child, children[index]? = some child → LinksFrom (link ++ [index]) child.children := by
  constructor
  · intro links
    refine ⟨fun child member => ?_, fun index child isChild below inside found => ?_⟩
    · rw [links [] children rfl child member, List.append_nil]
    · intro deeper member
      have inner : childrenAt? children (index :: below) = some inside := by
        rw [childrenAt?, isChild]
        exact found
      rw [links _ _ inner deeper member, List.append_assoc, List.singleton_append]
  · rintro ⟨own, inner⟩ below inside found
    cases below with
    | nil =>
        obtain rfl := Option.some.inj found
        rw [List.append_nil]
        exact own
    | cons index below =>
        rw [childrenAt?] at found
        split at found
        · rename_i child isChild
          intro deeper member
          rw [inner index child isChild below inside found deeper member, List.append_assoc,
            List.singleton_append]
        · cases found

namespace LinksFrom

variable {link : Link} {children : List Linked}

theorem nil (link : Link) : LinksFrom link [] :=
  linksFrom_iff.mpr ⟨List.forall_mem_nil _, fun _ _ isChild => nomatch isChild⟩

/-- A node that comes behind others stands where they end. -/
theorem concat (links : LinksFrom link children) {child : Linked} (parent : child.parent = link)
    (inner : LinksFrom (link ++ [children.length]) child.children) :
    LinksFrom link (children ++ [child]) := by
  obtain ⟨own, inside⟩ := linksFrom_iff.mp links
  refine linksFrom_iff.mpr ⟨?_, fun index other isOther => ?_⟩
  · exact List.forall_mem_append.mpr ⟨own, List.forall_mem_singleton.mpr parent⟩
  · rw [List.getElem?_append] at isOther
    split at isOther
    · exact inside index other isOther
    · rename_i behind
      rw [List.getElem?_singleton] at isOther
      split at isOther
      · rename_i last
        obtain rfl := Option.some.inj isOther
        have same : index = children.length := by omega
        exact same ▸ inner
      · cases isOther

theorem of_concat {child : Linked} (links : LinksFrom link (children ++ [child])) :
    LinksFrom link children ∧ child.parent = link := by
  obtain ⟨own, inside⟩ := linksFrom_iff.mp links
  obtain ⟨before, last⟩ := List.forall_mem_append.mp own
  refine ⟨linksFrom_iff.mpr ⟨before, fun index other isOther => ?_⟩,
    last child (List.mem_singleton_self child)⟩
  refine inside index other ?_
  rw [List.getElem?_append_left (List.getElem?_eq_some_iff.mp isOther).1, isOther]

/-- A text that joins the one before it leaves that one where it is. -/
theorem addText (links : LinksFrom link children.reverse) (content : Text) :
    LinksFrom link (Html.addText link content children).reverse := by
  unfold Html.addText
  split
  · exact links
  · split
    · rename_i parent previous rest
      rw [List.reverse_cons] at links ⊢
      obtain ⟨before, parent⟩ := links.of_concat
      exact before.concat parent (nil _)
    · rw [List.reverse_cons]
      exact links.concat rfl (nil _)

/-- The content of an element that holds nothing but text. -/
theorem text (link : Link) (content : Text) : LinksFrom link (Html.addText link content []) := by
  cases content with
  | nil => exact nil link
  | cons byte rest => exact (nil link).concat rfl (nil _)

theorem add_element (links : LinksFrom link children.reverse) {head : Element}
    {inside : List Linked} (inner : LinksFrom (link ++ [children.length]) inside) :
    LinksFrom link (Linked.element link head inside :: children).reverse := by
  rw [List.reverse_cons]
  refine links.concat rfl ?_
  rw [List.length_reverse]
  exact inner

end LinksFrom

/-! ## Builders -/

/-- Open elements that are linked to the ones around them, and so is what they hold. -/
inductive LinkedFrames (roots : List Linked) : List Frame → Prop where
  | nil : LinkedFrames roots []
  | cons {frame : Frame} {outer : List Frame} (rest : LinkedFrames roots outer)
      (parent : frame.parent = linkTo roots outer)
      (inner : LinksFrom (linkTo roots (frame :: outer)) frame.children.reverse) :
      LinkedFrames roots (frame :: outer)

namespace Builder

structure Links (builder : Builder) : Prop where
  frames : LinkedFrames builder.roots builder.frames
  roots : LinksFrom [] builder.roots.reverse

namespace Links

variable {builder : Builder} (links : Links builder)

theorem start : Links Builder.start := ⟨.nil, .nil _⟩

include links

theorem warn (warning : Warning) : Links (builder.warn warning) := ⟨links.frames, links.roots⟩

/-- What is added to the innermost open element is linked to it. -/
theorem change {edit : List Linked → List Linked}
    (keeps : LinksFrom builder.here builder.children.reverse →
      LinksFrom builder.here (edit builder.children).reverse) : Links (builder.change edit) := by
  obtain ⟨frames, roots, warnings⟩ := builder
  obtain ⟨inFrames, inRoots⟩ := links
  cases inFrames with
  | nil => exact ⟨.nil, keeps inRoots⟩
  | cons rest parent inner => exact ⟨.cons rest parent (keeps inner), inRoots⟩

theorem close : Links builder.close := by
  obtain ⟨frames, roots, warnings⟩ := builder
  obtain ⟨inFrames, inRoots⟩ := links
  cases inFrames with
  | nil => exact ⟨.nil, inRoots⟩
  | @cons frame outer rest parent inner =>
      have closed : Links ⟨outer, roots, warnings⟩ := ⟨rest, inRoots⟩
      refine closed.change fun others => ?_
      rw [parent]
      exact others.add_element inner

omit links in
theorem kept : Kept Links := ⟨fun links => links.warn, fun links => links.close⟩

/-- The step of the reader: whatever a token adds is linked to the element that it is added to. -/
theorem add (token : Token) : Links (builder.add token) := by
  cases token with
  | text content => exact links.change fun others => others.addText content
  | strayBracket => exact (links.warn _).change fun others => others.addText "<"
  | comment closed =>
      cases closed with
      | true => exact links
      | false => exact links.warn _
  | declaration closed =>
      cases closed with
      | true => exact links
      | false => exact links.warn _
  | endTag tag => exact kept.endTag links tag
  | startTag head selfClosing =>
      have prepared := kept.prepareFor links head.tag
      simp only [Builder.add]
      split
      · exact prepared.change fun others => others.add_element (.nil _)
      · exact ⟨.cons prepared.frames rfl (.nil _), prepared.roots⟩
  | rawElement head content closed =>
      have prepared := kept.prepareFor links head.tag
      cases closed with
      | true => exact prepared.change fun others => others.add_element (.text _ content)
      | false => exact (prepared.warn _).change fun others => others.add_element (.text _ content)

theorem addAll (tokens : List Token) : Links (tokens.foldl Builder.add builder) := by
  induction tokens generalizing builder with
  | nil => exact links
  | cons token rest ih => exact ih (links.add token)

end Links

end Builder

/-- Whatever is read, every node is linked to the one that holds it, and those that nothing else holds
to the document. -/
theorem linksFrom_parse (html : Text) : LinksFrom [] (Linked.parse html).1 :=
  (Builder.Links.kept.closeMany (Builder.Links.start.addAll (Token.readAll html)) _).roots

end SlidePress.Html
