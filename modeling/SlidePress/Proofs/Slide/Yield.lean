import SlidePress.Proofs.Slide.Walk

/-! What nodes bring to a mapping: primitives, findings and notes. `Brings` says how a mapping grows
by what is brought; each way in which the mapping handles a node is described by it once. From the
step of a single node follows what a numbered tree maps to: everything that its nodes bring where
they stand, in document order. -/

namespace SlidePress.Slide

open Source (Node NodeRef Tree Kind Size Placed placedAll subtrees)
open Style

def imageBody (node : Node) : Body :=
  .image (node.valueOf "src")
    (fitImage node.box (Number.leading (node.valueOf "width")) (Number.leading (node.valueOf "height")))

structure Sketch where
  frame : Rect Number
  zOrder : Nat
  source : NodeRef
  body : Body

def Primitive.sketch (primitive : Primitive) : Sketch :=
  ⟨primitive.header.frame, primitive.header.zOrder, primitive.header.source, primitive.body⟩

def sketchOf (node : Node) (body : Body) : Sketch :=
  ⟨node.box, node.order, node.ref, body⟩

/-- What a node is shown as by itself, told whether it is in a text. -/
def pickSketch (roles : List Role) : Bool → Node → List Sketch
  | true, node => if isShownImage node then [sketchOf node (imageBody node)] else []
  | false, node =>
      match roleOf roles node with
      | .textBlock =>
          if (textContent node).runs.isEmpty then [] else [sketchOf node (.text (textContent node))]
      | .shapeContainer => [sketchOf node (.shape (shapeStyle node))]
      | .image => [sketchOf node (imageBody node)]
      | .placeholder => [sketchOf node .placeholder]
      | _ => []

def elementFindings (limit : Nat) (node : Node) : List Finding :=
  if node.kind != .text then
    (styleFinding? limit node).toList ++ (gradientFinding? limit node).toList
  else []

/-- The findings at a node, told whether it is in a text. -/
def pickFinding (roles : List Role) (limit : Nat) : Bool → Node → List Finding
  | true, node => elementFindings limit node
  | false, node =>
      match roleOf roles node with
      | .textBlock => elementFindings limit node
      | .shapeContainer => (gradientFinding? limit node).toList
      | _ => []

/-- How the note about a text outside of every block begins. -/
def strayHead (path : Text) : Text := "text outside a text element at " ++ path ++ ": \""

def strayNote (limit : Nat) (node : Node) : Text :=
  strayHead node.path ++ Utf8.excerpt limit node.collapsedText ++ "\""

def showsText (node : Node) : Bool := node.kind == .text && !node.collapsedText.isEmpty

/-- The notes about what the style of a shape loses. -/
def shapeNotes (node : Node) : List Text :=
  (droppedStyle node).map fun what => what ++ " on <" ++ node.tag ++ "> at " ++ node.path

/-- What is noted at a node, told whether it is in a text. -/
def pickNote (roles : List Role) (limit : Nat) : Bool → Node → List Text
  | true, _ => []
  | false, node =>
      match roleOf roles node with
      | .textBlock =>
          if (textContent node).runs.isEmpty then ["empty <" ++ node.tag ++ "> at " ++ node.path]
          else []
      | .shapeContainer => shapeNotes node
      | .ignorable => if showsText node then [strayNote limit node] else []
      | _ => []

theorem textFindings_eq (limit : Nat) (block : Node) :
    textFindings limit block =
      elementFindings limit block ++ block.inside.flatMap (elementFindings limit) := by
  rw [textFindings, Node.subtree_eq, ← List.flatMap_cons]
  induction block :: block.inside with
  | nil => rfl
  | cons node rest ih =>
      rw [List.filter_cons, List.flatMap_cons, elementFindings, ← ih]
      split
      · rw [List.flatMap_cons]
      · rfl

structure Yield where
  sketches : List Sketch := []
  findings : List Finding := []
  notes : List Text := []

def Yield.append (first second : Yield) : Yield :=
  ⟨first.sketches ++ second.sketches, first.findings ++ second.findings, first.notes ++ second.notes⟩

namespace Mapping

def sketches (mapping : Mapping) : List Sketch := mapping.primitives.map Primitive.sketch

/-- The mapping grows by a yield. -/
structure Brings (yield : Yield) (before after : Mapping) : Prop where
  sketches : after.sketches = yield.sketches.reverse ++ before.sketches
  findings : after.findings = yield.findings.reverse ++ before.findings
  notes : after.degradations = yield.notes.reverse ++ before.degradations

namespace Brings

theorem nothing (mapping : Mapping) : Brings {} mapping mapping := ⟨rfl, rfl, rfl⟩

theorem trans {first second : Yield} {before between after : Mapping}
    (brings : Brings first before between) (bringsMore : Brings second between after) :
    Brings (first.append second) before after := by
  constructor
  · rw [bringsMore.sketches, brings.sketches, Yield.append, List.reverse_append, List.append_assoc]
  · rw [bringsMore.findings, brings.findings, Yield.append, List.reverse_append, List.append_assoc]
  · rw [bringsMore.notes, brings.notes, Yield.append, List.reverse_append, List.append_assoc]

variable (mapping : Mapping) (node : Node)

theorem note (findings : List Finding) :
    Brings { findings } mapping (mapping.note findings) := ⟨rfl, rfl, rfl⟩

theorem degrade (what : Text) : Brings { notes := [what] } mapping (mapping.degrade what) :=
  ⟨rfl, rfl, rfl⟩

/-- Counting a primitive brings nothing by itself. -/
theorem emit {counted : Mapping} (same : Brings {} mapping counted) (id : Text) (body : Body) :
    Brings { sketches := [sketchOf node body] } mapping (counted.emit ⟨headerOf node id, body⟩) := by
  refine ⟨?_, same.findings, same.notes⟩
  exact congrArg (sketchOf node body :: ·) same.sketches

theorem emitImage :
    Brings { sketches := [sketchOf node (imageBody node)] } mapping (mapping.emitImage node) :=
  ⟨rfl, rfl, rfl⟩

theorem emitImages (nodes : List Node) :
    Brings { sketches := nodes.map fun image => sketchOf image (imageBody image) } mapping
      (nodes.foldl Mapping.emitImage mapping) := by
  induction nodes generalizing mapping with
  | nil => exact nothing mapping
  | cons image rest ih => exact (emitImage mapping image).trans (ih (mapping.emitImage image))

theorem degradeAll (phrase : Text → Text) (dropped : List Text) :
    Brings { notes := dropped.map phrase } mapping
      (dropped.foldl (fun mapping what => mapping.degrade (phrase what)) mapping) := by
  induction dropped generalizing mapping with
  | nil => exact nothing mapping
  | cons what rest ih =>
      exact (degrade mapping (phrase what)).trans (ih (mapping.degrade (phrase what)))

theorem addText (roles : List Role) (limit : Nat) (isBlock : roleOf roles node = .textBlock) :
    Brings
      ⟨pickSketch roles false node ++ node.inside.flatMap (pickSketch roles true),
        textFindings limit node, pickNote roles limit false node⟩
      mapping (mapping.addText limit node) := by
  have images : node.inside.flatMap (pickSketch roles true) =
      (node.inside.filter isShownImage).map fun image => sketchOf image (imageBody image) :=
    flatMap_ite_singleton isShownImage (fun image => sketchOf image (imageBody image)) node.inside
  have total : ∀ own notes, (Yield.append (.append { findings := textFindings limit node }
      { sketches := own, notes }) { sketches := node.inside.flatMap (pickSketch roles true) }) =
        ⟨own ++ node.inside.flatMap (pickSketch roles true), textFindings limit node, notes⟩ := by
    intro own notes
    simp [Yield.append]
  rw [← total, images, pickSketch, pickNote, isBlock, Mapping.addText]
  dsimp only
  refine ((note mapping (textFindings limit node)).trans ?_).trans (emitImages _ _)
  cases (textContent node).runs.isEmpty with
  | true => exact degrade _ _
  | false =>
      refine emit _ node ?_ _ _
      exact ⟨rfl, rfl, rfl⟩

theorem addShape (limit : Nat) :
    Brings ⟨[sketchOf node (.shape (shapeStyle node))], (gradientFinding? limit node).toList,
      shapeNotes node⟩ mapping (mapping.addShape limit node) := by
  have total : Yield.append (.append { findings := (gradientFinding? limit node).toList }
      { notes := shapeNotes node }) { sketches := [sketchOf node (.shape (shapeStyle node))] } =
        ⟨[sketchOf node (.shape (shapeStyle node))], (gradientFinding? limit node).toList,
          shapeNotes node⟩ := by
    simp [Yield.append]
  rw [← total]
  refine ((note mapping (gradientFinding? limit node).toList).trans (degradeAll _
    (fun what => what ++ " on <" ++ node.tag ++ "> at " ++ node.path) (droppedStyle node))).trans ?_
  refine emit _ node ?_ _ _
  exact ⟨rfl, rfl, rfl⟩

theorem addPlaceholder (authorIds : List Text) :
    Brings { sketches := [sketchOf node .placeholder] } mapping
      (mapping.addPlaceholder authorIds node) := by
  unfold Mapping.addPlaceholder
  dsimp only
  split
  · refine emit mapping node ?_ _ _
    exact ⟨rfl, rfl, rfl⟩
  · exact emit mapping node (nothing mapping) _ _

theorem addIgnorable (limit : Nat) :
    Brings { notes := if showsText node then [strayNote limit node] else [] } mapping
      (mapping.addIgnorable limit node) := by
  rw [Mapping.addIgnorable, showsText]
  cases node.kind == .text with
  | false => exact nothing mapping
  | true =>
      dsimp only
      cases node.collapsedText.isEmpty with
      | true => exact nothing mapping
      | false => exact degrade mapping _

/-- The step: a node brings what it picks by itself, and a block of text also what the nodes inside
it pick. -/
theorem add (context : MappingContext) :
    Brings
      ⟨spread context.roles (pickSketch context.roles) node,
        spread context.roles (pickFinding context.roles context.excerptLimit) node,
        spread context.roles (pickNote context.roles context.excerptLimit) node⟩
      mapping (mapping.add context node) := by
  unfold Mapping.add spread
  cases role : roleOf context.roles node with
  | textBlock =>
      have brings := addText mapping node context.roles context.excerptLimit role
      have silent : node.inside.flatMap (pickNote context.roles context.excerptLimit true) = [] :=
        List.flatMap_eq_nil_iff.mpr fun _ _ => rfl
      rw [textFindings_eq] at brings
      simp only [beq_self_eq_true, if_true]
      rw [silent, List.append_nil]
      have own : pickFinding context.roles context.excerptLimit false node =
          elementFindings context.excerptLimit node := by rw [pickFinding, role]
      rw [own]
      exact brings
  | shapeContainer =>
      simp only [pickSketch, pickFinding, pickNote, role]
      exact addShape mapping node context.excerptLimit
  | image =>
      simp only [pickSketch, pickFinding, pickNote, role]
      exact emitImage mapping node
  | placeholder =>
      simp only [pickSketch, pickFinding, pickNote, role]
      exact addPlaceholder mapping node context.authorIds
  | ignorable =>
      simp only [pickSketch, pickFinding, pickNote, role]
      exact addIgnorable mapping node context.excerptLimit
  | inline =>
      simp only [pickSketch, pickFinding, pickNote, role]
      exact nothing mapping

end Brings

end Mapping

def mapNumbered (placeholderClass : Text) (limit : Nat) (root : Node) (declared : Size) :
    MappedDocument :=
  mapDocument (numberedRoles placeholderClass root declared) limit (Tree.numbered ⟨some root, declared⟩)

/-- The run: a mapping has what the nodes below the root bring where they stand. -/
theorem yields_mapDocument (placeholderClass : Text) (limit : Nat) (root : Node) (declared : Size) :
    let roles := numberedRoles placeholderClass root declared
    let mapped := mapNumbered placeholderClass limit root declared
    mapped.primitives.map Primitive.sketch =
        root.numbered.descendants.flatMap (pickAt roles (pickSketch roles)) ∧
      mapped.findings = root.numbered.descendants.flatMap (pickAt roles (pickFinding roles limit)) ∧
      mapped.degradations = root.numbered.descendants.flatMap (pickAt roles (pickNote roles limit)) := by
  intro roles mapped
  have step := fun mapping node =>
    Mapping.Brings.add mapping node ⟨roles, authorIds roles root.numbered, limit⟩
  rw [← flatMap_visitedAll, ← flatMap_visitedAll, ← flatMap_visitedAll]
  refine ⟨?_, ?_, ?_⟩
  · rw [← Mapping.visitAll_gathers (fun mapping node => (step mapping node).sketches) rfl]
    exact List.map_reverse
  · exact Mapping.visitAll_gathers (fun mapping node => (step mapping node).findings) rfl _
  · exact Mapping.visitAll_gathers (fun mapping node => (step mapping node).notes) rfl _

end SlidePress.Slide
