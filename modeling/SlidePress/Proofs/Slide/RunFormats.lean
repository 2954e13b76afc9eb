import Mathlib.Data.List.Chain
import Mathlib.Data.List.Forall2
import SlidePress.Proofs.Slide.Spots
import SlidePress.Proofs.Slide.TextKept

/-! The formats of runs. Each visible byte inside a block keeps the format of its text on the way
through segments to runs, up to colors that count as equal; and two runs in a row have different
formats unless a paragraph or an item begins between them. Equality of colors compares opacities
as numbers, so it is symmetric and transitive, but a color whose opacity is no number equals
nothing. -/

namespace SlidePress.Number

open Float.Model (UnpackedFloat)

/-- Values that compare as equal are the same or both zero. -/
theorem eq_or_zero_of_compare {first second : UnpackedFloat}
    (same : first.compare second = some .eq) :
    first = second ∨ ∃ sign other, first = .zero sign ∧ second = .zero other := by
  cases first with
  | notANumber => cases same
  | infinity sign =>
      cases second with
      | infinity other =>
          cases sign with
          | positive =>
              cases other with
              | positive => exact .inl rfl
              | negative => cases same
          | negative =>
              cases other with
              | positive => cases same
              | negative => exact .inl rfl
      | _ => cases sign <;> cases same
  | zero sign =>
      cases second with
      | zero other => exact .inr ⟨sign, other, rfl, rfl⟩
      | infinity other => cases other <;> cases same
      | finite other => cases other <;> cases same
      | notANumber => cases same
  | finite sign mantissa exponent =>
      cases second with
      | finite other mantissa' exponent' =>
          have equal : (compare exponent exponent').then (compare mantissa mantissa') = .eq →
              exponent = exponent' ∧ mantissa = mantissa' := by
            rw [Ordering.then_eq_eq, Std.LawfulEqCmp.compare_eq_iff_eq,
              Std.LawfulEqCmp.compare_eq_iff_eq]
            exact id
          cases sign with
          | positive =>
              cases other with
              | positive =>
                  obtain ⟨rfl, rfl⟩ := equal (Option.some.inj same)
                  exact .inl rfl
              | negative => cases same
          | negative =>
              cases other with
              | positive => cases same
              | negative =>
                  obtain ⟨rfl, rfl⟩ := equal (Ordering.swap_eq_eq.mp (Option.some.inj same))
                  exact .inl rfl
      | infinity other => cases other <;> cases sign <;> cases same
      | notANumber => cases sign <;> cases same
      | zero other => cases sign <;> cases same

theorem beq_iff_compare (first second : Number) :
    (first == second) = true ↔
      first.value.toModel.unpack.compare second.value.toModel.unpack = some .eq := by
  change (first.value.toModel.unpack.compare second.value.toModel.unpack == some .eq) = true ↔ _
  exact beq_iff_eq

instance : PartialEquivBEq Number where
  symm {first second} same := by
    rw [beq_iff_compare] at same ⊢
    rw [compare_swap, same]
    rfl
  trans {first second third} same next := by
    rw [beq_iff_compare] at same next ⊢
    rcases eq_or_zero_of_compare same with equal | ⟨sign, other, isZero, zeroNext⟩
    · rwa [equal]
    · rcases eq_or_zero_of_compare next with equal | ⟨_, last, _, zeroLast⟩
      · rwa [← equal]
      · rw [isZero, zeroLast]
        rfl

end SlidePress.Number

namespace SlidePress.Slide

open Source (Node Kind subtrees)
open Style (Color Snapshot)
open Text (visible)

/-! ## Formats that count as equal -/

theorem Color.beq_iff (first second : Color) :
    (first == second) = true ↔ first.red = second.red ∧ first.green = second.green ∧
      first.blue = second.blue ∧ (first.alpha == second.alpha) = true := by
  change (first.red == second.red && first.green == second.green && first.blue == second.blue &&
    first.alpha == second.alpha) = true ↔ _
  simp only [Bool.and_eq_true, beq_iff_eq, and_assoc]

instance : PartialEquivBEq Color where
  symm {first second} same := by
    rw [Color.beq_iff] at same ⊢
    exact ⟨same.1.symm, same.2.1.symm, same.2.2.1.symm, BEq.symm same.2.2.2⟩
  trans {first second third} same next := by
    rw [Color.beq_iff] at same next ⊢
    exact ⟨same.1.trans next.1, same.2.1.trans next.2.1, same.2.2.1.trans next.2.2.1,
      BEq.trans same.2.2.2 next.2.2.2⟩

namespace RunFormat

theorem beq_iff (first second : RunFormat) :
    (first == second) = true ↔ first.bold = second.bold ∧ first.italic = second.italic ∧
      first.underline = second.underline ∧ (first.color == second.color) = true := by
  change (first.bold == second.bold && first.italic == second.italic &&
    first.underline == second.underline && first.color == second.color) = true ↔ _
  simp only [Bool.and_eq_true, beq_iff_eq, and_assoc]

instance : PartialEquivBEq RunFormat where
  symm {first second} same := by
    rw [beq_iff] at same ⊢
    exact ⟨same.1.symm, same.2.1.symm, same.2.2.1.symm, BEq.symm same.2.2.2⟩
  trans {first second third} same next := by
    rw [beq_iff] at same next ⊢
    exact ⟨same.1.trans next.1, same.2.1.trans next.2.1, same.2.2.1.trans next.2.2.1,
      BEq.trans same.2.2.2 next.2.2.2⟩

/-- Formats that are the same or count as equal. A format with a color that equals nothing is only
alike itself. -/
def Alike (first second : RunFormat) : Prop := first = second ∨ (first == second) = true

theorem beq_of_alike {first second other : RunFormat} (same : (other == first) = true)
    (alike : Alike first second) : (other == second) = true := by
  rcases alike with rfl | equal
  · exact same
  · exact BEq.trans same equal

end RunFormat

open RunFormat (Alike beq_iff)

/-- A segment keeps its format in a run, whether its color is written or left to the block. -/
theorem alike_runOf (base : Color) (segment : Segment) :
    Alike (formatOfRun base (runOf base segment)) segment.format := by
  cases differs : segment.format.color != base with
  | true =>
      refine .inl ?_
      rw [formatOfRun, runOf, differs]
      rfl
  | false =>
      have same : (segment.format.color == base) = true := by simpa [bne] using differs
      refine .inr ((beq_iff _ _).mpr ⟨rfl, rfl, rfl, ?_⟩)
      rw [formatOfRun, runOf, differs]
      exact BEq.symm same

/-! ## Formatted bytes -/

def formatted (text : Text) (format : RunFormat) : List (UInt8 × RunFormat) :=
  (visible text).map fun byte => (byte, format)

theorem formatted_append (first second : Text) (format : RunFormat) :
    formatted (first ++ second) format = formatted first format ++ formatted second format := by
  rw [formatted, Text.visible_append, List.map_append]
  rfl

theorem formatted_congr {first second : Text} (same : visible first = visible second)
    (format : RunFormat) : formatted first format = formatted second format :=
  congrArg (List.map _) same

def segmentBytes (segments : List Segment) : List (UInt8 × RunFormat) :=
  segments.flatMap fun segment => formatted segment.text segment.format

theorem segmentBytes_reverse_cons (last : Segment) (earlier : List Segment) :
    segmentBytes (last :: earlier).reverse =
      segmentBytes earlier.reverse ++ formatted last.text last.format := by
  rw [List.reverse_cons, segmentBytes, List.flatMap_append, List.flatMap_singleton]
  rfl

def writtenBytes (nodes : List Node) : List (UInt8 × RunFormat) :=
  (nodes.filter (·.kind == .text)).flatMap fun node => formatted node.text (formatOf node.style)

theorem writtenBytes_cons (node : Node) (rest : List Node) :
    writtenBytes (node :: rest) = writtenBytes [node] ++ writtenBytes rest := by
  rw [writtenBytes, ← List.singleton_append, List.filter_append, List.flatMap_append]
  rfl

/-- A step: a spot adds the bytes of its text. -/
theorem segmentBytes_visit (collector : Collector) (spot : Spot) :
    segmentBytes (collector.visit spot).segments.reverse =
      segmentBytes collector.segments.reverse ++ writtenBytes [spot.node] := by
  have unchanged : spot.node.kind ≠ .text →
      segmentBytes collector.segments.reverse =
        segmentBytes collector.segments.reverse ++ writtenBytes [spot.node] := by
    intro notText
    rw [writtenBytes, List.filter_singleton, beq_eq_false_iff_ne.mpr notText]
    exact (List.append_nil _).symm
  rw [Collector.visit]
  cases kind : spot.node.kind with
  | text =>
      rw [Collector.addText, segmentBytes_reverse_cons]
      simp [writtenBytes, kind]
  | lineBreak =>
      rw [← unchanged (by simp [kind]), Collector.addBreak]
      dsimp only
      split <;> rfl
  | _ => exact unchanged (by simp [kind])

theorem segmentBytes_foldl_visit (spots : List Spot) (collector : Collector) :
    segmentBytes (spots.foldl Collector.visit collector).segments.reverse =
      segmentBytes collector.segments.reverse ++ writtenBytes (spots.map (·.node)) := by
  induction spots generalizing collector with
  | nil => exact (List.append_nil _).symm
  | cons spot rest ih =>
      rw [List.foldl_cons, ih, segmentBytes_visit, List.append_assoc, ← writtenBytes_cons]
      rfl

theorem segmentBytes_segmentsOf {block : Node} (proper : ∀ inner ∈ block.inside, inner.IsProper) :
    segmentBytes (segmentsOf block) = writtenBytes block.inside := by
  rw [segmentsOf_eq proper, segmentBytes_foldl_visit, map_node_blockSpots]
  rfl

theorem segmentBytes_trimEnd (segments : List Segment) :
    segmentBytes (trimEnd segments).reverse = segmentBytes segments.reverse := by
  induction segments with
  | nil => rfl
  | cons last earlier ih =>
      have kept := formatted_congr (Text.visible_trimmed last.text) last.format
      rw [trimEnd, segmentBytes_reverse_cons, ← kept]
      split
      · rename_i empty
        rw [ih, List.isEmpty_iff.mp empty]
        exact (List.append_nil _).symm
      · rw [segmentBytes_reverse_cons]

/-- A step: collapsing a segment moves white space only. -/
theorem segmentBytes_add (state : Collapsing) (segment : Segment) :
    segmentBytes (state.add segment).done.reverse =
      segmentBytes state.done.reverse ++ formatted segment.text segment.format := by
  have trimmed :
      segmentBytes (if segment.breakBefore then trimEnd state.done else state.done).reverse =
        segmentBytes state.done.reverse := by
    split
    · exact segmentBytes_trimEnd _
    · rfl
  rw [Collapsing.add]
  generalize (if segment.breakBefore then trimEnd state.done else state.done) = done at *
  have kept := formatted_congr
    (visible_collapse (segment.breakBefore || state.paragraphStart || Collapsing.endsBlank done)
      segment.text) segment.format
  dsimp only
  rw [← trimmed, ← kept]
  split
  · rename_i empty
    rw [List.isEmpty_iff.mp empty]
    exact (List.append_nil _).symm
  · rw [segmentBytes_reverse_cons]

theorem segmentBytes_foldl_add (segments : List Segment) (state : Collapsing) :
    segmentBytes (segments.foldl Collapsing.add state).done.reverse =
      segmentBytes state.done.reverse ++ segmentBytes segments := by
  induction segments generalizing state with
  | nil => exact (List.append_nil _).symm
  | cons segment rest ih =>
      rw [List.foldl_cons, ih, segmentBytes_add, List.append_assoc]
      rfl

theorem segmentBytes_collapseSegments (segments : List Segment) :
    segmentBytes (collapseSegments segments) = segmentBytes segments := by
  rw [collapseSegments, segmentBytes_trimEnd, segmentBytes_foldl_add]
  rfl

/-! ## Runs -/

section Runs

variable (base : Color)

def runBytes (runs : List TextRun) : List (UInt8 × RunFormat) :=
  runs.flatMap fun run => formatted run.text (formatOfRun base run)

/-- The same byte in formats that are alike. -/
def SameByte (shown written : UInt8 × RunFormat) : Prop :=
  shown.1 = written.1 ∧ Alike shown.2 written.2

theorem sameByte_formatted {first second : RunFormat} (alike : Alike first second) (text : Text) :
    List.Forall₂ SameByte (formatted text first) (formatted text second) := by
  rw [formatted, formatted, List.forall₂_map_left_iff, List.forall₂_map_right_iff,
    List.forall₂_same]
  exact fun byte _ => ⟨rfl, alike⟩

/-- Two runs in a row: the second begins something, or its format is another. -/
def Apart (first second : TextRun) : Prop :=
  second.breakBefore = false → second.marker = .none →
    (formatOfRun base first == formatOfRun base second) = false

theorem runBytes_reverse_cons (last : TextRun) (earlier : List TextRun) :
    runBytes base (last :: earlier).reverse =
      runBytes base earlier.reverse ++ formatted last.text (formatOfRun base last) := by
  rw [List.reverse_cons, runBytes, List.flatMap_append, List.flatMap_singleton]
  rfl

/-- A step: a segment adds its bytes. -/
theorem sameByte_addSegment {runs : List TextRun} {bytes : List (UInt8 × RunFormat)}
    (same : List.Forall₂ SameByte (runBytes base runs.reverse) bytes) (segment : Segment) :
    List.Forall₂ SameByte (runBytes base (addSegment base runs segment).reverse)
      (bytes ++ formatted segment.text segment.format) := by
  have asRun : List.Forall₂ SameByte (runBytes base (runOf base segment :: runs).reverse)
      (bytes ++ formatted segment.text segment.format) := by
    rw [runBytes_reverse_cons]
    exact List.rel_append same (sameByte_formatted (alike_runOf base segment) segment.text)
  cases runs with
  | nil => exact asRun
  | cons last earlier =>
      rw [addSegment]
      split
      · rename_i joins
        simp only [Bool.and_eq_true] at joins
        have longer :
            runBytes base ({ last with text := last.text ++ segment.text } :: earlier).reverse =
              runBytes base (last :: earlier).reverse ++
                formatted segment.text (formatOfRun base last) := by
          rw [runBytes_reverse_cons, runBytes_reverse_cons, List.append_assoc, ← formatted_append]
          rfl
        rw [longer]
        exact List.rel_append same (sameByte_formatted (.inr joins.2) segment.text)
      · exact asRun

/-- A step: a segment that begins a run is apart from the run before. -/
theorem apart_addSegment {runs : List TextRun}
    (apart : runs.IsChain fun later earlier => Apart base earlier later) (segment : Segment) :
    (addSegment base runs segment).IsChain fun later earlier => Apart base earlier later := by
  cases runs with
  | nil => exact .singleton _
  | cons last earlier =>
      rw [addSegment]
      split
      · cases earlier with
        | nil => exact .singleton _
        | cons before others =>
            rw [List.isChain_cons_cons] at apart ⊢
            exact apart
      · rename_i differs
        refine List.isChain_cons_cons.mpr ⟨?_, apart⟩
        intro goesOn unmarked
        rw [Bool.eq_false_iff]
        intro same
        apply differs
        have equal := RunFormat.beq_of_alike same (alike_runOf base segment)
        have goesOn : segment.breakBefore = false := goesOn
        have unmarked : segment.marker = .none := unmarked
        rw [goesOn, unmarked, equal]
        rfl

theorem sameByte_foldl {runs : List TextRun} {bytes : List (UInt8 × RunFormat)}
    (same : List.Forall₂ SameByte (runBytes base runs.reverse) bytes) (segments : List Segment) :
    List.Forall₂ SameByte (runBytes base (segments.foldl (addSegment base) runs).reverse)
      (bytes ++ segmentBytes segments) := by
  induction segments generalizing runs bytes with
  | nil => rwa [segmentBytes, List.flatMap_nil, List.append_nil]
  | cons segment rest ih =>
      have next := ih (sameByte_addSegment base same segment)
      rwa [List.append_assoc] at next

theorem apart_foldl {runs : List TextRun}
    (apart : runs.IsChain fun later earlier => Apart base earlier later) (segments : List Segment) :
    (segments.foldl (addSegment base) runs).IsChain
      fun later earlier => Apart base earlier later := by
  induction segments generalizing runs with
  | nil => exact apart
  | cons segment rest ih => exact ih (apart_addSegment base apart segment)

end Runs

/-- The visible bytes of a block keep their formats, and two runs in a row that nothing separates
differ in format. -/
theorem formats_textContent {block : Node} (proper : ∀ inner ∈ block.inside, inner.IsProper) :
    List.Forall₂ SameByte (runBytes (textContent block).font.color (textContent block).runs)
        (writtenBytes block.inside) ∧
      (textContent block).runs.IsChain (Apart (textContent block).font.color) := by
  constructor
  · have joined := @sameByte_foldl block.style.textColor [] [] .nil
      (collapseSegments (segmentsOf block))
    rwa [List.nil_append, segmentBytes_collapseSegments, segmentBytes_segmentsOf proper] at joined
  · have apart := @apart_foldl block.style.textColor [] .nil (collapseSegments (segmentsOf block))
    exact List.isChain_reverse.mpr apart

def styledText (text : Text) (style : List (Text × Text)) : Node :=
  { bareText text with style := ⟨Table.ofList style⟩ }

/-- A block whose first two texts have one format: black is the color of the block. -/
def emphasized : Node :=
  bareNode "p" []
    [bareText "to ", styledText "be " [("color", "black")],
      styledText "or" [("font-weight", "bold")]]

theorem formats_emphasized :
    (∀ inner ∈ emphasized.inside, inner.IsProper) ∧
      (textContent emphasized).runs.map (·.text) = ["to be ", "or"] ∧
      List.Forall₂ SameByte
        (runBytes (textContent emphasized).font.color (textContent emphasized).runs)
        (writtenBytes emphasized.inside) ∧
      (textContent emphasized).runs.IsChain (Apart (textContent emphasized).font.color) := by
  have proper : ∀ inner ∈ emphasized.inside, inner.IsProper := by decide +kernel
  have runs : (textContent emphasized).runs.map (·.text) = ["to be ", "or"] := by decide +kernel
  exact ⟨proper, runs, formats_textContent proper⟩

/-- A text whose color has an opacity that is no number. -/
def unclear : Node := bareNode "p" [] [styledText "x" [("color", "rgba(0,0,0,nan)")]]

/-- Formats need not count as equal to those of the texts: the format of a text with an unclear
color does not count as equal to itself. -/
theorem not_formats_equal :
    ¬ ∀ block : Node, (∀ inner ∈ block.inside, inner.IsProper) →
      List.Forall₂ (fun shown written => shown.1 = written.1 ∧ (shown.2 == written.2) = true)
        (runBytes (textContent block).font.color (textContent block).runs)
        (writtenBytes block.inside) := by
  intro all
  have proper : ∀ inner ∈ unclear.inside, inner.IsProper := by decide +kernel
  obtain ⟨_, pairs⟩ := List.forall₂_iff_zip.mp (all unclear proper)
  have differs : ∃ pair ∈ (runBytes (textContent unclear).font.color (textContent unclear).runs).zip
      (writtenBytes unclear.inside), ¬ (pair.1.2 == pair.2.2) = true := by decide +kernel
  obtain ⟨⟨shown, written⟩, member, apart⟩ := differs
  exact apart (pairs member).2

end SlidePress.Slide
