import SlidePress.Conversion
import SlidePress.Css.Cascade
import SlidePress.Css.Declaration
import SlidePress.Css.Embedded
import SlidePress.Css.Inheritance
import SlidePress.Css.Selector
import SlidePress.Css.Shorthand
import SlidePress.Css.Stylesheet
import SlidePress.Css.UserAgent
import SlidePress.Html.Node
import SlidePress.Html.Reference
import SlidePress.Html.Token
import SlidePress.Html.Tree
import SlidePress.Layout.Block
import SlidePress.Layout.Box
import SlidePress.Layout.Flex
import SlidePress.Layout.Flow
import SlidePress.Layout.Inline
import SlidePress.Layout.Length
import SlidePress.Layout.Measure
import SlidePress.Layout.Placement
import SlidePress.Layout.Poll
import SlidePress.Layout.Scalar
import SlidePress.Layout.Styled
import SlidePress.Number.Basic
import SlidePress.Number.Binary64
import SlidePress.Number.Integral
import SlidePress.Number.Numeral
import SlidePress.Number.Written
import SlidePress.Payload.Digest
import SlidePress.Payload.Slide
import SlidePress.Payload.Value
import SlidePress.Rect
import SlidePress.Render.Diagnostic
import SlidePress.Render.Extraction
import SlidePress.Render.Session
import SlidePress.Render.Stage
import SlidePress.Side
import SlidePress.Slide.Assembly
import SlidePress.Slide.Issue
import SlidePress.Slide.Mapping
import SlidePress.Slide.Primitive
import SlidePress.Slide.Role
import SlidePress.Slide.Shape
import SlidePress.Slide.TextBlock
import SlidePress.Source.CollapsedText
import SlidePress.Source.Kind
import SlidePress.Source.Node
import SlidePress.Style.Color
import SlidePress.Style.Length
import SlidePress.Style.Snapshot
import SlidePress.Table
import SlidePress.Text.Basic
import SlidePress.Text.Byte
import SlidePress.Text.Pieces
import SlidePress.Text.Utf8
import SlidePress.Proofs.Html.Grown
import SlidePress.Proofs.Html.RoundTrip
import SlidePress.Proofs.Slide.RoleStructure
import SlidePress.Proofs.Slide.Walk
import SlidePress.Proofs.Slide.Emission
import SlidePress.Proofs.Slide.Report
import SlidePress.Proofs.Source.Paths
import SlidePress.Proofs.Slide.VisibleText
import SlidePress.Proofs.Slide.TextKept
import SlidePress.Proofs.Layout.Cancellation
import SlidePress.Proofs.Layout.Skeleton
import SlidePress.Proofs.Layout.BoxPerNode
import SlidePress.Proofs.Css.Precedence
import SlidePress.Proofs.Css.Specificity
import SlidePress.Proofs.Slide.Names
import SlidePress.Proofs.Slide.RoleOrigin
import SlidePress.Proofs.Slide.Gradients
import SlidePress.Proofs.Render.Lifecycle
import SlidePress.Proofs.Payload.Grammar
import SlidePress.Proofs.Payload.Reading
import SlidePress.Proofs.Payload.Writing
import SlidePress.Proofs.Payload.Contents
import SlidePress.Proofs.Payload.Sound
import SlidePress.Proofs.Html.Nesting
import SlidePress.Proofs.Render.Reuse
import SlidePress.Proofs.Slide.Registry
import SlidePress.Proofs.Text.Entries
import SlidePress.Proofs.Css.RoundTrip
import SlidePress.Proofs.Css.Joined
import SlidePress.Proofs.Css.StyleElements
import SlidePress.Proofs.Slide.Spots
import SlidePress.Proofs.Text.Words
import SlidePress.Proofs.Slide.Stretches
import SlidePress.Proofs.Slide.Paragraphs
import SlidePress.Proofs.Slide.ParagraphTexts
import SlidePress.Proofs.Slide.RunFormats
import SlidePress.Proofs.Slide.ListItems
import SlidePress.Proofs.Slide.Arrangement
import SlidePress.Proofs.Slide.StandaloneText
import SlidePress.Proofs.Text.Utf8
import SlidePress.Proofs.Html.References
import SlidePress.Proofs.Text.Case
import SlidePress.Proofs.Css.Longhands
import SlidePress.Proofs.Style.ColorText
import SlidePress.Proofs.Css.ShorthandColors
import SlidePress.Proofs.Css.BorderReset
import SlidePress.Proofs.Css.SpecialRules
import SlidePress.Proofs.Css.SelectorGrammar
import SlidePress.Proofs.Css.SelectorMatching
import SlidePress.Proofs.Css.ClassWords
import SlidePress.Proofs.Slide.ShapeReadings
import SlidePress.Proofs.Slide.PlaceholderNames
import SlidePress.Proofs.Layout.Exact
import SlidePress.Proofs.Layout.Drift
import SlidePress.Proofs.Layout.Likeness
import SlidePress.Proofs.Layout.Polling
import SlidePress.Proofs.Layout.Paired
import SlidePress.Proofs.Layout.MovedLines
import SlidePress.Proofs.Layout.Sides
import SlidePress.Proofs.Layout.Peers
import SlidePress.Proofs.Layout.PeerItems
import SlidePress.Proofs.Layout.PeerBlocks
import SlidePress.Proofs.Layout.PeerTrees
import SlidePress.Proofs.Layout.RelativeShift
import SlidePress.Proofs.Layout.Reached
import SlidePress.Proofs.Layout.HeldSizes
import SlidePress.Proofs.Layout.AnchoredBoxes
import SlidePress.Proofs.Layout.StaticPlaces
import SlidePress.Proofs.Layout.GreedyLines
import SlidePress.Proofs.Layout.WordGaps
import SlidePress.Proofs.Layout.OneLine
import SlidePress.Proofs.Html.ValidUtf8
import SlidePress.Proofs.Number.Integral
import SlidePress.Proofs.Payload.Decimals
import SlidePress.Proofs.Slide.Overflow
import SlidePress.Proofs.Layout.BoxSizes
import SlidePress.Proofs.Css.Expansion
import SlidePress.Proofs.Style.ShadowLists
import SlidePress.Proofs.Layout.FilledLines
import SlidePress.Proofs.Render.Identity
import SlidePress.Proofs.Source.CollapsedText
import SlidePress.Proofs.Text.Excerpt
import SlidePress.Proofs.Layout.Bounds
import SlidePress.Proofs.Layout.OwnerNumbers
import SlidePress.Proofs.Layout.OwnerFrames
