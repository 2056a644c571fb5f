import Longform.Address.Bare
import Longform.Address.Basic
import Longform.Address.HostLabel
import Longform.Book
import Longform.Calendar
import Longform.Chapter
import Longform.Chart
import Longform.CommandLine.Argument
import Longform.CommandLine.Directory
import Longform.CommandLine.Invocation
import Longform.CommandLine.Run
import Longform.Compile
import Longform.Decimal.Number
import Longform.Decimal.Read
import Longform.Decimal.Shortest
import Longform.Deck
import Longform.Dictionary
import Longform.Document
import Longform.Draft
import Longform.Fault
import Longform.Fence
import Longform.Figure
import Longform.Footnote.Definition
import Longform.Footnote.Reference
import Longform.Footnote.Unit
import Longform.FrontMatter
import Longform.Html.Entity
import Longform.Html.EntityTable
import Longform.Html.Node
import Longform.Html.Parse
import Longform.Html.Reference
import Longform.Html.Tag
import Longform.Html.Tree
import Longform.Main
import Longform.Markdown.Abbreviation
import Longform.Markdown.Attribution
import Longform.Markdown.BareLink
import Longform.Markdown.Block
import Longform.Markdown.Block.Container
import Longform.Markdown.Block.Leaf
import Longform.Markdown.Block.State
import Longform.Markdown.Block.Table
import Longform.Markdown.Block.Text
import Longform.Markdown.Checkbox
import Longform.Markdown.Document
import Longform.Markdown.Escape
import Longform.Markdown.Inline
import Longform.Markdown.Inline.Emphasis
import Longform.Markdown.Inline.Rule
import Longform.Markdown.Inline.State
import Longform.Markdown.LinkParts
import Longform.Markdown.RawHtml
import Longform.Markdown.Render
import Longform.Markdown.Stream
import Longform.Markdown.Token
import Longform.Markdown.Typography
import Longform.Markdown.Wikilink
import Longform.Network.Block
import Longform.Network.Connection
import Longform.Output
import Longform.Page.Block
import Longform.Page.Extent
import Longform.Page.Flow
import Longform.Placeholder
import Longform.Print
import Longform.Proofs.Abbreviation.Leftmost
import Longform.Proofs.Abbreviation.Scan
import Longform.Proofs.Abbreviation.Settled
import Longform.Proofs.Abbreviation.Standalone
import Longform.Proofs.Attribution.Balance
import Longform.Proofs.Attribution.Figure
import Longform.Proofs.Attribution.Line
import Longform.Proofs.Attribution.Pairing
import Longform.Proofs.Chapter.Division
import Longform.Proofs.Chapter.Join
import Longform.Proofs.Compilation
import Longform.Proofs.Decimal.Whole
import Longform.Proofs.Dictionary
import Longform.Proofs.Fence.Opener
import Longform.Proofs.Fence.Scan
import Longform.Proofs.Fence.Verbatim
import Longform.Proofs.Figure.Escape
import Longform.Proofs.Figure.LineReading
import Longform.Proofs.Figure.LineScan
import Longform.Proofs.Figure.Plain
import Longform.Proofs.Footnote.Anchor
import Longform.Proofs.Footnote.Attachment
import Longform.Proofs.Footnote.Chapters
import Longform.Proofs.Footnote.Extraction
import Longform.Proofs.Footnote.Linking
import Longform.Proofs.Footnote.Listing
import Longform.Proofs.Footnote.Mention
import Longform.Proofs.Footnote.Restoring
import Longform.Proofs.Html.Building
import Longform.Proofs.Html.Kept
import Longform.Proofs.Html.Passage
import Longform.Proofs.Html.Reading
import Longform.Proofs.Html.Refusal
import Longform.Proofs.Html.Relegible
import Longform.Proofs.Html.Rereading
import Longform.Proofs.Html.Sound
import Longform.Proofs.Html.SoundBuilder
import Longform.Proofs.Html.Spelling
import Longform.Proofs.Html.StartTag
import Longform.Proofs.Markdown.Block.Range
import Longform.Proofs.Outcome
import Longform.Proofs.Page.Assembly
import Longform.Proofs.Page.Filling
import Longform.Proofs.Page.Fragment
import Longform.Proofs.Page.Greedy
import Longform.Proofs.Page.Notes
import Longform.Proofs.Page.Numbering
import Longform.Proofs.Page.Pagination
import Longform.Proofs.Page.Part
import Longform.Proofs.Page.Recovery
import Longform.Proofs.Source
import Longform.Proofs.Template
import Longform.Proofs.Text.Lines
import Longform.Proofs.Text.Search
import Longform.Proofs.Text.Trim
import Longform.Proofs.Token.Grammar
import Longform.Proofs.Token.Shape
import Longform.Slide
import Longform.Source
import Longform.Template
import Longform.Text.Basic
import Longform.Text.Case
import Longform.Text.CaseTable
import Longform.Text.Escape
import Longform.Text.Half
import Longform.Text.Letter
import Longform.Text.LetterTable
import Longform.Text.Pattern
import Longform.Text.Percent
import Longform.Text.PunctuationTable
import Longform.Text.Quoted
import Longform.Text.UnprintableTable
import Longform.Value.Basic
import Longform.Value.Display
import Longform.Yaml.Construct
import Longform.Yaml.Cursor
import Longform.Yaml.Node
import Longform.Yaml.Resolve
import Longform.Yaml.Scalar
import Longform.Yaml.Token
import Longform.Proofs.Network.Arrow
import Longform.Proofs.Network.Reference
import Longform.Proofs.Network.Chain
import Longform.Proofs.Network.Operator
import Longform.Proofs.Network.Section
import Longform.Proofs.Network.Printing
import Longform.Proofs.Network.Description
import Longform.Proofs.FrontMatter
import Longform.Proofs.Placeholder
import Longform.Proofs.Html.Writing
import Longform.Proofs.Network.Markup
import Longform.Proofs.Value.JsonText
import Longform.Proofs.Value.JsonReading
import Longform.Proofs.Chart
import Longform.Proofs.Text.Marks
import Longform.Proofs.Slide
import Longform.Proofs.Wikilink
import Longform.Proofs.Figure.Detail
import Longform.Proofs.Abbreviation.Collection
import Longform.Proofs.Footnote.Listing
import Longform.Proofs.Page.Measure
import Longform.Proofs.Fence.Outline
import Longform.Proofs.Network.Attribute
