import MemberOffsets.Abi.BuiltIn
import MemberOffsets.Abi.Profile
import MemberOffsets.Config
import MemberOffsets.Console.Arguments
import MemberOffsets.Console.Disk
import MemberOffsets.Console.Execution
import MemberOffsets.Console.Journal
import MemberOffsets.Console.Log
import MemberOffsets.Console.Options
import MemberOffsets.Console.Outcome
import MemberOffsets.Console.Prompt
import MemberOffsets.Decimal
import MemberOffsets.Declaration.Block
import MemberOffsets.Declaration.Segment
import MemberOffsets.Declaration.Source
import MemberOffsets.Declaration.Statement
import MemberOffsets.Json.Decoding
import MemberOffsets.Json.Document
import MemberOffsets.Json.Value
import MemberOffsets.Layout.Node
import MemberOffsets.Layout.Placement
import MemberOffsets.Layout.Printing
import MemberOffsets.Layout.Resolution
import MemberOffsets.Pdb.Reader
import MemberOffsets.Pdb.TypeRecord
import MemberOffsets.Pdb.TypeStream
import MemberOffsets.Sizing.Width
import MemberOffsets.Symbol.Index
import MemberOffsets.Symbol.Json
import MemberOffsets.Symbol.Program
import MemberOffsets.Table
import MemberOffsets.Text.Basic
import MemberOffsets.Text.Quoted
import MemberOffsets.Text.Utf8
import MemberOffsets.Text.WordChar
import MemberOffsets.Main
import MemberOffsets.Proofs.Basic
import MemberOffsets.Proofs.Declaration.Tree
import MemberOffsets.Proofs.Layout.Placement
import MemberOffsets.Proofs.Layout.Containment
import MemberOffsets.Proofs.Layout.Resolution
import MemberOffsets.Proofs.Text.Words
import MemberOffsets.Proofs.Declaration.Spelling
import MemberOffsets.Proofs.Text.Characters
import MemberOffsets.Proofs.Declaration.Balance
import MemberOffsets.Proofs.Declaration.Segmentation
import MemberOffsets.Proofs.Declaration.Comments
import MemberOffsets.Proofs.Declaration.Origin
import MemberOffsets.Proofs.Declaration.Enclosure
import MemberOffsets.Proofs.Declaration.Plain
import MemberOffsets.Proofs.Layout.Lines
import MemberOffsets.Proofs.Layout.Columns
import MemberOffsets.Proofs.Layout.Rereading
import MemberOffsets.Proofs.Layout.Listing
import MemberOffsets.Proofs.Layout.Printing
import MemberOffsets.Proofs.Layout.Translation
import MemberOffsets.Proofs.Layout.Isolation
import MemberOffsets.Proofs.Declaration.Closing
import MemberOffsets.Proofs.Layout.Failure
import MemberOffsets.Proofs.Text.Respacing
import MemberOffsets.Proofs.Declaration.Respacing
import MemberOffsets.Proofs.Layout.Respacing
import MemberOffsets.Proofs.Declaration.Normalization
import MemberOffsets.Proofs.Declaration.Leading
import MemberOffsets.Proofs.Layout.Readings
import MemberOffsets.Proofs.Symbol.Cache
import MemberOffsets.Proofs.Sizing.Order
import MemberOffsets.Proofs.Sizing.Candidates
import MemberOffsets.Proofs.Symbol.Json
import MemberOffsets.Proofs.Symbol.Program
import MemberOffsets.Proofs.Console.Effects
import MemberOffsets.Proofs.Console.Execution
import MemberOffsets.Proofs.Console.Prompt
import MemberOffsets.Proofs.Layout.Overflow
import MemberOffsets.Proofs.Text.Bytes
import MemberOffsets.Proofs.Declaration.Matching
import MemberOffsets.Proofs.Declaration.Concatenation
import MemberOffsets.Proofs.Declaration.Splitting
import MemberOffsets.Proofs.Declaration.Excerpts
import MemberOffsets.Proofs.Declaration.Fields
import MemberOffsets.Proofs.Abi.TypeName
import MemberOffsets.Proofs.Sizing.Changes
import MemberOffsets.Proofs.Sizing.Qualifiers
import MemberOffsets.Proofs.Sizing.Overrides
import MemberOffsets.Proofs.Symbol.Closeness
import MemberOffsets.Proofs.Text.NumeralGrammar
import MemberOffsets.Proofs.Layout.Counting
import MemberOffsets.Proofs.Sizing.TypedNames
import MemberOffsets.Proofs.Console.Answers
import MemberOffsets.Proofs.Layout.Alignment
import MemberOffsets.Proofs.Layout.Offsets
import MemberOffsets.Proofs.Sizing.Tables
import MemberOffsets.Proofs.Agenda
import MemberOffsets.Proofs.Symbol.Circularity
import MemberOffsets.Proofs.Checked.Slices
import MemberOffsets.Proofs.Checked.Comments
import MemberOffsets.Proofs.Checked.Segments
import MemberOffsets.Proofs.Checked.TypeNames
import MemberOffsets.Proofs.Checked.Shells
