import ContractAbi.Arguments.Basic
import ContractAbi.Arguments.Deserialize
import ContractAbi.Arguments.Inspect
import ContractAbi.Arguments.Serialize
import ContractAbi.Arguments.Text
import ContractAbi.Bytes.BigEndian
import ContractAbi.Bytes.Hex
import ContractAbi.Bytes.Utf8
import ContractAbi.Codec.Decode
import ContractAbi.Codec.Encode
import ContractAbi.Codec.Error
import ContractAbi.Codec.Length
import ContractAbi.Codec.Reading
import ContractAbi.Command.CommandLine
import ContractAbi.Command.Exit
import ContractAbi.Command.Flags
import ContractAbi.Command.Log
import ContractAbi.Command.Report
import ContractAbi.Command.Run
import ContractAbi.Command.Table
import ContractAbi.Json.Basic
import ContractAbi.Json.Number
import ContractAbi.Json.Parser
import ContractAbi.Json.Printer
import ContractAbi.Json.Render
import ContractAbi.Json.Typed
import ContractAbi.Main
import ContractAbi.Proofs.Arguments.Failure
import ContractAbi.Proofs.Arguments.Filling
import ContractAbi.Proofs.Arguments.Footprint
import ContractAbi.Proofs.Arguments.NormalForm
import ContractAbi.Proofs.Arguments.Placement
import ContractAbi.Proofs.Arguments.RoundTrip
import ContractAbi.Proofs.Arguments.Shape
import ContractAbi.Proofs.Arguments.Splitting
import ContractAbi.Proofs.Arguments.Text
import ContractAbi.Proofs.Arguments.TextRoundTrip
import ContractAbi.Proofs.BigEndian
import ContractAbi.Proofs.Codec.Alike
import ContractAbi.Proofs.Codec.Canonical
import ContractAbi.Proofs.Codec.Consumed
import ContractAbi.Proofs.Codec.Decoding
import ContractAbi.Proofs.Codec.Extension
import ContractAbi.Proofs.Codec.Failure
import ContractAbi.Proofs.Codec.Limit
import ContractAbi.Proofs.Codec.NormalForm
import ContractAbi.Proofs.Codec.Partition
import ContractAbi.Proofs.Codec.Payload
import ContractAbi.Proofs.Codec.RoundTrip
import ContractAbi.Proofs.Codec.Shape
import ContractAbi.Proofs.Codec.Shortfall
import ContractAbi.Proofs.Codec.Stopping
import ContractAbi.Proofs.Codec.Unencodable
import ContractAbi.Proofs.Codec.Writing
import ContractAbi.Proofs.Codec.ZeroWidth
import ContractAbi.Proofs.Command.Agreement
import ContractAbi.Proofs.Command.ExitCode
import ContractAbi.Proofs.Command.Failure
import ContractAbi.Proofs.Command.Reading
import ContractAbi.Proofs.Command.Report
import ContractAbi.Proofs.Command.Streaming
import ContractAbi.Proofs.Command.Table
import ContractAbi.Proofs.Command.Transfer
import ContractAbi.Proofs.Command.Trimming
import ContractAbi.Proofs.Command.TypedText
import ContractAbi.Proofs.Except
import ContractAbi.Proofs.Hex
import ContractAbi.Proofs.Json.Decoded
import ContractAbi.Proofs.Json.FirstMismatch
import ContractAbi.Proofs.Json.Leaves
import ContractAbi.Proofs.Json.Members
import ContractAbi.Proofs.Json.Paths
import ContractAbi.Proofs.Json.Places
import ContractAbi.Proofs.Json.Printing
import ContractAbi.Proofs.Json.RoundTrip
import ContractAbi.Proofs.Json.Scanning
import ContractAbi.Proofs.Json.Typed
import ContractAbi.Proofs.Stream.Chunks
import ContractAbi.Proofs.Stream.Delivery
import ContractAbi.Proofs.Stream.Demand
import ContractAbi.Proofs.Stream.Ledger
import ContractAbi.Proofs.Stream.Receiving
import ContractAbi.Proofs.Stream.Resumption
import ContractAbi.Proofs.Text
import ContractAbi.Proofs.TypeExpr.Cursor
import ContractAbi.Proofs.TypeExpr.Decoded
import ContractAbi.Proofs.TypeExpr.Grammar
import ContractAbi.Proofs.TypeExpr.Letters
import ContractAbi.Proofs.TypeExpr.Payload
import ContractAbi.Proofs.TypeExpr.Printing
import ContractAbi.Proofs.TypeExpr.Scanning
import ContractAbi.Proofs.TypeExpr.Tokens
import ContractAbi.Proofs.TypeExpr.Typing
import ContractAbi.Proofs.TypeExpr.WellFormed
import ContractAbi.Proofs.Utf8
import ContractAbi.Stream.Reader
import ContractAbi.Stream.Script
import ContractAbi.Stream.Writer
import ContractAbi.Text.Blank
import ContractAbi.Text.CharacterWidth
import ContractAbi.Text.Combining
import ContractAbi.Text.Decimal
import ContractAbi.Text.Emoji
import ContractAbi.Text.EmojiSequence
import ContractAbi.Text.Ligature
import ContractAbi.Text.Quoted
import ContractAbi.Text.Visible
import ContractAbi.Text.Width
import ContractAbi.TypeExpr.Basic
import ContractAbi.TypeExpr.Parser
import ContractAbi.TypeExpr.Printer
import ContractAbi.Value.Basic
import ContractAbi.Value.Inspect
