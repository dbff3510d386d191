import ByteScript.CommandLine.Run
import ByteScript.Highlight
import ByteScript.Main
import ByteScript.Proofs.Listing.Names
import ByteScript.Proofs.Listing.RoundTrip
import ByteScript.Scan.WordTable
import ByteScript.Proofs.Listing.PrefixReading
import ByteScript.Proofs.Scan.Place
import ByteScript.Proofs.Script.Failure
import ByteScript.Proofs.Script.Continuation
import ByteScript.Proofs.Listing.WidthAgreement
import ByteScript.Proofs.Script.StringToken
import ByteScript.Proofs.Script.StringLetters
import ByteScript.Proofs.CommandLine.Recompile
import ByteScript.Proofs.Scan.Tiling
import ByteScript.Proofs.Script.Rejoining
import ByteScript.Proofs.Listing.Occurrences
import ByteScript.Proofs.Script.Highlighting
import ByteScript.Proofs.Depth
import ByteScript.Proofs.Listing.Activation
import ByteScript.Proofs.Script.Filler
import ByteScript.Proofs.Script.IntegerLiteral
import ByteScript.Proofs.Script.QuotedText
import ByteScript.Proofs.Number.SignedReading
import ByteScript.Proofs.Listing.LineAlone
import ByteScript.Proofs.Listing.CaseKey
import ByteScript.Proofs.Listing.FieldForms
import ByteScript.Proofs.Listing.Unrolling
import ByteScript.Proofs.Listing.StaticLayout
import ByteScript.Proofs.Literal.Escapes
import ByteScript.Proofs.Script.FirstFailure
import ByteScript.Proofs.Script.WidthNames
import ByteScript.Proofs.CommandLine.PrintedBytes
import ByteScript.Proofs.Listing.TrailerAlone
import ByteScript.Proofs.Script.PossibleFaults
import ByteScript.Proofs.Scan.Progress
import ByteScript.Proofs.Script.CommentToken
