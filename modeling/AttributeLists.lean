import AttributeLists.Command.Options
import AttributeLists.Command.Run
import AttributeLists.Files.FileTree
import AttributeLists.Files.Folder
import AttributeLists.Files.Path
import AttributeLists.Files.Script
import AttributeLists.Json.Reader
import AttributeLists.Json.Value
import AttributeLists.Listing.Bracketed
import AttributeLists.Listing.Commas
import AttributeLists.Listing.Entry
import AttributeLists.Listing.Layout
import AttributeLists.Main
import AttributeLists.Name.Attribute
import AttributeLists.Name.Qualified
import AttributeLists.Name.Short
import AttributeLists.Number.Double
import AttributeLists.Number.Shortest
import AttributeLists.Prune.Basic
import AttributeLists.Prune.BlankRun
import AttributeLists.Prune.LowerBound
import AttributeLists.Service.Environment
import AttributeLists.Service.Framework
import AttributeLists.Service.Reply
import AttributeLists.Service.Session
import AttributeLists.Service.Settings
import AttributeLists.Text.Blank
import AttributeLists.Text.CharClass
import AttributeLists.Text.Glyph
import AttributeLists.Text.Line
import AttributeLists.Text.Printable
import AttributeLists.Text.Quoted
import AttributeLists.Text.Utf8
import AttributeLists.Text.Word
import AttributeLists.Proofs.Listing.Scan
import AttributeLists.Proofs.Prune.BlankRun
import AttributeLists.Proofs.Prune.Draft
import AttributeLists.Proofs.Prune.LowerBound
import AttributeLists.Proofs.Prune.Outcome
import AttributeLists.Proofs.Listing.Commas
import AttributeLists.Proofs.Listing.Target
import AttributeLists.Proofs.Listing.Renewed
import AttributeLists.Proofs.Listing.Append
import AttributeLists.Proofs.Listing.Respaced
import AttributeLists.Proofs.Prune.Again
import AttributeLists.Proofs.Prune.Append
import AttributeLists.Proofs.Listing.Joined
import AttributeLists.Proofs.Prune.Conserved
import AttributeLists.Proofs.Prune.Convergence
import AttributeLists.Proofs.Text.Newline
import AttributeLists.Proofs.Prune.Newline
import AttributeLists.Proofs.Files.FileTree
import AttributeLists.Proofs.Files.Script
import AttributeLists.Proofs.Command.Run
import AttributeLists.Proofs.Command.Options
import AttributeLists.Proofs.Command.Failure
import AttributeLists.Proofs.Command.Forecast
import AttributeLists.Proofs.Json.Reader
import AttributeLists.Proofs.Service.Framework
import AttributeLists.Proofs.Service.Session
import AttributeLists.Proofs.Listing.LineComment
import AttributeLists.Proofs.Listing.Grammar
import AttributeLists.Proofs.Text.InLines
import AttributeLists.Proofs.Prune.Runs
import AttributeLists.Proofs.Prune.Vanished
import AttributeLists.Proofs.Prune.Removals
import AttributeLists.Proofs.Name.Attribute
import AttributeLists.Proofs.Name.Identifier
import AttributeLists.Proofs.Name.Spelling
import AttributeLists.Proofs.Name.Short
import AttributeLists.Proofs.Listing.Entry
import AttributeLists.Proofs.Prune.Sole
import AttributeLists.Proofs.Text.Utf8
import AttributeLists.Proofs.Prune.Several
import AttributeLists.Proofs.Files.PruneFile
import AttributeLists.Proofs.Text.LetterCase
import AttributeLists.Proofs.Service.Environment
import AttributeLists.Proofs.Command.Append
import AttributeLists.Proofs.Files.FoundScripts
import AttributeLists.Proofs.Listing.Rejoined
import AttributeLists.Proofs.Listing.Division
