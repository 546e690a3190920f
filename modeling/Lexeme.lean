import Lexeme.Main
import Lexeme.Proofs.Text.CharClass
import Lexeme.Proofs.Cursor.Location
import Lexeme.Proofs.Cursor.Between
import Lexeme.Proofs.Scan.Grammar
import Lexeme.Proofs.Scan.Step
import Lexeme.Proofs.Scan.Run
import Lexeme.Proofs.Scan.Reconstruction
import Lexeme.Proofs.Scan.Automaton
import Lexeme.Proofs.Scan.Rendering
import Lexeme.Proofs.Scan.Session
import Lexeme.Proofs.Scan.Offsets
import Lexeme.Proofs.Scan.Restart
import Lexeme.Proofs.Cursor.Checked
import Lexeme.Proofs.Scan.Interleaving
import Lexeme.Proofs.Scan.Safety
import Lexeme.Proofs.Cursor.Place
import Lexeme.Proofs.Report.Tally
import Lexeme.Proofs.Report.Line
import Lexeme.Proofs.Report.Listing
import Lexeme.Proofs.Cursor.Prefix
import Lexeme.Proofs.Report.Diagnostic
import Lexeme.Proofs.Text.LineBreak
import Lexeme.Proofs.Scan.LineBreaks
import Lexeme.Proofs.Scan.Joining
import Lexeme.Proofs.Report.Blanking
import Lexeme.Proofs.Report.Comments
import Lexeme.Proofs.Scan.Lines
import Lexeme.Proofs.Command.Checking
import Lexeme.Proofs.Cursor.Sweep
import Lexeme.Proofs.Cursor.Search
import Lexeme.Proofs.Scan.Progress
import Lexeme.Proofs.Scan.Trace
import Lexeme.Proofs.Command.Verbosity
import Lexeme.Proofs.Text.Reading
import Lexeme.Proofs.Text.Json
import Lexeme.Proofs.Report.Decoding
