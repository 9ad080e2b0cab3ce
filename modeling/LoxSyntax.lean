import LoxSyntax.Diagnostic.Json
import LoxSyntax.Expr.Json
import LoxSyntax.Main
import LoxSyntax.Proofs.Parse.Soundness
import LoxSyntax.Proofs.Scan.Lossless
import LoxSyntax.Proofs.Scan.Line
import LoxSyntax.Proofs.Scan.Boundary
import LoxSyntax.Proofs.Scan.LineBreak
import LoxSyntax.Proofs.Parse.Beginning
import LoxSyntax.Proofs.Parse.FirstFault
import LoxSyntax.Proofs.Scan.Layout
import LoxSyntax.Proofs.Parse.Neighbour
import LoxSyntax.Proofs.Parse.Relined
import LoxSyntax.Proofs.Session.RoundTrip
import LoxSyntax.Proofs.Scan.Separator
import LoxSyntax.Proofs.Scan.WellFormed
import LoxSyntax.Proofs.Session.Report
import LoxSyntax.Proofs.Session.WellFormed
import LoxSyntax.Proofs.Session.History
import LoxSyntax.Proofs.Scan.Lazy
import LoxSyntax.Proofs.Parse.IndexedCall
import LoxSyntax.Proofs.Parse.Sense
import LoxSyntax.Proofs.Parse.Lookahead
import LoxSyntax.Proofs.Scan.BlockComment
import LoxSyntax.Proofs.Scan.IndexedCall
import LoxSyntax.Proofs.Session.Alike
import LoxSyntax.Proofs.CommandLine.Script
import LoxSyntax.Proofs.Expr.Ambiguity
import LoxSyntax.Proofs.Expr.UniqueReading
import LoxSyntax.Proofs.Expr.ScanBack
import LoxSyntax.Proofs.Parse.Height
import LoxSyntax.Proofs.Session.Decode
