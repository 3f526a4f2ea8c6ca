import LinkScript.Json.Read
import LinkScript.Log
import LinkScript.Main
import LinkScript.Proofs.Program.Agreement
import LinkScript.Proofs.Script.Blame
import LinkScript.Proofs.Script.Entries
import LinkScript.Proofs.Script.Join
import LinkScript.Proofs.Script.Paths
import LinkScript.Proofs.Script.Refusal
import LinkScript.Proofs.Script.Truncation
import LinkScript.Proofs.Script.Written
import LinkScript.Proofs.Token.Invalid
import LinkScript.Proofs.Token.Position
import LinkScript.Proofs.Token.Shape
import LinkScript.Proofs.Script.Acceptance
import LinkScript.Proofs.Script.Reuse
import LinkScript.Proofs.Files.Discovery
import LinkScript.Proofs.Program.Verdict
import LinkScript.Proofs.Token.Respell
import LinkScript.Proofs.Script.Alike
import LinkScript.Proofs.Token.LineBreaks
import LinkScript.Proofs.Script.LineBreaks
import LinkScript.Proofs.Script.Layout
import LinkScript.Proofs.Script.Keywords
import LinkScript.Proofs.Script.Comments
import LinkScript.Proofs.Program.Documents
import LinkScript.Proofs.Token.Lines
import LinkScript.Proofs.Settings
import LinkScript.Proofs.Fields
import LinkScript.Proofs.Log.Family
import LinkScript.Proofs.Log.Lines
import LinkScript.Proofs.Script.Objects
import LinkScript.Proofs.Check.Kinds
import LinkScript.Proofs.Program.Quiet
import LinkScript.Proofs.Report.Color
import LinkScript.Proofs.Report.Records
import LinkScript.Proofs.Text
import LinkScript.Proofs.Settings.EnvFile
import LinkScript.Proofs.Settings.Lines
import LinkScript.Proofs.Cursor
import LinkScript.Proofs.Script.Navigation
import LinkScript.Proofs.Failure
