import RequestRunner.CommandLine.Program
import RequestRunner.Main
import RequestRunner.Network.Gateway
import RequestRunner.Proofs.Document.Breaking
import RequestRunner.Proofs.Document.Concatenation
import RequestRunner.Proofs.Document.Malformed
import RequestRunner.Proofs.Document.Nesting
import RequestRunner.Proofs.Document.Quotation
import RequestRunner.Proofs.Document.ResponseHandler
import RequestRunner.Proofs.Document.RoundTrip
import RequestRunner.Proofs.Document.SectionUse
import RequestRunner.Proofs.Engine.VariableMaps
import RequestRunner.Proofs.Environment.Origins
import RequestRunner.Proofs.Run.Accounts
import RequestRunner.Proofs.Run.Ending
import RequestRunner.Proofs.Run.Plan
import RequestRunner.Proofs.Run.Scoping
import RequestRunner.Proofs.Run.Splitting
import RequestRunner.Proofs.Run.Survival
import RequestRunner.Proofs.Script.Apart
import RequestRunner.Proofs.Script.Confinement
import RequestRunner.Proofs.Template.Preview
import RequestRunner.Proofs.Template.Substitution
import RequestRunner.Proofs.Template.Settling
import RequestRunner.Proofs.Run.Staging
import RequestRunner.Proofs.Decimal.Rounding
import RequestRunner.Proofs.Decimal.Reading
import RequestRunner.Proofs.Generator.Written
import RequestRunner.Proofs.Generator.Refusal
import RequestRunner.Proofs.Script.Containment
import RequestRunner.Proofs.CommandLine.Validation
import RequestRunner.Proofs.Environment.Rounds
import RequestRunner.Proofs.Document.Insertion
import RequestRunner.Proofs.Output.Grammar
import RequestRunner.Proofs.Text.Order
import RequestRunner.Proofs.Report.Listing
import RequestRunner.Proofs.Network.HeaderMerging
import RequestRunner.Proofs.Document.Extent
import RequestRunner.Proofs.Template.Scanning
import RequestRunner.Proofs.Output.Alignment
import RequestRunner.Proofs.Environment.Surrounding
