import WebForm.Form
import WebForm.Schema.Spelling
import WebForm.Settings.Basic
import WebForm.Settings.LogLevel
import WebForm.Proofs.Endpoint
import WebForm.Proofs.Holes
import WebForm.Proofs.ErrorBlock
import WebForm.Proofs.Checkbox
import WebForm.Proofs.Consistency
import WebForm.Proofs.Precedence
import WebForm.Proofs.Carrying
import WebForm.Proofs.Projection
import WebForm.Proofs.Gathering
import WebForm.Proofs.Collecting
import WebForm.Proofs.Tag
import WebForm.Proofs.Redisplay
import WebForm.Proofs.Pending
import WebForm.Proofs.Naming
import WebForm.Proofs.Instance
import WebForm.Proofs.Rechecking.Mapping
import WebForm.Proofs.Rechecking.Choice
import WebForm.Proofs.Rechecking.Record
import WebForm.Proofs.Rechecking.Type
import WebForm.Proofs.Editing.RoundTrip
import WebForm.Proofs.Identity
import WebForm.Proofs.Repetition
import WebForm.Proofs.Fitting.Report
import WebForm.Proofs.Nesting.Form
import WebForm.Proofs.Partition
import WebForm.Proofs.Conserving
import WebForm.Proofs.Span.Field
import WebForm.Proofs.Settings.Precedence
import WebForm.Proofs.Agreement
import WebForm.Proofs.Contribution
import WebForm.Proofs.Mark
import WebForm.Proofs.Locality
import WebForm.Proofs.Idempotence
import WebForm.Proofs.Declaring
import WebForm.Proofs.Wrapping
import WebForm.Proofs.Defaults
