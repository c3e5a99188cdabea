import Recast.Text.Case
import Recast.Text.Utf8
import Recast.Value.Decidable
import Recast.Value.Key
import Recast.Json.Check
import Recast.Json.Printer
import Recast.Path.Reader
import Recast.Rule.Check
import Recast.Document
import Recast.Advice
import Recast.Main
import Recast.Proofs.Throughout
import Recast.Proofs.Update
import Recast.Proofs.Normal
import Recast.Proofs.Identity
import Recast.Proofs.Edits
import Recast.Proofs.LastWrite
import Recast.Proofs.Pairing
import Recast.Proofs.Preservation
import Recast.Proofs.Locations
import Recast.Proofs.Overlay
import Recast.Proofs.Reconcile
import Recast.Proofs.Chains
import Recast.Proofs.FailFast
import Recast.Proofs.Blame
import Recast.Proofs.Loading
import Recast.Proofs.TrailOverlay
import Recast.Proofs.Refusals
import Recast.Proofs.Numerals
import Recast.Proofs.Lexemes
import Recast.Proofs.RoundTrip
import Recast.Proofs.Alike
import Recast.Proofs.AlikeRuns
import Recast.Proofs.Containment
import Recast.Proofs.Congruence
import Recast.Proofs.Repeat
import Recast.Proofs.Navigation
import Recast.Proofs.Matching
import Recast.Proofs.Checking
import Recast.Proofs.Reading
import Recast.Proofs.Sessions
import Recast.Proofs.PlainMerge
import Recast.Proofs.FailedWrites
import Recast.Proofs.FieldOrder
import Recast.Proofs.ElementRuns
import Recast.Proofs.Broadcast
import Recast.Proofs.Rendering
import Recast.Proofs.Lens
import Recast.Proofs.Exchange
import Recast.Proofs.Layers
import Recast.Proofs.Whole
import Recast.Proofs.Range
import Recast.Proofs.Attempts
import Recast.Proofs.Stopping
import Recast.Proofs.PathChecks
import Recast.Proofs.Encoding
import Recast.Proofs.RuleFiles
import Recast.Proofs.Destinations
import Recast.Proofs.Selection
import Recast.Proofs.Profiling
