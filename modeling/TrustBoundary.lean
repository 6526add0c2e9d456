import TrustBoundary.Cipher.Aes.Inverse
import TrustBoundary.Event.TimeOrderedId
import TrustBoundary.Event.Transaction
import TrustBoundary.Masking
import TrustBoundary.Pipeline.Action
import TrustBoundary.Pipeline.History
import TrustBoundary.Proofs.Decimal.Nearest
import TrustBoundary.Proofs.Decimal.Numeral
import TrustBoundary.Proofs.Decimal.Shortest
import TrustBoundary.Proofs.Decimal.Written
import TrustBoundary.Proofs.Double.Arithmetic
import TrustBoundary.Proofs.Double.PowersOfTen
import TrustBoundary.Proofs.Double.Range
import TrustBoundary.Proofs.Double.Rounding
import TrustBoundary.Proofs.Event.RoundTrip
import TrustBoundary.Proofs.Json.Contents
import TrustBoundary.Proofs.Json.Ends
import TrustBoundary.Proofs.Json.Members
import TrustBoundary.Proofs.Json.Printed
import TrustBoundary.Proofs.Json.Scalars
import TrustBoundary.Proofs.Json.Scaling
import TrustBoundary.Proofs.Json.SingleMember
import TrustBoundary.Proofs.Json.Strings
import TrustBoundary.Proofs.Pipeline.Abandonment
import TrustBoundary.Proofs.Pipeline.AlertOrder
import TrustBoundary.Proofs.Pipeline.Conservation
import TrustBoundary.Proofs.Pipeline.Isolation
import TrustBoundary.Proofs.Pipeline.PassThrough
import TrustBoundary.Proofs.Pipeline.Runs
import TrustBoundary.Proofs.Pipeline.Stopping
import TrustBoundary.Proofs.Protection.DeterministicImage
import TrustBoundary.Proofs.Protection.FieldChanges
import TrustBoundary.Proofs.Protection.Migration
import TrustBoundary.Proofs.Protection.PublicKeys
import TrustBoundary.Proofs.Protection.RoundTrip
import TrustBoundary.Proofs.Protection.SealedImage
import TrustBoundary.Proofs.Protection.StoredSize
import TrustBoundary.Proofs.Record.Reading
import TrustBoundary.Proofs.Risk.EventIds
import TrustBoundary.Proofs.Risk.Produced
import TrustBoundary.Proofs.Risk.Scanning
import TrustBoundary.Protection.PiiCategory
import TrustBoundary.Text.Base64.Inverse
import TrustBoundary.Proofs.Json.Whole
import TrustBoundary.Proofs.Record.RoundTrip
import TrustBoundary.Proofs.Masking.Hiding
import TrustBoundary.Proofs.Pipeline.Commuting
import TrustBoundary.Proofs.Pipeline.Confluence
import TrustBoundary.Proofs.Record.Decoders
import TrustBoundary.Proofs.Risk.AmountGrammar
import TrustBoundary.Proofs.Risk.Backtracking
import TrustBoundary.Proofs.Risk.Thousands
import TrustBoundary.Text.Pattern
import TrustBoundary.Proofs.Json.Exactness
import TrustBoundary.Proofs.Risk.Wrapping
import TrustBoundary.Proofs.Masking.InPlace
import TrustBoundary.Proofs.Masking.Sensitivity
import TrustBoundary.Proofs.Protection.FieldFailures
import TrustBoundary.Proofs.Risk.Alerts
import TrustBoundary.Proofs.Protection.BlockEquality
import TrustBoundary.Proofs.Protection.Startup
import TrustBoundary.Proofs.Settings.RoundTrip
import TrustBoundary.Proofs.Record.Histories
