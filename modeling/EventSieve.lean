import EventSieve.Config.Build
import EventSieve.View
import EventSieve.Proofs.Complaints
import EventSieve.Proofs.KindModes
import EventSieve.Proofs.Selection
import EventSieve.Proofs.Format
import EventSieve.Proofs.Faults
import EventSieve.Proofs.Eventwise
import EventSieve.Proofs.Rearrangement
import EventSieve.Proofs.Anchor
import EventSieve.Proofs.LegacyKeys
import EventSieve.Proofs.Sharing
import EventSieve.Proofs.Levels
import EventSieve.Proofs.ExclusionFirst
import EventSieve.Proofs.Literal
import EventSieve.Proofs.Pieces
import EventSieve.Proofs.TimeOfDay
import EventSieve.Proofs.Window
import EventSieve.Proofs.Account
import EventSieve.Proofs.Additions
import EventSieve.Proofs.Description
import EventSieve.Proofs.KeyForm
import EventSieve.Proofs.ApiVersion
import EventSieve.Proofs.Impersonation
import EventSieve.Proofs.ByteOrder
import EventSieve.Proofs.Queries
import EventSieve.Proofs.RuleOrder
import EventSieve.Proofs.Span
import EventSieve.Proofs.SpanText
