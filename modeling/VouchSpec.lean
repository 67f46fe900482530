import VouchSpec.Commerce.Confluence
import VouchSpec.Commerce.History
import VouchSpec.Commerce.Waiting
import VouchSpec.Commerce.Saturation
import VouchSpec.Commerce.StrictJson
import VouchSpec.Stripe.Agreement
import VouchSpec.Stripe.Rejection
import VouchSpec.Stripe.Lease
import VouchSpec.Access.Revocation
import VouchSpec.Api.Noninterference
import VouchSpec.Api.RateLimiter
import VouchSpec.Fulfillment.Payment
import VouchSpec.Fulfillment.Retrieval
import VouchSpec.Paid.Agreement
import VouchSpec.Signing.Separation
import VouchSpec.Lifecycle.Memory
import VouchSpec.Lifecycle.Capacity
import VouchSpec.Lifecycle.Verdict
import VouchSpec.Catalog.Succession
import VouchSpec.Catalog.Binding
import VouchSpec.Catalog.Acceptance
import VouchSpec.Inspection.Eligibility
import VouchSpec.Inspection.Hostile
import VouchSpec.Inspection.Attestation
import VouchSpec.Inspection.Digest
import VouchSpec.Inspection.LineNumbers
import VouchSpec.Inspection.AllowedPath
import VouchSpec.Inspection.UrlSecrets
import VouchSpec.Inspection.Redaction
import VouchSpec.Inspection.Blobs
import VouchSpec.StageB.Fetcher
import VouchSpec.StageB.Reuse
import VouchSpec.StageB.Soundness
import VouchSpec.Remedy.Payout
