import ComdexRwa.Foundation.Run
import ComdexRwa.Core.Profile
import ComdexRwa.Core.Invoice
import ComdexRwa.Core.Contract
import ComdexRwa.Core.ContactBook
import ComdexRwa.Foundation.Register
import ComdexRwa.Core.InvoiceBook
import ComdexRwa.Foundation.Instalment
import ComdexRwa.Core.InvoiceLife
import ComdexRwa.Core.Payments
import ComdexRwa.Core.Configuration
import ComdexRwa.Core.Tokens
import ComdexRwa.Foundation.Outcome
import ComdexRwa.Core.Acceptance
import ComdexRwa.Core.Refusals
import ComdexRwa.Core.Panics
import ComdexRwa.Core.ProfileFrame
import ComdexRwa.Foundation.Consent
import ComdexRwa.Core.Consent
import ComdexRwa.Foundation.Query
import ComdexRwa.Core.Query
import ComdexRwa.Core.Views
import ComdexRwa.Core.ContactViews
import ComdexRwa.Foundation.Tally
import ComdexRwa.Core.Totals
import ComdexRwa.Core.TotalsRange
import ComdexRwa.Core.Instalments
import ComdexRwa.Core.Settlement
import ComdexRwa.Foundation.Decimal
import ComdexRwa.Core.Migration
import ComdexRwa.Foundation.Footprint
import ComdexRwa.Core.Independence
import ComdexRwa.Core.AccountHistory
import ComdexRwa.Core.Answers
import ComdexRwa.Core.Offers
import ComdexRwa.Core.Progress
import ComdexRwa.Core.Marketplace
import ComdexRwa.Foundation.Refinement
import ComdexRwa.Foundation.Market
import ComdexRwa.Foundation.Rounding
import ComdexRwa.Foundation.Verdict
import ComdexRwa.Cw3.Proposal
import ComdexRwa.Cw3.Voting
import ComdexRwa.Cw3.Polls
import ComdexRwa.Foundation.Transfers
import ComdexRwa.Cw3.Deposit
import ComdexRwa.Foundation.Partition
import ComdexRwa.Controllers.Claim
import ComdexRwa.Controllers.Releases
import ComdexRwa.Controllers.Hooks
import ComdexRwa.Controllers.Control
import ComdexRwa.Core.Upgrades
