import Switchboard.Hub.Calls
import Switchboard.Hub.Startup
import Switchboard.Inspect
import Switchboard.Main
import Switchboard.Proofs.Store.Effect
import Switchboard.Proofs.Store.Optimistic
import Switchboard.Proofs.Watch.Numbers
import Switchboard.Proofs.Store.Content
import Switchboard.Proofs.Store.Mailboxes
import Switchboard.Proofs.Store.Notification
import Switchboard.Proofs.Store.Expansion
import Switchboard.Proofs.Condition.Convergence
import Switchboard.Proofs.Rule.Firing
import Switchboard.Proofs.Http.LongPoll
import Switchboard.Proofs.Http.Failure
import Switchboard.Proofs.Store.Addressable
import Switchboard.Proofs.Tree.Alike
import Switchboard.Proofs.Tree.Independent
import Switchboard.Proofs.Store.Commuting
import Switchboard.Proofs.Store.Waking
import Switchboard.Proofs.Hub.Owners
import Switchboard.Proofs.Hub.Ledger
import Switchboard.Proofs.Hub.Turns
import Switchboard.Proofs.Hub.Dealings
import Switchboard.Proofs.Hub.Orders
import Switchboard.Proofs.Hub.Accounting
import Switchboard.Proofs.Store.Keeping
import Switchboard.Proofs.Http.Surface
import Switchboard.Proofs.Rule.Deeds
import Switchboard.Proofs.Hub.Chronicle
import Switchboard.Proofs.Hub.Resting
import Switchboard.Proofs.Hub.Removal
import Switchboard.Proofs.Tree.Storable
import Switchboard.Proofs.Config.Accepted
import Switchboard.Proofs.Condition.Offences
import Switchboard.Proofs.Hub.Startup
import Switchboard.Proofs.Decimal.Spelling
import Switchboard.Proofs.Decimal.Rounding
import Switchboard.Proofs.Decimal.Shortest
import Switchboard.Proofs.Json.Strings
import Switchboard.Proofs.Json.Numbers
import Switchboard.Proofs.Json.Doubles
import Switchboard.Proofs.Json.RoundTrip
import Switchboard.Proofs.Tree.Rewriting
import Switchboard.Proofs.Store.Export
import Switchboard.Proofs.Store.Acceptance
import Switchboard.Proofs.Condition.Opening
import Switchboard.Proofs.Hub.Admission
import Switchboard.Proofs.Hub.Careers
import Switchboard.Proofs.Hub.Edges
import Switchboard.Proofs.Hub.Stretches
import Switchboard.Proofs.Hub.Undisturbed
import Switchboard.Proofs.Hub.Firings
import Switchboard.Proofs.Store.Reports
import Switchboard.Proofs.Store.Creation
import Switchboard.Proofs.Config.Places
import Switchboard.Proofs.Config.Substitution
import Switchboard.Proofs.Config.Values
import Switchboard.Proofs.Address.Grammar
import Switchboard.Proofs.Precondition
import Switchboard.Proofs.Document
import Switchboard.Proofs.Condition.Codec
import Switchboard.Proofs.Rule.Codec
import Switchboard.Proofs.Tree.FirstOffence
import Switchboard.Proofs.Condition.Feeds
import Switchboard.Proofs.Store.Ending
