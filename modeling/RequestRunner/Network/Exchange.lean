import RequestRunner.Network.Client
import RequestRunner.Run.Item

/-!
# Exchanging messages

The exchange of one request for its response over a network that is given as a function. What is
sent and what arrives is noted in the log.

Main statement: the outcome of an exchange is that of the reply to the prepared request
(`exchange_run`).
-/

set_option autoImplicit false

namespace RequestRunner.Network

variable {m : Type → Type} [Monad m]

/-- What is logged of a request that is sent. -/
def departure (method : Method) (url : String) : LogEntry :=
  .debug ("🌐 " ++ method.name ++ " " ++ url)

/-- What is logged of a reply. -/
def arrival (url : String) : Reply → List LogEntry
  | .response status statusText _ _ =>
    [.debug ("📥 " ++ Decimal.text status ++ " " ++ statusText ++ " from " ++ url)]
  | .failure _ _ => []

/-- The reply to a request that is sent, unless it is refused before. -/
def send (network : Outgoing → m Reply) (o : Outgoing) : m Reply :=
  match o.refusal? with
  | some reply => pure reply
  | none => do
    let reply ← network o
    pure reply.taken

/-- Sends a request and makes its response out of the reply. -/
def exchange (settings : Settings) (network : Outgoing → m Reply) (log : LogEntry → m Unit)
    (request : Request) : Attempt m Response :=
  ExceptT.mk do
    let url := normalizeTarget request.target
    log (departure request.method url)
    let reply ← send network (prepare settings request url)
    (arrival url reply).forM log
    pure (outcome request.method url reply)

/-- **The outcome of an exchange is that of the reply to the prepared request**, when nothing is
logged. -/
theorem exchange_run {σ : Type} (settings : Settings) (network : Outgoing → StateM σ Reply)
    (request : Request) (s : σ) :
    let url := normalizeTarget request.target
    let sent := send network (prepare settings request url) s
    (exchange settings network (fun _ => pure ()) request).run s =
      (outcome request.method url sent.1, sent.2) := by
  simp only [exchange, ExceptT.run_mk]
  change (let (reply, t) := send network (prepare settings request (normalizeTarget request.target)) s
    ((arrival (normalizeTarget request.target) reply).forM
      (fun _ => (pure () : StateM σ Unit)) >>= fun _ =>
        pure (outcome request.method (normalizeTarget request.target) reply)) t) = _
  generalize send network (prepare settings request (normalizeTarget request.target)) s = out
  obtain ⟨reply, t⟩ := out
  cases reply <;> rfl

end RequestRunner.Network
