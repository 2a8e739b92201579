import MetricGateway.Text.Bytes
import MetricGateway.Round.Schedule

/- Requests to instances and what comes back. How an instance answers is up to a transport, which
   may depend on all that has been sent before. -/
namespace MetricGateway

structure FetchRequest where
  url : String
  /-- Routes the request to one instance behind a shared address. -/
  instanceId : String
  gatewayId : String
  authorization : Option String
  deriving DecidableEq, Repr

namespace FetchRequest

/-- Control characters other than the tab cannot be sent in a header. -/
def isHeaderChar (c : Char) : Bool := c == '\t' || (0x20 ≤ c.toNat && c.toNat ≠ 0x7F)

def isSendable (r : FetchRequest) : Bool :=
  r.instanceId.toList.all isHeaderChar && r.gatewayId.toList.all isHeaderChar

end FetchRequest

def BasicAuth.authorization (a : BasicAuth) : String :=
  "Basic " ++ String.ofList (Text.base64 (a.username ++ ":" ++ a.password).toUTF8.toList)

def Instance.fetchRequest (gatewayId : String) (i : Instance) : FetchRequest where
  url := i.url
  instanceId := i.id
  gatewayId := gatewayId
  authorization := i.credentials.map BasicAuth.authorization

structure Reply where
  status : Nat
  contentType : Option String
  body : List UInt8
  deriving DecidableEq, Repr

def Reply.outcome (r : Reply) : FetchOutcome :=
  if 200 ≤ r.status ∧ r.status < 300 then
    .page ⟨Text.ofBytes r.body, Framing.ofHeader? r.contentType⟩
  else .failed

/-- How a request goes: after how many milliseconds it is over, if ever, and what comes back. There
    is no reply if no connection is made. -/
structure Exchange where
  delay : Option Nat := some 0
  reply : Option Reply := none
  deriving DecidableEq, Repr

def Exchange.plan (e : Exchange) : FetchPlan :=
  { delay := e.delay, outcome := (e.reply.map Reply.outcome).getD .failed }

abbrev Transport := List FetchRequest → FetchRequest → Exchange

namespace Transport

def refusing : Transport := fun _ _ => {}

/-- How the fetch of an instance goes. What cannot be sent fails at once. -/
def plan (t : Transport) (earlier : List FetchRequest) (r : FetchRequest) : FetchPlan :=
  if r.isSendable then (t earlier r).plan else { delay := some 0, outcome := .failed }

def plans (t : Transport) (gatewayId : String) :
    List FetchRequest → List Instance → List (Instance × FetchPlan)
  | _, [] => []
  | earlier, i :: rest =>
    let r := i.fetchRequest gatewayId
    (i, t.plan earlier r) ::
      t.plans gatewayId (if r.isSendable then earlier ++ [r] else earlier) rest

end Transport
end MetricGateway
