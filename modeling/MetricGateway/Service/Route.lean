import MetricGateway.Text.Bytes
import MetricGateway.Text.Line

/- Requests to the gateway and where they lead. -/
namespace MetricGateway

/-- A request as it comes in; names of headers may be written in any case. -/
structure Request where
  method : String
  /-- The path as it is written, with what may stand before and behind it. -/
  target : String
  headers : List (String × String) := []
  deriving DecidableEq, Repr

inductive Route where
  | metrics
  | single (appId number : String)
  | discovery
  | invalidate
  | health
  deriving DecidableEq, Repr

inductive RouteError where
  | notFound
  | methodNotAllowed
  | badParameter (name : String)
  deriving DecidableEq, Repr

namespace Request

def lowerCase (name : String) : List Char := name.toList.map Char.toLower

/-- The first header of a name, if its value is visible ASCII. -/
def header? (r : Request) (name : String) : Option String := do
  let (_, value) ← r.headers.find? fun h => lowerCase h.1 = lowerCase name
  if value.toList.all fun c => c = '\t' || (0x20 ≤ c.toNat && c.toNat < 0x7F) then value else none

def pathOf (target : List Char) : List Char :=
  let path := target.takeWhile fun c => c != '?' && c != '#'
  match path with
  | '/' :: _ => path
  | _ =>
    match (path.dropWhile (· != ':')) with
    | ':' :: '/' :: '/' :: address =>
      match address.dropWhile (· != '/') with
      | [] => ['/']
      | rest => rest
    | _ => path

def path (r : Request) : List Char := pathOf r.target.toList

end Request

namespace Route

def singleStart : List Char := "/singleTargetMetrics/".toList

/-- The two parameters of the path of one instance, as they are written. A segment within a path may
    have nothing in it and still be taken for a parameter; the last segment may not. -/
def parameters? (path : List Char) : Option (List Char × List Char) := do
  let rest ← Text.afterStart? singleStart path
  match rest.dropWhile (· != '/') with
  | '/' :: number =>
    if number.isEmpty || number.contains '/' then none
    else some (rest.takeWhile (· != '/'), number)
  | _ => none

def decode? (parameter : List Char) : Option String :=
  String.fromUTF8? ⟨(Text.percentDecode (String.ofList parameter).toUTF8.toList).toArray⟩

/-- What a path leads to, and the method that it takes. Parameters are read only after that. -/
def find? (path : List Char) : Option (String × Except RouteError Route) :=
  if path = "/metrics".toList then some ("GET", .ok .metrics)
  else if path = "/discovery".toList then some ("GET", .ok .discovery)
  else if path = "/health".toList then some ("GET", .ok .health)
  else if path = "/cache/invalidate".toList then some ("POST", .ok .invalidate)
  else match parameters? path with
    | none => none
    | some (appId, number) =>
      match decode? appId, decode? number with
      | none, _ => some ("GET", .error (.badParameter "app_id"))
      | some _, none => some ("GET", .error (.badParameter "instance_number"))
      | some appId, some number => some ("GET", .ok (.single appId number))

/-- Where a request leads. What can be got can also be asked for its head alone. -/
def ofRequest (r : Request) : Except RouteError Route :=
  match find? r.path with
  | none => .error .notFound
  | some (method, route) =>
    if r.method = method ∨ (method = "GET" ∧ r.method = "HEAD") then route
    else .error .methodNotAllowed

end Route
end MetricGateway
