import MetricGateway.Target.Basic
import MetricGateway.SingleFlight.Timeline

/- Looking up the instances of targets, behind a single-flight cache keyed by target. -/
namespace MetricGateway

inductive LookupError where
  | unknownTarget (key : TargetKey)
  | unresolved (key : TargetKey) (reason : String)
  deriving DecidableEq, Repr

def LookupError.message : LookupError → String
  | .unknownTarget key => "unknown target " ++ key.text
  | .unresolved key reason => "resolving target " ++ key.text ++ " failed: " ++ reason

/-- The instances of a target, taken from the configured ones. Of two targets with one key the
    later is meant. -/
def lookUp (targets : List Target) (key : TargetKey) : Except LookupError (List Instance) :=
  match targets.reverse.find? (fun t => decide (t.key = key)) with
  | some t => .ok t.allInstances
  | none => .error (.unknownTarget key)

abbrev LookupCache := SingleFlight.Timeline TargetKey (List Instance) LookupError

structure Directory where
  keys : List TargetKey
  cache : LookupCache
  /-- How many lookups there have been; each is a task of its own. -/
  lookups : Nat := 0

namespace Directory

def immediate (outcome : Except LookupError (List Instance)) :
    SingleFlight.Load (List Instance) LookupError := { outcome }

def ofTargets (targets : List Target) (settings : SingleFlight.Settings) : Directory where
  keys := targets.map Target.key
  cache := { cache := { settings }, loader := fun key _ => immediate (lookUp targets key) }

/-- Looks a target up. Lookups take no time, so the answer is there at once. -/
def find (d : Directory) (key : TargetKey) :
    Directory × Option (Except LookupError (List Instance)) :=
  let cache := d.cache.get (.request d.lookups) key
  let answer := cache.results.findSome? fun
    | (n, .got instances) => if n = d.lookups then some (.ok instances) else none
    | (n, .failed e) => if n = d.lookups then some (.error e) else none
    | _ => none
  ({ d with cache, lookups := d.lookups + 1 }, answer)

def selects (appId number : Option String) (i : Instance) : Bool :=
  appId.all (· == i.appId) && number.all fun n => i.number? == some n

/-- The instances of all targets, narrowed to one application and one instance number if given.
    A target that cannot be looked up is left out. -/
def discover (d : Directory) (appId number : Option String) : Directory × List Instance :=
  d.keys.foldl (fun (d, found) key =>
    match d.find key with
    | (d, some (.ok instances)) => (d, found ++ instances.filter (selects appId number))
    | (d, _) => (d, found)) (d, [])

def invalidate (d : Directory) : Directory := { d with cache := d.cache.invalidateAll }

end Directory
end MetricGateway
