import MetricGateway.Labelling

/- Configured targets, what identifies them, and their instances. -/
namespace MetricGateway

structure BasicAuth where
  username : String
  password : String
  deriving DecidableEq, Repr

structure Target where
  org : String
  space : String
  app : String
  appId : Option String
  route : String
  path : String
  protocol : String
  instances : Nat
  basicAuth : Option BasicAuth
  deriving DecidableEq, Repr

/-- Identity of a target. An application may have several endpoints, so path and protocol are
    part of it. -/
structure TargetKey where
  org : String
  space : String
  app : String
  path : String
  protocol : String
  deriving DecidableEq, Repr

def TargetKey.text (k : TargetKey) : String :=
  k.org ++ "/" ++ k.space ++ "/" ++ k.app ++ " (" ++ k.protocol ++ " " ++ k.path ++ ")"

structure Instance where
  org : String
  space : String
  app : String
  appId : String
  path : String
  protocol : String
  /-- Application id, colon, instance number. -/
  id : String
  url : String
  credentials : Option BasicAuth
  deriving DecidableEq, Repr

namespace Instance

def number? (i : Instance) : Option String := instanceNumber? i.id

def origin (i : Instance) : Origin := ⟨i.org, i.space, i.app, i.id⟩

end Instance

namespace Target

def key (t : Target) : TargetKey := ⟨t.org, t.space, t.app, t.path, t.protocol⟩

/-- The application id, which is the application's name unless set. -/
def effectiveAppId (t : Target) : String := t.appId.getD t.app

def url (t : Target) : String := t.protocol ++ "://" ++ t.route ++ t.path

def instanceAt (t : Target) (number : Nat) : Instance where
  org := t.org
  space := t.space
  app := t.app
  appId := t.effectiveAppId
  path := t.path
  protocol := t.protocol
  id := t.effectiveAppId ++ ":" ++ toString number
  url := t.url
  credentials := t.basicAuth

def allInstances (t : Target) : List Instance := (List.range t.instances).map t.instanceAt

end Target
end MetricGateway
