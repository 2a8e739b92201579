import MetricGateway.CommandLine.Run

/- The program. It has no connection to any network: instances are out of its reach, and it cannot
   listen for requests. -/
namespace MetricGateway
namespace CommandLine

def readStored (path : String) : IO Stored := do
  try
    match String.fromUTF8? (← IO.FS.readBinFile path) with
    | some t => return .text t
    | none => return .unreadable
  catch
    | .noFileOrDirectory .. => return .absent
    | _ => return .unreadable

def readDisk (named : Option String) : IO Disk := do
  let paths := named.toList ++ Source.usualPaths
  let found ← paths.mapM fun path => return (path, ← readStored path)
  return fun path => (found.lookup path).getD .absent

def newId : IO String := do
  let bytes ← IO.getRandomBytes 16
  return String.ofList (bytes.toList.flatMap fun b => Markup.Tree.hex 2 b.toNat)

def finish (o : Outcome) : IO UInt32 := do
  IO.print o.output
  IO.eprint o.errors
  return o.code.toUInt32

def carryOut : Task → IO UInt32
  | .serve _ address => finish (.failed ("cannot listen on " ++ address))
  | task => finish ((finish? .refusing task).getD {})

def runWords (words : List String) : IO UInt32 := do
  match read words with
  | .error e => finish (.ofUsage e)
  | .ok o => carryOut (prepare (← readDisk o.settingsFile) (← newId) o)

end CommandLine
end MetricGateway

def main (words : List String) : IO UInt32 := MetricGateway.CommandLine.runWords words
