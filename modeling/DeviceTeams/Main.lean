import DeviceTeams.CommandLine.Run

/-!
# The program

Reads the arguments and the settings file, runs, and writes what the run leaves behind.
-/
namespace DeviceTeams

def readConfig (path : String) : IO ConfigFile := do
  try
    let bytes ← IO.FS.readBinFile path
    match String.fromUTF8? bytes with
    | some content => pure (.text content)
    | none => pure .undecodable
  catch
    | .noFileOrDirectory _ _ _ => pure .missing
    | _ => pure .directory

def configOf : CommandLine.Request → IO ConfigFile
  | .solve options => readConfig options.config
  | _ => pure .missing

end DeviceTeams

open DeviceTeams in
def main (arguments : List String) : IO UInt32 := do
  let request := CommandLine.parse arguments
  let file ← configOf request
  let started ← IO.monoNanosNow
  let result ← IO.lazyPure fun _ => CommandLine.execute request fun _ => file
  let finished ← IO.monoNanosNow
  let output := result.output (.after (finished - started))
  for line in output.stderr do IO.eprintln line
  for line in output.stdout do IO.println line
  pure output.exit.toUInt32
