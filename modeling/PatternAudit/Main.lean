import PatternAudit.CommandLine.Program

/-!
# Entry point

Opens the files that the command line asks for, runs the program on what they hold, and writes its
outputs.
-/

namespace PatternAudit.CommandLine

/-- What opening a path of the file system gives. -/
def openPath (path : Path) : IO (Except OpenError Entry) := do
  try
    let bytes ← IO.FS.readBinFile path.text
    return .ok (.file bytes.data.toList)
  catch
    | .noFileOrDirectory .. => return .error .notFound
    | .inappropriateType _ code _ =>
      return if code = 21 then .ok .directory else .error .notDirectory
    | .permissionDenied _ code details => return .error (.other s!"{details} (os error {code})")
    | e => return .error (.other e.toString)

/-- The part of the file system that holds the given paths. -/
def openPaths (paths : List Path) : IO Disk := do
  let entries ← paths.mapM fun path => do return (path, ← openPath path)
  return fun path => (entries.lookup path).getD (.error .notFound)

end PatternAudit.CommandLine

open PatternAudit.CommandLine in
def main (arguments : List String) : IO UInt32 := do
  let paths := match parse arguments with
    | .ok invocation => invocation.paths
    | .error _ => []
  let exit := execute (← openPaths paths) arguments
  IO.print exit.stdout
  IO.eprint exit.stderr
  return exit.status
