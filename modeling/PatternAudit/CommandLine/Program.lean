import PatternAudit.CommandLine.Run

/-!
# The program

What the program leaves behind: its exit status and what it writes to its two outputs.
-/

namespace PatternAudit.CommandLine

structure Exit where
  status : UInt32
  stdout : String
  stderr : String
  deriving DecidableEq

/-- The version line. -/
def versionText : String := "match-eval 0.1.0\n"

/-- How the program is called. -/
def usageText : String := "Usage: match-eval [OPTIONS] <COMMAND>\n"

/-- Help and version are what was asked for; any other refusal is an error of the caller. -/
def Refusal.status : Refusal → UInt32
  | helpAsked | versionAsked => 0
  | _ => 2

/-- The version if it was asked for; anyone else is told how to call the program. -/
def Refusal.message : Refusal → String
  | versionAsked => versionText
  | _ => usageText

def Refusal.exit (r : Refusal) : Exit :=
  if r.status = 0 then ⟨0, r.message, ""⟩ else ⟨r.status, "", r.message⟩

/-- Log entries are shown only to those who asked for more. -/
def Note.render (verbose : Bool) : Note → String
  | .log entry => if verbose then entry.render else ""
  | .line text => Report.line text

/-- The causes below a message; several of them are numbered. -/
def causesText : List String → String
  | [] => ""
  | [cause] => "\nCaused by:\n    " ++ Report.line cause
  | causes =>
    "\nCaused by:\n" ++
      String.join (causes.zipIdx.map fun c => Report.line s!"    {c.2.repr}: {c.1}")

def failureText : List String → String
  | [] => ""
  | outermost :: causes => Report.line ("Error: " ++ outermost) ++ causesText causes

def Outcome.exit (verbose : Bool) (o : Outcome) : Exit :=
  let notes := String.join (o.notes.map (Note.render verbose))
  match o.failure with
  | none => ⟨0, o.report, notes⟩
  | some messages => ⟨1, o.report, notes ++ failureText messages⟩

/-- Carries out a command line. -/
def execute (disk : Disk) (arguments : List String) : Exit :=
  match parse arguments with
  | .error refusal => refusal.exit
  | .ok invocation => (invocation.run disk).exit invocation.verbose

end PatternAudit.CommandLine
