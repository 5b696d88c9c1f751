/-
StreamingAcn.Monitor.Launch — from flags and a file to a plan.

The file is read if the flags name one; the flags win over the file, and the plan that they make
together has to be one that can be carried out.
-/
import StreamingAcn.Monitor.CommandLine
import StreamingAcn.Monitor.PlanFile

namespace StreamingAcn.Monitor

inductive LaunchError
  | file (path : String) (error : FileError)
  | plan (fault : PlanFault)
  deriving DecidableEq

/-- What was being done when the monitor gave up. -/
def LaunchError.context : LaunchError → String
  | .file path _ => s!"Failed to load {path}"
  | .plan _ => "Invalid configuration"

/-- Why the plan cannot be carried out, with what it is that cannot. -/
def PlanFault.report (f : PlanFault) : String := s!"Invalid configuration: {f.message}"

def LaunchError.message : LaunchError → String
  | .file _ error => error.message
  | .plan fault => fault.report

/-- The wishes of the file that the flags name; none where they name none. -/
def Flags.fileWishes (f : Flags) (contentOf : String → PlanFile.Content) :
    Except LaunchError Wishes :=
  match f.file with
  | none => .ok {}
  | some path =>
    match PlanFile.read (contentOf path) with
    | .error e => .error (.file path e)
    | .ok wishes => .ok wishes

/-- The plan that flags make with the file that they name. -/
def Flags.launch (f : Flags) (contentOf : String → PlanFile.Content) : Except LaunchError Plan :=
  match f.fileWishes contentOf with
  | .error e => .error e
  | .ok wishes =>
    let plan := Plan.ofWishes (f.wishes.orElse wishes)
    match plan.fault? with
    | some fault => .error (.plan fault)
    | none => .ok plan

end StreamingAcn.Monitor
