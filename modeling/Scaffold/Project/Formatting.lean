import Scaffold.Disk.Access

/-!
The formatter of a project, a program that runs in the directory of the project. Of the program only
the exit status counts; what it does to the files is its own affair.
-/

namespace Scaffold

/-- The programs that can be run, each with its exit status. -/
abbrev Programs := String → Option Nat

/-- Why a project was not formatted. -/
inductive FormatFailure where
  | notRun (e : DiskError)
  | status (code : Nat)
  deriving DecidableEq, Repr

/-- Runs the formatter in a directory. The directory must be there, whatever the program. -/
def runFormatter (programs : Programs) (program dir : String) (disk : Disk) :
    Except FormatFailure Unit :=
  if program.toList.contains '\x00' then .error (.notRun .nulInPath)
  else
    match disk.find dir with
    | .error e => .error (.notRun e)
    | .ok (_, .file _ _) => .error (.notRun .notDirectory)
    | .ok (_, .directory _) =>
      match programs program with
      | none => .error (.notRun .notFound)
      | some 0 => .ok ()
      | some code => .error (.status code)

end Scaffold
