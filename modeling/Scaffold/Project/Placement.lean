/-!
Where a project is put and how: its parent directory, the modes of what is written, and what happens
when something is there already.
-/

namespace Scaffold

/-- What to do where the directory of the project is there already. -/
inductive Existing where
  /-- Leave it alone. -/
  | refuse
  /-- Write over it, and keep the files of other names. -/
  | overwrite
  deriving DecidableEq, Repr

structure Placement where
  root : String := "."
  directoryMode : Nat := 0o755
  fileMode : Nat := 0o644
  existing : Existing := .refuse
  /-- Whether the written project is formatted. -/
  format : Bool := true
  /-- The program whose `fmt` command formats a project. -/
  formatter : String := "cargo"
  deriving DecidableEq, Repr

end Scaffold
