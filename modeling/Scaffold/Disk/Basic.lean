/-!
A disk: directories and files with their modes, kept by location. A location that is put anew stays
where it was first, so that putting the same again changes nothing.
-/

namespace Scaffold

/-- The names that lead from the root of a disk to a directory or file. -/
abbrev Location := List String

inductive Node where
  | directory (mode : Nat)
  | file (mode : Nat) (text : String)
  deriving DecidableEq, Repr

namespace Node

def mode : Node → Nat
  | directory mode => mode
  | file mode _ => mode

def withMode (mode : Nat) : Node → Node
  | directory _ => directory mode
  | file _ text => file mode text

def isDirectory : Node → Bool
  | directory _ => true
  | file _ _ => false

/-- Directories have no size of their own. -/
def size : Node → Nat
  | directory _ => 0
  | file _ text => text.utf8ByteSize

/-- Modes are of twelve bits. -/
def modeLimit : Nat := 0o10000

/-- What a new directory may be used for until its mode is set. -/
def newDirectoryMode : Nat := 0o755

/-- What a new file may be used for until its mode is set. -/
def newFileMode : Nat := 0o644

end Node

structure Disk where
  nodes : List (Location × Node)
  /-- Where relative paths start. -/
  home : Location := []
  deriving DecidableEq, Repr

namespace Disk

/-- Only the root. -/
def empty : Disk := { nodes := [([], .directory Node.newDirectoryMode)] }

def node? (d : Disk) (l : Location) : Option Node := d.nodes.lookup l

def putAmong (l : Location) (n : Node) : List (Location × Node) → List (Location × Node)
  | [] => [(l, n)]
  | (k, m) :: rest => if k = l then (l, n) :: rest else (k, m) :: putAmong l n rest

def put (d : Disk) (l : Location) (n : Node) : Disk := { d with nodes := putAmong l n d.nodes }

theorem lookup_putAmong (l k : Location) (n : Node) (nodes : List (Location × Node)) :
    (putAmong l n nodes).lookup k = if k = l then some n else nodes.lookup k := by
  induction nodes with
  | nil => by_cases h : k = l <;> simp [putAmong, List.lookup_cons, h, beq_false_of_ne]
  | cons m nodes ih =>
    obtain ⟨j, m⟩ := m
    by_cases hj : j = l
    · subst j
      by_cases h : k = l <;> simp [putAmong, List.lookup_cons, h, beq_false_of_ne]
    · by_cases h : k = j
      · subst k
        simp [putAmong, hj]
      · simp [putAmong, List.lookup_cons, hj, beq_false_of_ne h, ih]

/-- A put changes what is at its own location and nothing else. -/
theorem node?_put (d : Disk) (l k : Location) (n : Node) :
    (d.put l n).node? k = if k = l then some n else d.node? k :=
  lookup_putAmong l k n d.nodes

/-- Whether a location comes before another where each directory comes before its content. -/
def isBefore : Location → Location → Bool
  | [], _ => true
  | _ :: _, [] => false
  | x :: xs, y :: ys => decide (x < y) || (x == y && isBefore xs ys)

/-- All that is below the root, each directory followed by its content, sorted by name. -/
def listing (d : Disk) : List (Location × Node) :=
  (d.nodes.filter (·.1 != [])).mergeSort fun a b => isBefore a.1 b.1

end Disk

end Scaffold
