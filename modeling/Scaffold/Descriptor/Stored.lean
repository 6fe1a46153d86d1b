import Scaffold.Descriptor.Format
import Scaffold.Disk.Action

/-!
Descriptors in files, whose format goes by the extension.
-/

namespace Scaffold

/-- Why a file gives no descriptor, or takes none. -/
inductive StoreError where
  | disk (path : String) (e : DiskError)
  | unreadable (e : ReadError)
  deriving DecidableEq, Repr

namespace StoreError

def message : StoreError → String
  | disk path _ => "failed accessing descriptor " ++ path
  | unreadable e => e.message

end StoreError

namespace Descriptor

def load (path : String) (disk : Disk) : Except StoreError Descriptor :=
  match disk.read path with
  | .error e => .error (.disk path e)
  | .ok text =>
    match parse (Format.ofPath path) text with
    | .error e => .error (.unreadable e)
    | .ok d => .ok d

def save (d : Descriptor) (path : String) (disk : Disk) : Except StoreError Disk :=
  match disk.write path (d.write (Format.ofPath path)) with
  | .error e => .error (.disk path e)
  | .ok disk => .ok disk

end Descriptor

end Scaffold
