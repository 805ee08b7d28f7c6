import DeviceDrivers.Lib.CString

/-!
# User-space processes

What the programs of the repository that run in user space print, and how they end.

* `printf`: the conversions `%s` and `%d`. A `%s` is handed the memory from its
  argument on, and kills the process when no NUL comes before the end of it.
* `Console.scans`: how many bytes each `%s` has looked at.
-/

namespace DeviceDrivers.User

/-- The process is killed when it reads where there is no memory. -/
inductive Fault
  | unmapped
deriving DecidableEq, Repr

/-- The parts of a format, with the arguments of its conversions. -/
inductive Arg
  | text (s : String)
  | dec (v : Int)
  | str (mem : List Byte)

/-- The same parts as they are printed. -/
inductive Piece
  | text (s : String)
  | dec (v : Int)
  | str (bs : List Byte)
deriving DecidableEq

inductive Out
  | stderr (msg : String)
  | stdout (line : List Piece)
deriving DecidableEq

/-- What was printed and scanned, the newest first. -/
structure Console where
  out : List Out
  scans : List Nat

def Console.start : Console := ⟨[], []⟩

def convert : List Arg → Option (List Piece)
  | [] => some []
  | .text s :: args => (convert args).map (.text s :: ·)
  | .dec v :: args => (convert args).map (.dec v :: ·)
  | .str mem :: args => (cString mem).bind fun bs => (convert args).map (.str bs :: ·)

/-- The scans of the conversions, up to the one that kills the process. -/
def scansOf : List Arg → List Nat
  | [] => []
  | .str mem :: args => scanned mem :: if NUL ∈ mem then scansOf args else []
  | .text _ :: args | .dec _ :: args => scansOf args

namespace Console

/-- `perror` and `fprintf(stderr, …)`. -/
@[simp] def eprint (msg : String) (c : Console) : Console := { c with out := .stderr msg :: c.out }

def printf (args : List Arg) (c : Console) : Except Fault Unit × Console :=
  let c := { c with scans := (scansOf args).reverse ++ c.scans }
  match convert args with
  | none => (.error .unmapped, c)
  | some line => (.ok (), { c with out := .stdout line :: c.out })

end Console

end DeviceDrivers.User
