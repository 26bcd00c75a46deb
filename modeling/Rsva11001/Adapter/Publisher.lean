import Rsva11001.Lib.Run
import Rsva11001.Adapter.Images

/-!
# The image files, step by step

`writeImageFile` as other processes see it. `Publisher` holds the files that the adapter publishes
and the call that is under way; one step of it makes one system call, or copies one byte of the
image. Between the steps, readers open a file and read it to its end.

A file is named after the value of the camera iterator (`camera_%u.jpg`), and is known by it here.
`torn` and `log` are history variables.
-/

namespace Rsva11001

open Lib

/-- The history of the image files: which image has been copied to its end, and what was read. -/
inductive Access where
  | filled (n : Nat) (image : List UInt8)
  | read (n : Nat) (content : Option (List UInt8))
  deriving DecidableEq, Repr

/-- What `writeImageFile` does next. The memory copy has come to byte `copied`. -/
inductive Stage where
  | unlink
  | «open»
  | ftruncate (fd : Nat)
  | mmap (fd : Nat)
  | close (fd addr : Nat)
  | memcpy (addr copied : Nat)
  | munmap (addr : Nat)
  deriving DecidableEq, Repr

/-- A call of `writeImageFile` that is under way, with the globals as it has left them so far. -/
structure Call (P : HttpParser) where
  globals : Globals P
  buffer : List UInt8
  env : WriteEnv
  stage : Stage

/-- The files as a reader finds them, and the adapter's call. `torn` says of a file that it has
been created and that its image has not been copied to the end. -/
structure Publisher (P : HttpParser) where
  files : Nat → Option (List UInt8)
  call : Option (Call P)
  returned : Option (Bool × Globals P)
  torn : Nat → Bool
  log : List Access

/-- The adapter calls `writeImageFile`, it goes on with the call, or a reader reads a file. -/
inductive Action (P : HttpParser) where
  | call (g : Globals P) (buffer : List UInt8) (e : WriteEnv)
  | advance
  | read (n : Nat)

/-- What `ftruncate` makes of the content of a file. -/
def resize (content : List UInt8) (size : Nat) : List UInt8 :=
  content.take size ++ List.replicate (size - content.length) 0

namespace Call

variable {P : HttpParser}

/-- The number in the file's name. -/
def number (c : Call P) : Nat :=
  c.globals.cameraIterator

def say (c : Call P) (events : List Event) : Call P :=
  { c with globals := c.globals.say events }

/-- The part of `writeImageFile` behind the memory copy. -/
def finish (c : Call P) (addr : Nat) : Except Halt (Bool × Globals P) := do
  let i ← slot .lastImage c.globals.cameraIterator
  match (c.globals.lastImage i).data with
  | none => c.globals.storeImage i c.buffer addr c.env
  | some old =>
    if !c.env.munmap then return (false, c.globals)
    else
      (c.globals.say [.unmapped old.addr (c.globals.lastImage i).size]).storeImage i c.buffer addr
        c.env

end Call

namespace Publisher

variable {P : HttpParser}

/-- No image has been published. -/
def start (P : HttpParser) : Publisher P where
  files := fun _ => none
  call := none
  returned := none
  torn := fun _ => false
  log := []

/-- `writeImageFile` returns. -/
def returns (p : Publisher P) (b : Bool) (g : Globals P) : Publisher P :=
  { p with call := none, returned := some (b, g) }

def setFile (p : Publisher P) (n : Nat) (content : Option (List UInt8)) : Publisher P :=
  { p with files := Function.update p.files n content }

/-- The memory copy goes on at byte `copied`, or has come to the end of the image. -/
def copyFrom (p : Publisher P) (c : Call P) (addr copied : Nat) : Publisher P :=
  if copied < c.buffer.length then { p with call := some { c with stage := .memcpy addr copied } }
  else
    { p with
      call := some { c with stage := .munmap addr }
      torn := Function.update p.torn c.number false
      log := p.log ++ [.filled c.number c.buffer] }

/-- One step of `writeImageFile`. -/
def advance (p : Publisher P) (c : Call P) : Except Halt (Publisher P) :=
  match c.stage with
  | .unlink =>
    if c.env.unlink = .error then .ok (p.returns false c.globals)
    else .ok { p.setFile c.number none with
      call := some { c with stage := .open }
      torn := Function.update p.torn c.number false }
  | .open =>
    match c.env.open with
    | none => .ok (p.returns false c.globals)
    | some fd => .ok { p.setFile c.number (some ((p.files c.number).getD [])) with
      call := some { c.say [.fileOpened fd] with stage := .ftruncate fd }
      torn := Function.update p.torn c.number true }
  | .ftruncate fd =>
    if !c.env.ftruncate then .ok (p.returns false c.globals)
    else .ok { p.setFile c.number ((p.files c.number).map fun f => resize f c.buffer.length) with
      call := some { c with stage := .mmap fd } }
  | .mmap fd =>
    match c.env.mmap with
    | none => .ok (p.returns false c.globals)
    | some addr =>
      .ok { p with
        call := some { c.say [.mapped addr c.buffer.length] with stage := .close fd addr } }
  | .close fd addr =>
    if !c.env.close then .ok (p.returns false c.globals)
    else .ok (p.copyFrom (c.say [.fileClosed fd]) addr 0)
  | .memcpy addr copied =>
    .ok ((p.setFile c.number
      ((p.files c.number).map fun f => f.set copied (c.buffer.getD copied 0))).copyFrom c addr
        (copied + 1))
  | .munmap addr => do
    let (b, g) ← c.finish addr
    return p.returns b g

/-- One step. The adapter makes one call at a time; when none is under way it has nothing to go on
with. -/
def step (p : Publisher P) : Action P → Except Halt (Publisher P)
  | .call g buffer e =>
    match p.call with
    | none =>
      .ok { p with
        call := some ⟨g.say [.writeImage buffer], buffer, e, .unlink⟩
        returned := none }
    | some _ => .ok p
  | .advance =>
    match p.call with
    | none => .ok p
    | some c => p.advance c
  | .read n => .ok { p with log := p.log ++ [.read n (p.files n)] }

end Publisher

end Rsva11001
