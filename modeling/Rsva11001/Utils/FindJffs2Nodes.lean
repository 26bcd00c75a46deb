import Mathlib.Algebra.Group.Int.Defs
import Mathlib.Algebra.Group.Nat.Defs
import Mathlib.Algebra.GroupWithZero.Nat
import Rsva11001.Lib.Search

/-!
# The JFFS2 node scan

The script `utils/findJffs2Nodes.py`, run under Python 2, where the file is read as bytes. The two
loops at its top level are `searchLoop` and `decodeLoop`. `struct.unpack` raises unless it is given
exactly the bytes its format needs; an exception ends the script, and what has been printed before
stays. The dictionary of field values that the script builds and drops is left out.
-/

namespace Rsva11001.FindJffs2Nodes

open Lib

/-! ## Strings -/

def jffs2Magic : List UInt8 := [0x85, 0x19]

/-- `data.find(sub, start)`, with `start` not negative. -/
def find (data sub : List UInt8) (start : Int) : Int :=
  match firstFrom sub data start.toNat with
  | some i => i
  | none => -1

/-- The place a slice bound stands for: from the end when it is negative, and inside the string. -/
def bound (data : List UInt8) (i : Int) : Nat :=
  if i < 0 then (data.length + i).toNat else min i.toNat data.length

/-- `data[start:stop]` -/
def slice (data : List UInt8) (start stop : Int) : List UInt8 :=
  (data.drop (bound data start)).take (bound data stop - bound data start)

/-! ## Unpacking -/

/-- The codes of a format string. -/
inductive Code where
  | H
  | I
  | B
  | h
  | s (n : Nat)
  deriving DecidableEq, Repr

/-- The number of bytes a code stands for in a format that starts with `<`. -/
def Code.size : Code → Nat
  | .H | .h => 2
  | .I => 4
  | .B => 1
  | .s n => n

/-- An unpacked value. -/
inductive Value where
  | int (n : Int)
  | str (bytes : List UInt8)
  deriving DecidableEq, Repr

/-- The number whose bytes are given, the lowest first. -/
def littleEndian : List UInt8 → Nat
  | [] => 0
  | b :: rest => b.toNat + 256 * littleEndian rest

/-- The value of the bytes of one code. -/
def Code.value : Code → List UInt8 → Value
  | .H, b | .I, b | .B, b => .int (littleEndian b)
  | .h, b => .int (if littleEndian b < 2 ^ 15 then littleEndian b else littleEndian b - 2 ^ 16)
  | .s _, b => .str b

inductive PyError where
  | structError
  | valueError
  deriving DecidableEq, Repr

def calcsize (format : List Code) : Nat :=
  (format.map Code.size).sum

def unpackFields : List Code → List UInt8 → List Value
  | [], _ => []
  | c :: format, b => c.value (b.take c.size) :: unpackFields format (b.drop c.size)

/-- `struct.unpack` -/
def unpack (format : List Code) (b : List UInt8) : Except PyError (List Value) :=
  if b.length = calcsize format then .ok (unpackFields format b) else .error .structError

/-! ## The search loop -/

/-- The loop that appends the hits to `magicLocations`, which is never empty. Without fuel it has
not ended. -/
def searchLoop (data : List UInt8) : Nat → List Int → Option (List Int)
  | 0, _ => none
  | fuel + 1, magicLocations =>
    let p := find data jffs2Magic (magicLocations.getLastD (-1) + jffs2Magic.length)
    if p = -1 then some magicLocations
    else searchLoop data fuel (magicLocations ++ [p])

/-- `magicLocations` when the search loop ends. -/
def magicLocations (data : List UInt8) (fuel : Nat) : Option (List Int) :=
  searchLoop data fuel [find data jffs2Magic 0]

/-! ## The decoding loop -/

def fmt : List Code := [.H, .H, .I, .I]

def direntfmt : List Code := fmt ++ [.I, .I, .I, .I, .B, .B, .s 2, .I, .I]

def inodefmt : List Code :=
  fmt ++ [.I, .I, .I, .H, .H, .I, .I, .I, .I, .I, .I, .I, .B, .B, .h, .I, .I]

def JFFS2_COMPAT_MASK : Nat := 0xc000 ||| 0x2000
def JFFS2_NODETYPE_INODE : Nat := 2
def JFFS2_NODETYPE_DIRENT : Nat := 1

/-- `(~JFFS2_COMPAT_MASK) & nodeType`, where `nodeType` has 16 bits. -/
def masked (nodeType : Nat) : Nat :=
  nodeType &&& (0xffff ^^^ JFFS2_COMPAT_MASK)

/-- The two lines that the script prints. -/
inductive Report where
  | inode (start : Int)
  | dirent (start : Int)
  deriving DecidableEq, Repr

/-- The body of the decoding loop: what it prints. -/
def decode (data : List UInt8) (start : Int) : Except PyError (Option Report) := do
  let header ← unpack fmt (slice data start (start + 12))
  match header with
  | [_, .int nodeType, _, _] =>
    if masked nodeType.toNat = JFFS2_NODETYPE_INODE then do
      let _values ← unpack inodefmt (slice data start (start + 68))
      return some (.inode start)
    else if masked nodeType.toNat = JFFS2_NODETYPE_DIRENT then do
      let _values ← unpack direntfmt (slice data start (start + 40))
      return some (.dirent start)
    else return none
  | _ => .error .valueError

/-- What the script has printed when it ends, and the exception that ended it. -/
structure Scan where
  printed : List Report
  raised : Option PyError
  deriving DecidableEq, Repr

/-- `for start in magicLocations:` -/
def decodeLoop (data : List UInt8) : List Int → Scan
  | [] => ⟨[], none⟩
  | start :: rest =>
    match decode data start with
    | .error e => ⟨[], some e⟩
    | .ok report =>
      let scan := decodeLoop data rest
      ⟨report.toList ++ scan.printed, scan.raised⟩

/-- The script: the locations it has found, and what the decoding loop does with them. -/
def script (data : List UInt8) (fuel : Nat) : Option (List Int × Scan) := do
  let locations ← magicLocations data fuel
  return (locations, decodeLoop data locations)

end Rsva11001.FindJffs2Nodes
