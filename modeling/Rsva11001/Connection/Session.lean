import Rsva11001.Lib.Run
import Rsva11001.Connection.Recv

/-!
# The life of one connection

A connection is opened, receives body bytes and is closed, any number of times. `Session` is the
connection together with two history variables: the body bytes received since the last `open` that
created a socket and succeeded, and whether a callback has refused bytes since then. From a refusal
on http_parser makes no callback until it is initialised again.
-/

namespace Rsva11001

open Lib

/-- The bytes of one callback: a non-empty object. -/
structure Chunk where
  bytes : List UInt8
  ne_nil : bytes ≠ []
  length_le : bytes.length ≤ PTRDIFF_MAX

structure Session (P : HttpParser) where
  conn : Connection P
  stream : Option (List UInt8)
  rejected : Bool

/-- What happens to a connection. -/
inductive Op where
  | open (e : Connection.OpenEnv)
  | recv (chunk : Chunk)
  | close (closeOk : Bool)

namespace Session

variable {P : HttpParser}

def start (c : Connection P) : Session P :=
  ⟨c, none, false⟩

def step (file : CString) (s : Session P) : Op → Except Halt (Session P)
  | .open e => do
    let r ← s.conn.open file e
    if r.ret ∧ s.conn.sockfd.isNone then return ⟨r.conn, some [], false⟩
    else return { s with conn := r.conn }
  | .recv chunk =>
    if s.rejected then .ok s
    else do
      let (ret, conn) ← s.conn.recv chunk.bytes
      return ⟨conn, s.stream.map (· ++ chunk.bytes), decide (ret ≠ 0)⟩
  | .close closeOk => .ok { s with conn := (s.conn.close closeOk).2 }

end Session

namespace Connection

variable {P : HttpParser}

/-- The connection after a life that began with its allocation and a successful `configure`. -/
def Lived (file : CString) (s : Session P) : Prop :=
  ∃ hostname username password channel c₀ ops,
    (malloc P).configure hostname username password channel = (true, c₀) ∧
      run (Session.step file) (Session.start c₀) ops = .ok s

/-- The state left by an `open` that created a socket and succeeded. -/
def FreshlyOpened (c : Connection P) : Prop :=
  ∃ file s e r, Lived file s ∧ s.conn.sockfd = none ∧ s.conn.open file e = .ok r ∧ r.ret = true ∧
    r.conn = c

/-- The callbacks made with the given chunks, one after the other: what they return, and the
connection after the last. -/
def feed : Connection P → List (List UInt8) → Except Halt (List Nat × Connection P)
  | this, [] => .ok ([], this)
  | this, data :: rest => do
    let (ret, this) ← this.recv data
    let (rets, this) ← this.feed rest
    return (ret :: rets, this)

end Connection

end Rsva11001
