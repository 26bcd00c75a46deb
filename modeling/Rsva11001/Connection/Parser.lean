import Mathlib.Data.List.Basic

/-!
# The HTTP parser

The parser is a parameter of the model of a connection; `Http.httpParser` is the one made of
`http_parser.c`. A parser is driven with the blocks read from the socket: `body` gives the slices of
a block that go to `on_body`, in order, and `next` the parser after the block, or `none` when
`http_errno` has been set.
-/

namespace Rsva11001

/-- The response parser. The slices handed to the callback are non-empty and lie in the block, in
order and without overlap. -/
structure HttpParser where
  State : Type
  init : State
  body : State → List UInt8 → List (List UInt8)
  next : State → List UInt8 → Option State
  body_ne_nil : ∀ s block, ∀ d ∈ body s block, d ≠ []
  body_sublist : ∀ s block, (body s block).flatten.Sublist block

/-! ## A response whose body ends with the connection

The camera answers without a content length. The head is skipped up to its empty line and every
byte after it is body. -/

namespace HttpParser

/-- How much of the empty line `\r\n\r\n` has been seen after one more byte. -/
def headMatch (matched : Nat) (byte : UInt8) : Nat :=
  if byte = (if matched % 2 = 0 then 13 else 10) then matched + 1
  else if byte = 13 then 1
  else 0

/-- The head skipped: how much of the empty line is seen, or `none` behind it, and what follows. -/
def skipHead : Nat → List UInt8 → Option Nat × List UInt8
  | matched, [] => (some matched, [])
  | matched, byte :: rest =>
    if headMatch matched byte = 4 then (none, rest)
    else skipHead (headMatch matched byte) rest

theorem skipHead_suffix (matched : Nat) (block : List UInt8) :
    (skipHead matched block).2 <:+ block := by
  induction block generalizing matched with
  | nil => exact List.suffix_refl []
  | cons byte rest ih =>
    rw [skipHead]
    split
    · exact List.suffix_cons byte rest
    · exact (ih _).trans (List.suffix_cons byte rest)

/-- What of a block belongs to the body. -/
def bodyBytes (s : Option Nat) (block : List UInt8) : List UInt8 :=
  match s with
  | none => block
  | some matched => (skipHead matched block).2

theorem bodyBytes_suffix (s : Option Nat) (block : List UInt8) : bodyBytes s block <:+ block := by
  cases s with
  | none => exact List.suffix_refl block
  | some matched => exact skipHead_suffix matched block

def untilEof : HttpParser where
  State := Option Nat
  init := some 0
  body s block := if bodyBytes s block = [] then [] else [bodyBytes s block]
  next s block := some (s.bind fun matched => (skipHead matched block).1)
  body_ne_nil := by
    intro s block d hd
    split at hd
    · cases hd
    · rename_i hne
      obtain rfl : d = bodyBytes s block := by simpa using hd
      exact hne
  body_sublist := by
    intro s block
    split
    · exact List.nil_sublist block
    · rw [List.flatten_singleton]
      exact (bodyBytes_suffix s block).sublist

/-- A whole head. -/
def responseHead : List UInt8 :=
  ("HTTP/1.0 200 OK\r\n\r\n".toList).map fun c => c.toNat.toUInt8

end HttpParser

end Rsva11001
