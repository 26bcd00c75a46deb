import Rsva11001.Connection.Process
import Rsva11001.Verify.HttpCallback
import Rsva11001.Verify.Integrity

/-!
# The connection's HTTP parser

`httpParser` is the parser that the model of a connection takes as a parameter, made of
`http_parser_execute`. A connection with it does with a block what `http_parser_execute` does when
its `on_body` is `rsva11001_connection_recv` (`execute_httpParser`), so what is proved of a
connection for every parser holds of the adapter as it is linked.
-/

namespace Rsva11001.Http

open Lib

/-- A parser that can read. -/
@[ext] structure Reading where
  parser : Parser
  errno : parser.httpErrno = .ok
  sound : parser.Sound 0

namespace Reading

/-- What the recording settings leave of a block. The empty block leaves the parser alone. -/
def block (s : Reading) (data : List UInt8) : Outcome (List (List UInt8)) :=
  if data = [] then ⟨s.parser, [], 0⟩
  else (execute record s.parser [] data).toOption.getD ⟨s.parser, [], 0⟩

variable {s : Reading} {data : List UInt8}

theorem block_eq (hne : data ≠ []) : execute record s.parser [] data = .ok (s.block data) ∧
    Recorded [] 0 (feed Parser.step s.parser data) (s.block data) := by
  obtain ⟨o, ho, hrec⟩ := @execute_record s.parser s.errno s.sound [] (by simp) data hne
  have hblock : s.block data = o := by
    rw [block, if_neg hne, ho]
    rfl
  rw [hblock]
  exact ⟨ho, hrec⟩

theorem block_sound (h : (s.block data).parser.httpErrno = .ok) :
    (s.block data).parser.Sound 0 := by
  by_cases hne : data = []
  · subst hne
    exact s.sound
  · obtain ⟨o, ho, hsettled⟩ := @execute_sound _ record s.parser (fun _ => s.sound) [] data
    obtain rfl := Except.ok.inj ((block_eq hne).1.symm.trans ho)
    exact hsettled (.inl h)

/-- The parser after a block, if it can still read. -/
def next (s : Reading) (data : List UInt8) : Option Reading :=
  if h : (s.block data).parser.httpErrno = .ok then some ⟨(s.block data).parser, h, block_sound h⟩
  else none

theorem parser_next (s : Reading) (data : List UInt8) : (s.next data).map parser =
    if (s.block data).parser.httpErrno = .ok then some (s.block data).parser else none := by
  unfold next
  split <;> rfl

end Reading

/-- The parser of the connections: `http_parser_init` with `HTTP_RESPONSE`, then
`http_parser_execute` with the blocks. -/
def httpParser : HttpParser where
  State := Reading
  init := ⟨.init .response, rfl, trivial⟩
  body s block := (s.block block).user
  next := Reading.next
  body_ne_nil := by
    intro s block
    by_cases hne : block = []
    · simp [Reading.block, hne]
    · exact (Reading.block_eq hne).2.slices
  body_sublist := by
    intro s block
    by_cases hne : block = []
    · simp [Reading.block, hne]
    · refine (Reading.block_eq hne).2.body_front.sublist.trans ?_
      rw [List.nil_append]
      exact feed_out_sublist step_out

/-! ## `rsva11001_connection_recv` as the callback -/

/-- The application's data: the connection and the payloads of the messages completed, or the
assertion that has failed. -/
abbrev Received : Type :=
  Except Halt (Connection httpParser × List (List UInt8))

/-- `rsva11001_connection_recv` as `on_body`: what it leaves, and whether it has returned 0. -/
def onBody : Received → List UInt8 → Received × Bool
  | .error halt, _ => (.error halt, false)
  | .ok (this, payloads), data =>
    match this.recv data with
    | .error halt => (.error halt, false)
    | .ok (ret, next) => (.ok (next, payloads ++ (this.completed next).toList), ret = 0)

/-- The callbacks that a connection makes with the slices of a block. -/
theorem deliver_onBody (this : Connection httpParser) (payloads slices : List (List UInt8)) :
    deliver onBody (.ok (this, payloads)) slices =
      match this.callbacks slices with
      | .error halt => (.error halt, false)
      | .ok (all, next, more) => (.ok (next, payloads ++ more), all) := by
  induction slices generalizing this payloads with
  | nil => simp [deliver, Connection.callbacks]
  | cons data slices ih =>
    rw [deliver, Connection.callbacks, onBody]
    cases this.recv data with
    | error halt => rfl
    | ok r =>
      obtain ⟨ret, next⟩ := r
      by_cases hret : ret = 0
      · simp only [hret, decide_true, if_true, ih, bind, Except.bind]
        cases next.callbacks slices with
        | error halt => rfl
        | ok r => simp [pure, Except.pure]
      · simp [hret, bind, Except.bind, pure, Except.pure]

/-- **The connection runs `http_parser_execute`.** What a connection does with a block is what
`http_parser_execute` does with `rsva11001_connection_recv` as `on_body`: the same messages are
completed, the same connection is left, and its parser can be used again if and only if no error has
been set. When an assertion fails in the callback, it fails in both. -/
theorem execute_httpParser {this : Connection httpParser} {s : Reading}
    (hparser : this.parser = some s) {block : List UInt8} (hne : block ≠ []) :
    ∃ last, execute (bodyOnly onBody) s.parser (.ok (this, [])) block = .ok last ∧
      match last.user with
      | .error halt => this.execute block = .error halt
      | .ok (next, payloads) => ∃ parser : Option Reading,
        this.execute block = .ok ({ next with parser := parser }, payloads) ∧
          parser.map Reading.parser =
            if last.parser.httpErrno = .ok then some last.parser else none := by
  obtain ⟨last, hlast, huser, hsame, hrefused⟩ :=
    execute_bodyOnly s.errno hne (Reading.block_eq hne).1 onBody (.ok (this, []))
  refine ⟨last, hlast, ?_⟩
  rw [deliver_onBody] at huser hsame hrefused
  have hexecute : this.execute block = (do
      let (all, next, payloads) ← this.callbacks (s.block block).user
      let parser := if all then httpParser.next s block else none
      return ({ next with parser := parser }, payloads)) := by
    rw [Connection.execute, hparser]
    rfl
  rw [hexecute]
  cases hcallbacks : this.callbacks (s.block block).user with
  | error halt =>
    rw [hcallbacks] at huser
    rw [← huser]
    rfl
  | ok r =>
    obtain ⟨all, next, payloads⟩ := r
    rw [hcallbacks] at huser hsame hrefused
    rw [← huser]
    refine ⟨if all then s.next block else none, rfl, ?_⟩
    cases all with
    | false =>
      have herr : last.parser.httpErrno ≠ .ok := by
        rw [hrefused rfl]
        exact nofun
      rw [if_neg herr]
      rfl
    | true =>
      rw [(hsame rfl).1]
      exact Reading.parser_next s block

def sampleBlock : List UInt8 :=
  text "HTTP/1.0 200 OK\r\n\r\n" ++ [0xff, 0xd8]

theorem execute_httpParser_sample :
    ∃ last, execute (bodyOnly onBody) (.init .response)
        (.ok ({ sampleOpen httpParser with parser := some httpParser.init }, [])) sampleBlock =
        .ok last ∧
      match last.user with
      | .error halt =>
        { sampleOpen httpParser with parser := some httpParser.init }.execute sampleBlock =
          .error halt
      | .ok (next, payloads) => ∃ parser : Option Reading,
        { sampleOpen httpParser with parser := some httpParser.init }.execute sampleBlock =
            .ok ({ next with parser := parser }, payloads) ∧
          parser.map Reading.parser =
            if last.parser.httpErrno = .ok then some last.parser else none :=
  @execute_httpParser { sampleOpen httpParser with parser := some httpParser.init } httpParser.init
    rfl sampleBlock (by decide)

end Rsva11001.Http
