import Rsva11001.Lib.Transducer
import Rsva11001.Verify.HttpBytewise

/-!
# The HTTP parser as a byte machine

`Parser.step` is what one byte does to the parser, and which byte of body it is, when no callback
stops the parser. `http_parser_execute` implements this machine (`execute_record`): on every block
it leaves the machine's parser and returns the machine's count, and the slices it hands to
`on_body` are, put together, the machine's output, less the bytes that are marked when an error ends
the block.

The machine does not know of blocks, so neither does the body of a response: however a stream is
cut, its blocks leave the parser and deliver the body that the stream in one block does
(`blocks_eq_whole`).
-/

namespace Rsva11001.Http

open Lib

/-! ## The machine -/

/-- The passes through the switch for one byte. -/
def Parser.pass (ch : UInt8) : Nat → Parser → Reaction Parser UInt8
  | 0, parser => .stop parser 0
  | passes + 1, parser =>
    let move := switch parser ch 1
    match move.next with
    | .advance => .go move.parser []
    | .again => Parser.pass ch passes move.parser
    | .error => .stop move.parser.failed 0
    | .leave => .stop move.parser 1
    | .abort _ => .stop move.parser 0

/-- One byte; in the states of a body it is put out. -/
def Parser.step (parser : Parser) (ch : UInt8) : Reaction Parser UInt8 :=
  if parser.counted.overflowing then
    .stop { parser.counted with httpErrno := .headerOverflow } 0
  else
    match Parser.pass ch PASSES parser.counted with
    | .go next _ => .go next (if parser.state.bulk then [ch] else [])
    | .stop next n => .stop next n

/-! ## Recording the slices of a body -/

/-- The settings that record what `on_body` is given. -/
def record : Settings (List (List UInt8)) where
  onBody := some fun _ slices data => ⟨0, false, slices ++ [data]⟩

/-- The bytes that a macro adds to the mark of a body. -/
def Call.more (through : List UInt8) : Option Call → List UInt8
  | some .bodyThrough => through
  | _ => []

section Record

variable {frame : Frame (List (List UInt8))}

theorem record_data (hok : frame.parser.httpErrno = .ok) (field : Field) (more : List UInt8) :
    frame.data record field more = .ok
      { frame with
        marks := frame.marks.put none field
        user := if field = .body then
            frame.user ++ (frame.marks.body.map (· ++ more)).toList
          else frame.user } := by
  unfold Frame.data
  rw [if_neg (by simp [hok])]
  cases hmark : frame.marks.get field with
  | none =>
    obtain ⟨parser, marks, user⟩ := frame
    cases field <;> simp only [Marks.get] at hmark <;> simp [Marks.put, hmark] <;>
      simp only [← hmark]
  | some bytes =>
    cases field
    case body =>
      simp only [Marks.get] at hmark
      simp [Settings.dataCallback, record, Frame.replied, hok, hmark]
    all_goals
      simp [Settings.dataCallback, record, hok]

/-- What a macro does under the recording settings: it only touches the mark and the slices. -/
theorem record_call (hok : frame.parser.httpErrno = .ok) (through : List UInt8)
    (call : Option Call) : ∃ marks, frame.call record through call = .ok
      { frame with
        marks := marks
        user := if Call.delivers .body call then
            frame.user ++ (frame.marks.body.map (· ++ Call.more through call)).toList
          else frame.user } ∧
      marks.body = if Call.delivers .body call then none else frame.marks.body := by
  have hput : ∀ field : Field, (frame.marks.put none field).body =
      if field = .body then none else frame.marks.body := by
    intro field
    cases field <;> rfl
  cases call with
  | none => exact ⟨frame.marks, by simp [Frame.call, Call.delivers], by simp [Call.delivers]⟩
  | some call =>
    cases call with
    | notify which =>
      refine ⟨frame.marks, ?_, by simp [Call.delivers]⟩
      cases which <;> simp [Frame.call, Frame.notify, hok, Settings.noticeCallback, record,
        Call.delivers]
    | data field =>
      refine ⟨_, (record_data hok field []).trans ?_, (hput field).trans ?_⟩
      · cases field <;> simp [Call.delivers, Call.more]
      · cases field <;> simp [Call.delivers]
    | dataNoadvance field =>
      refine ⟨_, (record_data hok field []).trans ?_, (hput field).trans ?_⟩
      · cases field <;> simp [Call.delivers, Call.more]
      · cases field <;> simp [Call.delivers]
    | bodyThrough => exact ⟨_, record_data hok .body through, hput .body⟩
    | headersComplete =>
      exact ⟨frame.marks, by simp [Frame.call, Frame.headersComplete, record, Call.delivers],
        by simp [Call.delivers]⟩

end Record

/-! ## One byte -/

section Byte

/-- A byte that is not of a body: the parser does what the machine does, and the slices stay. -/
inductive Agrees (user : List (List UInt8)) (skipped : Nat) :
    Reaction Parser UInt8 → Flow (List (List UInt8)) → Prop where
  | go {next : Parser} {marks : Marks} : marks.body = none →
    Agrees user skipped (.go next []) (.advance ⟨next, marks, user⟩ skipped)
  | stop {next : Parser} {marks : Marks} {n : Nat} :
    Agrees user skipped (.stop next n) (.stop ⟨next, marks, user⟩ (skipped + n))

theorem Agrees.of_go {user : List (List UInt8)} {skipped : Nat} {next : Parser}
    {out : List UInt8} {flow : Flow (List (List UInt8))}
    (h : Agrees user skipped (.go next out) flow) :
    ∃ marks : Marks, marks.body = none ∧ flow = .advance ⟨next, marks, user⟩ skipped := by
  cases h with
  | go hmarks => exact ⟨_, hmarks, rfl⟩

variable {frame : Frame (List (List UInt8))} {n : Nat}

theorem Frame.Sound.body_eq_none (h : frame.Sound n) (hs : frame.parser.state.inBody = false) :
    frame.marks.body = none := by
  cases hbody : frame.marks.body with
  | none => rfl
  | some bytes =>
    have hopen := h.marks .body (by simp [Marks.get, hbody])
    revert hopen hs
    cases frame.parser.state <;> simp [Field.open, State.inBody, State.bulk]

theorem agrees_reexecute (ch : UInt8) {passes : Nat} (hok : frame.parser.httpErrno = .ok)
    (hsound : frame.parser.Sound 1) (hbody : frame.marks.body = none)
    (hs : frame.parser.state.inBody = false) (hrank : frame.parser.state.rank < passes)
    (skipped : Nat) : Agrees frame.user skipped (Parser.pass ch passes frame.parser)
      (reexecute record ch passes frame skipped [ch]) := by
  induction passes generalizing frame with
  | zero => exact absurd hrank (Nat.not_lt_zero _)
  | succ passes ih =>
    have hgood := @switch_good frame.parser ch hsound hok 1
    have hsingle := single_switch (bulk_of_not_inBody hs) ch 1
    obtain ⟨m, hm⟩ : ∃ m, m = switch frame.parser ch 1 := ⟨_, rfl⟩
    rw [← hm] at hgood hsingle
    have hbody' : (frame.marks.mark m.mark).body = none := by
      have hsome := @Marks.isSome_mark frame.marks m.mark .body
      simp only [Marks.get, hbody, hsingle.mark, Option.isSome_none, or_false] at hsome
      simpa using hsome
    have hdelivers : Call.delivers .body m.call = false := by
      cases hd : Call.delivers .body m.call with
      | false => rfl
      | true =>
        rw [hsingle.delivers hd] at hs
        cases hs
    unfold Parser.pass reexecute perform
    simp only [List.length_singleton, ← hm, hsingle.skip, List.take_zero, List.drop_zero,
      Marks.pass_nil, Nat.add_zero]
    by_cases herr : m.next = .error
    · rw [(hgood.error herr).1]
      simp only [Frame.call, perform.finishMove, herr]
      exact @Agrees.stop frame.user skipped _ _ 0
    have hok' := hgood.errno herr
    obtain ⟨marks, hcall, hmarks⟩ := @record_call
      ⟨m.parser, frame.marks.mark m.mark, frame.user⟩ hok' ([ch].take 1) m.call
    simp only [hdelivers, Bool.false_eq_true, if_false] at hcall hmarks
    have hfinish : Agrees frame.user skipped
        (match m.next with
          | .advance => .go m.parser []
          | .again => Parser.pass ch passes m.parser
          | .error => .stop m.parser.failed 0
          | .leave => .stop m.parser 1
          | .abort _ => .stop m.parser 0)
        (perform.finishMove m (reexecute record ch passes) ⟨m.parser, marks, frame.user⟩ skipped
          [ch]) := by
      unfold perform.finishMove
      cases hnext : m.next with
      | advance =>
        refine .go ?_
        simp [Marks.pass, hmarks, hbody']
      | again =>
        obtain ⟨hone, hlt⟩ := hgood.again hnext
        exact @ih ⟨m.parser, marks, frame.user⟩ hok' hone (hmarks.trans hbody')
          (hsingle.again hnext) (Nat.lt_of_lt_of_le hlt (Nat.le_of_lt_succ hrank))
      | error => exact absurd hnext herr
      | leave => exact .stop
      | abort a => exact absurd hnext (hgood.no_abort a)
    rw [hcall]
    cases m.call with
    | none => exact hfinish
    | some call =>
      dsimp only
      rw [if_neg (not_not.2 hok')]
      exact hfinish

/-- What has been delivered of a body, with the bytes marked. -/
def Frame.total (frame : Frame (List (List UInt8))) : List UInt8 :=
  frame.user.flatten ++ frame.marks.body.getD []

/-- No slice is empty, and neither is a mark between two bytes. -/
structure Frame.Filled (frame : Frame (List (List UInt8))) : Prop where
  slices : ∀ d ∈ frame.user, d ≠ []
  mark : frame.marks.body ≠ some []

/-- One byte, where `user` are the slices and `total` is what they and the mark hold: the frame
follows the machine, and its total grows by the machine's output. A stop delivers nothing; only an
error leaves bytes marked. -/
inductive Follows (user : List (List UInt8)) (total : List UInt8) :
    Reaction Parser UInt8 → Flow (List (List UInt8)) → Prop where
  | go {next : Frame (List (List UInt8))} {out : List UInt8} :
    next.total = total ++ out → next.Filled →
    Follows user total (.go next.parser out) (.advance next 0)
  | stop {next : Frame (List (List UInt8))} {n : Nat} : next.user = user →
    (next.parser.httpErrno = .ok → user.flatten = total) →
    Follows user total (.stop next.parser n) (.stop next n)

theorem body_mark_pass (marks : Marks) (ch : UInt8) :
    ((marks.mark (some .body)).pass [ch]).body = some (marks.body.getD [] ++ [ch]) := by
  cases hb : marks.body <;> simp [Marks.mark, Marks.get, Marks.put, Marks.pass, hb]

/-- A byte that is marked. -/
theorem follows_marked (hfilled : frame.Filled) {next : Parser} (ch : UInt8) :
    Follows frame.user frame.total (.go next [ch])
      (.advance ⟨next, (frame.marks.mark (some .body)).pass [ch], frame.user⟩ 0) := by
  refine @Follows.go frame.user frame.total
    ⟨next, (frame.marks.mark (some .body)).pass [ch], frame.user⟩ [ch] ?_ ⟨hfilled.slices, ?_⟩
  · simp [Frame.total, body_mark_pass]
  · simp [body_mark_pass]

theorem follows_chunkData (hs : frame.parser.state = .chunkData) (hsound : frame.parser.Sound 1)
    (hfilled : frame.Filled) (ch : UInt8) (passes : Nat) :
    ∃ next, Parser.pass ch (passes + 1) frame.parser = .go next [] ∧
      Follows frame.user frame.total (.go next [ch])
        (reexecute record ch (passes + 1) frame 0 [ch]) := by
  have hfields : frame.parser.flags.chunked = true ∧ frame.parser.contentLength ≠ 0 ∧
      frame.parser.contentLength ≠ ULLONG_MAX := by
    simpa only [Parser.Sound, hs] using hsound
  have hmin : min frame.parser.contentLength.toNat 1 = 1 := by
    have := min_pos hfields.2.1 0
    omega
  refine ⟨readChunk frame.parser 1, ?_, ?_⟩
  · unfold Parser.pass
    rw [switch_chunkData hs hfields.1 hfields.2, hmin]
  · rw [reexecute_chunkData hs hfields.1 hfields.2]
    simp only [List.length_nil, Nat.zero_add, hmin, List.take_succ_cons, List.take_zero,
      Nat.sub_self]
    exact follows_marked hfilled ch

theorem follows_bodyIdentityEof (hs : frame.parser.state = .bodyIdentityEof)
    (hfilled : frame.Filled) (ch : UInt8) (passes : Nat) :
    ∃ next, Parser.pass ch (passes + 1) frame.parser = .go next [] ∧
      Follows frame.user frame.total (.go next [ch])
        (reexecute record ch (passes + 1) frame 0 [ch]) := by
  refine ⟨frame.parser, ?_, ?_⟩
  · unfold Parser.pass switch
    simp only [hs]
  · rw [reexecute_bodyIdentityEof hs]
    exact follows_marked hfilled ch

/-- The end of a message. -/
theorem pass_complete {parser : Parser} (hs : parser.state = .messageDone) (ch : UInt8)
    (passes : Nat) : Parser.pass ch (passes + 1) parser =
      .go { parser with state := parser.newMessage } [] := by
  unfold Parser.pass switch
  simp only [hs, complete]

/-- The last byte of a body is delivered with the ones marked, and the message is complete. -/
theorem follows_endBody (hs : frame.parser.state = .messageDone)
    (hok : frame.parser.httpErrno = .ok) (hfilled : frame.Filled) (ch : UInt8) (passes : Nat) :
    Follows frame.user frame.total (.go { frame.parser with state := frame.parser.newMessage } [ch])
      (endBody record (passes + 1)
        ⟨frame.parser, (frame.marks.mark (some .body)).pass [], frame.user⟩ 0 [ch]) := by
  have hmark : (frame.marks.mark (some .body)).body = some (frame.marks.body.getD []) := by
    cases hb : frame.marks.body <;> simp [Marks.mark, Marks.get, Marks.put, hb]
  obtain ⟨slice, hslice⟩ : ∃ slice, slice = frame.marks.body.getD [] ++ [ch] := ⟨_, rfl⟩
  unfold endBody
  rw [@record_data ⟨frame.parser, (frame.marks.mark (some .body)).pass [], frame.user⟩ hok]
  simp only [List.take_succ_cons, List.take_zero, Marks.pass_nil, if_true, hmark,
    Option.map_some, Option.toList_some, ← hslice]
  rw [if_neg (not_not.2 hok)]
  rw [@reexecute_messageDone _ record ⟨frame.parser,
    (frame.marks.mark (some .body)).put none .body, frame.user ++ [slice]⟩ hs 0 ch]
  have hagrees := @agrees_reexecute ⟨frame.parser,
    (frame.marks.mark (some .body)).put none .body, frame.user ++ [slice]⟩ ch (passes + 1) hok
    (by simp only [Parser.Sound, hs]) rfl (by simp only [hs]; rfl)
    (by simp only [hs]; exact Nat.succ_pos _) 0
  rw [pass_complete hs] at hagrees
  obtain ⟨marks, hmarks, hflow⟩ := hagrees.of_go
  rw [hflow]
  refine @Follows.go frame.user frame.total ⟨_, marks, frame.user ++ [slice]⟩ [ch] ?_
    ⟨?_, by simp [hmarks]⟩
  · simp [Frame.total, hmarks, hslice]
  · intro d hd
    rcases List.mem_append.1 hd with hd | hd
    · exact hfilled.slices d hd
    · rw [List.mem_singleton.1 hd, hslice]
      simp

theorem follows_bodyIdentity (hs : frame.parser.state = .bodyIdentity)
    (hok : frame.parser.httpErrno = .ok) (hsound : frame.parser.Sound 1)
    (hfilled : frame.Filled) (ch : UInt8) (passes : Nat) :
    ∃ next, Parser.pass ch (passes + 2) frame.parser = .go next [] ∧
      Follows frame.user frame.total (.go next [ch])
        (reexecute record ch (passes + 2) frame 0 [ch]) := by
  have hlength : frame.parser.contentLength ≠ 0 ∧ frame.parser.contentLength ≠ ULLONG_MAX := by
    simpa only [Parser.Sound, hs] using hsound
  have hmin : min frame.parser.contentLength.toNat 1 = 1 := by
    have := min_pos hlength.1 0
    omega
  rw [reexecute_bodyIdentity hs hlength]
  simp only [List.length_nil, Nat.zero_add, hmin, List.take_succ_cons, List.take_zero,
    Nat.sub_self, List.drop_zero]
  by_cases hlast : (readBody frame.parser 1).contentLength = 0
  · obtain ⟨last, hlast'⟩ : ∃ last : Parser,
        last = { readBody frame.parser 1 with state := .messageDone } := ⟨_, rfl⟩
    have hs' : last.state = .messageDone := by rw [hlast']
    refine ⟨{ last with state := last.newMessage }, ?_, ?_⟩
    · unfold Parser.pass
      rw [switch_bodyIdentity hs hlength, hmin]
      dsimp only
      rw [if_pos hlast, ← hlast']
      exact pass_complete hs' ch passes
    · rw [if_pos hlast, ← hlast']
      exact @follows_endBody ⟨last, frame.marks, frame.user⟩ hs' (hlast' ▸ hok)
        ⟨hfilled.slices, hfilled.mark⟩ ch passes
  · refine ⟨readBody frame.parser 1, ?_, ?_⟩
    · unfold Parser.pass
      rw [switch_bodyIdentity hs hlength, hmin]
      dsimp only
      rw [if_neg hlast]
    · rw [if_neg hlast]
      exact follows_marked hfilled ch

/-- The byte behind a chunk: what is marked of the chunk is delivered. -/
theorem follows_chunkDataAlmostDone (hs : frame.parser.state = .chunkDataAlmostDone)
    (hok : frame.parser.httpErrno = .ok) (hsound : frame.parser.Sound 1)
    (hfilled : frame.Filled) (ch : UInt8) (passes : Nat) :
    Follows frame.user frame.total
      (match Parser.pass ch (passes + 1) frame.parser with
        | .go next _ => .go next []
        | .stop next n => .stop next n)
      (reexecute record ch (passes + 1) frame 0 [ch]) := by
  have hfields : frame.parser.flags.chunked = true ∧ frame.parser.contentLength = 0 := by
    simpa only [Parser.Sound, hs] using hsound
  by_cases hch : ch = CR
  · obtain ⟨last, hlast⟩ : ∃ last : Parser,
        last = { frame.parser with state := .chunkDataDone } := ⟨_, rfl⟩
    have hok' : last.httpErrno = .ok := by rw [hlast]; exact hok
    have hswitch : switch frame.parser ch 1 =
        { parser := last, call := some (.data .body) } := by
      unfold switch
      simp only [hs]
      rw [asserting, if_pos hfields.1, asserting, if_pos hfields.2, strictCheck,
        if_neg (not_not.2 hch), hlast]
    unfold Parser.pass reexecute perform
    rw [List.length_singleton, hswitch]
    simp only [Frame.call, List.take_zero, List.drop_zero, Marks.pass_nil, Marks.mark]
    rw [@record_data ⟨last, frame.marks, frame.user⟩ hok']
    simp only [perform.finishMove, hok', ne_eq, not_true_eq_false, if_false, if_true]
    refine @Follows.go _ _ ⟨_, _, _⟩ [] ?_ ⟨?_, by simp [Marks.put, Marks.pass]⟩
    · cases hb : frame.marks.body <;> simp [Frame.total, Marks.put, Marks.pass, hb]
    · intro d hd
      rcases List.mem_append.1 hd with hd | hd
      · exact hfilled.slices d hd
      · cases hb : frame.marks.body with
        | none => simp [hb] at hd
        | some bytes =>
          obtain rfl : d = bytes := by simpa [hb] using hd
          rintro rfl
          exact hfilled.mark hb
  · have hswitch : switch frame.parser ch 1 = refuse frame.parser .strict := by
      unfold switch
      simp only [hs]
      rw [asserting, if_pos hfields.1, asserting, if_pos hfields.2, strictCheck, if_pos hch]
    unfold Parser.pass reexecute perform
    rw [List.length_singleton, hswitch]
    refine @Follows.stop _ _ ⟨_, _, _⟩ 0 rfl fun herr => ?_
    simp [refuse] at herr

/-- **One byte.** The frame follows the machine. -/
theorem follows_step (h : frame.Sound 0) (hfilled : frame.Filled) (ch : UInt8)
    (hover : frame.parser.counted.overflowing = false) :
    Follows frame.user frame.total (frame.parser.step ch)
      (reexecute record ch PASSES { frame with parser := frame.parser.counted } 0 [ch]) := by
  have hok : frame.parser.counted.httpErrno = .ok := (counted_errno _).trans h.errno
  have hsound := sound_counted h.parser
  unfold Parser.step
  rw [hover, if_neg (by simp)]
  by_cases hs : frame.parser.state.inBody = true
  swap
  · have hs : frame.parser.state.inBody = false := by simpa using hs
    have hbody := h.body_eq_none hs
    have hagrees := @agrees_reexecute { frame with parser := frame.parser.counted } ch PASSES hok
      hsound hbody (by simpa using hs) (rank_lt _) 0
    rw [bulk_of_not_inBody hs]
    revert hagrees
    generalize Parser.pass ch PASSES frame.parser.counted = reaction
    generalize
      reexecute record ch PASSES { frame with parser := frame.parser.counted } 0 [ch] = flow
    rintro (hmarks | _)
    · refine @Follows.go _ _ ⟨_, _, _⟩ [] ?_ ⟨hfilled.slices, by simp [hmarks]⟩
      simp [Frame.total, hmarks, hbody]
    · rw [Nat.zero_add]
      refine @Follows.stop _ _ ⟨_, _, _⟩ _ rfl fun _ => ?_
      simp [Frame.total, hbody]
  by_cases hdone : frame.parser.state = .chunkDataAlmostDone
  · rw [hdone]
    exact @follows_chunkDataAlmostDone { frame with parser := frame.parser.counted }
      ((counted_state _).trans hdone) hok hsound ⟨hfilled.slices, hfilled.mark⟩ ch 4
  · have hbulk : frame.parser.state.bulk = true := by
      simpa [State.inBody, hdone] using hs
    obtain ⟨hcounted, -⟩ := counted_bulk hbulk
    rw [hcounted] at hok hsound ⊢
    have hmark : ∃ next, Parser.pass ch PASSES frame.parser = .go next [] ∧
        Follows frame.user frame.total (.go next [ch])
          (reexecute record ch PASSES frame 0 [ch]) := by
      cases hstate : frame.parser.state
      case chunkData => exact follows_chunkData hstate hsound hfilled ch 4
      case bodyIdentity => exact follows_bodyIdentity hstate hok hsound hfilled ch 3
      case bodyIdentityEof => exact follows_bodyIdentityEof hstate hfilled ch 4
      all_goals
        rw [hstate] at hbulk
        cases hbulk
    obtain ⟨next, hnext, hfollows⟩ := hmark
    rw [hnext, hbulk]
    exact hfollows

end Byte

/-! ## One block -/

section Block

variable {frame : Frame (List (List UInt8))}

theorem finish_record (h : frame.Sound 0) (read : Nat) :
    frame.finish record read =
      .ok ⟨frame.parser, frame.user ++ frame.marks.body.toList, read⟩ := by
  obtain ⟨parser, marks, user⟩ := frame
  have hstep : ∀ (marks : Marks) (user : List (List UInt8)) (field : Field) (fields : List Field),
      Frame.finish.go record read ⟨parser, marks, user⟩ (field :: fields) =
        Frame.finish.go record read ⟨parser, marks.put none field,
          if field = .body then user ++ (marks.body.map (· ++ [])).toList else user⟩ fields := by
    intro marks user field fields
    rw [Frame.finish.go, @record_data ⟨parser, marks, user⟩ h.errno]
    dsimp only
    rw [if_neg (not_not.2 h.errno)]
  unfold Frame.finish
  rw [if_neg (Nat.not_lt.2 h.marks.count_le), hstep, hstep, hstep, hstep]
  cases hb : marks.body <;> simp [Frame.finish.go, Marks.put, hb]

/-- What a block has done, when the machine has read `fed`. -/
structure Recorded (total : List UInt8) (read : Nat) (fed : Fed Parser UInt8)
    (o : Outcome (List (List UInt8))) : Prop where
  parser : o.parser = fed.state
  read : o.read = read + fed.read
  slices : ∀ d ∈ o.user, d ≠ []
  body_front : o.user.flatten <+: total ++ fed.out
  body : fed.state.httpErrno = .ok → o.user.flatten = total ++ fed.out

theorem bytewise_record (h : frame.Sound 0) (hfilled : frame.Filled) (read : Nat)
    (bytes : List UInt8) : ∃ o, bytewise record frame read bytes = .ok o ∧
      Recorded frame.total read (feed Parser.step frame.parser bytes) o := by
  induction bytes generalizing frame read with
  | nil =>
    have htotal : (frame.user ++ frame.marks.body.toList).flatten = frame.total := by
      cases hb : frame.marks.body <;> simp [Frame.total, hb]
    refine ⟨_, finish_record h read, rfl, rfl, ?_, ?_, fun _ => ?_⟩
    · intro d hd
      rcases List.mem_append.1 hd with hd | hd
      · exact hfilled.slices d hd
      · rintro rfl
        exact hfilled.mark (by simpa using hd)
    · simp [htotal]
    · simp [htotal]
  | cons ch rest ih =>
    have hflat : frame.user.flatten <+: frame.total := List.prefix_append _ _
    unfold bytewise
    dsimp only
    by_cases hover : frame.parser.counted.overflowing = true
    · have hstop : frame.parser.step ch =
          .stop { frame.parser.counted with httpErrno := .headerOverflow } 0 := by
        unfold Parser.step
        rw [if_pos hover]
      rw [if_pos hover, feed_cons_stop hstop]
      exact ⟨_, rfl, rfl, rfl, hfilled.slices, by simpa using hflat, fun herr => by simp at herr⟩
    rw [if_neg hover]
    have hfollows := follows_step h hfilled ch (by simpa using hover)
    have hflow := @reexecute_sound _ record ch PASSES
      { frame with parser := frame.parser.counted }
      ⟨(counted_errno _).trans h.errno, sound_counted h.parser,
        by simpa only [counted_state] using h.marks⟩ (rank_lt _) 0 [ch]
    revert hfollows hflow
    generalize hstep : frame.parser.step ch = reaction
    generalize
      reexecute record ch PASSES { frame with parser := frame.parser.counted } 0 [ch] = flow
    rintro (⟨htotal, hfill⟩ | ⟨huser, hbody⟩) hflow
    · rename_i next out
      obtain ⟨o, ho, hrec⟩ := ih hflow hfill (read + 1)
      refine ⟨o, ho, ?_⟩
      rw [feed_cons_go hstep]
      rw [htotal] at hrec
      refine ⟨hrec.parser, ?_, hrec.slices, ?_, fun herr => ?_⟩
      · rw [hrec.read, Fed.andThen, Nat.add_assoc]
      · simpa [Fed.andThen] using hrec.body_front
      · simpa [Fed.andThen] using hrec.body herr
    · rename_i next n
      rw [feed_cons_stop hstep]
      refine ⟨_, rfl, rfl, rfl, ?_, ?_, fun herr => ?_⟩
      · rw [huser]
        exact hfilled.slices
      · rw [huser]
        simpa using hflat
      · rw [huser]
        simpa using hbody herr

/-- **`http_parser_execute` implements the byte machine.** -/
theorem execute_record {parser : Parser} (hok : parser.httpErrno = .ok) (h : parser.Sound 0)
    {slices : List (List UInt8)} (hslices : ∀ d ∈ slices, d ≠ []) {data : List UInt8}
    (hdata : data ≠ []) : ∃ o, execute record parser slices data = .ok o ∧
      Recorded slices.flatten 0 (feed Parser.step parser data) o := by
  unfold execute
  rw [if_neg (not_not.2 hok), if_neg hdata, loop_eq_bytewise]
  have hbody : (Marks.start parser.state).body = none := by
    cases parser.state <;> rfl
  have htotal : Frame.total ⟨parser, Marks.start parser.state, slices⟩ = slices.flatten := by
    simp [Frame.total, hbody]
  have := @bytewise_record ⟨parser, Marks.start parser.state, slices⟩
    ⟨hok, h, Marks.start_fit _⟩ ⟨hslices, by simp [hbody]⟩ 0 data
  rwa [htotal] at this

end Block

/-! ## A stream in blocks -/

section Blocks

variable {parser : Parser} {slices : List (List UInt8)}

theorem pass_stop_le {ch : UInt8} {passes : Nat} {next : Parser} {n : Nat}
    (h : Parser.pass ch passes parser = .stop next n) : n ≤ 1 := by
  induction passes generalizing parser with
  | zero =>
    cases h
    exact Nat.zero_le 1
  | succ passes ih =>
    unfold Parser.pass at h
    dsimp only at h
    split at h
    · cases h
    · exact ih h
    all_goals
      cases h
      omega

theorem step_stop_le (s : Parser) (ch : UInt8) (t : Parser) (n : Nat) (h : s.step ch = .stop t n) :
    n ≤ 1 := by
  unfold Parser.step at h
  split at h
  · cases h
    exact Nat.zero_le 1
  split at h
  · cases h
  · rename_i hpass
    cases h
    exact pass_stop_le hpass

/-- A byte is put out as it is, or not. -/
theorem step_out (s : Parser) (ch : UInt8) (t : Parser) (out : List UInt8)
    (h : s.step ch = .go t out) : out.Sublist [ch] := by
  unfold Parser.step at h
  split at h
  · cases h
  split at h
  · cases h
    split
    · exact List.Sublist.refl _
    · exact List.nil_sublist _
  · cases h

/-- The machine keeps the parser sound as long as it goes on. -/
theorem step_sound {s t : Parser} {ch : UInt8} {out : List UInt8}
    (h : s.httpErrno = .ok ∧ s.Sound 0) (hstep : s.step ch = .go t out) :
    t.httpErrno = .ok ∧ t.Sound 0 := by
  have hfilled : Frame.Filled ⟨s, {}, []⟩ := ⟨by simp, by simp⟩
  have hframe : Frame.Sound (σ := List (List UInt8)) ⟨s, {}, []⟩ 0 :=
    ⟨h.1, h.2, fun f hf => by cases f <;> cases hf⟩
  have hover : s.counted.overflowing = false := by
    unfold Parser.step at hstep
    split at hstep
    · cases hstep
    · rename_i hover
      simpa using hover
  have hfollows := follows_step hframe hfilled ch hover
  have hflow := @reexecute_sound _ record ch PASSES ⟨s.counted, {}, []⟩
    ⟨(counted_errno _).trans h.1, sound_counted h.2, fun f hf => by cases f <;> cases hf⟩
    (rank_lt _) 0 [ch]
  revert hfollows hflow
  rw [hstep]
  generalize reexecute record ch PASSES _ 0 [ch] = flow
  rintro ⟨-, -⟩ hflow
  exact ⟨hflow.errno, hflow.parser⟩

/-- A parser with an error reads nothing. -/
theorem run_error {σ : Type} {settings : Settings σ} {user : σ} (h : parser.httpErrno ≠ .ok)
    (blocks : List (List UInt8)) :
    run (use settings) (parser, user) (blocks.map .execute) = .ok (parser, user) := by
  induction blocks with
  | nil => rfl
  | cons block blocks ih =>
    rw [List.map_cons, run_cons_ok]
    refine ⟨(parser, user), ?_, ih⟩
    show (execute settings parser user block).map _ = _
    rw [execute, if_pos h]
    rfl

/-- The blocks of a stream, one after the other, against the machine on the whole of it. -/
theorem run_blocks (hok : parser.httpErrno = .ok) (h : parser.Sound 0)
    (hslices : ∀ d ∈ slices, d ≠ []) {blocks : List (List UInt8)} (hne : ∀ b ∈ blocks, b ≠ [])
    {fed : Fed Parser UInt8} (hfed : fed = feed Parser.step parser blocks.flatten)
    (hread : fed.read = blocks.flatten.length ∨ fed.state.httpErrno ≠ .ok) :
    ∃ all, run (use record) (parser, slices) (blocks.map .execute) = .ok (fed.state, all) ∧
      (∀ d ∈ all, d ≠ []) ∧ all.flatten <+: slices.flatten ++ fed.out ∧
      (fed.state.httpErrno = .ok → all.flatten = slices.flatten ++ fed.out) := by
  induction blocks generalizing parser slices fed with
  | nil =>
    subst hfed
    exact ⟨slices, rfl, hslices, by simp, by simp⟩
  | cons block blocks ih =>
    obtain ⟨o, ho, hrec⟩ := execute_record hok h hslices (hne block List.mem_cons_self)
    have huse : use record (parser, slices) (.execute block) = .ok (o.parser, o.user) := by
      rw [use, ho]
      rfl
    have hne' : ∀ b ∈ blocks, b ≠ [] := fun b hb => hne b (List.mem_cons_of_mem _ hb)
    rw [List.flatten_cons, feed_append] at hfed
    by_cases hstopped : (feed Parser.step parser block).stopped = true
    · rw [if_pos hstopped] at hfed
      subst hfed
      have hrest : run (use record) (o.parser, o.user) (blocks.map .execute) =
          .ok (o.parser, o.user) := by
        by_cases herr : (feed Parser.step parser block).state.httpErrno = .ok
        · have hlen := hread.resolve_right (not_not.2 herr)
          have hle := @read_le _ _ _ Parser.step parser block step_stop_le
          cases blocks with
          | nil => rfl
          | cons b bs =>
            have hb := List.length_pos_iff.2 (hne' b List.mem_cons_self)
            simp only [List.flatten_cons, List.length_append] at hlen
            omega
        · exact run_error (by rw [hrec.parser]; exact herr) blocks
      refine ⟨o.user, ?_, hrec.slices, hrec.body_front, hrec.body⟩
      rw [List.map_cons, run_cons_ok, ← hrec.parser]
      exact ⟨_, huse, hrest⟩
    · rw [if_neg hstopped] at hfed
      have hnot : (feed Parser.step parser block).stopped = false := by simpa using hstopped
      obtain ⟨hok', h'⟩ := feed_invariant (I := fun p : Parser => p.httpErrno = .ok ∧ p.Sound 0)
        (fun _ _ _ _ => step_sound) ⟨hok, h⟩ hnot
      have hfull := read_of_not_stopped hnot
      rw [← hrec.parser] at hok' h' hfed
      subst hfed
      obtain ⟨all, hall, hne'', hpre, hbody⟩ := ih hok' h' hrec.slices hne' rfl (by
        refine hread.imp_left fun hlen => ?_
        rw [Fed.andThen, hfull, List.flatten_cons, List.length_append] at hlen
        exact Nat.add_left_cancel hlen)
      have huser := hrec.body (by rw [← hrec.parser]; exact hok')
      rw [huser] at hpre hbody
      refine ⟨all, ?_, hne'', ?_, fun herr => ?_⟩
      · rw [List.map_cons, run_cons_ok]
        exact ⟨_, huse, hall⟩
      · simpa [Fed.andThen, List.append_assoc] using hpre
      · simpa [Fed.andThen, List.append_assoc] using hbody herr

/-- **Cuts do not matter.** However a stream is cut into blocks, calls of `http_parser_execute` with
the blocks leave the parser that one call with the stream leaves, and hand the same body to
`on_body`, no slice being empty. Excluded is the stream that the one call does not read to its end
although it sets no error, because it leaves the protocol at an `Upgrade`. When an error ends the
stream, bytes marked may be lost, more or fewer of them. -/
theorem blocks_eq_whole (hreached : Reached parser) (hok : parser.httpErrno = .ok)
    {blocks : List (List UInt8)} (hne : ∀ b ∈ blocks, b ≠ []) (hsome : blocks ≠ [])
    {whole : Outcome (List (List UInt8))}
    (hwhole : execute record parser [] blocks.flatten = .ok whole)
    (hread : whole.read = blocks.flatten.length ∨ whole.parser.httpErrno ≠ .ok) :
    ∃ all, run (use record) (parser, []) (blocks.map .execute) = .ok (whole.parser, all) ∧
      (∀ d ∈ all, d ≠ []) ∧
      (whole.parser.httpErrno = .ok → all.flatten = whole.user.flatten) ∧
      (all.flatten <+: whole.user.flatten ∨ whole.user.flatten <+: all.flatten) := by
  have h := hreached.settled (.inl hok)
  have hdata : blocks.flatten ≠ [] := by
    intro hnil
    obtain ⟨b, hb⟩ := List.exists_mem_of_ne_nil blocks hsome
    exact hne b hb (List.flatten_eq_nil_iff.1 hnil b hb)
  obtain ⟨o, ho, hrec⟩ := @execute_record parser hok h [] (by simp) _ hdata
  obtain rfl : o = whole := Except.ok.inj (ho.symm.trans hwhole)
  have hread' : (feed Parser.step parser blocks.flatten).read = blocks.flatten.length ∨
      (feed Parser.step parser blocks.flatten).state.httpErrno ≠ .ok := by
    rw [← hrec.parser]
    refine hread.imp_left fun hlen => ?_
    rw [← hlen, hrec.read, Nat.zero_add]
  obtain ⟨all, hall, hslices, hpre, hbody⟩ :=
    @run_blocks parser [] hok h (by simp) blocks hne _ rfl hread'
  refine ⟨all, by rw [hrec.parser]; exact hall, hslices, fun herr => ?_, ?_⟩
  · rw [hrec.parser] at herr
    rw [hbody herr, hrec.body herr]
  · exact List.prefix_or_prefix_of_prefix hpre hrec.body_front

/-- A response in two blocks, cut in its body. -/
def sampleBlocks : List (List UInt8) :=
  [text "HTTP/1.0 200 OK\n\na", text "b"]

theorem blocks_eq_whole_sample : ∃ parser all,
    run (use record) (Parser.init .response, []) (sampleBlocks.map .execute) = .ok (parser, all) ∧
      all.flatten = text "ab" := by
  obtain ⟨all, hall, -, hbody, -⟩ := @blocks_eq_whole _ (reached_init .response) rfl
    sampleBlocks (by decide) (by decide) _ rfl (.inl (by rfl))
  exact ⟨_, all, hall, hbody (by rfl)⟩

end Blocks

end Rsva11001.Http
