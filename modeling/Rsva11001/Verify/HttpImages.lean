import Rsva11001.Verify.Chunks
import Rsva11001.Verify.HttpConnection
import Rsva11001.Verify.HttpResponse
import Rsva11001.Verify.Refusals

/-!
# From the socket to the images

A camera sends responses, and their bodies, put together, are a stream of messages. Over any calls
of process that read such a stream, up to any byte of it, the adapter completes the messages that
have come in, in order and none else, and then holds the image of the last one (`images_fetched`),
when no message is shorter than a block that is read. The blocks may cut heads, chunk lines and
messages anywhere.
-/

namespace Rsva11001.Http

open Lib Connection

/-! ## The slices of a stream -/

/-- A parser that has read on can read further. -/
theorem Reading.of_runs {s : Reading} {bytes : List UInt8} {q : Parser} {out : List UInt8}
    (hrun : Runs Parser.step s.parser bytes q out) : ∃ t : Reading, t.parser = q := by
  unfold Runs at hrun
  have hinv := feed_invariant (I := fun p : Parser => p.httpErrno = .ok ∧ p.Sound 0)
    (fun _ _ _ _ => step_sound) ⟨s.errno, s.sound⟩
    (show (feed Parser.step s.parser bytes).stopped = false by rw [hrun])
  rw [hrun] at hinv
  exact ⟨⟨q, hinv.1, hinv.2⟩, rfl⟩

theorem Reading.next_of_runs {s : Reading} {block : List UInt8} (hne : block ≠ []) {q : Parser}
    {out : List UInt8} (hrun : Runs Parser.step s.parser block q out) :
    ∃ t, s.next block = some t ∧ t.parser = q ∧ (s.block block).user.flatten = out := by
  obtain ⟨t, rfl⟩ := of_runs hrun
  obtain ⟨-, hrec⟩ := block_eq (s := s) hne
  unfold Runs at hrun
  rw [hrun] at hrec
  have hparser : (s.block block).parser = t.parser := hrec.parser
  have hnext : (s.block block).parser.httpErrno = .ok := by rw [hparser, t.errno]
  refine ⟨⟨(s.block block).parser, hnext, block_sound hnext⟩, dif_pos hnext, hparser, ?_⟩
  simpa using hrec.body t.errno

/-- The slices that the blocks of a stream have. -/
def Reading.slices (s : Reading) : List (List UInt8) → List (List UInt8)
  | [] => []
  | block :: blocks =>
    (s.block block).user ++
      match s.next block with
      | some t => t.slices blocks
      | none => []

/-- They are what the machine puts out. -/
theorem slices_of_runs {s : Reading} {blocks : List (List UInt8)} (hne : ∀ b ∈ blocks, b ≠ [])
    {size : Nat} (hsize : ∀ b ∈ blocks, b.length ≤ size) {q : Parser} {out : List UInt8}
    (hrun : Runs Parser.step s.parser blocks.flatten q out) :
    (s.slices blocks).flatten = out ∧ ∀ d ∈ s.slices blocks, d ≠ [] ∧ d.length ≤ size := by
  induction blocks generalizing s out with
  | nil =>
    obtain ⟨-, hout, -⟩ := Fed.mk.inj hrun
    exact ⟨hout, by simp [Reading.slices]⟩
  | cons block blocks ih =>
    rw [List.flatten_cons] at hrun
    obtain ⟨mid, out₁, out₂, hfirst, hrest, rfl⟩ := hrun.split
    have hblock := hne block List.mem_cons_self
    obtain ⟨t, ht, hparser, huser⟩ := Reading.next_of_runs hblock hfirst
    obtain ⟨hflat, hslices⟩ := ih (s := t) (fun b hb => hne b (List.mem_cons_of_mem block hb))
      (fun b hb => hsize b (List.mem_cons_of_mem block hb)) (by rwa [hparser])
    rw [Reading.slices, ht]
    refine ⟨by rw [List.flatten_append, huser, hflat], fun d hd => ?_⟩
    rcases List.mem_append.1 hd with hd | hd
    · refine ⟨(Reading.block_eq hblock).2.slices d hd, ?_⟩
      have hsub : (s.block block).user.flatten.length ≤ block.length := by
        have : (feed Parser.step s.parser block).out.Sublist block := feed_out_sublist step_out
        rw [huser]
        unfold Runs at hfirst
        rw [hfirst] at this
        exact this.length_le
      exact ((List.sublist_flatten_of_mem hd).length_le.trans hsub).trans
        (hsize block List.mem_cons_self)
    · exact hslices d hd

/-- The slices of a stream in two parts. -/
theorem slices_append {front : List (List UInt8)} (hne : ∀ b ∈ front, b ≠ []) :
    ∀ {s t : Reading} {out : List UInt8}, Runs Parser.step s.parser front.flatten t.parser out →
      ∀ back, s.slices (front ++ back) = s.slices front ++ t.slices back := by
  induction front with
  | nil =>
    intro s t out hrun back
    obtain ⟨hstate, -, -⟩ := Fed.mk.inj hrun
    obtain rfl : s = t := Reading.ext hstate
    rfl
  | cons block front ih =>
    intro s t out hrun back
    rw [List.flatten_cons] at hrun
    obtain ⟨mid, out₁, out₂, hfirst, hrest, -⟩ := hrun.split
    obtain ⟨u, hu, rfl, -⟩ := Reading.next_of_runs (hne block List.mem_cons_self) hfirst
    rw [List.cons_append, Reading.slices, Reading.slices, hu, List.append_assoc]
    exact congrArg _ (ih (fun b hb => hne b (List.mem_cons_of_mem block hb)) hrest back)

/-! ## What the callbacks make of them -/

/-- The callbacks do the steps of the reader that looks for one message after each slice. -/
theorem callbacks_reads {P : HttpParser} {cs : List (List UInt8)} {carry r : List UInt8}
    {ms : List Message} (h : jpgs.Reads BASE_BUFFER_SIZE carry cs ms r) :
    ∀ {c : Connection P} {latest : Option Message}, Receiving c carry latest →
      (∀ d ∈ cs, d.length ≤ BUFFER_SIZE) →
      ∃ c', c.callbacks cs = .ok (true, c', ms.map Message.payload) ∧
        Receiving c' r (ms.getLast?.or latest) ∧ SameControl c c' := by
  induction h with
  | done => exact fun hr _ => ⟨_, rfl, hr, .refl _⟩
  | @keep carry d cs as r hpart _ ih =>
    intro c latest hr hcs
    obtain ⟨c₁, heq, hr₁, hping, hsame⟩ := recv_keep hr hpart
    obtain ⟨c', hcalls, hr', hsame'⟩ := ih hr₁ fun d hd => hcs d (List.mem_cons_of_mem _ hd)
    refine ⟨c', ?_, hr', hsame.trans hsame'⟩
    have hnone : c.completed c₁ = none := if_pos hping
    rw [callbacks, heq]
    simp only [ok_bind, hcalls, hnone]
    rfl
  | @emit carry d rest cs a as r hframe hle hroom hcap _ ih =>
    intro c latest hr hcs
    have hd : d.length ≤ BUFFER_SIZE := hcs d List.mem_cons_self
    have hlen := congrArg List.length hframe
    simp only [List.length_append] at hlen
    unfold BUFFER_SIZE at hd
    obtain ⟨c₁, heq, hr₁, hping, hsame⟩ := recv_frame hr hroom (by unfold PTRDIFF_MAX; omega)
      hframe hcap hle (by unfold BASE_BUFFER_SIZE; omega)
    obtain ⟨c', hcalls, hr', hsame'⟩ := ih hr₁ fun d hd => hcs d (List.mem_cons_of_mem _ hd)
    refine ⟨c', ?_, ?_, hsame.trans hsame'⟩
    · rw [callbacks, heq]
      simp only [ok_bind, hcalls, completed_eq hping hr₁]
      rfl
    · rw [List.getLast?_cons]
      cases hlast : as.getLast? with
      | none => simpa [hlast] using hr'
      | some m => simpa [hlast] using hr'

/-- A connection in the middle of a stream. -/
structure Midway (c : Connection httpParser) (s : Reading) (carry : List UInt8)
    (latest : Option Message) : Prop where
  receiving : Receiving c carry latest
  parser : c.parser = some s

variable {c : Connection httpParser} {s : Reading} {carry r : List UInt8} {latest : Option Message}
  {ms : List Message} {q : Parser} {out : List UInt8}

/-- One block. -/
theorem execute_midway (hc : Midway c s carry latest) {block : Block}
    (hrun : Runs Parser.step s.parser block.bytes q out)
    (hreads : jpgs.Reads BASE_BUFFER_SIZE carry (s.block block.bytes).user ms r) :
    ∃ c' t, s.next block.bytes = some t ∧ t.parser = q ∧
      c.execute block.bytes = .ok (c', ms.map Message.payload) ∧
      Midway c' t r (ms.getLast?.or latest) := by
  obtain ⟨t, ht, hparser, huser⟩ := Reading.next_of_runs block.ne_nil hrun
  have hlen : ∀ d ∈ (s.block block.bytes).user, d.length ≤ BUFFER_SIZE := by
    have := @slices_of_runs s [block.bytes] (by simpa using block.ne_nil) BUFFER_SIZE
      (by simpa using block.length_le) q out (by simpa using hrun)
    intro d hd
    exact (this.2 d (List.mem_append_left _ hd)).2
  obtain ⟨c₁, hcalls, hr₁, -⟩ := callbacks_reads hreads hc.receiving hlen
  refine ⟨{ c₁ with parser := some t }, t, ht, hparser, ?_,
    (sameReceive_setParser c₁ _).receiving hr₁, rfl⟩
  have hexecute : c.execute block.bytes = (do
      let (all, next, payloads) ← c.callbacks (s.block block.bytes).user
      return ({ next with parser := if all then s.next block.bytes else none }, payloads)) := by
    rw [Connection.execute, hc.parser]
    rfl
  rw [hexecute, hcalls, ht]
  rfl

/-- The blocks of a read loop. -/
theorem readLoop_midway {blocks : List Block} : ∀ {c : Connection httpParser} {s : Reading}
    {carry : List UInt8} {latest : Option Message} {ms : List Message} {out : List UInt8},
    Midway c s carry latest →
    Runs Parser.step s.parser (blocks.map Block.bytes).flatten q out →
    jpgs.Reads BASE_BUFFER_SIZE carry (s.slices (blocks.map Block.bytes)) ms r →
    ∃ c' t, t.parser = q ∧ Midway c' t r (ms.getLast?.or latest) ∧
      ∀ rest, c.readLoop (blocks.map .data ++ rest) = (do
        let (ret, last, more) ← c'.readLoop rest
        return (ret, last, ms.map Message.payload ++ more)) := by
  induction blocks with
  | nil =>
    intro c s carry latest ms out hc hrun hreads
    obtain ⟨hstate, -, -⟩ := Fed.mk.inj hrun
    cases hreads
    refine ⟨c, s, hstate, hc, fun rest => ?_⟩
    rw [List.map_nil, List.nil_append]
    cases c.readLoop rest <;> rfl
  | cons block blocks ih =>
    intro c s carry latest ms out hc hrun hreads
    rw [List.map_cons, List.flatten_cons] at hrun
    obtain ⟨mid, out₁, out₂, hfirst, hrest, rfl⟩ := hrun.split
    rw [List.map_cons, Reading.slices] at hreads
    obtain ⟨ms₁, ms₂, carry₁, rfl, hreads₁, hreads₂⟩ := hreads.append_inv
    obtain ⟨c₁, t, ht, rfl, hexecute, hc₁⟩ := execute_midway hc hfirst hreads₁
    rw [ht] at hreads₂
    obtain ⟨c', t', hparser, hc', hloop⟩ := ih hc₁ hrest hreads₂
    refine ⟨c', t', hparser, ?_, fun rest => ?_⟩
    · rwa [List.getLast?_append, Option.or_assoc]
    · rw [List.map_cons, List.cons_append, readLoop, hexecute, ok_bind]
      dsimp only
      rw [hloop rest, List.map_append]
      cases c'.readLoop rest with
      | error halt => rfl
      | ok r => simp [bind, Except.bind, pure, Except.pure]

/-! ## Calls of process -/

instance (c : Connection httpParser) (e : ProcessEnv) : Decidable (c.ReachesReads e) :=
  inferInstanceAs (Decidable (_ ∧ _))

/-- A call comes to its reads with the connection as it is, or it does not and reads nothing. -/
theorem process_midway (hc : Midway c s carry latest) (hsound : Sound c) {e : ProcessEnv}
    {res : ProcessResult httpParser} (hres : c.process e = .ok res) :
    (¬ c.ReachesReads e ∧ Midway res.conn s carry latest ∧ res.accepted = []) ∨
      (c.ReachesReads e ∧ ∃ c₁, Midway c₁ s carry latest ∧
        c₁.readLoop e.recvs = .ok (res.ret, res.conn, res.accepted)) := by
  have hsame : ∀ (n : Nat) (connected : Bool),
      Midway { c with connected, bytesWritten := n } s carry latest := by
    intro n connected
    have : SameReceive c { c with connected, bytesWritten := n } := ⟨rfl, rfl, rfl, rfl, rfl, rfl⟩
    exact ⟨this.receiving hc.receiving, hc.parser⟩
  unfold process at hres
  split at hres
  · cases hres
  split at hres
  · rename_i ret c₁ hcheck
    obtain ⟨hpass, -, hc₁⟩ := checkConnected_pass hcheck
    rw [if_neg (by simp)] at hc₁
    subst hc₁
    cases hres
    exact .inl ⟨fun hyes => absurd (hpass.2 hyes.1) (by simp), hc, rfl⟩
  · rename_i c₁ hcheck
    obtain ⟨hpass, -, hc₁⟩ := checkConnected_pass hcheck
    rw [if_pos rfl] at hc₁
    obtain ⟨⟨ret, c₂, sent⟩, hwrite, hres⟩ := bind_eq_ok.1 hres
    obtain ⟨hsends, k, -, hc₂⟩ := writeLoop_pass (by rw [hc₁]; exact hsound.written_le)
      (by rw [hc₁]; exact hsound.length_lt) hwrite
    rw [hc₁] at hsends hc₂
    have hmid : Midway c₂ s carry latest := by
      rw [hc₂]
      exact hsame k true
    cases ret with
    | some ret =>
      cases hres
      exact .inl ⟨fun hyes => absurd (hsends.2 hyes.2) (by simp), hmid, rfl⟩
    | none =>
      obtain ⟨⟨ret, c₃, accepted⟩, hread, hres⟩ := bind_eq_ok.1 hres
      cases hres
      exact .inr ⟨⟨hpass.1 rfl, hsends.1 rfl⟩, c₂, hmid, hread⟩

/-- A read loop that returns has read blocks and then one result that is none. -/
theorem readLoop_inv {P : HttpParser} {recvs : List RecvResult} : ∀ {c : Connection P}
    {res : Bool × Connection P × List (List UInt8)}, c.readLoop recvs = .ok res →
    ∃ (blocks : List Block) (rest : List RecvResult), recvs = blocks.map .data ++ rest ∧
      blocksRead recvs = blocks.map Block.bytes ∧
      ∀ c' : Connection P, ∃ ret, c'.readLoop rest = .ok (ret, c', []) := by
  induction recvs with
  | nil => exact nofun
  | cons result rest ih =>
    intro c res h
    cases result with
    | wouldBlock => exact ⟨[], _, rfl, rfl, fun c' => ⟨true, rfl⟩⟩
    | shutdown => exact ⟨[], _, rfl, rfl, fun c' => ⟨false, rfl⟩⟩
    | error => exact ⟨[], _, rfl, rfl, fun c' => ⟨false, rfl⟩⟩
    | data block =>
      rw [readLoop] at h
      obtain ⟨⟨next, payloads⟩, -, h⟩ := bind_eq_ok.1 h
      obtain ⟨res', hrest, -⟩ := bind_eq_ok.1 h
      obtain ⟨blocks, rest', rfl, hread, hend⟩ := ih hrest
      exact ⟨block :: blocks, rest', rfl, by rw [blocksRead, hread]; rfl, hend⟩

/-- A connection that is driven: what it has read since it was opened, and the payloads of the
messages completed. -/
structure Fetched where
  conn : Connection httpParser
  read : List (List UInt8)
  accepted : List (List UInt8)

/-- One call of process. -/
def Fetched.step (s : Fetched) (e : ProcessEnv) : Except Halt Fetched := do
  let res ← s.conn.process e
  return ⟨res.conn, s.read ++ if s.conn.ReachesReads e then blocksRead e.recvs else [],
    s.accepted ++ res.accepted⟩

theorem fetched_step {f : Fetched} {e : ProcessEnv} {res : ProcessResult httpParser}
    (h : f.conn.process e = .ok res) : f.step e =
      .ok ⟨res.conn, f.read ++ if f.conn.ReachesReads e then blocksRead e.recvs else [],
        f.accepted ++ res.accepted⟩ := by
  rw [Fetched.step, h]
  rfl

/-- What has been read stays read. -/
theorem read_grows {f f' : Fetched} {es : List ProcessEnv} (h : run Fetched.step f es = .ok f') :
    f.read <+: f'.read := by
  refine run_invariant (I := fun x : Fetched => f.read <+: x.read) (fun x e x' hx h => ?_)
    (List.prefix_refl _) h
  unfold Fetched.step at h
  obtain ⟨res, -, h⟩ := bind_eq_ok.1 h
  cases h
  exact hx.trans (List.prefix_append _ _)

/-- Calls of process on a stream that the parser reads to its end. -/
theorem run_fetched {es : List ProcessEnv} : ∀ {f f' : Fetched} {s : Reading}
    {carry : List UInt8} {latest : Option Message} {ms : List Message} {out : List UInt8}
    {blocks : List (List UInt8)}, Midway f.conn s carry latest → Sound f.conn →
    run Fetched.step f es = .ok f' → f'.read = f.read ++ blocks →
    Runs Parser.step s.parser blocks.flatten q out →
    jpgs.Reads BASE_BUFFER_SIZE carry (s.slices blocks) ms r →
    f'.accepted = f.accepted ++ ms.map Message.payload ∧
      ∃ t, Midway f'.conn t r (ms.getLast?.or latest) := by
  induction es with
  | nil =>
    intro f f' s carry latest ms out blocks hc _ hrun hread _ hreads
    obtain rfl : f = f' := by simpa [run] using hrun
    obtain rfl : blocks = [] := by simpa using hread
    cases hreads
    exact ⟨by simp, s, hc⟩
  | cons e es ih =>
    intro f f' s carry latest ms out blocks hc hsound hrun hread hparse hreads
    obtain ⟨f₁, hstep, hrest⟩ := run_cons_ok.1 hrun
    obtain ⟨more, hmore⟩ := read_grows hrest
    unfold Fetched.step at hstep
    obtain ⟨res, hres, hstep⟩ := bind_eq_ok.1 hstep
    cases hstep
    have hsound' := (process_returned hsound hres).1
    dsimp only at hmore
    rcases process_midway hc hsound hres with ⟨hno, hc', hnone⟩ | ⟨hyes, c₁, hc₁, hloop⟩
    · rw [if_neg hno, List.append_nil] at hmore
      obtain rfl : more = blocks := List.append_cancel_left (hmore.trans hread)
      have := ih hc' hsound' hrest (by rw [if_neg hno, List.append_nil]; exact hread) hparse hreads
      simpa [hnone] using this
    · rw [if_pos hyes, List.append_assoc] at hmore
      obtain ⟨front, rest, hrecvs, hblocks, hend⟩ := readLoop_inv hloop
      have hsplit : blocks = front.map Block.bytes ++ more := by
        rw [← hblocks]
        exact (List.append_cancel_left (hmore.trans hread)).symm
      subst hsplit
      rw [List.flatten_append] at hparse
      obtain ⟨mid, out₁, out₂, hfirst, hlast, rfl⟩ := hparse.split
      have hne : ∀ b ∈ front.map Block.bytes, b ≠ [] := by
        intro b hb
        obtain ⟨block, -, rfl⟩ := List.mem_map.1 hb
        exact block.ne_nil
      obtain ⟨t, rfl⟩ := Reading.of_runs hfirst
      rw [slices_append hne hfirst] at hreads
      obtain ⟨ms₁, ms₂, carry₁, rfl, hreads₁, hreads₂⟩ := hreads.append_inv
      obtain ⟨c', t', hparser, hc', hrun'⟩ := readLoop_midway hc₁ hfirst hreads₁
      obtain rfl : t' = t := Reading.ext hparser
      obtain ⟨ret, hret⟩ := hend c'
      rw [hrecvs, hrun' rest, hret] at hloop
      obtain ⟨-, rfl, haccepted⟩ : ret = res.ret ∧ c' = res.conn ∧
          ms₁.map Message.payload ++ [] = res.accepted := by
        simpa [bind, Except.bind, pure, Except.pure] using hloop
      obtain ⟨hall, t, ht⟩ := ih hc' hsound' hrest
        (by rw [if_pos hyes, hblocks, List.append_assoc]; exact hread) hlast hreads₂
      refine ⟨?_, t, ?_⟩
      · rw [hall, ← haccepted]
        simp
      · rwa [List.getLast?_append, Option.or_assoc]

theorem blocksRead_bounds {recvs : List RecvResult} :
    ∀ b ∈ blocksRead recvs, b ≠ [] ∧ b.length ≤ BUFFER_SIZE := by
  induction recvs with
  | nil => exact nofun
  | cons result rest ih =>
    cases result with
    | data block =>
      intro b hb
      rcases List.mem_cons.1 hb with rfl | hb
      · exact ⟨block.ne_nil, block.length_le⟩
      · exact ih b hb
    | _ => exact nofun

theorem read_bounds {f f' : Fetched} {es : List ProcessEnv} (h : run Fetched.step f es = .ok f')
    (hf : ∀ b ∈ f.read, b ≠ [] ∧ b.length ≤ BUFFER_SIZE) :
    ∀ b ∈ f'.read, b ≠ [] ∧ b.length ≤ BUFFER_SIZE := by
  refine run_invariant (I := fun x : Fetched => ∀ b ∈ x.read, b ≠ [] ∧ b.length ≤ BUFFER_SIZE)
    (fun x e x' hx h => ?_) hf h
  unfold Fetched.step at h
  obtain ⟨res, -, h⟩ := bind_eq_ok.1 h
  cases h
  intro b hb
  rcases List.mem_append.1 hb with hb | hb
  · exact hx b hb
  · split at hb
    · exact blocksRead_bounds b hb
    · cases hb

/-- The length of the longest block. -/
theorem exists_longest (blocks : List (List UInt8)) : ∃ size, (∀ b ∈ blocks, b.length ≤ size) ∧
    ∀ n, (∀ b ∈ blocks, b.length ≤ n) → size ≤ n := by
  induction blocks with
  | nil => exact ⟨0, nofun, fun n _ => Nat.zero_le n⟩
  | cons block blocks ih =>
    obtain ⟨size, hle, hleast⟩ := ih
    refine ⟨max block.length size, fun b hb => ?_, fun n hn => ?_⟩
    · rcases List.mem_cons.1 hb with rfl | hb
      · exact Nat.le_max_left _ _
      · exact (hle b hb).trans (Nat.le_max_right _ _)
    · exact Nat.max_le.2 ⟨hn block List.mem_cons_self,
        hleast n fun b hb => hn b (List.mem_cons_of_mem block hb)⟩

/-- A stream of responses has been read up to some byte, and the bodies so far are the messages `ms`
and the beginning `r` of another. It is cut into blocks that are no longer than a message: the
parser reads it to its end, and the reader takes the messages from the slices. -/
theorem reads_stream {blocks : List (List UInt8)}
    (hbounds : ∀ b ∈ blocks, b ≠ [] ∧ b.length ≤ BUFFER_SIZE) {responses : List Response}
    {last : Response} (hpaced : Paced 0 (responses ++ [last]))
    (halive : ∀ response ∈ responses, response.persistent = true)
    (hread : blocks.flatten <+: encodeResponses (responses ++ [last]))
    (hbody : responsesData (responses ++ [last]) blocks.flatten.length = jpgs.encodeAll ms ++ r)
    (hfits : ∀ m ∈ ms, m.payload.length ≤ MAX_PAYLOAD) (hr : Beginning r)
    (hlong : ∀ m ∈ ms, ∀ b ∈ blocks, b.length ≤ m.encode.length) :
    ∃ q out, Runs Parser.step (Parser.init .response) blocks.flatten q out ∧
      jpgs.Reads BASE_BUFFER_SIZE [] (Reading.slices httpParser.init blocks) ms r := by
  obtain ⟨q, hparse, -⟩ := runs_responses atStart_init hpaced halive hread
  have hslices := slices_of_runs (s := httpParser.init) (fun b hb => (hbounds b hb).1)
    (fun b hb => (hbounds b hb).2) hparse
  have hcut : Cut ms r (Reading.slices httpParser.init blocks) :=
    ⟨hfits, hslices.1.trans hbody, hslices.2⟩
  obtain ⟨size, hsize, hleast⟩ := exists_longest blocks
  have hsmall := slices_of_runs (s := httpParser.init) (fun b hb => (hbounds b hb).1) hsize hparse
  have hone : OneEndPerChunk (jpgs.endsFrom 0 ms) 0 (Reading.slices httpParser.init blocks) :=
    Framing.oneEnd_of_long (fun m hm => hleast _ (hlong m hm)) (fun d hd => (hsmall.2 d hd).2) 0 0
  obtain ⟨hkeep, hall⟩ := keepsUp_of_cut hcut hone
  rcases hcut.taken_or_late hr with ⟨-, taken, htaken, hreads⟩ | ⟨hno, -⟩
  · rw [List.length_nil, hall, List.append_nil] at htaken
    rw [List.length_nil, hall] at hreads
    subst htaken
    exact ⟨q, _, hparse, hreads⟩
  · exact absurd hkeep hno

/-- **From the socket to the images.** Calls of process on a connection that has just been opened
have read the first bytes of responses, and what the bodies carry among them are the messages `ms`
and the beginning `r` of another. If no message is shorter than a block that was read, they have
completed the messages of `ms`, each once and in order, and the image retrieved is the last one's:
no message waits for a byte behind it. -/
theorem images_fetched {c : Connection httpParser} (hc : FreshlyOpened c) {es : List ProcessEnv}
    {f : Fetched} (hrun : run Fetched.step ⟨c, [], []⟩ es = .ok f)
    {responses : List Response} {last : Response} (hpaced : Paced 0 (responses ++ [last]))
    (halive : ∀ response ∈ responses, response.persistent = true)
    (hread : f.read.flatten <+: encodeResponses (responses ++ [last]))
    {ms : List Message} {r : List UInt8}
    (hbody : responsesData (responses ++ [last]) f.read.flatten.length = jpgs.encodeAll ms ++ r)
    (hfits : ∀ m ∈ ms, m.payload.length ≤ MAX_PAYLOAD) (hr : Beginning r)
    (hlong : ∀ m ∈ ms, ∀ b ∈ f.read, b.length ≤ m.encode.length) :
    f.accepted = ms.map Message.payload ∧
      ∀ size, (∀ m, ms.getLast? = some m → m.payload.length ≤ size) →
        f.conn.getLatestImage size =
          .ok ⟨true, (imageBytes ms.getLast?).length, imageBytes ms.getLast?⟩ := by
  obtain ⟨hrec, hparser, -⟩ := hc.receiving
  obtain ⟨q, out, hparse, hreads⟩ :=
    reads_stream (read_bounds hrun (by simp)) hpaced halive hread hbody hfits hr hlong
  obtain ⟨haccepted, t, ht⟩ := run_fetched (f := ⟨c, [], []⟩) ⟨hrec, hparser⟩ hc.sound hrun
    (List.nil_append _).symm hparse hreads
  refine ⟨haccepted, fun size hsize => ?_⟩
  have hr' := ht.receiving
  rw [Option.or_none] at hr'
  rw [getLatestImage_eq hr', latestImage_eq hsize]

/-! A response whose message is cut into three blocks. -/

/-- The socket is connected, takes the request, and yields the blocks. -/
def answer (blocks : List Block) : ProcessEnv where
  poll := .ready true
  getsockopt := .pending 0
  sends := [.sent OUTPUT_BUFFER_SIZE]
  recvs := blocks.map .data ++ [.wouldBlock]

/-- The first call of process comes to its reads. -/
theorem process_answer {c : Connection httpParser} (hc : Fresh c) (blocks : List Block) :
    ∃ c₁ sent, Midway c₁ httpParser.init [] none ∧ c.process (answer blocks) = (do
      let (ret, this, accepted) ← c₁.readLoop (blocks.map .data ++ [.wouldBlock])
      return ⟨ret, this, sent, accepted⟩) := by
  have hcheck : c.checkConnected (answer blocks) = (none, { c with connected := true }) := by
    unfold checkConnected
    rw [hc.connected]
    rfl
  obtain ⟨sent, hwrite⟩ := writeLoop_all (c := { c with connected := true }) hc.bytesWritten
    hc.outputBuffer hc.outputLength
  have hsame : SameReceive c
      { c with connected := true, bytesWritten := c.outputLength } :=
    ⟨rfl, rfl, rfl, rfl, rfl, rfl⟩
  refine ⟨_, sent, ⟨hsame.receiving hc.receiving, hc.parser⟩, ?_⟩
  exact process_written (e := answer blocks)
    (by simpa [Option.isSome_iff_ne_none] using hc.sockfd) hcheck hwrite _

theorem answer_reaches {c : Connection httpParser} (hc : Fresh c) (blocks : List Block) :
    c.ReachesReads (answer blocks) := by
  have hle := hc.outputLength
  refine ⟨.inr ⟨rfl, rfl⟩, ?_⟩
  rw [hc.bytesWritten, Nat.sub_zero]
  show sendsPass _ [.sent OUTPUT_BUFFER_SIZE] = true
  cases hlength : c.outputLength with
  | zero => rfl
  | succ left =>
    rw [hlength] at hle
    rw [sendsPass, Nat.sub_eq_zero_of_le hle]
    rfl

def sampleImage : Response where
  head := ⟨sampleStatus, []⟩
  body := .untilEof sampleMessage.encode
  fits := framing_sampleStatus
  no_upgrade := upgrade_sampleStatus

def sampleReads : List Block :=
  [⟨sampleImage.encode.take 12, by decide, by decide⟩,
    ⟨(sampleImage.encode.drop 12).take 12, by decide, by decide⟩,
    ⟨sampleImage.encode.drop 24, by decide, by decide⟩]

theorem run_sampleReads {c : Connection httpParser} (hfresh : Fresh c) :
    ∃ f, run Fetched.step ⟨c, [], []⟩ [answer sampleReads] = .ok f ∧
      f.read = sampleReads.map Block.bytes := by
  obtain ⟨c₁, sent, hc₁, hprocess⟩ := process_answer hfresh sampleReads
  obtain ⟨q, out, hparse, hreads⟩ := @reads_stream [] [sampleMessage] (sampleReads.map Block.bytes)
    (by decide) [] sampleImage (by decide) (by decide) (by decide) (by decide) (by decide)
    beginning_nil (by decide)
  obtain ⟨c', -, -, -, hloop⟩ := readLoop_midway hc₁ hparse hreads
  obtain ⟨res, hres⟩ : ∃ res, c.process (answer sampleReads) = .ok res := by
    rw [hprocess, hloop]
    exact ⟨_, rfl⟩
  have hstep := fetched_step (f := ⟨c, [], []⟩) hres
  rw [if_pos (answer_reaches hfresh sampleReads)] at hstep
  exact ⟨_, run_cons_ok.2 ⟨_, hstep, run_nil _⟩, rfl⟩

theorem images_fetched_sample : ∃ f, run Fetched.step ⟨sampleOpen httpParser, [], []⟩
      [answer sampleReads] = .ok f ∧ f.accepted = [sampleMessage.payload] := by
  obtain ⟨f, hrun, hread⟩ := run_sampleReads (fresh_sampleOpen httpParser)
  exact ⟨f, hrun, (@images_fetched _ (freshlyOpened_sampleOpen httpParser) _ f hrun [] sampleImage
    (by decide) (by decide) (by rw [hread]; decide) [sampleMessage] [] (by rw [hread]; decide)
    (by decide) beginning_nil (by rw [hread]; decide)).1⟩

end Rsva11001.Http
