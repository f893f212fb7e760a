import AgentDev.Python.Decimals
import AgentDev.Runtime.Endings

/-!
# Controls are received in their turn

What is waiting in a configuration of a session is received line by line, one for each question whether
there is something to read.
-/

namespace AgentDev.Runtime

open Interleaving Python

section

variable {size : Nat} {floats : Json.FloatText} {decimal : CodePoint → Option Nat}
  {timeout : Option Nat} {timeoutOutput : Bytes} {n : Nat} {queue : Str} {c c' c'' : Execution Int}
  {e : Event Action.Reply}

/-- The runs of a session in which no receive leaves two complete lines with the reader. -/
abbrev Sessions (size : Nat) (floats : Json.FloatText) (decimal : CodePoint → Option Nat)
    (timeout : Option Nat) (timeoutOutput : Bytes) (n : Nat) (queue : Str) (c : Execution Int) : Prop :=
  (machine size).Reaches ((keepsApart size).only 0)
    (start (session floats decimal timeout timeoutOutput n) ⟨queue, [], false⟩) c

/-- Those in which nothing that was sent in time is left unread, either. -/
abbrev Attended (size : Nat) (floats : Json.FloatText) (decimal : CodePoint → Option Nat)
    (timeout : Option Nat) (timeoutOutput : Bytes) (n : Nat) (queue : Str) (c : Execution Int) : Prop :=
  (machine size).Reaches ((attends size).only 0)
    (start (session floats decimal timeout timeoutOutput n) ⟨queue, [], false⟩) c

theorem apart_of_attends (h : (machine size).Reaches ((attends size).only 0) c c') :
    (machine size).Reaches ((keepsApart size).only 0) c c' :=
  h.weaken fun _ _ _ _ hguard => ⟨hguard.1, hguard.2.1⟩

/-- The complete lines that nobody has read yet. -/
def waiting (c : Execution Int) : List Str := frames c.state.socket.pending

/-- What has happened since. -/
def since (c c' : Execution Int) : Trace := c'.trace.drop c.trace.length

/-! ## One step -/

/-- A step of a session is proper. -/
theorem step_proper (hrun : Sessions size floats decimal timeout timeoutOutput n queue c)
    (hstep : (machine size).Step ((keepsApart size).only 0) e c c') :
    Proper floats decimal c.view e.action ∧ apartCalls size c.view e.action e.reply c'.view := by
  have hspec := Spec.reaches (spec_session timeout timeoutOutput n queue) hrun
  have hminds := (hspec.step hstep).2.1
  obtain ⟨rest, choice, state, -, ⟨hthread, hguard⟩, hexec, rfl⟩ := hstep
  obtain ⟨thread, action, reply⟩ := e
  cases hthread
  refine ⟨hminds.2 ?_, choice, state, hguard, hexec, rfl⟩
  rintro rfl
  exact nomatch reply

theorem waiting_moved (choice : Choice) :
    waiting c <+: frames (c.state.moved choice).socket.pending :=
  frames_prefix (socket_moved c.state choice).2.2

/-- What is waiting goes on waiting, but for the line that is read. -/
theorem waiting_step (hrun : Sessions size floats decimal timeout timeoutOutput n queue c)
    (hstep : (machine size).Step ((keepsApart size).only 0) e c c') :
    waiting c <+: (lineOf e).toList ++ waiting c' := by
  obtain ⟨-, hcall⟩ := step_proper hrun hstep
  obtain ⟨choice, world, -, hexec, hview⟩ := apartCalls_cases hcall
  have hstate : c'.state = world := congrArg View.state hview
  have hmoved := waiting_moved (c := c) choice
  have hother : e.action ≠ .readline → waiting c <+: waiting c' := by
    intro haction
    rwa [waiting, waiting, hstate, call_socket hexec haction]
  rcases event_cases e with ⟨haction, ⟨-, hline⟩, -⟩ | ⟨thread, ready, rfl⟩ |
    ⟨thread, text, rfl⟩ | ⟨thread, rfl⟩
  · rw [hline]
    exact hother haction
  · exact hother fun heq => nomatch heq
  · obtain ⟨⟨progress, socket⟩, hread, heq⟩ := Option.map_eq_some_iff.mp hexec
    cases heq
    show waiting c <+: [text] ++ frames c'.state.socket.pending
    rw [hstate]
    rcases Socket.readline_line hread with hline | hnone
    · rwa [hline] at hmoved
    · rw [hnone, List.prefix_nil] at hmoved
      rw [hmoved]
      exact List.nil_prefix
  · obtain ⟨⟨progress, socket⟩, hread, heq⟩ := Option.map_eq_some_iff.mp hexec
    cases heq
    show waiting c <+: frames c'.state.socket.pending
    rw [hstate]
    rwa [← Socket.readline_received hread] at hmoved

/-- When the socket is not readable, nothing is waiting. -/
theorem waiting_of_ask {thread : Nat}
    (hrun : Sessions size floats decimal timeout timeoutOutput n queue c)
    (hstep : (machine size).Step ((keepsApart size).only 0) ⟨thread, .selectConn, false⟩ c c') :
    waiting c' = [] := by
  obtain ⟨hproper, hcall⟩ := step_proper hrun hstep
  have hclear := hproper.clear fun heq => nomatch heq
  obtain ⟨choice, world, -, hexec, hview⟩ := apartCalls_cases hcall
  obtain ⟨hready, rfl⟩ := Prod.mk.inj (Option.some.inj hexec)
  have hstate : c'.state = c.state.moved choice := congrArg View.state hview
  rw [waiting, hstate]
  exact Socket.frames_of_not_readable hready (clear_moved hclear choice)

/-! ## Many steps -/

theorem since_self : since c c = [] := List.drop_length

theorem since_step {guard : Guard Action.Reply World Choice} (hrun : (machine size).Reaches guard c c')
    (hstep : (machine size).Step guard e c' c'') :
    since c c'' = since c c' ++ [e] := by
  obtain ⟨tail, htail⟩ := hrun.trace_prefix
  rw [since, since, hstep.trace_eq, List.drop_append_of_le_length]
  rw [htail, List.length_append]
  omega

/-- What was waiting has been read, or waits. -/
theorem waiting_prefix (hrun : Sessions size floats decimal timeout timeoutOutput n queue c)
    (hreach : (machine size).Reaches ((keepsApart size).only 0) c c') :
    waiting c <+: linesRead (since c c') ++ waiting c' := by
  induction hreach with
  | refl =>
    rw [since_self]
    exact List.prefix_rfl
  | @step c' c'' e hreach hstep ih =>
    have hnext := waiting_step (hrun.trans hreach) hstep
    rw [since_step hreach hstep, linesRead_append, List.append_assoc]
    exact ih.trans ((List.prefix_append_right_inj _).mpr hnext)

/-- What was owed has been read, or is still owed. -/
theorem owed_run {guard : Guard Action.Reply World Choice}
    (hreach : (machine size).Reaches guard c c') :
    c.state.owed <+: linesRead (since c c') ++ c'.state.owed := by
  induction hreach with
  | refl =>
    rw [since_self]
    exact List.prefix_rfl
  | @step c' c'' e hreach hstep ih =>
    have hnext := owed_step hstep
    rw [since_step hreach hstep, linesRead_append, List.append_assoc]
    exact ih.trans ((List.prefix_append_right_inj _).mpr hnext)

/-- When nothing is owed any more, it has been read. -/
theorem read_of_owed {guard : Guard Action.Reply World Choice} {frame : Str} {i : Nat}
    (hreach : (machine size).Reaches guard c c') (hnone : c'.state.owed = [])
    (hframe : c.state.owed[i]? = some frame) : (linesRead (since c c'))[i]? = some frame := by
  have hread := owed_run hreach
  rw [hnone, List.append_nil] at hread
  obtain ⟨tail, htail⟩ := hread
  have hlength : i < c.state.owed.length := (List.getElem?_eq_some_iff.mp hframe).1
  rw [← htail, List.getElem?_append_left hlength]
  exact hframe

/-- Every question finds the next line that waits. -/
theorem asked (hrun : Sessions size floats decimal timeout timeoutOutput n queue c)
    (hreach : (machine size).Reaches ((keepsApart size).only 0) c c') :
    min (waiting c).length (asks (since c c') - 1) ≤ (linesRead (since c c')).length ∧
      (¬Receiving c'.trace →
        min (waiting c).length (asks (since c c')) ≤ (linesRead (since c c')).length) := by
  induction hreach with
  | refl =>
    rw [since_self]
    exact ⟨by simp [asks], fun _ => by simp [asks]⟩
  | @step c' c'' e hreach hstep ih =>
    obtain ⟨hproper, -⟩ := step_proper (hrun.trans hreach) hstep
    have hreceiving : Receiving c''.trace ↔ opens e = true := by
      rw [hstep.trace_eq, receiving_append]
    have hbefore : e.action ≠ .readline →
        min (waiting c).length (asks (since c c')) ≤ (linesRead (since c c')).length :=
      fun haction => ih.2 fun h => haction (hproper.receiving.mpr h)
    rw [since_step hreach hstep, linesRead_append, asks_append, List.length_append, hreceiving]
    rcases event_cases e with ⟨haction, ⟨hopens, hline⟩, hask, -⟩ | ⟨thread, ready, rfl⟩ |
      ⟨thread, text, rfl⟩ | ⟨thread, rfl⟩
    · have hle := hbefore haction
      simp only [hline, hask, Option.toList_none, List.length_nil, Bool.false_eq_true, if_false]
      omega
    · have hle := hbefore (by intro heq; cases heq)
      cases ready with
      | true =>
        simp only [lineOf, isAsk, opens, Option.toList_none, List.length_nil, if_true, not_true,
          false_imp_iff, and_true]
        omega
      | false =>
        -- Nothing is waiting any more, so everything has been read.
        have hprefix := waiting_prefix hrun (hreach.step hstep)
        rw [waiting_of_ask (hrun.trans hreach) hstep, since_step hreach hstep, linesRead_append,
          List.append_nil] at hprefix
        have hlength := hprefix.length_le
        rw [List.length_append] at hlength
        exact ⟨by omega, fun _ => by omega⟩
    · simp only [lineOf, isAsk, Option.toList_some, List.length_singleton, Bool.false_eq_true,
        if_false]
      omega
    · simp only [lineOf, isAsk, opens, Option.toList_none, List.length_nil, Bool.false_eq_true,
        if_false, not_true, false_imp_iff, and_true]
      omega

/-- At most one line is read for each question, and the line that was being read. -/
theorem lines_le (hrun : Sessions size floats decimal timeout timeoutOutput n queue c)
    (hreach : (machine size).Reaches ((keepsApart size).only 0) c c') :
    (linesRead (since c c')).length ≤ asks (since c c') + 1 ∧
      (Receiving c'.trace → (linesRead (since c c')).length ≤ asks (since c c')) := by
  induction hreach with
  | refl =>
    rw [since_self]
    exact ⟨by simp [asks, linesRead], fun _ => by simp [asks, linesRead]⟩
  | @step c' c'' e hreach hstep ih =>
    obtain ⟨hproper, -⟩ := step_proper (hrun.trans hreach) hstep
    have hreceiving : Receiving c''.trace ↔ opens e = true := by
      rw [hstep.trace_eq, receiving_append]
    have hbefore : e.action = .readline →
        (linesRead (since c c')).length ≤ asks (since c c') :=
      fun haction => ih.2 (hproper.receiving.mp haction)
    rw [since_step hreach hstep, linesRead_append, asks_append, List.length_append, hreceiving]
    rcases event_cases e with ⟨-, ⟨hopens, hline⟩, hask, -⟩ | ⟨thread, ready, rfl⟩ |
      ⟨thread, text, rfl⟩ | ⟨thread, rfl⟩
    · simp only [hline, hask, hopens, Option.toList_none, List.length_nil, Bool.false_eq_true,
        if_false, false_imp_iff, and_true]
      omega
    · simp only [lineOf, isAsk, Option.toList_none, List.length_nil, if_true]
      omega
    · have hle := hbefore rfl
      simp only [lineOf, isAsk, opens, Option.toList_some, List.length_singleton,
        Bool.false_eq_true, if_false, false_imp_iff, and_true]
      omega
    · have hle := hbefore rfl
      simp only [lineOf, isAsk, Option.toList_none, List.length_nil, Bool.false_eq_true, if_false]
      omega

/-! ## Sessions with a silent client -/

/-- The client sends nothing. -/
def silently (size : Nat) : Guard Action.Reply World Choice :=
  fun v i action choice => attends size v i action choice ∧ choice.text = []

def touched (trace : Trace) : Nat := trace.countP touches

def receives (trace : Trace) : Nat := trace.countP isReceived

theorem attends_of_silently (h : (machine size).Reaches ((silently size).only 0) c c') :
    (machine size).Reaches ((attends size).only 0) c c' :=
  h.weaken fun _ _ _ _ hguard => ⟨hguard.1, hguard.2.1⟩

theorem touches_eq (e : Event Action.Reply) : (if touches e then 1 else 0) =
    (if isAsk e then 1 else 0) + (lineOf e).toList.length + if isReceived e then 1 else 0 := by
  obtain ⟨thread, action, reply⟩ := e
  cases action with
  | readline => cases reply <;> rfl
  | _ => rfl

theorem countP_append_singleton (f : Event Action.Reply → Bool) (trace : Trace)
    (e : Event Action.Reply) : (trace ++ [e]).countP f = trace.countP f + if f e then 1 else 0 := by
  rw [List.countP_append, List.countP_singleton]

/-- A call on the connection asks, reads a line or receives. -/
theorem touched_eq (trace : Trace) :
    touched trace = asks trace + (linesRead trace).length + receives trace := by
  induction trace using List.reverseRecOn with
  | nil => rfl
  | append_singleton trace e ih =>
    have he := touches_eq e
    rw [touched, countP_append_singleton, asks_append, linesRead_append, List.length_append, receives,
      countP_append_singleton]
    rw [touched, receives] at ih
    omega

/-- A silent client puts nothing into the queue. -/
theorem queue_moved {world : World} {choice : Choice} (htext : choice.text = []) :
    (world.moved choice).socket.queue = world.socket.queue := by
  have hdeliver : (world.socket.deliver choice.text).queue = world.socket.queue := by
    rw [htext, Socket.deliver]
    split
    · rfl
    · exact List.append_nil _
  cases hangup : choice.hangup <;> simp only [World.moved, hangup] <;> exact hdeliver

/-- What is received has been in the queue. -/
theorem queue_step (hsize : 0 < size)
    (hstep : (machine size).Step ((silently size).only 0) e c c') :
    (if isReceived e then 1 else 0) + c'.state.socket.queue.length ≤
      c.state.socket.queue.length := by
  obtain ⟨rest, choice, state, -, ⟨-, -, htext⟩, hexec, rfl⟩ := hstep
  show (if isReceived e then 1 else 0) + state.socket.queue.length ≤ _
  have hmoved : (c.state.moved choice).socket.queue = c.state.socket.queue := queue_moved htext
  rw [← hmoved]
  have hother : e.action ≠ .readline →
      state.socket.queue = (c.state.moved choice).socket.queue :=
    fun haction => by rw [call_socket hexec haction]
  rcases event_cases e with ⟨haction, -, -, hreceived⟩ | ⟨thread, ready, rfl⟩ |
    ⟨thread, text, rfl⟩ | ⟨thread, rfl⟩
  · rw [hother haction, hreceived]
    simp
  · rw [hother fun heq => nomatch heq]
    simp [isReceived]
  · obtain ⟨⟨progress, socket⟩, hread, heq⟩ := Option.map_eq_some_iff.mp hexec
    cases heq
    rw [← Socket.queue_of_line hread]
    simp [isReceived]
  · obtain ⟨⟨progress, socket⟩, hread, heq⟩ := Option.map_eq_some_iff.mp hexec
    cases heq
    have hlength := Socket.queue_of_received hread hsize
    show 1 + socket.queue.length ≤ _
    omega

/-- What has been received since was in the queue. -/
theorem receives_le (hsize : 0 < size) (hreach : (machine size).Reaches ((silently size).only 0) c c') :
    receives (since c c') + c'.state.socket.queue.length ≤ c.state.socket.queue.length := by
  induction hreach with
  | refl =>
    rw [since_self]
    exact Nat.le_of_eq (Nat.zero_add _)
  | @step c' c'' e hreach hstep ih =>
    have hqueue := queue_step hsize hstep
    rw [since_step hreach hstep, receives, countP_append_singleton]
    rw [receives] at ih
    omega

/-- The pauses of a session. -/
theorem paced_session (hrun : Sessions size floats decimal timeout timeoutOutput n queue c) :
    Paced longest c.view := by
  have hany : (machine size).Reaches (anyStep.only 0)
      (start (session floats decimal timeout timeoutOutput n) ⟨queue, [], false⟩) c :=
    hrun.weaken fun _ _ _ _ hguard => ⟨hguard.1, trivial⟩
  have hspec := Spec.reaches (timely_session timeout timeoutOutput queue) hany
  cases hprog : c.programs 0 with
  | ret value =>
    rw [hprog] at hspec
    exact hspec
  | fail error =>
    rw [hprog] at hspec
    exact hspec
  | act action rest =>
    rw [hprog] at hspec
    exact hspec.1

/-- The calls since, in terms of those on the connection. -/
theorem calls_le (hrun : Sessions size floats decimal timeout timeoutOutput n queue c)
    (hreach : (machine size).Reaches ((keepsApart size).only 0) c c') (hquits : ¬Quits c'.trace) :
    (since c c').length ≤ (longest + 1) * touched (since c c') + pause c'.trace := by
  induction hreach with
  | refl =>
    rw [since_self]
    exact Nat.zero_le _
  | @step c' c'' e hreach hstep ih =>
    have hquits' : ¬Quits c'.trace := by
      rintro ⟨e', he', hquit⟩
      apply hquits
      rw [hstep.trace_eq]
      exact ⟨e', List.mem_append_left _ he', hquit⟩
    have hpause : pause c'.trace ≤ longest :=
      (paced_session (hrun.trans hreach)).resolve_left hquits'
    have hle := ih hquits'
    rw [since_step hreach hstep, hstep.trace_eq, pause_append, touched, countP_append_singleton,
      List.length_append, List.length_singleton]
    rw [touched] at hle
    cases touches e with
    | true =>
      simp only [if_true, Nat.mul_add]
      omega
    | false =>
      simp only [Bool.false_eq_true, if_false, Nat.add_zero]
      omega

/-- A session with a silent client, whose process is not known to have ended, asks again and again. -/
theorem asks_ge (hsize : 0 < size)
    (hrun : Sessions size floats decimal timeout timeoutOutput n queue c)
    (hreach : (machine size).Reaches ((silently size).only 0) c c') (hquits : ¬Quits c'.trace)
    {k : Nat} (hlength : (longest + 1) * (2 * k + 2 + c.state.socket.queue.length) ≤
      (since c c').length) : k < asks (since c c') := by
  have happart := apart_of_attends (attends_of_silently hreach)
  have hcalls := calls_le hrun happart hquits
  have hlines := (lines_le hrun happart).1
  have hreceives := receives_le hsize hreach
  have hpause : pause c'.trace ≤ longest :=
    (paced_session (hrun.trans happart)).resolve_left hquits
  rw [touched_eq] at hcalls
  by_contra hasks
  have htouched : asks (since c c') + (linesRead (since c c')).length + receives (since c c') ≤
      2 * k + 1 + c.state.socket.queue.length := by omega
  have hmul := Nat.mul_le_mul_left (longest + 1) htouched
  simp only [longest] at *
  omega

/-! ## Sessions -/

/-- What a session knows, at any time, of the socket and of the cancellation. -/
theorem settled_session (hrun : Sessions size floats decimal timeout timeoutOutput n queue c) :
    (¬Receiving c.trace → c.state.socket.Clear) ∧
      ∀ code, c.programs 0 = .ret code → Cancelled floats decimal c.trace → code = 130 := by
  have hspec := Spec.reaches (spec_session timeout timeoutOutput n queue) hrun
  cases hprog : c.programs 0 with
  | ret value =>
    rw [hprog] at hspec
    refine ⟨fun _ => hspec.1.clear, fun code heq hcancelled => ?_⟩
    cases heq
    exact hspec.2 hcancelled
  | fail error =>
    rw [hprog] at hspec
    exact ⟨fun _ => hspec.clear, fun code heq => nomatch heq⟩
  | act action rest =>
    rw [hprog] at hspec
    exact ⟨hspec.1.1, fun code heq => nomatch heq⟩

/-- A session that reads does not wait while there is a complete line. -/
theorem not_blocked {rest : Socket.Progress → Run Int} (hprog : c.programs 0 = .act .readline rest)
    (hwaiting : waiting c ≠ []) : ∃ e c', (machine size).Step (anyStep.only 0) e c c' := by
  have hready : (c.state.socket.readline size).isSome = true := Socket.readline_isSome hwaiting
  obtain ⟨⟨progress, socket⟩, hread⟩ := Option.isSome_iff_exists.mp hready
  let choice : Choice := quietly .success
  have hmoved : (c.state.moved choice).socket = c.state.socket := by
    show c.state.socket.deliver [] = c.state.socket
    rw [Socket.deliver]
    split
    · rfl
    · rw [List.append_nil]
  refine ⟨⟨0, .readline, progress⟩, _, rest, choice,
    { c.state.moved choice with socket := socket }, hprog, ⟨rfl, trivial⟩, ?_, rfl⟩
  show ((c.state.moved choice).socket.readline size).map _ = _
  rw [hmoved, hread]
  rfl

/-- A line that waits is read in its turn. -/
theorem read_of_asks {frame : Str} {i : Nat}
    (hrun : Sessions size floats decimal timeout timeoutOutput n queue c)
    (hreach : (machine size).Reaches ((keepsApart size).only 0) c c')
    (hframe : (waiting c)[i]? = some frame) (hasks : i + 1 < asks (since c c')) :
    (linesRead (since c c'))[i]? = some frame := by
  have hlength : i < (waiting c).length := (List.getElem?_eq_some_iff.mp hframe).1
  have hread := (asked hrun hreach).1
  have hi : i < (linesRead (since c c')).length := by omega
  obtain ⟨tail, htail⟩ := waiting_prefix hrun hreach
  rw [← List.getElem?_append_left hi, ← htail, List.getElem?_append_left hlength]
  exact hframe

/-- What is owed to a silent client is read in time, whether the process ends meanwhile or not. -/
theorem read_in_silence (hsize : 0 < size) {frame : Str} {i : Nat}
    (hrun : Attended size floats decimal timeout timeoutOutput n queue c)
    (hreach : (machine size).Reaches ((silently size).only 0) c c')
    (hframe : c.state.owed[i]? = some frame)
    (hlength : (longest + 1) * (2 * i + 4 + c.state.socket.queue.length) ≤ (since c c').length) :
    (linesRead (since c c'))[i]? = some frame := by
  have hattends := attends_of_silently hreach
  have happart := apart_of_attends hrun
  by_cases hquits : Quits c'.trace
  · exact read_of_owed hattends (paid_of_quitted rfl (hrun.trans hattends) hquits).2 hframe
  · have hwaiting : (waiting c)[i]? = some frame := by
      obtain ⟨tail, htail⟩ := c.state.owed_prefix
      have hi : i < c.state.owed.length := (List.getElem?_eq_some_iff.mp hframe).1
      rw [waiting, ← htail, List.getElem?_append_left hi]
      exact hframe
    apply read_of_asks happart (apart_of_attends hattends) hwaiting
    exact asks_ge hsize happart hreach hquits (by rwa [show 2 * (i + 1) + 2 = 2 * i + 4 by omega])

/-- When a session that has started its process ends, nothing is owed. -/
theorem owed_of_ended (hrun : Attended size floats decimal timeout timeoutOutput n queue c)
    (hended : Ended c) (hstarted : c.state.child ≠ .absent) :
    c.state.owed = [] := by
  have hany : Executes size (session floats decimal timeout timeoutOutput n) ⟨queue, [], false⟩ c :=
    hrun.weaken fun _ _ _ _ hguard => ⟨hguard.1, trivial⟩
  have hspec := Spec.reaches (closed_session timeout timeoutOutput queue) hany
  have hclosed : Closed c.view := by
    rcases spec_of_ended hspec hended with ⟨_, hclosed⟩ | ⟨_, hclosed⟩
    · exact hclosed
    · exact hclosed
  exact owed_of_cleaned rfl hrun (hclosed.resolve_left hstarted)

end

def exampleRequest : Str := str "\x7b\"op\":\"run\"\x7d\n"

def exampleInput : Str := str "\x7b\"type\":\"input\",\"data\":\"bHM=\"\x7d\n"

def exampleCancel : Str := str "\x7b\"type\":\"cancel\"\x7d\n"

/-- The request is read, and the process is started. -/
def started : List Choice :=
  [.success, .success, .path (str "0.cid"), .success, .success, .failure].map quietly

/-- The client sends an input and a cancellation at once, and then waits. -/
def sentTogether : List Choice :=
  started ++ [⟨none, exampleInput ++ exampleCancel, false, .success⟩] ++
    [.success, .success, .success, .success, .failure, .success].map quietly

instance (size : Nat) (s : Socket) : Decidable (s.Apart size) :=
  inferInstanceAs (Decidable (_ → _ → _))

/-- `attends`, as a test. -/
def isAttended (size : Nat) (v : Seen) (i : Nat) (action : Action) (choice : Choice) : Bool :=
  i == 0 && (match action with
    | .readline => decide ((v.state.moved choice).socket.Apart size)
    | _ => true) &&
    (!ends (v.state.moved choice) action || decide ((v.state.moved choice).owed = []))

/-- The client sends an input, and the process ends when it has been typed. -/
def sentInTime : List Choice × List Choice :=
  (started ++ [⟨none, exampleInput, false, .success⟩],
    [.success, .success, .success].map quietly ++ [⟨some 0, [], false, .success⟩] ++
      [.failure, .success, .success, .success].map quietly)

end AgentDev.Runtime
