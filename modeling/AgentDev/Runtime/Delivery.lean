import AgentDev.Runtime.Invariants
import AgentDev.Runtime.RpcIO
import AgentDev.Runtime.Termination

/-!
# Whether controls are received

The broker waits for the socket, and reads through a buffer. A line that has come into the buffer
together with an earlier one is seen by nobody until the client sends something else. As long as every
receive that empties the queue of the kernel leaves at most one complete line with the reader (`Apart`),
there is no such line, and every frame is received and obeyed in its turn.
-/

namespace AgentDev.Runtime

open Interleaving Python

abbrev Trace := List (Event Action.Reply)

/-! ## What a trace tells -/

/-- The line that a call has returned. -/
def lineOf : Event Action.Reply → Option Str
  | ⟨_, .readline, .line text⟩ => some text
  | _ => none

def linesRead (trace : Trace) : List Str := trace.filterMap lineOf

/-- Whether the call is followed by `readline`. -/
def opens : Event Action.Reply → Bool
  | ⟨_, .selectConn, true⟩ => true
  | ⟨_, .readline, .received⟩ => true
  | _ => false

/-- A line is being read. At first it is the line of the request. -/
def Receiving (trace : Trace) : Prop := ∀ e ∈ trace.getLast?, opens e = true

def isAsk (e : Event Action.Reply) : Bool :=
  match e.action with
  | .selectConn => true
  | _ => false

def isReceived : Event Action.Reply → Bool
  | ⟨_, .readline, .received⟩ => true
  | _ => false

/-- How often it has been asked whether there is something to read. -/
def asks (trace : Trace) : Nat := trace.countP isAsk

/-- The call that a control is obeyed with; a cancellation begins with the question whether the
process has ended. -/
def Control.action : Control → Action
  | .input data => .writeMaster data
  | .resize rows cols => .setWinsize rows cols
  | .cancel => .poll

section

variable (floats : Json.FloatText) (decimal : CodePoint → Option Nat)

/-- A control has just been read. The first line is the request. -/
def Due (trace : Trace) (control : Control) : Prop :=
  ∃ text, trace.getLast?.bind lineOf = some text ∧ 2 ≤ (linesRead trace).length ∧
    frameControl floats decimal text = .ok (some control)

/-- A cancellation has been read. -/
def Cancelled (trace : Trace) : Prop :=
  ∃ text ∈ (linesRead trace).tail, frameControl floats decimal text = .ok (some .cancel)

end

/-- A receive that empties the queue of the kernel leaves at most one complete line with the reader. -/
def keepsApart (size : Nat) : Guard Action.Reply World Choice :=
  fun v _ action choice => action = .readline → (v.state.moved choice).socket.Apart size

/-- An event that is about no line. -/
def Mute (e : Event Action.Reply) : Prop := opens e = false ∧ lineOf e = none

theorem event_cases (e : Event Action.Reply) :
    (e.action ≠ .readline ∧ Mute e ∧ isAsk e = false ∧ isReceived e = false) ∨
      (∃ thread ready, e = ⟨thread, .selectConn, ready⟩) ∨
      (∃ thread text, e = ⟨thread, .readline, .line text⟩) ∨
      ∃ thread, e = ⟨thread, .readline, .received⟩ := by
  obtain ⟨thread, action, reply⟩ := e
  cases action with
  | selectConn => exact Or.inr (Or.inl ⟨thread, reply, rfl⟩)
  | readline =>
    cases reply with
    | line text => exact Or.inr (Or.inr (Or.inl ⟨thread, text, rfl⟩))
    | received => exact Or.inr (Or.inr (Or.inr ⟨thread, rfl⟩))
  | _ => exact Or.inl ⟨fun heq => (nomatch heq), ⟨rfl, rfl⟩, rfl, rfl⟩

/-! ## One more event -/

section

variable {trace : Trace} {e : Event Action.Reply}

theorem linesRead_append : linesRead (trace ++ [e]) = linesRead trace ++ (lineOf e).toList := by
  rw [linesRead, List.filterMap_append]
  cases h : lineOf e with
  | none => simp [h, linesRead]
  | some text => simp [h, linesRead]

theorem receiving_append : Receiving (trace ++ [e]) ↔ opens e = true := by
  simp [Receiving]

theorem asks_append : asks (trace ++ [e]) = asks trace + if isAsk e then 1 else 0 := by
  simp [asks, List.countP_append, List.countP_cons]

variable {floats : Json.FloatText} {decimal : CodePoint → Option Nat} {control : Control}

theorem due_append : Due floats decimal (trace ++ [e]) control ↔ ∃ text, lineOf e = some text ∧
    1 ≤ (linesRead trace).length ∧ frameControl floats decimal text = .ok (some control) := by
  constructor
  · rintro ⟨text, htext, hlength, hcontrol⟩
    have hline : lineOf e = some text := by simpa using htext
    rw [linesRead_append, hline, List.length_append] at hlength
    exact ⟨text, hline, Nat.le_of_succ_le_succ hlength, hcontrol⟩
  · rintro ⟨text, hline, hlength, hcontrol⟩
    refine ⟨text, by simpa using hline, ?_, hcontrol⟩
    rw [linesRead_append, hline, List.length_append]
    exact Nat.succ_le_succ hlength

/-- An event that is no line leaves nothing due, and cancels nothing. -/
theorem not_due_append (hline : lineOf e = none) : ¬Due floats decimal (trace ++ [e]) control := by
  intro h
  obtain ⟨text, htext, -⟩ := due_append.mp h
  cases hline.symm.trans htext

theorem cancelled_append (hline : lineOf e = none) :
    Cancelled floats decimal (trace ++ [e]) ↔ Cancelled floats decimal trace := by
  rw [Cancelled, Cancelled, linesRead_append, hline, Option.toList_none, List.append_nil]

theorem cancelled_line {text : Str} (hline : lineOf e = some text)
    (hread : 1 ≤ (linesRead trace).length) : Cancelled floats decimal (trace ++ [e]) ↔
      Cancelled floats decimal trace ∨ frameControl floats decimal text = .ok (some .cancel) := by
  have hne : linesRead trace ≠ [] := List.length_pos_iff.mp hread
  rw [Cancelled, Cancelled, linesRead_append, hline, Option.toList_some,
    List.tail_append_of_ne_nil hne]
  simp [or_and_right, exists_or]

end

/-! ## What the calls do to the socket -/

section

variable {size : Nat} {v v' : Seen} {action : Action} {reply : action.Reply}

/-- The effects of the calls in the environments that are meant. -/
def apartCalls (size : Nat) : Effects Action.Reply Seen := (machine size).alone (keepsApart size) 0

theorem apartCalls_cases (h : apartCalls size v action reply v') :
    ∃ (choice : Choice) (world : World), keepsApart size v 0 action choice ∧
      action.call size (v.state.moved choice) choice.answer = some (reply, world) ∧
      v' = v.after world ⟨0, action, reply⟩ := h

theorem mute_own (haction : action.own = true) : Mute ⟨0, action, reply⟩ := by
  cases action <;> first | exact ⟨rfl, rfl⟩ | cases haction

theorem Mute.ne_readline (h : Mute ⟨0, action, reply⟩) : action ≠ .readline := by
  rintro rfl
  cases reply with
  | line text => cases h.2
  | received => cases h.1

/-- Only `readline` takes something from the socket. -/
theorem call_socket {world world' : World} {answer : Answer}
    (h : action.call size world answer = some (reply, world')) (haction : action ≠ .readline) :
    world'.socket = world.socket := by
  cases action with
  | readline => exact absurd rfl haction
  | openpty | selectMaster | writeMaster | setWinsize | cleanupInteractiveContainer | writeOutput
  | send =>
    obtain ⟨ok, -, heq⟩ := Option.map_eq_some_iff.mp h
    cases heq
    rfl
  | popen | monotonic | readMaster | readStdout | receiveControl | newInteractiveCidfile =>
    simp only [Action.call] at h
    split at h <;> cases h <;> rfl
  | poll | selectConn | acquire | release =>
    cases h
    rfl
  | wait timeout =>
    simp only [Action.call] at h
    split at h
    · cases h
    · cases h
      rfl
  | killpg signal =>
    cases hchild : world.child with
    | running =>
      simp only [Action.call, hchild] at h
      cases h
      split <;> rfl
    | absent | exited =>
      simp only [Action.call, hchild] at h
      obtain ⟨ok, -, heq⟩ := Option.map_eq_some_iff.mp h
      cases heq
      rfl
  | unfinished => cases h

theorem socket_moved (world : World) (choice : Choice) :
    (world.moved choice).socket.buffer = world.socket.buffer ∧
      ((world.moved choice).socket.queue = [] → world.socket.queue = []) ∧
      world.socket.pending <+: (world.moved choice).socket.pending := by
  have hdeliver := Socket.buffer_deliver (s := world.socket) choice.text
  have hqueue : (world.socket.deliver choice.text).queue = [] → world.socket.queue = [] :=
    Socket.queue_deliver
  have hpending := Socket.pending_deliver (s := world.socket) choice.text
  cases hangup : choice.hangup <;> simp only [World.moved, hangup] <;>
    exact ⟨hdeliver, hqueue, hpending⟩

theorem clear_moved {world : World} (h : world.socket.Clear) (choice : Choice) :
    (world.moved choice).socket.Clear := by
  obtain ⟨hbuffer, hqueue, -⟩ := socket_moved world choice
  intro hempty
  rw [hbuffer]
  exact h (hqueue hempty)

theorem single_moved {world : World} (h : world.socket.Single) (choice : Choice) :
    (world.moved choice).socket.Single := by
  obtain ⟨hbuffer, hqueue, -⟩ := socket_moved world choice
  intro hempty
  rw [hbuffer]
  exact h (hqueue hempty)

theorem clear_kept (h : apartCalls size v action reply v') (haction : action ≠ .readline)
    (hclear : v.state.socket.Clear) : v'.state.socket.Clear := by
  obtain ⟨choice, world, -, hcall, rfl⟩ := apartCalls_cases h
  show world.socket.Clear
  rw [call_socket hcall haction]
  exact clear_moved hclear choice

end

/-! ## Invariants -/

section

variable (floats : Json.FloatText) (decimal : CodePoint → Option Nat)

/-- The calls of an execution that overlooks nothing. -/
structure Proper (v : Seen) (action : Action) : Prop where
  receiving : action = .readline ↔ Receiving v.trace
  clear : action ≠ .readline → v.state.socket.Clear
  single : action = .readline → v.state.socket.Single
  due : ∀ control, Due floats decimal v.trace control → action = control.action
  cancelled : Cancelled floats decimal v.trace → action.own = true

/-- What is allowed; `unfinished` never happens. -/
def Minds (v : Seen) (action : Action) : Prop :=
  (¬Receiving v.trace → v.state.socket.Clear) ∧
    (action ≠ .unfinished → Proper floats decimal v action)

/-- No line is being read. -/
structure Settled (v : Seen) : Prop where
  receiving : ¬Receiving v.trace
  clear : v.state.socket.Clear
  read : 1 ≤ (linesRead v.trace).length

/-- Nothing is due, and whether the execution has been cancelled. -/
structure Idle (cancelled : Prop) (v : Seen) : Prop extends Settled v where
  due : ∀ control, ¬Due floats decimal v.trace control
  cancelled : Cancelled floats decimal v.trace ↔ cancelled

/-- A line is being read, after some others. -/
structure Reads (count : Nat) (v : Seen) : Prop where
  receiving : Receiving v.trace
  single : v.state.socket.Single
  read : (linesRead v.trace).length = count
  due : ∀ control, ¬Due floats decimal v.trace control
  cancelled : ¬Cancelled floats decimal v.trace

/-- A line has been read. -/
structure HasRead (count : Nat) (text : Str) (v : Seen) : Prop extends Settled v where
  line : ∃ before, v.trace = before ++ [⟨0, .readline, .line text⟩] ∧
    (linesRead before).length = count ∧ ¬Cancelled floats decimal before

/-- What `receive_control` returns. -/
def Received (control : Option Control) (v : Seen) : Prop :=
  match control with
  | none => Idle floats decimal False v
  | some control => ∃ count text, 1 ≤ count ∧ HasRead floats decimal count text v ∧
      frameControl floats decimal text = .ok (some control)

end

section

variable {size : Nat} {floats : Json.FloatText} {decimal : CodePoint → Option Nat} {v v' : Seen}
  {action : Action} {reply : action.Reply}

theorem settled_kept (h : apartCalls size v action reply v') (hmute : Mute ⟨0, action, reply⟩)
    (hv : Settled v) : Settled v' := by
  have hclear := clear_kept h hmute.ne_readline hv.clear
  obtain ⟨choice, world, -, -, rfl⟩ := apartCalls_cases h
  refine ⟨fun hreceiving => ?_, hclear, ?_⟩
  · rw [View.after, receiving_append, hmute.1] at hreceiving
    cases hreceiving
  · rw [View.after, linesRead_append, hmute.2, List.length_append]
    exact Nat.le_add_right_of_le hv.read

/-- After a call that is about no line nothing is due. -/
theorem mute_kept (h : apartCalls size v action reply v') (hmute : Mute ⟨0, action, reply⟩) :
    (∀ control, ¬Due floats decimal v'.trace control) ∧
      (Cancelled floats decimal v'.trace ↔ Cancelled floats decimal v.trace) := by
  obtain ⟨choice, world, -, -, rfl⟩ := apartCalls_cases h
  exact ⟨fun _ => not_due_append hmute.2, cancelled_append hmute.2⟩

theorem idle_kept {cancelled : Prop} (h : apartCalls size v action reply v')
    (hmute : Mute ⟨0, action, reply⟩) (hv : Idle floats decimal cancelled v) :
    Idle floats decimal cancelled v' := by
  have hafter : (∀ control, ¬Due floats decimal v'.trace control) ∧
      (Cancelled floats decimal v'.trace ↔ Cancelled floats decimal v.trace) := mute_kept h hmute
  exact ⟨settled_kept h hmute hv.toSettled, hafter.1, hafter.2.trans hv.cancelled⟩

theorem ne_readline_of_own (haction : action.own = true) : action ≠ .readline := by
  rintro rfl
  cases haction

theorem Settled.proper (hv : Settled v) (haction : action ≠ .readline)
    (hdue : ∀ control, Due floats decimal v.trace control → action = control.action)
    (hcancelled : Cancelled floats decimal v.trace → action.own = true) :
    Proper floats decimal v action where
  receiving := ⟨fun heq => absurd heq haction, fun h => absurd h hv.receiving⟩
  clear _ := hv.clear
  single heq := absurd heq haction
  due := hdue
  cancelled := hcancelled

theorem keeps_idle {cancelled : Prop} :
    Keeps (apartCalls size) (Minds floats decimal) (Idle floats decimal cancelled) where
  allowed _ _ hv haction := ⟨fun _ => hv.clear, fun _ => hv.toSettled.proper
    (ne_readline_of_own haction) (fun control hdue => absurd hdue (hv.due control)) fun _ => haction⟩
  kept _ _ _ _ hv haction h := idle_kept h (mute_own haction) hv

/-! ## Reading a line -/

theorem reads_received {count : Nat} (h : apartCalls size v .readline .received v')
    (hv : Reads floats decimal count v) : Reads floats decimal count v' := by
  obtain ⟨choice, world, hapart, hcall, rfl⟩ := apartCalls_cases h
  obtain ⟨⟨progress, socket⟩, hread, heq⟩ := Option.map_eq_some_iff.mp hcall
  cases heq
  have hline : lineOf ⟨0, .readline, .received⟩ = none := rfl
  refine ⟨receiving_append.mpr rfl, Socket.single_of_received hread (hapart rfl), ?_,
    fun control => not_due_append hline, fun hc => hv.cancelled ((cancelled_append hline).mp hc)⟩
  rw [View.after, linesRead_append, hline, Option.toList_none, List.append_nil]
  exact hv.read

theorem hasRead_line {count : Nat} {text : Str} (h : apartCalls size v .readline (.line text) v')
    (hv : Reads floats decimal count v) : HasRead floats decimal count text v' := by
  obtain ⟨choice, world, -, hcall, rfl⟩ := apartCalls_cases h
  obtain ⟨⟨progress, socket⟩, hread, heq⟩ := Option.map_eq_some_iff.mp hcall
  cases heq
  refine ⟨⟨fun hreceiving => (nomatch receiving_append.mp hreceiving),
    Socket.clear_of_line hread (single_moved hv.single choice), ?_⟩,
    ⟨v.trace, rfl, hv.read, hv.cancelled⟩⟩
  rw [View.after, linesRead_append]
  simp [lineOf]

theorem Reads.proper {count : Nat} (hv : Reads floats decimal count v) :
    Proper floats decimal v .readline where
  receiving := ⟨fun _ => hv.receiving, fun _ => rfl⟩
  clear hne := absurd rfl hne
  single _ := hv.single
  due control hdue := absurd hdue (hv.due control)
  cancelled hcancelled := absurd hcancelled hv.cancelled

theorem spec_readLine {count : Nat} (n : Nat) (hv : Reads floats decimal count v) :
    Spec (apartCalls size) (Minds floats decimal) (HasRead floats decimal count) (fun _ _ => False)
      v (readLine n) := by
  apply Spec.rounds (I := Reads floats decimal count) _ _ n hv
  · intro v hv
    exact ⟨⟨fun hnot => absurd hv.receiving hnot, fun hne => absurd rfl hne⟩,
      fun reply => (nomatch reply)⟩
  · intro v hv
    refine ⟨⟨fun hnot => absurd hv.receiving hnot, fun _ => hv.proper⟩, fun progress v' hcall => ?_⟩
    cases progress with
    | line text => exact hasRead_line hcall hv
    | received => exact reads_received hcall hv

/-! ## Obeying a control -/

section

variable {count : Nat} {text : Str}

theorem HasRead.due (hv : HasRead floats decimal count text v) {control : Control}
    (hdue : Due floats decimal v.trace control) :
    frameControl floats decimal text = .ok (some control) := by
  obtain ⟨before, htrace, -⟩ := hv.line
  rw [htrace] at hdue
  obtain ⟨text', htext, -, hcontrol⟩ := due_append.mp hdue
  cases htext
  exact hcontrol

theorem HasRead.cancelled (hv : HasRead floats decimal count text v) (hcount : 1 ≤ count) :
    Cancelled floats decimal v.trace ↔ frameControl floats decimal text = .ok (some .cancel) := by
  obtain ⟨before, htrace, hread, hnot⟩ := hv.line
  rw [htrace, cancelled_line rfl (hread ▸ hcount)]
  exact or_iff_right hnot

/-- A line without a control asks for nothing. -/
theorem HasRead.idle (hv : HasRead floats decimal count text v) (hcount : 1 ≤ count)
    (hnone : ∀ control, frameControl floats decimal text ≠ .ok (some control)) :
    Idle floats decimal False v := by
  refine ⟨hv.toSettled, fun control hdue => hnone control (hv.due hdue), ?_⟩
  exact (hv.cancelled hcount).trans (iff_false_intro (hnone .cancel))

theorem own_action (control : Control) : control.action.own = true := by
  cases control <;> rfl

/-- The call that a control is obeyed with. -/
theorem HasRead.proper {control : Control} (hv : HasRead floats decimal count text v)
    (hcontrol : frameControl floats decimal text = .ok (some control)) :
    Minds floats decimal v control.action := by
  refine ⟨fun _ => hv.clear, fun _ => ?_⟩
  apply hv.toSettled.proper (ne_readline_of_own (own_action control))
  · intro control' hdue
    cases (hv.due hdue).symm.trans hcontrol
    rfl
  · exact fun _ => own_action control

theorem HasRead.obeyed {control : Control} {reply : control.action.Reply}
    (hv : HasRead floats decimal count text v) (hcount : 1 ≤ count)
    (hcontrol : frameControl floats decimal text = .ok (some control))
    (h : apartCalls size v control.action reply v') :
    Idle floats decimal (control = .cancel) v' := by
  have hmute : Mute ⟨0, control.action, reply⟩ := mute_own (own_action control)
  have hafter : (∀ control, ¬Due floats decimal v'.trace control) ∧
      (Cancelled floats decimal v'.trace ↔ Cancelled floats decimal v.trace) := mute_kept h hmute
  refine ⟨settled_kept h hmute hv.toSettled, hafter.1, hafter.2.trans ?_⟩
  rw [hv.cancelled hcount, hcontrol]
  simp

theorem spec_obey {control : Control} (hv : HasRead floats decimal count text v)
    (hcount : 1 ≤ count) (hcontrol : frameControl floats decimal text = .ok (some control)) :
    Spec (apartCalls size) (Minds floats decimal)
      (fun cancelled v => if cancelled then Idle floats decimal True v else Idle floats decimal False v)
      (fun _ v => Idle floats decimal False v ∨ Idle floats decimal True v) v (obey control) := by
  have hproper := hv.proper hcontrol
  cases control with
  | input data =>
    refine ⟨hproper, fun reply v' hcall => ?_⟩
    have hidle : Idle floats decimal False v' := by simpa using hv.obeyed hcount hcontrol hcall
    exact hidle
  | resize rows cols =>
    refine ⟨hproper, fun reply v' hcall => ?_⟩
    have hidle : Idle floats decimal False v' := by simpa using hv.obeyed hcount hcontrol hcall
    exact hidle
  | cancel =>
    refine ⟨hproper, fun reply v' hcall => ?_⟩
    have hidle : Idle floats decimal True v' := by simpa using hv.obeyed hcount hcontrol hcall
    have hkeeps : Keeps (apartCalls size) (Minds floats decimal) (Idle floats decimal True) :=
      keeps_idle
    have hrest := hkeeps.owns (owns_terminate.2 reply) hidle
    exact Spec.bind (hrest.mono (fun _ _ h => h) fun _ _ h => Or.inr h) fun _ _ h => h

end

/-! ## The connection -/

/-- When the socket is readable, a line is read. -/
theorem reads_of_ask (h : apartCalls size v .selectConn true v') (hv : Idle floats decimal False v) :
    Reads floats decimal (linesRead v.trace).length v' := by
  have hclear := clear_kept h (fun heq => nomatch heq) hv.clear
  obtain ⟨choice, world, -, -, rfl⟩ := apartCalls_cases h
  have hline : lineOf ⟨0, .selectConn, true⟩ = none := rfl
  refine ⟨receiving_append.mpr rfl, fun hqueue => ?_, ?_, fun control => not_due_append hline,
    fun hc => hv.cancelled.mp ((cancelled_append hline).mp hc)⟩
  · have hnil : frames world.socket.buffer = [] := hclear hqueue
    show (frames world.socket.buffer).length ≤ 1
    rw [hnil]
    exact Nat.zero_le 1
  · rw [View.after, linesRead_append, hline, Option.toList_none, List.append_nil]

theorem Idle.proper (hv : Idle floats decimal False v) (haction : action ≠ .readline) :
    Minds floats decimal v action :=
  ⟨fun _ => hv.clear, fun _ => hv.toSettled.proper haction
    (fun control hdue => absurd hdue (hv.due control)) fun hc => (hv.cancelled.mp hc).elim⟩

theorem spec_receiveControl (size n : Nat) (hv : Idle floats decimal False v) :
    Spec (apartCalls size) (Minds floats decimal) (Received floats decimal)
      (fun _ => Idle floats decimal False) v (receiveControl floats decimal true n) := by
  refine ⟨hv.proper fun heq => (nomatch heq), fun ready v' hcall => ?_⟩
  cases ready with
  | false => exact idle_kept hcall ⟨rfl, rfl⟩ hv
  | true =>
    have hread : Spec (apartCalls size) (Minds floats decimal) _ (fun _ _ => False) v' (readLine n) :=
      spec_readLine n (reads_of_ask hcall hv)
    show Spec _ _ _ _ v' (readLine n >>= answered floats decimal)
    refine Spec.bind (hread.mono (fun _ _ h => h) fun _ _ h => h.elim) fun text v hline => ?_
    unfold answered
    cases hcontrol : frameControl floats decimal text with
    | error error =>
      apply hline.idle hv.read
      intro control heq
      cases hcontrol.symm.trans heq
    | ok control =>
      cases control with
      | none =>
        apply hline.idle hv.read
        intro control heq
        cases hcontrol.symm.trans heq
      | some control => exact ⟨_, text, hv.read, hline, hcontrol⟩

theorem keeps_rpc (n : Nat) : (rpcRuntimeIo floats decimal true n).Keeps (apartCalls size)
    (Minds floats decimal) (Idle floats decimal False) (Idle floats decimal True) where
  writeOutput v data hv := by
    show Safe (apartCalls size) _ _ v (if data = [] then return () else
      check (.writeOutput data) id (.internal "sendall"))
    split
    · exact hv
    · refine ⟨hv.proper fun heq => (nomatch heq), fun sent v' hcall => ?_⟩
      have hidle : Idle floats decimal False v' := idle_kept hcall ⟨rfl, rfl⟩ hv
      cases sent <;> exact hidle
  obeyNext v hv := by
    have hreceive := spec_receiveControl size n hv
    refine Spec.bind (hreceive.mono (fun _ _ h => h) fun _ _ h => Or.inl h) fun control v h => ?_
    cases control with
    | none => exact h
    | some control =>
      obtain ⟨count, text, hcount, hline, hcontrol⟩ := h
      exact spec_obey hline hcount hcontrol

/-- The first line is no control. -/
theorem HasRead.first {text : Str} (hv : HasRead floats decimal 0 text v) :
    Idle floats decimal False v := by
  obtain ⟨before, htrace, hread, -⟩ := hv.line
  refine ⟨hv.toSettled, fun control hdue => ?_, iff_false_intro fun hcancelled => ?_⟩
  · rw [htrace] at hdue
    obtain ⟨-, -, hlength, -⟩ := due_append.mp hdue
    omega
  · obtain ⟨text', htext, -⟩ := hcancelled
    rw [htrace, linesRead_append, List.length_eq_zero_iff.mp hread] at htext
    cases htext

theorem reads_start {α : Type} (program : Run α) (queue : Str) :
    Reads floats decimal 0 (start program ⟨queue, [], false⟩).view where
  receiving _ he := nomatch he
  single _ := Nat.zero_le 1
  read := rfl
  due _ hdue := by
    obtain ⟨text, htext, -⟩ := hdue
    cases htext
  cancelled hcancelled := by
    obtain ⟨text, htext, -⟩ := hcancelled
    cases htext

/-- A session overlooks nothing, obeys what it has read, and returns 130 once it has been cancelled. -/
theorem spec_session (timeout : Option Nat) (timeoutOutput : Bytes) (n : Nat) (queue : Str) :
    Spec (apartCalls size) (Minds floats decimal)
      (fun code v => Settled v ∧ (Cancelled floats decimal v.trace → code = 130))
      (fun _ => Settled)
      (start (session floats decimal timeout timeoutOutput n) ⟨queue, [], false⟩).view
      (session floats decimal timeout timeoutOutput n) := by
  have hread : Spec (apartCalls size) (Minds floats decimal) (HasRead floats decimal 0)
      (fun _ _ => False) _ (readLine n) :=
    spec_readLine n (reads_start (session floats decimal timeout timeoutOutput n) queue)
  refine Spec.bind (hread.mono (fun _ _ h => h) fun _ _ h => h.elim) fun text v hline => ?_
  refine (safe_podman keeps_idle keeps_idle (keeps_rpc n) true timeout timeoutOutput n
    hline.first).mono ?_ ?_
  · rintro code v (hv | ⟨hv, hcode⟩)
    · exact ⟨hv.toSettled, fun hcancelled => (hv.cancelled.mp hcancelled).elim⟩
    · exact ⟨hv.toSettled, fun _ => hcode⟩
  · rintro error v (hv | hv)
    · exact hv.toSettled
    · exact hv.toSettled

end

end AgentDev.Runtime
