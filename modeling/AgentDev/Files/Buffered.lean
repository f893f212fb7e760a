import AgentDev.Files.Publishing
import AgentDev.Interleaving.RelyGuarantee

/-!
# Writing through a buffer

A text file that is open for writing has a buffer. What it cannot hold is written at once; the rest
waits until the file is flushed. When a flush fails, the buffer keeps what has not been written, and
`close` tries again: the layer of text flushes and closes the layer of bytes also when that has failed,
and this one flushes and closes the file also when that has failed. So a program that gives up goes on
writing while it closes its file.

`Stages` are what is known while a file is written, and `Obeys` says that the system calls lead from
one stage to the next. Programs are verified with `put_spec`, `flush_spec` and `closeFile_spec` then.
-/

namespace Files

open Interleaving

variable {A : Type} {R : A → Type} {S C ε : Type}

/-- Where the next byte goes, and the bytes that wait. -/
structure Buffered where
  offset : Nat
  buffer : List UInt8

/-- The system calls on an open file, and the exception for what they report. -/
structure Output (R : A → Type) (ε : Type) where
  write : (offset : Nat) → List UInt8 → Program R ε (Except OsError Nat)
  close : Program R ε (Except OsError Unit)
  exception : OsError → ε

namespace Output

variable (out : Output R ε)

def raise : Except OsError Unit → Program R ε Unit
  | .ok () => .ret ()
  | .error error => .fail (out.exception error)

/-- The buffer is written by as many calls as it takes, until at most `size` bytes are left; `fuel`
bounds the calls. -/
def drain (size : Nat) : (fuel : Nat) → Buffered → Program R ε (Except OsError Unit × Buffered)
  | 0, file => .ret (.ok (), file)
  | fuel + 1, file =>
    if file.buffer.length ≤ size then .ret (.ok (), file)
    else
      (out.write file.offset file.buffer).bind fun reply =>
        match reply with
        | .ok count => drain size fuel ⟨file.offset + count, file.buffer.drop count⟩
        | .error error => .ret (.error error, file)

def flush (file : Buffered) : Program R ε (Except OsError Unit × Buffered) :=
  out.drain 0 file.buffer.length file

/-- `write(text)` on a new file with a buffer of `size` bytes. A text that does not fit in is dropped
when it cannot be written. -/
def put (size : Nat) (text : List UInt8) : Program R ε (Except OsError Unit × Buffered) :=
  (out.drain size text.length ⟨0, text⟩).bind fun (outcome, file) =>
    match outcome with
    | .ok () => .ret (.ok (), file)
    | .error error => .ret (.error error, ⟨file.offset, []⟩)

/-- A layer flushes, and closes the next one also when that fails. -/
def closeLayer (next : Buffered → Program R ε Unit) (file : Buffered) : Program R ε Unit :=
  (out.flush file).bind fun (outcome, file) => (out.raise outcome).ensuring (next file)

def closeDescriptor (_ : Buffered) : Program R ε Unit := out.close.bind out.raise

/-- `close()` of a text file. -/
def closeFile : Buffered → Program R ε Unit := out.closeLayer (out.closeLayer out.closeDescriptor)

end Output

/-! ## The stages of a file -/

/-- `working text` holds while `text` is what has been written and no call has failed, `broken` after a
call has failed; `done text` and `closed` when the file has been closed after the one or the other.
`cause` are the reasons for which calls fail. -/
structure Stages (R : A → Type) (S : Type) where
  working : List UInt8 → View R S → Prop
  broken : View R S → Prop
  done : List UInt8 → View R S → Prop
  closed : View R S → Prop
  cause : OsError → Prop

namespace Stages

variable (stages : Stages R S)

/-- Of `text` the buffer is left to be written. -/
def Left (text : List UInt8) (file : Buffered) (v : View R S) : Prop :=
  ∃ written, (written ++ file.buffer = text ∧ file.offset = written.length) ∧ stages.working written v

/-- After calls that should leave at most `size` bytes in the buffer. -/
def Outcome (size : Nat) (text : List UInt8) : Except OsError Unit × Buffered → View R S → Prop
  | (.ok (), file), v => file.buffer.length ≤ size ∧ stages.Left text file v
  | (.error error, _), v => stages.cause error ∧ stages.broken v

/-- After one `write` of `data`. -/
def Wrote (written data : List UInt8) : Except OsError Nat → View R S → Prop
  | .ok count, v => (0 < count ∧ count ≤ data.length) ∧ stages.working (written ++ data.take count) v
  | .error error, v => stages.cause error ∧ stages.broken v

/-- After `close`. -/
def Ended (text : List UInt8) : Except OsError Unit → View R S → Prop
  | .ok (), v => stages.done text v
  | .error error, v => stages.cause error ∧ stages.closed v

/-- A call that is made when another one has failed. -/
def Again {β : Type} (after : View R S → Prop) (reply : Except OsError β) (v : View R S) : Prop :=
  (∀ error, reply = .error error → stages.cause error) ∧ after v

/-- The exception of a file that has been closed. -/
def Raised (out : Output R ε) (error : ε) (v : View R S) : Prop :=
  (∃ cause, error = out.exception cause ∧ stages.cause cause) ∧ stages.closed v

variable {stages}

/-- A file with an empty buffer has the text. -/
theorem left_iff {text : List UInt8} {file : Buffered} (hempty : file.buffer = []) (v : View R S) :
    stages.Left text file v ↔ file.offset = text.length ∧ stages.working text v := by
  constructor
  · rintro ⟨written, ⟨rfl, hoffset⟩, hworking⟩
    rw [hempty, List.append_nil]
    exact ⟨hoffset, hworking⟩
  · rintro ⟨hoffset, hworking⟩
    exact ⟨text, ⟨by rw [hempty, List.append_nil], hoffset⟩, hworking⟩

section

variable {K : Contract R S} {i : Nat}

theorem wrote_stable (hworking : ∀ text, K.Stable i (stages.working text))
    (hbroken : K.Stable i stages.broken) (written data : List UInt8) (reply : Except OsError Nat) :
    K.Stable i (stages.Wrote written data reply) := by
  cases reply with
  | ok count => exact fun v v' hrely hv => ⟨hv.1, hworking _ v v' hrely hv.2⟩
  | error error => exact fun v v' hrely hv => ⟨hv.1, hbroken v v' hrely hv.2⟩

theorem ended_stable (hdone : ∀ text, K.Stable i (stages.done text)) (hclosed : K.Stable i stages.closed)
    (text : List UInt8) (reply : Except OsError Unit) : K.Stable i (stages.Ended text reply) := by
  cases reply with
  | ok => exact hdone text
  | error error => exact fun v v' hrely hv => ⟨hv.1, hclosed v v' hrely hv.2⟩

theorem again_stable {β : Type} {after : View R S → Prop} (hafter : K.Stable i after)
    (reply : Except OsError β) : K.Stable i (stages.Again after reply) :=
  fun v v' hrely hv => ⟨hv.1, hafter v v' hrely hv.2⟩

end

end Stages

variable (K : Contract R S) (M : Machine R S C) (guard : Guard R S C) (i : Nat)

/-- The calls on the file lead from one stage to the next, whatever the other threads do. -/
structure Stages.Obeys (stages : Stages R S) (out : Output R ε) (E : ε → View R S → Prop) : Prop where
  working : ∀ text, K.Stable i (stages.working text)
  broken : K.Stable i stages.broken
  done : ∀ text, K.Stable i (stages.done text)
  closed : K.Stable i stages.closed
  write : ∀ written data, K.Spec M guard i (stages.working written) (out.write written.length data)
    (stages.Wrote written data) E
  rewrite : ∀ offset data, K.Spec M guard i stages.broken (out.write offset data)
    (stages.Again stages.broken) E
  close : ∀ text, K.Spec M guard i (stages.working text) out.close (stages.Ended text) E
  abandon : K.Spec M guard i stages.broken out.close (stages.Again stages.closed) E
  raised : ∀ error v, stages.Raised out error v → E error v

namespace Stages.Obeys

variable {K M guard i} {stages : Stages R S} {out : Output R ε} {E : ε → View R S → Prop}
  {text : List UInt8} {file : Buffered}

theorem left (h : stages.Obeys K M guard i out E) : K.Stable i (stages.Left text file) := by
  rintro v v' hrely ⟨written, hwritten, hworking⟩
  exact ⟨written, hwritten, h.working written v v' hrely hworking⟩

theorem failed (h : stages.Obeys K M guard i out E) (p : Prop) :
    K.Stable i fun v => p ∧ stages.broken v :=
  fun v v' hrely hv => ⟨hv.1, h.broken v v' hrely hv.2⟩

/-! ## Writing -/

/-- The induction is on the calls that are left; each writes at least one byte. -/
theorem drain_spec (h : stages.Obeys K M guard i out E) {size fuel : Nat}
    (hfuel : file.buffer.length ≤ fuel) :
    K.Spec M guard i (stages.Left text file) (out.drain size fuel file) (stages.Outcome size text) E := by
  induction fuel generalizing file with
  | zero =>
    have hempty : file.buffer.length ≤ size := by omega
    exact .ret h.left fun v hv => ⟨hempty, hv⟩
  | succ fuel ih =>
    unfold Output.drain
    split
    · rename_i hsize
      exact .ret h.left fun v hv => ⟨hsize, hv⟩
    · rintro v ⟨written, ⟨htext, hoffset⟩, hworking⟩
      rw [hoffset]
      refine (h.write written file.buffer).bind (fun reply => ?_) v hworking
      cases reply with
      | ok count =>
        intro w hw
        obtain ⟨⟨hpos, hcount⟩, hw⟩ : (0 < count ∧ count ≤ file.buffer.length) ∧
          stages.working (written ++ file.buffer.take count) w := hw
        apply ih
        · show (file.buffer.drop count).length ≤ fuel
          rw [List.length_drop]
          omega
        · refine ⟨written ++ file.buffer.take count, ⟨?_, ?_⟩, hw⟩
          · rw [List.append_assoc, List.take_append_drop]
            exact htext
          · show written.length + count = _
            rw [List.length_append, List.length_take]
            omega
      | error error => exact .ret (h.failed _) fun w hw => hw

theorem flush_spec (h : stages.Obeys K M guard i out E) :
    K.Spec M guard i (stages.Left text file) (out.flush file) (stages.Outcome 0 text) E :=
  h.drain_spec (Nat.le_refl _)

/-- After a failure whatever is written keeps the file broken. -/
theorem drain_again (h : stages.Obeys K M guard i out E) {size fuel : Nat} :
    K.Spec M guard i stages.broken (out.drain size fuel file)
      (fun result => stages.Again stages.broken result.1) E := by
  have hok : ∀ file : Buffered, K.Spec M guard i stages.broken
      (.ret (.ok (), file) : Program R ε (Except OsError Unit × Buffered))
      (fun result => stages.Again stages.broken result.1) E :=
    fun file => .ret h.broken fun v hv => ⟨nofun, hv⟩
  induction fuel generalizing file with
  | zero => exact hok file
  | succ fuel ih =>
    unfold Output.drain
    split
    · exact hok file
    · refine (h.rewrite file.offset file.buffer).bind fun reply => ?_
      cases reply with
      | ok count => exact fun v hv => ih v hv.2
      | error error =>
        refine .ret (h.failed (∀ e, Except.error error = .error e → stages.cause e)) fun v hv => ⟨?_, hv.2⟩
        rintro e ⟨⟩
        exact hv.1 error rfl

theorem outcome (h : stages.Obeys K M guard i out E) (size : Nat) (text : List UInt8)
    (result : Except OsError Unit × Buffered) : K.Stable i (stages.Outcome size text result) := by
  obtain ⟨outcome, file⟩ := result
  cases outcome with
  | ok => exact fun v v' hrely hv => ⟨hv.1, h.left v v' hrely hv.2⟩
  | error error => exact h.failed _

theorem put_spec (h : stages.Obeys K M guard i out E) (size : Nat) :
    K.Spec M guard i (stages.working []) (out.put size text) (stages.Outcome size text) E := by
  have hdrain : K.Spec M guard i (stages.Left text ⟨0, text⟩) (out.drain size text.length ⟨0, text⟩)
      (stages.Outcome size text) E := h.drain_spec (Nat.le_refl _)
  refine Contract.Spec.bind (hdrain.weaken (fun v hv => ⟨[], ⟨rfl, rfl⟩, hv⟩) (fun _ _ hw => hw)
    fun _ _ hw => hw) fun result => ?_
  obtain ⟨outcome, file⟩ := result
  cases outcome with
  | ok => exact .ret (h.outcome size text _) fun v hv => hv
  | error error => exact .ret (h.outcome size text (.error error, file)) fun v hv => hv

/-! ## Closing -/

theorem shut (h : stages.Obeys K M guard i out E) (p : Prop) : K.Stable i fun v => p ∧ stages.closed v :=
  fun v v' hrely hv => ⟨hv.1, h.closed v v' hrely hv.2⟩

/-- A layer below is closed in the normal case with nothing left to write. -/
structure Closes (K : Contract R S) (M : Machine R S C) (guard : Guard R S C) (i : Nat)
    (stages : Stages R S) (E : ε → View R S → Prop) (text : List UInt8)
    (next : Buffered → Program R ε Unit) : Prop where
  flushed : ∀ file : Buffered, file.buffer = [] →
    K.Spec M guard i (stages.Left text file) (next file) (fun _ => stages.done text) E
  again : ∀ file, K.Spec M guard i stages.broken (next file) (fun _ => stages.closed) E

theorem closeDescriptor_closes (h : stages.Obeys K M guard i out E) :
    Closes K M guard i stages E text out.closeDescriptor where
  flushed file hempty := by
    intro v hleft
    obtain ⟨-, hworking⟩ := (Stages.left_iff hempty v).mp hleft
    refine (h.close text).bind (fun reply => ?_) v hworking
    cases reply with
    | ok => exact .ret (h.done text) fun w hw => hw
    | error error =>
      exact .fail (h.shut _) fun w hw => h.raised _ w ⟨⟨error, rfl, hw.1⟩, hw.2⟩
  again _ := by
    refine h.abandon.bind fun reply => ?_
    cases reply with
    | ok => exact .ret (h.shut _) fun w hw => hw.2
    | error error =>
      exact .fail (h.shut _) fun w hw => h.raised _ w ⟨⟨error, rfl, hw.1 error rfl⟩, hw.2⟩

/-- The layer below is closed whatever the flush has come to. -/
theorem closeLayer_spec (h : stages.Obeys K M guard i out E) {next : Buffered → Program R ε Unit}
    (hnext : Closes K M guard i stages E text next) (file : Buffered) :
    K.Spec M guard i (stages.Left text file) (out.closeLayer next file) (fun _ => stages.done text) E := by
  refine h.flush_spec.bind fun result => ?_
  obtain ⟨outcome, file⟩ := result
  cases outcome with
  | ok =>
    rintro v ⟨hempty, hleft⟩
    have hempty : file.buffer = [] := List.length_eq_zero_iff.mp (Nat.le_zero.mp hempty)
    refine Contract.Spec.bind (hnext.flushed file hempty) (fun _ => ?_) v hleft
    exact .ret (h.done text) fun w hw => hw
  | error error =>
    intro v hv
    refine Contract.Spec.bind (hnext.again file) (fun _ => ?_) v hv.2
    exact .fail h.closed fun w hw => h.raised _ w ⟨⟨error, rfl, hv.1⟩, hw⟩

theorem closeLayer_again (h : stages.Obeys K M guard i out E) {next : Buffered → Program R ε Unit}
    (hnext : Closes K M guard i stages E text next) (file : Buffered) :
    K.Spec M guard i stages.broken (out.closeLayer next file) (fun _ => stages.closed) E := by
  refine h.drain_again.bind fun result => ?_
  obtain ⟨outcome, file⟩ := result
  rintro v ⟨hcause, hbroken⟩
  cases outcome with
  | ok =>
    refine Contract.Spec.bind (hnext.again file) (fun _ => ?_) v hbroken
    exact .ret h.closed fun w hw => hw
  | error error =>
    refine Contract.Spec.bind (hnext.again file) (fun _ => ?_) v hbroken
    exact .fail h.closed fun w hw => h.raised _ w ⟨⟨error, rfl, hcause error rfl⟩, hw⟩

theorem closeLayer_closes (h : stages.Obeys K M guard i out E) {next : Buffered → Program R ε Unit}
    (hnext : Closes K M guard i stages E text next) :
    Closes K M guard i stages E text (out.closeLayer next) where
  flushed file _ := h.closeLayer_spec hnext file
  again := h.closeLayer_again hnext

theorem closeFile_spec (h : stages.Obeys K M guard i out E) (file : Buffered) :
    K.Spec M guard i (stages.Left text file) (out.closeFile file) (fun _ => stages.done text) E :=
  h.closeLayer_spec (h.closeLayer_closes h.closeDescriptor_closes) file

theorem closeFile_again (h : stages.Obeys K M guard i out E) (file : Buffered) :
    K.Spec M guard i stages.broken (out.closeFile file) (fun _ => stages.closed) E := by
  have hcloses : Closes K M guard i stages E [] out.closeDescriptor := h.closeDescriptor_closes
  exact h.closeLayer_again (h.closeLayer_closes hcloses) file

end Stages.Obeys

end Files
