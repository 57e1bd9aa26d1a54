/-
Assembling a text line by line.

The assembler goes through the lines and then ends the body.  `eachLine` is the first part alone, and
`assemble_of_error`, `assemble_of_refused` and `assemble_of_ok` say what the whole comes to.

All that a line can fail with is reported for that line (`Reports`): the ways to fail are spread over the
parts of the assembler, some of them after other parts of the line took effect, and each part is given
the number of the line.  Up to the statement itself a line does nothing but to make and to mark labels
(`OnlyLabels`).

Lines are numbered one after another, so the number in an error tells how many lines went through
before.  What went through depends on nothing that comes later, and neither does the error.
-/
import Cil.Assembly
import Cil.Proofs.Step
import Cil.Proofs.Text

namespace Cil

/-- Does the call make or mark a label? -/
def Call.isLabel : Call → Bool
  | createLabel _ | markLabel _ => true
  | _ => false

namespace Assembler

open Assembly (Written Statement Line)

variable {σ α β : Type} {a b : Assembler σ} {e : AssemblyError} {env : Environment} {line : Nat}

theorem discard_of_ok {m : Work σ α} {x : α} (h : m a = .ok x b) :
    (discard m : Work σ Unit) a = .ok () b := by
  show EStateM.map (fun _ => ()) m a = .ok () b
  rw [EStateM.map, h]

/-! ### Lines without the end of the body -/

section

variable [Sink σ]

/-- Assembles lines, the first of which has the given number, and leaves the body open. -/
def eachLine (env : Environment) : Nat → List String → Work σ Unit
  | _, [] => pure ()
  | line, text :: rest => do
    oneLine env line text
    eachLine env (line + 1) rest

theorem send_of_ok {c : Call} {reply : Option Nat} {s : σ} (h : Sink.step c a.sink = .ok reply s)
    (line : Nat) : send line c a = .ok reply { a with sink := s } := by
  rw [send, h]

theorem send_of_error {c : Call} {r : Rejection} {s : σ} (h : Sink.step c a.sink = .error r s)
    (line : Nat) : send line c a = .error (.rejected line r) { a with sink := s } := by
  rw [send, h]

theorem allLines_eq (env : Environment) (line : Nat) (texts : List String) :
    (allLines env line texts : Work σ Unit)
      = eachLine env line texts >>= fun _ => discard <| send (line + texts.length) .finish := by
  induction texts generalizing line with
  | nil => simp [allLines, eachLine]
  | cons text rest ih =>
    rw [allLines, eachLine, bind_assoc]
    simp only [ih, List.length_cons, Nat.add_assoc, Nat.add_comm 1]

theorem eachLine_append (env : Environment) (line : Nat) (front back : List String) :
    (eachLine env line (front ++ back) : Work σ Unit)
      = eachLine env line front >>= fun _ => eachLine env (line + front.length) back := by
  induction front generalizing line with
  | nil => simp [eachLine]
  | cons text rest ih =>
    rw [List.cons_append, eachLine, eachLine, bind_assoc]
    simp only [ih, List.length_cons, Nat.add_assoc, Nat.add_comm 1]

/-- If the lines do not go through, then one of them fails, and those before it go through. -/
theorem eachLine_error {texts : List String} (h : eachLine env line texts a = .error e b) :
    ∃ front text back a', texts = front ++ text :: back ∧ eachLine env line front a = .ok () a' ∧
      oneLine env (line + front.length) text a' = .error e b := by
  induction texts generalizing line a with
  | nil => cases h
  | cons text rest ih =>
    rw [eachLine] at h
    rcases Step.bind_error.mp h with hfirst | ⟨u, a₁, hfirst, hrest⟩
    · exact ⟨[], text, rest, a, rfl, rfl, hfirst⟩
    · obtain ⟨front, text', back, a', rfl, hfront, htext⟩ := ih hrest
      refine ⟨text :: front, text', back, a', rfl, ?_, ?_⟩
      · rw [eachLine, Step.bind_of_ok hfirst, hfront]
      · rw [List.length_cons, Nat.add_comm front.length, ← Nat.add_assoc]
        exact htext

end

/-! ### What the parts of a line do -/

/-- The step fails for the given line only, and relates the states before and after it if it
succeeds. -/
abbrev Reports (line : Nat) (P : Assembler σ → Assembler σ → Prop) (m : Work σ α) : Prop :=
  Step.Meets (fun e : AssemblyError => e.line = line) P m

/-- Where nothing is to be said of the states, parts that report for the line make a step that does. -/
theorem Reports.bind {P : Assembler σ → Assembler σ → Prop} {m : Work σ α} {f : α → Work σ β}
    (hm : Reports line P m) (hf : ∀ x, Reports line (fun _ _ => True) (f x)) :
    Reports line (fun _ _ => True) (m >>= f) :=
  Step.meets_bind hm hf fun _ _ _ _ _ => trivial

section

variable [Sink σ]

/-- Between the two states nothing was done but to make and to mark labels. -/
structure OnlyLabels (a b : Assembler σ) : Prop where
  locals : b.locals = a.locals
  calls : ∃ calls : List Call, (∀ c ∈ calls, c.isLabel = true) ∧ Sink.run calls a.sink = some b.sink

theorem OnlyLabels.refl (a : Assembler σ) : OnlyLabels a a :=
  ⟨rfl, [], fun _ hc => absurd hc List.not_mem_nil, rfl⟩

theorem OnlyLabels.trans {a b c : Assembler σ} (h : OnlyLabels a b) (h' : OnlyLabels b c) :
    OnlyLabels a c := by
  obtain ⟨front, hfront, hrun⟩ := h.calls
  obtain ⟨back, hback, hrun'⟩ := h'.calls
  refine ⟨h'.locals.trans h.locals, front ++ back, ?_, Sink.run_append.mpr ⟨b.sink, hrun, hrun'⟩⟩
  intro c hc
  rcases List.mem_append.mp hc with hc | hc
  · exact hfront c hc
  · exact hback c hc

/-- A part of a line that fails for the line and does nothing but to make and to mark labels. -/
abbrev Quiet (line : Nat) (m : Work σ α) : Prop := Reports line OnlyLabels m

theorem quiet_pure (x : α) : Quiet line (pure x : Work σ α) :=
  Step.meets_pure OnlyLabels.refl

theorem quiet_get : Quiet line (get : Work σ (Assembler σ)) :=
  OnlyLabels.refl

theorem quiet_bind {m : Work σ α} {f : α → Work σ β} (hm : Quiet line m)
    (hf : ∀ x, Quiet line (f x)) : Quiet line (m >>= f) :=
  Step.meets_bind hm hf fun _ _ _ => OnlyLabels.trans

theorem quiet_mapM {f : α → Work σ β} (hf : ∀ x, Quiet line (f x)) (xs : List α) :
    Quiet line (xs.mapM f) := by
  induction xs with
  | nil => exact quiet_pure []
  | cons x rest ih =>
    rw [List.mapM_cons]
    exact quiet_bind (hf x) fun y => quiet_bind ih fun ys => quiet_pure (y :: ys)

theorem quiet_resolve (name : String) (found : Option α) :
    Quiet line (resolve line name found : Work σ α) := by
  cases found with
  | none => exact Step.meets_throw rfl
  | some x => exact quiet_pure x

theorem send_eq_ok {c : Call} {reply : Option Nat} :
    send line c a = .ok reply b ↔ ∃ s, Sink.step c a.sink = .ok reply s ∧ { a with sink := s } = b := by
  unfold send
  cases Sink.step c a.sink with
  | ok reply' s => simp [and_assoc]
  | error r s => simp

theorem reports_send (c : Call) :
    Reports line (fun a b => b.locals = a.locals ∧ Sink.run [c] a.sink = some b.sink)
      (send line c : Work σ (Option Nat)) := by
  refine Step.meets_of (fun a reply b hok => ?_) fun a e b herror => ?_
  · obtain ⟨s, hstep, rfl⟩ := send_eq_ok.mp hok
    exact ⟨rfl, Sink.run_cons.mpr ⟨reply, s, hstep, rfl⟩⟩
  · cases hstep : Sink.step c a.sink with
    | ok reply s =>
      rw [send_of_ok hstep] at herror
      cases herror
    | error r s =>
      rw [send_of_error hstep] at herror
      cases herror
      rfl

theorem quiet_send {c : Call} (hc : c.isLabel = true) :
    Quiet line (send line c : Work σ (Option Nat)) :=
  (reports_send c).mono fun _ _ h => ⟨h.1, [c], by simpa using hc, h.2⟩

theorem quiet_label (name : String) : Quiet line (label line name : Work σ Nat) := by
  refine quiet_bind quiet_get fun a => ?_
  cases a.labels.lookup name with
  | some index => exact quiet_pure index
  | none =>
    refine quiet_bind (quiet_send rfl) fun reply => quiet_bind ?_ fun _ => quiet_pure _
    exact fun a => ⟨rfl, (OnlyLabels.refl a).calls⟩

/-- A part of a line that settles on the call for an instruction. -/
structure Prepares (line : Nat) (m : Work σ Call) : Prop where
  quiet : Quiet line m
  isInstruction : ∀ a c b, m a = .ok c b → c.opcode?.isSome = true

theorem prepares_pure {c : Call} (hc : c.opcode?.isSome = true) :
    Prepares line (pure c : Work σ Call) where
  quiet := quiet_pure c
  isInstruction := by
    intro a c' b h
    rwa [← (Step.pure_ok.mp h).1]

theorem prepares_throw {e : AssemblyError} (he : e.line = line) :
    Prepares line (throw e : Work σ Call) where
  quiet := Step.meets_throw he
  isInstruction := by
    intro a c b h
    cases h

theorem prepares_bind {m : Work σ α} {f : α → Work σ Call} (hm : Quiet line m)
    (hf : ∀ x, Prepares line (f x)) : Prepares line (m >>= f) where
  quiet := quiet_bind hm fun x => (hf x).quiet
  isInstruction := by
    intro a c b h
    obtain ⟨x, a', -, hrest⟩ := Step.bind_ok.mp h
    exact (hf x).isInstruction a' c b hrest

theorem prepares_callFor (env : Environment) (line : Nat) (op : Opcode) (operand : Option Written) :
    Prepares line (callFor env line op operand : Work σ Call) := by
  unfold callFor
  split
  -- An integer that may be too large for the operand is the only form that is looked at once more.
  case h_2 | h_3 | h_4 | h_5 =>
    split
    · exact prepares_pure rfl
    · exact prepares_throw rfl
  all_goals first
    | exact prepares_pure rfl
    | exact prepares_throw rfl
    | exact prepares_bind (quiet_resolve _ _) fun _ => prepares_pure rfl
    | exact prepares_bind quiet_get fun _ =>
        prepares_bind (quiet_resolve _ _) fun _ => prepares_pure rfl
    | exact prepares_bind (quiet_label _) fun _ => prepares_pure rfl
    | exact prepares_bind (quiet_mapM quiet_label _) fun _ => prepares_pure rfl

theorem quiet_define (name : Option String) : Quiet line (define line name : Work σ Unit) := by
  cases name with
  | none => exact quiet_pure ()
  | some name =>
    refine quiet_bind (quiet_label name) fun index => ?_
    rw [Step.discard_eq]
    exact quiet_bind (quiet_send rfl) fun _ => quiet_pure ()

theorem reports_statement (s : Statement) :
    Reports line (fun _ _ => True) (statement env line s : Work σ Unit) := by
  cases s with
  | locals typeName name =>
    have hnote : ∀ reply : Option Nat, Reports line (fun _ _ => True)
        (modify fun a => { a with locals := (name, reply.getD 0) :: a.locals } : Work σ Unit) :=
      fun _ _ => trivial
    exact (quiet_resolve typeName _).bind fun t => (reports_send _).bind hnote
  | instruction mnemonic operand =>
    rw [statement]
    cases Opcode.ofMnemonic? mnemonic with
    | none => exact Step.meets_throw rfl
    | some op =>
      refine (prepares_callFor env line op operand).quiet.bind fun c => ?_
      rw [Step.discard_eq]
      exact (reports_send c).bind fun _ => Step.meets_pure fun _ => trivial

/-- A line fails for itself. -/
theorem reports_oneLine (text : String) :
    Reports line (fun _ _ => True) (oneLine env line text : Work σ Unit) := by
  unfold oneLine
  cases Line.parse text with
  | error e => exact Step.meets_throw rfl
  | ok parsed =>
    refine (quiet_define parsed.label).bind fun _ => ?_
    cases parsed.statement with
    | none => exact Step.meets_pure fun _ => trivial
    | some s => exact reports_statement s

end

end Assembler

/-! ### The whole text -/

open Assembler (eachLine)

variable {σ : Type} [Sink σ] {env : Environment} {text : String} {sink : σ} {a : Assembler σ}

theorem assemble_of_error {e : AssemblyError}
    (h : eachLine env 1 (Text.lines text) { sink } = .error e a) :
    assemble env text sink = (.error e, a.sink) := by
  rw [assemble, Assembler.allLines_eq, Step.bind_of_error h]

theorem assemble_of_ok {reply : Option Nat} {s : σ}
    (h : eachLine env 1 (Text.lines text) { sink } = .ok () a)
    (hfinish : Sink.step .finish a.sink = .ok reply s) : assemble env text sink = (.ok (), s) := by
  rw [assemble, Assembler.allLines_eq, Step.bind_of_ok h,
    Assembler.discard_of_ok (Assembler.send_of_ok hfinish _)]

/-- If the lines go through and the body cannot be ended, the error is reported after the last of
them. -/
theorem assemble_of_refused {r : Rejection} {s : σ}
    (h : eachLine env 1 (Text.lines text) { sink } = .ok () a)
    (hfinish : Sink.step .finish a.sink = .error r s) :
    assemble env text sink = (.error (.rejected ((Text.lines text).length + 1) r), s) := by
  rw [assemble, Assembler.allLines_eq, Step.bind_of_ok h, Step.discard_eq,
    Step.bind_of_error (Assembler.send_of_error hfinish _), Nat.add_comm 1]

/-- If the text goes through, so do its lines and the end of the body. -/
theorem exists_of_assemble {s : σ} (h : assemble env text sink = (.ok (), s)) :
    ∃ a reply, eachLine env 1 (Text.lines text) { sink } = .ok () a ∧
      Sink.step .finish a.sink = .ok reply s := by
  cases hlines : eachLine env 1 (Text.lines text) { sink } with
  | error e a =>
    rw [assemble_of_error hlines] at h
    cases h
  | ok u a =>
    cases hfinish : Sink.step .finish a.sink with
    | error r t =>
      rw [assemble_of_refused hlines hfinish] at h
      cases h
    | ok reply t =>
      rw [assemble_of_ok hlines hfinish] at h
      cases h
      exact ⟨a, reply, rfl, hfinish⟩

/-- If the lines go through, then the text can fail at the end of the body only. -/
theorem assemble_of_lines (h : eachLine env 1 (Text.lines text) { sink } = .ok () a) :
    (assemble env text sink).1 = .ok () ∨
      ∃ r, (assemble env text sink).1 = .error (.rejected ((Text.lines text).length + 1) r) := by
  cases hfinish : Sink.step .finish a.sink with
  | ok reply s =>
    left
    rw [assemble_of_ok h hfinish]
  | error r s =>
    right
    exact ⟨r, by rw [assemble_of_refused h hfinish]⟩

/-- **Errors are local to their line.**  A text that cannot be assembled fails in one of two ways.

Either it has the line that the error carries, and that line is at fault.  Then every text with the same
lines up to there fails with the same error and leaves the sink in the same state, whatever stands after
that line; and the lines before it, which make a text of their own, all go through, so that that text can
fail only where the body ends, which is reported for the line at fault.

Or all its lines go through and the sink refuses to end the body, which is reported for the line after
the last. -/
theorem error_is_local (env : Environment) (text : String) (sink : σ) (e : AssemblyError) (s : σ)
    (h : assemble env text sink = (.error e, s)) :
    (1 ≤ e.line ∧ e.line ≤ (Text.lines text).length ∧
      (∀ a, eachLine env 1 (Text.lines text) { sink } ≠ .ok () a) ∧
      (∀ other, (Text.lines other).take e.line = (Text.lines text).take e.line →
        assemble env other sink = (.error e, s)) ∧
      (∃ front, Text.lines front = (Text.lines text).take (e.line - 1)) ∧
      ∀ front, Text.lines front = (Text.lines text).take (e.line - 1) →
        (∃ a, eachLine env 1 (Text.lines front) { sink } = .ok () a) ∧
        ((assemble env front sink).1 = .ok () ∨
          ∃ r, (assemble env front sink).1 = .error (.rejected e.line r))) ∨
    (∃ a r, eachLine env 1 (Text.lines text) { sink } = .ok () a ∧
      Sink.step .finish a.sink = .error r s ∧
      e = .rejected ((Text.lines text).length + 1) r) := by
  cases hlines : eachLine env 1 (Text.lines text) { sink } with
  | ok u a =>
    right
    cases hfinish : Sink.step .finish a.sink with
    | ok reply t =>
      rw [assemble_of_ok hlines hfinish] at h
      cases h
    | error r t =>
      rw [assemble_of_refused hlines hfinish] at h
      cases h
      exact ⟨a, r, rfl, hfinish, rfl⟩
  | error e' a =>
    left
    rw [assemble_of_error hlines] at h
    cases h
    obtain ⟨front, faulty, back, a', htext, hfront, hfaulty⟩ := Assembler.eachLine_error hlines
    have hline : e.line = front.length + 1 := by
      rw [(Assembler.reports_oneLine faulty).of_error hfaulty, Nat.add_comm]
    have hupto : (Text.lines text).take e.line = front ++ [faulty] := by
      rw [htext, hline, List.take_length_add_append]
      simp
    have hbefore : (Text.lines text).take (e.line - 1) = front := by
      rw [htext, hline]
      simp
    refine ⟨by omega, ?_, by simp, ?_, Text.exists_lines_eq_take text _, ?_⟩
    · rw [htext, hline]
      simp
    · intro other hother
      have hsplit : Text.lines other = front ++ faulty :: (Text.lines other).drop e.line := by
        conv => lhs; rw [← List.take_append_drop e.line (Text.lines other), hother, hupto]
        simp
      apply assemble_of_error
      rw [hsplit, Assembler.eachLine_append, Step.bind_of_ok hfront, eachLine,
        Step.bind_of_error hfaulty]
    · intro before hlinesBefore
      rw [hbefore] at hlinesBefore
      have hok : eachLine env 1 (Text.lines before) { sink } = .ok () a' := by
        rw [hlinesBefore, hfront]
      refine ⟨⟨a', hok⟩, ?_⟩
      have hend := assemble_of_lines hok
      rwa [hlinesBefore, ← hline] at hend

/-- A label is marked, and then the instruction on its line names a local that there is not. -/
def faultyText : String := "ldc.i4.1\nagain: stloc.s total\nbr.s again\nret"

/-- The same up to the fault. -/
def otherFaultyText : String := "ldc.i4.1\nagain: stloc.s total\r\nnop\n"

/-- Both texts fail with the same error, which is that of their second line; the first line alone goes
through. -/
theorem error_is_local_faultyText :
    ∃ e r, assemble .initial faultyText ({} : Recorder) = (.error e, r) ∧ e.line = 2 ∧
      assemble .initial otherFaultyText ({} : Recorder) = (.error e, r) ∧
      ∃ a, eachLine .initial 1 (Text.lines "ldc.i4.1") { sink := ({} : Recorder) } = .ok () a := by
  have hline : (match (assemble .initial faultyText ({} : Recorder)).1 with
      | .ok _ => 0
      | .error e => e.line) = 2 := by
    decide +kernel
  cases h : assemble .initial faultyText ({} : Recorder) with
  | mk answer r =>
    rw [h] at hline
    cases answer with
    | ok u => cases hline
    | error e =>
      have hline : e.line = 2 := hline
      rcases error_is_local .initial faultyText ({} : Recorder) e r h with
        ⟨-, -, -, hother, -, hfront⟩ | ⟨a, r', -, -, hend⟩
      · refine ⟨e, r, rfl, hline, hother otherFaultyText ?_, (hfront "ldc.i4.1" ?_).1⟩
        · rw [hline]
          decide +kernel
        · rw [hline]
          decide +kernel
      · have hlength : (Text.lines faultyText).length = 4 := by decide +kernel
        rw [hend, hlength] at hline
        cases hline

end Cil
