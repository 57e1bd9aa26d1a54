/-
Assembling one text into two sinks.

The assembler sees of a sink only its answers, so two sinks that answer alike are given the same calls.
A relation between sinks is a simulation if whatever the first accepts the second accepts with the same
answer, and the relation holds again (`Sink.Simulated`).  Every part of the assembler carries such a
relation along (`Follows`), and so does the whole of it: a text that assembles into the first sink
assembles into the second (`assemble_of_simulated`).

The simulation in question is between a verifier in front of a writer and that writer alone.  Both hand
out indices, of labels and of locals, and a name in the text stands for the index that was handed out.
The verifier's are the writer's: labels because `Backed` says so, locals because both keep the same
list and the verifier stops before an index needs more than sixteen bits.
-/
import Cil.Assembly
import Cil.Proofs.Verifier.Paths
import Cil.Proofs.Verifier.Writing

namespace Cil

/-- Whatever the first of two related sinks accepts the second accepts, with the same answer, and then
they are related again. -/
def Sink.Simulated {σ τ : Type} [Sink σ] [Sink τ] (R : σ → τ → Prop) : Prop :=
  ∀ c s t reply s', R s t → Sink.step c s = .ok reply s' →
    ∃ t', Sink.step c t = .ok reply t' ∧ R s' t'

namespace Assembler

open Assembly (Written Statement Line)

variable {σ τ α β : Type} {R : σ → τ → Prop}

/-- Assemblers that know the same names, in front of related sinks. -/
structure Alike (R : σ → τ → Prop) (a : Assembler σ) (b : Assembler τ) : Prop where
  sink : R a.sink b.sink
  labels : a.labels = b.labels
  locals : a.locals = b.locals

/-- Where the first of two steps succeeds the second does too, with the same result, and the assemblers
stay alike. -/
def Follows (R : σ → τ → Prop) (m : Work σ α) (n : Work τ α) : Prop :=
  ∀ a b x a', Alike R a b → m a = .ok x a' → ∃ b', n b = .ok x b' ∧ Alike R a' b'

/-! ### Steps and their parts -/

theorem follows_pure (x : α) : Follows R (pure x) (pure x) := by
  intro a b y a' halike h
  cases h
  exact ⟨b, rfl, halike⟩

theorem follows_throw {e : AssemblyError} {n : Work τ α} : Follows R (throw e) n := by
  intro a b x a' _ h
  exact nomatch h

theorem follows_bind {m : Work σ α} {n : Work τ α} {f : α → Work σ β} {g : α → Work τ β}
    (hm : Follows R m n) (hf : ∀ x, Follows R (f x) (g x)) : Follows R (m >>= f) (n >>= g) := by
  intro a b y a' halike h
  change EStateM.bind m f a = .ok y a' at h
  show ∃ b', EStateM.bind n g b = .ok y b' ∧ Alike R a' b'
  unfold EStateM.bind at h ⊢
  cases hma : m a with
  | error e a₁ =>
    rw [hma] at h
    exact nomatch h
  | ok x a₁ =>
    rw [hma] at h
    obtain ⟨b₁, hnb, halike₁⟩ := hm a b x a₁ halike hma
    rw [hnb]
    exact hf x a₁ b₁ y a' halike₁ h

/-- Both steps look at their assemblers, which are alike. -/
theorem follows_get_bind {f : Assembler σ → Work σ α} {g : Assembler τ → Work τ α}
    (h : ∀ a b, Alike R a b → Follows R (f a) (g b)) : Follows R (get >>= f) (get >>= g) := by
  intro a b x a' halike hok
  exact h a b halike a b x a' halike hok

theorem follows_modify {f : Assembler σ → Assembler σ} {g : Assembler τ → Assembler τ}
    (h : ∀ a b, Alike R a b → Alike R (f a) (g b)) : Follows R (modify f) (modify g) := by
  intro a b x a' halike hok
  cases hok
  exact ⟨g b, rfl, h a b halike⟩

theorem follows_discard {m : Work σ α} {n : Work τ α} (h : Follows R m n) :
    Follows R (discard m) (discard n) := by
  intro a b y a' halike hok
  change EStateM.map (fun _ => ()) m a = .ok y a' at hok
  show ∃ b', EStateM.map (fun _ => ()) n b = .ok y b' ∧ Alike R a' b'
  unfold EStateM.map at hok ⊢
  cases hma : m a with
  | error e a₁ =>
    rw [hma] at hok
    exact nomatch hok
  | ok x a₁ =>
    rw [hma] at hok
    obtain ⟨b₁, hnb, halike₁⟩ := h a b x a₁ halike hma
    rw [hnb]
    cases hok
    exact ⟨b₁, rfl, halike₁⟩

theorem follows_mapM {f : α → Work σ β} {g : α → Work τ β} (h : ∀ x, Follows R (f x) (g x))
    (xs : List α) : Follows R (xs.mapM f) (xs.mapM g) := by
  induction xs with
  | nil => exact follows_pure []
  | cons x rest ih =>
    rw [List.mapM_cons, List.mapM_cons]
    refine follows_bind (h x) fun y => ?_
    exact follows_bind ih fun ys => follows_pure (y :: ys)

theorem follows_resolve (line : Nat) (name : String) (found : Option α) :
    Follows R (resolve line name found) (resolve line name found) := by
  cases found with
  | none => exact follows_throw
  | some x => exact follows_pure x

/-! ### The assembler -/

section

variable [Sink σ] [Sink τ] (hR : Sink.Simulated R)
include hR

theorem follows_send (line : Nat) (c : Call) : Follows R (send line c) (send line c) := by
  intro a b reply a' halike h
  unfold send at h
  cases hstep : Sink.step c a.sink with
  | error e s =>
    rw [hstep] at h
    exact nomatch h
  | ok reply₁ s =>
    rw [hstep] at h
    cases h
    obtain ⟨t, ht, hst⟩ := hR c a.sink b.sink reply s halike.sink hstep
    refine ⟨{ b with sink := t }, ?_, hst, halike.labels, halike.locals⟩
    rw [send, ht]

theorem follows_label (line : Nat) (name : String) :
    Follows R (label line name) (label line name) := by
  refine follows_get_bind fun a b halike => ?_
  rw [halike.labels]
  cases b.labels.lookup name with
  | some index => exact follows_pure index
  | none =>
    refine follows_bind (follows_send hR line _) fun reply => ?_
    refine follows_bind (follows_modify fun a b halike => ?_) fun _ => follows_pure _
    exact ⟨halike.sink, congrArg _ halike.labels, halike.locals⟩

/-- The call for an instruction depends on the sink by the indices of labels and locals only. -/
theorem follows_callFor (env : Environment) (line : Nat) (op : Opcode) (operand : Option Written) :
    Follows R (callFor env line op operand) (callFor env line op operand) := by
  have hlocal : ∀ name, Follows R
      (do let index ← resolve line name ((← get).locals.lookup name)
          return Call.emit op (.int32 (Int32.ofNat index)))
      (do let index ← resolve line name ((← get).locals.lookup name)
          return Call.emit op (.int32 (Int32.ofNat index))) := by
    intro name
    refine follows_get_bind fun a b halike => ?_
    rw [halike.locals]
    exact follows_bind (follows_resolve line name _) fun _ => follows_pure _
  have htarget : ∀ name, Follows R (do return Call.branch op (← label line name))
      (do return Call.branch op (← label line name)) := by
    intro name
    exact follows_bind (follows_label hR line name) fun _ => follows_pure _
  have htable : ∀ names : List String, Follows R (do return Call.switch (← names.mapM (label line)))
      (do return Call.switch (← names.mapM (label line))) := by
    intro names
    exact follows_bind (follows_mapM (follows_label hR line) names) fun _ => follows_pure _
  have hmember : ∀ {α : Type} (name : String) (found : Option α) (f : α → Call),
      Follows R (do return f (← resolve line name found))
        (do return f (← resolve line name found)) := by
    intro α name found f
    exact follows_bind (follows_resolve line name found) fun _ => follows_pure _
  unfold callFor
  split
  -- An integer that may be too large for the operand is the only form that is looked at once more.
  case h_2 | h_3 | h_4 | h_5 =>
    split
    · exact follows_pure _
    · exact follows_throw
  all_goals first
    | exact follows_pure _
    | exact hlocal _
    | exact htarget _
    | exact htable _
    | exact hmember _ _ _
    | exact follows_throw

theorem follows_define (line : Nat) (name : Option String) :
    Follows R (define line name) (define line name) := by
  cases name with
  | none => exact follows_pure ()
  | some name =>
    refine follows_bind (follows_label hR line name) fun index => ?_
    exact follows_discard (follows_send hR line _)

theorem follows_statement (env : Environment) (line : Nat) (s : Statement) :
    Follows R (statement env line s) (statement env line s) := by
  cases s with
  | locals typeName name =>
    refine follows_bind (follows_resolve line typeName _) fun t => ?_
    refine follows_bind (follows_send hR line _) fun reply => ?_
    refine follows_modify fun a b halike => ?_
    exact ⟨halike.sink, halike.labels, congrArg _ halike.locals⟩
  | instruction mnemonic operand =>
    rw [statement, statement]
    cases Opcode.ofMnemonic? mnemonic with
    | none => exact follows_throw
    | some op =>
      refine follows_bind (follows_callFor hR env line op operand) fun c => ?_
      exact follows_discard (follows_send hR line c)

theorem follows_oneLine (env : Environment) (line : Nat) (text : String) :
    Follows R (oneLine env line text) (oneLine env line text) := by
  unfold oneLine
  cases Line.parse text with
  | error e => exact follows_throw
  | ok parsed =>
    refine follows_bind (follows_define hR line parsed.label) fun _ => ?_
    cases parsed.statement with
    | none => exact follows_pure ()
    | some s => exact follows_statement hR env line s

theorem follows_allLines (env : Environment) (line : Nat) (texts : List String) :
    Follows R (allLines env line texts) (allLines env line texts) := by
  induction texts generalizing line with
  | nil => exact follows_discard (follows_send hR line .finish)
  | cons text rest ih => exact follows_bind (follows_oneLine hR env line text) fun _ => ih (line + 1)

end

end Assembler

/-- What assembles into a sink assembles into any sink that simulates it. -/
theorem assemble_of_simulated {σ τ : Type} [Sink σ] [Sink τ] {R : σ → τ → Prop}
    (hR : Sink.Simulated R) (env : Environment) (text : String) {s s' : σ} {t : τ} (hst : R s t)
    (h : assemble env text s = (.ok (), s')) :
    ∃ t', assemble env text t = (.ok (), t') ∧ R s' t' := by
  unfold assemble at h ⊢
  cases hlines : Assembler.allLines env 1 (Text.lines text) { sink := s } with
  | error e a =>
    rw [hlines] at h
    exact nomatch h
  | ok u a =>
    rw [hlines] at h
    cases h
    obtain ⟨b, hb, halike⟩ := Assembler.follows_allLines hR env 1 (Text.lines text) { sink := s }
      { sink := t } u a ⟨hst, rfl, rfl⟩ hlines
    rw [hb]
    exact ⟨b.sink, rfl, halike.sink⟩

/-! ### Locals -/

namespace Checker

variable {k k' : Checker} {c c' : Call}

/-- A check declares no local. -/
theorem locals_of_accept (h : accept c k = .ok c' k') : k'.locals = k.locals := by
  cases hop : c.opcode? with
  | some op =>
    obtain ⟨-, hinstruction, -⟩ := (accept_instruction hop).mp h
    obtain ⟨-, transition, s, t, -, -, -, rfl⟩ := instruction_ok.mp hinstruction
    rfl
  | none =>
    cases c with
    | declareLocal t name =>
      obtain ⟨-, -, rfl⟩ := accept_declareLocal.mp h
      rfl
    | createLabel name =>
      obtain ⟨-, rfl⟩ := accept_createLabel.mp h
      rfl
    | markLabel index =>
      obtain ⟨l, t, -, -, -, -, rfl⟩ := accept_markLabel.mp h
      exact (enter_unchanged k _).2.1
    | finish =>
      obtain ⟨-, -, -, -, -, rfl⟩ := accept_finish.mp h
      rfl
    | _ => exact nomatch hop

end Checker

/-! ### A verifier and the writer behind it -/

/-- The writer is the one behind the verifier, which has refused nothing so far. -/
structure Behind {π : Type} (v : Verifier (Writer π)) (w : Writer π) : Prop where
  writer : v.downstream = w
  synced : ∃ cells, Synced v.checker.labels w cells
  locals : v.checker.locals = w.locals

section Behind

variable {π : Type}

theorem behind_start (s : Subject) (p : π) :
    Behind (Verifier.start s ({ symbols := p } : Writer π)) { symbols := p } where
  writer := rfl
  synced := ⟨[], synced_start p⟩
  locals := rfl

variable [TokenProvider π] {v v' : Verifier (Writer π)} {w w' : Writer π} {c : Call}
  {reply : Option Nat}

/-- The index that the verifier hands out is the writer's. -/
theorem Behind.reply_eq {k : Checker} (h : Behind v w)
    (haccept : Checker.accept c v.checker = .ok c k) (hwrite : Sink.step c w = .ok reply w') :
    (Checker.settle c reply k).1 = reply := by
  cases hop : c.opcode? with
  | some op =>
    obtain ⟨rfl, -⟩ := (Writer.step_instruction_ok hop).mp hwrite
    cases c <;> first | rfl | exact nomatch hop
  | none =>
    cases c with
    | declareLocal t name =>
      obtain ⟨hroom, -, rfl⟩ := Checker.accept_declareLocal.mp haccept
      obtain ⟨rfl, -⟩ := EStateM.Result.ok.inj hwrite
      have hsize : v.checker.locals.size < 65536 := Nat.lt_succ_of_le hroom
      show some v.checker.locals.size = some (w.locals.size % 65536)
      rw [← h.locals, Nat.mod_eq_of_lt hsize]
    | createLabel name =>
      obtain ⟨cells, hsynced⟩ := h.synced
      obtain ⟨-, rfl⟩ := Checker.accept_createLabel.mp haccept
      obtain ⟨rfl, -⟩ := EStateM.Result.ok.inj hwrite
      exact congrArg some hsynced.size_eq
    | markLabel index => exact (Writer.silent_ok.mp hwrite).1
    | finish => exact (Writer.silent_ok.mp hwrite).1
    | _ => exact nomatch hop

/-- Both sides declare the same locals. -/
theorem Behind.locals_eq {k : Checker} (h : Behind v w)
    (haccept : Checker.accept c v.checker = .ok c k) (hwrite : Sink.step c w = .ok reply w') :
    (Checker.settle c reply k).2.locals = w'.locals := by
  have hk : k.locals = w.locals := (Checker.locals_of_accept haccept).trans h.locals
  obtain ⟨cells, hsynced⟩ := h.synced
  by_cases hdeclare : ∃ t name, c = .declareLocal t name
  · obtain ⟨t, name, rfl⟩ := hdeclare
    obtain ⟨-, rfl⟩ := EStateM.Result.ok.inj hwrite
    exact congrArg (Array.push · (t, name)) hk
  · have hother : ∀ t name, c ≠ .declareLocal t name := by
      intro t name hc
      exact hdeclare ⟨t, name, hc⟩
    rw [Writer.locals_of_step hsynced.laid hother hwrite, ← hk]
    cases c with
    | declareLocal t name => exact absurd rfl (hother t name)
    | _ => rfl

/-- **A writer alone simulates a verifier in front of it.** -/
theorem simulated_behind : Sink.Simulated (Behind (π := π)) := by
  intro c v w reply v' hbehind hstep
  obtain ⟨rfl, ⟨cells, hsynced⟩, -⟩ := id hbehind
  obtain ⟨c', k, r, haccept, hwrite, hsettle⟩ := Verifier.step_ok.mp hstep
  obtain rfl := hsynced.forwarded_eq haccept
  have hreply : r = reply := by rw [← hbehind.reply_eq haccept hwrite, hsettle]
  refine ⟨v'.downstream, hreply ▸ hwrite, rfl, ⟨_, hsynced.advance hstep⟩, ?_⟩
  rw [← hbehind.locals_eq haccept hwrite, hsettle]

end Behind

/-- **Verifying does not change the code.**  A text that assembles into a verifier in front of a writer
assembles into the writer alone, which is left as the one behind the verifier: with the same bytes, the
same locals and the same tokens. -/
theorem assemble_of_verified {π : Type} [TokenProvider π] (env : Environment) (text : String)
    (s : Subject) (p : π) (v : Verifier (Writer π))
    (h : assemble env text (Verifier.start s ({ symbols := p } : Writer π)) = (.ok (), v)) :
    assemble env text ({ symbols := p } : Writer π) = (.ok (), v.downstream) := by
  obtain ⟨w, hw, hbehind⟩ := assemble_of_simulated simulated_behind env text (behind_start s p) h
  rw [hw, hbehind.writer]

/-- A loop over a local, and a string. -/
def loopText : String :=
  ".locals int32 n\nldc.i4.5\nstloc.s n\nloop: ldloc.s n\nbrtrue.s loop\nldstr \"done\"\npop\nret"

theorem assemble_of_verified_loopText :
    ∃ v, assemble .initial loopText (Verifier.start Verifier.skippingSubject ({} : Writer))
        = (.ok (), v) ∧
      assemble .initial loopText ({} : Writer) = (.ok (), v.downstream) ∧
      v.downstream.bytes = [27, 19, 0, 17, 0, 45, 252, 114, 1, 0, 0, 112, 38, 42] := by
  have hrun : (assemble .initial loopText (Verifier.start Verifier.skippingSubject ({} : Writer))).1.isOk
      = true ∧
    (assemble .initial loopText (Verifier.start Verifier.skippingSubject
      ({} : Writer))).2.downstream.bytes = [27, 19, 0, 17, 0, 45, 252, 114, 1, 0, 0, 112, 38, 42] := by
    decide +kernel
  cases h : assemble .initial loopText (Verifier.start Verifier.skippingSubject ({} : Writer)) with
  | mk answer v =>
    rw [h] at hrun
    cases answer with
    | error e => exact nomatch hrun.1
    | ok u => exact ⟨v, rfl, assemble_of_verified .initial loopText _ _ v h, hrun.2⟩

end Cil
