/-
What a named variable means.

A variable may be written as the name of a local.  The name goes through three tables: the declarations
in the text, the names that the assembler has noted with the indices it was given, and the list of
locals that the writer keeps.  `Known` ties them together, and every line keeps it: the list of the
writer is the list of the declarations so far, and a name leads to its latest declaration.

Two things are not as one would expect.  The writer gives out its indices in sixteen bits, so the index
of a declaration is its place in the list only up to that, and two declarations far enough apart share
one.  And the assembler looks a name up among the locals for every instruction on a variable, those on
arguments too, so such an instruction gets at the argument with the number of the local.
`variable_of_name` says what comes of both.
-/
import Cil.Proofs.Assembly.Lines
import Cil.Proofs.Code.Codec
import Cil.Proofs.Writer.Marks
import Cil.Verifier.Transition
import Mathlib.Data.List.Forall2

namespace Cil

open List (Forall₂)

/-- The variable that an instruction gets at. -/
def Instruction.accessed? : Instruction → Option (VariableKind × Int)
  | .plain op x =>
    match op.category with
    | .slot _ kind index? => some (kind, Transition.variableIndex index? x)
    | _ => none
  | .switch _ => none

/-- An instruction on a variable has its index for an operand, unless the opcode carries it. -/
theorem Opcode.operandKind_of_slot {op : Opcode} {access : Access} {kind : VariableKind}
    {index? : Option Nat} (h : op.category = .slot access kind index?) :
    index? = none ∧ (op.operandKind = .shortVar ∨ op.operandKind = .var) ∨
      op.operandKind = .none := by
  cases op <;> cases h <;>
    first
    | exact Or.inr rfl
    | exact Or.inl ⟨rfl, Or.inl rfl⟩
    | exact Or.inl ⟨rfl, Or.inr rfl⟩

/-- The instruction on the variable that was declared as the one with the given number. -/
def namedVariable (op : Opcode) (i : Nat) : Instruction :=
  .plain op (.int32 (Int32.ofNat (i % 65536)))

theorem asRead_namedVariable {op : Opcode}
    (h : op.operandKind = .shortVar ∨ op.operandKind = .var) (i : Nat) :
    (namedVariable op i).asRead = namedVariable op i := by
  rcases h with h | h <;> simp [namedVariable, Instruction.asRead, Operand.asRead, h, OperandKind.isToken]

theorem accessed?_namedVariable {op : Opcode} {access : Access} {kind : VariableKind}
    (h : op.category = .slot access kind none) (i : Nat) :
    (namedVariable op i).accessed? = some (kind, ((i % 65536 : Nat) : Int)) := by
  have hsmall : (Int32.ofNat (i % 65536)).toInt = ((i % 65536 : Nat) : Int) :=
    Int32.toInt_ofNat_of_lt (by omega)
  rw [namedVariable, Instruction.accessed?, h]
  exact congrArg (fun index => some (kind, index)) hsmall

/-! ### Declarations in a text -/

namespace Assembly

/-- The local that a line declares: the name of its type and its own. -/
def declaration? (text : String) : Option (String × String) :=
  match Line.parse text with
  | .ok { label := _, statement := some (.locals typeName name) } => some (typeName, name)
  | _ => none

/-- The locals that some lines declare, in order. -/
def declarations (texts : List String) : List (String × String) := texts.filterMap declaration?

/-- The line holds an instruction on a variable of the given kind, and the variable is written as a
name. -/
def NamesVariable (text : String) (op : Opcode) (kind : VariableKind) (name : String) : Prop :=
  ∃ label mnemonic access index?,
    Line.parse text = .ok ⟨label, some (.instruction mnemonic (some (.name name)))⟩ ∧
      Opcode.ofMnemonic? mnemonic = some op ∧ op.category = .slot access kind index?

/-- The latest declaration of a name stands at the given place. -/
structure Latest (ds : List (String × String)) (name : String) (i : Nat) : Prop where
  here : ∃ typeName, ds[i]? = some (typeName, name)
  last : ∀ j typeName, i < j → ds[j]? ≠ some (typeName, name)

theorem Latest.lt_length {ds : List (String × String)} {name : String} {i : Nat}
    (h : Latest ds name i) : i < ds.length := by
  obtain ⟨typeName, hi⟩ := h.here
  exact (List.getElem?_eq_some_iff.mp hi).1

theorem Latest.unique {ds : List (String × String)} {name : String} {i j : Nat}
    (h : Latest ds name i) (h' : Latest ds name j) : i = j := by
  obtain ⟨typeName, hi⟩ := h.here
  obtain ⟨typeName', hj⟩ := h'.here
  have hji : ¬ j < i := fun hlt => h'.last i typeName hlt hi
  have hij : ¬ i < j := fun hlt => h.last j typeName' hlt hj
  omega

/-- A new declaration is the latest of its name. -/
theorem latest_concat (ds : List (String × String)) (typeName name : String) :
    Latest (ds ++ [(typeName, name)]) name ds.length where
  here := ⟨typeName, by simp⟩
  last := by
    intro j typeName' hj hsome
    have := (List.getElem?_eq_some_iff.mp hsome).1
    simp only [List.length_append, List.length_singleton] at this
    omega

/-- It changes nothing for other names. -/
theorem Latest.concat {ds : List (String × String)} {name : String} {i : Nat} (h : Latest ds name i)
    (typeName : String) {other : String} (hother : name ≠ other) :
    Latest (ds ++ [(typeName, other)]) name i where
  here := by
    obtain ⟨typeName', hi⟩ := h.here
    exact ⟨typeName', by rw [List.getElem?_append_left h.lt_length, hi]⟩
  last := by
    intro j typeName' hj hsome
    by_cases hin : j < ds.length
    · rw [List.getElem?_append_left hin] at hsome
      exact h.last j typeName' hj hsome
    · have hlast : j - ds.length = 0 := by
        have := (List.getElem?_eq_some_iff.mp hsome).1
        simp only [List.length_append, List.length_singleton] at this
        omega
      rw [List.getElem?_append_right (Nat.le_of_not_lt hin), hlast] at hsome
      cases hsome
      exact hother rfl

theorem declarations_append (texts texts' : List String) :
    declarations (texts ++ texts') = declarations texts ++ declarations texts' :=
  List.filterMap_append

theorem declarations_concat (texts : List String) (text : String) :
    declarations (texts ++ [text]) = declarations texts ++ (declaration? text).toList := by
  rw [declarations_append]
  cases h : declaration? text <;> simp [declarations, h]

end Assembly

/-! ### Lines -/

namespace Assembler

open Assembly

variable {σ : Type} {env : Environment} {line : Nat} {a b : Assembler σ}

theorem resolve_ok {α : Type} {name : String} {found : Option α} {x : α} :
    resolve line name found a = .ok x b ↔ found = some x ∧ a = b := by
  cases found with
  | none => simp [resolve, Step.throw_ok]
  | some y => simp [resolve, Step.pure_ok]

section

variable [Sink σ]

/-- What a line does: it defines its label, if it has one, and then its statement is taken. -/
theorem exists_of_oneLine {text : String} (h : oneLine env line text a = .ok () b) :
    ∃ label s? a', Line.parse text = .ok ⟨label, s?⟩ ∧ OnlyLabels a a' ∧
      (s? = none ∧ a' = b ∨ ∃ s, s? = some s ∧ statement env line s a' = .ok () b) := by
  unfold oneLine at h
  cases hparse : Line.parse text with
  | error e =>
    rw [hparse] at h
    cases h
  | ok parsed =>
    rw [hparse] at h
    obtain ⟨label, s?⟩ := parsed
    obtain ⟨u, a', hdefine, hrest⟩ := Step.bind_ok.mp h
    refine ⟨label, s?, a', rfl, (quiet_define label).of_ok hdefine, ?_⟩
    cases s? with
    | none => exact Or.inl ⟨rfl, (Step.pure_ok.mp hrest).2⟩
    | some s => exact Or.inr ⟨s, rfl, hrest⟩

theorem exists_of_locals {typeName name : String}
    (h : statement env line (.locals typeName name) a = .ok () b) :
    ∃ t reply s, env.typeNamed? typeName = some t ∧
      Sink.step (.declareLocal t name) a.sink = .ok reply s ∧
      { a with sink := s, locals := (name, reply.getD 0) :: a.locals } = b := by
  obtain ⟨t, a₁, hresolve, hrest⟩ := Step.bind_ok.mp h
  obtain ⟨ht, rfl⟩ := resolve_ok.mp hresolve
  obtain ⟨reply, a₂, hsend, hnote⟩ := Step.bind_ok.mp hrest
  obtain ⟨s, hstep, rfl⟩ := send_eq_ok.mp hsend
  exact ⟨t, reply, s, ht, hstep, Step.modify_ok.mp hnote⟩

theorem exists_of_instruction {mnemonic : String} {operand : Option Written}
    (h : statement env line (.instruction mnemonic operand) a = .ok () b) :
    ∃ op c a' reply s, Opcode.ofMnemonic? mnemonic = some op ∧
      callFor env line op operand a = .ok c a' ∧ Sink.step c a'.sink = .ok reply s ∧
      { a' with sink := s } = b := by
  rw [statement] at h
  cases hop : Opcode.ofMnemonic? mnemonic with
  | none =>
    rw [hop] at h
    cases h
  | some op =>
    rw [hop] at h
    obtain ⟨c, a', hcall, hrest⟩ := Step.bind_ok.mp h
    rw [Step.discard_eq] at hrest
    obtain ⟨reply, a'', hsend, hpure⟩ := Step.bind_ok.mp hrest
    obtain ⟨s, hstep, rfl⟩ := send_eq_ok.mp hsend
    exact ⟨op, c, a', reply, s, rfl, hcall, hstep, (Step.pure_ok.mp hpure).2⟩

/-- The call for an instruction on a variable that is written as a name. -/
theorem callFor_name {op : Opcode} {access : Access} {kind : VariableKind} {index? : Option Nat}
    {name : String} {c : Call} (hslot : op.category = .slot access kind index?)
    (h : callFor env line op (some (.name name)) a = .ok c b) :
    index? = none ∧ (op.operandKind = .shortVar ∨ op.operandKind = .var) ∧
      ∃ v, a.locals.lookup name = some v ∧ .emit op (.int32 (Int32.ofNat v)) = c ∧ a = b := by
  have hlookup : (do let index ← resolve line name ((← get).locals.lookup name)
                     return Call.emit op (.int32 (Int32.ofNat index)) : Work σ Call) a = .ok c b →
      ∃ v, a.locals.lookup name = some v ∧ .emit op (.int32 (Int32.ofNat v)) = c ∧ a = b := by
    intro hok
    rw [Step.get_bind] at hok
    obtain ⟨v, a', hresolve, hpure⟩ := Step.bind_ok.mp hok
    obtain ⟨hv, rfl⟩ := resolve_ok.mp hresolve
    exact ⟨v, hv, Step.pure_ok.mp hpure⟩
  unfold callFor at h
  rcases Opcode.operandKind_of_slot hslot with ⟨hindex, hkind | hkind⟩ | hkind
  · rw [hkind] at h
    exact ⟨hindex, Or.inl hkind, hlookup h⟩
  · rw [hkind] at h
    exact ⟨hindex, Or.inr hkind, hlookup h⟩
  · rw [hkind] at h
    cases h

end

end Assembler

/-- Making and marking labels leaves the cells and the locals as they are. -/
theorem Writer.laid_of_labels {π : Type} [TokenProvider π] {w w' : Writer π} {cells : List Writer.Cell}
    {calls : List Call} (h : w.Laid cells) (hcalls : ∀ c ∈ calls, c.isLabel = true)
    (hrun : Sink.run calls w = some w') : w'.Laid cells ∧ w'.locals = w.locals := by
  induction calls generalizing w with
  | nil =>
    cases hrun
    exact ⟨h, rfl⟩
  | cons c rest ih =>
    obtain ⟨reply, w₁, hstep, hrest⟩ := Sink.run_cons.mp hrun
    have hc := hcalls c List.mem_cons_self
    have hlaid := (advances_of_step h hstep).laid
    have hadded : added c w = [] := by cases c <;> first | rfl | cases hc
    rw [hadded, List.append_nil] at hlaid
    have hother : ∀ t name, c ≠ .declareLocal t name := by
      rintro t name rfl
      cases hc
    obtain ⟨hlaid', hlocals⟩ := ih hlaid (fun d hd => hcalls d (List.mem_cons_of_mem c hd)) hrest
    exact ⟨hlaid', hlocals.trans (locals_of_step h hother hstep)⟩

/-! ### Names along a text -/

namespace Assembler

open Assembly

variable {π : Type} {env : Environment} {line : Nat} {texts : List String}
  {cells : List Writer.Cell} {a b : Assembler (Writer π)}

/-- The local is what the declaration says. -/
def Declares (env : Environment) (d : String × String) (l : Ty × String) : Prop :=
  env.typeNamed? d.1 = some l.1 ∧ d.2 = l.2

/-- The local with the number of a declaration has the name that was declared. -/
theorem exists_local_of_latest {ds more : List (String × String)} {name : String} {i : Nat}
    {locals : Array (Ty × String)} (h : Latest ds name i)
    (hall : Forall₂ (Declares env) (ds ++ more) locals.toList) :
    ∃ t, locals[i]? = some (t, name) := by
  obtain ⟨typeName, hi⟩ := h.here
  have hd : (ds ++ more)[i]? = some (typeName, name) := by
    rw [List.getElem?_append_left h.lt_length, hi]
  obtain ⟨hlt, hget⟩ := List.getElem?_eq_some_iff.mp hd
  have hlt' : i < locals.toList.length := hall.length_eq ▸ hlt
  have hdeclares := hall.get hlt hlt'
  rw [List.get_eq_getElem, hget] at hdeclares
  have hname : name = locals.toList[i].2 := hdeclares.2
  exact ⟨locals.toList[i].1, by rw [← Array.getElem?_toList, List.getElem?_eq_getElem hlt', hname]⟩

/-- After the given lines the writer's locals are those that the lines declare, and a name that the
assembler has noted leads to its latest declaration, up to sixteen bits. -/
structure Known (env : Environment) (texts : List String) (cells : List Writer.Cell)
    (a : Assembler (Writer π)) : Prop where
  laid : a.sink.Laid cells
  locals : Forall₂ (Declares env) (declarations texts) a.sink.locals.toList
  names : ∀ name v, a.locals.lookup name = some v →
    ∃ i, Latest (declarations texts) name i ∧ v = i % 65536

theorem known_fresh (env : Environment) (p : π) :
    Known env [] [] { sink := ({ symbols := p } : Writer π) } where
  laid := Writer.laid_fresh p
  locals := .nil
  names := by
    intro name v h
    cases h

/-- A line that declares nothing. -/
theorem Known.skip {text : String} (h : Known env texts cells a) (hnone : declaration? text = none) :
    Known env (texts ++ [text]) cells a := by
  have hdeclarations : declarations (texts ++ [text]) = declarations texts := by
    rw [declarations_concat, hnone]
    exact List.append_nil _
  exact ⟨h.laid, hdeclarations ▸ h.locals, hdeclarations ▸ h.names⟩

variable [TokenProvider π]

theorem Known.labels (h : Known env texts cells a) (hlabels : OnlyLabels a b) :
    Known env texts cells b := by
  obtain ⟨calls, hcalls, hrun⟩ := hlabels.calls
  obtain ⟨hlaid, hlocals⟩ := Writer.laid_of_labels h.laid hcalls hrun
  exact ⟨hlaid, by rw [hlocals]; exact h.locals, by rw [hlabels.locals]; exact h.names⟩

/-- A line that declares a local.  The writer has a local for each declaration so far, so the index that
it gives to the new one is the number of those. -/
theorem Known.declare {text typeName name : String} {t : Ty} {reply : Option Nat} {w : Writer π}
    (h : Known env texts cells a) (hdeclaration : declaration? text = some (typeName, name))
    (ht : env.typeNamed? typeName = some t)
    (hstep : Sink.step (.declareLocal t name) a.sink = .ok reply w) :
    Known env (texts ++ [text]) cells
      { a with sink := w, locals := (name, reply.getD 0) :: a.locals } := by
  have hdeclarations : declarations (texts ++ [text]) = declarations texts ++ [(typeName, name)] := by
    rw [declarations_concat, hdeclaration]
    rfl
  have hsize : a.sink.locals.size = (declarations texts).length := by
    rw [h.locals.length_eq, Array.length_toList]
  have hlaid : w.Laid (cells ++ []) := (Writer.advances_of_step h.laid hstep).laid
  rw [List.append_nil] at hlaid
  cases hstep
  refine ⟨hlaid, ?_, ?_⟩
  · rw [hdeclarations, Array.toList_push]
    exact List.rel_append h.locals (.cons ⟨ht, rfl⟩ .nil)
  · intro other v hlookup
    rw [hdeclarations]
    by_cases hname : other = name
    · subst hname
      rw [List.lookup_cons_self, Option.some.injEq, Option.getD_some, hsize] at hlookup
      exact ⟨_, latest_concat _ _ _, hlookup.symm⟩
    · have hskip : a.locals.lookup other = some v := by
        rwa [List.lookup_cons, beq_eq_false_iff_ne.mpr hname] at hlookup
      obtain ⟨i, hlatest, hv⟩ := h.names other v hskip
      exact ⟨i, hlatest.concat typeName hname, hv⟩

/-- A line with an instruction.  It makes labels, if it names new ones, and then the instruction is put
behind the cells so far. -/
theorem Known.instruction {mnemonic : String} {operand : Option Written}
    (h : Known env texts cells a)
    (hstatement : statement env line (.instruction mnemonic operand) a = .ok () b) :
    ∃ op c a' reply, Opcode.ofMnemonic? mnemonic = some op ∧
      callFor env line op operand a = .ok c a' ∧ Sink.step c a'.sink = .ok reply b.sink ∧
      Known env texts (cells ++ Writer.added c a'.sink) b := by
  obtain ⟨op, c, a', reply, w, hop, hcall, hstep, rfl⟩ := exists_of_instruction hstatement
  have hprepares : Prepares line (callFor env line op operand : Work (Writer π) Call) :=
    prepares_callFor env line op operand
  have h' := h.labels (hprepares.quiet.of_ok hcall)
  have hother : ∀ t name, c ≠ .declareLocal t name := by
    rintro t name rfl
    cases hprepares.isInstruction _ _ _ hcall
  have hlocals : w.locals = a'.sink.locals := Writer.locals_of_step h'.laid hother hstep
  refine ⟨op, c, a', reply, hop, hcall, hstep, (Writer.advances_of_step h'.laid hstep).laid, ?_,
    h'.names⟩
  show Forall₂ (Declares env) (declarations texts) w.locals.toList
  rw [hlocals]
  exact h'.locals

theorem Known.of_oneLine {text : String} (h : Known env texts cells a)
    (hline : oneLine env line text a = .ok () b) :
    ∃ more, Known env (texts ++ [text]) (cells ++ more) b := by
  obtain ⟨label, s?, a', hparse, hlabels, hstatement⟩ := exists_of_oneLine hline
  have h' := h.labels hlabels
  rcases hstatement with ⟨rfl, rfl⟩ | ⟨s, rfl, hstatement⟩
  · refine ⟨[], ?_⟩
    rw [List.append_nil]
    exact h'.skip (by rw [declaration?, hparse])
  · cases s with
    | locals typeName name =>
      obtain ⟨t, reply, w, ht, hstep, rfl⟩ := exists_of_locals hstatement
      refine ⟨[], ?_⟩
      rw [List.append_nil]
      exact h'.declare (by rw [declaration?, hparse]) ht hstep
    | instruction mnemonic operand =>
      obtain ⟨_, _, _, _, -, -, -, hknown⟩ := h'.instruction hstatement
      exact ⟨_, hknown.skip (by rw [declaration?, hparse])⟩

/-- **Every line keeps the tables in step.** -/
theorem Known.of_eachLine {more : List String} (h : Known env texts cells a)
    (hlines : eachLine env line more a = .ok () b) :
    ∃ new, Known env (texts ++ more) (cells ++ new) b := by
  induction more generalizing line texts cells a with
  | nil =>
    cases hlines
    refine ⟨[], ?_⟩
    rw [List.append_nil, List.append_nil]
    exact h
  | cons text rest ih =>
    rw [Assembler.eachLine] at hlines
    obtain ⟨u, a', hline, hrest⟩ := Step.bind_ok.mp hlines
    obtain ⟨new, h'⟩ := h.of_oneLine hline
    obtain ⟨new', h''⟩ := ih h' hrest
    refine ⟨new ++ new', ?_⟩
    rw [List.append_assoc, List.append_assoc] at h''
    exact h''

/-- A line with an instruction on a named variable.  It puts one cell behind those so far, and the number
in it comes from the latest declaration of the name. -/
theorem Known.named {text name : String} {op : Opcode} {kind : VariableKind}
    (h : Known env texts cells a) (hnames : NamesVariable text op kind name)
    (hline : oneLine env line text a = .ok () b) :
    ∃ i, Latest (declarations texts) name i ∧
      (namedVariable op i).isWellFormed = true ∧
      (namedVariable op i).asRead = namedVariable op i ∧
      (namedVariable op i).accessed? = some (kind, ((i % 65536 : Nat) : Int)) ∧
      Known env (texts ++ [text]) (cells ++ [.fixed (namedVariable op i).bytes]) b := by
  obtain ⟨label, mnemonic, access, index?, hparse, hop, hslot⟩ := hnames
  obtain ⟨label', s?, a', hparse', hlabels, hstatement⟩ := exists_of_oneLine hline
  cases hparse.symm.trans hparse'
  rcases hstatement with ⟨hnone, -⟩ | ⟨s, hs, hstatement⟩
  · cases hnone
  · cases hs
    obtain ⟨op', c, a₁, reply, hop', hcall, hstep, hknown⟩ := (h.labels hlabels).instruction hstatement
    cases hop.symm.trans hop'
    obtain ⟨rfl, hkind, v, hlookup, rfl, rfl⟩ := callFor_name hslot hcall
    obtain ⟨i, hlatest, rfl⟩ := (h.labels hlabels).names name v hlookup
    have hwritable := ((Writer.step_instruction_ok rfl).mp hstep).2.1
    exact ⟨i, hlatest, hwritable, asRead_namedVariable hkind i, accessed?_namedVariable hslot i,
      hknown.skip (by rw [declaration?, hparse])⟩

end Assembler

/-! ### The whole text -/

/-- What stands in a cell is read back from the bytes. -/
theorem Writer.decode_of_laid {π : Type} {w : Writer π} {front back : List Writer.Cell}
    {i : Instruction} (h : w.Laid (front ++ .fixed i.bytes :: back)) (hformed : i.isWellFormed = true)
    (htable : i.TableFits) :
    ∃ d, Code.decode (w.bytes.drop (extent front)) = .ok d ∧ d.instruction = i.asRead := by
  have hdrop : w.bytes.drop (extent front) = i.bytes ++ image w.mark? back := by
    rw [bytes, h.code, image_append, ← length_image w.mark? front, List.drop_left]
    rfl
  rw [hdrop, Code.decode_bytes_append hformed htable]
  exact ⟨_, rfl, rfl⟩

open Assembly Assembler

variable {π : Type} [TokenProvider π]

/-- **What a named variable means.**  In a text that a fresh writer takes, the locals of the writer are
those that the text declares, in order and with their types.

An instruction on a variable that is written as a name stands where the lines before its own end.  There
the bytes hold that instruction with the number of the latest declaration of the name on a line before,
which is the place of that local in the list of the writer, taken in sixteen bits.  It gets at a variable
of the kind that its opcode is for.  So it gets at the local that was declared if and only if its opcode
is for locals and the place is one that sixteen bits can hold. -/
theorem variable_of_name (env : Environment) (text : String) (p : π) (w : Writer π)
    (h : assemble env text ({ symbols := p } : Writer π) = (.ok (), w)) :
    Forall₂ (Declares env) (declarations (Text.lines text)) w.locals.toList ∧
    ∀ front line back op kind name, Text.lines text = front ++ line :: back →
      NamesVariable line op kind name →
      ∃ i a d, Latest (declarations front) name i ∧
        (∃ t, w.locals[i]? = some (t, name)) ∧
        eachLine env 1 front { sink := ({ symbols := p } : Writer π) } = .ok () a ∧
        Code.decode (w.bytes.drop a.sink.offset) = .ok d ∧
        d.instruction = namedVariable op i ∧
        d.instruction.accessed? = some (kind, ((i % 65536 : Nat) : Int)) ∧
        (d.instruction.accessed? = some (.localVar, (i : Int)) ↔ kind = .localVar ∧ i < 65536) := by
  obtain ⟨c, reply, hlines, hfinish⟩ := exists_of_assemble h
  obtain ⟨-, hsame⟩ := Writer.silent_ok.mp hfinish
  obtain ⟨-, rfl⟩ := Writer.finish_ok.mp hsame
  obtain ⟨cells, hend⟩ := (known_fresh env p).of_eachLine hlines
  refine ⟨hend.locals, ?_⟩
  intro front line back op kind name htext hnames
  rw [htext, eachLine_append] at hlines
  obtain ⟨_, a, hfront, hrest⟩ := Step.bind_ok.mp hlines
  rw [eachLine] at hrest
  obtain ⟨_, b, hline, hback⟩ := Step.bind_ok.mp hrest
  obtain ⟨before, hbefore⟩ := (known_fresh env p).of_eachLine hfront
  obtain ⟨i, hlatest, hformed, hread, hvariable, hnamed⟩ := hbefore.named hnames hline
  obtain ⟨after, hafter⟩ := hnamed.of_eachLine hback
  have hlaid := hafter.laid
  rw [List.append_assoc, List.singleton_append] at hlaid
  obtain ⟨d, hdecode, hinstruction⟩ := Writer.decode_of_laid hlaid hformed trivial
  rw [hread] at hinstruction
  rw [← hinstruction] at hvariable
  rw [← hbefore.laid.offset_eq] at hdecode
  refine ⟨i, a, d, hlatest, ?_, hfront, hdecode, hinstruction, hvariable, ?_⟩
  · have hlocals := hend.locals
    rw [List.nil_append, htext, declarations_append] at hlocals
    exact exists_local_of_latest hlatest hlocals
  · rw [hvariable]
    simp only [Option.some.injEq, Prod.mk.injEq, Int.natCast_inj]
    have hindex : i % 65536 = i ↔ i < 65536 := by omega
    rw [hindex]

/-- A name that is declared twice and then used for a local and for an argument. -/
def namedText : String :=
  ".locals int32 x\n.locals int32 y\n.locals int64 x\nldloc x\nldarg x\npop\npop\nret"

/-- One name in one text: the first instruction loads the third local and the second one the third
argument. -/
theorem variable_of_name_namedText :
    ∃ w, assemble .initial namedText ({} : Writer) = (.ok (), w) ∧
      (∃ n d, Code.decode (w.bytes.drop n) = .ok d ∧ d.instruction.accessed? = some (.localVar, 2)) ∧
      (∃ n d, Code.decode (w.bytes.drop n) = .ok d ∧ d.instruction.accessed? = some (.argument, 2)) ∧
      ∃ t, w.locals[2]? = some (t, "x") := by
  have hok : (assemble .initial namedText ({} : Writer)).1.isOk = true := by
    decide +kernel
  have hlines : Text.lines namedText
      = [".locals int32 x", ".locals int32 y", ".locals int64 x"] ++ "ldloc x" ::
        ["ldarg x", "pop", "pop", "ret"] := by
    decide +kernel
  have hlines' : Text.lines namedText
      = [".locals int32 x", ".locals int32 y", ".locals int64 x", "ldloc x"] ++ "ldarg x" ::
        ["pop", "pop", "ret"] :=
    hlines
  have hlocal : NamesVariable "ldloc x" .ldloc .localVar "x" :=
    ⟨none, "ldloc", .load, none, by decide +kernel, by decide +kernel, rfl⟩
  have hargument : NamesVariable "ldarg x" .ldarg .argument "x" :=
    ⟨none, "ldarg", .load, none, by decide +kernel, by decide +kernel, rfl⟩
  have hlatest : Latest [("int32", "x"), ("int32", "y"), ("int64", "x")] "x" 2 :=
    latest_concat [("int32", "x"), ("int32", "y")] "int64" "x"
  have hfront : declarations [".locals int32 x", ".locals int32 y", ".locals int64 x"]
      = [("int32", "x"), ("int32", "y"), ("int64", "x")] := by
    decide +kernel
  have hfront' : declarations [".locals int32 x", ".locals int32 y", ".locals int64 x", "ldloc x"]
      = [("int32", "x"), ("int32", "y"), ("int64", "x")] := by
    decide +kernel
  cases h : assemble .initial namedText ({} : Writer) with
  | mk answer w =>
    rw [h] at hok
    cases answer with
    | error e => exact nomatch hok
    | ok u =>
      obtain ⟨-, hnamed⟩ := variable_of_name .initial namedText _ w h
      obtain ⟨i, a, d, hi, hplace, -, hd, -, hv, -⟩ := hnamed _ _ _ _ _ _ hlines hlocal
      obtain ⟨j, b, d', hj, -, -, hd', -, hv', -⟩ := hnamed _ _ _ _ _ _ hlines' hargument
      rw [hfront] at hi
      rw [hfront'] at hj
      cases hi.unique hlatest
      cases hj.unique hlatest
      exact ⟨w, rfl, ⟨_, d, hd, hv⟩, ⟨_, d', hd', hv'⟩, hplace⟩

end Cil
