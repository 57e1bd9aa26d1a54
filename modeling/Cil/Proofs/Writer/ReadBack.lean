/-
What was written is read back.

The cells of a call are the bytes of one instruction, which the decoder finds where the code ended when
the call was made.  The others follow from that one after another, for the offset of each is the end of
the one before it (`found_run`).  Once a body has ended no fixup waits, so every place of the code holds
the distance to a marked label (`Laid.settled`).
-/
import Cil.Proofs.Writer.Filling

namespace Cil

namespace Writer

/-- The distance leads from an offset to the mark of a label. -/
def Leads (marks : List (Nat × Nat)) (stop label : Nat) (distance : Int32) : Prop :=
  ∃ m, (label, m) ∈ marks ∧ distance.toInt = (m : Int) - stop

/-- What a call is read back as, where the labels have the given marks, the provider was in the given
state when the call was made, and the instruction ends at `stop`. -/
def ReadAs {π : Type} [TokenProvider π] (marks : List (Nat × Nat)) (p : π) (stop : Nat) :
    Call → Instruction → Prop
  | .emit op x, i => i = .plain op (x.asRead op.operandKind)
  | .branch op label, i => ∃ distance, Leads marks stop label distance ∧ i = .plain op (.int32 distance)
  | .switch labels, i => ∃ distances, List.Forall₂ (Leads marks stop) labels distances ∧
      i = .switch distances
  | .invoke op m, i => i = .plain op (.token (calledToken op m p).1)
  | .field op f, i => i = .plain op (.token (TokenProvider.fieldToken f p).1)
  | .type op t, i => i = .plain op (.token (TokenProvider.typeToken t p).1)
  | .token op m, i => i = .plain op (.token (TokenProvider.memberToken m p).1)
  | .string op value, i => i = .plain op (.token (TokenProvider.stringToken value p).1)
  | _, _ => False

/-- Every place holds the distance to a marked label. -/
def Settled (marks : Nat → Option Nat) (cells : List Cell) : Prop :=
  ∀ f, .slot f ∈ cells → ∃ target, marks f.label = some target ∧
    f.fits ((target : Int) - f.origin) = true

theorem Laid.settled {π : Type} {w : Writer π} {cells : List Cell} (h : w.Laid cells)
    (hfixups : w.fixups = []) : Settled w.mark? cells := by
  intro f hf
  cases hmark : w.mark? f.label with
  | some target => exact ⟨target, rfl, h.fits f hf target hmark⟩
  | none =>
    have hwaits : f ∈ w.fixups := by
      rw [h.fixups]
      exact List.mem_filterMap.mpr ⟨.slot f, hf, Cell.waiting_of_none hmark⟩
    rw [hfixups] at hwaits
    exact absurd hwaits List.not_mem_nil

/-- Where every place is settled, what stands in it reaches the label. -/
theorem holds_of_settled {places : Nat → Option Nat} {cells : List Cell} (h : Settled places cells) :
    ∀ c ∈ cells, c.Holds (Reaches places) (c.bytes places) := by
  intro c hc
  cases c with
  | fixed bytes => exact .fixed bytes
  | slot f =>
    obtain ⟨target, htarget, hfits⟩ := h f hc
    exact Cell.holds_of_some htarget hfits fun distance hdistance => ⟨target, htarget, hdistance.symm⟩

/-- The decoder gives back an operand that has its opcode's kind, and a branch or a token has. -/
theorem readAs_of_writtenAs {π : Type} [TokenProvider π] {marks : List (Nat × Nat)} {c : Call} {p : π}
    {stop : Nat} {i : Instruction} (hwritable : c.Writable)
    (h : c.WrittenAs (Leads marks) (c.tokenFrom p).1 stop i) : ReadAs marks p stop c i.asRead := by
  cases c with
  | branch op label =>
    obtain ⟨b, hcategory, hone⟩ := hwritable
    obtain ⟨distance, hleads, rfl⟩ := h
    refine ⟨distance, hleads, ?_⟩
    show Instruction.plain op ((Operand.int32 distance).asRead op.operandKind) = _
    rw [Opcode.operandKind_of_branch hcategory hone]
    cases b.short <;> rfl
  | switch labels =>
    obtain ⟨distances, hall, rfl⟩ := h
    exact ⟨distances, hall, rfl⟩
  | declareLocal t name => exact h.elim
  | createLabel name => exact h.elim
  | markLabel label => exact h.elim
  | finish => exact h.elim
  | _ =>
    cases h
    rfl

/-! ### Runs -/

variable {π : Type} [TokenProvider π] {w w' : Writer π} {calls : List Call} {cells : List Cell}

/-- The item stands where the code ended when the call was made, and holds what the call is read back
as. -/
def Yields (marks : List (Nat × Nat)) (made : Call × Writer π) (item : Reader.Item) : Prop :=
  item.offset = made.2.bytes.length ∧ ∃ i, item.result = .ok i ∧
    ReadAs marks made.2.symbols (item.offset + i.size) made.1 i

/-- The instructions of a run, each with the writer it was given to. -/
def instructions (history : List (Call × Writer π)) : List (Call × Writer π) :=
  history.filter (·.1.opcode?.isSome)

omit [TokenProvider π] in
theorem mem_instructions_cons {made first : Call × Writer π} {history : List (Call × Writer π)}
    (h : made ∈ instructions history) : made ∈ instructions (first :: history) := by
  obtain ⟨hmem, hsome⟩ := List.mem_filter.mp h
  exact List.mem_filter.mpr ⟨List.mem_cons_of_mem _ hmem, hsome⟩

theorem cells_of_opcode?_eq_none {c : Call} (hop : c.opcode? = none) (token : Option Token)
    (start : Nat) : c.cells token start = [] := by
  cases c <;> first | rfl | exact nomatch hop

/-- The item stands where the code ended when the call was made, and holds the call's instruction. -/
def Found (R : Nat → Nat → Int32 → Prop) (made : Call × Writer π) (item : Reader.Item) : Prop :=
  item.offset = made.2.bytes.length ∧ made.1.Writable ∧ ∃ i : Instruction, item.result = .ok i.asRead ∧
    made.1.WrittenAs R (made.1.tokenFrom made.2.symbols).1 (item.offset + i.size) i

/-- **The instructions of a run are found in its code, one after another.** -/
theorem found_run {places : Nat → Option Nat} {R : Nat → Nat → Int32 → Prop} (h : w.Laid cells)
    (hrun : Sink.run calls w = some w')
    (htables : ∀ targets, .switch targets ∈ calls → targets.length < 2 ^ 32)
    (hholds : ∀ c ∈ written (Sink.history calls w), c.Holds R (c.bytes places)) :
    List.Forall₂ (Found R) (instructions (Sink.history calls w))
      (Reader.items { rest := image places (written (Sink.history calls w)), offset := w.offset }) := by
  induction calls generalizing w cells with
  | nil =>
    show List.Forall₂ _ [] (Reader.items { rest := [], offset := w.offset })
    rw [Code.items_nil]
    exact .nil
  | cons c rest ih =>
    obtain ⟨reply, w₁, hstep, hrest⟩ := Sink.run_cons.mp hrun
    have hadvances := advances_of_step h hstep
    rw [Sink.history_cons rest hstep] at hholds ⊢
    have hwritten : written ((c, w) :: Sink.history rest w₁)
        = added c w ++ written (Sink.history rest w₁) := List.flatMap_cons
    rw [hwritten] at hholds ⊢
    have hfound := ih hadvances.laid hrest
      (fun targets ht => htables targets (List.mem_cons_of_mem _ ht))
      fun cell hcell => hholds cell (List.mem_append_right _ hcell)
    rw [hadvances.offset] at hfound
    cases hop : c.opcode? with
    | none =>
      have hadded : added c w = [] := cells_of_opcode?_eq_none hop _ _
      have hinstructions : instructions ((c, w) :: Sink.history rest w₁)
          = instructions (Sink.history rest w₁) := List.filter_cons_of_neg (by simp [hop])
      rw [hadded] at hfound ⊢
      rw [hinstructions]
      exact hfound
    | some op =>
      obtain ⟨-, hwritable, -⟩ := (step_instruction_ok hop).mp hstep
      obtain ⟨i, hformed, hbytes, hwrittenAs⟩ := exists_instruction_of_holds hop hwritable
        (forall₂_holds fun cell hcell => hholds cell (List.mem_append_left _ hcell))
      have htable := Call.tableFits_of_writtenAs hwrittenAs
        fun targets hc => htables targets (hc ▸ List.mem_cons_self)
      have himage : image places (added c w) = i.bytes := hbytes
      have hextent : extent (added c w) = i.size := by
        rw [← length_image places, ← Code.length_bytes_instruction]
        exact congrArg List.length himage
      have hinstructions : instructions ((c, w) :: Sink.history rest w₁)
          = (c, w) :: instructions (Sink.history rest w₁) := List.filter_cons_of_pos (by simp [hop])
      have hitems := Code.items_of_decode (Code.decode_bytes_append hformed htable
        (image places (written (Sink.history rest w₁)))) w.offset
      rw [hextent] at hfound
      rw [hinstructions, image_append, himage, hitems]
      exact .cons ⟨rfl, hwritable, i, rfl, hwrittenAs⟩ hfound

theorem yields_run {places : Nat → Option Nat} {marks : List (Nat × Nat)} (h : w.Laid cells)
    (hrun : Sink.run calls w = some w')
    (htables : ∀ targets, .switch targets ∈ calls → targets.length < 2 ^ 32)
    (hsettled : Settled places (written (Sink.history calls w)))
    (hplaces : ∀ label m, places label = some m → (label, m) ∈ marks) :
    List.Forall₂ (Yields marks) (instructions (Sink.history calls w))
      (Reader.items { rest := image places (written (Sink.history calls w)), offset := w.offset }) := by
  have hholds : ∀ c ∈ written (Sink.history calls w), c.Holds (Leads marks) (c.bytes places) := by
    intro c hc
    refine (holds_of_settled hsettled c hc).mono ?_
    rintro stop label distance ⟨m, hm, hdistance⟩
    exact ⟨m, hplaces label m hm, hdistance.symm⟩
  refine (found_run h hrun htables hholds).imp ?_
  rintro made item ⟨hoffset, hwritable, i, hresult, hwrittenAs⟩
  refine ⟨hoffset, i.asRead, hresult, ?_⟩
  rw [Code.size_asRead]
  exact readAs_of_writtenAs hwritable hwrittenAs

/-- Where a run starts there is an instruction, unless it writes none. -/
theorem offset_run (h : w.Laid cells) (hrun : Sink.run calls w = some w') :
    w.offset = w'.offset ∨
      ∃ made ∈ instructions (Sink.history calls w), made.2.offset = w.offset := by
  induction calls generalizing w cells with
  | nil =>
    rw [Sink.run, Option.some.injEq] at hrun
    exact .inl (congrArg offset hrun)
  | cons c rest ih =>
    obtain ⟨reply, w₁, hstep, hrest⟩ := Sink.run_cons.mp hrun
    have hadvances := advances_of_step h hstep
    rw [Sink.history_cons rest hstep]
    cases hop : c.opcode? with
    | some op =>
      exact .inr ⟨(c, w), List.mem_filter.mpr ⟨List.mem_cons_self, by simp [hop]⟩, rfl⟩
    | none =>
      have hoffset : w₁.offset = w.offset := by
        rw [hadvances.offset, added, cells_of_opcode?_eq_none hop]
        rfl
      rw [← hoffset]
      rcases ih hadvances.laid hrest with hend | ⟨made, hmade, heq⟩
      · exact .inl hend
      · exact .inr ⟨made, mem_instructions_cons hmade, heq⟩

/-- Every call of a run was made where an instruction starts or where the code ends. -/
theorem offset_of_mem_history (h : w.Laid cells) (hrun : Sink.run calls w = some w')
    {made : Call × Writer π} (hmade : made ∈ Sink.history calls w) :
    made.2.offset = w'.offset ∨
      ∃ next ∈ instructions (Sink.history calls w), next.2.offset = made.2.offset := by
  induction calls generalizing w cells with
  | nil => exact absurd hmade List.not_mem_nil
  | cons c rest ih =>
    obtain ⟨reply, w₁, hstep, hrest⟩ := Sink.run_cons.mp hrun
    rw [Sink.history_cons rest hstep] at hmade
    rcases List.mem_cons.mp hmade with rfl | hmade
    · exact offset_run h hrun
    · rw [Sink.history_cons rest hstep]
      rcases ih (advances_of_step h hstep).laid hrest hmade with hend | ⟨next, hnext, heq⟩
      · exact .inl hend
      · exact .inr ⟨next, mem_instructions_cons hnext, heq⟩

/-- **What a body was written as is what it is read back as.**  Each instruction is found once, in
order and without an error, its branches lead to the marks of their labels, and every label is marked
once, at the start of an instruction or at the end of the code. -/
theorem yields_items_of_run {p : π} (hrun : Sink.run (calls ++ [.finish]) { symbols := p } = some w)
    (htables : ∀ targets, .switch targets ∈ calls → targets.length < 2 ^ 32) :
    (Sink.history calls ({ symbols := p } : Writer π)).map Prod.fst = calls ∧
      List.Forall₂ (Yields (marks (Sink.history calls { symbols := p })))
        (instructions (Sink.history calls { symbols := p })) (Code.items w.bytes) ∧
      ((marks (Sink.history calls ({ symbols := p } : Writer π))).map Prod.fst).Nodup ∧
      ∀ label m, (label, m) ∈ marks (Sink.history calls ({ symbols := p } : Writer π)) →
        m = w.bytes.length ∨ ∃ item ∈ Code.items w.bytes, item.offset = m := by
  have hfresh := laid_fresh p
  obtain ⟨w₁, hcalls, hlast⟩ := Sink.run_append.mp hrun
  obtain ⟨reply, w₂, hfinish, hdone⟩ := Sink.run_cons.mp hlast
  obtain ⟨-, hfinish⟩ := silent_ok.mp hfinish
  obtain ⟨hfixups, rfl⟩ := finish_ok.mp hfinish
  obtain rfl : w₁ = w := Option.some.inj hdone
  have hlaid := laid_run hfresh hcalls
  have hplaces : ∀ label m, w₁.mark? label = some m →
      (label, m) ∈ marks (Sink.history calls ({ symbols := p } : Writer π)) := by
    intro label m hmark
    rcases (mark?_run hfresh hcalls label m).mp hmark with hearly | hmem
    · exact nomatch hearly
    · exact hmem
  have hyields := yields_run hfresh hcalls htables (hlaid.settled hfixups) hplaces
  have hitems : Code.items w₁.bytes = Reader.items
      { rest := image w₁.mark? (written (Sink.history calls ({ symbols := p } : Writer π)))
        offset := 0 } := by
    unfold Code.items bytes
    rw [hlaid.code]
    rfl
  rw [hitems]
  refine ⟨Sink.map_fst_history hcalls, hyields, (nodup_marks hfresh hcalls).1, ?_⟩
  intro label m hm
  obtain ⟨made, hmade, hmarked⟩ := List.mem_filterMap.mp hm
  obtain ⟨l, -, hpair⟩ := Option.map_eq_some_iff.mp hmarked
  cases hpair
  rcases offset_of_mem_history hfresh hcalls hmade with hend | ⟨next, hnext, heq⟩
  · exact .inl hend
  · obtain ⟨⟨n, hn⟩, rfl⟩ := List.mem_iff_get.mp hnext
    have hn' := hn
    rw [hyields.length_eq] at hn'
    obtain ⟨hoffset, -⟩ := hyields.get hn hn'
    exact .inr ⟨_, List.get_mem _ _, hoffset.trans heq⟩

/-- A dispatch loop: branches ahead and back, in the short and in the long form, a string, and a jump
table that names a label twice. -/
def dispatchLoop : List Call :=
  [.createLabel "head", .createLabel "exit", .markLabel 0, .emit .ldcI4S (.int32 (-3)),
    .branch .brtrueS 1, .string .ldstr "sum", .branch .brfalse 0, .emit .ldcI4 (.int32 2),
    .switch [1, 0, 1], .branch .brS 0, .markLabel 1, .emit .ret .none]

theorem yields_items_dispatchLoop : ∃ w : Writer,
    Sink.run (dispatchLoop ++ [.finish]) { symbols := {} } = some w ∧
      w.bytes = [0x1F, 0xFD, 0x2D, 34, 0x72, 1, 0, 0, 0x70, 0x39, 242, 255, 255, 255, 0x20, 2, 0, 0, 0,
        0x45, 3, 0, 0, 0, 2, 0, 0, 0, 220, 255, 255, 255, 2, 0, 0, 0, 0x2B, 218, 0x2A] ∧
      List.Forall₂ (Yields [(0, 0), (1, 38)])
        (instructions (Sink.history dispatchLoop ({ symbols := {} } : Writer))) (Code.items w.bytes) := by
  have hbytes : (Sink.run (dispatchLoop ++ [.finish]) ({ symbols := {} } : Writer)).map Writer.bytes
      = some [0x1F, 0xFD, 0x2D, 34, 0x72, 1, 0, 0, 0x70, 0x39, 242, 255, 255, 255, 0x20, 2, 0, 0, 0,
        0x45, 3, 0, 0, 0, 2, 0, 0, 0, 220, 255, 255, 255, 2, 0, 0, 0, 0x2B, 218, 0x2A] := by
    decide +kernel
  have hmarks : marks (Sink.history dispatchLoop ({ symbols := {} } : Writer)) = [(0, 0), (1, 38)] := by
    decide +kernel
  have htables : ∀ targets, Call.switch targets ∈ dispatchLoop → targets.length < 2 ^ 32 := by
    intro targets htargets
    simp only [dispatchLoop, List.mem_cons, Call.switch.injEq, reduceCtorEq, false_or, or_false,
      List.not_mem_nil] at htargets
    subst htargets
    decide
  obtain ⟨w, hw, hwbytes⟩ := Option.map_eq_some_iff.mp hbytes
  obtain ⟨-, hyields, -⟩ := yields_items_of_run hw htables
  rw [hmarks] at hyields
  exact ⟨w, hw, hwbytes, hyields⟩

end Writer

end Cil
