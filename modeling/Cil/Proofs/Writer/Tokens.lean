/-
Tokens in the code stand for what was written.

A token is written long before the symbol table is done.  Two things have to be put together for it to
be worth anything at the end.  No binding is lost while there is room: a symbol that is new gets a row
that nothing is bound to, as long as the table has no more symbols than rows (`Interned.intern`).  And the
bytes of an instruction with a token never change, so the decoder finds it where the code ended when the
call was made (`carries_of_mem_history`).
-/
import Cil.Proofs.SymbolTable
import Cil.Proofs.Writer.ReadBack
import Mathlib.Data.Finset.Card
import Mathlib.Data.Finset.Dedup

namespace Cil

/-- The symbol that a call refers to. -/
def Call.symbol? : Call → Option Symbol
  | .invoke op m => some (if op.category = .call .indirect then .ofSignature m else .ofMethod m)
  | .field _ f => some (.ofField f)
  | .type _ t => some (.ofType t)
  | .token _ m => some (.ofMember m)
  | .string _ value => some (.string value)
  | _ => none

/-- The symbols that some calls refer to. -/
def Call.symbols (calls : List Call) : Finset Symbol :=
  (calls.filterMap Call.symbol?).toFinset

/-- The number of symbols that belong to a table. -/
def Symbol.countIn (symbols : Finset Symbol) (table : UInt8) : Nat :=
  (symbols.filter (·.table = table)).card

namespace SymbolTable

variable {t : SymbolTable} {symbol : Symbol} {seen : Finset Symbol}

theorem countIn_mono {seen seen' : Finset Symbol} (h : seen ⊆ seen') (table : UInt8) :
    Symbol.countIn seen table ≤ Symbol.countIn seen' table :=
  Finset.card_le_card (Finset.filter_subset_filter _ h)

/-- A symbol that is new is counted in its own table. -/
theorem countIn_insert (hnew : symbol ∉ seen) :
    Symbol.countIn (insert symbol seen) symbol.table = Symbol.countIn seen symbol.table + 1 := by
  have hnot : symbol ∉ seen.filter (·.table = symbol.table) := fun h => hnew (Finset.mem_filter.mp h).1
  unfold Symbol.countIn
  rw [Finset.filter_insert, if_pos rfl, Finset.card_insert_of_notMem hnot]

/-- The symbols seen are bound, and no row was handed out for anything else. -/
structure Interned (t : SymbolTable) (seen : Finset Symbol) : Prop where
  consistent : Consistent t
  bound : ∀ symbol ∈ seen, (t.token? symbol).isSome = true
  lastRow_le : ∀ table, t.lastRow table ≤ Symbol.countIn seen table

theorem interned_empty : Interned {} ∅ where
  consistent := consistent_empty
  bound := by simp
  lastRow_le := by simp [lastRow]

/-- **While there is room, a symbol gets a token and no binding is lost.** -/
theorem Interned.intern (h : Interned t seen)
    (hroom : Symbol.countIn (insert symbol seen) symbol.table ≤ maxRow) :
    Interned (t.intern symbol).2 (insert symbol seen) ∧
      (t.intern symbol).2.token? symbol = some (t.intern symbol).1 ∧
      ∀ other token, t.token? other = some token → (t.intern symbol).2.token? other = some token := by
  have hcons := h.consistent
  have hmono := countIn_mono (Finset.subset_insert symbol seen)
  cases hbound : t.token? symbol with
  | some token =>
    rw [intern_of_bound hbound]
    refine ⟨⟨hcons, ?_, fun table => Nat.le_trans (h.lastRow_le table) (hmono table)⟩, hbound,
      fun _ _ hother => hother⟩
    intro s hs
    rcases Finset.mem_insert.mp hs with rfl | hs
    · simp [hbound]
    · exact h.bound s hs
  | none =>
    have hnew : symbol ∉ seen := by
      intro hseen
      have hsome := h.bound symbol hseen
      simp [hbound] at hsome
    have hcount := countIn_insert hnew
    have hlast := h.lastRow_le symbol.table
    have hput := hcons.intern hbound
    have hfree : t.symbol? (t.freshToken symbol) = none := hcons.symbol?_freshToken (by omega)
    rw [intern_of_free hbound] at hput ⊢
    obtain ⟨hfresh, hkept⟩ := hcons.kept_put hbound hfree hput
    have hold : ∀ other token, t.token? other = some token →
        (t.put ⟨t.freshToken symbol, symbol⟩ (t.nextRow symbol.table)).token? other = some token := by
      intro other token hother
      have hne : other ≠ symbol := by
        rintro rfl
        simp [hbound] at hother
      rw [hkept other hne, hother]
    refine ⟨⟨hput, ?_, ?_⟩, hfresh, hold⟩
    · intro s hs
      rcases Finset.mem_insert.mp hs with rfl | hs
      · simp [hfresh]
      · obtain ⟨token, htoken⟩ := Option.isSome_iff_exists.mp (h.bound s hs)
        simp [hold s token htoken]
    · intro table
      rw [lastRow_put, table_freshToken]
      by_cases htable : table = symbol.table
      · rw [if_pos htable, htable, nextRow]
        omega
      · rw [if_neg htable]
        exact Nat.le_trans (h.lastRow_le table) (hmono table)

end SymbolTable

/-! ### Calls -/

/-- The symbol table is asked for the call's symbol. -/
theorem Call.tokenFrom_of_some {c : Call} {symbol : Symbol} (h : c.symbol? = some symbol)
    (t : SymbolTable) : c.tokenFrom t = (some (t.intern symbol).1, (t.intern symbol).2) := by
  cases c with
  | invoke op m =>
    cases h
    show (some (Writer.calledToken op m t).1, (Writer.calledToken op m t).2) = _
    unfold Writer.calledToken
    split <;> rfl
  | field op f =>
    cases h
    rfl
  | type op ty =>
    cases h
    rfl
  | token op m =>
    cases h
    rfl
  | string op value =>
    cases h
    rfl
  | _ => exact nomatch h

theorem Call.tokenFrom_of_none {c : Call} (h : c.symbol? = none) (t : SymbolTable) :
    c.tokenFrom t = (none, t) := by
  cases c <;> first | rfl | cases h

/-- What refers to a symbol is an instruction, and its one cell has the token. -/
theorem Call.cells_of_symbol? {c : Call} {symbol : Symbol} (h : c.symbol? = some symbol)
    (token : Token) (start : Nat) : ∃ op, c.opcode? = some op ∧
      c.cells (some token) start = [.fixed (Instruction.plain op (.token token)).bytes] ∧
      (c.Writable → op.operandKind.isToken = true) := by
  cases c with
  | invoke op m => exact ⟨op, rfl, rfl, id⟩
  | field op f => exact ⟨op, rfl, rfl, id⟩
  | type op t => exact ⟨op, rfl, rfl, id⟩
  | token op m => exact ⟨op, rfl, rfl, id⟩
  | string op value => exact ⟨op, rfl, rfl, id⟩
  | _ => exact nomatch h

theorem Call.eq_of_writtenAs {R : Nat → Nat → Int32 → Prop} {c : Call} {symbol : Symbol} {op : Opcode}
    {token : Token} {stop : Nat} {i : Instruction} (hsymbol : c.symbol? = some symbol)
    (hop : c.opcode? = some op) (h : c.WrittenAs R (some token) stop i) :
    i = .plain op (.token token) := by
  cases c with
  | invoke op' m =>
    cases hop
    exact h
  | field op' f =>
    cases hop
    exact h
  | type op' t =>
    cases hop
    exact h
  | token op' m =>
    cases hop
    exact h
  | string op' value =>
    cases hop
    exact h
  | _ => exact nomatch hsymbol

namespace Writer

open SymbolTable (Interned)

/-! ### What the code holds -/

section

variable {π : Type} [TokenProvider π] {w w' : Writer π} {calls : List Call} {cells : List Cell}
  {made : Call × Writer π}

/-- The cells of a call stand where the code ended when the call was made. -/
theorem cells_of_mem_history (h : w.Laid cells) (hrun : Sink.run calls w = some w')
    (hmade : made ∈ Sink.history calls w) :
    (∃ reply w₁, Sink.step made.1 made.2 = .ok reply w₁) ∧ ∃ front back,
      cells ++ written (Sink.history calls w) = front ++ (added made.1 made.2 ++ back) ∧
        extent front = made.2.offset := by
  induction calls generalizing w cells with
  | nil => exact absurd hmade List.not_mem_nil
  | cons c rest ih =>
    obtain ⟨reply, w₁, hstep, hrest⟩ := Sink.run_cons.mp hrun
    rw [Sink.history_cons rest hstep] at hmade ⊢
    have hwritten : written ((c, w) :: Sink.history rest w₁)
        = added c w ++ written (Sink.history rest w₁) := List.flatMap_cons
    rcases List.mem_cons.mp hmade with rfl | hmade
    · exact ⟨⟨reply, w₁, hstep⟩, cells, _, congrArg (cells ++ ·) hwritten, h.offset_eq.symm⟩
    · obtain ⟨hok, front, back, hcells, hextent⟩ := ih (advances_of_step h hstep).laid hrest hmade
      refine ⟨hok, front, back, ?_, hextent⟩
      rw [hwritten, ← hcells, List.append_assoc]

end

variable {w w' : Writer} {calls : List Call} {cells : List Cell} {seen : Finset Symbol}

/-- The decoder finds the token in the call's instruction. -/
def Carries (w : Writer) (made : Call × Writer) (token : Token) : Prop :=
  ∃ op d, made.1.opcode? = some op ∧ Code.decode (w.bytes.drop made.2.bytes.length) = .ok d ∧
    d.instruction = .plain op (.token token)

theorem Carries.unique {made : Call × Writer} {token token' : Token} (h : Carries w made token)
    (h' : Carries w made token') : token = token' := by
  obtain ⟨op, d, -, hdecode, hinstruction⟩ := h
  obtain ⟨op', d', -, hdecode', hinstruction'⟩ := h'
  rw [hdecode, Except.ok.injEq] at hdecode'
  subst hdecode'
  rw [hinstruction] at hinstruction'
  cases hinstruction'
  rfl

theorem carries_of_mem_history (h : w.Laid cells) (hrun : Sink.run calls w = some w')
    {made : Call × Writer} (hmade : made ∈ Sink.history calls w) {symbol : Symbol}
    (hsymbol : made.1.symbol? = some symbol) {token : Token}
    (htoken : (made.1.tokenFrom made.2.symbols).1 = some token) : Carries w' made token := by
  obtain ⟨⟨reply, w₁, hstep⟩, front, back, hcells, hextent⟩ := cells_of_mem_history h hrun hmade
  obtain ⟨op, hop, hcell, hkind⟩ := made.1.cells_of_symbol? hsymbol token made.2.offset
  obtain ⟨-, hwritable, -⟩ := (step_instruction_ok hop).mp hstep
  have hadded : added made.1 made.2 = [.fixed (Instruction.plain op (.token token)).bytes] := by
    unfold added
    rw [htoken]
    exact hcell
  have hbytes : w'.bytes = image w'.mark? front ++
      ((Instruction.plain op (.token token)).bytes ++ image w'.mark? back) := by
    have hfixed : image w'.mark? [.fixed (Instruction.plain op (.token token)).bytes]
        = (Instruction.plain op (.token token)).bytes := List.append_nil _
    unfold bytes
    rw [(laid_run h hrun).code, hcells, image_append, image_append, hadded, hfixed]
  have hlength : (image w'.mark? front).length = made.2.bytes.length := by
    rw [length_image, hextent]
    rfl
  have hformed := (isWellFormed_token op token).trans (hkind hwritable)
  have hrest : w'.bytes.drop made.2.bytes.length
      = (Instruction.plain op (.token token)).bytes ++ image w'.mark? back := by
    rw [hbytes, ← hlength, List.drop_left]
  have hdecode := Code.decode_bytes_append hformed trivial (image w'.mark? back)
  rw [← hrest] at hdecode
  exact ⟨op, _, hop, hdecode, rfl⟩

/-- Whatever the labels are marked at, some distance stands in every place. -/
theorem Laid.holds (h : w.Laid cells) :
    ∀ c ∈ cells, c.Holds (fun _ _ _ => True) (c.bytes w.mark?) := by
  intro c hc
  cases c with
  | fixed bytes => exact .fixed bytes
  | slot f =>
    cases hmark : w.mark? f.label with
    | some target => exact Cell.holds_of_some hmark (h.fits f hc target hmark) fun _ _ => trivial
    | none =>
      rw [Cell.bytes_of_none hmark]
      exact Cell.holds_zeros trivial

theorem exists_of_forall₂ {α β : Type} {R : α → β → Prop} {as : List α} {bs : List β}
    (h : List.Forall₂ R as bs) {a : α} (ha : a ∈ as) : ∃ b ∈ bs, R a b := by
  induction h with
  | nil => exact absurd ha List.not_mem_nil
  | @cons a' b as bs hfirst hrest ih =>
    rcases List.mem_cons.mp ha with rfl | ha
    · exact ⟨b, List.mem_cons_self, hfirst⟩
    · obtain ⟨b', hb', hab'⟩ := ih ha
      exact ⟨b', List.mem_cons_of_mem b hb', hab'⟩

/-- The call's instruction is among those that are read from the whole code. -/
theorem item_of_mem_history (hrun : Sink.run calls {} = some w)
    (htables : ∀ targets, .switch targets ∈ calls → targets.length < 2 ^ 32)
    {made : Call × Writer} (hmade : made ∈ Sink.history calls ({} : Writer)) {symbol : Symbol}
    (hsymbol : made.1.symbol? = some symbol) {token : Token}
    (htoken : (made.1.tokenFrom made.2.symbols).1 = some token) :
    ∃ item ∈ Code.items w.bytes, item.offset = made.2.bytes.length ∧
      ∃ op, made.1.opcode? = some op ∧ item.result = .ok (.plain op (.token token)) := by
  have hlaid := laid_run (laid_fresh ({} : SymbolTable)) hrun
  have hitems : Code.items w.bytes = Reader.items
      { rest := image w.mark? (written (Sink.history calls ({} : Writer))), offset := 0 } := by
    unfold Code.items bytes
    rw [hlaid.code]
    rfl
  obtain ⟨op, hop, -⟩ := made.1.cells_of_symbol? hsymbol token 0
  have hinstruction : made ∈ instructions (Sink.history calls ({} : Writer)) :=
    List.mem_filter.mpr ⟨hmade, by simp [hop]⟩
  obtain ⟨item, hitem, hoffset, -, i, hresult, hwritten⟩ :=
    exists_of_forall₂ (found_run (laid_fresh ({} : SymbolTable)) hrun htables hlaid.holds) hinstruction
  rw [htoken] at hwritten
  have hi := Call.eq_of_writtenAs hsymbol hop hwritten
  rw [hi] at hresult
  exact ⟨item, hitems ▸ hitem, hoffset, op, hop, hresult⟩

/-! ### What the tokens are bound to -/

theorem symbols_of_step {c : Call} {reply : Option Nat} (h : w.Laid cells)
    (hstep : Sink.step c w = .ok reply w') : w'.symbols = (c.tokenFrom w.symbols).2 := by
  cases hop : c.opcode? with
  | some op =>
    obtain ⟨-, -, -, rfl⟩ := (step_instruction_ok hop).mp hstep
    rfl
  | none =>
    cases c with
    | declareLocal t name =>
      cases hstep
      rfl
    | createLabel name =>
      cases hstep
      rfl
    | markLabel label =>
      obtain ⟨-, -, -, rfl⟩ := (mark_ok h).mp (silent_ok.mp hstep).2
      rfl
    | finish =>
      obtain ⟨-, rfl⟩ := finish_ok.mp (silent_ok.mp hstep).2
      rfl
    | _ => exact nomatch hop

/-- **Each call's token is bound to its symbol at the end of the run**, as are all that were bound at its
start. -/
theorem bound_run (h : w.Laid cells) (hrun : Sink.run calls w = some w')
    (hinterned : Interned w.symbols seen)
    (hroom : ∀ table, Symbol.countIn (seen ∪ Call.symbols calls) table ≤ SymbolTable.maxRow) :
    w'.symbols.Consistent ∧
      (∀ symbol token, w.symbols.token? symbol = some token → w'.symbols.token? symbol = some token) ∧
      ∀ made ∈ Sink.history calls w, ∀ symbol, made.1.symbol? = some symbol →
        ∃ token, (made.1.tokenFrom made.2.symbols).1 = some token ∧
          w'.symbols.token? symbol = some token := by
  induction calls generalizing w cells seen with
  | nil =>
    rw [Sink.run, Option.some.injEq] at hrun
    subst hrun
    exact ⟨hinterned.consistent, fun _ _ hsymbol => hsymbol, by simp [Sink.history]⟩
  | cons c rest ih =>
    obtain ⟨reply, w₁, hstep, hrest⟩ := Sink.run_cons.mp hrun
    have hlaid := (advances_of_step h hstep).laid
    have hsymbols := symbols_of_step h hstep
    rw [Sink.history_cons rest hstep]
    cases hsymbol : c.symbol? with
    | none =>
      have hsame : Call.symbols (c :: rest) = Call.symbols rest := by
        unfold Call.symbols
        rw [List.filterMap_cons_none hsymbol]
      rw [Call.tokenFrom_of_none hsymbol] at hsymbols
      rw [hsame] at hroom
      obtain ⟨hcons, hold, hmade⟩ := ih hlaid hrest (hsymbols ▸ hinterned) hroom
      rw [hsymbols] at hold
      refine ⟨hcons, hold, ?_⟩
      intro made hmem symbol hsome
      rcases List.mem_cons.mp hmem with rfl | hmem
      · cases hsymbol.symm.trans hsome
      · exact hmade made hmem symbol hsome
    | some symbol =>
      have hmore : seen ∪ Call.symbols (c :: rest) = insert symbol seen ∪ Call.symbols rest := by
        unfold Call.symbols
        rw [List.filterMap_cons_some hsymbol, List.toFinset_cons, Finset.union_insert,
          Finset.insert_union]
      have htoken := Call.tokenFrom_of_some hsymbol w.symbols
      rw [htoken] at hsymbols
      rw [hmore] at hroom
      have hroom₁ : Symbol.countIn (insert symbol seen) symbol.table ≤ SymbolTable.maxRow :=
        Nat.le_trans (SymbolTable.countIn_mono Finset.subset_union_left _) (hroom symbol.table)
      obtain ⟨hinterned₁, hnew, hkept⟩ := hinterned.intern hroom₁
      rw [← hsymbols] at hinterned₁ hnew hkept
      obtain ⟨hcons, hold, hmade⟩ := ih hlaid hrest hinterned₁ hroom
      refine ⟨hcons, fun s token hs => hold s token (hkept s token hs), ?_⟩
      intro made hmem s hsome
      rcases List.mem_cons.mp hmem with rfl | hmem
      · obtain rfl : symbol = s := Option.some.inj (hsymbol.symm.trans hsome)
        exact ⟨_, congrArg Prod.fst htoken, hold _ _ hnew⟩
      · exact hmade made hmem s hsome

/-- **Tokens stand for what was written.**  In the code of an accepted run, the instruction of each call
that refers to a symbol holds a token that the table, as it is at the end, resolves to that symbol; two
such calls hold the same token just if they refer to the same symbol.  The instruction is found where the
code ended when the call was made, by itself and among those of the whole code.  It is enough that no
metadata table is asked for more symbols than it has rows. -/
theorem resolves_of_run (hrun : Sink.run calls {} = some w)
    (hroom : ∀ table, Symbol.countIn (Call.symbols calls) table ≤ SymbolTable.maxRow) :
    (Sink.history calls ({} : Writer)).map Prod.fst = calls ∧
    (∀ made ∈ Sink.history calls ({} : Writer), ∀ symbol, made.1.symbol? = some symbol →
      ∃ token, Carries w made token ∧ w.symbols.symbol? token = some symbol ∧
        ((∀ targets, .switch targets ∈ calls → targets.length < 2 ^ 32) →
          ∃ item ∈ Code.items w.bytes, item.offset = made.2.bytes.length ∧
            ∃ op, made.1.opcode? = some op ∧ item.result = .ok (.plain op (.token token)))) ∧
    ∀ made ∈ Sink.history calls ({} : Writer), ∀ made' ∈ Sink.history calls ({} : Writer),
      ∀ symbol symbol' token token', made.1.symbol? = some symbol → made'.1.symbol? = some symbol' →
        Carries w made token → Carries w made' token' → (token = token' ↔ symbol = symbol') := by
  have hfresh := laid_fresh ({} : SymbolTable)
  obtain ⟨hcons, -, hbound⟩ := bound_run hfresh hrun SymbolTable.interned_empty
    (by rw [Finset.empty_union]; exact hroom)
  -- The token in the code is the one that the symbol has in the table.
  have hcarried : ∀ made ∈ Sink.history calls ({} : Writer), ∀ symbol token,
      made.1.symbol? = some symbol → Carries w made token → w.symbols.token? symbol = some token := by
    intro made hmade symbol token hsymbol hcarries
    obtain ⟨token', htoken', htable⟩ := hbound made hmade symbol hsymbol
    have hcarries' := carries_of_mem_history hfresh hrun hmade hsymbol htoken'
    rw [hcarries.unique hcarries']
    exact htable
  refine ⟨Sink.map_fst_history hrun, ?_, ?_⟩
  · intro made hmade symbol hsymbol
    obtain ⟨token, htoken, htable⟩ := hbound made hmade symbol hsymbol
    exact ⟨token, carries_of_mem_history hfresh hrun hmade hsymbol htoken,
      hcons.token?_iff_symbol?.mp htable,
      fun htables => item_of_mem_history hrun htables hmade hsymbol htoken⟩
  · intro made hmade made' hmade' symbol symbol' token token' hsymbol hsymbol' hcarries hcarries'
    have htoken := hcarried made hmade symbol token hsymbol hcarries
    have htoken' := hcarried made' hmade' symbol' token' hsymbol' hcarries'
    constructor
    · rintro rfl
      rw [hcons.token?_iff_symbol?] at htoken htoken'
      exact Option.some.inj (htoken.symm.trans htoken')
    · rintro rfl
      exact Option.some.inj (htoken.symm.trans htoken')

/-- A method that takes a string. -/
def printMethod : Method where
  name := "Print"
  declaringType := .object
  parameters := [.string]
  returnType := none
  isStatic := true

/-- Symbols of four tables, one string twice, and one method by its name and by its signature. -/
def printTwice : List Call :=
  [.createLabel "end", .string .ldstr "sum", .invoke .call printMethod, .branch .brS 0,
    .string .ldstr "total", .token .ldtoken (.type .string), .string .ldstr "sum",
    .invoke .calli printMethod, .markLabel 0, .emit .ret .none]

theorem resolves_printTwice : ∃ w : Writer, Sink.run printTwice {} = some w ∧
    w.bytes = [0x72, 1, 0, 0, 0x70, 0x28, 1, 0, 0, 0x06, 0x2B, 20, 0x72, 2, 0, 0, 0x70, 0xD0, 1, 0, 0, 0x02,
      0x72, 1, 0, 0, 0x70, 0x29, 1, 0, 0, 0x11, 0x2A] ∧
    ∀ made ∈ Sink.history printTwice ({} : Writer), ∀ symbol, made.1.symbol? = some symbol →
      ∃ token, Carries w made token ∧ w.symbols.symbol? token = some symbol := by
  have hbytes : (Sink.run printTwice ({} : Writer)).map Writer.bytes
      = some [0x72, 1, 0, 0, 0x70, 0x28, 1, 0, 0, 0x06, 0x2B, 20, 0x72, 2, 0, 0, 0x70, 0xD0, 1, 0, 0, 0x02,
        0x72, 1, 0, 0, 0x70, 0x29, 1, 0, 0, 0x11, 0x2A] := by
    decide +kernel
  have hroom : ∀ table, Symbol.countIn (Call.symbols printTwice) table ≤ SymbolTable.maxRow := by
    intro table
    have hfew := List.toFinset_card_le (printTwice.filterMap Call.symbol?)
    have hlength : (printTwice.filterMap Call.symbol?).length ≤ SymbolTable.maxRow := by decide
    exact Nat.le_trans (Finset.card_filter_le _ _) (Nat.le_trans hfew hlength)
  obtain ⟨w, hw, hwbytes⟩ := Option.map_eq_some_iff.mp hbytes
  obtain ⟨-, hresolves, -⟩ := resolves_of_run hw hroom
  refine ⟨w, hw, hwbytes, ?_⟩
  intro made hmade symbol hsymbol
  obtain ⟨token, hcarries, hsymbol, -⟩ := hresolves made hmade symbol hsymbol
  exact ⟨token, hcarries, hsymbol⟩

end Writer

end Cil
