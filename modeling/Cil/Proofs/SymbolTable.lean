/-
A symbol table binds one to one.

Two parts of a symbol table have to stay in step: the bindings, and the last row of each table.
`Consistent` says what that means.  The bindings ascend by their tokens and no symbol is bound twice; no
token lies past the last row of its table, and the last row itself is bound unless it is zero.  A binding
that is given may have any token: one of another table than its symbol's, one of row zero, or one of the
very last row.  Every request keeps a table consistent all the same (`Consistent.perform`).

So the row after the last one is free as long as there is one.  Once a table is full its last row is
handed out again, and since that row is bound, exactly one binding is lost.
-/
import Cil.Symbol
import Cil.Proofs.Step
import Mathlib.Data.List.Nodup

namespace Cil

/-! ### Tables and rows as numbers -/

namespace Token

theorem toNat_table (t : Token) : t.table.toNat = t.bits.toNat / 0x1000000 := by
  have hlt : t.bits.toNat < 0x100000000 := t.bits.toNat_lt
  have hshift : (t.bits >>> 24).toNat = t.bits.toNat / 0x1000000 := by
    simp [UInt32.toNat_shiftRight, Nat.shiftRight_eq_div_pow]
  rw [table, UInt32.toNat_toUInt8, hshift]
  omega

theorem toNat_row (t : Token) : t.row.toNat = t.bits.toNat % 0x1000000 := by
  rw [row, UInt32.toNat_and]
  exact Nat.and_two_pow_sub_one_eq_mod t.bits.toNat 24

theorem row_le (t : Token) : t.row.toNat ≤ SymbolTable.maxRow := by
  rw [toNat_row, SymbolTable.maxRow]
  omega

/-- Of two tokens one is the lower. -/
theorem bits_lt {t u : Token} (hnot : ¬ t.bits < u.bits) (hne : t ≠ u) : u.bits < t.bits := by
  have hbits : t.bits.toNat ≠ u.bits.toNat := by
    intro heq
    exact hne (congrArg Token.mk (UInt32.toNat_inj.mp heq))
  rw [UInt32.lt_iff_toNat_lt] at hnot ⊢
  omega

/-- A token is its table and its row. -/
theorem eq_of_table_row {t u : Token} (htable : t.table = u.table) (hrow : t.row = u.row) : t = u := by
  have hdiv : t.bits.toNat / 0x1000000 = u.bits.toNat / 0x1000000 := by
    rw [← toNat_table, ← toNat_table, htable]
  have hmod : t.bits.toNat % 0x1000000 = u.bits.toNat % 0x1000000 := by
    rw [← toNat_row, ← toNat_row, hrow]
  have hbits : t.bits = u.bits := UInt32.toNat_inj.mp (by omega)
  exact congrArg Token.mk hbits

theorem toNat_make (table : UInt8) (row : UInt32) :
    (make table row).bits.toNat = table.toNat * 0x1000000 + row.toNat % 0x1000000 := by
  have htable : table.toNat < 256 := table.toNat_lt
  have hrow : (row &&& 0x00FFFFFF).toNat = row.toNat % 0x1000000 := by
    rw [UInt32.toNat_and]
    exact Nat.and_two_pow_sub_one_eq_mod row.toNat 24
  have hshift : (table.toUInt32 <<< 24).toNat = table.toNat <<< 24 := by
    simp [UInt32.toNat_shiftLeft, Nat.shiftLeft_eq]
    omega
  rw [make, UInt32.toNat_or, hrow, hshift,
    ← Nat.shiftLeft_add_eq_or_of_lt (Nat.mod_lt _ (by decide : 0x1000000 > 0)), Nat.shiftLeft_eq]

@[simp] theorem table_make (table : UInt8) (row : UInt32) : (make table row).table = table := by
  apply UInt8.toNat_inj.mp
  rw [toNat_table, toNat_make]
  omega

theorem row_make (table : UInt8) {row : Nat} (hrow : row ≤ SymbolTable.maxRow) :
    (make table (UInt32.ofNat row)).row.toNat = row := by
  rw [SymbolTable.maxRow] at hrow
  rw [toNat_row, toNat_make, UInt32.toNat_ofNat']
  omega

/-- The token of a table's row is the only one. -/
theorem eq_make {t : Token} {table : UInt8} {row : Nat} (htable : t.table = table)
    (hrow : t.row.toNat = row) : t = make table (UInt32.ofNat row) := by
  have hle : row ≤ SymbolTable.maxRow := hrow ▸ t.row_le
  refine eq_of_table_row (by rw [htable, table_make]) (UInt32.toNat_inj.mp ?_)
  rw [row_make table hle, hrow]

end Token

namespace SymbolTable

/-! ### Bindings in order -/

/-- The bindings ascend by their tokens. -/
def Ascending (bs : List Binding) : Prop :=
  bs.Pairwise fun b c => b.token.bits < c.token.bits

variable {b c : Binding} {bs : List Binding}

theorem mem_place (h : Ascending bs) : c ∈ place b bs ↔ c = b ∨ c ∈ bs ∧ c.token ≠ b.token := by
  induction bs with
  | nil => simp [place]
  | cons d rest ih =>
    obtain ⟨hfirst, hrest⟩ := List.pairwise_cons.mp h
    unfold place
    by_cases hbefore : b.token.bits < d.token.bits
    · -- All that stands here comes after the new binding, so nothing is replaced.
      have hlater : ∀ e ∈ d :: rest, e.token ≠ b.token := by
        intro e he heq
        rcases List.mem_cons.mp he with rfl | he
        · exact UInt32.lt_irrefl _ (heq ▸ hbefore)
        · exact UInt32.lt_irrefl _ (heq ▸ UInt32.lt_trans hbefore (hfirst e he))
      rw [if_pos hbefore, List.mem_cons]
      exact or_congr_right ⟨fun hc => ⟨hc, hlater c hc⟩, fun hc => hc.1⟩
    · rw [if_neg hbefore]
      by_cases hsame : b.token = d.token
      · have hlater : ∀ e ∈ rest, e.token ≠ b.token := by
          intro e he heq
          exact UInt32.lt_irrefl _ (heq.trans hsame ▸ hfirst e he)
        rw [if_pos hsame]
        simp only [List.mem_cons]
        constructor
        · rintro (rfl | hc)
          · exact Or.inl rfl
          · exact Or.inr ⟨Or.inr hc, hlater c hc⟩
        · rintro (rfl | ⟨rfl | hc, hne⟩)
          · exact Or.inl rfl
          · exact absurd hsame.symm hne
          · exact Or.inr hc
      · rw [if_neg hsame, List.mem_cons, ih hrest]
        simp only [List.mem_cons]
        constructor
        · rintro (rfl | rfl | ⟨hc, hne⟩)
          · exact Or.inr ⟨Or.inl rfl, Ne.symm hsame⟩
          · exact Or.inl rfl
          · exact Or.inr ⟨Or.inr hc, hne⟩
        · rintro (rfl | ⟨rfl | hc, hne⟩)
          · exact Or.inr (Or.inl rfl)
          · exact Or.inl rfl
          · exact Or.inr (Or.inr ⟨hc, hne⟩)

theorem ascending_place (h : Ascending bs) : Ascending (place b bs) := by
  induction bs with
  | nil => simp [place, Ascending]
  | cons d rest ih =>
    obtain ⟨hfirst, hrest⟩ := List.pairwise_cons.mp h
    unfold place
    by_cases hbefore : b.token.bits < d.token.bits
    · rw [if_pos hbefore]
      refine List.pairwise_cons.mpr ⟨?_, h⟩
      intro e he
      rcases List.mem_cons.mp he with rfl | he
      · exact hbefore
      · exact UInt32.lt_trans hbefore (hfirst e he)
    · rw [if_neg hbefore]
      by_cases hsame : b.token = d.token
      · rw [if_pos hsame]
        refine List.pairwise_cons.mpr ⟨?_, hrest⟩
        rw [hsame]
        exact hfirst
      · rw [if_neg hsame]
        refine List.pairwise_cons.mpr ⟨?_, ih hrest⟩
        intro e he
        rcases (mem_place hrest).mp he with rfl | ⟨he, -⟩
        · exact Token.bits_lt hbefore hsame
        · exact hfirst e he

/-- If no two members share a key, a member is found by its own. -/
theorem find?_key_eq_some_iff {κ : Type} [DecidableEq κ] {key : Binding → κ}
    (hkeys : (bs.map key).Nodup) {k : κ} :
    bs.find? (fun c => key c = k) = some b ↔ b ∈ bs ∧ key b = k := by
  constructor
  · intro h
    exact ⟨List.mem_of_find?_eq_some h, by simpa using List.find?_some h⟩
  · rintro ⟨hb, hk⟩
    have hsome : (bs.find? fun c => key c = k).isSome = true :=
      List.find?_isSome.mpr ⟨b, hb, by simpa using hk⟩
    obtain ⟨c, hc⟩ := Option.isSome_iff_exists.mp hsome
    have hck : key c = k := by simpa using List.find?_some hc
    rw [hc, List.inj_on_of_nodup_map hkeys (List.mem_of_find?_eq_some hc) hb (hck.trans hk.symm)]

/-! ### Consistent tables -/

variable {t : SymbolTable} {symbol : Symbol} {token : Token} {table : UInt8}

/-- Bindings and last rows are in step. -/
structure Consistent (t : SymbolTable) : Prop where
  ascending : Ascending t.bindings
  distinct : (t.bindings.map Binding.symbol).Nodup
  /-- No token lies past the last row of its table. -/
  row_le : ∀ b ∈ t.bindings, b.token.row.toNat ≤ t.lastRow b.token.table
  /-- The last row of a table is bound. -/
  bound : ∀ table, t.lastRow table ≠ 0 →
    ∃ b ∈ t.bindings, b.token.table = table ∧ b.token.row.toNat = t.lastRow table

theorem consistent_empty : Consistent {} where
  ascending := List.Pairwise.nil
  distinct := List.nodup_nil
  row_le := by simp
  bound := by simp [lastRow]

namespace Consistent

variable (h : Consistent t)
include h

theorem nodup_tokens : (t.bindings.map Binding.token).Nodup := by
  refine List.pairwise_map.mpr (h.ascending.imp fun hlt heq => ?_)
  rw [heq] at hlt
  exact UInt32.lt_irrefl _ hlt

theorem token?_eq_some_iff : t.token? symbol = some token ↔ ⟨token, symbol⟩ ∈ t.bindings := by
  unfold token?
  rw [Option.map_eq_some_iff]
  constructor
  · rintro ⟨b, hb, rfl⟩
    obtain ⟨hmem, rfl⟩ := (find?_key_eq_some_iff h.distinct).mp hb
    exact hmem
  · intro hmem
    exact ⟨⟨token, symbol⟩, (find?_key_eq_some_iff h.distinct).mpr ⟨hmem, rfl⟩, rfl⟩

theorem symbol?_eq_some_iff : t.symbol? token = some symbol ↔ ⟨token, symbol⟩ ∈ t.bindings := by
  unfold symbol?
  rw [Option.map_eq_some_iff]
  constructor
  · rintro ⟨b, hb, rfl⟩
    obtain ⟨hmem, rfl⟩ := (find?_key_eq_some_iff h.nodup_tokens).mp hb
    exact hmem
  · intro hmem
    exact ⟨⟨token, symbol⟩, (find?_key_eq_some_iff h.nodup_tokens).mpr ⟨hmem, rfl⟩, rfl⟩

theorem lastRow_le (table : UInt8) : t.lastRow table ≤ maxRow := by
  by_cases hzero : t.lastRow table = 0
  · omega
  · obtain ⟨b, -, -, hrow⟩ := h.bound table hzero
    rw [← hrow]
    exact b.token.row_le

/-- Looking up a token and looking up a symbol undo each other. -/
theorem token?_iff_symbol? : t.token? symbol = some token ↔ t.symbol? token = some symbol := by
  rw [h.token?_eq_some_iff, h.symbol?_eq_some_iff]

theorem count_bindings (b : Binding) :
    t.bindings.count b = if t.token? b.symbol = some b.token then 1 else 0 := by
  have hnodup : t.bindings.Nodup := h.distinct.of_map _
  rw [hnodup.count]
  exact if_congr h.token?_eq_some_iff.symm rfl rfl

end Consistent

/-! ### Making a binding -/

theorem lastRow_put (t : SymbolTable) (b : Binding) (last : Nat) (table : UInt8) :
    (t.put b last).lastRow table = if table = b.token.table then last else t.lastRow table := by
  unfold lastRow put
  by_cases htable : table = b.token.table
  · simp [htable]
  · -- The rows of other tables are found as before.
    have hother : (t.rows.filter (·.1 ≠ b.token.table)).find? (·.1 = table)
        = t.rows.find? (·.1 = table) := by
      rw [List.find?_filter]
      congr 1
      funext entry
      by_cases hentry : entry.1 = table
      · simp [hentry, htable]
      · simp [hentry]
    have hfirst : ¬ b.token.table = table := fun heq => htable heq.symm
    rw [if_neg htable, List.find?_cons_of_neg (by simpa using hfirst), hother]

theorem token?_eq_none_iff : t.token? symbol = none ↔ ∀ b ∈ t.bindings, b.symbol ≠ symbol := by
  simp [token?]

namespace Consistent

variable {last : Nat} (h : Consistent t) (hsymbol : t.token? b.symbol = none)
include h hsymbol

/-- A symbol that is not bound may be bound to any token, if the last row of the token's table stays
the highest that is bound. -/
theorem put (hrow : b.token.row.toNat ≤ last) (hlast : t.lastRow b.token.table ≤ last)
    (hbound : last = b.token.row.toNat ∨ last = t.lastRow b.token.table) :
    Consistent (t.put b last) where
  ascending := ascending_place h.ascending
  distinct := by
    have hnodup : (place b t.bindings).Nodup := (ascending_place h.ascending).imp fun hlt heq => by
      rw [heq] at hlt
      exact UInt32.lt_irrefl _ hlt
    have hfree := token?_eq_none_iff.mp hsymbol
    refine hnodup.map_on fun c hc d hd heq => ?_
    rcases (mem_place h.ascending).mp hc with hnew | ⟨hold, -⟩
    · rcases (mem_place h.ascending).mp hd with hnew' | ⟨hold', -⟩
      · rw [hnew, hnew']
      · exact absurd (heq.symm.trans (congrArg _ hnew)) (hfree d hold')
    · rcases (mem_place h.ascending).mp hd with hnew' | ⟨hold', -⟩
      · exact absurd (heq.trans (congrArg _ hnew')) (hfree c hold)
      · exact List.inj_on_of_nodup_map h.distinct hold hold' heq
  row_le := by
    intro c hc
    rw [lastRow_put]
    rcases (mem_place h.ascending).mp hc with rfl | ⟨hc, -⟩
    · simpa using hrow
    · have hold := h.row_le c hc
      by_cases htable : c.token.table = b.token.table
      · rw [if_pos htable]
        rw [htable] at hold
        omega
      · rw [if_neg htable]
        exact hold
  bound := by
    intro table hne
    rw [lastRow_put] at hne ⊢
    have hmem : b ∈ place b t.bindings := (mem_place h.ascending).mpr (Or.inl rfl)
    by_cases htable : table = b.token.table
    · rw [if_pos htable] at hne ⊢
      rcases hbound with hnew | hold
      · exact ⟨b, hmem, htable.symm, hnew.symm⟩
      · obtain ⟨c, hc, hctable, hcrow⟩ := h.bound b.token.table (hold ▸ hne)
        by_cases hreplaced : c.token = b.token
        · exact ⟨b, hmem, htable.symm, by rw [← hreplaced, hcrow, hold]⟩
        · exact ⟨c, (mem_place h.ascending).mpr (Or.inr ⟨hc, hreplaced⟩), hctable.trans htable.symm,
            hcrow.trans hold.symm⟩
    · rw [if_neg htable] at hne ⊢
      obtain ⟨c, hc, hctable, hcrow⟩ := h.bound table hne
      refine ⟨c, (mem_place h.ascending).mpr (Or.inr ⟨hc, fun heq => ?_⟩), hctable, hcrow⟩
      exact htable (by rw [← hctable, heq])

/-- After a binding, its symbol has the token, and whatever had the token before has none. -/
theorem token?_put (hput : Consistent (t.put b last)) (symbol : Symbol) :
    (t.put b last).token? symbol =
      if symbol = b.symbol then some b.token
      else if t.token? symbol = some b.token then none else t.token? symbol := by
  apply Option.ext
  intro token
  rw [hput.token?_eq_some_iff]
  change ⟨token, symbol⟩ ∈ place b t.bindings ↔ _
  rw [mem_place h.ascending, ← h.token?_eq_some_iff]
  by_cases hsame : symbol = b.symbol
  · obtain ⟨token', symbol'⟩ := b
    subst hsame
    simp [hsymbol, eq_comm]
  · have hother : ¬ (⟨token, symbol⟩ : Binding) = b := fun heq => hsame (congrArg Binding.symbol heq)
    rw [if_neg hsame, or_iff_right hother]
    by_cases hholds : t.token? symbol = some b.token
    · simp [hholds, eq_comm]
    · rw [if_neg hholds]
      exact and_iff_left_of_imp fun htoken heq => hholds (heq ▸ htoken)

/-- A token that nothing holds is bound without any loss. -/
theorem kept_put (htoken : t.symbol? b.token = none) (hput : Consistent (t.put b last)) :
    (t.put b last).token? b.symbol = some b.token ∧
      ∀ other, other ≠ b.symbol → (t.put b last).token? other = t.token? other := by
  constructor
  · rw [h.token?_put hsymbol hput, if_pos rfl]
  · intro other hother
    have hnot : ¬ t.token? other = some b.token := by
      rw [h.token?_iff_symbol?, htoken]
      simp
    rw [h.token?_put hsymbol hput, if_neg hother, if_neg hnot]

end Consistent

/-! ### Requests -/

/-- What may be asked of a table that changes it. -/
inductive Request where
  /-- Binds a symbol to a given token. -/
  | insert (symbol : Symbol) (token : Token)
  /-- Finds a token for a symbol. -/
  | intern (symbol : Symbol)

/-- The table after a request, whether it was granted or not. -/
def perform (t : SymbolTable) : Request → SymbolTable
  | .insert symbol token =>
    match SymbolTable.insert symbol token t with
    | .ok _ t' => t'
    | .error _ t' => t'
  | .intern symbol => (t.intern symbol).2

/-- The table after some requests to an empty one. -/
def after (requests : List Request) : SymbolTable :=
  requests.foldl perform {}

theorem insert_eq : SymbolTable.insert symbol token t =
    if (t.symbol? token).isSome || (t.token? symbol).isSome then .error ⟨token, symbol⟩ t
    else .ok () (t.put ⟨token, symbol⟩ (max (t.lastRow token.table) token.row.toNat)) := by
  unfold SymbolTable.insert
  rw [Step.get_bind]
  split <;> rfl

theorem insert_ok {t' : SymbolTable} : SymbolTable.insert symbol token t = .ok () t' ↔
    t.token? symbol = none ∧ t.symbol? token = none ∧
      t.put ⟨token, symbol⟩ (max (t.lastRow token.table) token.row.toNat) = t' := by
  rw [insert_eq]
  cases t.symbol? token <;> cases t.token? symbol <;> simp

/-- **A pair that is refused is handed back, and the table is as it was.** -/
theorem insert_error {t' : SymbolTable} {b : Binding} :
    SymbolTable.insert symbol token t = .error b t' ↔
      ((t.symbol? token).isSome = true ∨ (t.token? symbol).isSome = true) ∧ b = ⟨token, symbol⟩ ∧ t' = t := by
  rw [insert_eq]
  cases t.symbol? token <;> cases t.token? symbol <;> simp [eq_comm]

theorem perform_of_ok {t' : SymbolTable} (h : SymbolTable.insert symbol token t = .ok () t') :
    t.perform (.insert symbol token) = t' := by
  rw [perform, h]

theorem perform_of_error {t' : SymbolTable} {b : Binding}
    (h : SymbolTable.insert symbol token t = .error b t') : t.perform (.insert symbol token) = t := by
  rw [perform, h]
  exact (insert_error.mp h).2.2

theorem intern_of_bound (hbound : t.token? symbol = some token) : t.intern symbol = (token, t) := by
  simp [intern, hbound]

/-- The token that a symbol gets if it has none. -/
def freshToken (t : SymbolTable) (symbol : Symbol) : Token :=
  .make symbol.table (UInt32.ofNat (t.nextRow symbol.table))

theorem intern_of_free (hfree : t.token? symbol = none) :
    t.intern symbol
      = (t.freshToken symbol, t.put ⟨t.freshToken symbol, symbol⟩ (t.nextRow symbol.table)) := by
  simp [intern, hfree, freshToken]

@[simp] theorem table_freshToken : (t.freshToken symbol).table = symbol.table :=
  Token.table_make _ _

theorem row_freshToken : (t.freshToken symbol).row.toNat = t.nextRow symbol.table :=
  Token.row_make _ (Nat.min_le_right _ _)

namespace Consistent

variable (h : Consistent t)
include h

theorem insert {t' : SymbolTable} (hinsert : SymbolTable.insert symbol token t = .ok () t') :
    Consistent t' := by
  obtain ⟨hsymbol, -, rfl⟩ := insert_ok.mp hinsert
  refine h.put hsymbol (Nat.le_max_right _ _) (Nat.le_max_left _ _) ?_
  dsimp only
  omega

theorem intern (hfree : t.token? symbol = none) : Consistent (t.intern symbol).2 := by
  have hle := h.lastRow_le symbol.table
  rw [intern_of_free hfree]
  refine h.put hfree (Nat.le_of_eq row_freshToken) ?_ (Or.inl row_freshToken.symm)
  rw [table_freshToken, nextRow]
  omega

/-- **No request breaks a table.** -/
theorem perform (r : Request) : Consistent (t.perform r) := by
  cases r with
  | insert symbol token =>
    cases hinsert : SymbolTable.insert symbol token t with
    | ok u t' =>
      rw [perform_of_ok hinsert]
      exact h.insert hinsert
    | error b t' =>
      rw [perform_of_error hinsert]
      exact h
  | intern symbol =>
    show Consistent (t.intern symbol).2
    cases hbound : t.token? symbol with
    | none => exact h.intern hbound
    | some token =>
      rw [intern_of_bound hbound]
      exact h

theorem foldl (requests : List Request) : Consistent (requests.foldl SymbolTable.perform t) := by
  induction requests generalizing t with
  | nil => exact h
  | cons r rest ih => exact ih (h.perform r)

/-- Before a table is full, a symbol gets a row that nothing is bound to. -/
theorem symbol?_freshToken (hroom : t.lastRow symbol.table < maxRow) :
    t.symbol? (t.freshToken symbol) = none := by
  rw [Option.eq_none_iff_forall_ne_some]
  intro holder hholder
  have hrow := h.row_le _ (h.symbol?_eq_some_iff.mp hholder)
  rw [table_freshToken, row_freshToken, nextRow] at hrow
  omega

/-- Once a table is full, the row that a symbol gets is bound. -/
theorem exists_holder (hfull : t.lastRow symbol.table = maxRow) :
    ∃ holder, t.token? holder = some (t.freshToken symbol) := by
  have hne : t.lastRow symbol.table ≠ 0 := by
    rw [hfull]
    decide
  obtain ⟨b, hb, htable, hrow⟩ := h.bound symbol.table hne
  have hnext : t.nextRow symbol.table = t.lastRow symbol.table := by
    rw [nextRow]
    omega
  have htoken : b.token = t.freshToken symbol := by
    rw [freshToken, hnext]
    exact Token.eq_make htable hrow
  exact ⟨b.symbol, h.token?_eq_some_iff.mpr (htoken ▸ hb)⟩

end Consistent

/-- **Whatever is asked of a symbol table, it binds symbols and tokens one to one.**  Its two look-ups
undo each other, and it lists every binding once, by ascending tokens.  A request to bind is refused if
either side is bound, and then hands the pair back and changes nothing.  A symbol that is bound keeps its token.  Any other gets
a row of its own table past all that are bound, and nothing else changes, until the table is full.
After that it gets the last row, and just the symbol that held it is forgotten. -/
theorem one_to_one_after (requests : List Request) :
    let t := after requests
    (∀ symbol token, t.token? symbol = some token ↔ t.symbol? token = some symbol) ∧
    (t.bindings.Pairwise fun b c => b.token.bits < c.token.bits) ∧
    (∀ b, t.bindings.count b = if t.token? b.symbol = some b.token then 1 else 0) ∧
    (∀ symbol token b t', SymbolTable.insert symbol token t = .error b t' →
      ((t.symbol? token).isSome = true ∨ (t.token? symbol).isSome = true) ∧ b = ⟨token, symbol⟩ ∧ t' = t ∧
        t.perform (.insert symbol token) = t) ∧
    (∀ symbol token t', SymbolTable.insert symbol token t = .ok () t' →
      t.perform (.insert symbol token) = t' ∧ t.token? symbol = none ∧ t.symbol? token = none ∧ t'.token? symbol = some token ∧
        ∀ other, other ≠ symbol → t'.token? other = t.token? other) ∧
    (∀ symbol token, t.token? symbol = some token → t.intern symbol = (token, t)) ∧
    (∀ symbol, t.token? symbol = none → t.lastRow symbol.table < maxRow →
      ∃ token t', t.intern symbol = (token, t') ∧ token.table = symbol.table ∧
        1 ≤ token.row.toNat ∧ t.symbol? token = none ∧ t'.token? symbol = some token ∧
        ∀ other, other ≠ symbol → t'.token? other = t.token? other) ∧
    ∀ symbol, t.token? symbol = none → ¬ t.lastRow symbol.table < maxRow →
      t.lastRow symbol.table = maxRow ∧
      ∃ token t' holder, t.intern symbol = (token, t') ∧ token.table = symbol.table ∧
        token.row.toNat = maxRow ∧ t.token? holder = some token ∧ t'.token? holder = none ∧
        t'.token? symbol = some token ∧
        ∀ other, other ≠ symbol → other ≠ holder → t'.token? other = t.token? other := by
  intro t
  have h : Consistent t := consistent_empty.foldl requests
  refine ⟨fun _ _ => h.token?_iff_symbol?, h.ascending, h.count_bindings, ?refused, ?inserted,
    fun _ _ => intern_of_bound, ?fresh, ?full⟩
  case refused =>
    intro symbol token b t' hrefused
    obtain ⟨hbound, hpair, hsame⟩ := insert_error.mp hrefused
    exact ⟨hbound, hpair, hsame, perform_of_error hrefused⟩
  case inserted =>
    intro symbol token t' hinsert
    have hput := h.insert hinsert
    have hperform := perform_of_ok hinsert
    obtain ⟨hsymbol, htoken, rfl⟩ := insert_ok.mp hinsert
    exact ⟨hperform, hsymbol, htoken, h.kept_put hsymbol htoken hput⟩
  case fresh =>
    intro symbol hsymbol hroom
    have hput := h.intern hsymbol
    rw [intern_of_free hsymbol] at hput ⊢
    refine ⟨_, _, rfl, table_freshToken, ?_, h.symbol?_freshToken hroom,
      h.kept_put hsymbol (h.symbol?_freshToken hroom) hput⟩
    rw [row_freshToken, nextRow]
    omega
  case full =>
    intro symbol hsymbol hfull
    have hlast : t.lastRow symbol.table = maxRow := by
      have hle := h.lastRow_le symbol.table
      omega
    obtain ⟨holder, hholder⟩ := h.exists_holder hlast
    have hput := h.intern hsymbol
    rw [intern_of_free hsymbol] at hput ⊢
    have hne : holder ≠ symbol := by
      intro heq
      rw [heq, hsymbol] at hholder
      cases hholder
    refine ⟨hlast, _, _, holder, rfl, table_freshToken, ?_, hholder, ?_, ?_, ?_⟩
    · rw [row_freshToken, nextRow]
      omega
    · rw [h.token?_put hsymbol hput, if_neg hne, if_pos hholder]
    · rw [h.token?_put hsymbol hput, if_pos rfl]
    · intro other hother hnot
      have hfree : ¬ t.token? other = some (t.freshToken symbol) := by
        intro hsame
        rw [h.token?_iff_symbol?] at hsame hholder
        exact hnot (Option.some.inj (hsame.symm.trans hholder))
      rw [h.token?_put hsymbol hput, if_neg hother, if_neg hfree]

/-- A full table. -/
example : (after [.insert (.type "First") (.make 0x02 0xFFFFFF), .intern (.type "Second")]).bindings
    = [⟨.make 0x02 0xFFFFFF, .type "Second"⟩] := by
  decide

end SymbolTable

end Cil
