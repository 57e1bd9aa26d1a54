/-
How steps compose, and runs of a sink.

A step that succeeds has succeeded in each of its parts, so a successful step is taken apart by
`bind_ok` and the like, one part at a time.  What holds along a run is shown of one call and then
carried over the list of calls.

Two ways of driving a sink are in use.  `Sink.run` stops at the first refusal and is for bodies that
are accepted as a whole.  `Sink.session` goes on whatever the answers are.
-/
import Cil.Sink

namespace Cil

namespace Step

variable {ε σ α β : Type} {s t : σ}

/-! ### Parts of a step that succeeded

These hold whatever the reasons are for which a step may be refused. -/

theorem bind_ok {m : EStateM ε σ α} {f : α → EStateM ε σ β} {b : β} :
    (m >>= f) s = .ok b t ↔ ∃ a s', m s = .ok a s' ∧ f a s' = .ok b t := by
  show EStateM.bind m f s = .ok b t ↔ _
  unfold EStateM.bind
  cases m s with
  | ok a s' =>
    constructor
    · intro h
      exact ⟨a, s', rfl, h⟩
    · rintro ⟨a', s'', h, hf⟩
      cases h
      exact hf
  | error e s' => simp

theorem bind_of_ok {m : EStateM ε σ α} {f : α → EStateM ε σ β} {a : α} (h : m s = .ok a t) :
    (m >>= f) s = f a t := by
  show EStateM.bind m f s = f a t
  unfold EStateM.bind
  rw [h]

theorem bind_of_error {m : EStateM ε σ α} {f : α → EStateM ε σ β} {e : ε} (h : m s = .error e t) :
    (m >>= f) s = .error e t := by
  show EStateM.bind m f s = .error e t
  unfold EStateM.bind
  rw [h]

/-- A step that is refused is refused in one of its parts. -/
theorem bind_error {m : EStateM ε σ α} {f : α → EStateM ε σ β} {e : ε} :
    (m >>= f) s = .error e t ↔
      m s = .error e t ∨ ∃ a s', m s = .ok a s' ∧ f a s' = .error e t := by
  cases hm : m s with
  | ok a s' =>
    rw [bind_of_ok hm]
    constructor
    · intro h
      exact Or.inr ⟨a, s', rfl, h⟩
    · rintro (h | ⟨a', s'', h, hf⟩)
      · cases h
      · cases h
        exact hf
  | error e' s' => simp [bind_of_error hm]

theorem pure_ok {a b : α} : (pure a : EStateM ε σ α) s = .ok b t ↔ a = b ∧ s = t := by
  show EStateM.Result.ok a s = .ok b t ↔ _
  simp

theorem discard_eq {m : EStateM ε σ α} : (discard m : EStateM ε σ Unit) = m >>= fun _ => pure () := by
  funext s
  show EStateM.map (fun _ => ()) m s = EStateM.bind m (fun _ => pure ()) s
  unfold EStateM.map EStateM.bind
  cases m s <;> rfl

theorem get_ok {a : σ} : (get : EStateM ε σ σ) s = .ok a t ↔ s = a ∧ s = t := by
  show EStateM.Result.ok s s = .ok a t ↔ _
  simp

theorem get_bind {f : σ → EStateM ε σ β} : (get >>= f : EStateM ε σ β) s = f s s := rfl

theorem modify_ok {f : σ → σ} {u : Unit} :
    (modify f : EStateM ε σ Unit) s = .ok u t ↔ f s = t := by
  show EStateM.Result.ok () (f s) = .ok u t ↔ _
  simp

theorem throw_ok {e : ε} {a : α} : (throw e : EStateM ε σ α) s = .ok a t ↔ False := by
  show EStateM.Result.error e s = .ok a t ↔ _
  simp

theorem forM_nil_ok {f : α → Step σ Unit} {u : Unit} :
    (([] : List α).forM f : Step σ Unit) s = .ok u t ↔ s = t := by
  show (pure () : Step σ Unit) s = .ok u t ↔ _
  rw [pure_ok]
  simp

theorem forM_cons_ok {f : α → Step σ Unit} {a : α} {as : List α} {u : Unit} :
    ((a :: as).forM f : Step σ Unit) s = .ok u t ↔
      ∃ s', f a s = .ok () s' ∧ (as.forM f : Step σ Unit) s' = .ok () t := by
  show (f a >>= fun _ => as.forM f : Step σ Unit) s = .ok u t ↔ _
  rw [bind_ok]
  constructor
  · rintro ⟨⟨⟩, s', h⟩
    exact ⟨s', h⟩
  · rintro ⟨s', h⟩
    exact ⟨(), s', h⟩

/-- A loop that is refused is refused at one element, after those before it were done. -/
theorem forM_error {f : α → Step σ Unit} {as : List α} {e : Rejection}
    (h : (as.forM f : Step σ Unit) s = .error e t) :
    ∃ front a back s', as = front ++ a :: back ∧ (front.forM f : Step σ Unit) s = .ok () s' ∧
      f a s' = .error e t := by
  induction as generalizing s with
  | nil => exact nomatch h
  | cons a rest ih =>
    rcases bind_error.mp h with hfirst | ⟨u, s₁, hfirst, hrest⟩
    · exact ⟨[], a, rest, s, rfl, rfl, hfirst⟩
    · obtain ⟨front, b, back, s', rfl, hfront, hb⟩ := ih hrest
      exact ⟨a :: front, b, back, s', rfl, forM_cons_ok.mpr ⟨s₁, hfirst, hfront⟩, hb⟩

/-! ### What a step keeps, be it accepted or refused -/

/-- Whatever comes of the step, it keeps `I`; and if it succeeds, its answer satisfies `Q`. -/
def Keeps (I : σ → Prop) (Q : α → Prop) (m : Step σ α) : Prop :=
  ∀ s, I s →
    match m s with
    | .ok a t => I t ∧ Q a
    | .error _ t => I t

variable {I : σ → Prop} {Q : α → Prop} {R : β → Prop}

theorem Keeps.of_ok {m : Step σ α} {a : α} (h : Keeps I Q m) (hs : I s) (hok : m s = .ok a t) :
    I t ∧ Q a := by
  have := h s hs
  rwa [hok] at this

theorem Keeps.of_error {m : Step σ α} {e : Rejection} (h : Keeps I Q m) (hs : I s)
    (herror : m s = .error e t) : I t := by
  have := h s hs
  rwa [herror] at this

theorem keeps_bind {m : Step σ α} {f : α → Step σ β} (hm : Keeps I Q m)
    (hf : ∀ a, Q a → Keeps I R (f a)) : Keeps I R (m >>= f) := by
  intro s hs
  show match EStateM.bind m f s with
    | .ok b t => I t ∧ R b
    | .error _ t => I t
  unfold EStateM.bind
  cases hok : m s with
  | ok a s' =>
    obtain ⟨hs', ha⟩ := hm.of_ok hs hok
    exact hf a ha s' hs'
  | error e s' => exact hm.of_error hs hok

theorem keeps_pure {a : α} (ha : Q a) : Keeps I Q (pure a) :=
  fun _ hs => ⟨hs, ha⟩

theorem keeps_throw {e : Rejection} : Keeps I Q (throw e) :=
  fun _ hs => hs

theorem keeps_get : Keeps I I (get : Step σ σ) :=
  fun _ hs => ⟨hs, hs⟩

theorem keeps_modify {f : σ → σ} {P : Unit → Prop} (hP : P ()) (hf : ∀ s, I s → I (f s)) :
    Keeps I P (modify f) :=
  fun s hs => ⟨hf s hs, hP⟩

theorem keeps_const {p : Prop} {m : Step σ α} : Keeps (fun _ => p) (fun _ => True) m := by
  intro s hp
  cases m s with
  | ok a t => exact ⟨hp, trivial⟩
  | error e t => exact hp

theorem Keeps.mono {m : Step σ α} {Q' : α → Prop} (h : Keeps I Q m) (hQ : ∀ a, Q a → Q' a) :
    Keeps I Q' m := by
  intro s hs
  have := h s hs
  cases hok : m s with
  | ok a t =>
    rw [hok] at this
    exact ⟨this.1, hQ a this.2⟩
  | error e t =>
    rw [hok] at this
    exact this

theorem keeps_forM {P : Unit → Prop} (hP : P ()) {f : α → Step σ Unit} {as : List α}
    (hf : ∀ a ∈ as, Keeps I P (f a)) : Keeps I P (as.forM f : Step σ Unit) := by
  induction as with
  | nil => exact keeps_pure hP
  | cons a as ih =>
    exact keeps_bind (hf a List.mem_cons_self) fun _ _ =>
      ih fun b hb => hf b (List.mem_cons_of_mem a hb)

/-! ### What a step does if it succeeds, and why it refuses -/

/-- If the step succeeds, the states before and after it are related by `R`; if it refuses, the reason
satisfies `E`. -/
def Meets (E : ε → Prop) (R : σ → σ → Prop) (m : EStateM ε σ α) : Prop :=
  ∀ s,
    match m s with
    | .ok _ t => R s t
    | .error e _ => E e

section Meets

variable {E : ε → Prop} {P P' P'' : σ → σ → Prop} {m : EStateM ε σ α}

theorem Meets.of_ok {a : α} (h : Meets E P m) (hok : m s = .ok a t) : P s t := by
  have := h s
  rwa [hok] at this

theorem Meets.of_error {e : ε} (h : Meets E P m) (herror : m s = .error e t) : E e := by
  have := h s
  rwa [herror] at this

theorem meets_of (hok : ∀ s a t, m s = .ok a t → P s t) (herror : ∀ s e t, m s = .error e t → E e) :
    Meets E P m := by
  intro s
  cases hm : m s with
  | ok a t => exact hok s a t hm
  | error e t => exact herror s e t hm

theorem Meets.mono (h : Meets E P m) (hP : ∀ s t, P s t → P' s t) : Meets E P' m :=
  meets_of (fun s _ t hok => hP s t (h.of_ok hok)) fun _ _ _ herror => h.of_error herror

theorem meets_pure {a : α} (h : ∀ s, P s s) : Meets E P (pure a : EStateM ε σ α) :=
  h

theorem meets_throw {e : ε} (h : E e) : Meets E P (throw e : EStateM ε σ α) :=
  fun _ => h

theorem meets_get_bind {f : σ → EStateM ε σ α} (h : ∀ s, Meets E P (f s)) : Meets E P (get >>= f) :=
  fun s => h s s

theorem meets_bind {f : α → EStateM ε σ β} (hm : Meets E P m) (hf : ∀ a, Meets E P' (f a))
    (htrans : ∀ s t u, P s t → P' t u → P'' s u) : Meets E P'' (m >>= f) := by
  refine meets_of (fun s b u hok => ?_) fun s e u herror => ?_
  · obtain ⟨a, t, hma, hfa⟩ := bind_ok.mp hok
    exact htrans s t u (hm.of_ok hma) ((hf a).of_ok hfa)
  · rcases bind_error.mp herror with hma | ⟨a, t, -, hfa⟩
    · exact hm.of_error hma
    · exact (hf a).of_error hfa

end Meets

end Step

/-! ### Runs -/

namespace Sink

variable {σ : Type} [Sink σ]

/-- Makes calls one after another.  There is no result if one of them is refused. -/
def run : List Call → σ → Option σ
  | [], s => some s
  | c :: rest, s =>
    match Sink.step c s with
    | .ok _ s => run rest s
    | .error _ _ => none

/-- Makes calls one after another, whether or not they are accepted, and gives an answer for each. -/
def session : List Call → σ → List (Except Rejection (Option Nat)) × σ
  | [], s => ([], s)
  | c :: rest, s =>
    match Sink.step c s with
    | .ok reply s => (.ok reply :: (session rest s).1, (session rest s).2)
    | .error e s => (.error e :: (session rest s).1, (session rest s).2)

/-- The calls of a session that were accepted, in order. -/
def accepted (cs : List Call) (s : σ) : List Call :=
  ((cs.zip (session cs s).1).filter fun (_, answer) => answer.isOk).map Prod.fst

/-- The calls of a run, each with the state it was made in. -/
def history : List Call → σ → List (Call × σ)
  | [], _ => []
  | c :: rest, s =>
    (c, s) :: match Sink.step c s with
      | .ok _ s => history rest s
      | .error _ _ => []

theorem history_cons {c : Call} (rest : List Call) {s s' : σ} {reply : Option Nat}
    (h : Sink.step c s = .ok reply s') : history (c :: rest) s = (c, s) :: history rest s' := by
  rw [history, h]

theorem run_cons {c : Call} {rest : List Call} {s t : σ} :
    run (c :: rest) s = some t ↔ ∃ reply s', Sink.step c s = .ok reply s' ∧ run rest s' = some t := by
  rw [run]
  cases Sink.step c s with
  | ok reply s' =>
    constructor
    · intro h
      exact ⟨reply, s', rfl, h⟩
    · rintro ⟨reply', s'', h, hrest⟩
      cases h
      exact hrest
  | error e s' => simp

/-- A run that succeeds makes every call. -/
theorem map_fst_history {cs : List Call} {s t : σ} (h : run cs s = some t) :
    (history cs s).map Prod.fst = cs := by
  induction cs generalizing s with
  | nil => rfl
  | cons c rest ih =>
    obtain ⟨reply, s', hstep, hrest⟩ := run_cons.mp h
    rw [history_cons rest hstep, List.map_cons, ih hrest]

theorem run_append {cs ds : List Call} {s t : σ} :
    run (cs ++ ds) s = some t ↔ ∃ s', run cs s = some s' ∧ run ds s' = some t := by
  induction cs generalizing s with
  | nil => simp [run]
  | cons c rest ih =>
    rw [List.cons_append, run_cons]
    constructor
    · rintro ⟨reply, s', hstep, hrest⟩
      obtain ⟨s'', hcs, hds⟩ := ih.mp hrest
      exact ⟨s'', run_cons.mpr ⟨reply, s', hstep, hcs⟩, hds⟩
    · rintro ⟨s'', hcs, hds⟩
      obtain ⟨reply, s', hstep, hrest⟩ := run_cons.mp hcs
      exact ⟨reply, s', hstep, ih.mpr ⟨s'', hrest, hds⟩⟩

theorem session_cons_ok {c : Call} (rest : List Call) {s s' : σ} {reply : Option Nat}
    (h : Sink.step c s = .ok reply s') :
    (session (c :: rest) s).2 = (session rest s').2 ∧
      accepted (c :: rest) s = c :: accepted rest s' := by
  unfold accepted
  rw [session, h]
  exact ⟨rfl, rfl⟩

theorem session_cons_error {c : Call} (rest : List Call) {s s' : σ} {e : Rejection}
    (h : Sink.step c s = .error e s') :
    (session (c :: rest) s).2 = (session rest s').2 ∧
      accepted (c :: rest) s = accepted rest s' := by
  unfold accepted
  rw [session, h]
  exact ⟨rfl, rfl⟩

/-- What every call keeps, accepted or not, holds through a session. -/
theorem keeps_session {I : σ → Prop} {calls : List Call} {s : σ}
    (hstep : ∀ c ∈ calls, Step.Keeps I (fun _ => True) (Sink.step c)) (hs : I s) :
    I (session calls s).2 := by
  induction calls generalizing s with
  | nil => exact hs
  | cons c rest ih =>
    have hrest : ∀ c' ∈ rest, Step.Keeps I (fun _ => True) (Sink.step c') :=
      fun c' hc' => hstep c' (List.mem_cons_of_mem c hc')
    have hkeeps := hstep c List.mem_cons_self
    cases hok : Sink.step c s with
    | ok reply s' =>
      rw [(session_cons_ok rest hok).1]
      exact ih hrest (hkeeps.of_ok hs hok).1
    | error e s' =>
      rw [(session_cons_error rest hok).1]
      exact ih hrest (hkeeps.of_error hs hok)

/-! ### The calls of a session, one by one -/

/-- A call of a session, with the states before and after it and the answer. -/
structure Attempt (σ : Type) where
  call : Call
  before : σ
  answer : Except Rejection (Option Nat)
  after : σ

def attempt (c : Call) (s : σ) : Attempt σ :=
  match Sink.step c s with
  | .ok reply s' => { call := c, before := s, answer := .ok reply, after := s' }
  | .error e s' => { call := c, before := s, answer := .error e, after := s' }

/-- The calls of a session, one after another. -/
def attempts : List Call → σ → List (Attempt σ)
  | [], _ => []
  | c :: rest, s => attempt c s :: attempts rest (attempt c s).after

theorem attempt_of_ok {c : Call} {s s' : σ} {reply : Option Nat} (h : Sink.step c s = .ok reply s') :
    attempt c s = { call := c, before := s, answer := .ok reply, after := s' } := by
  rw [attempt, h]

theorem attempt_of_error {c : Call} {s s' : σ} {e : Rejection} (h : Sink.step c s = .error e s') :
    attempt c s = { call := c, before := s, answer := .error e, after := s' } := by
  rw [attempt, h]

theorem attempts_cons_ok {c : Call} (rest : List Call) {s s' : σ} {reply : Option Nat}
    (h : Sink.step c s = .ok reply s') : attempts (c :: rest) s
      = { call := c, before := s, answer := .ok reply, after := s' } :: attempts rest s' := by
  rw [attempts, attempt_of_ok h]

theorem attempts_cons_error {c : Call} (rest : List Call) {s s' : σ} {e : Rejection}
    (h : Sink.step c s = .error e s') : attempts (c :: rest) s
      = { call := c, before := s, answer := .error e, after := s' } :: attempts rest s' := by
  rw [attempts, attempt_of_error h]

@[simp] theorem call_attempt (c : Call) (s : σ) : (attempt c s).call = c := by
  cases h : Sink.step c s with
  | ok reply s' => rw [attempt_of_ok h]
  | error e s' => rw [attempt_of_error h]

@[simp] theorem before_attempt (c : Call) (s : σ) : (attempt c s).before = s := by
  cases h : Sink.step c s with
  | ok reply s' => rw [attempt_of_ok h]
  | error e s' => rw [attempt_of_error h]

theorem session_cons (c : Call) (rest : List Call) (s : σ) :
    (session (c :: rest) s).2 = (session rest (attempt c s).after).2 := by
  cases h : Sink.step c s with
  | ok reply s' => rw [(session_cons_ok rest h).1, attempt_of_ok h]
  | error e s' => rw [(session_cons_error rest h).1, attempt_of_error h]

/-- A call is made in the state that the calls before it lead to. -/
theorem mem_attempts (front back : List Call) (c : Call) (s : σ) :
    attempt c (session front s).2 ∈ attempts (front ++ c :: back) s := by
  induction front generalizing s with
  | nil => exact List.mem_cons_self
  | cons d front ih =>
    rw [session_cons]
    exact List.mem_cons_of_mem _ (ih _)

end Sink

end Cil
