/-
A sink that checks calls before it passes them on.

A call goes on only if it passes every check, so what stands behind never sees a refused call.  If
the receiver refuses a call that passed, what the checker learned from the call stays.
-/
import Cil.Verifier.Checker

namespace Cil

/-- A checker in front of another sink. -/
structure Verifier (δ : Type) where
  checker : Checker
  downstream : δ

namespace Verifier

variable {δ : Type}

/-- A verifier for a method, in front of a sink. -/
def start (s : Subject) (downstream : δ) : Verifier δ :=
  ⟨.start s, downstream⟩

/-- Checks a call, passes it on and takes note of what came of it. -/
def step [Sink δ] (c : Call) : Step (Verifier δ) (Option Nat) := fun ⟨checker, downstream⟩ =>
  match Checker.accept c checker with
  | .error e checker => .error e ⟨checker, downstream⟩
  | .ok forwarded checker =>
    match Sink.step forwarded downstream with
    | .error e downstream => .error e ⟨checker, downstream⟩
    | .ok reply downstream =>
      match Checker.settle c reply checker with
      | (index, checker) => .ok index ⟨checker, downstream⟩

instance [Sink δ] : Sink (Verifier δ) where
  step := step

end Verifier

end Cil
