import Mathlib.Logic.Basic
import Mathlib.Tactic.Common

/-!
# Programs over awaited effects

A `Prog ε ρ α` is a program that performs the effects of `ε` one at a time and
continues with their answers: `ret` returns, `raise` ends with an exception,
`call e k` awaits `e` and goes on with `k` at the answer. The points between
two effects are exactly the points at which the program can be suspended,
abandoned or overtaken by another one.

Given a meaning `exec` of the single effects, `run` is the uninterrupted
execution and `cut n` the execution of the first `n` effects, with the program
that is left. `Only` and `Reaches` are two properties of all paths of a
program; a path follows only the answers that `ok` allows.
-/

universe u v

/-- A program that awaits effects in `ε`, where `e` is answered in `ρ e`. -/
inductive Prog (ε : Type u) (ρ : ε → Type v) (α : Type v) : Type (max u v)
  | ret (a : α)
  | raise
  | call (e : ε) (k : ρ e → Prog ε ρ α)

namespace Prog

variable {ε : Type u} {ρ : ε → Type v} {α β : Type v} {S : Type*}

/-- Sequencing: an exception skips the continuation. -/
def bind : Prog ε ρ α → (α → Prog ε ρ β) → Prog ε ρ β
  | ret a, f => f a
  | raise, _ => raise
  | call e k, f => call e fun r => (k r).bind f

instance : Monad (Prog ε ρ) where
  pure := ret
  bind := bind

/-- Awaiting a single effect. -/
def await (e : ε) : Prog ε ρ (ρ e) := call e ret

@[simp] theorem pure_eq (a : α) : (pure a : Prog ε ρ α) = ret a := rfl

@[simp] theorem ret_bind (a : α) (f : α → Prog ε ρ β) :
    (ret a : Prog ε ρ α) >>= f = f a := rfl

@[simp] theorem raise_bind (f : α → Prog ε ρ β) :
    (raise : Prog ε ρ α) >>= f = raise := rfl

@[simp] theorem call_bind (e : ε) (k : ρ e → Prog ε ρ α) (f : α → Prog ε ρ β) :
    call e k >>= f = call e fun r => k r >>= f := rfl

@[simp] theorem await_bind (e : ε) (f : ρ e → Prog ε ρ β) :
    await e >>= f = call e f := rfl

instance : LawfulMonad (Prog ε ρ) :=
  LawfulMonad.mk' (Prog ε ρ)
    (fun p => by
      induction p with
      | ret a => rfl
      | raise => rfl
      | call e k ih => exact congrArg (call e) (funext ih))
    (fun _ _ => rfl)
    (fun p f g => by
      induction p with
      | ret a => rfl
      | raise => rfl
      | call e k ih => exact congrArg (call e) (funext ih))

theorem ite_bind (c : Prop) [Decidable c] (p q : Prog ε ρ α) (f : α → Prog ε ρ β) :
    (if c then p else q) >>= f = if c then p >>= f else q >>= f := by
  split <;> rfl

/-- The program still has an effect to await. -/
def waiting : Prog ε ρ α → Bool
  | call _ _ => true
  | _ => false

section Execution

variable (exec : (e : ε) → S → Option (ρ e × S))

/-- Uninterrupted execution: the value returned, or `none` for an exception,
with the state at the end. An effect with no meaning in the current state
raises. -/
def run : Prog ε ρ α → S → Option α × S
  | ret a, s => (some a, s)
  | raise, s => (none, s)
  | call e k, s =>
      match exec e s with
      | none => (none, s)
      | some (r, t) => (k r).run t

/-- Execution of at most `n` effects: the program left and the state. -/
def cut : ℕ → Prog ε ρ α → S → Prog ε ρ α × S
  | _, ret a, s => (ret a, s)
  | _, raise, s => (raise, s)
  | 0, call e k, s => (call e k, s)
  | n + 1, call e k, s =>
      match exec e s with
      | none => (raise, s)
      | some (r, t) => cut n (k r) t

@[simp] theorem run_ret (a : α) (s : S) :
    (ret a : Prog ε ρ α).run exec s = (some a, s) := rfl

@[simp] theorem run_raise (s : S) :
    (raise : Prog ε ρ α).run exec s = (none, s) := rfl

theorem run_call (e : ε) (k : ρ e → Prog ε ρ α) (s : S) :
    (call e k).run exec s =
      match exec e s with
      | none => (none, s)
      | some (r, t) => (k r).run exec t := by
  cases h : exec e s <;> simp only [run, h]

@[simp] theorem cut_ret (n : ℕ) (a : α) (s : S) :
    (ret a : Prog ε ρ α).cut exec n s = (ret a, s) := by
  cases n <;> rfl

@[simp] theorem cut_raise (n : ℕ) (s : S) :
    (raise : Prog ε ρ α).cut exec n s = (raise, s) := by
  cases n <;> rfl

@[simp] theorem cut_zero (p : Prog ε ρ α) (s : S) : p.cut exec 0 s = (p, s) := by
  cases p <;> rfl

theorem cut_succ_call (n : ℕ) (e : ε) (k : ρ e → Prog ε ρ α) (s : S) :
    (call e k).cut exec (n + 1) s =
      match exec e s with
      | none => (raise, s)
      | some (r, t) => (k r).cut exec n t := rfl

variable {exec}

theorem run_call_none {e : ε} {k : ρ e → Prog ε ρ α} {s : S} (h : exec e s = none) :
    (call e k).run exec s = (none, s) := by
  rw [run_call, h]

theorem run_call_some {e : ε} {k : ρ e → Prog ε ρ α} {s t : S} {r : ρ e}
    (h : exec e s = some (r, t)) :
    (call e k).run exec s = (k r).run exec t := by
  rw [run_call, h]

theorem cut_call_some {n : ℕ} {e : ε} {k : ρ e → Prog ε ρ α} {s t : S} {r : ρ e}
    (h : exec e s = some (r, t)) :
    (call e k).cut exec (n + 1) s = (k r).cut exec n t := by
  rw [cut_succ_call, h]

end Execution

section Paths

variable (ok : (e : ε) → ρ e → Prop) (benign target : ε → Prop)

/-- Every effect on every path is benign. -/
def Only : Prog ε ρ α → Prop
  | ret _ => True
  | raise => True
  | call e k => benign e ∧ ∀ r, ok e r → (k r).Only

/-- No path returns before a target effect; up to it and after it every effect
is benign. -/
def Reaches : Prog ε ρ α → Prop
  | ret _ => False
  | raise => True
  | call e k =>
      (target e ∧ ∀ r, ok e r → (k r).Only ok benign) ∨
        (benign e ∧ ∀ r, ok e r → (k r).Reaches)

@[simp] theorem only_ret (a : α) : (ret a : Prog ε ρ α).Only ok benign := trivial

@[simp] theorem only_raise : (raise : Prog ε ρ α).Only ok benign := trivial

@[simp] theorem only_call (e : ε) (k : ρ e → Prog ε ρ α) :
    (call e k).Only ok benign ↔ benign e ∧ ∀ r, ok e r → (k r).Only ok benign := Iff.rfl

@[simp] theorem reaches_ret (a : α) :
    (ret a : Prog ε ρ α).Reaches ok benign target ↔ False := Iff.rfl

@[simp] theorem reaches_raise : (raise : Prog ε ρ α).Reaches ok benign target := trivial

variable {ok benign target}

/-- Two meanings that agree on the benign effects run a program of benign effects
alike. -/
theorem run_congr_of_only {exec exec' : (e : ε) → S → Option (ρ e × S)}
    (h : ∀ e, benign e → exec' e = exec e) {p : Prog ε ρ α}
    (hp : p.Only (fun _ _ => True) benign) (s : S) : p.run exec' s = p.run exec s := by
  induction p generalizing s with
  | ret a => rfl
  | raise => rfl
  | call e k ih =>
      rw [run_call, run_call, h e hp.1]
      cases exec e s with
      | none => rfl
      | some r => exact ih r.1 (hp.2 r.1 trivial) r.2

theorem Reaches.of_benign {e : ε} {k : ρ e → Prog ε ρ α} (h : benign e)
    (hk : ∀ r, ok e r → (k r).Reaches ok benign target) :
    (call e k).Reaches ok benign target := Or.inr ⟨h, hk⟩

theorem Reaches.of_target {e : ε} {k : ρ e → Prog ε ρ α} (h : target e)
    (hk : ∀ r, ok e r → (k r).Only ok benign) :
    (call e k).Reaches ok benign target := Or.inl ⟨h, hk⟩

end Paths

end Prog
