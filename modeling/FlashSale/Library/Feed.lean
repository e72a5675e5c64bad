import FlashSale.Library.Contract

/-!
# Programs along given outcomes

A call can end in several ways. `exec e o s` is the answer of the call `e` and
the state after it when it ends with the outcome `o`, or nothing when it cannot
end so. `feed` runs a program to its end, one outcome for each call, and says
what it ended with, the state and the outcomes that are left.

A sequence and an exception handler are fed part by part.
-/

universe u v

namespace Prog

variable {ε : Type u} {ρ : ε → Type v} {α β : Type v} {S O : Type*}

/-- The program runs to its end: `some (some a, t, os)` when it returns `a`, and
`some (none, t, os)` when it raises. -/
def feed (exec : (e : ε) → O → S → Option (ρ e × S)) :
    Prog ε ρ α → S → List O → Option (Option α × S × List O)
  | ret a, s, os => some (some a, s, os)
  | raise, s, os => some (none, s, os)
  | call _ _, _, [] => none
  | call e k, s, o :: os => (exec e o s).bind fun r => feed exec (k r.1) r.2 os

variable {exec : (e : ε) → O → S → Option (ρ e × S)}

@[simp] theorem feed_ret (a : α) (s : S) (os : List O) :
    (ret a : Prog ε ρ α).feed exec s os = some (some a, s, os) := by
  cases os <;> rfl

@[simp] theorem feed_raise (s : S) (os : List O) :
    (raise : Prog ε ρ α).feed exec s os = some (none, s, os) := by
  cases os <;> rfl

theorem feed_call_cons (e : ε) (k : ρ e → Prog ε ρ α) (s : S) (o : O) (os : List O) :
    (call e k).feed exec s (o :: os) =
      (exec e o s).bind fun r => (k r.1).feed exec r.2 os := rfl

/-- The second part of a sequence is fed what the first part leaves. -/
theorem feed_bind (p : Prog ε ρ α) (f : α → Prog ε ρ β) (s : S) (os : List O) :
    (p >>= f).feed exec s os =
      (p.feed exec s os).bind fun r =>
        r.1.elim (some (none, r.2)) fun a => (f a).feed exec r.2.1 r.2.2 := by
  induction p generalizing s os with
  | ret a => simp
  | raise => simp
  | call e k ih =>
      cases os with
      | nil => rfl
      | cons o os =>
          rw [call_bind, feed_call_cons, feed_call_cons, Option.bind_assoc]
          exact congrArg _ (funext fun r => ih r.1 r.2 os)

/-- A sequence that ends by returning a value made from that of its first part. -/
theorem feed_bind_pure (p : Prog ε ρ α) (f : α → β) (s : S) (os : List O) :
    (p >>= fun a => pure (f a)).feed exec s os =
      (p.feed exec s os).map fun r => (r.1.map f, r.2) := by
  rw [feed_bind]
  cases p.feed exec s os with
  | none => rfl
  | some r =>
      obtain ⟨a, t, rest⟩ := r
      cases a with
      | none => rfl
      | some a => simp

/-- The handler of exceptions is fed what the program that raised has left. -/
theorem feed_orElse (p q : Prog ε ρ α) (s : S) (os : List O) :
    (p.orElse q).feed exec s os =
      (p.feed exec s os).bind fun r =>
        r.1.elim (q.feed exec r.2.1 r.2.2) fun a => some (some a, r.2) := by
  induction p generalizing s os with
  | ret a => simp
  | raise => simp
  | call e k ih =>
      cases os with
      | nil => rfl
      | cons o os =>
          rw [call_orElse, feed_call_cons, feed_call_cons, Option.bind_assoc]
          exact congrArg _ (funext fun r => ih r.1 r.2 os)

end Prog
