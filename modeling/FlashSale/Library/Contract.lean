import FlashSale.Library.Prog

/-!
# Contracts of programs

A program is judged against `Terms`: which effects are admitted in a ghost state,
and how an effect and its answer change the ghost state. `Keeps terms post exc p g`
says that from the ghost state `g` every path of `p` performs admitted effects
only, returns in a state that meets `post` and raises in one that meets `exc`.

The rules follow the ways to build programs. `orElse` is the handler of
exceptions.
-/

universe u v w

namespace Prog

variable {ε : Type u} {ρ : ε → Type v} {α β : Type v} {G : Type w}

/-- Runs the second program where the first one raises. -/
def orElse : Prog ε ρ α → Prog ε ρ α → Prog ε ρ α
  | ret a, _ => ret a
  | raise, q => q
  | call e k, q => call e fun r => (k r).orElse q

@[simp] theorem ret_orElse (a : α) (q : Prog ε ρ α) : (ret a).orElse q = ret a := rfl

@[simp] theorem raise_orElse (q : Prog ε ρ α) : raise.orElse q = q := rfl

@[simp] theorem call_orElse (e : ε) (k : ρ e → Prog ε ρ α) (q : Prog ε ρ α) :
    (call e k).orElse q = call e fun r => (k r).orElse q := rfl

/-- The effects admitted in a ghost state, and the ghost state after one. -/
structure Terms (ε : Type u) (ρ : ε → Type v) (G : Type w) where
  admits : G → ε → Prop
  next : G → (e : ε) → ρ e → G

/-- Every path performs admitted effects only and ends as the postconditions say. -/
def Keeps (terms : Terms ε ρ G) (post : α → G → Prop) (exc : G → Prop) : Prog ε ρ α → G → Prop
  | ret a, g => post a g
  | raise, g => exc g
  | call e k, g => terms.admits g e ∧ ∀ r, (k r).Keeps terms post exc (terms.next g e r)

variable {terms : Terms ε ρ G} {post post' : α → G → Prop} {exc exc' : G → Prop} {g : G}

@[simp] theorem keeps_ret (a : α) :
    (ret a : Prog ε ρ α).Keeps terms post exc g ↔ post a g := Iff.rfl

@[simp] theorem keeps_raise : (raise : Prog ε ρ α).Keeps terms post exc g ↔ exc g := Iff.rfl

theorem Keeps.mono {p : Prog ε ρ α} (h : p.Keeps terms post exc g)
    (hpost : ∀ a g, post a g → post' a g) (hexc : ∀ g, exc g → exc' g) :
    p.Keeps terms post' exc' g := by
  induction p generalizing g with
  | ret a => exact hpost a g h
  | raise => exact hexc g h
  | call e k ih => exact ⟨h.1, fun r => ih r (h.2 r)⟩

/-- Sequencing: the second program starts where the first one returns. -/
theorem Keeps.bind {p : Prog ε ρ α} {f : α → Prog ε ρ β} {final : β → G → Prop}
    (h : p.Keeps terms (fun a g => (f a).Keeps terms final exc g) exc g) :
    (p >>= f).Keeps terms final exc g := by
  induction p generalizing g with
  | ret a => exact h
  | raise => exact h
  | call e k ih => exact ⟨h.1, fun r => ih r (h.2 r)⟩

/-- Handling an exception: the second program starts where the first one raises. -/
theorem Keeps.orElse {p q : Prog ε ρ α}
    (h : p.Keeps terms post (fun g => q.Keeps terms post exc g) g) :
    (p.orElse q).Keeps terms post exc g := by
  induction p generalizing g with
  | ret a => exact h
  | raise => exact h
  | call e k ih => exact ⟨h.1, fun r => ih r (h.2 r)⟩

end Prog
