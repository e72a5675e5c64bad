import Mathlib.Data.List.Basic
import Mathlib.Tactic.Common

/-!
# Schedules of a partial step function

A transition system is given by a partial step function `step s a`: the action
`a` is either possible in `s`, with one outcome, or not possible at all. All
nondeterminism sits in the actions, so a run is a list of actions and every
statement about all runs is a statement about all schedules.

`run step s as` is the state after the schedule `as`, and `Along step P s as`
says that every action of the schedule is taken in a state in which `P` holds
of it. The two induction rules carry an invariant, and a relation to the
initial state, along a schedule.
-/

namespace Schedule

variable {S A T B : Type*}

/-- The state after a schedule, or `none` when one of its actions is not
possible where it is taken. -/
def run (step : S → A → Option S) : S → List A → Option S
  | s, [] => some s
  | s, a :: as => (step s a).bind fun t => run step t as

/-- Every action of the schedule is taken in a state where `P` holds of it. -/
def Along (step : S → A → Option S) (P : S → A → Prop) : S → List A → Prop
  | _, [] => True
  | s, a :: as => P s a ∧ ∀ t, step s a = some t → Along step P t as

variable {step : S → A → Option S} {P Q : S → A → Prop}

@[simp] theorem run_nil (s : S) : run step s [] = some s := rfl

theorem run_cons (s : S) (a : A) (as : List A) :
    run step s (a :: as) = (step s a).bind fun t => run step t as := rfl

theorem run_cons_eq_some {s u : S} {a : A} {as : List A} :
    run step s (a :: as) = some u ↔
      ∃ t, step s a = some t ∧ run step t as = some u := by
  rw [run_cons, Option.bind_eq_some_iff]

theorem run_append (s : S) (as bs : List A) :
    run step s (as ++ bs) = (run step s as).bind fun t => run step t bs := by
  induction as generalizing s with
  | nil => rfl
  | cons a as ih =>
      rw [List.cons_append, run_cons, run_cons, Option.bind_assoc]
      exact congrArg _ (funext fun t => ih t)

theorem run_append_eq_some {s u : S} {as bs : List A} :
    run step s (as ++ bs) = some u ↔
      ∃ t, run step s as = some t ∧ run step t bs = some u := by
  rw [run_append, Option.bind_eq_some_iff]

theorem run_concat_eq_some {s u : S} {as : List A} {a : A} :
    run step s (as ++ [a]) = some u ↔
      ∃ t, run step s as = some t ∧ step t a = some u := by
  simp [run_append_eq_some, run_cons_eq_some]

@[simp] theorem along_nil (s : S) : Along step P s [] := trivial

theorem along_cons {s : S} {a : A} {as : List A} :
    Along step P s (a :: as) ↔
      P s a ∧ ∀ t, step s a = some t → Along step P t as := Iff.rfl

/-- A decidable condition can be checked along a schedule. -/
instance decidableAlong [∀ s a, Decidable (P s a)] :
    (s : S) → (as : List A) → Decidable (Along step P s as)
  | _, [] => isTrue trivial
  | s, a :: as =>
      match h : step s a with
      | none => decidable_of_iff (P s a) ⟨fun ha => ⟨ha, by simp [h]⟩, fun hall => hall.1⟩
      | some t =>
          have := decidableAlong t as
          decidable_of_iff (P s a ∧ Along step P t as)
            ⟨fun hall => ⟨hall.1, by simpa [h] using hall.2⟩, fun hall => ⟨hall.1, hall.2 t h⟩⟩

theorem along_append {s : S} {as bs : List A} :
    Along step P s (as ++ bs) ↔
      Along step P s as ∧ ∀ t, run step s as = some t → Along step P t bs := by
  induction as generalizing s with
  | nil => simp
  | cons a as ih =>
      rw [List.cons_append, along_cons, along_cons, and_assoc]
      refine and_congr_right fun _ => ?_
      constructor
      · intro h
        refine ⟨fun t ht => (ih.1 (h t ht)).1, ?_⟩
        intro u hu
        obtain ⟨t, ht, hrun⟩ := run_cons_eq_some.1 hu
        exact (ih.1 (h t ht)).2 u hrun
      · rintro ⟨h, hall⟩ t ht
        exact ih.2 ⟨h t ht, fun u hu => hall u (run_cons_eq_some.2 ⟨t, ht, hu⟩)⟩

theorem Along.and {s : S} {as : List A} (hP : Along step P s as) (hQ : Along step Q s as) :
    Along step (fun s a => P s a ∧ Q s a) s as := by
  induction as generalizing s with
  | nil => trivial
  | cons a as ih => exact ⟨⟨hP.1, hQ.1⟩, fun t ht => ih (hP.2 t ht) (hQ.2 t ht)⟩

/-- A condition that the actions of the schedule meet in every state. -/
theorem along_of_forall {s : S} {as : List A} (h : ∀ a ∈ as, ∀ s, P s a) :
    Along step P s as := by
  induction as generalizing s with
  | nil => trivial
  | cons a as ih =>
      have htail : ∀ b ∈ as, ∀ s, P s b := fun b hb => h b (List.mem_cons_of_mem a hb)
      exact ⟨h a List.mem_cons_self s, fun t _ => ih htail⟩

theorem along_true (s : S) (as : List A) :
    Along step (fun _ _ => True) s as := along_of_forall fun _ _ _ => trivial

/-- A property that `P`-steps preserve holds at the end of every schedule all
of whose actions meet `P`. -/
theorem run_preserves {I : S → Prop}
    (hstep : ∀ s a t, I s → P s a → step s a = some t → I t)
    {s u : S} {as : List A} (hs : I s) (hP : Along step P s as)
    (hrun : run step s as = some u) : I u := by
  induction as generalizing s with
  | nil => exact Option.some.inj hrun ▸ hs
  | cons a as ih =>
      obtain ⟨t, ht, hrest⟩ := run_cons_eq_some.1 hrun
      exact ih (hstep s a t hs hP.1 ht) (hP.2 t ht) hrest

/-- The case of `run_preserves` in which every step preserves the property. -/
theorem run_invariant {I : S → Prop}
    (hstep : ∀ s a t, I s → step s a = some t → I t)
    {s u : S} {as : List A} (hs : I s) (hrun : run step s as = some u) : I u :=
  run_preserves (P := fun _ _ => True) (fun s a t hI _ h => hstep s a t hI h) hs
    (along_true s as) hrun

/-- Steps that lower a measure cannot go on for longer than it is large. -/
theorem length_add_le {I : S → Prop} {μ : S → ℕ}
    (hstep : ∀ s a t, I s → P s a → step s a = some t → I t ∧ μ t < μ s)
    {s u : S} {as : List A} (hs : I s) (hP : Along step P s as)
    (hrun : run step s as = some u) : as.length + μ u ≤ μ s := by
  induction as generalizing s with
  | nil =>
      cases hrun
      exact Nat.le_of_eq (Nat.zero_add _)
  | cons a as ih =>
      obtain ⟨t, ht, hrest⟩ := run_cons_eq_some.1 hrun
      obtain ⟨hIt, hlt⟩ := hstep s a t hs hP.1 ht
      have hle := ih hIt (hP.2 t ht) hrest
      rw [List.length_cons]
      omega

/-- To show a condition along a schedule it is enough to show it for each action
under the assumption that it holds along the schedule before. -/
theorem along_of_forall_prefix {s : S} {as : List A}
    (h : ∀ bs a cs t, as = bs ++ a :: cs → Along step P s bs → run step s bs = some t →
      P t a) : Along step P s as := by
  induction as generalizing s with
  | nil => trivial
  | cons a as ih =>
      have ha : P s a := h [] a as s rfl trivial rfl
      refine ⟨ha, fun t ht => ih ?_⟩
      rintro bs b cs u rfl hbs hu
      refine h (a :: bs) b cs u rfl ⟨ha, ?_⟩ (run_cons_eq_some.2 ⟨t, ht, hu⟩)
      intro t' ht'
      rw [ht] at ht'
      exact Option.some.inj ht' ▸ hbs

theorem Along.of_append {s : S} {as bs : List A} (h : Along step P s (as ++ bs)) :
    Along step P s as := (along_append.1 h).1

/-- When every step of one system is matched by a schedule of another, so is
every run. -/
theorem run_simulation {stepT : T → B → Option T} {R : S → T → Prop}
    (hstep : ∀ s a s' t, R s t → step s a = some s' →
      ∃ bs t', run stepT t bs = some t' ∧ R s' t')
    {s u : S} {t : T} {as : List A} (hR : R s t) (hrun : run step s as = some u) :
    ∃ bs v, run stepT t bs = some v ∧ R u v := by
  induction as generalizing s t with
  | nil => exact ⟨[], t, rfl, Option.some.inj hrun ▸ hR⟩
  | cons a as ih =>
      obtain ⟨s', hs', hrest⟩ := run_cons_eq_some.1 hrun
      obtain ⟨bs, t', hbs, hR'⟩ := hstep s a s' t hR hs'
      obtain ⟨cs, v, hcs, hv⟩ := ih hR' hrest
      exact ⟨bs ++ cs, v, run_append_eq_some.2 ⟨t', hbs, hcs⟩, hv⟩

end Schedule
