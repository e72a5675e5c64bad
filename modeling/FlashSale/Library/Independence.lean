import FlashSale.Library.Schedule

/-!
# Independent actions

Every action has an owner, and actions of different owners are independent: two
neighbours in a schedule can be exchanged, up to a relation `sim` that no further
action sees. Then a schedule is determined by its projections: any two schedules
that order the actions of each owner alike can be taken for one another
(`Independent.run_of_projections`).
-/

namespace Schedule

variable {S A K : Type*}

/-- Among the states that meet `I`, the actions that meet `P` are independent when
their owners are different. -/
structure Independent (step : S → A → Option S) (P : A → Prop) (owner : A → K) (I : S → Prop)
    (sim : S → S → Prop) : Prop where
  refl : ∀ s, sim s s
  trans : ∀ {s t u}, sim s t → sim t u → sim s u
  inv : ∀ {s a t}, I s → step s a = some t → I t
  congr : ∀ {s s' a t}, I s → I s' → P a → sim s s' → step s a = some t →
    ∃ t', step s' a = some t' ∧ sim t t'
  swap : ∀ {s a b s' t}, I s → P a → P b → owner a ≠ owner b → step s a = some s' →
    step s' b = some t → ∃ s'' u, step s b = some s'' ∧ step s'' a = some u ∧ sim t u

namespace Independent

variable {step : S → A → Option S} {P : A → Prop} {owner : A → K} {I : S → Prop}
  {sim : S → S → Prop}

/-- A schedule does not tell related states apart. -/
theorem run_congr (h : Independent step P owner I sim) {s s' t : S} {as : List A} (hs : I s)
    (hs' : I s') (hP : ∀ a ∈ as, P a) (hsim : sim s s') (hrun : run step s as = some t) :
    ∃ t', run step s' as = some t' ∧ sim t t' := by
  induction as generalizing s s' with
  | nil =>
      cases hrun
      exact ⟨s', rfl, hsim⟩
  | cons a as ih =>
      obtain ⟨u, hu, hrest⟩ := run_cons_eq_some.1 hrun
      obtain ⟨u', hu', hsim'⟩ := h.congr hs hs' (hP a List.mem_cons_self) hsim hu
      obtain ⟨t', ht', hend⟩ := ih (h.inv hs hu) (h.inv hs' hu')
        (fun b hb => hP b (List.mem_cons_of_mem a hb)) hsim' hrest
      exact ⟨t', run_cons_eq_some.2 ⟨u', hu', ht'⟩, hend⟩

/-- An action can be taken before the actions of other owners. -/
theorem run_front (h : Independent step P owner I sim) {s t : S} {as bs : List A} {b : A}
    (hs : I s) (hP : ∀ a ∈ as ++ b :: bs, P a) (hne : ∀ a ∈ as, owner a ≠ owner b)
    (hrun : run step s (as ++ b :: bs) = some t) :
    ∃ u, run step s (b :: (as ++ bs)) = some u ∧ sim t u := by
  induction as generalizing s with
  | nil => exact ⟨t, hrun, h.refl t⟩
  | cons a as ih =>
      have htail : ∀ c ∈ as ++ b :: bs, P c := fun c hc => hP c (List.mem_cons_of_mem a hc)
      have hb : P b := htail b (List.mem_append_right _ List.mem_cons_self)
      obtain ⟨s₁, hs₁, hrest⟩ := run_cons_eq_some.1 hrun
      obtain ⟨u, hu, hsim⟩ := ih (h.inv hs hs₁) htail
        (fun c hc => hne c (List.mem_cons_of_mem a hc)) hrest
      obtain ⟨s₂, hs₂, hlast⟩ := run_cons_eq_some.1 hu
      -- the action passes `a`, and what follows is taken in a related state
      obtain ⟨v, v', hv, hv', hswap⟩ := h.swap hs (hP a List.mem_cons_self) hb
        (hne a List.mem_cons_self) hs₁ hs₂
      have hpast : ∀ c ∈ as ++ bs, P c := fun c hc => htail c <| by
        rcases List.mem_append.1 hc with hc | hc
        · exact List.mem_append_left _ hc
        · exact List.mem_append_right _ (List.mem_cons_of_mem b hc)
      obtain ⟨u', hu', hend⟩ := h.run_congr (h.inv (h.inv hs hs₁) hs₂) (h.inv (h.inv hs hv) hv')
        hpast hswap hlast
      refine ⟨u', ?_, h.trans hsim hend⟩
      exact run_cons_eq_some.2 ⟨v, hv, run_cons_eq_some.2 ⟨v', hv', hu'⟩⟩

/-- What a schedule leads to depends on the order of the actions of each owner. -/
theorem run_of_projections [DecidableEq K] (h : Independent step P owner I sim) {s t : S}
    {as bs : List A} (hs : I s) (hP : ∀ a ∈ as, P a)
    (hproj : ∀ k, (bs.filter fun a => owner a = k) = as.filter fun a => owner a = k)
    (hrun : run step s as = some t) : ∃ u, run step s bs = some u ∧ sim t u := by
  have hcons (b : A) (bs : List A) : ((b :: bs).filter fun a => owner a = owner b) =
      b :: bs.filter fun a => owner a = owner b := by simp
  induction bs generalizing s t as with
  | nil =>
      cases as with
      | nil => exact ⟨t, hrun, h.refl t⟩
      | cons a as =>
          have hfirst := hproj (owner a)
          rw [hcons] at hfirst
          cases hfirst
  | cons b bs ih =>
      have hfirst := (hproj (owner b)).symm
      rw [hcons] at hfirst
      obtain ⟨l, l', rfl, hbefore, -, -⟩ := List.filter_eq_cons_iff.1 hfirst
      have hne : ∀ a ∈ l, owner a ≠ owner b := fun a ha heq => hbefore a ha (decide_eq_true heq)
      obtain ⟨u, hu, hsim⟩ := h.run_front hs hP hne hrun
      obtain ⟨s', hs', hrest⟩ := run_cons_eq_some.1 hu
      have hP' : ∀ a ∈ l ++ l', P a := fun a ha => hP a <| by
        rcases List.mem_append.1 ha with ha | ha
        · exact List.mem_append_left _ ha
        · exact List.mem_append_right _ (List.mem_cons_of_mem b ha)
      have hproj' (k : K) : (bs.filter fun a => owner a = k) =
          (l ++ l').filter fun a => owner a = k := by
        have hk := hproj k
        rw [List.filter_append, List.filter_cons, List.filter_cons] at hk
        rw [List.filter_append]
        by_cases hkey : owner b = k
        · have hnone : (l.filter fun a => owner a = k) = [] := by
            refine List.filter_eq_nil_iff.2 fun a ha heq => hne a ha ?_
            exact (of_decide_eq_true heq).trans hkey.symm
          simp only [hkey, decide_true, if_true, hnone, List.nil_append, List.cons.injEq,
            true_and] at hk
          rw [hnone, hk]
          rfl
        · simpa only [hkey, decide_false, Bool.false_eq_true, if_false] using hk
      obtain ⟨v, hv, hend⟩ := ih (h.inv hs hs') hP' hproj' hrest
      exact ⟨v, run_cons_eq_some.2 ⟨s', hs', hv⟩, h.trans hsim hend⟩

end Independent

end Schedule
