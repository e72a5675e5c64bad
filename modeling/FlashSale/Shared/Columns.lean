import FlashSale.Shared.Effects

/-!
# Columns of 32 bits

The quantities and amounts in the five databases are `Integer` columns, which hold 32
bits: a statement that writes a value out of range raises, at the flush or at the commit
that sends it. `execStored` is the meaning of the calls with that rule. A call does what it
does without the rule, or it raises (`execStored_eq_or_none`), and whatever the services
do, every row holds values that fit its columns (`World.Stores.exec`).
-/

namespace FlashSale

/-- The largest value of an `Integer` column. -/
def maxInteger : ℤ := 2147483647

/-- A value that an `Integer` column can hold. -/
def Storable (n : ℤ) : Prop := -2147483648 ≤ n ∧ n ≤ maxInteger

instance (n : ℤ) : Decidable (Storable n) := inferInstanceAs (Decidable (_ ∧ _))

theorem Storable.of_nonneg {n : ℤ} (h : 0 ≤ n) (hle : n ≤ maxInteger) : Storable n :=
  ⟨le_trans (by decide) h, hle⟩

theorem storable_pair {a b : ℤ} : (∀ n ∈ [a, b], Storable n) ↔ Storable a ∧ Storable b := by
  rw [List.forall_mem_cons, List.forall_mem_singleton]

/-- The values that a statement writes to `Integer` columns. -/
def Write.integers : Write → List ℤ
  | .insertOrder order => [order.qty, order.amountCents]
  | .saga _ (.insert row) => [row.qty, row.amountCents]
  | .insertItem _ qty => [qty]
  | .setAvailable _ _ available => [available]
  | .updateItem _ _ available reserved => [available, reserved]
  | .insertPayment payment => [payment.amountCents]
  | _ => []

/-- The statement writes values that their columns can hold. -/
def Write.Storable (x : Write) : Prop := ∀ n ∈ x.integers, FlashSale.Storable n

instance (x : Write) : Decidable x.Storable :=
  inferInstanceAs (Decidable (∀ n ∈ x.integers, FlashSale.Storable n))

/-- The statements that a call sends to the database. -/
def Effect.writes (ω : Answers) : Effect → List Write
  | .flushNew row => [row ω.newId]
  | .flush writes | .commit writes => writes
  | _ => []

/-- The meaning of one awaited call, where a value out of range raises. -/
def execStored (ω : Answers) (e : Effect) (s : World × Session) :
    Option (e.Answer × (World × Session)) :=
  if ∀ x ∈ e.writes ω, x.Storable then exec ω e s else none

/-! ## Calls with the rule -/

section Calls

variable {ω : Answers} {e : Effect} {s : World × Session} {α : Type}

theorem execStored_eq (h : ∀ x ∈ e.writes ω, x.Storable) : execStored ω e = exec ω e :=
  funext fun _ => if_pos h

theorem execStored_eq_none (h : ¬ ∀ x ∈ e.writes ω, x.Storable) (s : World × Session) :
    execStored ω e s = none := if_neg h

theorem execStored_eq_or_none (ω : Answers) (e : Effect) (s : World × Session) :
    execStored ω e s = exec ω e s ∨ execStored ω e s = none := by
  by_cases h : ∀ x ∈ e.writes ω, x.Storable
  · exact Or.inl (congrFun (execStored_eq h) s)
  · exact Or.inr (execStored_eq_none h s)

theorem storable_outbox (service : Service) (message : Message) :
    ∀ x ∈ [Write.outbox service message], x.Storable :=
  List.forall_mem_singleton.2 (List.forall_mem_nil _)

/-- A program that writes nothing out of range runs as without the rule. -/
theorem run_stored_of_only {p : Handler α}
    (hp : p.Only (fun _ _ => True) fun e => ∀ x ∈ e.writes ω, x.Storable) (s : World × Session) :
    p.run (execStored ω) s = p.run (exec ω) s :=
  Prog.run_congr_of_only (fun _ he => execStored_eq he) hp s

/-- A flush of values in range is one without the rule. -/
theorem run_stored_flush {writes : List Write} (f : Unit → Handler α) (s : World × Session)
    (h : ∀ x ∈ writes, x.Storable)
    (hf : ∀ s, (f ()).run (execStored ω) s = (f ()).run (exec ω) s) :
    (flush writes >>= f).run (execStored ω) s = (flush writes >>= f).run (exec ω) s := by
  have hexec : execStored ω (.flush writes) s = exec ω (.flush writes) s := if_pos h
  show (Prog.call (Effect.flush writes) f).run (execStored ω) s =
    (Prog.call (Effect.flush writes) f).run (exec ω) s
  rw [Prog.run_call, Prog.run_call, hexec]
  cases exec ω (.flush writes) s with
  | none => rfl
  | some r => exact hf r.2

/-- A flush of a value out of range raises. -/
theorem run_stored_flush_none {writes : List Write} (f : Unit → Handler α) (s : World × Session)
    (h : ¬ ∀ x ∈ writes, x.Storable) :
    (flush writes >>= f).run (execStored ω) s = (none, s) :=
  Prog.run_call_none (if_neg h)

/-- A transaction without flushes. -/
theorem run_stored_commit (writes : List Write) (s : World × Session) :
    (commit writes).run (execStored ω) s =
      if ∀ x ∈ writes, x.Storable then (commit writes).run (exec ω) s else (none, s) := by
  split
  · next h => exact run_stored_of_only (p := commit writes) ⟨h, fun _ _ => trivial⟩ s
  · next h => exact Prog.run_call_none (if_neg h)

end Calls

/-! ## What the rows hold -/

/-- Every row holds values that its columns can hold. -/
structure World.Stores (w : World) : Prop where
  orders : ∀ order ∈ w.orders, Storable order.qty ∧ Storable order.amountCents
  sagas : ∀ orderId row, w.sagas orderId = some row → Storable row.qty ∧ Storable row.amountCents
  items : ∀ sku item, w.items sku = some item → Storable item.available ∧ Storable item.reserved
  payments : ∀ payment ∈ w.payments, Storable payment.amountCents

namespace World.Stores

variable {w w' : World}

theorem empty : World.empty.Stores where
  orders order horder := by cases horder
  sagas orderId row hrow := by cases hrow
  items sku item hitem := by cases hitem
  payments payment hpayment := by cases hpayment

/-- A table of rows by their key, in which one row is replaced. -/
theorem of_update {K R : Type} [DecidableEq K] {P : R → Prop} {table : K → Option R} {key : K}
    {row : R} (h : ∀ k r, table k = some r → P r) (hrow : P row) :
    ∀ k r, Function.update table key (some row) k = some r → P r := by
  intro k r hr
  by_cases hk : k = key
  · subst hk
    rw [Function.update_self] at hr
    exact Option.some.inj hr ▸ hrow
  · rw [Function.update_of_ne hk] at hr
    exact h k r hr

theorem of_concat {R : Type} {P : R → Prop} {rows : List R} {row : R} (h : ∀ r ∈ rows, P r)
    (hrow : P row) : ∀ r ∈ rows ++ [row], P r := by
  intro r hr
  rcases List.mem_append.1 hr with hr | hr
  · exact h r hr
  · exact List.mem_singleton.1 hr ▸ hrow

theorem storable_of_check {available reserved : ℤ} {item : InventoryItem}
    (hcheck : InventoryItem.check available reserved = some item)
    (h : Storable available ∧ Storable reserved) :
    Storable item.available ∧ Storable item.reserved := by
  obtain ⟨havailable, hreserved⟩ := InventoryItem.check_eq_some.1 hcheck
  rw [havailable, hreserved]
  exact h

/-- A statement that writes nothing out of range. -/
theorem write (h : w.Stores) {x : Write} (hx : x.Storable) (hw : w.write x = some w') :
    w'.Stores := by
  cases x with
  | insertOrder order =>
      simp only [World.write, Option.ite_none_left_eq_some, Option.some.injEq] at hw
      obtain ⟨-, rfl⟩ := hw
      exact ⟨of_concat h.orders (storable_pair.1 hx), h.sagas, h.items, h.payments⟩
  | setOrderStatus orderId status =>
      cases hw
      refine ⟨fun order horder => ?_, h.sagas, h.items, h.payments⟩
      obtain ⟨old, hold, rfl⟩ := List.mem_map.1 horder
      split <;> exact h.orders old hold
  | saga orderId write =>
      cases write with
      | insert row =>
          cases hrow : w.sagas orderId with
          | some old => simp [World.write, hrow] at hw
          | none =>
              simp only [World.write, hrow, Option.some.injEq] at hw
              exact hw ▸ ⟨h.orders, of_update h.sagas (storable_pair.1 hx), h.items,
                h.payments⟩
      | assign state paymentId failureReason =>
          cases hrow : w.sagas orderId with
          | none => simp [World.write, hrow] at hw
          | some old =>
              simp only [World.write, hrow, Option.some.injEq] at hw
              exact hw ▸ ⟨h.orders, of_update h.sagas (h.sagas orderId old hrow), h.items,
                h.payments⟩
  | insertItem sku qty =>
      cases hitem : w.items sku with
      | some old => simp [World.write, hitem] at hw
      | none =>
          simp only [World.write, hitem, Option.map_eq_some_iff] at hw
          obtain ⟨item, hcheck, rfl⟩ := hw
          have hrow : Storable qty ∧ Storable 0 := ⟨List.forall_mem_singleton.1 hx, by decide⟩
          exact ⟨h.orders, h.sagas, of_update h.items (storable_of_check hcheck hrow), h.payments⟩
  | setAvailable sku qty available =>
      cases hitem : w.items sku with
      | none => simp [World.write, hitem] at hw
      | some old =>
          simp only [World.write, hitem, Option.map_eq_some_iff] at hw
          obtain ⟨item, hcheck, rfl⟩ := hw
          have hrow : Storable available ∧ Storable old.reserved :=
            ⟨List.forall_mem_singleton.1 hx, (h.items sku old hitem).2⟩
          exact ⟨h.orders, h.sagas, of_update h.items (storable_of_check hcheck hrow), h.payments⟩
  | updateItem orderId sku available reserved =>
      cases hitem : w.items sku with
      | none => simp [World.write, hitem] at hw
      | some old =>
          simp only [World.write, hitem, Option.map_eq_some_iff] at hw
          obtain ⟨item, hcheck, rfl⟩ := hw
          have hrow := storable_of_check hcheck (storable_pair.1 hx)
          exact ⟨h.orders, h.sagas, of_update h.items hrow, h.payments⟩
  | insertPayment payment =>
      simp only [World.write, Option.ite_none_left_eq_some, Option.some.injEq] at hw
      obtain ⟨-, rfl⟩ := hw
      exact ⟨h.orders, h.sagas, h.items, of_concat h.payments (List.forall_mem_singleton.1 hx)⟩
  | setPaymentStatus paymentId status =>
      cases hw
      refine ⟨h.orders, h.sagas, h.items, fun payment hpayment => ?_⟩
      obtain ⟨old, hold, rfl⟩ := List.mem_map.1 hpayment
      split <;> exact h.payments old hold
  | insertNotification notification | outbox service message =>
      cases hw
      exact ⟨h.orders, h.sagas, h.items, h.payments⟩

theorem writeAll (h : w.Stores) {xs : List Write} (hxs : ∀ x ∈ xs, x.Storable)
    (hw : w.writeAll xs = some w') : w'.Stores := by
  induction xs generalizing w with
  | nil => exact Option.some.inj hw ▸ h
  | cons x xs ih =>
      rw [World.writeAll_cons, Option.bind_eq_some_iff] at hw
      obtain ⟨u, hu, hrest⟩ := hw
      have hu' := h.write (hxs x List.mem_cons_self) hu
      exact ih hu' (fun y hy => hxs y (List.mem_cons_of_mem x hy)) hrest

/-- One call, in a unit of work that has flushed nothing out of range. -/
theorem exec (h : w.Stores) {ω : Answers} {session session' : Session} {e : Effect}
    {r : e.Answer} (htxn : ∀ x ∈ session.txn, x.Storable)
    (hexec : execStored ω e (w, session) = some (r, w', session')) :
    w'.Stores ∧ ∀ x ∈ session'.txn, x.Storable := by
  rw [execStored, Option.ite_none_right_eq_some] at hexec
  obtain ⟨hwrites, hexec⟩ := hexec
  have hall : ∀ x ∈ session.txn ++ e.writes ω, x.Storable := fun x hx =>
    (List.mem_append.1 hx).elim (htxn x) (hwrites x)
  cases e with
  | commit writes =>
      simp only [FlashSale.exec, commitWrites, Option.map_map, Option.map_eq_some_iff] at hexec
      obtain ⟨v, hv, hr⟩ := hexec
      cases hr
      exact ⟨h.writeAll hall hv, fun x hx => by cases hx⟩
  | flush | flushNew =>
      simp only [FlashSale.exec, flushWrites, Option.map_map, Option.map_eq_some_iff] at hexec
      obtain ⟨v, -, hr⟩ := hexec
      cases hr
      exact ⟨h, hall⟩
  | storeResult key entry =>
      cases hexec
      refine ⟨?_, htxn⟩
      cases key <;> exact ⟨h.orders, h.sagas, h.items, h.payments⟩
  | charge | refund =>
      cases hexec
      exact ⟨⟨h.orders, h.sagas, h.items, h.payments⟩, htxn⟩
  | acquire | release | getCachedResult | allow | selectOrder | selectSaga | selectPayment
  | selectItem | selectItemForUpdate =>
      cases hexec
      exact ⟨h, htxn⟩

/-- A request from its start to its end. -/
theorem run (h : w.Stores) {α : Type} (ω : Answers) (p : Handler α) {session : Session}
    (htxn : ∀ x ∈ session.txn, x.Storable) :
    (p.run (execStored ω) (w, session)).2.1.Stores := by
  induction p generalizing w session with
  | ret a => exact h
  | raise => exact h
  | call e k ih =>
      rw [Prog.run_call]
      cases hexec : execStored ω e (w, session) with
      | none => exact h
      | some result =>
          obtain ⟨r, u, session'⟩ := result
          obtain ⟨hu, htxn'⟩ := h.exec htxn hexec
          exact ih r hu htxn'

end World.Stores

end FlashSale
