import FlashSale.Shared.Store
import Mathlib.Algebra.BigOperators.Group.List.Basic
import Mathlib.Algebra.Order.Ring.Int
import Mathlib.Data.List.Dedup

/-!
# The auditor

`scripts/verify_consistency.py` reads the databases of three services and exits
with 0 when it has found no problem for the SKU. A row is what a SELECT returns:
nothing is assumed about the strings in a status column or the sign of a
quantity.

`Checked` is what the script looks at, `Consistent` what its docstring promises.
They differ in the quantity that was seeded, which the script is not told, and
in the status of the payments, which it does not read.
-/

namespace FlashSale

namespace VerifyConsistency

/-- A row of `orders` as the script reads it. -/
structure OrderRow where
  id : OrderId
  sku : Sku
  qty : ℤ
  status : String
deriving DecidableEq

/-- A row of `inventory_items` as the script reads it. -/
structure ItemRow where
  available : ℤ
  reserved : ℤ
deriving DecidableEq

/-- A row of `payments`. The script reads the order id only. -/
structure PaymentRow where
  id : PaymentId
  orderId : OrderId
  status : String
deriving DecidableEq

/-- The contents of `order_db`, `inventory_db` and `payment_db`. -/
structure Databases where
  orders : List OrderRow
  items : Sku → Option ItemRow
  payments : List PaymentRow

namespace Databases

variable (db : Databases) (sku : Sku)

def ordersOf : List OrderRow := db.orders.filter fun order => order.sku = sku

def confirmed : List OrderRow := (db.ordersOf sku).filter fun order => order.status = "CONFIRMED"

def pending : List OrderRow := (db.ordersOf sku).filter fun order => order.status = "PENDING"

/-- The sum of `qty` over the CONFIRMED orders. -/
def confirmedQty : ℤ := ((db.confirmed sku).map OrderRow.qty).sum

def paymentsOf (orderId : OrderId) : List PaymentRow :=
  db.payments.filter fun payment => payment.orderId = orderId

/-- The rows of the grouped SELECT: every order id of the SKU that has a payment,
with the number of its payments. -/
def paymentCounts : List (OrderId × ℕ) :=
  let orderIds := (db.ordersOf sku).map OrderRow.id
  let selected := db.payments.filter fun payment => payment.orderId ∈ orderIds
  (selected.map PaymentRow.orderId).dedup.map fun orderId =>
    (orderId, selected.countP fun payment => payment.orderId = orderId)

def duplicated : List (OrderId × ℕ) := (db.paymentCounts sku).filter fun entry => 1 < entry.2

/-- The CONFIRMED orders that the grouped SELECT does not list. -/
def missingPayment : List OrderId :=
  ((db.confirmed sku).map OrderRow.id).dedup.filter fun orderId =>
    orderId ∉ (db.paymentCounts sku).map Prod.fst

end Databases

/-- An entry of `problems`, with the values that its text shows. -/
inductive Problem
  | stuckPending (orderIds : List OrderId)
  | noInventoryRow (sku : Sku)
  | negativeQuantity (available reserved : ℤ)
  | reservedMismatch (reserved confirmedQty : ℤ)
  | duplicatedPayments (counts : List (OrderId × ℕ))
  | missingPayments (orderIds : List OrderId)
deriving DecidableEq

/-- The checks of the inventory row. -/
def inventoryProblems (db : Databases) (sku : Sku) : List Problem :=
  match db.items sku with
  | none => [.noInventoryRow sku]
  | some item =>
      (if item.available < 0 ∨ item.reserved < 0
        then [.negativeQuantity item.available item.reserved] else []) ++
      (if item.reserved ≠ db.confirmedQty sku
        then [.reservedMismatch item.reserved (db.confirmedQty sku)] else [])

/-- The list that `main` collects. -/
def problems (db : Databases) (sku : Sku) : List Problem :=
  (if db.pending sku ≠ []
    then [.stuckPending ((db.pending sku).map OrderRow.id)] else []) ++
  inventoryProblems db sku ++
  (if db.duplicated sku ≠ [] then [.duplicatedPayments (db.duplicated sku)] else []) ++
  (if db.missingPayment sku ≠ [] then [.missingPayments (db.missingPayment sku)] else [])

/-- The code that `main` exits with. -/
def exitCode (db : Databases) (sku : Sku) : ℕ := if problems db sku = [] then 0 else 1

/-- What the script looks at is in order. -/
structure Checked (db : Databases) (sku : Sku) : Prop where
  settled : ∀ order ∈ db.ordersOf sku, order.status ≠ "PENDING"
  inventory : ∃ item, db.items sku = some item ∧ 0 ≤ item.available ∧ 0 ≤ item.reserved ∧
    item.reserved = db.confirmedQty sku
  atMostOne : ∀ order ∈ db.ordersOf sku, (db.paymentsOf order.id).length ≤ 1
  paid : ∀ order ∈ db.confirmed sku, db.paymentsOf order.id ≠ []

/-- The four checks that the docstring of the script promises. -/
structure Consistent (db : Databases) (seeded : ℤ) (sku : Sku) : Prop where
  settled : ∀ order ∈ db.ordersOf sku, order.status ≠ "PENDING"
  inventory : ∃ item, db.items sku = some item ∧ item.available + item.reserved = seeded ∧
    item.reserved = db.confirmedQty sku ∧ 0 ≤ item.available ∧ 0 ≤ item.reserved
  atMostOne : ∀ order ∈ db.ordersOf sku, (db.paymentsOf order.id).length ≤ 1
  succeeded : ∀ order ∈ db.confirmed sku, ∃ payment,
    db.paymentsOf order.id = [payment] ∧ payment.status = "SUCCEEDED"

section

variable {db : Databases} {sku : Sku} {orderId : OrderId}

theorem Databases.mem_confirmed {order : OrderRow} :
    order ∈ db.confirmed sku ↔ order ∈ db.ordersOf sku ∧ order.status = "CONFIRMED" := by
  simp [confirmed]

/-- The grouped SELECT lists the orders of the SKU that have a payment, each with
the number of its payments. -/
theorem Databases.mem_paymentCounts {n : ℕ} :
    (orderId, n) ∈ db.paymentCounts sku ↔
      orderId ∈ (db.ordersOf sku).map OrderRow.id ∧ db.paymentsOf orderId ≠ [] ∧
        n = (db.paymentsOf orderId).length := by
  have hcount (h : orderId ∈ (db.ordersOf sku).map OrderRow.id) :
      (db.payments.filter fun payment =>
        payment.orderId ∈ (db.ordersOf sku).map OrderRow.id).countP
          (fun payment => payment.orderId = orderId) = (db.paymentsOf orderId).length := by
    rw [List.countP_filter, paymentsOf, List.countP_eq_length_filter]
    congr 1
    refine List.filter_congr fun payment _ => ?_
    by_cases hid : payment.orderId = orderId
    · simp [hid, h]
    · simp [hid]
  constructor
  · intro hmem
    obtain ⟨orderId', hkey, heq⟩ := List.mem_map.1 hmem
    cases heq
    rw [List.mem_dedup] at hkey
    obtain ⟨payment, hpayment, rfl⟩ := List.mem_map.1 hkey
    obtain ⟨hpayment, horder⟩ := List.mem_filter.1 hpayment
    have horder := of_decide_eq_true horder
    refine ⟨horder, List.ne_nil_of_mem (a := payment) ?_, hcount horder⟩
    exact List.mem_filter.2 ⟨hpayment, decide_eq_true rfl⟩
  · rintro ⟨horder, hpayments, rfl⟩
    obtain ⟨payment, hpayment⟩ := List.exists_mem_of_ne_nil _ hpayments
    obtain ⟨hpayment, hid⟩ := List.mem_filter.1 hpayment
    have hid := of_decide_eq_true hid
    refine List.mem_map.2 ⟨orderId, List.mem_dedup.2 (List.mem_map.2 ⟨payment, ?_, hid⟩), ?_⟩
    · exact List.mem_filter.2 ⟨hpayment, decide_eq_true (hid ▸ horder)⟩
    · rw [hcount horder]

theorem Databases.duplicated_eq_nil :
    db.duplicated sku = [] ↔ ∀ order ∈ db.ordersOf sku, (db.paymentsOf order.id).length ≤ 1 := by
  rw [duplicated, List.filter_eq_nil_iff]
  constructor
  · intro h order horder
    by_contra hmany
    have hpayments : db.paymentsOf order.id ≠ [] := by
      intro hnil
      rw [hnil] at hmany
      exact hmany (Nat.zero_le 1)
    have hentry : (order.id, (db.paymentsOf order.id).length) ∈ db.paymentCounts sku :=
      mem_paymentCounts.2 ⟨List.mem_map.2 ⟨order, horder, rfl⟩, hpayments, rfl⟩
    exact h _ hentry (decide_eq_true (Nat.lt_of_not_le hmany))
  · rintro h ⟨orderId, n⟩ hentry
    obtain ⟨hid, -, rfl⟩ := mem_paymentCounts.1 hentry
    obtain ⟨order, horder, rfl⟩ := List.mem_map.1 hid
    simpa using h order horder

theorem Databases.missingPayment_eq_nil :
    db.missingPayment sku = [] ↔ ∀ order ∈ db.confirmed sku, db.paymentsOf order.id ≠ [] := by
  have hlisted (order : OrderRow) (horder : order ∈ db.confirmed sku) :
      order.id ∈ (db.paymentCounts sku).map Prod.fst ↔ db.paymentsOf order.id ≠ [] := by
    constructor
    · intro hmem
      obtain ⟨⟨orderId, n⟩, hentry, hid⟩ := List.mem_map.1 hmem
      obtain ⟨-, hpayments, -⟩ := mem_paymentCounts.1 hentry
      rwa [← show orderId = order.id from hid]
    · intro hpayments
      refine List.mem_map.2 ⟨(order.id, (db.paymentsOf order.id).length), ?_, rfl⟩
      have hsku := (mem_confirmed.1 horder).1
      exact mem_paymentCounts.2 ⟨List.mem_map.2 ⟨order, hsku, rfl⟩, hpayments, rfl⟩
  rw [missingPayment, List.filter_eq_nil_iff]
  constructor
  · intro h order horder
    have hnot := h order.id (List.mem_dedup.2 (List.mem_map.2 ⟨order, horder, rfl⟩))
    rw [decide_eq_true_iff, not_not] at hnot
    exact (hlisted order horder).1 hnot
  · intro h orderId hmem
    obtain ⟨order, horder, rfl⟩ := List.mem_map.1 (List.mem_dedup.1 hmem)
    rw [decide_eq_true_iff, not_not]
    exact (hlisted order horder).2 (h order horder)

theorem inventoryProblems_eq_nil :
    inventoryProblems db sku = [] ↔ ∃ item, db.items sku = some item ∧ 0 ≤ item.available ∧
      0 ≤ item.reserved ∧ item.reserved = db.confirmedQty sku := by
  rw [inventoryProblems]
  cases hitem : db.items sku with
  | none => simp
  | some item => simp [and_assoc]

/-- The script exits with 0 if and only if what it looks at is in order. -/
theorem exitCode_eq_zero : exitCode db sku = 0 ↔ Checked db sku := by
  have hproblems : exitCode db sku = 0 ↔ problems db sku = [] := by simp [exitCode]
  have hpending : db.pending sku = [] ↔ ∀ order ∈ db.ordersOf sku, order.status ≠ "PENDING" := by
    simp [Databases.pending, List.filter_eq_nil_iff]
  rw [hproblems, problems, List.append_eq_nil_iff, List.append_eq_nil_iff, List.append_eq_nil_iff]
  simp only [ite_eq_right_iff, List.cons_ne_nil, imp_false, not_not]
  rw [hpending, inventoryProblems_eq_nil, Databases.duplicated_eq_nil,
    Databases.missingPayment_eq_nil]
  constructor
  · rintro ⟨⟨⟨hsettled, hinventory⟩, hatMostOne⟩, hpaid⟩
    exact ⟨hsettled, hinventory, hatMostOne, hpaid⟩
  · intro h
    exact ⟨⟨⟨h.settled, h.inventory⟩, h.atMostOne⟩, h.paid⟩

/-- What the script leaves out: the quantity that was seeded is still there, and
no payment of a CONFIRMED order has failed or was refunded. -/
structure Unread (db : Databases) (seeded : ℤ) (sku : Sku) : Prop where
  balanced : ∀ item, db.items sku = some item → item.available + item.reserved = seeded
  succeeded : ∀ order ∈ db.confirmed sku, ∀ payment ∈ db.paymentsOf order.id,
    payment.status = "SUCCEEDED"

/-- The promised checks are the ones that are made and the ones left out. -/
theorem consistent_iff {seeded : ℤ} :
    Consistent db seeded sku ↔ Checked db sku ∧ Unread db seeded sku := by
  constructor
  · intro h
    obtain ⟨item, hitem, hbalanced, hreserved, havailable, hnonneg⟩ := h.inventory
    refine ⟨⟨h.settled, ⟨item, hitem, havailable, hnonneg, hreserved⟩, h.atMostOne, ?_⟩, ?_, ?_⟩
    · intro order horder
      obtain ⟨payment, hpayments, -⟩ := h.succeeded order horder
      rw [hpayments]
      exact List.cons_ne_nil _ _
    · intro item' hitem'
      cases hitem.symm.trans hitem'
      exact hbalanced
    · intro order horder payment hpayment
      obtain ⟨payment', hpayments, hstatus⟩ := h.succeeded order horder
      rw [hpayments, List.mem_singleton] at hpayment
      exact hpayment ▸ hstatus
  · rintro ⟨hchecked, hunread⟩
    obtain ⟨item, hitem, havailable, hnonneg, hreserved⟩ := hchecked.inventory
    refine ⟨hchecked.settled, ?_, hchecked.atMostOne, ?_⟩
    · exact ⟨item, hitem, hunread.balanced item hitem, hreserved, havailable, hnonneg⟩
    · intro order horder
      have hone := hchecked.atMostOne order (Databases.mem_confirmed.1 horder).1
      have hsome := List.length_pos_iff.2 (hchecked.paid order horder)
      obtain ⟨payment, hpayments⟩ := List.length_eq_one_iff.1 (Nat.le_antisymm hone hsome)
      refine ⟨payment, hpayments, hunread.succeeded order horder payment ?_⟩
      rw [hpayments]
      exact List.mem_cons_self

/-- Exiting with 0 proves the databases consistent if and only if something that
the script looks at is out of order, or all that it leaves out is in order. -/
theorem sound_iff (db : Databases) (seeded : ℤ) (sku : Sku) :
    (exitCode db sku = 0 → Consistent db seeded sku) ↔
      ¬ Checked db sku ∨ Unread db seeded sku := by
  rw [exitCode_eq_zero, consistent_iff]
  constructor
  · intro h
    by_cases hchecked : Checked db sku
    · exact Or.inr (h hchecked).2
    · exact Or.inl hchecked
  · rintro (hnot | hunread) hchecked
    · exact absurd hchecked hnot
    · exact ⟨hchecked, hunread⟩

end

/-- A CONFIRMED order whose one payment has failed, and one unit missing of the
ten that were seeded. -/
def failedPayment : Databases where
  orders := [⟨"order-1", "phone", 1, "CONFIRMED"⟩]
  items := fun _ => some ⟨8, 1⟩
  payments := [⟨"payment-1", "order-1", "FAILED"⟩]

/-- The script passes databases that break two of its promises. -/
theorem passes_failedPayment :
    ¬ ∀ (db : Databases) (seeded : ℤ) (sku : Sku),
      exitCode db sku = 0 → Consistent db seeded sku := by
  intro h
  have hconsistent := h failedPayment 10 "phone" (by decide +kernel)
  obtain ⟨payment, hpayments, hstatus⟩ := hconsistent.succeeded ⟨"order-1", "phone", 1, "CONFIRMED"⟩
    (by decide +kernel)
  cases hpayments
  exact absurd hstatus (by decide)

end VerifyConsistency

end FlashSale
