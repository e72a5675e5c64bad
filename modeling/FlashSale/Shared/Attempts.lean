import FlashSale.Shared.Effects

/-!
# Attempts that stop

A delivery can fail at any awaited call, and the broker delivers the message
again. What a stopped attempt leaves behind is the world after the calls it
made: the unit of work it had open is rolled back, what it wrote to Redis and
what it asked of the gateway stays.

`World.after` is that world. The lemmas unfold the first call of a program, one
for each kind of call the consumers make.
-/

namespace FlashSale

/-- The attempt has processed its message: it returned. -/
def Handler.completed : Handler Unit → Bool
  | .ret _ => true
  | _ => false

/-- What an attempt that makes `n` calls leaves behind. -/
def World.after (w : World) (p : Handler Unit) (ω : Answers) (n : ℕ) : World :=
  (p.cut (exec ω) n (w, {})).2.1

/-- The attempt does not process its message: it is stopped before it returns,
or it raises. -/
def World.Fails (w : World) (p : Handler Unit) (ω : Answers) (n : ℕ) : Prop :=
  Handler.completed (p.cut (exec ω) n (w, {})).1 = false

/-- The attempt processes its message and leaves `w'` behind. -/
def World.Completes (w : World) (p : Handler Unit) (ω : Answers) (w' : World) : Prop :=
  ∃ session, p.run (exec ω) (w, {}) = (some (), w', session)

theorem World.Completes.unique {w u v : World} {p : Handler Unit} {ω : Answers}
    (hu : w.Completes p ω u) (hv : w.Completes p ω v) : u = v := by
  obtain ⟨_, hu⟩ := hu
  obtain ⟨_, hv⟩ := hv
  rw [hu] at hv
  exact (Prod.ext_iff.1 (Prod.ext_iff.1 hv).2).1

/-- The world after a request that is served or rejected. -/
def World.request (w : World) (p : Handler Unit) (ω : Answers) : World :=
  (p.run (exec ω) (w, {})).2.1

theorem World.request_of_completes {w w' : World} {p : Handler Unit} {ω : Answers}
    (h : w.Completes p ω w') : w.request p ω = w' := by
  obtain ⟨session, h⟩ := h
  rw [World.request, h]

section Cut

variable (ω : Answers) (n : ℕ) (w : World) (session : Session) {α : Type}

@[simp] theorem cut_acquire (key : LockKey) (f : Bool → Handler α) :
    (acquire key >>= f).cut (exec ω) (n + 1) (w, session) =
      (f ω.acquired).cut (exec ω) n (w, session) := rfl

@[simp] theorem cut_release (key : LockKey) (f : Unit → Handler α) :
    (release key >>= f).cut (exec ω) (n + 1) (w, session) =
      (f ()).cut (exec ω) n (w, { session with missed := false }) := rfl

@[simp] theorem cut_getCachedReservation (orderId : OrderId)
    (f : Option ReservationResult → Handler α) :
    (getCachedReservation orderId >>= f).cut (exec ω) (n + 1) (w, session) =
      (f (w.reservations orderId)).cut (exec ω) n
        (w, { session with missed := (w.reservations orderId).isNone }) := rfl

@[simp] theorem cut_storeReservation (orderId : OrderId) (result : ReservationResult)
    (f : Unit → Handler α) :
    (storeReservation orderId result >>= f).cut (exec ω) (n + 1) (w, session) =
      (f ()).cut (exec ω) n
        (w.storeReservation orderId result, { session with missed := false }) := rfl

@[simp] theorem cut_getCachedRelease (orderId : OrderId) (f : Option Unit → Handler α) :
    (getCachedRelease orderId >>= f).cut (exec ω) (n + 1) (w, session) =
      (f (w.releases orderId)).cut (exec ω) n
        (w, { session with missed := (w.releases orderId).isNone }) := rfl

@[simp] theorem cut_getCachedCharge (orderId : OrderId) (f : Option CachedCharge → Handler α) :
    (getCachedCharge orderId >>= f).cut (exec ω) (n + 1) (w, session) =
      (f (w.chargeResults orderId)).cut (exec ω) n
        (w, { session with missed := (w.chargeResults orderId).isNone }) := rfl

@[simp] theorem cut_storeCharge (orderId : OrderId) (cached : CachedCharge)
    (f : Unit → Handler α) :
    (storeCharge orderId cached >>= f).cut (exec ω) (n + 1) (w, session) =
      (f ()).cut (exec ω) n (w.storeCharge orderId cached, { session with missed := false }) := rfl

@[simp] theorem cut_allow (sku : Sku) (f : Bool → Handler α) :
    (allow sku >>= f).cut (exec ω) (n + 1) (w, session) =
      (f ω.allowed).cut (exec ω) n (w, session) := rfl

@[simp] theorem cut_charge (orderId : OrderId) (amountCents : ℤ) (userId : UserId)
    (f : GatewayResult → Handler α) :
    (charge orderId amountCents userId >>= f).cut (exec ω) (n + 1) (w, session) =
      (f ω.gateway).cut (exec ω) n
        (w.charged orderId amountCents userId ω.gateway, session) := rfl

@[simp] theorem cut_selectItemForUpdate (sku : Sku) (f : Option InventoryItem → Handler α) :
    (selectItemForUpdate sku >>= f).cut (exec ω) (n + 1) (w, session) =
      (f (w.items sku)).cut (exec ω) n (w, session) := rfl

theorem cut_flushNew (row : String → Write) {w' : World} (f : String → Handler α)
    (h : w.writeAll (session.txn ++ [row ω.newId]) = some w') :
    (flushNew row >>= f).cut (exec ω) (n + 1) (w, session) =
      (f ω.newId).cut (exec ω) n
        (w, { session with txn := session.txn ++ [row ω.newId] }) := by
  refine Prog.cut_call_some ?_
  simp [exec, flushWrites, h]

theorem cut_flushNew_none (row : String → Write) (f : String → Handler α)
    (h : w.writeAll (session.txn ++ [row ω.newId]) = none) :
    (flushNew row >>= f).cut (exec ω) (n + 1) (w, session) = (.raise, w, session) := by
  have hexec : exec ω (.flushNew row) (w, session) = none := by
    simp [exec, flushWrites, h]
  show Prog.cut (exec ω) (n + 1) (.call (.flushNew row) _) (w, session) = _
  rw [Prog.cut_succ_call, hexec]

theorem cut_flush {writes : List Write} {w' : World} (f : Unit → Handler α)
    (h : w.writeAll (session.txn ++ writes) = some w') :
    (flush writes >>= f).cut (exec ω) (n + 1) (w, session) =
      (f ()).cut (exec ω) n (w, { session with txn := session.txn ++ writes }) := by
  refine Prog.cut_call_some ?_
  simp [exec, flushWrites, h]

theorem cut_flush_none {writes : List Write} (f : Unit → Handler α)
    (h : w.writeAll (session.txn ++ writes) = none) :
    (flush writes >>= f).cut (exec ω) (n + 1) (w, session) = (.raise, w, session) := by
  have hexec : exec ω (.flush writes) (w, session) = none := by
    simp [exec, flushWrites, h]
  show Prog.cut (exec ω) (n + 1) (.call (.flush writes) _) (w, session) = _
  rw [Prog.cut_succ_call, hexec]

theorem cut_commit {writes : List Write} {w' : World} (f : Unit → Handler α)
    (h : w.writeAll (session.txn ++ writes) = some w') :
    (commit writes >>= f).cut (exec ω) (n + 1) (w, session) =
      (f ()).cut (exec ω) n (w', { session with txn := [] }) := by
  refine Prog.cut_call_some ?_
  simp [exec, commitWrites, h]

/-- Leaving the lock does not change the databases, whether it happens or not. -/
theorem cut_release_last (key : LockKey) :
    ((release key).cut (exec ω) n (w, session)).2.1 = w := by
  cases n with
  | zero => rfl
  | succ n =>
      rw [← bind_pure (release key), cut_release, Prog.pure_eq, Prog.cut_ret]

theorem cut_commit_last {writes : List Write} {w' : World}
    (h : w.writeAll (session.txn ++ writes) = some w') :
    (commit writes).cut (exec ω) (n + 1) (w, session) =
      (.ret (), w', { session with txn := [] }) := by
  have hcut := cut_commit ω n w session Prog.ret h
  rw [Prog.cut_ret] at hcut
  exact hcut

end Cut

end FlashSale
