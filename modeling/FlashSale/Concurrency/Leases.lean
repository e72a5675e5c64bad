import FlashSale.Concurrency.Pool
import FlashSale.Shared.Lease

/-!
# The locks of a pool

A pool keeps for every key the task that holds its lock. Here the tasks are the
clients of `Lease`, with the times that the handlers pass to `DistributedLock`: what
the pool keeps is what is left of the keys of Redis without their deadlines.

`perform_acquire` and `perform_release` say that the calls of the pool are those of
the leases, and `holder_eq_some_iff` that a lock is held by the task that has the
lease. Time that passes is a number of keys that expire (`holder_wait`).
-/

namespace FlashSale

namespace Pool

/-- The lock that the task `i` makes for a key. -/
def lock : ℕ × LockKey → DistributedLock LockKey ℕ
  | (i, .sku sku) => { key := .sku sku, ttlMs := 5000, timeoutSec := 3, token := i }
  | (i, .payment orderId) =>
      { key := .payment orderId, ttlMs := 10000, timeoutSec := 8, token := i }
  | (i, .refund paymentId) =>
      { key := .refund paymentId, ttlMs := 10000, timeoutSec := 8, token := i }

/-- The leases of the tasks. -/
abbrev Leases := Lease.State (ℕ × LockKey) LockKey ℕ

/-- The task whose token a key holds. -/
def holder (r : Lease.Redis LockKey ℕ) (key : LockKey) : Option ℕ :=
  (r.find key).map Lease.Entry.value

@[simp] theorem lock_key (i : ℕ) (key : LockKey) : (lock (i, key)).key = key := by
  cases key <;> rfl

@[simp] theorem lock_token (i : ℕ) (key : LockKey) : (lock (i, key)).token = i := by
  cases key <;> rfl

theorem lock_ttlMs_pos (i : ℕ) (key : LockKey) : 0 < (lock (i, key)).ttlMs := by
  cases key <;> simp [lock]

theorem distinctTokens_lock : Lease.DistinctTokens lock := by
  rintro ⟨i, key⟩ ⟨j, key'⟩ hkey htoken
  rw [lock_key, lock_key] at hkey
  rw [lock_token, lock_token] at htoken
  rw [hkey, htoken]

variable {s : Leases} {i : ℕ} {ω : Answers} {free : Sku → Bool} {key : LockKey} {c : Context}

theorem holder_put {r : Lease.Redis LockKey ℕ} {e : Lease.Entry ℕ} (h : r.now < e.deadline) :
    holder (r.put key (some e)) = Function.update (holder r) key (some e.value) := by
  funext key'
  by_cases hkey : key' = key
  · subst hkey
    rw [holder, r.find_put_self h, Function.update_self]
    rfl
  · rw [holder, r.find_put_of_ne _ hkey, Function.update_of_ne hkey]
    rfl

theorem holder_put_none {r : Lease.Redis LockKey ℕ} :
    holder (r.put key none) = Function.update (holder r) key none := by
  funext key'
  by_cases hkey : key' = key
  · subst hkey
    rw [holder, r.find_put_none, Function.update_self]
    rfl
  · rw [holder, r.find_put_of_ne _ hkey, Function.update_of_ne hkey]
    rfl

/-- A task gets the lock by the pass of its loop that sets the key. -/
theorem perform_acquire (hω : ω.acquired = true) (hlocks : c.locks = holder s.redis) :
    perform i ω free (.acquire key) c =
      (s.attempt lock (i, key)).bind fun (got, t) =>
        if got then some (true, { c with locks := holder t.redis }) else none := by
  rw [perform, if_pos hω, hlocks, Lease.State.attempt, Lease.Redis.set,
    if_neg (Int.not_le.2 (lock_ttlMs_pos i key)), lock_key, lock_token]
  by_cases hfind : s.redis.find key = none
  · have hholder : holder s.redis key = none := by
      rw [holder, hfind]
      rfl
    rw [if_pos hholder, if_pos (Option.isNone_iff_eq_none.2 hfind)]
    simp only [Option.map_some, Option.bind_some, if_true]
    rw [holder_put (Int.lt_add_of_pos_right s.redis.now (lock_ttlMs_pos i key))]
  · have hholder : holder s.redis key ≠ none := by
      rwa [holder, Ne, Option.map_eq_none_iff]
    rw [if_neg hholder, if_neg (mt Option.isNone_iff_eq_none.1 hfind)]
    rfl

theorem holder_release :
    holder (s.release lock (i, key)).redis =
      if holder s.redis key = some i then Function.update (holder s.redis) key none
      else holder s.redis := by
  rw [Lease.State.release, lock_key, lock_token, Lease.Redis.unlockScript]
  by_cases hvalue : (s.redis.find key).map Lease.Entry.value = some i
  · rw [if_pos hvalue, if_pos (show holder s.redis key = some i from hvalue)]
    exact holder_put_none
  · rw [if_neg hvalue, if_neg (show ¬ holder s.redis key = some i from hvalue)]

/-- A task gives the lock back by the script. -/
theorem perform_release (hlocks : c.locks = holder s.redis) :
    perform i ω free (.release key) c =
      some ((), { c with
        session := { c.session with missed := false }
        locks := holder (s.release lock (i, key)).redis }) := by
  rw [holder_release, perform, hlocks]

/-- While time passes, every lock stays with its holder or expires. -/
theorem holder_wait {t : Leases} {ms : ℕ} (hstep : s.step lock (.wait ms) = some t) :
    holder t.redis key = holder s.redis key ∨ holder t.redis key = none := by
  cases hstep
  cases hfind : Lease.Redis.find { s.redis with now := s.redis.now + ms } key with
  | none =>
      right
      rw [holder, hfind]
      rfl
  | some e =>
      left
      obtain ⟨hentry, hlive⟩ := (Lease.Redis.find_eq_some _).1 hfind
      have hold : s.redis.find key = some e := by
        refine s.redis.find_eq_some.2 ⟨hentry, lt_of_le_of_lt ?_ hlive⟩
        exact Int.le_add_of_nonneg_right (Int.natCast_nonneg ms)
      rw [holder, holder, hfind, hold]

/-- In every run the lock of a key is held by the task that has the lease. -/
theorem holder_eq_some_iff {now : ℤ} {as : List (Lease.Action (ℕ × LockKey) LockKey)}
    (hrun : Schedule.run (Lease.State.step lock) (.start now) as = some s) :
    holder s.redis key = some i ↔ s.Leases lock (i, key) := by
  have htied : s.Tied lock := Lease.State.tied_of_run distinctTokens_lock hrun
  constructor
  · intro h
    obtain ⟨e, hfind, rfl⟩ := Option.map_eq_some_iff.1 h
    obtain ⟨⟨j, key'⟩, t, hkey, ht, rfl⟩ := htied.owned key e hfind
    rw [lock_key] at hkey
    subst hkey
    have htoken : (Lease.entry (lock (j, key')) t).value = j := lock_token j key'
    rw [htoken]
    exact ⟨t, ht, (s.redis.find_eq_some.1 hfind).2⟩
  · intro h
    obtain ⟨t, hfind⟩ := htied.find_of_leases h
    rw [lock_key] at hfind
    rw [holder, hfind]
    exact congrArg some (lock_token i key)

end Pool

end FlashSale
