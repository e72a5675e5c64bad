import FlashSale.Library.Schedule
import Mathlib.Algebra.Order.Field.Rat
import Mathlib.Logic.Function.Basic

/-!
# The distributed lock

`DistributedLock` of `shared/redis_client.py` and the keys of Redis that it sets: a
key has a value and the time, in milliseconds, at which it expires. `SET NX PX` and
`_UNLOCK_SCRIPT` are atomic. An expired key reads as absent; Redis removes it when it
gets to it.

Any number of clients, each with a `DistributedLock` of its own, take turns with the
clock and with Redis. The lease of a client begins when Redis executes its `SET`
and lasts `ttlMs` milliseconds, unless the client unlocks before.
-/

namespace FlashSale

/-- What the constructor of a lock stores. The token is drawn by the constructor. -/
structure DistributedLock (κ τ : Type*) where
  key : κ
  ttlMs : ℤ := 5000
  timeoutSec : ℚ := 3
  token : τ

namespace Lease

variable {ι κ τ : Type*}

/-! ## The keys -/

/-- A key that is set: its value and the time at which it expires. -/
@[ext] structure Entry (τ : Type*) where
  value : τ
  deadline : ℤ
deriving DecidableEq

structure Redis (κ τ : Type*) where
  now : ℤ
  entries : κ → Option (Entry τ)

namespace Redis

variable (r : Redis κ τ) {key key' : κ} {e : Entry τ}

/-- What a command finds under a key. -/
def find (key : κ) : Option (Entry τ) := (r.entries key).filter fun e => r.now < e.deadline

/-- The remaining time to live. -/
def pttl (key : κ) : Option ℤ := (r.find key).map fun e => e.deadline - r.now

theorem find_eq_some : r.find key = some e ↔ r.entries key = some e ∧ r.now < e.deadline := by
  simp [find, Option.filter_eq_some_iff]

/-- What a command finds depends on the key and on the clock only. -/
theorem find_congr {r r' : Redis κ τ} (hentry : r'.entries key = r.entries key)
    (hnow : r'.now = r.now) : r'.find key = r.find key := by
  rw [find, find, hentry, hnow]

variable [DecidableEq κ]

/-- The key, written or deleted. -/
def put (key : κ) (data : Option (Entry τ)) : Redis κ τ :=
  { r with entries := Function.update r.entries key data }

@[simp] theorem put_entries (data : Option (Entry τ)) :
    (r.put key data).entries = Function.update r.entries key data := rfl

theorem find_put_of_ne (data : Option (Entry τ)) (h : key' ≠ key) :
    (r.put key data).find key' = r.find key' :=
  find_congr (by rw [put_entries, Function.update_of_ne h]) rfl

theorem find_put_self (h : r.now < e.deadline) : (r.put key (some e)).find key = some e := by
  rw [find_eq_some, put_entries, Function.update_self]
  exact ⟨rfl, h⟩

@[simp] theorem find_put_none : (r.put key none).find key = none := by
  simp [find, put]

/-- Removing a key that has expired changes nothing that a command finds. -/
theorem find_put_expired (h : r.find key = none) : (r.put key none).find key' = r.find key' := by
  by_cases hkey : key' = key
  · rw [hkey, find_put_none, h]
  · exact r.find_put_of_ne none hkey

/-- `SET key token NX PX px`; `none` is the error for an expire time that is not
positive. -/
def set (key : κ) (token : τ) (px : ℤ) : Option (Bool × Redis κ τ) :=
  if px ≤ 0 then none
  else if (r.find key).isNone then some (true, r.put key (some ⟨token, r.now + px⟩))
  else some (false, r)

variable [DecidableEq τ]

/-- `_UNLOCK_SCRIPT`: the number of keys deleted and what is left. -/
def unlockScript (key : κ) (token : τ) : ℕ × Redis κ τ :=
  if (r.find key).map Entry.value = some token then (1, r.put key none) else (0, r)

/-- The script deletes the key that holds the token, and no other. -/
theorem find_unlockScript {token : τ} :
    (r.unlockScript key token).2.find key' = some e ↔
      r.find key' = some e ∧ ¬ (key' = key ∧ e.value = token) := by
  rw [unlockScript]
  split
  · rename_i hvalue
    by_cases hkey : key' = key
    · subst hkey
      obtain ⟨e', he', htoken⟩ := Option.map_eq_some_iff.1 hvalue
      simp only [find_put_none, he', true_and]
      constructor
      · intro h
        cases h
      · rintro ⟨h, hne⟩
        exact absurd (Option.some.inj h ▸ htoken) hne
    · simp [r.find_put_of_ne none hkey, hkey]
  · rename_i hvalue
    constructor
    · intro h
      refine ⟨h, ?_⟩
      rintro ⟨rfl, htoken⟩
      exact hvalue (Option.map_eq_some_iff.2 ⟨e, h, htoken⟩)
    · exact And.left

@[simp] theorem unlockScript_now {token : τ} : (r.unlockScript key token).2.now = r.now := by
  rw [unlockScript]
  split
  · rfl
  · rfl

end Redis

/-! ## The clients -/

/-- The keys of Redis, and when each client acquired the lease that it has not
released since. -/
structure State (ι κ τ : Type*) where
  redis : Redis κ τ
  acquired : ι → Option ℤ

/-- Time passes, Redis removes an expired key, a client makes one pass of the loop of
`acquire`, a client calls `release`. -/
inductive Action (ι κ : Type*)
  | wait (ms : ℕ)
  | expire (key : κ)
  | attempt (i : ι)
  | release (i : ι)

/-- The entry that the `SET` of a lock leaves. -/
def entry (lock : DistributedLock κ τ) (t : ℤ) : Entry τ := ⟨lock.token, t + lock.ttlMs⟩

/-- No two locks of one key have the same token. -/
def DistinctTokens (locks : ι → DistributedLock κ τ) : Prop :=
  ∀ i j, (locks i).key = (locks j).key → (locks i).token = (locks j).token → i = j

namespace State

variable (locks : ι → DistributedLock κ τ) {s s' : State ι κ τ} {i : ι}

/-- No key is set and no client has a lease. -/
def start (now : ℤ) : State ι κ τ := ⟨⟨now, fun _ => none⟩, fun _ => none⟩

/-- The client has a lease that it acquired, has not released and that has not
ended. -/
def Leases (s : State ι κ τ) (i : ι) : Prop :=
  ∃ t, s.acquired i = some t ∧ s.redis.now < t + (locks i).ttlMs

/-- The invariant: what is under a key is what the `SET` of a client left that has not
released it, and a lease that has not ended is under its key. -/
structure Tied (s : State ι κ τ) : Prop where
  owned : ∀ key e, s.redis.find key = some e →
    ∃ i t, (locks i).key = key ∧ s.acquired i = some t ∧ e = entry (locks i) t
  held : ∀ i t, s.acquired i = some t → s.redis.now < t + (locks i).ttlMs →
    s.redis.find (locks i).key = some (entry (locks i) t)

variable {locks} in
theorem tied_start (now : ℤ) : Tied locks (start now) := by
  constructor
  · intro key e h
    cases h
  · intro i t h
    cases h

variable {locks} in
/-- While the keys do not change, the invariant holds on. -/
theorem Tied.of_find {t : State ι κ τ} (h : Tied locks s) (hacquired : t.acquired = s.acquired)
    (hnow : s.redis.now ≤ t.redis.now)
    (hfind : ∀ key e, t.redis.find key = some e ↔
      s.redis.find key = some e ∧ t.redis.now < e.deadline) : Tied locks t := by
  constructor
  · intro key e he
    rw [hacquired]
    exact h.owned key e ((hfind key e).1 he).1
  · intro i t₀ ht hlive
    rw [hacquired] at ht
    rw [hfind]
    exact ⟨h.held i t₀ ht (lt_of_le_of_lt hnow hlive), hlive⟩

variable {locks} in
theorem Tied.find_of_leases (h : Tied locks s) (hlease : s.Leases locks i) :
    ∃ t, s.redis.find (locks i).key = some (entry (locks i) t) := by
  obtain ⟨t, ht, hlive⟩ := hlease
  exact ⟨t, h.held i t ht hlive⟩

variable {locks} in
/-- A client that has no lease under the key does not find its token there. -/
theorem Tied.value_ne (h : Tied locks s) (hdistinct : DistinctTokens locks) {key : κ} {e : Entry τ}
    (hfind : s.redis.find key = some e) (hi : (locks i).key = key) (hlease : ¬ s.Leases locks i) :
    e.value ≠ (locks i).token := by
  obtain ⟨j, t, hj, ht, rfl⟩ := h.owned key e hfind
  intro htoken
  have hij : j = i := hdistinct j i (hj.trans hi.symm) htoken
  subst hij
  exact hlease ⟨t, ht, (s.redis.find_eq_some.1 hfind).2⟩

variable [DecidableEq ι] [DecidableEq κ]

/-- `set` in `acquire`; `none` when it raises. -/
def attempt (s : State ι κ τ) (i : ι) : Option (Bool × State ι κ τ) :=
  (s.redis.set (locks i).key (locks i).token (locks i).ttlMs).map fun (got, r) =>
    (got, { redis := r
            acquired :=
              if got then Function.update s.acquired i (some s.redis.now) else s.acquired })

variable {locks} in
/-- What an attempt is: the key is not there and the client sets it, or nothing
changes. -/
theorem attempt_cases {got : Bool} (h : s.attempt locks i = some (got, s')) :
    (got = true ∧ 0 < (locks i).ttlMs ∧ s.redis.find (locks i).key = none ∧
      s' = ⟨s.redis.put (locks i).key (some (entry (locks i) s.redis.now)),
        Function.update s.acquired i (some s.redis.now)⟩) ∨
    (got = false ∧ s' = s) := by
  rw [attempt, Redis.set] at h
  split at h
  · cases h
  · rename_i hpx
    split at h
    · rename_i hnone
      cases h
      exact Or.inl ⟨rfl, Int.not_le.1 hpx, Option.isNone_iff_eq_none.1 hnone, rfl⟩
    · cases h
      exact Or.inr ⟨rfl, rfl⟩

variable {locks} in
theorem leases_of_attempt (h : s.attempt locks i = some (true, s')) : s'.Leases locks i := by
  obtain ⟨-, hpx, -, rfl⟩ | ⟨hgot, -⟩ := attempt_cases h
  · exact ⟨s.redis.now, Function.update_self .., Int.lt_add_of_pos_right s.redis.now hpx⟩
  · cases hgot

variable {locks} in
theorem Tied.attempt (h : Tied locks s) {got : Bool}
    (hattempt : s.attempt locks i = some (got, s')) : Tied locks s' := by
  obtain ⟨-, hpx, hnone, rfl⟩ | ⟨-, rfl⟩ := attempt_cases hattempt
  · -- an owner of another key is another client, and a running lease is of another key
    have hdeadline : s.redis.now < (entry (locks i) s.redis.now).deadline :=
      Int.lt_add_of_pos_right s.redis.now hpx
    constructor
    · intro key e he
      by_cases hkey : key = (locks i).key
      · subst hkey
        rw [Redis.find_put_self _ hdeadline] at he
        exact ⟨i, s.redis.now, rfl, Function.update_self .., (Option.some.inj he).symm⟩
      · rw [Redis.find_put_of_ne _ _ hkey] at he
        obtain ⟨j, t, hj, ht, hentry⟩ := h.owned key e he
        have hne : j ≠ i := fun hij => hkey (hij ▸ hj.symm)
        exact ⟨j, t, hj, (Function.update_of_ne hne ..).trans ht, hentry⟩
    · intro j t ht hlive
      by_cases hij : j = i
      · subst hij
        obtain rfl : s.redis.now = t := by simpa using ht
        exact Redis.find_put_self _ hdeadline
      · have hold : s.redis.find (locks j).key = some (entry (locks j) t) :=
          h.held j t ((Function.update_of_ne hij ..).symm.trans ht) hlive
        have hkey : (locks j).key ≠ (locks i).key := by
          intro heq
          rw [heq, hnone] at hold
          cases hold
        exact (Redis.find_put_of_ne _ _ hkey).trans hold
  · exact h

variable [DecidableEq τ]

def release (s : State ι κ τ) (i : ι) : State ι κ τ where
  redis := (s.redis.unlockScript (locks i).key (locks i).token).2
  acquired := Function.update s.acquired i none

def step (s : State ι κ τ) : Action ι κ → Option (State ι κ τ)
  | .wait ms => some { s with redis := { s.redis with now := s.redis.now + ms } }
  | .expire key =>
      if s.redis.find key = none then some { s with redis := s.redis.put key none } else none
  | .attempt i => some ((s.attempt locks i).elim s Prod.snd)
  | .release i => some (s.release locks i)

/-- The loop of `acquire`. A pass has the reading of `time.monotonic()` and what happens
until its `SET` is executed; `none` when the loop has not ended with the passes, or
when `set` raises. -/
def poll (i : ι) (deadline : ℚ) :
    List (ℚ × List (Action ι κ)) → State ι κ τ → Option (Bool × State ι κ τ)
  | [], _ => none
  | (monotonic, meanwhile) :: passes, s =>
      if monotonic < deadline then do
        let s ← Schedule.run (step locks) s meanwhile
        let (got, s) ← s.attempt locks i
        if got then return (true, s) else poll i deadline passes s
      else some (false, s)

def acquire (i : ι) (monotonic : ℚ) (passes : List (ℚ × List (Action ι κ))) (s : State ι κ τ) :
    Option (Bool × State ι κ τ) :=
  poll locks i (monotonic + (locks i).timeoutSec) passes s

variable {locks}

theorem Tied.release (h : Tied locks s) (hdistinct : DistinctTokens locks) :
    Tied locks (s.release locks i) := by
  constructor
  · intro key e he
    obtain ⟨hfind, hkept⟩ := s.redis.find_unlockScript.1 he
    obtain ⟨j, t, hj, ht, rfl⟩ := h.owned key e hfind
    have hne : j ≠ i := by
      rintro rfl
      exact hkept ⟨hj.symm, rfl⟩
    exact ⟨j, t, hj, (Function.update_of_ne hne ..).trans ht, rfl⟩
  · intro j t ht hlive
    have hne : j ≠ i := by
      rintro rfl
      simp [State.release] at ht
    have hold : s.redis.find (locks j).key = some (entry (locks j) t) := by
      refine h.held j t ((Function.update_of_ne hne ..).symm.trans ht) ?_
      exact lt_of_eq_of_lt s.redis.unlockScript_now.symm hlive
    refine s.redis.find_unlockScript.2 ⟨hold, ?_⟩
    rintro ⟨hkey, htoken⟩
    exact hne (hdistinct j i hkey htoken)

/-- Every step keeps the invariant. -/
theorem Tied.step (h : Tied locks s) (hdistinct : DistinctTokens locks) {a : Action ι κ}
    (hstep : s.step locks a = some s') : Tied locks s' := by
  cases a with
  | wait ms =>
      cases hstep
      have hnow : s.redis.now ≤ s.redis.now + ms :=
        Int.le_add_of_nonneg_right (Int.natCast_nonneg ms)
      refine h.of_find rfl hnow fun key e => ?_
      rw [Redis.find_eq_some, Redis.find_eq_some]
      constructor
      · intro he
        exact ⟨⟨he.1, lt_of_le_of_lt hnow he.2⟩, he.2⟩
      · intro he
        exact ⟨he.1.1, he.2⟩
  | expire key =>
      rw [State.step, Option.ite_none_right_eq_some] at hstep
      obtain ⟨hnone, hs⟩ := hstep
      cases hs
      refine h.of_find rfl le_rfl fun key' e => ?_
      rw [s.redis.find_put_expired hnone]
      constructor
      · intro he
        exact ⟨he, (s.redis.find_eq_some.1 he).2⟩
      · exact And.left
  | attempt i =>
      cases hattempt : s.attempt locks i with
      | none =>
          simp only [State.step, hattempt] at hstep
          cases hstep
          exact h
      | some r =>
          simp only [State.step, hattempt] at hstep
          cases hstep
          exact h.attempt hattempt
  | release i =>
      cases hstep
      exact h.release hdistinct

theorem tied_of_run (hdistinct : DistinctTokens locks) {now : ℤ} {as : List (Action ι κ)}
    (hrun : Schedule.run (step locks) (start now) as = some s) : Tied locks s :=
  Schedule.run_invariant (fun _ _ _ hs hstep => hs.step hdistinct hstep) (tied_start now) hrun

/-- A release leaves every key that is not of a lease of the client. -/
theorem Tied.find_release (h : Tied locks s) (hdistinct : DistinctTokens locks) {key : κ}
    (hi : ¬ ((locks i).key = key ∧ s.Leases locks i)) :
    (s.release locks i).redis.find key = s.redis.find key := by
  apply Option.ext
  intro e
  rw [State.release, Redis.find_unlockScript, and_iff_left_iff_imp]
  rintro hfind ⟨rfl, htoken⟩
  exact h.value_ne hdistinct hfind rfl (fun hlease => hi ⟨rfl, hlease⟩) htoken

variable (locks s) in
/-- For every key: at most one client has a lease, the key exists when one does and
then holds its token, and a release by any other client leaves the key and its
remaining time to live. -/
structure Safe : Prop where
  exclusive : ∀ i j, (locks i).key = (locks j).key →
    s.Leases locks i → s.Leases locks j → i = j
  exists_iff : ∀ key, (s.redis.find key).isSome ↔ ∃ i, (locks i).key = key ∧ s.Leases locks i
  token : ∀ i, s.Leases locks i →
    (s.redis.find (locks i).key).map Entry.value = some (locks i).token
  release_find : ∀ key i, ¬ ((locks i).key = key ∧ s.Leases locks i) →
    (s.release locks i).redis.find key = s.redis.find key
  release_pttl : ∀ key i, ¬ ((locks i).key = key ∧ s.Leases locks i) →
    (s.release locks i).redis.pttl key = s.redis.pttl key

theorem Tied.safe (h : Tied locks s) (hdistinct : DistinctTokens locks) : Safe locks s := by
  constructor
  · intro i j hkey hi hj
    obtain ⟨t, ht⟩ := h.find_of_leases hi
    obtain ⟨u, hu⟩ := h.find_of_leases hj
    rw [hkey, hu] at ht
    exact hdistinct i j hkey (congrArg Entry.value (Option.some.inj ht)).symm
  · intro key
    rw [Option.isSome_iff_exists]
    constructor
    · rintro ⟨e, he⟩
      obtain ⟨i, t, hi, ht, rfl⟩ := h.owned key e he
      exact ⟨i, hi, t, ht, (s.redis.find_eq_some.1 he).2⟩
    · rintro ⟨i, rfl, hi⟩
      obtain ⟨t, ht⟩ := h.find_of_leases hi
      exact ⟨_, ht⟩
  · intro i hi
    obtain ⟨t, ht⟩ := h.find_of_leases hi
    rw [ht]
    rfl
  · intro key i hi
    exact h.find_release hdistinct hi
  · intro key i hi
    rw [Redis.pttl, Redis.pttl, h.find_release hdistinct hi]
    rw [State.release, Redis.unlockScript_now]

/-- The leases are safe at every moment of every run. -/
theorem safe_of_run (hdistinct : DistinctTokens locks) {now : ℤ} {as : List (Action ι κ)}
    (hrun : Schedule.run (step locks) (start now) as = some s) : Safe locks s :=
  (tied_of_run hdistinct hrun).safe hdistinct

/-- The locks of an SKU, with their numbers as tokens. -/
def skuLocks (i : ℕ) : DistributedLock String ℕ := { key := "lock:sku:sku-1", token := i }

/-- The first client unlocks late, and once more, while the second has the lease. -/
def lateReleases : List (Action ℕ String) :=
  [.attempt 1, .wait 5000, .attempt 2, .wait 100, .release 1, .attempt 3, .release 1]

/-- The lease of the second client outlives both. -/
theorem safe_lateReleases : ∃ s, Schedule.run (step skuLocks) (start 0) lateReleases = some s ∧
    s.redis.find "lock:sku:sku-1" = some ⟨2, 10000⟩ ∧ Safe skuLocks s := by
  have hfinds : ((Schedule.run (step skuLocks) (start 0) lateReleases).map fun s =>
      s.redis.find "lock:sku:sku-1") = some (some ⟨2, 10000⟩) := by decide +kernel
  obtain ⟨s, hrun, hfind⟩ := Option.map_eq_some_iff.1 hfinds
  exact ⟨s, hrun, hfind, safe_of_run (fun _ _ _ htoken => htoken) hrun⟩

/-! ## The loop of `acquire` -/

theorem attempt_step {got : Bool} (h : s.attempt locks i = some (got, s')) :
    s.step locks (.attempt i) = some s' := by
  rw [step, h]
  rfl

/-- The loop makes a run, and when it returns `True` the client has the lease. -/
theorem run_of_poll {deadline : ℚ} {passes : List (ℚ × List (Action ι κ))} {got : Bool}
    (h : poll locks i deadline passes s = some (got, s')) :
    ∃ as, Schedule.run (step locks) s as = some s' ∧ (got = true → s'.Leases locks i) := by
  induction passes generalizing s with
  | nil => cases h
  | cons pass passes ih =>
      rw [poll] at h
      split at h
      · obtain ⟨t, ht, h⟩ := Option.bind_eq_some_iff.1 h
        obtain ⟨⟨got', u⟩, hu, h⟩ := Option.bind_eq_some_iff.1 h
        have hrun : Schedule.run (step locks) s (pass.2 ++ [.attempt i]) = some u :=
          Schedule.run_concat_eq_some.2 ⟨t, ht, attempt_step hu⟩
        cases got' with
        | true =>
            cases h
            exact ⟨_, hrun, fun _ => leases_of_attempt hu⟩
        | false =>
            obtain ⟨as, has, hgot⟩ := ih h
            exact ⟨_, Schedule.run_append_eq_some.2 ⟨u, hrun, has⟩, hgot⟩
      · cases h
        exact ⟨[], rfl, fun hgot => nomatch hgot⟩

/-- When `acquire` returns `True`, the client is the only one with a lease under the
key. -/
theorem leases_iff_of_acquire (hdistinct : DistinctTokens locks) {now : ℤ}
    {as : List (Action ι κ)} (hrun : Schedule.run (step locks) (start now) as = some s)
    {monotonic : ℚ} {passes : List (ℚ × List (Action ι κ))}
    (h : acquire locks i monotonic passes s = some (true, s')) {j : ι}
    (hkey : (locks j).key = (locks i).key) : s'.Leases locks j ↔ j = i := by
  obtain ⟨bs, hbs, hgot⟩ := run_of_poll h
  have hsafe : Safe locks s' :=
    (tied_of_run hdistinct (Schedule.run_append_eq_some.2 ⟨s, hrun, hbs⟩)).safe hdistinct
  constructor
  · intro hj
    exact hsafe.exclusive j i hkey hj (hgot rfl)
  · rintro rfl
    exact hgot rfl

end State

end Lease

end FlashSale
