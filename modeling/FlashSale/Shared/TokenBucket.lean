import FlashSale.Library.Reservoir
import Mathlib.Algebra.Order.Field.Rat
import Mathlib.Algebra.Order.BigOperators.Ring.Finset
import Mathlib.Tactic.Linarith
import Mathlib.Tactic.NormNum

/-!
# The token bucket

`_TOKEN_BUCKET_SCRIPT` and `TokenBucketLimiter` of `shared/redis_client.py`, in
exact rational arithmetic. The script is atomic, so the history of one bucket is
a sequence of calls. Each caller passes the wall clock of its own process; the
key expires when Redis has not seen it for 60 seconds.

The bucket is a reservoir whose inflow is the refill rate times the forward steps
of the timestamps (`available_eq_level`). With timestamps in order this decides
every window exactly; a clock that steps back and forth is counted again.
-/

namespace FlashSale

/-- The settings of the limiter. -/
structure Settings where
  rateLimitCapacity : ℚ := 50
  rateLimitRefillPerSec : ℚ := 20

structure TokenBucketLimiter where
  capacity : ℚ
  refillPerSec : ℚ

/-- The hash stored under the key of a bucket. -/
structure Bucket where
  tokens : ℚ
  ts : ℚ
deriving DecidableEq

/-- The tokens that the script finds in the bucket: a missing key reads as a full
bucket, and a clock that stepped back adds nothing. -/
def refilled (capacity refillPerSec now : ℚ) (data : Option Bucket) : ℚ :=
  let tokens := data.elim capacity Bucket.tokens
  let ts := data.elim now Bucket.ts
  let delta := max 0 (now - ts)
  min capacity (tokens + delta * refillPerSec)

/-- `_TOKEN_BUCKET_SCRIPT`: the decision and the hash that it writes. -/
def tokenBucketScript (capacity refillPerSec now requested : ℚ) (data : Option Bucket) :
    Bool × Bucket :=
  let tokens := refilled capacity refillPerSec now data
  if requested ≤ tokens then (true, ⟨tokens - requested, now⟩) else (false, ⟨tokens, now⟩)

/-- One call for a key: the clock of the caller, the tokens it asks for, and
whether the key had expired before it. -/
structure LimiterCall where
  now : ℚ
  requested : ℚ
  expired : Bool

namespace TokenBucketLimiter

/-- The constructor: an argument that is absent or zero is taken from the
settings. -/
def new (settings : Settings) (capacity refillPerSec : Option ℚ) : TokenBucketLimiter where
  capacity := (capacity.filter (· ≠ 0)).getD settings.rateLimitCapacity
  refillPerSec := (refillPerSec.filter (· ≠ 0)).getD settings.rateLimitRefillPerSec

section Calls

variable (limiter : TokenBucketLimiter)

/-- A call of `allow`, on what the key holds. -/
def allow (data : Option Bucket) (call : LimiterCall) : Bool × Bucket :=
  tokenBucketScript limiter.capacity limiter.refillPerSec call.now call.requested data

variable (calls : ℕ → LimiterCall)

/-- What the key holds when call `n` is made. -/
def bucket : ℕ → Option Bucket
  | 0 => none
  | n + 1 =>
      if (calls (n + 1)).expired then none else some (limiter.allow (bucket n) (calls n)).2

/-- The decision of call `n`. -/
def allowed (n : ℕ) : Bool := (limiter.allow (limiter.bucket calls n) (calls n)).1

/-- What call `n` leaves under the key. -/
def stored (n : ℕ) : Bucket := (limiter.allow (limiter.bucket calls n) (calls n)).2

/-- The tokens that call `n` is granted. -/
def granted (n : ℕ) : ℚ := if limiter.allowed calls n then (calls n).requested else 0

/-- The tokens in the bucket when call `n` is decided. -/
def available (n : ℕ) : ℚ :=
  refilled limiter.capacity limiter.refillPerSec (calls n).now (limiter.bucket calls n)

/-- What the forward steps of the clocks up to call `n` add. -/
def inflow (n : ℕ) : ℚ :=
  limiter.refillPerSec * ∑ j ∈ Finset.range n, max 0 ((calls (j + 1)).now - (calls j).now)

variable {limiter calls} {n : ℕ}

/-! ## The bucket is a reservoir -/

theorem allowed_iff :
    limiter.allowed calls n = true ↔ (calls n).requested ≤ limiter.available calls n := by
  simp only [allowed, allow, tokenBucketScript, available]
  split
  · simp [*]
  · simp [*]

theorem stored_eq :
    limiter.stored calls n =
      ⟨limiter.available calls n - limiter.granted calls n, (calls n).now⟩ := by
  by_cases h : (calls n).requested ≤ limiter.available calls n
  · rw [granted, if_pos (allowed_iff.2 h)]
    exact congrArg Prod.snd (if_pos h)
  · rw [granted, if_neg (mt allowed_iff.1 h), sub_zero]
    exact congrArg Prod.snd (if_neg h)

theorem granted_le (h : 0 ≤ limiter.available calls n) :
    limiter.granted calls n ≤ limiter.available calls n := by
  rw [granted]
  split
  · exact allowed_iff.1 ‹_›
  · exact h

@[simp] theorem available_zero : limiter.available calls 0 = limiter.capacity := by
  simp [available, bucket, refilled]

theorem inflow_succ_sub :
    limiter.inflow calls (n + 1) - limiter.inflow calls n =
      limiter.refillPerSec * max 0 ((calls (n + 1)).now - (calls n).now) := by
  rw [inflow, inflow, Finset.sum_range_succ]
  ring

theorem available_succ :
    limiter.available calls (n + 1) =
      if (calls (n + 1)).expired then limiter.capacity
      else min limiter.capacity (limiter.available calls n - limiter.granted calls n +
        (limiter.inflow calls (n + 1) - limiter.inflow calls n)) := by
  rw [inflow_succ_sub, mul_comm, available, bucket]
  split
  · simp [refilled]
  · rw [show (limiter.allow (limiter.bucket calls n) (calls n)).2 = limiter.stored calls n from rfl,
      stored_eq, refilled]
    rfl

/-- A bucket that only expires when it would be full is the reservoir of its
capacity, fed by the forward steps of the clocks. -/
theorem available_eq_level
    (hexpired : ∀ i < n, (calls (i + 1)).expired = true → limiter.capacity ≤
      limiter.available calls i - limiter.granted calls i +
        (limiter.inflow calls (i + 1) - limiter.inflow calls i)) :
    ∀ i ≤ n, limiter.available calls i =
      Reservoir.level limiter.capacity (limiter.inflow calls) (limiter.granted calls) i := by
  intro i
  induction i with
  | zero => exact fun _ => available_zero
  | succ i ih =>
      intro hi
      rw [available_succ, Reservoir.level_succ, ← ih (Nat.le_of_succ_le hi)]
      split
      · exact (min_eq_left (hexpired i hi ‹_›)).symm
      · rfl

theorem inflow_mono (hrefill : 0 < limiter.refillPerSec) :
    limiter.inflow calls n ≤ limiter.inflow calls (n + 1) := by
  rw [← sub_nonneg, inflow_succ_sub]
  exact mul_nonneg hrefill.le (le_max_left _ _)

theorem available_nonneg (hcapacity : 0 < limiter.capacity) (hrefill : 0 < limiter.refillPerSec) :
    0 ≤ limiter.available calls n := by
  induction n with
  | zero => exact available_zero.symm ▸ hcapacity.le
  | succ n ih =>
      have hrest : 0 ≤ limiter.available calls n - limiter.granted calls n :=
        sub_nonneg.2 (granted_le ih)
      have hfed : 0 ≤ limiter.inflow calls (n + 1) - limiter.inflow calls n :=
        sub_nonneg.2 (inflow_mono hrefill)
      rw [available_succ]
      split
      · exact hcapacity.le
      · exact le_min hcapacity.le (add_nonneg hrest hfed)

theorem available_le : limiter.available calls n ≤ limiter.capacity := min_le_left _ _

theorem granted_nonneg (h : 0 ≤ (calls n).requested) : 0 ≤ limiter.granted calls n := by
  rw [granted]
  split
  · exact h
  · exact le_rfl

/-! ## Clocks in order -/

/-- The calls up to call `n` come with clocks in order and ask for amounts that
are not negative; the key expires only after 60 seconds without a call. -/
structure Orderly (calls : ℕ → LimiterCall) (n : ℕ) : Prop where
  requested_nonneg : ∀ i ≤ n, 0 ≤ (calls i).requested
  ordered : ∀ i < n, (calls i).now ≤ (calls (i + 1)).now
  idle : ∀ i < n, (calls (i + 1)).expired = true → (calls i).now + 60 ≤ (calls (i + 1)).now

theorem Orderly.inflow_sub (h : Orderly calls n) {i : ℕ} (hi : i ≤ n) :
    limiter.inflow calls n - limiter.inflow calls i =
      limiter.refillPerSec * ((calls n).now - (calls i).now) := by
  have hsteps : ∀ m ≤ n, limiter.inflow calls m =
      limiter.refillPerSec * ((calls m).now - (calls 0).now) := by
    intro m
    induction m with
    | zero => simp [inflow]
    | succ m ih =>
        intro hm
        have hstep : limiter.inflow calls (m + 1) - limiter.inflow calls m =
            limiter.refillPerSec * max 0 ((calls (m + 1)).now - (calls m).now) := inflow_succ_sub
        rw [max_eq_right (sub_nonneg.2 (h.ordered m hm)), ih (Nat.le_of_succ_le hm)] at hstep
        linarith
  rw [hsteps n le_rfl, hsteps i hi]
  ring

/-- After 60 seconds the bucket is full whether its key expired or not. -/
theorem Orderly.available_eq_level (h : Orderly calls n) (hcapacity : 0 < limiter.capacity)
    (hrefill : 0 < limiter.refillPerSec) (hexpiry : limiter.capacity ≤ 60 * limiter.refillPerSec) :
    limiter.available calls n =
      Reservoir.level limiter.capacity (limiter.inflow calls) (limiter.granted calls) n := by
  refine TokenBucketLimiter.available_eq_level (n := n) (fun i hi hexp => ?_) n le_rfl
  have hrest : limiter.granted calls i ≤ limiter.available calls i :=
    granted_le (available_nonneg hcapacity hrefill)
  have hidle : 60 ≤ (calls (i + 1)).now - (calls i).now := by
    linarith [h.idle i hi hexp]
  rw [inflow_succ_sub, max_eq_right (by linarith)]
  have hfull : limiter.refillPerSec * 60 ≤
      limiter.refillPerSec * ((calls (i + 1)).now - (calls i).now) :=
    mul_le_mul_of_nonneg_left hidle hrefill.le
  linarith

/-- The limiter decides call `n` as an ideal limiter would that grants no window
more than the capacity and the refill of its length. -/
structure Exact (limiter : TokenBucketLimiter) (calls : ℕ → LimiterCall) (n : ℕ) : Prop where
  stored_nonneg : 0 ≤ (limiter.stored calls n).tokens
  stored_le : (limiter.stored calls n).tokens ≤ limiter.capacity
  refused_iff : limiter.allowed calls n = false ↔
    ∃ i ≤ n, limiter.capacity + limiter.refillPerSec * ((calls n).now - (calls i).now) <
      (∑ j ∈ Finset.Ico i n, limiter.granted calls j) + (calls n).requested
  window_le : ∀ i ≤ n, ∑ j ∈ Finset.Ico i (n + 1), limiter.granted calls j ≤
    limiter.capacity + limiter.refillPerSec * ((calls n).now - (calls i).now)

/-- With clocks in order the token bucket decides every call exactly. -/
theorem exact_of_orderly (hcapacity : 0 < limiter.capacity) (hrefill : 0 < limiter.refillPerSec)
    (hexpiry : limiter.capacity ≤ 60 * limiter.refillPerSec) (h : Orderly calls n) :
    limiter.Exact calls n := by
  have hnonneg : 0 ≤ limiter.available calls n := available_nonneg hcapacity hrefill
  have hgranted : 0 ≤ limiter.granted calls n := granted_nonneg (h.requested_nonneg n le_rfl)
  have hlevel := h.available_eq_level hcapacity hrefill hexpiry
  constructor
  · rw [stored_eq]
    exact sub_nonneg.2 (granted_le hnonneg)
  · rw [stored_eq]
    exact (sub_le_self _ hgranted).trans available_le
  · rw [← Bool.not_eq_true, allowed_iff, hlevel, Reservoir.le_level_iff]
    push Not
    constructor
    · rintro ⟨i, hi, hlt⟩
      exact ⟨i, hi, h.inflow_sub hi ▸ hlt⟩
    · rintro ⟨i, hi, hlt⟩
      exact ⟨i, hi, (h.inflow_sub hi).symm ▸ hlt⟩
  · intro i hi
    rw [← h.inflow_sub hi]
    exact Reservoir.sum_window_le (hlevel ▸ granted_le hnonneg) hi

/-- The shipped limiter, asked for its whole capacity once a minute, with a key
that expires in between. -/
theorem exact_minutely :
    (new {} none none).Exact (fun n => ⟨60 * n, 50, true⟩) 2 := by
  refine exact_of_orderly (by decide +kernel) (by decide +kernel) (by decide +kernel) ?_
  constructor
  · intro i _
    norm_num
  · intro i _
    push_cast
    linarith
  · intro i _ _
    push_cast
    linarith

/-! ## Clocks out of order -/

/-- Calls for a key that never expires. -/
def callsAt (times requested : ℕ → ℚ) (n : ℕ) : LimiterCall := ⟨times n, requested n, false⟩

/-- The latest of the timestamps up to call `n`. -/
def latest (times : ℕ → ℚ) (n : ℕ) : ℚ :=
  (Finset.range (n + 1)).sup' Finset.nonempty_range_add_one times

/-- The earliest of the timestamps up to call `n`. -/
def earliest (times : ℕ → ℚ) (n : ℕ) : ℚ :=
  (Finset.range (n + 1)).inf' Finset.nonempty_range_add_one times

variable {times requested : ℕ → ℚ}

theorem available_callsAt :
    limiter.available (callsAt times requested) n =
      Reservoir.level limiter.capacity (limiter.inflow (callsAt times requested))
        (limiter.granted (callsAt times requested)) n := by
  refine available_eq_level (n := n) (fun i _ hexpired => ?_) n le_rfl
  cases hexpired

/-- What a call asks for that takes all there can be. -/
def greedy (limiter : TokenBucketLimiter) (times : ℕ → ℚ) : ℕ → ℚ
  | 0 => limiter.capacity
  | n + 1 => min limiter.capacity (limiter.refillPerSec * max 0 (times (n + 1) - times n))

theorem available_greedy :
    limiter.available (callsAt times (limiter.greedy times)) n = limiter.greedy times n := by
  induction n with
  | zero => exact available_zero
  | succ n ih =>
      have hall : limiter.granted (callsAt times (limiter.greedy times)) n =
          limiter.available (callsAt times (limiter.greedy times)) n := by
        rw [granted, if_pos (allowed_iff.2 ih.ge), ih]
        rfl
      rw [available_succ, inflow_succ_sub, hall, sub_self, zero_add]
      rfl

variable (limiter) in
/-- Whatever is requested, the tokens granted stay within the capacity and the
refill of the time between the earliest and the latest timestamp, if and only if
the refills of the forward steps, each cut at the capacity, stay within it. -/
theorem granted_le_iff (hcapacity : 0 < limiter.capacity) (hrefill : 0 < limiter.refillPerSec) :
    (∀ requested, ∑ j ∈ Finset.range (n + 1), limiter.granted (callsAt times requested) j ≤
        limiter.capacity + limiter.refillPerSec * (latest times n - earliest times n)) ↔
      ∑ j ∈ Finset.range n,
          min limiter.capacity (limiter.refillPerSec * max 0 (times (j + 1) - times j)) ≤
        limiter.refillPerSec * (latest times n - earliest times n) := by
  have hfed : ∀ requested j, limiter.inflow (callsAt times requested) (j + 1) -
      limiter.inflow (callsAt times requested) j =
        limiter.refillPerSec * max 0 (times (j + 1) - times j) := fun _ _ => inflow_succ_sub
  constructor
  · intro h
    have hall : ∀ i, limiter.granted (callsAt times (limiter.greedy times)) i =
        limiter.available (callsAt times (limiter.greedy times)) i := by
      intro i
      rw [granted, if_pos (allowed_iff.2 available_greedy.ge), available_greedy]
      rfl
    have htotal := Reservoir.level_add_sum_eq (c := limiter.capacity)
      (a := limiter.inflow (callsAt times (limiter.greedy times)))
      (g := limiter.granted (callsAt times (limiter.greedy times))) (n := n)
      fun i _ => (hall i).trans available_callsAt
    have hbound := h (limiter.greedy times)
    rw [Finset.sum_range_succ, hall n, available_callsAt] at hbound
    simp only [hfed] at htotal
    linarith
  · intro h requested
    have hlevel : ∀ i, limiter.available (callsAt times requested) i =
        Reservoir.level limiter.capacity (limiter.inflow (callsAt times requested))
          (limiter.granted (callsAt times requested)) i := fun _ => available_callsAt
    have htotal := Reservoir.level_add_sum_le (c := limiter.capacity)
      (a := limiter.inflow (callsAt times requested))
      (g := limiter.granted (callsAt times requested)) (n := n)
      fun i _ => hlevel i ▸ granted_le (available_nonneg hcapacity hrefill)
    have hlast : limiter.granted (callsAt times requested) n ≤
        limiter.available (callsAt times requested) n :=
      granted_le (available_nonneg hcapacity hrefill)
    rw [available_callsAt] at hlast
    simp only [hfed] at htotal
    rw [Finset.sum_range_succ]
    linarith

theorem le_latest {i : ℕ} (hi : i ≤ n) : times i ≤ latest times n :=
  Finset.le_sup' times (Finset.mem_range_succ_iff.2 hi)

theorem earliest_le {i : ℕ} (hi : i ≤ n) : earliest times n ≤ times i :=
  Finset.inf'_le times (Finset.mem_range_succ_iff.2 hi)

/-- Clocks in order meet the condition of `granted_le_iff`. -/
theorem forward_le_of_ordered (hrefill : 0 < limiter.refillPerSec)
    (h : ∀ i < n, times i ≤ times (i + 1)) :
    ∑ j ∈ Finset.range n,
        min limiter.capacity (limiter.refillPerSec * max 0 (times (j + 1) - times j)) ≤
      limiter.refillPerSec * (latest times n - earliest times n) := by
  have hstep : ∀ j ∈ Finset.range n,
      min limiter.capacity (limiter.refillPerSec * max 0 (times (j + 1) - times j)) ≤
        limiter.refillPerSec * times (j + 1) - limiter.refillPerSec * times j := by
    intro j hj
    rw [max_eq_right (sub_nonneg.2 (h j (Finset.mem_range.1 hj))), ← mul_sub]
    exact min_le_right _ _
  have hspan : times n - times 0 ≤ latest times n - earliest times n :=
    sub_le_sub (le_latest le_rfl) (earliest_le (Nat.zero_le n))
  calc ∑ j ∈ Finset.range n,
        min limiter.capacity (limiter.refillPerSec * max 0 (times (j + 1) - times j))
      ≤ ∑ j ∈ Finset.range n,
          (limiter.refillPerSec * times (j + 1) - limiter.refillPerSec * times j) :=
        Finset.sum_le_sum hstep
    _ = limiter.refillPerSec * (times n - times 0) := by
        rw [Finset.sum_range_sub fun j => limiter.refillPerSec * times j, ← mul_sub]
    _ ≤ limiter.refillPerSec * (latest times n - earliest times n) :=
        mul_le_mul_of_nonneg_left hspan hrefill.le

/-- Two clocks that are 2.5 seconds apart and take turns. -/
def zigzag (n : ℕ) : ℚ := if n % 2 = 0 then 0 else 5 / 2

/-- The shipped limiter grants 150 tokens within 2.5 seconds. -/
theorem clock_steps_mint_tokens :
    ¬ ∀ (limiter : TokenBucketLimiter) (times requested : ℕ → ℚ) (n : ℕ),
      0 < limiter.capacity → 0 < limiter.refillPerSec →
        ∑ j ∈ Finset.range (n + 1), limiter.granted (callsAt times requested) j ≤
          limiter.capacity + limiter.refillPerSec * (latest times n - earliest times n) := by
  intro h
  have hbound := h (new {} none none) zigzag (fun _ => 50) 3 (by decide +kernel) (by decide +kernel)
  revert hbound
  decide +kernel

/-- The shipped limiter and two clocks that are in order. -/
theorem granted_le_iff_shipped :
    (∀ requested, ∑ j ∈ Finset.range 2,
        (new {} none none).granted (callsAt zigzag requested) j ≤
          50 + 20 * (latest zigzag 1 - earliest zigzag 1)) ↔
      ∑ j ∈ Finset.range 1, min (50 : ℚ) (20 * max 0 (zigzag (j + 1) - zigzag j)) ≤
        20 * (latest zigzag 1 - earliest zigzag 1) :=
  granted_le_iff (new {} none none) (by decide +kernel) (by decide +kernel)

end Calls

end TokenBucketLimiter

end FlashSale
