import FlashSale.Library.JsonLines
import FlashSale.Library.Schedule
import FlashSale.Shared.Wire

/-!
# Shipping log events to Seq

`shared/seq_logging.py`: any number of threads call `enqueue_for_seq`, which starts the
worker thread once, behind a flag that is checked before and inside a lock, and puts
the record of the event into a bounded queue; a full queue drops it. The worker imports
`httpx`, reads the settings and opens its client, and any of this can raise and end it.
Then it takes batches from the queue and posts each as one body of JSON lines. A post
that fails is forgotten, but an exception of `json.dumps` ends the worker, too.

The threads take turns at the reads and writes of the flag, the operations of the lock
and of the queue. `str` is the text of a value that JSON has no scalar for.
-/

namespace FlashSale

namespace SeqLogging

open Wire

variable {F V : Type}

/-! ## Records -/

/-- A value of a log event: an instance of `_SCALAR_TYPES`, or anything else. -/
inductive Value (F V : Type)
  | none
  | bool (b : Bool)
  | int (n : ℤ)
  | float (x : F)
  | str (s : String)
  | other (v : V)

/-- The value in a record. -/
def Value.clef (str : Value F V → String) : Value F V → Json F
  | .none => .null
  | .bool b => .bool b
  | .int n => .int n
  | .float x => .float x
  | .str s => string s
  | .other v => string (str (.other v))

/-- A log event: a dict with string keys. -/
abbrev Event (F V : Type) := List (String × Value F V)

/-- `str(event_dict.get(key, default))`. -/
def text (str : Value F V → String) (event : Event F V) (key default : String) : String :=
  str ((event.lookup key).getD (.str default))

/-- `_to_clef`. The time is the current one. -/
def toClef (str : Value F V → String) (now : String) (event : Event F V) : Payload F :=
  event.foldl
    (fun clef item =>
      if item.1 ∈ ["event", "level", "timestamp"] then clef
      else Json.setItem (codes item.1) (item.2.clef str) clef)
    (payload [("@t", string now), ("@m", string (text str event "event" "")),
      ("@l", string (text str event "level" "info"))])

/-- The body of a post: a line for each record; `none` when `json.dumps` raises. -/
def body (repr : F → List Char) (batch : List (Payload F)) : Option (List Char) :=
  ((batch.map Json.dict).mapM (Json.dumps repr)).map fun lines => ['\n'].intercalate lines

/-! ## Threads and worker -/

/-- Where a call of `enqueue_for_seq` stands: at the first look at the flag, before the
lock, and, with the lock held, at the second look, at `thread.start()`, before the flag
is set and before the lock is released; at last at the queue. -/
inductive Phase (F V : Type)
  | check (event : Event F V)
  | lock (event : Event F V)
  | recheck (event : Event F V)
  | start (event : Event F V)
  | mark (event : Event F V)
  | unlock (event : Event F V)
  | put (event : Event F V)

/-- The lock is held. -/
def Phase.inside : Phase F V → Bool
  | .recheck _ => true
  | .start _ => true
  | .mark _ => true
  | .unlock _ => true
  | _ => false

/-- Where a worker stands: it starts, or has failed to; its loop waits for a record, fills
its batch, posts it or has ended with it. -/
inductive Stage (F : Type)
  | starting
  | failed
  | waiting
  | draining (batch : List (Payload F))
  | posting (batch : List (Payload F))
  | dead (batch : List (Payload F))

def Stage.batch : Stage F → List (Payload F)
  | .starting => []
  | .failed => []
  | .waiting => []
  | .draining batch => batch
  | .posting batch => batch
  | .dead batch => batch

/-- A request to Seq, and whether it was answered. -/
structure Post (F : Type) where
  batch : List (Payload F)
  body : List Char
  answered : Bool

/-- The module's globals, the calls and the workers, and a record of what was put into
the queue, dropped and posted. -/
structure State (F V : Type) where
  started : Bool
  lock : Option ℕ
  threads : ℕ → Option (Phase F V)
  workers : List (Stage F)
  queue : List (Payload F)
  accepted : List (Payload F)
  dropped : List (Payload F)
  posted : List (Post F)

/-- The module as it is imported. -/
def initial : State F V := ⟨false, none, fun _ => none, [], [], [], [], []⟩

/-- A thread calls `enqueue_for_seq`, a thread goes on with its call, or a worker goes
on; `succeeds` says whether its start succeeds, or its request is answered. -/
inductive Action (F V : Type)
  | call (thread : ℕ) (event : Event F V)
  | run (thread : ℕ) (now : String)
  | work (worker : ℕ) (succeeds : Bool)

/-- `maxsize`. -/
def maxsize : ℕ := 10000

/-- The size of a batch. -/
def batchSize : ℕ := 100

/-- The thread goes on at another place, or is done with its call. -/
def State.goto (s : State F V) (thread : ℕ) (phase : Option (Phase F V)) : State F V :=
  { s with threads := Function.update s.threads thread phase }

/-- `put_nowait`, which drops the record when the queue is full. -/
def State.put (s : State F V) (record : Payload F) : State F V :=
  if s.queue.length < maxsize then
    { s with queue := s.queue ++ [record], accepted := s.accepted ++ [record] }
  else { s with dropped := s.dropped ++ [record] }

/-- One step of a call. The thread waits for the lock while it is held. -/
def State.advance (str : Value F V → String) (s : State F V) (thread : ℕ) (now : String) :
    Phase F V → Option (State F V)
  | .check event => some (s.goto thread (some (if s.started then .put event else .lock event)))
  | .lock event =>
      if s.lock = none then
        some ({ s with lock := some thread }.goto thread (some (.recheck event)))
      else none
  | .recheck event =>
      some (s.goto thread (some (if s.started then .unlock event else .start event)))
  | .start event =>
      some ({ s with workers := s.workers ++ [Stage.starting] }.goto thread (some (.mark event)))
  | .mark event => some ({ s with started := true }.goto thread (some (.unlock event)))
  | .unlock event => some ({ s with lock := none }.goto thread (some (.put event)))
  | .put event => some ((s.put (toClef str now event)).goto thread none)

/-- One step of a worker. -/
def State.work (repr : F → List Char) (s : State F V) (worker : ℕ) (succeeds : Bool) :
    Stage F → Option (State F V)
  | .starting =>
      some { s with workers := s.workers.set worker (if succeeds then .waiting else .failed) }
  | .failed => none
  | .waiting =>
      match s.queue with
      | [] => some s
      | record :: queue =>
          some { s with queue := queue, workers := s.workers.set worker (.draining [record]) }
  | .draining batch =>
      match s.queue with
      | record :: queue =>
          if batch.length < batchSize then
            some { s with
              queue := queue, workers := s.workers.set worker (.draining (batch ++ [record])) }
          else some { s with workers := s.workers.set worker (.posting batch) }
      | [] => some { s with workers := s.workers.set worker (.posting batch) }
  | .posting batch =>
      match body repr batch with
      | none => some { s with workers := s.workers.set worker (.dead batch) }
      | some body =>
          some { s with
            workers := s.workers.set worker .waiting
            posted := s.posted ++ [⟨batch, body, succeeds⟩] }
  | .dead _ => none

def step (str : Value F V → String) (repr : F → List Char) (s : State F V) :
    Action F V → Option (State F V)
  | .call thread event =>
      if (s.threads thread).isNone then some (s.goto thread (some (.check event))) else none
  | .run thread now => (s.threads thread).bind (s.advance str thread now)
  | .work worker succeeds => s.workers[worker]?.bind (s.work repr worker succeeds)

/-! ## The record of an event -/

theorem flat_setItem {Q : F → Prop} {items : Payload F} {key : List ℕ} {j : Json F}
    (h : Flat Q items) (hkey : Json.IsText key) (hj : IsField Q j) :
    Flat Q (Json.setItem key j items) := by
  refine ⟨Json.nodup_setItem h.keys, fun item hitem => ?_⟩
  rcases Json.mem_setItem hitem with rfl | hold
  · exact ⟨hkey, hj⟩
  · exact h.values item hold

theorem isField_clef {Q : F → Prop} (hQ : ∀ x, Q x) (str : Value F V → String)
    (value : Value F V) : IsField Q (value.clef str) := by
  cases value with
  | none => exact .none
  | bool b => exact .ofBool b
  | int n => exact .ofInt n
  | float x => exact .ofFloat (hQ x)
  | str s => exact .ofString s
  | other v => exact .ofString _

/-- A record is a dict of scalars: nothing that `json.dumps` would hand to `default`. -/
theorem flat_toClef {Q : F → Prop} (hQ : ∀ x, Q x) (str : Value F V → String) (now : String)
    (event : Event F V) : Flat Q (toClef str now event) := by
  have hfold : ∀ (items : Event F V) (clef : Payload F), Flat Q clef →
      Flat Q (items.foldl
        (fun clef item =>
          if item.1 ∈ ["event", "level", "timestamp"] then clef
          else Json.setItem (codes item.1) (item.2.clef str) clef) clef) := by
    intro items
    induction items with
    | nil => exact fun _ h => h
    | cons item items ih =>
        intro clef hclef
        rw [List.foldl_cons]
        refine ih _ ?_
        split
        · exact hclef
        · exact flat_setItem hclef (isText_codes item.1) (isField_clef hQ str item.2)
  refine hfold event _ (flat_payload (by simp) ?_)
  simp [IsField.ofString]

/-! ## One worker -/

/-- What a thread knows of the lock, the flag and the worker where it stands. -/
def Phase.Knows (s : State F V) (thread : ℕ) : Phase F V → Prop
  | .check _ => True
  | .lock _ => True
  | .recheck _ => s.lock = some thread
  | .start _ => s.lock = some thread ∧ s.started = false
  | .mark _ => s.lock = some thread ∧ s.started = false ∧ s.workers.length = 1
  | .unlock _ => s.lock = some thread ∧ s.started = true
  | .put _ => s.started = true

/-- Every thread is right about what it knows, and the flag and the worker go together but
for the moment between `thread.start()` and the assignment of the flag. -/
structure Guarded (s : State F V) : Prop where
  knows : ∀ thread phase, s.threads thread = some phase → phase.Knows s thread
  started : s.started = true → s.workers.length = 1
  fresh : s.started = false →
    s.workers = [] ∨ ∃ thread event, s.threads thread = some (.mark event)
  holder : ∀ thread, s.lock = some thread →
    ∃ phase, s.threads thread = some phase ∧ phase.inside = true

section Steps

variable {str : Value F V → String} {repr : F → List Char} {s t : State F V}

theorem guarded_initial : Guarded (initial : State F V) where
  knows := fun _ _ h => by cases h
  started := fun h => by cases h
  fresh := fun _ => Or.inl rfl
  holder := fun _ h => by cases h

theorem Phase.Knows.held {thread : ℕ} {phase : Phase F V} (h : phase.Knows s thread)
    (hinside : phase.inside = true) : s.lock = some thread := by
  cases phase with
  | check _ => cases hinside
  | lock _ => cases hinside
  | recheck _ => exact h
  | start _ => exact h.1
  | mark _ => exact h.1
  | unlock _ => exact h.1
  | put _ => cases hinside

/-- Outside the lock a thread relies on the flag only, which is never taken back. -/
theorem Phase.Knows.outside {thread : ℕ} {phase : Phase F V} (h : phase.Knows s thread)
    (houtside : phase.inside = false) (hstarted : s.started = true → t.started = true) :
    phase.Knows t thread := by
  cases phase with
  | check _ => exact trivial
  | lock _ => exact trivial
  | recheck _ => cases houtside
  | start _ => cases houtside
  | mark _ => cases houtside
  | unlock _ => cases houtside
  | put _ => exact hstarted h

theorem Phase.Knows.congr {thread : ℕ} {phase : Phase F V} (h : phase.Knows s thread)
    (hlock : t.lock = s.lock) (hstarted : t.started = s.started)
    (hworkers : t.workers.length = s.workers.length) : phase.Knows t thread := by
  cases phase with
  | check _ => exact trivial
  | lock _ => exact trivial
  | recheck _ => exact hlock.trans h
  | start _ => exact ⟨hlock.trans h.1, hstarted.trans h.2⟩
  | mark _ => exact ⟨hlock.trans h.1, hstarted.trans h.2.1, hworkers.trans h.2.2⟩
  | unlock _ => exact ⟨hlock.trans h.1, hstarted.trans h.2⟩
  | put _ => exact hstarted.trans h

/-- No two threads are inside the lock. -/
theorem Guarded.exclusive (h : Guarded s) {thread u : ℕ} {phase p : Phase F V}
    (hphase : s.threads thread = some phase) (hinside : phase.inside = true)
    (hp : s.threads u = some p) (hne : u ≠ thread) : p.inside = false := by
  cases hpinside : p.inside with
  | false => rfl
  | true =>
      have hu := (h.knows u p hp).held hpinside
      have hthread := (h.knows thread phase hphase).held hinside
      exact absurd (Option.some.inj (hu.symm.trans hthread)) hne

/-- A thread moves: it has to know what its new place asks for, and the others must not be
disturbed. -/
theorem Guarded.move {thread : ℕ} {phase : Option (Phase F V)} (h : Guarded s)
    (hthreads : t.threads = Function.update s.threads thread phase)
    (hself : ∀ p, phase = some p → p.Knows t thread)
    (hothers : ∀ u p, u ≠ thread → s.threads u = some p → p.Knows s u → p.Knows t u)
    (hstarted : t.started = true → t.workers.length = 1)
    (hfresh : t.started = false →
      t.workers = [] ∨ ∃ u event, t.threads u = some (.mark event))
    (hholder : ∀ u, t.lock = some u → ∃ p, t.threads u = some p ∧ p.inside = true) :
    Guarded t := by
  refine ⟨fun u p hp => ?_, hstarted, hfresh, hholder⟩
  rw [hthreads] at hp
  by_cases hu : u = thread
  · subst hu
    rw [Function.update_self] at hp
    exact hself p hp
  · rw [Function.update_of_ne hu] at hp
    exact hothers u p hu hp (h.knows u p hp)

/-- The move of a thread that leaves the lock, the flag and the worker as they are. -/
theorem Guarded.quiet {thread : ℕ} {old : Option (Phase F V)} {phase : Option (Phase F V)}
    (h : Guarded s) (hold : s.threads thread = old) (hunmarked : ∀ event, old ≠ some (.mark event))
    (hthreads : t.threads = Function.update s.threads thread phase)
    (hlock : t.lock = s.lock) (hflag : t.started = s.started) (hworkers : t.workers = s.workers)
    (hself : ∀ p, phase = some p → p.Knows s thread)
    (hinside : (∃ p, old = some p ∧ p.inside = true) → ∃ p, phase = some p ∧ p.inside = true) :
    Guarded t := by
  have hlength : t.workers.length = s.workers.length := congrArg List.length hworkers
  refine h.move hthreads (fun p hp => (hself p hp).congr hlock hflag hlength)
    (fun u p _ _ hknows => hknows.congr hlock hflag hlength) ?_ ?_ ?_
  · rw [hflag, hworkers]
    exact h.started
  · intro hfalse
    rw [hflag] at hfalse
    rw [hworkers]
    refine (h.fresh hfalse).imp id ?_
    rintro ⟨u, event, hu⟩
    refine ⟨u, event, ?_⟩
    have hne : u ≠ thread := by
      rintro rfl
      exact hunmarked event (hold.symm.trans hu)
    rw [hthreads, Function.update_of_ne hne]
    exact hu
  · intro u hu
    rw [hlock] at hu
    obtain ⟨p, hp, hpinside⟩ := h.holder u hu
    rw [hthreads]
    by_cases hne : u = thread
    · subst hne
      rw [Function.update_self]
      exact hinside ⟨p, hold ▸ hp, hpinside⟩
    · rw [Function.update_of_ne hne]
      exact ⟨p, hp, hpinside⟩

theorem guarded_advance {thread : ℕ} {now : String} {phase : Phase F V} (h : Guarded s)
    (hphase : s.threads thread = some phase) (ht : s.advance str thread now phase = some t) :
    Guarded t := by
  have hknows := h.knows thread phase hphase
  have houtside : phase.inside = false → ∀ q : Option (Phase F V),
      (∃ p, some phase = some p ∧ p.inside = true) → ∃ p, q = some p ∧ p.inside = true := by
    rintro hfalse q ⟨p, hp, hinside⟩
    cases hp
    cases hfalse.symm.trans hinside
  have hself : s.lock = some thread → ∀ q : Phase F V, q.inside = true → ∀ u,
      s.lock = some u → ∃ p, Function.update s.threads thread (some q) u = some p ∧
        p.inside = true := by
    intro hlock q hq u hu
    cases hlock.symm.trans hu
    exact ⟨q, Function.update_self .., hq⟩
  cases phase with
  | check event =>
      cases ht
      refine h.quiet hphase (fun _ hmark => by cases hmark) rfl rfl rfl rfl (fun p hp => ?_)
        (houtside rfl _)
      cases hp
      split
      · assumption
      · trivial
  | lock event =>
      obtain ⟨hfree, heq⟩ := Option.ite_none_right_eq_some.1 ht
      cases heq
      have hfreed : ∀ u p, s.threads u = some p → p.inside = false := by
        intro u p hp
        cases hinside : p.inside with
        | false => rfl
        | true => cases hfree.symm.trans ((h.knows u p hp).held hinside)
      refine h.move rfl (fun p hp => ?_) (fun u p _ hp hu => hu.outside (hfreed u p hp) id)
        h.started (fun hfalse => (h.fresh hfalse).imp id ?_) fun u hu => ?_
      · cases hp
        rfl
      · rintro ⟨u, event', hu⟩
        cases hfreed u _ hu
      · cases hu
        exact ⟨.recheck event, Function.update_self .., rfl⟩
  | recheck event =>
      cases ht
      refine h.quiet hphase (fun _ hmark => by cases hmark) rfl rfl rfl rfl (fun p hp => ?_)
        fun _ => ⟨_, rfl, ?_⟩
      · cases hp
        split
        · next hstarted => exact ⟨hknows, hstarted⟩
        · next hstarted => exact ⟨hknows, Bool.eq_false_iff.2 hstarted⟩
      · split <;> rfl
  | start event =>
      cases ht
      have hnone : s.workers = [] := by
        rcases h.fresh hknows.2 with hnone | ⟨u, event', hu⟩
        · exact hnone
        · have hne : u ≠ thread := by
            rintro rfl
            cases hphase.symm.trans hu
          cases h.exclusive hphase rfl hu hne
      refine h.move rfl (fun p hp => ?_)
        (fun u p hne hp hu => hu.outside (h.exclusive hphase rfl hp hne) id)
        (fun htrue => ?_) (fun _ => Or.inr ⟨thread, event, Function.update_self ..⟩)
        (hself hknows.1 _ rfl)
      · cases hp
        refine ⟨hknows.1, hknows.2, ?_⟩
        change (s.workers ++ [Stage.starting]).length = 1
        rw [hnone]
        rfl
      · cases hknows.2.symm.trans htrue
  | mark event =>
      cases ht
      refine h.move rfl (fun p hp => ?_)
        (fun u p hne hp hu => hu.outside (h.exclusive hphase rfl hp hne) fun _ => rfl)
        (fun _ => hknows.2.2) (fun hfalse => by cases hfalse) (hself hknows.1 _ rfl)
      cases hp
      exact ⟨hknows.1, rfl⟩
  | unlock event =>
      cases ht
      refine h.move rfl (fun p hp => ?_)
        (fun u p hne hp hu => hu.outside (h.exclusive hphase rfl hp hne) id)
        h.started (fun hfalse => by cases hknows.2.symm.trans hfalse) fun u hu => by cases hu
      cases hp
      exact hknows.2
  | put event =>
      cases ht
      have hsame : ∀ record, (s.put record).lock = s.lock ∧ (s.put record).started = s.started ∧
          (s.put record).workers = s.workers ∧ (s.put record).threads = s.threads := by
        intro record
        unfold State.put
        split <;> exact ⟨rfl, rfl, rfl, rfl⟩
      obtain ⟨hlock, hflag, hworkers, hthreads⟩ := hsame (toClef str now event)
      have hupdate : Function.update (s.put (toClef str now event)).threads thread none =
          Function.update s.threads thread none := by rw [hthreads]
      exact h.quiet hphase (fun _ hmark => by cases hmark) hupdate hlock hflag hworkers
        (fun p hp => by cases hp) (houtside rfl none)

/-- What a step of a worker does: it starts or fails to, waits on, takes a record, stops to
fill its batch, posts the batch or ends with it. -/
inductive Works (repr : F → List Char) (s : State F V) (worker : ℕ) (succeeds : Bool) :
    Stage F → State F V → Prop
  | start {stage : Stage F} (hstage : stage = .waiting ∨ stage = .failed) :
      Works repr s worker succeeds .starting { s with workers := s.workers.set worker stage }
  | wait : Works repr s worker succeeds .waiting s
  | take {stage : Stage F} {record : Payload F} {queue : List (Payload F)}
      (hstage : stage = .waiting ∨ ∃ batch, stage = .draining batch ∧ batch.length < batchSize)
      (hqueue : s.queue = record :: queue) :
      Works repr s worker succeeds stage
        { s with
          queue := queue, workers := s.workers.set worker (.draining (stage.batch ++ [record])) }
  | stop {batch : List (Payload F)} :
      Works repr s worker succeeds (.draining batch)
        { s with workers := s.workers.set worker (.posting batch) }
  | die {batch : List (Payload F)} (hbody : body repr batch = none) :
      Works repr s worker succeeds (.posting batch)
        { s with workers := s.workers.set worker (.dead batch) }
  | post {batch : List (Payload F)} {text : List Char} (hbody : body repr batch = some text) :
      Works repr s worker succeeds (.posting batch)
        { s with
          workers := s.workers.set worker .waiting
          posted := s.posted ++ [⟨batch, text, succeeds⟩] }

theorem works_of_work {worker : ℕ} {succeeds : Bool} {stage : Stage F}
    (ht : s.work repr worker succeeds stage = some t) :
    Works repr s worker succeeds stage t := by
  cases stage with
  | starting =>
      cases ht
      cases succeeds with
      | true => exact .start (Or.inl rfl)
      | false => exact .start (Or.inr rfl)
  | failed => cases ht
  | waiting =>
      simp only [State.work] at ht
      split at ht
      · cases ht
        exact .wait
      · next hqueue =>
          cases ht
          exact .take (Or.inl rfl) hqueue
  | draining batch =>
      simp only [State.work] at ht
      split at ht
      · next hqueue =>
          split at ht
          · next hlt =>
              cases ht
              exact .take (Or.inr ⟨batch, rfl, hlt⟩) hqueue
          · cases ht
            exact .stop
      · cases ht
        exact .stop
  | posting batch =>
      simp only [State.work] at ht
      split at ht
      · next hbody =>
          cases ht
          exact .die hbody
      · next hbody =>
          cases ht
          exact .post hbody
  | dead batch => cases ht

/-- A worker changes neither the lock nor the flag, and is still there. -/
theorem Works.guard {worker : ℕ} {succeeds : Bool} {stage : Stage F}
    (h : Works repr s worker succeeds stage t) :
    t.lock = s.lock ∧ t.started = s.started ∧ t.threads = s.threads ∧
      t.workers.length = s.workers.length := by
  cases h with
  | start _ => exact ⟨rfl, rfl, rfl, List.length_set⟩
  | wait => exact ⟨rfl, rfl, rfl, rfl⟩
  | take _ _ => exact ⟨rfl, rfl, rfl, List.length_set⟩
  | stop => exact ⟨rfl, rfl, rfl, List.length_set⟩
  | die _ => exact ⟨rfl, rfl, rfl, List.length_set⟩
  | post _ => exact ⟨rfl, rfl, rfl, List.length_set⟩

theorem guarded_step {a : Action F V} (h : Guarded s) (ht : step str repr s a = some t) :
    Guarded t := by
  cases a with
  | call thread event =>
      obtain ⟨hidle, heq⟩ := Option.ite_none_right_eq_some.1 ht
      cases heq
      have hnone : s.threads thread = none := Option.isNone_iff_eq_none.1 hidle
      refine h.quiet hnone (fun _ hmark => by cases hmark) rfl rfl rfl rfl (fun p hp => ?_) ?_
      · cases hp
        trivial
      · rintro ⟨p, hp, -⟩
        cases hp
  | run thread now =>
      obtain ⟨phase, hphase, hadvance⟩ := Option.bind_eq_some_iff.1 ht
      exact guarded_advance h hphase hadvance
  | work worker succeeds =>
      obtain ⟨stage, hstage, hwork⟩ := Option.bind_eq_some_iff.1 ht
      obtain ⟨hlock, hflag, hthreads, hworkers⟩ := (works_of_work hwork).guard
      refine ⟨fun u p hp => ?_, ?_, fun hfalse => ?_, fun u hu => ?_⟩
      · rw [hthreads] at hp
        exact (h.knows u p hp).congr hlock hflag hworkers
      · rw [hflag, hworkers]
        exact h.started
      · rw [hflag] at hfalse
        rw [hthreads]
        refine (h.fresh hfalse).imp (fun hnone => ?_) id
        rw [hnone] at hstage
        cases hstage
      · rw [hthreads]
        exact h.holder u (hlock ▸ hu)

theorem guarded_of_run {actions : List (Action F V)}
    (h : Schedule.run (step str repr) initial actions = some s) : Guarded s :=
  Schedule.run_invariant (fun _ _ _ => guarded_step) guarded_initial h

end Steps

/-! ## The way of the records -/

/-- The batch of a post: it is not empty, no larger than the loop allows, and stands in the
body line by line. -/
def Post.Fits (repr : F → List Char) (post : Post F) : Prop :=
  (1 ≤ post.batch.length ∧ post.batch.length ≤ batchSize) ∧
    SeqLogging.body repr post.batch = some post.body

/-- What a worker holds. It has ended at its start, or because its batch could not be
written. -/
def Stage.Fits (repr : F → List Char) : Stage F → Prop
  | .starting => True
  | .failed => True
  | .waiting => True
  | .draining batch => 1 ≤ batch.length ∧ batch.length ≤ batchSize
  | .posting batch => 1 ≤ batch.length ∧ batch.length ≤ batchSize
  | .dead batch => body repr batch = none

/-- The records that were put into the queue were posted, are with the worker or are in
the queue, in this order, and are records of log events; the queue and the batches keep
their sizes, and nothing was dropped before the queue had been full. -/
structure InOrder (str : Value F V → String) (repr : F → List Char) (s : State F V) : Prop where
  order : s.accepted = s.posted.flatMap Post.batch ++ s.workers.flatMap Stage.batch ++ s.queue
  window : s.queue.length ≤ maxsize
  posts : ∀ post ∈ s.posted, post.Fits repr
  stages : ∀ stage ∈ s.workers, stage.Fits repr
  records : ∀ record ∈ s.accepted, ∃ now event, record = toClef str now event
  drops : s.dropped = [] ∨ maxsize ≤ s.accepted.length

section Steps

variable {str : Value F V → String} {repr : F → List Char} {s t : State F V}

theorem inOrder_initial : InOrder str repr (initial : State F V) where
  order := rfl
  window := Nat.zero_le maxsize
  posts := fun _ h => (List.not_mem_nil h).elim
  stages := fun _ h => (List.not_mem_nil h).elim
  records := fun _ h => (List.not_mem_nil h).elim
  drops := Or.inl rfl

theorem InOrder.congr (h : InOrder str repr s) (haccepted : t.accepted = s.accepted)
    (hposted : t.posted = s.posted) (hworkers : t.workers = s.workers)
    (hqueue : t.queue = s.queue) (hdropped : t.dropped = s.dropped) : InOrder str repr t := by
  refine ⟨?_, ?_, ?_, ?_, ?_, ?_⟩
  · rw [haccepted, hposted, hworkers, hqueue]
    exact h.order
  · rw [hqueue]
    exact h.window
  · rw [hposted]
    exact h.posts
  · rw [hworkers]
    exact h.stages
  · rw [haccepted]
    exact h.records
  · rw [haccepted, hdropped]
    exact h.drops

theorem InOrder.put (h : InOrder str repr s) (now : String) (event : Event F V) :
    InOrder str repr (s.put (toClef str now event)) := by
  unfold State.put
  split
  · next hlt =>
      refine ⟨?_, ?_, h.posts, h.stages, fun record hmem => ?_, ?_⟩
      · change s.accepted ++ [_] = _ ++ (s.queue ++ [_])
        rw [h.order, List.append_assoc, List.append_assoc]
      · change (s.queue ++ [_]).length ≤ maxsize
        rw [List.length_append]
        exact hlt
      · rcases List.mem_append.1 hmem with hmem | hmem
        · exact h.records record hmem
        · exact ⟨now, event, List.mem_singleton.1 hmem⟩
      · refine h.drops.imp id fun hle => ?_
        change maxsize ≤ (s.accepted ++ [_]).length
        rw [List.length_append]
        exact Nat.le_add_right_of_le hle
  · next hfull =>
      -- the queue is full, and all that is in it has been accepted
      refine ⟨h.order, h.window, h.posts, h.stages, h.records, Or.inr ?_⟩
      change maxsize ≤ s.accepted.length
      rw [h.order, List.length_append]
      exact Nat.le_add_left_of_le (Nat.not_lt.1 hfull)

theorem InOrder.works {worker : ℕ} {succeeds : Bool} {stage : Stage F} (h : InOrder str repr s)
    (hone : s.workers.length ≤ 1) (hstage : s.workers[worker]? = some stage)
    (ht : Works repr s worker succeeds stage t) : InOrder str repr t := by
  obtain ⟨rfl, hworkers⟩ : worker = 0 ∧ s.workers = [stage] := by
    cases hs : s.workers with
    | nil =>
        rw [hs] at hstage
        cases hstage
    | cons first rest =>
        rw [hs] at hstage hone
        obtain rfl : rest = [] := by
          rw [← List.length_eq_zero_iff]
          rw [List.length_cons] at hone
          omega
        cases worker with
        | zero =>
            cases hstage
            exact ⟨rfl, rfl⟩
        | succ worker => cases hstage
  have hfits : stage.Fits repr := h.stages stage (by rw [hworkers]; exact List.mem_cons_self)
  have horder : s.accepted = s.posted.flatMap Post.batch ++ stage.batch ++ s.queue := by
    rw [h.order, hworkers, List.flatMap_singleton]
  cases ht with
  | @start stage hstage' =>
      have hempty : stage.batch = [] ∧ stage.Fits repr := by
        rcases hstage' with rfl | rfl
        · exact ⟨rfl, trivial⟩
        · exact ⟨rfl, trivial⟩
      refine ⟨?_, h.window, h.posts, fun u hu => ?_, h.records, h.drops⟩
      · change s.accepted = _ ++ (s.workers.set 0 _).flatMap Stage.batch ++ s.queue
        rw [horder, hworkers, List.set_cons_zero, List.flatMap_singleton, hempty.1]
        rfl
      · change u ∈ s.workers.set 0 _ at hu
        rw [hworkers, List.set_cons_zero, List.mem_singleton] at hu
        subst hu
        exact hempty.2
  | wait => exact h
  | @take stage record queue hstage' hqueue =>
      have hwindow := h.window
      rw [hqueue, List.length_cons] at hwindow
      refine ⟨?_, by change queue.length ≤ maxsize; omega, h.posts, fun u hu => ?_, h.records,
        h.drops⟩
      · change s.accepted = _ ++ (s.workers.set 0 _).flatMap Stage.batch ++ queue
        rw [horder, hqueue, hworkers, List.set_cons_zero, List.flatMap_singleton]
        simp [Stage.batch]
      · change u ∈ s.workers.set 0 _ at hu
        rw [hworkers, List.set_cons_zero, List.mem_singleton] at hu
        subst hu
        have hlt : stage.batch.length < batchSize := by
          rcases hstage' with rfl | ⟨batch, rfl, hlt⟩
          · exact Nat.zero_lt_succ 99
          · exact hlt
        change 1 ≤ (stage.batch ++ [record]).length ∧ (stage.batch ++ [record]).length ≤ batchSize
        rw [List.length_append, List.length_singleton]
        omega
  | @stop batch =>
      refine ⟨?_, h.window, h.posts, fun u hu => ?_, h.records, h.drops⟩
      · change s.accepted = _ ++ (s.workers.set 0 _).flatMap Stage.batch ++ s.queue
        rw [horder, hworkers, List.set_cons_zero, List.flatMap_singleton]
        rfl
      · change u ∈ s.workers.set 0 _ at hu
        rw [hworkers, List.set_cons_zero, List.mem_singleton] at hu
        subst hu
        exact hfits
  | @die batch hbody =>
      refine ⟨?_, h.window, h.posts, fun u hu => ?_, h.records, h.drops⟩
      · change s.accepted = _ ++ (s.workers.set 0 _).flatMap Stage.batch ++ s.queue
        rw [horder, hworkers, List.set_cons_zero, List.flatMap_singleton]
        rfl
      · change u ∈ s.workers.set 0 _ at hu
        rw [hworkers, List.set_cons_zero, List.mem_singleton] at hu
        subst hu
        exact hbody
  | @post batch text hbody =>
      refine ⟨?_, h.window, fun p hp => ?_, fun u hu => ?_, h.records, h.drops⟩
      · change s.accepted = (s.posted ++ [_]).flatMap Post.batch ++
          (s.workers.set 0 _).flatMap Stage.batch ++ s.queue
        rw [horder, hworkers, List.set_cons_zero, List.flatMap_singleton, List.flatMap_append,
          List.flatMap_singleton]
        simp [Stage.batch]
      · rcases List.mem_append.1 hp with hp | hp
        · exact h.posts p hp
        · rw [List.mem_singleton.1 hp]
          exact ⟨hfits, hbody⟩
      · change u ∈ s.workers.set 0 _ at hu
        rw [hworkers, List.set_cons_zero, List.mem_singleton] at hu
        subst hu
        exact trivial

theorem inOrder_step {a : Action F V} (hone : s.workers.length ≤ 1) (h : InOrder str repr s)
    (ht : step str repr s a = some t) : InOrder str repr t := by
  cases a with
  | call thread event =>
      obtain ⟨-, heq⟩ := Option.ite_none_right_eq_some.1 ht
      cases heq
      exact h.congr rfl rfl rfl rfl rfl
  | run thread now =>
      obtain ⟨phase, -, hadvance⟩ := Option.bind_eq_some_iff.1 ht
      cases phase with
      | check event => cases hadvance; exact h.congr rfl rfl rfl rfl rfl
      | lock event =>
          obtain ⟨-, heq⟩ := Option.ite_none_right_eq_some.1 hadvance
          cases heq
          exact h.congr rfl rfl rfl rfl rfl
      | recheck event => cases hadvance; exact h.congr rfl rfl rfl rfl rfl
      | start event =>
          cases hadvance
          refine ⟨?_, h.window, h.posts, fun stage hmem => ?_, h.records, h.drops⟩
          · change s.accepted = _ ++ (s.workers ++ [Stage.starting]).flatMap Stage.batch ++ _
            rw [List.flatMap_append, h.order]
            simp [State.goto, Stage.batch]
          · rcases List.mem_append.1 hmem with hmem | hmem
            · exact h.stages stage hmem
            · rw [List.mem_singleton.1 hmem]
              exact trivial
      | mark event => cases hadvance; exact h.congr rfl rfl rfl rfl rfl
      | unlock event => cases hadvance; exact h.congr rfl rfl rfl rfl rfl
      | put event =>
          cases hadvance
          exact (h.put now event).congr rfl rfl rfl rfl rfl
  | work worker succeeds =>
      obtain ⟨stage, hstage, hwork⟩ := Option.bind_eq_some_iff.1 ht
      exact h.works hone hstage (works_of_work hwork)

theorem Guarded.one (h : Guarded s) : s.workers.length ≤ 1 := by
  cases hstarted : s.started with
  | true => exact (h.started hstarted).le
  | false =>
      rcases h.fresh hstarted with hnone | ⟨thread, event, hmark⟩
      · rw [hnone]
        exact Nat.zero_le 1
      · exact (h.knows thread _ hmark).2.2.le

theorem inOrder_of_run {actions : List (Action F V)}
    (h : Schedule.run (step str repr) initial actions = some s) : InOrder str repr s := by
  have hboth : Guarded s ∧ InOrder str repr s :=
    Schedule.run_invariant (I := fun u => Guarded u ∧ InOrder str repr u)
      (fun _ _ _ hu hstep => ⟨guarded_step hu.1 hstep, inOrder_step hu.1.one hu.2 hstep⟩)
      ⟨guarded_initial, inOrder_initial⟩ h
  exact hboth.2

theorem loadsLines_post {float : List Char → F} (hfloat : ∀ x, Json.ReadsBack float repr x)
    (hrepr : ∀ x, '\n' ∉ repr x) (h : InOrder str repr s) {post : Post F}
    (hpost : post ∈ s.posted) :
    Json.loadsLines float post.body = (post.batch.map Json.dict).map some := by
  obtain ⟨⟨hpos, -⟩, hbody⟩ := h.posts post hpost
  obtain ⟨lines, hlines, hintercalate⟩ := Option.map_eq_some_iff.1 hbody
  rw [← hintercalate]
  refine Json.loadsLines_intercalate (fun x _ => hfloat x) hrepr
    (P := fun _ => True) (fun j hj text htext => ?_) ?_ hlines
  · obtain ⟨record, hrecord, rfl⟩ := List.mem_map.1 hj
    have haccepted : record ∈ s.accepted := by
      rw [h.order]
      exact List.mem_append_left _ (List.mem_append_left _
        (List.mem_flatMap.2 ⟨post, hpost, hrecord⟩))
    obtain ⟨now, event, rfl⟩ := h.records record haccepted
    exact (flat_toClef (fun _ => trivial) str now event).wellFormed htext
  · intro hnil
    rw [List.map_eq_nil_iff] at hnil
    rw [hnil] at hpos
    cases hpos

/-- In every run of the calls and the worker, however its start ends and Seq answers: at
most one worker was started, and there is one once a thread has come to the queue. The
records are posted once each, in the order in which they were put into the queue, which
holds no more than `maxsize`; nothing is dropped before so many were accepted. A body
reads back, line by line, as its batch, and the worker ends only at its start or with a
batch that could not be written. -/
theorem ships_of_run {float : List Char → F} (hfloat : ∀ x, Json.ReadsBack float repr x)
    (hrepr : ∀ x, '\n' ∉ repr x) {actions : List (Action F V)}
    (h : Schedule.run (step str repr) initial actions = some s) :
    s.workers.length ≤ 1 ∧
      (∀ thread event, s.threads thread = some (.put event) → s.workers.length = 1) ∧
      InOrder str repr s ∧
      ∀ post ∈ s.posted, Json.loadsLines float post.body = (post.batch.map Json.dict).map some := by
  have hguarded := guarded_of_run h
  have horder := inOrder_of_run h
  exact ⟨hguarded.one, fun thread event hput => hguarded.started (hguarded.knows thread _ hput),
    horder, fun _ hpost => loadsLines_post hfloat hrepr horder hpost⟩

end Steps

/-- An event is put into the queue, taken by the worker and posted. -/
def shipped : List (Action Unit Unit) :=
  .call 7 [("event", .str "order_confirmed"), ("level", .str "info"), ("qty", .int 2),
    ("order", .other ())] ::
    (List.replicate 7 (.run 7 "2025-06-01T12:00:00+00:00") ++
      .work 0 true :: List.replicate 3 (.work 0 false))

theorem ships_shipped : ∃ s : State Unit Unit,
    Schedule.run (step (fun _ => "x") fun _ => "1.5".toList) initial shipped = some s ∧
      s.posted.length = 1 ∧
      (s.workers.length ≤ 1 ∧
        (∀ thread event, s.threads thread = some (.put event) → s.workers.length = 1) ∧
        InOrder (fun _ => "x") (fun _ => "1.5".toList) s ∧
        ∀ post ∈ s.posted,
          Json.loadsLines (fun _ => ()) post.body = (post.batch.map Json.dict).map some) := by
  have hrun : (Schedule.run (step (fun _ => "x") fun _ => "1.5".toList) initial shipped).map
      (fun s : State Unit Unit => s.posted.length) = some 1 := by decide +kernel
  obtain ⟨s, hs, hposted⟩ := Option.map_eq_some_iff.1 hrun
  exact ⟨s, hs, hposted, ships_of_run readsBack_half (fun _ => by decide) hs⟩

/-! ## No caller waits for Seq -/

section Moves

variable {str : Value F V → String} {repr : F → List Char} {s t u : State F V} {now : String}

/-- Steps of calls, at most `n` of them, lead from one state to the other. -/
def Moves (str : Value F V → String) (repr : F → List Char) (now : String) (n : ℕ)
    (s t : State F V) : Prop :=
  ∃ threads : List ℕ, threads.length ≤ n ∧
    Schedule.run (step str repr) s (threads.map fun thread => .run thread now) = some t

theorem Moves.trans {n m : ℕ} (h : Moves str repr now n s t) (h' : Moves str repr now m t u) :
    Moves str repr now (n + m) s u := by
  obtain ⟨first, hn, hfirst⟩ := h
  obtain ⟨second, hm, hsecond⟩ := h'
  refine ⟨first ++ second, ?_, ?_⟩
  · rw [List.length_append]
    omega
  · rw [List.map_append]
    exact Schedule.run_append_eq_some.2 ⟨t, hfirst, hsecond⟩

theorem Moves.mono {n m : ℕ} (h : Moves str repr now n s t) (hle : n ≤ m) :
    Moves str repr now m s t := by
  obtain ⟨threads, hn, hrun⟩ := h
  exact ⟨threads, hn.trans hle, hrun⟩

theorem moves_one {thread : ℕ} {phase : Phase F V} (hphase : s.threads thread = some phase)
    (ht : s.advance str thread now phase = some t) : Moves str repr now 1 s t := by
  refine ⟨[thread], le_rfl, ?_⟩
  rw [List.map_singleton, Schedule.run_cons]
  exact Option.bind_eq_some_iff.2 ⟨t, Option.bind_eq_some_iff.2 ⟨phase, hphase, ht⟩, rfl⟩

/-- A call comes to its end by steps of calls alone. -/
def Finishes (str : Value F V → String) (repr : F → List Char) (now : String) (n : ℕ)
    (s : State F V) (thread : ℕ) : Prop :=
  ∃ t, Moves str repr now n s t ∧ t.threads thread = none

theorem Finishes.cons {n : ℕ} {thread : ℕ} {phase : Phase F V}
    (hphase : s.threads thread = some phase) (ht : s.advance str thread now phase = some t)
    (h : Finishes str repr now n t thread) : Finishes str repr now (1 + n) s thread := by
  obtain ⟨u, hmoves, hu⟩ := h
  exact ⟨u, (moves_one hphase ht).trans hmoves, hu⟩

theorem finishes_put {thread : ℕ} {event : Event F V}
    (h : s.threads thread = some (.put event)) : Finishes str repr now 1 s thread :=
  ⟨_, moves_one h rfl, Function.update_self ..⟩

theorem finishes_unlock {thread : ℕ} {event : Event F V}
    (h : s.threads thread = some (.unlock event)) : Finishes str repr now 2 s thread :=
  .cons h rfl (finishes_put (Function.update_self ..))

theorem finishes_mark {thread : ℕ} {event : Event F V}
    (h : s.threads thread = some (.mark event)) : Finishes str repr now 3 s thread :=
  .cons h rfl (finishes_unlock (Function.update_self ..))

theorem finishes_start {thread : ℕ} {event : Event F V}
    (h : s.threads thread = some (.start event)) : Finishes str repr now 4 s thread :=
  .cons h rfl (finishes_mark (Function.update_self ..))

theorem Finishes.mono {n m thread : ℕ} (h : Finishes str repr now n s thread) (hle : n ≤ m) :
    Finishes str repr now m s thread := by
  obtain ⟨t, hmoves, ht⟩ := h
  exact ⟨t, hmoves.mono hle, ht⟩

theorem finishes_recheck {thread : ℕ} {event : Event F V}
    (h : s.threads thread = some (.recheck event)) : Finishes str repr now 5 s thread := by
  cases hstarted : s.started with
  | true =>
      have hstep : s.advance str thread now (.recheck event) =
          some (s.goto thread (some (.unlock event))) := by rw [State.advance, hstarted]; rfl
      exact (Finishes.cons h hstep (finishes_unlock (Function.update_self ..))).mono (by omega)
  | false =>
      have hstep : s.advance str thread now (.recheck event) =
          some (s.goto thread (some (.start event))) := by rw [State.advance, hstarted]; rfl
      exact .cons h hstep (finishes_start (Function.update_self ..))

theorem finishes_lock {thread : ℕ} {event : Event F V} (hfree : s.lock = none)
    (h : s.threads thread = some (.lock event)) : Finishes str repr now 6 s thread :=
  .cons h (if_pos hfree) (finishes_recheck (Function.update_self ..))

/-- The lock becomes free by steps of calls alone, and the other threads stay. -/
def Leaves (str : Value F V → String) (repr : F → List Char) (now : String) (n : ℕ)
    (s : State F V) (holder : ℕ) : Prop :=
  ∃ t, Moves str repr now n s t ∧ t.lock = none ∧ ∀ u ≠ holder, t.threads u = s.threads u

theorem Leaves.cons {n : ℕ} {holder : ℕ} {phase : Phase F V} {next : Option (Phase F V)}
    (hphase : s.threads holder = some phase) (ht : s.advance str holder now phase = some t)
    (hthreads : t.threads = Function.update s.threads holder next)
    (h : Leaves str repr now n t holder) : Leaves str repr now (1 + n) s holder := by
  obtain ⟨u, hmoves, hfree, hothers⟩ := h
  refine ⟨u, (moves_one hphase ht).trans hmoves, hfree, fun v hv => (hothers v hv).trans ?_⟩
  rw [hthreads, Function.update_of_ne hv]

theorem leaves_unlock {holder : ℕ} {event : Event F V}
    (h : s.threads holder = some (.unlock event)) : Leaves str repr now 1 s holder :=
  ⟨_, moves_one h rfl, rfl, fun _ hu => Function.update_of_ne hu ..⟩

theorem leaves_mark {holder : ℕ} {event : Event F V}
    (h : s.threads holder = some (.mark event)) : Leaves str repr now 2 s holder :=
  .cons h rfl rfl (leaves_unlock (Function.update_self ..))

theorem leaves_start {holder : ℕ} {event : Event F V}
    (h : s.threads holder = some (.start event)) : Leaves str repr now 3 s holder :=
  .cons h rfl rfl (leaves_mark (Function.update_self ..))

/-- A thread inside the lock leaves it. -/
theorem leaves_of_inside {holder : ℕ} {phase : Phase F V} (h : s.threads holder = some phase)
    (hinside : phase.inside = true) : ∃ n ≤ 4, Leaves str repr now n s holder := by
  cases phase with
  | check _ => cases hinside
  | lock _ => cases hinside
  | recheck event =>
      cases hstarted : s.started with
      | true =>
          have hstep : s.advance str holder now (.recheck event) =
              some (s.goto holder (some (.unlock event))) := by rw [State.advance, hstarted]; rfl
          exact ⟨2, by decide, .cons h hstep rfl (leaves_unlock (Function.update_self ..))⟩
      | false =>
          have hstep : s.advance str holder now (.recheck event) =
              some (s.goto holder (some (.start event))) := by rw [State.advance, hstarted]; rfl
          exact ⟨4, le_rfl, .cons h hstep rfl (leaves_start (Function.update_self ..))⟩
  | start event => exact ⟨3, by decide, leaves_start h⟩
  | mark event => exact ⟨2, by decide, leaves_mark h⟩
  | unlock event => exact ⟨1, by decide, leaves_unlock h⟩
  | put _ => cases hinside

/-- Before the lock a call waits for its holder at most. -/
theorem finishes_of_lock (hs : Guarded s) {thread : ℕ} {event : Event F V}
    (h : s.threads thread = some (.lock event)) : Finishes str repr now 10 s thread := by
  cases hlock : s.lock with
  | none => exact (finishes_lock hlock h).mono (by decide)
  | some holder =>
      obtain ⟨phase, hphase, hinside⟩ := hs.holder holder hlock
      have hne : thread ≠ holder := by
        rintro rfl
        cases h.symm.trans hphase
        cases hinside
      obtain ⟨n, hn, t, hmoves, hfree, hothers⟩ := leaves_of_inside hphase hinside
      have hfinishes : Finishes str repr now 6 t thread :=
        finishes_lock hfree ((hothers thread hne).trans h)
      obtain ⟨u, hrest, hu⟩ := hfinishes
      exact ⟨u, (hmoves.trans hrest).mono (by omega), hu⟩

/-- In every state that a run reaches, with the worker wherever it is and whatever Seq does,
a call of `enqueue_for_seq` can come to its end without a step of the worker: it waits
for other callers only, and for these a bounded number of steps. -/
theorem finishes_of_run {actions : List (Action F V)}
    (h : Schedule.run (step str repr) initial actions = some s) (now : String) {thread : ℕ}
    {phase : Phase F V} (hphase : s.threads thread = some phase) :
    Finishes str repr now 11 s thread := by
  have hs := guarded_of_run h
  cases phase with
  | check event =>
      cases hstarted : s.started with
      | true =>
          have hstep : s.advance str thread now (.check event) =
              some (s.goto thread (some (.put event))) := by rw [State.advance, hstarted]; rfl
          exact (Finishes.cons hphase hstep (finishes_put (Function.update_self ..))).mono
            (by decide)
      | false =>
          have hstep : s.advance str thread now (.check event) =
              some (s.goto thread (some (.lock event))) := by rw [State.advance, hstarted]; rfl
          have hnext : Schedule.run (step str repr) initial (actions ++ [.run thread now]) =
              some (s.goto thread (some (.lock event))) :=
            Schedule.run_concat_eq_some.2
              ⟨s, h, Option.bind_eq_some_iff.2 ⟨_, hphase, hstep⟩⟩
          exact .cons hphase hstep
            (finishes_of_lock (guarded_of_run hnext) (Function.update_self ..))
  | lock event => exact (finishes_of_lock hs hphase).mono (by decide)
  | recheck event => exact (finishes_recheck hphase).mono (by decide)
  | start event => exact (finishes_start hphase).mono (by decide)
  | mark event => exact (finishes_mark hphase).mono (by decide)
  | unlock event => exact (finishes_unlock hphase).mono (by decide)
  | put event => exact (finishes_put hphase).mono (by decide)

end Moves

/-- Two threads call, and the first one takes the lock. -/
def contended : List (Action Unit Unit) :=
  [.call 0 [], .call 1 [], .run 0 "t", .run 1 "t", .run 0 "t", .run 0 "t"]

theorem finishes_contended : ∃ s : State Unit Unit,
    Schedule.run (step (fun _ => "x") fun _ => "1.5".toList) initial contended = some s ∧
      s.threads 1 = some (.lock []) ∧
      Finishes (fun _ => "x") (fun _ => "1.5".toList) "t" 11 s 1 := by
  have hrun : Schedule.run (step (fun _ => "x") fun _ => "1.5".toList)
      (initial : State Unit Unit) contended = some _ := rfl
  exact ⟨_, hrun, rfl, finishes_of_run hrun "t" rfl⟩

end SeqLogging

end FlashSale
