import FlashSale.Library.Independence
import FlashSale.System.Ownership

/-!
# Services meet in messages only

What a service does next depends on what it owns and on its own messages
(`Acts.congr`). So two steps of different services can be exchanged, and no service
can tell in which order they were taken (`Alike`). `independent_of_run` says so of
schedules: between two passes of the dispatchers, what a schedule leads to depends on
the order within each service.
-/

namespace FlashSale

/-! ## Requests -/

theorem within_checkout (req : OrderService.CheckoutRequest) :
    Handler.Within .order (OrderService.checkout req) :=
  ⟨fun _ => rfl, fun _ _ => ⟨owner_singleton rfl, fun _ _ => trivial⟩⟩

theorem within_seedInventory (req : InventoryService.SeedRequest) :
    Handler.Within .inventory (InventoryService.seedInventory req) := by
  refine ⟨rfl, fun item _ => ?_⟩
  cases item <;> exact ⟨owner_singleton rfl, fun _ _ => trivial⟩

/-- A program runs alike in a world with nothing but what its service owns. -/
theorem run_part {service : Service} (ω : Answers) (w : World) {session : Session}
    {p : Handler Unit} (hp : p.Within service) (htxn : ∀ x ∈ session.txn, x.owner = service) :
    (p.run (exec ω) (w.part service, session)).2.1 =
      (p.run (exec ω) (w, session)).2.1.part service := by
  induction p generalizing w session with
  | ret a => rfl
  | raise => rfl
  | call e k ih =>
      rw [Prog.run_call, Prog.run_call, exec_part ω w hp.1 htxn]
      cases hexec : exec ω e (w, session) with
      | none => rfl
      | some r => exact ih r.1 r.2.1 (hp.2 r.1 trivial) (confined_exec hp.1 htxn hexec).2

/-- A request does the same in two worlds in which its service owns the same. -/
theorem World.request_part {service : Service} {u w : World} {p : Handler Unit}
    (hp : p.Within service) (hpart : u.part service = w.part service) (ω : Answers) :
    (u.request p ω).part service = (w.request p ω).part service := by
  have hempty : ∀ x ∈ ({} : Session).txn, x.owner = service := fun x hx => by cases hx
  rw [World.request, World.request, ← run_part ω u hp hempty, ← run_part ω w hp hempty, hpart]

namespace System

/-- Every service finds the same data, every worker has the same left to do, and the
broker holds the same messages. -/
structure Alike (s t : System) : Prop where
  part : ∀ service, s.world.part service = t.world.part service
  running : s.running = t.running
  queue : s.queue.Perm t.queue

/-- The worker that takes a step. Requests and expiries are put to the first worker
of their service, whose delivery they leave as it is; the dispatchers have none. -/
def Action.worker : Action → Option Worker
  | .checkout _ _ => some ⟨.order, 0⟩
  | .seed _ _ => some ⟨.inventory, 0⟩
  | .forget key => some ⟨key.owner, 0⟩
  | .start worker _ | .call worker _ | .finish worker | .abort worker => some worker
  | .publish _ | .mark _ => none

/-- The service whose step it is, unless it is a step of a dispatcher. -/
def Action.service (a : Action) : Option Service := a.worker.map Worker.service

/-- What a worker does: what becomes of the world, which message it takes from the
queue and which it returns, and what is left of its delivery. -/
inductive Acts (w : World) (worker : Worker) :
    Option Attempt → Action → World → Option Message → Option Message → Option Attempt → Prop
  | checkout (current : Option Attempt) (req : OrderService.CheckoutRequest) (ω : Answers)
      (hworker : worker = ⟨.order, 0⟩) :
      Acts w worker current (.checkout req ω) (w.request (OrderService.checkout req) ω) none none
        current
  | seed (current : Option Attempt) (req : InventoryService.SeedRequest) (ω : Answers)
      (hworker : worker = ⟨.inventory, 0⟩) :
      Acts w worker current (.seed req ω) (w.request (InventoryService.seedInventory req) ω) none
        none current
  | forget (current : Option Attempt) (key : IdemKey) (hworker : worker = ⟨key.owner, 0⟩) :
      Acts w worker current (.forget key) (w.setCache key none) none none current
  | start (message : Message) (hconsumer : message.consumer = some worker.service)
      (hslot : worker.service = .saga → worker.slot = 0) :
      Acts w worker none (.start worker message) w (some message) none (some (.new message))
  | called (message : Message) (session session' : Session) (ω : Answers) (e : Effect)
      (k : e.Answer → Handler Unit) (r : e.Answer) (w' : World)
      (hexec : exec ω e (w, session) = some (r, w', session')) :
      Acts w worker (some ⟨message, .call e k, session⟩) (.call worker ω) w' none none
        (some ⟨message, k r, session'⟩)
  | raised (message : Message) (session : Session) (ω : Answers) (e : Effect)
      (k : e.Answer → Handler Unit) (hexec : exec ω e (w, session) = none) :
      Acts w worker (some ⟨message, .call e k, session⟩) (.call worker ω) w none (some message)
        none
  | finish (message : Message) (session : Session) :
      Acts w worker (some ⟨message, .ret (), session⟩) (.finish worker) w none none none
  | abort (attempt : Attempt) :
      Acts w worker (some attempt) (.abort worker) w none (some attempt.message) none

/-- The queue, when one message is taken and one is returned. -/
def exchange (queue : List Message) (taken returned : Option Message) : List Message :=
  taken.elim queue queue.erase ++ returned.toList

theorem acts_of_step {s s' : System} {a : Action} {worker : Worker}
    (hworker : a.worker = some worker) (hstep : s.step a = some s') :
    ∃ w taken returned next, Acts s.world worker (s.running worker) a w taken returned next ∧
      (∀ message ∈ taken, message ∈ s.queue) ∧
      s' = ⟨w, exchange s.queue taken returned, Function.update s.running worker next⟩ := by
  have hnone : ∀ message ∈ (none : Option Message), message ∈ s.queue := fun m hm => by cases hm
  cases a with
  | publish | mark => cases hworker
  | checkout req ω =>
      cases hworker
      cases hstep
      refine ⟨_, _, _, _, .checkout _ req ω rfl, hnone, ?_⟩
      rw [Function.update_eq_self]
      simp [exchange]
  | seed req ω =>
      cases hworker
      cases hstep
      refine ⟨_, _, _, _, .seed _ req ω rfl, hnone, ?_⟩
      rw [Function.update_eq_self]
      simp [exchange]
  | forget key =>
      cases hworker
      cases hstep
      refine ⟨_, _, _, _, .forget _ key rfl, hnone, ?_⟩
      rw [Function.update_eq_self]
      simp [exchange]
  | start _ message =>
      cases hworker
      simp only [System.step, Option.ite_none_right_eq_some] at hstep
      obtain ⟨⟨hmem, hconsumer, hidle, hslot⟩, hs⟩ := hstep
      cases hs
      rw [Option.isNone_iff_eq_none.1 hidle]
      refine ⟨_, _, _, _, .start message hconsumer hslot, fun m hm => ?_, ?_⟩
      · cases hm
        exact hmem
      · simp [exchange]
  | call _ ω =>
      cases hworker
      simp only [System.step, Option.bind_eq_some_iff] at hstep
      obtain ⟨⟨message, p, session⟩, hrunning, hs⟩ := hstep
      rw [hrunning]
      split at hs
      · next e k hp =>
          obtain rfl : p = .call e k := hp
          cases hs
          rw [System.resume]
          cases hexec : exec ω e (s.world, session) with
          | none =>
              refine ⟨_, _, _, _, .raised message session ω e k hexec, hnone, ?_⟩
              simp [exchange, System.release]
          | some result =>
              obtain ⟨r, w, session'⟩ := result
              refine ⟨_, _, _, _, .called message session session' ω e k r w hexec, hnone, ?_⟩
              simp [exchange]
      · cases hs
  | finish _ =>
      cases hworker
      simp only [System.step, Option.bind_eq_some_iff] at hstep
      obtain ⟨⟨message, p, session⟩, hrunning, hs⟩ := hstep
      rw [hrunning]
      split at hs
      · next hp =>
          obtain rfl : p = .ret () := hp
          cases hs
          refine ⟨_, _, _, _, .finish message session, hnone, ?_⟩
          simp [exchange, System.release]
      · cases hs
  | abort _ =>
      cases hworker
      simp only [System.step, Option.map_eq_some_iff] at hstep
      obtain ⟨attempt, hrunning, rfl⟩ := hstep
      rw [hrunning]
      refine ⟨_, _, _, _, .abort attempt, hnone, ?_⟩
      simp [exchange, System.release]

theorem step_of_acts {s : System} {a : Action} {worker : Worker} {w : World}
    {taken returned : Option Message} {next : Option Attempt}
    (h : Acts s.world worker (s.running worker) a w taken returned next)
    (htaken : ∀ message ∈ taken, message ∈ s.queue) :
    s.step a = some ⟨w, exchange s.queue taken returned,
      Function.update s.running worker next⟩ := by
  generalize hcurrent : s.running worker = current at h
  cases h with
  | checkout | seed | forget =>
      rw [← hcurrent, Function.update_eq_self]
      simp [System.step, exchange]
  | start message hconsumer hslot =>
      have hidle : (s.running worker).isNone = true := by rw [hcurrent]; rfl
      simpa [System.step, exchange, htaken message rfl, hconsumer, hidle] using hslot
  | called message session session' ω e k r w' hexec =>
      simp [System.step, System.resume, exchange, hcurrent, hexec]
  | raised message session ω e k hexec =>
      simp [System.step, System.resume, System.release, exchange, hcurrent, hexec]
  | finish message session => simp [System.step, System.release, exchange, hcurrent]
  | abort attempt => simp [System.step, System.release, exchange, hcurrent]

/-! ## Exchanging two steps -/

variable {w u : World} {worker : Worker} {current next : Option Attempt} {a : Action}
  {taken returned : Option Message}

/-- What a delivery does depends on what its service owns. -/
theorem Acts.congr {w' : World} (h : Acts w worker current a w' taken returned next)
    (howned : ∀ attempt, current = some attempt → attempt.prog.Within worker.service ∧
      ∀ x ∈ attempt.session.txn, x.owner = worker.service)
    (hpart : u.part worker.service = w.part worker.service) :
    ∃ u', Acts u worker current a u' taken returned next ∧
      u'.part worker.service = w'.part worker.service := by
  -- the answer of a call, and what it does to the data of the service
  have hexec {session : Session} {e : Effect} (ω : Answers) (he : e.Within worker.service)
      (htxn : ∀ x ∈ session.txn, x.owner = worker.service) :
      (exec ω e (u, session)).map (fun r => (r.1, r.2.1.part worker.service, r.2.2)) =
        (exec ω e (w, session)).map fun r => (r.1, r.2.1.part worker.service, r.2.2) := by
    rw [← exec_part ω u he htxn, ← exec_part ω w he htxn, hpart]
  cases h with
  | checkout _ req ω hworker =>
      subst hworker
      exact ⟨_, .checkout _ req ω rfl, World.request_part (within_checkout req) hpart ω⟩
  | seed _ req ω hworker =>
      subst hworker
      exact ⟨_, .seed _ req ω rfl, World.request_part (within_seedInventory req) hpart ω⟩
  | forget _ key hworker =>
      subst hworker
      refine ⟨_, .forget _ key rfl, ?_⟩
      rw [← u.setCache_part, ← w.setCache_part, hpart]
  | start message hconsumer hslot => exact ⟨u, .start message hconsumer hslot, hpart⟩
  | called message session session' ω e k r w' hcall =>
      obtain ⟨hprog, htxn⟩ := howned _ rfl
      have hsame := hexec ω hprog.1 htxn
      rw [hcall, Option.map_some, Option.map_eq_some_iff] at hsame
      obtain ⟨⟨r', u', session''⟩, hcall', heq⟩ := hsame
      simp only [Prod.mk.injEq] at heq
      obtain ⟨rfl, hpart', rfl⟩ := heq
      exact ⟨u', .called message session _ ω e k _ u' hcall', hpart'⟩
  | raised message session ω e k hcall =>
      obtain ⟨hprog, htxn⟩ := howned _ rfl
      have hsame := hexec ω hprog.1 htxn
      rw [hcall, Option.map_none, Option.map_eq_none_iff] at hsame
      exact ⟨u, .raised message session ω e k hsame, hpart⟩
  | finish message session => exact ⟨u, .finish message session, hpart⟩
  | abort attempt => exact ⟨u, .abort attempt, hpart⟩

/-- A message is taken by the service that it is for. -/
theorem Acts.consumer {w' : World} (h : Acts w worker current a w' taken returned next) :
    ∀ message ∈ taken, message.consumer = some worker.service := by
  cases h with
  | start message hconsumer => exact fun m hm => Option.some.inj hm ▸ hconsumer
  | _ => exact fun m hm => by cases hm

theorem mem_exchange {queue : List Message} {message : Message} (hmem : message ∈ queue)
    (hne : ∀ other ∈ taken, message ≠ other) : message ∈ exchange queue taken returned := by
  refine List.mem_append_left _ ?_
  cases taken with
  | none => exact hmem
  | some other => exact (List.mem_erase_of_ne (hne other rfl)).2 hmem

theorem exchange_comm {queue : List Message} {taken' returned' : Option Message}
    (htaken : ∀ message ∈ taken, message ∈ queue) (htaken' : ∀ message ∈ taken', message ∈ queue)
    (hne : ∀ message ∈ taken, ∀ other ∈ taken', message ≠ other) :
    (exchange (exchange queue taken returned) taken' returned').Perm
      (exchange (exchange queue taken' returned') taken returned) := by
  have hswap (messages : List Message) :
      (messages ++ returned.toList ++ returned'.toList).Perm
        (messages ++ returned'.toList ++ returned.toList) := by
    rw [List.append_assoc, List.append_assoc]
    exact List.perm_append_comm.append_left messages
  cases taken with
  | none =>
      cases taken' with
      | none => exact hswap queue
      | some other =>
          simp only [exchange, Option.elim_none, Option.elim_some,
            List.erase_append_left _ (htaken' other rfl)]
          exact hswap (queue.erase other)
  | some message =>
      cases taken' with
      | none =>
          simp only [exchange, Option.elim_none, Option.elim_some,
            List.erase_append_left _ (htaken message rfl)]
          exact hswap (queue.erase message)
      | some other =>
          have hdistinct := hne message rfl other rfl
          have hleft : other ∈ queue.erase message :=
            (List.mem_erase_of_ne hdistinct.symm).2 (htaken' other rfl)
          have hright : message ∈ queue.erase other :=
            (List.mem_erase_of_ne hdistinct).2 (htaken message rfl)
          simp only [exchange, Option.elim_some, List.erase_append_left _ hleft,
            List.erase_append_left _ hright]
          rw [List.erase_comm other message]
          exact hswap ((queue.erase message).erase other)

theorem Owned.confined {s s' : System} {v : Worker} (h : s.Owned) (hv : a.worker = some v)
    (hstep : s.step a = some s') : s.world.Confined v.service s'.world := by
  obtain ⟨-, service, hactor, hconfined, -⟩ := h.step hstep
  have hservice : s.actor a = some v.service := by
    cases a <;> cases hv <;> rfl
  cases hservice.symm.trans hactor
  exact hconfined

/-- Two steps of deliveries at different services can be exchanged. -/
theorem Owned.exchange {s s₁ s₂ : System} {b : Action} {v v' : Worker} (h : s.Owned)
    (hv : a.worker = some v) (hv' : b.worker = some v') (hne : v.service ≠ v'.service)
    (ha : s.step a = some s₁) (hb : s.step b = some s₂) :
    ∃ t u, s₁.step b = some t ∧ s₂.step a = some u ∧ t.Alike u := by
  have hconfined₁ := h.confined hv ha
  have hconfined₂ := h.confined hv' hb
  have howned₁ := (h.step ha).1
  have howned₂ := (h.step hb).1
  obtain ⟨w₁, taken₁, returned₁, next₁, hacts₁, htaken₁, rfl⟩ := acts_of_step hv ha
  obtain ⟨w₂, taken₂, returned₂, next₂, hacts₂, htaken₂, rfl⟩ := acts_of_step hv' hb
  have hworker : v ≠ v' := fun heq => hne (congrArg Worker.service heq)
  have hdistinct : ∀ message ∈ taken₁, ∀ other ∈ taken₂, message ≠ other := by
    rintro message hmessage other hother rfl
    have hsame := (hacts₁.consumer _ hmessage).symm.trans (hacts₂.consumer _ hother)
    exact hne (Option.some.inj hsame)
  -- each step finds the data of its service as it was
  obtain ⟨y, hacts₂', hy⟩ := hacts₂.congr (h v') (hconfined₁ v'.service hne.symm)
  obtain ⟨z, hacts₁', hz⟩ := hacts₁.congr (h v) (hconfined₂ v.service hne)
  rw [← Function.update_of_ne hworker.symm next₁ s.running] at hacts₂'
  rw [← Function.update_of_ne hworker next₂ s.running] at hacts₁'
  have hstep₁ := step_of_acts
    (s := ⟨w₁, System.exchange s.queue taken₁ returned₁, Function.update s.running v next₁⟩) hacts₂'
    fun message hmem => mem_exchange (htaken₂ message hmem) fun other hother =>
      (hdistinct other hother message hmem).symm
  have hstep₂ := step_of_acts
    (s := ⟨w₂, System.exchange s.queue taken₂ returned₂, Function.update s.running v' next₂⟩)
    hacts₁' fun message hmem => mem_exchange (htaken₁ message hmem) fun other hother =>
      hdistinct message hmem other hother
  refine ⟨_, _, hstep₁, hstep₂, fun service => ?_, ?_, exchange_comm htaken₁ htaken₂ hdistinct⟩
  · have hconfined₁' : World.Confined v'.service w₁ y := howned₁.confined hv' hstep₁
    have hconfined₂' : World.Confined v.service w₂ z := howned₂.confined hv hstep₂
    show y.part service = z.part service
    by_cases hservice : service = v.service
    · subst hservice
      exact (hconfined₁' _ hne).trans hz.symm
    · by_cases hservice' : service = v'.service
      · subst hservice'
        exact hy.trans (hconfined₂' _ hne.symm).symm
      · calc y.part service
            = w₁.part service := hconfined₁' service hservice'
          _ = s.world.part service := hconfined₁ service hservice
          _ = w₂.part service := (hconfined₂ service hservice').symm
          _ = z.part service := (hconfined₂' service hservice).symm
  · exact Function.update_comm hworker next₁ next₂ s.running

/-! ## Schedules -/

theorem Alike.refl (s : System) : s.Alike s := ⟨fun _ => rfl, rfl, .refl _⟩

theorem Alike.trans {s t u : System} (h : s.Alike t) (h' : t.Alike u) : s.Alike u where
  part service := (h.part service).trans (h'.part service)
  running := h.running.trans h'.running
  queue := h.queue.trans h'.queue

theorem exchange_perm {queue queue' : List Message} (h : queue.Perm queue') :
    (exchange queue taken returned).Perm (exchange queue' taken returned) := by
  refine List.Perm.append_right _ ?_
  cases taken with
  | none => exact h
  | some message => exact h.erase message

/-- A service cannot tell related states apart. -/
theorem Owned.congr {s t s' : System} {v : Worker} (h : s.Owned) (h' : t.Owned)
    (hv : a.worker = some v) (halike : s.Alike t) (hstep : s.step a = some s') :
    ∃ t', t.step a = some t' ∧ s'.Alike t' := by
  have hconfined := h.confined hv hstep
  obtain ⟨w, taken, returned, next, hacts, htaken, rfl⟩ := acts_of_step hv hstep
  obtain ⟨u, hacts', hpart⟩ := hacts.congr (h v) (halike.part v.service).symm
  have htaken' : ∀ message ∈ taken, message ∈ t.queue := fun message hmem =>
    halike.queue.subset (htaken message hmem)
  rw [halike.running] at hacts'
  have hstep' := step_of_acts hacts' htaken'
  have hconfined' : t.world.Confined v.service u := h'.confined hv hstep'
  refine ⟨_, hstep', fun service => ?_, ?_, exchange_perm halike.queue⟩
  · show w.part service = u.part service
    by_cases hservice : service = v.service
    · exact hservice ▸ hpart.symm
    · calc w.part service
          = s.world.part service := hconfined service hservice
        _ = t.world.part service := halike.part service
        _ = u.part service := (hconfined' service hservice).symm
  · show Function.update s.running v next = Function.update t.running v next
    rw [halike.running]

/-- What a worker returns to the queue is for its own service. -/
theorem Acts.consumer_returned {w' : World} (h : Acts w worker current a w' taken returned next)
    (hcurrent : ∀ attempt, current = some attempt →
      attempt.message.consumer = some worker.service) :
    ∀ message ∈ returned, message.consumer = some worker.service := by
  cases h with
  | raised message session ω e k => exact fun m hm => Option.some.inj hm ▸ hcurrent _ rfl
  | abort attempt => exact fun m hm => Option.some.inj hm ▸ hcurrent _ rfl
  | _ => exact fun m hm => by cases hm

theorem mem_of_mem_exchange {queue : List Message} {message : Message}
    (hmem : message ∈ exchange queue taken returned) (hne : ∀ other ∈ returned, message ≠ other) :
    message ∈ queue := by
  rcases List.mem_append.1 hmem with hmem | hmem
  · cases taken with
    | none => exact hmem
    | some other => exact List.mem_of_mem_erase hmem
  · exact absurd rfl (hne message (Option.mem_toList.1 hmem))

/-- A step that is possible after a step of another service was possible before it. -/
theorem Owned.exists_step {s s' t : System} {b : Action} {v v' : Worker} (h : s.Owned)
    (hinv : s.Inv) (hv : a.worker = some v) (hv' : b.worker = some v')
    (hne : v.service ≠ v'.service) (ha : s.step a = some s') (hb : s'.step b = some t) :
    ∃ s'', s.step b = some s'' := by
  have hconfined := h.confined hv ha
  have howned := (h.step ha).1
  have hcurrent : ∀ attempt, s.running v = some attempt →
      attempt.message.consumer = some v.service := fun attempt hattempt =>
    (hinv.attempts v attempt hattempt).consumer
  obtain ⟨w, taken, returned, next, hacts, -, rfl⟩ := acts_of_step hv ha
  obtain ⟨y, taken', returned', next', hacts', htaken', rfl⟩ := acts_of_step hv' hb
  have hworker : v' ≠ v := fun heq => hne (congrArg Worker.service heq).symm
  obtain ⟨z, hmoved, -⟩ := hacts'.congr (howned v') (hconfined v'.service hne.symm).symm
  -- the delivery of the other worker is where it was
  have hbefore : Acts s.world v' (s.running v') b z taken' returned' next' := by
    rw [← Function.update_of_ne hworker next s.running]
    exact hmoved
  refine ⟨_, step_of_acts hbefore fun message hmem => ?_⟩
  refine mem_of_mem_exchange (htaken' message hmem) fun other hother => ?_
  rintro rfl
  have hsame := (hacts.consumer_returned hcurrent _ hother).symm.trans (hacts'.consumer _ hmem)
  exact hne (Option.some.inj hsame)

/-- The steps of different services are independent. -/
theorem independent : Schedule.Independent System.step (fun a => a.worker.isSome = true)
    Action.service (fun s => s.Inv ∧ s.Owned) Alike where
  refl := Alike.refl
  trans := Alike.trans
  inv hs hstep := ⟨hs.1.step hstep, (hs.2.step hstep).1⟩
  congr hs hs' ha halike hstep := by
    obtain ⟨v, hv⟩ := Option.isSome_iff_exists.1 ha
    exact hs.2.congr hs'.2 hv halike hstep
  swap hs ha hb hne hstep hstep' := by
    obtain ⟨v, hv⟩ := Option.isSome_iff_exists.1 ha
    obtain ⟨v', hv'⟩ := Option.isSome_iff_exists.1 hb
    have hservice : v.service ≠ v'.service := by
      rw [Action.service, Action.service, hv, hv'] at hne
      exact fun heq => hne (congrArg some heq)
    obtain ⟨s'', hfirst⟩ := hs.2.exists_step hs.1 hv hv' hservice hstep hstep'
    obtain ⟨t', u, ht', hu, halike⟩ := hs.2.exchange hv hv' hservice hstep hfirst
    cases hstep'.symm.trans ht'
    exact ⟨s'', u, hfirst, hu, halike⟩

/-- **What the services do depends on the order of their own steps.** From every
reachable state, a schedule without steps of the dispatchers can be taken in any other
order that keeps the order within each service; every service then has the same data and
the same deliveries in progress, and the broker holds the same messages. -/
theorem independent_of_run {s t : System} {before as bs : List Action}
    (hbefore : Schedule.run step System.start before = some s)
    (hworkers : ∀ a ∈ as, a.worker.isSome = true)
    (hproj : ∀ service, (bs.filter fun a => a.service = service) =
      as.filter fun a => a.service = service)
    (hrun : Schedule.run step s as = some t) :
    ∃ u, Schedule.run step s bs = some u ∧ t.Alike u :=
  independent.run_of_projections ⟨inv_of_run hbefore, owned_of_run hbefore⟩ hworkers hproj hrun

/-- One phone is ordered and reserved, and the broker has the command twice. -/
def reservedTwice : List Action :=
  [.seed tenPhones granting, .checkout onePhone granting] ++
  processed 0 .saga (.orderCreated ⟨"id-1", "phone", 1, "user-1", 100⟩) 2 ++ [.publish 1] ++
  processed 1 .inventory (.reserveInventory ⟨"id-1", "phone", 1⟩) 8 ++ [.publish 2]

/-- The coordinator takes the event, while the inventory service is given the command
again. -/
def alternating : List Action :=
  [.start ⟨.saga, 0⟩ (.inventoryReserved ⟨"id-1", "phone", 1⟩), .call ⟨.saga, 0⟩ granting,
    .start ⟨.inventory, 0⟩ (.reserveInventory ⟨"id-1", "phone", 1⟩),
    .call ⟨.inventory, 0⟩ granting, .call ⟨.saga, 0⟩ granting, .call ⟨.inventory, 0⟩ granting,
    .finish ⟨.saga, 0⟩, .abort ⟨.inventory, 0⟩]

/-- The steps of the coordinator, and then those of the inventory service. -/
def oneByOne : List Action :=
  alternating.filter (fun a => a.service = some .saga) ++
    alternating.filter fun a => a.service = some .inventory

theorem independent_oneByOne : ∃ s t u,
    Schedule.run step System.start reservedTwice = some s ∧
      Schedule.run step s alternating = some t ∧ Schedule.run step s oneByOne = some u ∧
      t.Alike u ∧ t.queue = [.reserveInventory ⟨"id-1", "phone", 1⟩] := by
  have heval : (Schedule.run step System.start (reservedTwice ++ alternating)).map
      System.queue = some [.reserveInventory ⟨"id-1", "phone", 1⟩] := by decide +kernel
  obtain ⟨t, ht, hqueue⟩ := Option.map_eq_some_iff.1 heval
  obtain ⟨s, hs, hrun⟩ := Schedule.run_append_eq_some.1 ht
  have hworkers : ∀ a ∈ alternating, a.worker.isSome = true := by
    have hall : alternating.all (fun a => a.worker.isSome) = true := rfl
    exact fun a ha => List.all_eq_true.1 hall a ha
  have hproj : ∀ service, (oneByOne.filter fun a => a.service = service) =
      alternating.filter fun a => a.service = service := by
    rintro (_ | service)
    · rfl
    · cases service <;> rfl
  obtain ⟨u, hu, halike⟩ := independent_of_run hs hworkers hproj hrun
  exact ⟨s, t, u, hs, hrun, hu, halike, hqueue⟩

end System

end FlashSale
