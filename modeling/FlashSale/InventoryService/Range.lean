import FlashSale.InventoryService.Books
import FlashSale.Shared.Columns
import Mathlib.Data.Fintype.EquivFin
import Mathlib.Data.Set.Finite.Basic

/-!
# The range of the quantities

`handleStored` is a request under the rule that a value out of range raises. A request
that raises so leaves the world as it was, and every other one does what it does without
the rule (`ruled`).

A seed looks at `available_qty` only. `movesInRange_iff` says when every stock move
that may follow stays in range.
-/

namespace FlashSale

/-- The quantities of every row are in range. -/
def World.Fits (w : World) : Prop :=
  ∀ sku, (0 ≤ w.availableQty sku ∧ w.availableQty sku ≤ maxInteger) ∧
    0 ≤ w.reservedQty sku ∧ w.reservedQty sku ≤ maxInteger

/-! ## Quantities in range -/

section Fits

variable {w w' : World}

theorem World.Fits.congr (h : w.Fits) (hitems : w'.items = w.items) : w'.Fits := by
  intro sku
  rw [World.availableQty, World.reservedQty, hitems]
  exact h sku

/-- When one row is written, its new quantities decide. -/
theorem World.Fits.update_iff (h : w.Fits) {sku : Sku} {item : InventoryItem}
    (hitems : w'.items = Function.update w.items sku (some item)) :
    w'.Fits ↔ Storable item.available ∧ Storable item.reserved := by
  have havailable := item.available_nonneg
  have hreserved := item.reserved_nonneg
  constructor
  · intro hfits
    obtain ⟨⟨-, ha⟩, -, hr⟩ := hfits sku
    rw [World.availableQty_of_update hitems, if_pos rfl] at ha
    rw [World.reservedQty_of_update hitems, if_pos rfl] at hr
    exact ⟨⟨by omega, ha⟩, by omega, hr⟩
  · rintro ⟨⟨-, ha⟩, -, hr⟩ other
    rw [World.availableQty_of_update hitems, World.reservedQty_of_update hitems]
    by_cases hother : other = sku
    · rw [if_pos hother, if_pos hother]
      exact ⟨⟨havailable, ha⟩, hreserved, hr⟩
    · rw [if_neg hother, if_neg hother]
      exact h other

/-- Quantities whose sum is in range are in range. -/
theorem World.Fits.of_total (h : ∀ sku, w.availableQty sku + w.reservedQty sku ≤ maxInteger) :
    w.Fits := by
  intro sku
  have htotal := h sku
  have havailable := w.availableQty_nonneg sku
  have hreserved := w.reservedQty_nonneg sku
  exact ⟨⟨havailable, by omega⟩, hreserved, by omega⟩

theorem fits_empty : World.empty.Fits := .of_total fun _ => (by decide : (0 : ℤ) + 0 ≤ maxInteger)

end Fits

namespace InventoryService

/-- One request, from its start to its end. -/
def handleStored (w : World) : Request → World
  | .seed req ω => ((seedInventory req).run (execStored ω) (w, {})).2.1
  | .reserve cmd ω => ((handleReserve cmd).run (execStored ω) (w, {})).2.1
  | .release cmd ω => ((handleRelease cmd).run (execStored ω) (w, {})).2.1

def stepStored (w : World) (request : Request) : Option World := some (handleStored w request)

/-- A reservation that the row covers, or the release of an order whose stock is
reserved. -/
def Processable (line : OrderId → Line) (w : World) : Request → Prop
  | .seed _ _ => False
  | .reserve cmd _ => 1 ≤ cmd.qty ∧ cmd.qty ≤ maxInteger ∧ cmd.qty ≤ w.availableQty cmd.sku
  | .release cmd _ => cmd.orderId ∈ w.held ∧ cmd.sku = (line cmd.orderId).sku ∧
      cmd.qty = (line cmd.orderId).qty

/-- The stock moves that may come next produce quantities in range. -/
def MovesInRange (line : OrderId → Line) (w : World) : Prop :=
  ∀ request, Processable line w request → (handleOne w request).Fits

/-! ## Requests with the rule -/

section Stored

variable {ω : Answers} {w : World} {session : Session} {α : Type}

theorem storable_updateItem {orderId : OrderId} {sku : Sku} {available reserved : ℤ} :
    (∀ x ∈ [Write.updateItem orderId sku available reserved], x.Storable) ↔
      Storable available ∧ Storable reserved := by
  rw [List.forall_mem_singleton]
  exact storable_pair

theorem run_stored_announce (cmd : ReserveInventory) (result : ReservationResult)
    (s : World × Session) :
    (announce cmd result).run (execStored ω) s = (announce cmd result).run (exec ω) s :=
  run_stored_of_only (p := announce cmd result)
    ⟨List.forall_mem_nil _, fun _ _ => ⟨storable_outbox _ _, fun _ _ => trivial⟩⟩ s

theorem run_stored_conclude (cmd : ReserveInventory) (outcome : ReservationResult)
    (s : World × Session) :
    (conclude cmd outcome).run (execStored ω) s = (conclude cmd outcome).run (exec ω) s :=
  run_stored_of_only (p := conclude cmd outcome)
    ⟨List.forall_mem_nil _, fun _ _ => ⟨List.forall_mem_nil _, fun _ _ =>
      ⟨storable_outbox _ _, fun _ _ => trivial⟩⟩⟩ s

theorem run_stored_announceRelease (cmd : ReleaseInventory) (s : World × Session) :
    (announceRelease cmd).run (execStored ω) s = (announceRelease cmd).run (exec ω) s :=
  run_stored_of_only (p := announceRelease cmd)
    ⟨List.forall_mem_nil _, fun _ _ => ⟨storable_outbox _ _, fun _ _ => trivial⟩⟩ s

/-! The calls that only read run as before. -/

theorem run_stored_acquire (key : LockKey) (f : Bool → Handler α) :
    (acquire key >>= f).run (execStored ω) (w, session) =
      (f ω.acquired).run (execStored ω) (w, session) := rfl

theorem run_stored_getCachedReservation (orderId : OrderId)
    (f : Option ReservationResult → Handler α) :
    (getCachedReservation orderId >>= f).run (execStored ω) (w, session) =
      (f (w.reservations orderId)).run (execStored ω)
        (w, { session with missed := (w.reservations orderId).isNone }) := rfl

theorem run_stored_getCachedRelease (orderId : OrderId) (f : Option Unit → Handler α) :
    (getCachedRelease orderId >>= f).run (execStored ω) (w, session) =
      (f (w.releases orderId)).run (execStored ω)
        (w, { session with missed := (w.releases orderId).isNone }) := rfl

theorem run_stored_allow (sku : Sku) (f : Bool → Handler α) :
    (allow sku >>= f).run (execStored ω) (w, session) =
      (f ω.allowed).run (execStored ω) (w, session) := rfl

theorem run_stored_selectItemForUpdate (sku : Sku) (f : Option InventoryItem → Handler α) :
    (selectItemForUpdate sku >>= f).run (execStored ω) (w, session) =
      (f (w.items sku)).run (execStored ω) (w, session) := rfl

theorem run_stored_selectItem (sku : Sku) (f : Option InventoryItem → Handler α) :
    (selectItem sku >>= f).run (execStored ω) (w, session) =
      (f (w.items sku)).run (execStored ω) (w, session) := rfl

/-! ### The handlers -/

/-- A reservation whose move, if it comes to one, is in range. -/
theorem run_stored_handleReserve (ω : Answers) (w : World) (cmd : ReserveInventory)
    (h : ω.acquired = true → ω.allowed = true → w.reservations cmd.orderId = none →
      ∀ item, w.items cmd.sku = some item → cmd.qty ≤ item.available →
        Storable (item.available - cmd.qty) ∧ Storable (item.reserved + cmd.qty)) :
    (handleReserve cmd).run (execStored ω) (w, {}) =
      (handleReserve cmd).run (exec ω) (w, {}) := by
  simp only [handleReserve_eq, run_acquire, run_stored_acquire]
  cases hacquired : ω.acquired with
  | false =>
      exact run_stored_of_only (p := commit _) ⟨storable_outbox _ _, fun _ _ => trivial⟩ _
  | true =>
      simp only [if_true, run_getCachedReservation, run_stored_getCachedReservation]
      cases hcache : w.reservations cmd.orderId with
      | some cached => exact run_stored_announce cmd cached _
      | none =>
          simp only [run_allow, run_stored_allow]
          cases hallowed : ω.allowed with
          | false => exact run_stored_announce cmd _ _
          | true =>
              simp only [if_true, run_selectItemForUpdate, run_stored_selectItemForUpdate]
              cases hitem : w.items cmd.sku with
              | none => exact run_stored_conclude cmd _ _
              | some item =>
                  by_cases hqty : item.available < cmd.qty
                  · simp only [moveStock, if_pos hqty]
                    exact run_stored_conclude cmd _ _
                  · simp only [moveStock, if_neg hqty, bind_assoc]
                    have hmove := h hacquired hallowed hcache item hitem (not_lt.1 hqty)
                    exact run_stored_flush _ _ (storable_updateItem.2 hmove) fun s =>
                      run_stored_conclude cmd _ s

/-- A reservation that comes to a move out of range. -/
theorem run_stored_handleReserve_none {cmd : ReserveInventory} {item : InventoryItem}
    (hacquired : ω.acquired = true) (hallowed : ω.allowed = true)
    (hcache : w.reservations cmd.orderId = none) (hitem : w.items cmd.sku = some item)
    (hqty : cmd.qty ≤ item.available)
    (h : ¬ (Storable (item.available - cmd.qty) ∧ Storable (item.reserved + cmd.qty))) :
    ((handleReserve cmd).run (execStored ω) (w, {})).2.1 = w := by
  have hall : ¬ ∀ x ∈ [Write.updateItem cmd.orderId cmd.sku (item.available - cmd.qty)
      (item.reserved + cmd.qty)], x.Storable := mt storable_updateItem.1 h
  simp only [handleReserve_eq, run_stored_acquire, hacquired, if_true,
    run_stored_getCachedReservation, hcache, run_stored_allow, hallowed,
    run_stored_selectItemForUpdate, hitem, moveStock, if_neg (not_lt.2 hqty), bind_assoc,
    run_stored_flush_none _ _ hall]

theorem handleStored_reserve {cmd : ReserveInventory}
    (h : ω.acquired = true → ω.allowed = true → w.reservations cmd.orderId = none →
      ∀ item, w.items cmd.sku = some item → cmd.qty ≤ item.available →
        Storable (item.available - cmd.qty) ∧ Storable (item.reserved + cmd.qty)) :
    handleStored w (.reserve cmd ω) = handleOne w (.reserve cmd ω) := by
  rw [handleStored, run_stored_handleReserve ω w cmd h]
  rfl

/-- A release whose move, if it comes to one, is in range. -/
theorem run_stored_handleRelease (ω : Answers) (w : World) (cmd : ReleaseInventory)
    (h : ω.acquired = true → w.releases cmd.orderId = none →
      ∀ item, w.items cmd.sku = some item →
        Storable (item.available + cmd.qty) ∧ Storable (max 0 (item.reserved - cmd.qty))) :
    (handleRelease cmd).run (execStored ω) (w, {}) =
      (handleRelease cmd).run (exec ω) (w, {}) := by
  simp only [handleRelease_eq, run_acquire, run_stored_acquire]
  cases hacquired : ω.acquired with
  | false => rfl
  | true =>
      simp only [if_true, run_getCachedRelease, run_stored_getCachedRelease]
      cases hcache : w.releases cmd.orderId with
      | some _ => exact run_stored_announceRelease cmd _
      | none =>
          simp only [run_selectItemForUpdate, run_stored_selectItemForUpdate]
          cases hitem : w.items cmd.sku with
          | none => exact run_stored_announceRelease cmd _
          | some item =>
              have hmove := h hacquired hcache item hitem
              exact run_stored_flush _ _ (storable_updateItem.2 hmove) fun s =>
                run_stored_of_only (p := do storeRelease cmd.orderId; announceRelease cmd)
                  ⟨List.forall_mem_nil _, fun _ _ => ⟨List.forall_mem_nil _, fun _ _ =>
                    ⟨storable_outbox _ _, fun _ _ => trivial⟩⟩⟩ s

/-- A release that comes to a move out of range. -/
theorem run_stored_handleRelease_none {cmd : ReleaseInventory} {item : InventoryItem}
    (hacquired : ω.acquired = true) (hcache : w.releases cmd.orderId = none)
    (hitem : w.items cmd.sku = some item)
    (h : ¬ (Storable (item.available + cmd.qty) ∧ Storable (max 0 (item.reserved - cmd.qty)))) :
    ((handleRelease cmd).run (execStored ω) (w, {})).2.1 = w := by
  have hall : ¬ ∀ x ∈ [Write.updateItem cmd.orderId cmd.sku (item.available + cmd.qty)
      (max 0 (item.reserved - cmd.qty))], x.Storable := mt storable_updateItem.1 h
  simp only [handleRelease_eq, run_stored_acquire, hacquired, if_true,
    run_stored_getCachedRelease, hcache, run_stored_selectItemForUpdate, hitem, giveBack,
    run_stored_flush_none _ _ hall]

theorem handleStored_release {cmd : ReleaseInventory}
    (h : ω.acquired = true → w.releases cmd.orderId = none →
      ∀ item, w.items cmd.sku = some item →
        Storable (item.available + cmd.qty) ∧ Storable (max 0 (item.reserved - cmd.qty))) :
    handleStored w (.release cmd ω) = handleOne w (.release cmd ω) := by
  rw [handleStored, run_stored_handleRelease ω w cmd h]
  rfl

/-- A transaction of one statement, which writes one value. -/
theorem run_stored_commit_one {x : Write} {n : ℤ} (hx : x.integers = [n]) (s : World × Session) :
    (commit [x]).run (execStored ω) s =
      if Storable n then (commit [x]).run (exec ω) s else (none, s) := by
  rw [run_stored_commit]
  refine if_congr ?_ rfl rfl
  rw [List.forall_mem_singleton, Write.Storable, hx, List.forall_mem_singleton]

/-- A seed commits one statement: the new `available_qty` decides. -/
theorem run_stored_seedInventory (ω : Answers) (w : World) (req : SeedRequest) :
    (seedInventory req).run (execStored ω) (w, {}) =
      if Storable (w.availableQty req.sku + req.qty) then
        (seedInventory req).run (exec ω) (w, {})
      else (none, w, {}) := by
  simp only [seedInventory, run_selectItem, run_stored_selectItem]
  cases hitem : w.items req.sku with
  | none =>
      have hqty : w.availableQty req.sku + req.qty = req.qty := by
        simp [World.availableQty, hitem]
      rw [hqty]
      exact run_stored_commit_one rfl _
  | some item =>
      rw [World.availableQty_of_item hitem]
      exact run_stored_commit_one rfl _

end Stored

/-! ## One request -/

section Requests

variable {line : OrderId → Line} {w w' : World} {ω : Answers}

/-- The request does what it does without the rule if that is in range; else it raises
and leaves the world as it was. -/
structure Ruled (w : World) (request : Request) : Prop where
  fits : (handleOne w request).Fits → handleStored w request = handleOne w request
  raises : ¬ (handleOne w request).Fits → handleStored w request = w

theorem Ruled.of_fits {request : Request} (hfits : (handleOne w request).Fits)
    (h : handleStored w request = handleOne w request) : Ruled w request :=
  ⟨fun _ => h, fun hnot => absurd hfits hnot⟩

theorem ruled_reserve (h : w.Fits) (ω : Answers) {cmd : ReserveInventory} (hqty : 0 < cmd.qty) :
    Ruled w (.reserve cmd ω) := by
  have hsame := @handleStored_reserve ω w cmd
  rcases run_handleReserve ω w cmd with ⟨w', hw', hout⟩ | ⟨-, -, item, -, hnegative⟩
  · have hone : handleOne w (.reserve cmd ω) = w' := World.request_of_completes hw'
    cases hout with
    | turnedAway reason hreason hturned =>
        refine .of_fits (hone ▸ h.congr rfl) (hsame fun hacquired hallowed => ?_)
        rcases hturned with hno | ⟨-, hno⟩
        · cases hno.symm.trans hacquired
        · cases hno.symm.trans hallowed
    | repeated result hacquired hcache =>
        refine .of_fits (hone ▸ h.congr rfl) (hsame fun _ _ hnone => ?_)
        cases hcache.symm.trans hnone
    | refused reason hreason hacquired hallowed hcache hstock =>
        refine .of_fits (hone ▸ h.congr rfl) (hsame fun _ _ _ item hitem hcovered => ?_)
        exact absurd hcovered (not_le.2 (hstock item hitem))
    | moved item item' hacquired hallowed hcache hitem hcovered havailable hreserved =>
        have hitems : (handleOne w (.reserve cmd ω)).items =
            Function.update w.items cmd.sku (some item') := hone ▸ rfl
        have hstorable := h.update_iff hitems
        rw [havailable, hreserved] at hstorable
        refine ⟨fun hfits => hsame fun _ _ _ other hother _ => ?_, fun hnot => ?_⟩
        · cases hitem.symm.trans hother
          exact hstorable.1 hfits
        · exact run_stored_handleReserve_none hacquired hallowed hcache hitem hcovered
            (mt hstorable.2 hnot)
  · have hpos := item.reserved_nonneg
    omega

theorem ruled_release (h : w.Fits) (ω : Answers) (cmd : ReleaseInventory) :
    Ruled w (.release cmd ω) := by
  have hsame := @handleStored_release ω w cmd
  rcases run_handleRelease ω w cmd with ⟨w', hw', hout⟩ | ⟨hraised, hworld⟩
  · have hone : handleOne w (.release cmd ω) = w' := World.request_of_completes hw'
    cases hout with
    | repeated hacquired hcache =>
        refine .of_fits (hone ▸ h.congr rfl) (hsame fun _ hnone => ?_)
        cases hcache.symm.trans hnone
    | missing hacquired hcache hitem =>
        refine .of_fits (hone ▸ h.congr rfl) (hsame fun _ _ item hsome => ?_)
        cases hitem.symm.trans hsome
    | released item item' hacquired hcache hitem havailable hreserved =>
        have hitems : (handleOne w (.release cmd ω)).items =
            Function.update w.items cmd.sku (some item') := hone ▸ rfl
        have hstorable := h.update_iff hitems
        rw [havailable, hreserved] at hstorable
        refine ⟨fun hfits => hsame fun _ _ other hother => ?_, fun hnot => ?_⟩
        · cases hitem.symm.trans hother
          exact hstorable.1 hfits
        · exact run_stored_handleRelease_none hacquired hcache hitem (mt hstorable.2 hnot)
  · have hone : handleOne w (.release cmd ω) = w := hworld
    have hfits : (handleOne w (.release cmd ω)).Fits := by
      rw [hone]
      exact h
    refine .of_fits hfits ?_
    by_cases hmove : ω.acquired = true ∧ w.releases cmd.orderId = none ∧
        ∃ item, w.items cmd.sku = some item ∧
          ¬ (Storable (item.available + cmd.qty) ∧ Storable (max 0 (item.reserved - cmd.qty)))
    · obtain ⟨hacquired, hcache, item, hitem, hout⟩ := hmove
      exact (run_stored_handleRelease_none hacquired hcache hitem hout).trans hone.symm
    · refine hsame fun hacquired hcache item hitem => ?_
      by_contra hout
      exact hmove ⟨hacquired, hcache, item, hitem, hout⟩

theorem ruled_seed (h : w.Fits) (ω : Answers) (req : SeedRequest) : Ruled w (.seed req ω) := by
  obtain ⟨item, havailable, hreserved, hrun⟩ := run_seedInventory ω w req
  have hone : handleOne w (.seed req ω) = w.seedItem req.sku item req.qty :=
    World.request_of_completes hrun
  have hitems : (handleOne w (.seed req ω)).items =
      Function.update w.items req.sku (some item) := hone ▸ rfl
  have hstorable := h.update_iff hitems
  have hkept : Storable item.reserved := by
    obtain ⟨-, hpos, hle⟩ := h req.sku
    rw [hreserved]
    exact ⟨by omega, hle⟩
  rw [havailable] at hstorable
  refine ⟨fun hfits => ?_, fun hnot => ?_⟩
  · rw [handleStored, run_stored_seedInventory, if_pos (hstorable.1 hfits).1]
    rfl
  · rw [handleStored, run_stored_seedInventory,
      if_neg fun hnew => hnot (hstorable.2 ⟨hnew, hkept⟩)]

theorem ruled (h : w.Fits) {request : Request} (hline : request.Carries line) :
    Ruled w request := by
  cases request with
  | seed req ω => exact ruled_seed h ω req
  | reserve cmd ω =>
      have hqty : 0 < cmd.qty := by
        rw [hline.2]
        exact (line cmd.orderId).qty_pos
      exact ruled_reserve h ω hqty
  | release cmd ω => exact ruled_release h ω cmd

/-- A request stores at most one answer to a reservation. -/
theorem reservations_handleOne (w : World) (request : Request) :
    (handleOne w request).reservations = w.reservations ∨
      ∃ o entry, (handleOne w request).reservations =
        Function.update w.reservations o entry := by
  cases request with
  | seed req ω =>
      obtain ⟨item, -, -, hrun⟩ := run_seedInventory ω w req
      rw [handleOne, World.request_of_completes hrun]
      exact Or.inl rfl
  | reserve cmd ω =>
      rw [handleOne]
      rcases run_handleReserve ω w cmd with ⟨w', hw', hout⟩ | ⟨-, hsame, -⟩
      · rw [World.request_of_completes hw']
        cases hout with
        | turnedAway => exact Or.inl rfl
        | repeated => exact Or.inl rfl
        | refused => exact Or.inr ⟨_, _, rfl⟩
        | moved => exact Or.inr ⟨_, _, rfl⟩
      · rw [World.request, hsame]
        exact Or.inl rfl
  | release cmd ω =>
      rw [handleOne]
      rcases run_handleRelease ω w cmd with ⟨w', hw', hout⟩ | ⟨-, hsame⟩
      · rw [World.request_of_completes hw']
        cases hout <;> exact Or.inl rfl
      · rw [World.request, hsame]
        exact Or.inl rfl

/-- What holds in every state: the invariant of the books, quantities in range, and
answers for finitely many orders. -/
structure Reached (line : OrderId → Line) (w : World) : Prop where
  inv : Inv line w
  fits : w.Fits
  answered : {o | w.reservations o ≠ none}.Finite

theorem reached_empty : Reached line World.empty where
  inv := inv_empty
  fits := fits_empty
  answered := by simp [World.empty]

theorem Reached.step (h : Reached line w) {request : Request} (hline : request.Carries line)
    (hafter : AfterReservation w request) : Reached line (handleStored w request) := by
  have hruled := ruled h.fits hline
  by_cases hfits : (handleOne w request).Fits
  · rw [hruled.fits hfits]
    refine ⟨(h.inv.step hline hafter).1, hfits, ?_⟩
    rcases reservations_handleOne w request with hsame | ⟨o, entry, hupdate⟩
    · rw [hsame]
      exact h.answered
    · refine (h.answered.insert o).subset fun other hother => ?_
      by_cases heq : other = o
      · exact Or.inl heq
      · rw [Set.mem_ofPred_eq, hupdate, Function.update_of_ne heq] at hother
        exact Or.inr hother
  · rw [hruled.raises hfits]
    exact h

/-! ## The moves that may come next -/

/-- Stock that moves within a row whose total is in range stays in range. -/
theorem Reached.fits_of_update (h : Reached line w) (htotal : ∀ sku, w.seeded sku ≤ maxInteger)
    {sku : Sku} {item item' : InventoryItem} (hitem : w.items sku = some item)
    (hsum : item'.available + item'.reserved = item.available + item.reserved)
    (hitems : w'.items = Function.update w.items sku (some item'))
    (hseeded : w'.seeded = w.seeded) : w'.Fits := by
  refine .of_total fun other => ?_
  rw [h.inv.total_of_update hitem hsum hitems hseeded, hseeded]
  exact htotal other

theorem Reached.fits_reserve (h : Reached line w) (htotal : ∀ sku, w.seeded sku ≤ maxInteger)
    (ω : Answers) (cmd : ReserveInventory) : (handleOne w (.reserve cmd ω)).Fits := by
  rw [handleOne]
  rcases run_handleReserve ω w cmd with ⟨w', hw', hout⟩ | ⟨-, hsame, -⟩
  · rw [World.request_of_completes hw']
    cases hout with
    | turnedAway => exact h.fits.congr rfl
    | repeated => exact h.fits.congr rfl
    | refused => exact h.fits.congr rfl
    | moved item item' _ _ _ hitem _ havailable hreserved =>
        have hsum : item'.available + item'.reserved = item.available + item.reserved := by omega
        exact h.fits_of_update htotal hitem hsum rfl rfl
  · rw [World.request, hsame]
    exact h.fits

theorem Reached.movesInRange (h : Reached line w) (htotal : ∀ sku, w.seeded sku ≤ maxInteger) :
    MovesInRange line w := by
  intro request hrequest
  cases request with
  | seed req ω => exact hrequest.elim
  | reserve cmd ω => exact h.fits_reserve htotal ω cmd
  | release cmd ω =>
      obtain ⟨hheld, hline⟩ := hrequest
      have hcarries : Request.Carries line (.release cmd ω) := hline
      have hafter : AfterReservation w (.release cmd ω) := (Finset.mem_sdiff.1 hheld).1
      obtain ⟨hinv, -, hseeded⟩ := h.inv.step hcarries hafter
      refine .of_total fun sku => ?_
      have hnone : Request.seeds sku (.release cmd ω) = 0 := rfl
      rw [hinv.total, hseeded, hnone, add_zero]
      exact htotal sku

/-- A handler that gets its lock and a token. -/
def granted : Answers := ⟨true, true, ⟨true, "ref", none⟩, "id"⟩

/-- A new order may take all that is available; then everything is reserved. -/
theorem reservedQty_takeAll {o : OrderId} {sku : Sku} (hcache : w.reservations o = none)
    (hpos : 0 < w.availableQty sku) :
    (handleOne w (.reserve ⟨o, sku, w.availableQty sku⟩ granted)).reservedQty sku =
      w.reservedQty sku + w.availableQty sku := by
  have hstocked : ∃ item, w.items sku = some item := by
    cases hitem : w.items sku with
    | none => simp [World.availableQty, hitem] at hpos
    | some item => exact ⟨item, rfl⟩
  obtain ⟨item, hitem⟩ := hstocked
  have havailable := World.availableQty_of_item hitem
  have hreserved := World.reservedQty_of_item hitem
  have hnonneg := item.reserved_nonneg
  rw [handleOne, havailable, hreserved]
  rcases run_handleReserve granted w ⟨o, sku, item.available⟩ with
    ⟨w', hw', hout⟩ | ⟨-, -, other, hother, hnegative⟩
  · rw [World.request_of_completes hw']
    cases hout with
    | turnedAway _ _ hturned =>
        rcases hturned with hno | ⟨-, hno⟩
        · cases hno
        · cases hno
    | repeated result _ hsome => cases hcache.symm.trans hsome
    | refused _ _ _ _ _ hstock => exact absurd (hstock item hitem) (lt_irrefl _)
    | moved other item' _ _ _ hother _ _ hnew =>
        cases hitem.symm.trans hother
        rw [World.reservedQty_of_update rfl, if_pos rfl]
        exact hnew
  · cases hitem.symm.trans hother
    have hitempos := item.available_nonneg
    simp only at hnegative
    omega

theorem Reached.total_le (h : Reached line w) (hmoves : MovesInRange line w) (sku : Sku) :
    w.seeded sku ≤ maxInteger := by
  by_contra hlarge
  obtain ⟨⟨-, havailable⟩, -, hreserved⟩ := h.fits sku
  have htotal := h.inv.total sku
  have hpos : 0 < w.availableQty sku := by omega
  obtain ⟨o, ho⟩ := h.answered.exists_notMem
  have hrequest : Processable line w (.reserve ⟨o, sku, w.availableQty sku⟩ granted) :=
    ⟨hpos, havailable, le_refl _⟩
  obtain ⟨-, -, htaken⟩ := hmoves _ hrequest sku
  rw [reservedQty_takeAll (not_not.1 ho) hpos] at htaken
  omega

end Requests

theorem reached_of_run {line : OrderId → Line} {requests : List Request} {w : World}
    (hline : ∀ request ∈ requests, request.Carries line)
    (hafter : Schedule.Along stepStored AfterReservation World.empty requests)
    (hrun : Schedule.run stepStored World.empty requests = some w) : Reached line w := by
  have hcarries : Schedule.Along stepStored (fun _ request => request.Carries line) World.empty
      requests := Schedule.along_of_forall fun request hmem _ => hline request hmem
  refine Schedule.run_preserves (I := Reached line) ?_ reached_empty (hafter.and hcarries) hrun
  intro u request u' hu hcond hstep
  cases hstep
  exact hu.step hcond.2 hcond.1

/-- In every state that is reached by accepted seeds, reservations and releases, where
an order always carries the same line and is released only after it was reserved: every
reservation that the row covers and every release of reserved stock produces quantities
in range if and only if the accepted seeds of every SKU add up to no more than the
largest value of the columns. -/
theorem movesInRange_iff {line : OrderId → Line} {requests : List Request} {w : World}
    (hline : ∀ request ∈ requests, request.Carries line)
    (hafter : Schedule.Along stepStored AfterReservation World.empty requests)
    (hrun : Schedule.run stepStored World.empty requests = some w) :
    MovesInRange line w ↔ ∀ sku, w.seeded sku ≤ maxInteger := by
  have hreached := reached_of_run hline hafter hrun
  exact ⟨hreached.total_le, hreached.movesInRange⟩

theorem movesInRange_iff_twoOrders :
    ∃ w, Schedule.run stepStored World.empty twoOrders = some w ∧
      (MovesInRange (fun _ => ⟨"phone", 2, by decide⟩) w ↔
        ∀ sku, w.seeded sku ≤ maxInteger) := by
  have hrun : (Schedule.run stepStored World.empty twoOrders).isSome = true := by decide +kernel
  obtain ⟨w, hw⟩ := Option.isSome_iff_exists.1 hrun
  refine ⟨w, hw, movesInRange_iff ?_ ?_ hw⟩
  · decide +kernel
  · decide +kernel

theorem maxInteger_pos : 0 < maxInteger := by decide

/-- A full row of which one unit is reserved, and a seed of one more unit. -/
def toppedUp : List Request :=
  [.seed ⟨"sku-1", maxInteger, maxInteger_pos⟩ granted, .reserve ⟨"order-1", "sku-1", 1⟩ granted,
    .seed ⟨"sku-1", 1, Int.one_pos⟩ granted]

/-- The reserved unit cannot be released any more. -/
theorem not_movesInRange_toppedUp :
    ∃ w, Schedule.run stepStored World.empty toppedUp = some w ∧
      ¬ MovesInRange (fun _ => ⟨"sku-1", 1, Int.one_pos⟩) w ∧ "order-1" ∈ w.held ∧
        handleStored w (.release ⟨"order-1", "sku-1", 1⟩ granted) = w := by
  have hrun : (Schedule.run stepStored World.empty toppedUp).map (fun w =>
      (decide ("order-1" ∈ w.held),
        (handleOne w (.release ⟨"order-1", "sku-1", 1⟩ granted)).availableQty "sku-1")) =
      some (true, 2147483648) := by decide +kernel
  obtain ⟨w, hw, hfacts⟩ := Option.map_eq_some_iff.1 hrun
  obtain ⟨hheld, havailable⟩ := Prod.mk.inj hfacts
  have hreached : Reached (fun _ => ⟨"sku-1", 1, Int.one_pos⟩) w := by
    refine reached_of_run ?_ ?_ hw
    · decide +kernel
    · decide +kernel
  have hnot : ¬ (handleOne w (.release ⟨"order-1", "sku-1", 1⟩ granted)).Fits := by
    intro hfits
    obtain ⟨⟨-, hle⟩, -⟩ := hfits "sku-1"
    rw [havailable] at hle
    exact absurd hle (by decide)
  refine ⟨w, hw, fun hmoves => hnot (hmoves _ ?_), of_decide_eq_true hheld, ?_⟩
  · exact ⟨of_decide_eq_true hheld, rfl, rfl⟩
  · exact (ruled_release hreached.fits granted _).raises hnot

end InventoryService

end FlashSale
