import FlashSale.Library.Prog
import FlashSale.Library.Schedule
import Mathlib.Data.List.Basic

/-!
# Consuming a queue

`consume` of `shared/rabbitmq.py`: the callback `_on_message` and the channel that
runs it, once for every message delivered. The channel delivers as long as fewer
than `prefetchCount` deliveries are neither acked nor nacked; the callbacks take
turns at the calls they await. An exception that leaves a callback is logged, and
that is the end of the callback. `except Exception` lets the exceptions of Python
through that are none of its class `Exception`, such as `asyncio.CancelledError`.

`loads` stands for `json.loads` of a text, which raises or has a value; it is
arbitrary. `decode` is the decoding of bytes as UTF-8.
-/

namespace FlashSale

namespace Consumer

/-! ## The bytes of a message -/

/-- A continuation byte. -/
def continuation (b : UInt8) : Bool := 0x80 ≤ b ∧ b ≤ 0xBF

/-- The character with the given leading bits and continuation bytes. -/
def scalar (lead : ℕ) (bytes : List UInt8) : Char :=
  Char.ofNat (bytes.foldl (fun n b => n * 64 + (b.toNat - 0x80)) lead)

/-- `bytes.decode("utf-8")`; `none` when it raises. The second byte of a sequence
rules out overlong forms, surrogates and what is above U+10FFFF. -/
def decode : List UInt8 → Option (List Char)
  | [] => some []
  | a :: rest =>
      if a < 0x80 then (decode rest).map (scalar a.toNat [] :: ·)
      else
        match rest with
        | [] => none
        | b :: rest =>
            if 0xC2 ≤ a ∧ a ≤ 0xDF ∧ continuation b then
              (decode rest).map (scalar (a.toNat - 0xC0) [b] :: ·)
            else
              match rest with
              | [] => none
              | c :: rest =>
                  if 0xE0 ≤ a ∧ a ≤ 0xEF ∧ continuation b ∧ continuation c ∧
                      (a = 0xE0 → 0xA0 ≤ b) ∧ (a = 0xED → b ≤ 0x9F) then
                    (decode rest).map (scalar (a.toNat - 0xE0) [b, c] :: ·)
                  else
                    match rest with
                    | [] => none
                    | d :: rest =>
                        if 0xF0 ≤ a ∧ a ≤ 0xF4 ∧ continuation b ∧ continuation c ∧
                            continuation d ∧ (a = 0xF0 → 0x90 ≤ b) ∧ (a = 0xF4 → b ≤ 0x8F) then
                          (decode rest).map (scalar (a.toNat - 0xF0) [b, c, d] :: ·)
                        else none

example : decode [0x7B, 0xC3, 0xA9, 0xE2, 0x82, 0xAC, 0xF0, 0x9F, 0x98, 0x80, 0x7D] =
    some "{é€😀}".toList := by decide

/-- `AbstractIncomingMessage`, as far as the callback reads it. -/
structure IncomingMessage where
  routingKey : Option String
  body : List UInt8
deriving DecidableEq

/-! ## The callback -/

section Callback

variable {J : Type}

/-- The calls that the callback awaits. -/
inductive Call (J : Type)
  | handler (routingKey : String) (payload : J)
  | ack
  | nack (requeue : Bool)
deriving DecidableEq

/-- How a call ends: it returns, raises an `Exception`, or raises something else. -/
inductive Ending
  | returns
  | raises
  | escapes
deriving DecidableEq

/-- What is raised: an `Exception`, or another `BaseException`. -/
inductive Raised
  | exception
  | other
deriving DecidableEq

/-- A program of the consumer. A call answers how it has ended. -/
abbrev Callback (J : Type) := ExceptT Raised (Prog (Call J) fun _ => Ending)

/-- Awaiting a call: an exception of the call is one of the program. -/
def await (e : Call J) : Callback J Unit := do
  match ← (Prog.await e : Prog (Call J) (fun _ => Ending) Ending) with
  | .returns => return ()
  | .raises => throw .exception
  | .escapes => throw .other

/-- `try` with a handler `except Exception`. -/
def exceptException (body handler : Callback J Unit) : Callback J Unit :=
  tryCatch body fun
    | .exception => handler
    | .other => throw .other

/-- `_on_message`. The body is read before the `try`. -/
def onMessage (loads : List Char → Option J) (message : IncomingMessage) : Callback J Unit :=
  match (decode message.body).bind loads with
  | none => throw .exception
  | some payload =>
      exceptException
        (do
          await (.handler (message.routingKey.getD "") payload)
          await .ack)
        (await (.nack true))

end Callback

/-! ## The channel -/

/-- `prefetch_count`. -/
def prefetchCount : ℕ := 20

/-- A delivery: its message, what is left of its callback, how the handler has ended,
and how often the message was acked and nacked. -/
structure Delivery (J : Type) where
  message : IncomingMessage
  callback : Prog (Call J) (fun _ => Ending) (Except Raised Unit)
  handled : Option Ending
  acks : ℕ
  nacks : ℕ

variable {J : Type}

namespace Delivery

/-- The callback has not ended. -/
def running (d : Delivery J) : Bool := d.callback.waiting

/-- The message is neither acked nor nacked. -/
def unsettled (d : Delivery J) : Bool := d.acks + d.nacks = 0

/-- The callback goes on with the answer to the call that it awaits. Acking and
nacking succeed. -/
def resume (d : Delivery J) (answer : Ending) : Option (Delivery J) :=
  match d.callback with
  | .call (.handler _ _) k => some { d with callback := k answer, handled := some answer }
  | .call .ack k =>
      if answer = .returns then some { d with callback := k answer, acks := d.acks + 1 }
      else none
  | .call (.nack _) k =>
      if answer = .returns then some { d with callback := k answer, nacks := d.nacks + 1 }
      else none
  | _ => none

/-- When the callback has ended, the message has been acked or nacked once, and acked
only if the handler has returned. -/
def Settles (d : Delivery J) : Prop :=
  d.running = false → d.acks + d.nacks = 1 ∧ (0 < d.acks → d.handled = some .returns)

end Delivery

/-- The deliveries of a channel in their order. -/
abbrev Channel (J : Type) := List (Delivery J)

/-- A message is delivered, or a call of a callback ends. -/
inductive Action
  | deliver (message : IncomingMessage)
  | answer (tag : ℕ) (answer : Ending)

/-- The deliveries that are neither acked nor nacked. -/
def unsettled (s : Channel J) : List (Delivery J) := s.filter Delivery.unsettled

/-- The deliveries whose callbacks are still running. -/
def running (s : Channel J) : List (Delivery J) := s.filter Delivery.running

def step (loads : List Char → Option J) (s : Channel J) : Action → Option (Channel J)
  | .deliver message =>
      if (unsettled s).length < prefetchCount then
        some (s ++ [⟨message, (onMessage loads message).run, none, 0, 0⟩])
      else none
  | .answer tag answer =>
      s[tag]?.bind fun d => (d.resume answer).map fun d' => s.set tag d'

/-- Every delivery whose callback has ended is settled, so that none of the unsettled
deliveries in the window is dead: they are no more than the running callbacks. -/
structure EverySettled (s : Channel J) : Prop where
  settles : ∀ d ∈ s, d.Settles
  alive : ∀ d ∈ unsettled s, d.running = true
  window : (unsettled s).length ≤ (running s).length

/-! ## Where a callback stands -/

section Stages

variable {loads : List Char → Option J} {s t : Channel J} {d d' : Delivery J}

/-- The message can be read: its body is UTF-8, and JSON. -/
def Readable (loads : List Char → Option J) (message : IncomingMessage) : Prop :=
  ((decode message.body).bind loads).isSome = true

/-- The callback once the handler has returned. -/
def acking : Callback J Unit := exceptException (await .ack) (await (.nack true))

/-- The callback once the handler has raised an `Exception`. -/
def nacking : Callback J Unit := await (.nack true)

theorem onMessage_unreadable {message : IncomingMessage} (h : ¬ Readable loads message) :
    onMessage loads message = throw .exception := by
  cases hread : (decode message.body).bind loads with
  | none => rw [onMessage, hread]
  | some payload => exact absurd (by rw [Readable, hread]; rfl) h

theorem onMessage_of_loads {message : IncomingMessage} {payload : J}
    (h : (decode message.body).bind loads = some payload) :
    (onMessage loads message).run =
      .call (.handler (message.routingKey.getD "") payload) fun
        | .returns => acking.run
        | .raises => nacking.run
        | .escapes => .ret (.error .other) := by
  rw [onMessage, h]
  refine congrArg (Prog.call _) (funext fun ending => ?_)
  cases ending <;> rfl

/-- Where a callback stands: it could not read its message, is in the handler, settles
the message or has settled it, or was left by what the handler has raised. -/
inductive Stage (loads : List Char → Option J) : Delivery J → Prop
  | dead {message : IncomingMessage} (h : ¬ Readable loads message) :
      Stage loads ⟨message, .ret (.error .exception), none, 0, 0⟩
  | handling {message : IncomingMessage} (h : Readable loads message) :
      Stage loads ⟨message, (onMessage loads message).run, none, 0, 0⟩
  | acking {message : IncomingMessage} (h : Readable loads message) :
      Stage loads ⟨message, acking.run, some .returns, 0, 0⟩
  | nacking {message : IncomingMessage} (h : Readable loads message) :
      Stage loads ⟨message, nacking.run, some .raises, 0, 0⟩
  | escaped {message : IncomingMessage} (h : Readable loads message) :
      Stage loads ⟨message, .ret (.error .other), some .escapes, 0, 0⟩
  | acked {message : IncomingMessage} (h : Readable loads message) :
      Stage loads ⟨message, .ret (.ok ()), some .returns, 1, 0⟩
  | nacked {message : IncomingMessage} (h : Readable loads message) :
      Stage loads ⟨message, .ret (.ok ()), some .raises, 0, 1⟩

theorem stage_new (message : IncomingMessage) :
    Stage loads ⟨message, (onMessage loads message).run, none, 0, 0⟩ := by
  by_cases h : Readable loads message
  · exact .handling h
  · rw [onMessage_unreadable h]
    exact .dead h

theorem Stage.resume {answer : Ending} (h : Stage loads d) (hd : d.resume answer = some d') :
    Stage loads d' := by
  cases h with
  | dead _ => cases hd
  | @handling message hread =>
      obtain ⟨payload, hpayload⟩ := Option.isSome_iff_exists.1 hread
      simp only [Delivery.resume, onMessage_of_loads hpayload] at hd
      cases hd
      cases answer with
      | returns => exact .acking hread
      | raises => exact .nacking hread
      | escapes => exact .escaped hread
  | acking hread =>
      cases answer with
      | returns =>
          cases hd
          exact .acked hread
      | raises => cases hd
      | escapes => cases hd
  | nacking hread =>
      cases answer with
      | returns =>
          cases hd
          exact .nacked hread
      | raises => cases hd
      | escapes => cases hd
  | escaped _ => cases hd
  | acked _ => cases hd
  | nacked _ => cases hd

/-- A callback settles its message exactly if it can read it and its handler does not
raise what it does not catch. -/
theorem Stage.settles_iff_caught (h : Stage loads d) :
    d.Settles ↔ Readable loads d.message ∧ d.handled ≠ some .escapes := by
  cases h with
  | dead hread =>
      refine iff_of_false (fun hsettles => ?_) fun hboth => hread hboth.1
      cases (hsettles rfl).1
  | @handling message hread =>
      obtain ⟨payload, hpayload⟩ := Option.isSome_iff_exists.1 hread
      refine iff_of_true (fun hended => ?_) ⟨hread, nofun⟩
      simp [Delivery.running, onMessage_of_loads hpayload, Prog.waiting] at hended
  | acking hread => exact iff_of_true (fun hended => by cases hended) ⟨hread, nofun⟩
  | nacking hread => exact iff_of_true (fun hended => by cases hended) ⟨hread, nofun⟩
  | escaped hread =>
      refine iff_of_false (fun hsettles => ?_) fun hboth => hboth.2 rfl
      cases (hsettles rfl).1
  | acked hread => exact iff_of_true (fun _ => ⟨rfl, fun _ => rfl⟩) ⟨hread, nofun⟩
  | nacked hread =>
      exact iff_of_true (fun _ => ⟨rfl, fun hpos => by cases hpos⟩) ⟨hread, nofun⟩

theorem Delivery.Settles.alive (h : d.Settles) (hunsettled : d.unsettled = true) :
    d.running = true := by
  cases hrunning : d.running with
  | true => rfl
  | false =>
      have hzero : d.acks + d.nacks = 0 := of_decide_eq_true hunsettled
      cases hzero.symm.trans (h hrunning).1

theorem EverySettled.of_settles (h : ∀ d ∈ s, d.Settles) : EverySettled s where
  settles := h
  alive := by
    intro d hd
    obtain ⟨hmem, hunsettled⟩ := List.mem_filter.1 hd
    exact (h d hmem).alive hunsettled
  window := by
    have hsub : List.Sublist (unsettled s) (running s) := by
      have hkeep : (running s).filter Delivery.unsettled = unsettled s := by
        rw [running, unsettled, List.filter_filter]
        refine List.filter_congr fun d hd => ?_
        cases hunsettled : d.unsettled with
        | true => exact (h d hd).alive hunsettled
        | false => rfl
      rw [← hkeep]
      exact List.filter_sublist
    exact hsub.length_le

theorem stage_step {a : Action} (h : ∀ d ∈ s, Stage loads d) (ht : step loads s a = some t) :
    ∀ d ∈ t, Stage loads d := by
  cases a with
  | deliver message =>
      obtain ⟨-, heq⟩ := Option.ite_none_right_eq_some.1 ht
      cases heq
      intro d hd
      rcases List.mem_append.1 hd with hd | hd
      · exact h d hd
      · rw [List.mem_singleton.1 hd]
        exact stage_new message
  | answer tag answer =>
      obtain ⟨d, hd, hrest⟩ := Option.bind_eq_some_iff.1 ht
      obtain ⟨d', hd', rfl⟩ := Option.map_eq_some_iff.1 hrest
      intro e he
      rcases List.mem_or_eq_of_mem_set he with he | rfl
      · exact h e he
      · exact (h d (List.mem_of_getElem? hd)).resume hd'

end Stages

theorem stage_of_run {loads : List Char → Option J} {actions : List Action} {s : Channel J}
    (h : Schedule.run (step loads) [] actions = some s) : ∀ d ∈ s, Stage loads d :=
  Schedule.run_invariant (I := fun u : Channel J => ∀ d ∈ u, Stage loads d)
    (fun _ _ _ hu hstep => stage_step hu hstep) (fun _ hd => by cases hd) h

/-- In every run of the channel, whatever is delivered and however the handlers end: the
deliveries are settled once their callbacks have ended, and the window holds none that is
dead, if and only if every message delivered has a body that is UTF-8 and JSON, and no
handler raises anything but an `Exception`. -/
theorem everySettled_iff {loads : List Char → Option J} {actions : List Action}
    {s : Channel J} (h : Schedule.run (step loads) [] actions = some s) :
    EverySettled s ↔ ∀ d ∈ s, Readable loads d.message ∧ d.handled ≠ some .escapes := by
  have hstages := stage_of_run h
  constructor
  · intro hsettled d hd
    exact (hstages d hd).settles_iff_caught.1 (hsettled.settles d hd)
  · intro hread
    exact .of_settles fun d hd => (hstages d hd).settles_iff_caught.2 (hread d hd)

/-- A message that is delivered, refused by its handler and delivered again. -/
def redelivered : List Action :=
  [.deliver ⟨some "OrderCreated", [0x7B, 0x7D]⟩, .answer 0 .raises, .answer 0 .returns,
    .deliver ⟨some "OrderCreated", [0x7B, 0x7D]⟩, .answer 1 .returns, .answer 1 .returns]

theorem everySettled_redelivered : ∃ s : Channel (List Char),
    Schedule.run (step some) [] redelivered = some s ∧
      (EverySettled s ↔ ∀ d ∈ s, Readable some d.message ∧ d.handled ≠ some .escapes) := by
  have hrun : (Schedule.run (step some) [] redelivered).isSome = true := by decide +kernel
  obtain ⟨s, hs⟩ := Option.isSome_iff_exists.1 hrun
  exact ⟨s, hs, everySettled_iff hs⟩

/-- A body that is not UTF-8. -/
def garbled : IncomingMessage := ⟨some "OrderCreated", [0x7B, 0xFF, 0x7D]⟩

/-- What twenty garbled messages leave behind. -/
def deadChannel : Channel Unit :=
  List.replicate 20 ⟨garbled, .ret (.error .exception), none, 0, 0⟩

/-- What is left of a delivery whose handler was cancelled. -/
def cancelledChannel : Channel Unit :=
  [⟨⟨some "OrderCreated", [0x7B, 0x7D]⟩, .ret (.error .other), some .escapes, 0, 0⟩]

/-- Twenty garbled messages close the window for good: no callback is running, and no
message can be delivered any more. A handler that is cancelled leaves its message
unsettled as well. -/
theorem not_everySettled_garbled :
    Schedule.run (step fun _ => some ()) [] (List.replicate 20 (.deliver garbled)) =
        some deadChannel ∧
      ¬ EverySettled deadChannel ∧ running deadChannel = [] ∧
      (∀ message, step (fun _ => some ()) deadChannel (.deliver message) = none) ∧
      Schedule.run (step fun _ => some ()) []
          [.deliver ⟨some "OrderCreated", [0x7B, 0x7D]⟩, .answer 0 .escapes] =
        some cancelledChannel ∧
      ¬ EverySettled cancelledChannel := by
  refine ⟨rfl, fun hsettled => ?_, rfl, fun _ => rfl, rfl, fun hsettled => ?_⟩
  · have hdead : ⟨garbled, .ret (.error .exception), none, 0, 0⟩ ∈ deadChannel :=
      List.mem_cons_self
    cases (hsettled.settles _ hdead rfl).1
  · cases (hsettled.settles _ List.mem_cons_self rfl).1

end Consumer

end FlashSale
