import Mathlib.Data.List.Nodup
import Sarena.Lib.Channel
import Sarena.Lib.KeyMap
import Sarena.Lib.Prog
import Sarena.Lib.Run

namespace Sarena.Lib

/-!
# Library — an actor behind a bounded channel

One thread owns a state.  It takes commands from a channel, executes them one at a time and
sends each reply to the call that waits for it; a last command ends its loop, and whoever made
that call waits for the end of the thread.  Calls are numbered; a command is queued as the
number of its call, and any call may be given up while it waits.  The thread may unwind in the
middle of a command, and then unwinds whoever joins it.

* `Behaviour` — what a command does, which commands are the last, and what dropping the state does;
* `Actor`, `Actor.Step` — the calls, the channel and the thread, in any interleaving;
* `Sequential` — commands one after the other, with their replies;
* `Actor.Sound` — the invariant: the log of what was executed is sequential and in the order
  of the channel, and every result is that of the log;
* `Actor.answered_of_stuck` — what is left waiting when nothing can happen any more.
-/

variable {E : Type → Type} {γ ρ : Type} {σ : Type*}

/-- Why a call got no reply: nobody takes commands, or nobody will answer this one. -/
inductive Lost
  | gone
  | cancelled
  deriving DecidableEq, Repr

/-- The commands of an actor: their programs, and those after which its loop ends. -/
structure Behaviour (E : Type → Type) (γ ρ : Type) (σ : Type*) where
  sem : Sem E σ
  body : γ → Prog E ρ
  last : γ → Bool
  /-- What is left when the thread drops its state. -/
  drop : σ → σ

/-- The commands, one after the other, lead from one state to another with these replies. -/
def Sequential (b : Behaviour E γ ρ σ) : σ → List (Nat × γ × ρ) → σ → Prop
  | s, [], t => t = s
  | s, (_, c, r) :: rest, t =>
    ∃ tr u, Exec b.sem (b.body c) s tr (.pure r) u ∧ Sequential b u rest t

/-- Where a call stands. -/
inductive Phase (ρ : Type)
  | sending
  /-- The command was sent; waiting for the reply. -/
  | awaiting
  /-- The call of a last command has its result; the handle of the thread is looked for next. -/
  | answered (result : Except Lost ρ)
  /-- Waiting for the end of the thread. -/
  | joining (result : Except Lost ρ)
  | returned (result : Except Lost ρ)
  /-- The caller has given up. -/
  | dropped
  /-- The caller unwound with the thread it had joined. -/
  | panicked

/-- The result a call has got. -/
def Phase.result : Phase ρ → Option (Except Lost ρ)
  | .answered result | .joining result | .returned result => some result
  | _ => none

/-- The call holds a handle of the actor. -/
def Phase.Busy : Phase ρ → Prop
  | .returned _ | .dropped | .panicked => False
  | _ => True

/-- The call of a last command has its result, and is not over. -/
def Phase.Waits : Phase ρ → Prop
  | .answered _ | .joining _ => True
  | _ => False

/-- The call is past the place where the handle of the thread is taken. -/
def Phase.Joined : Phase ρ → Prop
  | .joining _ | .returned _ | .dropped | .panicked => True
  | _ => False

/-- Where the thread stands. -/
inductive Thread (E : Type → Type) (ρ : Type)
  /-- Waiting for a command. -/
  | idle
  | busy (n : Nat) (rest : Prog E ρ)
  /-- Out of the loop; the channel is dropped next. -/
  | leaving
  | exited

namespace Thread

/-- The command that is being executed. -/
def inHand : Thread E ρ → List Nat
  | .busy n _ => [n]
  | _ => []

/-- The loop has ended. -/
def Left : Thread E ρ → Prop
  | .leaving | .exited => True
  | _ => False

end Thread

/-- The calls of an actor, its channel and its thread. -/
structure Actor (E : Type → Type) (γ ρ : Type) (σ : Type*) where
  channel : Channel Nat
  calls : KeyMap Nat (γ × Phase ρ) := .empty
  /-- Some handle is left. -/
  handles : Bool := true
  /-- The call that has taken the handle of the thread. -/
  joiner : Option Nat := none
  thread : Thread E ρ := .idle
  state : σ
  /-- The command in which the thread unwound. -/
  unwound : Option Nat := none
  /-- What was sent to the calls. -/
  replies : KeyMap Nat ρ := .empty
  /-- The commands that were executed, with their replies; no step reads it. -/
  log : List (Nat × γ × ρ) := []

/-- Who takes a step: a caller who makes or drops a call or the last handle, a call on its way,
    or the thread. -/
inductive ActorEvent
  | outside
  | call
  | thread
  deriving DecidableEq, Repr

namespace Actor

variable (b : Behaviour E γ ρ σ)

/-- The thread is spawned. -/
def init (capacity : Nat) (state : σ) : Actor E γ ρ σ where
  channel := { capacity := capacity }
  state := state

/-- A call gets to another place. -/
def setCall (a : Actor E γ ρ σ) (n : Nat) (c : γ) (phase : Phase ρ) : Actor E γ ρ σ :=
  { a with calls := a.calls.insert n (c, phase) }

/-- The call of a last command is not over with its result. -/
def settle (c : γ) (result : Except Lost ρ) : Phase ρ :=
  if b.last c then .answered result else .returned result

/-- The reply is sent, to whoever waits for it. -/
def finish (a : Actor E γ ρ σ) (n : Nat) (c : γ) (r : ρ) : Actor E γ ρ σ :=
  { a with
    thread := if b.last c then .leaving else .idle
    replies := a.replies.insert n r
    log := a.log ++ [(n, c, r)] }

/-- The thread unwinds, and drops the command with the sender of its reply. -/
def unwind (a : Actor E γ ρ σ) (n : Nat) : Actor E γ ρ σ :=
  { a with thread := .leaving, unwound := some n }

/-- The thread has ended: its state is dropped, and then the receiver. -/
def exit (a : Actor E γ ρ σ) : Actor E γ ρ σ :=
  { a with channel := a.channel.dropReceiver, thread := .exited, state := b.drop a.state }

/-- The commands that were received and are not executed: the one in hand, or the one in which
    the thread unwound. -/
def begun (a : Actor E γ ρ σ) : List Nat := a.thread.inHand ++ a.unwound.toList

/-- The sender of the reply was dropped with the command.  A command that got into the channel
    after the receiver was dropped stays there, and the sender of its reply with it. -/
def Forsaken (a : Actor E γ ρ σ) (n : Nat) : Prop :=
  a.unwound = some n ∨ a.thread = .exited ∧ n ∉ a.channel.queue

/-- Callers and the thread, in any order. -/
inductive Step : Actor E γ ρ σ → ActorEvent → Actor E γ ρ σ → Prop
  | make (a : Actor E γ ρ σ) (n : Nat) (c : γ) (hhandles : a.handles = true)
      (hn : a.calls n = none) : Step a .outside (a.setCall n c .sending)
  | reserve (a : Actor E γ ρ σ) (n : Nat) (c : γ) (hcall : a.calls n = some (c, .sending))
      (hn : n ∉ a.channel.reserved) (channel : Channel Nat)
      (hreserve : a.channel.reserve n = some channel) : Step a .call { a with channel := channel }
  | push (a : Actor E γ ρ σ) (n : Nat) (c : γ) (hcall : a.calls n = some (c, .sending))
      (hn : n ∈ a.channel.reserved) :
      Step a .call { a.setCall n c .awaiting with channel := a.channel.push n }
  | refused (a : Actor E γ ρ σ) (n : Nat) (c : γ) (hcall : a.calls n = some (c, .sending))
      (hn : n ∉ a.channel.reserved) (hclosed : a.channel.closed = true) :
      Step a .call (a.setCall n c (settle b c (.error .gone)))
  | replied (a : Actor E γ ρ σ) (n : Nat) (c : γ) (hcall : a.calls n = some (c, .awaiting)) (r : ρ)
      (hreply : a.replies n = some r) : Step a .call (a.setCall n c (settle b c (.ok r)))
  | lost (a : Actor E γ ρ σ) (n : Nat) (c : γ) (hcall : a.calls n = some (c, .awaiting))
      (hforsaken : a.Forsaken n) (hreply : a.replies n = none) :
      Step a .call (a.setCall n c (settle b c (.error .cancelled)))
  | join (a : Actor E γ ρ σ) (n : Nat) (c : γ) (result : Except Lost ρ)
      (hcall : a.calls n = some (c, .answered result)) (hjoiner : a.joiner = none) :
      Step a .call { a.setCall n c (.joining result) with joiner := some n }
  /-- Somebody else has taken the handle of the thread. -/
  | taken (a : Actor E γ ρ σ) (n : Nat) (c : γ) (result : Except Lost ρ)
      (hcall : a.calls n = some (c, .answered result)) (m : Nat) (hjoiner : a.joiner = some m) :
      Step a .call (a.setCall n c (.returned result))
  | joined (a : Actor E γ ρ σ) (n : Nat) (c : γ) (result : Except Lost ρ)
      (hcall : a.calls n = some (c, .joining result)) (hexit : a.thread = .exited)
      (hunwound : a.unwound = none) : Step a .call (a.setCall n c (.returned result))
  /-- The thread that is joined had unwound. -/
  | panic (a : Actor E γ ρ σ) (n : Nat) (c : γ) (result : Except Lost ρ)
      (hcall : a.calls n = some (c, .joining result)) (hexit : a.thread = .exited)
      (hunwound : a.unwound ≠ none) : Step a .call (a.setCall n c .panicked)
  /-- A call is dropped at one of its await points. -/
  | giveUp (a : Actor E γ ρ σ) (n : Nat) (c : γ) (phase : Phase ρ)
      (hcall : a.calls n = some (c, phase))
      (hphase : phase = .sending ∧ n ∉ a.channel.reserved ∨ phase = .awaiting ∨
        ∃ result, phase = .joining result) : Step a .outside (a.setCall n c .dropped)
  /-- The last handle is not dropped while a call borrows it. -/
  | drop (a : Actor E γ ρ σ) (hcalls : ∀ n c phase, a.calls n = some (c, phase) → ¬ phase.Busy) :
      Step a .outside { a with handles := false }
  | receive (a : Actor E γ ρ σ) (hidle : a.thread = .idle) (n : Nat) (channel : Channel Nat)
      (hrecv : a.channel.recv = some (n, channel)) (c : γ) (phase : Phase ρ)
      (hcall : a.calls n = some (c, phase)) :
      Step a .thread { a with channel := channel, thread := .busy n (b.body c) }
  /-- All senders are gone. -/
  | disconnected (a : Actor E γ ρ σ) (hidle : a.thread = .idle) (hqueue : a.channel.queue = [])
      (hhandles : a.handles = false) : Step a .thread { a with thread := .leaving }
  /-- One operation of the command. -/
  | work (a : Actor E γ ρ σ) (n : Nat) {β : Type} (e : E β) (k : β → Prog E ρ)
      (hbusy : a.thread = .busy n (.op e k)) (x : β) (t : σ) (hsem : b.sem β e a.state x t) :
      Step a .thread { a with thread := .busy n (k x), state := t }
  | finish (a : Actor E γ ρ σ) (n : Nat) (r : ρ) (hbusy : a.thread = .busy n (.pure r)) (c : γ)
      (phase : Phase ρ) (hcall : a.calls n = some (c, phase)) : Step a .thread (a.finish b n c r)
  /-- The thread unwinds, before or after any operation of the command. -/
  | unwind (a : Actor E γ ρ σ) (n : Nat) (rest : Prog E ρ) (hbusy : a.thread = .busy n rest) :
      Step a .thread (a.unwind n)
  | exit (a : Actor E γ ρ σ) (hleaving : a.thread = .leaving) : Step a .thread (a.exit b)

/-! ### The channel -/

/-- Commands are received in the order of the channel, and executed in the order in which they
    are received. -/
structure Ordered (a : Actor E γ ρ σ) : Prop where
  received : a.channel.received = a.log.map Prod.fst ++ a.begun
  unwound : a.unwound ≠ none → a.thread.Left
  fifo : a.thread ≠ .exited → a.channel.Fifo
  /-- Some commands were dropped with the receiver. -/
  split : ∃ dropped, a.channel.accepted = a.channel.received ++ dropped ++ a.channel.queue
  closed : a.channel.closed = true ↔ a.thread = .exited

variable {b} {a a' : Actor E γ ρ σ} {e : ActorEvent}

theorem finish_not_exited (a : Actor E γ ρ σ) (n : Nat) (c : γ) (r : ρ) :
    (a.finish b n c r).thread ≠ .exited := by
  show (if b.last c then Thread.leaving else .idle) ≠ .exited
  split
  · exact fun h => by cases h
  · exact fun h => by cases h

theorem begun_finish (hunwound : a.unwound = none) (n : Nat) (c : γ) (r : ρ) :
    (a.finish b n c r).begun = [] := by
  show (if b.last c then Thread.leaving else .idle).inHand ++ a.unwound.toList = []
  rw [hunwound]
  split
  · rfl
  · rfl

theorem Ordered.setCall (h : a.Ordered) (n : Nat) (c : γ) (phase : Phase ρ) :
    (a.setCall n c phase).Ordered := ⟨h.received, h.unwound, h.fifo, h.split, h.closed⟩

/-- Where the loop goes on, the thread has not unwound. -/
theorem Ordered.unwound_eq (h : a.Ordered) (hlive : ¬ a.thread.Left) : a.unwound = none :=
  not_not.mp fun hunwound => hlive (h.unwound hunwound)

/-- The channel stays open while the thread has not ended. -/
theorem Ordered.closed_iff (h : a.Ordered) (hlive : a.thread ≠ .exited) {thread : Thread E ρ}
    (hthread : thread ≠ .exited) : a.channel.closed = true ↔ thread = .exited :=
  iff_of_false (mt h.closed.mp hlive) hthread

theorem begun_eq (hunwound : a.unwound = none) : a.begun = a.thread.inHand := by
  rw [begun, hunwound]
  exact List.append_nil _

theorem Ordered.step (h : a.Ordered) (hstep : Step b a e a') : a'.Ordered := by
  cases hstep with
  | make n c => exact h.setCall n c _
  | reserve n c _ _ channel hreserve =>
    obtain ⟨-, rfl⟩ := Channel.reserve_eq_some hreserve
    exact ⟨h.received, h.unwound, h.fifo, h.split, h.closed⟩
  | push n =>
    obtain ⟨dropped, hsplit⟩ := h.split
    refine ⟨h.received, h.unwound, fun hlive => (h.fifo hlive).push, ⟨dropped, ?_⟩, h.closed⟩
    show a.channel.accepted ++ [n] = a.channel.received ++ dropped ++ (a.channel.queue ++ [n])
    rw [hsplit, List.append_assoc _ _ [n]]
  | refused n c => exact h.setCall n c _
  | replied n c => exact h.setCall n c _
  | lost n c => exact h.setCall n c _
  | join n c => exact ⟨h.received, h.unwound, h.fifo, h.split, h.closed⟩
  | taken n c => exact h.setCall n c _
  | joined n c => exact h.setCall n c _
  | panic n c => exact h.setCall n c _
  | giveUp n c => exact h.setCall n c _
  | drop => exact ⟨h.received, h.unwound, h.fifo, h.split, h.closed⟩
  | receive hidle n channel hrecv =>
    have hlive : a.thread ≠ .exited := fun hexit => by cases hidle.symm.trans hexit
    have hunwound := h.unwound_eq (hidle ▸ id)
    have hfifo := (h.fifo hlive).recv hrecv
    have hreceived := h.received
    obtain ⟨queue, -, rfl⟩ := Channel.recv_eq_some hrecv
    rw [begun_eq hunwound, hidle] at hreceived
    refine ⟨?_, fun hsome => absurd hunwound hsome, fun _ => hfifo, ⟨[], ?_⟩,
      h.closed_iff hlive fun hexit => by cases hexit⟩
    · show a.channel.received ++ [n] = a.log.map Prod.fst ++ ([n] ++ a.unwound.toList)
      rw [hunwound, hreceived]
      exact congrArg (· ++ [n]) (List.append_nil _)
    · rw [List.append_nil]
      exact hfifo
  | disconnected hidle =>
    have hlive : a.thread ≠ .exited := fun hexit => by cases hidle.symm.trans hexit
    have hreceived := h.received
    rw [begun, hidle] at hreceived
    exact ⟨hreceived, fun _ => trivial, fun _ => h.fifo hlive, h.split,
      h.closed_iff hlive fun hexit => by cases hexit⟩
  | work n e k hbusy =>
    have hlive : a.thread ≠ .exited := fun hexit => by cases hbusy.symm.trans hexit
    have hreceived := h.received
    rw [begun, hbusy] at hreceived
    exact ⟨hreceived, fun hsome => absurd (h.unwound_eq (hbusy ▸ id)) hsome,
      fun _ => h.fifo hlive, h.split,
      h.closed_iff hlive fun hexit => by cases hexit⟩
  | finish n r hbusy c =>
    have hlive : a.thread ≠ .exited := fun hexit => by cases hbusy.symm.trans hexit
    have hunwound := h.unwound_eq (hbusy ▸ id)
    have hreceived := h.received
    rw [begun_eq hunwound, hbusy] at hreceived
    refine ⟨?_, fun hsome => absurd hunwound hsome, fun _ => h.fifo hlive, h.split,
      h.closed_iff hlive (finish_not_exited a n c r)⟩
    rw [begun_finish hunwound, List.append_nil]
    exact hreceived.trans (List.map_append.symm : _ = List.map Prod.fst (a.log ++ [(n, c, r)]))
  | unwind n rest hbusy =>
    have hlive : a.thread ≠ .exited := fun hexit => by cases hbusy.symm.trans hexit
    have hreceived := h.received
    rw [begun_eq (h.unwound_eq (hbusy ▸ id)), hbusy] at hreceived
    exact ⟨hreceived, fun _ => trivial, fun _ => h.fifo hlive, h.split,
      h.closed_iff hlive fun hexit => by cases hexit⟩
  | exit hleaving =>
    have hreceived := h.received
    rw [begun, hleaving] at hreceived
    obtain ⟨dropped, hsplit⟩ := h.split
    refine ⟨hreceived, fun _ => trivial, fun hlive => absurd rfl hlive,
      ⟨dropped ++ a.channel.queue, ?_⟩, iff_of_true rfl rfl⟩
    show a.channel.accepted = a.channel.received ++ (dropped ++ a.channel.queue) ++ []
    rw [hsplit, List.append_nil, List.append_assoc]

theorem Ordered.before (h : a.Ordered) : a.channel.received <+: a.channel.accepted := by
  obtain ⟨dropped, hsplit⟩ := h.split
  exact ⟨dropped ++ a.channel.queue, by rw [hsplit, List.append_assoc]⟩

/-! ### The calls -/

/-- A command gets into the channel once, when its call stops `sending`. -/
structure Placed (a : Actor E γ ρ σ) : Prop where
  once : a.channel.accepted.Nodup
  reservedOnce : a.channel.reserved.Nodup
  reserved : ∀ n ∈ a.channel.reserved, ∃ c, a.calls n = some (c, .sending)
  accepted : ∀ n ∈ a.channel.accepted, ∃ c phase, a.calls n = some (c, phase) ∧ phase ≠ .sending
  awaiting : ∀ n c, a.calls n = some (c, .awaiting) → n ∈ a.channel.accepted

theorem setCall_calls (a : Actor E γ ρ σ) (n : Nat) (c : γ) (phase : Phase ρ) (m : Nat) :
    (a.setCall n c phase).calls m = if m = n then some (c, phase) else a.calls m :=
  KeyMap.insert_apply _ _ _ _

theorem Placed.setCall (h : a.Placed) {n : Nat} {c : γ} {phase : Phase ρ}
    (hreserved : n ∉ a.channel.reserved) (hsending : n ∈ a.channel.accepted → phase ≠ .sending)
    (hawaiting : phase ≠ .awaiting) : (a.setCall n c phase).Placed where
  once := h.once
  reservedOnce := h.reservedOnce
  reserved m hm := by
    have hmn : m ≠ n := fun hmn => hreserved (hmn ▸ hm)
    rw [setCall_calls, if_neg hmn]
    exact h.reserved m hm
  accepted m hm := by
    rw [setCall_calls]
    split
    · next hmn => exact ⟨c, phase, rfl, hsending (hmn ▸ hm)⟩
    · exact h.accepted m hm
  awaiting m d hcall := by
    rw [setCall_calls] at hcall
    split at hcall
    · exact absurd (Prod.mk.inj (Option.some.inj hcall)).2 hawaiting
    · exact h.awaiting m d hcall

theorem Placed.not_reserved (h : a.Placed) {n : Nat} {c : γ} {phase : Phase ρ}
    (hcall : a.calls n = some (c, phase)) (hphase : phase ≠ .sending) :
    n ∉ a.channel.reserved := by
  intro hn
  obtain ⟨d, hd⟩ := h.reserved n hn
  cases hcall.symm.trans hd
  exact hphase rfl

theorem settle_ne_sending (c : γ) (result : Except Lost ρ) : settle b c result ≠ .sending := by
  unfold settle
  split
  · exact fun h => by cases h
  · exact fun h => by cases h

theorem settle_ne_awaiting (c : γ) (result : Except Lost ρ) : settle b c result ≠ .awaiting := by
  unfold settle
  split
  · exact fun h => by cases h
  · exact fun h => by cases h

theorem Placed.push (h : a.Placed) {n : Nat} {c : γ} (hcall : a.calls n = some (c, .sending)) :
    ({ a.setCall n c .awaiting with channel := a.channel.push n } : Actor E γ ρ σ).Placed where
  once := by
    refine List.Nodup.append h.once (List.nodup_singleton n) ?_
    intro m hm hmn
    obtain rfl := List.mem_singleton.mp hmn
    obtain ⟨d, phase, hd, hphase⟩ := h.accepted m hm
    cases hcall.symm.trans hd
    exact hphase rfl
  reservedOnce := h.reservedOnce.erase n
  reserved m hm := by
    obtain ⟨hmn, hm⟩ := h.reservedOnce.mem_erase_iff.mp hm
    show ∃ d, (a.setCall n c .awaiting).calls m = _
    rw [setCall_calls, if_neg hmn]
    exact h.reserved m hm
  accepted m hm := by
    show ∃ d phase, (a.setCall n c .awaiting).calls m = _ ∧ _
    rw [setCall_calls]
    split
    · exact ⟨c, .awaiting, rfl, fun h => by cases h⟩
    · next hmn =>
      refine h.accepted m ((List.mem_append.mp hm).resolve_right fun hm => ?_)
      exact hmn (List.mem_singleton.mp hm)
  awaiting m d hd := by
    show m ∈ a.channel.accepted ++ [n]
    change (a.setCall n c .awaiting).calls m = _ at hd
    rw [setCall_calls] at hd
    split at hd
    · next hmn => exact List.mem_append_right _ (hmn ▸ List.mem_singleton_self n)
    · exact List.mem_append_left _ (h.awaiting m d hd)

theorem Placed.step (h : a.Placed) (hstep : Step b a e a') : a'.Placed := by
  cases hstep with
  | make n c _ hn =>
    refine h.setCall (fun hmem => ?_) (fun hmem => ?_) fun h => by cases h
    · obtain ⟨d, hd⟩ := h.reserved n hmem
      cases hn.symm.trans hd
    · obtain ⟨d, phase, hd, -⟩ := h.accepted n hmem
      cases hn.symm.trans hd
  | reserve n c hcall hn channel hreserve =>
    obtain ⟨-, rfl⟩ := Channel.reserve_eq_some hreserve
    refine ⟨h.once, List.nodup_cons.mpr ⟨hn, h.reservedOnce⟩, fun m hm => ?_, h.accepted,
      h.awaiting⟩
    rcases List.mem_cons.mp hm with rfl | hm
    · exact ⟨c, hcall⟩
    · exact h.reserved m hm
  | push n c hcall => exact h.push hcall
  | refused n c _ hn =>
    exact h.setCall hn (fun _ => settle_ne_sending c _) (settle_ne_awaiting c _)
  | replied n c hcall =>
    exact h.setCall (h.not_reserved hcall fun h => by cases h) (fun _ => settle_ne_sending c _)
      (settle_ne_awaiting c _)
  | lost n c hcall =>
    exact h.setCall (h.not_reserved hcall fun h => by cases h) (fun _ => settle_ne_sending c _)
      (settle_ne_awaiting c _)
  | join n c result hcall =>
    have hplaced : (a.setCall n c (.joining result)).Placed := h.setCall
      (h.not_reserved hcall fun h => by cases h) (fun _ h => by cases h) fun h => by cases h
    exact ⟨hplaced.once, hplaced.reservedOnce, hplaced.reserved, hplaced.accepted,
      hplaced.awaiting⟩
  | taken n c result hcall =>
    exact h.setCall (h.not_reserved hcall fun h => by cases h) (fun _ h => by cases h)
      fun h => by cases h
  | joined n c result hcall =>
    exact h.setCall (h.not_reserved hcall fun h => by cases h) (fun _ h => by cases h)
      fun h => by cases h
  | panic n c result hcall =>
    exact h.setCall (h.not_reserved hcall fun h => by cases h) (fun _ h => by cases h)
      fun h => by cases h
  | giveUp n c phase hcall hphase =>
    refine h.setCall ?_ (fun _ h => by cases h) fun h => by cases h
    rcases hphase with ⟨-, hn⟩ | rfl | ⟨result, rfl⟩
    · exact hn
    · exact h.not_reserved hcall fun h => by cases h
    · exact h.not_reserved hcall fun h => by cases h
  | drop => exact ⟨h.once, h.reservedOnce, h.reserved, h.accepted, h.awaiting⟩
  | receive _ n channel hrecv =>
    obtain ⟨queue, -, rfl⟩ := Channel.recv_eq_some hrecv
    exact ⟨h.once, h.reservedOnce, h.reserved, h.accepted, h.awaiting⟩
  | disconnected => exact ⟨h.once, h.reservedOnce, h.reserved, h.accepted, h.awaiting⟩
  | work => exact ⟨h.once, h.reservedOnce, h.reserved, h.accepted, h.awaiting⟩
  | finish => exact ⟨h.once, h.reservedOnce, h.reserved, h.accepted, h.awaiting⟩
  | unwind => exact ⟨h.once, h.reservedOnce, h.reserved, h.accepted, h.awaiting⟩
  | exit => exact ⟨h.once, h.reservedOnce, h.reserved, h.accepted, h.awaiting⟩

/-! ### The results -/

/-- No reply will come to the call: the thread unwound in its command, or has ended. -/
def Over (a : Actor E γ ρ σ) (n : Nat) : Prop := a.unwound = some n ∨ a.thread = .exited

/-- What the log says is what was replied, and a call without a reply was not executed. -/
structure Answered (a : Actor E γ ρ σ) : Prop where
  entry : ∀ n c r, (n, c, r) ∈ a.log → a.replies n = some r ∧ ∃ phase, a.calls n = some (c, phase)
  reply : ∀ n r, a.replies n = some r → ∃ c, (n, c, r) ∈ a.log
  ok : ∀ n c phase r, a.calls n = some (c, phase) → phase.result = some (.ok r) →
    (n, c, r) ∈ a.log
  error : ∀ n c phase lost, a.calls n = some (c, phase) → phase.result = some (.error lost) →
    a.Over n ∧ n ∉ a.log.map Prod.fst ∧ (lost = .gone → n ∉ a.channel.accepted)

theorem Over.left (h : a.Ordered) {n : Nat} (hn : a.Over n) : a.thread.Left := by
  rcases hn with hunwound | hexit
  · exact h.unwound (Option.ne_none_iff_exists'.mpr ⟨n, hunwound⟩)
  · exact hexit ▸ trivial

theorem Forsaken.over {n : Nat} (hn : a.Forsaken n) : a.Over n := hn.imp_right And.left

theorem settle_result (c : γ) (result : Except Lost ρ) : (settle b c result).result = result := by
  unfold settle
  split
  · rfl
  · rfl

/-- A call has one command. -/
theorem command_eq {n : Nat} {c : γ} {phase : Phase ρ} (hcall : a.calls n = some (c, phase)) :
    ∀ d phase', a.calls n = some (d, phase') → d = c := by
  intro d phase' hd
  cases hcall.symm.trans hd
  rfl

/-- A call keeps its command when it gets to another place. -/
theorem exists_setCall {n m : Nat} {c d : γ} {phase phase' : Phase ρ}
    (hn : ∀ d phase, a.calls n = some (d, phase) → d = c) (hm : a.calls m = some (d, phase')) :
    ∃ phase'', (a.setCall n c phase).calls m = some (d, phase'') := by
  rw [setCall_calls]
  split
  · next hmn =>
    obtain rfl := hn d phase' (hmn ▸ hm)
    exact ⟨phase, rfl⟩
  · exact ⟨phase', hm⟩

theorem Answered.setCall (h : a.Answered) {n : Nat} {c : γ} {phase : Phase ρ}
    (hn : ∀ d phase, a.calls n = some (d, phase) → d = c)
    (hok : ∀ r, phase.result = some (.ok r) → (n, c, r) ∈ a.log)
    (herror : ∀ lost, phase.result = some (.error lost) →
      a.Over n ∧ n ∉ a.log.map Prod.fst ∧ (lost = .gone → n ∉ a.channel.accepted)) :
    (a.setCall n c phase).Answered where
  entry m d r hm := by
    obtain ⟨hreply, phase', hcall⟩ := h.entry m d r hm
    exact ⟨hreply, exists_setCall hn hcall⟩
  reply := h.reply
  ok m d phase' r hm hresult := by
    rw [setCall_calls] at hm
    split at hm
    · next hmn =>
      cases hm
      exact hmn ▸ hok r hresult
    · exact h.ok m d phase' r hm hresult
  error m d phase' lost hm hresult := by
    rw [setCall_calls] at hm
    split at hm
    · next hmn =>
      cases hm
      exact hmn ▸ herror lost hresult
    · exact h.error m d phase' lost hm hresult

/-- A command that was begun was not executed before. -/
theorem Ordered.begun_not_mem (h : a.Ordered) (hplaced : a.Placed) {n : Nat} (hn : n ∈ a.begun) :
    n ∉ a.log.map Prod.fst := by
  have hnodup : (a.log.map Prod.fst ++ a.begun).Nodup :=
    h.received ▸ hplaced.once.sublist h.before.sublist
  exact fun hmem => List.disjoint_of_nodup_append hnodup hmem hn

/-- The command in which the thread unwound had been accepted. -/
theorem Ordered.unwound_mem (h : a.Ordered) {n : Nat} (hunwound : a.unwound = some n) :
    n ∈ a.channel.accepted := by
  refine h.before.subset (h.received ▸ List.mem_append_right _ ?_)
  rw [begun, hunwound]
  exact List.mem_append_right _ (List.mem_singleton_self n)

/-- The command in hand was not executed before. -/
theorem Ordered.inHand_not_mem (h : a.Ordered) (hplaced : a.Placed) {n : Nat} {p : Prog E ρ}
    (hbusy : a.thread = .busy n p) : n ∉ a.log.map Prod.fst := by
  refine h.begun_not_mem hplaced ?_
  rw [begun, hbusy]
  exact List.mem_cons_self

/-- A command that was executed was accepted. -/
theorem Ordered.accepted (h : a.Ordered) {n : Nat} (hn : n ∈ a.log.map Prod.fst) :
    n ∈ a.channel.accepted :=
  h.before.subset (h.received ▸ List.mem_append_left _ hn)

theorem Answered.finish (h : a.Answered) (hordered : a.Ordered) (hplaced : a.Placed) {n : Nat}
    {c : γ} {r : ρ} {phase : Phase ρ} (hbusy : a.thread = .busy n (.pure r))
    (hcall : a.calls n = some (c, phase)) : (a.finish b n c r).Answered where
  entry m d x hm := by
    show a.replies.insert n r m = some x ∧ ∃ phase, a.calls m = some (d, phase)
    rcases List.mem_append.mp hm with hm | hm
    · obtain ⟨hreply, hd⟩ := h.entry m d x hm
      have hmn : m ≠ n := fun hmn => hordered.inHand_not_mem hplaced hbusy
        (hmn ▸ List.mem_map_of_mem (f := Prod.fst) hm)
      rw [KeyMap.insert_of_ne _ _ hmn]
      exact ⟨hreply, hd⟩
    · cases List.mem_singleton.mp hm
      exact ⟨KeyMap.insert_self _ _ _, phase, hcall⟩
  reply m x hm := by
    change a.replies.insert n r m = some x at hm
    rw [KeyMap.insert_apply] at hm
    split at hm
    · next hmn =>
      cases hm
      exact ⟨c, List.mem_append_right _ (hmn ▸ List.mem_singleton_self _)⟩
    · obtain ⟨d, hd⟩ := h.reply m x hm
      exact ⟨d, List.mem_append_left _ hd⟩
  ok m d phase' x hm hresult := List.mem_append_left _ (h.ok m d phase' x hm hresult)
  error m d phase' lost hm hresult := by
    have hleft := (h.error m d phase' lost hm hresult).1.left hordered
    exact absurd hleft (hbusy ▸ id)

/-- Where the loop goes on, no call was refused. -/
theorem Answered.thread (h : a.Answered) (hordered : a.Ordered) (hlive : ¬ a.thread.Left)
    (channel : Channel Nat) (thread : Thread E ρ) (state : σ) (unwound : Option Nat) :
    ({ a with
        channel := channel
        thread := thread
        state := state
        unwound := unwound } : Actor E γ ρ σ).Answered :=
  ⟨h.entry, h.reply, h.ok, fun n c phase lost hcall hresult =>
    absurd ((h.error n c phase lost hcall hresult).1.left hordered) hlive⟩

theorem Answered.step (h : a.Answered) (hordered : a.Ordered) (hplaced : a.Placed)
    (hstep : Step b a e a') : a'.Answered := by
  cases hstep with
  | make n c _ hn =>
    exact h.setCall (fun d phase hd => by cases hn.symm.trans hd) (fun r hr => by cases hr)
      fun lost hlost => by cases hlost
  | reserve n c hcall hn channel hreserve =>
    obtain ⟨-, rfl⟩ := Channel.reserve_eq_some hreserve
    exact ⟨h.entry, h.reply, h.ok, h.error⟩
  | push n c hcall =>
    have hanswered : (a.setCall n c .awaiting).Answered := h.setCall (command_eq hcall)
      (fun r hr => by cases hr) fun lost hlost => by cases hlost
    refine ⟨hanswered.entry, hanswered.reply, hanswered.ok, fun m d phase lost hm hlost => ?_⟩
    obtain ⟨hover, hlog, hgone⟩ := hanswered.error m d phase lost hm hlost
    refine ⟨hover, hlog, fun hlost' hmem => ?_⟩
    rcases List.mem_append.mp hmem with hmem | hmem
    · exact hgone hlost' hmem
    · -- The call that was sent is waiting for its reply.
      obtain rfl := List.mem_singleton.mp hmem
      cases (KeyMap.insert_self a.calls m _).symm.trans hm
      cases hlost
  | refused n c hcall hn hclosed =>
    have hnot : n ∉ a.channel.accepted := by
      intro hmem
      obtain ⟨d, phase, hd, hphase⟩ := hplaced.accepted n hmem
      cases hcall.symm.trans hd
      exact hphase rfl
    refine h.setCall (command_eq hcall) (fun r hr => ?_) fun lost _ =>
      ⟨.inr (hordered.closed.mp hclosed), fun hmem => hnot (hordered.accepted hmem), fun _ => hnot⟩
    cases (settle_result c _).symm.trans hr
  | replied n c hcall r hreply =>
    refine h.setCall (command_eq hcall) (fun x hx => ?_) fun lost hlost => ?_
    · cases (settle_result c _).symm.trans hx
      obtain ⟨d, hd⟩ := h.reply n r hreply
      obtain ⟨-, phase, hcall'⟩ := h.entry n d r hd
      cases hcall.symm.trans hcall'
      exact hd
    · cases (settle_result c _).symm.trans hlost
  | lost n c hcall hforsaken hreply =>
    refine h.setCall (command_eq hcall) (fun x hx => ?_) fun lost hlost =>
      ⟨hforsaken.over, fun hmem => ?_, fun hgone => ?_⟩
    · cases (settle_result c _).symm.trans hx
    · obtain ⟨⟨m, d, r⟩, hd, rfl⟩ := List.mem_map.mp hmem
      cases hreply.symm.trans (h.entry m d r hd).1
    · cases (settle_result c _).symm.trans (hgone ▸ hlost)
  | join n c result hcall =>
    have hanswered : (a.setCall n c (.joining result)).Answered := h.setCall (command_eq hcall)
      (fun r hr => h.ok n c _ r hcall hr) fun lost hlost => h.error n c _ lost hcall hlost
    exact ⟨hanswered.entry, hanswered.reply, hanswered.ok, hanswered.error⟩
  | taken n c result hcall =>
    exact h.setCall (command_eq hcall) (fun r hr => h.ok n c _ r hcall hr)
      fun lost hlost => h.error n c _ lost hcall hlost
  | joined n c result hcall =>
    exact h.setCall (command_eq hcall) (fun r hr => h.ok n c _ r hcall hr)
      fun lost hlost => h.error n c _ lost hcall hlost
  | panic n c result hcall =>
    exact h.setCall (command_eq hcall) (fun r hr => by cases hr) fun lost hlost => by cases hlost
  | giveUp n c phase hcall =>
    exact h.setCall (command_eq hcall) (fun r hr => by cases hr) fun lost hlost => by cases hlost
  | drop => exact ⟨h.entry, h.reply, h.ok, h.error⟩
  | receive hidle n channel hrecv =>
    exact h.thread hordered (hidle ▸ id) channel _ a.state a.unwound
  | disconnected hidle =>
    exact h.thread hordered (hidle ▸ id) a.channel _ a.state a.unwound
  | work n e k hbusy => exact h.thread hordered (hbusy ▸ id) a.channel _ _ a.unwound
  | finish n r hbusy c phase hcall => exact h.finish hordered hplaced hbusy hcall
  | unwind n rest hbusy => exact h.thread hordered (hbusy ▸ id) a.channel _ a.state (some n)
  | exit hleaving =>
    exact ⟨h.entry, h.reply, h.ok, fun n c phase lost hcall hlost =>
      ⟨.inr rfl, (h.error n c phase lost hcall hlost).2⟩⟩

/-! ### The end of the thread -/

/-- The loop was ended by a last command. -/
def Broken (b : Behaviour E γ ρ σ) (a : Actor E γ ρ σ) : Prop :=
  ∃ log x, a.log = log ++ [x] ∧ b.last x.2.1 = true ∧ ∀ y ∈ log, b.last y.2.1 = false

/-- The loop ends with a last command, when no handle is left, or with a command in which the
    thread unwinds; and a call of a last command returns when the thread has ended, the one that
    has joined it only if it had not unwound. -/
structure Ended (b : Behaviour E γ ρ σ) (a : Actor E γ ρ σ) : Prop where
  live : ¬ a.thread.Left → ∀ x ∈ a.log, b.last x.2.1 = false
  unwound : a.unwound ≠ none → ∀ x ∈ a.log, b.last x.2.1 = false
  left : a.thread.Left → a.Broken b ∨ a.unwound ≠ none ∨
    a.handles = false ∧ ∀ x ∈ a.log, b.last x.2.1 = false
  refused : ∀ n c phase lost, a.calls n = some (c, phase) → phase.result = some (.error lost) →
    a.Broken b ∨ a.unwound ≠ none
  handles : a.handles = false → ∀ n c phase, a.calls n = some (c, phase) → ¬ phase.Busy
  waits : ∀ n c phase, a.calls n = some (c, phase) → phase.Waits → b.last c = true
  joiner : ∀ m, a.joiner = some m → ∃ c phase, a.calls m = some (c, phase) ∧ phase.Joined ∧
    (a.Over m ∨ ∃ r, (m, c, r) ∈ a.log ∧ b.last c = true)
  spared : ∀ m c result, a.joiner = some m → a.calls m = some (c, .returned result) →
    a.unwound = none
  returned : ∀ n c result, a.calls n = some (c, .returned result) → b.last c = true →
    a.thread = .exited

/-- Only one of the commands executed is a last one. -/
theorem Ended.last_unique (h : a.Ended b) {n m : Nat} {c d : γ} {phase : Phase ρ} {x y : ρ}
    (hcall : a.calls n = some (c, phase)) (hbusy : phase.Busy) (hn : (n, c, x) ∈ a.log)
    (hc : b.last c = true) (hm : (m, d, y) ∈ a.log) (hd : b.last d = true) : n = m := by
  by_cases hleft : a.thread.Left
  · rcases h.left hleft with ⟨log, z, hlog, -, hlive⟩ | hunwound | ⟨hhandles, -⟩
    · have hz : ∀ w ∈ a.log, b.last w.2.1 = true → w = z := by
        intro w hw hlast
        rw [hlog] at hw
        rcases List.mem_append.mp hw with hw | hw
        · cases (hlive w hw).symm.trans hlast
        · exact List.mem_singleton.mp hw
      exact congrArg Prod.fst ((hz _ hn hc).trans (hz _ hm hd).symm)
    · cases (h.unwound hunwound _ hn).symm.trans hc
    · exact absurd hbusy (h.handles hhandles n c phase hcall)
  · cases (h.live hleft _ hn).symm.trans hc

/-- Nobody takes the handle of the thread while the loop goes on. -/
theorem Ended.joiner_eq (h : a.Ended b) (hordered : a.Ordered) (hlive : ¬ a.thread.Left) :
    a.joiner = none := by
  refine Option.eq_none_iff_forall_not_mem.mpr fun m hm => ?_
  obtain ⟨c, phase, -, -, hover | ⟨r, hlog, hlast⟩⟩ := h.joiner m hm
  · exact hlive (hover.left hordered)
  · cases (h.live hlive _ hlog).symm.trans hlast

theorem settle_busy {c : γ} {result : Except Lost ρ} (h : (settle b c result).Busy) :
    b.last c = true := by
  unfold settle at h
  split at h
  · next hlast => exact hlast
  · exact False.elim h

theorem Ended.setCall (h : a.Ended b) {n : Nat} {c : γ} {phase : Phase ρ}
    (hn : ∀ d phase, a.calls n = some (d, phase) → d = c)
    (hhandles : a.handles = false → ¬ phase.Busy) (hwaits : phase.Waits → b.last c = true)
    (hjoiner : a.joiner = some n → phase.Joined)
    (hspared : ∀ result, a.joiner = some n → phase = .returned result → a.unwound = none)
    (hreturned : ∀ result, phase = .returned result → b.last c = true → a.thread = .exited)
    (hrefused : ∀ lost, phase.result = some (.error lost) → a.Broken b ∨ a.unwound ≠ none) :
    (a.setCall n c phase).Ended b where
  live := h.live
  unwound := h.unwound
  left := h.left
  refused m d phase' lost hm hresult := by
    rw [setCall_calls] at hm
    split at hm
    · cases hm
      exact hrefused lost hresult
    · exact h.refused m d phase' lost hm hresult
  handles hhandles' m d phase' hm := by
    rw [setCall_calls] at hm
    split at hm
    · cases hm
      exact hhandles hhandles'
    · exact h.handles hhandles' m d phase' hm
  waits m d phase' hm := by
    rw [setCall_calls] at hm
    split at hm
    · cases hm
      exact hwaits
    · exact h.waits m d phase' hm
  joiner m hm := by
    obtain ⟨d, phase', hd, hphase', hover⟩ := h.joiner m hm
    rw [setCall_calls]
    split
    · next hmn =>
      subst hmn
      obtain rfl := hn d phase' hd
      exact ⟨d, phase, rfl, hjoiner hm, hover⟩
    · exact ⟨d, phase', hd, hphase', hover⟩
  spared m d result hm hd := by
    rw [setCall_calls] at hd
    split at hd
    · next hmn =>
      cases hd
      exact hspared result (hmn ▸ hm) rfl
    · exact h.spared m d result hm hd
  returned m d result hm hlast := by
    rw [setCall_calls] at hm
    split at hm
    · cases hm
      exact hreturned result rfl hlast
    · exact h.returned m d result hm hlast

theorem settle_returned {c : γ} {result result' : Except Lost ρ}
    (h : settle b c result = .returned result') : b.last c = false := by
  unfold settle at h
  split at h
  · cases h
  · next hlast => exact Bool.eq_false_iff.mpr hlast

/-- A call that was on its way gets its result. -/
theorem Ended.settled (h : a.Ended b) {n : Nat} {c : γ} {phase : Phase ρ}
    (hcall : a.calls n = some (c, phase)) (hphase : phase = .sending ∨ phase = .awaiting)
    (result : Except Lost ρ) (hresult : ∀ lost, result = .error lost → a.thread.Left) :
    (a.setCall n c (settle b c result)).Ended b := by
  have hbusy : phase.Busy ∧ ¬ phase.Joined := by
    rcases hphase with rfl | rfl
    · exact ⟨trivial, id⟩
    · exact ⟨trivial, id⟩
  have hjoiner : a.joiner ≠ some n := by
    intro hjoiner
    obtain ⟨d, phase', hd, hjoined, -⟩ := h.joiner n hjoiner
    cases hcall.symm.trans hd
    exact absurd hjoined hbusy.2
  refine h.setCall (command_eq hcall) (fun hhandles => ?_) (fun hwaits => ?_)
    (fun hn => absurd hn hjoiner) (fun _ hn => absurd hn hjoiner)
    (fun result' hsettle hlast => ?_) fun lost hlost => ?_
  · exact absurd hbusy.1 (h.handles hhandles n c phase hcall)
  · refine (settle_busy : (settle b c result).Busy → b.last c = true) ?_
    cases hsettle : settle b c result with
    | answered => trivial
    | joining => trivial
    | _ =>
      rw [hsettle] at hwaits
      exact hwaits.elim
  · cases (settle_returned hsettle).symm.trans hlast
  · have hleft := hresult lost (Option.some.inj ((settle_result c result).symm.trans hlost))
    rcases h.left hleft with hbroken | hunwound | ⟨hhandles, -⟩
    · exact .inl hbroken
    · exact .inr hunwound
    · exact absurd hbusy.1 (h.handles hhandles n c phase hcall)

/-- Where the loop goes on, nothing about its end changes. -/
theorem Ended.goesOn (h : a.Ended b) (hordered : a.Ordered) (hlive : ¬ a.thread.Left)
    {thread : Thread E ρ} (hthread : ¬ thread.Left) (channel : Channel Nat) (state : σ) :
    ({ a with channel := channel, thread := thread, state := state } : Actor E γ ρ σ).Ended b where
  live _ := h.live hlive
  unwound := h.unwound
  left hleft := absurd hleft hthread
  refused := h.refused
  handles := h.handles
  waits := h.waits
  joiner m hm := by cases (h.joiner_eq hordered hlive).symm.trans hm
  spared := h.spared
  returned n c result hcall hlast := absurd (h.returned n c result hcall hlast ▸ trivial) hlive

theorem Ended.finish (h : a.Ended b) (hordered : a.Ordered) (hanswered : a.Answered) {n : Nat}
    {c : γ} {r : ρ} {p : Prog E ρ} (hbusy : a.thread = .busy n p) : (a.finish b n c r).Ended b := by
  have hlive : ¬ a.thread.Left := hbusy ▸ id
  have hunwound := hordered.unwound_eq hlive
  have hjoiner := h.joiner_eq hordered hlive
  refine ⟨fun hleft x hx => ?_, fun hsome => absurd hunwound hsome, fun hleft => ?_,
    fun m d phase lost hcall hlost =>
      absurd ((hanswered.error m d phase lost hcall hlost).1.left hordered) hlive,
    h.handles, h.waits, fun m hm => (by cases hjoiner.symm.trans hm), h.spared,
    fun m d result hcall hlast => absurd (h.returned m d result hcall hlast ▸ trivial) hlive⟩
  · change ¬ (if b.last c then Thread.leaving else .idle).Left at hleft
    split at hleft
    · exact absurd trivial hleft
    · next hlast =>
      rcases List.mem_append.mp hx with hx | hx
      · exact h.live hlive x hx
      · cases List.mem_singleton.mp hx
        exact Bool.eq_false_iff.mpr hlast
  · change (if b.last c then Thread.leaving else .idle).Left at hleft
    split at hleft
    · next hlast => exact .inl ⟨a.log, (n, c, r), rfl, hlast, h.live hlive⟩
    · exact hleft.elim

/-- The end of the thread was reached when the call that has its result finds the handle
    of the thread taken. -/
theorem Ended.exited_of_taken (h : a.Ended b) (hanswered : a.Answered) {n m : Nat} {c : γ}
    {result : Except Lost ρ} (hcall : a.calls n = some (c, .answered result))
    (hjoiner : a.joiner = some m) : a.thread = .exited := by
  have hlast := h.waits n c _ hcall trivial
  obtain ⟨d, phase, hd, hjoined, (hunwound | hexit) | ⟨x, hx, hlast'⟩⟩ := h.joiner m hjoiner
  · -- The thread unwound in the command of the call that has taken the handle.
    have hsome : a.unwound ≠ none := Option.ne_none_iff_exists'.mpr ⟨m, hunwound⟩
    cases result with
    | ok r => cases (h.unwound hsome _ (hanswered.ok n c _ r hcall rfl)).symm.trans hlast
    | error lost =>
      rcases (hanswered.error n c _ lost hcall rfl).1 with hunwound' | hexit
      · obtain rfl := Option.some.inj (hunwound.symm.trans hunwound')
        cases hcall.symm.trans hd
        exact hjoined.elim
      · exact hexit
  · exact hexit
  · cases result with
    | ok r =>
      -- Both were executed, so both are the same call; but that has not taken the handle.
      obtain rfl := h.last_unique hcall trivial (hanswered.ok n c _ r hcall rfl) hlast hx hlast'
      cases hcall.symm.trans hd
      exact hjoined.elim
    | error lost =>
      rcases (hanswered.error n c _ lost hcall rfl).1 with hunwound | hexit
      · cases (h.unwound (Option.ne_none_iff_exists'.mpr ⟨n, hunwound⟩) _ hx).symm.trans hlast'
      · exact hexit

theorem Ended.step (h : a.Ended b) (hordered : a.Ordered) (hanswered : a.Answered)
    (hstep : Step b a e a') : a'.Ended b := by
  have hjoined : ∀ {n c phase}, a.calls n = some (c, phase) → a.joiner = some n →
      phase.Joined := by
    intro n c phase hcall hjoiner
    obtain ⟨d, phase', hd, hjoined, -⟩ := h.joiner n hjoiner
    cases hcall.symm.trans hd
    exact hjoined
  cases hstep with
  | make n c hhandles hn =>
    refine h.setCall (fun d phase hd => by cases hn.symm.trans hd)
      (fun hhandles' => by cases hhandles.symm.trans hhandles') (fun h => h.elim)
      (fun hjoiner => ?_) (fun result _ hresult => by cases hresult)
      (fun result hresult => by cases hresult) fun lost hlost => by cases hlost
    obtain ⟨d, phase, hd, -⟩ := h.joiner n hjoiner
    cases hn.symm.trans hd
  | reserve n c _ _ channel hreserve =>
    exact ⟨h.live, h.unwound, h.left, h.refused, h.handles, h.waits, h.joiner, h.spared,
      h.returned⟩
  | push n c hcall =>
    have hended : (a.setCall n c .awaiting).Ended b :=
      h.setCall (command_eq hcall) (fun hhandles _ => h.handles hhandles n c _ hcall trivial)
        (fun h => h.elim) (fun hjoiner => (hjoined hcall hjoiner).elim)
        (fun result _ hresult => by cases hresult) (fun result hresult => by cases hresult)
        fun lost hlost => by cases hlost
    exact ⟨hended.live, hended.unwound, hended.left, hended.refused, hended.handles,
      hended.waits, hended.joiner, hended.spared, hended.returned⟩
  | refused n c hcall _ hclosed =>
    exact h.settled hcall (.inl rfl) _ fun _ _ => hordered.closed.mp hclosed ▸ trivial
  | replied n c hcall => exact h.settled hcall (.inr rfl) _ fun lost hlost => by cases hlost
  | lost n c hcall hforsaken =>
    exact h.settled hcall (.inr rfl) _ fun _ _ => hforsaken.over.left hordered
  | join n c result hcall hjoiner =>
    have hlast := h.waits n c _ hcall trivial
    have hended : (a.setCall n c (.joining result)).Ended b :=
      h.setCall (command_eq hcall) (fun hhandles _ => h.handles hhandles n c _ hcall trivial)
        (fun _ => hlast) (fun _ => trivial) (fun result' _ hresult => by cases hresult)
        (fun result' hresult => by cases hresult)
        fun lost hlost => h.refused n c _ lost hcall hlost
    refine ⟨hended.live, hended.unwound, hended.left, hended.refused, hended.handles,
      hended.waits, fun m hm => ?_, fun m d result' hm hd => ?_, hended.returned⟩
    · cases hm
      refine ⟨c, .joining result, KeyMap.insert_self _ _ _, trivial, ?_⟩
      cases result with
      | ok r => exact .inr ⟨r, hanswered.ok n c _ r hcall rfl, hlast⟩
      | error lost => exact .inl (hanswered.error n c _ lost hcall rfl).1
    · cases hm
      cases (KeyMap.insert_self a.calls n _).symm.trans hd
  | taken n c result hcall m hjoiner =>
    exact h.setCall (command_eq hcall) (fun _ => id) (fun h => h.elim) (fun _ => trivial)
      (fun _ hn _ => (hjoined hcall hn).elim)
      (fun _ _ _ => h.exited_of_taken hanswered hcall hjoiner)
      fun lost hlost => h.refused n c _ lost hcall hlost
  | joined n c result hcall hexit hunwound =>
    exact h.setCall (command_eq hcall) (fun _ => id) (fun h => h.elim) (fun _ => trivial)
      (fun _ _ _ => hunwound) (fun _ _ _ => hexit)
      fun lost hlost => h.refused n c _ lost hcall hlost
  | panic n c result hcall =>
    exact h.setCall (command_eq hcall) (fun _ => id) (fun h => h.elim) (fun _ => trivial)
      (fun result _ hresult => by cases hresult) (fun result hresult => by cases hresult)
      fun lost hlost => by cases hlost
  | giveUp n c phase hcall =>
    exact h.setCall (command_eq hcall) (fun _ => id) (fun h => h.elim) (fun _ => trivial)
      (fun result _ hresult => by cases hresult) (fun result hresult => by cases hresult)
      fun lost hlost => by cases hlost
  | drop hcalls =>
    exact ⟨h.live, h.unwound, fun hleft => (h.left hleft).imp_right fun hend =>
      hend.imp_right fun hlive => ⟨rfl, hlive.2⟩, h.refused, fun _ => hcalls, h.waits, h.joiner,
      h.spared, h.returned⟩
  | receive hidle n channel => exact h.goesOn hordered (hidle ▸ id) id _ _
  | disconnected hidle _ hhandles =>
    have hlive : ¬ a.thread.Left := hidle ▸ id
    exact ⟨fun hleft => absurd trivial hleft, h.unwound,
      fun _ => .inr (.inr ⟨hhandles, h.live hlive⟩), h.refused, h.handles, h.waits,
      fun m hm => (by cases (h.joiner_eq hordered hlive).symm.trans hm), h.spared,
      fun n c result hcall hlast => absurd (h.returned n c result hcall hlast ▸ trivial) hlive⟩
  | work n e k hbusy => exact h.goesOn hordered (hbusy ▸ id) id _ _
  | finish n r hbusy c => exact h.finish hordered hanswered hbusy
  | unwind n rest hbusy =>
    have hlive : ¬ a.thread.Left := hbusy ▸ id
    have hjoiner := h.joiner_eq hordered hlive
    have hsome : (a.unwind n).unwound ≠ none := Option.some_ne_none n
    exact ⟨fun hleft => absurd trivial hleft, fun _ => h.live hlive, fun _ => .inr (.inl hsome),
      fun _ _ _ _ _ _ => .inr hsome, h.handles, h.waits,
      fun m hm => (by cases hjoiner.symm.trans hm),
      fun m _ _ hm => (by cases hjoiner.symm.trans hm), fun m c result hcall hlast =>
        absurd (h.returned m c result hcall hlast ▸ trivial) hlive⟩
  | exit hleaving =>
    refine ⟨fun hleft => absurd trivial hleft, h.unwound, fun _ => h.left (hleaving ▸ trivial),
      h.refused, h.handles, h.waits, fun m hm => ?_, h.spared, fun _ _ _ _ _ => rfl⟩
    obtain ⟨c, phase, hcall, hjoined, -⟩ := h.joiner m hm
    exact ⟨c, phase, hcall, hjoined, .inl (.inr rfl)⟩

/-- One call takes the handle of the thread, and only that joins the thread and unwinds with it.
    No call of a last command returns before. -/
structure Handled (b : Behaviour E γ ρ σ) (a : Actor E γ ρ σ) : Prop where
  joining : ∀ n c result, a.calls n = some (c, .joining result) → a.joiner = some n
  panicked : ∀ n c, a.calls n = some (c, .panicked) →
    a.joiner = some n ∧ a.unwound ≠ none ∧ b.last c = true
  returned : ∀ n c result, a.calls n = some (c, .returned result) → b.last c = true →
    a.joiner ≠ none

theorem Handled.setCall (h : a.Handled b) {n : Nat} {c : γ} {phase : Phase ρ}
    (hjoining : ∀ result, phase = .joining result → a.joiner = some n)
    (hpanicked : phase = .panicked → a.joiner = some n ∧ a.unwound ≠ none ∧ b.last c = true)
    (hreturned : ∀ result, phase = .returned result → b.last c = true → a.joiner ≠ none) :
    (a.setCall n c phase).Handled b where
  joining m d result hm := by
    rw [setCall_calls] at hm
    split at hm
    · next hmn =>
      cases hm
      exact hmn ▸ hjoining result rfl
    · exact h.joining m d result hm
  panicked m d hm := by
    rw [setCall_calls] at hm
    split at hm
    · next hmn =>
      cases hm
      exact hmn ▸ hpanicked rfl
    · exact h.panicked m d hm
  returned m d result hm := by
    rw [setCall_calls] at hm
    split at hm
    · cases hm
      exact hreturned result rfl
    · exact h.returned m d result hm

theorem Handled.settled (h : a.Handled b) (n : Nat) (c : γ) (result : Except Lost ρ) :
    (a.setCall n c (settle b c result)).Handled b := by
  unfold settle
  split
  · exact h.setCall (fun _ h => by cases h) (fun h => by cases h) fun _ h => by cases h
  · next hlast =>
    exact h.setCall (fun _ h => by cases h) (fun h => by cases h) fun _ _ h => absurd h hlast

theorem Handled.step (h : a.Handled b) (hordered : a.Ordered) (hended : a.Ended b)
    (hstep : Step b a e a') : a'.Handled b := by
  cases hstep with
  | make n c => exact h.setCall (fun _ h => by cases h) (fun h => by cases h) fun _ h => by cases h
  | reserve => exact ⟨h.joining, h.panicked, h.returned⟩
  | push n c =>
    have hawaiting : (a.setCall n c .awaiting).Handled b :=
      h.setCall (fun _ h => by cases h) (fun h => by cases h) fun _ h => by cases h
    exact ⟨hawaiting.joining, hawaiting.panicked, hawaiting.returned⟩
  | refused n c => exact h.settled n c _
  | replied n c => exact h.settled n c _
  | lost n c => exact h.settled n c _
  | join n c result _ hjoiner =>
    -- Before, nobody had joined.
    have htaken : ({ a with joiner := some n } : Actor E γ ρ σ).Handled b :=
      ⟨fun m d r hm => (by cases hjoiner.symm.trans (h.joining m d r hm)),
        fun m d hm => (by cases hjoiner.symm.trans (h.panicked m d hm).1),
        fun _ _ _ _ _ => Option.some_ne_none n⟩
    exact htaken.setCall (fun _ _ => rfl) (fun h => by cases h) fun _ h => by cases h
  | taken n c result hcall m hjoiner =>
    exact h.setCall (fun _ h => by cases h) (fun h => by cases h)
      fun _ _ _ => Option.ne_none_iff_exists'.mpr ⟨m, hjoiner⟩
  | joined n c result hcall =>
    exact h.setCall (fun _ h => by cases h) (fun h => by cases h)
      fun _ _ _ => Option.ne_none_iff_exists'.mpr ⟨n, h.joining n c result hcall⟩
  | panic n c result hcall _ hunwound =>
    exact h.setCall (fun _ h => by cases h)
      (fun _ => ⟨h.joining n c result hcall, hunwound, hended.waits n c _ hcall trivial⟩)
      fun _ h => by cases h
  | giveUp n c =>
    exact h.setCall (fun _ h => by cases h) (fun h => by cases h) fun _ h => by cases h
  | unwind n rest hbusy =>
    have hjoiner := hended.joiner_eq hordered (hbusy ▸ id)
    exact ⟨h.joining, fun m d hm => (by cases hjoiner.symm.trans (h.panicked m d hm).1),
      h.returned⟩
  | _ => exact ⟨h.joining, h.panicked, h.returned⟩

/-! ### One command at a time -/

/-- What the thread has made of the state `u`: nothing, or what the command did in which it
    unwound. -/
def Stopped (b : Behaviour E γ ρ σ) (calls : KeyMap Nat (γ × Phase ρ)) (u state : σ) :
    Option Nat → Prop
  | none => state = u
  | some n => ∃ c phase tr rest, calls n = some (c, phase) ∧ Exec b.sem (b.body c) u tr rest state

/-- The state of a thread that has left the state `u` with the last command it finished. -/
def Between (b : Behaviour E γ ρ σ) (calls : KeyMap Nat (γ × Phase ρ)) (u state : σ)
    (unwound : Option Nat) : Thread E ρ → Prop
  | .idle => state = u
  | .busy n rest => ∃ c phase tr, calls n = some (c, phase) ∧ Exec b.sem (b.body c) u tr rest state
  | .leaving => Stopped b calls u state unwound
  | .exited => ∃ v, Stopped b calls u v unwound ∧ state = b.drop v

/-- The state is that of the log, one command after the other, up to the command in hand. -/
def Traced (b : Behaviour E γ ρ σ) (init : σ) (a : Actor E γ ρ σ) : Prop :=
  ∃ u, Sequential b init a.log u ∧ Between b a.calls u a.state a.unwound a.thread

theorem sequential_append {s t : σ} {log : List (Nat × γ × ρ)} {n : Nat} {c : γ} {r : ρ} :
    Sequential b s (log ++ [(n, c, r)]) t ↔
      ∃ u tr, Sequential b s log u ∧ Exec b.sem (b.body c) u tr (.pure r) t := by
  induction log generalizing s with
  | nil =>
    constructor
    · rintro ⟨tr, u, hexec, rfl⟩
      exact ⟨s, tr, rfl, hexec⟩
    · rintro ⟨u, tr, rfl, hexec⟩
      exact ⟨tr, t, hexec, rfl⟩
  | cons x log ih =>
    constructor
    · rintro ⟨tr, u, hexec, hrest⟩
      obtain ⟨v, tr', hlog, hlast⟩ := ih.mp hrest
      exact ⟨v, tr', ⟨tr, u, hexec, hlog⟩, hlast⟩
    · rintro ⟨v, tr', ⟨tr, u, hexec, hlog⟩, hlast⟩
      exact ⟨tr, u, hexec, ih.mpr ⟨v, tr', hlog, hlast⟩⟩

/-- A call keeps its command. -/
theorem Step.keeps_command (hstep : Step b a e a') {n : Nat} {c : γ} {phase : Phase ρ}
    (hn : a.calls n = some (c, phase)) : ∃ phase', a'.calls n = some (c, phase') := by
  have hset : ∀ {m d before after}, a.calls m = some (d, before) →
      ∃ phase', (a.setCall m d after).calls n = some (c, phase') := by
    intro m d before after hm
    refine exists_setCall (fun d' before' hd => ?_) hn
    cases hm.symm.trans hd
    rfl
  cases hstep with
  | make m d _ hm =>
    exact exists_setCall (fun d before hd => by cases hm.symm.trans hd) hn
  | push m d hm => exact hset hm
  | refused m d hm => exact hset hm
  | replied m d hm => exact hset hm
  | lost m d hm => exact hset hm
  | join m d result hm => exact hset hm
  | taken m d result hm => exact hset hm
  | joined m d result hm => exact hset hm
  | panic m d result hm => exact hset hm
  | giveUp m d before hm => exact hset hm
  | _ => exact ⟨phase, hn⟩

theorem Stopped.keep (hstep : Step b a e a') {u state : σ} {unwound : Option Nat}
    (h : Stopped b a.calls u state unwound) : Stopped b a'.calls u state unwound := by
  cases unwound with
  | none => exact h
  | some n =>
    obtain ⟨c, phase, tr, rest, hcall, hexec⟩ := h
    obtain ⟨phase', hcall'⟩ := hstep.keeps_command hcall
    exact ⟨c, phase', tr, rest, hcall', hexec⟩

theorem Between.keep (hstep : Step b a e a') {u state : σ} {unwound : Option Nat}
    {thread : Thread E ρ} (h : Between b a.calls u state unwound thread) :
    Between b a'.calls u state unwound thread := by
  cases thread with
  | idle => exact h
  | busy n rest =>
    obtain ⟨c, phase, tr, hcall, hexec⟩ := h
    obtain ⟨phase', hcall'⟩ := hstep.keeps_command hcall
    exact ⟨c, phase', tr, hcall', hexec⟩
  | leaving => exact Stopped.keep hstep h
  | exited =>
    obtain ⟨v, hstopped, hdrop⟩ := h
    exact ⟨v, hstopped.keep hstep, hdrop⟩

theorem Traced.step {init : σ} (h : a.Traced b init) (hordered : a.Ordered)
    (hstep : Step b a e a') : a'.Traced b init := by
  obtain ⟨u, hlog, hbetween⟩ := h
  have hkeep : ∀ {state unwound thread}, Between b a.calls u state unwound thread →
      Between b a'.calls u state unwound thread := fun h => h.keep hstep
  cases hstep with
  | receive hidle n channel _ c phase hcall =>
    rw [hidle] at hbetween
    exact ⟨u, hlog, c, phase, [], hcall, by rw [hbetween]; exact .refl _ _⟩
  | disconnected hidle =>
    have hunwound := hordered.unwound_eq (hidle ▸ id)
    rw [hidle] at hbetween
    exact ⟨u, hlog, (by rw [hunwound]; exact hbetween : Stopped b a.calls u a.state a.unwound)⟩
  | work n op k hbusy x t hsem =>
    rw [hbusy] at hbetween
    obtain ⟨c, phase, tr, hcall, hexec⟩ := hbetween
    exact ⟨u, hlog, c, phase, _, hcall, hexec.trans (.step op k _ x t [] _ t hsem (.refl _ _))⟩
  | finish n r hbusy c phase hcall =>
    have hunwound := hordered.unwound_eq (hbusy ▸ id)
    rw [hbusy] at hbetween
    obtain ⟨d, phase', tr, hd, hexec⟩ := hbetween
    cases hcall.symm.trans hd
    refine ⟨a.state, sequential_append.mpr ⟨u, tr, hlog, hexec⟩, ?_⟩
    show Between b a.calls a.state a.state a.unwound (if b.last c then .leaving else .idle)
    rw [hunwound]
    split
    · exact rfl
    · exact rfl
  | unwind n rest hbusy =>
    rw [hbusy] at hbetween
    obtain ⟨c, phase, tr, hcall, hexec⟩ := hbetween
    exact ⟨u, hlog, c, phase, tr, rest, hcall, hexec⟩
  | exit hleaving =>
    rw [hleaving] at hbetween
    exact ⟨u, hlog, a.state, hbetween, rfl⟩
  | _ => exact ⟨u, hlog, hkeep hbetween⟩

/-! ### The invariant -/

/-- What holds in every state. -/
structure Sound (b : Behaviour E γ ρ σ) (init : σ) (a : Actor E γ ρ σ) : Prop where
  ordered : a.Ordered
  placed : a.Placed
  answered : a.Answered
  ended : a.Ended b
  handled : a.Handled b
  traced : a.Traced b init

theorem sound_init (capacity : Nat) (state : σ) :
    (init capacity state : Actor E γ ρ σ).Sound b state where
  ordered := ⟨rfl, fun h => absurd rfl h, fun _ => rfl, ⟨[], rfl⟩,
    iff_of_false (fun h => by cases h) fun h => by cases h⟩
  placed := ⟨List.nodup_nil, List.nodup_nil, fun _ h => (by cases h), fun _ h => (by cases h),
    fun _ _ h => by cases h⟩
  answered := ⟨fun _ _ _ h => (by cases h), fun _ _ h => (by cases h),
    fun _ _ _ _ h => (by cases h), fun _ _ _ _ h => by cases h⟩
  ended := ⟨fun _ _ h => (by cases h), fun h => absurd rfl h, False.elim,
    fun _ _ _ _ h => (by cases h), fun h => (by cases h), fun _ _ _ h => (by cases h),
    fun _ h => (by cases h), fun _ _ _ h => (by cases h), fun _ _ _ h => by cases h⟩
  handled := ⟨fun _ _ _ h => (by cases h), fun _ _ h => (by cases h), fun _ _ _ h => by cases h⟩
  traced := ⟨state, rfl, rfl⟩

theorem Sound.step {init : σ} (h : a.Sound b init) (hstep : Step b a e a') : a'.Sound b init :=
  ⟨h.ordered.step hstep, h.placed.step hstep, h.answered.step h.ordered h.placed hstep,
    h.ended.step h.ordered h.answered hstep, h.handled.step h.ordered h.ended hstep,
    h.traced.step h.ordered hstep⟩

theorem sound_of_run {capacity : Nat} {state : σ} (run : Run (Step b) (init capacity state) a) :
    a.Sound b state :=
  run.invariant (sound_init capacity state) fun _ _ _ hstep h => h.step hstep

/-- Where the call of a last command has a result, the loop was ended by a last command, or by
    one in which the thread unwound. -/
theorem Sound.broken_of_result {init : σ} (h : a.Sound b init) {n : Nat} {c : γ}
    {phase : Phase ρ} {result : Except Lost ρ} (hcall : a.calls n = some (c, phase))
    (hresult : phase.result = some result) (hlast : b.last c = true) :
    a.Broken b ∨ a.unwound ≠ none := by
  cases result with
  | error lost => exact h.ended.refused n c phase lost hcall hresult
  | ok r =>
    have hlog := h.answered.ok n c phase r hcall hresult
    by_cases hleft : a.thread.Left
    · rcases h.ended.left hleft with hbroken | hunwound | ⟨-, hlive⟩
      · exact .inl hbroken
      · exact .inr hunwound
      · cases (hlive _ hlog).symm.trans hlast
    · cases (h.ended.live hleft _ hlog).symm.trans hlast

/-- When the call of a last command has returned though the thread had unwound, another call has
    taken the handle of the thread. -/
theorem Sound.joiner_of_returned {init : σ} (h : a.Sound b init) {n : Nat} {c : γ}
    {result : Except Lost ρ} (hcall : a.calls n = some (c, .returned result))
    (hlast : b.last c = true) (hunwound : a.unwound ≠ none) :
    ∃ m, m ≠ n ∧ a.joiner = some m := by
  obtain ⟨m, hm⟩ := Option.ne_none_iff_exists'.mp (h.handled.returned n c result hcall hlast)
  exact ⟨m, fun hmn => hunwound (h.ended.spared m c result hm (hmn ▸ hcall)), hm⟩

/-! ### What a step leaves as it is -/

theorem Step.log_prefix (hstep : Step b a e a') : a.log <+: a'.log := by
  cases hstep with
  | finish n r _ c => exact List.prefix_append _ _
  | _ => exact List.prefix_rfl

/-- After its loop the thread executes nothing. -/
theorem Step.left_final (hstep : Step b a e a') (hleft : a.thread.Left) :
    a'.thread.Left ∧ a'.log = a.log ∧ a'.unwound = a.unwound := by
  cases hstep with
  | receive hidle => exact absurd hleft (hidle ▸ id)
  | disconnected hidle => exact absurd hleft (hidle ▸ id)
  | work n op k hbusy => exact absurd hleft (hbusy ▸ id)
  | finish n r hbusy => exact absurd hleft (hbusy ▸ id)
  | unwind n rest hbusy => exact absurd hleft (hbusy ▸ id)
  | exit => exact ⟨trivial, rfl, rfl⟩
  | _ => exact ⟨hleft, rfl, rfl⟩

theorem unwound_of_begun (hleft : a.thread.Left) {n : Nat} (hn : n ∈ a.begun) :
    a.unwound = some n := by
  rcases List.mem_append.mp hn with hn | hn
  · cases hthread : a.thread with
    | busy m rest => exact absurd hleft (hthread ▸ id)
    | _ =>
      rw [hthread] at hn
      cases hn
  · exact Option.mem_toList.mp hn

theorem Step.joiner (hstep : Step b a e a') {m : Nat} (hjoiner : a.joiner = some m) :
    a'.joiner = some m := by
  cases hstep with
  | join n c result _ hnone => cases hnone.symm.trans hjoiner
  | _ => exact hjoiner

theorem run_joiner (run : Run (Step b) a a') {m : Nat} (hjoiner : a.joiner = some m) :
    a'.joiner = some m :=
  run.invariant (J := fun s => s.joiner = some m) hjoiner fun _ _ _ hstep h => hstep.joiner h

theorem Step.exited_final (hstep : Step b a e a') (hexit : a.thread = .exited) :
    a'.thread = .exited ∧ a'.state = a.state := by
  cases hstep with
  | receive hidle => cases hidle.symm.trans hexit
  | disconnected hidle => cases hidle.symm.trans hexit
  | work n op k hbusy => cases hbusy.symm.trans hexit
  | finish n r hbusy => cases hbusy.symm.trans hexit
  | unwind n rest hbusy => cases hbusy.symm.trans hexit
  | exit hleaving => cases hleaving.symm.trans hexit
  | _ => exact ⟨hexit, rfl⟩

theorem run_exited_final (run : Run (Step b) a a') (hexit : a.thread = .exited) :
    a'.thread = .exited ∧ a'.state = a.state :=
  run.invariant (J := fun s => s.thread = .exited ∧ s.state = a.state) ⟨hexit, rfl⟩
    fun _ _ _ hstep h =>
      have hnext := hstep.exited_final h.1
      ⟨hnext.1, hnext.2.trans h.2⟩

theorem run_log_prefix (run : Run (Step b) a a') : a.log <+: a'.log :=
  run.invariant (J := fun s => a.log <+: s.log) List.prefix_rfl
    fun _ _ _ hstep h => h.trans hstep.log_prefix

theorem run_left_final (run : Run (Step b) a a') (hleft : a.thread.Left) :
    a'.thread.Left ∧ a'.log = a.log ∧ a'.unwound = a.unwound :=
  run.invariant (J := fun s => s.thread.Left ∧ s.log = a.log ∧ s.unwound = a.unwound)
    ⟨hleft, rfl, rfl⟩ fun _ _ _ hstep h =>
      have hnext := hstep.left_final h.1
      ⟨hnext.1, hnext.2.1.trans h.2.1, hnext.2.2.trans h.2.2⟩

/-! ### Calls after the end -/

/-- A call for which there was no place in the channel when it was closed. -/
def Late (n : Nat) (a : Actor E γ ρ σ) : Prop :=
  a.channel.closed = true ∧ n ∉ a.channel.reserved ∧ ∀ c phase, a.calls n = some (c, phase) →
    phase ≠ .awaiting ∧ ∀ result, phase.result = some result → result = .error .gone

theorem Late.setCall {n m : Nat} (h : a.Late n) {c : γ} {phase : Phase ρ} (hawaiting : m = n →
    phase ≠ .awaiting) (hphase : m = n → ∀ result, phase.result = some result →
      result = .error .gone) : (a.setCall m c phase).Late n := by
  refine ⟨h.1, h.2.1, fun d phase' hd => ?_⟩
  rw [setCall_calls] at hd
  split at hd
  · next hmn =>
    cases hd
    exact ⟨hawaiting hmn.symm, hphase hmn.symm⟩
  · exact h.2.2 d phase' hd

/-- A call that gets no result. -/
theorem Late.setCall_none {n m : Nat} (h : a.Late n) {c : γ} {phase : Phase ρ}
    (hawaiting : phase ≠ .awaiting) (hnone : phase.result = none) :
    (a.setCall m c phase).Late n :=
  h.setCall (fun _ => hawaiting) fun _ result hresult => by cases hnone.symm.trans hresult

/-- Where a late call has got a result, it was refused. -/
theorem Late.result {n : Nat} (h : a.Late n) {c : γ} {phase : Phase ρ} {result : Except Lost ρ}
    (hcall : a.calls n = some (c, phase)) (hresult : phase.result = some result) :
    result = .error .gone :=
  (h.2.2 c phase hcall).2 result hresult

/-- A call that keeps its result. -/
theorem Late.setCall_keep {n m : Nat} (h : a.Late n) {c : γ} {phase phase' : Phase ρ}
    (hcall : a.calls m = some (c, phase)) (hawaiting : phase' ≠ .awaiting)
    (hresult : phase'.result = phase.result) : (a.setCall m c phase').Late n :=
  h.setCall (fun _ => hawaiting) fun hmn _ hphase => h.result (hmn ▸ hcall) (hresult ▸ hphase)

theorem Late.step {n : Nat} (h : a.Late n) (hstep : Step b a e a') : a'.Late n := by
  have hclosed := h.1
  have hreserved := h.2.1
  have hcalls := h.2.2
  cases hstep with
  | make m c => exact h.setCall_none (fun h => by cases h) rfl
  | reserve m c _ _ channel hreserve =>
    cases hclosed.symm.trans (Channel.reserve_eq_some hreserve).1
  | push m c _ hm =>
    have hmn : m ≠ n := fun hmn => hreserved (hmn ▸ hm)
    have hlate : (a.setCall m c .awaiting).Late n :=
      h.setCall (fun hm => absurd hm hmn) fun hm => absurd hm hmn
    exact ⟨hclosed, fun hn => hreserved (List.mem_of_mem_erase hn), hlate.2.2⟩
  | refused m c =>
    refine h.setCall (fun _ => settle_ne_awaiting c _) fun _ result hresult => ?_
    exact Option.some.inj (hresult.symm.trans (settle_result c _))
  | replied m c hcall =>
    exact h.setCall (fun hmn => absurd rfl (hcalls c _ (hmn ▸ hcall)).1)
      fun hmn => absurd rfl (hcalls c _ (hmn ▸ hcall)).1
  | lost m c hcall =>
    exact h.setCall (fun hmn => absurd rfl (hcalls c _ (hmn ▸ hcall)).1)
      fun hmn => absurd rfl (hcalls c _ (hmn ▸ hcall)).1
  | join m c result hcall =>
    have hlate : (a.setCall m c (.joining result)).Late n :=
      h.setCall_keep hcall (fun h => by cases h) rfl
    exact ⟨hclosed, hreserved, hlate.2.2⟩
  | taken m c result hcall => exact h.setCall_keep hcall (fun h => by cases h) rfl
  | joined m c result hcall => exact h.setCall_keep hcall (fun h => by cases h) rfl
  | panic m c => exact h.setCall_none (fun h => by cases h) rfl
  | giveUp m c => exact h.setCall_none (fun h => by cases h) rfl
  | receive _ m channel hrecv =>
    obtain ⟨queue, -, rfl⟩ := Channel.recv_eq_some hrecv
    exact ⟨hclosed, hreserved, hcalls⟩
  | exit => exact ⟨rfl, hreserved, hcalls⟩
  | _ => exact ⟨hclosed, hreserved, hcalls⟩

/-- A call made after the thread has exited is refused. -/
theorem Sound.late {init : σ} (h : a.Sound b init) (hexit : a.thread = .exited) {n : Nat}
    (hn : a.calls n = none) (run : Run (Step b) a a') : a'.Late n := by
  refine run.invariant ⟨h.ordered.closed.mpr hexit, fun hmem => ?_, fun c phase hcall => ?_⟩
    fun _ _ _ hstep h => h.step hstep
  · obtain ⟨c, hc⟩ := h.placed.reserved n hmem
    cases hn.symm.trans hc
  · cases hn.symm.trans hcall

/-! ### What is left waiting -/

theorem Step.capacity (hstep : Step b a e a') : a'.channel.capacity = a.channel.capacity := by
  cases hstep with
  | reserve n c _ _ channel hreserve =>
    obtain ⟨-, rfl⟩ := Channel.reserve_eq_some hreserve
    rfl
  | receive _ n channel hrecv =>
    obtain ⟨queue, -, rfl⟩ := Channel.recv_eq_some hrecv
    rfl
  | _ => rfl

theorem run_capacity (run : Run (Step b) a a') : a'.channel.capacity = a.channel.capacity :=
  run.invariant (J := fun s => s.channel.capacity = a.channel.capacity) rfl
    fun _ _ _ hstep h => hstep.capacity.trans h

/-- Nothing can happen but that callers make and drop calls and handles. -/
def Stuck (b : Behaviour E γ ρ σ) (a : Actor E γ ρ σ) : Prop :=
  ∀ e a', Step b a e a' → e = .outside

/-- The command got into the channel when nobody took commands any more. -/
def Stranded (a : Actor E γ ρ σ) (n : Nat) : Prop :=
  a.thread = .exited ∧ n ∈ a.channel.queue

theorem Sound.not_executed_of_stranded {init : σ} (h : a.Sound b init) {n : Nat}
    (hn : a.Stranded n) : n ∉ a.log.map Prod.fst ++ a.begun := by
  intro hbegun
  obtain ⟨dropped, hsplit⟩ := h.ordered.split
  have hnodup := h.placed.once
  rw [hsplit, List.append_assoc] at hnodup
  rw [← h.ordered.received] at hbegun
  exact List.disjoint_of_nodup_append hnodup hbegun (List.mem_append_right dropped hn.2)

/-- What is in the channel are commands of calls. -/
theorem Sound.exists_receive {init : σ} (h : a.Sound b init) (hidle : a.thread = .idle)
    (hqueue : a.channel.queue ≠ []) : ∃ a', Step b a .thread a' := by
  have hlive : a.thread ≠ .exited := fun hexit => by cases hidle.symm.trans hexit
  obtain ⟨n, queue, hn⟩ := List.exists_cons_of_ne_nil hqueue
  have hmem : n ∈ a.channel.accepted := by
    rw [h.ordered.fifo hlive, hn]
    exact List.mem_append_right _ List.mem_cons_self
  obtain ⟨c, phase, hcall, -⟩ := h.placed.accepted n hmem
  exact ⟨_, .receive a hidle n { a.channel with queue := queue, received := _ }
    (by rw [Channel.recv, hn]) c phase hcall⟩

/-- Where nothing can happen, the thread has nothing to do or has exited. -/
theorem Sound.thread_of_stuck {init : σ} (h : a.Sound b init) (hstuck : a.Stuck b)
    (htotal : ∀ (β : Type) (e : E β) s, ∃ x t, b.sem β e s x t) :
    a.thread = .idle ∧ a.channel.queue = [] ∨ a.thread = .exited := by
  cases hthread : a.thread with
  | idle =>
    refine .inl ⟨rfl, ?_⟩
    by_contra hqueue
    obtain ⟨a', hstep⟩ := h.exists_receive hthread hqueue
    cases hstuck _ _ hstep
  | busy n rest =>
    obtain ⟨u, -, hbetween⟩ := h.traced
    rw [hthread] at hbetween
    obtain ⟨c, phase, tr, hcall, -⟩ := hbetween
    cases rest with
    | pure r => cases hstuck _ _ (.finish a n r hthread c phase hcall)
    | op e k =>
      obtain ⟨x, t, hsem⟩ := htotal _ e a.state
      cases hstuck _ _ (.work a n e k hthread x t hsem)
  | leaving => cases hstuck _ _ (.exit a hthread)
  | exited => exact .inr rfl

/-- Where nothing can happen any more, a call that was not given up has returned, unless its
    command got into the channel after the thread had exited. -/
theorem answered_of_stuck {init : σ} (h : a.Sound b init) (hcapacity : 0 < a.channel.capacity)
    (hstuck : a.Stuck b) (htotal : ∀ (β : Type) (e : E β) s, ∃ x t, b.sem β e s x t) {n : Nat}
    {c : γ} {phase : Phase ρ} (hcall : a.calls n = some (c, phase)) (hbusy : phase.Busy) :
    phase = .awaiting ∧ a.Stranded n := by
  have hthread := h.thread_of_stuck hstuck htotal
  cases phase with
  | sending =>
    by_cases hreserved : n ∈ a.channel.reserved
    · cases hstuck _ _ (.push a n c hcall hreserved)
    rcases hthread with ⟨hidle, hqueue⟩ | hexit
    · -- The channel is open and empty, and nobody has a place in it.
      have hclosed : a.channel.closed = false := by
        refine Bool.eq_false_iff.mpr fun hclosed => ?_
        cases hidle.symm.trans (h.ordered.closed.mp hclosed)
      have hempty : a.channel.reserved = [] := by
        refine List.eq_nil_iff_forall_not_mem.mpr fun m hm => ?_
        obtain ⟨d, hd⟩ := h.placed.reserved m hm
        cases hstuck _ _ (.push a m d hd hm)
      have hroom : a.channel.reserved.length + a.channel.queue.length < a.channel.capacity := by
        rw [hempty, hqueue]
        exact hcapacity
      cases hstuck _ _ (.reserve a n c hcall hreserved _ (if_pos ⟨hclosed, hroom⟩))
    · cases hstuck _ _ (.refused a n c hcall hreserved (h.ordered.closed.mpr hexit))
  | awaiting =>
    cases hreply : a.replies n with
    | some r => cases hstuck _ _ (.replied a n c hcall r hreply)
    | none =>
      rcases hthread with ⟨hidle, hqueue⟩ | hexit
      · -- All that was accepted has been executed, and so has its command.
        have hlive : a.thread ≠ .exited := fun hexit => by cases hidle.symm.trans hexit
        have hreceived := (h.ordered.fifo hlive).received_eq hqueue
        have hmem := h.placed.awaiting n c hcall
        rw [← hreceived, h.ordered.received, begun_eq (h.ordered.unwound_eq (hidle ▸ id)), hidle]
          at hmem
        obtain ⟨⟨m, d, r⟩, hlog, rfl⟩ := List.mem_map.mp
          ((List.mem_append.mp hmem).resolve_right List.not_mem_nil)
        cases hreply.symm.trans (h.answered.entry m d r hlog).1
      · by_cases hqueue : n ∈ a.channel.queue
        · exact ⟨rfl, hexit, hqueue⟩
        · cases hstuck _ _ (.lost a n c hcall (.inr ⟨hexit, hqueue⟩) hreply)
  | answered result =>
    cases hjoiner : a.joiner with
    | none => cases hstuck _ _ (.join a n c result hcall hjoiner)
    | some m => cases hstuck _ _ (.taken a n c result hcall m hjoiner)
  | joining result =>
    -- The thread has left its loop: a last command was executed, or it takes no commands.
    have hexit : a.thread = .exited := by
      rcases hthread with ⟨hidle, -⟩ | hexit
      · cases result with
        | error lost =>
          have hleft := (h.answered.error n c _ lost hcall rfl).1.left h.ordered
          exact absurd hleft (hidle ▸ id)
        | ok r =>
          have hlive := h.ended.live (hidle ▸ id) _ (h.answered.ok n c _ r hcall rfl)
          cases hlive.symm.trans (h.ended.waits n c _ hcall trivial)
      · exact hexit
    by_cases hunwound : a.unwound = none
    · cases hstuck _ _ (.joined a n c result hcall hexit hunwound)
    · cases hstuck _ _ (.panic a n c result hcall hexit hunwound)
  | returned => exact hbusy.elim
  | dropped => exact hbusy.elim
  | panicked => exact hbusy.elim

/-- Where the thread has exited and no call is on its way, nothing can happen. -/
theorem stuck_of_over (hexit : a.thread = .exited)
    (hover : ∀ n c phase, a.calls n = some (c, phase) → ¬ phase.Busy) : a.Stuck b := by
  intro e a' hstep
  cases hstep with
  | make => rfl
  | giveUp => rfl
  | drop => rfl
  | reserve n c hcall => exact absurd trivial (hover n c _ hcall)
  | push n c hcall => exact absurd trivial (hover n c _ hcall)
  | refused n c hcall => exact absurd trivial (hover n c _ hcall)
  | replied n c hcall => exact absurd trivial (hover n c _ hcall)
  | lost n c hcall => exact absurd trivial (hover n c _ hcall)
  | join n c result hcall => exact absurd trivial (hover n c _ hcall)
  | taken n c result hcall => exact absurd trivial (hover n c _ hcall)
  | joined n c result hcall => exact absurd trivial (hover n c _ hcall)
  | panic n c result hcall => exact absurd trivial (hover n c _ hcall)
  | receive hidle => cases hidle.symm.trans hexit
  | disconnected hidle => cases hidle.symm.trans hexit
  | work n op k hbusy => cases hbusy.symm.trans hexit
  | finish n r hbusy => cases hbusy.symm.trans hexit
  | unwind n rest hbusy => cases hbusy.symm.trans hexit
  | exit hleaving => cases hleaving.symm.trans hexit

end Actor

end Sarena.Lib
