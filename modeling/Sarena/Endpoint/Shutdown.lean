import Sarena.Endpoint.Regenerate
import Sarena.Lib.Run

namespace Sarena

open Lib

/-!
# Endpoint — deletion against running regenerations

`delete_endpoint` stops the endpoint's worker, waits until it has drained its queue or
aborts it after a timeout, and then has the loader remove the endpoint.  An abort takes
effect at the worker's next pending await point only; a worker that is running at that
moment may still send to the loader, behind the removal.

* `ShutdownSystem` — the worker's task, its queue, the loader's mailbox and the deletion;
* `Step` — the interleavings of callers, runtime, worker, loader and deletion;
* `Racing` — the worker is running and may reach the loader before it awaits;
* `no_add_after_remove` — in the runs whose removal is not sent while the worker is
  racing, no add is enqueued after the removal; `add_after_remove` — a run where one is.
-/

/-- `EndpointCommand`. -/
inductive EndpointCommand
  | regenerate
  deriving DecidableEq, Repr

/-- `EVENT_QUEUE_CAPACITY`. -/
def eventQueueCapacity : Nat := 32

/-- The loader's `Command`, as far as it tells this endpoint's commands apart. -/
inductive LoaderCommand
  | addLoaderEndpoint (persist : EndpointPersist)
  | removeLoaderEndpoint (persist : EndpointPersist)
  | other
  deriving DecidableEq, Repr

namespace LoaderCommand

def IsAdd : LoaderCommand → Prop
  | addLoaderEndpoint _ => True
  | _ => False

def IsRemove : LoaderCommand → Prop
  | removeLoaderEndpoint _ => True
  | _ => False

end LoaderCommand

/-- Where `EndpointWorker::run` stands.  A command is handled for the loop or, with `drain`,
    for the drain after it. -/
inductive WorkerPc
  /-- At the `select!` of the loop. -/
  | receiving
  /-- At `recv` of the drain. -/
  | draining
  /-- In `handle`; at `send` when the next call is the loader's. -/
  | handling (drain : Bool) (rest : Prog WorkerOp (Res Unit × EndpointState))
  /-- In `handle`, waiting for the loader's reply. -/
  | replying (drain : Bool) (k : Res Unit → Prog WorkerOp (Res Unit × EndpointState))
  | exited

/-- Calls that do not await. -/
def WorkerOp.Blocking : ∀ β : Type, WorkerOp β → Prop
  | _, .addLoaderEndpoint _ => False
  | _, _ => True

namespace WorkerPc

/-- The command in hand may still be sent to the loader. -/
def Sends : WorkerPc → Prop
  | .handling _ rest => ¬ rest.Uses WorkerOp.Blocking
  | .replying _ k => ∃ r, ¬ (k r).Uses WorkerOp.Blocking
  | _ => False

/-- An await point of the worker. -/
def Awaiting : WorkerPc → Prop
  | .receiving => True
  | .draining => True
  | .handling _ (.op op _) => ¬ WorkerOp.Blocking _ op
  | .handling _ (.pure _) => False
  | .replying _ _ => True
  | .exited => False

end WorkerPc

/-- The parts of the daemon that deal with one endpoint. -/
structure ShutdownSystem where
  pc : WorkerPc
  state : EndpointState
  /-- A thread of the runtime is running the worker's task. -/
  polling : Bool
  aborted : Bool
  /-- The cancellation token. -/
  stop : Bool
  queue : List EndpointCommand
  closed : Bool
  /-- Handles outside the manager. -/
  clones : Nat
  /-- The manager, or the deletion, has its handle. -/
  held : Bool
  /-- The loader's reply to the worker's last command. -/
  reply : Option (Res Unit)
  loaderOpen : Bool
  mailbox : List LoaderCommand
  /-- All that was ever enqueued to the loader, in order. -/
  sent : List LoaderCommand
  deletion : Option (Prog ManagerOp (Res Unit))

/-- Who takes a step. -/
inductive ShutdownEvent
  | caller
  | runtime
  | worker
  | loader
  | deletion
  deriving DecidableEq, Repr

namespace ShutdownSystem

/-- An endpoint that was just added: its worker was spawned, `clones` callers have handles. -/
def init (persist : EndpointPersist) (clones : Nat) : ShutdownSystem where
  pc := .receiving
  state := { persist := persist }
  polling := false
  aborted := false
  stop := false
  queue := []
  closed := false
  clones := clones
  held := true
  reply := none
  loaderOpen := true
  mailbox := []
  sent := []
  deletion := none

/-- A command is enqueued to the loader. -/
def enqueue (s : ShutdownSystem) (c : LoaderCommand) : ShutdownSystem :=
  { s with mailbox := s.mailbox ++ [c], sent := s.sent ++ [c] }

/-- `run` has returned or was dropped: its receiver is gone. -/
def exit (s : ShutdownSystem) : ShutdownSystem :=
  { s with pc := .exited, polling := false, closed := true, queue := [] }

/-- The calls of `delete_endpoint`.  The manager has the endpoint `ep`. -/
def deleteSem (ep : Endpoint) (buffer : Nat) : Sem ManagerOp ShutdownSystem
  | _, .takeEndpoint _, s, b, t => b = some ep ∧ t = s
  | _, .shutdown _, s, _, t => t = { s with stop := true }
  | _, .waitForShutdown _ timeout, s, b, t =>
      -- The worker is gone, or the time is up and it is aborted.
      (s.pc = .exited ∧ b = .ok () ∧ t = { s with held := false }) ∨
      (timeout ≠ none ∧ (∃ message, b = .error (.generalError message)) ∧
        t = { s with held := false, aborted := true })
  | _, .removeLoaderEndpoint persist, s, b, t =>
      (s.loaderOpen = true ∧ s.mailbox.length < buffer ∧
        t = s.enqueue (.removeLoaderEndpoint persist)) ∨
      (s.loaderOpen = false ∧ b = .error .actorGone ∧ t = s)
  | _, _, s, _, t => t = s

/-- The steps, for the manager's handle `ep` and a loader channel of length `buffer`. -/
inductive Step (ep : Endpoint) (buffer : Nat) :
    ShutdownSystem → ShutdownEvent → ShutdownSystem → Prop
  /-- `Endpoint::regenerate` on a clone puts its command into the queue. -/
  | call (s : ShutdownSystem) (h : 0 < s.clones) (hopen : s.closed = false)
      (hroom : s.queue.length < eventQueueCapacity) :
      Step ep buffer s .caller { s with queue := s.queue ++ [.regenerate] }
  | clone (s : ShutdownSystem) (h : 0 < s.clones ∨ s.held = true) :
      Step ep buffer s .caller { s with clones := s.clones + 1 }
  | drop (s : ShutdownSystem) (h : 0 < s.clones) :
      Step ep buffer s .caller { s with clones := s.clones - 1 }
  /-- A thread starts to run the worker, unless it was aborted. -/
  | poll (s : ShutdownSystem) (hpc : s.pc ≠ .exited) (haborted : s.aborted = false) :
      Step ep buffer s .runtime { s with polling := true }
  /-- An await is pending: the thread leaves the worker. -/
  | park (s : ShutdownSystem) (hpc : s.pc.Awaiting) (hpolling : s.polling = true) :
      Step ep buffer s .runtime { s with polling := false }
  /-- The abort takes effect. -/
  | cancel (s : ShutdownSystem) (haborted : s.aborted = true) (hpolling : s.polling = false) :
      Step ep buffer s .runtime s.exit
  /-- The loop is left: new commands are refused. -/
  | stopped (s : ShutdownSystem) (hpolling : s.polling = true) (hpc : s.pc = .receiving)
      (hstop : s.stop = true) :
      Step ep buffer s .worker { s with pc := .draining, closed := true }
  | receive (s : ShutdownSystem) (hpolling : s.polling = true) (hpc : s.pc = .receiving)
      (hstop : s.stop = false) (queue : List EndpointCommand)
      (hqueue : s.queue = .regenerate :: queue) :
      Step ep buffer s .worker
        { s with pc := .handling false (regenerate.runFrom s.state), queue := queue }
  /-- All senders are gone, and the queue is empty. -/
  | disconnected (s : ShutdownSystem) (hpolling : s.polling = true) (hpc : s.pc = .receiving)
      (hqueue : s.queue = []) (hclones : s.clones = 0) (hheld : s.held = false) :
      Step ep buffer s .worker s.exit
  /-- A call that does not await, with any answer. -/
  | work (s : ShutdownSystem) (hpolling : s.polling = true) (drain : Bool) {β : Type}
      (op : WorkerOp β) (k : β → Prog WorkerOp (Res Unit × EndpointState))
      (hpc : s.pc = .handling drain (.op op k)) (hop : WorkerOp.Blocking β op) (b : β) :
      Step ep buffer s .worker { s with pc := .handling drain (k b) }
  /-- The loader's channel takes the worker's command. -/
  | send (s : ShutdownSystem) (hpolling : s.polling = true) (drain : Bool)
      (persist : EndpointPersist) (k : Res Unit → Prog WorkerOp (Res Unit × EndpointState))
      (hpc : s.pc = .handling drain (.op (.addLoaderEndpoint persist) k))
      (hopen : s.loaderOpen = true) (hroom : s.mailbox.length < buffer) :
      Step ep buffer s .worker
        { s.enqueue (.addLoaderEndpoint persist) with pc := .replying drain k, reply := none }
  | sendFailed (s : ShutdownSystem) (hpolling : s.polling = true) (drain : Bool)
      (persist : EndpointPersist) (k : Res Unit → Prog WorkerOp (Res Unit × EndpointState))
      (hpc : s.pc = .handling drain (.op (.addLoaderEndpoint persist) k))
      (hopen : s.loaderOpen = false) :
      Step ep buffer s .worker { s with pc := .handling drain (k (.error .actorGone)) }
  | replied (s : ShutdownSystem) (hpolling : s.polling = true) (drain : Bool)
      (k : Res Unit → Prog WorkerOp (Res Unit × EndpointState)) (hpc : s.pc = .replying drain k)
      (r : Res Unit)
      (hreply : s.reply = some r ∨ (s.loaderOpen = false ∧ r = .error .actorCancelled)) :
      Step ep buffer s .worker { s with pc := .handling drain (k r) }
  /-- The command is done: its caller gets the result. -/
  | finish (s : ShutdownSystem) (hpolling : s.polling = true) (drain : Bool) (result : Res Unit)
      (after : EndpointState) (hpc : s.pc = .handling drain (.pure (result, after))) :
      Step ep buffer s .worker
        { s with pc := if drain then .draining else .receiving, state := after }
  | drainNext (s : ShutdownSystem) (hpolling : s.polling = true) (hpc : s.pc = .draining)
      (queue : List EndpointCommand) (hqueue : s.queue = .regenerate :: queue) :
      Step ep buffer s .worker
        { s with pc := .handling true (regenerate.runFrom s.state), queue := queue }
  | drained (s : ShutdownSystem) (hpolling : s.polling = true) (hpc : s.pc = .draining)
      (hqueue : s.queue = []) : Step ep buffer s .worker s.exit
  /-- The loader handles the oldest command and replies. -/
  | dispatch (s : ShutdownSystem) (c : LoaderCommand) (mailbox : List LoaderCommand)
      (hmailbox : s.mailbox = c :: mailbox) (reply : Option (Res Unit))
      (hreply : ¬ c.IsAdd → reply = s.reply) :
      Step ep buffer s .loader { s with mailbox := mailbox, reply := reply }
  /-- Another client of the loader sends a command. -/
  | otherCommand (s : ShutdownSystem) (hopen : s.loaderOpen = true)
      (hroom : s.mailbox.length < buffer) : Step ep buffer s .loader (s.enqueue .other)
  | loaderExit (s : ShutdownSystem) :
      Step ep buffer s .loader { s with loaderOpen := false, mailbox := [] }
  /-- `delete_endpoint` is called. -/
  | delete (s : ShutdownSystem) (hdeletion : s.deletion = none) (timeout : Option Nat) :
      Step ep buffer s .deletion { s with deletion := some (deleteEndpoint ep.id timeout) }
  /-- One call of `delete_endpoint`. -/
  | deleteCall (s t : ShutdownSystem) {β : Type} (op : ManagerOp β)
      (k : β → Prog ManagerOp (Res Unit)) (hdeletion : s.deletion = some (.op op k)) (b : β)
      (h : deleteSem ep buffer β op s b t) :
      Step ep buffer s .deletion { t with deletion := some (k b) }

/-- No add is enqueued to the loader after the removal. -/
def NoAddAfterRemove (s : ShutdownSystem) : Prop :=
  s.sent.Pairwise fun c d => c.IsRemove → ¬ d.IsAdd

/-- There are further commands for the worker, or somebody who may send one. -/
def More (s : ShutdownSystem) : Prop :=
  s.queue ≠ [] ∨ (s.closed = false ∧ (0 < s.clones ∨ s.held = true))

/-- The worker may send to the loader, for the command in hand or a further one. -/
def AddAhead (s : ShutdownSystem) : Prop := s.pc ≠ .exited ∧ (s.pc.Sends ∨ s.More)

/-- The worker is running, and it can reach the loader. -/
def Racing (s : ShutdownSystem) : Prop := s.polling = true ∧ s.AddAhead

/-- The next call of the deletion sends the removal. -/
def AtRemove (s : ShutdownSystem) : Prop :=
  match s.deletion with
  | some (.op (.removeLoaderEndpoint _) _) => True
  | _ => False

/-- The removal is not sent while the worker is racing. -/
def RemoveUncontended (s : ShutdownSystem) (e : ShutdownEvent) (_ : ShutdownSystem) : Prop :=
  e = .deletion → s.AtRemove → ¬ s.Racing

/-! ### What a step can do -/

variable {ep : Endpoint} {buffer : Nat} {s t : ShutdownSystem} {e : ShutdownEvent}

/-- The worker has exited, or was aborted. -/
def Gone (s : ShutdownSystem) : Prop := s.pc = .exited ∨ s.aborted = true

/-- What the calls of a deletion leave alone. -/
structure DeleteFrame (s t : ShutdownSystem) : Prop where
  pc : t.pc = s.pc
  polling : t.polling = s.polling
  queue : t.queue = s.queue
  closed : t.closed = s.closed
  clones : t.clones = s.clones
  held : t.held = true → s.held = true
  aborted : s.aborted = true → t.aborted = true

theorem deleteSem_frame {β : Type} {op : ManagerOp β} {b : β}
    (h : deleteSem ep buffer β op s b t) : DeleteFrame s t := by
  cases op with
  | takeEndpoint id =>
    obtain ⟨-, rfl⟩ := h
    constructor <;> simp
  | waitForShutdown ep timeout =>
    obtain ⟨-, -, rfl⟩ | ⟨-, -, rfl⟩ := h
    · constructor <;> simp
    · constructor <;> simp
  | removeLoaderEndpoint persist =>
    obtain ⟨-, -, rfl⟩ | ⟨-, -, rfl⟩ := h
    · constructor <;> simp [enqueue]
    · constructor <;> simp
  | shutdown ep =>
    obtain rfl : t = _ := h
    constructor <;> simp
  | _ =>
    obtain rfl : t = s := h
    constructor <;> simp

theorem DeleteFrame.more (h : DeleteFrame s t) (ht : t.More) : s.More := by
  obtain hqueue | ⟨hclosed, hhandles⟩ := ht
  · exact .inl (h.queue ▸ hqueue)
  · exact .inr ⟨h.closed ▸ hclosed, hhandles.imp (h.clones ▸ ·) h.held⟩

/-- The worker's way to the loader only closes. -/
theorem Step.addAhead (h : Step ep buffer s e t) (ht : t.AddAhead) : s.AddAhead := by
  obtain ⟨hpc, hahead⟩ := ht
  cases h with
  | call h hopen hroom => exact ⟨hpc, hahead.imp_right fun _ => .inr ⟨hopen, .inl h⟩⟩
  | clone h => exact ⟨hpc, hahead.imp_right fun hmore => hmore.imp_right fun ho => ⟨ho.1, h⟩⟩
  | drop h => exact ⟨hpc, hahead.imp_right fun hmore => hmore.imp_right fun ho => ⟨ho.1, .inl h⟩⟩
  | poll | park | dispatch | otherCommand | loaderExit | delete => exact ⟨hpc, hahead⟩
  | cancel | disconnected | drained => exact absurd rfl hpc
  | stopped hpolling hreceiving hstop =>
    refine ⟨by rw [hreceiving]; nofun, .inr ?_⟩
    obtain h | h | ⟨h, -⟩ := hahead
    · exact h.elim
    · exact .inl h
    · cases h
  | receive hpolling hreceiving hstop queue hqueue =>
    exact ⟨by rw [hreceiving]; nofun, .inr (.inl (by rw [hqueue]; nofun))⟩
  | drainNext hpolling hdraining queue hqueue =>
    exact ⟨by rw [hdraining]; nofun, .inr (.inl (by rw [hqueue]; nofun))⟩
  | work hpolling drain op k hhandling hop b =>
    -- An addition that remains of the worker's program was part of it before.
    refine ⟨by rw [hhandling]; nofun, hahead.imp_left fun h => ?_⟩
    rw [hhandling]
    exact fun huses => h (huses.2 b)
  | send hpolling drain persist k hhandling hopen hroom =>
    refine ⟨by rw [hhandling]; nofun, .inl ?_⟩
    rw [hhandling]
    -- The next operation of the program is the addition.
    exact fun huses => huses.1
  | sendFailed hpolling drain persist k hhandling hopen =>
    refine ⟨by rw [hhandling]; nofun, .inl ?_⟩
    rw [hhandling]
    exact fun huses => huses.1
  | replied hpolling drain k hreplying r hreply =>
    refine ⟨by rw [hreplying]; nofun, hahead.imp_left fun h => ?_⟩
    rw [hreplying]
    exact ⟨r, h⟩
  | finish hpolling drain result after hhandling =>
    refine ⟨by rw [hhandling]; nofun, .inr ?_⟩
    obtain h | h := hahead
    · cases drain <;> exact h.elim
    · exact h
  | deleteCall t op k hdeletion b h =>
    have hframe := deleteSem_frame h
    refine ⟨hframe.pc ▸ hpc, hahead.imp (hframe.pc ▸ ·) hframe.more⟩

/-- A worker that is gone is never polled again. -/
theorem Step.racing (h : Step ep buffer s e t) (hs : s.Gone) (ht : t.Racing) : s.Racing := by
  obtain ⟨hpolling, hahead⟩ := ht
  have hahead' := h.addAhead hahead
  refine ⟨?_, hahead'⟩
  have haborted : s.aborted = true := hs.resolve_left hahead'.1
  cases h with
  | poll hpc habort =>
    rw [haborted] at habort
    cases habort
  | park hpc hpoll => exact hpoll
  | cancel | disconnected | drained => exact absurd rfl hahead.1
  | deleteCall t op k hdeletion b h =>
    exact (deleteSem_frame h).polling ▸ hpolling
  | _ => exact hpolling

/-- A worker that is gone stays gone. -/
theorem Step.gone (h : Step ep buffer s e t) (hs : s.Gone) : t.Gone := by
  -- A step of the worker itself shows that it has not exited, so it was aborted.
  have haborted : s.pc ≠ .exited → s.aborted = true := hs.resolve_left
  cases h with
  | cancel | disconnected | drained => exact .inl rfl
  | call | clone | drop | poll | park | dispatch | otherCommand | loaderExit | delete => exact hs
  | stopped hpolling hpc hstop => exact .inr (haborted (by rw [hpc]; nofun))
  | receive hpolling hpc hstop queue hqueue => exact .inr (haborted (by rw [hpc]; nofun))
  | drainNext hpolling hpc queue hqueue => exact .inr (haborted (by rw [hpc]; nofun))
  | work hpolling drain op k hpc hop b => exact .inr (haborted (by rw [hpc]; nofun))
  | send hpolling drain persist k hpc hopen hroom => exact .inr (haborted (by rw [hpc]; nofun))
  | sendFailed hpolling drain persist k hpc hopen =>
    exact .inr (haborted (by rw [hpc]; nofun))
  | replied hpolling drain k hpc r hreply => exact .inr (haborted (by rw [hpc]; nofun))
  | finish hpolling drain result after hpc => exact .inr (haborted (by rw [hpc]; nofun))
  | deleteCall t op k hdeletion b h =>
    have hframe := deleteSem_frame h
    exact hs.imp (hframe.pc ▸ ·) hframe.aborted

/-- What a call of a deletion sends. -/
theorem deleteSem_sent {β : Type} {op : ManagerOp β} {b : β}
    (h : deleteSem ep buffer β op s b t) : t.sent = s.sent ∨
      ∃ persist, t.sent = s.sent ++ [.removeLoaderEndpoint persist] ∧
        ∀ k : β → Prog ManagerOp (Res Unit), s.deletion = some (.op op k) → s.AtRemove := by
  cases op with
  | takeEndpoint id => exact .inl (h.2 ▸ rfl)
  | waitForShutdown ep timeout =>
    obtain ⟨-, -, rfl⟩ | ⟨-, -, rfl⟩ := h
    · exact .inl rfl
    · exact .inl rfl
  | removeLoaderEndpoint persist =>
    obtain ⟨-, -, rfl⟩ | ⟨-, -, rfl⟩ := h
    · refine .inr ⟨persist, rfl, fun k hdeletion => ?_⟩
      rw [AtRemove, hdeletion]
      trivial
    · exact .inl rfl
  | shutdown ep =>
    obtain rfl : t = _ := h
    exact .inl rfl
  | _ =>
    obtain rfl : t = s := h
    exact .inl rfl

/-- **Step.** What a step sends: an add only from a racing worker, a removal only from the
    deletion. -/
theorem Step.sent (h : Step ep buffer s e t) : t.sent = s.sent ∨ ∃ c, t.sent = s.sent ++ [c] ∧
    (c.IsAdd → s.Racing) ∧ (c.IsRemove → e = .deletion ∧ s.AtRemove) := by
  cases h with
  | send hpolling drain persist k hpc hopen hroom =>
    refine .inr ⟨_, rfl, fun _ => ⟨hpolling, by rw [hpc]; nofun, .inl ?_⟩, nofun⟩
    rw [hpc]
    exact fun huses => huses.1
  | otherCommand hopen hroom => exact .inr ⟨_, rfl, nofun, nofun⟩
  | deleteCall t op k hdeletion b h =>
    obtain hsame | ⟨persist, hsent, hat⟩ := deleteSem_sent h
    · exact .inl hsame
    · exact .inr ⟨_, hsent, nofun, fun _ => ⟨rfl, hat k hdeletion⟩⟩
  | _ => exact .inl rfl

/-! ### The deletion waits for the worker -/

/-- Waiting for the worker. -/
def IsWait : ∀ β : Type, ManagerOp β → Prop
  | _, .waitForShutdown _ _ => True
  | _, _ => False

/-- Anything but the removal. -/
def NotRemove : ∀ β : Type, ManagerOp β → Prop
  | _, .removeLoaderEndpoint _ => False
  | _, _ => True

/-- `delete_endpoint` waits for the worker before it removes the endpoint. -/
theorem deleteEndpoint_waits (id : EndpointId) (timeout : Option Nat) :
    (deleteEndpoint id timeout).UsesUntil IsWait NotRemove := by
  refine .inr ⟨trivial, fun ep => ?_⟩
  cases ep with
  | none => exact .inr ⟨trivial, fun _ => trivial⟩
  | some ep => exact .inr ⟨trivial, fun _ => .inl trivial⟩

/-- A deletion that has waited finds the worker gone. -/
theorem deleteSem_gone {β : Type} {op : ManagerOp β} {b : β} (hop : IsWait β op)
    (h : deleteSem ep buffer β op s b t) : t.Gone := by
  cases op with
  | waitForShutdown ep timeout =>
    obtain ⟨hpc, -, rfl⟩ | ⟨-, -, rfl⟩ := h
    · exact .inl hpc
    · exact .inr rfl
  | _ => exact hop.elim

/-- What holds of every reachable state: before the deletion has waited, it is not about to
    remove; after the removal was sent the worker is gone and out of the race. -/
structure Invariant (s : ShutdownSystem) : Prop where
  waits : ∀ rest, s.deletion = some rest → rest.UsesUntil IsWait NotRemove ∨ s.Gone
  removed : (∃ c ∈ s.sent, c.IsRemove) → s.Gone ∧ ¬ s.Racing
  ordered : s.NoAddAfterRemove

theorem gone_of_atRemove (hs : s.Invariant) (h : s.AtRemove) : s.Gone := by
  unfold AtRemove at h
  split at h
  next persist k hdeletion =>
    obtain (hstop | ⟨hnot, -⟩) | hgone := hs.waits _ hdeletion
    · exact hstop.elim
    · exact hnot.elim
    · exact hgone
  next => exact h.elim

theorem Step.waits (h : Step ep buffer s e t) (hs : s.Invariant)
    (rest : Prog ManagerOp (Res Unit)) (hrest : t.deletion = some rest) :
    rest.UsesUntil IsWait NotRemove ∨ t.Gone := by
  have hgone := h.gone
  cases h with
  | delete hdeletion timeout =>
    obtain rfl := Option.some.inj hrest
    exact .inl (deleteEndpoint_waits ep.id timeout)
  | deleteCall t op k hdeletion b h =>
    obtain rfl := Option.some.inj hrest
    obtain (hwait | ⟨-, huses⟩) | hs := hs.waits _ hdeletion
    · have hwaited : t.Gone := deleteSem_gone hwait h
      exact .inr hwaited
    · exact .inl (huses b)
    · exact .inr (hgone hs)
  | _ => exact (hs.waits rest hrest).imp_right hgone

/-- **Step.** Every step keeps the invariant, unless it sends the removal against a racing
    worker. -/
theorem invariant_step (h : Step ep buffer s e t) (huncontended : s.RemoveUncontended e t)
    (hs : s.Invariant) : t.Invariant := by
  have hquiet : s.Gone ∧ ¬ s.Racing → t.Gone ∧ ¬ t.Racing :=
    fun hs => ⟨h.gone hs.1, fun ht => hs.2 (h.racing hs.1 ht)⟩
  obtain hsame | ⟨c, hsent, hadd, hremove⟩ := h.sent
  · refine ⟨h.waits hs, fun hr => hquiet (hs.removed (hsame ▸ hr)), ?_⟩
    rw [NoAddAfterRemove, hsame]
    exact hs.ordered
  · refine ⟨h.waits hs, ?_, ?_⟩
    · rintro ⟨d, hd, hdremove⟩
      rw [hsent, List.mem_append, List.mem_singleton] at hd
      obtain hd | rfl := hd
      · exact hquiet (hs.removed ⟨d, hd, hdremove⟩)
      · obtain ⟨he, hat⟩ := hremove hdremove
        exact hquiet ⟨gone_of_atRemove hs hat, huncontended he hat⟩
    · rw [NoAddAfterRemove, hsent, List.pairwise_append]
      refine ⟨hs.ordered, List.pairwise_singleton _ _, fun d hd a ha hdremove haadd => ?_⟩
      -- An add is sent by a racing worker only, and there is none after the removal.
      obtain rfl := List.mem_singleton.mp ha
      exact (hs.removed ⟨d, hd, hdremove⟩).2 (hadd haadd)

/-- **No add after the removal.** Over every interleaving of callers, worker, loader and
    deletion, with any drain timeout, in which the removal is not sent while the worker is
    racing: no add is enqueued to the loader after it. -/
theorem no_add_after_remove {persist : EndpointPersist} {clones : Nat} {s : ShutdownSystem}
    (run : Run (Step ep buffer) (init persist clones) s)
    (h : run.EachStep RemoveUncontended) : run.Always NoAddAfterRemove := by
  have hinit : (init persist clones).Invariant := by
    refine ⟨nofun, ?_, List.Pairwise.nil⟩
    rintro ⟨c, hc, -⟩
    cases hc
  exact (Run.always_of_eachStep hinit (fun s e t => invariant_step) run h).mono
    fun s hs => hs.ordered

/-- Calls that do not await, with any answers. -/
def blocking : Sem WorkerOp Unit := fun β op _ _ _ => WorkerOp.Blocking β op

/-- The worker makes such calls while its thread runs it. -/
theorem exists_run_works (ep : Endpoint) (buffer : Nat)
    {p q : Prog WorkerOp (Res Unit × EndpointState)} {tr : List (Answered WorkerOp)} {u v : Unit}
    (hx : Exec blocking p u tr q v) :
    ∀ (s : ShutdownSystem) (drain : Bool), s.polling = true → s.pc = .handling drain p →
      ∃ run : Run (Step ep buffer) s { s with pc := .handling drain q },
        run.EachStep RemoveUncontended := by
  induction hx with
  | refl p _ =>
    intro s drain _ hpc
    rw [← hpc]
    exact ⟨.nil, trivial⟩
  | step op k _ b _ tr q _ hop _ ih =>
    intro s drain hpolling hpc
    obtain ⟨run, hrun⟩ := ih { s with pc := .handling drain (k b) } drain hpolling rfl
    have hwork : Step ep buffer s .worker { s with pc := .handling drain (k b) } :=
      .work s hpolling drain op k hpc hop b
    refine ⟨(Run.nil.snoc s .worker _ hwork).append run, ?_⟩
    exact (Run.eachStep_append _ _).mpr ⟨⟨trivial, fun he => by cases he⟩, hrun⟩

theorem blocking_step {β : Type} {op : WorkerOp β}
    {k : β → Prog WorkerOp (Res Unit × EndpointState)} {b : β} {tr : List (Answered WorkerOp)}
    {q : Prog WorkerOp (Res Unit × EndpointState)} (hop : WorkerOp.Blocking β op)
    (h : Exec blocking (k b) () tr q ()) : Exec blocking (.op op k) () (⟨op, b⟩ :: tr) q () :=
  .step op k () b () tr q () hop h

/-- A regeneration up to where it comes to the loader, and from an attachment to its end. -/
theorem regenerate_blocks : ∃ tr k tr' after,
    Exec blocking (regenerate.runFrom { persist := { id := 1 } }) () tr
      (.op (.addLoaderEndpoint { id := 1 }) k) () ∧
    Exec blocking (k (.ok ())) () tr' (.pure (.ok (), after)) () := by
  exact ⟨_, _, _, _,
    -- `_next` is prepared, and the state file is written.
    blocking_step (b := Except.ok ()) trivial <| blocking_step (b := Except.ok ()) trivial <|
    blocking_step (b := Except.ok ()) trivial <| blocking_step (b := Except.ok ()) trivial <|
    blocking_step (b := Except.ok ()) trivial <| blocking_step (b := Except.ok ()) trivial <|
    blocking_step (b := Except.ok ()) trivial <| blocking_step (b := Except.ok ()) trivial <|
    .refl _ _,
    -- The directories are put in place, and the state is published.
    blocking_step (b := Except.ok ()) trivial <| blocking_step (b := Except.ok ()) trivial <|
    blocking_step (b := Except.ok ()) trivial <| blocking_step (b := Except.ok ()) trivial <|
    blocking_step (b := Except.ok ()) trivial <| blocking_step (b := ()) trivial <| .refl _ _⟩

/-- An endpoint with a queued regeneration is deleted: the worker handles it in its drain, the
    loader attaches the endpoint, and the removal is sent. -/
theorem drained_no_add_after_remove :
    ∃ s, ∃ run : Run (Step (.new { id := 1 }) 16) (init { id := 1 } 1) s,
      s.sent = [.addLoaderEndpoint { id := 1 }, .removeLoaderEndpoint { id := 1 }] ∧
        run.Always NoAddAfterRemove := by
  obtain ⟨_, k, _, after, hbefore, hafter⟩ := regenerate_blocks
  let last : ∀ {s : ShutdownSystem},
    Run (Step (.new { id := 1 }) 16) (init { id := 1 } 1) s → ShutdownSystem := fun {s} _ => s
  let queued : Run (Step (.new { id := 1 }) 16) (init { id := 1 } 1) _ :=
    (Run.nil).snoc _ .caller _ (.call _ (by decide) rfl (by decide))
  let taken := (queued.snoc _ .deletion _ (.delete _ rfl (some 5))).snoc _ .deletion _
    (.deleteCall _ _ _ _ rfl (some (.new { id := 1 })) (by exact ⟨rfl, rfl⟩))
  let stopping := taken.snoc _ .deletion _ (.deleteCall _ _ _ _ rfl () (by exact rfl))
  let draining := ((stopping.snoc _ .runtime _ (.poll _ nofun rfl)).snoc _ .worker _
    (.stopped _ rfl rfl rfl)).snoc _ .worker _ (.drainNext _ rfl rfl [] rfl)
  obtain ⟨works, hworks⟩ :=
    exists_run_works (.new { id := 1 }) 16 hbefore (last draining) true rfl rfl
  let sent := (draining.append works).snoc _ .worker _
    (.send _ rfl true { id := 1 } k rfl rfl (Nat.zero_lt_succ 15))
  have hadd : (LoaderCommand.addLoaderEndpoint { id := 1 }).IsAdd := trivial
  let replied := (sent.snoc _ .loader _ (.dispatch _ _ [] rfl (some (.ok ())) fun h =>
    absurd hadd h)).snoc _ .worker _ (.replied _ rfl true k rfl (.ok ()) (.inl rfl))
  obtain ⟨rest, hrest⟩ :=
    exists_run_works (.new { id := 1 }) 16 hafter (last replied) true rfl rfl
  let drained := ((replied.append rest).snoc _ .worker _ (.finish _ rfl true _ _ rfl)).snoc _
    .worker _ (.drained _ rfl rfl rfl)
  let waited := drained.snoc _ .deletion _
    (.deleteCall _ _ _ _ rfl (Except.ok ()) (by exact .inl ⟨rfl, rfl, rfl⟩))
  let removed := waited.snoc _ .deletion _
    (.deleteCall _ _ _ _ rfl (Except.ok ()) (by exact .inl ⟨rfl, Nat.zero_lt_succ 15, rfl⟩))
  refine ⟨_, removed, rfl, no_add_after_remove removed ?_⟩
  have hdraining : draining.EachStep RemoveUncontended :=
    ⟨⟨⟨⟨⟨⟨⟨trivial, nofun⟩, fun _ h => h.elim⟩, fun _ h => h.elim⟩, fun _ h => h.elim⟩, nofun⟩,
      nofun⟩, nofun⟩
  have hreplied : replied.EachStep RemoveUncontended :=
    ⟨⟨⟨(Run.eachStep_append _ _).mpr ⟨hdraining, hworks⟩, nofun⟩, nofun⟩, nofun⟩
  have hdrained : drained.EachStep RemoveUncontended :=
    ⟨⟨(Run.eachStep_append _ _).mpr ⟨hreplied, hrest⟩, nofun⟩, nofun⟩
  -- The worker has exited when the deletion comes to its removal.
  exact ⟨⟨hdrained, fun _ h => h.elim⟩, fun _ _ h => h.2.1 rfl⟩

/-- **An add behind the removal.** The worker runs a regeneration when the drain times out;
    it is aborted, the removal is sent, and the worker comes to its add before it awaits. -/
theorem add_after_remove : ¬ ∀ (s : ShutdownSystem)
    (run : Run (Step (.new { id := 1 }) 16) (init { id := 1 } 1) s),
    run.Always NoAddAfterRemove := by
  intro hall
  let r₁ : Run (Step (.new { id := 1 }) 16) (init { id := 1 } 1) _ :=
    (((Run.nil).snoc _ .caller _ (.call _ (by decide) rfl (by decide))).snoc _ .runtime _
      (.poll _ nofun rfl)).snoc _ .worker _ (.receive _ rfl rfl rfl [] rfl)
  -- The deletion times out while the worker runs.
  let r₂ := (((r₁.snoc _ .deletion _ (.delete _ rfl (some 5))).snoc _ .deletion _
    (.deleteCall _ _ _ _ rfl (some (.new { id := 1 })) (by exact ⟨rfl, rfl⟩))).snoc _ .deletion _
    (.deleteCall _ _ _ _ rfl () (by exact rfl))).snoc _ .deletion _
    (.deleteCall _ _ _ _ rfl (Except.error (.generalError "endpoint 1 did not drain"))
      (by exact .inr ⟨nofun, ⟨_, rfl⟩, rfl⟩))
  let r₃ := r₂.snoc _ .deletion _
    (.deleteCall _ _ _ _ rfl (Except.ok ()) (by exact .inl ⟨rfl, by decide, rfl⟩))
  -- The worker prepares `_next`, writes the state file and comes to the loader.
  let r₄ := ((r₃.snoc _ .worker _ (.work _ rfl _ _ _ rfl (by exact trivial) (Except.ok ()))).snoc
    _ .worker _ (.work _ rfl _ _ _ rfl (by exact trivial) (Except.ok ()))).snoc
    _ .worker _ (.work _ rfl _ _ _ rfl (by exact trivial) (Except.ok ()))
  let r₅ := ((((r₄.snoc _ .worker _ (.work _ rfl _ _ _ rfl (by exact trivial)
    (Except.ok ()))).snoc _ .worker _ (.work _ rfl _ _ _ rfl (by exact trivial)
    (Except.ok ()))).snoc _ .worker _ (.work _ rfl _ _ _ rfl (by exact trivial)
    (Except.ok ()))).snoc _ .worker _ (.work _ rfl _ _ _ rfl (by exact trivial)
    (Except.ok ()))).snoc _ .worker _ (.work _ rfl _ _ _ rfl (by exact trivial) (Except.ok ()))
  let r₆ := r₅.snoc _ .worker _ (.send _ rfl _ _ _ rfl rfl (by decide))
  have hordered : NoAddAfterRemove _ := (hall _ r₆).last
  exact (List.pairwise_cons.mp hordered).1 _ List.mem_cons_self trivial trivial

end ShutdownSystem

end Sarena
