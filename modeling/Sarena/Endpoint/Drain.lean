import Mathlib.Logic.Function.Basic
import Sarena.Endpoint.Shutdown
import Sarena.Lib.Channel

namespace Sarena

open Lib

/-!
# Endpoint — draining the worker's queue

Callers send their commands through the handles of an endpoint, and may give up at any time.
The worker looks at the cancellation token before each command; once that is cancelled it
closes the channel and handles what is still in it.  Nobody aborts the worker here.

* `DrainSystem` — the calls of `regenerate`, the handles, the channel and the worker;
* `DrainStep` — their interleavings;
* `Drained`, `ExitFinal` — what is promised in every state, and of every step;
* `worker_drains` — every run keeps these promises; by `regenerate_neverGone` a command that
  was executed is never answered with `ActorGone`.
-/

/-! ### The system -/

/-- Where a call of `Endpoint::call` stands. -/
inductive Call
  /-- At `send`. -/
  | sending
  /-- Waiting for the reply. -/
  | awaiting
  | returned (result : Res Unit)
  /-- The caller has dropped the future. -/
  | dropped

/-- Where `EndpointWorker::run` stands. -/
inductive DrainPc
  /-- At the `select!` of the loop: the token is polled next. -/
  | receiving
  /-- At the `select!`: the channel is polled next. -/
  | polled
  /-- Out of the loop, before `close`. -/
  | closing
  /-- At `recv` of the drain. -/
  | draining
  /-- In `handle` with the command of a call, for the loop or for the drain. -/
  | handling (drain : Bool) (n : Nat) (rest : Prog WorkerOp (Res Unit × EndpointState))
  | exited

/-- The command that is being handled. -/
def DrainPc.inHand : DrainPc → List Nat
  | .handling _ n _ => [n]
  | _ => []

/-- The callers of an endpoint and its worker.  Calls are numbered; a command is the number
    of its call. -/
structure DrainSystem where
  channel : Channel Nat
  calls : Nat → Option Call
  /-- The clones of the handle, each with a sender of the channel. -/
  handles : Nat
  /-- The cancellation token. -/
  stop : Bool
  pc : DrainPc
  state : EndpointState
  /-- What was sent to the call's `oneshot`. -/
  replies : Nat → Option (Res Unit)
  /-- The commands whose handling has ended, in order; no step reads it. -/
  finished : List Nat

/-- Who takes a step. -/
inductive DrainEvent
  | caller
  | worker
  deriving DecidableEq, Repr

namespace DrainSystem

/-- `Endpoint::new`: one handle, and a worker that was not polled yet. -/
def init (state : EndpointState) : DrainSystem where
  channel := { capacity := eventQueueCapacity }
  calls := fun _ => none
  handles := 1
  stop := false
  pc := .receiving
  state := state
  replies := fun _ => none
  finished := []

/-- A call gets to another place. -/
def setCall (s : DrainSystem) (n : Nat) (call : Call) : DrainSystem :=
  { s with calls := Function.update s.calls n (some call) }

/-- The worker handles the command it has received. -/
def handle (s : DrainSystem) (drain : Bool) (n : Nat) (channel : Channel Nat) : DrainSystem :=
  { s with channel := channel, pc := .handling drain n (regenerate.runFrom s.state) }

/-- `handle` is done: the reply is sent, to whoever waits for it. -/
def finish (s : DrainSystem) (drain : Bool) (n : Nat) (result : Res Unit)
    (after : EndpointState) : DrainSystem :=
  { s with
    pc := if drain then .draining else .receiving
    state := after
    replies := Function.update s.replies n (some result)
    finished := s.finished ++ [n] }

/-- `run` has returned: the receiver is dropped. -/
def exitWorker (s : DrainSystem) : DrainSystem :=
  { s with channel := s.channel.dropReceiver, pc := .exited }

/-- No call is on its way through a handle. -/
def NoCall (s : DrainSystem) : Prop :=
  ∀ n, s.calls n ≠ some .sending ∧ s.calls n ≠ some .awaiting

end DrainSystem

/-- Callers and the worker, in any order. -/
inductive DrainStep : DrainSystem → DrainEvent → DrainSystem → Prop
  /-- `Endpoint::regenerate` is called on some handle. -/
  | call (s : DrainSystem) (n : Nat) (hhandle : 0 < s.handles) (hn : s.calls n = none) :
      DrainStep s .caller (s.setCall n .sending)
  | reserve (s : DrainSystem) (n : Nat) (hcall : s.calls n = some .sending)
      (hn : n ∉ s.channel.reserved) (channel : Channel Nat)
      (hreserve : s.channel.reserve n = some channel) :
      DrainStep s .caller { s with channel := channel }
  | push (s : DrainSystem) (n : Nat) (hn : n ∈ s.channel.reserved) :
      DrainStep s .caller { s.setCall n .awaiting with channel := s.channel.push n }
  | refused (s : DrainSystem) (n : Nat) (hcall : s.calls n = some .sending)
      (hn : n ∉ s.channel.reserved) (hclosed : s.channel.closed = true) :
      DrainStep s .caller (s.setCall n (.returned (.error .actorGone)))
  | replied (s : DrainSystem) (n : Nat) (hcall : s.calls n = some .awaiting) (result : Res Unit)
      (hreply : s.replies n = some result) : DrainStep s .caller (s.setCall n (.returned result))
  /-- The reply's sender is gone. -/
  | lost (s : DrainSystem) (n : Nat) (hcall : s.calls n = some .awaiting) (hexit : s.pc = .exited)
      (hreply : s.replies n = none) :
      DrainStep s .caller (s.setCall n (.returned (.error .actorCancelled)))
  /-- A call is dropped at one of its await points. -/
  | giveUp (s : DrainSystem) (n : Nat)
      (hcall : s.calls n = some .sending ∧ n ∉ s.channel.reserved ∨
        s.calls n = some .awaiting) : DrainStep s .caller (s.setCall n .dropped)
  | clone (s : DrainSystem) (hhandle : 0 < s.handles) :
      DrainStep s .caller { s with handles := s.handles + 1 }
  /-- The last handle is not dropped while a call borrows it. -/
  | drop (s : DrainSystem) (hhandle : 1 < s.handles ∨ s.handles = 1 ∧ s.NoCall) :
      DrainStep s .caller { s with handles := s.handles - 1 }
  /-- `Endpoint::shutdown`. -/
  | shutdown (s : DrainSystem) (hhandle : 0 < s.handles) :
      DrainStep s .caller { s with stop := true }
  | stopped (s : DrainSystem) (hpc : s.pc = .receiving) (hstop : s.stop = true) :
      DrainStep s .worker { s with pc := .closing }
  | notStopped (s : DrainSystem) (hpc : s.pc = .receiving) (hstop : s.stop = false) :
      DrainStep s .worker { s with pc := .polled }
  | receive (s : DrainSystem) (hpc : s.pc = .polled) (n : Nat) (channel : Channel Nat)
      (hrecv : s.channel.recv = some (n, channel)) :
      DrainStep s .worker (s.handle false n channel)
  | pending (s : DrainSystem) (hpc : s.pc = .polled) (hqueue : s.channel.queue = []) :
      DrainStep s .worker { s with pc := .receiving }
  /-- All senders are gone. -/
  | disconnected (s : DrainSystem) (hpc : s.pc = .polled) (hqueue : s.channel.queue = [])
      (hhandles : s.handles = 0) : DrainStep s .worker s.exitWorker
  | close (s : DrainSystem) (hpc : s.pc = .closing) :
      DrainStep s .worker { s with pc := .draining, channel := s.channel.close }
  | drainNext (s : DrainSystem) (hpc : s.pc = .draining) (n : Nat) (channel : Channel Nat)
      (hrecv : s.channel.recv = some (n, channel)) :
      DrainStep s .worker (s.handle true n channel)
  | drained (s : DrainSystem) (hpc : s.pc = .draining) (hfinished : s.channel.Finished) :
      DrainStep s .worker s.exitWorker
  /-- One call of `regenerate`, with any answer. -/
  | work (s : DrainSystem) (drain : Bool) (n : Nat) {β : Type} (op : WorkerOp β)
      (k : β → Prog WorkerOp (Res Unit × EndpointState))
      (hpc : s.pc = .handling drain n (.op op k)) (b : β) :
      DrainStep s .worker { s with pc := .handling drain n (k b) }
  | finish (s : DrainSystem) (drain : Bool) (n : Nat) (result : Res Unit)
      (after : EndpointState) (hpc : s.pc = .handling drain n (.pure (result, after))) :
      DrainStep s .worker (s.finish drain n result after)

/-! ### What is promised -/

/-- What is promised in every state. -/
structure Drained (s : DrainSystem) : Prop where
  /-- Commands are taken up in the order in which the channel accepted them. -/
  fifo : s.channel.accepted = s.finished ++ s.pc.inHand ++ s.channel.queue
  /-- No command is accepted, and so none is handled, twice. -/
  once : s.channel.accepted.Nodup
  /-- When the worker has exited, all that was accepted has been handled. -/
  exited : s.pc = .exited → s.finished = s.channel.accepted
  /-- A command refused with `ActorGone` was not accepted. -/
  refused : ∀ n, s.calls n = some (.returned (.error .actorGone)) → n ∉ s.channel.accepted

/-- What is promised of every step: after the exit nothing is handled, nor accepted, and an
    answer is final. -/
def ExitFinal (s : DrainSystem) (_ : DrainEvent) (t : DrainSystem) : Prop :=
  (s.pc = .exited → t.pc = .exited ∧ t.finished = s.finished ∧
      t.channel.accepted = s.channel.accepted) ∧
    ∀ n result, s.calls n = some (.returned result) → t.calls n = some (.returned result)

/-! ### What a regeneration answers -/

/-- Whatever the answers to its calls are, the program does not return `ActorGone`. -/
def NeverGone (p : Prog WorkerOp (Res Unit × EndpointState)) : Prop :=
  p.Guards anyAnswer (fun _ _ _ => True) (fun r _ => r.1 ≠ .error .actorGone) ()

/-- The same of a fallible part of it. -/
def PartNeverGone {α : Type} (p : FsM α) : Prop :=
  p.run.Guards anyAnswer (fun _ _ _ => True)
    (Prog.orError (fun _ _ => True) fun e _ => e ≠ .actorGone) ()

section

variable {α β : Type}

theorem PartNeverGone.bind {p : FsM α} {f : α → FsM β} (hp : PartNeverGone p)
    (hf : ∀ a, PartNeverGone (f a)) : PartNeverGone (p >>= f) :=
  Prog.guards_try _ hp fun a _ _ => hf a

theorem neverGone_pure (a : α) : PartNeverGone (pure a) := trivial

/-- File-system errors are not `ActorGone`. -/
theorem neverGone_io (p : Prog WorkerOp (IoResult α)) : PartNeverGone (FsM.io p) := by
  apply Prog.guards_bind (Prog.guards_true p ())
  intro r _ _
  cases r with
  | ok a => trivial
  | error e =>
    intro he
    cases he

theorem neverGone_throw (e : IoError) : PartNeverGone (throw (.fileError e) : FsM α) := by
  intro he
  cases he

/-- A result that the code looks at itself. -/
theorem neverGone_result (p : Prog WorkerOp α) : PartNeverGone (FsM.result p) :=
  Prog.guards_lift (Prog.guards_true p ())

theorem synchronizeDirectories_neverGone (id : EndpointId) :
    PartNeverGone (synchronizeDirectories id) := by
  apply (neverGone_io _).bind
  intro _
  apply PartNeverGone.bind
  · apply (neverGone_result _).bind
    intro r
    cases r with
    | ok _ => exact neverGone_pure true
    | error e =>
      -- A directory that is not there is no error here.
      dsimp only
      split
      · exact neverGone_pure false
      · exact neverGone_throw e
  intro hadCurrent
  apply (neverGone_result _).bind
  intro r
  cases r with
  | ok _ =>
    apply (neverGone_result _).bind
    intro _
    exact neverGone_pure ()
  | error e =>
    dsimp only
    split
    · apply (neverGone_result _).bind
      intro _
      exact neverGone_throw e
    · exact neverGone_throw e

/-- A method of the worker whose errors are not `ActorGone`. -/
def MethodNeverGone (p : WorkerM α) : Prop :=
  ∀ state, (p.run.run state).Guards anyAnswer (fun _ _ _ => True)
    (Prog.orErrorAt (fun _ _ _ => True) fun e _ _ => e ≠ .actorGone) ()

theorem MethodNeverGone.bind {p : WorkerM α} {f : α → WorkerM β} (hp : MethodNeverGone p)
    (hf : ∀ a, MethodNeverGone (f a)) : MethodNeverGone (p >>= f) := fun state =>
  Prog.guards_tryAt (fun _ _ _ => True) (hp state) fun a w _ _ => hf a w

theorem PartNeverGone.fs {p : FsM α} (h : PartNeverGone p) : MethodNeverGone (WorkerM.fs p) :=
  fun _ => Prog.guards_liftAt h

theorem methodNeverGone_get : MethodNeverGone get := fun _ => trivial

theorem methodNeverGone_modify (f : EndpointState → EndpointState) :
    MethodNeverGone (modify f) := fun _ => trivial

end

/-- **The error of a failed attachment is not passed on.** Whatever the loader answers, a
    regeneration does not answer `ActorGone`. -/
theorem regenerate_neverGone (state : EndpointState) : NeverGone (regenerate.runFrom state) := by
  have hmethod : MethodNeverGone regenerate := by
    apply methodNeverGone_get.bind
    intro state
    have hprepare : PartNeverGone (prepareNext state.id) :=
      (neverGone_io _).bind fun _ => (neverGone_io _).bind fun _ => neverGone_io _
    have hkeep : PartNeverGone (keepFailed state.id) :=
      (neverGone_io _).bind fun _ => neverGone_io _
    apply hprepare.fs.bind
    intro _
    -- The result of the attachment is kept as a value, and settled in either case.
    apply (neverGone_result _).fs.bind
    intro result
    apply MethodNeverGone.bind
    · cases result with
      | ok revision =>
        apply (synchronizeDirectories_neverGone state.id).fs.bind
        intro _
        exact methodNeverGone_modify _
      | error e =>
        apply (methodNeverGone_modify _).bind
        intro _
        exact hkeep.fs
    intro _
    apply (neverGone_io _).fs.bind
    intro _
    apply methodNeverGone_get.bind
    intro state
    exact (neverGone_result _).fs
  apply (hmethod state).imp
  rintro ⟨r, after⟩ _ hr
  cases r with
  | ok a =>
    intro he
    cases he
  | error e =>
    intro he
    exact hr (Except.error.inj he)

/-! ### The invariant -/

/-- Where a call can stand whose command was accepted. -/
def Call.Pushed : Call → Prop
  | .sending => False
  | .awaiting => True
  | .returned result => result ≠ .error .actorGone
  | .dropped => True

/-- The invariant of the callers, the channel and the worker. -/
structure DrainInv (s : DrainSystem) : Prop where
  fifo : s.channel.Fifo
  started : s.channel.received = s.finished ++ s.pc.inHand
  sending : ∀ n ∈ s.channel.reserved, s.calls n = some .sending
  reservedOnce : s.channel.reserved.Nodup
  once : s.channel.accepted.Nodup
  pushed : ∀ n ∈ s.channel.accepted, ∃ call, s.calls n = some call ∧ call.Pushed
  replies : ∀ n result, s.replies n = some result → result ≠ .error .actorGone
  rest : ∀ drain n p, s.pc = .handling drain n p → NeverGone p
  exited : s.pc = .exited → s.channel.Finished
  handles : s.handles = 0 → s.NoCall

variable {s t : DrainSystem} {e : DrainEvent} {n : Nat}

theorem drainInv_init (state : EndpointState) : DrainInv (.init state) where
  fifo := rfl
  started := rfl
  sending := fun _ hn => nomatch hn
  reservedOnce := List.nodup_nil
  once := List.nodup_nil
  pushed := fun _ hn => nomatch hn
  replies := fun _ _ h => nomatch h
  rest := fun _ _ _ h => nomatch h
  exited := fun h => nomatch h
  handles := fun h => nomatch h

namespace DrainInv

theorem not_accepted (h : DrainInv s) (hcall : s.calls n = none ∨ s.calls n = some .sending) :
    n ∉ s.channel.accepted := by
  intro hn
  obtain ⟨call, hsome, hpushed⟩ := h.pushed n hn
  rcases hcall with hcall | hcall
  · rw [hcall] at hsome
    cases hsome
  · obtain rfl := Option.some.inj (hcall.symm.trans hsome)
    exact hpushed

theorem not_reserved (h : DrainInv s) (hcall : s.calls n ≠ some .sending) :
    n ∉ s.channel.reserved := fun hn => hcall (h.sending n hn)

/-- Without handles nobody has reserved a place. -/
theorem reserved_nil (h : DrainInv s) (hhandles : s.handles = 0) : s.channel.reserved = [] := by
  rw [List.eq_nil_iff_forall_not_mem]
  intro n hn
  exact (h.handles hhandles n).1 (h.sending n hn)

/-- A call gets to another place. -/
theorem setCall (h : DrainInv s) {call : Call} (hreserved : n ∉ s.channel.reserved)
    (hpushed : n ∈ s.channel.accepted → call.Pushed)
    (hhandles : s.handles = 0 → call ≠ .sending ∧ call ≠ .awaiting) :
    DrainInv (s.setCall n call) where
  fifo := h.fifo
  started := h.started
  sending := by
    intro i hi
    -- Those who have a place reserved are other calls.
    have hne : i ≠ n := by
      rintro rfl
      exact hreserved hi
    show Function.update s.calls n _ i = _
    rw [Function.update_of_ne hne]
    exact h.sending i hi
  reservedOnce := h.reservedOnce
  once := h.once
  pushed := by
    intro i hi
    show ∃ call', Function.update s.calls n _ i = _ ∧ _
    by_cases hin : i = n
    · subst hin
      rw [Function.update_self]
      exact ⟨call, rfl, hpushed hi⟩
    · rw [Function.update_of_ne hin]
      exact h.pushed i hi
  replies := h.replies
  rest := h.rest
  exited := h.exited
  handles := by
    intro hnone i
    show Function.update s.calls n _ i ≠ _ ∧ Function.update s.calls n _ i ≠ _
    by_cases hin : i = n
    · subst hin
      rw [Function.update_self]
      obtain ⟨hsending, hawaiting⟩ := hhandles hnone
      exact ⟨fun heq => hsending (Option.some.inj heq), fun heq => hawaiting (Option.some.inj heq)⟩
    · rw [Function.update_of_ne hin]
      exact h.handles hnone i

/-- A place is reserved. -/
theorem reserve (h : DrainInv s) {channel : Channel Nat} (hcall : s.calls n = some .sending)
    (hn : n ∉ s.channel.reserved) (hreserve : s.channel.reserve n = some channel) :
    DrainInv { s with channel := channel } := by
  obtain ⟨hopen, rfl⟩ := Channel.reserve_eq_some hreserve
  exact { h with
    fifo := h.fifo
    sending := by
      intro i hi
      rcases List.mem_cons.mp hi with rfl | hi
      · exact hcall
      · exact h.sending i hi
    reservedOnce := List.nodup_cons.mpr ⟨hn, h.reservedOnce⟩
    exited := by
      intro hpc
      rw [(h.exited hpc).1] at hopen
      cases hopen }

/-- A command gets into the queue. -/
theorem push (h : DrainInv s) (hn : n ∈ s.channel.reserved) :
    DrainInv { s.setCall n .awaiting with channel := s.channel.push n } where
  fifo := h.fifo.push
  started := h.started
  sending := by
    intro i hi
    obtain ⟨hne, hi⟩ := (h.reservedOnce.mem_erase_iff).mp hi
    show Function.update s.calls n _ i = _
    rw [Function.update_of_ne hne]
    exact h.sending i hi
  reservedOnce := h.reservedOnce.erase n
  once := by
    -- A call that is still sending has not been accepted before.
    show (s.channel.accepted ++ [n]).Nodup
    rw [List.nodup_append]
    refine ⟨h.once, List.nodup_singleton n, ?_⟩
    rintro i hi j hj rfl
    rw [List.mem_singleton.mp hj] at hi
    exact h.not_accepted (.inr (h.sending n hn)) hi
  pushed := by
    intro i hi
    show ∃ call, Function.update s.calls n _ i = _ ∧ _
    by_cases hin : i = n
    · subst hin
      rw [Function.update_self]
      exact ⟨.awaiting, rfl, trivial⟩
    · rw [Function.update_of_ne hin]
      rcases List.mem_append.mp hi with hi | hi
      · exact h.pushed i hi
      · exact absurd (List.mem_singleton.mp hi) hin
  replies := h.replies
  rest := h.rest
  exited := by
    intro hpc
    rw [(h.exited hpc).2.1] at hn
    cases hn
  handles := by
    intro hnone
    exact absurd (h.sending n hn) (h.handles hnone n).1

/-- The worker gets to another place of its loop, with nothing in hand. -/
theorem goTo (h : DrainInv s) {pc : DrainPc} (hbefore : s.pc.inHand = []) (hafter : pc.inHand = [])
    (hexit : pc ≠ .exited) : DrainInv { s with pc := pc } :=
  { h with
    fifo := h.fifo
    started := by
      show s.channel.received = s.finished ++ pc.inHand
      rw [hafter, ← hbefore]
      exact h.started
    rest := by
      rintro drain n p hpc
      subst hpc
      cases hafter
    exited := fun hpc => absurd hpc hexit }

/-- The worker takes a command out of the channel. -/
theorem handle (h : DrainInv s) {channel : Channel Nat} (hbefore : s.pc.inHand = [])
    (hrecv : s.channel.recv = some (n, channel)) (drain : Bool) :
    DrainInv (s.handle drain n channel) := by
  have hfifo := h.fifo.recv hrecv
  obtain ⟨queue, hqueue, rfl⟩ := Channel.recv_eq_some hrecv
  exact { h with
    fifo := hfifo
    started := by
      show s.channel.received ++ [n] = s.finished ++ [n]
      rw [h.started, hbefore, List.append_nil]
    rest := by
      rintro drain' n' p hpc
      obtain ⟨-, -, rfl⟩ := DrainPc.handling.inj hpc
      exact regenerate_neverGone s.state
    exited := fun hpc => nomatch hpc }

/-- `run` returns, with nothing in the channel and nobody on the way into it. -/
theorem exitWorker (h : DrainInv s) (hbefore : s.pc.inHand = []) (hqueue : s.channel.queue = [])
    (hreserved : s.channel.reserved = []) : DrainInv s.exitWorker :=
  { h with
    fifo := h.fifo.dropReceiver hqueue
    started := by
      show s.channel.received = s.finished ++ []
      rw [← hbefore]
      exact h.started
    rest := fun _ _ _ hpc => nomatch hpc
    exited := fun _ => ⟨rfl, hreserved, rfl⟩ }

/-- A command is done. -/
theorem finish (h : DrainInv s) {drain : Bool} {result : Res Unit} {after : EndpointState}
    (hpc : s.pc = .handling drain n (.pure (result, after))) :
    DrainInv (s.finish drain n result after) := by
  have hgone : result ≠ .error .actorGone := h.rest drain n _ hpc
  have hstarted := h.started
  rw [hpc] at hstarted
  refine { h with
    fifo := h.fifo
    started := ?_
    replies := ?_
    rest := ?_
    exited := ?_ }
  · show s.channel.received =
      s.finished ++ [n] ++ (if drain then DrainPc.draining else .receiving).inHand
    rw [hstarted]
    cases drain with
    | false => exact (List.append_nil _).symm
    | true => exact (List.append_nil _).symm
  · intro i r hr
    by_cases hin : i = n
    · subst hin
      have hself : Function.update s.replies i (some result) i = some r := hr
      rw [Function.update_self] at hself
      rw [← Option.some.inj hself]
      exact hgone
    · have hother : Function.update s.replies n (some result) i = some r := hr
      rw [Function.update_of_ne hin] at hother
      exact h.replies i r hother
  · intro drain' n' p hp
    cases drain with
    | false => cases hp
    | true => cases hp
  · intro hp
    cases drain with
    | false => cases hp
    | true => cases hp

/-- **Step.** -/
theorem step (h : DrainInv s) (hstep : DrainStep s e t) : DrainInv t := by
  cases hstep with
  | call n hhandle hn =>
    apply h.setCall
    · exact h.not_reserved (by rw [hn]; nofun)
    · intro haccepted
      exact absurd haccepted (h.not_accepted (.inl hn))
    · intro hnone
      omega
  | reserve n hcall hn channel hreserve => exact h.reserve hcall hn hreserve
  | push n hn => exact h.push hn
  | refused n hcall hn hclosed =>
    apply h.setCall hn
    · intro haccepted
      exact absurd haccepted (h.not_accepted (.inr hcall))
    · exact fun _ => ⟨nofun, nofun⟩
  | replied n hcall result hreply =>
    apply h.setCall
    · exact h.not_reserved (by rw [hcall]; nofun)
    · exact fun _ => h.replies n result hreply
    · exact fun _ => ⟨nofun, nofun⟩
  | lost n hcall hexit hreply =>
    apply h.setCall
    · exact h.not_reserved (by rw [hcall]; nofun)
    · -- The sender of the reply is gone: the call returns `ActorCancelled`.
      intro _ hgone
      cases hgone
    · exact fun _ => ⟨nofun, nofun⟩
  | giveUp n hcall =>
    apply h.setCall
    · rcases hcall with ⟨-, hn⟩ | hcall
      · exact hn
      · exact h.not_reserved (by rw [hcall]; nofun)
    · exact fun _ => trivial
    · exact fun _ => ⟨nofun, nofun⟩
  | clone hhandle => exact { h with fifo := h.fifo, handles := fun hnone => nomatch hnone }
  | drop hhandle =>
    refine { h with fifo := h.fifo, handles := fun hnone => ?_ }
    have hzero : s.handles - 1 = 0 := hnone
    rcases hhandle with hmany | ⟨-, hnocall⟩
    · omega
    · exact hnocall
  | shutdown hhandle => exact { h with fifo := h.fifo }
  | stopped hpc hstop => exact h.goTo (by rw [hpc]; rfl) rfl nofun
  | notStopped hpc hstop => exact h.goTo (by rw [hpc]; rfl) rfl nofun
  | receive hpc n channel hrecv => exact h.handle (by rw [hpc]; rfl) hrecv false
  | pending hpc hqueue => exact h.goTo (by rw [hpc]; rfl) rfl nofun
  | disconnected hpc hqueue hhandles =>
    exact h.exitWorker (by rw [hpc]; rfl) hqueue (h.reserved_nil hhandles)
  | close hpc =>
    have hgo : DrainInv { s with pc := .draining } := h.goTo (by rw [hpc]; rfl) rfl nofun
    exact { hgo with fifo := h.fifo, exited := fun hexit => nomatch hexit }
  | drainNext hpc n channel hrecv => exact h.handle (by rw [hpc]; rfl) hrecv true
  | drained hpc hfinished =>
    exact h.exitWorker (by rw [hpc]; rfl) hfinished.2.2 hfinished.2.1
  | work drain n op k hpc b =>
    -- One operation of the regeneration: what remains of it still cannot answer `ActorGone`.
    have hrest := h.rest drain n _ hpc
    have hstarted := h.started
    rw [hpc] at hstarted
    refine { h with
      fifo := h.fifo
      started := hstarted
      rest := ?_
      exited := fun hexit => nomatch hexit }
    rintro drain' n' p hp
    obtain ⟨-, -, rfl⟩ := DrainPc.handling.inj hp
    exact hrest.2 b () trivial
  | finish drain n result after hpc => exact h.finish hpc

/-! ### What follows -/

theorem drained (h : DrainInv s) : Drained s where
  fifo := by
    rw [← h.started]
    exact h.fifo
  once := h.once
  exited := by
    intro hpc
    have hstarted := h.started
    rw [hpc, h.fifo.received_eq (h.exited hpc).2.2] at hstarted
    exact (hstarted.trans (List.append_nil _)).symm
  refused := by
    intro n hcall hn
    obtain ⟨call, hsome, hpushed⟩ := h.pushed n hn
    obtain rfl := Option.some.inj (hcall.symm.trans hsome)
    exact hpushed rfl

/-- A call that has returned is not moved. -/
theorem returned_setCall {i : Nat} {call : Call} {result : Res Unit}
    (hn : ∀ result, s.calls n ≠ some (.returned result))
    (hi : s.calls i = some (.returned result)) :
    (s.setCall n call).calls i = some (.returned result) := by
  have hne : i ≠ n := by
    rintro rfl
    exact hn result hi
  show Function.update s.calls n _ i = _
  rw [Function.update_of_ne hne]
  exact hi

/-- **Step.** After the exit no step of the worker is left, and the channel is closed. -/
theorem exitFinal (h : DrainInv s) (hstep : DrainStep s e t) : ExitFinal s e t := by
  constructor
  · intro hexit
    have hfinished := h.exited hexit
    cases hstep with
    | call | refused | replied | lost | giveUp | clone | drop | shutdown => exact ⟨hexit, rfl, rfl⟩
    | reserve n hcall hn channel hreserve =>
      -- The channel is closed: no place can be reserved, and none is left.
      obtain ⟨hopen, -⟩ := Channel.reserve_eq_some hreserve
      rw [hfinished.1] at hopen
      cases hopen
    | push n hn =>
      rw [hfinished.2.1] at hn
      cases hn
    | stopped hpc | notStopped hpc | receive hpc | pending hpc | disconnected hpc | close hpc
    | drainNext hpc | drained hpc | work _ _ _ _ hpc | finish _ _ _ _ hpc =>
      -- These are steps of the worker at other places.
      rw [hexit] at hpc
      cases hpc
  · intro i result hi
    cases hstep with
    | call n hhandle hn => exact returned_setCall (by rw [hn]; nofun) hi
    | push n hn => exact returned_setCall (by rw [h.sending n hn]; nofun) hi
    | refused n hcall | replied n hcall | lost n hcall =>
      exact returned_setCall (by rw [hcall]; nofun) hi
    | giveUp n hcall =>
      rcases hcall with ⟨hcall, -⟩ | hcall
      · exact returned_setCall (by rw [hcall]; nofun) hi
      · exact returned_setCall (by rw [hcall]; nofun) hi
    | _ => exact hi

end DrainInv

/-- **Drain.** However callers, stop and worker interleave, the commands that the channel
    accepts are handled once each and in order, all of them by the time the worker has exited
    and none after it; a command refused with `ActorGone` is never handled. -/
theorem worker_drains (state : EndpointState) {s : DrainSystem}
    (run : Run DrainStep (DrainSystem.init state) s) :
    run.Always Drained ∧ run.EachStep ExitFinal := by
  have hkeep : ∀ s e t, DrainStep s e t → DrainInv s → DrainInv t :=
    fun _ _ _ hstep h => h.step hstep
  constructor
  · exact (run.always_of_invariant (drainInv_init state) hkeep).mono fun _ h => h.drained
  · exact run.eachStep_of_invariant (drainInv_init state) hkeep
      fun _ _ _ hstep h => h.exitFinal hstep

end Sarena
