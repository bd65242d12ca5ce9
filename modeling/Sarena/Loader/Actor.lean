import Sarena.Lib.Actor
import Sarena.Loader.AddRemove
import Sarena.Loader.Exactness

namespace Sarena.Loader

open Lib

/-!
# Loader — the actor

`DefaultDataplaneLoader` hands every call to one thread, which owns the loader and executes the
commands one at a time.  A command may unwind the thread (`unwrap` and `expect` in the backend).

* `LoaderOp`, `LoaderState` — the calls of the loader, and its state with the log threads;
* `Command`, `dispatch` — the commands and what is done with them;
* `loader_linearizable` — concurrent calls act as if made one after the other;
* `loader_shutdown` — what holds when a `shutdown` has returned;
* `loader_answers` — calls are not left waiting.
-/

/-! ### The loader -/

/-- The calls of `BpfBackend` about all endpoints, and the assignment to a field of the loader. -/
inductive GlobalOp : Type → Type
  | loadGlobalMaps (maps : List (String × Path)) : GlobalOp (Except LoaderError Unit)
  | stopAllLogging : GlobalOp Unit
  | setGlobalsHolder (held : Bool) : GlobalOp Unit

/-- What the methods of the loader do. -/
abbrev LoaderOp (β : Type) := BackendOp β ⊕ GlobalOp β

/-- The loader. -/
structure LoaderState where
  backend : Backend
  /-- The links for which a thread drains the log. -/
  loggers : Finset String
  /-- An instance with the global maps is held. -/
  globalsHolder : Bool

/-- What a call of the backend does to the log threads. -/
def Logs (loggers : Finset String) : ∀ {β : Type}, BackendOp β → β → Finset String → Prop
  | _, .loadInstance link _, .ok (), loggers' =>
    -- The object may have no log, or reading it may fail.
    loggers' = insert link loggers ∨ loggers' = loggers.erase link
  | _, .stopLogging link, (), loggers' => loggers' = loggers.erase link
  | _, _, _, loggers' => loggers' = loggers

/-- What a call may answer and leave behind. -/
def LoaderState.sem : Sem LoaderOp LoaderState
  | _, .inl op, s, b, t =>
    Backend.sem _ op s.backend b t.backend ∧ Logs s.loggers op b t.loggers ∧
      t.globalsHolder = s.globalsHolder
  | _, .inr (.loadGlobalMaps maps), s, .ok (), t =>
    t = { s with backend := s.backend.pin (maps.map Prod.snd) }
  | _, .inr (.loadGlobalMaps maps), s, .error _, t =>
    -- Some of the maps may be pinned already.
    ∃ made, made ⊆ maps.map Prod.snd ∧ t = { s with backend := s.backend.pin made }
  | _, .inr .stopAllLogging, s, (), t => t = { s with loggers := ∅ }
  | _, .inr (.setGlobalsHolder held), s, (), t => t = { s with globalsHolder := held }

/-- The loader is dropped, and the backend stops its log threads. -/
def LoaderState.drop (s : LoaderState) : LoaderState :=
  { s with loggers := ∅, globalsHolder := false }

/-- One of the calls about all endpoints. -/
def onGlobals {α : Type} (op : GlobalOp α) : Prog LoaderOp α := perform (E := LoaderOp) (.inr op)

/-- `load_global_maps`. -/
def loadGlobalMaps (root : PinRoot) : ExceptT LoaderError (Prog LoaderOp) Unit := do
  ExceptT.mk (onGlobals (.loadGlobalMaps (globalMapPins root)))
  ExceptT.lift (onGlobals (.setGlobalsHolder true))

/-- `teardown_all`. -/
def teardownAll : ExceptT LoaderError (Prog LoaderOp) Unit := do
  ExceptT.lift (onGlobals .stopAllLogging)
  ExceptT.lift (onGlobals (.setGlobalsHolder false))

/-! ### The commands -/

/-- `Command`, without the place for the reply. -/
inductive Command
  | loadGlobalMaps
  | addLoaderEndpoint (endpoint : LoaderEndpoint)
  | removeLoaderEndpoint (endpoint : LoaderEndpoint)
  | listLoaderEndpoints
  | reconcile (desired : List LoaderEndpoint)
  | teardownAll
  | shutdown
  deriving DecidableEq

/-- What a command is replied with. -/
inductive Reply
  | done (result : Except LoaderError Unit)
  | endpoints (result : Except LoaderError (List (LoaderEndpointKind × String)))
  | errors (result : Except LoaderError (List (LoaderEndpointKind × String × LoaderError)))

/-- A method that only calls the backend. -/
def onBackend {α : Type} (p : LoaderM α) : Prog LoaderOp (Except LoaderError α) :=
  p.run.mapOps fun _ => Sum.inl

/-- `dispatch`: the reply. -/
def dispatch (root : PinRoot) : Command → Prog LoaderOp Reply
  | .loadGlobalMaps => Reply.done <$> (loadGlobalMaps root).run
  | .addLoaderEndpoint endpoint => Reply.done <$> onBackend (addLoaderEndpoint root endpoint)
  | .removeLoaderEndpoint endpoint =>
    Reply.done <$> onBackend (removeLoaderEndpoint root endpoint)
  | .listLoaderEndpoints => Reply.endpoints <$> onBackend (listLoaderEndpoints root)
  | .reconcile desired => Reply.errors <$> onBackend (reconcile root desired)
  | .teardownAll => Reply.done <$> teardownAll.run
  | .shutdown => Reply.done <$> teardownAll.run

/-- `dispatch`: whether the loop breaks. -/
def Command.isBreak : Command → Bool
  | .shutdown => true
  | _ => false

/-- The thread of the loader.  A lost call returns `ActorGone` or `ActorCancelled`. -/
def loaderThread (root : PinRoot) : Behaviour LoaderOp Command Reply LoaderState where
  sem := LoaderState.sem
  body := dispatch root
  last := Command.isBreak
  drop := LoaderState.drop

/-- `DefaultDataplaneLoader`: the calls on all clones of the handle, and the thread. -/
abbrev LoaderActor := Actor LoaderOp Command Reply LoaderState

/-- The calls and the thread, in any order. -/
abbrev LoaderActorStep (root : PinRoot) := Actor.Step (loaderThread root)

variable {root : PinRoot} {init : LoaderState} {capacity : Nat} {s t : LoaderActor}

/-- **Linearizability.**  However calls on the clones of the handle interleave, the loader is in
    the state that the executed commands lead to one after the other, in the order in which the
    channel accepted them, and then what was done of the command in hand or of the one in which
    the thread unwound.  The reply to a call is that of its command; a call that had returned
    before another was made comes before it; and a call that failed was not executed and never
    will be, unless it was cancelled because the thread unwound in its command. -/
theorem loader_linearizable (before : Run (LoaderActorStep root) (.init capacity init) s)
    (after : Run (LoaderActorStep root) s t) :
    t.Traced (loaderThread root) init ∧
      t.log.map Prod.fst ++ t.begun <+: t.channel.accepted ∧ t.channel.accepted.Nodup ∧
      ∃ later, t.log = s.log ++ later ∧
        (∀ n, s.calls n = none → n ∉ s.log.map Prod.fst ++ s.begun) ∧
        (∀ n c reply, s.calls n = some (c, .returned (.ok reply)) → (n, c, reply) ∈ s.log) ∧
        ∀ n c lost, s.calls n = some (c, .returned (.error lost)) →
          n ∉ t.log.map Prod.fst ∧ (n ∈ t.begun → t.unwound = some n ∧ lost = .cancelled) := by
  have hs := Actor.sound_of_run before
  have ht := Actor.sound_of_run (before.append after)
  obtain ⟨later, hlater⟩ := Actor.run_log_prefix after
  refine ⟨ht.traced, ht.ordered.received ▸ ht.ordered.before, ht.placed.once, later, hlater.symm,
    fun n hn hmem => ?_, fun n c reply hcall => hs.answered.ok n c _ reply hcall rfl,
    fun n c lost hcall => ?_⟩
  · rw [← hs.ordered.received] at hmem
    obtain ⟨c, phase, hcall, -⟩ := hs.placed.accepted n (hs.ordered.before.subset hmem)
    cases hn.symm.trans hcall
  · obtain ⟨hover, hnot, hgone⟩ := hs.answered.error n c _ lost hcall rfl
    obtain ⟨hleft, hlog, hunwound⟩ := Actor.run_left_final after (hover.left hs.ordered)
    refine ⟨hlog ▸ hnot, fun hbegun => ?_⟩
    have hn : t.unwound = some n := Actor.unwound_of_begun hleft hbegun
    refine ⟨hn, ?_⟩
    cases lost with
    | gone => exact absurd (hs.ordered.unwound_mem (hunwound.symm.trans hn)) (hgone rfl)
    | cancelled => rfl

/-! ### The shutdown -/

/-- Every call of the loader has some answer. -/
theorem LoaderState.sem_total (β : Type) (op : LoaderOp β) (s : LoaderState) :
    ∃ b t, LoaderState.sem β op s b t := by
  rcases op with op | op
  · obtain ⟨b, backend, -, hsem⟩ := exists_answer op s.backend
    have hlogs : ∃ loggers, Logs s.loggers op b loggers := by
      cases op with
      | loadInstance link maps =>
        rcases b with _ | _
        · exact ⟨_, rfl⟩
        · exact ⟨_, .inl rfl⟩
      | _ => exact ⟨_, rfl⟩
    obtain ⟨loggers, hloggers⟩ := hlogs
    exact ⟨b, ⟨backend, loggers, s.globalsHolder⟩, hsem, hloggers, rfl⟩
  · cases op with
    | loadGlobalMaps maps => exact ⟨.ok (), _, rfl⟩
    | stopAllLogging => exact ⟨(), _, rfl⟩
    | setGlobalsHolder held => exact ⟨(), _, rfl⟩

/-- The teardown leaves the backend as it is, and what it leaves can be dropped. -/
theorem exec_shutdown (root : PinRoot) {u v : LoaderState} {tr : List (Answered LoaderOp)}
    {reply : Reply} (h : Exec LoaderState.sem (dispatch root .shutdown) u tr (.pure reply) v) :
    reply = .done (.ok ()) ∧ v = u.drop := by
  obtain ⟨_, _, _, -, rfl, h⟩ := Exec.op_pure_iff.mp h
  obtain ⟨_, _, _, -, rfl, h⟩ := Exec.op_pure_iff.mp h
  obtain ⟨-, hreply, rfl⟩ := Exec.pure_iff.mp h
  exact ⟨Prog.pure.inj hreply, rfl⟩

/-- **Shutdown.**  When a `shutdown` has returned, on whichever clone, the thread has ended: no
    thread drains a log, no instance is held, nothing is executed any more, and a call made
    afterwards returns `ActorGone`.  Either one `shutdown` was the last command, and the pins and
    entries are as the commands before it left them; or the thread had unwound, no `shutdown` was
    executed, and another call has taken the handle of the thread, which does not return. -/
theorem loader_shutdown (before : Run (LoaderActorStep root) (.init capacity init) s)
    {n : Nat} {result : Except Lost Reply}
    (hcall : s.calls n = some (.shutdown, .returned result))
    (after : Run (LoaderActorStep root) s t) :
    t.thread = .exited ∧ t.log = s.log ∧ t.state = s.state ∧ s.state.loggers = ∅ ∧
      s.state.globalsHolder = false ∧
      (s.unwound = none ∧ (∃ log m u, s.log = log ++ [(m, .shutdown, .done (.ok ()))] ∧
          (∀ x ∈ log, x.2.1 ≠ .shutdown) ∧ Sequential (loaderThread root) init log u ∧
          s.state.backend = u.backend) ∨
        s.unwound ≠ none ∧ (∀ x ∈ s.log, x.2.1 ≠ .shutdown) ∧
          ∃ m, m ≠ n ∧ s.joiner = some m ∧ ∀ c result, t.calls m ≠ some (c, .returned result)) ∧
      ∀ m c, s.calls m = none → ∀ result, t.calls m = some (c, .returned result) →
        result = .error .gone := by
  have hs := Actor.sound_of_run before
  have ht := Actor.sound_of_run (before.append after)
  have hexit : s.thread = .exited := hs.ended.returned n .shutdown result hcall rfl
  obtain ⟨hexit', hstate⟩ := Actor.run_exited_final after hexit
  obtain ⟨-, hlog, hunwound'⟩ := Actor.run_left_final after (hexit ▸ trivial)
  obtain ⟨u, hsequential, hbetween⟩ := hs.traced
  rw [hexit] at hbetween
  obtain ⟨v, hstopped, hdrop⟩ := hbetween
  refine ⟨hexit', hlog, hstate, congrArg LoaderState.loggers hdrop,
    congrArg LoaderState.globalsHolder hdrop, ?_,
    fun m c hm result' hresult => (hs.late hexit hm after).result hresult rfl⟩
  by_cases hunwound : s.unwound = none
  · refine .inl ⟨hunwound, ?_⟩
    obtain ⟨log, ⟨m, c, reply⟩, hbroken, hlast, hlive⟩ :=
      (hs.broken_of_result hcall rfl rfl).resolve_right fun hsome => hsome hunwound
    rw [hunwound] at hstopped
    rw [hbroken] at hsequential
    obtain ⟨w, tr, hrest, hexec⟩ := Actor.sequential_append.mp hsequential
    cases c with
    | shutdown =>
      obtain ⟨rfl, rfl⟩ := exec_shutdown root hexec
      obtain rfl : v = w.drop := hstopped
      refine ⟨log, m, w, hbroken, fun x hx hshutdown => ?_, hrest, ?_⟩
      · cases (congrArg Command.isBreak hshutdown).symm.trans (hlive x hx)
      · rw [hdrop]
        rfl
    | _ => cases hlast
  · refine .inr ⟨hunwound, fun x hx hshutdown => ?_, ?_⟩
    · have hlive := hs.ended.unwound hunwound x hx
      cases (congrArg Command.isBreak hshutdown).symm.trans hlive
    · obtain ⟨m, hmn, hjoiner⟩ := hs.joiner_of_returned hcall rfl hunwound
      refine ⟨m, hmn, hjoiner, fun c result' hm => hunwound ?_⟩
      rw [← hunwound']
      exact ht.ended.spared m c result' (Actor.run_joiner after hjoiner) hm

/-! ### Waiting calls -/

/-- **No call is forgotten.**  Where nothing can happen any more but that callers make and drop
    calls and handles, every call has returned or was given up, or is the `shutdown` that panicked
    because the thread it had joined had unwound.  The only exception are commands that got into
    the channel when the thread had exited, for which a place was free before. -/
theorem loader_answers (run : Run (LoaderActorStep root) (.init capacity init) s)
    (hcapacity : 0 < capacity) (hstuck : s.Stuck (loaderThread root)) {n : Nat} {c : Command}
    {phase : Phase Reply} (hcall : s.calls n = some (c, phase)) :
    (∃ result, phase = .returned result) ∨ phase = .dropped ∨
      (phase = .panicked ∧ c = .shutdown ∧ s.joiner = some n ∧ s.unwound ≠ none) ∨
      phase = .awaiting ∧ s.Stranded n ∧ n ∉ s.log.map Prod.fst ++ s.begun := by
  have hs := Actor.sound_of_run run
  have hroom : 0 < s.channel.capacity := hcapacity.trans_eq (Actor.run_capacity run).symm
  have hanswered := Actor.answered_of_stuck hs hroom hstuck LoaderState.sem_total hcall
  have hstranded : phase.Busy →
      phase = .awaiting ∧ s.Stranded n ∧ n ∉ s.log.map Prod.fst ++ s.begun :=
    fun hbusy => ⟨(hanswered hbusy).1, (hanswered hbusy).2,
      hs.not_executed_of_stranded (hanswered hbusy).2⟩
  cases phase with
  | returned result => exact .inl ⟨result, rfl⟩
  | dropped => exact .inr (.inl rfl)
  | panicked =>
    obtain ⟨hjoiner, hunwound, hlast⟩ := hs.handled.panicked n c hcall
    cases c with
    | shutdown => exact .inr (.inr (.inl ⟨rfl, rfl, hjoiner, hunwound⟩))
    | _ => cases hlast
  | _ => exact .inr (.inr (.inr (hstranded trivial)))

/-! ### One shutdown -/

/-- A loader that has loaded nothing. -/
def newLoader : LoaderState := ⟨.empty, ∅, false⟩

/-- One `shutdown`, with nothing else going on: it is called and sent, the thread executes it
    and replies, and the caller waits for the end of the thread. -/
theorem exists_shutdown (root : PinRoot) :
    ∃ s, ∃ _ : Run (LoaderActorStep root) (.init 1 newLoader) s,
      s.calls = KeyMap.empty.insert 0 (.shutdown, .returned (.ok (.done (.ok ())))) ∧
        s.thread = .exited ∧ s.unwound = none := by
  let s₀ : LoaderActor := .init 1 newLoader
  let s₁ := s₀.setCall 0 .shutdown .sending
  let s₂ : LoaderActor := { s₁ with channel := { s₁.channel with reserved := [0] } }
  let s₃ : LoaderActor := { s₂.setCall 0 .shutdown .awaiting with channel := s₂.channel.push 0 }
  let s₄ : LoaderActor :=
    { s₃ with channel := { s₃.channel with queue := [], received := [0] }
              thread := .busy 0 (dispatch root .shutdown) }
  let s₅ : LoaderActor :=
    { s₄ with
      thread := .busy 0 (.op (.inr (.setGlobalsHolder false)) fun _ => .pure (.done (.ok ()))) }
  let s₆ : LoaderActor := { s₅ with thread := .busy 0 (.pure (.done (.ok ()))) }
  let s₇ := s₆.finish (loaderThread root) 0 .shutdown (.done (.ok ()))
  let s₈ := s₇.setCall 0 .shutdown (.answered (.ok (.done (.ok ()))))
  let s₉ : LoaderActor :=
    { s₈.setCall 0 .shutdown (.joining (.ok (.done (.ok ())))) with joiner := some 0 }
  let s₁₀ := s₉.exit (loaderThread root)
  let s₁₁ := s₁₀.setCall 0 .shutdown (.returned (.ok (.done (.ok ()))))
  have run : Run (LoaderActorStep root) s₀ s₁₁ :=
    .snoc s₁₀ (.snoc s₉ (.snoc s₈ (.snoc s₇ (.snoc s₆ (.snoc s₅ (.snoc s₄ (.snoc s₃ (.snoc s₂
      (.snoc s₁ (.snoc s₀ .nil _ s₁ (.make s₀ 0 .shutdown rfl rfl))
      _ s₂ (.reserve s₁ 0 .shutdown rfl (fun h => by cases h) _ rfl))
      _ s₃ (.push s₂ 0 .shutdown rfl (List.mem_singleton_self 0)))
      _ s₄ (.receive s₃ rfl 0 _ rfl .shutdown .awaiting rfl))
      _ s₅ (.work s₄ 0 (.inr .stopAllLogging) _ rfl () _ rfl))
      _ s₆ (.work s₅ 0 (.inr (.setGlobalsHolder false)) _ rfl () _ rfl))
      _ s₇ (.finish s₆ 0 _ rfl .shutdown .awaiting rfl))
      _ s₈ (.replied s₇ 0 .shutdown rfl (.done (.ok ())) rfl))
      _ s₉ (.join s₈ 0 .shutdown _ rfl rfl))
      _ s₁₀ (.exit s₉ rfl))
      _ s₁₁ (.joined s₁₀ 0 .shutdown _ rfl rfl rfl)
  exact ⟨s₁₁, run, funext fun n => by cases n <;> rfl, rfl, rfl⟩

theorem loader_shutdown_alone : ∃ s : LoaderActor,
    s.calls 0 = some (.shutdown, .returned (.ok (.done (.ok ())))) ∧ s.thread = .exited ∧
      ∃ log m, s.log = log ++ [(m, .shutdown, .done (.ok ()))] := by
  obtain ⟨s, run, hcalls, -, hunwound⟩ := exists_shutdown bpfRoot
  have hcall : s.calls 0 = some (.shutdown, .returned (.ok (.done (.ok ())))) := by
    rw [hcalls, KeyMap.insert_self]
  obtain ⟨hexit, -, -, -, -, ⟨-, log, m, -, hlog, -⟩ | ⟨hsome, -⟩, -⟩ :=
    loader_shutdown run hcall .nil
  · exact ⟨s, hcall, hexit, log, m, hlog⟩
  · exact absurd hunwound hsome

theorem loader_answers_alone : ∃ s : LoaderActor, s.Stuck (loaderThread bpfRoot) ∧
    ∃ phase, s.calls 0 = some (.shutdown, phase) ∧ ((∃ result, phase = .returned result) ∨
      phase = .dropped ∨
      (phase = .panicked ∧ Command.shutdown = .shutdown ∧ s.joiner = some 0 ∧ s.unwound ≠ none) ∨
      phase = .awaiting ∧ s.Stranded 0 ∧ 0 ∉ s.log.map Prod.fst ++ s.begun) := by
  obtain ⟨s, run, hcalls, hexit, -⟩ := exists_shutdown bpfRoot
  have hover : ∀ n c phase, s.calls n = some (c, phase) → ¬ phase.Busy := by
    intro n c phase hcall
    rw [hcalls, KeyMap.insert_apply] at hcall
    split at hcall
    · cases hcall
      exact id
    · cases hcall
  have hcall : s.calls 0 = some (.shutdown, .returned (.ok (.done (.ok ())))) := by
    rw [hcalls, KeyMap.insert_self]
  have hstuck : s.Stuck (loaderThread bpfRoot) := Actor.stuck_of_over hexit hover
  exact ⟨s, hstuck, _, hcall, loader_answers run Nat.one_pos hstuck hcall⟩

end Sarena.Loader
