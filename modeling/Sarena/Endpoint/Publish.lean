import Sarena.Endpoint.Regenerate
import Sarena.Lib.Run

namespace Sarena

open Lib

/-!
# Endpoint — the published state

A worker owns its endpoint's state and publishes a snapshot of it on a watch channel.  It
publishes at the end of a regeneration, so one that returns early leaves the channel as it
was, also when the state has already changed.

* `WorkerStatus` — the worker's state and the last published one, command after command;
* `attachError` — what the attachment of a regeneration failed with, read off its trace;
* `regenerate_publishes` — what a regeneration leaves, by the outcomes of its steps;
* `current_iff` — the published state is current throughout a run exactly when no
  regeneration fails on a directory after it has changed the state.
-/

/-! ### The worker and its channel -/

/-- `watch::Sender::send_replace`: the last state published stays on the channel. -/
def lastPublished (last : EndpointState) : Answered WorkerOp → EndpointState
  | ⟨.publish state, _⟩ => state
  | _ => last

/-- The worker's own state, and what an observer of its channel sees. -/
structure WorkerStatus where
  state : EndpointState
  published : EndpointState
  deriving DecidableEq, Repr

namespace WorkerStatus

/-- `Endpoint::new`: the channel starts with the worker's state. -/
def new (persist : EndpointPersist) : WorkerStatus := ⟨{ persist }, { persist }⟩

/-- `EndpointWorker::handle`: a regeneration, with any answer to every call of the trace. -/
def Step (s : WorkerStatus) (tr : List (Answered WorkerOp)) (t : WorkerStatus) : Prop :=
  ∃ result, Exec (noting lastPublished) (regenerate.runFrom s.state) s.published tr
    (.pure (result, t.state)) t.published

/-- What is published is the worker's own state. -/
def Current (s : WorkerStatus) : Prop := s.published = s.state

end WorkerStatus

/-! ### Why an attachment failed -/

/-- The error of a failed call of `regenerate_bpf`, after the errors noted before. -/
def attachError (last : Option DataPlaneError) : Answered WorkerOp → Option DataPlaneError
  | ⟨.createFile _ _, .error e⟩ => some (.fileError e)
  | ⟨.writeFile _ _ _, .error e⟩ => some e
  | ⟨.syncFile _ _, .error e⟩ => some (.fileError e)
  | ⟨.renameFile _ _ _, .error e⟩ => some (.fileError e)
  | ⟨.syncDir _, .error e⟩ => some (.fileError e)
  | ⟨.addLoaderEndpoint _, .error e⟩ => some e
  | _ => last

/-- The calls of a regeneration on its directories. -/
def DirCall : ∀ β : Type, WorkerOp β → Prop
  | _, .removeDirAll _ => True
  | _, .createDirAll _ => True
  | _, .setPermissions _ _ => True
  | _, .renameDir _ _ => True
  | _, _ => False

/-- All that is noted about a regeneration: the state last published, the outcomes of its
    steps and the error of its attachment. -/
structure Watched where
  published : EndpointState
  outcomes : StepOutcomes := {}
  error : Option DataPlaneError := none

namespace Watched

/-- Takes one answered call of a regeneration of `id` into account. -/
def note (id : EndpointId) (w : Watched) (a : Answered WorkerOp) : Watched :=
  ⟨lastPublished w.published a, w.outcomes.note id a, attachError w.error a⟩

/-- Nothing is published and no attachment fails between the two. -/
def Quiet (w w' : Watched) : Prop := w'.published = w.published ∧ w'.error = w.error

end Watched

section

variable {id : EndpointId} {w : Watched}

theorem foldl_note_outcomes (id : EndpointId) (tr : List (Answered WorkerOp)) (w : Watched) :
    (tr.foldl (Watched.note id) w).outcomes = tr.foldl (StepOutcomes.note id) w.outcomes :=
  (List.foldl_hom Watched.outcomes fun _ _ => rfl).symm

theorem foldl_note_error (id : EndpointId) (tr : List (Answered WorkerOp)) (w : Watched) :
    (tr.foldl (Watched.note id) w).error = tr.foldl attachError w.error :=
  (List.foldl_hom Watched.error fun _ _ => rfl).symm

theorem foldl_note_published (id : EndpointId) (tr : List (Answered WorkerOp)) (w : Watched) :
    (tr.foldl (Watched.note id) w).published = tr.foldl lastPublished w.published :=
  (List.foldl_hom Watched.published fun _ _ => rfl).symm

/-- Whoever notes everything notes the outcomes. -/
theorem noting_outcomes (id : EndpointId) (β : Type) (op : WorkerOp β) (s : Watched) (b : β)
    (t : Watched) (h : noting (Watched.note id) β op s b t) :
    noting (StepOutcomes.note id) β op s.outcomes b t.outcomes :=
  congrArg Watched.outcomes h

theorem noting_error (id : EndpointId) (β : Type) (op : WorkerOp β) (s : Watched) (b : β)
    (t : Watched) (h : noting (Watched.note id) β op s b t) :
    noting attachError β op s.error b t.error :=
  congrArg Watched.error h

/-! ### What each part notes -/

/-- A call on a directory neither publishes nor attaches. -/
theorem DirCall.quiet {β : Type} {op : WorkerOp β} (h : DirCall β op) (w : Watched) (b : β) :
    w.Quiet (w.note id ⟨op, b⟩) := by
  cases op with
  | removeDirAll dir => exact ⟨rfl, rfl⟩
  | createDirAll dir => exact ⟨rfl, rfl⟩
  | setPermissions dir mode => exact ⟨rfl, rfl⟩
  | renameDir source target => exact ⟨rfl, rfl⟩
  | createFile dir file => exact h.elim
  | writeFile dir file persist => exact h.elim
  | syncFile dir file => exact h.elim
  | renameFile dir source target => exact h.elim
  | syncDir dir => exact h.elim
  | readDir => exact h.elim
  | readFile dir file => exact h.elim
  | addLoaderEndpoint persist => exact h.elim
  | publish state => exact h.elim

/-- What the outcomes say about a part on directories, with the rest as it was before. -/
theorem Ends.quiet {α : Type} {p : FsM α} {R X : StepOutcomes → Prop}
    (h : Ends id p R X w.outcomes) (hp : p.run.Uses DirCall) :
    p.run.Guards (noting (Watched.note id)) (fun _ _ _ => True)
      (Prog.orError (fun _ w' => R w'.outcomes ∧ w.Quiet w')
        fun _ w' => X w'.outcomes ∧ w.Quiet w') w := by
  have houtcomes := Prog.Guards.comap Watched.outcomes (noting_outcomes id) h
  have hquiet : p.run.Guards (noting (Watched.note id)) (fun _ _ _ => True)
      (fun _ => w.Quiet) w := by
    refine hp.guards w.Quiet (fun β op s b t hop ht hs => ?_) ⟨rfl, rfl⟩
    obtain ⟨hpub, herr⟩ : s.Quiet (s.note id ⟨op, b⟩) := hop.quiet s b
    rw [show t = _ from ht]
    exact ⟨hpub.trans hs.1, herr.trans hs.2⟩
  refine (houtcomes.and hquiet).mono (fun _ _ _ _ => trivial) fun r w' hr => ?_
  cases r with
  | ok a => exact hr
  | error e => exact hr

theorem removeDirIfExists_dirCalls (dir : String) :
    (FsM.io (removeDirIfExists dir)).run.Uses DirCall :=
  ⟨trivial, fun _ => trivial⟩

theorem prepareNext_dirCalls (id : EndpointId) : (prepareNext id).run.Uses DirCall := by
  refine Prog.uses_try (removeDirIfExists_dirCalls _) fun _ => ?_
  exact Prog.uses_try ⟨trivial, fun _ => trivial⟩ fun _ => ⟨trivial, fun _ => trivial⟩

theorem keepFailed_dirCalls (id : EndpointId) : (keepFailed id).run.Uses DirCall :=
  Prog.uses_try (removeDirIfExists_dirCalls _) fun _ => ⟨trivial, fun _ => trivial⟩

theorem synchronizeDirectories_dirCalls (id : EndpointId) :
    (synchronizeDirectories id).run.Uses DirCall := by
  refine Prog.uses_try (removeDirIfExists_dirCalls _) fun _ => ?_
  refine Prog.uses_try ⟨trivial, fun b => ?_⟩ fun hadCurrent => ?_
  · cases b with
    | ok _ => trivial
    | error e =>
      show (if e.kind = .notFound then pure false else throw (.fileError e) :
        FsM Bool).run.Uses _
      split <;> trivial
  refine ⟨trivial, fun b => ?_⟩
  cases b with
  | ok _ => exact ⟨trivial, fun _ => trivial⟩
  | error e =>
    cases hadCurrent with
    | true => exact ⟨trivial, fun _ => trivial⟩
    | false => trivial

/-- The attachment fails with the error that is noted. -/
def Attaches {α : Type} (p : FsM α) : Prop :=
  p.run.Guards (noting attachError) (fun _ _ _ => True)
    (Prog.orError (fun _ error => error = none) fun e error => error = some e) none

theorem Attaches.bind {α β : Type} {p : FsM α} {f : α → FsM β} (hp : Attaches p)
    (hf : ∀ a, Attaches (f a)) : Attaches (p >>= f) := by
  refine Prog.guards_try _ hp ?_
  rintro a _ rfl
  exact hf a

theorem attaches_io {op : WorkerOp (IoResult Unit)} (hok : attachError none ⟨op, .ok ()⟩ = none)
    (herror : ∀ e, attachError none ⟨op, .error e⟩ = some (.fileError e)) :
    Attaches (FsM.io (perform op)) := by
  refine ⟨trivial, fun b t ht => ?_⟩
  subst ht
  cases b with
  | ok a => exact hok
  | error e => exact herror e

theorem attaches_res {op : WorkerOp (Res Unit)} (hok : attachError none ⟨op, .ok ()⟩ = none)
    (herror : ∀ e, attachError none ⟨op, .error e⟩ = some e) :
    Attaches (FsM.res (perform op)) := by
  refine ⟨trivial, fun b t ht => ?_⟩
  subst ht
  cases b with
  | ok a => exact hok
  | error e => exact herror e

theorem regenerateBpf_attaches (persist : EndpointPersist) : Attaches (regenerateBpf persist) := by
  have hwrite : ∀ dir, Attaches (writeState persist dir) := fun dir =>
    (attaches_io rfl fun _ => rfl).bind fun _ =>
    (attaches_res rfl fun _ => rfl).bind fun _ =>
    (attaches_io rfl fun _ => rfl).bind fun _ =>
    (attaches_io rfl fun _ => rfl).bind fun _ => attaches_io rfl fun _ => rfl
  refine (hwrite _).bind fun _ => ?_
  exact (attaches_res rfl fun _ => rfl).bind fun _ => rfl

/-- An attachment publishes nothing. -/
theorem regenerateBpf_silent (persist : EndpointPersist) :
    (regenerateBpf persist).run.Uses fun _ op => ∀ last b, lastPublished last ⟨op, b⟩ = last := by
  refine Prog.uses_try (Prog.uses_try ⟨fun _ _ => rfl, fun _ => trivial⟩ fun _ => ?_) fun _ => ?_
  · refine Prog.uses_try ⟨fun _ _ => rfl, fun _ => trivial⟩ fun _ => ?_
    refine Prog.uses_try ⟨fun _ _ => rfl, fun _ => trivial⟩ fun _ => ?_
    exact Prog.uses_try ⟨fun _ _ => rfl, fun _ => trivial⟩
      fun _ => ⟨fun _ _ => rfl, fun _ => trivial⟩
  · exact Prog.uses_try ⟨fun _ _ => rfl, fun _ => trivial⟩ fun _ => trivial

/-- What an attachment leaves: its outcome and its error are noted. -/
theorem regenerateBpf_watched (persist : EndpointPersist) (ho : w.outcomes = {})
    (herror : w.error = none) :
    (regenerateBpf persist).run.Guards (noting (Watched.note id)) (fun _ _ _ => True)
      (fun r w' => w'.published = w.published ∧
        w'.outcomes = (if r.isOk then { added := true } else {}) ∧
        ∀ e, r = .error e → w'.error = some e) w := by
  have houtcomes : Ends id (regenerateBpf persist) (· = { added := true }) (· = {}) w.outcomes := by
    rw [ho]
    exact regenerateBpf_ends persist
  have hattaches := regenerateBpf_attaches persist
  rw [Attaches, ← herror] at hattaches
  have hboth := (Prog.Guards.comap Watched.outcomes (noting_outcomes id) houtcomes).and
    (Prog.Guards.comap Watched.error (noting_error id) hattaches)
  have hsilent : (regenerateBpf persist).run.Guards (noting (Watched.note id)) (fun _ _ _ => True)
      (fun _ w' => w'.published = w.published) w := by
    refine (regenerateBpf_silent persist).guards _ (fun β op s b t hop ht hs => ?_) rfl
    rw [show t = _ from ht]
    exact (hop s.published b).trans hs
  refine (hboth.and hsilent).mono (fun _ _ _ _ => trivial) fun r w' hr => ?_
  refine ⟨hr.2, ?_⟩
  cases r with
  | ok a => exact ⟨hr.1.1, fun _ h => nomatch h⟩
  | error e =>
    refine ⟨hr.1.1, fun e' he' => ?_⟩
    obtain rfl := Except.error.inj he'
    exact hr.1.2

/-- The final removal of `_next` is a directory step. -/
theorem removeNext_outcomes (id : EndpointId) (o : StepOutcomes) :
    Ends id (FsM.io (removeDirIfExists (dirName id .next))) (· = o)
      (· = { o with dirFailed := true, removeFailed := true }) o := by
  refine ends_remove fun b => ?_
  cases hb : IoResult.removeFailed b <;> simp [StepOutcomes.note, hb]

end

/-! ### The whole regeneration -/

/-- No directory step of the regeneration failed after it had changed the state: where one
    failed, the endpoint was not attached, and if an attachment failed before, the phase
    already said so. -/
def NoLateFailure (phase : EndpointPhase) (o : StepOutcomes) (error : Option DataPlaneError) :
    Prop :=
  o.dirFailed = true → o.added = false ∧ ∀ e, error = some e → phase = .failed e.text

section

variable {state after : EndpointState} {published : EndpointState} {w : Watched}

theorem ready_ne (state : EndpointState) :
    { state with phase := .ready, generation := state.generation + 1 } ≠ state := by
  intro h
  have hgen : state.generation + 1 = state.generation := congrArg EndpointState.generation h
  simp at hgen

theorem failed_eq_iff (state : EndpointState) (e : DataPlaneError) :
    { state with phase := .failed e.text } = state ↔ state.phase = .failed e.text := by
  constructor
  · exact fun h => (congrArg EndpointState.phase h).symm
  · intro h
    rw [← h]

/-- What is known of a regeneration that has settled its attachment's result. -/
def SettledResult (state after : EndpointState) (w : Watched) : Prop :=
  (w.outcomes = { added := true, committed := true } ∧
      after = { state with phase := .ready, generation := state.generation + 1 }) ∨
    (w.outcomes = {} ∧ ∃ e, w.error = some e ∧ after = { state with phase := .failed e.text })

/-- What is known of a regeneration that returned an error: nothing was published, and the
    state is as before exactly when no failure came too late. -/
def ReturnedEarly (state published after : EndpointState) (w : Watched) : Prop :=
  w.published = published ∧ (after = state ↔ NoLateFailure state.phase w.outcomes w.error)

/-- An error before the state has changed. -/
theorem returnedEarly_same (hpub : w.published = published)
    (h : NoLateFailure state.phase w.outcomes w.error) : ReturnedEarly state published state w :=
  ⟨hpub, iff_of_true rfl h⟩

/-- A directory step that fails once the result is settled. -/
theorem SettledResult.returnedEarly {o : StepOutcomes} {w' : Watched}
    (h : SettledResult state after w) (ho : w'.outcomes = o) (hadded : o.added = w.outcomes.added)
    (hdir : o.dirFailed = true) (herror : w'.error = w.error) (hpub : w'.published = published) :
    ReturnedEarly state published after w' := by
  refine ⟨hpub, ?_⟩
  rw [ho, herror, NoLateFailure, hadded]
  obtain ⟨hw, rfl⟩ | ⟨hw, e, he, rfl⟩ := h
  · -- The generation has changed, whatever it was.
    refine iff_of_false (ready_ne state) fun hlate => ?_
    have hnot := (hlate hdir).1
    rw [hw] at hnot
    cases hnot
  · rw [failed_eq_iff, hw, he]
    constructor
    · rintro hphase -
      refine ⟨rfl, fun e' he' => ?_⟩
      obtain rfl := Option.some.inj he'
      exact hphase
    · exact fun hlate => (hlate hdir).2 e rfl

theorem settle_watched (result : Res Nat)
    (ho : w.outcomes = if result.isOk then { added := true } else {})
    (herror : ∀ e, result = .error e → w.error = some e) :
    ((settle state.id result).runFrom state).Guards (noting (Watched.note state.id))
      (fun _ _ _ => True)
      (Prog.orErrorAt (fun _ after w' => SettledResult state after w' ∧ w'.published = w.published)
        fun _ after w' => ReturnedEarly state w.published after w') w := by
  cases result with
  | ok revision =>
    have hsync : Ends state.id (synchronizeDirectories state.id)
        (· = { added := true, committed := true }) (· = { added := true }) w.outcomes := by
      rw [ho]
      exact synchronizeDirectories_ends state.id
    refine Prog.guards_tryAt (fun _ v (w' : Watched) => state = v ∧
      w'.outcomes = { added := true, committed := true } ∧ w'.published = w.published) ?_ ?_
    · refine Prog.guards_liftAt (Prog.Guards.imp_try ?_ ?_
        (hsync.quiet (synchronizeDirectories_dirCalls _)))
      · exact fun _ w' h => ⟨rfl, h.1, h.2.1⟩
      · rintro e w' ⟨hw', hpub, -⟩
        refine returnedEarly_same hpub fun hdir => ?_
        rw [hw'] at hdir
        cases hdir
    · rintro _ _ w' ⟨rfl, hw', hpub⟩
      exact ⟨.inl ⟨hw', rfl⟩, hpub⟩
  | error e =>
    have hkeep : Ends state.id (keepFailed state.id) (· = {})
        (fun o => o.added = false ∧ o.dirFailed = true) w.outcomes := by
      rw [ho]
      exact keepFailed_ends state.id
    have hfailed : SettledResult state { state with phase := .failed e.text } w :=
      .inr ⟨ho, e, herror e rfl, rfl⟩
    refine Prog.guards_tryAt (fun _ v (w' : Watched) =>
      { state with phase := .failed e.text } = v ∧ w = w') ⟨rfl, rfl⟩ ?_
    rintro _ _ _ ⟨rfl, rfl⟩
    refine Prog.guards_liftAt (Prog.Guards.imp_try ?_ ?_ (hkeep.quiet (keepFailed_dirCalls _)))
    · rintro _ w' ⟨hw', hpub, herr⟩
      exact ⟨.inr ⟨hw', e, herr.trans (herror e rfl), rfl⟩, hpub⟩
    · rintro _ w' ⟨⟨hadded, hdir⟩, hpub, herr⟩
      exact hfailed.returnedEarly rfl (hadded.trans (by rw [ho]; rfl)) hdir herr hpub

/-- **A regeneration and its channel.** A regeneration that returns `Ok` has published the
    state it leaves, and no directory step of it failed; one that fails has published
    nothing. -/
theorem regenerate_publishes (state published : EndpointState) :
    (regenerate.runFrom state).Guards (noting (Watched.note state.id)) (fun _ _ _ => True)
      (Prog.orErrorAt
        (fun _ after w => w.published = after ∧ w.outcomes.dirFailed = false)
        fun _ after w => ReturnedEarly state published after w) { published } := by
  refine Prog.guards_tryAt (fun a v (w : Watched) => state = a ∧ state = v ∧ w = { published })
    ⟨rfl, rfl, rfl⟩ ?_
  rintro _ _ _ ⟨rfl, rfl, rfl⟩
  refine Prog.guards_tryAt (fun _ v (w : Watched) => state = v ∧ w.outcomes = {} ∧
    w.published = published ∧ w.error = none) ?_ ?_
  · have hprepare := (prepareNext_ends state.id).quiet (w := { published })
      (prepareNext_dirCalls state.id)
    refine Prog.guards_liftAt (Prog.Guards.imp_try ?_ ?_ hprepare)
    · exact fun _ w h => ⟨rfl, h.1, h.2.1, h.2.2⟩
    · rintro e w ⟨⟨hadded, -⟩, hpub, herr⟩
      refine returnedEarly_same hpub fun _ => ⟨hadded, fun e' he' => ?_⟩
      rw [herr] at he'
      cases he'
  rintro _ _ w ⟨rfl, ho, hpub, herr⟩
  refine Prog.guards_tryAt (fun result v (w : Watched) => state = v ∧ w.published = published ∧
    w.outcomes = (if result.isOk then { added := true } else {}) ∧
    ∀ e, result = .error e → w.error = some e) ?_ ?_
  · refine Prog.guards_liftAt (Prog.guards_bind (regenerateBpf_watched state.persist ho herr) ?_)
    exact fun r w' h => ⟨rfl, h.1.trans hpub, h.2⟩
  rintro result _ w ⟨rfl, rfl, ho, herr⟩
  refine Prog.guards_tryAt _ (settle_watched result ho herr) ?_
  rintro _ after w' ⟨hsettled, hpub⟩
  refine Prog.guards_tryAt (fun _ v (w : Watched) => after = v ∧ w.outcomes.dirFailed = false)
    ?_ ?_
  · have hremove := (removeNext_outcomes state.id w'.outcomes).quiet (removeDirIfExists_dirCalls _)
    refine Prog.guards_liftAt (Prog.Guards.imp_try ?_ ?_ hremove)
    · rintro _ u ⟨hu, -⟩
      refine ⟨rfl, ?_⟩
      obtain ⟨hw', -⟩ | ⟨hw', -⟩ := hsettled <;> rw [hu, hw']
    · rintro _ u ⟨hu, hpub', herr'⟩
      exact hsettled.returnedEarly hu rfl rfl herr' (hpub'.trans hpub)
  rintro _ _ u ⟨rfl, hdir⟩
  refine Prog.guards_tryAt (fun a v (u : Watched) => after = a ∧ after = v ∧
    u.outcomes.dirFailed = false) ⟨rfl, rfl, hdir⟩ ?_
  rintro _ _ u ⟨rfl, rfl, hdir⟩
  refine ⟨trivial, fun b v hv => ?_⟩
  rw [show v = _ from hv]
  exact ⟨rfl, hdir⟩

end

/-! ### Runs -/

namespace WorkerStatus

/-- The condition on a handled command: no directory step of the regeneration failed after it
    had changed the state. -/
def HandledInTime (s : WorkerStatus) (tr : List (Answered WorkerOp)) (_ : WorkerStatus) : Prop :=
  NoLateFailure s.state.phase (tr.foldl (StepOutcomes.note s.state.id) {})
    (tr.foldl attachError none)

variable {s t : WorkerStatus} {tr : List (Answered WorkerOp)}

/-- **Step lemma.** A command keeps the published state current exactly when it was handled
    in time. -/
theorem step_current_iff (h : Step s tr t) (hs : s.Current) :
    t.Current ↔ s.HandledInTime tr t := by
  obtain ⟨result, hx⟩ := h
  have hpub : t.published = tr.foldl lastPublished s.published := hx.eq_foldl
  have hend := (regenerate_publishes s.state s.published).exec (hx.any.noting _)
  rw [HandledInTime, Current, hpub,
    ← foldl_note_outcomes s.state.id tr { published := s.published },
    ← foldl_note_error s.state.id tr { published := s.published },
    ← foldl_note_published s.state.id tr { published := s.published }]
  cases result with
  | ok a =>
    obtain ⟨hcurrent, hdir⟩ := hend
    refine iff_of_true hcurrent fun hfailed => ?_
    rw [hdir] at hfailed
    cases hfailed
  | error e =>
    obtain ⟨hsame, hiff⟩ := hend
    rw [hsame, ← hiff, show s.published = s.state from hs]
    exact eq_comm

/-- **Published state.** Whatever the calls answer, what a worker has published is its own
    state after every command of a run exactly when every command was handled in time. -/
theorem current_iff (persist : EndpointPersist) {t : WorkerStatus}
    (run : Run Step (new persist) t) : run.Always Current ↔ run.EachStep HandledInTime :=
  run.always_iff_eachStep (show (new persist).Current from rfl) (J := fun _ => True) trivial
    (fun _ _ _ _ _ _ _ => trivial) fun _ _ _ h hs _ => step_current_iff h hs

/-- **A failed phase that nobody sees.** The loader refuses the endpoint and the directory of
    the last failed attempt cannot be removed: the worker's phase is `Failed`, and its channel
    still says `Created`. -/
theorem failed_unpublished : ∃ (t : WorkerStatus) (run : Run Step (new { id := 1 }) t),
    t.state.phase = .failed "program rejected" ∧ t.published.phase = .created ∧
      ¬ run.Always Current := by
  have hexec : Exec anyAnswer (regenerate.runFrom { persist := { id := 1 } }) () _
      (.pure (.error (.fileError ⟨.other, "permission denied"⟩), _)) () :=
    -- `_next` is prepared, the state file is written, the loader refuses, `_next_fail` stays.
    .answer (.ok ()) (.answer (.ok ()) (.answer (.ok ())
    (.answer (.ok ()) (.answer (.ok ()) (.answer (.ok ()) (.answer (.ok ()) (.answer (.ok ())
    (.answer (.error (.loader "program rejected"))
    (.answer (.error ⟨.other, "permission denied"⟩ : IoResult Unit) (.refl _ _))))))))))
  refine ⟨⟨_, _⟩, .snoc _ .nil _ _ ⟨_, hexec.noting _⟩, rfl, rfl, fun hall => ?_⟩
  have hphase : EndpointPhase.created = .failed "program rejected" :=
    congrArg EndpointState.phase hall.2
  cases hphase

end WorkerStatus

end Sarena
