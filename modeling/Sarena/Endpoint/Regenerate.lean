import Sarena.Endpoint.Directory
import Sarena.Services.Endpoint

namespace Sarena

open Lib

/-!
# Endpoint — regeneration

`EndpointWorker::regenerate` writes the endpoint's state to `_next`, has the loader attach
its programs and makes `_next` the current directory.  It answers `Ok` also when the
attachment failed, as long as `_next` could be put aside.  This file finds out exactly
when its answer is honest.

* `regenerate` — the worker's method, over the calls of `WorkerOp`;
* `StepOutcomes` — which steps of a regeneration succeeded, read off its trace;
* `Regeneration` — a complete execution, with any answer to every call;
* `regenerate_honest_iff` — the answer, the worker's state and the answer of `create`
  are honest exactly when the steps' outcomes allow it.
-/

/-- A method of the worker: fallible, over the worker's state and its calls. -/
abbrev WorkerM (α : Type) := ExceptT DataPlaneError (StateT EndpointState (Prog WorkerOp)) α

namespace WorkerM

/-- Calls that do not touch the worker's state. -/
def fs {α : Type} (p : FsM α) : WorkerM α := ExceptT.mk (StateT.lift p.run)

/-- The method from a state: its result and the state it leaves. -/
def runFrom {α : Type} (p : WorkerM α) (state : EndpointState) :
    Prog WorkerOp (Res α × EndpointState) :=
  p.run.run state

end WorkerM

/-- The temporary file of `write_state`. -/
def epConfigTmpName : String := epConfigName ++ ".tmp"

theorem epConfigTmpName_ne : epConfigTmpName ≠ epConfigName := by decide

/-- `EndpointPersist::write_state`. -/
def writeState (persist : EndpointPersist) (dir : String) : FsM Unit := do
  FsM.io (perform (.createFile dir epConfigTmpName))
  FsM.res (perform (.writeFile dir epConfigTmpName persist))
  FsM.io (perform (.syncFile dir epConfigTmpName))
  FsM.io (perform (.renameFile dir epConfigTmpName epConfigName))
  -- The rename lives in the directory entry; it is synced too.
  FsM.io (perform (.syncDir dir))

/-- `EndpointWorker::regenerate_bpf`. -/
def regenerateBpf (persist : EndpointPersist) : FsM Nat := do
  writeState persist (dirName persist.id .next)
  FsM.res (perform (.addLoaderEndpoint persist))
  return 0

/-- The first steps of `regenerate`: an empty `_next`. -/
def prepareNext (id : EndpointId) : FsM Unit := do
  FsM.io (removeDirIfExists (dirName id .next))
  FsM.io (perform (.createDirAll (dirName id .next)))
  FsM.io (perform (.setPermissions (dirName id .next) 0o777))

/-- The error arm of `regenerate`: `_next` is put aside. -/
def keepFailed (id : EndpointId) : FsM Unit := do
  FsM.io (removeDirIfExists (dirName id .nextFailed))
  FsM.io (perform (.renameDir (dirName id .next) (dirName id .nextFailed)))

/-- The `match` of `regenerate` on the attachment's result. -/
def settle (id : EndpointId) (result : Res Nat) : WorkerM Unit :=
  match result with
  | .ok _revision => do
    WorkerM.fs (synchronizeDirectories id)
    modify fun state => { state with phase := .ready, generation := state.generation + 1 }
  | .error e => do
    modify fun state => { state with phase := .failed e.text }
    WorkerM.fs (keepFailed id)

/-- `EndpointWorker::regenerate`. -/
def regenerate : WorkerM Unit := do
  let state ← get
  let id := state.id
  WorkerM.fs (prepareNext id)
  let result ← WorkerM.fs (FsM.result (regenerateBpf state.persist).run)
  settle id result
  WorkerM.fs (FsM.io (removeDirIfExists (dirName id .next)))
  let state ← get
  WorkerM.fs (FsM.result (perform (.publish state)))

/-! ### What the steps of a regeneration had for outcomes -/

/-- Which steps of a regeneration succeeded or failed. -/
structure StepOutcomes where
  /-- The loader attached the endpoint's programs. -/
  added : Bool := false
  /-- `_next` was renamed to the current directory. -/
  committed : Bool := false
  /-- A directory step of `regenerate` itself failed: on `_next` or `_next_fail`. -/
  dirFailed : Bool := false
  /-- A removal of `_next` failed. -/
  removeFailed : Bool := false
  deriving DecidableEq, Repr

/-- Whether a call failed. -/
def IoResult.failed : IoResult Unit → Bool
  | .ok () => false
  | .error _ => true

/-- Whether a removal failed; nothing to remove is no failure. -/
def IoResult.removeFailed (r : IoResult Unit) : Bool := IoResult.failed (ignoreNotFound r)

namespace StepOutcomes

/-- Takes one answered call of a regeneration of `id` into account. -/
def note (id : EndpointId) (o : StepOutcomes) : Answered WorkerOp → StepOutcomes
  | ⟨.removeDirAll dir, r⟩ =>
    if dir = dirName id .next then
      { o with
        dirFailed := o.dirFailed || IoResult.removeFailed r
        removeFailed := o.removeFailed || IoResult.removeFailed r }
    else if dir = dirName id .nextFailed then
      { o with dirFailed := o.dirFailed || IoResult.removeFailed r }
    else o
  | ⟨.createDirAll _, r⟩ => { o with dirFailed := o.dirFailed || IoResult.failed r }
  | ⟨.setPermissions _ _, r⟩ => { o with dirFailed := o.dirFailed || IoResult.failed r }
  | ⟨.renameDir source target, r⟩ =>
    if source = dirName id .next ∧ target = dirName id .current then
      { o with committed := o.committed || !IoResult.failed r }
    else if target = dirName id .nextFailed then
      { o with dirFailed := o.dirFailed || IoResult.failed r }
    else o
  | ⟨.addLoaderEndpoint _, r⟩ => { o with added := o.added || r.isOk }
  | _ => o

end StepOutcomes

/-- A complete regeneration from a state of the worker: the calls it made with their
    answers, its result and the state it left. -/
structure Regeneration (state : EndpointState) where
  trace : List (Answered WorkerOp)
  result : Res Unit
  after : EndpointState
  exec : Exec anyAnswer (regenerate.runFrom state) () trace (.pure (result, after)) ()

/-- The outcomes of the steps of a regeneration. -/
def Regeneration.outcomes {state : EndpointState} (r : Regeneration state) : StepOutcomes :=
  r.trace.foldl (StepOutcomes.note state.id) {}

/-! ### Each part, by its outcomes -/

section

variable {id : EndpointId} {o : StepOutcomes}

/-- The part `p` of a regeneration of `id`, started when the outcomes were `o`, ends well
    with `R` and badly with `X`. -/
def Ends {α : Type} (id : EndpointId) (p : FsM α) (R X : StepOutcomes → Prop)
    (o : StepOutcomes) : Prop :=
  p.run.Guards (noting (StepOutcomes.note id)) (fun _ _ _ => True)
    (Prog.orError (fun _ => R) (fun _ => X)) o

theorem Ends.bind {α β : Type} {p : FsM α} {f : α → FsM β} {Q X : StepOutcomes → Prop}
    (R : StepOutcomes → Prop) (hp : Ends id p R X o) (hf : ∀ a o, R o → Ends id (f a) Q X o) :
    Ends id (p >>= f) Q X o :=
  Prog.guards_try _ hp fun a o h => hf a o h

theorem ends_io {op : WorkerOp (IoResult Unit)} {R X : StepOutcomes → Prop}
    (h : ∀ b, if IoResult.failed b then X (o.note id ⟨op, b⟩) else R (o.note id ⟨op, b⟩)) :
    Ends id (FsM.io (perform op)) R X o := by
  refine ⟨trivial, fun b t ht => ?_⟩
  subst ht
  cases b with
  | ok a => exact h (.ok a)
  | error e => exact h (.error e)

theorem ends_remove {dir : String} {R X : StepOutcomes → Prop}
    (h : ∀ b, if IoResult.removeFailed b then X (o.note id ⟨.removeDirAll dir, b⟩)
      else R (o.note id ⟨.removeDirAll dir, b⟩)) :
    Ends id (FsM.io (removeDirIfExists dir)) R X o := by
  refine ⟨trivial, fun b t ht => ?_⟩
  subst ht
  have hb := h b
  unfold IoResult.removeFailed at hb
  show Prog.orError _ _ ((ignoreNotFound b).mapError DataPlaneError.fileError) _
  cases hr : ignoreNotFound b with
  | ok a => rw [hr] at hb; exact hb
  | error e => rw [hr] at hb; exact hb

/-- A call that the outcomes do not take into account. -/
theorem ends_io_skip {op : WorkerOp (IoResult Unit)} (h : ∀ b, o.note id ⟨op, b⟩ = o) :
    Ends id (FsM.io (perform op)) (· = o) (· = o) o := by
  refine ends_io fun b => ?_
  rw [h]
  split <;> rfl

theorem ends_res {op : WorkerOp (Res Unit)} {R X : StepOutcomes → Prop}
    (hR : R (o.note id ⟨op, .ok ()⟩)) (hX : ∀ e, X (o.note id ⟨op, .error e⟩)) :
    Ends id (FsM.res (perform op)) R X o := by
  refine ⟨trivial, fun b t ht => ?_⟩
  subst ht
  cases b with
  | ok a => exact hR
  | error e => exact hX e

/-- A call whose result the code looks at. -/
theorem ends_result {α β : Type} {op : WorkerOp β} {f : β → FsM α} {Q X : StepOutcomes → Prop}
    (h : ∀ b, Ends id (f b) Q X (o.note id ⟨op, b⟩)) :
    Ends id (FsM.result (perform op) >>= f) Q X o := by
  refine ⟨trivial, fun b t ht => ?_⟩
  subst ht
  exact h b

theorem prepareNext_ends (id : EndpointId) :
    Ends id (prepareNext id) (· = {}) (fun o => o.added = false ∧ o.dirFailed = true) {} := by
  refine Ends.bind (· = {}) (ends_remove fun b => ?_) ?_
  · cases h : IoResult.removeFailed b <;> simp [StepOutcomes.note, h]
  rintro _ _ rfl
  refine Ends.bind (· = {}) (ends_io fun b => ?_) ?_
  · cases h : IoResult.failed b <;> simp [StepOutcomes.note, h]
  rintro _ _ rfl
  refine ends_io fun b => ?_
  cases h : IoResult.failed b <;> simp [StepOutcomes.note, h]

theorem writeState_ends (persist : EndpointPersist) (dir : String) (o : StepOutcomes) :
    Ends id (writeState persist dir) (· = o) (· = o) o := by
  refine Ends.bind _ (ends_io_skip fun _ => rfl) ?_
  rintro _ _ rfl
  refine Ends.bind _ (ends_res rfl fun _ => rfl) ?_
  rintro _ _ rfl
  refine Ends.bind _ (ends_io_skip fun _ => rfl) ?_
  rintro _ _ rfl
  refine Ends.bind _ (ends_io_skip fun _ => rfl) ?_
  rintro _ _ rfl
  exact ends_io_skip fun _ => rfl

theorem regenerateBpf_ends (persist : EndpointPersist) :
    Ends id (regenerateBpf persist) (· = { added := true }) (· = {}) {} := by
  refine Ends.bind _ (writeState_ends persist _ _) ?_
  rintro _ _ rfl
  refine Ends.bind (· = { added := true }) (ends_res rfl fun _ => rfl) ?_
  rintro _ _ rfl
  exact rfl

/-- The first rename of a synchronization is not taken into account. -/
theorem backUpCurrent_ends (id : EndpointId) (o : StepOutcomes) :
    Ends id (backUpCurrent id) (· = o) (· = o) o := by
  refine ends_result fun b => ?_
  have hskip : o.note id ⟨.renameDir (dirName id .current) (dirName id .backup), b⟩ = o := by
    simp [StepOutcomes.note]
  rw [hskip]
  cases b with
  | ok a => exact rfl
  | error e =>
    by_cases he : e.kind = .notFound
    · simp only [he, if_true]
      exact rfl
    · simp only [he, if_false]
      exact rfl

theorem commitNext_ends (id : EndpointId) (hadCurrent : Bool) :
    Ends id (commitNext id hadCurrent) (· = { added := true, committed := true })
      (· = { added := true }) { added := true } := by
  refine ends_result fun b => ?_
  cases b with
  | ok a =>
    refine ⟨trivial, fun b t ht => ?_⟩
    subst ht
    show StepOutcomes.note id (StepOutcomes.note id { added := true }
      ⟨.renameDir (dirName id .next) (dirName id .current), .ok a⟩)
      ⟨.removeDirAll (dirName id .backup), b⟩ = _
    simp [StepOutcomes.note, IoResult.failed]
  | error e =>
    have hcommit : StepOutcomes.note id { added := true }
        ⟨.renameDir (dirName id .next) (dirName id .current), .error e⟩ = { added := true } := by
      simp [StepOutcomes.note, IoResult.failed]
    rw [hcommit]
    cases hadCurrent with
    | false => exact rfl
    | true =>
      refine ends_result fun b => ?_
      show _ = _
      simp [StepOutcomes.note]

theorem synchronizeDirectories_ends (id : EndpointId) :
    Ends id (synchronizeDirectories id) (· = { added := true, committed := true })
      (· = { added := true }) { added := true } := by
  refine Ends.bind (· = { added := true }) (ends_remove fun b => ?_) ?_
  · simp [StepOutcomes.note]
  rintro _ _ rfl
  refine Ends.bind _ (backUpCurrent_ends id _) ?_
  rintro hadCurrent _ rfl
  exact commitNext_ends id hadCurrent

theorem keepFailed_ends (id : EndpointId) :
    Ends id (keepFailed id) (· = {}) (fun o => o.added = false ∧ o.dirFailed = true) {} := by
  refine Ends.bind (· = {}) (ends_remove fun b => ?_) ?_
  · cases h : IoResult.removeFailed b <;> simp [StepOutcomes.note, h]
  rintro _ _ rfl
  refine ends_io fun b => ?_
  cases h : IoResult.failed b <;> simp [StepOutcomes.note, h]

end

/-! ### The whole regeneration -/

/-- What the outcomes say about a regeneration that answered `Ok`, leaving `after`: the
    endpoint is attached and committed, or nothing of the kind happened. -/
def OkCases (state : EndpointState) (after : EndpointState) (o : StepOutcomes) : Prop :=
  (o = { added := true, committed := true } ∧ after.phase = .ready ∧
      after.generation = state.generation + 1) ∨ o = {}

/-- What the outcomes say about a regeneration that answered an error. -/
def ErrCases (o : StepOutcomes) : Prop :=
  (o.added = false ∧ o.dirFailed = true) ∨ (o.added = true ∧ o.committed = false) ∨
    (o.added = true ∧ o.committed = true ∧ o.removeFailed = true)

theorem settle_ends (state : EndpointState) (result : Res Nat) (o : StepOutcomes)
    (h : o = if result.isOk then { added := true } else {}) :
    ((settle state.id result).runFrom state).Guards (noting (StepOutcomes.note state.id))
      (fun _ _ _ => True)
      (Prog.orErrorAt (fun _ after o => OkCases state after o) fun _ _ o => ErrCases o) o := by
  subst h
  cases result with
  | ok revision =>
    refine Prog.guards_tryAt
      (fun _ w o => w = state ∧ o = { added := true, committed := true }) ?_ ?_
    · refine Prog.guards_liftAt (Prog.Guards.imp_try (fun _ _ h => ⟨rfl, h⟩) (fun _ o h => ?_)
        (synchronizeDirectories_ends state.id))
      rw [show o = _ from h]
      exact .inr (.inl ⟨rfl, rfl⟩)
    · rintro _ w o ⟨rfl, rfl⟩
      exact .inl ⟨rfl, rfl, rfl⟩
  | error e =>
    refine Prog.guards_tryAt (fun _ _ (o : StepOutcomes) => o = {}) rfl ?_
    rintro _ w o rfl
    exact Prog.guards_liftAt (Prog.Guards.imp_try (fun _ _ h => .inr h) (fun _ _ h => .inl h)
      (keepFailed_ends state.id))

/-- The final removal of `_next`: whatever is known stays known, unless it fails. -/
theorem removeNext_ends (state after : EndpointState) {o : StepOutcomes}
    (h : OkCases state after o) :
    Ends state.id (FsM.io (removeDirIfExists (dirName state.id .next))) (OkCases state after)
      ErrCases o := by
  refine ends_remove fun b => ?_
  cases hb : IoResult.removeFailed b with
  | false => simpa [StepOutcomes.note, hb] using h
  | true =>
    obtain ⟨rfl, _, _⟩ | rfl := h
    · simp [StepOutcomes.note, hb, ErrCases]
    · simp [StepOutcomes.note, hb, ErrCases]

theorem regenerate_ends (state : EndpointState) :
    (regenerate.runFrom state).Guards (noting (StepOutcomes.note state.id)) (fun _ _ _ => True)
      (Prog.orErrorAt (fun _ after o => OkCases state after o) fun _ _ o => ErrCases o) {} := by
  refine Prog.guards_tryAt (fun a w (o : StepOutcomes) => state = a ∧ state = w ∧ o = {})
    ⟨rfl, rfl, rfl⟩ ?_
  rintro _ _ _ ⟨rfl, rfl, rfl⟩
  refine Prog.guards_tryAt (fun _ w (o : StepOutcomes) => state = w ∧ o = {}) ?_ ?_
  · exact Prog.guards_liftAt (Prog.Guards.imp_try (fun _ _ h => ⟨rfl, h⟩) (fun _ _ h => .inl h)
      (prepareNext_ends state.id))
  rintro _ _ _ ⟨rfl, rfl⟩
  refine Prog.guards_tryAt (fun result w (o : StepOutcomes) => state = w ∧
    o = if result.isOk then { added := true } else {}) ?_ ?_
  · refine Prog.guards_liftAt (Prog.guards_bind (regenerateBpf_ends state.persist) fun r o h => ?_)
    cases r with
    | ok a => exact ⟨rfl, h⟩
    | error e => exact ⟨rfl, h⟩
  rintro result _ o ⟨rfl, ho⟩
  refine Prog.guards_tryAt _ (settle_ends state result o ho) ?_
  rintro _ after o hok
  refine Prog.guards_tryAt (fun _ w (o : StepOutcomes) => OkCases state w o)
    (Prog.guards_liftAt (removeNext_ends state after hok)) ?_
  rintro _ after o hok
  refine Prog.guards_tryAt (fun a w (o : StepOutcomes) => OkCases state w o) hok ?_
  rintro _ after o hok
  exact ⟨trivial, fun _ _ h => h ▸ hok⟩

/-! ### Honest answers -/

namespace Regeneration

variable {state : EndpointState} (r : Regeneration state)

theorem ok_cases (h : r.result = .ok ()) : OkCases state r.after r.outcomes := by
  have hends := Prog.Guards.exec (regenerate_ends state) (r.exec.noting ({} : StepOutcomes))
  rw [h] at hends
  exact hends

theorem error_cases {e : DataPlaneError} (h : r.result = .error e) : ErrCases r.outcomes := by
  have hends := Prog.Guards.exec (regenerate_ends state) (r.exec.noting ({} : StepOutcomes))
  rw [h] at hends
  exact hends

/-- The worker's answer is honest: `Ok` exactly when the endpoint was attached and its
    directories were synchronized, and then the worker is ready with the next generation.
    By `synchronizeDirectories_ends`, the synchronization succeeds when its commit does. -/
def AnswerHonest : Prop :=
  (r.result = .ok () ↔ r.outcomes.added = true ∧ r.outcomes.committed = true) ∧
    (r.result = .ok () → r.after.phase = .ready ∧
      r.after.generation.toNat = state.generation.toNat + 1)

/-- The manager's operations when this regeneration is the one a worker answers with.  The
    caller may also find the worker gone, or lose its answer. -/
def answering : Sem ManagerOp EndpointManager
  | _, .regenerate ep, m, b, m' => EndpointManager.sem _ (.regenerate ep) m b m' ∧
      (b = r.result ∨ b = .error .actorGone ∨ b = .error .actorCancelled)
  | _, op, m, b, m' => EndpointManager.sem _ op m b m'

/-- `create` succeeds only if the endpoint was attached. -/
def CreateHonest : Prop :=
  ∀ text request m tr m', Exec r.answering (create text request).run m tr (.pure (.ok ())) m' →
    r.outcomes.added = true

/-- The steps' outcomes under which the answer is honest: when the endpoint was not
    attached, a directory step of `regenerate` itself failed as well; when it was attached
    and committed, the final removal of `_next` did not fail and the generation was not at
    the end of its range. -/
def HonestOutcomes : Prop :=
  (r.outcomes.added = false → r.outcomes.dirFailed = true) ∧
    (r.outcomes.added = true ∧ r.outcomes.committed = true →
      r.outcomes.removeFailed = false ∧ state.generation.toNat + 1 < 2 ^ 64)

/-- `create` succeeds only when the worker answered `Ok`. -/
theorem result_of_create {text : IpText} {request : EndpointCreateRequest}
    {m m' : EndpointManager} {tr : List (Answered ManagerOp)}
    (h : Exec r.answering (create text request).run m tr (.pure (.ok ())) m') :
    r.result = .ok () := by
  have hguards : (create text request).run.Guards r.answering (fun _ _ _ => True)
      (Prog.orError (fun _ _ => r.result = .ok ()) fun _ _ => True) m := by
    refine Prog.guards_try (fun _ _ => True) ?_ ?_
    · refine Prog.Guards.imp (fun a t _ => ?_) (Prog.guards_true _ m)
      cases a <;> trivial
    intro ep m _
    refine Prog.guards_try (fun b _ => b = .ok () → r.result = .ok ())
      (Handler.guards_op trivial fun b t hb hok => ?_) ?_
    · obtain ⟨-, h | h | h⟩ := hb
      · rw [← h, hok]
      · rw [h] at hok
        cases hok
      · rw [h] at hok
        cases hok
    intro b m hb
    refine Handler.guards_attempt (fun _ h => hb ?_) fun _ => trivial
    cases b with
    | ok a => rfl
    | error e => cases h
  exact Prog.Guards.exec hguards h

/-- **Honest answers.** Whatever the calls of a regeneration answer, its answer, the
    worker's state and the answer of `create` are honest exactly when the outcomes of its
    steps are such. -/
theorem regenerate_honest_iff : r.AnswerHonest ∧ r.CreateHonest ↔ r.HonestOutcomes := by
  constructor
  · rintro ⟨⟨hiff, hready⟩, -⟩
    cases h : r.result with
    -- `Ok` is answered after a commit, or with nothing done at all.
    | ok a =>
      obtain ⟨ho, -, hgen⟩ | ho := r.ok_cases h
      · refine ⟨by simp [ho], fun _ => ⟨by simp [ho], ?_⟩⟩
        rw [← (hready h).2]
        exact UInt64.toNat_lt _
      · have := hiff.mp h
        simp [ho] at this
    | error e =>
      obtain ⟨hadd, hdir⟩ | ⟨hadd, hcom⟩ | ⟨hadd, hcom, -⟩ := r.error_cases h
      · exact ⟨fun _ => hdir, by simp [hadd]⟩
      · exact ⟨by simp [hadd], by simp [hcom]⟩
      · rw [hiff.mpr ⟨hadd, hcom⟩] at h
        cases h
  · rintro ⟨hnot, hdone⟩
    have hanswer : r.AnswerHonest := by
      cases h : r.result with
      | ok a =>
        obtain ⟨ho, hphase, hgen⟩ | ho := r.ok_cases h
        · have hlt := (hdone (by simp [ho])).2
          refine ⟨by simp [h, ho], fun _ => ⟨hphase, ?_⟩⟩
          rw [hgen, UInt64.toNat_add]
          exact Nat.mod_eq_of_lt hlt
        · simp [ho] at hnot
      | error e =>
        refine ⟨?_, fun hok => by rw [h] at hok; cases hok⟩
        obtain ⟨hadd, -⟩ | ⟨-, hcom⟩ | ⟨hadd, hcom, hrem⟩ := r.error_cases h
        · simp [h, hadd]
        · simp [h, hcom]
        · rw [(hdone ⟨hadd, hcom⟩).1] at hrem
          cases hrem
    exact ⟨hanswer, fun text request m tr m' hx => (hanswer.1.mp (r.result_of_create hx)).1⟩

/-- **A failed attachment answered with `Ok`.** Every file-system call succeeds, the loader
    refuses the endpoint, and the regeneration answers `Ok` from the failed phase. -/
theorem failed_attachment_answers_ok :
    ∃ r : Regeneration { persist := { id := 1 } },
      r.result = .ok () ∧ r.outcomes.added = false ∧
        r.after.phase = .failed "program rejected" ∧ ¬ r.AnswerHonest := by
  have hexec : Exec anyAnswer (regenerate.runFrom { persist := { id := 1 } }) () _
      (.pure (.ok (), _)) () :=
    -- `_next` is prepared, the state file is written, the loader refuses, `_next` is put aside.
    .answer (.ok ()) (.answer (.ok ()) (.answer (.ok ())
    (.answer (.ok ()) (.answer (.ok ()) (.answer (.ok ()) (.answer (.ok ()) (.answer (.ok ())
    (.answer (.error (.loader "program rejected"))
    (.answer (.ok ()) (.answer (.ok ()) (.answer (.ok ()) (.answer () (.refl _ _)))))))))))))
  obtain ⟨-, hphase, -⟩ | ho := Regeneration.ok_cases ⟨_, _, _, hexec⟩ rfl
  · cases hphase
  · refine ⟨⟨_, _, _, hexec⟩, rfl, by rw [ho], rfl, fun h => ?_⟩
    have hadded := (h.1.mp rfl).1
    rw [ho] at hadded
    cases hadded

end Regeneration

end Sarena
