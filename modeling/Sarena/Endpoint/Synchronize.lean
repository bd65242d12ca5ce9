import Sarena.Endpoint.Disk

namespace Sarena

open Lib

/-!
# Endpoint — a synchronization that fails

`synchronize_directories` renames the current directory away, renames `_next` to its place
and, when that fails, tries to put the current directory back.  On a disk where any of these
calls may fail, nothing of the two directories is lost.

* `faulty_removeDirAll`, `faulty_renameDir` — the calls on such a disk;
* `Preserved` — what an error leaves: the current state, there or in the backup, and `_next`;
* `synchronizeDirectories_kept` — `Ok` means that `_next` became the current directory, an
  error that both are preserved.
-/

section

variable {id : EndpointId} {fs fs' : Fs}

/-! ### Calls that may fail -/

/-- A removal takes the directory away or changes nothing, as it does when it fails. -/
theorem faulty_removeDirAll {kind : DirKind} {r : IoResult Unit}
    (h : faultySem _ (.removeDirAll (dirName id kind)) fs r fs') :
    (∀ k ≠ kind, view id fs' k = view id fs k) ∧
      ((∃ e, ignoreNotFound r = .error e) → fs' = fs) := by
  obtain h | ⟨-, rfl⟩ := h
  · obtain ⟨hok, hview⟩ := disk_removeDirAll h
    refine ⟨fun k hk => ?_, fun herror => ?_⟩
    · rw [hview, Function.update_of_ne hk]
    · obtain ⟨e, he⟩ := herror
      rw [hok] at he
      cases he
  · exact ⟨fun _ _ => rfl, fun _ => rfl⟩

/-- A rename that fails changes nothing; one that succeeds moves the directory. -/
theorem faulty_renameDir {kind kind' : DirKind} {r : IoResult Unit}
    (h : faultySem _ (.renameDir (dirName id kind) (dirName id kind')) fs r fs') :
    ((∃ e, r = .error e) ∧ fs' = fs) ∨
      (r = .ok () ∧ ∃ d, view id fs kind = some d ∧
        view id fs' = Function.update (Function.update (view id fs) kind none) kind' (some d)) := by
  obtain (⟨-, ⟨e, rfl, -⟩, rfl⟩ | ⟨d, hd, ⟨-, -, -, ⟨e, rfl, -⟩, rfl⟩ | ⟨-, rfl, rfl⟩⟩) |
    ⟨he, rfl⟩ := h
  · exact .inl ⟨⟨e, rfl⟩, rfl⟩
  · exact .inl ⟨⟨e, rfl⟩, rfl⟩
  · exact .inr ⟨rfl, d, hd, by rw [view_insert, view_remove]⟩
  · exact .inl ⟨he, rfl⟩

/-! ### Nothing is lost -/

variable {start : DirView} {next : StateDir}

/-- The former current directory, if there was one, is still there or in the backup, and the
    former `_next` is still `_next`. -/
structure Preserved (start : DirView) (next : StateDir) (v : DirView) : Prop where
  current : ∀ d, start .current = some d → v .current = some d ∨ v .backup = some d
  next : v .next = some next

/-- After the first rename: where the current directory is, as far as the code knows. -/
structure BackedUp (start : DirView) (next : StateDir) (hadCurrent : Bool) (v : DirView) :
    Prop where
  kept : if hadCurrent then v .current = none ∧ v .backup = start .current
    else v .current = start .current
  next : v .next = some next

theorem BackedUp.preserved {hadCurrent : Bool} {v : DirView}
    (h : BackedUp start next hadCurrent v) : Preserved start next v := by
  refine ⟨fun d hd => ?_, h.next⟩
  have hkept := h.kept
  cases hadCurrent with
  | true => exact .inr (hkept.2.trans hd)
  | false => exact .inl (Eq.trans hkept hd)

/-- A part of the synchronization that keeps both directories when it fails. -/
def KeepsBoth {α : Type} (id : EndpointId) (start : DirView) (next : StateDir) (p : FsM α)
    (R : α → DirView → Prop) (fs : Fs) : Prop :=
  p.run.Guards faultySem (fun _ _ _ => True)
    (Prog.orError (fun a fs' => R a (view id fs')) fun _ fs' => Preserved start next (view id fs'))
    fs

theorem backUpCurrent_kept (hcurrent : view id fs .current = start .current)
    (hnext : view id fs .next = some next) :
    KeepsBoth id start next (backUpCurrent id) (BackedUp start next) fs := by
  have hsame : BackedUp start next false (view id fs) := ⟨hcurrent, hnext⟩
  refine ⟨trivial, fun r fs' h => ?_⟩
  obtain ⟨⟨e, rfl⟩, rfl⟩ | ⟨rfl, d, hd, hview⟩ := faulty_renameDir h
  · show (if e.kind = .notFound then pure false else throw (.fileError e) :
      FsM Bool).run.Guards _ _ _ _
    split
    · exact hsame
    · exact hsame.preserved
  · refine ⟨⟨?_, ?_⟩, ?_⟩
    · rw [hview]
      rfl
    · rw [hview, ← hcurrent, hd]
      rfl
    · rw [hview]
      exact hnext

theorem commitNext_kept {hadCurrent : Bool} (h : BackedUp start next hadCurrent (view id fs)) :
    KeepsBoth id start next (commitNext id hadCurrent) (fun _ v => v .current = some next) fs := by
  refine ⟨trivial, fun r t ht => ?_⟩
  obtain ⟨⟨e, rfl⟩, rfl⟩ | ⟨rfl, d, hd, hview⟩ := faulty_renameDir ht
  · cases hadCurrent with
    | false => exact h.preserved
    | true =>
      refine ⟨trivial, fun r u hu => ?_⟩
      obtain ⟨-, rfl⟩ | ⟨-, d, hd, hview⟩ := faulty_renameDir hu
      · exact h.preserved
      · -- The rollback puts the backup back.
        refine ⟨fun d' hd' => .inl ?_, ?_⟩
        · rw [hview, Function.update_self, ← hd, h.kept.2, hd']
        · rw [hview]
          exact h.next
  · refine ⟨trivial, fun r u hu => ?_⟩
    obtain rfl : next = d := Option.some.inj (h.next.symm.trans hd)
    show view id u .current = some next
    rw [(faulty_removeDirAll hu).1 .current (by decide), hview, Function.update_self]

/-- **A failed synchronization loses nothing.** Whatever calls fail, and whatever directories
    there were: after `Ok` the current directory is the former `_next`, and after an error the
    former current directory is still there or in the backup, and `_next` is as it was. -/
theorem synchronizeDirectories_kept (hnext : fs (dirName id .next) = some next)
    {tr : List (Answered WorkerOp)} {r : Res Unit}
    (h : Exec faultySem (synchronizeDirectories id).run fs tr (.pure r) fs') :
    (r = .ok () → fs' (dirName id .current) = some next) ∧
      ∀ e, r = .error e → Preserved (view id fs) next (view id fs') := by
  have hkeeps : KeepsBoth id (view id fs) next (synchronizeDirectories id)
      (fun _ v => v .current = some next) fs := by
    refine Prog.guards_try (fun _ fs' => view id fs' .current = view id fs .current ∧
      view id fs' .next = some next) ?_ ?_
    · refine ⟨trivial, fun r t ht => ?_⟩
      obtain ⟨hsame, herror⟩ := faulty_removeDirAll ht
      show Prog.orError _ _ ((ignoreNotFound r).mapError DataPlaneError.fileError) t
      cases hr : ignoreNotFound r with
      | ok a => exact ⟨hsame .current (by decide), (hsame .next (by decide)).trans hnext⟩
      | error e =>
        obtain rfl := herror ⟨e, hr⟩
        exact ⟨fun _ hd => .inl hd, hnext⟩
    · rintro _ t ⟨hcurrent, hnext⟩
      refine Prog.guards_try (fun hadCurrent fs' => BackedUp (view id fs) next hadCurrent
        (view id fs')) (backUpCurrent_kept hcurrent hnext) fun hadCurrent u hu => ?_
      exact commitNext_kept hu
  have hend := hkeeps.exec h
  refine ⟨?_, ?_⟩
  · rintro rfl
    exact hend
  · rintro e rfl
    exact hend

end

/-- A directory with a state file. -/
def oneFile : StateDir := KeyMap.insert .empty epConfigName .other

/-- Endpoint 1 with a current state and an empty `_next`. -/
def twoDirs : Fs := KeyMap.insert (KeyMap.insert .empty (dirName 1 .current) oneFile)
  (dirName 1 .next) .empty

/-- A disk on which every rename but the first fails: the current state is left in the backup,
    as the rollback fails too, and `_next` stays. -/
theorem synchronizeDirectories_kept_backup : ∃ tr fs',
    Exec faultySem (synchronizeDirectories 1).run twoDirs tr
      (.pure (.error (.fileError ⟨.other, "no space left on device"⟩))) fs' ∧
    fs' (dirName 1 .current) = none ∧ Preserved (view 1 twoDirs) .empty (view 1 fs') := by
  have hcurrent : twoDirs (dirName 1 .current) = some oneFile := by
    simp [twoDirs, KeyMap.insert_apply]
  have hbackup : twoDirs (dirName 1 .backup) = none := by
    simp [twoDirs, KeyMap.insert_apply, KeyMap.empty]
  have hexec : Exec faultySem (synchronizeDirectories 1).run twoDirs _
      (.pure (.error (.fileError ⟨.other, "no space left on device"⟩))) _ :=
    .step _ _ _ _ _ _ _ _ (.inl (.inl ⟨hbackup, notFound_error "no such entry", rfl⟩)) <|
    .step _ _ _ _ _ _ _ _ (.inl (.inr ⟨_, hcurrent, .inr ⟨by simp [hbackup], rfl, rfl⟩⟩)) <|
    .step _ _ _ (.error ⟨.other, "no space left on device"⟩) _ _ _ _ (.inr ⟨⟨_, rfl⟩, rfl⟩) <|
    .step _ _ _ (.error ⟨.other, "no space left on device"⟩) _ _ _ _ (.inr ⟨⟨_, rfl⟩, rfl⟩) <|
    .refl _ _
  refine ⟨_, _, hexec, by simp [KeyMap.insert_apply], ?_⟩
  exact (synchronizeDirectories_kept (KeyMap.insert_self _ _ _) hexec).2 _ rfl

end Sarena
