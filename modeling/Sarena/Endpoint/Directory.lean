import Sarena.Endpoint.Persist
import Sarena.Lib.KeyMap
import Sarena.Lib.Prog
import Mathlib.Data.List.Sort

namespace Sarena

open Lib

/-!
# Endpoint — the state directories

An endpoint `id` keeps its state in up to four directories under the state directory:
`<id>`, `<id>_next`, `<id>_stale` and `<id>_next_fail`.  Every file-system call is one
operation of `WorkerOp`, so the functions here can be cut by a crash between any two calls.

* `dirName`, `parseDirName` — the directory names; `parseDirName_eq_some` says that one
  inverts the other on allocatable ids, `dirName_inj` that names do not clash;
* `synchronizeDirectories` — makes `_next` the current state;
* `readEndpoints` — restores one entry per endpoint and removes its other directories.
-/

/-! ### File-system calls -/

/-- What a state file holds: the text `serde_json` writes for an endpoint, which it reads
    back, or a text it does not read as an endpoint. -/
inductive FileContents
  | json (persist : EndpointPersist)
  | other
  deriving DecidableEq, Repr

/-- `std::fs::FileType` of a directory entry.  A symbolic link is not followed. -/
inductive FileType
  | dir
  | file
  | symlink
  | other
  deriving DecidableEq, Repr

/-- `std::fs::DirEntry`: what `file_name().to_str()` and `file_type()` answer. -/
structure DirEntry where
  fileName : Option String
  fileType : IoResult FileType

/-- The calls of the state-directory code and of an endpoint's worker: the file system,
    with directories named relative to the state directory, the loader, and the channel the
    worker publishes its state on. -/
inductive WorkerOp : Type → Type
  | removeDirAll (dir : String) : WorkerOp (IoResult Unit)
  | createDirAll (dir : String) : WorkerOp (IoResult Unit)
  | setPermissions (dir : String) (mode : Nat) : WorkerOp (IoResult Unit)
  | renameDir (source target : String) : WorkerOp (IoResult Unit)
  | createFile (dir file : String) : WorkerOp (IoResult Unit)
  | writeFile (dir file : String) (persist : EndpointPersist) : WorkerOp (Res Unit)
  | syncFile (dir file : String) : WorkerOp (IoResult Unit)
  | renameFile (dir source target : String) : WorkerOp (IoResult Unit)
  | syncDir (dir : String) : WorkerOp (IoResult Unit)
  | readDir : WorkerOp (IoResult (List (IoResult DirEntry)))
  | readFile (dir file : String) : WorkerOp (IoResult FileContents)
  | addLoaderEndpoint (persist : EndpointPersist) : WorkerOp (Res Unit)
  | publish (state : EndpointState) : WorkerOp Unit

/-- Fallible code over these calls. -/
abbrev FsM (α : Type) := ExceptT DataPlaneError (Prog WorkerOp) α

namespace FsM

/-- File-system calls under `?`. -/
def io {α : Type} (p : Prog WorkerOp (IoResult α)) : FsM α :=
  ExceptT.mk (p >>= fun r => pure (r.mapError .fileError))

/-- Calls with a data-plane result under `?`. -/
def res {α : Type} (p : Prog WorkerOp (Res α)) : FsM α := ExceptT.mk p

/-- A program whose result the caller looks at itself. -/
def result {α : Type} (p : Prog WorkerOp α) : FsM α := ExceptT.lift p

end FsM

/-! ### Directory names -/

/-- `DirKind`, in the order of restore preference. -/
inductive DirKind
  | current
  | next
  | backup
  | nextFailed
  deriving DecidableEq, Repr

namespace DirKind

/-- The derived order. -/
def rank : DirKind → Nat
  | current => 0
  | next => 1
  | backup => 2
  | nextFailed => 3

/-- What a directory of the kind adds to the endpoint id. -/
def suffix : DirKind → String
  | current => ""
  | next => "_next"
  | backup => "_stale"
  | nextFailed => "_next_fail"

theorem rank_inj {k k' : DirKind} (h : k.rank = k'.rank) : k = k' := by
  cases k <;> cases k' <;> first | rfl | cases h

end DirKind

/-- `state_directory_path`, `next_directory_path`, `backup_directory_path` and
    `failed_directory_path`. -/
def dirName (id : EndpointId) (kind : DirKind) : String := id.text ++ kind.suffix

/-- `str::strip_suffix`. -/
def stripSuffix (name suffix : String) : Option String :=
  if suffix.toList <:+ name.toList then
    some (String.ofList (name.toList.take (name.toList.length - suffix.toList.length)))
  else none

/-- `str::parse::<u16>`: digits after an optional plus sign, without overflow. -/
def parseU16 (s : String) : Option EndpointId :=
  let digits := match s.toList with
    | '+' :: digits => digits
    | digits => digits
  if h : digits ≠ [] ∧ digits.all Char.isDigit ∧ Nat.ofDigitChars 10 digits 0 < 65536 then
    some ⟨Nat.ofDigitChars 10 digits 0, h.2.2⟩
  else none

/-- The part of `parse_dir_name` that takes the suffix off. -/
def splitDirName (name : String) : String × DirKind :=
  match stripSuffix name DirKind.nextFailed.suffix with
  | some base => (base, .nextFailed)
  | none =>
  match stripSuffix name DirKind.next.suffix with
  | some base => (base, .next)
  | none =>
  match stripSuffix name DirKind.backup.suffix with
  | some base => (base, .backup)
  | none => (name, .current)

/-- `parse_dir_name`: the id must be canonical and allocatable. -/
def parseDirName (name : String) : Option (EndpointId × DirKind) :=
  (parseU16 (splitDirName name).1).bind fun id =>
    if id.text = (splitDirName name).1 ∧ EndpointId.Allocatable id then
      some (id, (splitDirName name).2)
    else none

theorem stripSuffix_append (base suffix : String) :
    stripSuffix (base ++ suffix) suffix = some base := by
  have hsuffix : suffix.toList <:+ (base ++ suffix).toList := by
    rw [String.toList_append]
    exact List.suffix_append _ _
  rw [stripSuffix, if_pos hsuffix, String.toList_append, List.length_append,
    Nat.add_sub_cancel, List.take_left, String.ofList_toList]

theorem eq_append_of_stripSuffix {name suffix base : String}
    (h : stripSuffix name suffix = some base) : name = base ++ suffix := by
  unfold stripSuffix at h
  split at h
  next hsuffix =>
    obtain ⟨pre, hpre⟩ := hsuffix
    rw [← hpre, List.length_append, Nat.add_sub_cancel, List.take_left, Option.some.injEq] at h
    rw [← h, ← String.toList_inj, String.toList_append, String.toList_ofList, hpre]
  next => cases h

/-- A name with another last character does not have the suffix. -/
theorem stripSuffix_eq_none {name suffix : String} {c d : Char}
    (hname : name.toList.getLast? = some c) (hsuffix : suffix.toList.getLast? = some d)
    (hcd : c ≠ d) : stripSuffix name suffix = none := by
  rw [stripSuffix, if_neg]
  rintro ⟨pre, hpre⟩
  rw [← hpre, List.getLast?_append, hsuffix, Option.some_or, Option.some.injEq] at hname
  exact hcd hname.symm

theorem toList_text (id : EndpointId) : id.text.toList = Nat.toDigits 10 id.val :=
  Nat.toList_repr

theorem isDigit_of_mem_text {id : EndpointId} {c : Char} (h : c ∈ id.text.toList) :
    c.isDigit = true := by
  rw [toList_text] at h
  exact Nat.isDigit_of_mem_toDigits (by decide) (by decide) h

/-- The last character of an id's text is a digit. -/
theorem getLast?_text (id : EndpointId) :
    ∃ c, id.text.toList.getLast? = some c ∧ c.isDigit = true := by
  have hne : id.text.toList ≠ [] := by
    rw [toList_text]
    exact Nat.toDigits_ne_nil
  exact ⟨_, List.getLast?_eq_some_getLast hne, isDigit_of_mem_text (List.getLast_mem hne)⟩

/-- The text of an id reads back as the id. -/
theorem parseU16_text (id : EndpointId) : parseU16 id.text = some id := by
  have hplus : (match id.text.toList with
      | '+' :: digits => digits
      | digits => digits) = id.text.toList := by
    split
    next digits heq =>
      have hplus : '+' ∈ id.text.toList := by
        rw [heq]
        exact List.mem_cons_self
      exact absurd (isDigit_of_mem_text hplus) (by decide)
    next => rfl
  have hval : Nat.ofDigitChars 10 id.text.toList 0 = id.val := by
    rw [toList_text, Nat.ofDigitChars_ten_toDigits]
  unfold parseU16
  simp only [hplus]
  rw [dif_pos ⟨by rw [toList_text]; exact Nat.toDigits_ne_nil,
    List.all_eq_true.mpr fun _ h => isDigit_of_mem_text h, by rw [hval]; exact id.isLt⟩]
  exact congrArg some (Fin.ext hval)

/-- A suffix is taken off whatever stands before it. -/
theorem splitDirName_suffix (base : String) {kind : DirKind} (hkind : kind ≠ .current) :
    splitDirName (base ++ kind.suffix) = (base, kind) := by
  -- A suffix is excluded by its last character: 'l', 't' and 'e' differ from each other.
  have hlast : ∀ {suffix : String} {d : Char}, suffix.toList.getLast? = some d →
      (base ++ suffix).toList.getLast? = some d := by
    intro suffix d h
    rw [String.toList_append, List.getLast?_append, h, Option.some_or]
  cases kind with
  | current => exact absurd rfl hkind
  | nextFailed => rw [splitDirName, stripSuffix_append]
  | next =>
    rw [splitDirName, stripSuffix_eq_none (hlast (by decide : _ = some 't'))
      (by decide : _ = some 'l') (by decide), stripSuffix_append]
  | backup =>
    rw [splitDirName, stripSuffix_eq_none (hlast (by decide : _ = some 'e'))
      (by decide : _ = some 'l') (by decide), stripSuffix_eq_none
      (hlast (by decide : _ = some 'e')) (by decide : _ = some 't') (by decide), stripSuffix_append]

theorem splitDirName_dirName (id : EndpointId) (kind : DirKind) :
    splitDirName (dirName id kind) = (id.text, kind) := by
  by_cases hkind : kind = .current
  · subst hkind
    -- The text of an id ends in a digit, and no suffix does.
    obtain ⟨c, hc, hdigit⟩ := getLast?_text id
    have hname : (dirName id .current).toList.getLast? = some c := by
      rw [dirName, String.toList_append, List.getLast?_append, hc]
      rfl
    have hne : ∀ d : Char, d.isDigit = false → c ≠ d := by
      rintro d hd rfl
      rw [hdigit] at hd
      cases hd
    rw [splitDirName, stripSuffix_eq_none hname (by decide : _ = some 'l') (hne 'l' (by decide)),
      stripSuffix_eq_none hname (by decide : _ = some 't') (hne 't' (by decide)),
      stripSuffix_eq_none hname (by decide : _ = some 'e') (hne 'e' (by decide))]
    simp [dirName, DirKind.suffix]
  · exact splitDirName_suffix id.text hkind

/-- A name is its base with the suffix of its kind. -/
theorem splitDirName_append (name : String) :
    name = (splitDirName name).1 ++ (splitDirName name).2.suffix := by
  unfold splitDirName
  split
  next base h => exact eq_append_of_stripSuffix h
  next =>
    split
    next base h => exact eq_append_of_stripSuffix h
    next =>
      split
      next base h => exact eq_append_of_stripSuffix h
      next => simp [DirKind.suffix]

/-- **Directory names.** `parse_dir_name` accepts the directory names of the allocatable
    ids, each with its id and kind, and nothing else. -/
theorem parseDirName_eq_some {name : String} {id : EndpointId} {kind : DirKind} :
    parseDirName name = some (id, kind) ↔
      EndpointId.Allocatable id ∧ name = dirName id kind := by
  constructor
  · intro h
    unfold parseDirName at h
    obtain ⟨i, hi, h⟩ := Option.bind_eq_some_iff.mp h
    rw [Option.ite_none_right_eq_some, Option.some.injEq, Prod.mk.injEq] at h
    obtain ⟨⟨htext, halloc⟩, rfl, rfl⟩ := h
    refine ⟨halloc, ?_⟩
    rw [dirName, htext]
    exact splitDirName_append name
  · rintro ⟨hid, rfl⟩
    unfold parseDirName
    rw [splitDirName_dirName, parseU16_text, Option.bind_some]
    exact if_pos ⟨rfl, hid⟩

/-- Different endpoints and different kinds have different directories. -/
theorem dirName_inj {id id' : EndpointId} {kind kind' : DirKind}
    (h : dirName id kind = dirName id' kind') : id = id' ∧ kind = kind' := by
  have hsplit := congrArg splitDirName h
  rw [splitDirName_dirName, splitDirName_dirName, Prod.mk.injEq] at hsplit
  refine ⟨?_, hsplit.2⟩
  have hparse := congrArg parseU16 hsplit.1
  rw [parseU16_text, parseU16_text] at hparse
  exact Option.some.inj hparse

@[simp] theorem dirName_eq_iff {id id' : EndpointId} {kind kind' : DirKind} :
    dirName id kind = dirName id' kind' ↔ id = id' ∧ kind = kind' := by
  constructor
  · exact dirName_inj
  · rintro ⟨rfl, rfl⟩
    rfl

/-! ### Synchronizing -/

/-- The `match` of `remove_dir_if_exists`: nothing to remove is no error. -/
def ignoreNotFound : IoResult Unit → IoResult Unit
  | .error e => if e.kind = .notFound then .ok () else .error e
  | .ok () => .ok ()

/-- `remove_dir_if_exists`. -/
def removeDirIfExists (dir : String) : Prog WorkerOp (IoResult Unit) := do
  let removed ← perform (.removeDirAll dir)
  return ignoreNotFound removed

/-- The first rename of `synchronize_directories`: whether there was a current directory to
    back up. -/
def backUpCurrent (id : EndpointId) : FsM Bool := do
  match ← FsM.result (perform (.renameDir (dirName id .current) (dirName id .backup))) with
  | .ok () => return true
  | .error e => if e.kind = .notFound then return false else throw (.fileError e)

/-- The second rename, and what is left to do after it. -/
def commitNext (id : EndpointId) (hadCurrent : Bool) : FsM Unit := do
  match ← FsM.result (perform (.renameDir (dirName id .next) (dirName id .current))) with
  | .error e =>
    if hadCurrent then
      -- When the rollback fails as well, the previous state is in the backup directory only.
      let _ ← FsM.result (perform (.renameDir (dirName id .backup) (dirName id .current)))
      throw (.fileError e)
    else throw (.fileError e)
  | .ok () =>
    -- The new state is committed at this point; a failed cleanup is only logged.
    let _ ← FsM.result (removeDirIfExists (dirName id .backup))
    return ()

/-- `synchronize_directories`. -/
def synchronizeDirectories (id : EndpointId) : FsM Unit := do
  FsM.io (removeDirIfExists (dirName id .backup))
  let hadCurrent ← backUpCurrent id
  commitNext id hadCurrent

/-! ### Restoring -/

/-- `EP_CONFIG_NAME`. -/
def epConfigName : String := "ep_config.json"

/-- `EndpointPersist::read_state`. -/
def readState (dir : String) : FsM EndpointPersist := do
  match ← FsM.io (perform (.readFile dir epConfigName)) with
  | .json persist => return persist
  | .other => throw (.jsonError "invalid endpoint state")

/-- `read_endpoint_dir`. -/
def readEndpointDir (id : EndpointId) (dir : String) : FsM EndpointPersist := do
  let endpoint ← readState dir
  if endpoint.id ≠ id then
    throw (.generalError
      ("state file has endpoint id " ++ endpoint.id.text ++ ", expected " ++ id.text))
  else return endpoint

/-- `entry.file_type().is_ok_and(|t| t.is_dir())`. -/
def DirEntry.isDir (entry : DirEntry) : Bool :=
  match entry.fileType with
  | .ok .dir => true
  | _ => false

/-- The names of the directories among the entries of `read_dir`. -/
def listedDirs (entries : List (IoResult DirEntry)) : List String :=
  entries.filterMap fun entry =>
    match entry with
    | .ok entry => if entry.isDir then entry.fileName else none
    | .error _ => none

/-- The names that `collect_endpoint_dirs` keeps, parsed. -/
def parsedDirs (names : List String) : List (EndpointId × DirKind × String) :=
  names.filterMap fun name => (parseDirName name).map fun (id, kind) => (id, kind, name)

/-- The grouping of `collect_endpoint_dirs`.  The order in which a `HashMap` yields its
    ids is unspecified; so is the order in which `read_dir` lists the entries, and the ids
    come here in the order of their names. -/
def groupDirs (names : List String) : List (EndpointId × List (DirKind × String)) :=
  ((parsedDirs names).map (·.1)).dedup.map fun id =>
    (id, ((parsedDirs names).filter (·.1 = id)).map (·.2))

/-- `collect_endpoint_dirs`. -/
def collectEndpointDirs : FsM (List (EndpointId × List (DirKind × String))) := do
  match ← FsM.result (perform .readDir) with
  | .ok entries => return groupDirs (listedDirs entries)
  | .error e => if e.kind = .notFound then return [] else throw (.fileError e)

/-- The first candidate that can be read, with its index. -/
def chooseDir (id : EndpointId) (index : Nat) :
    List (DirKind × String) → Prog WorkerOp (Option (EndpointPersist × Nat))
  | [] => pure none
  | (_, dir) :: candidates => do
    match ← (readEndpointDir id dir).run with
    | .ok endpoint => return some (endpoint, index)
    | .error _ => chooseDir id (index + 1) candidates

/-- Removes superseded directories; failures are only logged. -/
def removeSuperseded : List (DirKind × String) → Prog WorkerOp Unit
  | [] => pure ()
  | (_, dir) :: others => do
    let _ ← removeDirIfExists dir
    removeSuperseded others

/-- `candidates.sort_by_key(|(kind, _)| *kind)`. -/
def sortDirs (candidates : List (DirKind × String)) : List (DirKind × String) :=
  candidates.insertionSort fun a b => a.1.rank ≤ b.1.rank

/-- The body of `read_endpoints`' loop.  Without a usable directory everything is left. -/
def restoreDir (id : EndpointId) (candidates : List (DirKind × String)) :
    Prog WorkerOp (Option EndpointPersist) := do
  let candidates := sortDirs candidates
  match ← chooseDir id 0 candidates with
  | some (endpoint, chosen) => do
    removeSuperseded (candidates.eraseIdx chosen)
    return some endpoint
  | none => return none

/-- The loop of `read_endpoints`. -/
def restoreDirs (endpoints : KeyMap EndpointId EndpointPersist) :
    List (EndpointId × List (DirKind × String)) → Prog WorkerOp (KeyMap EndpointId EndpointPersist)
  | [] => pure endpoints
  | (id, candidates) :: dirs => do
    match ← restoreDir id candidates with
    | some endpoint => restoreDirs (endpoints.insert id endpoint) dirs
    | none => restoreDirs endpoints dirs

/-- `read_endpoints`. -/
def readEndpoints : FsM (KeyMap EndpointId EndpointPersist) := do
  let dirs ← collectEndpointDirs
  FsM.result (restoreDirs .empty dirs)

end Sarena
