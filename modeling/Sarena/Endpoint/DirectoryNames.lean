import Mathlib.Tactic.IntervalCases
import Sarena.Endpoint.Directory

namespace Sarena

/-!
# Endpoint — the names of the state directories

Recovery lists the state directory and takes what `parse_dir_name` accepts for the directories
of endpoints, and removes some of them.  The names are made elsewhere, by four path
constructors, which know nothing of the parser.

* `stateDirectoryPath`, `nextDirectoryPath`, `failedDirectoryPath`, `backupDirectoryPath` —
  the constructors, of which `directoryPath` is the one of a kind;
* `fileName_directoryPath` — the name they give is the `dirName` of the kind;
* `head_text` — what a canonical id starts with;
* `parseDirName_inverse` — the parser accepts the names of the allocatable ids, and no others.
-/

/-! ### The path constructors -/

/-- A path, as its components. -/
abbrev DirPath := List String

/-- `Path::join`, with a single component. -/
def DirPath.join (dir : DirPath) (name : String) : DirPath := dir ++ [name]

/-- `Path::file_name`: the last component. -/
def DirPath.fileName (dir : DirPath) : Option String := dir.getLast?

@[simp] theorem DirPath.fileName_join (dir : DirPath) (name : String) :
    (dir.join name).fileName = some name := List.getLast?_concat

/-- `state_directory_path`. -/
def stateDirectoryPath (stateDir : DirPath) (id : EndpointId) : DirPath := stateDir.join id.text

/-- `next_directory_path`. -/
def nextDirectoryPath (stateDir : DirPath) (id : EndpointId) : DirPath :=
  stateDir.join (id.text ++ "_next")

/-- `failed_directory_path`. -/
def failedDirectoryPath (stateDir : DirPath) (id : EndpointId) : DirPath :=
  stateDir.join (id.text ++ "_next_fail")

/-- `backup_directory_path`. -/
def backupDirectoryPath (stateDir : DirPath) (id : EndpointId) : DirPath :=
  stateDir.join (id.text ++ "_stale")

/-- The path constructor of a kind. -/
def directoryPath (stateDir : DirPath) : DirKind → EndpointId → DirPath
  | .current => stateDirectoryPath stateDir
  | .next => nextDirectoryPath stateDir
  | .backup => backupDirectoryPath stateDir
  | .nextFailed => failedDirectoryPath stateDir

theorem fileName_directoryPath (stateDir : DirPath) (kind : DirKind) (id : EndpointId) :
    (directoryPath stateDir kind id).fileName = some (dirName id kind) := by
  cases kind with
  | current =>
    rw [directoryPath, stateDirectoryPath, DirPath.fileName_join]
    simp [dirName, DirKind.suffix]
  | next => rw [directoryPath, nextDirectoryPath, DirPath.fileName_join, dirName, DirKind.suffix]
  | backup =>
    rw [directoryPath, backupDirectoryPath, DirPath.fileName_join, dirName, DirKind.suffix]
  | nextFailed =>
    rw [directoryPath, failedDirectoryPath, DirPath.fileName_join, dirName, DirKind.suffix]

/-! ### Foreign names -/

/-- The decimal digits of a positive number do not start with a zero. -/
theorem head?_toDigits_ne_zero {n : Nat} (hn : 0 < n) : (Nat.toDigits 10 n).head? ≠ some '0' := by
  induction n using Nat.strongRecOn with
  | _ n ih =>
    rcases Nat.lt_or_ge n 10 with hlt | hge
    · rw [Nat.toDigits_of_lt_base hlt]
      interval_cases n <;> decide
    · -- The last digit is appended to those of `n / 10`, which is positive.
      rw [Nat.toDigits_of_base_le (by decide) hge, List.head?_append]
      obtain ⟨c, hc⟩ := Option.isSome_iff_exists.mp
        (List.isSome_head?.mpr (Nat.toDigits_ne_nil (n := n / 10) (b := 10)))
      have hrest := ih (n / 10) (Nat.div_lt_self hn (by decide)) (Nat.div_pos hge (by decide))
      rw [hc] at hrest ⊢
      exact hrest

/-- The text of an allocatable id starts with a digit that is not zero. -/
theorem head_text {id : EndpointId} (hid : EndpointId.Allocatable id) {c : Char}
    (hc : id.text.toList.head? = some c) : c.isDigit = true ∧ c ≠ '0' := by
  refine ⟨isDigit_of_mem_text (List.mem_of_head? hc), ?_⟩
  rintro rfl
  have hpos : 0 < id.val := Nat.lt_of_lt_of_le (by decide : 0 < minId.val) hid.1
  rw [toList_text] at hc
  exact head?_toDigits_ne_zero hpos hc

/-- A name that does not start with a digit from one to nine: a sign, a leading zero. -/
theorem parseDirName_of_head {name : String} {c : Char} (hc : name.toList.head? = some c)
    (hforeign : c.isDigit = false ∨ c = '0') : parseDirName name = none := by
  rw [Option.eq_none_iff_forall_ne_some]
  rintro ⟨id, kind⟩ hparse
  obtain ⟨hid, rfl⟩ := parseDirName_eq_some.mp hparse
  obtain ⟨d, hd⟩ : ∃ d, id.text.toList.head? = some d := by
    refine Option.isSome_iff_exists.mp (List.isSome_head?.mpr ?_)
    rw [toList_text]
    exact Nat.toDigits_ne_nil
  rw [dirName, String.toList_append, List.head?_append, hd, Option.some_or,
    Option.some.injEq] at hc
  subst hc
  obtain ⟨hdigit, hzero⟩ := head_text hid hd
  rcases hforeign with hnot | rfl
  · rw [hdigit] at hnot
    cases hnot
  · exact hzero rfl

/-- A name with something else than digits before its suffix, another suffix among it. -/
theorem parseDirName_of_base {base : String} {kind : DirKind} (hkind : kind ≠ .current)
    {c : Char} (hc : c ∈ base.toList) (hdigit : c.isDigit = false) :
    parseDirName (base ++ kind.suffix) = none := by
  rw [Option.eq_none_iff_forall_ne_some]
  rintro ⟨id, kind'⟩ hparse
  obtain ⟨-, hname⟩ := parseDirName_eq_some.mp hparse
  have hsplit := congrArg splitDirName hname
  rw [splitDirName_suffix base hkind, splitDirName_dirName, Prod.mk.injEq] at hsplit
  rw [hsplit.1] at hc
  rw [isDigit_of_mem_text hc] at hdigit
  cases hdigit

/-- **Directory names.** `parse_dir_name` inverts the path constructors on the allocatable
    ids: it accepts the name that the constructor of a kind gives to such an id, with that id
    and kind, and no other name.  The constructors give different names to different ids and
    kinds.  So a name that starts with a sign or a zero, and one with more than an id before
    its suffix, belong to no endpoint. -/
theorem parseDirName_inverse (stateDir : DirPath) :
    (∀ name id kind, parseDirName name = some (id, kind) ↔
      EndpointId.Allocatable id ∧ (directoryPath stateDir kind id).fileName = some name) ∧
    (∀ id id' kind kind', (directoryPath stateDir kind id).fileName =
      (directoryPath stateDir kind' id').fileName → id = id' ∧ kind = kind') ∧
    (∀ (name : String) (c : Char), name.toList.head? = some c → c.isDigit = false ∨ c = '0' →
      parseDirName name = none) ∧
    ∀ (base : String) (kind : DirKind) (c : Char),
      kind ≠ .current → c ∈ base.toList → c.isDigit = false →
      parseDirName (base ++ kind.suffix) = none := by
  refine ⟨fun name id kind => ?_, fun id id' kind kind' h => ?_, ?_, ?_⟩
  · rw [parseDirName_eq_some, fileName_directoryPath, Option.some.injEq, eq_comm (a := name)]
  · rw [fileName_directoryPath, fileName_directoryPath, Option.some.injEq] at h
    exact dirName_inj h
  · intro name c hc hforeign
    exact parseDirName_of_head hc hforeign
  · intro base kind c hkind hc hdigit
    exact parseDirName_of_base hkind hc hdigit

end Sarena
