import Sarena.Lib.Bytes
import Sarena.Lib.KeyMap
import Sarena.Lib.Run

namespace Sarena.Ebpf

open Lib

/-!
# eBPF programs — metrics

Every CPU counts packets and bytes in a slot of its own, one program at a time.  A program looks
an entry up, and stores its packet and then its bytes there, or inserts an entry when there was
none.  Other CPUs, and user space reading or clearing the map, may come in between; user space
reads an entry number by number.  An entry that is removed stays in memory while it is used.

* `MetricsStep` — the map under the programs of all CPUs, the removals of `clear` and a reader;
* `Ledger` — what the map should hold: a store counts unless its entry has been removed, or there
  was no entry and no room for one;
* `Shows` — in every interleaving the map holds what the ledger says;
* `metrics_ledger` — each number that a reader adds up is what the ledger had at some time while
  it was reading.
-/

def OBS_POINT_CONTAINER_FORWARD : Byte := 0
def OBS_POINT_HOST_FORWARD : Byte := 1

/-- `MetricsKey`. -/
structure MetricsKey where
  obsPoint : Byte
  pad : Vector Byte 7
  deriving DecidableEq

/-- `MetricsValue`. -/
structure MetricsValue where
  packets : BitVec 64
  bytes : BitVec 64
  deriving DecidableEq

/-- The numbers of a value, each stored and read on its own. -/
inductive Counter
  | packets
  | bytes
  deriving DecidableEq

namespace MetricsValue

def zero : MetricsValue := ⟨0, 0⟩

def read (v : MetricsValue) : Counter → BitVec 64
  | .packets => v.packets
  | .bytes => v.bytes

def write (v : MetricsValue) (x : BitVec 64) : Counter → MetricsValue
  | .packets => { v with packets := x }
  | .bytes => { v with bytes := x }

theorem read_write (v : MetricsValue) (x : BitVec 64) (c c' : Counter) :
    (v.write x c).read c' = if c' = c then x else v.read c' := by
  cases c <;> cases c' <;> rfl

end MetricsValue

/-! ### The map -/

/-- `METRICS_MAP`, a hash map with a value for each of `n` CPUs: the entries that were ever
    made, and which of them the keys have now. -/
structure MetricsMap (n : Nat) where
  heap : Nat → Fin n → MetricsValue
  index : KeyMap MetricsKey Nat
  next : Nat

namespace MetricsMap

variable {n : Nat}

/-- An empty map. -/
def empty : MetricsMap n := ⟨fun _ _ => .zero, .empty, 0⟩

/-- A store through a pointer into an entry. -/
def store (m : MetricsMap n) (entry : Nat) (cpu : Fin n) (c : Counter) (x : BitVec 64) :
    MetricsMap n :=
  { m with
    heap := Function.update m.heap entry
      (Function.update (m.heap entry) cpu ((m.heap entry cpu).write x c)) }

/-- A new entry, which is filled before the key has it.  It is zero for the other CPUs. -/
def create (m : MetricsMap n) (cpu : Fin n) (key : MetricsKey) (value : MetricsValue) :
    MetricsMap n where
  heap := Function.update m.heap m.next (Function.update (fun _ => .zero) cpu value)
  index := m.index.insert key m.next
  next := m.next + 1

/-- `remove`, from user space. -/
def remove (m : MetricsMap n) (key : MetricsKey) : MetricsMap n :=
  { m with index := m.index.remove key }

end MetricsMap

/-- An update that has looked its entry up and is not done. -/
inductive Pending
  | found (key : MetricsKey) (entry : Nat) (bytes : BitVec 64)
  | missing (key : MetricsKey) (bytes : BitVec 64)
  /-- The packet is stored, and the bytes are next: they are added, or copied by an insertion. -/
  | half (key : MetricsKey) (entry : Nat) (copying : Bool) (bytes : BitVec 64)
  deriving DecidableEq

/-- The key `update_metrics` looks up. -/
def metricsKey (obsPoint : Byte) : MetricsKey := ⟨obsPoint, .replicate 7 0⟩

variable {n : Nat}

/-- `update_metrics`, up to and with the lookup. -/
def lookupMetrics (m : MetricsMap n) (bytes : BitVec 64) (obsPoint : Byte) : Pending :=
  let key := metricsKey obsPoint
  match m.index key with
  | some entry => .found key entry bytes
  | none => .missing key bytes

/-- `METRICS_MAP.insert` of one packet on a CPU, with flags 0: an entry that is there is
    overwritten for this CPU only, number by number.  Without `room` for a new one it fails. -/
def insertMetrics (m : MetricsMap n) (room : Bool) (cpu : Fin n) (key : MetricsKey)
    (bytes : BitVec 64) : MetricsMap n × Option Pending :=
  match m.index key with
  | some entry => (m.store entry cpu .packets 1, some (.half key entry true bytes))
  | none => (if room then m.create cpu key ⟨1, bytes⟩ else m, none)

/-- What happens to the map: the parts of `update_metrics`, a removal of `clear`, and what user
    space reads. -/
inductive MetricsEvent (n : Nat)
  | lookup (cpu : Fin n) (bytes : BitVec 64) (obsPoint : Byte)
  | packet (cpu : Fin n)
  | insert (cpu : Fin n) (room : Bool)
  | bytes (cpu : Fin n)
  | remove (key : MetricsKey)
  | get (key : MetricsKey)
  | read (cpu : Fin n) (c : Counter)

/-! ### The ledger -/

/-- The entry an update has found: none, one that is still there, or one that is gone. -/
inductive Found
  | missing
  | there
  | gone
  deriving DecidableEq

/-- An update that is under way. -/
structure Update where
  key : MetricsKey
  bytes : Nat
  found : Found

/-- Packets and bytes for a key and a CPU. -/
abbrev Tallies (n : Nat) := MetricsKey → Fin n → Counter → Nat

/-- A counter goes up. -/
def Tallies.add (t : Tallies n) (key : MetricsKey) (cpu : Fin n) (c : Counter) (amount : Nat) :
    Tallies n := fun key' cpu' c' =>
  t key' cpu' c' + if key' = key ∧ cpu' = cpu ∧ c' = c then amount else 0

/-- What the map should hold. -/
structure Ledger (n : Nat) where
  present : MetricsKey → Bool
  underway : Fin n → Option Update
  /-- Packets and bytes that count. -/
  counted : Tallies n
  /-- Packets and bytes of all updates, as far as they are done. -/
  done : Tallies n

namespace Ledger

def init : Ledger n := ⟨fun _ => false, fun _ => none, fun _ _ _ => 0, fun _ _ _ => 0⟩

/-- A packet or its bytes are stored in the entry of an update, with what is left of it.  They
    count while the entry is there. -/
def count (l : Ledger n) (cpu : Fin n) (u : Update) (c : Counter) (amount : Nat)
    (rest : Option Update) : Ledger n where
  present := l.present
  underway := Function.update l.underway cpu rest
  counted := if u.found = .there then l.counted.add u.key cpu c amount else l.counted
  done := l.done.add u.key cpu c amount

/-- A packet and its bytes, at once. -/
def both (t : Tallies n) (cpu : Fin n) (u : Update) : Tallies n :=
  (t.add u.key cpu .packets 1).add u.key cpu .bytes u.bytes

/-- An update makes its entry, if there is room. -/
def create (l : Ledger n) (cpu : Fin n) (room : Bool) (u : Update) : Ledger n where
  present key := l.present key || (room && decide (key = u.key))
  underway := Function.update l.underway cpu none
  counted := if room then both l.counted cpu u else l.counted
  done := both l.done cpu u

/-- The entry of the key is gone for an update that has found it. -/
def forget (key : MetricsKey) (u : Update) : Update :=
  if u.key = key ∧ u.found = .there then { u with found := .gone } else u

/-- What an event means to the ledger. -/
def step (l : Ledger n) : MetricsEvent n → Ledger n
  | .lookup cpu bytes obsPoint =>
    let key := metricsKey obsPoint
    let u : Update := ⟨key, bytes.toNat, if l.present key then .there else .missing⟩
    { l with underway := Function.update l.underway cpu (some u) }
  | .packet cpu =>
    match l.underway cpu with
    | some u => l.count cpu u .packets 1 (some u)
    | none => l
  | .insert cpu room =>
    match l.underway cpu with
    | some u =>
      if l.present u.key then
        -- Another CPU has made the entry since the lookup.
        let u := { u with found := .there }
        l.count cpu u .packets 1 (some u)
      else l.create cpu room u
    | none => l
  | .bytes cpu =>
    match l.underway cpu with
    | some u => l.count cpu u .bytes u.bytes none
    | none => l
  | .remove key =>
    { l with
      present := fun key' => l.present key' && key' ≠ key
      underway := fun cpu => (l.underway cpu).map (forget key)
      counted := fun key' cpu c => if key' = key then 0 else l.counted key' cpu c }
  | .get _ => l
  | .read _ _ => l

end Ledger

/-! ### Steps -/

/-- What user space has read of an entry. -/
structure Reading (n : Nat) where
  entry : Nat
  numbers : Fin n → Counter → Option (BitVec 64)

/-- The map, what each CPU is in the middle of, and what is being read.  The ledger is kept
    beside it, and no step depends on it. -/
structure MetricsState (n : Nat) where
  map : MetricsMap n
  pending : Fin n → Option Pending
  reading : Option (Reading n)
  ledger : Ledger n

/-- Nothing has been counted, and no program runs. -/
def MetricsState.init : MetricsState n := ⟨.empty, fun _ => none, none, .init⟩

/-- A number of an entry is read. -/
def Reading.read (r : Reading n) (m : MetricsMap n) (cpu : Fin n) (c : Counter) : Reading n :=
  { r with
    numbers := Function.update r.numbers cpu
      (Function.update (r.numbers cpu) c (some ((m.heap r.entry cpu).read c))) }

/-- A step of a CPU or of user space. -/
inductive MetricsStep : MetricsState n → MetricsEvent n → MetricsState n → Prop
  | lookup (s : MetricsState n) (cpu : Fin n) (bytes : BitVec 64) (obsPoint : Byte)
      (hidle : s.pending cpu = none) :
      MetricsStep s (.lookup cpu bytes obsPoint) { s with
        pending := Function.update s.pending cpu (some (lookupMetrics s.map bytes obsPoint))
        ledger := s.ledger.step (.lookup cpu bytes obsPoint) }
  /-- `(*entry).packets += 1`, in a program built without overflow checks. -/
  | packet (s : MetricsState n) (cpu : Fin n) (key : MetricsKey) (entry : Nat) (bytes : BitVec 64)
      (hp : s.pending cpu = some (.found key entry bytes)) :
      MetricsStep s (.packet cpu) { s with
        map := s.map.store entry cpu .packets ((s.map.heap entry cpu).packets + 1)
        pending := Function.update s.pending cpu (some (.half key entry false bytes))
        ledger := s.ledger.step (.packet cpu) }
  | insert (s : MetricsState n) (cpu : Fin n) (room : Bool) (key : MetricsKey) (bytes : BitVec 64)
      (hp : s.pending cpu = some (.missing key bytes)) :
      MetricsStep s (.insert cpu room) { s with
        map := (insertMetrics s.map room cpu key bytes).1
        pending := Function.update s.pending cpu (insertMetrics s.map room cpu key bytes).2
        ledger := s.ledger.step (.insert cpu room) }
  /-- `(*entry).bytes += bytes`, or the second half of an insertion. -/
  | bytes (s : MetricsState n) (cpu : Fin n) (key : MetricsKey) (entry : Nat) (copying : Bool)
      (bytes : BitVec 64) (hp : s.pending cpu = some (.half key entry copying bytes)) :
      MetricsStep s (.bytes cpu) { s with
        map := s.map.store entry cpu .bytes
          (if copying then bytes else (s.map.heap entry cpu).bytes + bytes)
        pending := Function.update s.pending cpu none
        ledger := s.ledger.step (.bytes cpu) }
  | remove (s : MetricsState n) (key : MetricsKey) :
      MetricsStep s (.remove key) { s with
        map := s.map.remove key
        ledger := s.ledger.step (.remove key) }
  /-- User space looks a key up; its values are copied from here on. -/
  | get (s : MetricsState n) (key : MetricsKey) :
      MetricsStep s (.get key) { s with
        reading := (s.map.index key).map fun entry => ⟨entry, fun _ _ => none⟩ }
  | read (s : MetricsState n) (cpu : Fin n) (c : Counter) (r : Reading n)
      (hr : s.reading = some r) :
      MetricsStep s (.read cpu c) { s with reading := some (r.read s.map cpu c) }

/-! ### The map holds what the ledger says -/

/-- What the ledger says of the entry that an update has. -/
structure Update.At (m : MetricsMap n) (entry : Nat) (u : Update) : Prop where
  found : u.found ≠ .missing
  bound : entry < m.next
  there : u.found = .there ↔ m.index u.key = some entry
  only : ∀ key, m.index key = some entry → key = u.key

/-- An update under way is the one the ledger has.  While it has found no entry, nothing is
    counted for its CPU. -/
def Follows (m : MetricsMap n) (l : Ledger n) (cpu : Fin n) : Pending → Update → Prop
  | .found key entry bytes, u => u.key = key ∧ u.bytes = bytes.toNat ∧ u.At m entry
  | .missing key bytes, u => u = ⟨key, bytes.toNat, .missing⟩ ∧ ∀ c, l.counted key cpu c = 0
  | .half key entry copying bytes, u => u.key = key ∧ u.bytes = bytes.toNat ∧ u.At m entry ∧
    (copying = true → u.found = .there → l.counted key cpu .bytes = 0)

/-- The invariant. -/
structure Shows (s : MetricsState n) : Prop where
  present : ∀ key, s.ledger.present key = (s.map.index key).isSome
  bound : ∀ key entry, s.map.index key = some entry → entry < s.map.next
  injective : ∀ key key' entry, s.map.index key = some entry → s.map.index key' = some entry →
    key = key'
  shown : ∀ key entry cpu c, s.map.index key = some entry →
    (s.map.heap entry cpu).read c = BitVec.ofNat 64 (s.ledger.counted key cpu c)
  absent : ∀ key, s.map.index key = none → ∀ cpu c, s.ledger.counted key cpu c = 0
  underway : ∀ cpu, Option.Rel (Follows s.map s.ledger cpu) (s.pending cpu)
    (s.ledger.underway cpu)

section

variable {s t : MetricsState n} {l l' : Ledger n} {m m' : MetricsMap n} {cpu : Fin n} {c : Counter}
  {entry : Nat} {u : Update} {key : MetricsKey}

theorem Update.At.congr (h : u.At m entry) (hindex : m'.index = m.index)
    (hnext : m'.next = m.next) : u.At m' entry :=
  ⟨h.found, hnext ▸ h.bound, hindex ▸ h.there, hindex ▸ h.only⟩

/-- What is said of an update depends on its entry and on what is counted for its CPU. -/
theorem Follows.mono {p : Pending} (h : Follows m l cpu p u)
    (hat : ∀ entry, u.At m entry → u.At m' entry)
    (hcounted : ∀ key c, l'.counted key cpu c = l.counted key cpu c) : Follows m' l' cpu p u := by
  cases p with
  | found key entry bytes => exact ⟨h.1, h.2.1, hat entry h.2.2⟩
  | missing key bytes => exact ⟨h.1, fun c => (hcounted key c).trans (h.2 c)⟩
  | half key entry copying bytes =>
    obtain ⟨hkey, hbytes, h, hcopying⟩ := h
    refine ⟨hkey, hbytes, hat entry h, fun hc hf => ?_⟩
    rw [hcounted]
    exact hcopying hc hf

/-- Only one CPU goes on with its update. -/
theorem rel_update (h : ∀ cpu, Option.Rel (Follows m l cpu) (s.pending cpu) (l.underway cpu))
    {p : Option Pending} {rest : Option Update} (hcpu : Option.Rel (Follows m' l' cpu) p rest)
    (hmono : ∀ cpu' p u, cpu' ≠ cpu → Follows m l cpu' p u → Follows m' l' cpu' p u)
    (cpu' : Fin n) : Option.Rel (Follows m' l' cpu') (Function.update s.pending cpu p cpu')
      (Function.update l.underway cpu rest cpu') := by
  rw [Function.update_apply, Function.update_apply]
  split
  · next heq =>
    subst heq
    exact hcpu
  · next hne =>
    have hold := h cpu'
    revert hold
    generalize s.pending cpu' = p₀
    generalize l.underway cpu' = u₀
    intro hold
    cases hold with
    | none => exact .none
    | some hold => exact .some (hmono _ _ _ hne hold)

theorem heap_store (m : MetricsMap n) (entry : Nat) (cpu : Fin n) (c : Counter) (x : BitVec 64)
    (entry' : Nat) (cpu' : Fin n) (c' : Counter) :
    ((m.store entry cpu c x).heap entry' cpu').read c' =
      if entry' = entry ∧ cpu' = cpu ∧ c' = c then x else (m.heap entry' cpu').read c' := by
  show (Function.update m.heap entry (Function.update (m.heap entry) cpu _) entry' cpu').read c' = _
  rw [Function.update_apply]
  by_cases hentry : entry' = entry
  · subst hentry
    rw [if_pos rfl, Function.update_apply]
    by_cases hcpu : cpu' = cpu
    · subst hcpu
      rw [if_pos rfl, MetricsValue.read_write]
      simp only [true_and]
    · rw [if_neg hcpu, if_neg fun h => hcpu h.2.1]
  · rw [if_neg hentry, if_neg fun h => hentry h.1]

theorem add_self (t : Tallies n) (key : MetricsKey) (cpu : Fin n) (c : Counter) (amount : Nat) :
    t.add key cpu c amount key cpu c = t key cpu c + amount :=
  congrArg (t key cpu c + ·) (if_pos ⟨rfl, rfl, rfl⟩)

theorem add_of_ne {t : Tallies n} {key key' : MetricsKey} {cpu' : Fin n} {c' : Counter}
    {amount : Nat} (h : ¬ (key' = key ∧ cpu' = cpu ∧ c' = c)) :
    t.add key cpu c amount key' cpu' c' = t key' cpu' c' :=
  congrArg (t key' cpu' c' + ·) (if_neg h)

theorem shows_init : Shows (n := n) .init where
  present _ := rfl
  bound _ _ h := by cases h
  injective _ _ _ h := by cases h
  shown _ _ _ _ h := by cases h
  absent _ _ _ _ := rfl
  underway _ := .none

/-- The entry that a lookup finds. -/
theorem Shows.at_of_index (h : Shows s) (hindex : s.map.index key = some entry) (bytes : Nat) :
    Update.At s.map entry ⟨key, bytes, .there⟩ where
  found hmissing := by cases hmissing
  bound := h.bound _ _ hindex
  there := iff_of_true rfl hindex
  only key' hkey' := h.injective _ _ _ hkey' hindex

/-- **Step.** Looking an entry up. -/
theorem Shows.lookup (h : Shows s) (cpu : Fin n) (bytes : BitVec 64) (obsPoint : Byte) :
    Shows { s with
      pending := Function.update s.pending cpu (some (lookupMetrics s.map bytes obsPoint))
      ledger := s.ledger.step (.lookup cpu bytes obsPoint) } where
  present := h.present
  bound := h.bound
  injective := h.injective
  shown := h.shown
  absent := h.absent
  underway := by
    refine rel_update h.underway (.some ?_) fun cpu' p u _ hold =>
      hold.mono (fun _ h => h) fun _ _ => rfl
    rw [lookupMetrics, h.present]
    cases hindex : s.map.index (metricsKey obsPoint) with
    | some entry => exact ⟨rfl, rfl, h.at_of_index hindex _⟩
    | none => exact ⟨rfl, h.absent _ hindex cpu⟩

/-- An entry that is removed is gone for those who have it. -/
theorem Update.At.forget (h : u.At m entry) (key : MetricsKey) :
    (Ledger.forget key u).At (m.remove key) entry := by
  have honly : ∀ key', m.index.remove key key' = some entry → key' = u.key := by
    intro key' hindex
    rw [KeyMap.remove_apply] at hindex
    split_ifs at hindex
    exact h.only key' hindex
  rw [Ledger.forget]
  by_cases hgone : u.key = key ∧ u.found = .there
  · rw [if_pos hgone]
    have hother : m.index.remove key u.key ≠ some entry := by
      rw [hgone.1, KeyMap.remove_self]
      exact (Option.some_ne_none entry).symm
    have hmissing : Found.gone ≠ .missing := by decide
    have hnot : Found.gone ≠ .there := by decide
    exact ⟨hmissing, h.bound, iff_of_false hnot hother, honly⟩
  · rw [if_neg hgone]
    refine ⟨h.found, h.bound, ?_, honly⟩
    show u.found = .there ↔ m.index.remove key u.key = some entry
    by_cases heq : u.key = key
    · have hnot : u.found ≠ .there := fun hf => hgone ⟨heq, hf⟩
      rw [heq, KeyMap.remove_self]
      exact iff_of_false hnot (Option.some_ne_none entry).symm
    · rw [KeyMap.remove_of_ne _ heq]
      exact h.there

theorem forget_key (key : MetricsKey) (u : Update) : (Ledger.forget key u).key = u.key := by
  rw [Ledger.forget]
  split <;> rfl

theorem forget_bytes (key : MetricsKey) (u : Update) : (Ledger.forget key u).bytes = u.bytes := by
  rw [Ledger.forget]
  split <;> rfl

theorem forget_there (key : MetricsKey) (hu : (Ledger.forget key u).found = .there) :
    u.found = .there := by
  rw [Ledger.forget] at hu
  split at hu
  · cases hu
  · exact hu

theorem Follows.forget {p : Pending} (h : Follows m l cpu p u) (key : MetricsKey)
    (hcounted : ∀ key c, l.counted key cpu c = 0 → l'.counted key cpu c = 0) :
    Follows (m.remove key) l' cpu p (Ledger.forget key u) := by
  cases p with
  | found key' entry bytes =>
    exact ⟨(forget_key key u).trans h.1, (forget_bytes key u).trans h.2.1, h.2.2.forget key⟩
  | missing key' bytes =>
    obtain ⟨rfl, hzero⟩ := h
    refine ⟨if_neg fun h => ?_, fun c => hcounted _ _ (hzero c)⟩
    cases h.2
  | half key' entry copying bytes =>
    obtain ⟨hkey, hbytes, hat, hcopying⟩ := h
    exact ⟨(forget_key key u).trans hkey, (forget_bytes key u).trans hbytes, hat.forget key,
      fun hc hf => hcounted _ _ (hcopying hc (forget_there key hf))⟩

/-- **Step.** An entry is removed. -/
theorem Shows.remove (h : Shows s) (key : MetricsKey) :
    Shows { s with map := s.map.remove key, ledger := s.ledger.step (.remove key) } where
  present key' := by
    show (s.ledger.present key' && decide (key' ≠ key)) = (s.map.index.remove key key').isSome
    rw [KeyMap.remove_apply, h.present]
    by_cases hkey : key' = key <;> simp [hkey]
  bound key' entry hindex := by
    have hindex' : s.map.index.remove key key' = some entry := hindex
    rw [KeyMap.remove_apply] at hindex'
    split_ifs at hindex'
    exact h.bound _ _ hindex'
  injective key' key'' entry h1 h2 := by
    have h1' : s.map.index.remove key key' = some entry := h1
    have h2' : s.map.index.remove key key'' = some entry := h2
    rw [KeyMap.remove_apply] at h1' h2'
    split_ifs at h1' h2'
    exact h.injective _ _ _ h1' h2'
  shown key' entry cpu c hindex := by
    have hindex' : s.map.index.remove key key' = some entry := hindex
    rw [KeyMap.remove_apply] at hindex'
    split_ifs at hindex' with hkey
    show _ = BitVec.ofNat 64 (if key' = key then 0 else s.ledger.counted key' cpu c)
    rw [if_neg hkey]
    exact h.shown _ _ _ _ hindex'
  absent key' hindex cpu c := by
    have hindex' : s.map.index.remove key key' = none := hindex
    rw [KeyMap.remove_apply] at hindex'
    show (if key' = key then 0 else s.ledger.counted key' cpu c) = 0
    split_ifs at hindex' ⊢ with hkey
    · rfl
    · exact h.absent _ hindex' cpu c
  underway cpu := by
    have hold := h.underway cpu
    show Option.Rel _ (s.pending cpu) ((s.ledger.underway cpu).map (Ledger.forget key))
    revert hold
    generalize s.pending cpu = p
    generalize s.ledger.underway cpu = u
    intro hold
    cases hold with
    | none => exact .none
    | some hold =>
      refine .some (hold.forget key fun key' c hzero => ?_)
      show (if key' = key then 0 else s.ledger.counted key' cpu c) = 0
      rw [hzero, ite_self]

/-- **Step.** A number is stored in the entry of an update, which may be gone. -/
theorem Shows.count (h : Shows s) {x : BitVec 64} {amount : Nat} {p : Option Pending}
    {rest : Option Update} (hat : u.At s.map entry)
    (hx : u.found = .there → x = BitVec.ofNat 64 (s.ledger.counted u.key cpu c + amount))
    (hrest : Option.Rel (Follows (s.map.store entry cpu c x)
      (s.ledger.count cpu u c amount rest) cpu) p rest) :
    Shows { s with
      map := s.map.store entry cpu c x
      pending := Function.update s.pending cpu p
      ledger := s.ledger.count cpu u c amount rest } := by
  -- The ledger counts the store, and only that, as long as the entry is there.
  have hsame : ∀ key cpu' c', ¬ (u.found = .there ∧ key = u.key ∧ cpu' = cpu ∧ c' = c) →
      (s.ledger.count cpu u c amount rest).counted key cpu' c' =
        s.ledger.counted key cpu' c' := by
    intro key cpu' c' hne
    show (if u.found = .there then s.ledger.counted.add u.key cpu c amount
      else s.ledger.counted) key cpu' c' = _
    split
    · next hf => exact add_of_ne fun heq => hne ⟨hf, heq⟩
    · rfl
  have hself : u.found = .there → (s.ledger.count cpu u c amount rest).counted u.key cpu c =
      s.ledger.counted u.key cpu c + amount := fun hf =>
    (congrFun (congrFun (congrFun (if_pos hf) _) _) _).trans (add_self _ _ _ _ _)
  refine ⟨h.present, h.bound, h.injective, fun key entry' cpu' c' hindex => ?_,
    fun key hindex cpu' c' => ?_, rel_update h.underway hrest fun cpu' p u' hne hold => ?_⟩
  · show ((s.map.store entry cpu c x).heap entry' cpu').read c' = _
    rw [heap_store]
    by_cases heq : entry' = entry ∧ cpu' = cpu ∧ c' = c
    · -- An entry that is still in the index belongs to the key of the update.
      obtain ⟨rfl, rfl, rfl⟩ := heq
      obtain rfl := hat.only key hindex
      have hf := hat.there.mpr hindex
      rw [if_pos ⟨rfl, rfl, rfl⟩, hself hf]
      exact hx hf
    · rw [if_neg heq, hsame]
      · exact h.shown _ _ _ _ hindex
      · rintro ⟨hf, rfl, hrest⟩
        exact heq ⟨Option.some.inj (hindex.symm.trans (hat.there.mp hf)), hrest⟩
  · rw [hsame]
    · exact h.absent _ hindex _ _
    · rintro ⟨hf, rfl, -⟩
      cases hindex.symm.trans (hat.there.mp hf)
  · exact hold.mono (fun _ h => h.congr rfl rfl) fun key c' =>
      hsame key cpu' c' fun heq => hne heq.2.2.1

/-- A new entry is none of those that updates have. -/
theorem Update.At.create (h : u.At m entry) {value : MetricsValue} (hindex : m.index key = none) :
    u.At (m.create cpu key value) entry := by
  have hsame : ∀ key', m.index.insert key m.next key' = some entry ↔
      m.index key' = some entry := by
    intro key'
    rw [KeyMap.insert_apply]
    by_cases heq : key' = key
    · subst heq
      rw [if_pos rfl, hindex]
      refine iff_of_false (fun hnew => ?_) (Option.some_ne_none entry).symm
      exact Nat.lt_irrefl _ (Option.some.inj hnew ▸ h.bound)
    · rw [if_neg heq]
  exact ⟨h.found, Nat.lt_succ_of_lt h.bound, h.there.trans (hsame u.key).symm,
    fun key' hnew => h.only key' ((hsame key').mp hnew)⟩

/-- **Step.** An update that makes its entry. -/
theorem Shows.create (h : Shows s) {bytes : BitVec 64} (hindex : s.map.index u.key = none)
    (hbytes : u.bytes = bytes.toNat) :
    Shows { s with
      map := s.map.create cpu u.key ⟨1, bytes⟩
      pending := Function.update s.pending cpu none
      ledger := s.ledger.create cpu true u } := by
  -- The new entry is beyond all that were made before.
  have hat : ∀ key entry, s.map.index.insert u.key s.map.next key = some entry →
      (key = u.key ∧ entry = s.map.next) ∨ (key ≠ u.key ∧ s.map.index key = some entry) := by
    intro key entry hkey
    rw [KeyMap.insert_apply] at hkey
    split_ifs at hkey with heq
    · exact .inl ⟨heq, (Option.some.inj hkey).symm⟩
    · exact .inr ⟨heq, hkey⟩
  have hother : ∀ key cpu' c, ¬ (key = u.key ∧ cpu' = cpu) →
      Ledger.both s.ledger.counted cpu u key cpu' c = s.ledger.counted key cpu' c := by
    intro key cpu' c hne
    rw [Ledger.both, add_of_ne fun heq => hne ⟨heq.1, heq.2.1⟩,
      add_of_ne fun heq => hne ⟨heq.1, heq.2.1⟩]
  have hself : ∀ c, Ledger.both s.ledger.counted cpu u u.key cpu c =
      match c with
      | .packets => 1
      | .bytes => u.bytes := by
    intro c
    have hzero := h.absent _ hindex cpu
    rw [Ledger.both]
    cases c with
    | packets =>
      rw [add_of_ne (by rintro ⟨-, -, hc⟩; cases hc), add_self, hzero]
    | bytes => rw [add_self, add_of_ne (by rintro ⟨-, -, hc⟩; cases hc), hzero, Nat.zero_add]
  refine ⟨fun key => ?_, fun key entry hkey => ?_, fun key key' entry hkey hkey' => ?_,
    fun key entry cpu' c hkey => ?_, fun key hkey cpu' c => ?_,
    rel_update h.underway .none fun cpu' p u' hne hold => ?_⟩
  · show (s.ledger.present key || (true && decide (key = u.key))) =
      (s.map.index.insert u.key s.map.next key).isSome
    rw [KeyMap.insert_apply, h.present]
    by_cases heq : key = u.key <;> simp [heq]
  · show entry < s.map.next + 1
    rcases hat key entry hkey with ⟨-, rfl⟩ | ⟨-, hold⟩
    · exact Nat.lt_succ_self _
    · exact Nat.lt_succ_of_lt (h.bound _ _ hold)
  · rcases hat key entry hkey with ⟨rfl, rfl⟩ | ⟨-, hold⟩ <;>
      rcases hat key' _ hkey' with ⟨rfl, hnext⟩ | ⟨-, hold'⟩
    · rfl
    · exact absurd (h.bound _ _ hold') (Nat.lt_irrefl _)
    · subst hnext
      exact absurd (h.bound _ _ hold) (Nat.lt_irrefl _)
    · exact h.injective _ _ _ hold hold'
  · show (Function.update s.map.heap s.map.next _ entry cpu').read c =
      BitVec.ofNat 64 (Ledger.both s.ledger.counted cpu u key cpu' c)
    rw [Function.update_apply]
    rcases hat key entry hkey with ⟨rfl, rfl⟩ | ⟨hne, hold⟩
    · rw [if_pos rfl, Function.update_apply]
      by_cases hcpu : cpu' = cpu
      · subst hcpu
        rw [if_pos rfl, hself]
        cases c with
        | packets => rfl
        | bytes =>
          show bytes = BitVec.ofNat 64 u.bytes
          rw [hbytes, BitVec.ofNat_toNat, BitVec.setWidth_eq]
      · -- The other CPUs start at zero, as the ledger does for a key without an entry.
        rw [if_neg hcpu, hother _ _ _ fun heq => hcpu heq.2, h.absent _ hindex]
        cases c <;> rfl
    · have hlt := h.bound _ _ hold
      rw [if_neg (Nat.ne_of_lt hlt), hother _ _ _ fun heq => hne heq.1]
      exact h.shown _ _ _ _ hold
  · have hkey' : s.map.index.insert u.key s.map.next key = none := hkey
    rw [KeyMap.insert_apply] at hkey'
    split_ifs at hkey' with heq
    exact (hother _ _ _ fun h => heq h.1).trans (h.absent _ hkey' _ _)
  · exact hold.mono (fun _ h => h.create hindex) fun key c => hother key cpu' c fun h => hne h.2

/-- **Step.** An update that is refused. -/
theorem Shows.refuse (h : Shows s) (cpu : Fin n) (u : Update) :
    Shows { s with
      pending := Function.update s.pending cpu none
      ledger := s.ledger.create cpu false u } where
  present key := by
    show (s.ledger.present key || (false && decide (key = u.key))) = (s.map.index key).isSome
    rw [h.present, Bool.false_and, Bool.or_false]
  bound := h.bound
  injective := h.injective
  shown := h.shown
  absent := h.absent
  underway := rel_update h.underway .none fun _ _ _ _ hold =>
    hold.mono (fun _ h => h) fun _ _ => rfl

/-- The update that the ledger has for a CPU. -/
theorem Shows.follows (h : Shows s) {p : Pending} (hp : s.pending cpu = some p) :
    ∃ u, s.ledger.underway cpu = some u ∧ Follows s.map s.ledger cpu p u := by
  have hrel := h.underway cpu
  rw [hp] at hrel
  generalize s.ledger.underway cpu = rest at hrel
  cases hrel with
  | some hfollows => exact ⟨_, rfl, hfollows⟩

/-- What an entry that is there holds, with something added. -/
theorem Shows.added (h : Shows s) (hat : u.At s.map entry) (hf : u.found = .there) (c : Counter)
    (x : BitVec 64) : (s.map.heap entry cpu).read c + x =
      BitVec.ofNat 64 (s.ledger.counted u.key cpu c + x.toNat) := by
  rw [h.shown _ _ _ _ (hat.there.mp hf), BitVec.ofNat_add, BitVec.ofNat_toNat, BitVec.setWidth_eq]

/-- **Step.** The packet of an update that has found its entry. -/
theorem Shows.packet (h : Shows s) {bytes : BitVec 64}
    (hp : s.pending cpu = some (.found key entry bytes)) :
    Shows { s with
      map := s.map.store entry cpu .packets ((s.map.heap entry cpu).packets + 1)
      pending := Function.update s.pending cpu (some (.half key entry false bytes))
      ledger := s.ledger.step (.packet cpu) } := by
  obtain ⟨u, hu, hkey, hbytes, hat⟩ := h.follows hp
  have hstep : s.ledger.step (.packet cpu) = s.ledger.count cpu u .packets 1 (some u) := by
    rw [Ledger.step, hu]
  rw [hstep]
  refine h.count hat (fun hf => h.added hat hf .packets 1) (.some ?_)
  exact ⟨hkey, hbytes, hat.congr rfl rfl, fun hc => by cases hc⟩

/-- **Step.** The bytes of an update. -/
theorem Shows.bytes (h : Shows s) {copying : Bool} {bytes : BitVec 64}
    (hp : s.pending cpu = some (.half key entry copying bytes)) :
    Shows { s with
      map := s.map.store entry cpu .bytes
        (if copying then bytes else (s.map.heap entry cpu).bytes + bytes)
      pending := Function.update s.pending cpu none
      ledger := s.ledger.step (.bytes cpu) } := by
  obtain ⟨u, hu, rfl, hbytes, hat, hcopying⟩ := h.follows hp
  have hstep : s.ledger.step (.bytes cpu) = s.ledger.count cpu u .bytes u.bytes none := by
    rw [Ledger.step, hu]
  rw [hstep]
  refine h.count hat (fun hf => ?_) .none
  cases copying with
  | true =>
    -- Nothing was there for this CPU, so what is copied is what is added.
    rw [hcopying rfl hf, hbytes, Nat.zero_add, BitVec.ofNat_toNat, BitVec.setWidth_eq]
    rfl
  | false =>
    rw [hbytes]
    exact h.added hat hf .bytes bytes

/-- **Step.** An insertion. -/
theorem Shows.insert (h : Shows s) (room : Bool) {bytes : BitVec 64}
    (hp : s.pending cpu = some (.missing key bytes)) :
    Shows { s with
      map := (insertMetrics s.map room cpu key bytes).1
      pending := Function.update s.pending cpu (insertMetrics s.map room cpu key bytes).2
      ledger := s.ledger.step (.insert cpu room) } := by
  obtain ⟨u, hu, rfl, hzero⟩ := h.follows hp
  have hpresent := h.present key
  cases hindex : s.map.index key with
  | some entry =>
    -- Another CPU has made the entry since the lookup.
    rw [hindex] at hpresent
    have hat := h.at_of_index hindex bytes.toNat
    have hstep : s.ledger.step (.insert cpu room) =
        s.ledger.count cpu ⟨key, bytes.toNat, .there⟩ .packets 1
          (some ⟨key, bytes.toNat, .there⟩) := by
      rw [Ledger.step, hu]
      exact if_pos hpresent
    have hvalue : (1 : BitVec 64) =
        BitVec.ofNat 64 (s.ledger.counted key cpu .packets + 1) := by
      rw [hzero, Nat.zero_add]
      rfl
    rw [insertMetrics, hindex, hstep]
    refine h.count hat (fun _ => hvalue) (.some ⟨rfl, rfl, hat.congr rfl rfl, fun _ _ => ?_⟩)
    exact (add_of_ne (by rintro ⟨-, -, hc⟩; cases hc)).trans (hzero .bytes)
  | none =>
    rw [hindex] at hpresent
    have hstep : s.ledger.step (.insert cpu room) =
        s.ledger.create cpu room ⟨key, bytes.toNat, .missing⟩ := by
      rw [Ledger.step, hu]
      refine if_neg fun hthere => ?_
      cases hpresent.symm.trans hthere
    rw [insertMetrics, hindex, hstep]
    cases room with
    | true => exact h.create (u := ⟨key, bytes.toNat, .missing⟩) hindex rfl
    | false => exact h.refuse cpu _

/-- **Step.** The map goes on showing the ledger. -/
theorem Shows.step {e : MetricsEvent n} (hstep : MetricsStep s e t) (h : Shows s) : Shows t := by
  cases hstep with
  | lookup cpu bytes obsPoint hidle => exact h.lookup cpu bytes obsPoint
  | packet cpu key entry bytes hp => exact h.packet hp
  | insert cpu room key bytes hp => exact h.insert room hp
  | bytes cpu key entry copying bytes hp => exact h.bytes hp
  | remove key => exact h.remove key
  | get key => exact { h with }
  | read cpu c r hr => exact { h with }

/-- **Run.** -/
theorem shows_run {s : MetricsState n} (run : Run MetricsStep .init s) : Shows s :=
  run.invariant shows_init fun _ _ _ hstep h => h.step hstep

theorem step_ledger {e : MetricsEvent n} (hstep : MetricsStep s e t) :
    t.ledger = s.ledger.step e := by
  cases hstep <;> rfl

/-! ### Runs without losses -/

/-- Nothing is removed, and there is room for new entries. -/
def MetricsEvent.Calm : MetricsEvent n → Prop
  | .insert _ room => room = true
  | .remove _ => False
  | _ => True

/-- All that is done counts. -/
def Ledger.Settled (l : Ledger n) : Prop :=
  l.counted = l.done ∧ ∀ cpu u, l.underway cpu = some u → u.found ≠ .gone

theorem found_of_update {rest : Option Update}
    (hl : ∀ cpu u, l.underway cpu = some u → u.found ≠ .gone)
    (hrest : ∀ u, rest = some u → u.found ≠ .gone) (cpu' : Fin n) (u : Update)
    (hu : Function.update l.underway cpu rest cpu' = some u) : u.found ≠ .gone := by
  rw [Function.update_apply] at hu
  split_ifs at hu
  · exact hrest u hu
  · exact hl cpu' u hu

theorem Ledger.Settled.count (h : l.Settled) (hf : u.found = .there) (amount : Nat)
    {rest : Option Update} (hrest : ∀ u, rest = some u → u.found ≠ .gone) :
    (l.count cpu u c amount rest).Settled := by
  refine ⟨?_, found_of_update h.2 hrest⟩
  show (if u.found = .there then l.counted.add u.key cpu c amount else l.counted) =
    l.done.add u.key cpu c amount
  rw [if_pos hf, h.1]

theorem Ledger.Settled.create (h : l.Settled) : (l.create cpu true u).Settled :=
  ⟨congrArg (Ledger.both · cpu u) h.1, found_of_update h.2 fun _ hu => by cases hu⟩

/-- The entry that an update has is there, as long as none is gone. -/
theorem there_of_at (hl : l.Settled) (hu : l.underway cpu = some u) (hat : u.At m entry) :
    u.found = .there := by
  cases hf : u.found with
  | missing => exact absurd hf hat.found
  | there => rfl
  | gone => exact absurd hf (hl.2 cpu u hu)

/-- **Step.** A calm step loses nothing. -/
theorem settled_step {e : MetricsEvent n} (hstep : MetricsStep s e t) (hcalm : e.Calm)
    (h : Shows s) (hl : s.ledger.Settled) : t.ledger.Settled := by
  rw [step_ledger hstep]
  cases hstep with
  | lookup cpu bytes obsPoint hidle =>
    refine ⟨hl.1, found_of_update hl.2 fun u hu => ?_⟩
    obtain rfl := Option.some.inj hu
    show (if s.ledger.present (metricsKey obsPoint) then Found.there else .missing) ≠ .gone
    split_ifs <;> decide
  | packet cpu key entry bytes hp =>
    obtain ⟨u, hu, -, -, hat⟩ := h.follows hp
    have hf := there_of_at hl hu hat
    rw [Ledger.step, hu]
    refine hl.count hf 1 fun u' hu' => ?_
    rw [← Option.some.inj hu', hf]
    decide
  | insert cpu room key bytes hp =>
    obtain rfl : room = true := hcalm
    obtain ⟨u, hu, -⟩ := h.follows hp
    rw [Ledger.step, hu]
    show (if s.ledger.present u.key then s.ledger.count cpu { u with found := .there } .packets 1
      (some { u with found := .there }) else s.ledger.create cpu true u).Settled
    split_ifs
    · refine hl.count rfl 1 fun u' hu' => ?_
      rw [← Option.some.inj hu']
      exact fun hgone => by cases hgone
    · exact hl.create
  | bytes cpu key entry copying bytes hp =>
    obtain ⟨u, hu, -, -, hat, -⟩ := h.follows hp
    rw [Ledger.step, hu]
    exact hl.count (there_of_at hl hu hat) _ fun _ hu' => by cases hu'
  | remove key => exact hcalm.elim
  | get key => exact hl
  | read cpu c r hr => exact hl

/-! ### What user space reads -/

/-- `u64::saturating_add`. -/
def saturatingAdd (a b : BitVec 64) : BitVec 64 :=
  if a.toNat + b.toNat < 2 ^ 64 then a + b else BitVec.allOnes 64

/-- The fold of `metrics` over the CPUs. -/
def total (values : List MetricsValue) : MetricsValue :=
  values.foldl (fun acc v => ⟨saturatingAdd acc.packets v.packets, saturatingAdd acc.bytes v.bytes⟩)
    .zero

/-- The value that has been read of a CPU. -/
def Reading.value (r : Reading n) (cpu : Fin n) : MetricsValue :=
  ⟨(r.numbers cpu .packets).getD 0, (r.numbers cpu .bytes).getD 0⟩

/-- `metrics`, for the key that was looked up, once all numbers are read. -/
def Reading.metrics (r : Reading n) : Option MetricsValue :=
  if ∀ cpu, (r.numbers cpu .packets).isSome ∧ (r.numbers cpu .bytes).isSome then
    some (total (List.ofFn r.value))
  else none

theorem toNat_saturatingAdd (a b : BitVec 64) :
    (saturatingAdd a b).toNat = min (2 ^ 64 - 1) (a.toNat + b.toNat) := by
  have ha := a.isLt
  have hb := b.isLt
  rw [saturatingAdd]
  split_ifs with h
  · rw [BitVec.toNat_add, Nat.mod_eq_of_lt h]
    omega
  · rw [BitVec.toNat_allOnes]
    omega

/-- A saturating sum is the sum, or the largest number. -/
theorem toNat_foldl_saturatingAdd (xs : List (BitVec 64)) (acc : BitVec 64) :
    (xs.foldl saturatingAdd acc).toNat =
      min (2 ^ 64 - 1) (acc.toNat + (xs.map BitVec.toNat).sum) := by
  induction xs generalizing acc with
  | nil =>
    have hacc := acc.isLt
    rw [List.foldl_nil, List.map_nil, List.sum_nil]
    omega
  | cons x rest ih =>
    rw [List.foldl_cons, ih, toNat_saturatingAdd, List.map_cons, List.sum_cons]
    omega

theorem read_foldl (values : List MetricsValue) (acc : MetricsValue) (c : Counter) :
    (values.foldl (fun acc v => (⟨saturatingAdd acc.packets v.packets,
      saturatingAdd acc.bytes v.bytes⟩ : MetricsValue)) acc).read c =
      (values.map (·.read c)).foldl saturatingAdd (acc.read c) := by
  induction values generalizing acc with
  | nil => rfl
  | cons v rest ih =>
    rw [List.foldl_cons, ih, List.map_cons, List.foldl_cons]
    cases c <;> rfl

theorem toNat_total (values : List MetricsValue) (c : Counter) :
    ((total values).read c).toNat =
      min (2 ^ 64 - 1) (values.map fun v => (v.read c).toNat).sum := by
  have hzero : (MetricsValue.zero.read c).toNat = 0 := by
    cases c <;> rfl
  rw [total, read_foldl, toNat_foldl_saturatingAdd, hzero, Nat.zero_add, List.map_map]
  rfl

/-- The key keeps its entry, and user space goes on reading it. -/
def MetricsEvent.Leaves (key : MetricsKey) : MetricsEvent n → Prop
  | .remove key' => key' ≠ key
  | .get _ => False
  | _ => True

theorem index_kept {e : MetricsEvent n} (hstep : MetricsStep s e t) (hleaves : e.Leaves key)
    (hindex : s.map.index key = some entry) : t.map.index key = some entry := by
  cases hstep with
  | lookup cpu bytes obsPoint hidle => exact hindex
  | packet cpu key' entry' bytes hp => exact hindex
  | insert cpu room key' bytes hp =>
    rw [insertMetrics]
    cases hindex' : s.map.index key' with
    | some entry' => exact hindex
    | none =>
      cases room with
      | true =>
        refine (KeyMap.insert_of_ne _ _ ?_).trans hindex
        rintro rfl
        cases hindex.symm.trans hindex'
      | false => exact hindex
  | bytes cpu key' entry' copying bytes hp => exact hindex
  | remove key' => exact (KeyMap.remove_of_ne _ (Ne.symm hleaves)).trans hindex
  | get key' => exact hleaves.elim
  | read cpu c r hr => exact hindex

theorem le_add (t : Tallies n) (key key' : MetricsKey) (cpu cpu' : Fin n) (c c' : Counter)
    (amount : Nat) : t key cpu c ≤ t.add key' cpu' c' amount key cpu c := Nat.le_add_right _ _

theorem counted_le_count (l : Ledger n) (cpu cpu' : Fin n) (u : Update) (c c' : Counter)
    (amount : Nat) (rest : Option Update) (key : MetricsKey) :
    l.counted key cpu c ≤ (l.count cpu' u c' amount rest).counted key cpu c := by
  show _ ≤ (if u.found = .there then l.counted.add u.key cpu' c' amount else l.counted) key cpu c
  split_ifs
  · exact le_add _ _ _ _ _ _ _ _
  · exact le_rfl

/-- What counts for a key does not go down while the key keeps its entry. -/
theorem counted_le_step (l : Ledger n) (e : MetricsEvent n) (hleaves : e.Leaves key)
    (cpu : Fin n) (c : Counter) : l.counted key cpu c ≤ (l.step e).counted key cpu c := by
  cases e with
  | lookup cpu' bytes obsPoint => exact le_rfl
  | packet cpu' =>
    rw [Ledger.step]
    cases l.underway cpu' with
    | none => exact le_rfl
    | some u => exact counted_le_count _ _ _ _ _ _ _ _ _
  | insert cpu' room =>
    rw [Ledger.step]
    cases l.underway cpu' with
    | none => exact le_rfl
    | some u =>
      show _ ≤ Ledger.counted (if l.present u.key then _ else _) key cpu c
      split_ifs
      · exact counted_le_count _ _ _ _ _ _ _ _ _
      · cases room with
        | true => exact (le_add _ _ _ _ _ _ _ _).trans (le_add _ _ _ _ _ _ _ _)
        | false => exact le_rfl
  | bytes cpu' =>
    rw [Ledger.step]
    cases l.underway cpu' with
    | none => exact le_rfl
    | some u => exact counted_le_count _ _ _ _ _ _ _ _ _
  | remove key' => exact (if_neg (Ne.symm hleaves)).ge
  | get key' => exact hleaves.elim
  | read cpu' c' => exact le_rfl

/-- Only a read changes what has been read. -/
theorem reading_step {e : MetricsEvent n} {r : Reading n} (hstep : MetricsStep s e t)
    (hleaves : e.Leaves key) (hr : t.reading = some r) :
    s.reading = some r ∨ ∃ r₀ cpu c, s.reading = some r₀ ∧ r = r₀.read s.map cpu c := by
  cases hstep with
  | lookup cpu bytes obsPoint hidle => exact .inl hr
  | packet cpu key' entry' bytes hp => exact .inl hr
  | insert cpu room key' bytes hp => exact .inl hr
  | bytes cpu key' entry' copying bytes hp => exact .inl hr
  | remove key' => exact .inl hr
  | get key' => exact hleaves.elim
  | read cpu c r₀ hr₀ => exact .inr ⟨r₀, cpu, c, hr₀, (Option.some.inj hr).symm⟩

theorem read_numbers (r : Reading n) (m : MetricsMap n) (cpu cpu' : Fin n) (c c' : Counter) :
    (r.read m cpu c).numbers cpu' c' =
      if cpu' = cpu ∧ c' = c then some ((m.heap r.entry cpu).read c) else r.numbers cpu' c' := by
  show Function.update r.numbers cpu _ cpu' c' = _
  rw [Function.update_apply]
  by_cases hcpu : cpu' = cpu
  · subst hcpu
    rw [if_pos rfl, Function.update_apply]
    simp only [true_and]
  · rw [if_neg hcpu, if_neg fun h => hcpu h.1]

end

section

variable {s₁ s₂ s₃ : MetricsState n} {key : MetricsKey}

/-- A number that was read while the key kept its entry. -/
def ReadOf (key : MetricsKey) (during : Run MetricsStep s₂ s₃) (cpu : Fin n) (c : Counter)
    (count : Nat) : Prop :=
  during.Sometime (fun s => s.ledger.counted key cpu c = count) ∧
    s₂.ledger.counted key cpu c ≤ count ∧ count ≤ s₃.ledger.counted key cpu c

/-- **Run.** What has been read so far is of the entry that the key has, and each number is what
    the ledger had at some time. -/
theorem reads_run (hs : Shows s₂)
    (hget : s₂.reading = (s₂.map.index key).map fun entry => ⟨entry, fun _ _ => none⟩)
    (during : Run MetricsStep s₂ s₃) (hleaves : during.EachStep fun _ e _ => e.Leaves key) :
    Shows s₃ ∧ (∀ cpu c, s₂.ledger.counted key cpu c ≤ s₃.ledger.counted key cpu c) ∧
      ∀ r, s₃.reading = some r → s₃.map.index key = some r.entry ∧
        ∀ cpu c v, r.numbers cpu c = some v →
          ∃ count, v = BitVec.ofNat 64 count ∧ ReadOf key during cpu c count := by
  induction during with
  | nil =>
    refine ⟨hs, fun _ _ => le_rfl, fun r hr => ?_⟩
    obtain ⟨entry, hindex, rfl⟩ := Option.map_eq_some_iff.mp (hget.symm.trans hr)
    exact ⟨hindex, fun _ _ _ hv => by cases hv⟩
  | snoc s run e t hstep ih =>
    obtain ⟨hshows, hle, hread⟩ := ih hleaves.1
    have hmono : ∀ cpu c, s.ledger.counted key cpu c ≤ t.ledger.counted key cpu c := by
      intro cpu c
      rw [step_ledger hstep]
      exact counted_le_step _ _ hleaves.2 cpu c
    refine ⟨hshows.step hstep, fun cpu c => (hle cpu c).trans (hmono cpu c), fun r hr => ?_⟩
    have hold : ∀ r₀ cpu c v, s.reading = some r₀ → r₀.numbers cpu c = some v →
        ∃ count, v = BitVec.ofNat 64 count ∧ ReadOf key (run.snoc s e t hstep) cpu c count := by
      intro r₀ cpu c v hr₀ hv
      obtain ⟨count, hcount, hsome, hfirst, hlast⟩ := (hread r₀ hr₀).2 cpu c v hv
      exact ⟨count, hcount, .inl hsome, hfirst, hlast.trans (hmono cpu c)⟩
    rcases reading_step hstep hleaves.2 hr with hr₀ | ⟨r₀, cpu, c, hr₀, rfl⟩
    · exact ⟨index_kept hstep hleaves.2 (hread r hr₀).1, fun cpu c v hv => hold r cpu c v hr₀ hv⟩
    · have hindex := (hread r₀ hr₀).1
      refine ⟨index_kept hstep hleaves.2 hindex, fun cpu' c' v hv => ?_⟩
      rw [read_numbers] at hv
      split_ifs at hv with heq
      · -- The number is read in the last state but one.
        obtain ⟨rfl, rfl⟩ := heq
        refine ⟨s.ledger.counted key cpu' c', ?_, .inl (run.sometime_of_last rfl), hle _ _,
          hmono _ _⟩
        exact (Option.some.inj hv).symm.trans (hshows.shown _ _ _ _ hindex)
      · exact hold r₀ cpu' c' v hr₀ hv

/-- **Metrics.**  In every interleaving of the programs of all CPUs, of removals and of a reader:
    user space finds the keys that the ledger has, and unless the entry is removed meanwhile, it
    is shown for either counter the sum over the CPUs, as far as it goes, of numbers that the
    ledger had at some time while it was reading.  As long as nothing is removed and there is
    room for new entries, all that is done counts. -/
theorem metrics_ledger (before : Run MetricsStep .init s₁) (hget : MetricsStep s₁ (.get key) s₂)
    (during : Run MetricsStep s₂ s₃) (hleaves : during.EachStep fun _ e _ => e.Leaves key) :
    s₂.reading.isSome = s₁.ledger.present key ∧
    (∀ value, s₃.reading.bind Reading.metrics = some value → ∃ count : Fin n → Counter → Nat,
      (∀ cpu c, ReadOf key during cpu c (count cpu c)) ∧
      ∀ c, (value.read c).toNat =
        min (2 ^ 64 - 1) (List.ofFn fun cpu => count cpu c % 2 ^ 64).sum) ∧
    (before.EachStep (fun _ e _ => e.Calm) → during.EachStep (fun _ e _ => e.Calm) →
      during.Always fun s => s.ledger.counted = s.ledger.done) := by
  have hshows := (shows_run before).step hget
  have hreading : s₂.reading = (s₂.map.index key).map fun entry => ⟨entry, fun _ _ => none⟩ := by
    cases hget
    rfl
  refine ⟨?_, fun value hvalue => ?_, fun hcalm hcalm' => ?_⟩
  · have hledger : s₂.ledger = s₁.ledger := step_ledger hget
    rw [hreading, Option.isSome_map, ← hshows.present, hledger]
  · obtain ⟨r, hr, hmetrics⟩ := Option.bind_eq_some_iff.mp hvalue
    have hread := ((reads_run hshows hreading during hleaves).2.2 r hr).2
    rw [Reading.metrics] at hmetrics
    split_ifs at hmetrics with hall
    obtain rfl := Option.some.inj hmetrics
    have hnumber : ∀ cpu c, ∃ count, (r.value cpu).read c = BitVec.ofNat 64 count ∧
        ReadOf key during cpu c count := by
      intro cpu c
      have hsome : (r.numbers cpu c).isSome := by
        cases c with
        | packets => exact (hall cpu).1
        | bytes => exact (hall cpu).2
      obtain ⟨v, hv⟩ := Option.isSome_iff_exists.mp hsome
      have hvalue : (r.value cpu).read c = v := by
        cases c <;> exact congrArg (Option.getD · 0) hv
      rw [hvalue]
      exact hread cpu c v hv
    choose count hcount hof using hnumber
    refine ⟨count, hof, fun c => (toNat_total _ c).trans ?_⟩
    rw [List.map_ofFn]
    congr 3
    funext cpu
    show ((r.value cpu).read c).toNat = _
    rw [hcount, BitVec.toNat_ofNat]
  · let J : MetricsState n → Prop := fun s => Shows s ∧ s.ledger.Settled
    have hinit : J .init := ⟨shows_init, rfl, fun _ _ h => by cases h⟩
    have hkeep : ∀ s e t, MetricsStep s e t → e.Calm → J s → J t := fun s e t hstep hcalm h =>
      ⟨h.1.step hstep, settled_step hstep hcalm h.1 h.2⟩
    have hmiddle : J s₁ := (before.always_of_eachStep hinit hkeep hcalm).last
    have hstart : J s₂ := hkeep s₁ _ s₂ hget trivial hmiddle
    exact (during.always_of_eachStep hstart hkeep hcalm').mono fun _ h => h.2.1

end

/-- A CPU makes an entry.  Another one counts in it after its packets have been read, and before
    its bytes are. -/
theorem metrics_ledger_torn : ∃ (s₁ s₂ s₃ : MetricsState 2) (during : Run MetricsStep s₂ s₃),
    MetricsStep s₁ (.get (metricsKey 0)) s₂ ∧
    s₂.reading.isSome = s₁.ledger.present (metricsKey 0) ∧
    s₃.reading.bind Reading.metrics = some ⟨1, 160⟩ ∧
    (∃ count : Fin 2 → Counter → Nat,
      (∀ cpu c, ReadOf (metricsKey 0) during cpu c (count cpu c)) ∧
      ∀ c, (MetricsValue.read ⟨1, 160⟩ c).toNat =
        min (2 ^ 64 - 1) (List.ofFn fun cpu => count cpu c % 2 ^ 64).sum) ∧
    during.Always fun s => s.ledger.counted = s.ledger.done := by
  let key := metricsKey 0
  let start : Run MetricsStep (MetricsState.init (n := 2)) _ := .nil
  let looked := start.snoc _ _ _ (.lookup _ 0 100 0 rfl)
  let made := looked.snoc _ _ _ (.insert _ 0 true key 100 rfl)
  let before := made.snoc _ _ _ (.lookup _ 1 60 0 rfl)
  let last : ∀ {s : MetricsState 2}, Run MetricsStep .init s → MetricsState 2 := fun {s} _ => s
  have hget : MetricsStep (last before) (.get key) _ := .get _ key
  let got : Run MetricsStep (last (before.snoc _ _ _ hget)) _ := .nil
  let begun := (got.snoc _ _ _ (.read _ 0 .packets _ rfl)).snoc _ _ _ (.read _ 0 .bytes _ rfl)
  let torn := begun.snoc _ _ _ (.read _ 1 .packets _ rfl)
  let counted := (torn.snoc _ _ _ (.packet _ 1 key 0 60 rfl)).snoc _ _ _
    (.bytes _ 1 key 0 false 60 rfl)
  let during := counted.snoc _ _ _ (.read _ 1 .bytes _ rfl)
  obtain ⟨hfound, hrow, hcalm⟩ := metrics_ledger before hget during
    ⟨⟨⟨⟨⟨⟨trivial, trivial⟩, trivial⟩, trivial⟩, trivial⟩, trivial⟩, trivial⟩
  exact ⟨_, _, _, during, hget, hfound, by decide, hrow _ (by decide),
    hcalm ⟨⟨⟨trivial, trivial⟩, rfl⟩, trivial⟩
      ⟨⟨⟨⟨⟨⟨trivial, trivial⟩, trivial⟩, trivial⟩, trivial⟩, trivial⟩, trivial⟩⟩

end Sarena.Ebpf
