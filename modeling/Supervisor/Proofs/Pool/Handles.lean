/-
Handles of contexts.

A pool is asked for contexts, and asked about the handles that it gave out.  What it answers is told
by a plain list: the contexts that were made and have not ended since.

* `Occupant`, `Pool.occupants` — a context in use, and those of a pool;
* `Desk.serve` — what becomes of a request;
* `PoolLog.live` — the contexts in use, read off the requests and their answers; they are those
  whose handles are outstanding (`PoolLog.outstanding_iff`);
* `Judges`, `Judges.unique` — what there is to say of a handle;
* `Desk.Kept` — how the records, the numbers and the log hang together, and that they do so after
  every request (`Desk.Kept.serve`) and after any number of them (`Desk.Serves.kept`);
* `Desk.Kept.locate`, `Desk.Kept.serve_eq_status_iff` — what a pool says of a handle is true,
  whatever is asked;
* `Desk.Kept.vacant_eq_none_iff` — when a pool is full.

Design notes: the numbers of contexts come from a count that others draw from as well.  A record is
used again and again, and what tells its contexts apart is their numbers, until the count comes
round.
-/
import Mathlib.Data.List.Nodup
import Mathlib.Data.List.Perm.Basic
import Supervisor.Pool

namespace Supervisor

variable {α : Type}

/-! ### The contexts of a pool -/

/-- A context in use, as its holder knows it. -/
structure Occupant where
  handle : Handle
  name : Text
  state : UInt8 := 0
deriving Repr, DecidableEq

/-- The context that a record stands for, if it is in use. -/
def ContextRecord.occupant? (r : ContextRecord) : Option Occupant :=
  if r.isActive then some ⟨r.handle, r.name, r.userState⟩ else none

theorem ContextRecord.occupant?_of_active {r : ContextRecord} (h : r.isActive = true) :
    r.occupant? = some ⟨r.handle, r.name, r.userState⟩ := if_pos h

/-- A record that stands for a context holds what there is to know of it. -/
theorem ContextRecord.of_occupant?_eq_some {r : ContextRecord} {c : Occupant}
    (h : r.occupant? = some c) :
    r.isActive = true ∧ c = ⟨r.handle, r.name, r.userState⟩ := by
  rw [occupant?] at h
  split at h
  · exact ⟨‹_›, (Option.some.inj h).symm⟩
  · cases h

theorem ContextRecord.occupant?_eq_none_iff {r : ContextRecord} :
    r.occupant? = none ↔ r.isActive = false := by
  rw [occupant?]
  cases r.isActive <;> simp

namespace Pool

/-- The contexts in use, in the order of their records. -/
def occupants (p : Pool) : List Occupant := p.records.toList.filterMap ContextRecord.occupant?

theorem mem_occupants {p : Pool} {c : Occupant} :
    c ∈ p.occupants ↔ ∃ i : Fin poolCapacity, (p.records.get i).occupant? = some c := by
  rw [occupants, List.mem_filterMap]
  constructor
  · rintro ⟨r, hr, hc⟩
    obtain ⟨i, hi, rfl⟩ := List.mem_iff_getElem.1 hr
    rw [Vector.length_toList] at hi
    exact ⟨⟨i, hi⟩, hc⟩
  · rintro ⟨i, hc⟩
    exact ⟨_, Vector.mem_toList_iff.2 (Vector.getElem_mem i.isLt), hc⟩

/-- To change one record concerns the contexts of the others in no way. -/
theorem exists_occupants_modify (p : Pool) (i : Fin poolCapacity) :
    ∃ rest, p.occupants.Perm ((p.records.get i).occupant?.toList ++ rest) ∧
      ∀ f, (p.modify i f).occupants.Perm ((f (p.records.get i)).occupant?.toList ++ rest) := by
  have hset (r : ContextRecord) :
      ((p.records.set i r).toList.filterMap ContextRecord.occupant?).Perm (r.occupant?.toList ++
        ((p.records.toList.take i).filterMap ContextRecord.occupant? ++
          (p.records.toList.drop (i + 1)).filterMap ContextRecord.occupant?)) := by
    have hi : (i : Nat) < p.records.toList.length := by
      rw [Vector.length_toList]
      exact i.isLt
    have hcons (l : List ContextRecord) : (r :: l).filterMap ContextRecord.occupant? =
        r.occupant?.toList ++ l.filterMap ContextRecord.occupant? := by
      rw [List.filterMap_cons]
      cases r.occupant? <;> rfl
    rw [Vector.toList_set, List.set_eq_take_append_cons_drop, if_pos hi, List.filterMap_append,
      hcons]
    exact List.perm_append_comm_assoc _ _ _
  -- the change that changes nothing gives the first half
  refine ⟨_, ?_, fun f => hset (f (p.records.get i))⟩
  have hself := hset (p.records.get i)
  rwa [show p.records.set i (p.records.get i) = p.records from Vector.set_getElem_self _] at hself

/-- There is room for no more contexts than there are records. -/
theorem length_occupants_le (p : Pool) : p.occupants.length ≤ poolCapacity := by
  have hle := List.length_filterMap_le ContextRecord.occupant? p.records.toList
  rwa [Vector.length_toList] at hle

theorem activeCount_eq (p : Pool) : p.activeCount = p.occupants.length := by
  rw [activeCount, occupants, List.length_filterMap_eq_countP]
  refine List.countP_congr fun r _ => ?_
  cases h : r.isActive with
  | false => rw [ContextRecord.occupant?_eq_none_iff.2 h]; rfl
  | true => rw [ContextRecord.occupant?_of_active h]; rfl

/-- A pool is full when all its records are in use. -/
theorem vacant_eq_none_iff (p : Pool) : p.vacant = none ↔ p.occupants.length = poolCapacity := by
  have hlength : p.records.toList.length = poolCapacity := Vector.length_toList
  have hall : p.activeCount = poolCapacity ↔ ∀ r ∈ p.records.toList, r.isActive = true := by
    rw [activeCount, ← List.countP_eq_length, hlength]
  rw [vacant, first_eq_none_iff, ← activeCount_eq, hall]
  constructor
  · intro h r hr
    obtain ⟨i, hi, rfl⟩ := List.mem_iff_getElem.1 hr
    exact Bool.not_inj (h ⟨i, hlength ▸ hi⟩)
  · intro h i
    exact congrArg Bool.not (h _ (Vector.mem_toList_iff.2 (Vector.getElem_mem i.isLt)))

/-- A record that is looked at and put back. -/
theorem modify_id (p : Pool) (i : Fin poolCapacity) : (p.modify i fun r => r) = p := by
  rw [modify, show p.records.set i p.records[i] = p.records from Vector.set_getElem_self _]

end Pool

/-! ### Requests -/

/-- A request to a pool, or to the count that the numbers of contexts come from. -/
inductive PoolRequest where
  | create (name : Text)
  | destroy (h : Handle)
  | setState (h : Handle) (v : UInt8)
  | getState (h : Handle)
  | getName (h : Handle)
  | validate (h : Handle)
  | count
  /-- Somebody else draws a number. -/
  | drawNumber

/-- The handle that a request goes by. -/
def PoolRequest.handle? : PoolRequest → Option Handle
  | .destroy h | .setState h _ | .getState h | .getName h | .validate h => some h
  | .create _ | .count | .drawNumber => none

inductive PoolAnswer where
  | status (s : PoolStatus)
  | made (h : Handle)
  | state (v : UInt8)
  | name (t : Text)
  | count (n : Nat)
  | number (id : ContextId)
deriving DecidableEq

/-- What is answered, given what a success amounts to. -/
def PoolAnswer.of (success : α → PoolAnswer) : Except PoolStatus α → PoolAnswer
  | .ok a => success a
  | .error e => .status e

/-- A success is not taken for a refusal. -/
theorem PoolAnswer.of_eq_status_iff {success : α → PoolAnswer} {e : PoolStatus}
    (hsuccess : ∀ a, success a ≠ .status e) {outcome : Except PoolStatus α} :
    of success outcome = .status e ↔ outcome = .error e := by
  cases outcome with
  | ok a => exact ⟨fun h => absurd h (hsuccess a), nofun⟩
  | error e' =>
    constructor
    · intro h
      rw [status.inj h]
    · intro h
      rw [Except.error.inj h]
      rfl

/-- A pool and the next number for a context. -/
structure Desk where
  pool : Pool
  next : ContextId
deriving DecidableEq

namespace Desk

/-- Makes a context, unless the pool is full. -/
def create (d : Desk) (name : Text) : Except PoolStatus Handle × Desk :=
  match d.pool.vacant with
  | none => (.error .full, d)
  | some i =>
    (.ok (d.pool.create i d.next name).1, ⟨(d.pool.create i d.next name).2, d.next + 1⟩)

/-- Looks at the record that a handle fits, and may change it. -/
def access (d : Desk) (h : Handle) (f : ContextRecord → α × ContextRecord) :
    Except PoolStatus α × Desk :=
  match d.pool.locate h with
  | .error e => (.error e, d)
  | .ok i => (.ok (f (d.pool.records.get i)).1, { d with pool := d.pool.modify i fun r => (f r).2 })

/-- Puts an outcome in the words of an answer. -/
def tell (success : α → PoolAnswer) (outcome : Except PoolStatus α × Desk) : PoolAnswer × Desk :=
  (.of success outcome.1, outcome.2)

/-- What becomes of a request. -/
def serve (d : Desk) : PoolRequest → PoolAnswer × Desk
  | .create name => tell .made (d.create name)
  | .destroy h =>
    tell (fun _ => .status .ok) (d.access h fun r => ((), { r with state := .terminated, token := 0 }))
  | .setState h v => tell (fun _ => .status .ok) (d.access h fun r => ((), { r with userState := v }))
  | .getState h => tell .state (d.access h fun r => (r.userState, r))
  | .getName h => tell .name (d.access h fun r => (r.name, r))
  | .validate h => tell (fun _ => .status .ok) (d.access h fun r => ((), r))
  | .count => (.count d.pool.activeCount, d)
  | .drawNumber => (.number d.next, { d with next := d.next + 1 })

/-- To look at a record leaves everything as it is. -/
theorem access_snd_of_reads (d : Desk) (h : Handle) (g : ContextRecord → α) :
    (d.access h fun r => (g r, r)).2 = d := by
  rw [access]
  cases d.pool.locate h with
  | error e => rfl
  | ok i =>
    show ({ d with pool := d.pool.modify i fun r => r } : Desk) = d
    rw [Pool.modify_id]

end Desk

/-- Requests that were served, and the answers to them, the last one first. -/
abbrev PoolLog := List (PoolRequest × PoolAnswer)

/-- The requests of the log were served one after the other, from the first desk to the second. -/
inductive Desk.Serves (start : Desk) : PoolLog → Desk → Prop
  | nil : Serves start [] start
  | cons {log d} (r : PoolRequest) (earlier : Serves start log d) :
      Serves start ((r, (d.serve r).1) :: log) (d.serve r).2

theorem Desk.Serves.append {start d d' : Desk} {log log' : PoolLog} (h : Serves start log d)
    (h' : Serves d log' d') : Serves start (log' ++ log) d' := by
  induction h' with
  | nil => exact h
  | cons r _ ih => exact .cons r ih

namespace PoolLog

/-- The contexts in use after a request, given those before it. -/
def enter (cs : List Occupant) : PoolRequest × PoolAnswer → List Occupant
  | (.create name, .made h) => ⟨h, Text.upToNul (name.take nameCapacity), 0⟩ :: cs
  | (.destroy h, .status .ok) => cs.filter (·.handle ≠ h)
  | (.setState h v, .status .ok) =>
    cs.map fun c => if c.handle = h then { c with state := v } else c
  | _ => cs

/-- The contexts that were made and have not ended since, in the state that they were last set
to. -/
def live : PoolLog → List Occupant
  | [] => []
  | served :: log => enter (live log) served

/-- Whether a request drew a number. -/
def draws : PoolRequest × PoolAnswer → Bool
  | (.create _, .made _) | (.drawNumber, .number _) => true
  | _ => false

def makes : PoolRequest × PoolAnswer → Bool
  | (.create _, .made _) => true
  | _ => false

def ends : PoolRequest × PoolAnswer → Bool
  | (.destroy _, .status .ok) => true
  | _ => false

/-- How many numbers were drawn, also by others. -/
def drawn (log : PoolLog) : Nat := log.countP draws

/-- How many contexts were made. -/
def made (log : PoolLog) : Nat := log.countP makes

/-- How many contexts have ended. -/
def ended (log : PoolLog) : Nat := log.countP ends

/-- The handle was given out, and its context has not ended since. -/
def Outstanding (log : PoolLog) (h : Handle) : Prop :=
  ∃ later name earlier, log = later ++ (.create name, .made h) :: earlier ∧
    (.destroy h, .status .ok) ∉ later

theorem outstanding_cons_iff {x : PoolRequest × PoolAnswer} {log : PoolLog} {h : Handle} :
    Outstanding (x :: log) h ↔
      (∃ name, x = (.create name, .made h)) ∨ x ≠ (.destroy h, .status .ok) ∧ Outstanding log h := by
  constructor
  · rintro ⟨later, name, earlier, hlog, hkept⟩
    cases later with
    | nil => exact .inl ⟨name, (List.cons.inj hlog).1⟩
    | cons y later =>
      obtain ⟨rfl, rfl⟩ := List.cons.inj hlog
      rw [List.mem_cons, not_or] at hkept
      exact .inr ⟨Ne.symm hkept.1, later, name, earlier, rfl, hkept.2⟩
  · rintro (⟨name, rfl⟩ | ⟨hx, later, name, earlier, rfl, hkept⟩)
    · exact ⟨[], name, log, rfl, List.not_mem_nil⟩
    · refine ⟨x :: later, name, earlier, rfl, ?_⟩
      rw [List.mem_cons, not_or]
      exact ⟨Ne.symm hx, hkept⟩

theorem exists_mem_enter_iff {cs : List Occupant} {x : PoolRequest × PoolAnswer} {h : Handle} :
    (∃ c ∈ enter cs x, c.handle = h) ↔
      (∃ name, x = (.create name, .made h)) ∨
        x ≠ (.destroy h, .status .ok) ∧ ∃ c ∈ cs, c.handle = h := by
  unfold enter
  split
  · rename_i name h'
    constructor
    · rintro ⟨c, hc, rfl⟩
      rcases List.mem_cons.1 hc with rfl | hc
      · exact .inl ⟨name, rfl⟩
      · exact .inr ⟨nofun, c, hc, rfl⟩
    · rintro (⟨_, heq⟩ | ⟨-, c, hc, rfl⟩)
      · cases heq
        exact ⟨_, List.mem_cons_self, rfl⟩
      · exact ⟨c, List.mem_cons_of_mem _ hc, rfl⟩
  · rename_i h'
    constructor
    · rintro ⟨c, hc, rfl⟩
      obtain ⟨hc, hne⟩ := List.mem_filter.1 hc
      refine .inr ⟨fun heq => of_decide_eq_true hne ?_, c, hc, rfl⟩
      exact (PoolRequest.destroy.inj (congrArg Prod.fst heq)).symm
    · rintro (⟨_, heq⟩ | ⟨hne, c, hc, rfl⟩)
      · cases heq
      · refine ⟨c, List.mem_filter.2 ⟨hc, decide_eq_true fun heq => hne ?_⟩, rfl⟩
        rw [heq]
  · rename_i h' v
    have hsame (c : Occupant) :
        (if c.handle = h' then { c with state := v } else c).handle = c.handle := by
      split <;> rfl
    constructor
    · rintro ⟨_, hmem, rfl⟩
      obtain ⟨c, hc, rfl⟩ := List.mem_map.1 hmem
      exact .inr ⟨nofun, c, hc, (hsame c).symm⟩
    · rintro (⟨_, heq⟩ | ⟨-, c, hc, rfl⟩)
      · cases heq
      · exact ⟨_, List.mem_map_of_mem hc, hsame c⟩
  · rename_i hcreate hdestroy _
    constructor
    · rintro ⟨c, hc, rfl⟩
      exact .inr ⟨hdestroy _, c, hc, rfl⟩
    · rintro (⟨name, heq⟩ | ⟨-, hc⟩)
      · exact absurd heq (hcreate _ _)
      · exact hc

/-- The contexts in use are those whose handles are outstanding. -/
theorem outstanding_iff {log : PoolLog} {h : Handle} :
    Outstanding log h ↔ ∃ c ∈ live log, c.handle = h := by
  induction log with
  | nil =>
    constructor
    · rintro ⟨later, name, earlier, hlog, -⟩
      cases later <;> cases hlog
    · rintro ⟨c, hc, -⟩
      cases hc
  | cons x log ih => rw [outstanding_cons_iff, ih, live, exists_mem_enter_iff]

/-- A request that is refused enters nothing. -/
theorem enter_of_refused {e : PoolStatus} (h : e ≠ .ok) (cs : List Occupant) (r : PoolRequest) :
    enter cs (r, .status e) = cs := by
  cases e with
  | ok => exact absurd rfl h
  | _ => cases r <;> rfl

theorem ends_of_refused {e : PoolStatus} (h : e ≠ .ok) (r : PoolRequest) :
    ends (r, .status e) = false := by
  cases e with
  | ok => exact absurd rfl h
  | _ => cases r <;> rfl

theorem draws_status (s : PoolStatus) (r : PoolRequest) : draws (r, .status s) = false := by
  cases r <;> rfl

theorem makes_status (s : PoolStatus) (r : PoolRequest) : makes (r, .status s) = false := by
  cases r <;> rfl

theorem drawn_le_cons (x : PoolRequest × PoolAnswer) (log : PoolLog) :
    drawn log ≤ drawn (x :: log) := (List.sublist_cons_self x log).countP_le

end PoolLog

open PoolLog

/-! ### Numbers -/

/-- The number is one of the first `n` that were drawn, from `first` on. -/
def Drawn (first : ContextId) (n : Nat) (id : ContextId) : Prop :=
  ∃ j < n, id = first + UInt64.ofNat j

theorem Drawn.succ {first id : ContextId} {n : Nat} (h : Drawn first n id) :
    Drawn first (n + 1) id := by
  obtain ⟨j, hj, hid⟩ := h
  exact ⟨j, Nat.lt_succ_of_lt hj, hid⟩

/-- Before the count comes round, the next number is a new one. -/
theorem Drawn.ne_next {first id : ContextId} {n : Nat} (h : Drawn first n id) (hn : n < UInt64.size) :
    id ≠ first + UInt64.ofNat n := by
  obtain ⟨j, hj, rfl⟩ := h
  intro heq
  have hnat := congrArg UInt64.toNat (UInt64.add_right_inj _ |>.1 heq)
  rw [UInt64.toNat_ofNat', UInt64.toNat_ofNat', Nat.mod_eq_of_lt hn,
    Nat.mod_eq_of_lt (Nat.lt_trans hj hn)] at hnat
  omega

/-! ### What a log says about a desk -/

/-- Why a handle fits or does not, given the contexts in use. -/
def Judges (cs : List Occupant) (h : Handle) : PoolStatus → Prop
  | .ok => ∃ c ∈ cs, c.handle = h
  | .invalidToken => ∃ c ∈ cs, c.handle.id = h.id ∧ c.handle.token ≠ h.token
  | .stale =>
    ∃ c ∈ cs, c.handle.id = h.id ∧ c.handle.token = h.token ∧ c.handle.version ≠ h.version
  | .notFound => ∀ c ∈ cs, c.handle.id ≠ h.id
  | .full => False
  | .busy => False

/-- The records, the next number and the log of a desk hang together. -/
structure Desk.Kept (first : ContextId) (log : PoolLog) (d : Desk) : Prop where
  occupants : d.pool.occupants.Perm (live log)
  next : d.next = first + UInt64.ofNat (drawn log)
  /-- The contexts in use have numbers that were drawn, each its own. -/
  numbered : ∀ c ∈ live log, Drawn first (drawn log) c.handle.id
  distinct : ((live log).map (·.handle.id)).Nodup
  /-- No context in use has the number of one that has ended. -/
  retired : ∀ h, (.destroy h, .status .ok) ∈ log →
    Drawn first (drawn log) h.id ∧ ∀ c ∈ live log, c.handle.id ≠ h.id
  balance : (live log).length + ended log = made log

/-- What there is to say of a handle, given the one with its number. -/
def Handle.compare (c h : Handle) : PoolStatus :=
  if c.token ≠ h.token then .invalidToken else if c.version ≠ h.version then .stale else .ok

theorem Handle.eq_of {c h : Handle} (hid : c.id = h.id) (htoken : c.token = h.token)
    (hversion : c.version = h.version) : c = h := by
  cases c
  cases h
  cases hid
  cases htoken
  cases hversion
  rfl

/-- There is one thing to say of a handle. -/
theorem Judges.unique {cs : List Occupant} (distinct : (cs.map (·.handle.id)).Nodup) {h : Handle}
    {s s' : PoolStatus} (hs : Judges cs h s) (hs' : Judges cs h s') : s = s' := by
  by_cases hfound : ∃ c ∈ cs, c.handle.id = h.id
  · -- only one context has the number, so every verdict but `notFound` is about that one
    obtain ⟨c, hc, hid⟩ := hfound
    have hone {s : PoolStatus} (hs : Judges cs h s) : s = c.handle.compare h := by
      have hsame {c' : Occupant} (hc' : c' ∈ cs) (hid' : c'.handle.id = h.id) : c' = c :=
        List.inj_on_of_nodup_map distinct hc' hc (hid'.trans hid.symm)
      cases s with
      | ok =>
        obtain ⟨c', hc', rfl⟩ := hs
        rw [hsame hc' rfl, Handle.compare, if_neg (not_not.2 rfl), if_neg (not_not.2 rfl)]
      | invalidToken =>
        obtain ⟨c', hc', hid', htoken⟩ := hs
        rw [hsame hc' hid'] at htoken
        rw [Handle.compare, if_pos htoken]
      | stale =>
        obtain ⟨c', hc', hid', htoken, hversion⟩ := hs
        rw [hsame hc' hid'] at htoken hversion
        rw [Handle.compare, if_neg (not_not.2 htoken), if_pos hversion]
      | notFound => exact absurd hid (hs c hc)
      | full => exact hs.elim
      | busy => exact hs.elim
    rw [hone hs, hone hs']
  · have hone {s : PoolStatus} (hs : Judges cs h s) : s = .notFound := by
      cases s with
      | ok =>
        obtain ⟨c', hc', rfl⟩ := hs
        exact absurd ⟨c', hc', rfl⟩ hfound
      | invalidToken =>
        obtain ⟨c', hc', hid', -⟩ := hs
        exact absurd ⟨c', hc', hid'⟩ hfound
      | stale =>
        obtain ⟨c', hc', hid', -⟩ := hs
        exact absurd ⟨c', hc', hid'⟩ hfound
      | notFound => rfl
      | full => exact hs.elim
      | busy => exact hs.elim
    rw [hone hs, hone hs']

namespace Desk.Kept

variable {first : ContextId} {log : PoolLog} {d : Desk}

/-- What a pool says of a handle, and the context that it has found if the handle fits. -/
theorem locate (hk : Kept first log d) (h : Handle) :
    (∃ e, e ≠ .ok ∧ d.pool.locate h = .error e ∧ Judges (live log) h e) ∨
      ∃ i c, d.pool.locate h = .ok i ∧ (d.pool.records.get i).occupant? = some c ∧ c ∈ live log ∧
        c.handle = h := by
  cases hfirst : d.pool.first fun r => r.isActive && r.id == h.id with
  | none =>
    refine .inl ⟨.notFound, nofun, by rw [Pool.locate, hfirst], fun c hc hid => ?_⟩
    obtain ⟨i, hi⟩ := Pool.mem_occupants.1 (hk.occupants.mem_iff.2 hc)
    obtain ⟨hactive, rfl⟩ := ContextRecord.of_occupant?_eq_some hi
    have hmiss : ((d.pool.records.get i).isActive && (d.pool.records.get i).id == h.id) = false :=
      Pool.first_eq_none_iff.1 hfirst i
    rw [hactive, Bool.true_and, beq_eq_false_iff_ne] at hmiss
    exact hmiss hid
  | some i =>
    obtain ⟨hactive, hid⟩ : (d.pool.records.get i).isActive = true ∧ (d.pool.records.get i).id = h.id := by
      have hfound : ((d.pool.records.get i).isActive && (d.pool.records.get i).id == h.id) = true :=
        Pool.holds_of_first hfirst
      rwa [Bool.and_eq_true, beq_iff_eq] at hfound
    have hoccupant := ContextRecord.occupant?_of_active hactive
    have hc := hk.occupants.mem_iff.1 (Pool.mem_occupants.2 ⟨i, hoccupant⟩)
    rw [Pool.locate, hfirst]
    by_cases htoken : (d.pool.records.get i).token = h.token
    · by_cases hversion : (d.pool.records.get i).version = h.version
      · refine .inr ⟨i, _, ?_, hoccupant, hc, Handle.eq_of hid htoken hversion⟩
        exact (if_neg (not_not.2 htoken)).trans (if_neg (not_not.2 hversion))
      · refine .inl ⟨.stale, nofun, ?_, _, hc, hid, htoken, hversion⟩
        exact (if_neg (not_not.2 htoken)).trans (if_pos hversion)
    · exact .inl ⟨.invalidToken, nofun, if_pos htoken, _, hc, hid, htoken⟩

/-- The contexts apart from that of one record: their numbers differ from its number, and nothing
becomes of them when the record changes. -/
theorem exists_others (hk : Kept first log d) {i : Fin poolCapacity} {c : Occupant}
    (hc : (d.pool.records.get i).occupant? = some c) :
    ∃ rest, (live log).Perm (c :: rest) ∧ (∀ c' ∈ rest, c'.handle.id ≠ c.handle.id) ∧
      ∀ f, (d.pool.modify i f).occupants.Perm
        ((f (d.pool.records.get i)).occupant?.toList ++ rest) := by
  obtain ⟨rest, hbefore, hafter⟩ := d.pool.exists_occupants_modify i
  rw [hc] at hbefore
  have hperm : (live log).Perm (c :: rest) := hk.occupants.symm.trans hbefore
  refine ⟨rest, hperm, fun c' hc' heq => ?_, hafter⟩
  have hnodup := (hperm.map (·.handle.id)).nodup_iff.1 hk.distinct
  rw [List.map_cons, List.nodup_cons] at hnodup
  exact hnodup.1 (heq ▸ List.mem_map_of_mem hc')

/-- A request that draws no number, after which there are no other contexts in use than before. -/
theorem step (hk : Kept first log d) {x : PoolRequest × PoolAnswer} {d' : Desk}
    (hdraws : draws x = false) (hnext : d'.next = d.next)
    (hoccupants : d'.pool.occupants.Perm (live (x :: log)))
    (hids : ((live (x :: log)).map (·.handle.id)).Sublist ((live log).map (·.handle.id)))
    (hended : ∀ h, x = (.destroy h, .status .ok) →
      Drawn first (drawn log) h.id ∧ ∀ c ∈ live (x :: log), c.handle.id ≠ h.id)
    (hbalance : (live (x :: log)).length + ended (x :: log) = made (x :: log)) :
    Kept first (x :: log) d' := by
  have hdrawn : drawn (x :: log) = drawn log := List.countP_cons_of_neg (by simp [hdraws])
  -- every number in use was in use before
  have hsame {c : Occupant} (hc : c ∈ live (x :: log)) :
      ∃ c' ∈ live log, c'.handle.id = c.handle.id := by
    have hid : c.handle.id ∈ (live (x :: log)).map (·.handle.id) := List.mem_map.2 ⟨c, hc, rfl⟩
    exact List.mem_map.1 (hids.mem hid)
  refine ⟨hoccupants, ?_, fun c hc => ?_, hk.distinct.sublist hids, fun h hmem => ?_, hbalance⟩
  · rw [hdrawn, hnext]
    exact hk.next
  · obtain ⟨c', hc', heq⟩ := hsame hc
    rw [hdrawn, ← heq]
    exact hk.numbered c' hc'
  · rw [hdrawn]
    rcases List.mem_cons.1 hmem with heq | hmem
    · exact hended h heq.symm
    · obtain ⟨hnumber, hgone⟩ := hk.retired h hmem
      refine ⟨hnumber, fun c hc => ?_⟩
      obtain ⟨c', hc', heq⟩ := hsame hc
      rw [← heq]
      exact hgone c' hc'

/-- A request that enters nothing in the log and leaves the desk alone. -/
theorem idle (hk : Kept first log d) {x : PoolRequest × PoolAnswer}
    (henter : enter (live log) x = live log) (hdraws : draws x = false) (hmakes : makes x = false)
    (hends : ends x = false) : Kept first (x :: log) d := by
  have hlive : live (x :: log) = live log := henter
  have hmade : made (x :: log) = made log := List.countP_cons_of_neg (by simp [hmakes])
  have hended : ended (x :: log) = ended log := List.countP_cons_of_neg (by simp [hends])
  refine hk.step hdraws rfl ?_ ?_ (fun h heq => ?_) ?_
  · rw [hlive]
    exact hk.occupants
  · rw [hlive]
  · rw [heq] at hends
    cases hends
  · rw [hlive, hended, hmade]
    exact hk.balance

/-- A context is set to another state. -/
theorem setState (hk : Kept first log d) {h : Handle} {i : Fin poolCapacity} {c : Occupant}
    (hc : (d.pool.records.get i).occupant? = some c) (hhandle : c.handle = h) (v : UInt8) :
    Kept first ((.setState h v, .status .ok) :: log)
      { d with pool := d.pool.modify i fun r => { r with userState := v } } := by
  set x : PoolRequest × PoolAnswer := (.setState h v, .status .ok)
  let f (c : Occupant) : Occupant := if c.handle = h then { c with state := v } else c
  have hlive : live (x :: log) = (live log).map f := rfl
  have hsame (c : Occupant) : (f c).handle = c.handle := by
    show (if c.handle = h then _ else c).handle = c.handle
    split <;> rfl
  obtain ⟨rest, hperm, hothers, hafter⟩ := hk.exists_others hc
  have hset : ({ (d.pool.records.get i) with userState := v } : ContextRecord).occupant? =
      some (f c) := by
    obtain ⟨hactive, rfl⟩ := ContextRecord.of_occupant?_eq_some hc
    rw [show f _ = _ from if_pos hhandle]
    exact ContextRecord.occupant?_of_active hactive
  -- the other contexts have other numbers, and `f` passes them by
  have hrest : rest.map f = rest := by
    refine (List.map_congr_left fun c' hc' => if_neg fun heq => ?_).trans (List.map_id rest)
    exact hothers c' hc' (by rw [heq, hhandle])
  refine hk.step rfl rfl ?_ ?_ (fun h' heq => ?_) ?_
  · rw [hlive]
    refine (hafter _).trans ?_
    rw [hset]
    refine List.Perm.symm ((hperm.map f).trans ?_)
    rw [List.map_cons, hrest]
    exact .refl _
  · have hids : (live (x :: log)).map (·.handle.id) = (live log).map (·.handle.id) := by
      rw [hlive, List.map_map]
      exact List.map_congr_left fun c _ => congrArg Handle.id (hsame c)
    rw [hids]
  · cases congrArg Prod.fst heq
  · have hmade : made (x :: log) = made log := List.countP_cons_of_neg (by simp [x, makes])
    have hended : ended (x :: log) = ended log := List.countP_cons_of_neg (by simp [x, ends])
    rw [hlive, List.length_map, hmade, hended]
    exact hk.balance

/-- A context ends. -/
theorem destroy (hk : Kept first log d) {h : Handle} {i : Fin poolCapacity} {c : Occupant}
    (hc : (d.pool.records.get i).occupant? = some c) (hhandle : c.handle = h) :
    Kept first ((.destroy h, .status .ok) :: log) { d with pool := d.pool.terminate i } := by
  set x : PoolRequest × PoolAnswer := (.destroy h, .status .ok)
  have hlive : live (x :: log) = (live log).filter (·.handle ≠ h) := rfl
  obtain ⟨rest, hperm, hothers, hafter⟩ := hk.exists_others hc
  have hleft : ((live log).filter (·.handle ≠ h)).Perm rest := by
    refine (hperm.filter _).trans ?_
    have hself : ¬decide (c.handle ≠ h) = true := by simp [hhandle]
    have hkept : rest.filter (·.handle ≠ h) = rest := List.filter_eq_self.2 fun c' hc' =>
      decide_eq_true fun heq => hothers c' hc' (by rw [heq, hhandle])
    rw [List.filter_cons, if_neg hself, hkept]
  refine hk.step rfl rfl ?_ ?_ (fun h' heq => ?_) ?_
  · rw [hlive]
    exact (hafter _).trans hleft.symm
  · rw [hlive]
    exact List.filter_sublist.map _
  · -- the context that ends was the only one with its number
    obtain ⟨rfl⟩ : h = h' := PoolRequest.destroy.inj (congrArg Prod.fst heq)
    refine ⟨hhandle ▸ hk.numbered c (hperm.mem_iff.2 List.mem_cons_self), fun c' hc' => ?_⟩
    rw [← hhandle]
    exact hothers c' (hleft.mem_iff.1 hc')
  · have hmade : made (x :: log) = made log := List.countP_cons_of_neg (by simp [x, makes])
    have hended : ended (x :: log) = ended log + 1 := List.countP_cons_of_pos rfl
    have hlength : (live log).length = rest.length + 1 := hperm.length_eq
    have hbalance := hk.balance
    rw [hlive, hleft.length_eq, hmade, hended]
    omega

/-- Somebody else draws a number. -/
theorem drawNumber (hk : Kept first log d) : Kept first ((.drawNumber, .number d.next) :: log)
    { d with next := d.next + 1 } := by
  have hdrawn : drawn ((.drawNumber, .number d.next) :: log) = drawn log + 1 :=
    List.countP_cons_of_pos rfl
  refine ⟨hk.occupants, ?_, ?_, hk.distinct, fun h hmem => ?_, ?_⟩
  · rw [hdrawn, hk.next, UInt64.ofNat_add, UInt64.add_assoc]
    rfl
  · rw [hdrawn]
    exact fun c hc => (hk.numbered c hc).succ
  · rw [hdrawn]
    rcases List.mem_cons.1 hmem with heq | hmem
    · cases heq
    · obtain ⟨hnumber, hgone⟩ := hk.retired h hmem
      exact ⟨hnumber.succ, hgone⟩
  · exact hk.balance

/-- A context is made. -/
theorem create (hk : Kept first log d) (hbound : drawn log < UInt64.size) {i : Fin poolCapacity}
    (hi : d.pool.vacant = some i) (name : Text) :
    Kept first ((.create name, .made (d.pool.create i d.next name).1) :: log)
      ⟨(d.pool.create i d.next name).2, d.next + 1⟩ := by
  set x : PoolRequest × PoolAnswer := (.create name, .made (d.pool.create i d.next name).1)
  let new : Occupant := ⟨(d.pool.create i d.next name).1, Text.upToNul (name.take nameCapacity), 0⟩
  have hlive : live (x :: log) = new :: live log := rfl
  have hdrawn : drawn (x :: log) = drawn log + 1 := List.countP_cons_of_pos rfl
  have hid : new.handle.id = first + UInt64.ofNat (drawn log) := hk.next
  have hfree : (d.pool.records.get i).occupant? = none := by
    have hvacant := Pool.holds_of_first hi
    rw [Bool.not_eq_true'] at hvacant
    exact ContextRecord.occupant?_eq_none_iff.2 hvacant
  -- the record stood for no context, so the new one comes on top of all the others
  obtain ⟨rest, hbefore, hafter⟩ := d.pool.exists_occupants_modify i
  rw [hfree] at hbefore
  have hrest : rest.Perm (live log) := hbefore.symm.trans hk.occupants
  refine ⟨?_, ?_, ?_, ?_, fun h hmem => ?_, ?_⟩
  · rw [hlive]
    exact (hafter fun old =>
      { id := d.next, name := new.name, state := .active, token := new.handle.token
        version := old.version + 1 }).trans (hrest.cons new)
  · rw [hdrawn, UInt64.ofNat_add, ← UInt64.add_assoc, ← hk.next]
    rfl
  · rw [hlive, hdrawn]
    intro c hc
    rcases List.mem_cons.1 hc with rfl | hc
    · exact ⟨drawn log, Nat.lt_succ_self _, hid⟩
    · exact (hk.numbered c hc).succ
  · rw [hlive, List.map_cons, List.nodup_cons]
    refine ⟨fun hmem => ?_, hk.distinct⟩
    -- a context in use has a number that was drawn before, and the count has not come round
    obtain ⟨c, hc, hsame⟩ := List.mem_map.1 hmem
    exact (hk.numbered c hc).ne_next hbound (hsame.trans hid)
  · rw [hlive, hdrawn]
    rcases List.mem_cons.1 hmem with heq | hmem
    · cases congrArg (ends ·) heq
    · obtain ⟨hnumber, hgone⟩ := hk.retired h hmem
      refine ⟨hnumber.succ, fun c hc => ?_⟩
      rcases List.mem_cons.1 hc with rfl | hc
      · exact fun heq => hnumber.ne_next hbound (heq.symm.trans hid)
      · exact hgone c hc
  · have hmade : made (x :: log) = made log + 1 := List.countP_cons_of_pos rfl
    have hended : ended (x :: log) = ended log := List.countP_cons_of_neg (by simp [x, ends])
    have hbalance := hk.balance
    rw [hlive, List.length_cons, hmade, hended]
    omega

/-- A request that is refused. -/
theorem refuse (hk : Kept first log d) {e : PoolStatus} (he : e ≠ .ok) (r : PoolRequest) :
    Kept first ((r, .status e) :: log) d :=
  hk.idle (enter_of_refused he _ r) (draws_status e r) (makes_status e r) (ends_of_refused he r)

/-- What becomes of a request that goes by a handle. -/
theorem access_cases (hk : Kept first log d) (h : Handle) (f : ContextRecord → α × ContextRecord) :
    (∃ e, e ≠ .ok ∧ Judges (live log) h e ∧ d.access h f = (.error e, d)) ∨
      ∃ i c, (d.pool.records.get i).occupant? = some c ∧ c ∈ live log ∧ c.handle = h ∧
        d.access h f = (.ok (f (d.pool.records.get i)).1,
          { d with pool := d.pool.modify i fun r => (f r).2 }) := by
  rcases hk.locate h with ⟨e, he, hlocate, hjudge⟩ | ⟨i, c, hlocate, hc, hmem, hhandle⟩
  · exact .inl ⟨e, he, hjudge, by rw [Desk.access, hlocate]⟩
  · refine .inr ⟨i, c, hc, hmem, hhandle, ?_⟩
    rw [Desk.access, hlocate]

/-- What there is to know of a context is told to those who have its handle, and to no others. -/
theorem access_of_reads (hk : Kept first log d) (h : Handle) {g : ContextRecord → α}
    {k : Occupant → α} (hg : ∀ r c, r.occupant? = some c → g r = k c) :
    (∃ c ∈ live log, c.handle = h ∧ (d.access h fun r => (g r, r)).1 = .ok (k c)) ∨
      ∃ e, e ≠ .ok ∧ Judges (live log) h e ∧ (d.access h fun r => (g r, r)).1 = .error e := by
  rcases hk.access_cases h fun r => (g r, r) with
    ⟨e, he, hjudge, heq⟩ | ⟨i, c, hc, hmem, hhandle, heq⟩
  · exact .inr ⟨e, he, hjudge, by rw [heq]⟩
  · exact .inl ⟨c, hmem, hhandle, by rw [heq, hg _ c hc]⟩

/-- Whatever is asked, the records, the numbers and the log go on to hang together. -/
theorem serve (hk : Kept first log d) (hbound : drawn log < UInt64.size) (r : PoolRequest) :
    Kept first ((r, (d.serve r).1) :: log) (d.serve r).2 := by
  have hlook {β : Type} (h : Handle) (g : ContextRecord → β) (success : β → PoolAnswer) :
      (Desk.tell success (d.access h fun r => (g r, r))).2 = d := d.access_snd_of_reads h g
  cases r with
  | create name =>
    rw [Desk.serve, Desk.create]
    cases hvacant : d.pool.vacant with
    | none => exact hk.refuse (e := .full) nofun (.create name)
    | some i => exact hk.create hbound hvacant name
  | destroy h =>
    rw [Desk.serve]
    rcases hk.access_cases h _ with ⟨e, he, -, heq⟩ | ⟨i, c, hc, -, hhandle, heq⟩
    · rw [heq]
      exact hk.refuse he _
    · rw [heq]
      exact hk.destroy hc hhandle
  | setState h v =>
    rw [Desk.serve]
    rcases hk.access_cases h _ with ⟨e, he, -, heq⟩ | ⟨i, c, hc, -, hhandle, heq⟩
    · rw [heq]
      exact hk.refuse he _
    · rw [heq]
      exact hk.setState hc hhandle v
  | getState h =>
    rw [Desk.serve, hlook]
    exact hk.idle rfl rfl rfl rfl
  | getName h =>
    rw [Desk.serve, hlook]
    exact hk.idle rfl rfl rfl rfl
  | validate h =>
    rw [Desk.serve, hlook]
    exact hk.idle rfl rfl rfl rfl
  | count => exact hk.idle rfl rfl rfl rfl
  | drawNumber => exact hk.drawNumber

/-- Nothing has been asked of a pool whose records are all as they came. -/
theorem nil (fresh : d.pool.records = Vector.replicate poolCapacity {}) : Kept d.next [] d := by
  have hnone : d.pool.occupants = [] := by
    rw [Pool.occupants, fresh, Vector.toList_replicate, List.filterMap_eq_nil_iff]
    intro r hr
    rw [List.eq_of_mem_replicate hr]
    rfl
  refine ⟨?_, ?_, ?_, ?_, ?_, rfl⟩
  · rw [hnone]
    exact .refl _
  · exact (UInt64.add_zero _).symm
  · exact fun c hc => absurd hc List.not_mem_nil
  · exact List.nodup_nil
  · exact fun h hmem => absurd hmem List.not_mem_nil

end Desk.Kept

/-- The records, the numbers and the log of a pool hang together, however long it is in use. -/
theorem Desk.Serves.kept {start d : Desk} {log : PoolLog}
    (fresh : start.pool.records = Vector.replicate poolCapacity {}) (served : start.Serves log d)
    (hbound : drawn log < UInt64.size) : Kept start.next log d := by
  induction served with
  | nil => exact .nil fresh
  | cons r _ ih =>
    have hearlier := Nat.lt_of_le_of_lt (drawn_le_cons _ _) hbound
    exact (ih hearlier).serve hearlier r

namespace Desk.Kept

variable {first : ContextId} {log : PoolLog} {d : Desk}

theorem access_eq_error_iff (hk : Kept first log d) (h : Handle)
    (f : ContextRecord → α × ContextRecord) {e : PoolStatus} (he : e ≠ .ok) :
    (d.access h f).1 = .error e ↔ Judges (live log) h e := by
  rcases hk.access_cases h f with ⟨e', -, hjudge, heq⟩ | ⟨i, c, -, hc, hhandle, heq⟩
  · rw [heq]
    constructor
    · intro hsame
      rw [← Except.error.inj hsame]
      exact hjudge
    · intro hjudge'
      rw [hjudge'.unique hk.distinct hjudge]
  · have hfits : Judges (live log) h .ok := ⟨c, hc, hhandle⟩
    rw [heq]
    constructor
    · intro hsame
      cases hsame
    · intro hjudge
      exact absurd (hjudge.unique hk.distinct hfits) he

/-- Whatever is asked of a context, the request is refused for what there is to say of the handle,
and only for that. -/
theorem serve_eq_status_iff (hk : Kept first log d) {r : PoolRequest} {h : Handle}
    (hr : r.handle? = some h) {e : PoolStatus} (he : e ≠ .ok) :
    (d.serve r).1 = .status e ↔ Judges (live log) h e := by
  have hdone (u : Unit) : (fun _ => .status .ok : Unit → PoolAnswer) u ≠ .status e :=
    fun heq => he (PoolAnswer.status.inj heq).symm
  cases r with
  | destroy h' =>
    obtain rfl := Option.some.inj hr
    exact (PoolAnswer.of_eq_status_iff hdone).trans (hk.access_eq_error_iff h' _ he)
  | setState h' v =>
    obtain rfl := Option.some.inj hr
    exact (PoolAnswer.of_eq_status_iff hdone).trans (hk.access_eq_error_iff h' _ he)
  | validate h' =>
    obtain rfl := Option.some.inj hr
    exact (PoolAnswer.of_eq_status_iff hdone).trans (hk.access_eq_error_iff h' _ he)
  | getState h' =>
    obtain rfl := Option.some.inj hr
    have htold (v : UInt8) : PoolAnswer.state v ≠ .status e := fun heq => by cases heq
    exact (PoolAnswer.of_eq_status_iff htold).trans (hk.access_eq_error_iff h' _ he)
  | getName h' =>
    obtain rfl := Option.some.inj hr
    have htold (t : Text) : PoolAnswer.name t ≠ .status e := fun heq => by cases heq
    exact (PoolAnswer.of_eq_status_iff htold).trans (hk.access_eq_error_iff h' _ he)
  | create name => cases hr
  | count => cases hr
  | drawNumber => cases hr

/-- A pool is full when all its records are in use. -/
theorem vacant_eq_none_iff (hk : Kept first log d) :
    d.pool.vacant = none ↔ (live log).length = poolCapacity := by
  rw [← hk.occupants.length_eq]
  exact d.pool.vacant_eq_none_iff

end Desk.Kept

end Supervisor
