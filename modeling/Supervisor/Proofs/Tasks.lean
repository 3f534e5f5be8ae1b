/-
Tasks that take turns on one hart.

The images of tasks lie in memory, and one of them is running on the registers of the hart.  A
switch stores the registers that an image holds in the place of the task that is running, and loads
those of the next one, which may be the same.

* `Registers.kept` — the registers that an image holds;
* `Registers.task_load`, `Registers.read_load_of_not_mem` — loading an image sets those, and no
  others;
* `Stage.Switches`, `Schedule` — tasks, their images and the hart, as switches follow each other;
* `Schedule.inPlace` — a task that is not running has the registers in its place with which it left;
* `tasks_resume_where_they_left` — what every switch does, and what a call that fails does not.
-/
import Supervisor.Api
import Supervisor.Proofs.Registry.Access

namespace Supervisor

/-! ### Images of registers -/

namespace Registers

/-- The registers that the image of a task holds: return address, stack pointer, and `s0` to
`s11`. -/
def kept : List Nat := [1, 2, 8, 9, 18, 19, 20, 21, 22, 23, 24, 25, 26, 27]

theorem kept_eq : kept = 1 :: 2 :: (List.range 12).map saved := by decide

theorem saved_strictMono {i j : Nat} (h : i < j) : saved i < saved j := by
  rw [saved, saved]
  split <;> split <;> omega

theorem saved_lt {i : Nat} (h : i < 12) : saved i < 32 := by
  rw [saved]
  split <;> omega

/-- Stores values into the saved registers from number `k` on. -/
def storeSaved (r : Registers) (k : Nat) (l : List UInt64) : Registers :=
  (l.zipIdx k).foldl (fun r e => r.write (saved e.2) e.1) r

theorem storeSaved_cons (r : Registers) (k : Nat) (v : UInt64) (l : List UInt64) :
    r.storeSaved k (v :: l) = (r.write (saved k) v).storeSaved (k + 1) l := rfl

theorem load_eq (r : Registers) (t : Task) :
    r.load t = ((r.write 1 t.ra).write 2 t.sp).storeSaved 0 t.s.toList := rfl

theorem read_storeSaved_of_ne {r : Registers} {k : Nat} {l : List UInt64} {j : Nat}
    (h : ∀ i, k ≤ i → i < k + l.length → saved i ≠ j) : (r.storeSaved k l).read j = r.read j := by
  induction l generalizing r k with
  | nil => rfl
  | cons v l ih =>
    rw [List.length_cons] at h
    rw [storeSaved_cons, ih fun i hk hi => h i (by omega) (by omega)]
    exact read_write_of_ne r (h k (Nat.le_refl k) (by omega)) v

/-- Each value is found in its register, for no later one is stored there. -/
theorem read_storeSaved {r : Registers} {k : Nat} {l : List UInt64} (hl : k + l.length ≤ 12)
    {i : Nat} (hi : i < l.length) : (r.storeSaved k l).read (saved (k + i)) = l[i] := by
  induction l generalizing r k i with
  | nil => cases hi
  | cons v l ih =>
    rw [List.length_cons] at hl hi
    rw [storeSaved_cons]
    cases i with
    | zero =>
      have hlater : ∀ i, k + 1 ≤ i → i < k + 1 + l.length → saved i ≠ saved k :=
        fun i hk _ => Nat.ne_of_gt (saved_strictMono hk)
      show ((r.write (saved k) v).storeSaved (k + 1) l).read (saved k) = v
      rw [read_storeSaved_of_ne hlater]
      exact read_write_self r (saved_lt (by omega)) v
    | succ i =>
      have hnext : saved (k + (i + 1)) = saved (k + 1 + i) := by rw [Nat.add_right_comm]; rfl
      rw [hnext]
      exact ih (by omega) (by omega)

/-- Loading an image leaves the registers alone that it does not hold. -/
theorem read_load_of_not_mem (r : Registers) (t : Task) {i : Nat} (h : i ∉ kept) :
    (r.load t).read i = r.read i := by
  rw [kept_eq, List.mem_cons, List.mem_cons, List.mem_map, not_or, not_or] at h
  obtain ⟨h1, h2, hsaved⟩ := h
  have hne : ∀ k, 0 ≤ k → k < 0 + t.s.toList.length → saved k ≠ i := by
    intro k _ hk heq
    rw [Vector.length_toList, Nat.zero_add] at hk
    exact hsaved ⟨k, List.mem_range.2 hk, heq⟩
  rw [load_eq, read_storeSaved_of_ne hne, read_write_of_ne _ (Ne.symm h2),
    read_write_of_ne _ (Ne.symm h1)]

/-- The image of a task that was just loaded is the one that was loaded. -/
theorem task_load (r : Registers) (t : Task) : (r.load t).task = t := by
  have hlength : t.s.toList.length = 12 := Vector.length_toList
  -- return address and stack pointer come before every saved register
  have hbefore {j : Nat} (hj : j < 8) : ∀ k, 0 ≤ k → k < 0 + t.s.toList.length → saved k ≠ j := by
    intro k _ _
    rw [saved]
    split <;> omega
  have hra : (r.load t).read 1 = t.ra := by
    rw [load_eq, read_storeSaved_of_ne (hbefore (by decide)), read_write_of_ne _ (by decide)]
    exact read_write_self r (by decide) _
  have hsp : (r.load t).read 2 = t.sp := by
    rw [load_eq, read_storeSaved_of_ne (hbefore (by decide))]
    exact read_write_self _ (by decide) _
  have hs : (Vector.ofFn fun i : Fin 12 => (r.load t).read (saved i)) = t.s := by
    refine Vector.ext fun i hi => ?_
    have hi' : i < t.s.toList.length := by rwa [hlength]
    have hat := @read_storeSaved ((r.write 1 t.ra).write 2 t.sp) 0 t.s.toList
      (by omega) i hi'
    rw [Nat.zero_add] at hat
    rw [Vector.getElem_ofFn]
    exact hat
  rw [task, hra, hsp, hs]

/-- Registers with one image agree in all that it holds. -/
theorem read_eq_of_task_eq {r r' : Registers} (h : r.task = r'.task) {i : Nat} (hi : i ∈ kept) :
    r.read i = r'.read i := by
  rw [kept_eq, List.mem_cons, List.mem_cons, List.mem_map] at hi
  obtain rfl | rfl | ⟨k, hk, rfl⟩ := hi
  · exact congrArg Task.ra h
  · exact congrArg Task.sp h
  · have hk := List.mem_range.1 hk
    have hat : r.task.s[k] = r'.task.s[k] := by rw [h]
    simpa only [task, Vector.getElem_ofFn] using hat

end Registers

/-! ### Tasks and their hart -/

variable {σ ι : Type}

/-- The images of tasks, the machine, and the task that is running on it. -/
structure Stage (σ ι : Type) where
  memory : Tasks ι
  machine : Machine σ
  running : ι

namespace Stage

/-- The registers of the hart. -/
def registers (s : Stage σ ι) : Registers := s.machine.platform.registers

variable [DecidableEq ι]

/-- The stage after the platform has switched from the running task to `next`. -/
def turn (s : Stage σ ι) (next : ι) : Stage σ ι :=
  let switched := s.machine.platform.switchTask s.memory (some s.running) (some next)
  ⟨switched.1, Machine.thePlatform.set switched.2 s.machine, next⟩

/-- A turn stores the registers in the place of the task that was running, and nothing else. -/
theorem memory_turn (s : Stage σ ι) (next i : ι) :
    (s.turn next).memory i = if i = s.running then s.registers.task else s.memory i := by
  show (if some s.running = some i then _ else _) = _
  simp only [Option.some.injEq, eq_comm]
  rfl

/-- The places of the tasks that are not running hold the registers with which they left, as a log
tells that has the last one who left in front. -/
def InPlace (s : Stage σ ι) (log : List (ι × Registers)) : Prop :=
  ∀ i, i ≠ s.running → ∀ r, log.lookup i = some r → s.memory i = r.task

/-- After a turn every task that has left is in its place, also the one that has just left. -/
theorem InPlace.turn {s : Stage σ ι} {log : List (ι × Registers)} (h : s.InPlace log) {next i : ι}
    {r : Registers} (hleft : ((s.running, s.registers) :: log).lookup i = some r) :
    (s.turn next).memory i = r.task := by
  rw [List.lookup_cons] at hleft
  rw [memory_turn]
  by_cases hi : i = s.running
  · rw [beq_iff_eq.2 hi] at hleft
    rw [if_pos hi, Option.some.inj hleft]
  · rw [beq_eq_false_iff_ne.2 hi] at hleft
    rw [if_neg hi]
    exact h i hi r hleft

end Stage

/-! ### Calls -/

section

variable [DecidableEq ι]

/-- A call that lacks a place, or cannot reach the registers, does nothing. -/
theorem runOn_switchImages_of_refused {attached : Bool} {current next : Option ι}
    (h : current = none ∨ next = none ∨ attached = false) (memory : Tasks ι) (m : Machine σ) :
    ∃ e, Exec.runOn (switchImages attached memory current next) m = (.ok (.error e), m) := by
  cases current with
  | none => exact ⟨.invalid, rfl⟩
  | some i =>
    cases next with
    | none => exact ⟨.invalid, rfl⟩
    | some j =>
      obtain rfl : attached = false := by simpa using h
      exact ⟨.unsupported, rfl⟩

/-- Any other call is a turn. -/
theorem Stage.runOn_switchImages (s : Stage σ ι) (next : ι) :
    Exec.runOn (switchImages true s.memory (some s.running) (some next)) s.machine =
      (.ok (.ok (s.turn next).memory), (s.turn next).machine) := rfl

end

variable [Client σ]

/-- What follows a call that is refused: the operator is told. -/
def Api.refuseSwitch (e : ContextStatus) (memory : Tasks ι) : Exec σ (ApiStatus × Tasks ι) := do
  putLine (← System.console) ["[TRAP] task switch failed: ", e.name, "\n"]
  return (.contextFailed, memory)

/-- A call that is refused does not end well. -/
theorem Api.refuseSwitch_ne_ok {e : ContextStatus} {memory images : Tasks ι} {m m' : Machine σ} :
    Exec.runOn (refuseSwitch e memory) m ≠ (.ok (.ok, images), m') := by
  intro h
  obtain ⟨_, _, -, hline⟩ := Exec.of_runOn_bind_eq_ok h
  obtain ⟨_, _, -, hanswer⟩ := Exec.of_runOn_bind_eq_ok hline
  cases congrArg Prod.fst hanswer

variable [DecidableEq ι]

/-- A call of the interface that is refused goes on by telling the operator. -/
theorem Api.runOn_switchTasks_of_refused {m : Machine σ} {current next : Option ι}
    (ready : m.system.ready = true)
    (h : current = none ∨ next = none ∨ m.system.nesting.attached = false) (memory : Tasks ι) :
    ∃ e, Exec.runOn (Api.switchTasks memory current next) m =
      Exec.runOn (refuseSwitch e memory) m := by
  obtain ⟨e, hrefused⟩ := runOn_switchImages_of_refused h memory m
  have hcall : Exec.runOn
      (switchImages (Machine.theNesting.get m).attached memory current next) m =
        (.ok (.error e), m) := hrefused
  refine ⟨e, ?_⟩
  rw [Api.switchTasks, Api.whenReady_of_ready ready,
    Exec.runOn_bind_of_ok (Part.runOn_read Machine.theNesting m), Exec.runOn_bind_of_ok hcall]
  rfl

namespace Stage

/-- Any other call of the interface is a turn. -/
theorem runOn_switchTasks (s : Stage σ ι) (next : ι) (ready : s.machine.system.ready = true)
    (attached : s.machine.system.nesting.attached = true) :
    Exec.runOn (Api.switchTasks s.memory (some s.running) (some next)) s.machine =
      (.ok (.ok, (s.turn next).memory), (s.turn next).machine) := by
  have hcall : Exec.runOn (switchImages (Machine.theNesting.get s.machine).attached s.memory
      (some s.running) (some next)) s.machine =
        (.ok (.ok (s.turn next).memory), (s.turn next).machine) := by
    rw [show (Machine.theNesting.get s.machine).attached = true from attached]
    exact s.runOn_switchImages next
  rw [Api.switchTasks, Api.whenReady_of_ready ready,
    Exec.runOn_bind_of_ok (Part.runOn_read Machine.theNesting s.machine),
    Exec.runOn_bind_of_ok hcall]
  rfl

/-- A call to switch from the running task to `next` succeeds, at the interface or below it. -/
def Switches (s : Stage σ ι) (next : ι) (s' : Stage σ ι) : Prop :=
  s'.running = next ∧
    (Exec.runOn (Api.switchTasks s.memory (some s.running) (some next)) s.machine =
        (.ok (.ok, s'.memory), s'.machine) ∨
      ∃ attached, Exec.runOn
        (switchImages attached s.memory (some s.running) (some next)) s.machine =
          (.ok (.ok s'.memory), s'.machine))

/-- A call that succeeds is a turn. -/
theorem Switches.eq_turn {s s' : Stage σ ι} {next : ι} (h : s.Switches next s') :
    s' = s.turn next := by
  have hcall : s'.memory = (s.turn next).memory ∧ s'.machine = (s.turn next).machine := by
    obtain hrun | ⟨attached, hrun⟩ := h.2
    · cases hready : s.machine.system.ready with
      | false =>
        rw [Api.switchTasks, Api.whenReady_of_not_ready hready] at hrun
        cases congrArg Prod.fst hrun
      | true =>
        cases hattached : s.machine.system.nesting.attached with
        | false =>
          obtain ⟨e, hrefused⟩ :=
            Api.runOn_switchTasks_of_refused hready (.inr (.inr hattached)) s.memory
          exact absurd (hrefused.symm.trans hrun) Api.refuseSwitch_ne_ok
        | true =>
          have heq := hrun.symm.trans (s.runOn_switchTasks next hready hattached)
          exact ⟨congrArg Prod.snd (Except.ok.inj (congrArg Prod.fst heq)), congrArg Prod.snd heq⟩
    · cases attached with
      | false => cases congrArg Prod.fst hrun
      | true =>
        have heq := hrun.symm.trans (s.runOn_switchImages next)
        exact ⟨Except.ok.inj (Except.ok.inj (congrArg Prod.fst heq)), congrArg Prod.snd heq⟩
  obtain ⟨hmemory, hmachine⟩ := hcall
  obtain ⟨memory, machine, running⟩ := s'
  obtain rfl : running = next := h.1
  exact congrArg₂ (Stage.mk · · running) hmemory hmachine

end Stage

/-! ### Schedules -/

/-- What happens on a hart: switches, each of which stores into the place of the task that is
running, and in between whatever leaves the images alone.  The log tells who has switched away and
with which registers, the last one first. -/
inductive Schedule (s₀ : Stage σ ι) : List (ι × Registers) → Stage σ ι → Prop
  | start : Schedule s₀ [] s₀
  | work {log s} (m : Machine σ) : Schedule s₀ log s → Schedule s₀ log { s with machine := m }
  | switch {log s s' next} : Schedule s₀ log s → s.Switches next s' →
    Schedule s₀ ((s.running, s.registers) :: log) s'

/-- The images stay right through a whole schedule. -/
theorem Schedule.inPlace {s₀ s : Stage σ ι} {log : List (ι × Registers)}
    (h : Schedule s₀ log s) : s.InPlace log := by
  induction h with
  | start => exact fun _ _ _ hleft => nomatch hleft
  | work m _ ih => exact ih
  | switch _ hswitch ih =>
    rw [hswitch.eq_turn]
    exact fun i _ r hleft => ih.turn hleft

/-- **Tasks resume where they left.**  Let tasks share a hart in any schedule.  When a switch brings
back a task that has switched away, itself included, then the return address, the stack pointer and
`s0` to `s11` are what they were when it last did so, and execution goes on at that address.  The
switch stores the registers into the place of the task that was running; it leaves all other images,
all other registers and the rest of the machine as they were.  It succeeds once the system is ready
and can reach the registers.  A call that comes too early, lacks a place or cannot reach the
registers leaves the images alone, and all it does to the machine is to tell the operator. -/
theorem tasks_resume_where_they_left :
    (∀ {s₀ s s' : Stage σ ι} {log : List (ι × Registers)} {next : ι},
      Schedule s₀ log s → s.Switches next s' →
      (∀ r, ((s.running, s.registers) :: log).lookup next = some r →
        (∀ i ∈ Registers.kept, s'.registers.read i = r.read i) ∧
        s'.machine.platform.pc = r.read 1) ∧
      s'.memory s.running = s.registers.task ∧
      (∀ i ≠ s.running, s'.memory i = s.memory i) ∧
      (∀ i ∉ Registers.kept, s'.registers.read i = s.registers.read i) ∧
      s'.machine.platform.csrs = s.machine.platform.csrs ∧
      s'.machine = { s.machine with
        platform := { s.machine.platform with
          registers := s'.registers
          pc := s'.machine.platform.pc
          switches := s.machine.platform.switches + 1 } }) ∧
    (∀ (s : Stage σ ι) (next : ι), s.machine.system.ready = true →
      s.machine.system.nesting.attached = true → ∃ s', s.Switches next s') ∧
    ∀ (memory : Tasks ι) (current next : Option ι) (m : Machine σ),
      (m.system.ready = false →
        Exec.runOn (Api.switchTasks memory current next) m = (.ok (.notReady, memory), m)) ∧
      (m.system.ready = true →
        current = none ∨ next = none ∨ m.system.nesting.attached = false →
        ∃ e, Exec.runOn (Api.switchTasks memory current next) m =
          Exec.runOn (Api.refuseSwitch e memory) m) ∧
      ∀ attached, current = none ∨ next = none ∨ attached = false →
        ∃ e, Exec.runOn (switchImages attached memory current next) m = (.ok (.error e), m) := by
  refine ⟨?_, ?_, ?_⟩
  · intro s₀ s s' log next hschedule hswitch
    obtain rfl := hswitch.eq_turn
    have hregisters : (s.turn next).registers =
        s.registers.load ((s.turn next).memory next) := rfl
    have hpc : (s.turn next).machine.platform.pc = ((s.turn next).memory next).ra := rfl
    refine ⟨fun r hleft => ?_, ?_, fun i hi => ?_, fun i hi => ?_, rfl, rfl⟩
    · have himage : (s.turn next).memory next = r.task := hschedule.inPlace.turn hleft
      rw [himage] at hregisters hpc
      have htask : (s.turn next).registers.task = r.task := by
        rw [hregisters, Registers.task_load]
      exact ⟨fun i hi => Registers.read_eq_of_task_eq htask hi, hpc⟩
    · rw [Stage.memory_turn, if_pos rfl]
    · rw [Stage.memory_turn, if_neg hi]
    · rw [hregisters, Registers.read_load_of_not_mem _ _ hi]
  · intro s next ready attached
    exact ⟨s.turn next, rfl, .inl (s.runOn_switchTasks next ready attached)⟩
  · intro memory current next m
    refine ⟨fun early => ?_, fun ready h => ?_, fun attached h => ?_⟩
    · exact Api.whenReady_of_not_ready early _ _
    · exact Api.runOn_switchTasks_of_refused ready h memory
    · exact runOn_switchImages_of_refused h memory m

/-- A client that leaves the work to its tasks. -/
inductive Plant where
  | here

instance : Client Plant where
  trapHandler _ := return .pass
  errorHandler _ _ := return .unhandled
  command _ _ _ := return 0
  written _ := return

/-- The tasks of the plant. -/
inductive Shift where
  | day
  | night
deriving DecidableEq

namespace Shift

/-- A machine with a task on its registers. -/
def machine : Machine Plant where
  platform.registers := ((Registers.zero.write 1 0x1000).write 8 0xaa).write 18 0xbb
  system.ready := true
  system.nesting.attached := true
  clients := .here

/-- The stage on which the day shift is running. -/
def morning : Stage Plant Shift := ⟨fun _ => {}, machine, .day⟩

end Shift

/-- The night shift comes and makes its mark on all registers; then the day shift goes on where it
left. -/
theorem day_follows_night :
    ∃ evening night dawn : Stage Plant Shift, Shift.morning.Switches .night evening ∧
      night = { evening with
        machine.platform.registers := Vector.replicate 32 0xff } ∧
      night.Switches .day dawn ∧
      dawn.registers.read 8 = 0xaa ∧ dawn.registers.read 18 = 0xbb ∧
      dawn.registers.read 10 = 0xff ∧ dawn.machine.platform.pc = 0x1000 := by
  obtain ⟨hswitch, hsucceeds, -⟩ := tasks_resume_where_they_left (σ := Plant) (ι := Shift)
  obtain ⟨evening, hevening⟩ := hsucceeds Shift.morning .night rfl rfl
  have hmachine := (hswitch .start hevening).2.2.2.2.2
  have hsystem : evening.machine.system = Shift.machine.system := by rw [hmachine]; rfl
  have hrunning : evening.running = .night := hevening.1
  obtain ⟨dawn, hdawn⟩ := hsucceeds
    { evening with machine.platform.registers := Vector.replicate 32 0xff } .day
    (congrArg System.ready hsystem) (congrArg (·.nesting.attached) hsystem)
  have hschedule := (Schedule.start.switch hevening).work
    { evening.machine with platform.registers := Vector.replicate 32 0xff }
  obtain ⟨hresumes, -, -, hothers, -, -⟩ := hswitch hschedule hdawn
  have hlast : ((evening.running, Vector.replicate 32 0xff) ::
      [(Shift.morning.running, Shift.morning.registers)]).lookup .day =
        some Shift.morning.registers := by
    rw [hrunning]
    rfl
  obtain ⟨hkept, hpc⟩ := hresumes _ hlast
  refine ⟨evening, _, dawn, hevening, rfl, hdawn, ?_, ?_, ?_, ?_⟩
  · exact (hkept 8 (by decide)).trans (by decide)
  · exact (hkept 18 (by decide)).trans (by decide)
  · have hmark : Registers.read (Vector.replicate 32 0xff) 10 = 0xff := by decide
    exact (hothers 10 (by decide)).trans hmark
  · exact hpc.trans (by decide)

end Supervisor
