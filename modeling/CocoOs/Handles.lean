import CocoOs.Creation
import Mathlib.Data.List.Nodup
import Mathlib.Data.Nat.Basic
import Mathlib.Order.Basic
import Mathlib.Tactic.SplitIfs

/-!
# Handles

The ids that creation returns.  Counters and ids are 8-bit while the totals of
a configuration can exceed them, so the ids are distinct, and the assertions
guard the arrays, exactly for the configurations whose totals fit.
-/

namespace CocoOs

open Foundation

variable {β : Type}

/-! ## Creation calls -/

/-- The calls that create an object. -/
inductive CreateCall (β : Type)
  | eventCreate
  | osMsgQCreate (buffer : Nat → Msg β) (nMessages : UInt8) (msgSize : UInt16)
      (taskId : UInt8)
  | semBinCreate (initial : Bool)
  | semCountingCreate (max initial : UInt8)

namespace CreateCall

/-- The call creates an event, for itself or for a queue. -/
def MakesEvent (cfg : Config) : CreateCall β → Prop
  | .eventCreate => True
  | .osMsgQCreate _ _ _ _ => 0 < cfg.nQueues
  | _ => False

/-- The call creates a semaphore. -/
def MakesSem : CreateCall β → Prop
  | .semBinCreate _ | .semCountingCreate _ _ => True
  | _ => False

end CreateCall

/-- The ids that `event_create` and `os_sem_create` have returned, oldest
first.  The event of a queue is among them. -/
structure Handles where
  events : List Nat
  sems : List Int

/-- One creation call, with the ids returned so far. -/
def createStep (cfg : Config) (state : Handles × Kernel β) :
    CreateCall β → Outcome (Handles × Kernel β)
  | .eventCreate =>
      (state.2.events.eventCreate cfg).map fun (id, events) =>
        ({ state.1 with events := state.1.events ++ [id] },
          { state.2 with events := events })
  | .osMsgQCreate buffer nMessages msgSize taskId =>
      (state.2.osMsgQCreate cfg buffer nMessages.toNat msgSize.toNat
        taskId.toNat).map fun (queue, k) =>
          (if 0 < cfg.nQueues then
            { state.1 with
              events := state.1.events ++ [(k.queues.msgQList queue).change] }
          else state.1, k)
  | .semBinCreate initial =>
      (state.2.sems.semBinCreate cfg initial).map fun (id, sems) =>
        ({ state.1 with sems := state.1.sems ++ [id] },
          { state.2 with sems := sems })
  | .semCountingCreate max initial =>
      (state.2.sems.semCountingCreate cfg max.toNat initial.toNat).map
        fun (id, sems) =>
          ({ state.1 with sems := state.1.sems ++ [id] },
            { state.2 with sems := sems })

/-- The state after `os_init`, before any creation. -/
def noHandles (cfg : Config) (k : Kernel β) : Handles × Kernel β :=
  (⟨[], []⟩, k.osInit cfg)

/-! ## What uniqueness means -/

/-- The objects created before are as they were. -/
structure KeepsObjects (before after : Handles × Kernel β) : Prop where
  events : ∀ id ∈ before.1.events,
    after.2.events.eventList id = before.2.events.eventList id
  sems : ∀ id ∈ before.1.sems,
    after.2.sems.semList id = before.2.sems.semList id
  queues : ∀ queue, queue < before.2.queues.nQueues →
    after.2.queues.msgQList queue = before.2.queues.msgQList queue

/-- The ids returned so far are distinct and name array entries, a further
creation keeps the objects they name, and with an array full it fails its
assertion. -/
structure Unique (cfg : Config) (state : Handles × Kernel β) : Prop where
  eventsDistinct : state.1.events.Nodup
  eventsInside : ∀ id ∈ state.1.events, id < cfg.nTotalEvents ∧ id ≠ noEvent
  semsDistinct : state.1.sems.Nodup
  semsInside : ∀ id ∈ state.1.sems, cfg.HasSem id
  keeps : ∀ call state', createStep cfg state call = .ok state' →
    KeepsObjects state state'
  eventsFull : state.1.events.length = cfg.nTotalEvents →
    ∀ call : CreateCall β, call.MakesEvent cfg →
      createStep cfg state call = .error .assertion
  semsFull : state.1.sems.length = cfg.nTotalSemaphores →
    ∀ call : CreateCall β, call.MakesSem →
      createStep cfg state call = .error .assertion

/-- After every sequence of creation calls that return, whatever the static
variables held before `os_init`, the handles are unique. -/
def HandlesUnique (β : Type) (cfg : Config) : Prop :=
  ∀ (k : Kernel β) (calls : List (CreateCall β)) (state : Handles × Kernel β),
    run (createStep cfg) (noHandles cfg k) calls = .ok state →
      Unique cfg state

/-- The configuration has an event and a semaphore, and no more of either than
the 8-bit counters count. -/
def Config.CountersFit (cfg : Config) : Prop :=
  (0 < cfg.nTotalEvents ∧ cfg.nTotalEvents ≤ 255) ∧
    0 < cfg.nTotalSemaphores ∧ cfg.nTotalSemaphores ≤ 255

/-! ## Configurations that fit -/

section

variable {cfg : Config}

/-- The counters are the numbers of ids returned, and the ids are the indices
below them. -/
structure Allotted (cfg : Config) (state : Handles × Kernel β) : Prop where
  events : state.1.events = List.range state.2.events.nEvents
  eventsLe : state.2.events.nEvents ≤ cfg.nTotalEvents
  sems : state.1.sems =
    (List.range state.2.sems.nSemaphores).map fun index : Nat => (index : Int)
  semsLe : state.2.sems.nSemaphores ≤ cfg.nTotalSemaphores

theorem allotted_noHandles (fits : cfg.CountersFit) (k : Kernel β) :
    Allotted cfg (noHandles cfg k) := by
  obtain ⟨⟨events, _⟩, sems, _⟩ := fits
  have noEvents : (noHandles cfg k).2.events.nEvents = 0 := by
    simp [noHandles, Kernel.osInit, EventTable.osEventInit, events]
  have noSems : (noHandles cfg k).2.sems.nSemaphores = 0 := by
    simp [noHandles, Kernel.osInit, SemTable.osSemInit, sems]
  refine ⟨?_, ?_, ?_, ?_⟩
  · rw [noEvents]
    rfl
  · rw [noEvents]
    exact Nat.zero_le _
  · rw [noSems]
    rfl
  · rw [noSems]
    exact Nat.zero_le _

/-- While its counter fits, `event_create` returns the next index. -/
theorem eventCreate_of_fits
    {events events' : EventTable} {id : Nat}
    (fits : cfg.CountersFit)
    (returns : events.eventCreate cfg = .ok (id, events')) :
    id = events.nEvents ∧ events.nEvents < cfg.nTotalEvents ∧
      events'.nEvents = events.nEvents + 1 ∧
      ∀ other, other < events.nEvents →
        events'.eventList other = events.eventList other := by
  obtain ⟨⟨some, small⟩, _⟩ := fits
  rcases EventTable.eventCreate_cases returns with
    ⟨none, _⟩ | ⟨room, idEq, rfl⟩
  · omega
  · refine ⟨?_, room, ?_, ?_⟩
    · rw [idEq, Nat.mod_eq_of_lt (by omega)]
    · exact Nat.mod_eq_of_lt (by omega)
    · intro other before
      exact Function.update_of_ne (Nat.ne_of_lt before) _ _

/-- While its counter fits, `os_sem_create` returns the next index. -/
theorem osSemCreate_of_fits
    {sems sems' : SemTable} {max initial : Nat} {id : Int}
    (fits : cfg.CountersFit)
    (returns : sems.osSemCreate cfg max initial = .ok (id, sems')) :
    id = sems.nSemaphores ∧ sems.nSemaphores < cfg.nTotalSemaphores ∧
      sems'.nSemaphores = sems.nSemaphores + 1 ∧
      ∀ other : Nat, other < sems.nSemaphores →
        sems'.semList other = sems.semList other := by
  obtain ⟨_, some, small⟩ := fits
  unfold SemTable.osSemCreate at returns
  rw [if_pos some] at returns
  obtain ⟨room, result⟩ := guard_eq_ok_iff.mp returns
  simp only [Except.ok.injEq, Prod.mk.injEq] at result
  obtain ⟨rfl, rfl⟩ := result
  have next : (sems.nSemaphores + 1) % 256 = sems.nSemaphores + 1 :=
    Nat.mod_eq_of_lt (by omega)
  refine ⟨?_, room, next, ?_⟩
  · rw [next]
    omega
  · intro other before
    apply Function.update_of_ne
    omega

/-- A creation of an event appends its index and keeps the other objects. -/
theorem Allotted.eventCreate
    {state : Handles × Kernel β} {k : Kernel β} {id : Nat}
    (allotted : Allotted cfg state)
    (fits : cfg.CountersFit)
    (returns : state.2.events.eventCreate cfg = .ok (id, k.events))
    (sems : k.sems = state.2.sems)
    (queues : ∀ queue, queue < state.2.queues.nQueues →
      k.queues.msgQList queue = state.2.queues.msgQList queue) :
    Allotted cfg ({ state.1 with events := state.1.events ++ [id] }, k) ∧
      KeepsObjects state
        ({ state.1 with events := state.1.events ++ [id] }, k) := by
  obtain ⟨rfl, room, counted, kept⟩ := eventCreate_of_fits fits returns
  refine ⟨⟨?_, ?_, ?_, ?_⟩, ?_, ?_, queues⟩
  · dsimp only
    rw [counted, List.range_succ, ← allotted.events]
  · dsimp only
    rw [counted]
    exact room
  · dsimp only
    rw [sems]
    exact allotted.sems
  · dsimp only
    rw [sems]
    exact allotted.semsLe
  · intro other inside
    rw [allotted.events, List.mem_range] at inside
    exact kept other inside
  · intro other _
    dsimp only
    rw [sems]

/-- A creation of a semaphore does so as well. -/
theorem Allotted.osSemCreate
    {state : Handles × Kernel β} {sems : SemTable} {max initial : Nat} {id : Int}
    (allotted : Allotted cfg state)
    (fits : cfg.CountersFit)
    (returns : state.2.sems.osSemCreate cfg max initial = .ok (id, sems)) :
    Allotted cfg ({ state.1 with sems := state.1.sems ++ [id] },
        { state.2 with sems := sems }) ∧
      KeepsObjects state ({ state.1 with sems := state.1.sems ++ [id] },
        { state.2 with sems := sems }) := by
  obtain ⟨rfl, room, counted, kept⟩ := osSemCreate_of_fits fits returns
  refine ⟨⟨allotted.events, allotted.eventsLe, ?_, ?_⟩, fun _ _ => rfl, ?_,
    fun _ _ => rfl⟩
  · dsimp only
    rw [counted, List.range_succ, List.map_append, ← allotted.sems]
    rfl
  · dsimp only
    rw [counted]
    exact room
  · intro other inside
    rw [allotted.sems] at inside
    obtain ⟨index, member, rfl⟩ := List.mem_map.mp inside
    exact kept index (List.mem_range.mp member)

theorem createStep_allotted
    {state state' : Handles × Kernel β} {call : CreateCall β}
    (fits : cfg.CountersFit)
    (allotted : Allotted cfg state)
    (steps : createStep cfg state call = .ok state') :
    Allotted cfg state' ∧ KeepsObjects state state' := by
  cases call with
  | eventCreate =>
      obtain ⟨⟨id, events⟩, returns, rfl⟩ := map_eq_ok_iff.mp steps
      exact allotted.eventCreate fits returns rfl fun _ _ => rfl
  | osMsgQCreate buffer nMessages msgSize taskId =>
      obtain ⟨⟨queue, k⟩, returns, rfl⟩ := map_eq_ok_iff.mp steps
      rcases Kernel.osMsgQCreate_cases returns with
        ⟨none, _, rfl⟩ | ⟨room, rfl, change, events, _, creates, rfl⟩
      · dsimp only
        rw [if_neg (Nat.not_lt.mpr (Nat.le_of_eq none))]
        exact ⟨allotted, fun _ _ => rfl, fun _ _ => rfl, fun _ _ => rfl⟩
      · dsimp only
        rw [if_pos (Nat.zero_lt_of_lt room), Function.update_self]
        refine allotted.eventCreate fits ?_ rfl ?_
        · exact creates
        intro other before
        exact Function.update_of_ne (Nat.ne_of_lt before) _ _
  | semBinCreate initial | semCountingCreate max initial =>
      obtain ⟨⟨id, sems⟩, returns, rfl⟩ := map_eq_ok_iff.mp steps
      exact allotted.osSemCreate fits returns

/-- With the event array full the next creation of an event fails. -/
theorem createStep_eventsFull
    {state : Handles × Kernel β} {call : CreateCall β}
    (some : 0 < cfg.nTotalEvents)
    (full : state.2.events.nEvents = cfg.nTotalEvents)
    (makes : call.MakesEvent cfg) :
    createStep cfg state call = .error .assertion := by
  have fails : state.2.events.eventCreate cfg = .error .assertion := by
    unfold EventTable.eventCreate
    rw [if_pos some, if_neg (Nat.not_lt.mpr full.ge)]
  cases call with
  | eventCreate => rw [createStep, fails, error_map]
  | osMsgQCreate buffer nMessages msgSize taskId =>
      have queues : 0 < cfg.nQueues := makes
      rw [createStep, Kernel.osMsgQCreate, if_pos queues, fails]
      split_ifs <;> rfl
  | semBinCreate | semCountingCreate => exact makes.elim

/-- With the semaphore array full the next creation of a semaphore fails. -/
theorem createStep_semsFull
    {state : Handles × Kernel β} {call : CreateCall β}
    (some : 0 < cfg.nTotalSemaphores)
    (full : state.2.sems.nSemaphores = cfg.nTotalSemaphores)
    (makes : call.MakesSem) :
    createStep cfg state call = .error .assertion := by
  have fails : ∀ max initial,
      state.2.sems.osSemCreate cfg max initial = .error .assertion := by
    intro max initial
    unfold SemTable.osSemCreate
    rw [if_pos some, if_neg (Nat.not_lt.mpr full.ge)]
  cases call with
  | eventCreate | osMsgQCreate => exact makes.elim
  | semBinCreate | semCountingCreate =>
      exact congrArg (Except.map _) (fails _ _)

/-- Handles as allotted are unique. -/
theorem Allotted.unique
    {state : Handles × Kernel β}
    (fits : cfg.CountersFit)
    (allotted : Allotted cfg state) :
    Unique cfg state where
  eventsDistinct := by
    rw [allotted.events]
    exact List.nodup_range
  eventsInside := by
    intro id inside
    rw [allotted.events, List.mem_range] at inside
    have below := inside.trans_le allotted.eventsLe
    exact ⟨below, Nat.ne_of_lt (below.trans_le fits.1.2)⟩
  semsDistinct := by
    rw [allotted.sems]
    exact List.nodup_range.map fun _ _ same => Int.ofNat.inj same
  semsInside := by
    intro id inside
    rw [allotted.sems] at inside
    obtain ⟨index, member, rfl⟩ := List.mem_map.mp inside
    have below := (List.mem_range.mp member).trans_le allotted.semsLe
    exact ⟨Int.natCast_nonneg index, Int.ofNat_lt.mpr below⟩
  keeps := fun _ _ steps => (createStep_allotted fits allotted steps).2
  eventsFull := by
    intro full call makes
    apply createStep_eventsFull fits.1.1 _ makes
    rw [← full, allotted.events, List.length_range]
  semsFull := by
    intro full call makes
    apply createStep_semsFull fits.2.1 _ makes
    rw [← full, allotted.sems, List.length_map, List.length_range]

theorem unique_of_fits
    (fits : cfg.CountersFit) :
    HandlesUnique β cfg := by
  intro k calls state runs
  apply Allotted.unique fits
  apply run_invariant (Allotted cfg) _ (allotted_noHandles fits k) runs
  intro state call state' allotted steps
  exact (createStep_allotted fits allotted steps).1

/-! ## Configurations that do not fit -/

/-- One more event, with the counter anywhere in its byte. -/
theorem createStep_eventCreate
    {state : Handles × Kernel β}
    (room : state.2.events.nEvents < cfg.nTotalEvents)
    (byte : state.2.events.nEvents < 256) :
    ∃ state', createStep cfg state .eventCreate = .ok state' ∧
      state'.1.events = state.1.events ++ [state.2.events.nEvents] ∧
      state'.2.events.nEvents = (state.2.events.nEvents + 1) % 256 := by
  have same : ((state.2.events.nEvents + 1) % 256 + 255) % 256 =
      state.2.events.nEvents := by omega
  unfold createStep EventTable.eventCreate
  rw [if_pos (Nat.zero_lt_of_lt room), if_pos room]
  dsimp only
  rw [same]
  exact ⟨_, rfl, rfl, rfl⟩

/-- One more semaphore. -/
theorem createStep_semBinCreate
    {state : Handles × Kernel β}
    (room : state.2.sems.nSemaphores < cfg.nTotalSemaphores) :
    ∃ state', createStep cfg state (.semBinCreate false) = .ok state' ∧
      (((state.2.sems.nSemaphores + 1) % 256 : Nat) : Int) - 1 ∈
        state'.1.sems ∧
      state'.2.sems.nSemaphores = (state.2.sems.nSemaphores + 1) % 256 := by
  have returns : state.2.sems.semBinCreate cfg false =
      .ok ((((state.2.sems.nSemaphores + 1) % 256 : Nat) : Int) - 1,
        { semList :=
            Function.update state.2.sems.semList state.2.sems.nSemaphores
              { maxValue := 1, value := 0 }
          nSemaphores := (state.2.sems.nSemaphores + 1) % 256 }) := by
    unfold SemTable.semBinCreate SemTable.osSemCreate
    rw [if_pos (Nat.zero_lt_of_lt room), if_pos room]
    rfl
  rw [createStep, returns]
  exact ⟨_, rfl, by simp, rfl⟩

/-- With more events than the counter counts there is a creation for every
value of the counter. -/
theorem run_eventCreate_byte
    (many : 255 < cfg.nTotalEvents)
    (k : Kernel β)
    {count : Nat}
    (upTo : count ≤ 256) :
    ∃ state, run (createStep cfg) (noHandles cfg k)
        (List.replicate count .eventCreate) = .ok state ∧
      state.1.events = List.range count ∧
      state.2.events.nEvents = count % 256 := by
  induction count with
  | zero =>
      refine ⟨_, rfl, rfl, ?_⟩
      simp [noHandles, Kernel.osInit, EventTable.osEventInit,
        Nat.zero_lt_of_lt many]
  | succ prior inductionHypothesis =>
      obtain ⟨state, runs, events, counted⟩ :=
        inductionHypothesis (Nat.le_of_succ_le upTo)
      have same : state.2.events.nEvents = prior := by omega
      obtain ⟨state', creates, appended, next⟩ :=
        @createStep_eventCreate β cfg state (by omega) (by omega)
      refine ⟨state', ?_, ?_, ?_⟩
      · rw [List.replicate_succ', run_append_eq_ok_iff]
        exact ⟨state, runs, run_cons_eq_ok_iff.mpr ⟨state', creates, rfl⟩⟩
      · rw [appended, events, same, List.range_succ]
      · rw [next, same]

/-- So there is for semaphores, and the last returns a negative id. -/
theorem run_semBinCreate_byte
    (many : 255 < cfg.nTotalSemaphores)
    (k : Kernel β)
    {count : Nat}
    (upTo : count < 256) :
    ∃ state, run (createStep cfg) (noHandles cfg k)
        (List.replicate count (.semBinCreate false)) = .ok state ∧
      state.2.sems.nSemaphores = count := by
  induction count with
  | zero =>
      refine ⟨_, rfl, ?_⟩
      simp [noHandles, Kernel.osInit, SemTable.osSemInit,
        Nat.zero_lt_of_lt many]
  | succ prior inductionHypothesis =>
      obtain ⟨state, runs, counted⟩ :=
        inductionHypothesis (Nat.lt_of_succ_lt upTo)
      obtain ⟨state', creates, _, next⟩ :=
        @createStep_semBinCreate β cfg state (by omega)
      refine ⟨state', ?_, by omega⟩
      rw [List.replicate_succ', run_append_eq_ok_iff]
      exact ⟨state, runs, run_cons_eq_ok_iff.mpr ⟨state', creates, rfl⟩⟩

/-- Unique event ids need a total of one to 255. -/
theorem HandlesUnique.eventsFit
    [Inhabited β]
    (unique : HandlesUnique β cfg) :
    0 < cfg.nTotalEvents ∧ cfg.nTotalEvents ≤ 255 := by
  by_contra unfit
  by_cases some : 0 < cfg.nTotalEvents
  · have many : 255 < cfg.nTotalEvents := by omega
    obtain ⟨state, runs, events, _⟩ :=
      run_eventCreate_byte many (Kernel.zeroed (β := β)) (Nat.le_refl 256)
    have inside : noEvent ∈ state.1.events := by
      rw [events]
      decide
    exact ((unique _ _ _ runs).eventsInside noEvent inside).2 rfl
  · have creates : createStep cfg (noHandles cfg (Kernel.zeroed (β := β)))
        .eventCreate = .ok (⟨[0], []⟩, (noHandles cfg Kernel.zeroed).2) := by
      unfold createStep EventTable.eventCreate
      rw [if_neg some]
      rfl
    have inside := (unique _ [.eventCreate] _
      (run_cons_eq_ok_iff.mpr ⟨_, creates, rfl⟩)).eventsInside 0 (by simp)
    exact some (Nat.zero_lt_of_lt inside.1)

/-- Unique semaphore ids do so as well. -/
theorem HandlesUnique.semsFit
    [Inhabited β]
    (unique : HandlesUnique β cfg) :
    0 < cfg.nTotalSemaphores ∧ cfg.nTotalSemaphores ≤ 255 := by
  by_contra unfit
  by_cases some : 0 < cfg.nTotalSemaphores
  · have many : 255 < cfg.nTotalSemaphores := by omega
    obtain ⟨state, runs, counted⟩ :=
      run_semBinCreate_byte many (Kernel.zeroed (β := β)) (by decide : 255 < 256)
    obtain ⟨state', creates, inside, _⟩ :=
      @createStep_semBinCreate β cfg state (by omega)
    rw [counted] at inside
    have runsOn : run (createStep cfg) (noHandles cfg Kernel.zeroed)
        (List.replicate 255 (.semBinCreate false) ++ [.semBinCreate false]) =
          .ok state' :=
      run_append_eq_ok_iff.mpr
        ⟨state, runs, run_cons_eq_ok_iff.mpr ⟨state', creates, rfl⟩⟩
    have positive := ((unique _ _ _ runsOn).semsInside _ inside).1
    exact absurd positive (by decide)
  · have creates : createStep cfg (noHandles cfg (Kernel.zeroed (β := β)))
        (.semBinCreate false) =
          .ok (⟨[], [-1]⟩, (noHandles cfg Kernel.zeroed).2) := by
      have returns : (noHandles cfg (Kernel.zeroed (β := β))).2.sems.semBinCreate
          cfg false = .ok (-1, (noHandles cfg (Kernel.zeroed (β := β))).2.sems) := by
        unfold SemTable.semBinCreate SemTable.osSemCreate
        rw [if_neg some]
      rw [createStep, returns]
      rfl
    have inside := (unique _ [.semBinCreate false] _
      (run_cons_eq_ok_iff.mpr ⟨_, creates, rfl⟩)).semsInside (-1) (by simp)
    exact absurd inside.1 (by decide)

end

/-- Handles are unique exactly in the configurations whose totals the 8-bit
counters count. -/
theorem handlesUnique_iff
    [Inhabited β] (cfg : Config) :
    HandlesUnique β cfg ↔ cfg.CountersFit :=
  ⟨fun unique => ⟨unique.eventsFit, unique.semsFit⟩, unique_of_fits⟩

/-- The 256th event has the id `NO_EVENT`, and the 257th creation does not fail
its assertion but returns the id of the first event. -/
theorem event_ids_wrap_around :
    ∃ state : Handles × Kernel Nat,
      run (createStep Config.wrappingEvents)
        (noHandles Config.wrappingEvents Kernel.zeroed)
        (List.replicate 257 .eventCreate) = .ok state ∧
      Config.wrappingEvents.nTotalEvents = 256 ∧
      noEvent ∈ state.1.events ∧ ¬ state.1.events.Nodup := by
  have many : 255 < Config.wrappingEvents.nTotalEvents := by decide
  obtain ⟨state, runs, events, counted⟩ :=
    run_eventCreate_byte many (Kernel.zeroed : Kernel Nat) (Nat.le_refl 256)
  obtain ⟨state', creates, appended, _⟩ :=
    @createStep_eventCreate Nat Config.wrappingEvents state (by omega) (by omega)
  rw [counted, events] at appended
  refine ⟨state', ?_, by decide, ?_, ?_⟩
  · rw [List.replicate_succ', run_append_eq_ok_iff]
    exact ⟨state, runs, run_cons_eq_ok_iff.mpr ⟨state', creates, rfl⟩⟩
  · rw [appended]
    exact List.mem_append_left _ (List.mem_range.mpr (by decide))
  · rw [appended]
    intro nodup
    have first : 0 ∈ List.range 256 := List.mem_range.mpr (by decide)
    exact (List.nodup_append.mp nodup).2.2 0 first 0 (by simp) rfl

end CocoOs
