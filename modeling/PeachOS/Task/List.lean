/-
**The list of tasks over runs of `task_new` and `task_free`.**

A run keeps, besides the tasks in memory, which tasks are live, in the order of their creation, and which
have been freed. `TasksLinked` is what the list is meant to be: `next` visits the live tasks, `prev` goes
back, and no pointer leads to a freed task.

`task_list_remove` does not assign the `prev` pointer of the task behind the one it removes:

* `tasksLinked_runs` — the list is right in every run that frees a task only while it is the last one, and
  that always finds memory for a new task; the first free of another task breaks it (`not_linked_free`);
* `task_list_broken` — three calls that leave a live task with a pointer to a freed one.
-/

import PeachOS.Lib.LinkedList
import PeachOS.Lib.StepRun
import PeachOS.Task.Model

namespace PeachOS

open ByteStore LinkedList StepRun

/-! ### Runs -/

/-- The tasks in memory, the live tasks in the order of their creation, and the freed ones. -/
structure TaskRun where
  list : TaskList
  live : List Nat
  freed : List Nat

/-- A call: `task_new` with the result of its `kzalloc`, or `task_free`. -/
inductive TaskCall where
  | new (allocated process : Nat) (elfEntry : Option Word)
  | free (task : Nat)

namespace TaskRun

/-- The run after a call of `task_new`. -/
def new (run : TaskRun) (allocated process : Nat) (elfEntry : Option Word) : TaskRun :=
  { list := (taskNew run.list allocated process elfEntry).2
    live := if allocated = 0 then run.live else run.live ++ [allocated]
    freed := run.freed.filter (· ≠ allocated) }

/-- The run after a call of `task_free`. -/
def free (run : TaskRun) (task : Nat) : TaskRun :=
  { list := taskFree run.list task
    live := run.live.erase task
    freed := task :: run.freed }

/-- **A step**: memory for a new task is no live task, and a live task is freed. -/
def step (run : TaskRun) : TaskCall → TaskRun → Prop
  | .new allocated process elfEntry, run' =>
      (allocated = 0 ∨ allocated ∉ run.live) ∧ run' = run.new allocated process elfEntry
  | .free task, run' => task ∈ run.live ∧ run' = run.free task

/-- Before the first task. -/
def starts (run : TaskRun) : Prop :=
  run.list.taskHead = 0 ∧ run.list.taskTail = 0 ∧ run.list.currentTask = 0 ∧ run.live = [] ∧ run.freed = []

/-- The calls that keep the list: there is memory for the new task, and the freed task is the last one. -/
def keeps (run : TaskRun) : TaskCall → Prop
  | .new allocated _ _ => allocated ≠ 0
  | .free task => (run.list.tasks task).next = 0

end TaskRun

/-- **What the list of tasks is meant to be.** -/
structure TasksLinked (run : TaskRun) : Prop where
  visits : Segment 0 (fun task => (run.list.tasks task).next) run.list.taskHead run.live 0
  once : run.live.Nodup
  tail : run.list.taskTail = run.live.getLast?.getD 0
  inverse : ∀ task ∈ run.live, ∀ other ∈ run.live,
    (run.list.tasks task).next = other ↔ (run.list.tasks other).prev = task
  head : run.list.taskHead = 0 ∨ run.list.taskHead ∈ run.live
  tailLive : run.list.taskTail = 0 ∨ run.list.taskTail ∈ run.live
  current : run.list.currentTask = 0 ∨ run.list.currentTask ∈ run.live
  noFreed : ∀ task ∈ run.live, (run.list.tasks task).next ∉ run.freed ∧ (run.list.tasks task).prev ∉ run.freed

/-! ### The invariant -/

/-- The invariant of the runs: `prev` leads to live tasks as well, and freed tasks are not live. -/
structure TaskInvariant (run : TaskRun) : Prop where
  visits : Segment 0 (fun task => (run.list.tasks task).next) run.list.taskHead run.live 0
  once : run.live.Nodup
  tail : run.list.taskTail = run.live.getLast?.getD 0
  inverse : ∀ task ∈ run.live, ∀ other ∈ run.live,
    (run.list.tasks task).next = other ↔ (run.list.tasks other).prev = task
  current : run.list.currentTask = 0 ∨ run.list.currentTask ∈ run.live
  prev : ∀ task ∈ run.live, (run.list.tasks task).prev = 0 ∨ (run.list.tasks task).prev ∈ run.live
  freed : ∀ task ∈ run.freed, task ≠ 0 ∧ task ∉ run.live

section Invariant

variable {run : TaskRun} (invariant : TaskInvariant run)

include invariant

theorem TaskInvariant.ne_zero {task : Nat} (live : task ∈ run.live) : task ≠ 0 :=
  invariant.visits.ne_null task live

theorem TaskInvariant.linked : TasksLinked run where
  visits := invariant.visits
  once := invariant.once
  tail := invariant.tail
  inverse := invariant.inverse
  head := by
    rw [invariant.visits.head]
    cases live : run.live with
    | nil => exact Or.inl rfl
    | cons task rest => exact Or.inr List.mem_cons_self
  tailLive := by
    rw [invariant.tail]
    cases last : run.live.getLast? with
    | none => exact Or.inl rfl
    | some task => exact Or.inr (List.mem_of_getLast? last)
  current := invariant.current
  noFreed := by
    intro task live
    have notFreed : ∀ other, other = 0 ∨ other ∈ run.live → other ∉ run.freed := by
      intro other known freed
      obtain ⟨nonnull, notLive⟩ := invariant.freed other freed
      exact known.elim nonnull notLive
    exact ⟨notFreed _ (invariant.visits.next_mem live), notFreed _ (invariant.prev task live)⟩

end Invariant

/-! ### A new task -/

section New

variable {run : TaskRun} (invariant : TaskInvariant run) {allocated process : Nat} {elfEntry : Option Word}
  (memory : allocated ≠ 0) (fresh : allocated ∉ run.live)

include invariant memory

/-- The first task. -/
theorem TaskInvariant.new_first (empty : run.live = []) :
    TaskInvariant (run.new allocated process elfEntry) := by
  have head : run.list.taskHead = 0 := by
    rw [invariant.visits.head, empty]
    rfl
  have live : (run.new allocated process elfEntry).live = [allocated] := by
    show (if allocated = 0 then run.live else run.live ++ [allocated]) = _
    rw [if_neg memory, empty, List.nil_append]
  have list : (run.new allocated process elfEntry).list =
      { run.list.setTask allocated (taskInit process elfEntry) with
        taskHead := allocated, taskTail := allocated, currentTask := allocated } := by
    show (taskNew run.list allocated process elfEntry).2 = _
    unfold taskNew
    rw [if_neg memory]
    exact congrArg Prod.snd (if_pos head)
  have init : (run.new allocated process elfEntry).list.tasks allocated = taskInit process elfEntry := by
    rw [list]
    exact put_same _ _ _
  have only : ∀ task, task ∈ (run.new allocated process elfEntry).live → task = allocated := by
    intro task member
    rw [live] at member
    exact List.mem_singleton.mp member
  constructor
  · rw [live, list]
    refine ⟨rfl, memory, ?_⟩
    show (put _ allocated (taskInit process elfEntry) allocated).next = 0
    rw [put_same]
    rfl
  · rw [live]
    exact List.nodup_singleton _
  · rw [live, list]
    rfl
  · intro task member other member'
    rw [only task member, only other member', init]
    exact ⟨fun same => absurd same.symm memory, fun same => absurd same.symm memory⟩
  · rw [live, list]
    exact Or.inr (List.mem_singleton_self _)
  · intro task member
    rw [only task member, init]
    exact Or.inl rfl
  · intro task freed
    obtain ⟨old, different⟩ := List.mem_filter.mp freed
    refine ⟨(invariant.freed task old).1, fun member => ?_⟩
    exact (show task ≠ allocated by simpa using different) (only task member)

include fresh

/-- A task behind the last one. -/
theorem TaskInvariant.new_behind {front : List Nat} {last : Nat} (ends : run.live = front ++ [last]) :
    TaskInvariant (run.new allocated process elfEntry) := by
  have lastLive : last ∈ run.live := by rw [ends]; simp
  have lastNonnull := invariant.ne_zero lastLive
  have different : last ≠ allocated := fun same => fresh (same ▸ lastLive)
  have tail : run.list.taskTail = last := by
    rw [invariant.tail, ends]
    simp
  have head : run.list.taskHead ≠ 0 := by
    have known := invariant.linked.head
    rw [invariant.visits.head, ends] at known ⊢
    cases front with
    | nil => exact lastNonnull
    | cons first front => exact invariant.ne_zero (by rw [ends]; simp)
  set run' := run.new allocated process elfEntry with runEq
  have live : run'.live = run.live ++ [allocated] := if_neg memory
  -- the three assignments
  have list : run'.list =
      { (((run.list.setTask allocated (taskInit process elfEntry)).setNext last allocated).setPrev allocated last) with
        taskTail := allocated } := by
    show (taskNew run.list allocated process elfEntry).2 = _
    unfold taskNew
    rw [if_neg memory]
    simp only [TaskList.setTask, TaskList.setNext, TaskList.setPrev, head, if_false, tail]
  have atNew : (run'.list.tasks allocated).next = 0 ∧ (run'.list.tasks allocated).prev = last := by
    rw [list]
    simp only [TaskList.setTask, TaskList.setNext, TaskList.setPrev, put_same, put_other _ different.symm]
    exact ⟨rfl, trivial⟩
  have atLast : (run'.list.tasks last).next = allocated ∧
      (run'.list.tasks last).prev = (run.list.tasks last).prev := by
    rw [list]
    simp only [TaskList.setTask, TaskList.setNext, TaskList.setPrev, put_other _ different, put_same, and_self]
  have elsewhere : ∀ task, task ≠ allocated → task ≠ last → run'.list.tasks task = run.list.tasks task := by
    intro task notNew notLast
    rw [list]
    simp only [TaskList.setTask, TaskList.setNext, TaskList.setPrev, put_other _ notNew, put_other _ notLast]
  have prevOf : ∀ task ∈ run.live, (run'.list.tasks task).prev = (run.list.tasks task).prev := by
    intro task member
    by_cases same : task = last
    · rw [same, atLast.2]
    · rw [elsewhere task (fun equal => fresh (equal ▸ member)) same]
  have visits := invariant.visits
  rw [ends] at visits
  have lastNext : (run.list.tasks last).next = 0 := visits.next_last
  have once := invariant.once
  constructor
  · rw [live, ends, show run'.list.taskHead = run.list.taskHead by rw [list]; rfl]
    refine visits.snoc memory (fun other member => ?_) atLast.1 atNew.1
    have otherLive : other ∈ run.live := by rw [ends]; exact List.mem_append_left _ member
    show (run'.list.tasks other).next = _
    rw [elsewhere other (fun equal => fresh (equal ▸ otherLive))]
    rintro rfl
    rw [ends] at once
    exact (List.disjoint_of_nodup_append once) member (List.mem_singleton_self _)
  · rw [live]
    exact List.nodup_append_comm.mp (List.nodup_cons.mpr ⟨fresh, once⟩)
  · rw [live, list]
    simp
  · intro task member other member'
    rw [live, List.mem_append, List.mem_singleton] at member member'
    rcases member with member | rfl
    · rcases member' with member' | rfl
      · rw [prevOf other member']
        by_cases same : task = last
        · subst same
          rw [atLast.1, ← invariant.inverse task member other member', lastNext]
          exact ⟨fun equal => absurd (equal ▸ member') fresh, fun equal =>
            absurd equal.symm (invariant.ne_zero member')⟩
        · rw [elsewhere task (fun equal => fresh (equal ▸ member)) same]
          exact invariant.inverse task member other member'
      · rw [atNew.2]
        by_cases same : task = last
        · rw [same]
          exact ⟨fun _ => rfl, fun _ => atLast.1⟩
        · rw [elsewhere task (fun equal => fresh (equal ▸ member)) same]
          refine ⟨fun equal => ?_, fun equal => absurd equal.symm same⟩
          rcases invariant.visits.next_mem member with ends' | inside
          · exact absurd (equal.symm.trans ends') memory
          · exact absurd (equal ▸ inside) fresh
    · rw [atNew.1]
      refine ⟨fun equal => ?_, fun equal => ?_⟩
      · rcases member' with member' | rfl
        · exact absurd equal.symm (invariant.ne_zero member')
        · exact absurd equal.symm memory
      · rcases member' with member' | rfl
        · rw [prevOf other member'] at equal
          rcases invariant.prev other member' with null | inside
          · exact absurd (equal.symm.trans null) memory
          · exact absurd (equal ▸ inside) fresh
        · exact absurd (atNew.2.symm.trans equal) different
  · rw [live, show run'.list.currentTask = run.list.currentTask by rw [list]; rfl]
    exact invariant.current.imp_right fun member => List.mem_append_left _ member
  · intro task member
    rw [live, List.mem_append, List.mem_singleton] at member
    rw [live]
    rcases member with member | rfl
    · rw [prevOf task member]
      exact (invariant.prev task member).imp_right fun inside => List.mem_append_left _ inside
    · rw [atNew.2]
      exact Or.inr (List.mem_append_left _ lastLive)
  · intro task freed
    obtain ⟨old, differs⟩ := List.mem_filter.mp freed
    obtain ⟨nonnull, notLive⟩ := invariant.freed task old
    refine ⟨nonnull, fun member => ?_⟩
    rw [live, List.mem_append, List.mem_singleton] at member
    exact member.elim notLive (by simpa using differs)

/-- **`task_new` keeps the invariant** when it finds memory. -/
theorem TaskInvariant.new : TaskInvariant (run.new allocated process elfEntry) := by
  rcases run.live.eq_nil_or_concat with empty | ⟨front, last, ends⟩
  · exact invariant.new_first memory empty
  · rw [List.concat_eq_append] at ends
    exact invariant.new_behind memory fresh ends

end New

/-! ### A task freed -/

section Free

variable {run : TaskRun} (invariant : TaskInvariant run) {task : Nat} (live : task ∈ run.live)

include invariant live

/-- **The last task freed.** -/
theorem TaskInvariant.free (isLast : (run.list.tasks task).next = 0) : TaskInvariant (run.free task) := by
  have nonnull := invariant.ne_zero live
  have once := invariant.once
  obtain ⟨front, ends⟩ := invariant.visits.next_eq_null live isLast
  have notFront : task ∉ front := by
    rw [ends] at once
    exact fun member => (List.disjoint_of_nodup_append once) member (List.mem_singleton_self _)
  set run' := run.free task with runEq
  have live' : run'.live = front := by
    show run.live.erase task = front
    rw [ends, List.erase_append_right _ notFront]
    simp
  have onFront : ∀ other ∈ front, other ∈ run.live := by
    intro other member
    rw [ends]
    exact List.mem_append_left _ member
  have frontNodup : front.Nodup := by
    rw [ends] at once
    exact once.of_append_left
  have tail : run.list.taskTail = task := by
    rw [invariant.tail, ends]
    simp
  have freed : ∀ other ∈ run'.freed, other ≠ 0 ∧ other ∉ front := by
    intro other member
    rcases List.mem_cons.mp member with rfl | old
    · exact ⟨nonnull, notFront⟩
    · exact ⟨(invariant.freed other old).1, fun inside => (invariant.freed other old).2 (onFront other inside)⟩
  rcases front.eq_nil_or_concat with empty | ⟨before, last, concat⟩
  · -- the only task
    subst empty
    rw [List.nil_append] at ends
    have head : run.list.taskHead = task := by
      rw [invariant.visits.head, ends]
      rfl
    have prev : (run.list.tasks task).prev = 0 := by
      rcases invariant.prev task live with null | inside
      · exact null
      · rw [ends, List.mem_singleton] at inside
        have looped := (invariant.inverse task live task live).mpr inside
        exact absurd (looped.symm.trans isLast) nonnull
    have list : run'.list =
        { run.list with taskHead := 0, taskTail := 0, currentTask := 0 } := by
      show taskListRemove run.list task = _
      unfold taskListRemove taskGetNext
      simp only [prev, ne_eq, not_true_eq_false, if_false, head, if_true, tail, isLast]
      split
      · rename_i isCurrent
        simp only [← isCurrent, isLast, if_true]
      · rename_i notCurrent
        have idle : run.list.currentTask = 0 := by
          rcases invariant.current with idle | inside
          · exact idle
          · rw [ends, List.mem_singleton] at inside
            exact absurd inside.symm notCurrent
        rw [idle]
    constructor
    · rw [live', list]
      exact rfl
    · rw [live']
      exact List.nodup_nil
    · rw [live', list]
      rfl
    · intro other member
      rw [live'] at member
      exact absurd member List.not_mem_nil
    · rw [list]
      exact Or.inl rfl
    · intro other member
      rw [live'] at member
      exact absurd member List.not_mem_nil
    · rw [live']
      exact freed
  · rw [List.concat_eq_append] at concat
    subst concat
    have lastLive : last ∈ run.live := onFront last (by simp)
    have different : last ≠ task := fun same => notFront (by simp [same])
    have visits := invariant.visits
    rw [ends] at visits
    have lastNext : (run.list.tasks last).next = task := by
      have following := visits
      rw [List.append_assoc] at following
      exact following.next_eq
    have prev : (run.list.tasks task).prev = last := (invariant.inverse last lastLive task live).mp lastNext
    have notHead : task ≠ run.list.taskHead := by
      rw [invariant.visits.head, ends]
      intro same
      refine notFront ?_
      cases before with
      | nil => exact absurd same.symm different
      | cons first before => exact same ▸ List.mem_cons_self
    have lastNonnull := invariant.ne_zero lastLive
    have list : run'.list = { run.list.setNext last 0 with
        taskTail := last
        currentTask := if task = run.list.currentTask then run.list.taskHead else run.list.currentTask } := by
      have kept : (run.list.setNext last 0).tasks task = run.list.tasks task := put_other _ different.symm _
      show taskListRemove run.list task = _
      unfold taskListRemove taskGetNext
      simp only [prev, ne_eq, lastNonnull, not_false_eq_true, if_true, isLast]
      rw [if_neg (show ¬ task = (run.list.setNext last 0).taskHead from notHead),
        if_pos (show task = (run.list.setNext last 0).taskTail from tail.symm), kept, prev]
      by_cases isCurrent : task = run.list.currentTask
      · rw [if_pos isCurrent, if_pos (show task = (run.list.setNext last 0).currentTask from isCurrent)]
        have next : ((run.list.setNext last 0).tasks run.list.currentTask).next = 0 := by
          rw [← isCurrent, kept, isLast]
        show ({ run.list.setNext last 0 with
          taskTail := last
          currentTask := if ((run.list.setNext last 0).tasks run.list.currentTask).next = 0 then run.list.taskHead
            else ((run.list.setNext last 0).tasks run.list.currentTask).next } : TaskList) = _
        rw [if_pos next]
      · rw [if_neg isCurrent, if_neg (show ¬ task = (run.list.setNext last 0).currentTask from isCurrent)]
        rfl
    have atLast : (run'.list.tasks last).next = 0 ∧ (run'.list.tasks last).prev = (run.list.tasks last).prev := by
      rw [list]
      simp only [TaskList.setNext, TaskList.setTask, put_same, and_self]
    have elsewhere : ∀ other, other ≠ last → run'.list.tasks other = run.list.tasks other := by
      intro other notLast
      rw [list]
      exact put_other _ notLast _
    have prevOf : ∀ other, (run'.list.tasks other).prev = (run.list.tasks other).prev := by
      intro other
      by_cases same : other = last
      · rw [same, atLast.2]
      · rw [elsewhere other same]
    have notBefore : last ∉ before := fun member =>
      (List.disjoint_of_nodup_append frontNodup) member (List.mem_singleton_self _)
    constructor
    · rw [live', show run'.list.taskHead = run.list.taskHead by rw [list]; rfl]
      refine visits.dropLast (fun other member => ?_) atLast.1
      rw [elsewhere other]
      rintro rfl
      exact notBefore member
    · rw [live']
      exact frontNodup
    · rw [live', list]
      simp
    · intro other member behind member'
      rw [live'] at member member'
      rw [prevOf behind]
      by_cases same : other = last
      · rw [same, atLast.1, ← invariant.inverse last lastLive behind (onFront behind member'), lastNext]
        exact ⟨fun equal => absurd equal.symm (invariant.ne_zero (onFront behind member')),
          fun equal => absurd (equal ▸ member') notFront⟩
      · rw [elsewhere other same]
        exact invariant.inverse other (onFront other member) behind (onFront behind member')
    · rw [live', list]
      show (if task = run.list.currentTask then run.list.taskHead else run.list.currentTask) = 0 ∨
        (if task = run.list.currentTask then run.list.taskHead else run.list.currentTask) ∈ before ++ [last]
      have cut : ∀ other, other = 0 ∨ other ∈ run.live → other ≠ task → other = 0 ∨ other ∈ before ++ [last] := by
        intro other known differs
        rcases known with null | inside
        · exact Or.inl null
        · rw [ends, List.mem_append, List.mem_singleton] at inside
          exact Or.inr (inside.resolve_right differs)
      split
      · exact cut _ invariant.linked.head (Ne.symm notHead)
      · rename_i notCurrent
        exact cut _ invariant.current (Ne.symm notCurrent)
    · intro other member
      rw [live'] at member ⊢
      rw [prevOf other]
      rcases invariant.prev other (onFront other member) with null | inside
      · exact Or.inl null
      · rw [ends, List.mem_append, List.mem_singleton] at inside
        refine Or.inr (inside.resolve_right fun same => ?_)
        have looped := (invariant.inverse task live other (onFront other member)).mpr same
        exact absurd (looped.symm.trans isLast) (invariant.ne_zero (onFront other member))
    · rw [live']
      exact freed

/-- **Freeing any other task leaves a pointer to it**: the task behind it keeps its `prev`. -/
theorem not_linked_free (notLast : (run.list.tasks task).next ≠ 0) : ¬ TasksLinked (run.free task) := by
  intro linked
  have behindLive : (run.list.tasks task).next ∈ run.live :=
    (invariant.visits.next_mem live).resolve_left notLast
  have back := (invariant.inverse task live _ behindLive).mp rfl
  have different : (run.list.tasks task).next ≠ task := by
    intro looped
    obtain ⟨front, more, ends⟩ := List.append_of_mem live
    have visits := invariant.visits
    have once := invariant.once
    rw [ends] at visits once
    rw [visits.next_eq] at looped
    cases more with
    | nil => exact invariant.ne_zero live looped.symm
    | cons other more =>
        rw [show other = task from looped] at once
        exact (List.nodup_cons.mp once.of_append_right).1 List.mem_cons_self
  have behindLive' : (run.list.tasks task).next ∈ (run.free task).live :=
    (List.mem_erase_of_ne different).mpr behindLive
  have kept : ((run.free task).list.tasks (run.list.tasks task).next).prev = task :=
    (taskListRemove_prev run.list task _).trans back
  exact (linked.noFreed _ behindLive').2 (by rw [kept]; exact List.mem_cons_self)

end Free

/-! ### Runs -/

/-- The invariant holds in the runs that keep to the condition. -/
theorem taskInvariant_runs {run : TaskRun} (reached : Reachable (Guarded TaskRun.keeps TaskRun.step) TaskRun.starts run) :
    TaskInvariant run := by
  refine reached.invariant _ ?_ ?_
  · rintro state ⟨head, tail, current, live, freed⟩
    constructor <;> simp [live, freed, head, tail, current, LinkedList.Segment]
  · rintro state call state' invariant ⟨kept, taken⟩
    cases call with
    | new allocated process elfEntry =>
        obtain ⟨memory, rfl⟩ := taken
        exact invariant.new kept (memory.resolve_left kept)
    | free task =>
        obtain ⟨live, rfl⟩ := taken
        exact invariant.free live kept

/-- **The list of tasks is right in every run that frees a task only while it is the last one** and finds
memory for every new task; freeing another task breaks it. -/
theorem tasksLinked_runs : ∀ run, Reachable (Guarded TaskRun.keeps TaskRun.step) TaskRun.starts run →
    TasksLinked run ∧ ∀ task ∈ run.live,
      (TasksLinked (run.free task) ↔ (run.list.tasks task).next = 0) := by
  intro run reached
  have invariant := taskInvariant_runs reached
  refine ⟨invariant.linked, fun task live => ⟨fun linked => ?_, fun isLast => (invariant.free live isLast).linked⟩⟩
  by_contra notLast
  exact not_linked_free invariant live notLast linked

/-- Memory in which every task is cleared. -/
def emptyTaskRun : TaskRun :=
  { list := { tasks := fun _ => taskInit 0 none, taskHead := 0, taskTail := 0, currentTask := 0 }
    live := []
    freed := [] }

/-- Two tasks at `0x1000` and `0x2000`. -/
def twoTaskRun : TaskRun := (emptyTaskRun.new 0x1000 0x5000 none).new 0x2000 0x6000 none

theorem twoTaskRun_reached : Reachable (Guarded TaskRun.keeps TaskRun.step) TaskRun.starts twoTaskRun := by
  have start : Reachable (Guarded TaskRun.keeps TaskRun.step) TaskRun.starts emptyTaskRun :=
    .start ⟨rfl, rfl, rfl, rfl, rfl⟩
  have first : Reachable (Guarded TaskRun.keeps TaskRun.step) TaskRun.starts
      (emptyTaskRun.new 0x1000 0x5000 none) :=
    .next (.new 0x1000 0x5000 none) start ⟨show (0x1000 : Nat) ≠ 0 by decide, Or.inr (by decide), rfl⟩
  exact .next (.new 0x2000 0x6000 none) first ⟨show (0x2000 : Nat) ≠ 0 by decide, Or.inr (by decide), rfl⟩

/-- The list of two tasks is right, and stays so only when the second one is freed. -/
theorem tasksLinked_twoTasks : TasksLinked twoTaskRun ∧ ∀ task ∈ twoTaskRun.live,
    (TasksLinked (twoTaskRun.free task) ↔ (twoTaskRun.list.tasks task).next = 0) :=
  tasksLinked_runs twoTaskRun twoTaskRun_reached

/-- **The list of tasks can break**: two tasks are created and the first one is freed. -/
theorem task_list_broken : ∃ run, Reachable TaskRun.step TaskRun.starts run ∧ ¬ TasksLinked run := by
  refine ⟨twoTaskRun.free 0x1000,
    .next (.free 0x1000) twoTaskRun_reached.of_guarded ⟨by decide, rfl⟩, fun linked => ?_⟩
  exact absurd (linked.noFreed 0x2000 (by decide)).2 (by decide)

end PeachOS
