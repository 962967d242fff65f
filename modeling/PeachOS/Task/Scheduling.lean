/-
**The choice of the next task.**

`task_get_next_non_sleeping_task` starts behind the current task. Its loop goes back to the head of the
list only if it starts without a task: when the tasks behind the current one are all asleep, the loop ends
at the tail, and the tasks up to the current one are not looked at.

* `taskGetNextNonSleepingTaskLoop_spec` — what the loop finds from any task on;
* `scheduler_finds_iff` — exactly when the result is the first awake task in cyclic order;
* `scheduler_misses` — two tasks, of which the awake one is not found.
-/

import PeachOS.Lib.LinkedList
import PeachOS.Task.Model

namespace PeachOS

open ByteStore LinkedList

/-- The list of tasks that `next` visits from the head. -/
def ListsTasks (s : TaskList) (tasks : List Nat) : Prop :=
  Segment 0 (fun task => (s.tasks task).next) s.taskHead tasks 0

/-- A task that can run. -/
def taskAwake (s : TaskList) (now task : Nat) : Bool := !taskAsleep (s.tasks task) now

/-- The first awake task of a list, `NULL` if there is none. -/
def firstAwake (s : TaskList) (now : Nat) (tasks : List Nat) : Nat := (tasks.find? (taskAwake s now)).getD 0

section Scheduling

variable {s : TaskList} {now : Nat}

theorem firstAwake_cons (task : Nat) (rest : List Nat) :
    firstAwake s now (task :: rest) =
      if taskAsleep (s.tasks task) now then firstAwake s now rest else task := by
  unfold firstAwake taskAwake
  by_cases asleep : taskAsleep (s.tasks task) now <;> simp [asleep]

/-- Behind an awake task nothing is looked at. -/
theorem firstAwake_append_of_awake {tasks more : List Nat} (awake : ∃ task ∈ tasks, taskAwake s now task = true) :
    firstAwake s now (tasks ++ more) = firstAwake s now tasks := by
  obtain ⟨task, member, isAwake⟩ := awake
  have found : tasks.find? (taskAwake s now) ≠ none := by
    intro none_
    exact List.find?_eq_none.mp none_ task member isAwake
  unfold firstAwake
  rw [List.find?_append]
  cases first : tasks.find? (taskAwake s now) with
  | none => exact absurd first found
  | some other => rfl

theorem firstAwake_append_of_asleep {tasks more : List Nat} (asleep : ∀ task ∈ tasks, taskAwake s now task = false) :
    firstAwake s now (tasks ++ more) = firstAwake s now more := by
  have none_ : tasks.find? (taskAwake s now) = none := by
    refine List.find?_eq_none.mpr fun task member => ?_
    rw [asleep task member]
    exact Bool.false_ne_true
  unfold firstAwake
  rw [List.find?_append, none_]
  rfl

/-- `NULL` means that all are asleep. -/
theorem firstAwake_eq_zero {tasks : List Nat} (nonnull : ∀ task ∈ tasks, task ≠ 0) :
    firstAwake s now tasks = 0 ↔ ∀ task ∈ tasks, taskAwake s now task = false := by
  unfold firstAwake
  cases first : tasks.find? (taskAwake s now) with
  | none =>
      refine ⟨fun _ task member => ?_, fun _ => rfl⟩
      simpa using List.find?_eq_none.mp first task member
  | some task =>
      have member := List.mem_of_find?_eq_some first
      refine ⟨fun zero => absurd zero (nonnull task member), fun asleep => ?_⟩
      have awake := List.find?_some first
      rw [asleep task member] at awake
      exact absurd awake Bool.false_ne_true

/-- **The loop finds the first awake task from a task on**, as far as the tail. -/
theorem taskGetNextNonSleepingTaskLoop_spec {current : Nat} {rest : List Nat} {fuel : Nat}
    (visits : Segment 0 (fun task => (s.tasks task).next) current rest 0) (some_ : rest ≠ [])
    (enough : rest.length ≤ fuel) :
    taskGetNextNonSleepingTaskLoop s now fuel current = some (0, firstAwake s now rest) := by
  induction rest generalizing current fuel with
  | nil => exact absurd rfl some_
  | cons task rest ih =>
      obtain ⟨rfl, nonnull, tail⟩ := visits
      cases fuel with
      | zero => exact absurd enough (Nat.not_succ_le_zero _)
      | succ fuel =>
          rw [List.length_cons, Nat.succ_le_succ_iff] at enough
          rw [taskGetNextNonSleepingTaskLoop, firstAwake_cons]
          simp only [nonnull, if_false]
          by_cases asleep : taskAsleep (s.tasks current) now
          · simp only [asleep, if_true]
            cases rest with
            | nil =>
                have ends : (s.tasks current).next = 0 := tail
                simp only [ends, ne_eq, not_true_eq_false, if_false]
                rfl
            | cons other rest =>
                have more : (s.tasks current).next ≠ 0 := by
                  rw [show (s.tasks current).next = other from tail.1]
                  exact tail.2.1
                simp only [ne_eq, more, not_false_eq_true, if_true]
                exact ih tail (List.cons_ne_nil _ _) enough
          · simp only [asleep]
            rfl

/-- Without a task, the loop starts at the head. -/
theorem taskGetNextNonSleepingTaskLoop_head {fuel : Nat} (some_ : s.taskHead ≠ 0) :
    taskGetNextNonSleepingTaskLoop s now fuel 0 = taskGetNextNonSleepingTaskLoop s now fuel s.taskHead := by
  cases fuel with
  | zero => rfl
  | succ fuel =>
      rw [taskGetNextNonSleepingTaskLoop, taskGetNextNonSleepingTaskLoop]
      simp only [some_, if_true, if_false]

/-- What the function finds: the first awake task behind the current one, or from the head if there is no
task behind it. -/
theorem taskGetNextNonSleepingTask_eq {before after : List Nat} {current fuel : Nat}
    (lists : ListsTasks s (before ++ current :: after)) (isCurrent : s.currentTask = current)
    (enough : (before ++ current :: after).length ≤ fuel) :
    taskGetNextNonSleepingTask s now fuel =
      some (0, firstAwake s now (if after = [] then before ++ [current] else after)) := by
  have nonnull : current ≠ 0 := lists.ne_null current (by simp)
  obtain ⟨middle, front, back⟩ := segment_append.mp lists
  unfold taskGetNextNonSleepingTask
  rw [isCurrent, if_pos nonnull]
  by_cases last : after = []
  · subst last
    rw [if_pos rfl]
    have next : (s.tasks current).next = 0 := back.2.2
    have head : s.taskHead ≠ 0 := by
      rw [lists.head]
      cases before with
      | nil => exact nonnull
      | cons first before => exact lists.ne_null first (by simp)
    rw [next, taskGetNextNonSleepingTaskLoop_head head]
    exact taskGetNextNonSleepingTaskLoop_spec lists (by simp) enough
  · rw [if_neg last]
    refine taskGetNextNonSleepingTaskLoop_spec back.2.2 last ?_
    rw [List.length_append, List.length_cons] at enough
    omega

/-- **When the scheduler finds the next task.** The call ends for every list, and its result is the first
awake task in cyclic order exactly when the current task is the last one, a task behind it is awake, or all
up to it are asleep. -/
theorem scheduler_finds_iff (s : TaskList) (now : Nat) (before : List Nat) (current : Nat) (after : List Nat)
    (fuel : Nat) (lists : ListsTasks s (before ++ current :: after)) (isCurrent : s.currentTask = current)
    (enough : (before ++ current :: after).length ≤ fuel) :
    (∃ result, taskGetNextNonSleepingTask s now fuel = some result) ∧
      (taskGetNextNonSleepingTask s now fuel = some (0, firstAwake s now (after ++ (before ++ [current]))) ↔
        after = [] ∨ (∃ task ∈ after, taskAwake s now task = true) ∨
          ∀ task ∈ before ++ [current], taskAwake s now task = false) := by
  have found : taskGetNextNonSleepingTask s now fuel = _ := taskGetNextNonSleepingTask_eq lists isCurrent enough
  rw [found]
  refine ⟨⟨_, rfl⟩, ?_⟩
  simp only [Option.some.injEq, Prod.mk.injEq, true_and]
  by_cases last : after = []
  · simp [last]
  · rw [if_neg last]
    by_cases awake : ∃ task ∈ after, taskAwake s now task = true
    · rw [firstAwake_append_of_awake awake]
      exact ⟨fun _ => Or.inr (Or.inl awake), fun _ => rfl⟩
    · have asleep : ∀ task ∈ after, taskAwake s now task = false := by
        intro task member
        by_contra isAwake
        exact awake ⟨task, member, by simpa using isAwake⟩
      have nothing : firstAwake s now after = 0 :=
        (firstAwake_eq_zero fun task member => lists.ne_null task (by simp [member])).mpr asleep
      rw [firstAwake_append_of_asleep asleep, nothing, eq_comm,
        firstAwake_eq_zero fun task member => lists.ne_null task (by
          rw [List.mem_append, List.mem_singleton] at member
          rcases member with member | rfl <;> simp [*])]
      exact ⟨fun all => Or.inr (Or.inr all), fun cases_ =>
        (cases_.resolve_left last).resolve_left awake⟩

end Scheduling

/-- Two tasks, of which the first is current and the second sleeps until a given time. -/
def twoTasks (sleepUntil : Nat) : TaskList :=
  { tasks := fun task =>
      if task = 0x1000 then { taskInit 0x5000 none with next := 0x2000 }
      else { taskInit 0x6000 none with prev := 0x1000, sleepUntilMicroseconds := sleepUntil }
    taskHead := 0x1000
    taskTail := 0x2000
    currentTask := 0x1000 }

theorem twoTasks_lists (sleepUntil : Nat) : ListsTasks (twoTasks sleepUntil) ([] ++ 0x1000 :: [0x2000]) :=
  ⟨rfl, by decide, rfl, by decide, rfl⟩

/-- The second task is found once it is awake. -/
theorem scheduler_finds_second :
    (∃ result, taskGetNextNonSleepingTask (twoTasks 5) 7 2 = some result) ∧
      (taskGetNextNonSleepingTask (twoTasks 5) 7 2 =
          some (0, firstAwake (twoTasks 5) 7 ([0x2000] ++ ([] ++ [0x1000]))) ↔
        [0x2000] = [] ∨ (∃ task ∈ [0x2000], taskAwake (twoTasks 5) 7 task = true) ∨
          ∀ task ∈ [] ++ [0x1000], taskAwake (twoTasks 5) 7 task = false) :=
  scheduler_finds_iff (twoTasks 5) 7 [] 0x1000 [0x2000] 2 (twoTasks_lists 5) rfl (by decide)

/-- **The awake task is not found**: the second task sleeps, the first one is current and awake. -/
theorem scheduler_misses : ListsTasks (twoTasks 9) ([] ++ 0x1000 :: [0x2000]) ∧
    (twoTasks 9).currentTask = 0x1000 ∧
    taskGetNextNonSleepingTask (twoTasks 9) 7 2 = some (0, 0) ∧
    firstAwake (twoTasks 9) 7 ([0x2000] ++ ([] ++ [0x1000])) = 0x1000 :=
  ⟨twoTasks_lists 9, rfl, rfl, rfl⟩

end PeachOS
