/-
**What `task_new` and `task_list_remove` do to the links of tasks.**

Both are stated for any list of tasks that `next` visits, whatever the `prev` pointers are.

* `taskNew_appended` — a new task is put behind the last one;
* `taskListRemove_cut` — a task whose `prev` pointer leads to the task in front is cut out. The first task can be
  cut out with any `prev` pointer that leads out of the list.
-/

import PeachOS.Lib.LinkedList
import PeachOS.Task.Model

namespace PeachOS

open ByteStore LinkedList

/-- `next` visits some tasks, and `task_tail` is the last of them. -/
structure NextVisits (s : TaskList) (live : List Nat) : Prop where
  visits : Segment 0 (fun task => (s.tasks task).next) s.taskHead live 0
  once : live.Nodup
  tail : ∀ front last, live = front ++ [last] → s.taskTail = last

/-- The current task is in a list, or there is none. -/
def TaskList.CurrentIn (s : TaskList) (live : List Nat) : Prop := s.currentTask = 0 ∨ s.currentTask ∈ live

/-- The first task is in the list, or there is none. -/
theorem NextVisits.head {s : TaskList} {live : List Nat} (visits : NextVisits s live) : s.taskHead = 0 ∨ s.taskHead ∈ live := by
  rw [visits.visits.head]
  cases live with
  | nil => exact Or.inl rfl
  | cons task rest => exact Or.inr List.mem_cons_self

/-! ### A new task -/

/-- What a new task leaves. -/
structure TaskAppended (s : TaskList) (live : List Nat) (allocated process : Nat) (s' : TaskList) : Prop where
  visits : NextVisits s' (live ++ [allocated])
  process : (s'.tasks allocated).process = process
  prev : ∀ front last, live = front ++ [last] → (s'.tasks allocated).prev = last
  noPrev : live = [] → (s'.tasks allocated).prev = 0
  others : ∀ task, task ≠ allocated → (s'.tasks task).prev = (s.tasks task).prev ∧
    (s'.tasks task).process = (s.tasks task).process
  current : s'.currentTask = if live = [] then allocated else s.currentTask

section New

variable {s : TaskList} {live : List Nat} (visits : NextVisits s live) {allocated : Nat} (process : Nat)
  (elfEntry : Option Word) (nonnull : allocated ≠ 0)

theorem taskNew_first (empty : s.taskHead = 0) : (taskNew s allocated process elfEntry).2 =
    if allocated = 0 then taskFree s 0
    else { s.setTask allocated (taskInit process elfEntry) with
      taskHead := allocated, taskTail := allocated, currentTask := allocated } := by
  unfold taskNew
  by_cases null : allocated = 0
  · rw [if_pos null, if_pos null]
  · rw [if_neg null, if_neg null]
    exact congrArg Prod.snd (if_pos empty)

include nonnull in
theorem taskNew_behind (some_ : s.taskHead ≠ 0) : (taskNew s allocated process elfEntry).2 =
    { (((s.setTask allocated (taskInit process elfEntry)).setNext s.taskTail allocated).setPrev allocated s.taskTail) with
      taskTail := allocated } := by
  unfold taskNew
  rw [if_neg nonnull]
  simp only [TaskList.setTask, TaskList.setNext, TaskList.setPrev, some_, if_false]

include visits nonnull in
/-- **A new task is the last one.** -/
theorem taskNew_appended (fresh : allocated ∉ live) :
    TaskAppended s live allocated process (taskNew s allocated process elfEntry).2 := by
  rcases live.eq_nil_or_concat with rfl | ⟨front, last, rfl⟩
  · -- the first task
    rw [taskNew_first process elfEntry visits.visits.head, if_neg nonnull]
    have init : ∀ value, (put s.tasks allocated value allocated : Task) = value := put_same s.tasks allocated
    refine ⟨⟨⟨rfl, nonnull, ?_⟩, List.nodup_singleton _, fun front last ends => ?_⟩, ?_, fun front last ends => ?_,
      fun _ => ?_, fun task other => ?_, rfl⟩
    · show (put s.tasks allocated _ allocated).next = 0
      rw [init]
      rfl
    · rw [List.nil_append] at ends
      have := List.append_inj' (show ([] : List Nat) ++ [allocated] = front ++ [last] from ends) rfl
      exact List.singleton_inj.mp this.2
    · show (put s.tasks allocated _ allocated).process = _
      rw [init]
      rfl
    · simp at ends
    · show (put s.tasks allocated _ allocated).prev = 0
      rw [init]
      rfl
    · show (put s.tasks allocated _ task).prev = _ ∧ (put s.tasks allocated _ task).process = _
      rw [put_other _ other]
      exact ⟨rfl, rfl⟩
  · -- a task behind the last one
    rw [List.concat_eq_append] at visits fresh ⊢
    have lastNonnull : last ≠ 0 := visits.visits.ne_null last (by simp)
    have different : last ≠ allocated := fun same => fresh (by simp [same])
    have tail : s.taskTail = last := visits.tail front last rfl
    have some_ : s.taskHead ≠ 0 := by
      rw [visits.visits.head]
      cases front with
      | nil => exact lastNonnull
      | cons first front => exact visits.visits.ne_null first (by simp)
    set s' := (taskNew s allocated process elfEntry).2 with result
    rw [taskNew_behind process elfEntry nonnull some_, tail] at result
    have atNew : s'.tasks allocated = { taskInit process elfEntry with prev := last } := by
      rw [result]
      simp only [TaskList.setTask, TaskList.setNext, TaskList.setPrev, put_same, put_other _ different.symm]
    have atLast : s'.tasks last = { s.tasks last with next := allocated } := by
      rw [result]
      simp only [TaskList.setTask, TaskList.setNext, TaskList.setPrev, put_other _ different, put_same]
    have elsewhere : ∀ task, task ≠ allocated → task ≠ last → s'.tasks task = s.tasks task := by
      intro task notNew notLast
      rw [result]
      simp only [TaskList.setTask, TaskList.setNext, TaskList.setPrev, put_other _ notNew, put_other _ notLast]
    have head : s'.taskHead = s.taskHead := by rw [result]; rfl
    refine ⟨⟨?_, List.nodup_append_comm.mp (List.nodup_cons.mpr ⟨fresh, visits.once⟩), fun front' last' ends => ?_⟩, ?_,
      fun front' last' ends => ?_, fun empty => ?_, fun task other => ?_, ?_⟩
    · rw [head]
      refine visits.visits.snoc nonnull (fun other member => ?_) (by rw [atLast]) (by rw [atNew]; rfl)
      rw [elsewhere other (fun same => fresh (by simp [← same, member]))]
      rintro rfl
      exact (List.disjoint_of_nodup_append visits.once) member (List.mem_singleton_self _)
    · rw [result, (List.append_inj' ends rfl).2 |> List.singleton_inj.mp]
    · rw [atNew]
      rfl
    · rw [atNew, (List.append_inj' ends rfl).2 |> List.singleton_inj.mp]
    · simp at empty
    · by_cases same : task = last
      · rw [same, atLast]
        exact ⟨rfl, rfl⟩
      · rw [elsewhere task other same]
        exact ⟨rfl, rfl⟩
    · rw [if_neg (by simp), result]
      rfl

end New

/-! ### A task removed -/

/-- What the removal of a task leaves. -/
structure TaskCut (s : TaskList) (live : List Nat) (s' : TaskList) : Prop where
  visits : NextVisits s' live
  others : ∀ task, (s'.tasks task).prev = (s.tasks task).prev ∧ (s'.tasks task).process = (s.tasks task).process

section Remove

variable {s : TaskList} {task : Nat}

theorem taskListRemove_next (s : TaskList) (task other : Nat) :
    ((taskListRemove s task).tasks other).next =
      if (s.tasks task).prev ≠ 0 ∧ other = (s.tasks task).prev then (s.tasks task).next else (s.tasks other).next := by
  rw [taskListRemove_tasks]
  by_cases some_ : (s.tasks task).prev ≠ 0
  · rw [if_pos some_]
    by_cases same : other = (s.tasks task).prev
    · rw [if_pos ⟨some_, same⟩, same]
      show (put s.tasks _ _ _).next = _
      rw [put_same]
    · rw [if_neg fun both => same both.2]
      exact congrArg Task.next (put_other _ same _)
  · rw [if_neg some_, if_neg fun both => some_ both.1]

theorem taskListRemove_process (s : TaskList) (task other : Nat) :
    ((taskListRemove s task).tasks other).process = (s.tasks other).process := by
  rw [taskListRemove_tasks]
  split
  · exact put_field s.tasks Task.process
      (show ({ s.tasks (s.tasks task).prev with next := (s.tasks task).next } : Task).process = _ from rfl) other
  · rfl

/-- The pointers of a list without a task. -/
theorem taskListRemove_pointers (apart : task ≠ (s.tasks task).prev) :
    (taskListRemove s task).taskHead = (if task = s.taskHead then (s.tasks task).next else s.taskHead) ∧
      (taskListRemove s task).taskTail = (if task = s.taskTail then (s.tasks task).prev else s.taskTail) ∧
      (taskListRemove s task).currentTask = (if task = s.currentTask then
        if (s.tasks task).next = 0 then (taskListRemove s task).taskHead else (s.tasks task).next
        else s.currentTask) := by
  unfold taskListRemove taskGetNext
  set unlinked := if (s.tasks task).prev ≠ 0 then s.setNext (s.tasks task).prev (s.tasks task).next else s with isUnlinked
  have kept : unlinked.tasks task = s.tasks task := by
    rw [isUnlinked]
    split
    · exact put_other _ apart _
    · rfl
  have head : unlinked.taskHead = s.taskHead := by rw [isUnlinked]; split <;> rfl
  have tail : unlinked.taskTail = s.taskTail := by rw [isUnlinked]; split <;> rfl
  have current : unlinked.currentTask = s.currentTask := by rw [isUnlinked]; split <;> rfl
  clear_value unlinked
  obtain ⟨tasks, taskHead, taskTail, currentTask⟩ := unlinked
  dsimp only at kept head tail current
  subst head tail current
  by_cases isCurrent : task = s.currentTask
  · have atCurrent : tasks s.currentTask = s.tasks task := isCurrent ▸ kept
    rcases Classical.propComplete (task = s.taskHead) with isHead | isHead <;>
      rcases Classical.propComplete (task = s.taskTail) with isTail | isTail <;>
      simp only [isHead, isTail, if_true, if_false, kept, if_pos isCurrent, atCurrent, and_self]
  · rcases Classical.propComplete (task = s.taskHead) with isHead | isHead <;>
      rcases Classical.propComplete (task = s.taskTail) with isTail | isTail <;>
      simp only [isHead, isTail, if_true, if_false, kept, if_neg isCurrent, and_self]

/-- **A task cut out**: its `prev` pointer leads to the task in front, or it is the first one and the pointer leads out
of the list. -/
theorem taskListRemove_cut {front rest : List Nat} (visits : NextVisits s (front ++ task :: rest))
    (outside : front = [] → (s.tasks task).prev ∉ task :: rest)
    (prev : ∀ before last, front = before ++ [last] → (s.tasks task).prev = last) :
    TaskCut s (front ++ rest) (taskListRemove s task) ∧
      (s.CurrentIn (front ++ task :: rest) → (taskListRemove s task).CurrentIn (front ++ rest)) := by
  have nonnull : task ≠ 0 := visits.visits.ne_null task (by simp)
  have once := visits.once
  have notFront : task ∉ front := fun member => (List.disjoint_of_nodup_append once) member List.mem_cons_self
  have notRest : task ∉ rest := (List.nodup_cons.mp once.of_append_right).1
  have once' : (front ++ rest).Nodup := once.sublist ((List.sublist_cons_self task rest).append_left front)
  have nextIn : (s.tasks task).next = 0 ∨ (s.tasks task).next ∈ front ++ rest := by
    rw [show (s.tasks task).next = rest.head?.getD 0 from visits.visits.next_eq]
    cases rest with
    | nil => exact Or.inl rfl
    | cons behind rest => exact Or.inr (by simp)
  have apart : task ≠ (s.tasks task).prev := by
    rcases front.eq_nil_or_concat with rfl | ⟨before, last, rfl⟩
    · intro same
      exact outside rfl (same ▸ List.mem_cons_self)
    · rw [prev before last (List.concat_eq_append ..)]
      rintro rfl
      exact notFront (by simp)
  obtain ⟨head, tail, current⟩ := taskListRemove_pointers apart
  have lastKept : ∀ before last, rest = before ++ [last] → (taskListRemove s task).taskTail = last := by
    rintro before last rfl
    have tailEq : s.taskTail = last := visits.tail (front ++ task :: before) last (by simp)
    rw [tail, tailEq, if_neg]
    rintro rfl
    exact notRest (by simp)
  have visits' : NextVisits (taskListRemove s task) (front ++ rest) := by
    refine ⟨?_, once', fun before last ends => ?_⟩
    · rcases front.eq_nil_or_concat with rfl | ⟨before, last, rfl⟩
      · have isHead : task = s.taskHead := visits.visits.1.symm
        rw [head, if_pos isHead, List.nil_append]
        refine (segment_congr fun other member => ?_).mpr visits.visits.2.2
        rw [taskListRemove_next, if_neg]
        rintro ⟨_, rfl⟩
        exact outside rfl (List.mem_cons_of_mem _ member)
      · rw [List.concat_eq_append] at *
        have isPrev := prev before last rfl
        have notHead : task ≠ s.taskHead := by
          rw [visits.visits.head]
          intro same
          refine notFront ?_
          cases before with
          | nil => exact same ▸ List.mem_singleton_self _
          | cons first before => exact same ▸ List.mem_cons_self
        have lastNonnull : last ≠ 0 := visits.visits.ne_null last (by simp)
        have apartLast : ∀ other, other ∈ before ∨ other ∈ rest → other ≠ last := by
          rw [List.append_assoc] at once'
          rintro other (member | member) rfl
          · exact (List.disjoint_of_nodup_append once') member List.mem_cons_self
          · exact (List.nodup_cons.mp once'.of_append_right).1 member
        have segment := visits.visits
        rw [head, if_neg notHead, List.append_assoc]
        rw [List.append_assoc] at segment
        refine segment.unlink (fun other member => ?_) ?_
        · rw [taskListRemove_next, isPrev, if_neg fun both => apartLast other member both.2]
        · rw [taskListRemove_next, isPrev, if_pos ⟨lastNonnull, rfl⟩]
    · rcases rest.eq_nil_or_concat with rfl | ⟨before', last', rfl⟩
      · rw [List.append_nil] at ends
        rw [tail, if_pos (visits.tail front task rfl).symm, prev before last ends]
      · rw [List.concat_eq_append, ← List.append_assoc] at ends
        rw [lastKept before' last' (List.concat_eq_append ..)]
        exact List.singleton_inj.mp (List.append_inj' ends rfl).2
  refine ⟨⟨visits', fun other => ⟨taskListRemove_prev s task other, taskListRemove_process s task other⟩⟩, ?_⟩
  intro currentIn
  unfold TaskList.CurrentIn
  rw [current]
  by_cases isCurrent : task = s.currentTask
  · rw [if_pos isCurrent]
    by_cases isLast : (s.tasks task).next = 0
    · rw [if_pos isLast]
      exact visits'.head
    · rw [if_neg isLast]
      exact nextIn
  · rw [if_neg isCurrent]
    refine currentIn.imp_right fun member => ?_
    rcases List.mem_append.mp member with inFront | inRest
    · exact List.mem_append_left _ inFront
    · exact List.mem_append_right _ ((List.mem_cons.mp inRest).resolve_left (Ne.symm isCurrent))

end Remove

end PeachOS
