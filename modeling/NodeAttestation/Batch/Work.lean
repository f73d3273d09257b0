import NodeAttestation.Batch.Basic

/-!
The work that is left in a batch. Every act lowers it, and as long as a batch has not ended an act
is possible, so that fetching a batch ends whatever happens next.
-/

namespace NodeAttestation.Batch

def Phase.work : Phase → Nat
  | .reading => 2
  | .storing => 3
  | .waiting _ => 11
  | .draining => 1
  | .ended _ => 0

def taskWork (tasks : List Task) : Nat :=
  tasks.foldr (fun task rest => task.stage.work + 1 + rest) 0

def work (b : Batch) : Nat :=
  12 * b.messages.length + taskWork b.tasks + b.finished.length + b.phase.work

@[simp]
theorem taskWork_nil : taskWork [] = 0 := rfl

@[simp]
theorem taskWork_cons (task : Task) (tasks : List Task) :
    taskWork (task :: tasks) = task.stage.work + 1 + taskWork tasks := rfl

@[simp]
theorem taskWork_append (tasks more : List Task) :
    taskWork (tasks ++ more) = taskWork tasks + taskWork more := by
  induction tasks with
  | nil => simp
  | cons task tasks ih => simp [ih, Nat.add_assoc]

theorem taskWork_set {tasks : List Task} {index : Nat} {task : Task} (next : Task)
    (h : tasks[index]? = some task) :
    taskWork (tasks.set index next) + task.stage.work = taskWork tasks + next.stage.work := by
  induction tasks generalizing index with
  | nil => simp at h
  | cons head rest ih =>
    cases index with
    | zero =>
      simp only [List.getElem?_cons_zero, Option.some.injEq] at h
      subst h
      simp only [List.set_cons_zero, taskWork_cons]
      omega
    | succ index =>
      have := ih (by simpa using h)
      simp only [List.set_cons_succ, taskWork_cons]
      omega

theorem taskWork_eraseIdx {tasks : List Task} {index : Nat} {task : Task}
    (h : tasks[index]? = some task) :
    taskWork (tasks.eraseIdx index) + task.stage.work + 1 = taskWork tasks := by
  induction tasks generalizing index with
  | nil => simp at h
  | cons head rest ih =>
    cases index with
    | zero =>
      simp only [List.getElem?_cons_zero, Option.some.injEq] at h
      subst h
      simp only [List.eraseIdx_cons_zero, taskWork_cons]
      omega
    | succ index =>
      have := ih (by simpa using h)
      simp only [List.eraseIdx_cons_succ, taskWork_cons]
      omega

theorem work_takeUp_le (plan : BatchPlan) (a : Attestation) (b : Batch) :
    (b.takeUp plan a).work ≤ b.work + 8 := by
  unfold takeUp
  split
  · omega
  · simp only [work, taskWork_append, taskWork_cons, taskWork_nil, Task.Stage.work]
    omega

theorem work_fail_le (b : Batch) (failure : Failure) :
    (b.fail failure).work ≤ 12 * b.messages.length := by
  simp [fail, work, Phase.work]

theorem work_resume (plan : BatchPlan) (a : Attestation) (b : Batch) :
    (b.resume plan a).work ≤ 12 * b.messages.length + taskWork b.tasks + b.finished.length + 10 :=
  work_takeUp_le plan a { b with phase := .reading }

theorem work_receiveItem_lt (plan : BatchPlan) (item : Frame.Item Response) (b : Batch)
    (h : b.phase = .reading) : (b.receiveItem plan item).work < b.work + 12 := by
  have hfail : ∀ failure, ∀ client,
      ({ b with client := client }.fail failure).work < b.work + 12 := fun failure client =>
    Nat.lt_of_le_of_lt (work_fail_le _ _) (by simp only [work]; omega)
  unfold receiveItem
  split
  · rename_i message _
    cases message with
    | empty =>
      simp only [receiveMessage]
      omega
    | attestation a =>
      simp only [receiveMessage, receiveAttestation]
      split
      · simp only [work, h, Phase.work]
        omega
      · have := work_takeUp_le plan a { b with received := b.received + 1 }
        simp only [work] at this ⊢
        omega
    | limits entries =>
      simp only [receiveMessage, receiveLimits]
      split
      · split
        · simp only [work, h, Phase.work]
          omega
        · simp [work]
      · exact hfail _ _
  · exact hfail _ b.client

theorem work_settle_lt {index : Nat} {task : Task} {b : Batch} {progress : Task.Progress}
    (h : b.tasks[index]? = some task)
    (hgoing : ∀ stage, progress = .going stage → stage.work < task.stage.work) :
    (b.settle index task progress).work < b.work := by
  cases progress with
  | going stage =>
    have hset := taskWork_set { task with stage := stage } h
    have := hgoing stage rfl
    simp only [settle, work] at hset ⊢
    omega
  | finished outcome =>
    have := taskWork_eraseIdx h
    have := task.stage.work_pos
    simp only [settle, work, List.length_append, List.length_cons, List.length_nil]
    omega

/-- An act takes work off the batch. -/
theorem work_act?_lt {plan : BatchPlan} {b next : Batch} {act : Act}
    (h : b.act? plan act = some next) : next.work < b.work := by
  cases act with
  | receive =>
    simp only [act?, receive?] at h
    split at h
    · rename_i hphase
      split at h
      · cases h
        simp only [work, hphase, Phase.work]
        omega
      · rename_i item items hmessages
        cases h
        refine Nat.lt_of_lt_of_le (work_receiveItem_lt plan item _ hphase) ?_
        simp only [work, hmessages, List.length_cons]
        omega
    · cases h
  | step index =>
    simp only [act?, step?] at h
    split at h
    · cases h
    · obtain ⟨task, htask, rfl⟩ := Option.map_eq_some_iff.1 h
      exact work_settle_lt (b := { b with timer := _, client := _ }) htask
        fun stage hstage => Task.work_step_lt hstage
  | collect =>
    simp only [act?, collect?] at h
    split at h
    · cases h
    · rename_i outcome finished hfinished
      split at h
      · rename_i a hphase
        cases h
        refine Nat.lt_of_le_of_lt (work_resume plan a _) ?_
        simp only [work, hfinished, hphase, Phase.work, List.length_cons]
        omega
      · cases h
        simp only [work, hfinished, List.length_cons]
        omega
      · cases h
  | proceed =>
    simp only [act?, proceed?] at h
    split at h
    · rename_i hphase
      cases h
      simp only [work, hphase, Phase.work]
      omega
    · rename_i a hphase
      split at h <;> cases h
      refine Nat.lt_of_le_of_lt (work_resume plan a _) ?_
      simp only [work, hphase, Phase.work]
      omega
    · rename_i hphase
      split at h <;> cases h
      unfold conclude
      split
      · refine Nat.lt_of_le_of_lt (work_fail_le _ _) ?_
        simp only [work, hphase, Phase.work]
        omega
      · simp only [work, hphase, Phase.work]
        omega
    · cases h

theorem act?_usualAct_isSome (plan : BatchPlan) {b : Batch} (h : b.isEnded = false) :
    (b.act? plan b.usualAct).isSome = true := by
  unfold usualAct
  cases hphase : b.phase with
  | reading =>
    simp only [act?, receive?, hphase]
    split <;> rfl
  | storing => simp [act?, proceed?, hphase]
  | ended result => simp [isEnded, result?, hphase] at h
  | _ =>
    cases hfinished : b.finished with
    | cons outcome finished => simp [act?, collect?, hfinished, hphase]
    | nil =>
      cases htasks : b.tasks with
      | cons task tasks => simp [act?, step?, h, htasks]
      | nil => simp [act?, proceed?, inFlight, hfinished, htasks, hphase]

@[simp]
theorem work_pause (b : Batch) (nanos : Nat) : (b.pause nanos).work = b.work := rfl

/-- A turn takes work off a batch that has not ended, whatever it names. -/
theorem work_advance_lt (plan : BatchPlan) (turn : Turn) {b : Batch} (h : b.isEnded = false) :
    (b.advance plan turn).work < b.work := by
  have hpause : (b.pause turn.pause).isEnded = false := h
  obtain ⟨usual, husual⟩ := Option.isSome_iff_exists.1 (act?_usualAct_isSome plan hpause)
  unfold advance
  cases hact : (b.pause turn.pause).act? plan turn.act with
  | some next => simpa [hact] using work_act?_lt hact
  | none => simpa [hact, husual] using work_act?_lt husual

end NodeAttestation.Batch
