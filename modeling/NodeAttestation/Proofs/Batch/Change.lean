import NodeAttestation.Proofs.Batch.Deduplication
import NodeAttestation.Proofs.Verification.Transition

/-!
# What an act changes

To the cache and the clock of the client, to the tasks in flight and to the outcomes, an act does
either nothing or what a transition of one of the tasks does.
-/

namespace NodeAttestation

/-- Nothing happens to the cache while the clock runs on. -/
structure Client.Idles (c next : Client) : Prop where
  cache : next.cache = c.cache
  clock : c.clock.nanos ≤ next.clock.nanos

theorem Client.idles_of_passed {c next : Client} (h : ∃ nanos, next = c.pass nanos) :
    c.Idles next := by
  obtain ⟨nanos, rfl⟩ := h
  exact ⟨rfl, Task.clock_le_pass c nanos⟩

/-- What an act makes of a client if it is no step of a task. -/
inductive Client.Aside (settings : Settings) (c : Client) : Client → Prop
  | same : Aside settings c c
  | received {entries : List PushedLimit} {done : Option Unit} {next : Client}
      (received : c.receiveLimits settings entries = (done, next)) : Aside settings c next
  | emitted (event : Event) : Aside settings c (c.emit event)

section Aside

variable {settings : Settings} {c next : Client}

theorem Client.Aside.cache_eq (aside : c.Aside settings next) : next.cache = c.cache := by
  cases aside with
  | received received =>
    obtain ⟨limiter, log, rfl⟩ := Client.eq_of_receiveLimits received
    rfl
  | _ => rfl

theorem Client.Aside.clock_eq (aside : c.Aside settings next) : next.clock = c.clock := by
  cases aside with
  | received received =>
    obtain ⟨limiter, log, rfl⟩ := Client.eq_of_receiveLimits received
    rfl
  | _ => rfl

end Aside

namespace Batch

inductive Change (plan : BatchPlan) (b next : Batch) : Prop
  | aside (client : b.client.Aside plan.settings next.client)
      (tasks : ∀ task ∈ next.tasks, task ∈ b.tasks ∨ task.stage = .submitted)
      (outcomes : ∀ o ∈ next.outcomes, o ∈ b.outcomes)
  | went {task : Task} {timer : Nat} {stage : Task.Stage} (member : task ∈ b.tasks)
      (transition : task.Transition plan.job timer b.client (.going stage) next.client)
      (tasks : ∀ other ∈ next.tasks, other ∈ b.tasks ∨ other = { task with stage := stage })
      (outcomes : ∀ o ∈ next.outcomes, o ∈ b.outcomes)
  | finished {task : Task} {timer : Nat} {outcome : Option Outcome} (member : task ∈ b.tasks)
      (transition : task.Transition plan.job timer b.client (.finished outcome) next.client)
      (tasks : ∀ other ∈ next.tasks, other ∈ b.tasks)
      (outcomes : ∀ o ∈ next.outcomes, o ∈ b.outcomes ∨ outcome = some o)

section Steps

variable {plan : BatchPlan} {b next : Batch} {gains : History}

theorem Admission.tasks_cases {a : Attestation} {taken : List Attestation}
    (admission : Admission plan a b taken next) {task : Task} (h : task ∈ next.tasks) :
    task ∈ b.tasks ∨ task.stage = .submitted := by
  cases admission with
  | skipped => exact .inl h
  | taken =>
    rcases List.mem_append.1 h with hold | hnew
    · exact .inl hold
    · cases List.mem_singleton.1 hnew
      exact .inr rfl

theorem Admission.outcomes_eq {a : Attestation} {taken : List Attestation}
    (admission : Admission plan a b taken next) : next.outcomes = b.outcomes := by
  cases admission <;> rfl

/-- The outcomes that have been counted stay when a batch fails. -/
theorem Change.of_fail {failed : Batch} {failure : Failure} (h : next = failed.fail failure)
    (client : b.client.Aside plan.settings failed.client)
    (collected : failed.collected = b.collected) : Change plan b next := by
  subst h
  refine .aside client (fun task htask => nomatch htask) ?_
  intro o ho
  apply List.mem_append_left
  rw [← collected]
  simpa [outcomes, fail, surviving] using ho

theorem mem_outcomes_of_finish {o : Outcome} {outcome : Option Outcome} (h : o ∈ next.outcomes)
    (collected : next.collected = b.collected)
    (finished : next.finished = b.finished ++ [outcome]) :
    o ∈ b.outcomes ∨ outcome = some o := by
  rw [outcomes_finish collected finished] at h
  rcases List.mem_append.1 h with hold | hnew
  · exact .inl hold
  · exact .inr (Option.mem_toList.1 hnew)

theorem Admission.aside {a : Attestation} {taken : List Attestation} {first : Batch}
    (admission : Admission plan a first taken next) (client : first.client = b.client)
    (tasks : first.tasks = b.tasks) (outcomes : first.outcomes = b.outcomes) :
    Change plan b next := by
  apply Change.aside
  · rw [admission.client_eq, client]
    exact .same
  · intro task htask
    rw [← tasks]
    exact admission.tasks_cases htask
  · intro o ho
    rwa [← outcomes, ← admission.outcomes_eq]

theorem Step.change (step : Step plan b gains next) : Change plan b next := by
  cases step with
  | exhausted | ignored | held | persisted =>
    exact .aside .same (fun task htask => .inl htask) fun o ho => ho
  | arrived _ _ _ _ admission => exact admission.aside rfl rfl rfl
  | resumed _ _ admission => exact admission.aside rfl rfl rfl
  | released _ queue admission =>
    exact admission.aside rfl rfl (outcomes_collect queue rfl rfl)
  | counted _ queue =>
    refine .aside .same (fun task htask => .inl htask) fun o ho => ?_
    rwa [outcomes_collect queue rfl rfl] at ho
  | limited _ _ _ applied =>
    exact .aside (.received applied) (fun task htask => .inl htask) fun o ho => ho
  | broken _ _ _ crashed => exact .of_fail rfl (.received crashed) rfl
  | refused => exact .of_fail rfl .same rfl
  | vacant => exact .of_fail rfl .same rfl
  | concluded => exact .aside (.emitted _) (fun task htask => .inl htask) fun o ho => ho
  | went _ found step =>
    refine .went (List.mem_of_getElem? found) (Task.transition_of_step step) ?_ fun o ho => ho
    intro other hother
    exact List.mem_or_eq_of_mem_set hother
  | @finished index timer task outcome client _ found step =>
    refine .finished (List.mem_of_getElem? found) (Task.transition_of_step step) ?_ ?_
    · intro other hother
      exact List.mem_of_mem_eraseIdx hother
    · intro o ho
      exact mem_outcomes_of_finish ho rfl rfl

theorem Change.clock_le (change : Change plan b next) :
    b.client.clock.nanos ≤ next.client.clock.nanos := by
  cases change with
  | aside client => exact Int.le_of_eq (congrArg Clock.nanos client.clock_eq.symm)
  | went _ transition | finished _ transition => exact transition.clock_le

end Steps

/-- What holds at the start and after every change holds of every run. -/
theorem Run.induct {plan : BatchPlan} {others : Client → Client → Prop} {first b : Batch}
    {h : History} {I : Batch → Prop} (run : Run plan others first b h) (start : I first)
    (change : ∀ b h next, Run plan others first b h → I b → Change plan b next → I next)
    (meanwhile : ∀ b client, I b → others b.client client → I { b with client := client }) :
    I b := by
  refine run.invariant (I := fun b _ => I b) start ?_ ?_
  · intro b h gains next run ih step
    exact change b h next run ih step.change
  · intro b h client ih other
    exact meanwhile b client ih other

end Batch

end NodeAttestation
