import NodeAttestation.Batch.Schedule
import NodeAttestation.Proofs.Verification.Redaction

/-!
# Batches with the reasons of refusals left out

The reasons are only handed from the tasks to the outcomes, and nothing is decided by an outcome but
by how many there are. So every act on a redacted batch leads to the redacted batch, with the very
same client.
-/

namespace NodeAttestation

def FetchedBatch.redacted (fetched : FetchedBatch) : FetchedBatch :=
  { fetched with nodes := fetched.nodes.map Outcome.redacted }

def BatchPlan.redacted (plan : BatchPlan) : BatchPlan := { plan with job := plan.job.redacted }

@[simp]
theorem BatchPlan.settings_redacted (plan : BatchPlan) : plan.redacted.settings = plan.settings :=
  rfl

namespace Batch

def Collected.redacted (c : Collected) : Collected :=
  { c with nodes := c.nodes.map Outcome.redacted }

def Result.redacted (result : Result) : Result :=
  result.map fun fetched => (fetched.1.redacted, fetched.2)

def Phase.redacted : Phase → Phase
  | ended result => ended result.redacted
  | phase => phase

def redacted (b : Batch) : Batch :=
  { b with
    phase := b.phase.redacted
    finished := b.finished.map (·.map Outcome.redacted)
    collected := b.collected.redacted }

section Acts

variable (plan : BatchPlan) (b : Batch)

@[simp]
theorem client_redacted : b.redacted.client = b.client := rfl

@[simp]
theorem inFlight_redacted : b.redacted.inFlight = b.inFlight := by
  rw [inFlight, inFlight, redacted, List.length_map]

@[simp]
theorem length_nodes_redacted :
    b.redacted.collected.nodes.length = b.collected.nodes.length :=
  List.length_map ..

@[simp]
theorem work_redacted : b.redacted.work = b.work := by
  rw [work, work, redacted, List.length_map]
  cases b.phase <;> rfl

@[simp]
theorem result?_redacted : b.redacted.result? = b.result?.map Result.redacted := by
  rw [result?, result?, redacted]
  cases b.phase <;> rfl

@[simp]
theorem isEnded_redacted : b.redacted.isEnded = b.isEnded := by
  rw [isEnded, isEnded, result?_redacted, Option.isSome_map]

theorem Collected.add_redacted (c : Collected) (outcome : Option Outcome) :
    c.redacted.add (outcome.map Outcome.redacted) = (c.add outcome).redacted := by
  cases outcome with
  | none => rfl
  | some outcome =>
    simp only [Collected.redacted, Collected.add, Option.map_some, List.map_append]
    rfl

theorem takeUp_redacted (a : Attestation) :
    b.redacted.takeUp plan.redacted a = (b.takeUp plan a).redacted := by
  rw [takeUp, takeUp, inFlight_redacted, length_nodes_redacted, BatchPlan.redacted]
  split <;> rfl

theorem resume_redacted (a : Attestation) :
    b.redacted.resume plan.redacted a = (b.resume plan a).redacted :=
  takeUp_redacted plan { b with phase := .reading } a

theorem receiveAttestation_redacted (a : Attestation) :
    b.redacted.receiveAttestation plan.redacted a = (b.receiveAttestation plan a).redacted := by
  show (if b.redacted.inFlight = maxInFlight then _ else _) =
    redacted (if b.inFlight = maxInFlight then _ else _)
  rw [inFlight_redacted]
  split
  · rfl
  · exact takeUp_redacted plan { b with received := b.received + 1 } a

theorem receiveLimits_redacted (entries : List PushedLimit) :
    b.redacted.receiveLimits plan.redacted entries =
      (b.receiveLimits plan entries).redacted := by
  cases heard : b.client.receiveLimits plan.settings entries with
  | mk done client =>
    simp only [receiveLimits, client_redacted, BatchPlan.settings_redacted, heard]
    cases done with
    | none => rfl
    | some done =>
      dsimp only
      split <;> rfl

theorem receiveItem_redacted (item : Frame.Item Response) :
    b.redacted.receiveItem plan.redacted item = (b.receiveItem plan item).redacted := by
  rw [receiveItem, receiveItem]
  cases Error.ofItem item with
  | error e => rfl
  | ok message =>
    cases message with
    | empty => rfl
    | attestation a => exact receiveAttestation_redacted plan b a
    | limits entries => exact receiveLimits_redacted plan b entries

theorem receive?_redacted :
    b.redacted.receive? plan.redacted = (b.receive? plan).map redacted := by
  obtain ⟨client, phase, messages, tasks, finished, collected, received, submitted, timer⟩ := b
  cases phase with
  | reading =>
    cases messages with
    | nil => rfl
    | cons item items => exact congrArg some (receiveItem_redacted plan
        ⟨client, .reading, items, tasks, finished, collected, received, submitted, timer⟩ item)
  | _ => rfl

theorem settle_redacted (index : Nat) (task : Task) (progress : Task.Progress) :
    b.redacted.settle index task progress.redacted = (b.settle index task progress).redacted := by
  cases progress with
  | going stage => rfl
  | finished outcome =>
    simp only [settle, redacted, Task.Progress.redacted, List.map_append]
    rfl

theorem stepTask_redacted (index : Nat) (task : Task) :
    b.redacted.stepTask plan.redacted index task = (b.stepTask plan index task).redacted := by
  have stepped := Task.step_redacted plan.job (max b.timer task.wakes) task b.client
  show settle index task { b with
      timer := max b.timer task.wakes
      client := (task.step plan.job.redacted (max b.timer task.wakes) b.client).2 }.redacted
    (task.step plan.job.redacted (max b.timer task.wakes) b.client).1 = _
  rw [stepped]
  exact settle_redacted _ index task _

theorem step?_redacted (index : Nat) :
    b.redacted.step? plan.redacted index = (b.step? plan index).map redacted := by
  rw [step?, step?, isEnded_redacted]
  split
  · rfl
  · rw [Option.map_map]
    exact congrArg (b.tasks[index]?.map ·) (funext fun task => stepTask_redacted plan b index task)

theorem collect?_redacted :
    b.redacted.collect? plan.redacted = (b.collect? plan).map redacted := by
  cases hfinished : b.finished with
  | nil => simp only [collect?, redacted, hfinished, List.map_nil, Option.map_none]
  | cons outcome finished =>
    simp only [collect?, redacted, hfinished, List.map_cons, Collected.add_redacted]
    cases hphase : b.phase with
    | waiting a =>
      exact congrArg some (resume_redacted plan
        { b with finished := finished, collected := b.collected.add outcome } a)
    | _ => rfl

theorem conclude_redacted :
    b.redacted.conclude plan.redacted = (b.conclude plan).redacted := by
  rw [conclude, conclude]
  show (if b.received = 0 then _ else _) = _
  split <;> rfl

theorem proceed?_redacted :
    b.redacted.proceed? plan.redacted = (b.proceed? plan).map redacted := by
  simp only [proceed?, inFlight_redacted, resume_redacted, conclude_redacted]
  obtain ⟨client, phase, messages, tasks, finished, collected, received, submitted, timer⟩ := b
  cases phase with
  | waiting a | draining =>
    simp only [redacted, Phase.redacted]
    split <;> rfl
  | _ => rfl

theorem act?_redacted (act : Act) :
    b.redacted.act? plan.redacted act = (b.act? plan act).map redacted := by
  cases act with
  | receive => exact receive?_redacted plan b
  | step index => exact step?_redacted plan b index
  | collect => exact collect?_redacted plan b
  | proceed => exact proceed?_redacted plan b

theorem usualAct_redacted : b.redacted.usualAct = b.usualAct := by
  obtain ⟨client, phase, messages, tasks, finished, collected, received, submitted, timer⟩ := b
  cases phase with
  | reading => rfl
  | storing => rfl
  | _ => cases finished <;> rfl

theorem advance_redacted (turn : Turn) :
    b.redacted.advance plan.redacted turn = (b.advance plan turn).redacted := by
  have acts := act?_redacted plan (b.pause turn.pause)
  have usual := usualAct_redacted (b.pause turn.pause)
  show (((b.pause turn.pause).redacted.act? _ _).or
    ((b.pause turn.pause).redacted.act? _ (b.pause turn.pause).redacted.usualAct)).getD
      (b.pause turn.pause).redacted = _
  rw [usual, acts, acts, advance]
  cases (b.pause turn.pause).act? plan turn.act with
  | some next => rfl
  | none => cases (b.pause turn.pause).act? plan (b.pause turn.pause).usualAct <;> rfl

end Acts

end Batch

/-- What happens next does not depend on the reasons of refusals, as when the turns are settled
beforehand. -/
def Schedule.IsBlind (schedule : Schedule) : Prop :=
  ∀ history b, schedule history b.redacted = schedule history b

theorem Schedule.isBlind_inTurn : inTurn.IsBlind := by
  intro history b
  obtain ⟨client, phase, messages, tasks, finished, collected, received, submitted, timer⟩ := b
  cases phase with
  | reading => rfl
  | storing => rfl
  | _ => cases finished <;> rfl

namespace Batch

section Blind

variable {plan : BatchPlan} {schedule : Schedule} {history : List Turn} {b : Batch}

theorem finish_of_ended {budget : Nat} {result : Result} (hwork : b.work < budget)
    (ended : b.result? = some result) :
    finish plan schedule budget history b hwork = (result, b.client) := by
  cases budget with
  | zero => exact absurd hwork (Nat.not_lt_zero _)
  | succ budget =>
    rw [finish]
    split <;> simp_all only [Option.some.injEq, reduceCtorEq]

theorem work_advance_lt_of_going {budget : Nat} (hwork : b.work < budget + 1)
    (going : b.result? = none) (turn : Turn) : (b.advance plan turn).work < budget :=
  Nat.lt_of_lt_of_le (work_advance_lt plan turn (by rw [isEnded, going]; rfl))
    (Nat.le_of_lt_succ hwork)

theorem finish_of_going {budget : Nat} (hwork : b.work < budget + 1) (going : b.result? = none) :
    finish plan schedule (budget + 1) history b hwork =
      finish plan schedule budget (schedule history b :: history)
        (b.advance plan (schedule history b)) (work_advance_lt_of_going hwork going _) := by
  rw [finish]
  split
  · simp_all only [reduceCtorEq]
  · rfl

theorem finish_redacted (blind : schedule.IsBlind) {budget : Nat} (hwork : b.work < budget)
    (hredacted : b.redacted.work < budget) :
    finish plan.redacted schedule budget history b.redacted hredacted =
      ((finish plan schedule budget history b hwork).1.redacted,
        (finish plan schedule budget history b hwork).2) := by
  induction budget generalizing history b with
  | zero => exact absurd hwork (Nat.not_lt_zero _)
  | succ budget ih =>
    have redacts := result?_redacted b
    cases hresult : b.result? with
    | some result =>
      rw [hresult] at redacts
      rw [finish_of_ended hredacted redacts, finish_of_ended hwork hresult]
      rfl
    | none =>
      rw [hresult] at redacts
      rw [finish_of_going hredacted redacts, finish_of_going hwork hresult]
      simp only [blind history b, advance_redacted]
      exact ih _ _

theorem run_redacted (blind : schedule.IsBlind) (plan : BatchPlan) (b : Batch) :
    b.redacted.run plan.redacted schedule =
      ((b.run plan schedule).1.redacted, (b.run plan schedule).2) := by
  simp only [run, work_redacted]
  exact finish_redacted blind _ _

end Blind

end Batch

namespace BatchPlan

variable {schedule : Schedule}

theorem process_redacted (blind : schedule.IsBlind) (plan : BatchPlan) (body : Body) (c : Client) :
    plan.redacted.process schedule body c =
      ((plan.process schedule body c).1.redacted, (plan.process schedule body c).2) :=
  Batch.run_redacted blind plan (.start _ _)

theorem fetch_redacted (blind : schedule.IsBlind) (plan : BatchPlan) (request : Request)
    (reply : Reply) (c : Client) :
    plan.redacted.fetch schedule request reply c =
      ((plan.fetch schedule request reply c).1.redacted,
        (plan.fetch schedule request reply c).2) := by
  cases reply with
  | unreachable reason => rfl
  | broken reason => rfl
  | response status body =>
    rw [fetch, fetch]
    split
    · exact process_redacted blind plan body _
    · rfl

end BatchPlan

end NodeAttestation
