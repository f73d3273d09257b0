import NodeAttestation.Proofs.Batch.Change

/-!
# The log of a client and its limiter

The log is only ever added to, and what is added tells what the limiter has become: limits are
applied and persisted in the order in which the log has it, each at the time on the clock, and
nothing takes them back. A batch that has begun opens no exchange.
-/

namespace NodeAttestation

namespace Action

/-- Whether an action belongs to the exchange with the service. -/
def isExchange : Action → Bool
  | .connecting _ | .requested _ | .interrupted _ => true
  | _ => false

/-- Whether an action is one of the limiter. -/
def isLimiting : Action → Bool
  | .applied _ | .persisted => true
  | _ => false

def connecting? : Action → Option Id
  | .connecting request => some request
  | _ => none

/-- The request that is sent, be it that the connection breaks over it. -/
def request? : Action → Option Request
  | .requested request | .interrupted request => some request
  | _ => none

theorem isExchange_of_request? {action : Action} {request : Request}
    (h : action.request? = some request) : action.isExchange = true := by
  cases action with
  | requested | interrupted => rfl
  | _ => cases h

end Action

/-- What carrying out the actions of a log makes of a limiter while the clock runs on. A limit is
applied at the time that is on the clock then. -/
inductive Limiter.Replays : Clock → Limiter → List Action → Clock → Limiter → Prop
  | nil {clock later : Clock} {limiter : Limiter} (runs : clock.nanos ≤ later.nanos) :
      Replays clock limiter [] later limiter
  | applied {clock meanwhile later : Clock} {limiter next last : Limiter} {limit : RateLimit}
      {actions : List Action} (runs : clock.nanos ≤ meanwhile.nanos)
      (applies : limiter.applyAt? meanwhile.now? limit = some next)
      (rest : Replays meanwhile next actions later last) :
      Replays clock limiter (.applied limit :: actions) later last
  | persisted {clock later : Clock} {limiter last : Limiter} {actions : List Action}
      (rest : Replays clock limiter.persist actions later last) :
      Replays clock limiter (.persisted :: actions) later last
  | other {clock later : Clock} {limiter last : Limiter} {action : Action}
      {actions : List Action} (inert : action.isLimiting = false)
      (rest : Replays clock limiter actions later last) :
      Replays clock limiter (action :: actions) later last

namespace Limiter

variable {clock meanwhile later : Clock} {first next last : Limiter} {actions more : List Action}

theorem Replays.of_le (runs : clock.nanos ≤ meanwhile.nanos)
    (replays : Replays meanwhile first actions later last) :
    Replays clock first actions later last := by
  induction replays with
  | nil rest => exact .nil (Int.le_trans runs rest)
  | applied rest applies replays => exact .applied (Int.le_trans runs rest) applies replays
  | persisted _ ih => exact .persisted (ih runs)
  | other inert _ ih => exact .other inert (ih runs)

theorem Replays.clock_le (replays : Replays clock first actions later last) :
    clock.nanos ≤ later.nanos := by
  induction replays with
  | nil runs => exact runs
  | applied runs _ _ ih => exact Int.le_trans runs ih
  | persisted _ ih | other _ _ ih => exact ih

theorem Replays.append (replays : Replays clock first actions meanwhile next)
    (rest : Replays meanwhile next more later last) :
    Replays clock first (actions ++ more) later last := by
  induction replays with
  | nil runs => exact rest.of_le runs
  | applied runs applies _ ih => exact .applied runs applies (ih rest)
  | persisted _ ih => exact .persisted (ih rest)
  | other inert _ ih => exact .other inert (ih rest)

end Limiter

namespace Client

/-- A client comes after another one, and has carried out these actions since. -/
structure Adds (c : Client) (actions : List Action) (next : Client) : Prop where
  log : next.log = c.log ++ actions
  limiter : Limiter.Replays c.clock c.limiter actions next.clock next.limiter

/-- A client has gone on without an action of some kind. -/
def Avoids (kind : Action → Bool) (c next : Client) : Prop :=
  ∃ actions, (∀ action ∈ actions, kind action = false) ∧ c.Adds actions next

section Adding

variable {c d e next : Client} {actions more : List Action} {action : Action}
  {kind : Action → Bool}

theorem Adds.trans (first : c.Adds actions d) (second : d.Adds more e) :
    c.Adds (actions ++ more) e where
  log := by rw [second.log, first.log, List.append_assoc]
  limiter := first.limiter.append second.limiter

theorem adds_of_same (log : next.log = c.log) (limiter : next.limiter = c.limiter)
    (clock : c.clock.nanos ≤ next.clock.nanos) : c.Adds [] next where
  log := by rw [log, List.append_nil]
  limiter := by
    rw [limiter]
    exact .nil clock

theorem Adds.refl (c : Client) : c.Adds [] c := adds_of_same rfl rfl (Int.le_refl _)

theorem adds_record (c : Client) (action : Action) (inert : action.isLimiting = false) :
    c.Adds [action] (c.record action) where
  log := rfl
  limiter := .other inert (.nil (Int.le_refl _))

theorem Avoids.trans (first : c.Avoids kind d) (second : d.Avoids kind e) : c.Avoids kind e := by
  obtain ⟨actions, hactions, first⟩ := first
  obtain ⟨more, hmore, second⟩ := second
  exact ⟨actions ++ more, List.forall_mem_append.2 ⟨hactions, hmore⟩, first.trans second⟩

theorem Avoids.clock_le (avoids : c.Avoids kind next) : c.clock.nanos ≤ next.clock.nanos := by
  obtain ⟨actions, -, adds⟩ := avoids
  exact adds.limiter.clock_le

theorem avoids_of_same (log : next.log = c.log) (limiter : next.limiter = c.limiter)
    (clock : c.clock.nanos ≤ next.clock.nanos) : c.Avoids kind next :=
  ⟨[], fun _ haction => (nomatch haction), adds_of_same log limiter clock⟩

theorem Avoids.refl (c : Client) : c.Avoids kind c := avoids_of_same rfl rfl (Int.le_refl _)

theorem avoids_of_adds (adds : c.Adds [action] next) (h : kind action = false) :
    c.Avoids kind next :=
  ⟨[action], List.forall_mem_singleton.2 h, adds⟩

theorem avoids_pass (c : Client) (nanos : Nat) : c.Avoids kind (c.pass nanos) :=
  avoids_of_same rfl rfl (Task.clock_le_pass c nanos)

theorem avoids_record (c : Client) (inert : action.isLimiting = false)
    (h : kind action = false) : c.Avoids kind (c.record action) :=
  avoids_of_adds (c.adds_record action inert) h

theorem adds_persistLimits (c : Client) : c.Adds [.persisted] c.persistLimits where
  log := rfl
  limiter := .persisted (.nil (Int.le_refl _))

theorem avoids_persistLimits (c : Client) : c.Avoids Action.isExchange c.persistLimits :=
  avoids_of_adds c.adds_persistLimits rfl

theorem adds_of_applyLimit? {limit : RateLimit} (h : c.applyLimit? limit = some next) :
    c.Adds [.applied limit] next := by
  obtain ⟨limiter, applies, rfl⟩ := Option.map_eq_some_iff.1 h
  exact ⟨rfl, .applied (Int.le_refl _) applies (.nil (Int.le_refl _))⟩

theorem avoids_of_receiveLimit? {settings : Settings} {entry : PushedLimit}
    (h : c.receiveLimit? settings entry = some next) : c.Avoids Action.isExchange next := by
  rw [receiveLimit?] at h
  split at h
  · cases h
  · split at h
    · exact avoids_of_adds (adds_of_applyLimit? h) rfl
    · cases h
    · cases h
      exact .refl _

theorem avoids_receiveLimits (settings : Settings) (entries : List PushedLimit) (c : Client) :
    c.Avoids Action.isExchange (c.receiveLimits settings entries).2 := by
  induction entries generalizing c with
  | nil => exact c.avoids_persistLimits
  | cons entry entries ih =>
    rw [receiveLimits]
    split
    · rename_i next hnext
      exact (avoids_of_receiveLimit? hnext).trans (ih next)
    · exact .refl _

theorem Aside.avoids {settings : Settings} (aside : c.Aside settings next) :
    c.Avoids Action.isExchange next := by
  cases aside with
  | same => exact .refl _
  | @received entries done _ received =>
    have avoids := avoids_receiveLimits settings entries c
    rwa [received] at avoids
  | emitted event => exact c.avoids_record rfl rfl

end Adding

end Client

/-- A task asks the verifier and reports what has failed, and does nothing else that is logged. -/
theorem Task.Transition.avoids {job : Assignment} {timer : Nat} {task : Task} {c next : Client}
    {progress : Task.Progress} {kind : Action → Bool}
    (transition : task.Transition job timer c progress next)
    (identifying : ∀ id, kind (.identifying id) = false := by intro; rfl)
    (validating : ∀ id, kind (.validating id) = false := by intro; rfl)
    (emitted : ∀ event, kind (.emitted event) = false := by intro; rfl) : c.Avoids kind next := by
  cases transition with
  | identified | nameless | unidentified | lost =>
    exact (c.avoids_record rfl (identifying _)).trans (Client.avoids_pass ..)
  | begun | slept => exact c.avoids_record rfl (validating _)
  | accepted | unreported | crashed => exact c.avoids_pass _
  | refused => exact (c.avoids_pass _).trans (Client.avoids_record _ rfl (emitted _))
  | _ => exact Client.avoids_of_same rfl rfl (Int.le_refl _)

namespace Batch

variable {plan : BatchPlan} {others : Client → Client → Prop} {first b next : Batch} {h : History}

theorem Change.avoids (change : Change plan b next) :
    b.client.Avoids Action.isExchange next.client := by
  cases change with
  | aside client => exact client.avoids
  | went _ transition | finished _ transition => exact transition.avoids

theorem Run.avoids (run : Run plan others first b h)
    (quiet : ∀ c next, others c next → c.Avoids Action.isExchange next) :
    first.client.Avoids Action.isExchange b.client := by
  refine run.induct (I := fun b => first.client.Avoids Action.isExchange b.client) ?_ ?_ ?_
  · exact .refl _
  · intro b _ next _ avoids change
    exact avoids.trans change.avoids
  · intro b client avoids other
    exact avoids.trans (quiet _ _ other)

end Batch

theorem BatchPlan.adds_begin (plan : BatchPlan) (messages : List (Frame.Item Response))
    (c : Client) : c.Adds [] (plan.begin messages c).client :=
  Client.adds_of_same rfl rfl (Int.le_refl _)

/-- Fetching opens one exchange. Its request goes out, unless there is no connection or the
connection breaks over it. -/
theorem BatchPlan.Fetches.adds {plan : BatchPlan} {request : Request} {c next : Client}
    {result : Batch.Result} (fetches : plan.Fetches request c result next) :
    ∃ actions, c.Adds (.connecting plan.job.request :: actions) next ∧
      (actions.filter Action.isExchange = [.requested request] ∨
        (actions = [.interrupted request] ∨ actions = []) ∧
          ∃ failure, result = .error failure) := by
  have connecting := c.adds_record (.connecting plan.job.request) rfl
  have requested := connecting.trans (Client.adds_record _ (.requested request) rfl)
  cases fetches with
  | unconnected => exact ⟨[], connecting, .inr ⟨.inr rfl, _, rfl⟩⟩
  | interrupted =>
    have interrupted := connecting.trans (Client.adds_record _ (.interrupted request) rfl)
    exact ⟨_, interrupted, .inr ⟨.inl rfl, _, rfl⟩⟩
  | declined => exact ⟨_, requested, .inl rfl⟩
  | processed run =>
    obtain ⟨actions, hactions, adds⟩ := run.avoids (by
      rintro c _ ⟨nanos, rfl⟩
      exact c.avoids_pass nanos)
    have begun := (requested.trans (plan.adds_begin _ _)).trans adds
    refine ⟨.requested request :: actions, begun, .inl ?_⟩
    rw [List.filter_cons_of_pos rfl, List.filter_eq_nil_iff.2]
    intro action haction
    rw [hactions action haction]
    exact Bool.false_ne_true

end NodeAttestation
