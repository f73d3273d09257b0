import NodeAttestation.Proofs.Batch.Events
import NodeAttestation.Proofs.Invocation.Refusal

/-!
# What an invocation reports

The events of each round mirror its result, and speak of the request of the round by the identifier
that the environment asks for: that of the request itself, or in production one that no request of
the invocation goes by.
-/

namespace NodeAttestation

section Minting

/-- Nothing that a batch does mints an identifier. -/
theorem Task.Transition.minted_eq {job : Assignment} {timer : Nat} {task : Task} {c next : Client}
    {progress : Task.Progress} (transition : task.Transition job timer c progress next) :
    next.minted = c.minted := by
  cases transition <;> rfl

theorem Client.Aside.minted_eq {settings : Settings} {c next : Client}
    (aside : c.Aside settings next) : next.minted = c.minted := by
  cases aside with
  | received received =>
    obtain ⟨limiter, log, rfl⟩ := Client.eq_of_receiveLimits received
    rfl
  | _ => rfl

theorem Batch.Run.minted_eq {plan : BatchPlan} {others : Client → Client → Prop}
    {first b : Batch} {h : Batch.History} (run : Batch.Run plan others first b h)
    (same : ∀ c next, others c next → next.minted = c.minted) :
    b.client.minted = first.client.minted := by
  refine run.induct (I := fun b => b.client.minted = first.client.minted) rfl ?_ ?_
  · intro b _ next _ ih change
    cases change with
    | aside client => exact client.minted_eq.trans ih
    | went _ transition | finished _ transition => exact transition.minted_eq.trans ih
  · intro b client ih change
    exact (same _ _ change).trans ih

theorem BatchPlan.Fetches.minted_eq {plan : BatchPlan} {request : Request} {c next : Client}
    {result : Batch.Result} (fetches : plan.Fetches request c result next) :
    next.minted = c.minted := by
  cases fetches with
  | unconnected | interrupted | declined => rfl
  | processed run => exact run.minted_eq (by rintro _ _ ⟨nanos, rfl⟩; rfl)

end Minting

namespace Round

def reportedAs (round : Round) : Id := round.plan.job.reportedAs

/-- What a round has emitted mirrors its result. -/
def Tells (round : Round) : Prop :=
  ∃ events ends, round.before.Emits events round.after ∧
    Batch.Mirrors round.plan.job round.result events ends

/-- The identifiers of a round are new to a client that has minted so many, and they are used up. -/
structure Mints (before : Nat) (round : Round) : Prop where
  request : before ≤ round.request.id.serial ∧ round.request.id.serial < round.after.minted
  reportedAs : before ≤ round.reportedAs.serial ∧ round.reportedAs.serial < round.after.minted

end Round

namespace Invocation

variable {i : Invocation} {services : Services} {setting : Setting}

section Round

variable (i : Invocation) (services : Services) (setting : Setting) (attempt batch : Nat)
  (c : Client)

theorem mintIds_cases :
    i.settings.environment = .production ∧
        i.mintIds c = (⟨c.minted⟩, ⟨c.minted + 1⟩, { c with minted := c.minted + 2 }) ∨
      i.settings.environment ≠ .production ∧
        i.mintIds c = (⟨c.minted⟩, ⟨c.minted⟩, { c with minted := c.minted + 1 }) := by
  cases environment : i.settings.environment with
  | production =>
    refine .inl ⟨rfl, ?_⟩
    rw [mintIds, environment]
    rfl
  | _ =>
    refine .inr ⟨by rintro ⟨⟩, ?_⟩
    rw [mintIds, environment]
    rfl

theorem round_tells : (i.round services setting attempt batch c).Tells :=
  Batch.mirrors_of_fetches (i.round_fetches services setting attempt batch c)

theorem round_ids : (i.round services setting attempt batch c).request.id = (i.mintIds c).1 ∧
    (i.round services setting attempt batch c).reportedAs = (i.mintIds c).2.1 ∧
    (i.round services setting attempt batch c).after.minted = (i.mintIds c).2.2.minted :=
  ⟨rfl, rfl, (i.round_fetches services setting attempt batch c).minted_eq⟩

theorem round_mints : (i.round services setting attempt batch c).Mints c.minted := by
  obtain ⟨hid, hreported, hminted⟩ := i.round_ids services setting attempt batch c
  rcases i.mintIds_cases c with ⟨-, hmint⟩ | ⟨-, hmint⟩ <;>
    constructor <;> simp [hid, hreported, hminted, hmint]

theorem reportedAs_eq (h : i.settings.environment ≠ .production) :
    (i.round services setting attempt batch c).reportedAs =
      (i.round services setting attempt batch c).request.id := by
  obtain ⟨hid, hreported, -⟩ := i.round_ids services setting attempt batch c
  rcases i.mintIds_cases c with ⟨same, -⟩ | ⟨-, hmint⟩
  · exact absurd same h
  · rw [hid, hreported, hmint]

theorem reportedAs_ne (h : i.settings.environment = .production) :
    (i.round services setting attempt batch c).reportedAs ≠
      (i.round services setting attempt batch c).request.id := by
  obtain ⟨hid, hreported, -⟩ := i.round_ids services setting attempt batch c
  rcases i.mintIds_cases c with ⟨-, hmint⟩ | ⟨other, -⟩
  · simp [hid, hreported, hmint]
  · exact absurd h other

end Round

section Rounds

variable {count attempt batch : Nat} {c last : Client} {rounds : List Round} {result : Result}

theorem Rounds.mints
    (made : Rounds i services setting count attempt batch c rounds result last) :
    ∀ round ∈ rounds, round.Mints c.minted := by
  induction made with
  | done => exact fun _ hround => nomatch hround
  | failed opened =>
    subst opened
    intro round hround
    cases List.mem_singleton.1 hround
    exact i.round_mints services setting _ _ _
  | @fetched _ attempt batch c _ _ _ _ _ opened _ _ ih =>
    subst opened
    have first := i.round_mints services setting attempt batch c
    intro round hround
    rcases List.mem_cons.1 hround with rfl | hlater
    · exact first
    · have later := ih round hlater
      have hminted := Nat.le_of_lt (Nat.lt_of_le_of_lt first.request.1 first.request.2)
      exact ⟨⟨Nat.le_trans hminted later.request.1, later.request.2⟩,
        ⟨Nat.le_trans hminted later.reportedAs.1, later.reportedAs.2⟩⟩

/-- In production no round is reported under the identifier of a request, its own or another's. -/
theorem Rounds.reportedAs_ne (h : i.settings.environment = .production)
    (made : Rounds i services setting count attempt batch c rounds result last) :
    ∀ round ∈ rounds, ∀ other ∈ rounds, round.reportedAs ≠ other.request.id := by
  induction made with
  | done => exact fun _ hround => nomatch hround
  | failed opened =>
    subst opened
    intro round hround other hother
    cases List.mem_singleton.1 hround
    cases List.mem_singleton.1 hother
    exact i.reportedAs_ne services setting _ _ _ h
  | @fetched _ attempt batch c _ _ _ _ _ opened _ made ih =>
    subst opened
    have first := i.round_mints services setting attempt batch c
    intro round hround other hother
    rcases List.mem_cons.1 hround with rfl | hlater <;>
      rcases List.mem_cons.1 hother with rfl | hother
    · exact i.reportedAs_ne services setting _ _ _ h
    · intro same
      have below := first.reportedAs.2
      rw [same] at below
      exact absurd (made.mints other hother).request.1 (Nat.not_le_of_lt below)
    · intro same
      have below := first.request.2
      rw [← same] at below
      exact absurd (made.mints round hlater).reportedAs.1 (Nat.not_le_of_lt below)
    · exact ih round hlater other hother

end Rounds

/-- The events of a batch mirror its outcomes. Each outcome is that of an attestation that was taken
up, told by its place, and unless a task is lost all that were taken up have one. A verification is
reported if and only if it failed in its full validation, under the identifier of its batch. In
every round of an invocation this is the identifier of its request, or in production one that no
request has. -/
theorem events_mirror_outcomes :
    (∀ {plan : BatchPlan} {others items c b h result},
      (∀ c next, others c next → next.log = c.log) →
      Batch.Run plan others (plan.begin items c) b h → b.result? = some result →
      ∃ events ends, c.Emits events b.client ∧ Batch.Mirrors plan.job result events ends ∧
        (ends.map (·.place)).Nodup ∧
        (∀ e ∈ ends, h.taken[e.place]? = some e.task.attestation) ∧
        ∀ fetched saved, result = .ok (fetched, saved) → h.panics = 0 →
          h.taken = (Batch.attestations items).take plan.most ∧
            (ends.map (·.place)).Perm (List.range h.taken.length)) ∧
      (∀ {job : Assignment} (e : Ending job),
        (e.report?.isSome = true ↔ e.task.Fails job e.outcome) ∧
          ∀ metric, e.report? = some metric → metric.request = job.reportedAs) ∧
      ∀ (i : Invocation) services setting workload c,
        Workload.derive? i.pipeline = some workload → i.prepare workload c = .ok setting →
        ∃ rounds, Rounds i services setting (i.selection.range i.limits.batches).count 0
            (i.selection.range i.limits.batches).first c rounds (i.run services c).1
            (i.run services c).2 ∧
          (∀ round ∈ rounds, round.Tells) ∧
          (i.settings.environment ≠ .production →
            ∀ round ∈ rounds, round.reportedAs = round.request.id) ∧
          (i.settings.environment = .production →
            ∀ round ∈ rounds, ∀ other ∈ rounds, round.reportedAs ≠ other.request.id) := by
  refine ⟨?_, ?_, ?_⟩
  · intro plan others items c b h result quiet run ended
    obtain ⟨ends, mirrored⟩ := run.mirrored quiet
    refine ⟨_, ends, mirrored.events, mirrored.mirrors run ended,
      (List.nodup_append.1 mirrored.distinct).2.1, mirrored.ended, ?_⟩
    rintro fetched saved rfl kept
    exact ⟨(run.labels_perm ended kept).1, run.places_perm mirrored ended kept⟩
  · intro job e
    refine ⟨e.ends.isSome_report_iff, ?_⟩
    intro metric hmetric
    have ends := e.ends
    rw [hmetric] at ends
    exact ends.report_eq.1
  · intro i services setting workload c derived prepared
    rw [run_eq_fetchBatches c derived prepared]
    obtain ⟨rounds, made⟩ := i.exists_rounds services setting
      (i.selection.range i.limits.batches).count 0 (i.selection.range i.limits.batches).first c
    refine ⟨rounds, made, made.forall_mem (i.round_tells services setting), ?_, ?_⟩
    · intro shared
      exact made.forall_mem fun attempt batch c =>
        i.reportedAs_eq services setting attempt batch c shared
    · intro separate
      exact made.reportedAs_ne separate

section Sorted

open Batch

/-- A verifier that cannot read one of three attestations and rejects another. -/
def sortingPlan : BatchPlan :=
  { samplePlan 3 with
    job := { sampleJob with
      reportedAs := ⟨1⟩
      verifier := VerifierLists.verifier ⟨["x"], [], [], ["m"], .empty, none⟩ } }

def rejection : VerificationError := .rejected "measurement mismatch for m"

def rejectionReport : FailureMetric :=
  ⟨⟨1⟩, .epoch, sampleJob.reporting, "m", rejection.publicName, 0⟩

def sortedNodes : List Outcome :=
  [⟨"x", "1.0", "release", .invalid (.malformed "unreadable bundle for x"), false, none⟩,
    ⟨"m", "1.0", "release", .invalid rejection, false, none⟩, sampleOutcome "n"]

def productionInvocation : Invocation :=
  sampleInvocation { Settings.initial with environment := .production } ⟨none, some 2, none⟩

/-- Two attestations are invalid, but only of one has the full validation failed. In production two
batches are reported under identifiers of which neither is that of a request. -/
theorem events_mirror_outcomes_of_three :
    ∃ b h ends, Run sortingPlan (fun c next => next = c.pass 1)
        (sortingPlan.begin [sampleAttestation "x", sampleAttestation "m", sampleAttestation "n"]
          sampleClient) b h ∧
      Mirrors sortingPlan.job (.ok (⟨⟨0⟩, sortedNodes⟩, 1))
        [.validationFailed rejectionReport, .nodesReceived ["uid-n"] .prefetch] ends ∧
      (ends.map (·.place)).Perm [0, 1, 2] ∧
      ∃ setting rounds batches last,
        Rounds productionInvocation (sampleServices [sampleResponse "n"]) setting 2 0 0 sampleClient
          rounds (.ok batches) last ∧
        batches.length = 2 ∧
        ∀ round ∈ rounds, ∀ other ∈ rounds, round.reportedAs ≠ other.request.id := by
  have fresh : Run sortingPlan (fun c next => next = c.pass 1)
      (sortingPlan.begin [sampleAttestation "x", sampleAttestation "m", sampleAttestation "n"]
        sampleClient) _ .empty := .start
  obtain ⟨b, h, run, seen⟩ := fresh.play
    [.receive, .receive, .receive, .receive, .step 0, .step 0, .step 0, .step 0, .step 0, .step 0,
      .step 0, .step 0, .step 0, .step 0, .step 0, .collect, .collect, .collect, .proceed]
    (fun last => (last.1.result?, last.2.panics, last.2.taken.length,
      last.1.client.log.filterMap Action.event?))
    (some (.ok (⟨⟨0⟩, sortedNodes⟩, 1)), 0, 3,
      [.validationFailed rejectionReport, .nodesReceived ["uid-n"] .prefetch]) (by rfl)
  simp only [Prod.mk.injEq] at seen
  obtain ⟨result, kept, taken, emitted⟩ := seen
  obtain ⟨events, ends, ⟨actions, hlog, hevents⟩, mirrors, -, -, whole⟩ :=
    events_mirror_outcomes.1 (by rintro c _ rfl; rfl) run result
  obtain ⟨-, places⟩ := whole _ _ rfl kept
  rw [hlog, show sampleClient.log = [] from rfl, List.nil_append, hevents] at emitted
  rw [emitted] at mirrors
  rw [taken] at places
  have derived : Workload.derive? productionInvocation.pipeline = some sampleJob.workload := by rfl
  obtain ⟨setting, prepared⟩ : ∃ setting,
      productionInvocation.prepare sampleJob.workload sampleClient = .ok setting := ⟨_, rfl⟩
  obtain ⟨batches, two, fetched⟩ : ∃ batches, batches.length = 2 ∧
      (productionInvocation.run (sampleServices [sampleResponse "n"]) sampleClient).1 =
        .ok batches := ⟨_, rfl, rfl⟩
  obtain ⟨rounds, made, -, -, separate⟩ :=
    events_mirror_outcomes.2.2 productionInvocation (sampleServices [sampleResponse "n"]) _ _ _
      derived prepared
  rw [fetched] at made
  exact ⟨b, h, ends, run, mirrors, places, setting, rounds, batches, _, made, two, separate rfl⟩

end Sorted

end Invocation

end NodeAttestation
