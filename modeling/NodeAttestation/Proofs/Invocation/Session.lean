import NodeAttestation.Proofs.Batch.Validity
import NodeAttestation.Proofs.Invocation.Rounds

/-!
# The cache over the life of a client

A client starts with an empty cache and is used for one invocation after another. At every moment
of that, no record is valid for longer than two days from the time on the clock.
-/

namespace NodeAttestation

/-- What a client can have become, in the middle of a batch or not, and the outcomes by then, each
with what its task was assigned. A batch can be left wherever it stands. -/
inductive Session : Client → List (Assignment × Outcome) → Prop
  | start {c : Client} (empty : c.cache = .empty) : Session c []
  | idle {c next : Client} {os : List (Assignment × Outcome)} (session : Session c os)
      (idles : c.Idles next) : Session next os
  | fetching {c : Client} {os : List (Assignment × Outcome)} {plan : BatchPlan}
      {messages : List (Frame.Item Response)} {b : Batch} {h : Batch.History}
      (session : Session c os) (run : Batch.Run plan Client.Idles (plan.begin messages c) b h) :
      Session b.client (os ++ b.outcomes.map (plan.job, ·))

namespace Session

/-- The client at some moment of a session. -/
def Met (c : Client) : Prop := ∃ os, Session c os

section Sessions

variable {c next : Client} {os : List (Assignment × Outcome)} {job : Assignment} {o : Outcome}

theorem isBounded (session : Session c os) : c.IsBounded := by
  induction session with
  | start empty => exact Client.isBounded_of_empty empty
  | idle _ idles bounded => exact bounded.idle idles
  | fetching _ run bounded => exact (run.isBounded (Batch.isBounded_begin _ bounded)).client

theorem exists_reports (session : Session c os) (h : (job, o) ∈ os) :
    ∃ checks, Task.Reports job Met o checks := by
  induction session with
  | start => cases h
  | idle _ _ ih => exact ih h
  | @fetching _ _ plan _ _ _ session run ih =>
    rcases List.mem_append.1 h with hold | hnew
    · exact ih hold
    · have traced : Batch.IsTraced plan Met _ := run.isTraced fun b h run =>
        ⟨_, session.fetching run⟩
      obtain ⟨outcome, houtcome, heq⟩ := List.mem_map.1 hnew
      cases heq
      exact traced.outcomes o houtcome

end Sessions

section Invocations

variable {c next : Client} {os : List (Assignment × Outcome)} {verifier : Verifier}

/-- A session goes on to a client, and the nodes of a result are among the outcomes added: those of
a batch with what the tasks of its request were assigned. -/
def GoesOn (verifier : Verifier) (os : List (Assignment × Outcome)) (next : Client)
    (result : Invocation.Result) : Prop :=
  ∃ more, Session next (os ++ more) ∧
    ∀ batches, result = .ok batches → ∀ batch ∈ batches, ∃ job : Assignment,
      job.request = batch.id ∧ job.verifier = verifier ∧ ∀ o ∈ batch.nodes, (job, o) ∈ more

theorem goesOn_of_idles {result : Invocation.Result} (session : Session c os)
    (idles : c.Idles next) (none : ∀ batches, result = .ok batches → batches = []) :
    GoesOn verifier os next result := by
  refine ⟨[], ?_, ?_⟩
  · rw [List.append_nil]
    exact session.idle idles
  · intro batches ended batch hbatch
    rw [none batches ended] at hbatch
    cases hbatch

theorem GoesOn.cons {batch : FetchedBatch} {last : Client} {rest : Invocation.Result}
    (first : GoesOn verifier os next (.ok [batch]))
    (later : ∀ os, Session next os → GoesOn verifier os last rest) :
    GoesOn verifier os last (rest.map (batch :: ·)) := by
  obtain ⟨more, session, nodes⟩ := first
  obtain ⟨others, session, otherNodes⟩ := later _ session
  refine ⟨more ++ others, ?_, ?_⟩
  · rwa [← List.append_assoc]
  · intro batches ended other hother
    cases rest with
    | error failure => cases ended
    | ok batches =>
      cases ended
      rcases List.mem_cons.1 hother with rfl | hlater
      · obtain ⟨job, hid, hverifier, hnodes⟩ := nodes _ rfl other (List.mem_singleton_self other)
        exact ⟨job, hid, hverifier, fun o ho => List.mem_append_left _ (hnodes o ho)⟩
      · obtain ⟨job, hid, hverifier, hnodes⟩ := otherNodes _ rfl other hlater
        exact ⟨job, hid, hverifier, fun o ho => List.mem_append_right _ (hnodes o ho)⟩

theorem goesOn_of_fetches {plan : BatchPlan} {request : Request} {result : Batch.Result}
    (session : Session c os) (fetches : plan.Fetches request c result next) :
    GoesOn plan.job.verifier os next (result.map fun fetched => [fetched.1]) := by
  cases fetches with
  | unconnected | interrupted | declined =>
    refine goesOn_of_idles session ⟨rfl, Int.le_refl _⟩ ?_
    intro batches ended
    cases ended
  | @processed messages last _ _ run ended =>
    have asked : Session ((c.record (.connecting plan.job.request)).record (.requested request))
        os := session.idle ⟨rfl, Int.le_refl _⟩
    refine ⟨_, asked.fetching (run.mono fun _ _ => Client.idles_of_passed), ?_⟩
    intro batches hbatches batch hbatch
    cases result with
    | error failure => cases hbatches
    | ok fetched =>
      cases hbatches
      cases List.mem_singleton.1 hbatch
      obtain ⟨-, -, -, rfl⟩ := run.fetched_eq rfl ended
      refine ⟨plan.job, rfl, rfl, ?_⟩
      intro o ho
      exact List.mem_map.2 ⟨o, List.mem_append_left _ ho, rfl⟩

theorem goesOn_of_round (session : Session c os) (i : Invocation) (services : Services)
    (setting : Invocation.Setting) (attempt batch : Nat) :
    GoesOn services.verifier os (i.round services setting attempt batch c).after
      ((i.round services setting attempt batch c).result.map fun fetched => [fetched.1]) := by
  obtain ⟨minted, hminted⟩ := i.exists_minted services setting attempt batch c
  have fetches := i.round_fetches services setting attempt batch c
  rw [hminted] at fetches
  have idle : Session { c with minted := minted } os := session.idle ⟨rfl, Int.le_refl _⟩
  exact idle.goesOn_of_fetches fetches

theorem goesOn_of_rounds {i : Invocation} {services : Services} {setting : Invocation.Setting}
    {count attempt batch : Nat} {rounds : List Round} {result : Invocation.Result} {last : Client}
    (session : Session c os)
    (made : i.Rounds services setting count attempt batch c rounds result last) :
    GoesOn services.verifier os last result := by
  induction made generalizing os with
  | done =>
    refine session.goesOn_of_idles ⟨rfl, Int.le_refl _⟩ ?_
    intro batches ended
    cases ended
    rfl
  | @failed _ attempt batch _ _ _ opened failed =>
    have first := session.goesOn_of_round i services setting attempt batch
    rwa [← opened, failed] at first
  | @fetched _ attempt batch _ _ _ _ _ _ opened fetched _ ih =>
    have first := session.goesOn_of_round i services setting attempt batch
    rw [← opened, fetched] at first
    exact GoesOn.cons first fun os session => ih session

theorem goesOn_run (session : Session c os) (i : Invocation) (services : Services) :
    GoesOn services.verifier os (i.run services c).2 (i.run services c).1 := by
  have same : c.Idles c := ⟨rfl, Int.le_refl _⟩
  cases derived : Workload.derive? i.pipeline with
  | none =>
    rw [Invocation.run, derived]
    refine session.goesOn_of_idles same ?_
    intro batches ended
    cases ended
    rfl
  | some workload =>
    cases prepared : i.prepare workload c with
    | error failure =>
      rw [Invocation.run, derived]
      dsimp only
      rw [prepared]
      refine session.goesOn_of_idles same ?_
      intro batches ended
      cases ended
    | ok setting =>
      rw [Invocation.run_eq_fetchBatches c derived prepared]
      obtain ⟨rounds, made⟩ := i.exists_rounds services setting _ 0 _ c
      exact session.goesOn_of_rounds made

end Invocations

/-- At every moment of a session no record expires more than two days after the time on the clock.
Each outcome is what a task of the session has come to, with the assignment that stands beside it. A
task that has validated a node reports so only if the expiry was no further away than two days when
it was checked, and it rejects none for being too far away that was not. Any invocation is part of a
session. -/
theorem sub_le_longestValidity {c : Client} {os : List (Assignment × Outcome)}
    (session : Session c os) :
    (∀ node record now, c.cache.records.find? node = some record → c.now? = some now →
      record.expiry.sub now ≤ longestValidity) ∧
      (∀ job o, (job, o) ∈ os → ∃ checks, Task.Reports job Met o checks) ∧
      (∀ job o checks, Task.Reports job Met o checks → o.Complies checks) ∧
      ∀ (i : Invocation) services,
        GoesOn services.verifier os (i.run services c).2 (i.run services c).1 := by
  refine ⟨?_, ?_, ?_, ?_⟩
  · intro node record now found hnow
    exact session.isBounded node record found c.clock now (Int.le_refl _) hnow
  · intro job o ho
    exact session.exists_reports ho
  · intro job o checks reports
    exact reports.complies
  · exact session.goesOn_run

section TwoDays

/-- Of two nodes one is valid for two days to the nanosecond, the other for a nanosecond more. -/
def twoDayServices : Services :=
  { Batch.sampleServices [Batch.sampleResponse "a", Batch.sampleResponse "b"] with
    verifier := VerifierLists.verifier
      ⟨[], [], [], [], .ofList [("a", Span.hours 48), ("b", Span.hours 48 + 1)], none⟩ }

def twoDayInvocation : Invocation := Batch.sampleInvocation .initial ⟨none, some 1, none⟩

def hasRejected (batches : List FetchedBatch) : Bool :=
  batches.any fun batch => batch.nodes.any (·.finding == .expiryTooLarge)

theorem exists_rejected {result : Invocation.Result}
    (h : result.toOption.map hasRejected = some true) :
    ∃ batches, result = .ok batches ∧
      ∃ batch ∈ batches, ∃ o ∈ batch.nodes, o.finding = .expiryTooLarge := by
  cases result with
  | error failure => cases h
  | ok batches =>
    obtain ⟨batch, hbatch, hnodes⟩ := List.any_eq_true.1 (Option.some.inj h)
    obtain ⟨o, ho, hfinding⟩ := List.any_eq_true.1 hnodes
    exact ⟨batches, rfl, batch, hbatch, o, ho, eq_of_beq hfinding⟩

/-- The node that is valid for two days is saved, and the other one is rejected. -/
theorem sub_le_longestValidity_of_twoDays :
    ∃ os record, Session (twoDayInvocation.run twoDayServices Batch.sampleClient).2 os ∧
      (twoDayInvocation.run twoDayServices Batch.sampleClient).2.cache.records.find? "uid-a" =
        some record ∧
      record.expiry.sub .epoch = longestValidity ∧ record.expiry.sub .epoch ≤ longestValidity ∧
      ∃ job o, (job, o) ∈ os ∧ job.verifier = twoDayServices.verifier ∧
        o.finding = .expiryTooLarge ∧ ∃ checks, Task.Reports job Met o checks ∧
          ∃ check, checks = [check] ∧ longestValidity < check.span := by
  have begun : Session Batch.sampleClient [] := .start rfl
  obtain ⟨-, -, -, goesOn⟩ := sub_le_longestValidity begun
  obtain ⟨more, session, nodes⟩ := goesOn twoDayInvocation twoDayServices
  have seen : ((twoDayInvocation.run twoDayServices Batch.sampleClient).2.now?,
      ((twoDayInvocation.run twoDayServices Batch.sampleClient).2.cache.records.find? "uid-a").map
        (·.expiry.sub .epoch),
      (twoDayInvocation.run twoDayServices Batch.sampleClient).1.toOption.map hasRejected) =
      (some .epoch, some longestValidity, some true) := by decide +kernel
  generalize twoDayInvocation.run twoDayServices Batch.sampleClient = ran at session nodes seen ⊢
  rw [Prod.mk.injEq, Prod.mk.injEq] at seen
  obtain ⟨clock, span, rejected⟩ := seen
  obtain ⟨record, found, hrecord⟩ := Option.map_eq_some_iff.1 span
  obtain ⟨batches, ended, batch, hbatch, o, ho, finding⟩ := exists_rejected rejected
  obtain ⟨bounded, reported, complies, -⟩ := sub_le_longestValidity session
  obtain ⟨job, -, hverifier, hnodes⟩ := nodes batches ended batch hbatch
  obtain ⟨checks, reports⟩ := reported job o (hnodes o ho)
  exact ⟨more, record, session, found, hrecord, bounded _ record _ found clock, job, o,
    hnodes o ho, hverifier, finding, checks, reports,
    (complies job o checks reports).rejected finding⟩

end TwoDays

end Session

end NodeAttestation
