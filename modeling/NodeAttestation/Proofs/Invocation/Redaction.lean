import NodeAttestation.Invocation
import NodeAttestation.Proofs.Batch.Redaction
import NodeAttestation.Proofs.Batch.Run
import NodeAttestation.Proofs.Verification.Ending

/-!
# Reasons of refusals stay within the client

Two verifiers that differ in nothing but the reasons that they give for refusing attestations cannot
be told apart by what the client does: it makes the same requests, reports the same events, asks the
same of its limiter and leaves the same cache. The reasons are found in the outcomes alone.
-/

namespace NodeAttestation

def Services.redacted (services : Services) : Services :=
  { services with verifier := services.verifier.redacted }

namespace Invocation

def Result.redacted (result : Result) : Result := result.map (·.map FetchedBatch.redacted)

variable {services : Services}

theorem fetchBatch_redacted (blind : services.schedule.IsBlind) (i : Invocation)
    (setting : Setting) (attempt batch : Nat) (c : Client) :
    i.fetchBatch services.redacted setting attempt batch c =
      ((i.fetchBatch services setting attempt batch c).1.redacted,
        (i.fetchBatch services setting attempt batch c).2) :=
  BatchPlan.fetch_redacted blind (i.plan services.verifier setting _ _ batch) _ _ _

theorem fetchBatches_redacted (blind : services.schedule.IsBlind) (i : Invocation)
    (setting : Setting) (count attempt batch : Nat) (c : Client) :
    i.fetchBatches services.redacted setting count attempt batch c =
      ((i.fetchBatches services setting count attempt batch c).1.redacted,
        (i.fetchBatches services setting count attempt batch c).2) := by
  induction count generalizing attempt batch c with
  | zero => rfl
  | succ count ih =>
    rw [fetchBatches, fetchBatches, fetchBatch_redacted blind]
    obtain ⟨result, next⟩ := i.fetchBatch services setting attempt batch c
    cases result with
    | error failure => rfl
    | ok fetched =>
      simp only [Batch.Result.redacted, Except.map, ih]
      obtain ⟨rest, last⟩ := i.fetchBatches services setting count (attempt + 1) (batch + 1) next
      cases rest <;> rfl

theorem run_redacted (blind : services.schedule.IsBlind) (i : Invocation) (c : Client) :
    i.run services.redacted c =
      ((i.run services c).1.redacted, (i.run services c).2) := by
  rw [run, run]
  cases Workload.derive? i.pipeline with
  | none => rfl
  | some workload =>
    dsimp only
    cases i.prepare workload c with
    | error failure => rfl
    | ok setting => exact fetchBatches_redacted blind i setting _ _ _ c

/-- Invocations with the same services but for the reasons of refusals leave the same client, with
the same log of requests, events and limits, and give the same result but for these reasons. -/
theorem run_eq_of_redacted_eq {s t : Services} (same : s.redacted = t.redacted)
    (blind : s.schedule.IsBlind) (i : Invocation) (c : Client) :
    (i.run s c).2 = (i.run t c).2 ∧ (i.run s c).1.redacted = (i.run t c).1.redacted := by
  have schedules : s.redacted.schedule = t.redacted.schedule := congrArg Services.schedule same
  have blindToo : t.schedule.IsBlind := schedules.subst blind
  have left := run_redacted blind i c
  have right := run_redacted blindToo i c
  rw [← same, left] at right
  exact (Prod.mk.inj right).symm

section Reasons

open Batch

/-- Cannot read the attestation of one node and finds that of another expired. -/
def reasoning (reason : String) (since : Instant) : Verifier := .scripted fun a =>
  { VerifierLists.script ⟨[], [], [], [], .empty, none⟩ a with
    identityError := if a.node = "x" then some (.malformed reason) else none
    error := if a.node = "m" then some (.expired since) else none }

theorem redacted_ruling {α : Type} (millis : Nat) (crashes : Bool)
    (error : Option VerificationError) (value : Option α) :
    (VerifierScript.ruling millis crashes error value).redacted =
      VerifierScript.ruling millis crashes (error.map VerificationError.redacted) value := by
  cases crashes <;> cases error <;> cases value <;> rfl

theorem redacted_reasoning (reason other : String) (since sooner : Instant) :
    (reasoning reason since).redacted = (reasoning other sooner).redacted := by
  rw [Verifier.redacted, Verifier.redacted, Verifier.mk.injEq]
  refine ⟨?_, ?_⟩
  · funext task a workload
    refine (redacted_ruling ..).trans (.trans ?_ (redacted_ruling ..).symm)
    simp only [apply_ite, Option.map_some, VerificationError.redacted]
  · funext task a workload
    refine congrArg (Validation.mk none) (funext fun now? => ?_)
    cases now? with
    | none => rfl
    | some now =>
      refine (redacted_ruling ..).trans (.trans ?_ (redacted_ruling ..).symm)
      simp only [apply_ite, Option.map_some, VerificationError.redacted]
      rfl

def reasoningServices (reason : String) (since : Instant) : Services :=
  { sampleServices [sampleResponse "x", sampleResponse "m", sampleResponse "n"] with
    verifier := reasoning reason since }

def reasoned (reason : String) (since : Instant) : List Outcome :=
  [⟨"x", "1.0", "release", .invalid (.malformed reason), false, none⟩,
    ⟨"m", "1.0", "release", .invalid (.expired since), false, none⟩, sampleOutcome "n"]

def reasoningInvocation : Invocation := sampleInvocation .initial ⟨none, some 1, none⟩

def reasonedEvents : List Event :=
  [.validationFailed
      ⟨⟨1⟩, .epoch, reasoningInvocation.reporting ⟨none, backgroundFeature⟩, "m",
        "verification.expired", 0⟩,
    .nodesReceived ["uid-n"] .prefetch]

/-- The outcomes give the reason why an attestation is invalid. Both runs report the same. -/
theorem run_eq_of_redacted_eq_of_reasons :
    (reasoningServices "truncated" sampleExpiry).redacted =
        (reasoningServices "" .epoch).redacted ∧
      Schedule.inTurn.IsBlind ∧
      (reasoningInvocation.run (reasoningServices "truncated" sampleExpiry) sampleClient).1 =
        .ok [⟨⟨0⟩, reasoned "truncated" sampleExpiry⟩] ∧
      (reasoningInvocation.run (reasoningServices "" .epoch) sampleClient).1.redacted =
        .ok [FetchedBatch.redacted ⟨⟨0⟩, reasoned "truncated" sampleExpiry⟩] ∧
      (reasoningInvocation.run (reasoningServices "" .epoch) sampleClient).2.log.filterMap
        Action.event? = reasonedEvents := by
  have same : (reasoningServices "truncated" sampleExpiry).redacted =
      (reasoningServices "" .epoch).redacted :=
    congrArg (Services.mk _ · _) (redacted_reasoning ..)
  have found : (reasoningInvocation.run (reasoningServices "truncated" sampleExpiry)
      sampleClient).1 = .ok [⟨⟨0⟩, reasoned "truncated" sampleExpiry⟩] := by rfl
  have told : (reasoningInvocation.run (reasoningServices "truncated" sampleExpiry)
      sampleClient).2.log.filterMap Action.event? = reasonedEvents := by rfl
  obtain ⟨clients, results⟩ :=
    run_eq_of_redacted_eq same Schedule.isBlind_inTurn reasoningInvocation sampleClient
  rw [clients] at told
  rw [found] at results
  exact ⟨same, Schedule.isBlind_inTurn, found, results.symm, told⟩

end Reasons

end Invocation

end NodeAttestation
