import NodeAttestation.Verification.Task

/-!
# Verification with the reasons of refusals left out

Redacting keeps which kind of error a verifier refuses an attestation with, and drops the reason.
What a verification does to the client is the same for the redacted verifier, and its outcome is the
redacted outcome.
-/

namespace NodeAttestation

namespace VerificationError

/-- The error with nothing but its kind. -/
def redacted : VerificationError → VerificationError
  | malformed _ => malformed ""
  | rejected _ => rejected ""
  | expired _ => expired .epoch
  | unavailable _ => unavailable ""

@[simp]
theorem publicName_redacted (error : VerificationError) :
    error.redacted.publicName = error.publicName := by
  cases error <;> rfl

end VerificationError

def Verdict.redacted {α : Type} : Verdict α → Verdict α
  | accepted value => accepted value
  | refused error => refused error.redacted
  | crashed => crashed

def Ruling.redacted {α : Type} (ruling : Ruling α) : Ruling α :=
  { ruling with verdict := ruling.verdict.redacted }

def Validation.redacted (validation : Validation) : Validation :=
  { validation with rule := fun now? => (validation.rule now?).redacted }

def Verifier.redacted (verifier : Verifier) : Verifier where
  identify task a workload := (verifier.identify task a workload).redacted
  validate task a workload := (verifier.validate task a workload).redacted

def Assignment.redacted (job : Assignment) : Assignment :=
  { job with verifier := job.verifier.redacted }

def Finding.redacted : Finding → Finding
  | invalid error => invalid error.redacted
  | finding => finding

def Outcome.redacted (outcome : Outcome) : Outcome :=
  { outcome with finding := outcome.finding.redacted }

namespace Task

def Progress.redacted : Progress → Progress
  | going stage => going stage
  | finished outcome => finished (outcome.map Outcome.redacted)

theorem onIdentity_redacted (task : Task) (verdict : Verdict (Option String)) :
    task.onIdentity verdict.redacted = (task.onIdentity verdict).redacted := by
  cases verdict with
  | accepted node => cases node <;> rfl
  | refused error => rfl
  | crashed => rfl

theorem identify_redacted (job : Assignment) (task : Task) (c : Client) :
    task.identify job.redacted c =
      ((task.identify job c).1.redacted, (task.identify job c).2) :=
  Prod.ext (onIdentity_redacted task _) rfl

theorem lookUp_redacted (node : String) (c : Client) :
    (lookUp node c).1.redacted = (lookUp node c).1 := by
  rw [lookUp]
  cases c.now? <;> rfl

theorem onTracked_redacted (task : Task) (node : String) (already : Bool) :
    (task.onTracked node already).redacted = task.onTracked node already := by
  cases already <;> rfl

theorem onVerdict_redacted (job : Assignment) (task : Task) (since : Nat) (c : Client)
    (verdict : Verdict Validated) :
    task.onVerdict job.redacted since c verdict.redacted =
      ((task.onVerdict job since c verdict).1.redacted,
        (task.onVerdict job since c verdict).2) := by
  cases verdict with
  | accepted v => rfl
  | refused error =>
    rw [Verdict.redacted, onVerdict, onVerdict]
    cases c.now? with
    | none => rfl
    | some now =>
      -- the report only gives the public name of the error
      simp only [failure, VerificationError.publicName_redacted]
      rfl
  | crashed => rfl

theorem approve_redacted (task : Task) (v : Validated) (now? : Option Instant) :
    (task.approve v now?).redacted = task.approve v now? := by
  rw [approve]
  cases v.node with
  | none => rfl
  | some node =>
    cases now? with
    | none => rfl
    | some now =>
      dsimp only
      split <;> rfl

theorem onSaved_redacted (task : Task) (v : Validated) (node : String) (outcome : SaveOutcome) :
    (task.onSaved v node outcome).redacted = task.onSaved v node outcome := by
  cases outcome <;> rfl

/-- A step of the redacted verification leaves the same client and leads to the same thing, but for
the reason in an outcome. -/
theorem step_redacted (job : Assignment) (timer : Nat) (task : Task) (c : Client) :
    task.step job.redacted timer c =
      ((task.step job timer c).1.redacted, (task.step job timer c).2) := by
  rw [step, step]
  cases task.stage with
  | submitted => exact identify_redacted job task c
  | identified node => exact Prod.ext (lookUp_redacted node c).symm rfl
  | known node => exact Prod.ext (onTracked_redacted task node _).symm rfl
  | unknown => rfl
  | asleep since wake => rfl
  | validating since => exact onVerdict_redacted job task since _ _
  | validated v => exact Prod.ext (approve_redacted task v _).symm rfl
  | approved v node => exact Prod.ext (onSaved_redacted task v node _).symm rfl

end Task

end NodeAttestation
