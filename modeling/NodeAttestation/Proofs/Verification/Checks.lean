import NodeAttestation.Proofs.Verification.Transition

/-!
# Checking an expiry

What a verifier has validated is checked once: the span from the time on the clock to its expiry
decides whether it is saved or thrown away.
-/

namespace NodeAttestation

/-- What has been validated, and what the clock told when its expiry was checked. -/
structure Check where
  validated : Validated
  now : Instant

def Check.span (check : Check) : Span := check.validated.expiry.sub check.now

/-- An outcome is in line with the checks that its task has made. -/
structure Outcome.Complies (o : Outcome) (checks : List Check) : Prop where
  valid : ∀ key expiry, o.finding = .valid key expiry →
    ∃ check, checks = [check] ∧ check.validated.expiry = expiry ∧ check.span ≤ longestValidity
  rejected : o.finding = .expiryTooLarge →
    ∃ check, checks = [check] ∧ longestValidity < check.span
  overlong : ∀ check ∈ checks, longestValidity < check.span → o.finding = .expiryTooLarge
  accepted : ∀ check ∈ checks, check.span ≤ longestValidity →
    o.finding = .alreadyInBatch ∨
      o.finding = .valid check.validated.publicKey check.validated.expiry

namespace Task

/-- The check that is made in the next step of a task. -/
def check? (task : Task) (c : Client) : Option Check :=
  match task.stage with
  | .validated v => if v.node.isSome then c.now?.map fun now => ⟨v, now⟩ else none
  | _ => none

/-- How far a task can have come from where it was taken up, with the checks it has made. Its steps
are made on clients of a certain kind. -/
inductive Course (job : Assignment) (met : Client → Prop) : Task → List Check → Prop
  | submitted {task : Task} (stage : task.stage = .submitted) : Course job met task []
  | step {task : Task} {checks : List Check} {timer : Nat} {stage : Stage} {c next : Client}
      (course : Course job met task checks) (meets : met c)
      (transition : task.Transition job timer c (.going stage) next) :
      Course job met { task with stage := stage } (checks ++ (task.check? c).toList)

/-- What a task can come to in the end, with the checks it has made. -/
inductive Reports (job : Assignment) (met : Client → Prop) (o : Outcome) : List Check → Prop
  | finished {task : Task} {checks : List Check} {timer : Nat} {c next : Client}
      (course : Course job met task checks) (meets : met c)
      (transition : task.Transition job timer c (.finished (some o)) next) :
      Reports job met o (checks ++ (task.check? c).toList)

/-- Only what has been approved has been checked, and was not found too long. -/
def Stage.Passed (checks : List Check) : Stage → Prop
  | .approved v _ => ∃ now, checks = [⟨v, now⟩] ∧ tooLong v now = false
  | _ => checks = []

section Spans

variable {v : Validated} {now : Instant}

theorem span_le_of_not_tooLong (h : tooLong v now = false) :
    (Check.mk v now).span ≤ longestValidity := by
  rw [tooLong, decide_eq_false_iff_not] at h
  exact Int.not_lt.1 h

theorem lt_span_of_tooLong (h : tooLong v now = true) :
    longestValidity < (Check.mk v now).span := by
  rwa [tooLong, decide_eq_true_iff] at h

end Spans

section Courses

variable {job : Assignment} {met : Client → Prop} {task : Task} {checks : List Check} {timer : Nat}
  {c next : Client}

theorem check?_of_validated {v : Validated} {node : String} {now : Instant}
    (stage : task.stage = .validated v) (named : v.node = some node) (clock : c.now? = some now) :
    task.check? c = some ⟨v, now⟩ := by
  rw [check?, stage]
  dsimp only
  rw [named, clock]
  rfl

theorem Transition.passed {stage : Stage} (passed : task.stage.Passed checks)
    (transition : task.Transition job timer c (.going stage) next) :
    stage.Passed (checks ++ (task.check? c).toList) := by
  generalize hp : Progress.going stage = progress at transition
  cases transition with
  | identified hstage | known hstage | unknown hstage | begun hstage | slept hstage | woken hstage
  | accepted hstage =>
    cases hp
    have unchecked : task.check? c = none := by rw [check?, hstage]
    rw [hstage] at passed
    rw [unchecked, Option.toList_none, List.append_nil]
    exact passed
  -- Only here a check is made, and it is the first.
  | @approved v node now hstage named clock short =>
    cases hp
    rw [hstage] at passed
    obtain rfl : checks = [] := passed
    rw [check?_of_validated hstage named clock]
    exact ⟨now, rfl, short⟩
  | tracked => exact absurd hp.symm (onTracked_ne_going _ _ _ _)
  | saved => exact absurd hp.symm (onSaved_ne_going _ _ _ _ _)
  | _ => cases hp

theorem Course.passed (course : Course job met task checks) : task.stage.Passed checks := by
  induction course with
  | submitted stage =>
    rw [stage]
    rfl
  | step _ _ transition ih => exact transition.passed ih

end Courses

section Complying

variable {job : Assignment} {met : Client → Prop} {task : Task} {checks : List Check} {timer : Nat}
  {c next : Client} {o : Outcome}

theorem complies_of_unchecked (valid : ∀ key expiry, o.finding ≠ .valid key expiry)
    (rejected : o.finding ≠ .expiryTooLarge) : o.Complies [] where
  valid key expiry h := absurd h (valid key expiry)
  rejected h := absurd h rejected
  overlong _ hcheck := nomatch hcheck
  accepted _ hcheck := nomatch hcheck

theorem complies_of_overlong {check : Check} (h : longestValidity < check.span)
    (finding : o.finding = .expiryTooLarge) : o.Complies [check] where
  valid key expiry hvalid := by
    rw [finding] at hvalid
    cases hvalid
  rejected _ := ⟨check, rfl, h⟩
  overlong _ _ _ := finding
  accepted other hother hshort := by
    cases List.mem_singleton.1 hother
    exact absurd h (Int.not_lt.2 hshort)

theorem complies_of_short {check : Check} (h : check.span ≤ longestValidity)
    (finding : o.finding = .alreadyInBatch ∨
      o.finding = .valid check.validated.publicKey check.validated.expiry) :
    o.Complies [check] where
  valid key expiry hvalid := by
    rcases finding with already | valid
    · rw [already] at hvalid
      cases hvalid
    · rw [valid] at hvalid
      cases hvalid
      exact ⟨check, rfl, rfl, h⟩
  rejected hrejected := by
    rcases finding with already | valid
    · rw [already] at hrejected
      cases hrejected
    · rw [valid] at hrejected
      cases hrejected
  overlong other hother hlong := by
    cases List.mem_singleton.1 hother
    exact absurd hlong (Int.not_lt.2 h)
  accepted other hother _ := by
    cases List.mem_singleton.1 hother
    exact finding

theorem finding_of_onSaved {v : Validated} {node : String} {outcome : SaveOutcome}
    (h : task.onSaved v node outcome = .finished (some o)) :
    o.finding = .alreadyInBatch ∨ o.finding = .valid v.publicKey v.expiry := by
  cases outcome with
  | saved | rejected =>
    cases h
    exact .inr rfl
  | alreadyTracked =>
    cases h
    exact .inl rfl

theorem Transition.complies (passed : task.stage.Passed checks)
    (transition : task.Transition job timer c (.finished (some o)) next) :
    o.Complies (checks ++ (task.check? c).toList) := by
  generalize hp : Progress.finished (some o) = progress at transition
  cases transition with
  | nameless hstage | unidentified hstage | refused hstage =>
    cases hp
    have unchecked : task.check? c = none := by rw [check?, hstage]
    rw [hstage] at passed
    obtain rfl : checks = [] := passed
    rw [unchecked]
    exact complies_of_unchecked (by rintro _ _ ⟨⟩) (by rintro ⟨⟩)
  | anonymous hstage unnamed =>
    cases hp
    have unchecked : task.check? c = none := by
      rw [check?, hstage]
      dsimp only
      rw [unnamed]
      rfl
    rw [hstage] at passed
    obtain rfl : checks = [] := passed
    rw [unchecked]
    exact complies_of_unchecked (by rintro _ _ ⟨⟩) (by rintro ⟨⟩)
  | tracked hstage =>
    have unchecked : task.check? c = none := by rw [check?, hstage]
    rw [hstage] at passed
    obtain rfl : checks = [] := passed
    rw [unchecked]
    rw [onTracked] at hp
    split at hp
    all_goals
      cases hp
      exact complies_of_unchecked (by rintro _ _ ⟨⟩) (by rintro ⟨⟩)
  | @overlong v node now hstage named clock long =>
    cases hp
    rw [hstage] at passed
    obtain rfl : checks = [] := passed
    rw [check?_of_validated hstage named clock]
    exact complies_of_overlong (lt_span_of_tooLong long) rfl
  | @saved v node hstage =>
    have unchecked : task.check? c = none := by rw [check?, hstage]
    rw [hstage] at passed
    obtain ⟨now, rfl, short⟩ := passed
    rw [unchecked]
    exact complies_of_short (span_le_of_not_tooLong short) (finding_of_onSaved hp.symm)
  | _ => cases hp

/-- Whatever a task meets on its way, its outcome is in line with its checks. -/
theorem Reports.complies (reports : Reports job met o checks) : o.Complies checks := by
  cases reports with
  | finished course _ transition => exact transition.complies course.passed

end Complying

end Task

end NodeAttestation
