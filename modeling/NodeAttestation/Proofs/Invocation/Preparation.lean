import NodeAttestation.Proofs.Invocation.Refusal

/-!
# What keeps an invocation from being prepared

An invocation is prepared before anything is fetched. The first reason that comes up against it is
what the invocation comes to.
-/

namespace NodeAttestation

namespace Invocation

variable {i : Invocation} {services : Services} {c : Client} {w : Workload}

section Headers

variable {α β : Type} {legal later : Bool} {made : Except Error α}

/-- Something is made exactly if the values that it takes are legal. -/
inductive MadeIf : Bool → Except Error α → Prop
  | made (a : α) : MadeIf true (.ok a)
  | illegal : MadeIf false (.error .headerValue)

/-- Nothing but the value of a header can be wrong. -/
def FailsByHeader {α : Type} (made : Except Error α) : Prop :=
  ∀ e, made = .error e → e = .headerValue

theorem MadeIf.exists_iff (madeIf : MadeIf legal made) :
    (∃ a, made = .ok a) ↔ legal = true := by
  cases madeIf with
  | made a => exact iff_of_true ⟨a, rfl⟩ rfl
  | illegal =>
    refine iff_of_false ?_ Bool.false_ne_true
    rintro ⟨a, h⟩
    cases h

theorem MadeIf.eq_error_iff (madeIf : MadeIf legal made) :
    made = .error .headerValue ↔ ¬ legal = true := by
  cases madeIf with
  | made a =>
    refine iff_of_false ?_ (not_not_intro rfl)
    intro h
    cases h
  | illegal => exact iff_of_true rfl Bool.false_ne_true

theorem MadeIf.failsByHeader (madeIf : MadeIf legal made) : FailsByHeader made := by
  intro e failed
  cases madeIf with
  | made a => cases failed
  | illegal => exact (Except.error.inj failed).symm

theorem MadeIf.bind {next : α → Except Error β} (first : MadeIf legal made)
    (rest : ∀ a, MadeIf later (next a)) : MadeIf (legal && later) (made >>= next) := by
  cases first with
  | made a => exact rest a
  | illegal => exact .illegal

theorem madeIf_put (headers : Headers) (name value : String) :
    MadeIf (Headers.isLegalValue value) (headers.put name value) := by
  rw [Headers.put]
  cases Headers.isLegalValue value with
  | true => exact .made _
  | false => exact .illegal

theorem madeIf_putOption (headers : Headers) (name : String) (value : Option String) :
    MadeIf (value.toList.all Headers.isLegalValue) (headers.putOption name value) := by
  cases value with
  | none => exact .made _
  | some value =>
    rw [Option.toList_some, List.all_cons, List.all_nil, Bool.and_true]
    exact madeIf_put headers name value

/-- What stands in the headers besides the arguments and the texts that are always the same. -/
def otherValues (i : Invocation) (w : Workload) (caller : Caller) : List String :=
  i.host.osInfo :: w.kind :: caller.feature :: (caller.bundle.toList ++
    i.host.deviceGroup.toList ++ i.settings.testOptions.toList ++
    i.settings.overrideCell.toList ++ [i.settings.userAgent])

theorem madeIf_forced (headers : Headers) (cell : Option String) :
    MadeIf true (headers.putOption "x-server-hint-force" (cell.map fun _ => "true")) := by
  cases cell with
  | none => exact .made _
  | some cell => exact madeIf_put headers "x-server-hint-force" "true"

/-- The headers can be made if no value stands in the way. -/
theorem madeIf_headers (i : Invocation) (w : Workload) (caller : Caller) :
    MadeIf (Headers.isLegalValue w.argumentsText &&
      (i.otherValues w caller).all Headers.isLegalValue) (i.headers w caller) := by
  have chain : MadeIf (Headers.isLegalValue i.host.osInfo && (Headers.isLegalValue w.kind &&
      (Headers.isLegalValue w.argumentsText && (Headers.isLegalValue caller.feature &&
      (caller.bundle.toList.all Headers.isLegalValue &&
      (i.host.deviceGroup.toList.all Headers.isLegalValue &&
      (i.settings.testOptions.toList.all Headers.isLegalValue &&
      (i.settings.overrideCell.toList.all Headers.isLegalValue &&
      (true && (true && Headers.isLegalValue i.settings.userAgent))))))))))
      (i.headers w caller) := by
    refine (madeIf_put _ _ _).bind fun _ => ?_
    refine (madeIf_put _ _ _).bind fun _ => ?_
    refine (madeIf_put _ _ _).bind fun _ => ?_
    refine (madeIf_put _ _ _).bind fun _ => ?_
    refine (madeIf_putOption _ _ _).bind fun _ => ?_
    refine (madeIf_putOption _ _ _).bind fun _ => ?_
    refine (madeIf_putOption _ _ _).bind fun _ => ?_
    refine (madeIf_putOption _ _ _).bind fun _ => ?_
    refine (madeIf_forced _ _).bind fun _ => ?_
    refine (madeIf_put _ _ "application/x-protobuf").bind fun _ => ?_
    exact madeIf_put _ _ _
  rw [Bool.and_left_comm (Headers.isLegalValue w.kind),
    Bool.and_left_comm (Headers.isLegalValue i.host.osInfo)] at chain
  simpa only [otherValues, List.all_cons, List.all_append, List.all_nil, Bool.true_and,
    Bool.and_true, Bool.and_assoc] using chain

end Headers

section Reasons

theorem caller_ne_attestationsExist (i : Invocation) :
    i.caller ≠ .error .attestationsExist := by
  rw [caller]
  split
  · exact fun failed => nomatch failed
  · split <;> exact fun failed => nomatch failed

theorem checkCold_ne_headerValue (i : Invocation) (w : Workload) (c : Client) :
    i.checkCold w c ≠ .error (.error .headerValue) := by
  intro failed
  rw [checkCold] at failed
  split at failed
  · cases failed
  · rw [Client.now] at failed
    cases hnow : c.now? with
    | none =>
      rw [hnow] at failed
      cases failed
    | some now =>
      rw [hnow] at failed
      cases hwarm : i.isWarm w now c.cache <;> simp [Bind.bind, Except.bind, hwarm] at failed

theorem eq_crashed_of_now_eq_error {failure : Failure} (h : c.now = .error failure) :
    failure = .crashed := by
  rw [Client.now] at h
  split at h
  · cases h
  · cases h
    rfl

end Reasons

section Preparing

section Errors

variable {ε φ α β : Type} {made : Except ε α}

theorem bind_eq_error_iff {next : α → Except ε β} {e : ε} :
    made >>= next = .error e ↔ made = .error e ∨ ∃ a, made = .ok a ∧ next a = .error e := by
  cases made <;> simp [Bind.bind, Except.bind]

theorem mapError_eq_error_iff {f : ε → φ} {e : φ} :
    made.mapError f = .error e ↔ ∃ reason, made = .error reason ∧ f reason = e := by
  cases made with
  | error reason =>
    constructor
    · intro h
      exact ⟨reason, rfl, Except.error.inj h⟩
    · rintro ⟨_, h, rfl⟩
      cases h
      rfl
  | ok a =>
    constructor
    · intro h
      cases h
    · rintro ⟨_, h, -⟩
      cases h

theorem mapError_eq_ok_iff {f : ε → φ} {a : α} : made.mapError f = .ok a ↔ made = .ok a := by
  cases made with
  | error reason =>
    constructor
    all_goals
      intro h
      cases h
  | ok b =>
    constructor
    all_goals
      intro h
      cases h
      rfl

end Errors

/-- What keeps an invocation from being prepared: the first of these that comes up. -/
inductive Hindered (i : Invocation) (w : Workload) (c : Client) : Failure → Prop
  | turnedDown {failure : Failure} (check : i.checkCold w c = .error failure) :
      Hindered i w c failure
  | uncalled {e : Error} (check : i.checkCold w c = .ok ()) (missing : i.caller = .error e) :
      Hindered i w c (.error e)
  | unmade {caller : Caller} {e : Error} (check : i.checkCold w c = .ok ())
      (called : i.caller = .ok caller) (illegal : i.headers w caller = .error e) :
      Hindered i w c (.error e)
  | timeless {caller : Caller} {sent : Headers} {failure : Failure}
      (check : i.checkCold w c = .ok ()) (called : i.caller = .ok caller)
      (made : i.headers w caller = .ok sent) (stopped : c.now = .error failure) :
      Hindered i w c failure

theorem prepare_eq_error_iff {failure : Failure} :
    i.prepare w c = .error failure ↔ i.Hindered w c failure := by
  constructor
  · intro failed
    rcases bind_eq_error_iff.1 failed with check | ⟨_, check, failed⟩
    · exact .turnedDown check
    rcases bind_eq_error_iff.1 failed with failed | ⟨caller, called, failed⟩
    · obtain ⟨e, missing, rfl⟩ := mapError_eq_error_iff.1 failed
      exact .uncalled check missing
    rcases bind_eq_error_iff.1 failed with failed | ⟨sent, made, failed⟩
    · obtain ⟨e, illegal, rfl⟩ := mapError_eq_error_iff.1 failed
      exact .unmade check (mapError_eq_ok_iff.1 called) illegal
    rcases bind_eq_error_iff.1 failed with stopped | ⟨now, -, failed⟩
    · exact .timeless check (mapError_eq_ok_iff.1 called) (mapError_eq_ok_iff.1 made) stopped
    · cases failed
  · intro hindered
    cases hindered with
    | turnedDown check => exact bind_eq_error_iff.2 (.inl check)
    | uncalled check missing =>
      refine bind_eq_error_iff.2 (.inr ⟨(), check, ?_⟩)
      exact bind_eq_error_iff.2 (.inl (mapError_eq_error_iff.2 ⟨_, missing, rfl⟩))
    | unmade check called illegal =>
      refine bind_eq_error_iff.2 (.inr ⟨(), check, ?_⟩)
      refine bind_eq_error_iff.2 (.inr ⟨_, mapError_eq_ok_iff.2 called, ?_⟩)
      exact bind_eq_error_iff.2 (.inl (mapError_eq_error_iff.2 ⟨_, illegal, rfl⟩))
    | timeless check called made stopped =>
      refine bind_eq_error_iff.2 (.inr ⟨(), check, ?_⟩)
      refine bind_eq_error_iff.2 (.inr ⟨_, mapError_eq_ok_iff.2 called, ?_⟩)
      refine bind_eq_error_iff.2 (.inr ⟨_, mapError_eq_ok_iff.2 made, ?_⟩)
      exact bind_eq_error_iff.2 (.inl stopped)

theorem prepare_eq_attestationsExist_iff :
    i.prepare w c = .error (.error .attestationsExist) ↔
      i.checkCold w c = .error (.error .attestationsExist) := by
  rw [prepare_eq_error_iff]
  constructor
  · intro hindered
    cases hindered with
    | turnedDown check => exact check
    | uncalled _ missing => exact absurd missing i.caller_ne_attestationsExist
    | unmade _ _ illegal => cases (i.madeIf_headers w _).failsByHeader _ illegal
    | timeless _ _ _ stopped => cases eq_crashed_of_now_eq_error stopped
  · exact .turnedDown

theorem prepare_eq_headerValue_iff {caller : Caller} (called : i.caller = .ok caller) :
    i.prepare w c = .error (.error .headerValue) ↔
      i.checkCold w c = .ok () ∧ i.headers w caller = .error .headerValue := by
  rw [prepare_eq_error_iff]
  constructor
  · intro hindered
    cases hindered with
    | turnedDown check => exact absurd check (i.checkCold_ne_headerValue w c)
    | uncalled _ missing =>
      rw [called] at missing
      cases missing
    | unmade check named illegal =>
      rw [called] at named
      cases named
      exact ⟨check, illegal⟩
    | timeless _ _ _ stopped => cases eq_crashed_of_now_eq_error stopped
  · rintro ⟨check, illegal⟩
    exact .unmade check called illegal

/-- An error that keeps an invocation from fetching comes up while it is prepared. -/
theorem run_eq_error_iff {e : Error} (derived : Workload.derive? i.pipeline = some w)
    (premature : e.isPremature = true) :
    (i.run services c).1 = .error (.error e) ↔ i.prepare w c = .error (.error e) := by
  cases prepared : i.prepare w c with
  | error failure =>
    rw [run, derived]
    dsimp only
    rw [prepared, Except.error.injEq, Except.error.injEq]
  | ok setting =>
    rw [run_eq_fetchBatches c derived prepared]
    constructor
    · intro failed
      obtain ⟨rounds, made⟩ := i.exists_rounds services setting
        (i.selection.range i.limits.batches).count 0 (i.selection.range i.limits.batches).first c
      have late := made.isPremature failed
      rw [premature] at late
      cases late
    · intro failed
      cases failed

end Preparing

end Invocation

end NodeAttestation
