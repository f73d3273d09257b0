import NodeAttestation.Proofs.Batch.Ledger

/-! # How many attestations of a response are taken up, and that they are the first of them. -/

namespace NodeAttestation.Batch

def attestation? (item : Frame.Item Response) : Option Attestation :=
  match Error.ofItem item with
  | .ok (.attestation a) => some a
  | _ => none

def attestations (items : List (Frame.Item Response)) : List Attestation :=
  items.filterMap attestation?

/-- The attestation that is held back until a task has finished. -/
def pending (b : Batch) : List Attestation :=
  match b.phase with
  | .waiting a => [a]
  | _ => []

/-- The attestations of a response are those that have been decided on, in the order in which they
came, those that are held back, and those that are still to be read. -/
structure Ordered (plan : BatchPlan) (items : List (Frame.Item Response)) (b : Batch) (h : History)
    (decided pending : List Attestation) : Prop where
  arrived : attestations items = decided ++ pending ++ attestations b.messages
  received : b.received = decided.length + pending.length
  suffix : b.messages <:+ items
  sublist : h.taken.Sublist decided
  exact : h.panics = 0 → h.taken = decided.take plan.most

/-- What holds of a batch that has not failed. -/
structure Underway (plan : BatchPlan) (items : List (Frame.Item Response)) (b : Batch)
    (h : History) : Prop where
  unfailed : b.hasFailed = false
  flight : b.inFlight ≤ maxInFlight
  within : b.collected.nodes.length + b.inFlight ≤ plan.most
  ledger : Ledger b h
  ordered : ∃ decided, Ordered plan items b h decided b.pending

inductive Cause (items : List (Frame.Item Response)) : Failure → Prop
  | broken : Cause items .crashed
  | refused {item : Frame.Item Response} {e : Error} (member : item ∈ items)
      (decoded : Error.ofItem item = .error e) : Cause items (.error e)
  | vacant (none : attestations items = []) : Cause items (.error .emptyResponse)

structure Failed (plan : BatchPlan) (items : List (Frame.Item Response)) (b : Batch)
    (h : History) : Prop where
  cause : ∃ failure, b.phase = .ended (.error failure) ∧ Cause items failure
  idle : b.inFlight = 0
  within : b.collected.nodes.length ≤ plan.most
  taken : h.taken.length ≤ plan.most + h.panics
  sublist : h.taken.Sublist (attestations items)

section Attestations

variable {item : Frame.Item Response}

theorem attestation?_of_ok {a : Attestation} (h : Error.ofItem item = .ok (.attestation a)) :
    attestation? item = some a := by
  rw [attestation?, h]

theorem attestation?_of_empty (h : Error.ofItem item = .ok .empty) : attestation? item = none := by
  rw [attestation?, h]

theorem attestation?_of_limits {entries : List PushedLimit}
    (h : Error.ofItem item = .ok (.limits entries)) : attestation? item = none := by
  rw [attestation?, h]

end Attestations

section Ordered

variable {plan : BatchPlan} {items : List (Frame.Item Response)} {b next : Batch}
  {h later : History} {decided held : List Attestation}

theorem Ordered.of_same (ordered : Ordered plan items b h decided held)
    (hmessages : next.messages = b.messages := by rfl)
    (hreceived : next.received = b.received := by rfl) (htaken : later.taken = h.taken := by rfl)
    (hpanics : later.panics = 0 → h.panics = 0 := by exact id) :
    Ordered plan items next later decided held where
  arrived := by
    rw [hmessages]
    exact ordered.arrived
  received := by
    rw [hreceived]
    exact ordered.received
  suffix := by
    rw [hmessages]
    exact ordered.suffix
  sublist := by
    rw [htaken]
    exact ordered.sublist
  exact hnone := by
    rw [htaken]
    exact ordered.exact (hpanics hnone)

theorem Ordered.of_pass (ordered : Ordered plan items b h decided [])
    {item : Frame.Item Response} {rest : List (Frame.Item Response)}
    (messages : b.messages = item :: rest) (hnone : attestation? item = none)
    (hmessages : next.messages = rest) (hreceived : next.received = b.received)
    (htaken : later.taken = h.taken := by rfl) (hresults : later.results = h.results := by rfl) :
    Ordered plan items next later decided [] where
  arrived := by
    rw [ordered.arrived, messages, hmessages, attestations, attestations,
      List.filterMap_cons_none hnone]
  received := by
    rw [hreceived]
    exact ordered.received
  suffix := by
    rw [hmessages]
    exact (List.suffix_cons item rest).trans (messages ▸ ordered.suffix)
  sublist := by
    rw [htaken]
    exact ordered.sublist
  exact hnone := by
    rw [History.panics, hresults] at hnone
    rw [htaken]
    exact ordered.exact hnone

theorem Ordered.of_arrival (ordered : Ordered plan items b h decided [])
    {item : Frame.Item Response} {rest : List (Frame.Item Response)} {a : Attestation}
    (messages : b.messages = item :: rest) (hsome : attestation? item = some a)
    (hmessages : next.messages = rest) (hreceived : next.received = b.received + 1) :
    Ordered plan items next h decided [a] where
  arrived := by
    rw [ordered.arrived, messages, hmessages, attestations, attestations,
      List.filterMap_cons_some hsome, List.append_nil, List.append_assoc, List.singleton_append]
  received := by
    rw [hreceived, ordered.received]
    rfl
  suffix := by
    rw [hmessages]
    exact (List.suffix_cons item rest).trans (messages ▸ ordered.suffix)
  sublist := ordered.sublist
  exact := ordered.exact

/-- While no task is lost, an attestation is taken up if and only if it is one of the first. -/
theorem Admission.ordered {a : Attestation} {taken : List Attestation}
    (admission : Admission plan a b taken next) (ledger : Ledger b h)
    (ordered : Ordered plan items b h decided [a]) :
    Ordered plan items next { h with taken := h.taken ++ taken } (decided ++ [a]) [] := by
  obtain ⟨lost, hlost, hlength⟩ := ledger.exists_length_taken
  have hsuffix := ordered.suffix
  have harrived : attestations items = decided ++ [a] ++ [] ++ attestations b.messages := by
    rw [ordered.arrived, List.append_nil]
  have hreceived : b.received = (decided ++ [a]).length + ([] : List Attestation).length := by
    rw [ordered.received, List.length_append]
    rfl
  -- Without losses, as many have been taken up as are counted or in flight, so that the comparison
  -- with the attestations wanted is one of those decided on.
  cases admission with
  | skipped full =>
    refine ⟨harrived, hreceived, hsuffix, ?_, fun hnone => ?_⟩
    · rw [List.append_nil]
      exact ordered.sublist.trans (List.sublist_append_left decided [a])
    · have htaken := ordered.exact hnone
      have hle : plan.most ≤ decided.length := by
        have := congrArg List.length htaken
        rw [List.length_take] at this
        omega
      rw [List.append_nil, List.take_append_of_le_length hle]
      exact htaken
  | taken room =>
    refine ⟨harrived, hreceived, hsuffix, ?_, fun hnone => ?_⟩
    · exact ordered.sublist.append (List.Sublist.refl [a])
    · have htaken := ordered.exact hnone
      have hzero : lost = 0 := Nat.le_zero.1 (hnone ▸ hlost)
      have hlt : decided.length < plan.most := by
        have := congrArg List.length htaken
        rw [List.length_take] at this
        omega
      have hall : (decided ++ [a]).length ≤ plan.most := by
        rw [List.length_append]
        exact hlt
      rw [List.take_of_length_le hall, htaken, List.take_of_length_le (Nat.le_of_lt hlt)]

end Ordered

section Steps

variable {plan : BatchPlan} {items : List (Frame.Item Response)} {b next : Batch}
  {h later gains : History} {decided held : List Attestation}

theorem length_nodes_add_le (c : Collected) (outcome : Option Outcome) :
    (c.add outcome).nodes.length ≤ c.nodes.length + 1 := by
  cases outcome with
  | none => exact Nat.le_succ _
  | some outcome => exact Nat.le_of_eq List.length_append

theorem pending_of_reading (phase : b.phase = .reading) : b.pending = [] := by
  rw [pending, phase]

theorem pending_of_waiting {a : Attestation} (phase : b.phase = .waiting a) : b.pending = [a] := by
  rw [pending, phase]

theorem Admission.inFlight_le {a : Attestation} {taken : List Attestation}
    (admission : Admission plan a b taken next) : next.inFlight ≤ b.inFlight + 1 := by
  cases admission with
  | skipped => exact Nat.le_succ _
  | taken =>
    simp only [inFlight, List.length_append, List.length_singleton]
    omega

theorem Admission.within {a : Attestation} {taken : List Attestation}
    (admission : Admission plan a b taken next)
    (within : b.collected.nodes.length + b.inFlight ≤ plan.most) :
    next.collected.nodes.length + next.inFlight ≤ plan.most := by
  cases admission with
  | skipped => exact within
  | taken room =>
    simp only [inFlight, List.length_append, List.length_singleton] at room ⊢
    omega

theorem Admission.underway {a : Attestation} {taken : List Attestation}
    (admission : Admission plan a b taken next) (reading : b.phase = .reading)
    (free : b.inFlight < maxInFlight)
    (within : b.collected.nodes.length + b.inFlight ≤ plan.most) (ledger : Ledger b h)
    (ordered : Ordered plan items b h decided [a]) :
    Underway plan items next (h.append ⟨taken, [], []⟩) := by
  have hordered := admission.ordered ledger ordered
  have hreading := admission.phase.trans reading
  have hpending : next.pending = [] := pending_of_reading hreading
  have hunfailed : next.hasFailed = false := by rw [hasFailed, hreading]
  rw [History.append_taken]
  exact ⟨hunfailed, Nat.le_trans admission.inFlight_le free, admission.within within,
    admission.ledger ledger, decided ++ [a], hpending ▸ hordered⟩

theorem Underway.failed (underway : Underway plan items b h) {failure : Failure}
    (cause : Cause items failure) (hphase : next.phase = .ended (.error failure))
    (hidle : next.inFlight = 0) (hcollected : next.collected = b.collected)
    (htaken : later.taken = h.taken) (hresults : later.results = h.results) :
    Failed plan items next later where
  cause := ⟨failure, hphase, cause⟩
  idle := hidle
  within := by
    rw [hcollected]
    exact Nat.le_of_add_right_le underway.within
  taken := by
    obtain ⟨lost, hlost, hlength⟩ := underway.ledger.exists_length_taken
    have := underway.within
    rw [htaken, History.panics, hresults, ← History.panics]
    omega
  sublist := by
    obtain ⟨decided, ordered⟩ := underway.ordered
    rw [htaken, ordered.arrived, List.append_assoc]
    exact ordered.sublist.trans (List.sublist_append_left _ _)

theorem Underway.of_same (underway : Underway plan items b h) (ledger : Ledger next later)
    (ordered : Ordered plan items next later decided held)
    (hpending : next.pending = held := by rfl) (hunfailed : next.hasFailed = false := by rfl)
    (hflight : next.inFlight = b.inFlight := by rfl)
    (hcollected : next.collected = b.collected := by rfl) :
    Underway plan items next later where
  unfailed := hunfailed
  flight := by
    rw [hflight]
    exact underway.flight
  within := by
    rw [hflight, hcollected]
    exact underway.within
  ledger := ledger
  ordered := ⟨decided, hpending ▸ ordered⟩

/-- A finished task makes room in flight for the outcome that it adds. -/
theorem Underway.room (underway : Underway plan items b h) {outcome : Option Outcome}
    {rest : List (Option Outcome)} (queue : b.finished = outcome :: rest) :
    b.tasks.length + rest.length < maxInFlight ∧
      (b.collected.add outcome).nodes.length + (b.tasks.length + rest.length) ≤ plan.most := by
  have hflight := underway.flight
  have hwithin := underway.within
  have hadd := length_nodes_add_le b.collected outcome
  rw [inFlight, queue, List.length_cons] at hflight hwithin
  omega

theorem Step.underway (sound : ∀ task ∈ b.tasks, task.stage.IsSound)
    (settled : Settled plan b) (underway : Underway plan items b h)
    (step : Step plan b gains next) :
    Underway plan items next (h.append gains) ∨ Failed plan items next (h.append gains) := by
  have ledger := underway.ledger
  have hledger := step.ledger sound ledger
  have hopen := underway.unfailed
  obtain ⟨decided, ordered⟩ := underway.ordered
  cases step with
  | broken =>
    rw [History.append_pushed]
    exact .inr (underway.failed .broken rfl rfl rfl rfl rfl)
  | refused _ messages decoded =>
    rw [History.append_empty]
    refine .inr (underway.failed (.refused ?_ decoded) rfl rfl rfl rfl rfl)
    exact ordered.suffix.subset (messages ▸ List.mem_cons_self)
  | vacant phase idle received =>
    rw [Settled, phase] at settled
    rw [History.append_empty]
    refine .inr (underway.failed (.vacant ?_) rfl rfl rfl rfl rfl)
    -- Nothing has been received, so nothing has been decided on or held back.
    have hlength : decided.length + b.pending.length = 0 := by rw [← ordered.received, received]
    rw [ordered.arrived, settled, attestations, List.filterMap_nil, List.append_nil,
      List.append_eq_nil_iff]
    exact ⟨List.eq_nil_of_length_eq_zero (by omega), List.eq_nil_of_length_eq_zero (by omega)⟩
  | exhausted phase messages =>
    rw [pending_of_reading phase] at ordered
    rw [History.append_empty]
    exact .inl (underway.of_same ledger.of_same ordered.of_same)
  | ignored phase messages decoded =>
    rw [pending_of_reading phase] at ordered
    rw [History.append_empty]
    exact .inl (underway.of_same ledger.of_same
      (ordered.of_pass messages (attestation?_of_empty decoded) rfl rfl)
      (pending_of_reading phase) hopen)
  | limited phase messages decoded _ phase' =>
    rw [pending_of_reading phase] at ordered
    rw [History.append_pushed]
    refine .inl (underway.of_same ledger.of_same
      (ordered.of_pass messages (attestation?_of_limits decoded) rfl rfl) ?_ ?_)
    · rcases phase' with rfl | rfl <;> rfl
    · rcases phase' with rfl | rfl <;> rfl
  | held phase messages decoded _ =>
    rw [pending_of_reading phase] at ordered
    rw [History.append_empty]
    exact .inl (underway.of_same ledger.of_same
      (ordered.of_arrival messages (attestation?_of_ok decoded) rfl rfl))
  | arrived phase messages decoded free admission =>
    rw [pending_of_reading phase] at ordered
    exact .inl (admission.underway phase (Nat.lt_of_le_of_ne underway.flight free) underway.within
      ledger.of_same (ordered.of_arrival messages (attestation?_of_ok decoded) rfl rfl))
  | released phase queue admission =>
    rw [pending_of_waiting phase] at ordered
    obtain ⟨hflight, hwithin⟩ := underway.room queue
    exact .inl (admission.underway rfl hflight hwithin (ledger.of_collect queue)
      ordered.of_same)
  | resumed phase idle admission =>
    rw [pending_of_waiting phase] at ordered
    exact .inl (admission.underway rfl (idle ▸ Nat.zero_lt_succ _) underway.within ledger.of_same
      ordered.of_same)
  | counted phase queue =>
    obtain ⟨hflight, hwithin⟩ := underway.room queue
    rw [History.append_empty]
    exact .inl ⟨hopen, Nat.le_of_lt hflight, hwithin, ledger.of_collect queue, decided,
      ordered.of_same⟩
  | persisted phase =>
    have hpending : b.pending = [] := by rw [pending, phase]
    rw [hpending] at ordered
    rw [History.append_empty]
    exact .inl (underway.of_same ledger.of_same ordered.of_same)
  | concluded phase _ _ =>
    have hpending : b.pending = [] := by rw [pending, phase]
    rw [hpending] at ordered
    rw [History.append_empty]
    exact .inl (underway.of_same ledger.of_same ordered.of_same)
  | went unended found step =>
    rw [History.append_empty]
    exact .inl (underway.of_same (ledger.of_same (map_set_of_eq found rfl)) ordered.of_same rfl
      hopen (congrArg (· + _) List.length_set))
  | @finished index _ _ outcome _ unended found step =>
    have hnext := hledger.resolve_left fun hfailed => Bool.false_ne_true (hopen.symm.trans hfailed)
    have hindex : index < b.tasks.length := (List.getElem?_eq_some_iff.1 found).1
    -- A finished task is in flight until it is counted.
    have hflight : (b.tasks.eraseIdx index).length + (b.finished ++ [outcome]).length =
        b.inFlight := by
      rw [List.length_eraseIdx_of_lt hindex, List.length_append, List.length_singleton, inFlight]
      omega
    refine .inl (underway.of_same hnext (ordered.of_same rfl rfl ?_ ?_) rfl hopen hflight)
    · rw [History.append_results]
    · intro hnone
      rw [History.append_results, History.panics, List.count_append] at hnone
      exact (Nat.add_eq_zero_iff.1 hnone).1

end Steps

section Runs

variable {plan : BatchPlan} {others : Client → Client → Prop}
  {items : List (Frame.Item Response)} {c : Client} {b : Batch} {h : History}

theorem underway_begin : Underway plan items (plan.begin items c) .empty where
  unfailed := rfl
  flight := Nat.zero_le _
  within := Nat.zero_le _
  ledger := ⟨⟨[], rfl, rfl⟩, [], rfl, .nil⟩
  ordered := ⟨[], rfl, rfl, List.suffix_rfl, List.Sublist.slnil, fun _ => List.take_nil.symm⟩

theorem Run.underway (run : Run plan others (plan.begin items c) b h) :
    Underway plan items b h ∨ Failed plan items b h := by
  refine run.invariant (I := fun b h => Underway plan items b h ∨ Failed plan items b h) ?_ ?_ ?_
  · exact .inl underway_begin
  · intro b h gains next run ih step
    rcases ih with underway | failed
    · exact step.underway (run.sound rfl) (run.settled rfl) underway
    · obtain ⟨failure, hphase, _⟩ := failed.cause
      have hopen := step.hasFailed_eq_false
      rw [hasFailed, hphase] at hopen
      cases hopen
  · intro b h client ih _
    refine ih.imp (fun underway => ?_) fun failed => ?_
    · obtain ⟨decided, ordered⟩ := underway.ordered
      exact underway.of_same underway.ledger.of_same ordered.of_same rfl underway.unfailed
    · exact ⟨failed.cause, failed.idle, failed.within, failed.taken, failed.sublist⟩

theorem Run.bounds (run : Run plan others (plan.begin items c) b h) :
    b.inFlight ≤ maxInFlight ∧ b.collected.nodes.length + b.inFlight ≤ plan.most ∧
      h.taken.length ≤ plan.most + h.panics ∧ h.taken.Sublist (attestations items) := by
  rcases run.underway with underway | failed
  · obtain ⟨decided, ordered⟩ := underway.ordered
    obtain ⟨lost, hlost, hlength⟩ := underway.ledger.exists_length_taken
    have hwithin := underway.within
    refine ⟨underway.flight, hwithin, by omega, ?_⟩
    rw [ordered.arrived, List.append_assoc]
    exact ordered.sublist.trans (List.sublist_append_left _ _)
  · refine ⟨?_, ?_, failed.taken, failed.sublist⟩
    · rw [failed.idle]
      exact Nat.zero_le _
    · rw [failed.idle]
      exact failed.within

theorem Run.length_nodes_le (run : Run plan others (plan.begin items c) b h)
    {fetched : FetchedBatch} {saved : Nat} (result : b.result? = some (.ok (fetched, saved))) :
    fetched.nodes.length ≤ plan.most := by
  obtain ⟨_, _, _, heq⟩ := run.fetched_eq rfl result
  rw [Prod.mk.injEq] at heq
  rw [heq.1]
  exact Nat.le_of_add_right_le run.bounds.2.1

theorem Run.labels_perm (run : Run plan others (plan.begin items c) b h) {fetched : FetchedBatch}
    {saved : Nat} (result : b.result? = some (.ok (fetched, saved))) (kept : h.panics = 0) :
    h.taken = (attestations items).take plan.most ∧ attestations items ≠ [] ∧
      (fetched.nodes.map Outcome.label).Perm (h.taken.map Attestation.label) := by
  obtain ⟨hmessages, hidle, hreceived, heq⟩ := run.fetched_eq rfl result
  have hphase := result?_eq_some.1 result
  rw [Prod.mk.injEq] at heq
  obtain ⟨rfl, rfl⟩ := heq
  rcases run.underway with underway | failed
  · obtain ⟨decided, ordered⟩ := underway.ordered
    obtain ⟨counted, hresults, hnodes⟩ := underway.ledger.counted
    obtain ⟨lost, hlost, hlabels⟩ := underway.ledger.labels
    have hpending : b.pending = [] := by rw [pending, hphase]
    have htasks : b.tasks = [] := List.eq_nil_of_length_eq_zero (by rw [inFlight] at hidle; omega)
    have hfinished : b.finished = [] :=
      List.eq_nil_of_length_eq_zero (by rw [inFlight] at hidle; omega)
    have hall : attestations items = decided := by
      rw [ordered.arrived, hpending, hmessages, List.append_nil]
      exact List.append_nil _
    refine ⟨?_, ?_, ?_⟩
    · rw [hall]
      exact ordered.exact kept
    · intro hnone
      have hlength := ordered.received
      rw [hpending, ← hall, hnone] at hlength
      exact hreceived hlength
    · have hlost : lost = [] := List.eq_nil_of_length_eq_zero (hlost.trans kept)
      rw [hfinished, List.append_nil] at hresults
      rw [hlost, htasks, hresults, List.append_nil] at hlabels
      rw [hnodes]
      exact hlabels.symm
  · obtain ⟨failure, hfailed, _⟩ := failed.cause
    rw [hphase] at hfailed
    cases hfailed

/-- A response without errors fails for want of attestations, unless a limit brings the batch down
before its end. -/
theorem Run.vacant (run : Run plan others (plan.begin items c) b h) {failure : Failure}
    (whole : ∀ item ∈ items, ∃ message, Error.ofItem item = .ok message)
    (result : b.result? = some (.error failure)) (intact : failure ≠ .crashed) :
    failure = .error .emptyResponse ∧ attestations items = [] := by
  have hphase := result?_eq_some.1 result
  rcases run.underway with underway | failed
  · have hunfailed := underway.unfailed
    rw [hasFailed, hphase] at hunfailed
    cases hunfailed
  · obtain ⟨other, hother, cause⟩ := failed.cause
    rw [hphase] at hother
    cases hother
    cases cause with
    | broken => exact absurd rfl intact
    | @refused item e member decoded =>
      obtain ⟨message, hmessage⟩ := whole item member
      rw [decoded] at hmessage
      cases hmessage
    | vacant none => exact ⟨rfl, none⟩

end Runs

section Fetch

theorem length_nodes_of_fetch {plan : BatchPlan} {schedule : Schedule} {request : Request}
    {reply : Reply} {c : Client} {fetched : FetchedBatch} {saved : Nat}
    (h : (plan.fetch schedule request reply c).1 = .ok (fetched, saved)) :
    fetched.nodes.length ≤ plan.most := by
  unfold BatchPlan.fetch at h
  cases reply with
  | unreachable reason => cases h
  | broken reason => cases h
  | response status body =>
    dsimp only at h
    split at h
    · obtain ⟨last, later, run, result, _⟩ := exists_run_of_process plan schedule body _
      rw [h] at result
      exact run.length_nodes_le result
    · cases h

theorem length_nodes_of_fetchBatch {i : Invocation} {services : Services}
    {setting : Invocation.Setting} {attempt batch : Nat} {c : Client} {fetched : FetchedBatch}
    {saved : Nat} (h : (i.fetchBatch services setting attempt batch c).1 = .ok (fetched, saved)) :
    fetched.nodes.length ≤ max 1 i.settings.attestationsPerRequest.toNat := by
  have hle := length_nodes_of_fetch h
  rw [Invocation.plan, Invocation.limits, Limits.resolve] at hle
  dsimp only at hle
  omega

end Fetch

/-- At no time are more than ten tasks in flight, or more outcomes and tasks there than are wanted.
When a response is read to its end and no task is lost, the attestations taken up are its first,
as many as are wanted, and the outcomes are theirs. -/
theorem taken_eq_take_most :
    (∀ {plan others items c b h}, Run plan others (plan.begin items c) b h →
      b.inFlight ≤ 10 ∧ b.collected.nodes.length + b.inFlight ≤ plan.most ∧
      h.taken.length ≤ plan.most + h.panics ∧ h.taken.Sublist (attestations items) ∧
      ∀ result, b.result? = some result →
        (∀ fetched saved, result = .ok (fetched, saved) → fetched.nodes.length ≤ plan.most) ∧
        ((∀ item ∈ items, ∃ message, Error.ofItem item = .ok message) → h.panics = 0 →
          result ≠ .error .crashed →
          h.taken = (attestations items).take plan.most ∧
          (attestations items = [] → result = .error (.error .emptyResponse)) ∧
          (attestations items ≠ [] → ∃ fetched saved, result = .ok (fetched, saved) ∧
            (fetched.nodes.map Outcome.label).Perm (h.taken.map Attestation.label)))) ∧
    (∀ (i : Invocation) services setting attempt batch c fetched saved,
      (i.fetchBatch services setting attempt batch c).1 = .ok (fetched, saved) →
      fetched.nodes.length ≤ max 1 i.settings.attestationsPerRequest.toNat) := by
  refine ⟨fun {plan others items c b h} run => ?_, ?_⟩
  · obtain ⟨hflight, hwithin, htaken, hsublist⟩ := run.bounds
    refine ⟨hflight, hwithin, htaken, hsublist, fun result hresult => ⟨?_, ?_⟩⟩
    · rintro fetched saved rfl
      exact run.length_nodes_le hresult
    · intro whole kept intact
      cases result with
      | ok fetched =>
        obtain ⟨htake, hsome, hperm⟩ := run.labels_perm hresult kept
        exact ⟨htake, fun hnone => absurd hnone hsome, fun _ => ⟨_, _, rfl, hperm⟩⟩
      | error failure =>
        obtain ⟨rfl, hnone⟩ := run.vacant whole hresult fun hcrashed => intact (hcrashed ▸ rfl)
        rw [hnone] at hsublist
        refine ⟨?_, fun _ => rfl, fun hsome => absurd hnone hsome⟩
        rw [hnone, List.take_nil, List.sublist_nil.1 hsublist]
  · intro i services setting attempt batch c fetched saved hresult
    exact length_nodes_of_fetchBatch hresult

def three : List (Frame.Item Response) :=
  [sampleAttestation "a", sampleAttestation "b", sampleAttestation "c"]

/-- The service has lowered the attestations per request to none. -/
def loweredInvocation : Invocation := sampleInvocation .initial ⟨some 0, none, none⟩

def pairServices : Services := sampleServices [sampleResponse "a", sampleResponse "b"]

/-- Of three attestations two are taken up where two are wanted, and of two attestations one where
none is wanted. -/
theorem taken_eq_take_most_of_three :
    (∃ b h, Run (samplePlan 2) (fun c next => next = c.pass 1)
        ((samplePlan 2).begin three sampleClient) b h ∧
      b.result? = some (.ok (⟨⟨0⟩, [sampleOutcome "a", sampleOutcome "b"]⟩, 2)) ∧
      b.inFlight ≤ 10 ∧ h.taken = (attestations three).take 2) ∧
    (loweredInvocation.fetchBatch pairServices sampleSetting 0 0 sampleClient).1 =
      .ok (⟨⟨0⟩, [sampleOutcome "a"]⟩, 1) ∧
    [sampleOutcome "a"].length ≤ max 1 loweredInvocation.settings.attestationsPerRequest.toNat := by
  have fresh : Run (samplePlan 2) (fun c next => next = c.pass 1)
      ((samplePlan 2).begin three sampleClient) _ .empty := .start
  obtain ⟨b, h, run, seen⟩ := fresh.play
    [.receive, .receive, .receive, .receive, .step 0, .step 1, .step 0, .step 0, .step 0, .step 0,
      .step 0, .step 0, .step 0, .step 0, .step 0, .step 0, .collect, .collect, .proceed]
    (fun last => (last.1.result?, last.2.panics))
    (some (.ok (⟨⟨0⟩, [sampleOutcome "a", sampleOutcome "b"]⟩, 2)), 0) (by rfl)
  rw [Prod.mk.injEq] at seen
  obtain ⟨result, kept⟩ := seen
  have fetched : (loweredInvocation.fetchBatch pairServices sampleSetting 0 0 sampleClient).1 =
      .ok (⟨⟨0⟩, [sampleOutcome "a"]⟩, 1) := by rfl
  have whole : ∀ item ∈ three, ∃ message, Error.ofItem item = .ok message := by
    intro item hitem
    simp only [three, List.mem_cons, List.not_mem_nil, or_false] at hitem
    rcases hitem with rfl | rfl | rfl <;> exact ⟨_, rfl⟩
  obtain ⟨flight, _, _, _, ended⟩ := taken_eq_take_most.1 run
  obtain ⟨taken, _, _⟩ := (ended _ result).2 whole kept (fun hcrashed => nomatch hcrashed)
  exact ⟨⟨b, h, run, result, flight, taken⟩, fetched,
    taken_eq_take_most.2 loweredInvocation pairServices sampleSetting 0 0 sampleClient _ _ fetched⟩

end NodeAttestation.Batch
