import NodeAttestation.Batch.Schedule

/-! # What an act on a batch comes to, and what passes through the batch with it. -/

namespace NodeAttestation.Batch

/-- The outcomes among results, of which some are missing. -/
def surviving (results : List (Option Outcome)) : List Outcome := results.filterMap id

section Surviving

theorem surviving_append (results more : List (Option Outcome)) :
    surviving (results ++ more) = surviving results ++ surviving more := List.filterMap_append ..

theorem surviving_cons (outcome : Option Outcome) (rest : List (Option Outcome)) :
    surviving (outcome :: rest) = outcome.toList ++ surviving rest := by
  cases outcome <;> rfl

theorem surviving_singleton (outcome : Option Outcome) : surviving [outcome] = outcome.toList := by
  cases outcome <;> rfl

theorem length_surviving_add_count (results : List (Option Outcome)) :
    (surviving results).length + results.count none = results.length := by
  induction results with
  | nil => rfl
  | cons outcome rest ih =>
    rw [surviving_cons, List.length_append, List.count_cons, List.length_cons, ← ih]
    cases outcome with
    | none =>
      rw [Option.toList_none, List.length_nil, if_pos (beq_self_eq_true _)]
      omega
    | some o =>
      rw [Option.toList_some, List.length_singleton, if_neg (by simp)]
      omega

end Surviving

/-- What has passed through a batch over a time. -/
structure History where
  /-- The attestations that were taken up, in order. -/
  taken : List Attestation
  /-- What came of the tasks that finished, in the order they did. -/
  results : List (Option Outcome)
  /-- The limits that arrived, each with what was read off the clock then. -/
  pushed : List (Option Instant × PushedLimit)
deriving DecidableEq

namespace History

def empty : History := ⟨[], [], []⟩

def append (h later : History) : History :=
  ⟨h.taken ++ later.taken, h.results ++ later.results, h.pushed ++ later.pushed⟩

def panics (h : History) : Nat := h.results.count none

theorem append_empty (h : History) : h.append .empty = h := by
  rw [append, empty, List.append_nil, List.append_nil, List.append_nil]

theorem append_taken (h : History) (taken : List Attestation) :
    h.append ⟨taken, [], []⟩ = { h with taken := h.taken ++ taken } := by
  rw [append, List.append_nil, List.append_nil]

theorem append_results (h : History) (results : List (Option Outcome)) :
    h.append ⟨[], results, []⟩ = { h with results := h.results ++ results } := by
  rw [append, List.append_nil, List.append_nil]

theorem append_pushed (h : History) (pushed : List (Option Instant × PushedLimit)) :
    h.append ⟨[], [], pushed⟩ = { h with pushed := h.pushed ++ pushed } := by
  rw [append, List.append_nil, List.append_nil]

end History

def entriesOf (item : Frame.Item Response) : List PushedLimit :=
  match Error.ofItem item with
  | .ok (.limits entries) => entries
  | _ => []

/-- The limits that a batch has read once it has become another, each with what the clock told. -/
def limitsRead (b next : Batch) : List (Option Instant × PushedLimit) :=
  (b.messages.take (b.messages.length - next.messages.length)).flatMap fun item =>
    (entriesOf item).map (b.client.now?, ·)

/-- What passes through a batch as it becomes another. -/
def gained (b next : Batch) : History where
  taken := (next.tasks.drop b.tasks.length).map (·.attestation)
  results := next.finished.drop b.finished.length
  pushed := b.limitsRead next

/-- What taking an attestation up comes to: which attestations are added, and the batch after. -/
inductive Admission (plan : BatchPlan) (a : Attestation) (b : Batch) :
    List Attestation → Batch → Prop
  | skipped (full : plan.most ≤ b.collected.nodes.length + b.inFlight) : Admission plan a b [] b
  | taken (room : b.collected.nodes.length + b.inFlight < plan.most) :
      Admission plan a b [a]
        { b with
          tasks := b.tasks ++ [⟨b.submitted, a, .submitted⟩]
          submitted := b.submitted + 1 }

/-- All that an act on a batch can come to: what passes through the batch, and the batch after. -/
inductive Step (plan : BatchPlan) (b : Batch) : History → Batch → Prop
  | exhausted (phase : b.phase = .reading) (messages : b.messages = []) :
      Step plan b .empty { b with phase := .draining }
  | ignored {item : Frame.Item Response} {items : List (Frame.Item Response)}
      (phase : b.phase = .reading) (messages : b.messages = item :: items)
      (decoded : Error.ofItem item = .ok .empty) :
      Step plan b .empty { b with messages := items }
  | arrived {item : Frame.Item Response} {items : List (Frame.Item Response)} {a : Attestation}
      {taken : List Attestation} {next : Batch} (phase : b.phase = .reading)
      (messages : b.messages = item :: items) (decoded : Error.ofItem item = .ok (.attestation a))
      (free : b.inFlight ≠ maxInFlight)
      (admission :
        Admission plan a { b with messages := items, received := b.received + 1 } taken next) :
      Step plan b ⟨taken, [], []⟩ next
  | held {item : Frame.Item Response} {items : List (Frame.Item Response)} {a : Attestation}
      (phase : b.phase = .reading) (messages : b.messages = item :: items)
      (decoded : Error.ofItem item = .ok (.attestation a)) (full : b.inFlight = maxInFlight) :
      Step plan b .empty
        { b with messages := items, received := b.received + 1, phase := .waiting a }
  | limited {item : Frame.Item Response} {items : List (Frame.Item Response)}
      {entries : List PushedLimit} {client : Client} {phase' : Phase} (phase : b.phase = .reading)
      (messages : b.messages = item :: items) (decoded : Error.ofItem item = .ok (.limits entries))
      (applied : b.client.receiveLimits plan.settings entries = (some (), client))
      (next : phase' = .reading ∨ phase' = .storing) :
      Step plan b ⟨[], [], entries.map (b.client.now?, ·)⟩
        { b with messages := items, client := client, phase := phase' }
  | broken {item : Frame.Item Response} {items : List (Frame.Item Response)}
      {entries : List PushedLimit} {client : Client} (phase : b.phase = .reading)
      (messages : b.messages = item :: items) (decoded : Error.ofItem item = .ok (.limits entries))
      (crashed : b.client.receiveLimits plan.settings entries = (none, client)) :
      Step plan b ⟨[], [], entries.map (b.client.now?, ·)⟩
        ({ b with messages := items, client := client }.fail .crashed)
  | refused {item : Frame.Item Response} {items : List (Frame.Item Response)} {e : Error}
      (phase : b.phase = .reading) (messages : b.messages = item :: items)
      (decoded : Error.ofItem item = .error e) :
      Step plan b .empty ({ b with messages := items }.fail (.error e))
  | went {index timer : Nat} {task : Task} {stage : Task.Stage} {client : Client}
      (unended : b.isEnded = false) (found : b.tasks[index]? = some task)
      (step : task.step plan.job timer b.client = (.going stage, client)) :
      Step plan b .empty
        { b with
          timer := timer
          client := client
          tasks := b.tasks.set index { task with stage := stage } }
  | finished {index timer : Nat} {task : Task} {outcome : Option Outcome} {client : Client}
      (unended : b.isEnded = false) (found : b.tasks[index]? = some task)
      (step : task.step plan.job timer b.client = (.finished outcome, client)) :
      Step plan b ⟨[], [outcome], []⟩
        { b with
          timer := timer
          client := client
          tasks := b.tasks.eraseIdx index
          finished := b.finished ++ [outcome] }
  | released {a : Attestation} {outcome : Option Outcome} {rest : List (Option Outcome)}
      {taken : List Attestation} {next : Batch} (phase : b.phase = .waiting a)
      (queue : b.finished = outcome :: rest)
      (admission :
        Admission plan a
          { b with phase := .reading, finished := rest, collected := b.collected.add outcome }
          taken next) :
      Step plan b ⟨taken, [], []⟩ next
  | counted {outcome : Option Outcome} {rest : List (Option Outcome)} (phase : b.phase = .draining)
      (queue : b.finished = outcome :: rest) :
      Step plan b .empty { b with finished := rest, collected := b.collected.add outcome }
  | persisted (phase : b.phase = .storing) : Step plan b .empty { b with phase := .reading }
  | resumed {a : Attestation} {taken : List Attestation} {next : Batch}
      (phase : b.phase = .waiting a) (idle : b.inFlight = 0)
      (admission : Admission plan a { b with phase := .reading } taken next) :
      Step plan b ⟨taken, [], []⟩ next
  | vacant (phase : b.phase = .draining) (idle : b.inFlight = 0) (received : b.received = 0) :
      Step plan b .empty (b.fail (.error .emptyResponse))
  | concluded (phase : b.phase = .draining) (idle : b.inFlight = 0) (received : b.received ≠ 0) :
      Step plan b .empty
        { b with
          client := b.client.emit (.nodesReceived b.collected.identifiers plan.job.source)
          phase := .ended (.ok (⟨plan.job.request, b.collected.nodes⟩, b.collected.saved)) }

section TakeUp

variable (plan : BatchPlan) (a : Attestation) (b : Batch)

theorem takeUp_finished : (b.takeUp plan a).finished = b.finished := by
  rw [takeUp]
  split <;> rfl

theorem takeUp_messages : (b.takeUp plan a).messages = b.messages := by
  rw [takeUp]
  split <;> rfl

theorem takeUp_admission :
    Admission plan a b (((b.takeUp plan a).tasks.drop b.tasks.length).map (·.attestation))
      (b.takeUp plan a) := by
  rw [takeUp]
  split
  · rename_i hfull
    rw [List.drop_length]
    exact .skipped hfull
  · rename_i hroom
    rw [List.drop_left]
    exact .taken (Nat.lt_of_not_le hroom)

end TakeUp

section Gained

variable {b next : Batch}

theorem gained_eq {taken : List Attestation} {results : List (Option Outcome)}
    {pushed : List (Option Instant × PushedLimit)}
    (htaken : (next.tasks.drop b.tasks.length).map (·.attestation) = taken)
    (hresults : next.finished.drop b.finished.length = results)
    (hpushed : b.limitsRead next = pushed) : b.gained next = ⟨taken, results, pushed⟩ := by
  rw [gained, htaken, hresults, hpushed]

theorem taken_eq_nil (h : next.tasks.length ≤ b.tasks.length) :
    (next.tasks.drop b.tasks.length).map (·.attestation) = [] := by
  rw [List.drop_eq_nil_of_le h, List.map_nil]

theorem limitsRead_eq_nil (h : next.messages = b.messages) : b.limitsRead next = [] := by
  rw [limitsRead, h, Nat.sub_self, List.take_zero, List.flatMap_nil]

theorem limitsRead_cons {item : Frame.Item Response} {items : List (Frame.Item Response)}
    (h : b.messages = item :: items) (hnext : next.messages = items) :
    b.limitsRead next = (entriesOf item).map (b.client.now?, ·) := by
  rw [limitsRead, h, hnext, List.length_cons, Nat.add_sub_cancel_left, List.take_one,
    List.head?_cons, Option.toList_some, List.flatMap_singleton]

theorem limitsRead_cons_of_nil {item : Frame.Item Response} {items : List (Frame.Item Response)}
    (h : b.messages = item :: items) (hnext : next.messages = items)
    (hentries : entriesOf item = []) : b.limitsRead next = [] := by
  rw [limitsRead_cons h hnext, hentries, List.map_nil]

/-- An act that reads nothing, takes nothing up and lets no task finish. -/
theorem gained_eq_empty (hmessages : next.messages = b.messages)
    (hfinished : next.finished.length ≤ b.finished.length)
    (htasks : next.tasks.length ≤ b.tasks.length) : b.gained next = .empty :=
  gained_eq (taken_eq_nil htasks) (List.drop_eq_nil_of_le hfinished) (limitsRead_eq_nil hmessages)

end Gained

section Act

variable {plan : BatchPlan} {b next : Batch}

theorem Step.of_gained {gains : History} (step : Step plan b gains next)
    (h : b.gained next = gains) : Step plan b (b.gained next) next := by
  rwa [h]

theorem receiveItem_step {item : Frame.Item Response} {items : List (Frame.Item Response)}
    (phase : b.phase = .reading) (messages : b.messages = item :: items) :
    Step plan b (b.gained ({ b with messages := items }.receiveItem plan item))
      ({ b with messages := items }.receiveItem plan item) := by
  have hsame : b.finished.drop b.finished.length = [] := List.drop_length
  rw [receiveItem]
  cases decoded : Error.ofItem item with
  | error e =>
    have hnone : entriesOf item = [] := by rw [entriesOf, decoded]
    exact (Step.refused phase messages decoded).of_gained
      (gained_eq (taken_eq_nil (Nat.zero_le _)) (List.drop_eq_nil_of_le (Nat.zero_le _))
        (limitsRead_cons_of_nil messages rfl hnone))
  | ok message =>
    cases message with
    | empty =>
      have hnone : entriesOf item = [] := by rw [entriesOf, decoded]
      exact (Step.ignored phase messages decoded).of_gained
        (gained_eq (taken_eq_nil (Nat.le_refl _)) hsame
          (limitsRead_cons_of_nil messages rfl hnone))
    | attestation a =>
      have hnone : entriesOf item = [] := by rw [entriesOf, decoded]
      dsimp only [receiveMessage, receiveAttestation]
      split
      · rename_i full
        exact (Step.held phase messages decoded full).of_gained
          (gained_eq (taken_eq_nil (Nat.le_refl _)) hsame
            (limitsRead_cons_of_nil messages rfl hnone))
      · rename_i free
        refine (Step.arrived phase messages decoded free (takeUp_admission plan a _)).of_gained ?_
        refine gained_eq rfl ?_ (limitsRead_cons_of_nil messages (takeUp_messages ..) hnone)
        rw [takeUp_finished]
        exact hsame
    | limits entries =>
      have hentries : entriesOf item = entries := by rw [entriesOf, decoded]
      dsimp only [receiveMessage, receiveLimits]
      cases received : b.client.receiveLimits plan.settings entries with
      | mk done client =>
        cases done with
        | none =>
          refine (Step.broken phase messages decoded received).of_gained ?_
          refine gained_eq (taken_eq_nil (Nat.zero_le _))
            (List.drop_eq_nil_of_le (Nat.zero_le _)) ?_
          rw [limitsRead_cons messages rfl, hentries]
        | some _ =>
          dsimp only
          split
          · refine (Step.limited phase messages decoded received (.inr rfl)).of_gained ?_
            refine gained_eq (taken_eq_nil (Nat.le_refl _)) hsame ?_
            rw [limitsRead_cons messages rfl, hentries]
          · rw [phase]
            refine (Step.limited phase messages decoded received (.inl rfl)).of_gained ?_
            refine gained_eq (taken_eq_nil (Nat.le_refl _)) hsame ?_
            rw [limitsRead_cons messages rfl, hentries]

theorem receive?_step (h : b.receive? plan = some next) : Step plan b (b.gained next) next := by
  rw [receive?] at h
  split at h
  · rename_i phase
    split at h
    · rename_i messages
      cases h
      exact (Step.exhausted phase messages).of_gained
        (gained_eq_empty rfl (Nat.le_refl _) (Nat.le_refl _))
    · rename_i item items messages
      cases h
      exact receiveItem_step phase messages
  · cases h

theorem step?_step {index : Nat} (h : b.step? plan index = some next) :
    Step plan b (b.gained next) next := by
  rw [step?] at h
  split at h
  · cases h
  · rename_i unended
    rw [Bool.not_eq_true] at unended
    obtain ⟨task, found, rfl⟩ := Option.map_eq_some_iff.1 h
    rw [stepTask]
    cases step : task.step plan.job (max b.timer task.wakes) b.client with
    | mk progress client =>
      cases progress with
      | going stage =>
        exact (Step.went unended found step).of_gained
          (gained_eq_empty rfl (Nat.le_refl _) (Nat.le_of_eq List.length_set))
      | finished outcome =>
        exact (Step.finished unended found step).of_gained
          (gained_eq (taken_eq_nil (List.length_eraseIdx_le ..)) List.drop_left
            (limitsRead_eq_nil rfl))

theorem collect?_step (h : b.collect? plan = some next) : Step plan b (b.gained next) next := by
  rw [collect?] at h
  split at h
  · cases h
  · rename_i outcome rest queue
    have hrest : rest.length ≤ b.finished.length := by
      rw [queue, List.length_cons]
      exact Nat.le_succ _
    dsimp only at h
    split at h
    · rename_i a phase
      cases h
      refine (Step.released phase queue (takeUp_admission plan a _)).of_gained ?_
      refine gained_eq rfl (List.drop_eq_nil_of_le ?_) (limitsRead_eq_nil (takeUp_messages ..))
      rw [takeUp_finished]
      exact hrest
    · rename_i phase
      cases h
      exact (Step.counted phase queue).of_gained (gained_eq_empty rfl hrest (Nat.le_refl _))
    · cases h

theorem proceed?_step (h : b.proceed? plan = some next) : Step plan b (b.gained next) next := by
  rw [proceed?] at h
  split at h
  · rename_i phase
    cases h
    exact (Step.persisted phase).of_gained (gained_eq_empty rfl (Nat.le_refl _) (Nat.le_refl _))
  · rename_i a phase
    split at h
    · rename_i idle
      cases h
      refine (Step.resumed phase idle (takeUp_admission plan a _)).of_gained ?_
      refine gained_eq rfl (List.drop_eq_nil_of_le ?_) (limitsRead_eq_nil (takeUp_messages ..))
      exact Nat.le_of_eq (congrArg List.length (takeUp_finished ..))
    · cases h
  · rename_i phase
    split at h
    · rename_i idle
      cases h
      rw [conclude]
      split
      · rename_i received
        exact (Step.vacant phase idle received).of_gained
          (gained_eq_empty rfl (Nat.zero_le _) (Nat.zero_le _))
      · rename_i received
        exact (Step.concluded phase idle received).of_gained
          (gained_eq_empty rfl (Nat.le_refl _) (Nat.le_refl _))
    · cases h
  · cases h

theorem act?_step {act : Act} (h : b.act? plan act = some next) :
    Step plan b (b.gained next) next := by
  cases act with
  | receive => exact receive?_step h
  | step index => exact step?_step h
  | collect => exact collect?_step h
  | proceed => exact proceed?_step h

end Act

end NodeAttestation.Batch
