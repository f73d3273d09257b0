import NodeAttestation.Proofs.Batch.Run

/-! # What has become of the attestations that a batch has taken up. -/

namespace NodeAttestation.Batch

/-- Every attestation that was taken up is with a task, has an outcome or was lost with its task;
the outcomes are counted in the order in which the tasks finished. -/
structure Ledger (b : Batch) (h : History) : Prop where
  counted : ∃ counted, h.results = counted ++ b.finished ∧
    b.collected.nodes = surviving counted
  labels : ∃ lost : List Label, lost.length = h.panics ∧
    (h.taken.map Attestation.label).Perm
      (b.tasks.map (·.attestation.label) ++ (surviving h.results).map Outcome.label ++ lost)

section Ledger

variable {plan : BatchPlan} {b next : Batch} {h later : History}

/-- As many attestations as are counted or in flight were taken up, and those that were lost. -/
theorem Ledger.exists_length_taken (ledger : Ledger b h) :
    ∃ lost ≤ h.panics, h.taken.length = b.collected.nodes.length + b.inFlight + lost := by
  obtain ⟨counted, hresults, hnodes⟩ := ledger.counted
  obtain ⟨lost, hlost, hlabels⟩ := ledger.labels
  refine ⟨counted.count none, ?_, ?_⟩
  · rw [History.panics, hresults, List.count_append]
    exact Nat.le_add_right _ _
  · have htaken := hlabels.length_eq
    simp only [List.length_map, List.length_append] at htaken
    have hall := length_surviving_add_count h.results
    have hcounted := length_surviving_add_count counted
    rw [← History.panics, hresults, List.length_append, ← hresults] at hall
    rw [inFlight, hnodes]
    omega

/-- Replacing an item by one that looks the same leaves the looks of the list. -/
theorem map_set_of_eq {α β : Type} {f : α → β} {items : List α} {index : Nat} {old new : α}
    (found : items[index]? = some old) (same : f new = f old) :
    (items.set index new).map f = items.map f := by
  obtain ⟨hindex, rfl⟩ := List.getElem?_eq_some_iff.1 found
  have hmap : index < (items.map f).length := by rwa [List.length_map]
  have hold : (items.map f)[index] = f items[index] := List.getElem_map ..
  rw [List.map_set, same, ← hold, List.set_getElem_self hmap]

theorem Ledger.of_same (ledger : Ledger b h)
    (htasks : next.tasks.map (·.attestation.label) = b.tasks.map (·.attestation.label) := by rfl)
    (hfinished : next.finished = b.finished := by rfl)
    (hcollected : next.collected = b.collected := by rfl)
    (htaken : later.taken = h.taken := by rfl) (hresults : later.results = h.results := by rfl) :
    Ledger next later where
  counted := by
    rw [hfinished, hcollected, hresults]
    exact ledger.counted
  labels := by
    rw [History.panics, htasks, htaken, hresults]
    exact ledger.labels

theorem Admission.ledger {a : Attestation} {taken : List Attestation}
    (admission : Admission plan a b taken next) (ledger : Ledger b h) :
    Ledger next { h with taken := h.taken ++ taken } := by
  cases admission with
  | skipped => exact ledger.of_same rfl rfl rfl (List.append_nil _) rfl
  | taken =>
    obtain ⟨lost, hlost, hlabels⟩ := ledger.labels
    refine ⟨ledger.counted, lost, hlost, ?_⟩
    rw [List.perm_iff_count] at hlabels ⊢
    intro label
    have := hlabels label
    simp only [List.map_append, List.count_append, List.map_cons, List.map_nil] at this ⊢
    omega

theorem Ledger.of_collect (ledger : Ledger b h) {outcome : Option Outcome}
    {rest : List (Option Outcome)} (queue : b.finished = outcome :: rest)
    (htasks : next.tasks = b.tasks := by rfl) (hfinished : next.finished = rest := by rfl)
    (hcollected : next.collected = b.collected.add outcome := by rfl) : Ledger next h where
  counted := by
    obtain ⟨counted, hresults, hnodes⟩ := ledger.counted
    refine ⟨counted ++ [outcome], ?_, ?_⟩
    · rw [hresults, queue, hfinished, List.append_assoc, List.singleton_append]
    · rw [hcollected, surviving_append, ← hnodes]
      cases outcome with
      | none => exact (List.append_nil _).symm
      | some outcome => rfl
  labels := by
    rw [htasks]
    exact ledger.labels

theorem perm_getElem_cons_eraseIdx {tasks : List Task} {index : Nat} (h : index < tasks.length) :
    tasks.Perm (tasks[index] :: tasks.eraseIdx index) := by
  calc
    tasks.Perm (tasks.take index ++ tasks[index] :: tasks.drop (index + 1)) := by
      rw [List.getElem_cons_drop, List.take_append_drop]
    _ |>.Perm (tasks[index] :: tasks.eraseIdx index) := by
      rw [List.eraseIdx_eq_take_drop_succ]
      exact List.perm_middle

/-- The outcome of a task that finishes takes the place of its attestation, unless that is lost. -/
theorem Ledger.of_finish (ledger : Ledger b h) {index : Nat} {task : Task}
    {outcome : Option Outcome} (found : b.tasks[index]? = some task)
    (label : ∀ o, outcome = some o → o.label = task.attestation.label)
    (htasks : next.tasks = b.tasks.eraseIdx index)
    (hfinished : next.finished = b.finished ++ [outcome])
    (hcollected : next.collected = b.collected) :
    Ledger next { h with results := h.results ++ [outcome] } := by
  obtain ⟨hindex, rfl⟩ := List.getElem?_eq_some_iff.1 found
  obtain ⟨counted, hresults, hnodes⟩ := ledger.counted
  obtain ⟨lost, hlost, hlabels⟩ := ledger.labels
  have hperm : (b.tasks.map (·.attestation.label)).Perm
      (b.tasks[index].attestation.label :: (b.tasks.eraseIdx index).map (·.attestation.label)) :=
    (perm_getElem_cons_eraseIdx hindex).map _
  rw [List.perm_iff_count] at hlabels hperm
  refine ⟨⟨counted, ?_, ?_⟩, ?_⟩
  · rw [hfinished, hresults, List.append_assoc]
  · rw [hcollected]
    exact hnodes
  · rw [htasks, History.panics, List.count_append, ← History.panics, surviving_append,
      surviving_singleton]
    -- The label moves from the tasks to those that are lost or to those of the outcomes.
    cases outcome with
    | none =>
      refine ⟨b.tasks[index].attestation.label :: lost, ?_, ?_⟩
      · rw [List.length_cons, hlost, List.count_singleton_self]
      · rw [List.perm_iff_count]
        intro l
        have hall := hlabels l
        have htask := hperm l
        simp only [List.count_append, List.count_cons, Option.toList_none, List.append_nil]
          at hall htask ⊢
        omega
    | some o =>
      refine ⟨lost, ?_, ?_⟩
      · rw [hlost, List.count_eq_zero_of_not_mem (by simp), Nat.add_zero]
      · rw [List.perm_iff_count]
        intro l
        have hall := hlabels l
        have htask := hperm l
        rw [← label o rfl] at htask
        simp only [List.count_append, List.count_cons, Option.toList_some, List.map_append,
          List.map_cons, List.map_nil, List.count_nil] at hall htask ⊢
        omega

theorem Step.ledger {gains : History} (sound : ∀ task ∈ b.tasks, task.stage.IsSound)
    (ledger : Ledger b h) (step : Step plan b gains next) :
    next.hasFailed = true ∨ Ledger next (h.append gains) := by
  cases step with
  | broken | refused | vacant => exact .inl rfl
  | exhausted | ignored | held | persisted | concluded =>
    rw [History.append_empty]
    exact .inr ledger.of_same
  | limited =>
    rw [History.append_pushed]
    exact .inr ledger.of_same
  | arrived _ _ _ _ admission | resumed _ _ admission =>
    rw [History.append_taken]
    exact .inr (admission.ledger ledger.of_same)
  | released _ queue admission =>
    rw [History.append_taken]
    exact .inr (admission.ledger (ledger.of_collect queue))
  | counted _ queue =>
    rw [History.append_empty]
    exact .inr (ledger.of_collect queue)
  | @went index timer task stage client _ found step =>
    rw [History.append_empty]
    exact .inr (ledger.of_same (map_set_of_eq found rfl))
  | @finished index timer task outcome client _ found step =>
    have effect := task.effect_of_step plan.job b.client
      (sound task (List.mem_of_getElem? found)) step
    rw [History.append_results]
    refine .inr (ledger.of_finish found ?_ rfl rfl rfl)
    rintro o rfl
    exact effect.label_of_finished

end Ledger

end NodeAttestation.Batch
