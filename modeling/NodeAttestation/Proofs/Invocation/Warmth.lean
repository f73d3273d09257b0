import Mathlib.Data.Set.Card
import NodeAttestation.Proofs.Cache.Operations
import NodeAttestation.Proofs.Invocation.Preparation
import NodeAttestation.Proofs.Settings.Freshness

/-!
# When a cache is warm

An invocation for all batches fetches nothing if the cache holds enough nodes for its workload. Told
without the steps by which the client finds out: how many different nodes count, and what the
settings have to do with it.
-/

namespace NodeAttestation

namespace Instant

/-- An instant lies no more than a number of seconds before another one, or after it. -/
def IsWithin (t : Instant) (seconds : Nat) (now : Instant) : Prop :=
  now.second - seconds < t.second ∨ now.second - seconds = t.second ∧ now.nano ≤ t.nano

variable {now t : Instant}

theorem IsWithin.mono {seconds more : Nat} (within : t.IsWithin seconds now)
    (h : seconds ≤ more) : t.IsWithin more now := by
  rw [IsWithin] at within ⊢
  omega

end Instant

namespace Cache

/-- The nodes that count as cached for a workload: they have a record that has not expired, and the
workload tracks them in a batch that was fetched within a number of seconds. -/
def counted (c : Cache) (now : Instant) (seconds : Nat) (w : Workload) : Set String :=
  {node | (∃ record, c.records.find? node = some record ∧ now < record.expiry) ∧
    ∃ n entry, c.batch? w n = some entry ∧ entry.fetchTime.IsWithin seconds now ∧
      entry.nodes.contains node = true}

end Cache

namespace Limits

variable {now t : Instant} (l : Limits)

/-- A window that reaches back beyond the calendar is no exception: no instant lies before it. -/
theorem freshSince_le_iff (hleap : now.isLeap = false) :
    l.freshSince now ≤ t ↔ t.IsWithin l.validitySeconds now := by
  rw [← Instant.place_le_place, place_freshSince, max_le_iff, and_iff_right t.earliest_le_place,
    Instant.placeBefore_of_isLeap_eq_false hleap, Instant.place, Prod.Lex.toLex_le_toLex]
  rfl

end Limits

namespace Cache

variable {c : Cache} {w : Workload} {now : Instant} {l : Limits}

theorem mem_counted_iff (hleap : now.isLeap = false) {node : String} :
    node ∈ c.counted now l.validitySeconds w ↔
      (c.freshNodes now (l.freshSince now) w).contains node = true := by
  rw [contains_freshNodes_iff, isLive_iff]
  simp only [l.freshSince_le_iff hleap]
  rfl

theorem counted_eq (hleap : now.isLeap = false) : c.counted now l.validitySeconds w =
    (c.freshNodes now (l.freshSince now) w).keys.toFinset := by
  ext node
  rw [mem_counted_iff hleap, Finset.mem_coe, List.mem_toFinset, SortedMap.mem_keys_iff]

theorem ncard_counted (hleap : now.isLeap = false) : (c.counted now l.validitySeconds w).ncard =
    (c.freshNodes now (l.freshSince now) w).size := by
  rw [counted_eq hleap, Set.ncard_coe_finset, List.toFinset_card_of_nodup (SortedMap.nodup_keys _),
    SortedMap.length_keys]

theorem counted_finite (hleap : now.isLeap = false) :
    (c.counted now l.validitySeconds w).Finite := by
  rw [counted_eq hleap]
  exact Finset.finite_toSet _

theorem counted_mono {seconds more : Nat} (h : seconds ≤ more) :
    c.counted now seconds w ⊆ c.counted now more w := by
  rintro node ⟨live, n, entry, hentry, within, hnode⟩
  exact ⟨live, n, entry, hentry, within.mono h, hnode⟩

/-- A workload that the cache does not know has no nodes that count, which is never enough. -/
theorem hasFresh_iff (hleap : now.isLeap = false) {count : Nat} (hcount : 0 < count) :
    c.hasFresh now w count (l.freshSince now) = true ↔
      count ≤ (c.counted now l.validitySeconds w).ncard := by
  rw [hasFresh, ncard_counted hleap, Bool.and_eq_true, decide_eq_true_eq, and_iff_right_iff_imp]
  intro enough
  rw [Option.isSome_iff_ne_none]
  intro unknown
  have none : (c.freshNodes now (l.freshSince now) w).size = 0 := by
    rw [freshNodes, batches, unknown]
    rfl
  omega

end Cache

namespace Invocation

variable {i : Invocation} {services : Services} {c : Client} {w : Workload}

theorem warmCount_pos (i : Invocation) : 0 < i.limits.warmCount := by
  have hpositive : 1 ≤ i.limits.attestationsPerRequest := Nat.le_max_right _ _
  rw [Limits.warmCount, Limits.largestCount]
  omega

theorem checkCold_eq_error_iff (all : i.selection = .all) :
    i.checkCold w c = .error (.error .attestationsExist) ↔
      ∃ now, c.now? = some now ∧
        i.limits.warmCount ≤ (c.cache.counted now i.limits.validitySeconds w).ncard := by
  rw [checkCold, all, Client.now]
  cases hnow : c.now? with
  | none => simp [Bind.bind, Except.bind]
  | some now =>
    obtain ⟨-, hleap⟩ := Clock.now?_eq_some hnow
    have warm := c.cache.hasFresh_iff (w := w) (l := i.limits) hleap i.warmCount_pos
    simp only [Bind.bind, Except.bind, Option.some.injEq, exists_eq_left', ← warm]
    cases hwarm : i.isWarm w now c.cache with
    | true => exact iff_of_true rfl hwarm
    | false =>
      refine iff_of_false ?_ (ne_true_of_eq_false hwarm)
      intro failed
      cases failed

theorem run_eq_attestationsExist_iff (derived : Workload.derive? i.pipeline = some w) :
    (i.run services c).1 = .error (.error .attestationsExist) ↔
      i.checkCold w c = .error (.error .attestationsExist) :=
  (run_eq_error_iff derived rfl).trans prepare_eq_attestationsExist_iff

theorem checkCold_single {batch : Nat} (single : i.selection = .single batch) :
    i.checkCold w c = .ok () := by
  rw [checkCold, single]

/-- An invocation for all batches is turned down if and only if at least three times as many
different nodes count as it would ask for in one request. So one with a longer window or a smaller
request is turned down as well. An invocation for a single batch never is. -/
theorem attestationsExist_iff (services : Services) (c : Client)
    (derived : Workload.derive? i.pipeline = some w) :
    (i.selection = .all →
      ((i.run services c).1 = .error (.error .attestationsExist) ↔
        ∃ now, c.now? = some now ∧
          min (3 * i.limits.attestationsPerRequest) (2 ^ 64 - 1) ≤
            (c.cache.counted now i.limits.validitySeconds w).ncard)) ∧
      (∀ j others, Workload.derive? j.pipeline = some w → i.selection = .all →
        j.selection = .all → i.limits.validitySeconds ≤ j.limits.validitySeconds →
        j.limits.attestationsPerRequest ≤ i.limits.attestationsPerRequest →
        (i.run services c).1 = .error (.error .attestationsExist) →
        (Invocation.run j others c).1 = .error (.error .attestationsExist)) ∧
      ∀ batch, i.selection = .single batch →
        (i.run services c).1 ≠ .error (.error .attestationsExist) := by
  refine ⟨?_, ?_, ?_⟩
  · intro all
    rw [run_eq_attestationsExist_iff derived, checkCold_eq_error_iff all, Limits.warmCount,
      Limits.largestCount, Nat.mul_comm]
  · intro j others same all others_all wider fewer turned
    rw [run_eq_attestationsExist_iff derived, checkCold_eq_error_iff all] at turned
    rw [run_eq_attestationsExist_iff same, checkCold_eq_error_iff others_all]
    obtain ⟨now, hnow, enough⟩ := turned
    obtain ⟨-, hleap⟩ := Clock.now?_eq_some hnow
    have hcount : j.limits.warmCount ≤ i.limits.warmCount := by
      rw [Limits.warmCount, Limits.warmCount]
      omega
    have hmore : (c.cache.counted now i.limits.validitySeconds w).ncard ≤
        (c.cache.counted now j.limits.validitySeconds w).ncard :=
      Set.ncard_le_ncard (Cache.counted_mono wider) (Cache.counted_finite hleap)
    exact ⟨now, hnow, hcount.trans (enough.trans hmore)⟩
  · intro batch single
    rw [ne_eq, run_eq_attestationsExist_iff derived, checkCold_single single]
    exact fun failed => nomatch failed

section Shared

/-- One attestation a request, so that three nodes make a cache warm. -/
def lowInvocation : Invocation := Batch.sampleInvocation .initial ⟨some 1, none, none⟩

/-- A client that has saved the nodes of two batches, the second beginning with a node of the
first. -/
def sharingClient (second : List String) : Client :=
  let save (batch : Nat) (node : String) : Cache.Operation :=
    .save ⟨⟨node, [], "1.0", "release", none, none⟩, some node, [], Batch.sampleExpiry, none⟩
      Batch.sampleJob.workload batch .epoch
  { Batch.sampleClient with
    cache := (["a", "b"].map (save 0) ++ ("b" :: second).map (save 1)).foldl Cache.perform .empty }

/-- A node of two batches counts once, so that a third node has to make up for it. -/
theorem attestationsExist_iff_of_sharing :
    (lowInvocation.run (Batch.sampleServices []) (sharingClient [])).1 =
        .error (.error .emptyResponse) ∧
      ((sharingClient []).cache.counted .epoch 14400 Batch.sampleJob.workload).ncard < 3 ∧
      (lowInvocation.run (Batch.sampleServices []) (sharingClient ["c"])).1 =
        .error (.error .attestationsExist) ∧
      3 ≤ ((sharingClient ["c"]).cache.counted .epoch 14400 Batch.sampleJob.workload).ncard := by
  have derived : Workload.derive? lowInvocation.pipeline = some Batch.sampleJob.workload := by rfl
  have hlimits : lowInvocation.limits = ⟨1, 3, 14400⟩ := by decide
  have fetched : (lowInvocation.run (Batch.sampleServices []) (sharingClient [])).1 =
      .error (.error .emptyResponse) := by rfl
  have turned : (lowInvocation.run (Batch.sampleServices []) (sharingClient ["c"])).1 =
      .error (.error .attestationsExist) := by rfl
  have hnow (second : List String) : (sharingClient second).now? = some .epoch := by rfl
  obtain ⟨cold, -⟩ := attestationsExist_iff (Batch.sampleServices []) (sharingClient []) derived
  obtain ⟨warm, -⟩ := attestationsExist_iff (Batch.sampleServices []) (sharingClient ["c"]) derived
  rw [fetched, hlimits, hnow] at cold
  rw [turned, hlimits, hnow] at warm
  have few := (cold rfl).not.1 fun failed => nomatch failed
  obtain ⟨now, hsame, enough⟩ := (warm rfl).1 rfl
  cases hsame
  refine ⟨fetched, ?_, turned, enough⟩
  exact Nat.lt_of_not_le fun enough => few ⟨.epoch, rfl, enough⟩

end Shared

end Invocation

end NodeAttestation
