import NodeAttestation.Proofs.Cache.Expiry
import NodeAttestation.Proofs.Cache.Locality

/-!
# Who comes first

Of all who track a node for a batch or save it for that batch, the first is told so and the others
are told that they are not, until the batch is forgotten. What becomes of other batches has no part
in it, whichever records are dropped with them and whichever have expired.
-/

namespace NodeAttestation.Cache

/-- What a cache is asked to tell or to do. -/
inductive Call where
  | isLive (now : Instant) (node : String)
  | hasFresh (now : Instant) (w : Workload) (count : Nat) (since : Instant)
  | trackedCount (w : Workload) (batch : Nat)
  | entries
  | operation (operation : Operation)

inductive Answer where
  | holds (condition : Bool)
  | count (nodes : Nat)
  | entries (records : List (String × NodeRecord))
  | tracked (already : Bool)
  | saved (outcome : SaveOutcome)
  | done
deriving DecidableEq

def answer (c : Cache) : Call → Answer
  | .isLive now node => .holds (c.isLive now node)
  | .hasFresh now w count since => .holds (c.hasFresh now w count since)
  | .trackedCount w batch => .count (c.trackedCount w batch)
  | .entries => .entries c.records.entries
  | .operation (.track w node batch fetchTime) => .tracked (c.track w node batch fetchTime).1
  | .operation (.save v w batch fetchTime) => .saved (c.save v w batch fetchTime).1
  | .operation _ => .done

/-- Only an operation changes a cache. -/
def serve (c : Cache) : Call → Cache
  | .operation operation => c.perform operation
  | _ => c

/-- The calls that reach a cache one after the other, whoever makes them, with their answers. -/
def exchanges (c : Cache) : List Call → List (Call × Answer)
  | [] => []
  | call :: calls => (call, c.answer call) :: (c.serve call).exchanges calls

namespace Call

/-- Whether a call tracks a node for a batch or saves it for the batch. -/
def claims (w : Workload) (n : Nat) (node : String) : Call → Bool
  | operation (.track other known m _) => (other, m) = (w, n) ∧ known = node
  | operation (.save v other m _) => (other, m) = (w, n) ∧ v.node = some node
  | _ => false

/-- Whether a batch is deleted by a call, alone or with everything else. -/
def forgets (w : Workload) (n : Nat) : Call → Bool
  | operation (.delete other m) => (other, m) = (w, n)
  | operation .clear => true
  | _ => false

/-- The answer to the call that claims a node first. -/
def answerFirst : Call → Answer
  | operation (.track ..) => .tracked false
  | operation (.save ..) => .saved .saved
  | _ => .done

/-- The answer to a call that claims a node once more. -/
def answerAgain : Call → Answer
  | operation (.track ..) => .tracked true
  | operation (.save ..) => .saved .alreadyTracked
  | _ => .done

def firstThenAgain : List Call → List (Call × Answer)
  | [] => []
  | call :: calls => (call, call.answerFirst) :: calls.map fun call => (call, call.answerAgain)

end Call

section Steps

variable {w : Workload} {n : Nat} {node : String} {call : Call}

theorem tracked_serve_of_forgets (c : Cache) (forgets : call.forgets w n = true) :
    (c.serve call).tracked w n = .empty := by
  cases call with
  | operation operation =>
    cases operation with
    | delete other m =>
      obtain ⟨rfl, rfl⟩ := Prod.mk.inj (of_decide_eq_true forgets)
      exact tracked_deleteBatch ..
    | clear => rfl
    | _ => cases forgets
  | _ => cases forgets

/-- As long as a batch is not forgotten, it comes to track the nodes that are claimed for it. -/
theorem contains_tracked_serve (c : Cache) (keeps : call.forgets w n = false) :
    ((c.serve call).tracked w n).contains node = true ↔
      (c.tracked w n).contains node = true ∨ call.claims w n node = true := by
  cases call with
  | operation operation =>
    cases operation with
    | track other known m fetchTime =>
      rw [Call.claims, decide_eq_true_eq]
      by_cases same : (other, m) = (w, n)
      · obtain ⟨rfl, rfl⟩ := Prod.mk.inj same
        rw [serve, perform, contains_tracked_track, or_comm, eq_comm (a := node)]
        simp only [true_and]
      · have spares := (spares_track c other m fetchTime known).batches w n (Ne.symm same)
        rw [serve, perform, tracked_congr w n spares]
        simp [same]
    | save v other m fetchTime =>
      rw [Call.claims, decide_eq_true_eq]
      by_cases same : (other, m) = (w, n)
      · obtain ⟨rfl, rfl⟩ := Prod.mk.inj same
        cases identified : v.node with
        | none => simp [serve, perform, save, identified]
        | some known =>
          rw [serve, perform, contains_tracked_save c other m fetchTime identified, or_comm,
            eq_comm (a := node)]
          simp only [true_and, Option.some.injEq]
      · have spares := (spares_save c other m fetchTime v).batches w n (Ne.symm same)
        rw [serve, perform, tracked_congr w n spares]
        simp [same]
    | delete other m =>
      have differs : (w, n) ≠ (other, m) := Ne.symm (of_decide_eq_false keeps)
      rw [serve, perform, contains_tracked_deleteBatch_iff, and_iff_right differs]
      simp [Call.claims]
    | clear => cases keeps
  | _ => simp [serve, Call.claims]

/-- Both ways of claiming a node are answered by whether the batch tracks it. -/
theorem answer_of_claims (c : Cache) (claims : call.claims w n node = true) :
    c.answer call =
      if (c.tracked w n).contains node then call.answerAgain else call.answerFirst := by
  cases call with
  | operation operation =>
    cases operation with
    | track other known m fetchTime =>
      obtain ⟨same, rfl⟩ := of_decide_eq_true claims
      obtain ⟨rfl, rfl⟩ := Prod.mk.inj same
      rw [answer, track_fst]
      cases (c.tracked other m).contains known <;> rfl
    | save v other m fetchTime =>
      obtain ⟨same, identified⟩ := of_decide_eq_true claims
      obtain ⟨rfl, rfl⟩ := Prod.mk.inj same
      rw [answer]
      cases held : (c.tracked other m).contains node with
      | false =>
        rw [save_fst_of_new c other m fetchTime identified held]
        rfl
      | true =>
        rw [save_of_held c other m fetchTime identified held]
        rfl
    | _ => cases claims
  | _ => cases claims

end Steps

section Traces

variable {w : Workload} {n : Nat} {node : String}

theorem map_fst_exchanges (c : Cache) (calls : List Call) :
    (c.exchanges calls).map Prod.fst = calls := by
  induction calls generalizing c with
  | nil => rfl
  | cons call calls ih => rw [exchanges, List.map_cons, ih]

theorem exchanges_append (c : Cache) (calls later : List Call) :
    c.exchanges (calls ++ later) =
      c.exchanges calls ++ (calls.foldl serve c).exchanges later := by
  induction calls generalizing c with
  | nil => rfl
  | cons call calls ih => rw [List.cons_append, exchanges, ih]; rfl

/-- Whoever claims a node that the batch tracks is told so. -/
theorem filter_exchanges_of_held {c : Cache} {calls : List Call}
    (kept : ∀ call ∈ calls, call.forgets w n = false)
    (held : (c.tracked w n).contains node = true) :
    (c.exchanges calls).filter (·.1.claims w n node) =
      (calls.filter (·.claims w n node)).map fun call => (call, call.answerAgain) := by
  induction calls generalizing c with
  | nil => rfl
  | cons call calls ih =>
    obtain ⟨keeps, kept⟩ := List.forall_mem_cons.1 kept
    have later := ih kept ((contains_tracked_serve c keeps).2 (.inl held))
    rw [exchanges, List.filter_cons, List.filter_cons]
    cases claims : call.claims w n node with
    | false => simpa using later
    | true =>
      have told := answer_of_claims c claims
      rw [held, if_pos rfl] at told
      simp [told, later]

theorem filter_exchanges_of_new {c : Cache} {calls : List Call}
    (kept : ∀ call ∈ calls, call.forgets w n = false)
    (new : (c.tracked w n).contains node = false) :
    (c.exchanges calls).filter (·.1.claims w n node) =
      Call.firstThenAgain (calls.filter (·.claims w n node)) := by
  induction calls generalizing c with
  | nil => rfl
  | cons call calls ih =>
    obtain ⟨keeps, kept⟩ := List.forall_mem_cons.1 kept
    have tracks : ((c.serve call).tracked w n).contains node = true ↔
        (c.tracked w n).contains node = true ∨ call.claims w n node = true :=
      contains_tracked_serve c keeps
    rw [exchanges, List.filter_cons, List.filter_cons]
    cases claims : call.claims w n node with
    | false =>
      have still : ((c.serve call).tracked w n).contains node = false := by
        rw [Bool.eq_false_iff, ne_eq, tracks, new, claims]
        simp
      simpa using ih kept still
    | true =>
      have told := answer_of_claims c claims
      rw [new, if_neg Bool.false_ne_true] at told
      have later := filter_exchanges_of_held kept (tracks.2 (.inr claims))
      simp [told, later, Call.firstThenAgain]

/-- In any sequence of calls, whoever makes them, let a batch be forgotten by the last call before a
stretch, unless the stretch is the beginning, and not within it. Of the calls of the stretch that
track a node for the batch or save it for the batch, the first is told that it is the first, and
each of the others that it is not. -/
theorem claims_answered_in_turn {before stretch : List Call}
    (fresh : before = [] ∨ ∃ earlier call, before = earlier ++ [call] ∧ call.forgets w n = true)
    (kept : ∀ call ∈ stretch, call.forgets w n = false) (after : List Call) (node : String) :
    ∃ earlier during later, empty.exchanges (before ++ stretch ++ after) =
        earlier ++ during ++ later ∧
      earlier.map Prod.fst = before ∧ during.map Prod.fst = stretch ∧
      later.map Prod.fst = after ∧
      during.filter (·.1.claims w n node) =
        Call.firstThenAgain (stretch.filter (·.claims w n node)) := by
  have new : ((before.foldl serve empty).tracked w n).contains node = false := by
    rcases fresh with rfl | ⟨earlier, call, rfl, forgets⟩
    · rfl
    · rw [List.foldl_append, List.foldl_cons, List.foldl_nil, tracked_serve_of_forgets _ forgets]
      rfl
  refine ⟨empty.exchanges before, (before.foldl serve empty).exchanges stretch,
    ((before ++ stretch).foldl serve empty).exchanges after, ?_, map_fst_exchanges _ _,
    map_fst_exchanges _ _, map_fst_exchanges _ _, filter_exchanges_of_new kept new⟩
  rw [exchanges_append, exchanges_append]

end Traces

section Rivals

def trackAt (time : Instant) (n : Nat) : Call := .operation (.track inference "n" n time)

def saveUntil (expiry : Instant) (n : Nat) : Call :=
  .operation (.save (validUntil expiry) inference n (hour 11))

def deletion (n : Nat) : Call := .operation (.delete inference n)

/-- A node is claimed for batch 0 three times. Meanwhile it is saved for batch 1, which is
forgotten, and saved once more, and its record expires. -/
def rivalry : List Call :=
  [saveUntil (hour 13) 1, trackAt (hour 11) 0, deletion 1, saveUntil (hour 13) 1,
    .isLive (hour 14) "n", saveUntil (hour 16) 0, trackAt (hour 14) 0]

theorem claims_answered_in_turn_of_rivals :
    (∀ call ∈ rivalry, call.forgets inference 0 = false) ∧
      ∃ earlier during later, empty.exchanges ([trackAt (hour 10) 0, deletion 0] ++ rivalry ++
          [deletion 0, trackAt (hour 14) 0]) = earlier ++ during ++ later ∧
        during.filter (·.1.claims inference 0 "n") =
          [(trackAt (hour 11) 0, .tracked false), (saveUntil (hour 16) 0, .saved .alreadyTracked),
            (trackAt (hour 14) 0, .tracked true)] := by
  have kept : ∀ call ∈ rivalry, call.forgets inference 0 = false := by
    simp [rivalry, saveUntil, trackAt, deletion, Call.forgets]
  have fresh : ∃ earlier call, [trackAt (hour 10) 0, deletion 0] = earlier ++ [call] ∧
      call.forgets inference 0 = true := ⟨[trackAt (hour 10) 0], deletion 0, rfl, rfl⟩
  obtain ⟨earlier, during, later, served, -, -, -, answered⟩ :=
    claims_answered_in_turn (.inr fresh) kept [deletion 0, trackAt (hour 14) 0] "n"
  exact ⟨kept, earlier, during, later, served, answered⟩

end Rivals

end NodeAttestation.Cache
