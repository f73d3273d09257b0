import NodeAttestation.Proofs.Batch.Isolation
import NodeAttestation.Proofs.Batch.Log
import NodeAttestation.Proofs.Wire.Messages

/-!
# Invocations in rounds

An invocation fetches its batches in rounds, with one exchange each. A round begins where the one
before it has ended, and a round that fails is the last.
-/

namespace NodeAttestation

/-- A batch as an invocation has fetched it, or has failed to. -/
structure Round where
  plan : BatchPlan
  request : Request
  before : Client
  result : Batch.Result
  after : Client

def uuidHeader : String := "x-request-uuid"

namespace Round

def batch (round : Round) : Nat := round.plan.job.batch

/-- Between two rounds, identifiers are minted and nothing else is done. -/
def Chain : Client → List Round → Client → Prop
  | c, [], last => last = c
  | c, round :: rounds, last =>
    (∃ minted, round.before = { c with minted := minted }) ∧ Chain round.after rounds last

/-- The exchange of a round and the request that is sent in it. -/
structure Conforms (i : Invocation) (setting : Invocation.Setting) (round : Round) : Prop where
  exchange : ∃ actions, round.before.Adds (.connecting round.request.id :: actions) round.after ∧
    (actions.filter Action.isExchange = [.requested round.request] ∨
      (actions = [.interrupted round.request] ∨ actions = []) ∧
        ∃ failure, round.result = .error failure)
  uuid : round.request.headers.find? uuidHeader = some round.request.id.text
  headers : ∀ name, name ≠ uuidHeader →
    round.request.headers.find? name = setting.headers.find? name
  body : ∃ count, AttestationRequest.decode round.request.body = .ok (.forCount count) ∧
    count.toNat = min i.limits.attestationsPerRequest (2 ^ 32 - 1)

/-- What a round has done to the cache and to the limiter is still there. -/
structure Outlives (w : Workload) (round : Round) (last : Client) : Prop where
  cache : round.after.cache.Retains w round.batch last.cache
  limiter : ∃ actions, round.after.Adds actions last

end Round

theorem Action.filterMap_connecting? (actions : List Action) :
    actions.filterMap connecting? = (actions.filter isExchange).filterMap connecting? := by
  induction actions with
  | nil => rfl
  | cons action actions ih =>
    cases action with
    | connecting request =>
      rw [List.filter_cons_of_pos rfl]
      exact congrArg (request :: ·) ih
    | requested request | interrupted request =>
      rw [List.filter_cons_of_pos rfl]
      exact ih
    | _ => exact ih

namespace Invocation

/-- The numbers of the batches that are fetched if none fails. -/
def batchIds (i : Invocation) : List Nat :=
  match i.selection with
  | .all => List.range i.limits.batches
  | .single batch => [batch]

def round (i : Invocation) (services : Services) (setting : Setting) (attempt batch : Nat)
    (c : Client) : Round :=
  let (id, reportedAs, before) := i.mintIds c
  let plan := i.plan services.verifier setting id reportedAs batch
  let request := plan.request (setting.headers.insert uuidHeader id.text) i.transport
  let (result, after) := plan.fetch services.schedule request (services.network attempt) before
  ⟨plan, request, before, result, after⟩

/-- The rounds in which so many batches are fetched one after the other, and what they come to. -/
inductive Rounds (i : Invocation) (services : Services) (setting : Setting) :
    (count attempt batch : Nat) → Client → List Round → Result → Client → Prop
  | done {attempt batch : Nat} {c : Client} :
      Rounds i services setting 0 attempt batch c [] (.ok []) c
  | failed {count attempt batch : Nat} {c : Client} {round : Round} {failure : Failure}
      (opened : round = i.round services setting attempt batch c)
      (result : round.result = .error failure) :
      Rounds i services setting (count + 1) attempt batch c [round] (.error failure) round.after
  | fetched {count attempt batch : Nat} {c last : Client} {round : Round} {rounds : List Round}
      {fetched : FetchedBatch × Nat} {rest : Result}
      (opened : round = i.round services setting attempt batch c)
      (result : round.result = .ok fetched)
      (later : Rounds i services setting count (attempt + 1) (batch + 1) round.after rounds rest
        last) :
      Rounds i services setting (count + 1) attempt batch c (round :: rounds)
        (rest.map (fetched.1 :: ·)) last

variable {i : Invocation} {services : Services} {setting : Setting}

section Round

variable (i : Invocation) (services : Services) (setting : Setting) (attempt batch : Nat)
  (c : Client)

theorem fetchBatch_eq : i.fetchBatch services setting attempt batch c =
    ((i.round services setting attempt batch c).result,
      (i.round services setting attempt batch c).after) := rfl

theorem exists_minted : ∃ minted,
    (i.round services setting attempt batch c).before = { c with minted := minted } := by
  have hmint : ∃ minted, (i.mintIds c).2.2 = { c with minted := minted } := by
    rw [mintIds]
    dsimp only [Client.mint]
    split
    · exact ⟨_, rfl⟩
    · exact ⟨_, rfl⟩
  exact hmint

theorem round_fetches :
    (i.round services setting attempt batch c).plan.Fetches
      (i.round services setting attempt batch c).request
      (i.round services setting attempt batch c).before
      (i.round services setting attempt batch c).result
      (i.round services setting attempt batch c).after :=
  BatchPlan.fetch_fetches ..

theorem round_conforms : (i.round services setting attempt batch c).Conforms i setting where
  exchange := (i.round_fetches services setting attempt batch c).adds
  uuid := SortedMap.find?_insert_self ..
  headers _ hname := SortedMap.find?_insert_of_ne _ _ hname
  body := by
    refine ⟨_, AttestationRequest.decode_encode_forCount _, ?_⟩
    apply UInt32.toNat_ofNat_of_lt'
    exact Nat.lt_of_le_of_lt (Nat.min_le_right _ _) (by decide)

theorem round_adds : ∃ actions,
    c.Adds actions (i.round services setting attempt batch c).after ∧
      actions.filterMap Action.connecting? =
        [(i.round services setting attempt batch c).request.id] := by
  obtain ⟨minted, hminted⟩ := i.exists_minted services setting attempt batch c
  obtain ⟨actions, adds, exchange⟩ := (i.round_conforms services setting attempt batch c).exchange
  rw [hminted] at adds
  refine ⟨_, ⟨adds.log, adds.limiter⟩, ?_⟩
  have none : actions.filterMap Action.connecting? = [] := by
    rcases exchange with requested | ⟨rfl | rfl, -⟩
    · rw [Action.filterMap_connecting?, requested]
      rfl
    · rfl
    · rfl
  exact congrArg (_ :: ·) none

theorem round_retains {earlier : Nat} (before : earlier < batch) :
    c.cache.Retains setting.workload earlier
      (i.round services setting attempt batch c).after.cache := by
  obtain ⟨minted, hminted⟩ := i.exists_minted services setting attempt batch c
  have spares := (i.round_fetches services setting attempt batch c).spares
  rw [hminted] at spares
  apply spares.retains
  intro hsame
  exact Nat.ne_of_lt before (Prod.mk.inj hsame).2

end Round

section Rounds

variable {count attempt batch : Nat} {c last : Client} {rounds : List Round} {result : Result}

theorem exists_rounds (i : Invocation) (services : Services) (setting : Setting)
    (count attempt batch : Nat) (c : Client) :
    ∃ rounds, Rounds i services setting count attempt batch c rounds
      (i.fetchBatches services setting count attempt batch c).1
      (i.fetchBatches services setting count attempt batch c).2 := by
  induction count generalizing attempt batch c with
  | zero => exact ⟨[], .done⟩
  | succ count ih =>
    rw [fetchBatches, fetchBatch_eq]
    cases result : (i.round services setting attempt batch c).result with
    | error failure => exact ⟨[_], .failed rfl result⟩
    | ok fetched =>
      obtain ⟨rounds, later⟩ := ih (attempt + 1) (batch + 1)
        (i.round services setting attempt batch c).after
      exact ⟨_ :: rounds, .fetched rfl result later⟩

/-- The rounds are numbered as their batches are. -/
theorem Rounds.exists_eq_round {n : Nat} {round : Round}
    (made : Rounds i services setting count attempt batch c rounds result last)
    (found : rounds[n]? = some round) :
    ∃ before, round = i.round services setting (attempt + n) (batch + n) before := by
  induction made generalizing n with
  | done => cases found
  | failed opened =>
    cases n with
    | zero =>
      cases found
      exact ⟨_, opened⟩
    | succ n => cases found
  | fetched opened _ _ ih =>
    cases n with
    | zero =>
      cases found
      exact ⟨_, opened⟩
    | succ n =>
      rw [Nat.add_comm n 1, ← Nat.add_assoc, ← Nat.add_assoc]
      exact ih found

theorem Rounds.forall_mem {P : Round → Prop}
    (h : ∀ attempt batch c, P (i.round services setting attempt batch c))
    (made : Rounds i services setting count attempt batch c rounds result last) :
    ∀ round ∈ rounds, P round := by
  intro round hround
  obtain ⟨n, found⟩ := List.mem_iff_getElem?.1 hround
  obtain ⟨before, rfl⟩ := made.exists_eq_round found
  exact h _ _ before

theorem Rounds.chain
    (made : Rounds i services setting count attempt batch c rounds result last) :
    Round.Chain c rounds last := by
  induction made with
  | done => rfl
  | failed opened =>
    subst opened
    exact ⟨exists_minted .., rfl⟩
  | fetched opened _ _ ih =>
    subst opened
    exact ⟨exists_minted .., ih⟩

theorem Rounds.batches_prefix
    (made : Rounds i services setting count attempt batch c rounds result last) :
    rounds.map Round.batch <+: List.range' batch count := by
  induction made with
  | done => exact List.prefix_rfl
  | @failed count attempt batch c _ _ opened =>
    subst opened
    rw [List.range'_succ]
    exact List.cons_prefix_cons.2 ⟨rfl, List.nil_prefix⟩
  | fetched opened _ _ ih =>
    subst opened
    rw [List.range'_succ]
    exact List.cons_prefix_cons.2 ⟨rfl, ih⟩

/-- A round that fails is the last. -/
theorem Rounds.eq_of_failed {n : Nat} {round : Round} {failure : Failure}
    (made : Rounds i services setting count attempt batch c rounds result last)
    (found : rounds[n]? = some round) (failed : round.result = .error failure) :
    rounds.length = n + 1 ∧ result = .error failure ∧ last = round.after := by
  induction made generalizing n with
  | done => cases found
  | failed _ hresult =>
    cases n with
    | zero =>
      cases found
      rw [hresult] at failed
      cases failed
      exact ⟨rfl, rfl, rfl⟩
    | succ n => cases found
  | fetched _ succeeded _ ih =>
    cases n with
    | zero =>
      cases found
      rw [succeeded] at failed
      cases failed
    | succ n =>
      obtain ⟨hlength, rfl, hlast⟩ := ih found
      exact ⟨by rw [List.length_cons, hlength], rfl, hlast⟩

theorem Rounds.eq_append_of_error {failure : Failure}
    (made : Rounds i services setting count attempt batch c rounds result last)
    (failed : result = .error failure) :
    ∃ earlier final, rounds = earlier ++ [final] ∧ final.result = .error failure ∧
      ∀ round ∈ earlier, ∃ fetched, round.result = .ok fetched := by
  induction made with
  | done => cases failed
  | @failed _ _ _ _ round _ _ hresult =>
    cases failed
    exact ⟨[], round, rfl, hresult, fun _ hround => nomatch hround⟩
  | @fetched _ _ _ _ _ round _ fetched rest _ hresult _ ih =>
    have hrest : rest = .error failure := by
      cases rest with
      | error other =>
        cases failed
        rfl
      | ok batches => cases failed
    obtain ⟨earlier, final, rfl, hfinal, hearlier⟩ := ih hrest
    refine ⟨round :: earlier, final, rfl, hfinal, ?_⟩
    intro other hother
    rcases List.mem_cons.1 hother with rfl | hlater
    · exact ⟨fetched, hresult⟩
    · exact hearlier other hlater

theorem Rounds.responses_of_ok {batches : List FetchedBatch}
    (made : Rounds i services setting count attempt batch c rounds result last)
    (ended : result = .ok batches) :
    rounds.map Round.batch = List.range' batch count ∧
      rounds.map (·.result.map (·.1)) = batches.map .ok ∧
      batches.map (·.id) = rounds.map (·.request.id) := by
  induction made generalizing batches with
  | done =>
    cases ended
    exact ⟨rfl, rfl, rfl⟩
  | failed => cases ended
  | @fetched count attempt batch c _ round rounds fetched rest opened hresult _ ih =>
    cases rest with
    | error failure => cases ended
    | ok others =>
      cases ended
      obtain ⟨hbatches, hresults, hids⟩ := ih rfl
      have hid : fetched.1.id = round.request.id := by
        have fetches := i.round_fetches services setting attempt batch c
        rw [← opened, hresult] at fetches
        rw [fetches.id_eq, opened]
        rfl
      subst opened
      rw [List.range'_succ]
      refine ⟨?_, ?_, ?_⟩
      · exact congrArg (batch :: ·) hbatches
      · rw [List.map_cons, hresult, hresults]
        rfl
      · rw [List.map_cons, List.map_cons, hid, hids]

/-- The batches before those that are fetched are as they were. -/
theorem Rounds.retains
    (made : Rounds i services setting count attempt batch c rounds result last) {earlier : Nat}
    (before : earlier < batch) : c.cache.Retains setting.workload earlier last.cache := by
  induction made with
  | done => exact .refl _ _ _
  | failed opened =>
    subst opened
    exact i.round_retains services setting _ _ _ before
  | fetched opened _ _ ih =>
    subst opened
    exact (i.round_retains services setting _ _ _ before).trans (ih (Nat.lt_succ_of_lt before))

theorem Rounds.adds
    (made : Rounds i services setting count attempt batch c rounds result last) :
    ∃ actions, c.Adds actions last ∧
      actions.filterMap Action.connecting? = rounds.map (·.request.id) := by
  induction made with
  | done => exact ⟨[], .refl _, rfl⟩
  | failed opened =>
    subst opened
    obtain ⟨actions, adds, opens⟩ := i.round_adds services setting _ _ _
    exact ⟨actions, adds, opens⟩
  | fetched opened _ _ ih =>
    subst opened
    obtain ⟨actions, adds, opens⟩ := i.round_adds services setting _ _ _
    obtain ⟨more, later, hmore⟩ := ih
    refine ⟨actions ++ more, adds.trans later, ?_⟩
    rw [List.filterMap_append, opens, hmore]
    rfl

theorem Rounds.outlives
    (made : Rounds i services setting count attempt batch c rounds result last) :
    ∀ round ∈ rounds, round.Outlives setting.workload last := by
  induction made with
  | done =>
    intro round hround
    cases hround
  | failed =>
    intro round hround
    cases List.mem_singleton.1 hround
    exact ⟨.refl _ _ _, [], .refl _⟩
  | fetched opened _ later ih =>
    intro round hround
    rcases List.mem_cons.1 hround with rfl | hlater
    · -- All later rounds are for batches with higher numbers.
      subst opened
      obtain ⟨actions, adds, -⟩ := later.adds
      exact ⟨later.retains (Nat.lt_succ_self _), actions, adds⟩
    · exact ih round hlater

end Rounds

theorem range'_eq_batchIds (i : Invocation) :
    List.range' (i.selection.range i.limits.batches).first
      (i.selection.range i.limits.batches).count = i.batchIds := by
  rw [batchIds]
  cases i.selection with
  | all =>
    have hpositive : 1 ≤ i.limits.batches := Nat.le_max_right _ _
    dsimp only [Selection.range]
    rw [Nat.max_eq_left hpositive, List.range_eq_range']
  | single batch => rfl

theorem run_eq_fetchBatches {workload : Workload} (c : Client)
    (derived : Workload.derive? i.pipeline = some workload)
    (prepared : i.prepare workload c = .ok setting) :
    i.run services c = i.fetchBatches services setting (i.selection.range i.limits.batches).count 0
      (i.selection.range i.limits.batches).first c := by
  rw [run, derived]
  dsimp only
  rw [prepared]

/-- Once it is settled what is fetched, the exchanges are made in rounds that follow one another,
for the batches in their order. Their requests differ in nothing but the identifiers they are
opened with. The first round that fails is the last, its failure is the result, and it leaves the
client as the invocation does; but what the rounds before it have done is kept. If none fails, the
result is the batches of all rounds. -/
theorem exists_rounds_of_run (i : Invocation) (services : Services) {workload : Workload}
    {c : Client} (derived : Workload.derive? i.pipeline = some workload)
    (prepared : i.prepare workload c = .ok setting) :
    ∃ rounds, Rounds i services setting (i.selection.range i.limits.batches).count 0
        (i.selection.range i.limits.batches).first c rounds (i.run services c).1
        (i.run services c).2 ∧
      Round.Chain c rounds (i.run services c).2 ∧
      rounds.map Round.batch <+: i.batchIds ∧
      (∃ actions, c.Adds actions (i.run services c).2 ∧
        actions.filterMap Action.connecting? = rounds.map (·.request.id)) ∧
      (∀ round ∈ rounds, round.Conforms i setting ∧
        round.Outlives setting.workload (i.run services c).2) ∧
      (∀ k round failure, rounds[k]? = some round → round.result = .error failure →
        rounds.length = k + 1 ∧ (i.run services c).1 = .error failure ∧
          (i.run services c).2 = round.after) ∧
      (∀ failure, (i.run services c).1 = .error failure →
        ∃ earlier final, rounds = earlier ++ [final] ∧ final.result = .error failure ∧
          ∀ round ∈ earlier, ∃ fetched, round.result = .ok fetched) ∧
      ∀ batches, (i.run services c).1 = .ok batches →
        rounds.map Round.batch = i.batchIds ∧
          rounds.map (·.result.map (·.1)) = batches.map .ok ∧
          batches.map (·.id) = rounds.map (·.request.id) := by
  rw [run_eq_fetchBatches c derived prepared, ← range'_eq_batchIds]
  obtain ⟨rounds, made⟩ := i.exists_rounds services setting
    (i.selection.range i.limits.batches).count 0 (i.selection.range i.limits.batches).first c
  refine ⟨rounds, made, made.chain, made.batches_prefix, made.adds, ?_, ?_, ?_, ?_⟩
  · intro round hround
    constructor
    · exact made.forall_mem (i.round_conforms services setting) round hround
    · exact made.outlives round hround
  · intro k round failure found failed
    exact made.eq_of_failed found failed
  · intro failure failed
    exact made.eq_append_of_error failed
  · intro batches ended
    exact made.responses_of_ok ended

section Broken

def fourInvocation : Invocation := Batch.sampleInvocation .initial ⟨none, some 4, none⟩

/-- Services whose third reply is a refusal. -/
def brokenServices : Services :=
  let services := Batch.sampleServices [Batch.sampleResponse "a"]
  { services with
    network := fun attempt =>
      if attempt = 2 then .response 503 ⟨[], none⟩ else services.network attempt }

/-- Of four batches the third fails, and the fourth is not asked for. -/
theorem exists_rounds_of_brokenServices :
    ∃ setting rounds,
      Workload.derive? fourInvocation.pipeline = some Batch.sampleJob.workload ∧
      fourInvocation.prepare Batch.sampleJob.workload Batch.sampleClient = .ok setting ∧
      Rounds fourInvocation brokenServices setting 4 0 0 Batch.sampleClient rounds
        (fourInvocation.run brokenServices Batch.sampleClient).1
        (fourInvocation.run brokenServices Batch.sampleClient).2 ∧
      fourInvocation.batchIds = [0, 1, 2, 3] ∧ rounds.map Round.batch = [0, 1, 2] ∧
      ∃ earlier final, rounds = earlier ++ [final] ∧
        final.result = .error (.error (.status 503)) ∧
        (fourInvocation.run brokenServices Batch.sampleClient).2 = final.after ∧
        ∀ round ∈ earlier, ∃ fetched, round.result = .ok fetched := by
  have derived : Workload.derive? fourInvocation.pipeline = some Batch.sampleJob.workload := by rfl
  have prepares : (fourInvocation.prepare Batch.sampleJob.workload
      Batch.sampleClient).toOption.isSome = true := by decide +kernel
  have failed : (fourInvocation.run brokenServices Batch.sampleClient).1 =
      .error (.error (.status 503)) := by rfl
  have opened : (fourInvocation.run brokenServices Batch.sampleClient).2.log.filterMap
      Action.connecting? = [⟨0⟩, ⟨2⟩, ⟨4⟩] := by decide +kernel
  cases prepared : fourInvocation.prepare Batch.sampleJob.workload Batch.sampleClient with
  | error failure =>
    rw [prepared] at prepares
    cases prepares
  | ok setting =>
    obtain ⟨rounds, made, -, batches, ⟨actions, adds, ids⟩, -, failing, error, -⟩ :=
      fourInvocation.exists_rounds_of_run brokenServices derived prepared
    have hlength : rounds.length = 3 := by
      rw [adds.log] at opened
      have hids : rounds.map (·.request.id) = [⟨0⟩, ⟨2⟩, ⟨4⟩] := ids.symm.trans opened
      have hmap := congrArg List.length hids
      rwa [List.length_map] at hmap
    have hbatches : rounds.map Round.batch = [0, 1, 2] := by
      rw [List.prefix_iff_eq_take.1 batches, List.length_map, hlength]
      rfl
    obtain ⟨earlier, final, hrounds, hfinal, hearlier⟩ := error _ failed
    have found : rounds[earlier.length]? = some final := by
      rw [hrounds, List.getElem?_concat_length]
    obtain ⟨-, -, hlast⟩ := failing _ final _ found hfinal
    exact ⟨setting, rounds, derived, rfl, made, by decide, hbatches, earlier, final, hrounds,
      hfinal, hlast, hearlier⟩

end Broken

end Invocation

end NodeAttestation
