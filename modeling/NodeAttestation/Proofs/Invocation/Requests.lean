import NodeAttestation.Proofs.Cache.Operations
import NodeAttestation.Proofs.Invocation.Refusal
import NodeAttestation.Proofs.Json.Finite
import NodeAttestation.Proofs.Json.Members

/-!
# Workloads on the wire

Every request of an invocation names its workload in two headers. The cache keeps two workloads
apart exactly where the service can tell them apart by these headers.
-/

namespace NodeAttestation

def workloadHeader : String := "x-workload"

def argumentsHeader : String := "x-workload-parameters"

/-- Headers name a workload. -/
structure Headers.Names (headers : Headers) (w : Workload) : Prop where
  kind : headers.find? workloadHeader = some w.kind
  arguments : headers.find? argumentsHeader = some w.argumentsText

namespace Headers

variable {headers next : Headers} {name value : String} {w : Workload}

theorem eq_insert_of_put (h : headers.put name value = .ok next) :
    next = headers.insert name value := by
  rw [put] at h
  split at h
  · exact (Except.ok.inj h).symm
  · cases h

theorem Names.insert (names : headers.Names w) (hkind : workloadHeader ≠ name)
    (harguments : argumentsHeader ≠ name) : Names (SortedMap.insert headers name value) w where
  kind := by rw [SortedMap.find?_insert_of_ne _ _ hkind, names.kind]
  arguments := by rw [SortedMap.find?_insert_of_ne _ _ harguments, names.arguments]

theorem Names.put (names : headers.Names w) (h : headers.put name value = .ok next)
    (hkind : workloadHeader ≠ name) (harguments : argumentsHeader ≠ name) : next.Names w := by
  rw [eq_insert_of_put h]
  exact names.insert hkind harguments

theorem Names.putOption {value : Option String} (names : headers.Names w)
    (h : headers.putOption name value = .ok next) (hkind : workloadHeader ≠ name)
    (harguments : argumentsHeader ≠ name) : next.Names w := by
  cases value with
  | none =>
    cases h
    exact names
  | some value => exact names.put h hkind harguments

end Headers

namespace Invocation

open Json (exists_of_bind_eq_ok)

variable {i : Invocation} {services : Services} {setting : Setting}

/-- Some run of an invocation sends a request. -/
def Sends (i : Invocation) (request : Request) : Prop :=
  ∃ services c actions, (i.run services c).2.log = c.log ++ actions ∧
    ∃ action ∈ actions, action.request? = some request

section Headers

theorem headers_names {workload : Workload} {caller : Caller} {sent : Headers}
    (h : i.headers workload caller = .ok sent) : sent.Names workload := by
  obtain ⟨client, -, h⟩ := exists_of_bind_eq_ok h
  obtain ⟨kind, hkind, h⟩ := exists_of_bind_eq_ok h
  obtain ⟨named, harguments, h⟩ := exists_of_bind_eq_ok h
  have names : named.Names workload := by
    rw [Headers.eq_insert_of_put harguments, Headers.eq_insert_of_put hkind]
    constructor
    · rw [SortedMap.find?_insert_of_ne _ _ (by decide), workloadHeader,
        SortedMap.find?_insert_self]
    · exact SortedMap.find?_insert_self ..
  obtain ⟨feature, hfeature, h⟩ := exists_of_bind_eq_ok h
  obtain ⟨bundle, hbundle, h⟩ := exists_of_bind_eq_ok h
  obtain ⟨group, hgroup, h⟩ := exists_of_bind_eq_ok h
  obtain ⟨options, hoptions, h⟩ := exists_of_bind_eq_ok h
  obtain ⟨hint, hhint, h⟩ := exists_of_bind_eq_ok h
  obtain ⟨forced, hforced, h⟩ := exists_of_bind_eq_ok h
  obtain ⟨content, hcontent, hagent⟩ := exists_of_bind_eq_ok h
  have names := names.put hfeature (by decide) (by decide)
  have names := names.putOption hbundle (by decide) (by decide)
  have names := names.putOption hgroup (by decide) (by decide)
  have names := names.putOption hoptions (by decide) (by decide)
  have names := names.putOption hhint (by decide) (by decide)
  have names := names.putOption hforced (by decide) (by decide)
  have names := names.put hcontent (by decide) (by decide)
  exact names.put hagent (by decide) (by decide)

theorem prepare_names {workload : Workload} {c : Client}
    (prepared : i.prepare workload c = .ok setting) : setting.headers.Names workload := by
  obtain ⟨_, -, h⟩ := exists_of_bind_eq_ok prepared
  obtain ⟨caller, -, h⟩ := exists_of_bind_eq_ok h
  obtain ⟨sent, hsent, h⟩ := exists_of_bind_eq_ok h
  obtain ⟨now, -, h⟩ := exists_of_bind_eq_ok h
  cases h
  cases hheaders : i.headers workload caller with
  | error e =>
    rw [hheaders] at hsent
    cases hsent
  | ok headers =>
    rw [hheaders] at hsent
    cases hsent
    exact headers_names hheaders

end Headers

section Rounds

theorem round_requested (i : Invocation) (services : Services) (setting : Setting)
    (attempt batch : Nat) (c : Client) :
    ∃ actions, (i.round services setting attempt batch c).after.log = c.log ++ actions ∧
      ∀ action ∈ actions, ∀ request, action.request? = some request →
        request = (i.round services setting attempt batch c).request := by
  obtain ⟨minted, hminted⟩ := i.exists_minted services setting attempt batch c
  obtain ⟨actions, adds, exchange⟩ := (i.round_conforms services setting attempt batch c).exchange
  rw [hminted] at adds
  refine ⟨_, adds.log, ?_⟩
  intro action haction request names
  rcases List.mem_cons.1 haction with rfl | haction
  · cases names
  · rcases exchange with requested | ⟨rfl | rfl, -⟩
    · have hmem : action ∈ actions.filter Action.isExchange :=
        List.mem_filter.2 ⟨haction, Action.isExchange_of_request? names⟩
      rw [requested, List.mem_singleton] at hmem
      rw [hmem] at names
      exact (Option.some.inj names).symm
    · rw [List.mem_singleton.1 haction] at names
      exact (Option.some.inj names).symm
    · cases haction

theorem Rounds.exists_round_of_requested {count attempt batch : Nat} {c last : Client}
    {rounds : List Round} {result : Result} {actions : List Action} {action : Action}
    {request : Request} (names : action.request? = some request)
    (made : Rounds i services setting count attempt batch c rounds result last)
    (added : last.log = c.log ++ actions) (sent : action ∈ actions) :
    ∃ round ∈ rounds, round.request = request := by
  induction made generalizing actions with
  | done =>
    rw [List.self_eq_append_right.1 added] at sent
    cases sent
  | failed opened =>
    subst opened
    obtain ⟨own, hown, same⟩ := i.round_requested services setting _ _ _
    rw [List.append_cancel_left (added.symm.trans hown)] at sent
    exact ⟨_, List.mem_cons_self, (same action sent request names).symm⟩
  | fetched opened _ later ih =>
    subst opened
    obtain ⟨own, hown, same⟩ := i.round_requested services setting _ _ _
    obtain ⟨more, adds, -⟩ := later.adds
    have hsplit := adds.log
    rw [added, hown, List.append_assoc] at hsplit
    rw [List.append_cancel_left hsplit] at sent
    rcases List.mem_append.1 sent with hown | hmore
    · exact ⟨_, List.mem_cons_self, (same action hown request names).symm⟩
    · obtain ⟨round, hround, hrequest⟩ := ih adds.log hmore
      exact ⟨round, List.mem_cons_of_mem _ hround, hrequest⟩

/-- Whatever an invocation sends names the workload that it is for. -/
theorem Sends.names {workload : Workload} {request : Request}
    (derived : Workload.derive? i.pipeline = some workload) (sends : i.Sends request) :
    Headers.Names request.headers workload := by
  obtain ⟨services, c, actions, added, action, sent, asks⟩ := sends
  have untouched (same : (i.run services c).2 = c) : actions = [] := by
    rw [same] at added
    exact List.self_eq_append_right.1 added
  cases prepared : i.prepare workload c with
  | error failure =>
    rw [untouched (by rw [run, derived]; dsimp only; rw [prepared])] at sent
    cases sent
  | ok setting =>
    rw [run_eq_fetchBatches c derived prepared] at added
    obtain ⟨rounds, made⟩ := i.exists_rounds services setting _ 0 _ c
    obtain ⟨round, hround, rfl⟩ := Rounds.exists_round_of_requested asks made added sent
    have conforms := made.forall_mem (i.round_conforms services setting) round hround
    have names := prepare_names prepared
    constructor
    · rw [conforms.headers _ (by decide), names.kind]
    · rw [conforms.headers _ (by decide), names.arguments]

end Rounds

end Invocation

namespace Workload

theorem eq_iff_texts_eq (w v : Workload) :
    w = v ↔ w.kind = v.kind ∧ w.argumentsText = v.argumentsText := by
  constructor
  · rintro rfl
    exact ⟨rfl, rfl⟩
  · obtain ⟨kind, arguments⟩ := w
    obtain ⟨_, other⟩ := v
    rintro ⟨rfl, htext⟩
    congr 1
    exact Json.compact_ofTextMap_injective htext

/-- Two workloads share their batches in every cache only if they are the same. -/
theorem eq_iff_batches_eq (w v : Workload) : w = v ↔ ∀ c : Cache, c.batches w = c.batches v := by
  constructor
  · rintro rfl c
    rfl
  · intro shared
    refine Decidable.byContradiction fun hne => ?_
    have hbatches := shared (Cache.empty.setBatch w 0 ⟨.earliest, .empty⟩)
    rw [Cache.batches, Cache.batches, Cache.setBatch, SortedMap.find?_insert_self,
      SortedMap.find?_insert_of_ne _ _ (Ne.symm hne)] at hbatches
    exact SortedMap.insert_ne_empty _ _ _ hbatches

theorem keys_ascending (w : Workload) : w.arguments.keys.Pairwise (· < ·) := by
  rw [SortedMap.keys, List.pairwise_map]
  refine w.arguments.ascending.imp ?_
  intro a b hlt
  exact compareOfLessAndEq_eq_lt.1 hlt

/-- Two workloads are the same, and share their batches in every cache, exactly if their kinds and
the texts of their arguments are the same, which is what the headers of their requests show. The
text of the arguments gives them back, and names them in ascending order. -/
theorem eq_iff_requests_agree {i j : Invocation} {w v : Workload}
    (hw : derive? i.pipeline = some w) (hv : derive? j.pipeline = some v) :
    (w = v ↔ w.kind = v.kind ∧ w.argumentsText = v.argumentsText) ∧
      (w = v ↔ ∀ c : Cache, c.batches w = c.batches v) ∧
      (∀ request other, i.Sends request → j.Sends other →
        (w = v ↔ request.headers.find? workloadHeader = other.headers.find? workloadHeader ∧
          request.headers.find? argumentsHeader = other.headers.find? argumentsHeader)) ∧
      (∀ request, i.Sends request → Headers.Names request.headers w) ∧
      Json.readDocument Json.readTextMap w.argumentsText = .ok w.arguments ∧
      Json.readDocument Json.readTextMembers w.argumentsText = .ok w.arguments.entries ∧
      w.arguments.keys.Pairwise (· < ·) := by
  refine ⟨w.eq_iff_texts_eq v, w.eq_iff_batches_eq v, ?_, ?_, Json.readDocument_textMap _,
    Json.readDocument_textMembers _, w.keys_ascending⟩
  · intro request other hrequest hother
    have names := hrequest.names hw
    have others := hother.names hv
    rw [names.kind, others.kind, names.arguments, others.arguments, Option.some.injEq,
      Option.some.injEq]
    exact w.eq_iff_texts_eq v
  · intro request hrequest
    exact hrequest.names hw

section Spaced

def spacedWorkload (space : String) : Workload :=
  ⟨"chat", .ofList [("q\"", "\\" ++ space), ("a", "\x7b\"b\":1,")]⟩

/-- White space around the kind does not count, white space in an argument does. -/
def spacedInvocation (space : String) : Invocation :=
  { Batch.sampleInvocation .initial .empty with
    pipeline := ⟨" chat ", (spacedWorkload space).arguments⟩ }

/-- Arguments that look like parts of a text themselves are told apart and read as they were. -/
theorem eq_iff_requests_agree_of_spaced :
    (∃ request, (spacedInvocation "").Sends request) ∧
      (∀ request other, (spacedInvocation "").Sends request →
        (spacedInvocation " ").Sends other →
        request.headers.find? workloadHeader = other.headers.find? workloadHeader ∧
          request.headers.find? argumentsHeader ≠ other.headers.find? argumentsHeader) ∧
      Json.readDocument Json.readTextMembers (spacedWorkload "").argumentsText =
        .ok [("a", "\x7b\"b\":1,"), ("q\"", "\\")] := by
  have derived : derive? (spacedInvocation "").pipeline = some (spacedWorkload "") := by
    decide +kernel
  have other_derived : derive? (spacedInvocation " ").pipeline = some (spacedWorkload " ") := by
    decide +kernel
  have differ : spacedWorkload "" ≠ spacedWorkload " " := by decide
  obtain ⟨-, -, agree, names, -, members, -⟩ := eq_iff_requests_agree derived other_derived
  refine ⟨?_, ?_, members⟩
  · have sent : ((spacedInvocation "").run (Batch.sampleServices []) Batch.sampleClient).2.log.any
        (·.request?.isSome) = true := by decide +kernel
    obtain ⟨action, haction, asks⟩ := List.any_eq_true.1 sent
    obtain ⟨request, names⟩ := Option.isSome_iff_exists.1 asks
    exact ⟨request, Batch.sampleServices [], Batch.sampleClient, _, rfl, action, haction, names⟩
  · intro request other hrequest hother
    have hkind : request.headers.find? workloadHeader = other.headers.find? workloadHeader := by
      rw [(names request hrequest).kind, (hother.names other_derived).kind]
      rfl
    refine ⟨hkind, fun harguments => differ ?_⟩
    exact (agree request other hrequest hother).2 ⟨hkind, harguments⟩

end Spaced

end Workload

end NodeAttestation
