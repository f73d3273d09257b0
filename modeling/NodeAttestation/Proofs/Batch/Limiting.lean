import NodeAttestation.Proofs.Batch.Breakdown
import NodeAttestation.Proofs.Batch.Log

/-!
# What a batch asks of the limiter

The lists of limits are dealt with in the order in which they come, whatever happens to the
attestations between them and however the batch ends.
-/

namespace NodeAttestation

namespace RateLimit

def accepted? (settings : Settings) (now? : Option Instant) (entry : PushedLimit) :
    Option RateLimit :=
  now?.bind fun now => (ofPushed now settings entry).toOption

/-- What the limiter is asked for a list of limits: to apply those that are accepted, one after the
other, and then to persist. -/
def calls (settings : Settings) (clock : Clock) (entries : List PushedLimit) : List Action :=
  (entries.filterMap (accepted? settings clock.now?)).map .applied ++ [.persisted]

theorem calls_cons (settings : Settings) (clock : Clock) (entry : PushedLimit)
    (entries : List PushedLimit) :
    calls settings clock (entry :: entries) =
      (accepted? settings clock.now? entry).toList.map .applied ++
        calls settings clock entries := by
  rw [calls, List.filterMap_cons]
  cases accepted? settings clock.now? entry <;> rfl

theorem filter_calls (settings : Settings) (clock : Clock) (entries : List PushedLimit) :
    (calls settings clock entries).filter Action.isLimiting = calls settings clock entries := by
  rw [List.filter_eq_self]
  intro action haction
  rcases List.mem_append.1 haction with happlied | hpersisted
  · obtain ⟨limit, -, rfl⟩ := List.mem_map.1 happlied
    rfl
  · cases List.mem_singleton.1 hpersisted
    rfl

end RateLimit

/-- Times on a clock that is never put back. -/
def Clock.RunsOn : Clock → List Clock → Clock → Prop
  | first, [], last => first.nanos ≤ last.nanos
  | first, clock :: clocks, last => first.nanos ≤ clock.nanos ∧ RunsOn clock clocks last

namespace Clock

variable {first next last : Clock} {clocks : List Clock}

theorem RunsOn.le (runs : RunsOn first clocks last) : first.nanos ≤ last.nanos := by
  induction clocks generalizing first with
  | nil => exact runs
  | cons clock clocks ih => exact Int.le_trans runs.1 (ih runs.2)

theorem RunsOn.mono (runs : RunsOn first clocks next) (h : next.nanos ≤ last.nanos) :
    RunsOn first clocks last := by
  induction clocks generalizing first with
  | nil => exact Int.le_trans runs h
  | cons clock clocks ih => exact ⟨runs.1, ih runs.2⟩

theorem RunsOn.concat (runs : RunsOn first clocks last) : RunsOn first (clocks ++ [last]) last := by
  induction clocks generalizing first with
  | nil => exact ⟨runs, Int.le_refl _⟩
  | cons clock clocks ih => exact ⟨runs.1, ih runs.2⟩

end Clock

namespace Client

/-- A client has received lists of limits one after the other, each at a time of its own, and has
asked nothing else of its limiter. No limit of the lists was fatal. -/
def Hears (settings : Settings) (c : Client) (lists : List (List PushedLimit)) (next : Client) :
    Prop :=
  ∃ clocks : List Clock, clocks.length = lists.length ∧ c.clock.RunsOn clocks next.clock ∧
    (∀ heard ∈ clocks.zip lists, ∀ entry ∈ heard.2, ¬IsFatal settings (heard.1.now?, entry)) ∧
    ∃ actions, c.Adds actions next ∧
      actions.filter Action.isLimiting =
        (List.zipWith (RateLimit.calls settings) clocks lists).flatten

section Receiving

variable {settings : Settings} {c d next : Client} {lists : List (List PushedLimit)}
  {entries : List PushedLimit} {entry : PushedLimit}

theorem receiveLimit?_adds (h : c.receiveLimit? settings entry = some next) :
    c.Adds ((RateLimit.accepted? settings c.now? entry).toList.map .applied) next := by
  rw [receiveLimit?] at h
  cases hnow : c.now? with
  | none => simp [hnow] at h
  | some now =>
    simp only [hnow] at h
    rw [RateLimit.accepted?, Option.bind_some]
    split at h
    · rename_i limit accepted
      rw [accepted]
      exact adds_of_applyLimit? h
    · cases h
    · rename_i rejected
      cases h
      rw [rejected]
      exact .refl _

theorem receiveLimits_adds (h : c.receiveLimits settings entries = (some (), next)) :
    c.Adds (RateLimit.calls settings c.clock entries) next := by
  induction entries generalizing c with
  | nil =>
    cases h
    exact c.adds_persistLimits
  | cons entry entries ih =>
    rw [receiveLimits] at h
    split at h
    · rename_i d hd
      rw [RateLimit.calls_cons]
      obtain ⟨limiter, log, rfl⟩ := receiveLimit?_frame hd
      exact (receiveLimit?_adds hd).trans (ih h)
    · cases h

theorem Hears.refl (settings : Settings) (c : Client) : c.Hears settings [] c :=
  ⟨[], rfl, Int.le_refl _, fun _ hheard => (nomatch hheard), [], .refl c, rfl⟩

theorem filter_eq_nil_of_avoids {actions : List Action}
    (h : ∀ action ∈ actions, action.isLimiting = false) :
    actions.filter Action.isLimiting = [] := by
  simpa using h

theorem Hears.quiet (hears : c.Hears settings lists d)
    (avoids : d.Avoids Action.isLimiting next) : c.Hears settings lists next := by
  have clock := avoids.clock_le
  obtain ⟨clocks, hlength, runs, safe, actions, adds, hactions⟩ := hears
  obtain ⟨more, hmore, later⟩ := avoids
  refine ⟨clocks, hlength, runs.mono clock, safe, actions ++ more, adds.trans later, ?_⟩
  rw [List.filter_append, hactions, filter_eq_nil_of_avoids hmore, List.append_nil]

theorem Hears.clock_le (hears : c.Hears settings lists next) :
    c.clock.nanos ≤ next.clock.nanos := by
  obtain ⟨clocks, -, runs, -⟩ := hears
  exact runs.le

theorem Hears.heard (hears : c.Hears settings lists d)
    (received : d.receiveLimits settings entries = (some (), next)) :
    c.Hears settings (lists ++ [entries]) next := by
  obtain ⟨clocks, hlength, runs, safe, actions, adds, hactions⟩ := hears
  have later := receiveLimits_adds received
  have unharmed := receiveLimits_eq_none_iff settings entries d
  rw [received] at unharmed
  obtain ⟨limiter, log, rfl⟩ := eq_of_receiveLimits received
  refine ⟨clocks ++ [d.clock], ?_, runs.concat, ?_, _, adds.trans later, ?_⟩
  · simp [hlength]
  · intro heard hheard entry hentry fatal
    rw [List.zip_append hlength] at hheard
    rcases List.mem_append.1 hheard with hold | hnew
    · exact safe heard hold entry hentry fatal
    · cases List.mem_singleton.1 hnew
      exact nomatch unharmed.2 ⟨entry, hentry, fatal⟩
  · rw [List.filter_append, hactions, RateLimit.filter_calls, List.zipWith_append hlength,
      List.flatten_append]
    simp

end Receiving

end Client

namespace Batch

/-- The lists of limits among the messages that precede the first failure. -/
def limitLists : List (Frame.Item Response) → List (List PushedLimit)
  | [] => []
  | item :: items =>
    match Error.ofItem item with
    | .ok (.limits entries) => entries :: limitLists items
    | .ok _ => limitLists items
    | .error _ => []

/-- The lists of limits that a batch has still to deal with. -/
def toHear (b : Batch) : List (List PushedLimit) :=
  if b.hasFailed then [] else limitLists b.messages

/-- A limit of the lists was fatal to a client at some time. -/
def Strikes (settings : Settings) (c : Client) (lists : List (List PushedLimit)) (next : Client) :
    Prop :=
  ∃ clock : Clock, c.clock.nanos ≤ clock.nanos ∧ clock.nanos ≤ next.clock.nanos ∧
    ∃ entries ∈ lists, ∃ entry ∈ entries, IsFatal settings (clock.now?, entry)

/-- What a batch has made of its lists of limits so far: it has dealt with some of them, the others
being to come, or one of them has brought it down. -/
def Obeys (plan : BatchPlan) (items : List (Frame.Item Response)) (c : Client) (b : Batch) :
    Prop :=
  (b.phase ≠ .ended (.error .crashed) ∧
    ∃ lists, c.Hears plan.settings lists b.client ∧ limitLists items = lists ++ b.toHear) ∨
    b.phase = .ended (.error .crashed) ∧ Strikes plan.settings c (limitLists items) b.client

section Steps

variable {plan : BatchPlan} {others : Client → Client → Prop} {b next : Batch} {h gains : History}
  {items : List (Frame.Item Response)} {c : Client}

theorem toHear_of_unfailed (h : b.hasFailed = false) : b.toHear = limitLists b.messages := by
  rw [toHear, h, if_neg Bool.false_ne_true]

theorem toHear_fail (b : Batch) (failure : Failure) : (b.fail failure).toHear = [] := rfl

/-- All that a step does about lists of limits: nothing, or it deals with the first of those that
are left, or that one is fatal. -/
inductive Attends (plan : BatchPlan) (b next : Batch) : Prop
  | aside (avoids : b.client.Avoids Action.isLimiting next.client) (same : next.toHear = b.toHear)
      (unharmed : next.phase ≠ .ended (.error .crashed))
  | heard {entries : List PushedLimit}
      (received : b.client.receiveLimits plan.settings entries = (some (), next.client))
      (first : b.toHear = entries :: next.toHear)
      (unharmed : next.phase ≠ .ended (.error .crashed))
  | struck {entries : List PushedLimit}
      (received : b.client.receiveLimits plan.settings entries = (none, next.client))
      (first : entries ∈ b.toHear) (crashed : next.phase = .ended (.error .crashed))

theorem toHear_congr (hmessages : limitLists next.messages = limitLists b.messages)
    (hfailed : next.hasFailed = b.hasFailed) : next.toHear = b.toHear := by
  rw [toHear, toHear, hmessages, hfailed]

theorem Step.attends (settled : Settled plan b) (step : Step plan b gains next) :
    Attends plan b next := by
  have unfailed := step.hasFailed_eq_false
  have idle : b.client.Avoids Action.isLimiting b.client := .refl _
  have untouched {first : Batch} {a : Attestation} {taken : List Attestation}
      (admission : Admission plan a first taken next) (client : first.client = b.client) :
      b.client.Avoids Action.isLimiting next.client := by
    rw [admission.client_eq, client]
    exact idle
  -- Messages that are not read stay, and one that is read and is no list changes nothing.
  have goesOn (avoids : b.client.Avoids Action.isLimiting next.client)
      (hmessages : limitLists next.messages = limitLists b.messages)
      (hfailed : next.hasFailed = false) : Attends plan b next :=
    .aside avoids (toHear_congr hmessages (hfailed.trans unfailed.symm))
      (phase_ne_crashed_of_unfailed hfailed)
  cases step with
  | exhausted | persisted => exact goesOn idle rfl rfl
  | ignored _ messages decoded =>
    refine goesOn idle ?_ unfailed
    rw [messages, limitLists, decoded]
  | held _ messages decoded =>
    refine goesOn idle ?_ rfl
    rw [messages, limitLists, decoded]
  | arrived _ messages decoded _ admission =>
    refine goesOn (untouched admission rfl) ?_ ?_
    · rw [admission.messages, messages, limitLists, decoded]
    · rw [hasFailed, admission.phase]
      exact unfailed
  | limited _ messages decoded applied reading =>
    refine .heard applied ?_ ?_
    · rw [toHear_of_unfailed unfailed, messages, limitLists, decoded, toHear_of_unfailed]
      rcases reading with rfl | rfl <;> rfl
    · rcases reading with rfl | rfl <;> rintro ⟨⟩
  | broken _ messages decoded crashed =>
    refine .struck crashed ?_ rfl
    rw [toHear_of_unfailed unfailed, messages, limitLists, decoded]
    exact List.mem_cons_self
  | refused _ messages decoded =>
    refine .aside idle ?_ (by rintro ⟨⟩)
    rw [toHear_of_unfailed unfailed, messages, limitLists, decoded, toHear_fail]
  | went _ _ step | finished _ _ step =>
    exact goesOn (Task.transition_of_step step).avoids rfl unfailed
  | released _ _ admission | resumed _ _ admission =>
    refine goesOn (untouched admission rfl) ?_ ?_
    · rw [admission.messages]
    · rw [hasFailed, admission.phase]
  | counted => exact goesOn idle rfl unfailed
  | vacant phase =>
    unfold Settled at settled
    rw [phase] at settled
    refine .aside idle ?_ (by rintro ⟨⟩)
    rw [toHear_of_unfailed unfailed, settled, toHear_fail, limitLists]
  | concluded => exact goesOn (b.client.avoids_record rfl rfl) rfl rfl

theorem Obeys.attend (obeys : Obeys plan items c b) (unfailed : b.hasFailed = false)
    (clock : b.client.clock.nanos ≤ next.client.clock.nanos) (attends : Attends plan b next) :
    Obeys plan items c next := by
  rcases obeys with ⟨-, lists, hears, hlists⟩ | ⟨crashed, -⟩
  · cases attends with
    | aside avoids same unharmed =>
      refine .inl ⟨unharmed, lists, hears.quiet avoids, ?_⟩
      rw [same, hlists]
    | @heard entries received first unharmed =>
      refine .inl ⟨unharmed, lists ++ [entries], hears.heard received, ?_⟩
      rw [hlists, first, List.append_assoc, List.singleton_append]
    | @struck entries received first crashed =>
      refine .inr ⟨crashed, b.client.clock, hears.clock_le, clock, entries, ?_, ?_⟩
      · rw [hlists]
        exact List.mem_append_right _ first
      · apply (Client.receiveLimits_eq_none_iff plan.settings entries b.client).1
        rw [received]
  · exact absurd crashed (phase_ne_crashed_of_unfailed unfailed)

theorem Run.obeys {d : Client} (run : Run plan others (plan.begin items d) b h)
    (before : c.Hears plan.settings [] d)
    (quiet : ∀ c next, others c next → c.Avoids Action.isLimiting next) :
    Obeys plan items c b := by
  refine run.invariant (I := fun b _ => Obeys plan items c b) ?_ ?_ ?_
  · have begun : d.Avoids Action.isLimiting (plan.begin items d).client :=
      Client.avoids_of_same rfl rfl (Int.le_refl _)
    exact .inl ⟨(fun h => nomatch h), [], before.quiet begun, rfl⟩
  · intro b h gains next run obeys step
    exact obeys.attend step.hasFailed_eq_false step.change.clock_le
      (step.attends (run.settled rfl))
  · intro b h client obeys other
    rcases obeys with ⟨unharmed, lists, hears, hlists⟩ | ⟨crashed, clock, first, last, fatal⟩
    · exact .inl ⟨unharmed, lists, hears.quiet (quiet _ _ other), hlists⟩
    · exact .inr ⟨crashed, clock, first, Int.le_trans last (quiet _ _ other).clock_le, fatal⟩

/-- A batch that has ended has no messages left that it would still have dealt with. -/
theorem toHear_of_ended {result : Result} (settled : Settled plan b)
    (ended : b.result? = some result) : b.toHear = [] := by
  rw [result?_eq_some] at ended
  unfold Settled at settled
  rw [ended] at settled
  cases result with
  | ok fetched =>
    rw [toHear_of_unfailed (by rw [hasFailed, ended]), settled.1, limitLists]
  | error failure => rw [toHear, hasFailed, ended, if_pos rfl]

theorem Obeys.hears {result : Result} (obeys : Obeys plan items c b) (settled : Settled plan b)
    (ended : b.result? = some result) (unharmed : result ≠ .error .crashed) :
    c.Hears plan.settings (limitLists items) b.client := by
  rcases obeys with ⟨-, lists, hears, hlists⟩ | ⟨crashed, -⟩
  · rw [toHear_of_ended settled ended, List.append_nil] at hlists
    rwa [hlists]
  · rw [result?_eq_some, crashed] at ended
    cases ended
    exact absurd rfl unharmed

theorem Obeys.strikes (obeys : Obeys plan items c b)
    (ended : b.result? = some (.error .crashed)) :
    Strikes plan.settings c (limitLists items) b.client := by
  rcases obeys with ⟨unharmed, -⟩ | ⟨-, strikes⟩
  · exact absurd (result?_eq_some.1 ended) unharmed
  · exact strikes

end Steps

end Batch

namespace BatchPlan

/-- The lists of limits that come with a reply. -/
def limitLists (plan : BatchPlan) : Reply → List (List PushedLimit)
  | .response status body => if status = 200 then Batch.limitLists (plan.messages body) else []
  | _ => []

/-- The limiter is asked to deal with the lists of limits that precede the first failure of the
response, one after the other, and is asked for nothing else, whatever the verifier answers, in
whichever order the tasks go on and however the batch ends. A batch only crashes over a limit of
these lists that was fatal when it came. -/
theorem hears_limitLists (plan : BatchPlan) (schedule : Schedule) (request : Request)
    (reply : Reply) (c : Client) :
    ((plan.fetch schedule request reply c).1 ≠ .error .crashed →
      c.Hears plan.settings (plan.limitLists reply) (plan.fetch schedule request reply c).2) ∧
    ((plan.fetch schedule request reply c).1 = .error .crashed →
      Batch.Strikes plan.settings c (plan.limitLists reply)
        (plan.fetch schedule request reply c).2) := by
  have connecting : c.Hears plan.settings [] (c.record (.connecting plan.job.request)) :=
    (Client.Hears.refl _ c).quiet (c.avoids_record rfl rfl)
  cases reply with
  | unreachable reason => exact ⟨fun _ => connecting, by rintro ⟨⟩⟩
  | broken reason =>
    have breaks : (c.record (.connecting plan.job.request)).Avoids Action.isLimiting
        ((c.record (.connecting plan.job.request)).record (.interrupted request)) :=
      Client.avoids_record _ rfl rfl
    exact ⟨fun _ => connecting.quiet breaks, by rintro ⟨⟩⟩
  | response status body =>
    rw [fetch, limitLists]
    have asks : (c.record (.connecting plan.job.request)).Avoids Action.isLimiting
        ((c.record (.connecting plan.job.request)).record (.requested request)) :=
      Client.avoids_record _ rfl rfl
    have requested := connecting.quiet asks
    by_cases accepted : status = 200
    · rw [if_pos accepted, if_pos accepted]
      obtain ⟨last, h, run, ended, hclient⟩ := Batch.exists_run_of_process plan schedule body
        ((c.record (.connecting plan.job.request)).record (.requested request))
      have obeys := Batch.Run.obeys run requested
        (by rintro c _ ⟨nanos, rfl⟩; exact c.avoids_pass nanos)
      rw [← hclient]
      constructor
      · intro unharmed
        exact obeys.hears (run.settled rfl) ended unharmed
      · intro crashed
        rw [crashed] at ended
        exact obeys.strikes ended
    · rw [if_neg accepted, if_neg accepted]
      exact ⟨fun _ => requested, by rintro ⟨⟩⟩

section Interleaved

def sampleLimit : PushedLimit :=
  { PushedLimit.empty with
    requestCount := 5
    windowSeconds := .ofNat 60
    lifetimeSeconds := .ofNat 600 }

def sampleLimited : RateLimit where
  filter := ⟨none, none, none, .empty⟩
  requestCount := 5
  windowSeconds := .ofNat 60
  jitter := .zero
  expiresAt :=
    { Instant.epoch with second := 10 * 60, earliest_le := by decide, le_latest := by decide }

/-- Lists of limits among attestations beyond the cap, one with an entry that is rejected, and the
second before a message that cannot be decoded. -/
def interleaved : Body :=
  ⟨[Batch.sampleResponse "a", .limits [.empty, sampleLimit], Batch.sampleResponse "b",
      .limits []].map
      (fun message => Frame.encode message.encode) ++
    [Frame.encode [255], Frame.encode (Response.limits [sampleLimit]).encode], none⟩

def interleavedFetch : Batch.Result × Client :=
  (Batch.samplePlan 1).fetch .inTurn
    ((Batch.samplePlan 1).request .empty ⟨false, false, true, none⟩)
    (.response 200 interleaved) Batch.sampleClient

theorem hears_limitLists_of_interleaved :
    interleavedFetch.1 ≠ .error .crashed ∧
      (Batch.samplePlan 1).limitLists (.response 200 interleaved) =
        [[.empty, sampleLimit], []] ∧
      Batch.sampleClient.Hears .initial [[.empty, sampleLimit], []] interleavedFetch.2 ∧
      interleavedFetch.2.log.filter Action.isLimiting =
        [.applied sampleLimited, .persisted, .persisted] := by
  have unharmed : interleavedFetch.1 ≠ .error .crashed := by
    intro crashed
    have intact : Batch.isCrashed interleavedFetch.1 = false := by decide +kernel
    rw [crashed] at intact
    cases intact
  have lists : (Batch.samplePlan 1).limitLists (.response 200 interleaved) =
      [[.empty, sampleLimit], []] := by decide +kernel
  have hears := (hears_limitLists (Batch.samplePlan 1) .inTurn
    ((Batch.samplePlan 1).request .empty ⟨false, false, true, none⟩) (.response 200 interleaved)
    Batch.sampleClient).1 unharmed
  rw [lists] at hears
  exact ⟨unharmed, lists, hears, by decide +kernel⟩

end Interleaved

end BatchPlan

end NodeAttestation
