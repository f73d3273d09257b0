import NodeAttestation.Proofs.Json.Finite
import NodeAttestation.Proofs.Json.Record
import NodeAttestation.Proofs.RateLimit.Lifetime
import NodeAttestation.RateLimit.Limiter

/-!
# A table of limits that is persisted and loaded again

Filters, counts and the order of the limits come back as they were. So does the time at which a
limit expires, but for one within a leap second inside a minute, which the calendar counts towards
the next second. The window and the jitter come back as a reader makes them of their shortest
decimals, which may be another double.
-/

namespace NodeAttestation

namespace RateLimit

variable {limit : RateLimit} {now : Instant} {settings : Settings} {pushed : PushedLimit}

/-- Both doubles of a limit are numbers, and so they are written as such. -/
def IsFinite (limit : RateLimit) : Prop :=
  limit.windowSeconds.isFinite = true ∧ limit.jitter.isFinite = true

/-- What a limit is read as once it has been written. -/
def restored (limit : RateLimit) : RateLimit :=
  { limit with
    windowSeconds := limit.windowSeconds.reread
    jitter := limit.jitter.reread
    expiresAt := limit.expiresAt.restamped }

structure IsKept (limit : RateLimit) : Prop where
  window : limit.windowSeconds.reread = limit.windowSeconds
  jitter : limit.jitter.reread = limit.jitter
  expiry : ¬limit.expiresAt.IsStray

theorem restored_eq_self_iff : limit.restored = limit ↔ limit.IsKept := by
  constructor
  · intro h
    refine ⟨congrArg RateLimit.windowSeconds h, congrArg RateLimit.jitter h, ?_⟩
    exact Instant.restamped_eq_self_iff.1 (congrArg RateLimit.expiresAt h)
  · rintro ⟨window, jitter, expiry⟩
    rw [restored, window, jitter, Instant.restamped_eq_self_iff.2 expiry]

theorem isKept_of_isShort (finite : limit.IsFinite) (window : limit.windowSeconds.IsShort)
    (jitter : limit.jitter.IsShort) (expiry : ¬limit.expiresAt.IsStray) : limit.IsKept :=
  ⟨Double.reread_eq_self finite.1 window, Double.reread_eq_self finite.2 jitter, expiry⟩

theorem map_restored_eq_self_iff {limits : List RateLimit} :
    limits.map restored = limits ↔ ∀ limit ∈ limits, limit.IsKept := by
  induction limits with
  | nil => simp
  | cons limit limits ih =>
    rw [List.map_cons, List.cons_eq_cons, ih, restored_eq_self_iff, List.forall_mem_cons]

theorem isFinite_of_ofPushed (h : ofPushed now settings pushed = .ok limit) : limit.IsFinite := by
  obtain ⟨⟨hwindow, -, hjitter⟩, expiresAt, -, rfl⟩ := ofPushed_eq_ok_iff.1 h
  rw [Double.isPositive, Bool.and_eq_true] at hwindow
  rw [Double.inUnitInterval, Bool.and_eq_true, Bool.and_eq_true] at hjitter
  exact ⟨hwindow.1, hjitter.1.1⟩

theorem read_gives_isFinite : Json.Gives shape.read IsFinite := by
  have start : shape.start.IsFinite := ⟨by decide +kernel, by decide +kernel⟩
  refine Json.Shape.read_gives start fun field hfield record finite => ?_
  simp only [shape, List.mem_cons, List.not_mem_nil, or_false] at hfield
  rcases hfield with rfl | rfl | rfl | rfl | rfl
  · exact (Json.gives_anything _).required fun _ _ => finite
  · exact (Json.gives_anything _).required fun _ _ => finite
  · exact Json.readDouble_gives.required fun _ hvalue => ⟨hvalue, finite.2⟩
  · exact Json.readDouble_gives.required fun _ hvalue => ⟨finite.1, hvalue⟩
  · exact (Json.gives_anything _).required fun _ _ => finite

theorem reads_filter (filter : Filter) (depth : Nat) :
    Json.Reads Filter.shape.read (filter.toJson.indentedChars depth) filter := by
  refine Json.reads_record ?_ (by simp)
  refine .member rfl rfl (Json.reads_optionalText _ _ _ _ _) ?_
  refine .member rfl rfl (Json.reads_optionalText _ _ _ _ _) ?_
  refine .member rfl rfl (Json.reads_optionalText _ _ _ _ _) ?_
  refine .member rfl rfl ((Json.reads_textMap _ _).required _ _ _) ?_
  exact .done rfl

theorem reads_limit (finite : limit.IsFinite) (depth : Nat) :
    Json.Reads shape.read (limit.toJson.indentedChars depth) limit.restored := by
  refine Json.reads_record ?_ (by simp)
  refine .member rfl rfl ((reads_filter _ _).required _ _ _) ?_
  refine .member rfl rfl ((Json.reads_uint32 _ _).required _ _ _) ?_
  refine .member rfl rfl ((Json.reads_double finite.1 _).required _ _ _) ?_
  refine .member rfl rfl ((Json.reads_double finite.2 _).required _ _ _) ?_
  refine .member rfl rfl ((Json.reads_stamp _).required _ _ _) ?_
  exact .done rfl

theorem ofListText_listText {limits : List RateLimit} (finite : ∀ limit ∈ limits, limit.IsFinite) :
    ofListText (listText limits) = .ok (limits.map restored) := by
  have reads : Json.Reads (Json.readList shape.read)
      ((Json.array (limits.map toJson)).indentedChars 0) (limits.map restored) :=
    Json.reads_list (fun limit => Json.startsItem_object _ _)
      fun limit hlimit => reads_limit (finite limit hlimit) 1
  have hread := reads [] [] Json.allSpace_nil (fun _ h => nomatch h)
  rw [List.nil_append, List.append_nil] at hread
  rw [ofListText, listText, Json.readDocument, Json.indented, String.toList_ofList, hread]
  rfl

end RateLimit

/-- Whatever is written to the file stands in it afterwards. -/
def File.IsWritable (file : File) : Prop := ∀ contents, file.write contents = .present contents

namespace LimitTable

variable {t : LimitTable} {file : File} {now : Instant}

/-- The tables that a client can have come to from a file, applying limits it has accepted. -/
inductive Backed : LimitTable → Prop
  | load {file : File} {t : LimitTable} (loaded : load file = .ok t) : Backed t
  | apply {t : LimitTable} {received now : Instant} {settings : Settings} {pushed : PushedLimit}
      {limit : RateLimit} (backed : Backed t)
      (accepted : RateLimit.ofPushed received settings pushed = .ok limit) :
      Backed (t.apply now limit)
  | persist {t : LimitTable} (backed : Backed t) : Backed t.persist

theorem isFinite_of_load (loaded : load file = .ok t) : ∀ limit ∈ t.limits, limit.IsFinite := by
  rw [load] at loaded
  split at loaded
  · split at loaded
    · rename_i hread
      cases loaded
      exact Json.readDocument_gives (Json.readList_gives RateLimit.read_gives_isFinite) hread
    · cases loaded
  · split at loaded
    · cases loaded
      exact fun _ h => nomatch h
    · cases loaded

theorem Backed.isFinite (backed : Backed t) : ∀ limit ∈ t.limits, limit.IsFinite := by
  induction backed with
  | load loaded => exact isFinite_of_load loaded
  | apply _ accepted ih =>
    intro other hother
    rw [LimitTable.apply, List.mem_append] at hother
    rcases hother with hother | hother
    · exact ih other (List.mem_filter.1 hother).1
    · rw [List.mem_singleton.1 hother]
      exact RateLimit.isFinite_of_ofPushed accepted
  | persist _ ih => exact ih

/-- Loading never fails, for what is finite is written as a number. -/
theorem load_of_backed (backed : Backed t) (hfile : t.file = some file)
    (writable : file.IsWritable) :
    ∃ written, t.persist.file = some written ∧
      load written = .ok ⟨t.limits.map RateLimit.restored, some written⟩ := by
  refine ⟨.present (Bytes.ofText t.text), ?_, ?_⟩
  · rw [persist, hfile, Option.map_some, writable]
  · simp [load, File.readText, text, RateLimit.ofListText_listText backed.isFinite]

theorem active_map_restored {limits : List RateLimit}
    (expiry : ∀ limit ∈ limits, ¬limit.expiresAt.IsStray) (written : Option File) (now : Instant) :
    active ⟨limits.map RateLimit.restored, written⟩ now =
      (active ⟨limits, written⟩ now).map RateLimit.restored := by
  rw [active, active, List.filter_map]
  congr 1
  apply List.filter_congr
  intro limit hlimit
  have hsame := Instant.restamped_eq_self_iff.2 (expiry limit hlimit)
  simp [RateLimit.isExpired, RateLimit.restored, hsame]

/-- A table that has been persisted can be loaded. Filters, counts and order are those it had, as
are the times of expiry to the nanosecond; the whole table comes back if and only if its doubles
are read as what they are and none of its limits expires within a leap second inside a minute.
Doubles of few digits are. -/
theorem load_persist (backed : Backed t) (hfile : t.file = some file) (writable : file.IsWritable) :
    ∃ written loaded, t.persist.file = some written ∧ load written = .ok loaded ∧
      loaded.limits = t.limits.map RateLimit.restored ∧
      loaded.limits.map (fun l => (l.filter, l.requestCount, l.expiresAt.nanos)) =
        t.limits.map (fun l => (l.filter, l.requestCount, l.expiresAt.nanos)) ∧
      (loaded = t.persist ↔ ∀ limit ∈ t.limits, limit.IsKept) ∧
      (∀ limit ∈ t.limits, limit.windowSeconds.IsShort → limit.jitter.IsShort →
        ¬limit.expiresAt.IsStray → limit.IsKept) ∧
      ((∀ limit ∈ t.limits, ¬limit.expiresAt.IsStray) →
        ∀ now, loaded.active now = (t.active now).map RateLimit.restored) := by
  obtain ⟨written, hwritten, hload⟩ := load_of_backed backed hfile writable
  refine ⟨written, _, hwritten, hload, rfl, ?_, ?_, ?_, ?_⟩
  · rw [List.map_map]
    apply List.map_congr_left
    intro limit _
    simp [RateLimit.restored, Instant.nanos_restamped]
  · rw [← RateLimit.map_restored_eq_self_iff]
    constructor
    · exact fun h => congrArg LimitTable.limits h
    · intro h
      rw [h, ← hwritten]
      rfl
  · intro limit hlimit
    exact RateLimit.isKept_of_isShort (backed.isFinite limit hlimit)
  · intro expiry now
    rw [active_map_restored expiry]
    rfl

section Drift

open Double (ofNat)

def nearlyOne : Double := ⟨0x3fefffffffffffff⟩

def quarter : Double := (ofNat 1).div (ofNat 4)

/-- An entry for the feature without a name, whose window is a minute and which lives for ten. -/
def unnamedEntry (jitter : Double) : PushedLimit :=
  { PushedLimit.empty with
    feature := some ""
    requestCount := 5
    windowSeconds := ofNat 60
    lifetimeSeconds := ofNat 600
    jitter := jitter }

def unnamedLimit (jitter : Double) : RateLimit :=
  ⟨⟨none, some "", none, .empty⟩, 5, ofNat 60, jitter,
    { Instant.epoch with second := 600, earliest_le := by decide, le_latest := by decide }⟩

theorem ofPushed_unnamedEntry {jitter : Double} (h : jitter.inUnitInterval = true) :
    RateLimit.ofPushed .epoch .initial (unnamedEntry jitter) = .ok (unnamedLimit jitter) := by
  have hwindow : (ofNat 60).isPositive = true := by decide +kernel
  have hlifetime : (ofNat 600).isPositive = true := by decide +kernel
  have hmillis : RateLimit.lifetimeMillis (ofNat 600) Settings.initial.maxLimitSeconds.toNat =
      600000 := by decide +kernel
  have hexpiry : Instant.epoch.add? (Span.millis 600000) =
      some (unnamedLimit .zero).expiresAt := by decide +kernel
  simp [RateLimit.ofPushed, unnamedEntry, hwindow, hlifetime, h, hmillis, hexpiry, unnamedLimit,
    RateLimit.filterOf, PushedLimit.empty]

theorem isWritable_absent : File.absent.IsWritable := fun _ => rfl

/-- A table in which one limit has been put. -/
def holding (jitter : Double) : LimitTable :=
  LimitTable.apply ⟨[], some .absent⟩ .epoch (unnamedLimit jitter)

theorem backed_holding {jitter : Double} (h : jitter.inUnitInterval = true) :
    Backed (holding jitter) :=
  .apply (.load (show load .absent = .ok ⟨[], some .absent⟩ from rfl)) (ofPushed_unnamedEntry h)

theorem load_persist_of_quarter :
    ∃ written, (holding quarter).persist.file = some written ∧
      load written = .ok (holding quarter).persist := by
  obtain ⟨written, loaded, hwritten, hloaded, -, -, hsame, hshort, -⟩ :=
    load_persist (backed_holding (show quarter.inUnitInterval = true by decide +kernel)) rfl
      isWritable_absent
  refine ⟨written, hwritten, ?_⟩
  rw [hloaded, hsame.2]
  intro limit hlimit
  apply hshort limit hlimit
  all_goals rw [List.mem_singleton.1 hlimit]
  · constructor <;> decide +kernel
  · constructor <;> decide +kernel
  · decide

theorem reread_nearlyOne : nearlyOne.reread = ofNat 1 := by
  have hspelled : (nearlyOne.shortest .even).spelled = (9999999999999999, -((16 : Nat) : Int)) := by
    decide +kernel
  have hpositive : nearlyOne.isNegative = false := by decide +kernel
  have hquotient : (ofNat 9999999999999999).div (.tenToThe 16) = ofNat 1 := by decide +kernel
  have hscale : Json.scale (ofNat 9999999999999999) (-((16 : Nat) : Int)) = some (ofNat 1) := by
    rw [Double.scale_of_neg (by decide) (by decide), hquotient]
  rw [Double.reread, if_neg (by decide +kernel), hspelled, hpositive]
  simp only [hscale]
  rfl

/-- A jitter just below one comes back as one: its sixteen digits are rounded before they are
divided by a power of ten. -/
theorem load_persist_ne_of_nearlyOne :
    RateLimit.ofPushed .epoch .initial (unnamedEntry nearlyOne) =
        .ok (unnamedLimit nearlyOne) ∧
      ∃ written, (holding nearlyOne).persist.file = some written ∧
        load written = .ok ⟨[unnamedLimit (ofNat 1)], some written⟩ ∧
        unnamedLimit (ofNat 1) ≠ unnamedLimit nearlyOne := by
  have hinterval : nearlyOne.inUnitInterval = true := by decide +kernel
  obtain ⟨written, hwritten, hload⟩ := load_of_backed (backed_holding hinterval) rfl
    isWritable_absent
  have hwindow : (ofNat 60).reread = ofNat 60 := by
    apply Double.reread_eq_self (by decide +kernel)
    constructor <;> decide +kernel
  have hrestored : (unnamedLimit nearlyOne).restored = unnamedLimit (ofNat 1) := by
    simp [RateLimit.restored, unnamedLimit, hwindow, reread_nearlyOne]
    decide +kernel
  refine ⟨ofPushed_unnamedEntry hinterval, written, hwritten, ?_, by decide +kernel⟩
  rw [hload, ← hrestored]
  rfl

end Drift

end LimitTable

end NodeAttestation
