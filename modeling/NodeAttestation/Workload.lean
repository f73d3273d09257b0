import NodeAttestation.Json.Record

/-!
Workloads: what attestations are fetched for. A caller names a pipeline and its arguments; the
workload derived from them partitions the cache and goes out with every request.
-/

namespace NodeAttestation

/-- The pipeline of an invocation as its caller gives it. -/
structure Pipeline where
  kind : String
  arguments : SortedMap String String
deriving DecidableEq

structure Workload where
  kind : String
  arguments : SortedMap String String
deriving DecidableEq

namespace Workload

/-- Workloads are ordered by their kinds and then by their arguments. -/
def key (w : Workload) : List String :=
  w.kind :: w.arguments.entries.flatMap fun entry => [entry.1, entry.2]

instance : Ord Workload where
  compare a b := compare a.key b.key

theorem key_injective {a b : Workload} (h : a.key = b.key) : a = b := by
  obtain ⟨kind, arguments⟩ := a
  obtain ⟨kind', arguments'⟩ := b
  simp only [key, List.cons.injEq] at h
  obtain ⟨rfl, h⟩ := h
  congr 1
  apply SortedMap.ext_entries
  generalize arguments.entries = xs at h
  generalize arguments'.entries = ys at h
  induction xs generalizing ys with
  | nil => cases ys <;> simp_all
  | cons x xs ih =>
    cases ys with
    | nil => simp at h
    | cons y ys =>
      simp only [List.flatMap_cons, List.cons_append, List.nil_append, List.cons.injEq] at h
      rw [Prod.ext h.1 h.2.1, ih ys h.2.2]

instance : Std.TransOrd Workload where
  eq_swap := (inferInstance : Std.TransOrd (List String)).eq_swap
  isLE_trans := (inferInstance : Std.TransOrd (List String)).isLE_trans

instance : Std.LawfulEqOrd Workload where
  compare_self := (inferInstance : Std.LawfulEqOrd (List String)).compare_self
  eq_of_compare h := key_injective ((inferInstance : Std.LawfulEqOrd (List String)).eq_of_compare h)

/-- The workload of a pipeline whose kind and argument names all hold more than white space. -/
def derive? (p : Pipeline) : Option Workload :=
  let kind := Text.trim p.kind
  if kind.isEmpty || p.arguments.keys.any fun name => (Text.trim name).isEmpty then none
  else some ⟨kind, p.arguments⟩

/-- The arguments as they go out with a request. -/
def argumentsText (w : Workload) : String := (Json.ofTextMap w.arguments).compact

def describe (w : Workload) : String :=
  "pipelinekind: " ++ w.kind ++ " pipelineArguments: " ++
    String.join (w.arguments.entries.map fun entry => "[" ++ entry.1 ++ ": " ++ entry.2 ++ "]")

def toJson (w : Workload) : Json :=
  .object [("pipelineKind", .text w.kind), ("pipelineArguments", .ofTextMap w.arguments)]

/-- A workload that has been written is read back as it stands. -/
def shape : Json.Shape Workload where
  name := "PrefetchParameters"
  fields := [
    .required "pipelineKind" Json.readString fun w value => { w with kind := value },
    .required "pipelineArguments" Json.readTextMap fun w value => { w with arguments := value }]
  start := ⟨"", .empty⟩
  defaults := false

def ofJson (text : String) : Except Json.Fault Workload := Json.readDocument shape.read text

end Workload

namespace Pipeline

def toJson (p : Pipeline) : Json :=
  .object [("pipelineKind", .text p.kind), ("pipelineArguments", .ofTextMap p.arguments)]

def shape : Json.Shape Pipeline where
  name := "RequestParameters"
  fields := [
    .required "pipelineKind" Json.readString fun p value => { p with kind := value },
    .required "pipelineArguments" Json.readTextMap fun p value => { p with arguments := value }]
  start := ⟨"", .empty⟩
  defaults := false

def ofJson (text : String) : Except Json.Fault Pipeline := Json.readDocument shape.read text

end Pipeline

end NodeAttestation
