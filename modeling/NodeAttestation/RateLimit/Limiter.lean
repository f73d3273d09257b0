import NodeAttestation.Error
import NodeAttestation.RateLimit.Text

/-! What becomes of the limits that are received: a table of those in force, or a mere record. -/

namespace NodeAttestation

/-- The latest limit of each filter, in the order they were applied, and the file in which they
outlast the client, if there is one. -/
structure LimitTable where
  limits : List RateLimit
  file : Option File
deriving DecidableEq

namespace LimitTable

def empty : LimitTable := ⟨[], none⟩

/-- A file that does not exist yet gives an empty table. -/
def load (file : File) : Except Error LimitTable :=
  match file.readText with
  | .ok text =>
    match RateLimit.ofListText text with
    | .ok limits => .ok ⟨limits, some file⟩
    | .error fault => .error (.json fault)
  | .error error =>
    if error.kind = .notFound then .ok ⟨[], some file⟩ else .error (.access error)

def active (t : LimitTable) (now : Instant) : List RateLimit :=
  t.limits.filter fun l => !l.isExpired now

/-- A new limit takes the place of the one with the same filter; expired limits are dropped. -/
def apply (t : LimitTable) (now : Instant) (limit : RateLimit) : LimitTable :=
  { t with
    limits := t.limits.filter (fun l => !l.isExpired now && l.filter != limit.filter) ++ [limit] }

def text (t : LimitTable) : String := RateLimit.listText t.limits

/-- A file that cannot be written is left alone. -/
def persist (t : LimitTable) : LimitTable :=
  { t with file := t.file.map fun file => file.write (Bytes.ofText t.text) }

end LimitTable

/-- The limits that have been applied, in order, and how often they were to be persisted. -/
structure LimitRecord where
  applied : List RateLimit
  persists : Nat
deriving DecidableEq

inductive Limiter where
  | table (t : LimitTable)
  | record (r : LimitRecord)
deriving DecidableEq

namespace Limiter

/-- Applies a limit; a table needs to know the time for it. -/
def applyAt? (limiter : Limiter) (now? : Option Instant) (limit : RateLimit) : Option Limiter :=
  match limiter with
  | table t => now?.map fun now => table (t.apply now limit)
  | record r => some (record { r with applied := r.applied ++ [limit] })

def persist : Limiter → Limiter
  | table t => table t.persist
  | record r => record { r with persists := r.persists + 1 }

/-- Whether persisting the limits takes a file to be written. -/
def hasFile : Limiter → Bool
  | table t => t.file.isSome
  | record _ => false

end Limiter

end NodeAttestation
