import LangGraph.Lib.ByteString

/-!
# Status and Result

`Status` is an error: the OK status of the source is the absence of one.  A `Result<T>` is an
`Except Status T`, so an error result can never carry the OK code (`normalizeResultError`).
-/

namespace LangGraph

export ByteString (Bytes lit decimal)

inductive StatusCode where
  | cancelled | unknown | invalidArgument | deadlineExceeded | notFound | alreadyExists
  | permissionDenied | resourceExhausted | failedPrecondition | aborted | outOfRange
  | unimplemented | internal | unavailable | dataLoss | unauthenticated
deriving DecidableEq

def statusCodeName : StatusCode → Bytes
  | .cancelled => lit "cancelled"
  | .unknown => lit "unknown"
  | .invalidArgument => lit "invalid_argument"
  | .deadlineExceeded => lit "deadline_exceeded"
  | .notFound => lit "not_found"
  | .alreadyExists => lit "already_exists"
  | .permissionDenied => lit "permission_denied"
  | .resourceExhausted => lit "resource_exhausted"
  | .failedPrecondition => lit "failed_precondition"
  | .aborted => lit "aborted"
  | .outOfRange => lit "out_of_range"
  | .unimplemented => lit "unimplemented"
  | .internal => lit "internal"
  | .unavailable => lit "unavailable"
  | .dataLoss => lit "data_loss"
  | .unauthenticated => lit "unauthenticated"

structure Status where
  code : StatusCode
  message : Bytes
deriving DecidableEq

abbrev Result (α : Type) := Except Status α

instance {α : Type} [DecidableEq α] : DecidableEq (Result α)
  | .ok a, .ok b => if h : a = b then isTrue (h ▸ rfl) else isFalse fun e => h (Except.ok.inj e)
  | .error a, .error b =>
    if h : a = b then isTrue (h ▸ rfl) else isFalse fun e => h (Except.error.inj e)
  | .ok _, .error _ => isFalse nofun
  | .error _, .ok _ => isFalse nofun

namespace Status

def cancelled (message : Bytes) : Status := ⟨.cancelled, message⟩
def unknown (message : Bytes) : Status := ⟨.unknown, message⟩
def invalidArgument (message : Bytes) : Status := ⟨.invalidArgument, message⟩
def deadlineExceeded (message : Bytes) : Status := ⟨.deadlineExceeded, message⟩
def notFound (message : Bytes) : Status := ⟨.notFound, message⟩
def alreadyExists (message : Bytes) : Status := ⟨.alreadyExists, message⟩
def resourceExhausted (message : Bytes) : Status := ⟨.resourceExhausted, message⟩
def failedPrecondition (message : Bytes) : Status := ⟨.failedPrecondition, message⟩
def unimplemented (message : Bytes) : Status := ⟨.unimplemented, message⟩
def internal (message : Bytes) : Status := ⟨.internal, message⟩
def unavailable (message : Bytes) : Status := ⟨.unavailable, message⟩

def codeName (status : Status) : Bytes := statusCodeName status.code

def toString (status : Status) : Bytes :=
  if status.message = [] then status.codeName
  else status.codeName ++ lit ": " ++ status.message

end Status

def require (condition : Bool) (status : Status) : Result Unit :=
  if condition then .ok () else .error status

@[simp] theorem require_true (status : Status) : require true status = .ok () := rfl

@[simp] theorem require_eq_ok {condition : Bool} {status : Status} :
    require condition status = .ok () ↔ condition = true := by
  cases condition <;> simp [require]

section

variable {α : Type} {condition : Bool} {status : Status} {f : Unit → Result α} {a : α}

theorem of_require (h : (require condition status >>= f) = .ok a) :
    condition = true ∧ f () = .ok a := by
  cases condition with
  | false => cases h
  | true => exact ⟨rfl, h⟩

theorem require_bind_eq_ok :
    (require condition status >>= f) = .ok a ↔ condition = true ∧ f () = .ok a := by
  refine ⟨of_require, ?_⟩
  rintro ⟨rfl, h⟩; exact h

end

end LangGraph
