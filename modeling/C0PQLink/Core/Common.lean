import C0PQLink.Foundation.Bytes

/-!
# Status codes

The return values of `c0pqlink/common.h`. A C function that fills an output on success
and returns a status is modelled as `Except Status`; one that only returns a status
returns `Status`.
-/

namespace C0PQLink

open Foundation

inductive Status where
  | ok
  | errArgument
  | errKeyEncoding
  | errIo
  | errAuth
  | errState
  | errReplay
  | errExpired
  | errCapacity
  | errRng
  deriving DecidableEq, Repr

/-- The integer behind a status, as the callbacks and the C callers see it. -/
def Status.code : Status → Int
  | .ok => 0
  | .errArgument => -1
  | .errKeyEncoding => -2
  | .errIo => -3
  | .errAuth => -4
  | .errState => -5
  | .errReplay => -6
  | .errExpired => -7
  | .errCapacity => -8
  | .errRng => -9

@[simp] theorem Status.code_eq_zero {s : Status} : s.code = 0 ↔ s = .ok := by
  cases s <;> simp [Status.code]

/-- The status of a computation that produces a value or fails with a status. -/
def statusOf {α : Type} : Except Status α → Status
  | .ok _ => .ok
  | .error s => s

@[simp] theorem statusOf_ok {α : Type} (a : α) : statusOf (.ok a : Except Status α) = .ok := rfl

@[simp] theorem statusOf_error {α : Type} (s : Status) :
    statusOf (.error s : Except Status α) = s := rfl

@[simp] theorem except_ok_bind {ε α β : Type} (a : α) (f : α → Except ε β) :
    (Except.ok a >>= f) = f a := rfl

@[simp] theorem except_error_bind {ε α β : Type} (e : ε) (f : α → Except ε β) :
    ((Except.error e : Except ε α) >>= f) = .error e := rfl

@[simp] theorem except_pure {ε α : Type} (a : α) : (pure a : Except ε α) = .ok a := rfl

end C0PQLink
