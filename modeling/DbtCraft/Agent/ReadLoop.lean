/-
# The lines of a harness

What `HarnessSession._read_loop` does with one message that it has decoded: a response
resolves the call with its id, a notification is put in the queue. A value that is no object
can raise, and an exception here ends the reader.
-/

import DbtCraft.Agent.Normalize

namespace DbtCraft.Python.Value

/-- `key in value`. -/
def contains (value : Value) (key : String) : Except Raised Bool :=
  match value with
  | .dict items => .ok (items.any fun item => item.1.sameKey (.str key))
  | .list items => .ok (items.any (·.isText key))
  | .str text => .ok (decide (key.toList <:+: text.toList))
  | _ => .error .typeError

/-- `hash(value)` returns. -/
def hashable : Value → Bool
  | .list _ => false
  | .dict _ => false
  | _ => true

/-- `value == number` of a JSON value: the `repr` of a float that is an integer ends with
`.0`, or has a positive exponent. -/
def equalsInt (value : Value) (number : ℤ) : Bool :=
  match value with
  | .int own => own = number
  | .bool own => (if own then 1 else 0) = number
  | .float repr trunc =>
    trunc = number ∧ (".0".toList <:+ repr.toList ∨ "e+".toList <:+: repr.toList)
  | _ => false

end DbtCraft.Python.Value

namespace DbtCraft.Agent

open DbtCraft.Python

/-- Where a message goes. -/
inductive Routed
  | /-- A response to the call with this id. -/
    response (id : Value)
  | notification

/-- The test on a message in `_read_loop`. -/
def routed (message : Value) : Except Raised Routed := do
  if ← message.contains "id" then
    let method ← message.get "method"
    match method with
    | .none => return .response (← message.get "id")
    | _ => return .notification
  else
    return .notification

end DbtCraft.Agent
