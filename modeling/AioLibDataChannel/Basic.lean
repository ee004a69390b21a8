/-
The values that cross the wrapper: Python strings and messages, the
exceptions its calls raise, and the identities of the tasks calling it.

A Python `str` is a sequence of code points, surrogates included — the
language lets a string hold one alone, and only encoding it fails.
-/
import Mathlib.Tactic.TypeStar

namespace AioLibDataChannel

/-- A Python `str`. -/
abbrev PyStr := List (Fin 0x110000)

/-- What `recv()` returns: `bytes | str`. -/
inductive Message
  | bytes (data : List UInt8)
  | str (text : PyStr)
deriving DecidableEq, Repr

/-- What a caller hands to `send()`: a bytes-like object with its
content, a string, or anything else, known by its type's name. -/
inductive Payload
  | bytesLike (data : List UInt8)
  | str (text : PyStr)
  | other (typeName : String)
deriving DecidableEq, Repr

/-- The exceptions the wrapper raises; a cancellation is an outcome of
its own (`Asyncio.Outcome`). -/
inductive Exc
  | rtcError (message : String) (code : Option Int)
  | connectionClosedError (message : String)
  | typeError (message : String)
deriving DecidableEq, Repr

/-- A task of the application, or one created by `spawn_task` of a
channel (named by its handle) or of the connection. -/
inductive TaskId
  | user (n : Nat)
  | ofChannel (handle : Int) (n : Nat)
  | ofConnection (n : Nat)
deriving DecidableEq, Repr

/-- Created by `spawn_task` of the channel with this handle. -/
def TaskId.ownedBy (handle : Int) : TaskId → Bool
  | .ofChannel h _ => h == handle
  | _ => false

end AioLibDataChannel
