import Mathlib.Algebra.Order.Ring.Rat
import VeloBus.Utf

/-! JavaScript values as far as the client looks into them: the arguments of its calls, and what a handler returns or
throws. -/

namespace VeloBus.Client

/-- What a call throws, or a promise is rejected with. -/
inductive Failure where
  | typeError (message : String)
  | rangeError (message : String)
  | protocol (message : String)
  | broker (code : Nat) (message : String)
  | connectionClosed (message : String)
  | requestTimeout (message : String)
  | backpressure
  | other (message : String)
deriving DecidableEq, Repr

inductive Value where
  | undefined
  | null
  | text (value : Text)
  /-- A `Uint8Array` whose `length` is the number of its elements. -/
  | bytes (value : Bytes)
  | number (value : ℚ)
  /-- An infinity or not a number. -/
  | notFinite
  | bigint (value : Int)
  | function
  | other
deriving DecidableEq, Repr

/-- `??` -/
def Value.orElse : Value → Value → Value
  | undefined, default => default
  | null, default => default
  | value, _ => value

/-! ### Arrays -/

/-- Any other `Uint8Array`: its elements, unless its buffer is detached; what its `length` was made to say; and what
a new buffer of that length has after the elements. -/
structure TypedArray where
  elements : Option Bytes
  length : Nat
  spare : Bytes
deriving DecidableEq, Repr

def TypedArray.of (bytes : Bytes) : TypedArray := ⟨some bytes, bytes.length, []⟩

/-- What `set` makes of a part of a new buffer that has room for `length` elements. -/
def TypedArray.written (array : TypedArray) : Except Failure Bytes :=
  match array.elements with
  | none => .error (.typeError "Cannot perform %TypedArray%.prototype.set on a detached ArrayBuffer")
  | some elements =>
    if array.length < elements.length then .error (.rangeError "offset is out of bounds")
    else .ok ((elements ++ array.spare ++ List.replicate array.length 0).take array.length)

@[simp] theorem TypedArray.written_of (bytes : Bytes) : (TypedArray.of bytes).written = .ok bytes := by
  simp [TypedArray.of, written]

/-- The `length` is the number of the elements. -/
def TypedArray.Whole (array : TypedArray) : Prop := ∃ bytes, array.elements = some bytes ∧ array.length = bytes.length

theorem TypedArray.written_whole {array : TypedArray} {bytes : Bytes} (helements : array.elements = some bytes)
    (hlength : array.length = bytes.length) : array.written = .ok bytes := by
  unfold written
  rw [helements]
  dsimp only
  rw [if_neg (hlength ▸ lt_irrefl _), hlength, List.append_assoc, List.take_left]

theorem TypedArray.Whole.elements {array : TypedArray} {bytes : Bytes} (h : array.Whole)
    (hwritten : array.written = .ok bytes) : array.elements = some bytes := by
  obtain ⟨elements, helements, hlength⟩ := h
  rw [written_whole helements hlength] at hwritten
  rw [helements, Except.ok.inj hwritten]

inductive Primitive where
  | text (value : Text)
  /-- Any other but a symbol, with its printed form. -/
  | plain (printed : Text)
  | symbol (printed : Text)
deriving DecidableEq, Repr

/-- How a call of a method ends. -/
inductive Answer where
  | primitive (value : Primitive)
  | object
  | threw (failure : Failure)
deriving DecidableEq, Repr

/-- The methods that convert an object, as far as it has them. -/
structure Conversions where
  toPrimitive : Option Answer
  toString : Option Answer
  valueOf : Option Answer
deriving DecidableEq, Repr

/-- The object as a primitive value, where a string is asked for. -/
def Conversions.primitive (conversions : Conversions) : Except Failure Primitive :=
  match conversions.toPrimitive, conversions.toString, conversions.valueOf with
  | some (.primitive value), _, _ => .ok value
  | some (.threw failure), _, _ => .error failure
  | none, some (.primitive value), _ => .ok value
  | none, some (.threw failure), _ => .error failure
  | none, _, some (.primitive value) => .ok value
  | none, _, some (.threw failure) => .error failure
  | _, _, _ => .error (.typeError "Cannot convert object to primitive value")

/-- What `slice(0, 4096)` gives, as `Buffer.from` takes it. -/
inductive Sliced where
  | text (value : Text)
  | bytes (value : Bytes)
  | other
  | threw (failure : Failure)
deriving DecidableEq, Repr

/-- The `message` of an `Error`. -/
inductive Message where
  | text (value : Text)
  /-- An array of numbers, or of bytes. -/
  | bytes (value : Bytes)
  /-- Anything else that has a `slice`. -/
  | sliced (slice : Sliced)
  /-- Anything without one. -/
  | plain
  /-- To read it throws. -/
  | threw (failure : Failure)
deriving DecidableEq, Repr

/-- What can be thrown. -/
inductive Thrown where
  | error (message : Message)
  | primitive (value : Primitive)
  | object (conversions : Conversions)
deriving DecidableEq, Repr

/-- `String(value)` -/
def Primitive.string : Primitive → Text
  | text value => value
  | plain printed => printed
  | symbol printed => printed

/-- The string of what an object was converted to. -/
def Primitive.converted : Primitive → Except Failure Text
  | text value => .ok value
  | plain printed => .ok printed
  | symbol _ => .error (.typeError "Cannot convert a Symbol value to a string")

/-- `String(value)` of an object. -/
def Conversions.string (conversions : Conversions) : Except Failure Text := do
  let value ← conversions.primitive
  value.converted

def Message.slice : Message → Sliced
  | text value => .text (value.take 4096)
  | bytes value => .bytes (value.take 4096)
  | sliced slice => slice
  | plain => .threw (.typeError "message.slice is not a function")
  | threw failure => .threw failure

/-- `Buffer.from(value, 'utf8')` -/
def Sliced.buffer : Sliced → Except Failure Bytes
  | text value => .ok (Bytes.utf8 value.toString)
  | bytes value => .ok value
  | other => .error (.typeError
      "The first argument must be of type string or an instance of Buffer, ArrayBuffer, or Array or an Array-like Object")
  | threw failure => .error failure

/-- What `handlerErrorBytes` reads of the value. -/
def Thrown.message : Thrown → Except Failure Message
  | error message => .ok message
  | primitive value => .ok (.text value.string)
  | object conversions => conversions.string.map .text

/-! ### What a COMPLETE can say -/

/-- The bytes are text, up to the last of their first 4097 that starts a character if they are more than 4096. -/
def Spells (bytes : Bytes) : Prop :=
  ∃ n ≤ 4096, (n = bytes.length ∨ n < bytes.length ∧ Bytes.continuation (bytes.getD n 0) = false ∧
    ∀ m, n < m → m ≤ 4096 → Bytes.continuation (bytes.getD m 0) = true) ∧ (Bytes.fromUtf8 (bytes.take n)).isSome

/-- The conversion of the object ends with a primitive value that is not a symbol. -/
def Conversions.Printable (conversions : Conversions) : Prop :=
  ∃ value, (∀ printed, value ≠ .symbol printed) ∧ (conversions.toPrimitive = some (.primitive value) ∨
    conversions.toPrimitive = none ∧ (conversions.toString = some (.primitive value) ∨
      (conversions.toString = none ∨ conversions.toString = some .object) ∧
        conversions.valueOf = some (.primitive value)))

def Sliced.Legible : Sliced → Prop
  | bytes value => Spells value
  | _ => True

/-- No bytes of a message but text. -/
def Message.Legible : Message → Prop
  | bytes value => (Bytes.fromUtf8 (value.take 4096)).isSome
  | sliced slice => slice.Legible
  | _ => True

def Thrown.Legible : Thrown → Prop
  | error message => message.Legible
  | _ => True

/-- A message that can be cut, or a value that can be converted, to text. -/
def Thrown.Printable : Thrown → Prop
  | error (.text _) => True
  | error (.bytes value) => (Bytes.fromUtf8 (value.take 4096)).isSome
  | error (.sliced (.text _)) => True
  | error (.sliced (.bytes value)) => Spells value
  | error _ => False
  | primitive _ => True
  | object conversions => conversions.Printable

end VeloBus.Client
