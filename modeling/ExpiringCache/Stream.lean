/-!
# Streams of bytes

A `Sink` takes bytes call by call and a `Source` gives them call by call; either may bound what
one call moves and fail after a number of bytes. `Sink.writeAll` and `Source.readAll` make the
calls that it takes to move everything.

What a source gives in all depends on the bytes of its pieces and on whether it fails, and not on
where the pieces end (`join_none`, `join_some`).
-/

namespace ExpiringCache

/-- Why moving bytes or using a file fails. A call that is interrupted is made again, so that is not
among the reasons. -/
inductive IoFault where
  | unexpectedEof
  | brokenPipe
  | notFound
  | isDirectory
  | notDirectory
  | alreadyExists
  | busy
  | invalidInput
  /-- Any other reason, by its wording. -/
  | other (message : String)
  deriving DecidableEq, Repr

/-- The wording of a fault, where a log shows it. -/
def IoFault.message : IoFault → String
  | .unexpectedEof => "failed to fill whole buffer"
  | .brokenPipe => "pipe closed"
  | .notFound => "No such file or directory (os error 2)"
  | .isDirectory => "Is a directory (os error 21)"
  | .notDirectory => "Not a directory (os error 20)"
  | .alreadyExists => "File exists (os error 17)"
  | .busy => "Device or resource busy (os error 16)"
  | .invalidInput => "file name contained an unexpected NUL byte"
  | .other message => message

/-! ## Sinks -/

/-- Something that takes bytes. -/
structure Sink where
  /-- The most bytes that one call takes. -/
  perCall : Option Nat
  /-- The bytes that it still takes before it fails. -/
  room : Option Nat
  /-- The final flush fails. -/
  flushFails : Bool
  /-- The bytes taken so far. -/
  taken : List UInt8
  deriving DecidableEq, Repr

namespace Sink

/-- A sink that takes everything. -/
def unlimited : Sink := ⟨none, none, false, []⟩

/-- The number of bytes that the next call takes of `n`. -/
def share (sink : Sink) (n : Nat) : Nat :=
  min n (min (sink.perCall.getD n) (sink.room.getD n))

/-- The sink after it has taken bytes. -/
def take (sink : Sink) (bytes : List UInt8) : Sink :=
  { sink with
    room := sink.room.map fun room => room - bytes.length
    taken := sink.taken ++ bytes }

/-- Calls until all bytes are taken. A call of which the sink can take nothing fails. -/
def writeAll (sink : Sink) (bytes : List UInt8) : Except IoFault Unit × Sink :=
  match bytes with
  | [] => (.ok (), sink)
  | byte :: rest =>
    match sink.share (byte :: rest).length with
    | 0 => (.error .brokenPipe, sink)
    | n + 1 => (sink.take (byte :: rest.take n)).writeAll (rest.drop n)
termination_by bytes.length
decreasing_by simp only [List.length_drop, List.length_cons]; omega

/-- The flush at the end. -/
def flush (sink : Sink) : Except IoFault Unit :=
  if sink.flushFails then .error .brokenPipe else .ok ()

/-- Writes pieces one after the other and then flushes. -/
def writePieces (sink : Sink) : List (List UInt8) → Except IoFault Unit × Sink
  | [] => (sink.flush, sink)
  | piece :: pieces =>
    match sink.writeAll piece with
    | (.ok (), sink) => sink.writePieces pieces
    | (.error fault, sink) => (.error fault, sink)

end Sink

/-! ## Sources -/

/-- Something that gives bytes. -/
structure Source where
  /-- What the calls give, one after the other. -/
  pieces : List (List UInt8)
  /-- How the call after the last piece fails, if it does not tell the end. -/
  fault : Option IoFault
  deriving DecidableEq, Repr

namespace Source

/-- A source that gives all bytes in one call. -/
def ofBytes (bytes : List UInt8) : Source := ⟨[bytes], none⟩

/-- Cuts bytes into at most `most` pieces of `size` bytes, the last of which may be shorter. -/
def cut (size : Nat) : (most : Nat) → List UInt8 → List (List UInt8)
  | 0, _ => []
  | _ + 1, [] => []
  | most + 1, byte :: rest =>
    (byte :: rest).take size :: cut size most ((byte :: rest).drop size)

/-- A source that gives at most `perCall` bytes in a call and fails when it is called after
`failAfter` bytes, at the end of the bytes too. -/
def bounded (bytes : List UInt8) (perCall failAfter : Option Nat) (fault : IoFault) : Source :=
  let given := match failAfter with
    | some n => bytes.take n
    | none => bytes
  { pieces := cut (perCall.getD given.length) given.length given
    fault := if failAfter.any (· ≤ bytes.length) then some fault else none }

/-- What calls that give these pieces give together, if the call after the last fails with `fault`
or else tells the end. A call that gives nothing tells the end, too. -/
def join (fault : Option IoFault) : List (List UInt8) → Except IoFault (List UInt8)
  | [] => match fault with
    | none => .ok []
    | some fault => .error fault
  | [] :: _ => .ok []
  | (byte :: piece) :: rest => do
    let later ← join fault rest
    return byte :: piece ++ later

/-- Calls until the end and joins what the calls gave. -/
def readAll (source : Source) : Except IoFault (List UInt8) := join source.fault source.pieces

theorem join_none {pieces : List (List UInt8)} (full : ∀ piece ∈ pieces, piece ≠ []) :
    join none pieces = .ok pieces.flatten := by
  induction pieces with
  | nil => rfl
  | cons piece pieces ih =>
    cases piece with
    | nil => exact absurd rfl (full [] List.mem_cons_self)
    | cons byte piece =>
      rw [join, ih fun piece' h => full piece' (List.mem_cons_of_mem _ h)]
      rfl

theorem join_some (fault : IoFault) {pieces : List (List UInt8)}
    (full : ∀ piece ∈ pieces, piece ≠ []) : join (some fault) pieces = .error fault := by
  induction pieces with
  | nil => rfl
  | cons piece pieces ih =>
    cases piece with
    | nil => exact absurd rfl (full [] List.mem_cons_self)
    | cons byte piece =>
      rw [join, ih fun piece' h => full piece' (List.mem_cons_of_mem _ h)]
      rfl

end Source

end ExpiringCache
