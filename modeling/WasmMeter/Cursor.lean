import WasmMeter.Error

/-!
Reading from the front of a byte list. A cursor holds the bytes not yet read and the absolute offset
of the first of them, so a cursor over a part of the input still reports offsets in the whole input.
A reader takes bytes from a cursor and answers a value or an error; on an error the cursor stays
where the reader had come to.
-/
namespace WasmMeter

/-- The bytes not yet read, and the absolute offset of the first of them. -/
structure Cursor where
  unread : List UInt8
  position : Nat
deriving DecidableEq, Repr

namespace Cursor

/-- The start of a whole input. -/
def ofBytes (bytes : List UInt8) : Cursor := ⟨bytes, 0⟩

def remaining (c : Cursor) : Nat := c.unread.length

def isEmpty (c : Cursor) : Bool := c.unread.isEmpty

def peek? (c : Cursor) : Option UInt8 := c.unread.head?

end Cursor

/-- A computation that reads from a cursor. -/
abbrev Reader := EStateM Error Cursor

namespace Reader

variable {α σ : Type}

/-- Runs a reader on a cursor of its own and keeps only the answer. -/
def answer (r : Reader α) (c : Cursor) : Except Error α :=
  match r c with
  | .ok a _ => .ok a
  | .error e _ => .error e

/-- The absolute offset of the next byte. -/
def position : Reader Nat := fun c => .ok c.position c

/-- Is nothing left to read? -/
def isAtEnd : Reader Bool := fun c => .ok c.isEmpty c

/-- The next byte, left unread. -/
def peek? : Reader (Option UInt8) := fun c => .ok c.peek? c

/-- Exactly `n` bytes. If there are fewer, none is taken. -/
def take (n : Nat) : Reader (List UInt8) := fun c =>
  let taken := c.unread.take n
  let missing := n - taken.length
  if missing = 0 then .ok taken ⟨c.unread.drop n, c.position + n⟩
  else .error (.unexpectedEnd c.position missing) c

/-- Everything that is left. -/
def takeRest : Reader (List UInt8) := fun c =>
  .ok c.unread ⟨[], c.position + c.unread.length⟩

/-- One byte. -/
def byte : Reader UInt8 := fun c =>
  match c.unread with
  | [] => .error (.unexpectedEnd c.position 1) c
  | b :: rest => .ok b ⟨rest, c.position + 1⟩

/-- The next `n` bytes as a cursor of their own. -/
def window (n : Nat) : Reader Cursor := do
  let position ← position
  return ⟨← take n, position⟩

/-- Lets a structure that ends too early be an error of that structure. -/
def mapEnd (cause : Nat → Error) (r : Reader α) : Reader α :=
  r.adaptExcept (Error.mapEnd cause)

/-- Reads within a cursor of its own, leaving the surrounding one untouched. -/
def within (c : Cursor) (r : Reader α) : Reader (α × Cursor) := fun outer =>
  match r c with
  | .ok a inner => .ok (a, inner) outer
  | .error e _ => .error e outer

/-- The value together with the bytes it was read from. -/
def withSource (r : Reader α) : Reader (α × List UInt8) := fun c =>
  match r c with
  | .ok a rest => .ok (a, c.unread.take (rest.position - c.position)) rest
  | .error e rest => .error e rest

/-- Reads `n` values in front of those already read, last one first. -/
def times.go (item : Reader α) (done : List α) : Nat → Reader (List α)
  | 0 => pure done.reverse
  | n + 1 => do times.go item ((← item) :: done) n

/-- The same reader `n` times in a row. -/
def times (n : Nat) (item : Reader α) : Reader (List α) := times.go item [] n

/-- Takes at most as many steps as `bound` has elements; see `whileUnread`. -/
def whileUnread.go (step : σ → Reader (σ ⊕ α)) (atEnd : σ → Reader α) :
    (bound : List UInt8) → σ → Reader α
  | [], s => atEnd s
  | _ :: bound, s => do
    if ← isAtEnd then atEnd s
    else
      match ← step s with
      | .inl next => whileUnread.go step atEnd bound next
      | .inr a => pure a

/-- Repeats a step that reads at least one byte until it answers or nothing is left to read. There
are then at most as many steps as unread bytes, so the unread bytes themselves bound the loop. -/
def whileUnread (step : σ → Reader (σ ⊕ α)) (atEnd : σ → Reader α) (s : σ) : Reader α := fun c =>
  whileUnread.go step atEnd c.unread s c

end Reader

end WasmMeter
