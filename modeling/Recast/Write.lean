import Recast.Lookup

/-!
Writing a value to a place in a tree. On the way to the place, containers that are missing or of the
wrong kind are replaced by empty ones; an array grows by one item at most. A write that fails leaves
the containers that it made on its way. A failure is told by a message, unless the message would
have to spell out a position of more than `Text.Numeral.limit` digits. Main statement: a member is
what was placed there (`select_place`).
-/

namespace Recast.Value

/-- Why a container cannot hold a value at an accessor, if it cannot. -/
def refusal? : Value → Element → Option Cause
  | .object _, .field _ => none
  | _, .field _ => some .fieldIntoNonObject
  | .array false items, .index position =>
    if position ≤ items.length then none else some (.indexPastEnd position items.length)
  | _, .index _ => some .indexIntoNonArray

/-- The items with one replaced, or added at the end. -/
def setItem (position : Nat) (v : Value) : List Value → List Value
  | [] => [v]
  | old :: rest => if position = 0 then v :: rest else old :: setItem (position - 1) v rest

/-- A container with a value at an accessor that it admits. -/
def place : Value → Element → Value → Value
  | .object fields, .field name, v => .object (Fields.set name v fields)
  | .array false items, .index position, v => .list (setItem position v items)
  | container, _, _ => container

/-- Whether a write that goes on with an accessor enters a value; otherwise it replaces it. -/
def suits : Value → Element → Bool
  | v, .field _ => v.isObject
  | v, .index _ => v.isList

/-- The empty container for an accessor. -/
def empty : Element → Value
  | .field _ => .object []
  | .index _ => .list []

/-- The member of a container that a write enters, where fixed arrays have none. -/
def member : Value → Element → Value
  | .array true _, _ => .absent
  | container, e => container.select e

/-- The tree after writing a value at the place `first :: rest` below it, and why the write failed,
if it did. -/
def put (first : Element) : List Element → Value → Value → Value × Option Cause
  | [], v, container =>
    match container.refusal? first with
    | some cause => (container, some cause)
    | none => (container.place first v, none)
  | next :: rest, v, container =>
    match container.refusal? first with
    | some cause => (container, some cause)
    | none =>
      let old := container.member first
      let entered := if old.suits next then old else empty next
      let (written, failed) := put next rest v entered
      (container.place first written, failed)

@[simp] theorem item_setItem (n : Nat) (v : Value) (items : List Value) (h : n ≤ items.length) :
    item n (setItem n v items) = v := by
  induction items generalizing n with
  | nil =>
    obtain rfl : n = 0 := by simpa using h
    rfl
  | cons old rest ih =>
    cases n with
    | zero => rfl
    | succ n => simpa [setItem, item] using ih n (by simpa using h)

theorem select_place (container v : Value) (e : Element) (h : container.refusal? e = none) :
    (container.place e v).select e = v := by
  cases e with
  | field name =>
    cases container with
    | object fields => simp [place, select]
    | _ => simp [refusal?] at h
  | index n =>
    cases container with
    | array fixed items =>
      cases fixed with
      | true => simp [refusal?] at h
      | false =>
        have hn : n ≤ items.length := by
          by_cases hn : n ≤ items.length
          · exact hn
          · simp [refusal?, hn] at h
        simp [place, select, list, hn]
    | _ => simp [refusal?] at h

/-- Whether a write that goes on with an accessor replaces what is there by an object. Only this is
noted, with the path. -/
def isDisplaced (old : Value) (next : Element) : Bool :=
  !old.isAbsent && !next.isIndex && !old.suits next

/-- The tree that a failing write leaves if its path cannot be shown: the write ends where it would
be noted, or where it is refused. -/
def halt (first : Element) : List Element → Value → Value
  | [], container => container
  | next :: rest, container =>
    match container.refusal? first with
    | some _ => container
    | none =>
      let old := container.member first
      if old.isDisplaced next then container
      else
        let entered := if old.suits next then old else empty next
        container.place first (halt next rest entered)

/-- A tree after a write, and why the write failed, if it did. -/
structure Written where
  tree : Value
  failure? : Option Failure

/-- The failure of a write that is refused: a fault at the path, if its message can be made. -/
def refused (path : Path) (cause : Cause) : Failure :=
  if cause.isTellable && path.isTellable then .ofCause cause path.text else Failure.unwritable

/-- Writes a value at a path, which must not be the root path. No list has so many items that a path
that cannot be shown could be written at. -/
def write (tree : Value) (path : Path) (v : Value) : Written :=
  match path.elements with
  | [] => ⟨tree, some (.ofCause .rootWrite path.text)⟩
  | first :: rest =>
    match put first rest v tree with
    | (after, none) => ⟨after, none⟩
    | (after, some cause) =>
      ⟨if path.isTellable then after else halt first rest tree, some (refused path cause)⟩

/-- The outcome of a write whose partial result is of no interest. -/
def Written.outcome (w : Written) : Outcome Value :=
  match w.failure? with
  | none => .ok w.tree
  | some failure => .error failure

end Recast.Value
