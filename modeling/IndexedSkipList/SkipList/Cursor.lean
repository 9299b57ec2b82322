/-
**Walking along the entries with a cursor.**

A cursor stands between two entries of a list; it knows the node behind which it goes on and how
many entries are still to come.  Cursors are values: a copy goes on from where it was made, whatever
is done with the cursor it was made of.  A cursor at the end stays there.

The count of the entries to come goes down with every move, so a cursor makes no more moves than it
counts: one more would be a `Fault.underflow`.

A scan is a session with one cursor of a list.  The cursor can be saved, which puts a copy of it on
a stack, and restored, which replaces it by the copy saved last.

Main definitions:

* `Cursor` — the cursors, and `SkipList.cursor`, the one before the first entry;
* `Cursor.next?`, `Cursor.skip`, `Cursor.nth?` — one move, several moves, several moves and one;
* `Cursor.visit` — a visit to the entries to come, which the visitor may break off;
* `Cursor.rest`, `Cursor.exhaust` — the entries to come, and their number;
* `SkipList.entries`, `SkipList.ascend` — all entries in their order, and a visit to them;
* `Scan`, `Scan.Command`, `Scan.Answer` — the cursor and the copies put aside, what can be asked of
  a scan, and what it answers;
* `Scan.step`, `Scan.run` — one command, and several.
-/

import IndexedSkipList.SkipList.Basic

set_option relaxedAutoImplicit false
set_option autoImplicit false

namespace IndexedSkipList

/-- The node to go on with, and the number of entries still to come. -/
structure Cursor where
  next : Option NodeId
  remaining : Nat
  deriving DecidableEq

namespace Cursor

variable {K V : Type}

/-! ### Moving -/

/-- The next entry and the cursor behind it, unless the end is reached. -/
def next? (cursor : Cursor) (lanes : Lanes K V) : Except Fault (Option ((K × V) × Cursor)) := do
  match cursor.next with
  | none => pure none
  | some id =>
      let node ← lanes.pool.get id
      let link ← Tower.link node.tower 0
      let remaining ← Counter.sub cursor.remaining 1
      pure (some (node.entry, { next := link.next, remaining }))

/-- The cursor behind the next `count` entries, or at the end if there are fewer. -/
def skip (lanes : Lanes K V) : (count : Nat) → Cursor → Except Fault Cursor
  | 0, cursor => pure cursor
  | count + 1, cursor => do
      match ← cursor.next? lanes with
      | none => pure cursor
      | some (_, cursor) => skip lanes count cursor

/-- The entry behind the next `count` ones, and the cursor behind it or at the end. -/
def nth? (cursor : Cursor) (lanes : Lanes K V) (count : Nat) :
    Except Fault (Option (K × V) × Cursor) := do
  let cursor ← skip lanes count cursor
  match ← cursor.next? lanes with
  | none => pure (none, cursor)
  | some (entry, cursor) => pure (some entry, cursor)

/-! ### All that is to come -/

/-- Shows the entries to come to a visitor, one after the other, until it answers `false`; the
state of the visitor goes along.  The cursor makes no more than `moves` moves before the last. -/
def visit {S : Type} (lanes : Lanes K V) (visitor : S → K × V → Bool × S) (moves : Nat)
    (cursor : Cursor) (state : S) : Except Fault S := do
  match ← cursor.next? lanes with
  | none => pure state
  | some (entry, cursor) =>
      let (goOn, state) := visitor state entry
      if goOn then
        match moves with
        | 0 => throw .endless
        | moves + 1 => visit lanes visitor moves cursor state
      else pure state

/-- The entries to come. -/
def rest (cursor : Cursor) (lanes : Lanes K V) : Except Fault (List (K × V)) := do
  let seen ← visit lanes (fun seen entry => (true, entry :: seen)) cursor.remaining cursor []
  pure seen.reverse

/-- The number of entries that come before the end, and the cursor there. -/
def exhaust (cursor : Cursor) (lanes : Lanes K V) : Except Fault (Nat × Cursor) := do
  let count ← visit lanes (fun count _ => (true, count + 1)) cursor.remaining cursor 0
  let cursor ← skip lanes count cursor
  pure (count, cursor)

end Cursor

namespace SkipList

variable {K V R : Type}

/-- The cursor before the first entry. -/
def cursor (list : SkipList K V R) : Except Fault Cursor := do
  let link ← Tower.link list.lanes.head 0
  pure { next := link.next, remaining := list.size }

/-- The entries in their order. -/
def entries (list : SkipList K V R) : Except Fault (List (K × V)) := do
  (← list.cursor).rest list.lanes

/-- Shows the entries in their order to a visitor until it answers `false`, and answers the last
state of the visitor. -/
def ascend {S : Type} (list : SkipList K V R) (visitor : S → K × V → Bool × S) (state : S) :
    Except Fault S := do
  let cursor ← list.cursor
  Cursor.visit list.lanes visitor cursor.remaining cursor state

end SkipList

/-! ### Sessions with a cursor -/

/-- A cursor, and the copies of it that were put aside, the latest one first. -/
structure Scan where
  cursor : Cursor
  saved : List Cursor := []
  deriving DecidableEq

namespace Scan

/-- What can be asked of a scan. -/
inductive Command where
  /-- Move on to the next entry. -/
  | next
  /-- Skip some entries and move on to the one behind them. -/
  | nth (count : Nat)
  /-- Tell how many entries are to come. -/
  | remaining
  /-- Tell the least and the greatest number of entries that may be to come. -/
  | bounds
  /-- Tell the entries to come, without moving. -/
  | rest
  /-- Move to the end and tell how many entries came. -/
  | count
  /-- Put a copy of the cursor aside. -/
  | save
  /-- Go back to the copy put aside last. -/
  | restore
  deriving DecidableEq

/-- What a scan answers. -/
inductive Answer (K V : Type) where
  | entry (entry : Option (K × V))
  | number (n : Nat)
  | bounds (least greatest : Nat)
  | entries (entries : List (K × V))
  | nothing
  deriving DecidableEq

variable {K V : Type}

/-- Answers one command. -/
def step (lanes : Lanes K V) (scan : Scan) : Command → Except Fault (Answer K V × Scan)
  | .next => do
      match ← scan.cursor.next? lanes with
      | none => pure (.entry none, scan)
      | some (entry, cursor) => pure (.entry (some entry), { scan with cursor })
  | .nth count => do
      let (entry, cursor) ← scan.cursor.nth? lanes count
      pure (.entry entry, { scan with cursor })
  | .remaining => pure (.number scan.cursor.remaining, scan)
  | .bounds => pure (.bounds scan.cursor.remaining scan.cursor.remaining, scan)
  | .rest => do
      let entries ← scan.cursor.rest lanes
      pure (.entries entries, scan)
  | .count => do
      let (count, cursor) ← scan.cursor.exhaust lanes
      pure (.number count, { scan with cursor })
  | .save => pure (.nothing, { scan with saved := scan.cursor :: scan.saved })
  | .restore =>
      match scan.saved with
      | [] => pure (.nothing, scan)
      | cursor :: saved => pure (.nothing, { cursor, saved })

/-- Answers commands in their order. -/
def run (lanes : Lanes K V) (scan : Scan) : List Command → Except Fault (List (Answer K V))
  | [] => pure []
  | command :: commands => do
      let (answer, scan) ← scan.step lanes command
      let answers ← scan.run lanes commands
      pure (answer :: answers)

end Scan

end IndexedSkipList
