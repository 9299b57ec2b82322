/-
**Indexed skip lists.**

An indexed skip list keeps entries in the order of their keys and knows of each at which place it
stands.  It consists of the lanes with the nodes, the number of lanes in use, the number of entries,
the policy that heights are drawn by, and the source of the words that decide them.

What a list reports of itself are events: that it was built by a given policy, and that the number
of lanes in use grew or shrank.  An operation that changes a list returns the answer, the list
after it, and the events in their order.

The entry for a target is the one behind the last node below the target, if its key meets the
target; the place of that last node gives the place of the entry as well.  The entry at a place is
found by the spans of the links alone.

Setting the value of a key that is present replaces the value where it stands: the key that was
stored first stays, no word is drawn and no link changes.  A new key gets a height from the policy
and is put into the lanes; if it is taller than all nodes before, lanes come into use and the list
reports that it grew.  Removing a key takes its node out of the lanes, and lanes that are left
without a node go out of use; the list reports once that it shrank, however many these are.

Main definitions:

* `Event`, `Outcome` — what a list reports, and the answer of an operation with the state after it;
* `SkipList` — the lists;
* `SkipList.ofSource`, `SkipList.ofPolicy` — lists without entries;
* `SkipList.clear` — the list without its entries;
* `Target.below` — accepts the keys below a target;
* `SkipList.find?`, `SkipList.get?`, `SkipList.entry?`, `SkipList.contains` — what is found under a
  target;
* `SkipList.rank` — the place of a target, counted from one, and zero if nothing meets it;
* `SkipList.select`, `SkipList.first?`, `SkipList.last?` — the entry at a place;
* `SkipList.replace` — a value written where its key is present;
* `SkipList.insert`, `SkipList.insertAll` — entries set, one or several;
* `SkipList.collect`, `SkipList.ofList` — the list of some entries;
* `SkipList.removeEntry`, `SkipList.remove` — a key removed, with its entry or without.
-/

import IndexedSkipList.HeightPolicy
import IndexedSkipList.Key
import IndexedSkipList.Lanes

set_option relaxedAutoImplicit false
set_option autoImplicit false

namespace IndexedSkipList

/-! ### Events and outcomes -/

/-- What a list reports of itself. -/
inductive Event where
  /-- A list was built by a policy. -/
  | built (policy : HeightPolicy)
  /-- More lanes are in use. -/
  | grew (before after : Nat)
  /-- Fewer lanes are in use. -/
  | shrank (before after : Nat)
  deriving DecidableEq

/-- The line that reports an event, with its degree of detail. -/
def Event.line : Event → String
  | .built policy =>
      s!"DEBUG skip map with max height {policy.maxHeight} and promotion probability "
        ++ policy.probability.text Decimal.Layout.plain
  | .grew before after => s!"TRACE skip map height grew {before} -> {after}"
  | .shrank before after => s!"TRACE skip map height shrank {before} -> {after}"

/-- The answer of an operation, the state after it, and the events on the way. -/
structure Outcome (S A : Type) where
  answer : A
  after : S
  events : List Event := []
  deriving DecidableEq

/-! ### Lists -/

/-- An indexed skip list with keys in `K`, values in `V` and words from `R`. -/
structure SkipList (K V R : Type) where
  lanes : Lanes K V
  /-- The number of lanes in use. -/
  height : Nat := 0
  /-- The number of entries. -/
  size : Nat := 0
  policy : HeightPolicy
  source : R
  deriving DecidableEq

/-- Accepts the keys that lie below a target, wherever they stand. -/
def Target.below {K : Type} (target : Target K) : K → Nat → Bool := fun key _ => target key = .lt

namespace SkipList

variable {K V R : Type}

/-- The list without entries that draws heights by `policy`, whether that is acceptable or not. -/
def blank (policy : HeightPolicy) (source : R) : SkipList K V R :=
  { lanes := Lanes.blank policy.maxHeight, policy, source }

/-- The list without entries, with the default policy. -/
def ofSource (source : R) : SkipList K V R := blank {} source

/-- The list without entries, with a policy of the caller's, if it is acceptable. -/
def ofPolicy (policy : HeightPolicy) (source : R) :
    Except PolicyError (Outcome (SkipList K V R) Unit) := do
  policy.validate
  pure { answer := (), after := blank policy source, events := [.built policy] }

/-- The list without entries, with the default policy and the generator of a seed. -/
def ofSeed (seed : UInt64) : SkipList K V Xoshiro256 := ofSource (Xoshiro256.ofSeed seed)

/-- There are no entries. -/
def isEmpty (list : SkipList K V R) : Bool := list.size = 0

/-- The list without its entries; the policy and the source stay as they are. -/
def clear (list : SkipList K V R) : SkipList K V R :=
  { list with lanes := list.lanes.clear, height := 0, size := 0 }

/-! ### Looking up by key -/

/-- The stops of a search for a target, the one of the base first. -/
def stopsBelow (list : SkipList K V R) (target : Target K) : Except Fault (List Stop) :=
  list.lanes.search target.below list.height

/-- The node behind a stop at the base, if its key meets the target. -/
def matching? (list : SkipList K V R) (target : Target K) (stop : Stop) :
    Except Fault (Option NodeId) := do
  let link ← list.lanes.link stop.place 0
  match link.next with
  | none => pure none
  | some id =>
      let node ← list.lanes.pool.get id
      pure (if target node.key = .eq then some id else none)

/-- The node whose key meets the target. -/
def find? (list : SkipList K V R) (target : Target K) : Except Fault (Option NodeId) := do
  list.matching? target (Lanes.base (← list.stopsBelow target))

/-- The entry whose key meets the target. -/
def entry? (list : SkipList K V R) (target : Target K) : Except Fault (Option (K × V)) := do
  match ← list.find? target with
  | none => pure none
  | some id =>
      let node ← list.lanes.pool.get id
      pure (some node.entry)

/-- The value whose key meets the target. -/
def get? (list : SkipList K V R) (target : Target K) : Except Fault (Option V) := do
  match ← list.find? target with
  | none => pure none
  | some id =>
      let node ← list.lanes.pool.get id
      pure (some node.value)

/-- Some key meets the target. -/
def contains (list : SkipList K V R) (target : Target K) : Except Fault Bool := do
  pure (← list.find? target).isSome

/-- The place of the entry whose key meets the target, counted from one; zero if there is none. -/
def rank (list : SkipList K V R) (target : Target K) : Except Fault Nat := do
  let stop := Lanes.base (← list.stopsBelow target)
  match ← list.matching? target stop with
  | some _ => Counter.add stop.rank 1
  | none => pure 0

/-! ### Looking up by place -/

/-- The entry at a place, counted from one. -/
def select (list : SkipList K V R) (place : Nat) : Except Fault (Option (K × V)) := do
  if place = 0 ∨ list.size < place then
    pure none
  else
    let stop ← list.lanes.seek place list.height {}
    match stop.place with
    | .head => pure none
    | .node id =>
        if stop.rank = place then
          let node ← list.lanes.pool.get id
          pure (some node.entry)
        else pure none

/-- The entry with the smallest key. -/
def first? (list : SkipList K V R) : Except Fault (Option (K × V)) := do
  let link ← Tower.link list.lanes.head 0
  match link.next with
  | none => pure none
  | some id =>
      let node ← list.lanes.pool.get id
      pure (some node.entry)

/-- The entry with the largest key. -/
def last? (list : SkipList K V R) : Except Fault (Option (K × V)) := list.select list.size

/-! ### The room of a path -/

/-- A path has room for `maxLevels` stops, which is as many lanes as an acceptable policy lets come
into use. -/
def roomFor (levels : Nat) : Except Fault Unit :=
  if levels ≤ maxLevels then .ok () else .error (.outOfBounds maxLevels (levels - 1))

/-- The stops of a search that precedes a change. -/
def pathTo (list : SkipList K V R) (target : Target K) : Except Fault (List Stop) := do
  roomFor list.height
  list.stopsBelow target

/-! ### Writing values -/

/-- The list with another value at a node, and the value that was there. -/
def writeAt (list : SkipList K V R) (id : NodeId) (value : V) :
    Except Fault (V × SkipList K V R) := do
  let node ← list.lanes.pool.get id
  let pool ← list.lanes.pool.set id { node with value }
  pure (node.value, { list with lanes := { list.lanes with pool } })

/-- Writes a value under a key that meets the target, if there is one, and answers the value that
was there. -/
def replace (list : SkipList K V R) (target : Target K) (value : V) :
    Except Fault (Outcome (SkipList K V R) (Option V)) := do
  match ← list.find? target with
  | none => pure { answer := none, after := list }
  | some id =>
      let (old, list) ← list.writeAt id value
      pure { answer := some old, after := list }

/-! ### Setting entries -/

/-- Puts an entry whose key is new into the list, where `path` holds the stops before it. -/
def insertNew [WordSource R] (list : SkipList K V R) (key : K) (value : V) (path : List Stop) :
    Except Fault (Outcome (SkipList K V R) (Option V)) := do
  let (height, source) := list.policy.drawHeight list.source
  roomFor height
  let added := height - list.height
  let lanes ← list.lanes.raise list.size list.height added
  let lanes ← lanes.insert key value height (path ++ List.replicate added {})
  let size ← Counter.add list.size 1
  pure
    { answer := none
      after := { list with lanes, height := max list.height height, size, source }
      events := if list.height < height then [.grew list.height height] else [] }

/-- Sets the value of a key, and answers the value that it had before. -/
def insert [Ord K] [WordSource R] (list : SkipList K V R) (key : K) (value : V) :
    Except Fault (Outcome (SkipList K V R) (Option V)) := do
  let path ← list.pathTo (.of key)
  match ← list.matching? (.of key) (Lanes.base path) with
  | some id =>
      let (old, list) ← list.writeAt id value
      pure { answer := some old, after := list }
  | none => list.insertNew key value path

/-- Sets entries in their order. -/
def insertAll [Ord K] [WordSource R] (list : SkipList K V R) :
    List (K × V) → Except Fault (Outcome (SkipList K V R) Unit)
  | [] => pure { answer := (), after := list }
  | (key, value) :: entries => do
      let one ← list.insert key value
      let rest ← one.after.insertAll entries
      pure { rest with events := one.events ++ rest.events }

/-- The list of some entries, set in their order, with the default policy. -/
def collect [Ord K] [WordSource R] (source : R) (entries : List (K × V)) :
    Except Fault (Outcome (SkipList K V R) Unit) :=
  (ofSource source).insertAll entries

/-- The same with the generator of a seed as the source. -/
def ofList [Ord K] (seed : UInt64) (entries : List (K × V)) :
    Except Fault (Outcome (SkipList K V Xoshiro256) Unit) :=
  collect (Xoshiro256.ofSeed seed) entries

/-! ### Removing entries -/

/-- Removes the key that meets the target, and answers its entry. -/
def removeEntry (list : SkipList K V R) (target : Target K) :
    Except Fault (Outcome (SkipList K V R) (Option (K × V))) := do
  let path ← list.pathTo target
  match ← list.matching? target (Lanes.base path) with
  | none => pure { answer := none, after := list }
  | some id =>
      let (node, lanes) ← list.lanes.remove id path
      let height ← Lanes.usedLevels lanes.head list.height
      let size ← Counter.sub list.size 1
      pure
        { answer := some node.entry
          after := { list with lanes, height, size }
          events := if height ≠ list.height then [.shrank list.height height] else [] }

/-- Removes the key that meets the target, and answers whether there was one. -/
def remove (list : SkipList K V R) (target : Target K) :
    Except Fault (Outcome (SkipList K V R) Bool) := do
  let outcome ← list.removeEntry target
  pure { outcome with answer := outcome.answer.isSome }

end SkipList

end IndexedSkipList
