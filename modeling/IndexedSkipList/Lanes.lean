/-
**The lanes of a skip list: chains of links over one pool of nodes.**

On every level there is a lane: a chain of links that starts at the head, which carries a tower like
a node but no entry, and runs through the nodes tall enough to stand on that level.  The lane of the
base runs through all of them; each lane above skips some, and every link records as its span how
many places of the base it covers.

A search for a key looks for the last node that is acceptable, where nodes get unacceptable for good
from some place of the base on.  It starts at the head on the topmost lane, walks along the lane as
long as the next node is acceptable, steps down to the next lane where it stands, and so on to the
base.  On the way it adds up the spans of the links it followed, so that at each stop it knows the
place at which it stands, the head being place zero.  A search for a place goes by these sums alone:
it walks as long as the next node does not stand behind the place, without a look at the node, and
it is at its end as soon as it stands at the place, on whatever lane this is.

A walk ends because links lead forward.  In a broken structure they need not, and a walk that makes
more moves than there are slots has gone in a circle and is stopped with `Fault.endless`.

Putting a node into the lanes and taking it out are changes made lane by lane, at the stop of a
search for the place of the node.  On a lane that the node stands on, its link and the one of the
stop share what the link of the stop covered before: putting the node in splits the span, taking it
out adds the two up.  On a lane above, the link of the stop passes over the node and its span
changes by one.

Main definitions:

* `Place` — the head, or a node;
* `Stop` — where a walk ended, and at which place of the base that is;
* `Lanes`, `Lanes.link`, `Lanes.setLink` — the lanes, and the links that leave a place;
* `Lanes.advance?`, `Lanes.approach?` — one move along a lane, in a search for a key and in one for
  a place;
* `Lanes.walk` — the moves along one lane;
* `Lanes.descend`, `Lanes.search` — the stops on all lanes, from the one of the base up;
* `Lanes.seek` — the stop of a search for a place;
* `Lanes.spliceAt`, `Lanes.widenAt`, `Lanes.unlinkAt` — the changes on one lane;
* `Lanes.onPath` — a change on each of several lanes that follow each other;
* `Lanes.insert`, `Lanes.remove` — a node put in and taken out on all lanes;
* `Lanes.usedLevels` — the number of lanes that have a node.
-/

import IndexedSkipList.Pool.Basic

set_option relaxedAutoImplicit false
set_option autoImplicit false

namespace IndexedSkipList

/-- Where a walk can stand: at the head, or on a node. -/
inductive Place where
  | head
  | node (id : NodeId)
  deriving DecidableEq

/-- The tower of the head and the pool of nodes. -/
structure Lanes (K V : Type) where
  head : Tower
  pool : Pool K V := {}
  deriving DecidableEq

/-- Where a walk stands, and the place of the base that this is; the head is place zero. -/
structure Stop where
  place : Place := .head
  rank : Nat := 0
  deriving DecidableEq, Inhabited

namespace Lanes

variable {K V : Type}

/-- No nodes, and a head of the given height. -/
def blank (height : Nat) : Lanes K V := { head := Tower.blank height }

/-- The tower that stands at a place. -/
def tower (lanes : Lanes K V) : Place → Except Fault Tower
  | .head => .ok lanes.head
  | .node id => (·.tower) <$> lanes.pool.get id

/-- The link that leaves a place on a level. -/
def link (lanes : Lanes K V) (place : Place) (level : Nat) : Except Fault Link := do
  Tower.link (← lanes.tower place) level

/-- The lanes with another link leaving a place on a level. -/
def setLink (lanes : Lanes K V) (place : Place) (level : Nat) (link : Link) :
    Except Fault (Lanes K V) :=
  match place with
  | .head => do
      let head ← Tower.setLink lanes.head level link
      pure { lanes with head }
  | .node id => do
      let node ← lanes.pool.get id
      let tower ← Tower.setLink node.tower level link
      let pool ← lanes.pool.set id { node with tower }
      pure { lanes with pool }

/-- The lanes without their nodes: the head keeps its height, and its links lead nowhere. -/
def clear (lanes : Lanes K V) : Lanes K V where
  head := Tower.blank lanes.head.size
  pool := lanes.pool.clear

/-! ### Searching -/

/-- One move along a lane, if there is a next node and it is acceptable. -/
def advance? (lanes : Lanes K V) (accepts : K → Nat → Bool) (level : Nat) (stop : Stop) :
    Except Fault (Option Stop) := do
  let link ← lanes.link stop.place level
  match link.next with
  | none => pure none
  | some id =>
      let node ← lanes.pool.get id
      let rank ← Counter.add stop.rank link.span
      pure (if accepts node.key rank then some { place := .node id, rank } else none)

/-- One move along a lane towards a place of the base, if there is a next node and it does not stand
behind the place. -/
def approach? (lanes : Lanes K V) (place level : Nat) (stop : Stop) :
    Except Fault (Option Stop) := do
  let link ← lanes.link stop.place level
  match link.next with
  | none => pure none
  | some id =>
      let rank ← Counter.add stop.rank link.span
      pure (if place < rank then none else some { place := .node id, rank })

/-- The moves of a walk, as far as there is a next one, and no more than `moves` of them. -/
def walk (move? : Stop → Except Fault (Option Stop)) (moves : Nat) (stop : Stop) :
    Except Fault Stop := do
  match ← move? stop with
  | none => pure stop
  | some ahead =>
      match moves with
      | 0 => throw .endless
      | moves + 1 => walk move? moves ahead

/-- Walks along the lanes below `level`, the uppermost first, each from the stop of the one before
it.  The stops are put in front of `path`, so the one of the base comes first. -/
def descend (lanes : Lanes K V) (accepts : K → Nat → Bool) :
    (level : Nat) → (stop : Stop) → (path : List Stop) → Except Fault (List Stop)
  | 0, _, path => pure path
  | level + 1, stop, path => do
      let stop ← walk (lanes.advance? accepts level) lanes.pool.slots.size stop
      lanes.descend accepts level stop (stop :: path)

/-- The stops of a search on the lanes below `height`, the one of the base first. -/
def search (lanes : Lanes K V) (accepts : K → Nat → Bool) (height : Nat) :
    Except Fault (List Stop) :=
  lanes.descend accepts height {} []

/-- The stop at the base, which is the head if there are no lanes. -/
def base (path : List Stop) : Stop := path.headD {}

/-- Walks along the lanes below `level` towards a place of the base, the uppermost first, and goes
down no further when it has come to stand at the place. -/
def seek (lanes : Lanes K V) (place : Nat) : (level : Nat) → (stop : Stop) → Except Fault Stop
  | 0, stop => pure stop
  | level + 1, stop => do
      let stop ← walk (lanes.approach? place level) lanes.pool.slots.size stop
      if stop.rank = place then pure stop else lanes.seek place level stop

/-! ### Changes on one lane -/

/-- Puts the node into a lane behind `stop`; its place at the base is the one after `before`. -/
def spliceAt (id : NodeId) (before : Nat) (level : Nat) (stop : Stop) (lanes : Lanes K V) :
    Except Fault (Lanes K V) := do
  let skipped ← Counter.sub before stop.rank
  let link ← lanes.link stop.place level
  let rest ← Counter.sub link.span skipped
  let reach ← Counter.add skipped 1
  let lanes ← lanes.setLink stop.place level { next := some id, span := reach }
  lanes.setLink (.node id) level { next := link.next, span := rest }

/-- Lets the link that leaves `stop` cover one place more. -/
def widenAt (level : Nat) (stop : Stop) (lanes : Lanes K V) : Except Fault (Lanes K V) := do
  let link ← lanes.link stop.place level
  let span ← Counter.add link.span 1
  lanes.setLink stop.place level { link with span }

/-- Takes the node out of the lane if it is the one behind `stop`; the link that leaves `stop` then
takes over what the link of the node covered.  Either way it covers one place less. -/
def unlinkAt (id : NodeId) (tower : Tower) (level : Nat) (stop : Stop) (lanes : Lanes K V) :
    Except Fault (Lanes K V) := do
  let link ← lanes.link stop.place level
  if link.next = some id then
    let own ← Tower.link tower level
    let covered ← Counter.add link.span own.span
    let span ← Counter.sub covered 1
    lanes.setLink stop.place level { next := own.next, span }
  else
    let span ← Counter.sub link.span 1
    lanes.setLink stop.place level { link with span }

/-! ### Changes on all lanes -/

/-- Makes a change on each lane from `level` on, one for each stop of the path. -/
def onPath (change : Nat → Stop → Lanes K V → Except Fault (Lanes K V)) :
    (level : Nat) → (path : List Stop) → Lanes K V → Except Fault (Lanes K V)
  | _, [], lanes => pure lanes
  | level, stop :: path, lanes => do
      onPath change (level + 1) path (← change level stop lanes)

/-- Lets the links of the head on the levels from `level` on, `count` of them, cover `span`
places. -/
def raise (span : Nat) : (level count : Nat) → Lanes K V → Except Fault (Lanes K V)
  | _, 0, lanes => pure lanes
  | level, count + 1, lanes => do
      let link ← Tower.link lanes.head level
      let lanes ← lanes.setLink .head level { link with span }
      raise span (level + 1) count lanes

/-- Puts a new node of the given height into the lanes, behind the stops of `path`.  The lanes that
it does not reach are widened. -/
def insert (lanes : Lanes K V) (key : K) (value : V) (height : Nat) (path : List Stop) :
    Except Fault (Lanes K V) := do
  let (id, pool) ← lanes.pool.allocate key value height
  let lanes ← onPath (spliceAt id (base path).rank) 0 (path.take height) { lanes with pool }
  onPath widenAt height (path.drop height) lanes

/-- Takes a node out of the lanes, where `path` holds the stops before it, and releases it when no
link leads to it any more.  Its tower is taken from it first, so that on the way the node has no
links of its own. -/
def remove (lanes : Lanes K V) (id : NodeId) (path : List Stop) :
    Except Fault (Node K V × Lanes K V) := do
  let node ← lanes.pool.get id
  let pool ← lanes.pool.set id { node with tower := #[] }
  let lanes ← onPath (unlinkAt id node.tower) 0 path { lanes with pool }
  let (node, pool) ← lanes.pool.release id
  pure (node, { lanes with pool })

/-- The number of lanes that have a node, none of the lanes from `height` on having one. -/
def usedLevels (head : Tower) : (height : Nat) → Except Fault Nat
  | 0 => pure 0
  | height + 1 => do
      let link ← Tower.link head height
      if link.next.isNone then usedLevels head height else pure (height + 1)

end Lanes

end IndexedSkipList
