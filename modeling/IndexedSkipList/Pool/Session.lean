/-
**Everything that can be asked of a pool, by ids and by handles.**

A command names nodes, by their ids or by any other kind of name that can be resolved to ids.  A run
answers commands one after the other and ends early only at a fault.

A session is a pool together with the ids it has handed out, in the order of the allocations; a
handle is a position in that order.  Handles are never taken back: after a release or a clear they
still name the id that was handed out, live or not, which is how the faults of stale ids are brought
about.

Main definitions:

* `Pool.Command`, `Pool.Answer` — what can be asked of a pool, and what it answers;
* `Pool.Command.resolve` — the command with ids in the place of other names;
* `Pool.step`, `Pool.run` — one command, and commands up to the first fault;
* `Pool.Session` — a pool and the ids handed out;
* `Pool.Session.step`, `Pool.Session.run` — the same by handles.
-/

import IndexedSkipList.Pool.Basic

set_option relaxedAutoImplicit false
set_option autoImplicit false

namespace IndexedSkipList

namespace Pool

/-! ### Commands and answers -/

/-- What can be asked of a pool; nodes are named by values of `N`. -/
inductive Command (N K V : Type) where
  /-- Allocate a node with a blank tower of the given height. -/
  | allocate (key : K) (value : V) (height : Nat)
  /-- Release a node. -/
  | release (name : N)
  /-- Read a node. -/
  | get (name : N)
  /-- Write the key of a node. -/
  | setKey (name : N) (key : K)
  /-- Write the value of a node. -/
  | setValue (name : N) (value : V)
  /-- Write the link of a node on a level. -/
  | setLink (name : N) (level : Nat) (target : Option N) (span : Nat)
  /-- Compare two names. -/
  | same (first second : N)
  /-- Forget all nodes. -/
  | clear
  deriving DecidableEq

/-- What a pool answers. -/
inductive Answer (K V : Type) where
  /-- The id of the node allocated. -/
  | allocated (id : NodeId)
  /-- The node released or read. -/
  | node (node : Node K V)
  /-- The key that was overwritten. -/
  | key (key : K)
  /-- The value that was overwritten. -/
  | value (value : V)
  /-- The link that was overwritten. -/
  | link (link : Link)
  /-- Whether two names name the same slot. -/
  | same (equal : Bool)
  /-- All nodes are forgotten. -/
  | cleared
  deriving DecidableEq

variable {K V : Type}

/-- The command with ids in the place of names. -/
def Command.resolve {N : Type} (id : N → Except Fault NodeId) :
    Command N K V → Except Fault (Command NodeId K V)
  | .allocate key value height => pure (.allocate key value height)
  | .release name => do pure (.release (← id name))
  | .get name => do pure (.get (← id name))
  | .setKey name key => do pure (.setKey (← id name) key)
  | .setValue name value => do pure (.setValue (← id name) value)
  | .setLink name level target span => do
      let name ← id name
      let target ← target.mapM id
      pure (.setLink name level target span)
  | .same first second => do
      let first ← id first
      let second ← id second
      pure (.same first second)
  | .clear => pure .clear

/-! ### Runs by ids -/

/-- Answers one command. -/
def step (pool : Pool K V) : Command NodeId K V → Except Fault (Answer K V × Pool K V)
  | .allocate key value height => do
      let (id, pool) ← pool.allocate key value height
      pure (.allocated id, pool)
  | .release id => do
      let (node, pool) ← pool.release id
      pure (.node node, pool)
  | .get id => do
      let node ← pool.get id
      pure (.node node, pool)
  | .setKey id key => do
      let node ← pool.get id
      let pool ← pool.set id { node with key }
      pure (.key node.key, pool)
  | .setValue id value => do
      let node ← pool.get id
      let pool ← pool.set id { node with value }
      pure (.value node.value, pool)
  | .setLink id level target span => do
      let node ← pool.get id
      let link ← Tower.link node.tower level
      let tower ← Tower.setLink node.tower level { next := target, span }
      let pool ← pool.set id { node with tower }
      pure (.link link, pool)
  | .same first second => pure (.same (first = second), pool)
  | .clear => pure (.cleared, pool.clear)

/-- Answers commands in their order, up to and including the first fault. -/
def run (pool : Pool K V) : List (Command NodeId K V) → List (Except Fault (Answer K V))
  | [] => []
  | command :: commands =>
      match pool.step command with
      | .ok (answer, pool) => .ok answer :: pool.run commands
      | .error fault => [.error fault]

/-! ### Runs by handles -/

/-- A pool and the ids it has handed out, the first one first. -/
structure Session (K V : Type) where
  pool : Pool K V := {}
  handles : Array NodeId := #[]
  deriving DecidableEq

namespace Session

variable {K V : Type}

/-- The id behind a handle. -/
def id (session : Session K V) (handle : Nat) : Except Fault NodeId :=
  match session.handles[handle]? with
  | some id => .ok id
  | none => .error (.outOfBounds session.handles.size handle)

/-- The handles after an answer: an id that was handed out is kept. -/
def keep (handles : Array NodeId) : Answer K V → Array NodeId
  | .allocated id => handles.push id
  | _ => handles

/-- Answers one command whose nodes are named by handles. -/
def step (session : Session K V) (command : Command Nat K V) :
    Except Fault (Answer K V × Session K V) := do
  let command ← command.resolve session.id
  let (answer, pool) ← session.pool.step command
  pure (answer, { pool, handles := keep session.handles answer })

/-- Answers commands in their order, up to and including the first fault. -/
def run (session : Session K V) : List (Command Nat K V) → List (Except Fault (Answer K V))
  | [] => []
  | command :: commands =>
      match session.step command with
      | .ok (answer, session) => .ok answer :: session.run commands
      | .error fault => [.error fault]

end Session

end Pool

end IndexedSkipList
