/-
**Everything that can be asked of a list.**

A batch of changes tells how many of them changed the number of entries, and the heights the list
went through, each height once as long as it lasted.  A batch of questions is answered in order.
The audit goes through the entries and tells at which places the entry that stands there, the one
selected there and the rank of its key do not agree.  A list is printed as the dictionary of its
entries in their order.

A command is a question to a list or a change of it; a run answers commands one after the other, and
ends early only at a fault.  Questions leave the list as it is and cause no events.

Main definitions:

* `SkipList.insertEach`, `SkipList.removeEach` — batches of changes;
* `SkipList.rankEach`, `SkipList.getEach`, `SkipList.selectEach` — batches of questions;
* `SkipList.audit` — the number of entries and the places in disagreement;
* `SkipList.printed` — the printed form;
* `Command`, `Answer` — what can be asked of a list, and what it answers;
* `SkipList.step` — one command: the answer, the list after it, and the events;
* `SkipList.run` — commands up to the first fault, with the outcome of each.
-/

import IndexedSkipList.Form
import IndexedSkipList.SkipList.Cursor

set_option relaxedAutoImplicit false
set_option autoImplicit false

namespace IndexedSkipList

/-! ### Batches of changes -/

/-- How many changes of a batch changed the number of entries, and the height after each change,
the latest first. -/
structure Batch where
  counted : Nat := 0
  heights : List Nat := []
  deriving DecidableEq

/-- The batch with one more change. -/
def Batch.record (batch : Batch) (counts : Bool) (height : Nat) : Batch where
  counted := batch.counted + counts.toNat
  heights := height :: batch.heights

/-- The heights in their order, each once as long as it lasted. -/
def Batch.course (batch : Batch) : List Nat := batch.heights.reverse.eraseReps

namespace SkipList

variable {K V R : Type}

/-- Makes a change for each item of a list, in order, and records those that count. -/
def changeEach {A B : Type}
    (change : SkipList K V R → A → Except Fault (Outcome (SkipList K V R) B)) (counts : B → Bool) :
    List A → Outcome (SkipList K V R) Batch → Except Fault (Outcome (SkipList K V R) Batch)
  | [], outcome => pure outcome
  | item :: items, { answer := batch, after := list, events } => do
      let { answer, after, events := more } ← change list item
      changeEach change counts items
        { answer := batch.record (counts answer) after.height, after, events := events ++ more }

/-- Sets entries in their order, and counts the new keys. -/
def insertEach [Ord K] [WordSource R] (list : SkipList K V R) (entries : List (K × V)) :
    Except Fault (Outcome (SkipList K V R) Batch) :=
  changeEach (fun list (key, value) => list.insert key value) Option.isNone entries
    { answer := {}, after := list }

/-- Removes the keys that meet some targets, and counts those that were present. -/
def removeEach (list : SkipList K V R) (targets : List (Target K)) :
    Except Fault (Outcome (SkipList K V R) Batch) :=
  changeEach remove id targets { answer := {}, after := list }

/-! ### Batches of questions -/

/-- The places of some targets. -/
def rankEach (list : SkipList K V R) (targets : List (Target K)) : Except Fault (List Nat) :=
  targets.mapM list.rank

/-- The values under some targets. -/
def getEach (list : SkipList K V R) (targets : List (Target K)) : Except Fault (List (Option V)) :=
  targets.mapM list.get?

/-- The entries at the places from `first` to `last`. -/
def selectEach (list : SkipList K V R) (first last : Nat) :
    Except Fault (List (Option (K × V))) :=
  (List.range' first (last + 1 - first)).mapM list.select

/-- The places of the keys of all entries, in their order. -/
def ranks [Ord K] (list : SkipList K V R) : Except Fault (List Nat) := do
  let entries ← list.entries
  list.rankEach (entries.map fun (key, _) => .of key)

/-! ### The audit -/

/-- The entry that is found at a place is the one selected there, and its key has that place as its
rank. -/
def agreesAt [Ord K] [BEq V] (list : SkipList K V R) (place : Nat) (entry : K × V) :
    Except Fault Bool := do
  let selected ← list.select place
  let rank ← list.rank (.of entry.1)
  let same := match selected with
    | none => false
    | some (key, value) => compare key entry.1 = .eq && value == entry.2
  pure (same && rank = place)

/-- The number of entries found, and the places at which the list does not agree with them. -/
def audit [Ord K] [BEq V] (list : SkipList K V R) : Except Fault (Nat × List Nat) := do
  let entries ← list.entries
  let verdicts ← (entries.zipIdx 1).mapM fun (entry, place) => do
    pure (place, ← list.agreesAt place entry)
  let places := verdicts.filterMap fun (place, agrees) => if agrees then none else some place
  pure (entries.length, places)

/-! ### The printed form -/

/-- The printed form of a list: its entries, each value labelled by its key. -/
def printed [Printable K] [Printable V] (list : SkipList K V R) : Except Fault Form := do
  let entries ← list.entries
  pure (.dictionary (entries.map fun (key, value) => (Printable.form key, Printable.form value)))

end SkipList

/-! ### Commands and answers -/

/-- What can be asked of a list with keys in `K` and values in `V`. -/
inductive Command (K V : Type) where
  /-- Set the value of a key. -/
  | insert (key : K) (value : V)
  /-- Set entries in their order. -/
  | insertAll (entries : List (K × V))
  /-- The value under a target. -/
  | get (target : Target K)
  /-- The entry under a target. -/
  | entry (target : Target K)
  /-- Whether some key meets a target. -/
  | contains (target : Target K)
  /-- Write a value under a target, if some key meets it. -/
  | replace (target : Target K) (value : V)
  /-- The place of a target. -/
  | rank (target : Target K)
  /-- Remove the key that meets a target, and tell whether there was one. -/
  | remove (target : Target K)
  /-- Remove the key that meets a target, and tell its entry. -/
  | removeEntry (target : Target K)
  /-- The entry at a place. -/
  | select (place : Nat)
  /-- The entries at some places in a row. -/
  | selectEach (first last : Nat)
  /-- The entry with the smallest key. -/
  | first
  /-- The entry with the largest key. -/
  | last
  /-- Whether there are no entries. -/
  | isEmpty
  /-- The policy that heights are drawn by. -/
  | policy
  /-- Drop all entries. -/
  | clear
  /-- All entries. -/
  | entries
  /-- The entries that are visited until `count` of them, but at least one, have been. -/
  | ascendUpTo (count : Nat)
  /-- The entries that are visited until one is not below a target. -/
  | ascendWhileBelow (target : Target K)
  /-- The printed form, on one line or as a block. -/
  | print (block : Bool)
  /-- The places of the keys of all entries. -/
  | ranks
  /-- The list checked against itself. -/
  | audit
  /-- Set entries in their order, and tell how the list changed on the way. -/
  | insertEach (entries : List (K × V))
  /-- Remove the keys under some targets, and tell how the list changed on the way. -/
  | removeEach (targets : List (Target K))
  /-- The places of some targets. -/
  | rankEach (targets : List (Target K))
  /-- The values under some targets. -/
  | getEach (targets : List (Target K))
  /-- A session with a cursor. -/
  | scan (commands : List Scan.Command)

/-- What a list answers. -/
inductive Answer (K V : Type) where
  | nothing
  | flag (yes : Bool)
  | number (n : Nat)
  | numbers (numbers : List Nat)
  | value (value : Option V)
  | values (values : List (Option V))
  | entry (entry : Option (K × V))
  | entries (entries : List (K × V))
  | selected (entries : List (Option (K × V)))
  | policy (policy : HeightPolicy)
  | text (text : String)
  | batch (batch : Batch)
  | audit (entries : Nat) (places : List Nat)
  | scan (answers : List (Scan.Answer K V))
  deriving DecidableEq

namespace SkipList

variable {K V R : Type}

/-! ### Visitors -/

/-- Records the entries it is shown, the latest first, and asks for more as long as it has seen
fewer than `count`. -/
def recordUpTo (count : Nat) (seen : Nat × List (K × V)) (entry : K × V) :
    Bool × Nat × List (K × V) :=
  (seen.1 + 1 < count, seen.1 + 1, entry :: seen.2)

/-- Records the entries it is shown, the latest first, and asks for more as long as they are below
the target. -/
def recordWhileBelow (target : Target K) (seen : List (K × V)) (entry : K × V) :
    Bool × List (K × V) :=
  (target entry.1 = .lt, entry :: seen)

/-- The entries visited until `count` of them, but at least one, have been. -/
def ascendUpTo (list : SkipList K V R) (count : Nat) : Except Fault (List (K × V)) := do
  let (_, seen) ← list.ascend (recordUpTo count) (0, [])
  pure seen.reverse

/-- The entries visited until one is not below a target. -/
def ascendWhileBelow (list : SkipList K V R) (target : Target K) : Except Fault (List (K × V)) := do
  let seen ← list.ascend (recordWhileBelow target) []
  pure seen.reverse

/-! ### Runs -/

/-- The outcome of a question, which leaves the list as it is. -/
def answering {A B : Type} (list : SkipList K V R) (answer : A → B) (question : Except Fault A) :
    Except Fault (Outcome (SkipList K V R) B) := do
  pure { answer := answer (← question), after := list }

/-- The outcome of a change with another form of its answer. -/
def changing {A B : Type} (answer : A → B) (change : Except Fault (Outcome (SkipList K V R) A)) :
    Except Fault (Outcome (SkipList K V R) B) := do
  let outcome ← change
  pure { outcome with answer := answer outcome.answer }

variable [Ord K] [Printable K] [Printable V] [BEq V] [WordSource R]

/-- Answers one command. -/
def step (list : SkipList K V R) :
    Command K V → Except Fault (Outcome (SkipList K V R) (Answer K V))
  | .insert key value => changing .value (list.insert key value)
  | .insertAll entries => changing (fun _ => .nothing) (list.insertAll entries)
  | .get target => list.answering .value (list.get? target)
  | .entry target => list.answering .entry (list.entry? target)
  | .contains target => list.answering .flag (list.contains target)
  | .replace target value => changing .value (list.replace target value)
  | .rank target => list.answering .number (list.rank target)
  | .remove target => changing .flag (list.remove target)
  | .removeEntry target => changing .entry (list.removeEntry target)
  | .select place => list.answering .entry (list.select place)
  | .selectEach first last => list.answering .selected (list.selectEach first last)
  | .first => list.answering .entry list.first?
  | .last => list.answering .entry list.last?
  | .isEmpty => list.answering .flag (.ok list.isEmpty)
  | .policy => list.answering .policy (.ok list.policy)
  | .clear => .ok { answer := .nothing, after := list.clear }
  | .entries => list.answering .entries list.entries
  | .ascendUpTo count => list.answering .entries (list.ascendUpTo count)
  | .ascendWhileBelow target => list.answering .entries (list.ascendWhileBelow target)
  | .print block =>
      list.answering (fun form => .text (if block then form.block else form.inline)) list.printed
  | .ranks => list.answering .numbers list.ranks
  | .audit => list.answering (fun (found, places) => .audit found places) list.audit
  | .insertEach entries => changing .batch (list.insertEach entries)
  | .removeEach targets => changing .batch (list.removeEach targets)
  | .rankEach targets => list.answering .numbers (list.rankEach targets)
  | .getEach targets => list.answering .values (list.getEach targets)
  | .scan commands =>
      list.answering .scan do
        let cursor ← list.cursor
        Scan.run list.lanes { cursor } commands

/-- Answers commands in their order, up to and including the first fault. -/
def run (list : SkipList K V R) :
    List (Command K V) → List (Except Fault (Outcome (SkipList K V R) (Answer K V)))
  | [] => []
  | command :: commands =>
      match list.step command with
      | .ok outcome => .ok outcome :: outcome.after.run commands
      | .error fault => [.error fault]

end SkipList

end IndexedSkipList
