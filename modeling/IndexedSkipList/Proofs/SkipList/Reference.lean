/-
**Two references for what a list answers.**

The first is the dictionary: a list of entries and nothing else.  It knows the answer to every
command but those that ask for the policy or for the course of the heights.

The second is the profile: the columns in their order, each an entry with a height, together with
the policy and the source.  It knows the answer to every command, the events as well, and which
words are drawn.  What it does not know is where nodes live, which slots are vacant and what the
links are; so whatever is shown to follow a profile cannot depend on these.

The profile refines the dictionary: it goes through the entries that the dictionary goes through and
gives the answers that the dictionary knows.

Main definitions:

* `Command.Lawful` — the targets of a command agree with the order of the keys;
* `Dictionary.after`, `Dictionary.answer?`, `Dictionary.history` — the dictionary, command by
  command;
* `Dictionary.Fits` — at no time are there as many entries as ids;
* `Profile`, `Profile.step`, `Profile.run` — the profile, command by command.

Main results:

* `Dictionary.sorted_after` — the entries stay sorted;
* `Profile.entries_step`, `Profile.answer_step` — **the profile refines the dictionary**.
-/

import IndexedSkipList.Proofs.SkipList.Iteration
import IndexedSkipList.SkipList.Command

set_option relaxedAutoImplicit false
set_option autoImplicit false

namespace IndexedSkipList

variable {K V R : Type}

/-! ### Commands that can be answered -/

namespace Command

/-- The targets that a command looks for. -/
def targets : Command K V → List (Target K)
  | .get target => [target]
  | .entry target => [target]
  | .contains target => [target]
  | .replace target _ => [target]
  | .rank target => [target]
  | .remove target => [target]
  | .removeEntry target => [target]
  | .removeEach targets => targets
  | .rankEach targets => targets
  | .getEach targets => targets
  | _ => []

/-- **The targets of the command agree with the order of the keys.** -/
def Lawful [Ord K] (command : Command K V) : Prop := ∀ target ∈ command.targets, target.Agrees

end Command

/-! ### The dictionary -/

namespace Dictionary

variable [Ord K]

/-- The entries after a command. -/
def after (entries : List (K × V)) : Command K V → List (K × V)
  | .insert key value => insert entries key value
  | .insertAll new => insertAll entries new
  | .insertEach new => insertAll entries new
  | .replace target value => write entries target value
  | .remove target => erase entries target
  | .removeEntry target => erase entries target
  | .removeEach targets => eraseAll entries targets
  | .clear => []
  | _ => entries

/-- The commands with the entries before each of them. -/
def history (entries : List (K × V)) : List (Command K V) → List (Command K V × List (K × V))
  | [] => []
  | command :: commands => (command, entries) :: history (after entries command) commands

/-- **At no time are there as many entries as there are ids.** -/
def Fits (commands : List (Command K V)) : Prop :=
  ∀ moment ∈ history [] commands, (after moment.2 moment.1).length < Pool.capacity

theorem sorted_after [Std.TransOrd K] {entries : List (K × V)} (h : Sorted entries)
    (command : Command K V) : Sorted (after entries command) := by
  cases command with
  | insert key value => exact sorted_insert h key value
  | insertAll new => exact sorted_insertAll h new
  | insertEach new => exact sorted_insertAll h new
  | replace target value => exact sorted_write h target value
  | remove target => exact sorted_erase h target
  | removeEntry target => exact sorted_erase h target
  | removeEach targets => exact sorted_eraseAll h targets
  | clear => exact List.Pairwise.nil
  | _ => exact h

/-- The entry at a place is the one selected there, and its key has that place as its rank. -/
def agreesAt [BEq V] (entries : List (K × V)) (place : Nat) (entry : K × V) : Bool :=
  (match select entries place with
    | none => false
    | some (key, value) => compare key entry.1 = .eq && value == entry.2) &&
  rank entries (.of entry.1) = place

/-- The places at which the entries do not agree with themselves. -/
def disagreements [BEq V] (entries : List (K × V)) : List Nat :=
  ((entries.zipIdx 1).map fun (entry, place) => (place, agreesAt entries place entry)).filterMap
    fun (place, agrees) => if agrees then none else some place

/-- The printed form of the entries. -/
def printed [Printable K] [Printable V] (entries : List (K × V)) : Form :=
  .dictionary (entries.map fun (key, value) => (Printable.form key, Printable.form value))

variable [Printable K] [Printable V] [BEq V]

/-- **The answer to a command**, where the entries decide it. -/
def answer? (entries : List (K × V)) : Command K V → Option (Answer K V)
  | .insert key _ => some (.value (get? entries (.of key)))
  | .insertAll _ => some .nothing
  | .get target => some (.value (get? entries target))
  | .entry target => some (.entry (find? entries target))
  | .contains target => some (.flag (contains entries target))
  | .replace target _ => some (.value (get? entries target))
  | .rank target => some (.number (rank entries target))
  | .remove target => some (.flag (contains entries target))
  | .removeEntry target => some (.entry (find? entries target))
  | .select place => some (.entry (select entries place))
  | .selectEach first last =>
      some (.selected ((List.range' first (last + 1 - first)).map (select entries)))
  | .first => some (.entry entries.head?)
  | .last => some (.entry entries.getLast?)
  | .isEmpty => some (.flag entries.isEmpty)
  | .policy => none
  | .clear => some .nothing
  | .entries => some (.entries entries)
  | .ascendUpTo count =>
      some (.entries (visitAll (SkipList.recordUpTo count) entries (0, [])).2.reverse)
  | .ascendWhileBelow target =>
      some (.entries (visitAll (SkipList.recordWhileBelow target) entries []).reverse)
  | .print block =>
      some (.text (if block then (printed entries).block else (printed entries).inline))
  | .ranks => some (.numbers (entries.map fun entry => rank entries (.of entry.1)))
  | .audit => some (.audit entries.length (disagreements entries))
  | .insertEach _ => none
  | .removeEach _ => none
  | .rankEach targets => some (.numbers (targets.map (rank entries)))
  | .getEach targets => some (.values (targets.map (get? entries)))
  | .scan commands => some (.scan (Reader.run { ahead := entries } commands))

end Dictionary

/-! ### The profile -/

/-- The columns in their order, the policy and the source. -/
structure Profile (K V R : Type) where
  columns : List (Column K V)
  policy : HeightPolicy
  source : R

/-- The outcome with another form of its answer. -/
def Outcome.mapAnswer {S A B : Type} (f : A → B) (outcome : Outcome S A) : Outcome S B where
  answer := f outcome.answer
  after := outcome.after
  events := outcome.events

namespace Profile

/-- The entries of the columns. -/
def entries (profile : Profile K V R) : List (K × V) :=
  profile.columns.map fun column => column.entry

/-- The height of the tallest column. -/
def height (profile : Profile K V R) : Nat := tallest (profile.columns.map (·.height))

@[simp] theorem length_entries (profile : Profile K V R) :
    profile.entries.length = profile.columns.length := List.length_map ..

/-- There are fewer columns than ids. -/
def Fits (profile : Profile K V R) : Prop := profile.columns.length < Pool.capacity

/-- The column under the target gets another value. -/
def write (profile : Profile K V R) (target : Target K) (value : V) : Profile K V R :=
  { profile with
    columns := changeIn (fun column => target column.key) (fun column => { column with value })
      profile.columns }

/-- The column under the target is taken out. -/
def erase (profile : Profile K V R) (target : Target K) :
    Outcome (Profile K V R) (Option (K × V)) :=
  let after :=
    { profile with columns := dropFrom (fun column => target column.key) profile.columns }
  { answer := Dictionary.find? profile.entries target
    after
    events := if after.height ≠ profile.height then [.shrank profile.height after.height] else [] }

/-- The column under the target is taken out, and it is told whether there was one. -/
def remove (profile : Profile K V R) (target : Target K) : Outcome (Profile K V R) Bool :=
  (profile.erase target).mapAnswer Option.isSome

section Setting

variable [Ord K] [WordSource R]

/-- A column is put in, with a height that is drawn. -/
def place (profile : Profile K V R) (key : K) (value : V) :
    Outcome (Profile K V R) (Option V) :=
  let (height, source) := profile.policy.drawHeight profile.source
  { answer := none
    after := { profile with
      columns := placeIn (fun column => compare column.key key) { key, value, height }
        profile.columns
      source }
    events := if profile.height < height then [.grew profile.height height] else [] }

/-- The value of a key is set. -/
def insert (profile : Profile K V R) (key : K) (value : V) : Outcome (Profile K V R) (Option V) :=
  match Dictionary.get? profile.entries (.of key) with
  | some old => { answer := some old, after := profile.write (.of key) value }
  | none => profile.place key value

/-- Values are set in order. -/
def insertAll (profile : Profile K V R) : List (K × V) → Outcome (Profile K V R) Unit
  | [] => { answer := (), after := profile }
  | (key, value) :: entries =>
      let one := profile.insert key value
      let rest := one.after.insertAll entries
      { rest with events := one.events ++ rest.events }

end Setting

/-- A change is made for each item of a list, and those that count are recorded. -/
def changeEach {A B : Type} (change : Profile K V R → A → Outcome (Profile K V R) B)
    (counts : B → Bool) : List A → Outcome (Profile K V R) Batch → Outcome (Profile K V R) Batch
  | [], outcome => outcome
  | item :: items, { answer := batch, after := profile, events } =>
      let one := change profile item
      changeEach change counts items
        { answer := batch.record (counts one.answer) one.after.height
          after := one.after
          events := events ++ one.events }

variable [Ord K] [Printable K] [Printable V] [BEq V] [WordSource R]

/-- **One command.** -/
def step (profile : Profile K V R) : Command K V → Outcome (Profile K V R) (Answer K V)
  | .insert key value => (profile.insert key value).mapAnswer .value
  | .insertAll entries => (profile.insertAll entries).mapAnswer fun _ => .nothing
  | .replace target value =>
      { answer := .value (Dictionary.get? profile.entries target)
        after := profile.write target value }
  | .remove target => (profile.remove target).mapAnswer .flag
  | .removeEntry target => (profile.erase target).mapAnswer .entry
  | .policy => { answer := .policy profile.policy, after := profile }
  | .clear => { answer := .nothing, after := { profile with columns := [] } }
  | .insertEach entries =>
      (changeEach (fun profile (key, value) => profile.insert key value) Option.isNone entries
        { answer := {}, after := profile }).mapAnswer .batch
  | .removeEach targets =>
      (changeEach remove id targets { answer := {}, after := profile }).mapAnswer .batch
  | question =>
      { answer := (Dictionary.answer? profile.entries question).getD .nothing, after := profile }

/-- Commands in their order, with the outcome of each. -/
def run (profile : Profile K V R) :
    List (Command K V) → List (Outcome (Profile K V R) (Answer K V))
  | [] => []
  | command :: commands => profile.step command :: (profile.step command).after.run commands

/-! ### The profile refines the dictionary -/

omit [Ord K] [Printable K] [Printable V] [BEq V] [WordSource R] in
theorem entries_write (profile : Profile K V R) (target : Target K) (value : V) :
    (profile.write target value).entries = Dictionary.write profile.entries target value :=
  map_changeIn (fun column : Column K V => column.entry) (fun entry => target entry.1)
    (fun _ => rfl) profile.columns

omit [Ord K] [Printable K] [Printable V] [BEq V] [WordSource R] in
theorem entries_erase (profile : Profile K V R) (target : Target K) :
    (profile.erase target).after.entries = Dictionary.erase profile.entries target :=
  map_dropFrom (fun column : Column K V => column.entry) (fun entry => target entry.1)
    profile.columns

omit [Ord K] [Printable K] [Printable V] [BEq V] [WordSource R] in
theorem entries_remove (profile : Profile K V R) (target : Target K) :
    (profile.remove target).after.entries = Dictionary.erase profile.entries target :=
  entries_erase profile target

omit [Printable K] [Printable V] [BEq V] in
theorem entries_insert (profile : Profile K V R) (key : K) (value : V) :
    (profile.insert key value).after.entries = Dictionary.insert profile.entries key value := by
  unfold insert Dictionary.insert Dictionary.contains Dictionary.get?
  cases Dictionary.find? profile.entries (.of key) with
  | none =>
      exact map_placeIn (fun column : Column K V => column.entry)
        (fun entry => compare entry.1 key) _ profile.columns
  | some entry => exact entries_write profile (.of key) value

omit [Printable K] [Printable V] [BEq V] in
theorem answer_insert (profile : Profile K V R) (key : K) (value : V) :
    (profile.insert key value).answer = Dictionary.get? profile.entries (.of key) := by
  unfold insert
  cases Dictionary.get? profile.entries (.of key) <;> rfl

omit [Printable K] [Printable V] [BEq V] in
theorem entries_insertAll (profile : Profile K V R) (entries : List (K × V)) :
    (profile.insertAll entries).after.entries = Dictionary.insertAll profile.entries entries := by
  induction entries generalizing profile with
  | nil => rfl
  | cons entry entries ih =>
      obtain ⟨key, value⟩ := entry
      rw [Dictionary.insertAll_cons, ← entries_insert]
      exact ih _

omit [Ord K] [Printable K] [Printable V] [BEq V] [WordSource R] in
/-- A batch of changes does to the entries what its changes do one after the other. -/
theorem entries_changeEach {A B : Type} {change : Profile K V R → A → Outcome (Profile K V R) B}
    {changed : List (K × V) → A → List (K × V)}
    (h : ∀ profile item, (change profile item).after.entries = changed profile.entries item)
    (counts : B → Bool) (items : List A) (outcome : Outcome (Profile K V R) Batch) :
    (changeEach change counts items outcome).after.entries =
      items.foldl changed outcome.after.entries := by
  induction items generalizing outcome with
  | nil => rfl
  | cons item items ih =>
      rw [List.foldl_cons, ← h]
      exact ih _

omit [Printable K] [Printable V] [BEq V] in
/-- If the columns fit after a value was set, they fitted before. -/
theorem fits_of_insert {profile : Profile K V R} {key : K} {value : V}
    (h : (profile.insert key value).after.Fits) : profile.Fits := by
  refine Nat.lt_of_le_of_lt ?_ h
  rw [← length_entries, ← length_entries, entries_insert]
  exact Dictionary.length_le_insert _ key value

omit [Printable K] [Printable V] [BEq V] in
/-- If the columns fit after several values were set, they fitted before. -/
theorem fits_of_insertAll {profile : Profile K V R} {entries : List (K × V)}
    (h : (profile.insertAll entries).after.Fits) : profile.Fits := by
  refine Nat.lt_of_le_of_lt ?_ h
  rw [← length_entries, ← length_entries, entries_insertAll]
  exact Dictionary.length_le_insertAll _ entries

/-- **The profile goes through the entries that the dictionary goes through.** -/
theorem entries_step (profile : Profile K V R) (command : Command K V) :
    (profile.step command).after.entries = Dictionary.after profile.entries command := by
  cases command with
  | insert key value => exact entries_insert profile key value
  | insertAll entries => exact entries_insertAll profile entries
  | replace target value => exact entries_write profile target value
  | remove target => exact entries_remove profile target
  | removeEntry target => exact entries_erase profile target
  | insertEach entries =>
      exact entries_changeEach (fun profile entry => entries_insert profile entry.1 entry.2) _ _ _
  | removeEach targets => exact entries_changeEach entries_remove _ _ _
  | _ => rfl

/-- **The profile gives the answers that the dictionary knows.** -/
theorem answer_step (profile : Profile K V R) (command : Command K V) {answer : Answer K V}
    (h : Dictionary.answer? profile.entries command = some answer) :
    (profile.step command).answer = answer := by
  cases command with
  | insert key value =>
      rw [← Option.some.inj h, ← answer_insert]
      rfl
  | policy => cases h
  | insertEach entries => cases h
  | removeEach targets => cases h
  | _ => exact Option.some.inj h

end Profile

end IndexedSkipList
