/-
**Which words are drawn, and what heights they give.**

A ledger keeps two things: for every key that is present the height that was drawn when it was last
put in, and how many words of the stream have been read so far.  There are no nodes here and no
links, not even values.  A new key is entered with the height that the words from this position on
give, and the position moves on by the words that are read for it; a key that is taken out is struck
out; everything else leaves the ledger as it is.

A list follows the ledger through every run.  After each command its nodes are the keys of the
ledger, each as tall as it is entered, its source is the source of the start as many words further
along as the ledger says, and as many levels are in use as the greatest entered height has.

Main definitions:

* `Ledger`, `Ledger.after`, `Ledger.course` — the ledger, command by command;
* `Profile.Tallies`, `SkipList.Tallies` — a profile and a list agree with a ledger;
* `SkipList.FollowsLedger` — a list agrees with the ledger through a run.

Main results:

* `Profile.Tallies.step` — one command keeps a profile in agreement with the ledger;
* `SkipList.run_follows_ledger` — **every run follows the ledger**.
-/

import IndexedSkipList.Proofs.HeightPolicy
import IndexedSkipList.Proofs.SkipList.WellFormed

set_option relaxedAutoImplicit false
set_option autoImplicit false

namespace IndexedSkipList

variable {K V R : Type}

/-! ### The ledger -/

/-- The keys that are present with the heights drawn for them, and the number of words read. -/
structure Ledger (K : Type) where
  heights : List (K × Nat) := []
  position : Nat := 0
  deriving DecidableEq

namespace Ledger

/-- The greatest height that is entered, zero if there are no keys. -/
def height (ledger : Ledger K) : Nat := tallest (ledger.heights.map Prod.snd)

/-- A key that meets the target is entered. -/
def keeps (ledger : Ledger K) (target : Target K) : Bool :=
  ledger.heights.any fun entered => target entered.1 = .eq

/-- What meets the target is struck out. -/
def drop (ledger : Ledger K) (target : Target K) : Ledger K :=
  { ledger with heights := dropFrom (fun entered => target entered.1) ledger.heights }

section Setting

variable [Ord K] (policy : HeightPolicy) (word : Nat → UInt32)

/-- **A key is set**: if it is new, it is entered with the height that the words from the position
on give, and the position moves on by the words read for this height. -/
def set (ledger : Ledger K) (key : K) : Ledger K :=
  if ledger.keeps (.of key) then ledger
  else
    let height := policy.heightFrom fun n => word (ledger.position + n)
    { heights := (key, height) :: ledger.heights
      position := ledger.position + policy.wordsRead height }

/-- Keys are set in order. -/
def setAll (ledger : Ledger K) (entries : List (K × V)) : Ledger K :=
  entries.foldl (fun ledger entry => ledger.set policy word entry.1) ledger

/-- **The ledger after a command.** -/
def after (ledger : Ledger K) : Command K V → Ledger K
  | .insert key _ => ledger.set policy word key
  | .insertAll entries => ledger.setAll policy word entries
  | .insertEach entries => ledger.setAll policy word entries
  | .remove target => ledger.drop target
  | .removeEntry target => ledger.drop target
  | .removeEach targets => targets.foldl drop ledger
  | .clear => { ledger with heights := [] }
  | _ => ledger

/-- The ledger after each of some commands. -/
def course (ledger : Ledger K) : List (Command K V) → List (Ledger K)
  | [] => []
  | command :: commands =>
      ledger.after policy word command :: course (ledger.after policy word command) commands

end Setting

end Ledger

/-! ### Profiles -/

/-- The key of a column with its height. -/
def Column.stature (column : Column K V) : K × Nat := (column.key, column.height)

namespace Profile

variable [WordSource R]

/-- **The profile agrees with the ledger**: its columns are those entered, and its source is
`start`, as many words further along as have been read. -/
structure Tallies (profile : Profile K V R) (policy : HeightPolicy) (start : R)
    (ledger : Ledger K) : Prop where
  perm : (profile.columns.map Column.stature).Perm ledger.heights
  policy_eq : profile.policy = policy
  source_eq : profile.source = WordSource.skip ledger.position start

namespace Tallies

variable {profile : Profile K V R} {policy : HeightPolicy} {start : R} {ledger : Ledger K}

theorem height_eq (h : profile.Tallies policy start ledger) : profile.height = ledger.height := by
  have hheights := h.perm.map Prod.snd
  rw [List.map_map] at hheights
  exact tallest_eq_of_perm hheights

/-- The ledger keeps the keys that are present. -/
theorem keeps_eq (h : profile.Tallies policy start ledger) (target : Target K) :
    ledger.keeps target = Dictionary.contains profile.entries target := by
  rw [Ledger.keeps, ← h.perm.any_eq, List.any_map, Dictionary.contains, Dictionary.find?,
    List.isSome_find?, Profile.entries, List.any_map]
  rfl

/-- Writing a value changes nothing that the ledger knows of. -/
theorem write (h : profile.Tallies policy start ledger) (target : Target K) (value : V) :
    (profile.write target value).Tallies policy start ledger where
  perm := by
    have hstature : (changeIn (fun column : Column K V => target column.key) ({ · with value })
        profile.columns).map Column.stature = profile.columns.map Column.stature := by
      rw [changeIn, List.map_map]
      refine List.map_congr_left fun column _ => ?_
      simp only [Function.comp_apply]
      split <;> rfl
    exact hstature ▸ h.perm
  policy_eq := h.policy_eq
  source_eq := h.source_eq

theorem erase (h : profile.Tallies policy start ledger) (target : Target K) :
    (profile.erase target).after.Tallies policy start (ledger.drop target) where
  perm := by
    have hdrop := map_dropFrom Column.stature (fun entered : K × Nat => target entered.1)
      profile.columns
    exact hdrop ▸ h.perm.filter _
  policy_eq := h.policy_eq
  source_eq := h.source_eq

theorem remove (h : profile.Tallies policy start ledger) (target : Target K) :
    (profile.remove target).after.Tallies policy start (ledger.drop target) := h.erase target

theorem clear (h : profile.Tallies policy start ledger) :
    ({ profile with columns := [] } : Profile K V R).Tallies policy start
      { ledger with heights := [] } where
  perm := .nil
  policy_eq := h.policy_eq
  source_eq := h.source_eq

variable [Ord K]

/-- **A new key is entered with the height that is drawn for it.** -/
theorem place (h : profile.Tallies policy start ledger) {key : K}
    (hnew : ledger.keeps (.of key) = false) (value : V) :
    (profile.place key value).after.Tallies policy start
      (ledger.set policy (WordSource.word start) key) := by
  -- the words of the source are those of the stream from the position on
  have hword : WordSource.word profile.source =
      fun n => WordSource.word start (ledger.position + n) := by
    funext n
    rw [h.source_eq, WordSource.word_skip]
  rw [Ledger.set, hnew, if_neg Bool.false_ne_true]
  simp only [Profile.place, HeightPolicy.drawHeight_eq, hword, h.policy_eq]
  refine ⟨?_, rfl, ?_⟩
  · exact ((placeIn_perm _ _ profile.columns).map Column.stature).trans (h.perm.cons _)
  · rw [h.source_eq, ← WordSource.skip_add]

/-- **Setting a value follows the ledger**: a key that is present draws nothing. -/
theorem insert (h : profile.Tallies policy start ledger) (key : K) (value : V) :
    (profile.insert key value).after.Tallies policy start
      (ledger.set policy (WordSource.word start) key) := by
  have hkeeps := h.keeps_eq (.of key)
  rw [Dictionary.contains] at hkeeps
  unfold Profile.insert Dictionary.get?
  cases hfind : Dictionary.find? profile.entries (.of key) with
  | none =>
      rw [hfind] at hkeeps
      exact h.place hkeeps value
  | some entry =>
      rw [hfind] at hkeeps
      rw [Ledger.set, hkeeps, if_pos (by rfl)]
      exact h.write (.of key) value

theorem insertAll (h : profile.Tallies policy start ledger) (entries : List (K × V)) :
    (profile.insertAll entries).after.Tallies policy start
      (ledger.setAll policy (WordSource.word start) entries) := by
  induction entries generalizing profile ledger with
  | nil => exact h
  | cons entry entries ih => exact ih (h.insert entry.1 entry.2)

omit [Ord K] in
/-- A batch of changes does to the ledger what its changes do one after the other. -/
theorem changeEach {A B : Type} (h : profile.Tallies policy start ledger)
    {change : Profile K V R → A → Outcome (Profile K V R) B} {changed : Ledger K → A → Ledger K}
    (hchange : ∀ (profile : Profile K V R) (ledger : Ledger K) (item : A),
      profile.Tallies policy start ledger →
        (change profile item).after.Tallies policy start (changed ledger item))
    {counts : B → Bool} {batch : Batch} {events : List Event} (items : List A) :
    (Profile.changeEach change counts items
      { answer := batch, after := profile, events }).after.Tallies policy start
        (items.foldl changed ledger) := by
  induction items generalizing profile batch events ledger with
  | nil => exact h
  | cons item items ih => exact ih (hchange _ _ item h)

variable [Printable K] [Printable V] [BEq V]

/-- **One command keeps a profile in agreement with the ledger.** -/
theorem step (h : profile.Tallies policy start ledger) (command : Command K V) :
    (profile.step command).after.Tallies policy start
      (ledger.after policy (WordSource.word start) command) := by
  cases command with
  | insert key value => exact h.insert key value
  | insertAll entries => exact h.insertAll entries
  | replace target value => exact h.write target value
  | remove target => exact h.remove target
  | removeEntry target => exact h.erase target
  | clear => exact h.clear
  | insertEach entries =>
      exact h.changeEach (fun _ _ entry hmid => hmid.insert entry.1 entry.2) entries
  | removeEach targets => exact h.changeEach (fun _ _ target hmid => hmid.remove target) targets
  | _ => exact h

/-- A run keeps a profile in agreement with the ledger. -/
theorem run (h : profile.Tallies policy start ledger) (commands : List (Command K V)) :
    List.Forall₂ (fun outcome ledger => outcome.after.Tallies policy start ledger)
      (profile.run commands) (ledger.course policy (WordSource.word start) commands) := by
  induction commands generalizing profile ledger with
  | nil => exact .nil
  | cons command commands ih => exact .cons (h.step command) (ih (h.step command))

end Tallies

end Profile

/-! ### Lists -/

namespace SkipList

variable [WordSource R]

/-- **The list agrees with the ledger**: its nodes are the keys that are entered, each once and as
tall as it is entered, and its source is `start`, as many words further along as have been read. -/
structure Tallies [Ord K] (list : SkipList K V R) (start : R) (ledger : Ledger K) : Prop where
  /-- The entered heights are those of the towers. -/
  mem_iff : ∀ key height, (key, height) ∈ ledger.heights ↔
    ∃ id node, list.lanes.pool.get id = .ok node ∧ node.key = key ∧ node.height = height
  /-- No key is entered twice. -/
  distinct : ledger.heights.Pairwise fun a b => compare a.1 b.1 ≠ .eq
  size_eq : list.size = ledger.heights.length
  /-- As many levels are in use as the greatest entered height has. -/
  height_eq : list.height = ledger.height
  source_eq : list.source = WordSource.skip ledger.position start

variable [Ord K] {list : SkipList K V R} {profile : Profile K V R} {policy : HeightPolicy}
  {start : R} {ledger : Ledger K}

/-- A list agrees with the ledgers that the profile it shows agrees with. -/
theorem Shows.tallies [Std.TransOrd K] (h : list.Shows profile)
    (htallies : profile.Tallies policy start ledger) : list.Tallies start ledger := by
  obtain ⟨sites, vacant, hrow, rfl⟩ := h
  have hperm : (sites.map fun site => site.stature).Perm ledger.heights := by
    have hperm := htallies.perm
    rwa [profileOf, List.map_map] at hperm
  exact
    { mem_iff := fun key height => by
        rw [← hperm.mem_iff, List.mem_map]
        constructor
        · rintro ⟨site, hsite, hstature⟩
          obtain ⟨node, hnode, hkey, _, hsize⟩ := hrow.lanes.houses.exists_node hsite
          obtain ⟨rfl, rfl⟩ := Prod.mk.inj hstature
          exact ⟨site.id, node, Pool.get_eq_ok_iff.2 hnode, hkey, hsize⟩
        · rintro ⟨id, node, hnode, rfl, rfl⟩
          obtain ⟨site, hsite, _, hkey, hheight⟩ := hrow.exists_site hnode
          exact ⟨site, hsite, by rw [hkey, hheight]; rfl⟩
      distinct := by
        refine hperm.pairwise ?_ fun {a b} hne heq => hne (Std.OrientedCmp.eq_symm heq)
        rw [List.pairwise_map]
        refine hrow.sorted.imp fun {a b} hlt => ?_
        exact fun heq => by simp [Column.stature, hlt] at heq
      size_eq := by rw [hrow.size_eq, ← hperm.length_eq, List.length_map]
      height_eq := by rw [← htallies.height_eq, height_profileOf, hrow.height_eq]
      source_eq := htallies.source_eq }

variable [Std.TransOrd K] [Printable K] [Printable V] [BEq V]

/-- **The list follows the ledger through the commands.**  It agrees with the ledger; each command
is answered, and the list after it agrees with the ledger after it. -/
structure FollowsLedger (list : SkipList K V R) (start : R) (ledger : Ledger K)
    (commands : List (Command K V)) : Prop where
  tallies : list.Tallies start ledger
  results : List.Forall₂ (Succeeds fun outcome ledger => outcome.after.Tallies start ledger)
    (list.run commands) (ledger.course list.policy (WordSource.word start) commands)

/-- **Every run follows the ledger**: a new key reads the words from the position on and is as tall
as they say, what else is done reads none, and as many levels are in use as the tallest key that is
left has. -/
theorem run_follows_ledger (policy : HeightPolicy) (hpolicy : policy.validate = .ok ())
    (source : R) (commands : List (Command K V))
    (hlawful : ∀ command ∈ commands, command.Lawful) (hfits : Dictionary.Fits commands) :
    (blank policy source : SkipList K V R).FollowsLedger source {} commands := by
  have hshows := shows_blank (K := K) (V := V) hpolicy source
  have htallies : ({ columns := [], policy, source } : Profile K V R).Tallies policy source {} :=
    ⟨.nil, rfl, rfl⟩
  refine ⟨hshows.tallies htallies, ?_⟩
  refine forall₂_comp ?_ (hshows.run hlawful (Profile.fits_run hfits)) (htallies.run commands)
  rintro result outcome ledger ⟨after, rfl, hafter⟩ hledger
  exact ⟨_, rfl, hafter.tallies hledger⟩

/-- The small run follows the ledger. -/
theorem smallRun_follows_ledger :
    (blank {} smallWords : SkipList Nat Nat CyclicWords).FollowsLedger smallWords {} smallRun :=
  run_follows_ledger {} HeightPolicy.validate_default smallWords smallRun smallRun_lawful
    smallRun_fits

/-- The fourth command of the small run sets a key again and draws nothing; the sixth takes out the
tallest key. -/
example : (Ledger.course {} (WordSource.word smallWords) {} smallRun).map
    (fun ledger => (ledger.height, ledger.position)) =
      [(3, 3), (3, 4), (3, 7), (3, 7), (3, 7), (2, 7), (2, 7), (2, 7), (2, 7), (2, 8)] := by
  decide +kernel

end SkipList

end IndexedSkipList
