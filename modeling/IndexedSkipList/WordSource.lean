/-
**Sources of random words.**

A source hands out words of thirty-two bits one after the other and is changed by each.  What a
source will deliver is therefore a stream, indexed by the number of the draw; two sources of
different types that deliver the same stream cannot be told apart by who draws from them.

Three sources are given here: a list of words that is delivered over and over, a source that counts
the draws from another one, and the generator xoshiro256++.  The generator keeps four words of
sixty-four bits.  A draw adds, rotates and exclusive-ors them, all arithmetic being modulo `2 ^ 64`,
and delivers the upper half of the outcome.  One word of seed is stretched to four by the generator
splitmix64, which steps through the multiples of a constant and scrambles each.  It is there for
lists that are given no source; what is known of lists is known of all sources, and nothing of it
rests on this generator.

Main definitions:

* `WordSource` — the types whose values hand out words;
* `WordSource.skip`, `WordSource.word` — the source after some draws, and the words it delivers;
* `CyclicWords` — a list of words, delivered over and over;
* `Counted` — a source together with the number of words drawn from it;
* `Xoshiro256`, `Xoshiro256.ofSeed` — the generator, and the generator of a seed.

Main results:

* `WordSource.skip_add`, `WordSource.word_skip` — drawing is going along the stream;
* `Counted.skip_drawn`, `Counted.word_eq` — counting counts, and changes no word.
-/

set_option relaxedAutoImplicit false
set_option autoImplicit false

namespace IndexedSkipList

/-- A type whose values hand out words of thirty-two bits. -/
class WordSource (R : Type) where
  /-- The next word, and the source after it. -/
  next : R → UInt32 × R

namespace WordSource

variable {R : Type} [WordSource R]

/-- The source after `n` draws. -/
def skip : Nat → R → R
  | 0, source => source
  | n + 1, source => skip n (next source).2

/-- The word that draw number `n` delivers, counted from zero. -/
def word (source : R) (n : Nat) : UInt32 := (next (skip n source)).1

theorem skip_add (m n : Nat) (source : R) : skip (m + n) source = skip n (skip m source) := by
  induction m generalizing source with
  | zero => simp [skip]
  | succ m ih => rw [Nat.add_right_comm, skip, ih, skip]

theorem word_skip (m n : Nat) (source : R) : word (skip m source) n = word source (m + n) := by
  simp only [word, skip_add]

end WordSource

/-! ### A list of words, over and over -/

/-- A list of words and the number of words already delivered. -/
structure CyclicWords where
  words : Array UInt32
  position : Nat := 0
  deriving DecidableEq

/-- Draw number `n` delivers the word at `n` modulo the length of the list. -/
instance : WordSource CyclicWords where
  next source :=
    (source.words.getD (source.position % source.words.size) 0,
      { source with position := source.position + 1 })

/-! ### Counting the draws -/

/-- A source, and how many words have been drawn from it. -/
structure Counted (R : Type) where
  source : R
  drawn : Nat := 0
  deriving DecidableEq

namespace Counted

variable {R : Type} [WordSource R]

instance : WordSource (Counted R) where
  next counted :=
    let (word, source) := WordSource.next counted.source
    (word, { source, drawn := counted.drawn + 1 })

theorem next_eq (counted : Counted R) :
    WordSource.next counted =
      ((WordSource.next counted.source).1,
        { source := (WordSource.next counted.source).2, drawn := counted.drawn + 1 }) := rfl

theorem skip_eq (n : Nat) (counted : Counted R) :
    WordSource.skip n counted =
      { source := WordSource.skip n counted.source, drawn := counted.drawn + n } := by
  induction n generalizing counted with
  | zero => rfl
  | succ n ih =>
      rw [WordSource.skip, ih, next_eq, WordSource.skip]
      simp only [Counted.mk.injEq, true_and]
      omega

theorem skip_drawn (n : Nat) (counted : Counted R) :
    (WordSource.skip n counted).drawn = counted.drawn + n := by
  rw [skip_eq]

theorem word_eq (counted : Counted R) (n : Nat) :
    WordSource.word counted n = WordSource.word counted.source n := by
  simp only [WordSource.word, skip_eq, next_eq]

end Counted

/-! ### The generator -/

/-- The four words of the generator. -/
structure Xoshiro256 where
  s0 : UInt64
  s1 : UInt64
  s2 : UInt64
  s3 : UInt64
  deriving DecidableEq

namespace Xoshiro256

/-- The bits of `x` moved up by `n` places, those that fall out coming in below; `0 < n < 64`. -/
def rotate (x n : UInt64) : UInt64 := (x <<< n) ||| (x >>> (64 - n))

/-- The sixty-four bits of the next draw. -/
def output (g : Xoshiro256) : UInt64 := rotate (g.s0 + g.s3) 23 + g.s0

/-- The generator after the next draw. -/
def advance (g : Xoshiro256) : Xoshiro256 :=
  let s2 := g.s2 ^^^ g.s0
  let s3 := g.s3 ^^^ g.s1
  { s0 := g.s0 ^^^ s3
    s1 := g.s1 ^^^ s2
    s2 := s2 ^^^ (g.s1 <<< 17)
    s3 := rotate s3 45 }

/-- A draw delivers the upper half of the sixty-four bits. -/
instance : WordSource Xoshiro256 where
  next g := ((g.output >>> 32).toUInt32, g.advance)

/-- The step of splitmix64. -/
def seedStep : UInt64 := 0x9e3779b97f4a7c15

/-- The scrambling of splitmix64. -/
def scramble (z : UInt64) : UInt64 :=
  let z := (z ^^^ (z >>> 30)) * 0xbf58476d1ce4e5b9
  let z := (z ^^^ (z >>> 27)) * 0x94d049bb133111eb
  z ^^^ (z >>> 31)

/-- The generator of a seed. -/
def ofSeed (seed : UInt64) : Xoshiro256 where
  s0 := scramble (seed + seedStep)
  s1 := scramble (seed + 2 * seedStep)
  s2 := scramble (seed + 3 * seedStep)
  s3 := scramble (seed + 4 * seedStep)

end Xoshiro256

end IndexedSkipList
