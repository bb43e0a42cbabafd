import RootFinding.Random.Source

/-!
# A permuted congruential generator

The state is a word of 128 bits that is multiplied and incremented; each step gives out 64 bits of
it, folded and rotated. A seed of any size is spread over the state by mixing its words of 32 bits
into a pool of four. Integers are drawn by multiplication, with a redraw where that would be unfair,
from halves of 64 bits as long as the range fits them: the high half is kept for the next draw.
-/

namespace RootFinding

namespace SeedPool

/-- Words are taken modulo this. -/
def wordBase : Nat := 0x100000000

/-- The words of a seed, the least significant first; zero is one word. -/
def seedWords (seed : Nat) : List Nat :=
  if _inside : seed < wordBase then [seed]
  else (seed % wordBase) :: seedWords (seed / wordBase)
termination_by seed
decreasing_by
  have large : wordBase ≤ seed := Nat.not_lt.1 _inside
  exact Nat.div_lt_self (Nat.lt_of_lt_of_le (by decide) large) (by decide)

/-- A word xored with its upper half. -/
def folded (word : Nat) : Nat :=
  word ^^^ (word >>> 16)

/-- Hash a word under a key that changes with every use. -/
def hashed (key word : Nat) : Nat × Nat :=
  let next := key * 0x931E8875 % wordBase
  (next, folded ((word ^^^ key) * next % wordBase))

/-- Mix one word into another. -/
def mixed (x y : Nat) : Nat :=
  let plus := 0xCA01F9DD * x % wordBase
  let minus := 0x4973F715 * y % wordBase
  folded ((plus + wordBase - minus) % wordBase)

/-- The pool with its key. -/
structure State where
  key : Nat
  pool : Vector Nat 4

/-- Mix a hash of a word into one place of the pool. -/
def State.absorb (state : State) (word : Nat) (place : Fin 4) : State :=
  let (key, hash) := hashed state.key word
  { key, pool := state.pool.set place (mixed (state.pool.get place) hash) }

/-- Hash the first four words of the seed into the pool, zeros where there are fewer. -/
def filled (words : List Nat) : State :=
  Fin.foldl 4
    (fun state place =>
      let (key, hash) := hashed state.key ((words[place.val]?).getD 0)
      { key, pool := state.pool.set place hash })
    { key := 0x43B0D7E5, pool := Vector.replicate 4 0 }

/-- Mix every place of the pool into every other place. -/
def stirred (state : State) : State :=
  Fin.foldl 4
    (fun state source =>
      Fin.foldl 4
        (fun state place =>
          if source = place then state else state.absorb (state.pool.get source) place)
        state)
    state

/-- Mix one more word into every place. -/
def State.absorbEverywhere (state : State) (word : Nat) : State :=
  Fin.foldl 4 (fun state place => state.absorb word place) state

def ofSeed (seed : Nat) : Vector Nat 4 :=
  let words := seedWords seed
  ((words.drop 4).foldl State.absorbEverywhere (stirred (filled words))).pool

/-- The first `count` output words of a pool from the word numbered `index`. -/
def outputWords (pool : Vector Nat 4) : (count index key : Nat) → List Nat
  | 0, _, _ => []
  | count + 1, index, key =>
      let word := pool.get ⟨index % 4, Nat.mod_lt _ (by decide)⟩
      let next := key * 0x58F38DED % wordBase
      folded ((word ^^^ key) * next % wordBase) :: outputWords pool count (index + 1) next

/-- Pairs of words as words of twice the length, the low half first. -/
def paired : List Nat → List Nat
  | low :: high :: rest => (low + high * wordBase) :: paired rest
  | _ => []

/-- The four words of 64 bits that start a generator. -/
def startWords (seed : Nat) : List Nat :=
  paired (outputWords (ofSeed seed) 8 0 0x8B51F9DD)

end SeedPool

/-- A generator: its state, its increment, and half a word that is left over. -/
structure PermutedGenerator where
  state : Nat
  increment : Nat
  leftOver : Option Nat
  /-- So many words are drawn for one integer at most. -/
  draws : Nat
  deriving Repr, DecidableEq

namespace PermutedGenerator

/-- States are taken modulo this. -/
def stateBase : Nat := 1 <<< 128

/-- Two words of 64 bits as one, the high one first. -/
def joined (high low : Nat) : Nat :=
  (high <<< 64) + low

def stepped (generator : PermutedGenerator) : PermutedGenerator :=
  { generator with
    state :=
      (generator.state * 0x2360ED051FC65DA44385DF649FCCF645 + generator.increment) % stateBase }

/-- The generator of a seed that is not negative. -/
def ofSeed (seed : Nat) (draws : Nat := usualDraws) : PermutedGenerator :=
  let words := SeedPool.startWords seed
  let word (i : Nat) : Nat := words[i]?.getD 0
  let increment := (joined (word 2) (word 3) * 2 + 1) % stateBase
  let first := stepped { state := 0, increment, leftOver := none, draws }
  stepped { first with state := (first.state + joined (word 0) (word 1)) % stateBase }

/-- The generator of any seed; a negative one has none. -/
def ofSeed? (seed : Int) (draws : Nat := usualDraws) : Option PermutedGenerator :=
  if 0 ≤ seed then some (ofSeed seed.toNat draws) else none

/-- A word of 64 bits rotated to the right. -/
def rotatedRight (word amount : Nat) : Nat :=
  (word >>> amount) + ((word % (1 <<< amount)) <<< (64 - amount))

def nextWord (generator : PermutedGenerator) : Nat × PermutedGenerator :=
  let next := generator.stepped
  let high := next.state >>> 64
  let low := next.state % (1 <<< 64)
  (rotatedRight (high ^^^ low) (next.state >>> 122), next)

/-- The next 32 bits: what is left over, else the low half of a word whose high half is kept. -/
def nextHalf (generator : PermutedGenerator) : Nat × PermutedGenerator :=
  match generator.leftOver with
  | some half => (half, { generator with leftOver := none })
  | none =>
      let (word, next) := generator.nextWord
      (word % SeedPool.wordBase, { next with leftOver := some (word / SeedPool.wordBase) })

/-- The upper 53 bits of a word, as a fraction of one. -/
def uniform (generator : PermutedGenerator) : Float × PermutedGenerator :=
  let (word, next) := generator.nextWord
  ((word >>> 11).toUInt64.toFloat * Float.ofBits 0x3CA0000000000000, next)

/-- Where the fair draws of an integer come from: words below a base. -/
structure WordSource where
  base : Nat
  next : PermutedGenerator → Nat × PermutedGenerator

/-- The words that a range is drawn from: halves where they are wide enough. -/
def wordSource (range : Nat) : WordSource :=
  if range ≤ SeedPool.wordBase then { base := SeedPool.wordBase, next := nextHalf }
  else { base := 1 <<< 64, next := nextWord }

/-- Redraw while the low part of the product is below the threshold, the first draw counted. -/
def redrawn (words : WordSource) (range threshold : Nat) :
    (draws product : Nat) → PermutedGenerator → Option (Nat × PermutedGenerator)
  | 0, _, _ => none
  | draws + 1, product, generator =>
      if product % words.base < threshold then
        let (word, next) := words.next generator
        redrawn words range threshold draws (word * range) next
      else some (product / words.base, generator)

/-- An integer below a positive range; a range of one takes no draw. -/
def below (range : Nat) (generator : PermutedGenerator) : Option (Nat × PermutedGenerator) :=
  if range = 0 then none
  else if range = 1 then some (0, generator)
  else
    let words := wordSource range
    let (word, next) := words.next generator
    redrawn words range ((words.base - range) % range) generator.draws (word * range) next

/-- Integers of 64 bits lie below this and not below its negative. -/
def signedBound : Int := 0x8000000000000000

/-- An integer from `low` up to, but not including, `high`, if both fit 64 bits. -/
def between? (low high : Int) (generator : PermutedGenerator) :
    Option (Int × PermutedGenerator) :=
  if -signedBound ≤ low && high ≤ signedBound && low < high then
    (generator.below (high - low).toNat).map fun (offset, next) => (low + offset, next)
  else none

instance : RandomSource PermutedGenerator Float where
  uniform generator := some generator.uniform
  integer low high generator :=
    (generator.below (high - low)).map fun (offset, next) => (low + offset, next)

end PermutedGenerator

end RootFinding
