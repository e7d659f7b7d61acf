import NumberConcepts.Random.Source
/-!
# The Mersenne twister

The generator of period `2 ^ 19937 - 1` with a state of 624 words of 32 bits. A
seed of any size is taken apart into words, which are mixed into the state.
-/

namespace NumberConcepts

/-- The words of the state and how many of them have been given out. -/
structure MersenneTwister where
  words : Array UInt32
  position : Nat

namespace MersenneTwister

/-- The number of words. -/
def size : Nat := 624

/-- The distance of the words that are combined. -/
def shift : Nat := 397

/-- The word at a position. -/
def wordAt (words : Array UInt32) (position : Nat) : UInt32 := words.getD position 0

/-- A word with its high bits folded onto its low ones. -/
def folded (word : UInt32) : UInt32 := word ^^^ (word >>> 30)

/-- The words after a given last one. -/
def spread (last : UInt32) : Nat → Nat → List UInt32
  | _, 0 => []
  | position, count + 1 =>
    let next := 1812433253 * folded last + UInt32.ofNat position
    next :: spread next (position + 1) count

/-- The state of a single word. -/
def ofWord (word : UInt32) : Array UInt32 := (word :: spread word 1 (size - 1)).toArray

/-- The words of a natural number, the lowest first; one word for zero. -/
def wordsOf (n : Nat) : List UInt32 :=
  if _ : Nat.pow 2 32 ≤ n then UInt32.ofNat n :: wordsOf (n / Nat.pow 2 32)
  else [UInt32.ofNat n]
termination_by n
decreasing_by exact Nat.div_lt_self (Nat.lt_of_lt_of_le (by decide) ‹Nat.pow 2 32 ≤ n›) (by decide)

/-- A position after another, where the first follows the last and takes its word. -/
def advance (words : Array UInt32) (position : Nat) : Array UInt32 × Nat :=
  if position + 1 < size then (words, position + 1)
  else (words.setIfInBounds 0 (wordAt words (size - 1)), 1)

/-- A number of rounds in which the words of the key are mixed in. -/
def mixKey (key : Array UInt32) : Nat → Array UInt32 → Nat → Nat → Array UInt32 × Nat
  | 0, words, position, _ => (words, position)
  | rounds + 1, words, position, keyPosition =>
    let mixed := (wordAt words position ^^^ (folded (wordAt words (position - 1)) * 1664525)) +
      wordAt key keyPosition + UInt32.ofNat keyPosition
    let (words, position) := advance (words.setIfInBounds position mixed) position
    mixKey key rounds words position (if keyPosition + 1 < key.size then keyPosition + 1 else 0)

/-- A number of rounds in which the positions are mixed in. -/
def mixPositions : Nat → Array UInt32 → Nat → Array UInt32
  | 0, words, _ => words
  | rounds + 1, words, position =>
    let mixed := (wordAt words position ^^^ (folded (wordAt words (position - 1)) * 1566083941)) -
      UInt32.ofNat position
    let (words, position) := advance (words.setIfInBounds position mixed) position
    mixPositions rounds words position

/-- The generator of a key. -/
def ofKey (key : Array UInt32) : MersenneTwister :=
  let (words, position) := mixKey key (max size key.size) (ofWord 19650218) 1 0
  let mixed := mixPositions (size - 1) words position
  { words := mixed.setIfInBounds 0 0x80000000, position := size }

/-- The generator of a seed; its sign does not count. -/
def ofSeed (seed : Int) : MersenneTwister := ofKey (wordsOf seed.natAbs).toArray

/-- The word made of two neighbours. -/
def twist (high low far : UInt32) : UInt32 :=
  let joined := (high &&& 0x80000000) ||| (low &&& 0x7fffffff)
  far ^^^ (joined >>> 1) ^^^ (if joined &&& 1 = 0 then 0 else 0x9908b0df)

/-- The words after a whole round. -/
def nextWords (words : Array UInt32) : Array UInt32 :=
  (List.range size).foldl (fun words position =>
    words.setIfInBounds position
      (twist (wordAt words position) (wordAt words ((position + 1) % size))
        (wordAt words ((position + shift) % size)))) words

/-- A word with its bits spread, as it is given out. -/
def temper (word : UInt32) : UInt32 :=
  let first := word ^^^ (word >>> 11)
  let second := first ^^^ ((first <<< 7) &&& 0x9d2c5680)
  let third := second ^^^ ((second <<< 15) &&& 0xefc60000)
  third ^^^ (third >>> 18)

/-- The next word. -/
def next (generator : MersenneTwister) : UInt32 × MersenneTwister :=
  let ready := if generator.position < size then generator
    else { words := nextWords generator.words, position := 0 }
  (temper (wordAt ready.words ready.position), { ready with position := ready.position + 1 })

/-- The number of units of `2 ^ -53` in the next number of the unit interval. -/
def nextUnits (generator : MersenneTwister) : Nat × MersenneTwister :=
  let (high, generator) := generator.next
  let (low, generator) := generator.next
  ((high >>> 5).toNat * Nat.pow 2 26 + (low >>> 6).toNat, generator)

/-- A natural number of at most `count` bits, whole words first. -/
def nextBits (count : Nat) (generator : MersenneTwister) : Nat × MersenneTwister :=
  let (word, after) := generator.next
  if _wide : 32 < count then
    let (high, after) := nextBits (count - 32) after
    (word.toNat + Nat.pow 2 32 * high, after)
  else
    (word.toNat / Nat.pow 2 (32 - count), after)
termination_by count

/-- The first number below a bound among numbers with as many bits as the bound, of at most `tries`
numbers; none of them is below it with a probability of less than `2 ^ -tries`. -/
def firstBelow (bound : Nat) : Nat → MersenneTwister → Nat × MersenneTwister
  | 0, generator => (0, generator)
  | tries + 1, generator =>
    let (candidate, after) := nextBits (bound.log2 + 1) generator
    if candidate < bound then (candidate, after) else firstBelow bound tries after

/-- The position of the first partial sum of the weights that exceeds a number, and of the last
weight if none does. -/
def positionOf {α : Type} [Scalar α] (target : α) (partialSum : α) : List α → Nat
  | [] => 0
  | [_] => 0
  | weight :: rest =>
    let sum := partialSum + weight
    if Scalar.lt target sum then 0 else positionOf target sum rest + 1

instance {α : Type} [Scalar α] : RandomSource α MersenneTwister where
  unit generator :=
    let (units, after) := generator.nextUnits
    (Scalar.ofNat units / Scalar.ofNat (Nat.pow 2 53), after)
  below bound generator := firstBelow bound 1000 generator
  weighted weights generator :=
    let (units, after) := generator.nextUnits
    let target := Scalar.ofNat units / Scalar.ofNat (Nat.pow 2 53) * Scalar.sum weights
    (positionOf target Scalar.zero weights, after)

end MersenneTwister

end NumberConcepts
