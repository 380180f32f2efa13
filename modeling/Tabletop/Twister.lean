/-!
# Tabletop.Twister

The generator MT19937: 624 words of 32 bits, renewed all at once and
handed out one by one through a tempering of their bits.

* `ofSeed` spreads the 32-bit words of a seed's magnitude over the state.
* `next` is the next tempered word.
* `below` is a number below a bound, drawn again until it fits: of each word
  as many of the highest bits are taken as the bound has.
-/

namespace Tabletop

/-- Number of words in the state. -/
abbrev Twister.size : Nat := 624

/-- The state of the generator: its words and how many were handed out. -/
structure Twister where
  words : Vector UInt32 Twister.size
  used : Nat

namespace Twister

/-! ## Seeding -/

/-- A word from the one before it, as both kinds of seeding mix them. -/
def scramble (w : UInt32) : UInt32 := w ^^^ (w >>> 30)

/-- The words that a single number sets up. -/
def ofNumber (seed : UInt32) : Vector UInt32 size :=
  ((List.range size).foldl
    (fun (ws, last) i =>
      let w := if i = 0 then seed else 1812433253 * scramble last + UInt32.ofNat i
      (ws.setIfInBounds i w, w))
    (Vector.replicate size 0, 0)).1

/-- The words while a key is spread over them, and the place to change next. -/
structure Spreading where
  words : Vector UInt32 size
  place : Nat

/-- Changes the word in the current place, given the word before it and the
word itself, and moves on; after the last place the first word is set to the
last and the second place is next. -/
def Spreading.step (s : Spreading) (change : UInt32 → UInt32 → UInt32) : Spreading :=
  let w := change (s.words.getD (s.place - 1) 0) (s.words.getD s.place 0)
  let words := s.words.setIfInBounds s.place w
  if s.place + 1 < size then ⟨words, s.place + 1⟩ else ⟨words.setIfInBounds 0 w, 1⟩

/-- The words that a key sets up. -/
def ofKey (key : List UInt32) : Vector UInt32 size :=
  let start : Spreading := ⟨ofNumber 19650218, 1⟩
  let rounds := List.range (max size key.length)
  let spread := rounds.foldl
    (fun s round =>
      let j := round % key.length
      s.step fun last w => (w ^^^ (scramble last * 1664525)) + key.getD j 0 + UInt32.ofNat j)
    start
  let mixed := (List.range (size - 1)).foldl
    (fun s _ => s.step fun last w => (w ^^^ (scramble last * 1566083941)) - UInt32.ofNat s.place)
    spread
  mixed.words.setIfInBounds 0 0x80000000

/-- The 32-bit words of a number, the lowest first; none for zero. -/
def wordsOf (n : Nat) : List UInt32 :=
  if _h : n = 0 then [] else UInt32.ofNat n :: wordsOf (n / Nat.pow 2 32)
termination_by n
decreasing_by exact Nat.div_lt_self (by omega) (by decide)

/-- The generator that a seed sets up.  The sign of the seed does not count. -/
def ofSeed (seed : Int) : Twister :=
  let key := if seed = 0 then [0] else wordsOf seed.natAbs
  ⟨ofKey key, size⟩

/-! ## Words -/

/-- A renewed word from itself, its successor and the word 397 places on. -/
def renewed (w successor ahead : UInt32) : UInt32 :=
  let y := (w &&& 0x80000000) ||| (successor &&& 0x7fffffff)
  ahead ^^^ (y >>> 1) ^^^ (if y &&& 1 = 0 then 0 else 0x9908b0df)

/-- All words renewed, in order, each from words renewed before it where its
sources lie behind it. -/
def renew (ws : Vector UInt32 size) : Vector UInt32 size :=
  (List.range size).foldl
    (fun ws i => ws.setIfInBounds i
      (renewed (ws.getD i 0) (ws.getD ((i + 1) % size) 0) (ws.getD ((i + 397) % size) 0)))
    ws

/-- The tempering of a word. -/
def temper (w : UInt32) : UInt32 :=
  let w := w ^^^ (w >>> 11)
  let w := w ^^^ ((w <<< 7) &&& 0x9d2c5680)
  let w := w ^^^ ((w <<< 15) &&& 0xefc60000)
  w ^^^ (w >>> 18)

/-- The next word, and the generator after it. -/
def next (t : Twister) : UInt32 × Twister :=
  let ready : Twister := if t.used < size then t else ⟨renew t.words, 0⟩
  (temper (ready.words.getD ready.used 0), { ready with used := ready.used + 1 })

/-! ## Numbers below a bound -/

/-- The number of binary digits of a positive number. -/
def bitLength (n : Nat) : Nat := Nat.log2 n + 1

/-- The highest bits of a word, as many as `bound` has. -/
def highBits (bound : Nat) (w : UInt32) : Nat := w.toNat >>> (32 - bitLength bound)

/-- A bound on the number of states.  A generator that hands out no fitting
word in so many draws has come back to a state it was in, and never will. -/
def states : Nat := Nat.pow 2 (32 * size) * (size + 1)

/-- Draws until a word fits below `bound`, at most `draws` times; zero if
none does. -/
def belowWithin (bound : Nat) : Nat → Twister → Nat × Twister
  | 0, t => (0, t)
  | draws + 1, t =>
    let (w, after) := t.next
    if highBits bound w < bound then (highBits bound w, after)
    else belowWithin bound draws after

/-- A number below `bound`, every one equally likely, and the generator after
the draw. -/
def below (bound : Nat) (t : Twister) : Nat × Twister := belowWithin bound states t

/-- A draw stays below a positive bound. -/
theorem belowWithin_lt {bound : Nat} (h : 0 < bound) (draws : Nat) (t : Twister) :
    (belowWithin bound draws t).1 < bound := by
  induction draws generalizing t with
  | zero => exact h
  | succ draws ih =>
    simp only [belowWithin]
    split
    · assumption
    · exact ih _

end Twister

end Tabletop
