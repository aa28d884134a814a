import Mathlib.Algebra.Group.Nat.Defs
import Mathlib.Data.List.Basic

/-! SHA-256 over byte lists, with the 32-bit words as numbers below `2 ^ 32`. The recursions are
structural and the chaining state is forced after each block, so that closed digests evaluate. -/
namespace Sha256

def wordModulus : Nat := 4294967296

def rotateRight (word count : Nat) : Nat :=
  (word >>> count) ||| ((word <<< (32 - count)) % wordModulus)

def roundConstants : List Nat :=
  [0x428a2f98, 0x71374491, 0xb5c0fbcf, 0xe9b5dba5, 0x3956c25b, 0x59f111f1, 0x923f82a4, 0xab1c5ed5,
   0xd807aa98, 0x12835b01, 0x243185be, 0x550c7dc3, 0x72be5d74, 0x80deb1fe, 0x9bdc06a7, 0xc19bf174,
   0xe49b69c1, 0xefbe4786, 0x0fc19dc6, 0x240ca1cc, 0x2de92c6f, 0x4a7484aa, 0x5cb0a9dc, 0x76f988da,
   0x983e5152, 0xa831c66d, 0xb00327c8, 0xbf597fc7, 0xc6e00bf3, 0xd5a79147, 0x06ca6351, 0x14292967,
   0x27b70a85, 0x2e1b2138, 0x4d2c6dfc, 0x53380d13, 0x650a7354, 0x766a0abb, 0x81c2c92e, 0x92722c85,
   0xa2bfe8a1, 0xa81a664b, 0xc24b8b70, 0xc76c51a3, 0xd192e819, 0xd6990624, 0xf40e3585, 0x106aa070,
   0x19a4c116, 0x1e376c08, 0x2748774c, 0x34b0bcb5, 0x391c0cb3, 0x4ed8aa4a, 0x5b9cca4f, 0x682e6ff3,
   0x748f82ee, 0x78a5636f, 0x84c87814, 0x8cc70208, 0x90befffa, 0xa4506ceb, 0xbef9a3f7, 0xc67178f2]

structure State where
  a : Nat
  b : Nat
  c : Nat
  d : Nat
  e : Nat
  f : Nat
  g : Nat
  h : Nat

def initial : State :=
  ⟨0x6a09e667, 0xbb67ae85, 0x3c6ef372, 0xa54ff53a, 0x510e527f, 0x9b05688c, 0x1f83d9ab, 0x5be0cd19⟩

def round (s : State) (constant word : Nat) : State :=
  let sum1 := rotateRight s.e 6 ^^^ rotateRight s.e 11 ^^^ rotateRight s.e 25
  let choice := (s.e &&& s.f) ^^^ ((wordModulus - 1 - s.e) &&& s.g)
  let t1 := s.h + sum1 + choice + constant + word
  let sum0 := rotateRight s.a 2 ^^^ rotateRight s.a 13 ^^^ rotateRight s.a 22
  let majority := (s.a &&& s.b) ^^^ (s.a &&& s.c) ^^^ (s.b &&& s.c)
  ⟨(t1 + sum0 + majority) % wordModulus, s.a, s.b, s.c, (s.d + t1) % wordModulus, s.e, s.f, s.g⟩

/-- The window holds the next sixteen words of the message schedule. -/
def rounds : List Nat → List Nat → State → State
  | [], _, s => s
  | constant :: constants, w0 :: w1 :: w2 :: w3 :: w4 :: w5 :: w6 :: w7 :: w8 :: w9 :: w10 :: w11
      :: w12 :: w13 :: w14 :: w15 :: _, s =>
    let gamma0 := rotateRight w1 7 ^^^ rotateRight w1 18 ^^^ (w1 >>> 3)
    let gamma1 := rotateRight w14 17 ^^^ rotateRight w14 19 ^^^ (w14 >>> 10)
    rounds constants
      [w1, w2, w3, w4, w5, w6, w7, w8, w9, w10, w11, w12, w13, w14, w15,
        (w0 + gamma0 + w9 + gamma1) % wordModulus]
      (round s constant w0)
  | _, _, s => s

def force {α : Type} (n : Nat) (next : Nat → α) : α :=
  match n with
  | 0 => next 0
  | m + 1 => next (m + 1)

def addWord {α : Type} (x y : Nat) (next : Nat → α) : α := force ((x + y) % wordModulus) next

def chain {α : Type} (s t : State) (next : State → α) : α :=
  addWord s.a t.a fun a => addWord s.b t.b fun b => addWord s.c t.c fun c =>
  addWord s.d t.d fun d => addWord s.e t.e fun e => addWord s.f t.f fun f =>
  addWord s.g t.g fun g => addWord s.h t.h fun h => next ⟨a, b, c, d, e, f, g, h⟩

def blocks : Nat → List Nat → State → State
  | 0, _, s => s
  | n + 1, words, s =>
    chain s (rounds roundConstants (words.take 16) s) (blocks n (words.drop 16))

def wordsOf : List Nat → List Nat
  | b0 :: b1 :: b2 :: b3 :: rest =>
    (b0 * 16777216 + b1 * 65536 + b2 * 256 + b3) :: wordsOf rest
  | _ => []

/-- The message, a one bit, zeros, and the bit length as eight bytes. -/
def pad (bytes : List Nat) : List Nat :=
  bytes ++ 128 :: List.replicate ((119 - bytes.length % 64) % 64) 0
    ++ (List.range 8).map fun index => bytes.length * 8 / 256 ^ (7 - index) % 256

def bytesOfWord (word : Nat) : List Nat :=
  [word / 16777216, word / 65536 % 256, word / 256 % 256, word % 256]

def digestWords (bytes : List UInt8) : State :=
  let words := wordsOf (pad (bytes.map UInt8.toNat))
  blocks (words.length / 16) words initial

def digest (bytes : List UInt8) : Vector UInt8 32 :=
  let s := digestWords bytes
  let output := [s.a, s.b, s.c, s.d, s.e, s.f, s.g, s.h].flatMap bytesOfWord
  Vector.ofFn fun index => UInt8.ofNat (output.getD index.1 0)

/-! ## Evaluation

Closed digests are evaluated with every word forced as soon as it is computed. -/

@[simp] theorem force_eq {α : Type} (n : Nat) (next : Nat → α) : force n next = next n := by
  cases n <;> rfl

@[simp] theorem chain_eq {α : Type} (s t : State) (next : State → α) :
    chain s t next = next ⟨(s.a + t.a) % wordModulus, (s.b + t.b) % wordModulus,
      (s.c + t.c) % wordModulus, (s.d + t.d) % wordModulus, (s.e + t.e) % wordModulus,
      (s.f + t.f) % wordModulus, (s.g + t.g) % wordModulus, (s.h + t.h) % wordModulus⟩ := by
  simp [chain, addWord]

def forcedRounds {α : Type} : List Nat → (w0 w1 w2 w3 w4 w5 w6 w7 w8 w9 w10 w11 w12 w13 w14 w15
    a b c d e f g h : Nat) → (State → α) → α
  | [], _, _, _, _, _, _, _, _, _, _, _, _, _, _, _, _, a, b, c, d, e, f, g, h, next =>
    next ⟨a, b, c, d, e, f, g, h⟩
  | constant :: constants, w0, w1, w2, w3, w4, w5, w6, w7, w8, w9, w10, w11, w12, w13, w14, w15,
      a, b, c, d, e, f, g, h, next =>
    force ((w0
      + (((w1 >>> 7) ||| ((w1 <<< 25) % 4294967296))
        ^^^ ((w1 >>> 18) ||| ((w1 <<< 14) % 4294967296)) ^^^ (w1 >>> 3)) + w9
      + (((w14 >>> 17) ||| ((w14 <<< 15) % 4294967296))
        ^^^ ((w14 >>> 19) ||| ((w14 <<< 13) % 4294967296)) ^^^ (w14 >>> 10))) % 4294967296) fun w16 =>
    force (h
      + (((e >>> 6) ||| ((e <<< 26) % 4294967296)) ^^^ ((e >>> 11) ||| ((e <<< 21) % 4294967296))
        ^^^ ((e >>> 25) ||| ((e <<< 7) % 4294967296)))
      + ((e &&& f) ^^^ ((4294967295 - e) &&& g)) + constant + w0) fun t1 =>
    force ((t1
      + (((a >>> 2) ||| ((a <<< 30) % 4294967296)) ^^^ ((a >>> 13) ||| ((a <<< 19) % 4294967296))
        ^^^ ((a >>> 22) ||| ((a <<< 10) % 4294967296)))
      + ((a &&& b) ^^^ (a &&& c) ^^^ (b &&& c))) % 4294967296) fun a' =>
    force ((d + t1) % 4294967296) fun e' =>
    forcedRounds constants w1 w2 w3 w4 w5 w6 w7 w8 w9 w10 w11 w12 w13 w14 w15 w16
      a' a b c e' e f g next

theorem forcedRounds_eq {α : Type} (constants : List Nat) (w0 w1 w2 w3 w4 w5 w6 w7 w8 w9 w10 w11
    w12 w13 w14 w15 a b c d e f g h : Nat) (next : State → α) :
    forcedRounds constants w0 w1 w2 w3 w4 w5 w6 w7 w8 w9 w10 w11 w12 w13 w14 w15 a b c d e f g h
        next =
      next (rounds constants [w0, w1, w2, w3, w4, w5, w6, w7, w8, w9, w10, w11, w12, w13, w14, w15]
        ⟨a, b, c, d, e, f, g, h⟩) := by
  induction constants generalizing w0 w1 w2 w3 w4 w5 w6 w7 w8 w9 w10 w11 w12 w13 w14 w15
      a b c d e f g h with
  | nil => rfl
  | cons constant constants ih =>
    rw [forcedRounds, force_eq, force_eq, force_eq, force_eq, ih]
    rfl

def forcedBlocks : Nat → List Nat → State → State
  | n + 1, w0 :: w1 :: w2 :: w3 :: w4 :: w5 :: w6 :: w7 :: w8 :: w9 :: w10 :: w11
      :: w12 :: w13 :: w14 :: w15 :: words, s =>
    forcedRounds roundConstants w0 w1 w2 w3 w4 w5 w6 w7 w8 w9 w10 w11 w12 w13 w14 w15
      s.a s.b s.c s.d s.e s.f s.g s.h fun t => chain s t (forcedBlocks n words)
  | n, words, s => blocks n words s

theorem forcedBlocks_eq (n : Nat) (words : List Nat) (s : State) :
    forcedBlocks n words s = blocks n words s := by
  induction n generalizing words s with
  | zero => rw [forcedBlocks]; simp
  | succ n ih =>
    have hnext : forcedBlocks n = blocks n := by
      funext words s
      exact ih words s
    unfold forcedBlocks
    split
    · next heq =>
      obtain rfl := Nat.succ.inj heq
      rw [forcedRounds_eq, hnext]
      rfl
    · rfl

def forceAll {α : Type} : List Nat → (List Nat → α) → α
  | [], next => next []
  | word :: words, next => force word fun word => forceAll words fun words => next (word :: words)

theorem forceAll_eq {α : Type} (words : List Nat) (next : List Nat → α) :
    forceAll words next = next words := by
  induction words generalizing next with
  | nil => rfl
  | cons word words ih => rw [forceAll, force_eq, ih]

def evaluateWords (bytes : List UInt8) : State :=
  forceAll (wordsOf (pad (bytes.map UInt8.toNat))) fun words =>
    forcedBlocks (words.length / 16) words initial

theorem evaluateWords_eq (bytes : List UInt8) : evaluateWords bytes = digestWords bytes := by
  rw [evaluateWords, forceAll_eq, forcedBlocks_eq]
  rfl

end Sha256
