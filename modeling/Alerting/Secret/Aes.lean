/-!
# The AES block cipher

The cipher of FIPS 197 with keys of 256 bits.  A block is a list of sixteen bytes, column after
column; the substitution of bytes is computed from inverses in the field of 256 elements.
-/

namespace Alerting.Secret.Aes

/-! ## Bytes as field elements -/

def double (b : UInt8) : UInt8 :=
  (b <<< 1) ^^^ (if b < 128 then 0 else 0x1b)

/-- The product of two field elements, taken over so many bits of the first. -/
def mulBits : Nat → UInt8 → UInt8 → UInt8
  | 0, _, _ => 0
  | bits + 1, a, b => (if a % 2 = 1 then b else 0) ^^^ mulBits bits (a / 2) (double b)

def mul (a b : UInt8) : UInt8 :=
  mulBits 8 a b

def pow (b : UInt8) : Nat → UInt8
  | 0 => 1
  | n + 1 => mul b (pow b n)

def rotate (b : UInt8) (n : UInt8) : UInt8 :=
  (b <<< n) ||| (b >>> (8 - n))

/-- The substitute of a byte: an affine image of its inverse, where zero counts as its own inverse.
-/
def substitute (b : UInt8) : UInt8 :=
  let i := pow b 254
  i ^^^ rotate i 1 ^^^ rotate i 2 ^^^ rotate i 3 ^^^ rotate i 4 ^^^ 0x63

def substitutes : Array UInt8 :=
  (Array.range 256).map fun n => substitute (.ofNat n)

def sub (b : UInt8) : UInt8 :=
  substitutes.getD b.toNat 0

/-! ## Rounds -/

def add (a b : List UInt8) : List UInt8 :=
  List.zipWith (· ^^^ ·) a b

def shiftRows (block : List UInt8) : List UInt8 :=
  (List.range 16).map fun i => block.getD ((i + 4 * (i % 4)) % 16) 0

def mixColumns : List UInt8 → List UInt8
  | a :: b :: c :: d :: rest =>
    (double a ^^^ (double b ^^^ b) ^^^ c ^^^ d) :: (a ^^^ double b ^^^ (double c ^^^ c) ^^^ d)
      :: (a ^^^ b ^^^ double c ^^^ (double d ^^^ d)) :: ((double a ^^^ a) ^^^ b ^^^ c ^^^ double d)
      :: mixColumns rest
  | _ => []

def round (block key : List UInt8) : List UInt8 :=
  add (mixColumns (shiftRows (block.map sub))) key

def lastRound (block key : List UInt8) : List UInt8 :=
  add (shiftRows (block.map sub)) key

/-! ## Keys -/

def addConstant (constant : UInt8) : List UInt8 → List UInt8
  | [] => []
  | b :: rest => (b ^^^ constant) :: rest

/-- Extends the words of a key, which are given in reverse order, by so many words; the constant is
that of the next group of eight words. -/
def extend : Nat → UInt8 → List (List UInt8) → List (List UInt8)
  | 0, _, words => words
  | more + 1, constant, words =>
    let before := words.headD []
    let position := words.length % 8
    let changed :=
      if position = 0 then addConstant constant ((before.drop 1 ++ before.take 1).map sub)
      else if position = 4 then before.map sub
      else before
    extend more (if position = 0 then double constant else constant)
      (add (words.getD 7 []) changed :: words)

/-- Cuts a list into pieces of this length; the second argument bounds their number. -/
def pieces {α : Type} (length : Nat) : Nat → List α → List (List α)
  | 0, _ => []
  | count + 1, l => l.take length :: pieces length count (l.drop length)

def roundKeys (key : List UInt8) : List (List UInt8) :=
  pieces 16 15 (extend 52 1 (pieces 4 8 key).reverse).reverse.flatten

/-! ## The cipher -/

def rounds : List (List UInt8) → List UInt8 → List UInt8
  | [], block => block
  | [key], block => lastRound block key
  | key :: keys, block => rounds keys (round block key)

def encipher (keys : List (List UInt8)) (block : List UInt8) : List UInt8 :=
  match keys with
  | [] => block
  | first :: rest => rounds rest (add block first)

end Alerting.Secret.Aes
