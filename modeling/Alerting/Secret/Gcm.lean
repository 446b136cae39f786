import Alerting.Secret.Aes
/-!
# Authenticated encryption

The mode of NIST SP 800-38D without associated data and with nonces of twelve bytes: a text is added
to the enciphered counter blocks, and a tag of sixteen bytes authenticates the result.
-/

namespace Alerting.Secret.Gcm

def nonceLength : Nat := 12

def tagLength : Nat := 16

/-! ## Blocks as field elements -/

def ofBytes (bytes : List UInt8) : Nat :=
  bytes.foldl (fun n b => 256 * n + b.toNat) 0

def toBytes : Nat → Nat → List UInt8
  | 0, _ => []
  | length + 1, n => toBytes length (n / 256) ++ [.ofNat (n % 256)]

/-- A block as a field element; a short one is filled up with zeros. -/
def blockElement (bytes : List UInt8) : Nat :=
  ofBytes (bytes ++ List.replicate (16 - bytes.length) 0)

/-- Multiplies a field element by `x`; the highest power is the lowest bit. -/
def double (v : Nat) : Nat :=
  (v / 2) ^^^ (if v % 2 = 1 then 0xe1 * Nat.pow 2 120 else 0)

def mulBits : Nat → Nat → Nat → Nat
  | 0, _, _ => 0
  | bits + 1, a, b => (if a.testBit bits then b else 0) ^^^ mulBits bits a (double b)

def mul (a b : Nat) : Nat :=
  mulBits 128 a b

def blocks (text : List UInt8) : List (List UInt8) :=
  Aes.pieces 16 ((text.length + 15) / 16) text

def hash (h : Nat) (text : List UInt8) : Nat :=
  let sum := (blocks text).foldl (fun y block => mul (y ^^^ blockElement block) h) 0
  mul (sum ^^^ (8 * text.length)) h

/-! ## Counters -/

def counterBlock (nonce : List UInt8) (n : Nat) : List UInt8 :=
  nonce ++ toBytes 4 n

/-- The enciphered counter blocks from the second one on, as many as cover so many bytes. -/
def keyStream (keys : List (List UInt8)) (nonce : List UInt8) (length : Nat) : List UInt8 :=
  (List.range ((length + 15) / 16)).flatMap fun i => Aes.encipher keys (counterBlock nonce (i + 2))

/-- Adds the key stream to a text; doing so twice gives the text back. -/
def mask (keys : List (List UInt8)) (nonce text : List UInt8) : List UInt8 :=
  Aes.add text (keyStream keys nonce text.length)

def tag (keys : List (List UInt8)) (nonce masked : List UInt8) : List UInt8 :=
  let h := ofBytes (Aes.encipher keys (List.replicate 16 0))
  Aes.add (toBytes 16 (hash h masked)) (Aes.encipher keys (counterBlock nonce 1))

/-! ## Locking and unlocking -/

def lock (key nonce text : List UInt8) : List UInt8 :=
  let keys := Aes.roundKeys key
  let masked := mask keys nonce text
  masked ++ tag keys nonce masked

/-- The text in what was locked, unless the tag does not belong to it. -/
def unlock? (key nonce locked : List UInt8) : Option (List UInt8) :=
  let keys := Aes.roundKeys key
  let masked := locked.take (locked.length - tagLength)
  if locked.drop (locked.length - tagLength) = tag keys nonce masked then
    some (mask keys nonce masked)
  else none

end Alerting.Secret.Gcm
