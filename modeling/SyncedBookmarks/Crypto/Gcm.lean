import SyncedBookmarks.Crypto.Aes

namespace SyncedBookmarks

/-! Authenticated encryption in Galois/counter mode over a block cipher (SP 800-38D), with a
12-byte initialization vector and no additional data. -/

namespace Gcm

def field : Nat := 0xe1 <<< 120

/-- Division by the field's generator, in the reflected representation. -/
def halve (element : Nat) : Nat :=
  if element % 2 = 0 then element >>> 1 else (element >>> 1) ^^^ field

/-- The product of two 128-bit field elements. -/
def multiply (a b : Nat) : Nat :=
  ((List.range 128).foldl
    (fun (sum, power) i => (if a.testBit (127 - i) then sum ^^^ power else sum, halve power))
    (0, b)).1

def blocks : Nat → Bytes → List Bytes
  | 0, _ => []
  | count + 1, bytes => bytes.take 16 :: blocks count (bytes.drop 16)

/-- The bytes in 16-byte blocks, the last one filled up with zeros. -/
def blockValues (bytes : Bytes) : List Nat :=
  (blocks ((bytes.length + 15) / 16) bytes).map fun block =>
    Bytes.toNat (block ++ List.replicate (16 - block.length) 0)

def hash (subkey : Nat) (values : List Nat) : Nat :=
  values.foldl (fun sum value => multiply (sum ^^^ value) subkey) 0

/-- Block number `counter` for this initialization vector. -/
def counterBlock (iv : Bytes) (counter : Nat) : Bytes :=
  iv ++ Bytes.ofNat 4 counter

/-- Key stream of at least `length` bytes; block 1 is kept for the tag. -/
def keyStream (cipher : Bytes → Bytes) (iv : Bytes) (length : Nat) : Bytes :=
  (List.range ((length + 15) / 16)).flatMap fun i => cipher (counterBlock iv (i + 2))

/-- Enciphers and deciphers: adding the key stream twice gives the text back. -/
def crypt (cipher : Bytes → Bytes) (iv text : Bytes) : Bytes :=
  Bytes.xor text (keyStream cipher iv text.length)

/-- The authentication tag of a ciphertext. -/
def tag (cipher : Bytes → Bytes) (iv ciphertext : Bytes) : Bytes :=
  let subkey := Bytes.toNat (cipher (List.replicate 16 0))
  let sum := hash subkey (blockValues ciphertext ++ [8 * ciphertext.length])
  Bytes.xor (Bytes.ofNat 16 sum) (cipher (counterBlock iv 1))

def encrypt (cipher : Bytes → Bytes) (iv plaintext : Bytes) : Bytes × Bytes :=
  let ciphertext := crypt cipher iv plaintext
  (ciphertext, tag cipher iv ciphertext)

def decrypt? (cipher : Bytes → Bytes) (iv ciphertext expected : Bytes) : Option Bytes :=
  if tag cipher iv ciphertext = expected then some (crypt cipher iv ciphertext) else none

end Gcm

end SyncedBookmarks
