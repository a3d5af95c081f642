import SyncedBookmarks.Codec.Bytes

namespace SyncedBookmarks

/-! The AES block cipher with a 256-bit key (FIPS 197), enciphering only. -/

namespace Aes

/-- Multiplication by `x` in the field of 256 elements. -/
def double (byte : UInt8) : UInt8 :=
  (byte <<< 1) ^^^ (if byte &&& 0x80 = 0 then 0 else 0x1b)

def multiply (a b : UInt8) : UInt8 :=
  ((List.range 8).foldl
    (fun (sum, power) i =>
      (if (b >>> UInt8.ofNat i) &&& 1 = 0 then sum else sum ^^^ power, double power))
    ((0 : UInt8), a)).1

/-- The multiplicative inverse, as the 254th power; zero for zero. -/
def inverse (byte : UInt8) : UInt8 :=
  (List.range 253).foldl (fun power _ => multiply power byte) byte

def rotate (byte : UInt8) (count : UInt8) : UInt8 :=
  (byte <<< count) ||| (byte >>> (8 - count))

def substitute (byte : UInt8) : UInt8 :=
  let b := inverse byte
  b ^^^ rotate b 1 ^^^ rotate b 2 ^^^ rotate b 3 ^^^ rotate b 4 ^^^ 0x63

def substitutionTable : Array UInt8 :=
  ((List.range 256).map fun i => substitute (UInt8.ofNat i)).toArray

def substituted (byte : UInt8) : UInt8 :=
  substitutionTable.getD byte.toNat 0

/-- The four-byte words of the key schedule so far, latest first, extended by word number `i`. -/
def nextKeyWord (i : Nat) (constant : UInt8) (latest : List Bytes) : Bytes :=
  let last := latest.headD []
  let base := latest.getD 7 []
  let mixed :=
    if i % 8 = 0 then
      match (last.drop 1 ++ last.take 1).map substituted with
      | head :: tail => (head ^^^ constant) :: tail
      | [] => []
    else if i % 8 = 4 then last.map substituted
    else last
  Bytes.xor base mixed

def keyWords : Nat → Nat → UInt8 → List Bytes → List Bytes
  | 0, _, _, latest => latest.reverse
  | count + 1, i, constant, latest =>
      keyWords count (i + 1) (if i % 8 = 0 then double constant else constant)
        (nextKeyWord i constant latest :: latest)

def chunks (size : Nat) (count : Nat) (bytes : Bytes) : List Bytes :=
  (List.range count).map fun i => (bytes.drop (size * i)).take size

/-- The fifteen round keys of a 32-byte key. -/
def roundKeys (key : Bytes) : List Bytes :=
  chunks 16 15 (keyWords 52 8 1 (chunks 4 8 key).reverse).flatten

/-- Row `r` of the column-major state moves left by `r` columns. -/
def shiftRows (state : Bytes) : Bytes :=
  let state := state.toArray
  (List.range 16).map fun i => state.getD ((i + 4 * (i % 4)) % 16) 0

def mixColumns : Bytes → Bytes
  | a :: b :: c :: d :: rest =>
      let all := a ^^^ b ^^^ c ^^^ d
      (a ^^^ all ^^^ double (a ^^^ b)) :: (b ^^^ all ^^^ double (b ^^^ c)) ::
        (c ^^^ all ^^^ double (c ^^^ d)) :: (d ^^^ all ^^^ double (d ^^^ a)) :: mixColumns rest
  | rest => rest

def rounds (state : Bytes) : List Bytes → Bytes
  | [] => state
  | [key] => Bytes.xor (shiftRows (state.map substituted)) key
  | key :: keys => rounds (Bytes.xor (mixColumns (shiftRows (state.map substituted))) key) keys

/-- Enciphers one block of 16 bytes under the given round keys. -/
def encipher (keys : List Bytes) (block : Bytes) : Bytes :=
  match keys with
  | [] => block
  | key :: keys => rounds (Bytes.xor block key) keys

end Aes

end SyncedBookmarks
