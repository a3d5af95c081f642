import SyncedBookmarks.Crypto.Sha256

namespace SyncedBookmarks

/-! HMAC-SHA256 (RFC 2104), and the key derivation HKDF built on it (RFC 5869). -/

namespace Hmac

def blockLength : Nat := 64

/-- The key as one block: hashed when longer, filled up with zeros when shorter. -/
def blockKey (key : Bytes) : Bytes :=
  let key := if key.length > blockLength then Sha256.hash key else key
  key ++ List.replicate (blockLength - key.length) 0

def sign (key message : Bytes) : Bytes :=
  let key := blockKey key
  Sha256.hash (key.map (· ^^^ 0x5c) ++ Sha256.hash (key.map (· ^^^ 0x36) ++ message))

@[simp] theorem length_sign (key message : Bytes) : (sign key message).length = 32 := by
  simp [sign]

end Hmac

namespace Hkdf

def extract (salt secret : Bytes) : Bytes :=
  Hmac.sign salt secret

/-- The blocks of output number `first`, `first + 1`, … -/
def blocks (key info : Bytes) (last : Bytes) (first : Nat) : Nat → Bytes
  | 0 => []
  | count + 1 =>
      let block := Hmac.sign key (last ++ info ++ [UInt8.ofNat first])
      block ++ blocks key info block (first + 1) count

def expand (key info : Bytes) (length : Nat) : Bytes :=
  (blocks key info [] 1 ((length + 31) / 32)).take length

theorem length_blocks (key info last : Bytes) (first count : Nat) :
    (blocks key info last first count).length = 32 * count := by
  induction count generalizing last first with
  | zero => rfl
  | succ count ih => simp [blocks, ih]; omega

@[simp] theorem length_expand (key info : Bytes) (length : Nat) :
    (expand key info length).length = length := by
  simp [expand, length_blocks]; omega

end Hkdf

end SyncedBookmarks
