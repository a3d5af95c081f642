namespace SyncedBookmarks

/-! The account that is signed in, and what is told about it. -/

structure Account where
  email : String
  uid : String := ""
  verified : Bool := true
  deriving DecidableEq, Repr

/-- The master secret of an account, in hexadecimal. -/
structure AccountKeys where
  email : String
  secret : String
  deriving DecidableEq, Repr

inductive AccountEvent where
  | verified
  | login
  | logout
  deriving DecidableEq, Repr

namespace AccountEvent

def name : AccountEvent → String
  | .verified => "Verified"
  | .login => "Login"
  | .logout => "Logout"

def all : List AccountEvent :=
  [.verified, .login, .logout]

def ofName? (name : String) : Option AccountEvent :=
  all.find? (·.name == name)

end AccountEvent

end SyncedBookmarks
