import SyncedBookmarks.Account.Basic
import SyncedBookmarks.Error
import SyncedBookmarks.Token

namespace SyncedBookmarks

/-! What is asked of the account system and of the token server. -/

inductive Question where
  /-- Who is signed in? -/
  | user
  /-- Has the account been verified? -/
  | verification (user : Account)
  | assertion (audience : String)
  | token (server assertion : String)
  | keys
  deriving DecidableEq, Repr

namespace Question

abbrev Answer : Question → Type
  | .user => Except IdentityError (Option Account)
  | .verification _ => Except IdentityError Unit
  | .assertion _ => Except IdentityError String
  | .token _ _ => Except TokenError TokenResponse
  | .keys => Except IdentityError (Option AccountKeys)

end Question

end SyncedBookmarks
