import SyncedBookmarks.Account.File
import SyncedBookmarks.Http
import SyncedBookmarks.Identity.Conversation

namespace SyncedBookmarks

/-! The account of a file, and a token server that cannot be reached. -/

structure LocalAccount where
  provider : AccountProvider
  clock : Int

namespace LocalAccount

def tokenRequest (server assertion : String) : HttpRequest where
  method := "GET"
  url := server
  headers := [("Authorization", s!"BrowserID {assertion}"), ("Accept", "application/json")]

def fetchToken (server assertion : String) : Except TokenError TokenResponse :=
  .error (.network (tokenRequest server assertion).refusal)

def answer (provider : AccountProvider) : (question : Question) → question.Answer
  | .user => .ok provider.user
  | .verification user => AccountProvider.verify user
  | .assertion _ => provider.assertion
  | .token server assertion => fetchToken server assertion
  | .keys => .ok provider.keys

def respondent : Respondent LocalAccount where
  reply question account := ({ answer := some (answer account.provider question) }, account)
  now := clock

end LocalAccount

end SyncedBookmarks
