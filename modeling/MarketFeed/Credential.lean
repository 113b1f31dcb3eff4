import MarketFeed.FeedFailure

/-!
# Credential — tokens for the user feed

A source of tokens is asked anew for each request, with the address that the request goes
to. An application's own source is any function from addresses to tokens or failures; a
fixed token is the same for every address, and an empty one is a failure. A fixed token is
shown as redacted, so that it does not get into a log.

What is done with a token, and what becomes of a request without one, is in
`Client.Session`.
-/

namespace MarketFeed

/-- Where tokens come from. -/
inductive Credential where
  /-- The same token for every request. -/
  | fixed (token : String)
  /-- A token made for the address. -/
  | issued (issue : String → Except FeedFailure String)

namespace Credential

def token : Credential → String → Except FeedFailure String
  | fixed t, _ => if t = "" then .error (.credential "no token configured") else .ok t
  | issued issue, url => issue url

/-- How a fixed token is shown. -/
def redacted : String := "StaticCredential \x7b token: \"<redacted>\" \x7d"

end Credential

end MarketFeed
