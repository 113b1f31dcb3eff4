import MarketFeed.Decode.Failure
import MarketFeed.Relay.Parcel
import MarketFeed.Settings

/-!
# FeedFailure — what can go wrong in a client

Failures of a transport and unreadable messages become events; these are the failures as
such, with their wording. `message` is the text that a log or an application is shown. Its
beginning says what kind of failure it is, and the rest is the wording of its cause, which
for a message is that of the decoder, for the queue that of the refusal.

A record of the queue that is no callback is a failure of its own (`ofParcel`). It never
gets to the application: the processor counts it and passes it over.
-/

namespace MarketFeed

/-- What went wrong. -/
inductive FeedFailure where
  | malformed (failure : Decode.Failure)
  | badRecord (reason : String)
  | relay (refusal : Relay.Refusal)
  | credential (reason : String)
  /-- A file could not be used. -/
  | io (reason : String)
  | settings (failure : SettingsFailure)
  | runtime (reason : String)
deriving DecidableEq, Repr

def FeedFailure.message : FeedFailure → String
  | .malformed failure => "malformed message: " ++ failure.message
  | .badRecord reason => "malformed relay record: " ++ reason
  | .relay refusal => "relay queue error: " ++ refusal.message
  | .credential reason => "credential error: " ++ reason
  | .io reason => "I/O error: " ++ reason
  | .settings failure => "configuration error: " ++ failure.message
  | .runtime reason => "transport runtime error: " ++ reason

/-- A record that is no callback. -/
def FeedFailure.ofParcel (failure : Relay.ParcelFailure) : FeedFailure := .badRecord failure.message

end MarketFeed
