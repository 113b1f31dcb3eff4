import MarketFeed.Backoff
import MarketFeed.Decode.Scalar
import MarketFeed.Relay.Ring
import MarketFeed.Wire.Channel

/-!
# Settings — the feeds' addresses and limits, from named variables

Every variable may be unset and then has its usual value. Blanks around a value do not
count, except that an invalid value is shown as it was given. The variables are read in a
fixed order, and the first invalid one is the error; its message names the variable
(`SettingsFailure`).

Variables are a function from names to values (`Variables`), so that settings can be read
from anywhere. An address is taken as it is, without the slashes behind it, but it must
not be empty; numbers are whole and below `2 ^ 64`. Words are compared in lower case. The
greatest delay of reopening is raised to the initial one where it is less, and the
variables for delays and for the log's queue are looked at only where reopening and the
log are asked for.
-/

namespace MarketFeed

open Text

/-- Why settings are invalid. -/
inductive SettingsFailure where
  | invalidValue (name value : String)
  | empty (name : String)
deriving DecidableEq, Repr

def SettingsFailure.message : SettingsFailure → String
  | .invalidValue name value => "invalid " ++ name ++ " value: " ++ value
  | .empty name => name ++ " must not be empty"

/-- Where the raw traffic is written, and the size of the queue before it. -/
structure LogTarget where
  path : String
  capacity : Nat
deriving DecidableEq, Repr

/-- The settings of a client; the time to wait for a close is in milliseconds. -/
structure Settings where
  marketUrl : String
  userUrl : String
  closeTimeout : Nat
  reconnect : Backoff
  log : Option LogTarget
  relay : Relay.Sizing
deriving DecidableEq, Repr

namespace Settings

def usual : Settings where
  marketUrl := "wss://advanced-trade-ws.coinbase.com"
  userUrl := "wss://advanced-trade-ws-user.coinbase.com"
  closeTimeout := 2000
  reconnect := .manual
  log := none
  relay := .usual

instance : Inhabited Settings := ⟨usual⟩

def url (s : Settings) : Feed → String
  | .market => s.marketUrl
  | .user => s.userUrl

/-- The values of variables by name. -/
abbrev Variables := String → Option String

/-- A value without blanks around it, in lower case. -/
def word (value : String) : String := String.ofList (Decode.asciiLower (trim value.toList))

/-- An address, without blanks around it and slashes behind it. -/
def urlOf (value : String) : String :=
  String.ofList ((trim value.toList).reverse.dropWhile (· == '/')).reverse

def readUrl (vars : Variables) (name usual : String) : Except SettingsFailure String :=
  match vars name with
  | none => .ok usual
  | some value => if urlOf value = "" then .error (.empty name) else .ok (urlOf value)

def readNumber (vars : Variables) (name : String) (usual : Nat) : Except SettingsFailure Nat :=
  match vars name with
  | none => .ok usual
  | some value =>
    match nat? UInt64.size (trim value.toList) with
    | some n => .ok n
    | none => .error (.invalidValue name value)

/-- Reads the delays of reopening; the greatest is not below the initial one. -/
def readDelays (vars : Variables) : Except SettingsFailure Backoff := do
  let initial ← readNumber vars "FEED_RECONNECT_INITIAL_MS" Backoff.defaultInitial
  let greatest ← readNumber vars "FEED_RECONNECT_MAX_MS" Backoff.defaultGreatest
  .ok (.ofMilliseconds initial (max greatest initial))

/-- Reads whether a lost feed is reopened. -/
def readReconnect (vars : Variables) : Except SettingsFailure Backoff :=
  match vars "FEED_RECONNECT" with
  | none => .ok .manual
  | some value =>
    if word value ∈ ["manual", "off", "false", "0"] then .ok .manual
    else if word value ∈ ["auto", "on", "true", "1"] then readDelays vars
    else .error (.invalidValue "FEED_RECONNECT" value)

/-- Reads where the raw traffic goes; an empty path is none. -/
def readLog (vars : Variables) : Except SettingsFailure (Option LogTarget) := do
  let path := String.ofList (trim ((vars "FEED_DATA_LOG").getD "").toList)
  if path = "" then .ok none
  else
    let capacity ← readNumber vars "FEED_DATA_LOG_CAPACITY" Relay.Sizing.usualCapacity
    .ok (some ⟨path, capacity⟩)

/-- Reads what a full queue does. -/
def readBackpressure (vars : Variables) : Except SettingsFailure Relay.Backpressure :=
  match vars "FEED_RELAY_BACKPRESSURE" with
  | none => .ok .block
  | some value =>
    match Relay.Backpressure.ofName? (word value) with
    | some b => .ok b
    | none => .error (.invalidValue "FEED_RELAY_BACKPRESSURE" value)

def read (vars : Variables) : Except SettingsFailure Settings := do
  let marketUrl ← readUrl vars "FEED_MARKET_DATA_URL" usual.marketUrl
  let userUrl ← readUrl vars "FEED_USER_DATA_URL" usual.userUrl
  let closeTimeout ← readNumber vars "FEED_CLOSE_TIMEOUT_MS" usual.closeTimeout
  let reconnect ← readReconnect vars
  let log ← readLog vars
  let capacity ← readNumber vars "FEED_RELAY_CAPACITY" Relay.Sizing.usualCapacity
  let backpressure ← readBackpressure vars
  .ok { marketUrl, userUrl, closeTimeout, reconnect, log, relay := ⟨capacity, backpressure⟩ }

end Settings

end MarketFeed
