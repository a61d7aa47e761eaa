/-!
# Endpoints

Where the backend is found, and the address of the command socket there.
-/

namespace RosterPanel

/-- The constant `WS_PATH`: the path of the command socket below the base address. -/
def socketPath : List Char := "/ws".toList

/-- Model of `ApiConfig`: the address of the backend, without slashes at its end. -/
structure Endpoint where
  base : List Char
deriving DecidableEq, Repr

namespace Endpoint

/-- Model of `strip_prefix`: the characters of a text that follow a given start. -/
def after? (start : List Char) (text : List Char) : Option (List Char) :=
  if start.isPrefixOf text then some (text.drop start.length) else none

/-- Model of `trim_end_matches` for `/`: a text without the slashes at its end. -/
def trimSlashes (text : List Char) : List Char := (text.reverse.dropWhile (· == '/')).reverse

/-- Model of `from_url`. -/
def ofUrl (url : String) : Endpoint := ⟨trimSlashes url.toList⟩

/-- Model of `base_url`. -/
def baseUrl (e : Endpoint) : String := String.ofList e.base

/-- The address with the scheme `https` in front turned into `wss`, or `http` into `ws`. -/
def socketBase (e : Endpoint) : List Char :=
  match after? "https://".toList e.base with
  | some rest => "wss://".toList ++ rest
  | none =>
    match after? "http://".toList e.base with
    | some rest => "ws://".toList ++ rest
    | none => e.base

/-- Model of `ws_url`: the address of the command socket. -/
def socketUrl (e : Endpoint) : String := String.ofList (e.socketBase ++ socketPath)

/-- The address of the command socket on the page's own host, as `get_ws_url` falls back to it. -/
def sameOrigin (host protocol : String) : String :=
  (if protocol = "https:" then "wss" else "ws") ++ "://" ++ host ++ String.ofList socketPath

/-- What is said when no address was given at build time. -/
def unsetMessage : String := "API_BASE_URL environment variable is not set"

end Endpoint

end RosterPanel
