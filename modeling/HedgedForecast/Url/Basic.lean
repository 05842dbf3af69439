import HedgedForecast.Url.Address
import HedgedForecast.Url.Percent

/-! # Web addresses

An address has a scheme and then either an authority with a path, or an opaque path. Web schemes
always have a host. Writing an address gives its normal form.
-/

namespace HedgedForecast

/-- Where an address points. -/
inductive Host where
  | domain (name : String)
  | ipv4 (address : Nat)
  | ipv6 (groups : List Nat)
  deriving DecidableEq, Repr

/-- The written form of a host. -/
def Host.text : Host → String
  | domain name => name
  | ipv4 address => Url.writeIPv4 address
  | ipv6 groups => "[" ++ Url.writeIPv6 groups ++ "]"

/-- The part of an address between `//` and the path. -/
structure Authority where
  user : String := ""
  password : Option String := none
  host : Option Host := none
  /-- The port number, unless it is the one that the scheme implies. -/
  portNumber : Option Nat := none
  deriving DecidableEq, Repr

/-- The written form of an authority. -/
def Authority.text (authority : Authority) : String :=
  let password := match authority.password with
    | some password => ":" ++ password
    | none => ""
  let user := authority.user ++ password
  let suffix := match authority.portNumber with
    | some number => s!":{number}"
    | none => ""
  (if user == "" then "" else user ++ "@") ++
    (authority.host.map Host.text).getD "" ++ suffix

/-- A web address in its parts, each already encoded. -/
structure Url where
  scheme : String
  authority : Option Authority
  path : String
  query : Option String
  fragment : Option String
  deriving DecidableEq, Repr

namespace Url

/-- Why a text is no address. -/
inductive Error where
  | relative
  | emptyHost
  | invalidPort
  | invalidIPv4
  | invalidIPv6
  | invalidDomain
  | invalidHostCharacter
  deriving DecidableEq, Repr

/-- The wording of an address error. -/
def Error.message : Error → String
  | relative => "relative URL without a base"
  | emptyHost => "empty host"
  | invalidPort => "invalid port number"
  | invalidIPv4 => "invalid IPv4 address"
  | invalidIPv6 => "invalid IPv6 address"
  | invalidDomain => "invalid international domain name"
  | invalidHostCharacter => "invalid domain character"

/-- The host, if there is one. -/
def host? (url : Url) : Option Host :=
  url.authority.bind Authority.host

/-- The port number, if it is written. -/
def portNumber? (url : Url) : Option Nat :=
  url.authority.bind Authority.portNumber

/-- The written form of an address. -/
def text (url : Url) : String :=
  let authority := match url.authority with
    | some authority => "//" ++ authority.text
    | none => if "//".toList.isPrefixOf url.path.toList then "/." else ""
  let query := match url.query with
    | some query => "?" ++ query
    | none => ""
  let fragment := match url.fragment with
    | some fragment => "#" ++ fragment
    | none => ""
  url.scheme ++ ":" ++ authority ++ url.path ++ query ++ fragment

/-- Adds form fields behind the query; a query that stays empty is left out. -/
def addFields (url : Url) (fields : List (String × String)) : Url :=
  let added := formQuery fields
  let query := match url.query with
    | none => added
    | some "" => added
    | some query => if added == "" then query else query ++ "&" ++ added
  { url with query := if query == "" then none else some query }

/-- The address without user name and password. -/
def withoutUser (url : Url) : Url :=
  { url with authority := url.authority.map fun authority =>
      { authority with user := "", password := none } }

end Url

end HedgedForecast
