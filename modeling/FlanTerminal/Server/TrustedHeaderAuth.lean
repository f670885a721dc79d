import FlanTerminal.Foundation.JsMap
import FlanTerminal.Shared.SafeString

/-!
# Identities from a trusted header

A reverse proxy names the user in a header.  The provider believes the header
when the peer and every proxy on the way are trusted, the request was for the
public origin, and the header came exactly once, in every view of the request
that is there.

Every exception becomes the same error, so a refusal is `none`.  The libraries
for addresses, proxies and URLs are parameters.
-/

namespace FlanTerminal
namespace Server
namespace TrustedHeaderAuth

open Foundation
open Shared

def MAX_HEADER_FIELDS : Nat := 128
def MAX_HEADER_NAME_BYTES : Nat := 256
def MAX_PRESERVED_HEADER_BYTES : Nat := 64 * 1024
def MAX_RAW_HEADER_ITEMS : Nat := MAX_HEADER_FIELDS * 2
def MAX_DISTINCT_HEADER_VALUES : Nat := 256
def MAX_FORWARDED_FOR_BYTES : Nat := 4096
def MAX_FORWARDED_HOPS : Nat := 16
def MAX_ADDRESS_BYTES : Nat := 128
def MAX_IDENTITY_BYTES : Nat := 128
def MAX_TRUST_RANGES : Nat := 64

/-!
## Values

Nothing is taken for granted about the shape of a request.  `none` is a value
that should be a string and is not.
-/

abbrev Item := Option JsString

inductive HeaderValue where
  | undefined
  | string (s : JsString)
  | array (items : List Item)
  | other
  deriving DecidableEq

/-- An object with its enumerable properties, or something else. -/
inductive View where
  | object (fields : JsMap JsString HeaderValue)
  | other
  deriving DecidableEq

inductive RawHeaders where
  | array (items : List Item)
  | other
  deriving DecidableEq

/-- `TrustedHeaderRequestView`.  The preserved views may be missing. -/
structure Request where
  remoteAddress : Item
  headers : View
  headersDistinct : Option View
  rawHeaders : Option RawHeaders
  deriving DecidableEq

inductive TrustProxy where
  | disabled
  | hops (n : Nat)
  | ranges (items : List Item)
  deriving DecidableEq

structure Options where
  trustProxy : TrustProxy
  identityHeader : Item
  publicOrigin : Item
  deriving DecidableEq

structure Url where
  protocol : JsString
  username : JsString
  password : JsString
  pathname : JsString
  search : JsString
  hash : JsString
  origin : JsString
  deriving DecidableEq

/-- A predicate of `proxy-addr`: is the address at this place trusted? -/
abbrev Trust := JsString -> Nat -> Bool

/-- The libraries; `none` is an exception. -/
structure Libraries where
  /-- `ipaddr.isValid`, and whether `parse` and `parseCIDR` return. -/
  isValid : JsString -> Bool
  parses : JsString -> Bool
  parsesCIDR : JsString -> Bool
  /-- `proxyaddr.compile`. -/
  compile : List JsString -> Option Trust
  /-- `proxyaddr.all` for this peer and this forwarded-for header. -/
  all : JsString -> JsString -> Option Trust -> List JsString
  /-- `new URL`. -/
  url : JsString -> Option Url
  nfc : JsString -> JsString

/-!
## Strings
-/

/-- `s.split(',')`. -/
def splitComma : JsString -> List JsString
  | [] => [[]]
  | u :: rest =>
      if u = 44 then [] :: splitComma rest
      else
        match splitComma rest with
        | [] => [[u]]
        | part :: parts => (u :: part) :: parts

/-- `parts.join(', ')`. -/
def joinComma : List JsString -> JsString
  | [] => []
  | [part] => part
  | part :: rest => part ++ 44 :: 32 :: joinComma rest

def isHeaderNameUnit (u : UInt16) : Bool :=
  (48 ≤ u.toNat && u.toNat ≤ 57) || (65 ≤ u.toNat && u.toNat ≤ 90) ||
    (97 ≤ u.toNat && u.toNat ≤ 122) ||
    [33, 35, 36, 37, 38, 39, 42, 43, 45, 46, 94, 95, 96, 124, 126].contains
      u.toNat

/-- `headerNamePattern`. -/
def isHeaderName (name : JsString) : Bool :=
  !name.isEmpty && name.all isHeaderNameUnit

/-- The characters that `requiredHost` refuses. -/
def isHostDelimiter (u : UInt16) : Bool :=
  isSpace u || [44, 64, 47, 63, 35, 92].contains u.toNat

/-- `unsafeIdentityPattern`. -/
def isUnsafe (c : Nat) : Bool :=
  isForbidden c || isFormatControl c

def check (b : Bool) : Option Unit :=
  if b then some () else none

/-!
## Checks
-/

def validateHeaderName (name : JsString) : Option Unit :=
  check (decide (utf8ByteLength name ≤ MAX_HEADER_NAME_BYTES) &&
    isHeaderName name)

def validateHeaderNames : List JsString -> Option Unit
  | [] => some ()
  | name :: rest => do
      validateHeaderName name
      validateHeaderNames rest

/-- `headerNames`: the names of the fields, with the fields. -/
def headerNames : View -> Option (JsMap JsString HeaderValue)
  | View.other => none
  | View.object fields => do
      check (decide (fields.length ≤ MAX_HEADER_FIELDS))
      validateHeaderNames fields.keys
      pure fields

def matchingHeaderValue (fields : JsMap JsString HeaderValue)
    (wanted : JsString) : Option HeaderValue :=
  match fields.keys.filter fun name => toLowerCase name = wanted with
  | [] => some HeaderValue.undefined
  | [name] => some ((fields.get name).getD HeaderValue.undefined)
  | _ => none

def optionalStringHeader (fields : JsMap JsString HeaderValue)
    (wanted : JsString) : Option (Option JsString) := do
  match ← matchingHeaderValue fields wanted with
  | HeaderValue.undefined => some none
  | HeaderValue.string value => some (some value)
  | _ => none

def oneHeaderValue : HeaderValue -> Option JsString
  | HeaderValue.string value => some value
  | HeaderValue.array [some value] => some value
  | _ => none

section Provider

variable (lib : Libraries)

def validateAddress : Item -> Option JsString
  | none => none
  | some value => do
      check (!value.isEmpty && !value.contains 37 &&
        decide (utf8ByteLength value ≤ MAX_ADDRESS_BYTES) && lib.isValid value)
      pure value

def validateAddresses : List JsString -> Option Unit
  | [] => some ()
  | address :: rest => do
      let _ ← validateAddress lib (some address)
      validateAddresses rest

def parseForwardedFor (value : JsString) : Option (List JsString) := do
  check (!value.isEmpty &&
    decide (utf8ByteLength value ≤ MAX_FORWARDED_FOR_BYTES))
  let addresses := (splitComma value).map trim
  check (!addresses.isEmpty &&
    decide (addresses.length ≤ MAX_FORWARDED_HOPS) &&
    addresses.all fun address => !address.isEmpty)
  validateAddresses lib addresses
  pure addresses

def forwardedChain : Option JsString -> Option (List JsString)
  | none => some []
  | some value => parseForwardedFor lib value

def validateProxyChain (remoteAddress : JsString)
    (forwardedFor : Option JsString) (trust : Trust) : Option Unit := do
  let chain ← forwardedChain lib forwardedFor
  let complete := lib.all remoteAddress (joinComma chain) none
  let accepted := lib.all remoteAddress (joinComma chain) (some trust)
  check (decide (complete.length = accepted.length))

def requiredForwardedProtocol : Option JsString -> Option JsString
  | none => none
  | some value => do
      check (decide (value = trim value) && !value.contains 44)
      let protocol := toLowerCase value
      check (decide (protocol = js "http" ∨ protocol = js "https"))
      pure protocol

def requiredHost : Option JsString -> Option JsString
  | none => none
  | some value => do
      check (!value.isEmpty && decide (value = trim value) &&
        decide (utf8ByteLength value ≤ 255) &&
        !value.any isHostDelimiter)
      pure value

def validateExternalOrigin (protocol host expectedOrigin : JsString) :
    Option Unit := do
  let parsed ← lib.url (protocol ++ js "://" ++ host)
  check (parsed.username.isEmpty && parsed.password.isEmpty &&
    decide (parsed.pathname = js "/") && parsed.search.isEmpty &&
    parsed.hash.isEmpty && decide (parsed.origin = expectedOrigin))

def normalizeIdentity (value : JsString) : Option JsString := do
  let normalized := lib.nfc value
  check (!normalized.isEmpty &&
    decide (utf8ByteLength normalized ≤ MAX_IDENTITY_BYTES) &&
    !(codePoints normalized).any isUnsafe)
  pure normalized

/-!
## The views of the identity header
-/

def scanValues : List Item -> Nat -> Option Nat
  | [], byteCount => some byteCount
  | none :: _, _ => none
  | some value :: rest, byteCount =>
      if MAX_PRESERVED_HEADER_BYTES < byteCount + utf8ByteLength value then none
      else scanValues rest (byteCount + utf8ByteLength value)

/-- The loop of `identityFromDistinct`. -/
def scanDistinct : JsMap JsString HeaderValue -> Nat -> Nat -> Option Unit
  | [], _, _ => some ()
  | (name, HeaderValue.array values) :: rest, valueCount, byteCount => do
      validateHeaderName name
      check (decide (valueCount + values.length ≤ MAX_DISTINCT_HEADER_VALUES))
      let byteCount ← scanValues values byteCount
      scanDistinct rest (valueCount + values.length) byteCount
  | _, _, _ => none

def identityFromDistinct (distinct : View) (wanted : JsString) :
    Option JsString :=
  match distinct with
  | View.other => none
  | View.object fields => do
      check (decide (fields.length ≤ MAX_HEADER_FIELDS))
      scanDistinct fields 0 0
      match fields.keys.filter fun name => toLowerCase name = wanted with
      | [name] =>
          match fields.get name with
          | some (HeaderValue.array [some value]) => some value
          | _ => none
      | _ => none

/-- The loop of `identityFromRaw`, with the values of the identity header. -/
def scanRaw (wanted : JsString) : List Item -> Nat -> List JsString ->
    Option (List JsString)
  | [], _, found => some found
  | some name :: some value :: rest, byteCount, found => do
      validateHeaderName name
      let bytes := byteCount + (utf8ByteLength name + utf8ByteLength value)
      check (decide (bytes ≤ MAX_PRESERVED_HEADER_BYTES))
      scanRaw wanted rest bytes
        (if toLowerCase name = wanted then found ++ [value] else found)
  | _, _, _ => none

def identityFromRaw (rawHeaders : RawHeaders) (wanted : JsString) :
    Option JsString :=
  match rawHeaders with
  | RawHeaders.other => none
  | RawHeaders.array items => do
      check (!items.isEmpty && decide (items.length ≤ MAX_RAW_HEADER_ITEMS) &&
        decide (items.length % 2 = 0))
      match ← scanRaw wanted items 0 [] with
      | [value] => some value
      | _ => none

/-- A view that is there has its value; a view that is missing has none. -/
def preservedValue {view : Type} (identity : view -> Option JsString) :
    Option view -> Option (List JsString)
  | none => some []
  | some preserved => (identity preserved).map fun value => [value]

def originalIdentityHeader (request : Request)
    (fields : JsMap JsString HeaderValue) (wanted : JsString) :
    Option JsString := do
  let merged ← matchingHeaderValue fields wanted
  let mergedValue ← oneHeaderValue merged
  check (!mergedValue.contains 44)
  let distinct ← preservedValue (fun view => identityFromDistinct view wanted)
    request.headersDistinct
  let raw ← preservedValue (fun view => identityFromRaw view wanted)
    request.rawHeaders
  let preserved := distinct ++ raw
  check (!preserved.isEmpty && preserved.all fun value => value = mergedValue)
  pure mergedValue

/-!
## The provider
-/

structure TrustedHeaderAuthProvider where
  trust : Trust
  identityHeader : JsString
  publicOrigin : JsString
  publicProtocol : JsString

def validateTrustRange : Item -> Option JsString
  | none => none
  | some value => do
      check (!value.isEmpty && !value.contains 37 &&
        decide (utf8ByteLength value ≤ MAX_ADDRESS_BYTES))
      check (if value.contains 47 then lib.parsesCIDR value
        else lib.parses value)
      pure value

def validatePublicOrigin : Item -> Option Url
  | none => none
  | some value => do
      let url ← lib.url value
      check (decide (url.protocol = js "http:" ∨ url.protocol = js "https:") &&
        decide (value = url.origin) && url.username.isEmpty &&
        url.password.isEmpty)
      pure url

def construct (options : Options) : Option TrustedHeaderAuthProvider :=
  match options.trustProxy with
  | TrustProxy.ranges items => do
      check (!items.isEmpty && decide (items.length ≤ MAX_TRUST_RANGES))
      let ranges ← items.mapM (validateTrustRange lib)
      let trust ← lib.compile ranges
      let identityHeader ← options.identityHeader
      check (decide (utf8ByteLength identityHeader ≤ MAX_HEADER_NAME_BYTES) &&
        isHeaderName identityHeader)
      let publicUrl ← validatePublicOrigin lib options.publicOrigin
      pure ⟨trust, toLowerCase identityHeader, publicUrl.origin,
        publicUrl.protocol.dropLast⟩
  | _ => none

def validateOrigin (provider : TrustedHeaderAuthProvider)
    (forwardedFor forwardedProto forwardedHost directHost : Option JsString) :
    Option Unit :=
  if forwardedFor.isSome || forwardedProto.isSome || forwardedHost.isSome then
    do
      let protocol ← requiredForwardedProtocol forwardedProto
      let host ← requiredHost forwardedHost
      validateExternalOrigin lib protocol host provider.publicOrigin
  else do
    let host ← requiredHost directHost
    validateExternalOrigin lib provider.publicProtocol host
      provider.publicOrigin

/-- The identity label; `none` is the error of an upstream provider. -/
def authenticate (provider : TrustedHeaderAuthProvider) (request : Request) :
    Option JsString := do
  let remoteAddress ← validateAddress lib request.remoteAddress
  check (provider.trust remoteAddress 0)
  let fields ← headerNames request.headers
  let forwardedFor ← optionalStringHeader fields (js "x-forwarded-for")
  validateProxyChain lib remoteAddress forwardedFor provider.trust
  let forwardedProto ← optionalStringHeader fields (js "x-forwarded-proto")
  let forwardedHost ← optionalStringHeader fields (js "x-forwarded-host")
  let directHost ← optionalStringHeader fields (js "host")
  validateOrigin lib provider forwardedFor forwardedProto forwardedHost
    directHost
  let rawIdentity ← originalIdentityHeader request fields
    provider.identityHeader
  normalizeIdentity lib rawIdentity

end Provider

end TrustedHeaderAuth
end Server
end FlanTerminal
