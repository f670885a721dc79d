import Mathlib.Algebra.Order.Ring.Rat
import FlanTerminal.Foundation.JsMap
import FlanTerminal.Foundation.JsString
import FlanTerminal.Foundation.TokenBucket

/-!
# The login rate limiter

A login takes a token from a bucket that all share and one from the bucket of
its address.  Buckets of addresses are kept for the addresses used last.

Arithmetic is exact.  A finite number is a rational; a reading of the clock that
is not finite is `none`.  Addresses are read by a library, which is a parameter
here.
-/

namespace FlanTerminal
namespace Server
namespace RateLimiter

open Foundation
open TokenBucket (Level Bounded Account refill spend)

structure BucketConfig where
  capacity : ℚ
  refillPerSecond : ℚ

structure LoginRateLimiterOptions where
  global : BucketConfig
  address : BucketConfig
  maxAddresses : Int

structure Bucket where
  tokens : ℚ
  updatedAt : ℚ
  usedAt : Nat

structure State where
  addresses : JsMap JsString Bucket
  global : Bucket
  lastNow : ℚ
  sequence : Nat

def validateBucket (value : BucketConfig) : Bool :=
  decide (0 < value.capacity) && decide (0 ≤ value.refillPerSecond)

def validOptions (options : LoginRateLimiterOptions) : Bool :=
  validateBucket options.global && validateBucket options.address &&
    decide (1 ≤ options.maxAddresses ∧ options.maxAddresses ≤ 1024)

/-- `#now`, the largest finite reading so far. -/
def clamped (lastNow : ℚ) : Option ℚ -> ℚ
  | none => lastNow
  | some value => max lastNow value

/-- The constructor, with what the clock reads; `none` is the exception. -/
def create (options : LoginRateLimiterOptions) (reading : Option ℚ) :
    Option State :=
  if validOptions options then
    some {
      addresses := []
      global := ⟨options.global.capacity, clamped 0 reading, 0⟩
      lastNow := clamped 0 reading
      sequence := 0 }
  else none

def refillBucket (bucket : Bucket) (config : BucketConfig) (now : ℚ) :
    Bucket :=
  let elapsed := max 0 (now - bucket.updatedAt)
  { bucket with
    tokens := min config.capacity
      (bucket.tokens + elapsed / 1000 * config.refillPerSecond)
    updatedAt := now }

/-- Which of two entries `#evictOldest` prefers. -/
def older (entry selected : JsString × Bucket) : Bool :=
  decide (entry.2.usedAt < selected.2.usedAt) ||
    (decide (entry.2.usedAt = selected.2.usedAt) &&
      decide (entry.1 < selected.1))

def oldest (addresses : JsMap JsString Bucket) : Option (JsString × Bucket) :=
  addresses.foldl (fun selected entry =>
    match selected with
    | none => some entry
    | some best => if older entry best then some entry else some best) none

def evictOldest (addresses : JsMap JsString Bucket) : JsMap JsString Bucket :=
  match oldest addresses with
  | none => addresses
  | some selected => addresses.delete selected.1

section Operations

variable (options : LoginRateLimiterOptions)
variable (process : JsString -> Option JsString)

/-- What is not a string, too long or no address is unknown. -/
def normalizeAddress (value : Option JsString) : JsString :=
  match value with
  | none => js "unknown"
  | some text =>
      if 256 < text.length then js "unknown"
      else (process text).getD (js "unknown")

def tracked (key : JsString) (now : ℚ) (s : State) : State × Bucket :=
  match s.addresses.get key with
  | some bucket => (s, bucket)
  | none =>
      let addresses :=
        if options.maxAddresses ≤ s.addresses.length then
          evictOldest s.addresses
        else s.addresses
      let bucket : Bucket := ⟨options.address.capacity, now, s.sequence + 1⟩
      ({ s with
        addresses := addresses.set key bucket
        sequence := s.sequence + 1 }, bucket)

/-- The end of `consume`, with the bucket of the address. -/
def take (key : JsString) (now : ℚ) (found : State × Bucket) :
    State × Bool :=
  let s : State := found.1
  let global : Bucket := refillBucket s.global options.global now
  let bucket : Bucket := { refillBucket found.2 options.address now with
    usedAt := s.sequence + 1 }
  let s : State := { s with sequence := s.sequence + 1 }
  if global.tokens < 1 ∨ bucket.tokens < 1 then
    ({ s with
      global := global
      addresses := s.addresses.set key bucket }, false)
  else
    ({ s with
      global := { global with tokens := global.tokens - 1 }
      addresses := s.addresses.set key
        { bucket with tokens := bucket.tokens - 1 } }, true)

def consume (reading : Option ℚ) (address : Option JsString) (s : State) :
    State × Bool :=
  let now := clamped s.lastNow reading
  let key := normalizeAddress process address
  take options key now (tracked options key now { s with lastNow := now })

def resetAddress (address : Option JsString) (s : State) : State :=
  { s with addresses := s.addresses.delete (normalizeAddress process address) }

/-!
## Runs
-/

inductive Event where
  | consume (reading : Option ℚ) (address : Option JsString)
  | resetAddress (address : Option JsString)

def Event.key : Event -> JsString
  | consume _ address => normalizeAddress process address
  | resetAddress address => normalizeAddress process address

def step (s : State) : Event -> State
  | Event.consume reading address =>
      (RateLimiter.consume options process reading address s).1
  | Event.resetAddress address => RateLimiter.resetAddress process address s

def grants (s : State) : Event -> Bool
  | Event.consume reading address =>
      (RateLimiter.consume options process reading address s).2
  | Event.resetAddress _ => false

def run (s : State) (events : List Event) : State :=
  events.foldl (step options process) s

/-- How many logins were let through, of those with certain keys. -/
def granted (counts : JsString -> Bool) (s : State) : List Event -> Nat
  | [] => 0
  | e :: rest =>
      (if grants options process s e && counts (e.key process) then 1 else 0) +
        granted counts (step options process s e) rest

/-- The event makes the limiter forget the bucket of a key. -/
def Forgets (key : JsString) (s : State) : Event -> Prop
  | Event.resetAddress address => normalizeAddress process address = key
  | Event.consume reading address =>
      s.addresses.get key ≠ none ∧
        (RateLimiter.consume options process reading address s).1.addresses.get
          key = none

def Remembers (key : JsString) (s : State) : List Event -> Prop
  | [] => True
  | e :: rest => ¬ Forgets options process key s e ∧
      Remembers key (step options process s e) rest

def consumed (events : List Event) : List JsString :=
  events.filterMap fun e =>
    match e with
    | Event.consume _ address => some (normalizeAddress process address)
    | Event.resetAddress _ => none

end Operations

end RateLimiter
end Server
end FlanTerminal
