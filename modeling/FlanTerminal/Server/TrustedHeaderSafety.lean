import FlanTerminal.Server.TrustedHeaderAuth

/-!
# A trusted header cannot be spoofed

What the provider has checked of a request whose identity it returns.  Of the
library for proxies the code relies on the order of the addresses and on where
the list of the trusted ones stops.
-/

namespace FlanTerminal
namespace Server
namespace TrustedHeaderAuth

open Foundation
open Shared

/-- The addresses up to the first one that is not trusted.  The last address
ends the list in any case. -/
def upToUntrusted (trust : Trust) : Nat -> List JsString -> List JsString
  | _, [] => []
  | _, [address] => [address]
  | i, address :: next :: rest =>
      if trust address i then address :: upToUntrusted trust (i + 1) (next :: rest)
      else [address]

/-- A part of a forwarded-for header that stands for an address. -/
structure Hop (hop : JsString) : Prop where
  nonempty : hop ≠ []
  comma : 44 ∉ hop
  trimmed : trim hop = hop

/-- What is documented of `proxyaddr.all`. -/
structure Documented (lib : Libraries) : Prop where
  /-- The peer, and the forwarded addresses from the closest on. -/
  complete : forall remoteAddress hops, (forall hop, hop ∈ hops -> Hop hop) ->
    lib.all remoteAddress (joinComma hops) none = remoteAddress :: hops.reverse
  trusted : forall remoteAddress header trust,
    lib.all remoteAddress header (some trust) =
      upToUntrusted trust 0 (lib.all remoteAddress header none)

/-!
## What a request says
-/

/-- The fields with this name, in any letter case. -/
def named {value : Type} (wanted : JsString)
    (fields : List (JsString × value)) : List (JsString × value) :=
  fields.filter fun field => toLowerCase field.1 = wanted

inductive Field (fields : JsMap JsString HeaderValue) (wanted : JsString) :
    Option JsString -> Prop where
  | absent : named wanted fields = [] -> Field fields wanted none
  | undefined (name : JsString) :
      named wanted fields = [(name, HeaderValue.undefined)] ->
      Field fields wanted none
  | present (name value : JsString) :
      named wanted fields = [(name, HeaderValue.string value)] ->
      Field fields wanted (some value)

/-- The addresses of the forwarded-for header, from left to right. -/
def hopsOf : Option JsString -> List JsString
  | none => []
  | some value => (splitComma value).map trim

inductive EffectiveOrigin (publicProtocol : JsString) :
    Option JsString -> Option JsString -> Option JsString ->
    Option JsString -> JsString -> JsString -> Prop where
  | forwarded (forwardedFor : Option JsString) (proto host : JsString)
      (directHost : Option JsString) :
      EffectiveOrigin publicProtocol forwardedFor (some proto) (some host)
        directHost (toLowerCase proto) host
  | direct (host : JsString) :
      EffectiveOrigin publicProtocol none none none (some host) publicProtocol
        host

/-- The raw headers have each name before its value. -/
def rawItems (fields : List (JsString × JsString)) : List Item :=
  fields.flatMap fun field => [some field.1, some field.2]

def MergedOnly (fields : JsMap JsString HeaderValue)
    (wanted value : JsString) : Prop :=
  exists name, named wanted fields = [(name, HeaderValue.string value)] ∨
    named wanted fields = [(name, HeaderValue.array [some value])]

def DistinctOnly (view : View) (wanted value : JsString) : Prop :=
  exists fields name, view = View.object fields ∧
    named wanted fields = [(name, HeaderValue.array [some value])]

def RawOnly (rawHeaders : RawHeaders) (wanted value : JsString) : Prop :=
  exists fields name, rawHeaders = RawHeaders.array (rawItems fields) ∧
    named wanted fields = [(name, value)]

/-- What is known of a request with this identity label. -/
structure Verified (lib : Libraries) (options : Options)
    (provider : TrustedHeaderAuthProvider) (request : Request)
    (label : JsString) : Prop where
  /-- The trusted ranges, the identity header and the public origin. -/
  configured : exists ranges publicUrl,
    options.trustProxy = TrustProxy.ranges (ranges.map some) ∧
    lib.compile ranges = some provider.trust ∧
    options.identityHeader.map toLowerCase = some provider.identityHeader ∧
    options.publicOrigin = some provider.publicOrigin ∧
    lib.url provider.publicOrigin = some publicUrl ∧
    publicUrl.origin = provider.publicOrigin ∧
    publicUrl.protocol = provider.publicProtocol ++ js ":"
  checked : exists address fields forwardedFor forwardedProto forwardedHost
      directHost protocol host url value,
    request.remoteAddress = some address ∧
    provider.trust address 0 = true ∧
    request.headers = View.object fields ∧
    Field fields (js "x-forwarded-for") forwardedFor ∧
    Field fields (js "x-forwarded-proto") forwardedProto ∧
    Field fields (js "x-forwarded-host") forwardedHost ∧
    Field fields (js "host") directHost ∧
    -- every hop but the leftmost, which is number 0
    (forall i hop, 0 < i -> (hopsOf forwardedFor)[i]? = some hop ->
      provider.trust hop ((hopsOf forwardedFor).length - i) = true) ∧
    EffectiveOrigin provider.publicProtocol forwardedFor forwardedProto
      forwardedHost directHost protocol host ∧
    lib.url (protocol ++ js "://" ++ host) = some url ∧
    url.origin = provider.publicOrigin ∧
    MergedOnly fields provider.identityHeader value ∧
    44 ∉ value ∧
    (forall view, request.headersDistinct = some view ->
      DistinctOnly view provider.identityHeader value) ∧
    (forall raw, request.rawHeaders = some raw ->
      RawOnly raw provider.identityHeader value) ∧
    ¬ (request.headersDistinct = none ∧ request.rawHeaders = none) ∧
    label = lib.nfc value
  label : label ≠ [] ∧ utf8ByteLength label ≤ 128 ∧
    forall c, c ∈ codePoints label -> isUnsafe c = false

/-!
## Reading the checks
-/

theorem check_some {b : Bool} {u : Unit} (h : check b = some u) :
    b = true := by
  cases b with
  | false => cases h
  | true => rfl

theorem bind_some {source target : Type} {x : Option source}
    {f : source -> Option target} {b : target} (h : (x >>= f) = some b) :
    exists a, x = some a ∧ f a = some b :=
  Option.bind_eq_some_iff.mp h

theorem check_bind {target : Type} {b : Bool} {f : Unit -> Option target}
    {a : target} (h : (check b >>= f) = some a) : b = true ∧ f () = some a := by
  rcases bind_some h with ⟨u, hu, hf⟩
  exact ⟨check_some hu, hf⟩

theorem named_cons {value : Type} (wanted name : JsString) (v : value)
    (fields : List (JsString × value)) :
    named wanted ((name, v) :: fields) =
      if toLowerCase name = wanted then (name, v) :: named wanted fields
      else named wanted fields := by
  unfold named
  rw [List.filter_cons]
  simp only [decide_eq_true_eq]

theorem named_keys {value : Type} (wanted : JsString)
    (fields : JsMap JsString value) :
    (named wanted fields).map Prod.fst =
      fields.keys.filter fun name => toLowerCase name = wanted := by
  unfold named JsMap.keys
  rw [List.filter_map]
  rfl

theorem named_single {value : Type} {wanted name : JsString}
    {fields : JsMap JsString value}
    (h : (fields.keys.filter fun name => toLowerCase name = wanted) = [name]) :
    exists v, named wanted fields = [(name, v)] ∧
      fields.get name = some v := by
  rw [← named_keys] at h
  rcases List.map_eq_singleton_iff.mp h with ⟨⟨key, v⟩, hnamed, hkey⟩
  have hkey' : key = name := hkey
  rw [hkey'] at hnamed
  refine ⟨v, hnamed, ?_⟩
  have hmatch : toLowerCase name = wanted := by
    have hmem : (name, v) ∈ named wanted fields := by
      rw [hnamed]
      exact List.mem_cons_self
    simpa using (List.mem_filter.mp hmem).2
  clear h hkey hkey'
  induction fields with
  | nil => cases hnamed
  | cons field fields ih =>
      rcases field with ⟨key', v'⟩
      rw [JsMap.get_cons]
      rw [named_cons] at hnamed
      by_cases hfirst : toLowerCase key' = wanted
      · rw [if_pos hfirst] at hnamed
        have heq := (List.cons.inj hnamed).1
        rw [Prod.mk.injEq] at heq
        rw [if_pos heq.1, heq.2]
      · rw [if_neg hfirst] at hnamed
        have hne : key' ≠ name := by
          intro heq
          rw [heq] at hfirst
          exact hfirst hmatch
        rw [if_neg hne]
        exact ih hnamed

theorem headerNames_some {view : View} {fields : JsMap JsString HeaderValue}
    (h : headerNames view = some fields) : view = View.object fields := by
  unfold headerNames at h
  split at h
  · cases h
  · rcases check_bind h with ⟨_, h⟩
    rcases bind_some h with ⟨_, _, h⟩
    cases h
    rfl

theorem matching_some {fields : JsMap JsString HeaderValue}
    {wanted : JsString} {v : HeaderValue}
    (h : matchingHeaderValue fields wanted = some v) :
    (named wanted fields = [] ∧ v = HeaderValue.undefined) ∨
      exists name, named wanted fields = [(name, v)] := by
  unfold matchingHeaderValue at h
  split at h
  · rename_i hnone
    rw [← named_keys, List.map_eq_nil_iff] at hnone
    cases h
    exact Or.inl ⟨hnone, rfl⟩
  · rename_i name hname
    rcases named_single hname with ⟨v', hnamed, hget⟩
    rw [hget] at h
    cases h
    exact Or.inr ⟨name, hnamed⟩
  · cases h

theorem optionalStringHeader_some {fields : JsMap JsString HeaderValue}
    {wanted : JsString} {value : Option JsString}
    (h : optionalStringHeader fields wanted = some value) :
    Field fields wanted value := by
  rcases bind_some h with ⟨v, hv, h⟩
  split at h
  · cases h
    rcases matching_some hv with ⟨hnone, _⟩ | ⟨name, hname⟩
    · exact Field.absent hnone
    · exact Field.undefined name hname
  · rename_i s
    cases h
    rcases matching_some hv with ⟨_, hstring⟩ | ⟨name, hname⟩
    · cases hstring
    · exact Field.present name s hname
  · cases h

/-!
## The chain of proxies

Two lists of equal length mean that the second one did not stop early.
-/

theorem trusted_of_length {trust : Trust} {i : Nat}
    {addresses : List JsString}
    (h : addresses.length = (upToUntrusted trust i addresses).length)
    {j : Nat} {address : JsString} (hj : j + 1 < addresses.length)
    (haddress : addresses[j]? = some address) :
    trust address (i + j) = true := by
  induction addresses generalizing i j with
  | nil => cases hj
  | cons first rest ih =>
      cases rest with
      | nil =>
          rw [List.length_singleton] at hj
          omega
      | cons next rest =>
          rw [upToUntrusted] at h
          split at h
          · rename_i hfirst
            cases j with
            | zero =>
                cases haddress
                exact hfirst
            | succ j =>
                have hrest := ih (Nat.succ.inj h) (Nat.lt_of_succ_lt_succ hj)
                  haddress
                rw [Nat.add_assoc, Nat.add_comm 1 j] at hrest
                exact hrest
          · simp only [List.length_cons, List.length_nil] at h
            omega

theorem splitComma_comma {value part : JsString}
    (h : part ∈ splitComma value) : 44 ∉ part := by
  induction value generalizing part with
  | nil =>
      rw [splitComma, List.mem_singleton] at h
      rw [h]
      exact List.not_mem_nil
  | cons u rest ih =>
      rw [splitComma] at h
      split at h
      · rcases List.mem_cons.mp h with h | h
        · rw [h]
          exact List.not_mem_nil
        · exact ih h
      · rename_i hu
        split at h
        · rw [List.mem_singleton.mp h, List.mem_singleton]
          exact fun heq => hu heq.symm
        · rename_i first parts hsplit
          rcases List.mem_cons.mp h with h | h
          · rw [h, List.mem_cons, not_or]
            refine ⟨fun heq => hu heq.symm, ih ?_⟩
            rw [hsplit]
            exact List.mem_cons_self
          · apply ih
            rw [hsplit]
            exact List.mem_cons_of_mem _ h

theorem mem_trim {value : JsString} {u : UInt16} (h : u ∈ trim value) :
    u ∈ value := by
  rw [trim, List.mem_reverse] at h
  have hback := (List.dropWhile_sublist _).mem h
  exact (List.dropWhile_sublist _).mem (List.mem_reverse.mp hback)

theorem parseForwardedFor_some {lib : Libraries} {value : JsString}
    {hops : List JsString} (h : parseForwardedFor lib value = some hops) :
    hops = hopsOf (some value) ∧ forall hop, hop ∈ hops -> Hop hop := by
  rcases check_bind h with ⟨_, h⟩
  rcases check_bind h with ⟨hchecks, h⟩
  rcases bind_some h with ⟨_, _, h⟩
  cases h
  refine ⟨rfl, ?_⟩
  intro hop hmem
  have hempty := (Bool.and_eq_true_iff.mp hchecks).2
  have hnonempty := List.all_eq_true.mp hempty hop hmem
  rcases List.mem_map.mp hmem with ⟨part, hpart, htrim⟩
  constructor
  · intro hnil
    rw [hnil] at hnonempty
    cases hnonempty
  · intro hcomma
    rw [← htrim] at hcomma
    exact splitComma_comma hpart (mem_trim hcomma)
  · rw [← htrim]
    exact trim_of_trimmed (trim_trimmed part)

theorem chain_some {lib : Libraries} {forwardedFor : Option JsString}
    {chain : List JsString}
    (h : forwardedChain lib forwardedFor = some chain) :
    chain = hopsOf forwardedFor ∧ forall hop, hop ∈ chain -> Hop hop := by
  cases forwardedFor with
  | none =>
      cases h
      exact ⟨rfl, fun _ hmem => absurd hmem List.not_mem_nil⟩
  | some value => exact parseForwardedFor_some h

/-- Every hop but the leftmost is trusted. -/
theorem validateProxyChain_some {lib : Libraries} (hlib : Documented lib)
    {remoteAddress : JsString} {forwardedFor : Option JsString}
    {trust : Trust} {u : Unit}
    (h : validateProxyChain lib remoteAddress forwardedFor trust = some u)
    {i : Nat} {hop : JsString} (hi : 0 < i)
    (hhop : (hopsOf forwardedFor)[i]? = some hop) :
    trust hop ((hopsOf forwardedFor).length - i) = true := by
  rcases bind_some h with ⟨chain, hchain, h⟩
  rcases chain_some hchain with ⟨heq, hhops⟩
  have hlength := of_decide_eq_true (check_some h)
  rw [hlib.trusted, hlib.complete remoteAddress chain hhops] at hlength
  rw [← heq] at hhop ⊢
  have hbound : i < chain.length := by
    rcases List.getElem?_eq_some_iff.mp hhop with ⟨hlt, _⟩
    exact hlt
  -- in the list of the library the peer comes first, then the last hop
  have hplace : (remoteAddress :: chain.reverse)[chain.length - i]? =
      some hop := by
    obtain ⟨j, hj⟩ : exists j, chain.length - i = j + 1 :=
      ⟨chain.length - i - 1, by omega⟩
    rw [hj, List.getElem?_cons_succ,
      List.getElem?_reverse (by omega)]
    rw [show chain.length - 1 - j = i by omega]
    exact hhop
  have htrust := trusted_of_length hlength
    (by rw [List.length_cons, List.length_reverse]; omega) hplace
  rw [Nat.zero_add] at htrust
  exact htrust

/-!
## The origin
-/

theorem requiredForwardedProtocol_some {value : Option JsString}
    {protocol : JsString} (h : requiredForwardedProtocol value = some protocol) :
    exists proto, value = some proto ∧ protocol = toLowerCase proto := by
  unfold requiredForwardedProtocol at h
  split at h
  · cases h
  · rename_i proto
    rcases check_bind h with ⟨_, h⟩
    rcases check_bind h with ⟨_, h⟩
    cases h
    exact ⟨proto, rfl, rfl⟩

theorem requiredHost_some {value : Option JsString} {host : JsString}
    (h : requiredHost value = some host) : value = some host := by
  unfold requiredHost at h
  split at h
  · cases h
  · rcases check_bind h with ⟨_, h⟩
    cases h
    rfl

theorem validateExternalOrigin_some {lib : Libraries}
    {protocol host expected : JsString} {u : Unit}
    (h : validateExternalOrigin lib protocol host expected = some u) :
    exists url, lib.url (protocol ++ js "://" ++ host) = some url ∧
      url.origin = expected := by
  rcases bind_some h with ⟨url, hurl, h⟩
  have horigin := (Bool.and_eq_true_iff.mp (check_some h)).2
  exact ⟨url, hurl, of_decide_eq_true horigin⟩

theorem validateOrigin_some {lib : Libraries}
    {provider : TrustedHeaderAuthProvider}
    {forwardedFor forwardedProto forwardedHost directHost : Option JsString}
    {u : Unit}
    (h : validateOrigin lib provider forwardedFor forwardedProto forwardedHost
      directHost = some u) :
    exists protocol host url,
      EffectiveOrigin provider.publicProtocol forwardedFor forwardedProto
        forwardedHost directHost protocol host ∧
      lib.url (protocol ++ js "://" ++ host) = some url ∧
      url.origin = provider.publicOrigin := by
  unfold validateOrigin at h
  split at h
  · rcases bind_some h with ⟨protocol, hprotocol, h⟩
    rcases bind_some h with ⟨host, hhost, h⟩
    rcases requiredForwardedProtocol_some hprotocol with ⟨proto, hproto, hlower⟩
    rcases validateExternalOrigin_some h with ⟨url, hurl, horigin⟩
    rw [requiredHost_some hhost, hproto]
    rw [hlower] at hurl
    exact ⟨_, host, url, EffectiveOrigin.forwarded _ proto host _, hurl, horigin⟩
  · rename_i hnone
    simp only [Bool.or_eq_true, not_or, Option.not_isSome_iff_eq_none] at hnone
    rcases bind_some h with ⟨host, hhost, h⟩
    rcases validateExternalOrigin_some h with ⟨url, hurl, horigin⟩
    rw [requiredHost_some hhost, hnone.1.1, hnone.1.2, hnone.2]
    exact ⟨_, host, url, EffectiveOrigin.direct host, hurl, horigin⟩

/-!
## The identity header
-/

theorem oneHeaderValue_some {v : HeaderValue} {value : JsString}
    (h : oneHeaderValue v = some value) :
    v = HeaderValue.string value ∨ v = HeaderValue.array [some value] := by
  unfold oneHeaderValue at h
  split at h
  · cases h
    exact Or.inl rfl
  · cases h
    exact Or.inr rfl
  · cases h

theorem merged_some {fields : JsMap JsString HeaderValue}
    {wanted value : JsString} {v : HeaderValue}
    (h : matchingHeaderValue fields wanted = some v)
    (hone : oneHeaderValue v = some value) : MergedOnly fields wanted value := by
  rcases matching_some h with ⟨_, hv⟩ | ⟨name, hname⟩
  · rw [hv] at hone
    cases hone
  · cases oneHeaderValue_some hone with
    | inl hv =>
        rw [hv] at hname
        exact ⟨name, Or.inl hname⟩
    | inr hv =>
        rw [hv] at hname
        exact ⟨name, Or.inr hname⟩

theorem identityFromDistinct_some {view : View} {wanted value : JsString}
    (h : identityFromDistinct view wanted = some value) :
    DistinctOnly view wanted value := by
  unfold identityFromDistinct at h
  split at h
  · cases h
  · rename_i fields
    rcases check_bind h with ⟨_, h⟩
    rcases bind_some h with ⟨_, _, h⟩
    split at h
    · rename_i name hname
      rcases named_single hname with ⟨v, hnamed, hget⟩
      rw [hget] at h
      split at h
      · rename_i heq
        cases heq
        cases h
        exact ⟨fields, name, rfl, hnamed⟩
      · cases h
    · cases h

/-- The loop goes through pairs of strings only, and collects the values of the
header. -/
theorem scanRaw_some {wanted : JsString} {items : List Item}
    {byteCount : Nat} {found values : List JsString}
    (h : scanRaw wanted items byteCount found = some values) :
    exists fields, items = rawItems fields ∧
      values = found ++ (named wanted fields).map Prod.snd := by
  induction items, byteCount, found using scanRaw.induct wanted with
  | case1 byteCount found =>
      cases h
      exact ⟨[], rfl, (List.append_nil _).symm⟩
  | case2 name value rest byteCount found ih =>
      rw [scanRaw] at h
      rcases bind_some h with ⟨_, _, h⟩
      rcases check_bind h with ⟨_, h⟩
      rcases ih h with ⟨fields, hitems, hvalues⟩
      refine ⟨(name, value) :: fields, ?_, ?_⟩
      · rw [hitems]
        rfl
      · rw [hvalues, named_cons]
        by_cases hname : toLowerCase name = wanted
        · rw [if_pos hname, if_pos hname, List.map_cons, List.append_assoc]
          rfl
        · rw [if_neg hname, if_neg hname]
  | case3 items byteCount found hnil hpair =>
      unfold scanRaw at h
      split at h
      · exact absurd rfl hnil
      · exact absurd rfl (hpair _ _ _)
      · cases h

theorem identityFromRaw_some {raw : RawHeaders} {wanted value : JsString}
    (h : identityFromRaw raw wanted = some value) :
    RawOnly raw wanted value := by
  unfold identityFromRaw at h
  split at h
  · cases h
  · rename_i items
    rcases check_bind h with ⟨_, h⟩
    rcases bind_some h with ⟨values, hvalues, h⟩
    split at h
    · cases h
      rcases scanRaw_some hvalues with ⟨fields, hitems, hfound⟩
      rw [List.nil_append] at hfound
      rcases List.map_eq_singleton_iff.mp hfound.symm with
        ⟨⟨name, value'⟩, hnamed, hvalue⟩
      cases hvalue
      exact ⟨fields, name, by rw [hitems], hnamed⟩
    · cases h

theorem preserved_some {view : Type} {identity : view -> Option JsString}
    {preserved : Option view} {values : List JsString}
    (h : preservedValue identity preserved = some values) :
    (preserved = none ∧ values = []) ∨ exists v value,
      preserved = some v ∧ values = [value] ∧ identity v = some value := by
  cases preserved with
  | none =>
      cases h
      exact Or.inl ⟨rfl, rfl⟩
  | some v =>
      rcases Option.map_eq_some_iff.mp h with ⟨value, hvalue, heq⟩
      exact Or.inr ⟨v, value, rfl, heq.symm, hvalue⟩

theorem preserved_value {view : Type} {identity : view -> Option JsString}
    {preserved : Option view} {values : List JsString} {value : JsString}
    (h : preservedValue identity preserved = some values)
    (hall : forall v, v ∈ values -> v = value) {v : view}
    (hv : preserved = some v) : identity v = some value := by
  rcases preserved_some h with ⟨hnone, _⟩ | ⟨v', value', hv', hvalues, hid⟩
  · rw [hnone] at hv
    cases hv
  · rw [hv] at hv'
    cases hv'
    rw [hid, hall value' (by rw [hvalues]; exact List.mem_cons_self)]

structure Identified (request : Request) (fields : JsMap JsString HeaderValue)
    (wanted value : JsString) : Prop where
  merged : MergedOnly fields wanted value
  comma : 44 ∉ value
  distinct : forall view, request.headersDistinct = some view ->
    identityFromDistinct view wanted = some value
  raw : forall raw, request.rawHeaders = some raw ->
    identityFromRaw raw wanted = some value
  supplied : ¬ (request.headersDistinct = none ∧ request.rawHeaders = none)

theorem originalIdentityHeader_some {request : Request}
    {fields : JsMap JsString HeaderValue} {wanted value : JsString}
    (h : originalIdentityHeader request fields wanted = some value) :
    Identified request fields wanted value := by
  rcases bind_some h with ⟨merged, hmerged, h⟩
  rcases bind_some h with ⟨mergedValue, hvalue, h⟩
  rcases check_bind h with ⟨hcomma, h⟩
  rcases bind_some h with ⟨distinct, hdistinct, h⟩
  rcases bind_some h with ⟨raw, hraw, h⟩
  rcases check_bind h with ⟨hpreserved, h⟩
  cases h
  rcases Bool.and_eq_true_iff.mp hpreserved with ⟨hnonempty, hall⟩
  have hsame : forall v, v ∈ distinct ++ raw -> v = value := by
    intro v hv
    exact of_decide_eq_true (List.all_eq_true.mp hall v hv)
  constructor
  · exact merged_some hmerged hvalue
  · simpa using hcomma
  · intro view hview
    exact preserved_value hdistinct
      (fun v hv => hsame v (List.mem_append_left _ hv)) hview
  · intro view hview
    exact preserved_value hraw
      (fun v hv => hsame v (List.mem_append_right _ hv)) hview
  · rintro ⟨hnone, hnone'⟩
    rw [hnone] at hdistinct
    rw [hnone'] at hraw
    cases hdistinct
    cases hraw
    cases hnonempty

theorem normalizeIdentity_some {lib : Libraries} {value label : JsString}
    (h : normalizeIdentity lib value = some label) :
    label = lib.nfc value ∧ label ≠ [] ∧ utf8ByteLength label ≤ 128 ∧
      forall c, c ∈ codePoints label -> isUnsafe c = false := by
  rcases check_bind h with ⟨hchecks, h⟩
  cases h
  simp only [Bool.and_eq_true, Bool.not_eq_true', decide_eq_true_eq,
    List.isEmpty_eq_false_iff, List.any_eq_false] at hchecks
  refine ⟨rfl, hchecks.1.1, hchecks.1.2, ?_⟩
  intro c hc
  simpa using hchecks.2 c hc

/-!
## The provider
-/

theorem validateAddress_some {lib : Libraries} {value : Item}
    {address : JsString} (h : validateAddress lib value = some address) :
    value = some address := by
  unfold validateAddress at h
  split at h
  · cases h
  · rcases check_bind h with ⟨_, h⟩
    cases h
    rfl

theorem validateTrustRange_some {lib : Libraries} {value : Item}
    {range : JsString} (h : validateTrustRange lib value = some range) :
    value = some range := by
  unfold validateTrustRange at h
  split at h
  · cases h
  · rcases check_bind h with ⟨_, h⟩
    rcases check_bind h with ⟨_, h⟩
    cases h
    rfl

theorem trustRanges_some {lib : Libraries} {items : List Item}
    {ranges : List JsString}
    (h : items.mapM (validateTrustRange lib) = some ranges) :
    items = ranges.map some := by
  induction items generalizing ranges with
  | nil =>
      cases h
      rfl
  | cons item items ih =>
      rw [List.mapM_cons] at h
      rcases bind_some h with ⟨range, hrange, h⟩
      rcases bind_some h with ⟨rest, hrest, h⟩
      cases h
      rw [validateTrustRange_some hrange, ih hrest, List.map_cons]

theorem validatePublicOrigin_some {lib : Libraries} {value : Item} {url : Url}
    (h : validatePublicOrigin lib value = some url) :
    value = some url.origin ∧ lib.url url.origin = some url ∧
      url.protocol = url.protocol.dropLast ++ js ":" := by
  unfold validatePublicOrigin at h
  split at h
  · cases h
  · rename_i text
    rcases bind_some h with ⟨url', hurl, h⟩
    rcases check_bind h with ⟨hchecks, h⟩
    cases h
    simp only [Bool.and_eq_true, decide_eq_true_eq] at hchecks
    have horigin := hchecks.1.1.2
    rw [horigin] at hurl
    refine ⟨congrArg some horigin, hurl, ?_⟩
    rcases hchecks.1.1.1 with hprotocol | hprotocol
    · rw [hprotocol]
      decide
    · rw [hprotocol]
      decide

theorem construct_some {lib : Libraries} {options : Options}
    {provider : TrustedHeaderAuthProvider}
    (h : construct lib options = some provider) :
    exists ranges publicUrl,
      options.trustProxy = TrustProxy.ranges (ranges.map some) ∧
      lib.compile ranges = some provider.trust ∧
      options.identityHeader.map toLowerCase = some provider.identityHeader ∧
      options.publicOrigin = some provider.publicOrigin ∧
      lib.url provider.publicOrigin = some publicUrl ∧
      publicUrl.origin = provider.publicOrigin ∧
      publicUrl.protocol = provider.publicProtocol ++ js ":" := by
  unfold construct at h
  split at h
  · rename_i items hitems
    rcases check_bind h with ⟨_, h⟩
    rcases bind_some h with ⟨ranges, hranges, h⟩
    rcases bind_some h with ⟨trust, htrust, h⟩
    rcases bind_some h with ⟨identityHeader, hheader, h⟩
    rcases check_bind h with ⟨_, h⟩
    rcases bind_some h with ⟨publicUrl, hpublic, h⟩
    cases h
    rcases validatePublicOrigin_some hpublic with ⟨horigin, hurl, hprotocol⟩
    refine ⟨ranges, publicUrl, ?_, htrust, ?_, horigin, hurl, rfl, hprotocol⟩
    · rw [hitems, trustRanges_some hranges]
    · rw [hheader]
      rfl
  · cases h

structure Steps (lib : Libraries) (provider : TrustedHeaderAuthProvider)
    (request : Request) (label address : JsString)
    (fields : JsMap JsString HeaderValue)
    (forwardedFor forwardedProto forwardedHost directHost : Option JsString)
    (value : JsString) : Prop where
  peer : validateAddress lib request.remoteAddress = some address
  trusted : provider.trust address 0 = true
  merged : headerNames request.headers = some fields
  hops : Field fields (js "x-forwarded-for") forwardedFor
  chain : validateProxyChain lib address forwardedFor provider.trust = some ()
  proto : Field fields (js "x-forwarded-proto") forwardedProto
  host : Field fields (js "x-forwarded-host") forwardedHost
  direct : Field fields (js "host") directHost
  origin : validateOrigin lib provider forwardedFor forwardedProto
    forwardedHost directHost = some ()
  identity : Identified request fields provider.identityHeader value
  normal : normalizeIdentity lib value = some label

theorem authenticate_steps {lib : Libraries}
    {provider : TrustedHeaderAuthProvider} {request : Request}
    {label : JsString} (h : authenticate lib provider request = some label) :
    exists address fields forwardedFor forwardedProto forwardedHost directHost
      value, Steps lib provider request label address fields forwardedFor
        forwardedProto forwardedHost directHost value := by
  rcases bind_some h with ⟨address, haddress, h⟩
  rcases check_bind h with ⟨htrust, h⟩
  rcases bind_some h with ⟨fields, hfields, h⟩
  rcases bind_some h with ⟨forwardedFor, hfor, h⟩
  rcases bind_some h with ⟨_, hchain, h⟩
  rcases bind_some h with ⟨forwardedProto, hproto, h⟩
  rcases bind_some h with ⟨forwardedHost, hhost, h⟩
  rcases bind_some h with ⟨directHost, hdirect, h⟩
  rcases bind_some h with ⟨_, horigin, h⟩
  rcases bind_some h with ⟨value, hvalue, h⟩
  exact ⟨address, fields, forwardedFor, forwardedProto, forwardedHost,
    directHost, value, haddress, htrust, hfields,
    optionalStringHeader_some hfor, hchain, optionalStringHeader_some hproto,
    optionalStringHeader_some hhost, optionalStringHeader_some hdirect, horigin,
    originalIdentityHeader_some hvalue, h⟩

theorem authenticate_some {lib : Libraries} (hlib : Documented lib)
    {options : Options} {provider : TrustedHeaderAuthProvider}
    (hprovider : construct lib options = some provider) {request : Request}
    {label : JsString} (h : authenticate lib provider request = some label) :
    Verified lib options provider request label := by
  rcases authenticate_steps h with ⟨address, fields, forwardedFor,
    forwardedProto, forwardedHost, directHost, value, hsteps⟩
  have hidentity := hsteps.identity
  rcases normalizeIdentity_some hsteps.normal with ⟨hlabel, hsafe⟩
  rcases validateOrigin_some hsteps.origin with
    ⟨protocol, host, url, heffective, hurl⟩
  refine ⟨construct_some hprovider, ?_, hsafe⟩
  refine ⟨address, fields, forwardedFor, forwardedProto, forwardedHost,
    directHost, protocol, host, url, value,
    validateAddress_some hsteps.peer, hsteps.trusted,
    headerNames_some hsteps.merged, hsteps.hops, hsteps.proto, hsteps.host,
    hsteps.direct, ?_,
    heffective, hurl.1, hurl.2, hidentity.merged, hidentity.comma, ?_, ?_,
    hidentity.supplied, hlabel⟩
  · intro i hop hi hhop
    exact validateProxyChain_some hlib hsteps.chain hi hhop
  · intro view hview
    exact identityFromDistinct_some (hidentity.distinct view hview)
  · intro raw hraw
    exact identityFromRaw_some (hidentity.raw raw hraw)

/-!
## A second field

Raw headers that are accepted are pairs of strings, so another identity field
behind them is found as a second one.
-/

theorem rawItems_snoc {fields fields' : List (JsString × JsString)}
    {name : JsString} {second : Item}
    (h : rawItems fields ++ [some name, second] = rawItems fields') :
    exists value, second = some value ∧
      fields' = fields ++ [(name, value)] := by
  induction fields generalizing fields' with
  | nil =>
      cases fields' with
      | nil => cases h
      | cons field rest =>
          have hitems : [some name, second] =
              some field.1 :: some field.2 :: rawItems rest := h
          simp only [List.cons.injEq, Option.some.injEq] at hitems
          obtain ⟨hname, hsecond, hrest⟩ := hitems
          cases rest with
          | nil => exact ⟨field.2, hsecond, by rw [hname]; rfl⟩
          | cons field' rest => cases hrest
  | cons field fields ih =>
      cases fields' with
      | nil => cases h
      | cons field' rest =>
          have hitems : some field.1 :: some field.2 ::
              (rawItems fields ++ [some name, second]) =
              some field'.1 :: some field'.2 :: rawItems rest := h
          simp only [List.cons.injEq, Option.some.injEq] at hitems
          obtain ⟨hname, hvalue, hrest⟩ := hitems
          obtain ⟨value, hsecond, hfields⟩ := ih hrest
          refine ⟨value, hsecond, ?_⟩
          rw [hfields, Prod.ext hname hvalue]
          rfl

theorem identityFromRaw_second {items : List Item} {wanted value : JsString}
    (h : identityFromRaw (RawHeaders.array items) wanted = some value)
    {name : JsString} (hname : toLowerCase name = wanted) (second : Item) :
    identityFromRaw (RawHeaders.array (items ++ [some name, second])) wanted =
      none := by
  cases hagain : identityFromRaw
      (RawHeaders.array (items ++ [some name, second])) wanted with
  | none => rfl
  | some value' =>
      rcases identityFromRaw_some h with ⟨fields, first, hitems, hfirst⟩
      rcases identityFromRaw_some hagain with
        ⟨fields', first', hitems', hfirst'⟩
      rw [RawHeaders.array.injEq] at hitems hitems'
      rw [hitems] at hitems'
      obtain ⟨v, _, hfields⟩ := rawItems_snoc hitems'
      unfold named at hfirst hfirst'
      rw [hfields, List.filter_append, hfirst,
        List.filter_cons_of_pos (by simpa using hname)] at hfirst'
      cases hfirst'

/-- An identity that the provider returns has passed every check, and a second
identity field makes it refuse the request. -/
theorem authenticate_verified {lib : Libraries} (hlib : Documented lib)
    {options : Options} {provider : TrustedHeaderAuthProvider}
    (hprovider : construct lib options = some provider) {request : Request}
    {label : JsString} (h : authenticate lib provider request = some label) :
    Verified lib options provider request label ∧
      forall items name second,
        request.rawHeaders = some (RawHeaders.array items) ->
        toLowerCase name = provider.identityHeader ->
        authenticate lib provider { request with
          rawHeaders := some (RawHeaders.array
            (items ++ [some name, second])) } = none := by
  refine ⟨authenticate_some hlib hprovider h, ?_⟩
  intro items name second hraw hname
  rcases authenticate_steps h with ⟨_, _, _, _, _, _, value, hsteps⟩
  have hsecond := identityFromRaw_second (hsteps.identity.raw _ hraw) hname
    second
  cases hagain : authenticate lib provider { request with
      rawHeaders := some (RawHeaders.array (items ++ [some name, second])) }
    with
  | none => rfl
  | some label' =>
      rcases authenticate_steps hagain with ⟨_, _, _, _, _, _, value', hsteps'⟩
      have hthird := hsteps'.identity.raw _ rfl
      rw [hsecond] at hthird
      cases hthird

/-!
A proxy library that splits the header at its commas, and a request that came
over two proxies.
-/

def splitProxies (remoteAddress header : JsString) : List JsString :=
  remoteAddress :: (((splitComma header).map trim).filter
    fun address => !address.isEmpty).reverse

def privateAddress (address : JsString) (_ : Nat) : Bool :=
  (js "10.").isPrefixOf address

def samplePublic : Url :=
  ⟨js "https:", [], [], js "/", [], [], js "https://terminal.example.test"⟩

def sampleLibraries : Libraries where
  isValid address := address.all fun u => u = 46 || (48 ≤ u && u ≤ 57)
  parses _ := true
  parsesCIDR _ := true
  compile _ := some privateAddress
  all remoteAddress header trust :=
    match trust with
    | none => splitProxies remoteAddress header
    | some trust => upToUntrusted trust 0 (splitProxies remoteAddress header)
  url text :=
    if text = js "https://terminal.example.test" then some samplePublic
    else none
  nfc value := value

theorem splitComma_append {front : JsString} (h : 44 ∉ front)
    (back : JsString) :
    splitComma (front ++ 44 :: back) = front :: splitComma back := by
  induction front with
  | nil => rfl
  | cons u front ih =>
      rw [List.mem_cons, not_or] at h
      rw [List.cons_append, splitComma, if_neg fun heq => h.1 heq.symm,
        ih h.2]

theorem splitComma_single {value : JsString} (h : 44 ∉ value) :
    splitComma value = [value] := by
  induction value with
  | nil => rfl
  | cons u value ih =>
      rw [List.mem_cons, not_or] at h
      rw [splitComma, if_neg fun heq => h.1 heq.symm, ih h.2]

theorem trim_splitComma_space (value : JsString) :
    (splitComma (32 :: value)).map trim = (splitComma value).map trim := by
  rw [splitComma, if_neg (by decide)]
  cases hsplit : splitComma value with
  | nil =>
      cases value with
      | nil => cases hsplit
      | cons u value =>
          rw [splitComma] at hsplit
          split at hsplit
          · cases hsplit
          · split at hsplit
            · cases hsplit
            · cases hsplit
  | cons part parts =>
      rw [List.map_cons, List.map_cons]
      rfl

theorem trim_splitComma_join {hops : List JsString} (hne : hops ≠ [])
    (h : forall hop, hop ∈ hops -> Hop hop) :
    (splitComma (joinComma hops)).map trim = hops := by
  induction hops with
  | nil => exact absurd rfl hne
  | cons hop rest ih =>
      have hhop := h hop List.mem_cons_self
      cases rest with
      | nil =>
          rw [joinComma, splitComma_single hhop.comma, List.map_singleton,
            hhop.trimmed]
      | cons next rest =>
          have hrest := ih (List.cons_ne_nil _ _) fun hop hmem =>
            h hop (List.mem_cons_of_mem _ hmem)
          show (splitComma (hop ++ 44 :: 32 :: joinComma (next :: rest))).map
            trim = _
          rw [splitComma_append hhop.comma, List.map_cons, hhop.trimmed,
            trim_splitComma_space, hrest]

theorem sampleLibraries_documented : Documented sampleLibraries where
  complete remoteAddress hops h := by
    show splitProxies remoteAddress (joinComma hops) = _
    unfold splitProxies
    cases hops with
    | nil => rfl
    | cons hop rest =>
        rw [trim_splitComma_join (List.cons_ne_nil _ _) h]
        rw [List.filter_eq_self.mpr]
        intro address hmem
        simpa using (h address hmem).nonempty
  trusted _ _ _ := rfl

def sampleOptions : Options where
  trustProxy := TrustProxy.ranges [some (js "10.0.0.0/8")]
  identityHeader := some (js "X-Auth-User")
  publicOrigin := some (js "https://terminal.example.test")

def sampleRaw : List Item :=
  [some (js "X-Auth-User"), some (js "person")]

def sampleRequest : Request where
  remoteAddress := some (js "10.0.0.2")
  headers := View.object
    [(js "x-forwarded-for", HeaderValue.string (js "198.51.100.5, 10.0.0.7")),
      (js "x-forwarded-proto", HeaderValue.string (js "https")),
      (js "x-forwarded-host",
        HeaderValue.string (js "terminal.example.test")),
      (js "x-auth-user", HeaderValue.string (js "person"))]
  headersDistinct := none
  rawHeaders := some (RawHeaders.array sampleRaw)

def sampleProvider : TrustedHeaderAuthProvider :=
  ⟨privateAddress, js "x-auth-user", js "https://terminal.example.test",
    js "https"⟩

theorem authenticate_verified_sample :
    authenticate sampleLibraries sampleProvider sampleRequest =
        some (js "person") ∧
      Verified sampleLibraries sampleOptions sampleProvider sampleRequest
        (js "person") ∧
      authenticate sampleLibraries sampleProvider { sampleRequest with
        rawHeaders := some (RawHeaders.array (sampleRaw ++
          [some (js "x-AUTH-user"), some (js "somebody")])) } = none := by
  have hprovider : construct sampleLibraries sampleOptions =
      some sampleProvider := rfl
  have hlabel : authenticate sampleLibraries sampleProvider sampleRequest =
      some (js "person") := by
    decide +kernel
  have hverified := authenticate_verified sampleLibraries_documented hprovider
    hlabel
  exact ⟨hlabel, hverified.1,
    hverified.2 sampleRaw (js "x-AUTH-user") (some (js "somebody")) rfl
      (by decide)⟩

end TrustedHeaderAuth
end Server
end FlanTerminal
