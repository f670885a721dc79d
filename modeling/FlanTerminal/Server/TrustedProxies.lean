import FlanTerminal.Foundation.Blocks
import FlanTerminal.Foundation.Decimal
import FlanTerminal.Foundation.JsSet
import FlanTerminal.Foundation.Schema
import FlanTerminal.Server.TrustedHeaderAuth

/-!
# Trusted proxies

The entries of the list of trusted proxies are brought into one form, an
address of a network and a number of bits, and entries of the same form are
kept once.  The libraries that read, print and match addresses are parameters.
-/

namespace FlanTerminal
namespace Server
namespace TrustedProxies

open Foundation
open Foundation.Blocks (clear)
open Shared (trim)
open TrustedHeaderAuth (splitComma)

def SLASH : UInt16 := 47

def MAX_TRUST_PROXY_ENTRIES : Nat := 64

/-!
## Addresses and ranges
-/

inductive Address where
  | ipv4 (n : Fin (2 ^ 32))
  | ipv6 (n : Fin (2 ^ 128))
  deriving DecidableEq

def Address.width : Address -> Nat
  | ipv4 _ => 32
  | ipv6 _ => 128

/-- An address, of which the first bits count. -/
structure Range where
  address : Address
  bits : Nat
  bits_le : bits ≤ address.width
  deriving DecidableEq

def Address.single (a : Address) : Range :=
  ⟨a, a.width, Nat.le_refl _⟩

def isIPv4MappedAddress (n : Fin (2 ^ 128)) : Bool :=
  n.val / 2 ^ 32 == 0xffff

def toIPv4Address (n : Fin (2 ^ 128)) : Fin (2 ^ 32) :=
  ⟨n.val % 2 ^ 32, Nat.mod_lt _ (Nat.two_pow_pos 32)⟩

def Fin.clear {w : Nat} (k : Nat) (n : Fin (2 ^ w)) : Fin (2 ^ w) :=
  ⟨Blocks.clear k n.val, (Blocks.clear_le k n.val).trans_lt n.isLt⟩

def Range.network : Range -> Range
  | ⟨Address.ipv4 n, bits, h⟩ => ⟨Address.ipv4 (Fin.clear (32 - bits) n), bits, h⟩
  | ⟨Address.ipv6 n, bits, h⟩ =>
      ⟨Address.ipv6 (Fin.clear (128 - bits) n), bits, h⟩

/-!
## Entries
-/

/-- What is used of the libraries `ipaddr` and `proxyaddr`; a missing value is
an exception. -/
structure IpAddr where
  parse : JsString -> Option Address
  parseCIDR : JsString -> Option Range
  toString : Address -> JsString
  networkAddressFromCIDR : JsString -> Option Address
  compile : List JsString -> Bool

def cidr (lib : IpAddr) (r : Range) : JsString :=
  lib.toString r.address ++ SLASH :: decimalDigits r.bits

/-- The address and the bits of an entry, with at most one slash. -/
def readEntry (lib : IpAddr) (value : JsString) : Option Range :=
  if SLASH ∉ value then (lib.parse value).map Address.single
  else if 1 < value.count SLASH then none
  else lib.parseCIDR value

/-- An IPv4 range that is written as an IPv6 range. -/
def unmapped (r : Range) : Range :=
  match r with
  | ⟨Address.ipv4 n, bits, h⟩ => ⟨Address.ipv4 n, bits, h⟩
  | ⟨Address.ipv6 n, bits, h⟩ =>
      if isIPv4MappedAddress n && decide (96 ≤ bits) then
        ⟨Address.ipv4 (toIPv4Address n), bits - 96, Nat.sub_le_of_le_add h⟩
      else ⟨Address.ipv6 n, bits, h⟩

def normalizeProxyEntry (lib : IpAddr) (value : JsString) :
    Option JsString := do
  let entry ← readEntry lib value
  let range := unmapped entry
  let network ← lib.networkAddressFromCIDR (cidr lib range)
  pure (lib.toString network ++ SLASH :: decimalDigits range.bits)

inductive ProxyValues where
  | text (s : JsString)
  | list (values : List JsString)

def candidates (values : ProxyValues) : List JsString :=
  match values with
  | ProxyValues.text s => (splitComma s).map fun v => toLowerCase (trim v)
  | ProxyValues.list values => values.map fun v => toLowerCase (trim v)

def parseProxyList (lib : IpAddr) (values : ProxyValues) :
    Option (List JsString) := do
  if (candidates values).length = 0 ∨
      MAX_TRUST_PROXY_ENTRIES < (candidates values).length then none
  else do
    let entries ← (candidates values).mapM (normalizeProxyEntry lib)
    let normalized := JsSet.addAll [] entries
    if lib.compile normalized then some normalized else none

/-!
## What an entry trusts

An IPv4 address and the IPv6 address it is mapped to are one address.
-/

def Address.wide : Address -> Nat
  | ipv4 n => 0xffff * 2 ^ 32 + n.val
  | ipv6 n => n.val

def Range.free (r : Range) : Nat :=
  r.address.width - r.bits

def Range.trusts (r : Range) (client : Address) : Prop :=
  client.wide / 2 ^ r.free = r.address.wide / 2 ^ r.free

/-- What the libraries document: the text of a range is read as that range, and
the network of a range is its first address. -/
structure IpAddr.Documented (lib : IpAddr) : Prop where
  parseCIDR_cidr : forall r, lib.parseCIDR (cidr lib r) = some r
  networkAddressFromCIDR : forall s r, lib.parseCIDR s = some r ->
    lib.networkAddressFromCIDR s = some r.network.address
  toString_no_slash : forall a, SLASH ∉ lib.toString a

/-!
## One form for each range
-/

def Range.Plain (r : Range) : Prop :=
  unmapped r = r

theorem wide_lt (a : Address) : a.wide < 2 ^ 128 := by
  cases a with
  | ipv4 n =>
      have h := n.isLt
      show 0xffff * 2 ^ 32 + n.val < 2 ^ 128
      omega
  | ipv6 n => exact n.isLt

theorem free_le (r : Range) : r.free ≤ 128 := by
  unfold Range.free
  cases r.address with
  | ipv4 n =>
      show 32 - _ ≤ 128
      omega
  | ipv6 n => exact Nat.sub_le _ _

theorem mapped_iff {n : Fin (2 ^ 128)} {bits : Nat} :
    (isIPv4MappedAddress n && decide (96 ≤ bits)) = true <->
      n.val / 2 ^ 32 = 0xffff ∧ 96 ≤ bits := by
  unfold isIPv4MappedAddress
  rw [Bool.and_eq_true, beq_iff_eq, decide_eq_true_iff]

theorem plain_ipv6 {n : Fin (2 ^ 128)} {bits : Nat}
    {h : bits ≤ (Address.ipv6 n).width} :
    Range.Plain ⟨Address.ipv6 n, bits, h⟩ <->
      ¬ (n.val / 2 ^ 32 = 0xffff ∧ 96 ≤ bits) := by
  rw [<- mapped_iff]
  constructor
  · intro hplain hmapped
    have hunmapped : unmapped ⟨Address.ipv6 n, bits, h⟩ =
        ⟨Address.ipv4 (toIPv4Address n), bits - 96, Nat.sub_le_of_le_add h⟩ :=
      if_pos hmapped
    rw [Range.Plain, hunmapped] at hplain
    cases hplain
  · intro hmapped
    exact if_neg hmapped

theorem unmapped_spec (r : Range) : (unmapped r).Plain ∧
    (unmapped r).address.wide = r.address.wide ∧
      (unmapped r).free = r.free := by
  obtain ⟨a, bits, h⟩ := r
  cases a with
  | ipv4 n => exact ⟨rfl, rfl, rfl⟩
  | ipv6 n =>
      have h128 : bits ≤ 128 := h
      unfold unmapped
      dsimp only
      by_cases hmapped : (isIPv4MappedAddress n && decide (96 ≤ bits)) = true
      · rw [if_pos hmapped]
        obtain ⟨hhigh, hbits⟩ := mapped_iff.mp hmapped
        refine ⟨rfl, ?_, ?_⟩
        · show 0xffff * 2 ^ 32 + n.val % 2 ^ 32 = n.val
          omega
        · show 32 - (bits - 96) = 128 - bits
          omega
      · rw [if_neg hmapped]
        refine ⟨plain_ipv6.mpr ?_, rfl, rfl⟩
        rw [<- mapped_iff]
        exact hmapped

theorem network_spec {r : Range} (hplain : r.Plain) : r.network.Plain ∧
    r.network.address.wide = clear r.free r.address.wide ∧
      r.network.free = r.free := by
  obtain ⟨a, bits, h⟩ := r
  cases a with
  | ipv4 n =>
      refine ⟨rfl, ?_, rfl⟩
      exact (Blocks.clear_add (Nat.sub_le 32 bits)).symm
  | ipv6 n =>
      have h128 : bits ≤ 128 := h
      refine ⟨plain_ipv6.mpr fun hmapped => plain_ipv6.mp hplain ?_, rfl, rfl⟩
      have hle : 128 - bits ≤ 32 := by
        have hbits := hmapped.2
        omega
      refine ⟨?_, hmapped.2⟩
      rw [<- Blocks.clear_div_of_le hle]
      exact hmapped.1

theorem plain_ext {r r' : Range} (hr : r.Plain) (hr' : r'.Plain)
    (hwide : r.address.wide = r'.address.wide) (hfree : r.free = r'.free) :
    r = r' := by
  obtain ⟨a, bits, h⟩ := r
  obtain ⟨a', bits', h'⟩ := r'
  cases a with
  | ipv4 n =>
      have hbits : bits ≤ 32 := h
      cases a' with
      | ipv4 m =>
          have hbits' : bits' ≤ 32 := h'
          change 0xffff * 2 ^ 32 + n.val = 0xffff * 2 ^ 32 + m.val at hwide
          change 32 - bits = 32 - bits' at hfree
          have hn : n = m := Fin.ext (Nat.add_left_cancel hwide)
          have hb : bits = bits' := by omega
          subst hn hb
          rfl
      | ipv6 m =>
          have hbits' : bits' ≤ 128 := h'
          change 0xffff * 2 ^ 32 + n.val = m.val at hwide
          change 32 - bits = 128 - bits' at hfree
          have hlt := n.isLt
          exact absurd ⟨by omega, by omega⟩ (plain_ipv6.mp hr')
  | ipv6 n =>
      have hbits : bits ≤ 128 := h
      cases a' with
      | ipv4 m =>
          have hbits' : bits' ≤ 32 := h'
          change n.val = 0xffff * 2 ^ 32 + m.val at hwide
          change 128 - bits = 32 - bits' at hfree
          have hlt := m.isLt
          exact absurd ⟨by omega, by omega⟩ (plain_ipv6.mp hr)
      | ipv6 m =>
          have hbits' : bits' ≤ 128 := h'
          change n.val = m.val at hwide
          change 128 - bits = 128 - bits' at hfree
          have hn : n = m := Fin.ext hwide
          have hb : bits = bits' := by omega
          subst hn hb
          rfl

def Range.normal (r : Range) : Range :=
  (unmapped r).network

theorem normal_spec (r : Range) : r.normal.Plain ∧
    r.normal.address.wide = clear r.free r.address.wide ∧
      r.normal.free = r.free := by
  obtain ⟨hplain, hwide, hfree⟩ := unmapped_spec r
  obtain ⟨hplain', hwide', hfree'⟩ := network_spec hplain
  refine ⟨hplain', ?_, hfree'.trans hfree⟩
  rw [Range.normal, hwide', hwide, hfree]

theorem normal_normal (r : Range) : r.normal.normal = r.normal := by
  obtain ⟨hplain, hwide, hfree⟩ := normal_spec r
  obtain ⟨hplain', hwide', hfree'⟩ := normal_spec r.normal
  refine plain_ext hplain' hplain ?_ hfree'
  rw [hwide', hfree, hwide, Blocks.clear_clear]

theorem trusts_normal (r : Range) (client : Address) :
    r.normal.trusts client <-> r.trusts client := by
  obtain ⟨_, hwide, hfree⟩ := normal_spec r
  unfold Range.trusts
  rw [hwide, hfree, Blocks.clear_div]

/-- Ranges that trust the same clients have the same form. -/
theorem normal_unique {r r' : Range}
    (h : forall client, r.trusts client <-> r'.trusts client) :
    r.normal = r'.normal := by
  obtain ⟨hplain, hwide, hfree⟩ := normal_spec r
  obtain ⟨hplain', hwide', hfree'⟩ := normal_spec r'
  obtain ⟨heq, hclear⟩ := Blocks.block_unique (wide_lt r.address)
    (wide_lt r'.address) (free_le r) (free_le r')
    fun x hx => h (Address.ipv6 ⟨x, hx⟩)
  refine plain_ext hplain hplain' ?_ ?_
  · rw [hwide, hwide', hclear, heq]
  · rw [hfree, hfree', heq]

/-!
## Entries in their own form
-/

section Entries

variable {lib : IpAddr} {value entry : JsString} {r : Range}

theorem not_mem_digits {u : UInt16} (hu : u.toNat < 48 ∨ 57 < u.toNat)
    (n : Nat) : u ∉ decimalDigits n := by
  intro h
  have hrange := decimalDigits_ascii n u h
  omega

theorem slash_not_mem_digits (n : Nat) : SLASH ∉ decimalDigits n :=
  not_mem_digits (Or.inl (by decide)) n

theorem network_bits (r : Range) : r.network.bits = r.bits := by
  obtain ⟨a, bits, h⟩ := r
  cases a with
  | ipv4 n => rfl
  | ipv6 n => rfl

theorem readEntry_cidr (hlib : lib.Documented) (r : Range) :
    readEntry lib (cidr lib r) = some r := by
  have hcount : (cidr lib r).count SLASH = 1 := by
    unfold cidr
    rw [List.count_append, List.count_cons_self,
      List.count_eq_zero.mpr (hlib.toString_no_slash r.address),
      List.count_eq_zero.mpr (slash_not_mem_digits r.bits)]
  have hmem : SLASH ∈ cidr lib r :=
    List.mem_append_right _ List.mem_cons_self
  unfold readEntry
  rw [if_neg (not_not.mpr hmem), if_neg (by rw [hcount]; decide)]
  exact hlib.parseCIDR_cidr r

theorem normalize_read (hlib : lib.Documented)
    (h : readEntry lib value = some r) :
    normalizeProxyEntry lib value = some (cidr lib r.normal) := by
  have hnetwork := hlib.networkAddressFromCIDR _ _
    (hlib.parseCIDR_cidr (unmapped r))
  unfold normalizeProxyEntry
  rw [h]
  show (lib.networkAddressFromCIDR (cidr lib (unmapped r)) >>= fun network =>
    pure (lib.toString network ++
      SLASH :: decimalDigits (unmapped r).bits)) = _
  rw [hnetwork, <- network_bits]
  rfl

theorem read_of_normalize (h : normalizeProxyEntry lib value = some entry) :
    exists r, readEntry lib value = some r := by
  cases hread : readEntry lib value with
  | none =>
      unfold normalizeProxyEntry at h
      rw [hread] at h
      cases h
  | some r => exact ⟨r, rfl⟩

def Trusted (lib : IpAddr) (entries : List JsString) (client : Address) :
    Prop :=
  exists entry, entry ∈ entries ∧ exists r, readEntry lib entry = some r ∧
    r.trusts client

theorem trusted_normalize (hlib : lib.Documented)
    (h : normalizeProxyEntry lib value = some entry) (client : Address) :
    (exists r, readEntry lib entry = some r ∧ r.trusts client) <->
      exists r, readEntry lib value = some r ∧ r.trusts client := by
  obtain ⟨r, hread⟩ := read_of_normalize h
  have hentry := normalize_read hlib hread
  rw [h] at hentry
  rw [Option.some.inj hentry, readEntry_cidr hlib, hread]
  constructor
  · intro htrusted
    obtain ⟨r', heq, htrusts⟩ := htrusted
    cases heq
    exact ⟨r, rfl, (trusts_normal r client).mp htrusts⟩
  · intro htrusted
    obtain ⟨r', heq, htrusts⟩ := htrusted
    cases heq
    exact ⟨r.normal, rfl, (trusts_normal r client).mpr htrusts⟩

theorem trusted_each (hlib : lib.Documented) {values entries : List JsString}
    (h : List.Forall₂ (fun value entry =>
      normalizeProxyEntry lib value = some entry) values entries)
    (client : Address) :
    Trusted lib entries client <-> Trusted lib values client := by
  unfold Trusted
  induction h with
  | nil => simp
  | cons hfirst hrest ih =>
      rw [List.exists_mem_cons_iff, List.exists_mem_cons_iff, ih,
        trusted_normalize hlib hfirst client]

theorem parseProxyList_some {values : ProxyValues} {result : List JsString}
    (h : parseProxyList lib values = some result) : exists entries,
      (candidates values).mapM (normalizeProxyEntry lib) = some entries ∧
        result = JsSet.addAll [] entries := by
  unfold parseProxyList at h
  split at h
  · cases h
  · cases hentries : (candidates values).mapM (normalizeProxyEntry lib) with
    | none =>
        rw [hentries] at h
        cases h
    | some entries =>
        rw [hentries, Option.bind_eq_bind, Option.bind_some] at h
        dsimp only at h
        split at h
        · exact ⟨entries, rfl, (Option.some.inj h).symm⟩
        · cases h

end Entries

/-- An entry in its own form trusts the same clients and stays as it is,
entries for the same clients have one form, and a list trusts what its entries
trust. -/
theorem normalizeProxyEntry_keeps_meaning {lib : IpAddr}
    (hlib : lib.Documented) :
    (forall value entry, normalizeProxyEntry lib value = some entry ->
      normalizeProxyEntry lib entry = some entry ∧
      exists r r', readEntry lib value = some r ∧
        readEntry lib entry = some r' ∧
        forall client, r'.trusts client <-> r.trusts client) ∧
    (forall value value' entry entry' r r',
      normalizeProxyEntry lib value = some entry ->
      normalizeProxyEntry lib value' = some entry' ->
      readEntry lib value = some r -> readEntry lib value' = some r' ->
      (forall client, r.trusts client <-> r'.trusts client) ->
      entry = entry') ∧
    (forall values result, parseProxyList lib values = some result ->
      forall client, Trusted lib result client <->
        Trusted lib (candidates values) client) := by
  refine ⟨?_, ?_, ?_⟩
  · intro value entry h
    obtain ⟨r, hread⟩ := read_of_normalize h
    have hentry := normalize_read hlib hread
    rw [h] at hentry
    have hagain := readEntry_cidr hlib r.normal
    rw [<- Option.some.inj hentry] at hagain
    refine ⟨?_, r, r.normal, hread, hagain, trusts_normal r⟩
    rw [normalize_read hlib hagain, normal_normal, <- hentry]
  · intro value value' entry entry' r r' h h' hread hread' htrusts
    have hentry := normalize_read hlib hread
    have hentry' := normalize_read hlib hread'
    rw [h] at hentry
    rw [h', <- normal_unique htrusts, <- hentry] at hentry'
    exact (Option.some.inj hentry').symm
  · intro values result h client
    obtain ⟨entries, hentries, hresult⟩ := parseProxyList_some h
    rw [<- trusted_each hlib (mapM_some.mp hentries) client, hresult]
    unfold Trusted
    simp only [JsSet.mem_addAll, List.not_mem_nil, false_or]

/-!
## Addresses as texts

A library that writes IPv4 addresses with dots.  What it reads is what it
writes.
-/

section Sample

def DOT : UInt16 := 46

def dotted (n : Nat) : JsString :=
  decimalDigits (n / 2 ^ 24) ++ DOT ::
    (decimalDigits (n / 2 ^ 16 % 256) ++ DOT ::
      (decimalDigits (n / 2 ^ 8 % 256) ++ DOT :: decimalDigits (n % 256)))

def sampleText : Address -> JsString
  | Address.ipv4 n => dotted n.val
  | Address.ipv6 n => 58 :: decimalDigits n.val

def sampleCidr (r : Range) : JsString :=
  sampleText r.address ++ SLASH :: decimalDigits r.bits

open Classical in
noncomputable def sampleIpAddr : IpAddr where
  parse s :=
    if h : exists a, s = sampleText a then some h.choose else none
  parseCIDR s :=
    if h : exists r, s = sampleCidr r then some h.choose else none
  toString := sampleText
  networkAddressFromCIDR s :=
    if h : exists r, s = sampleCidr r then some h.choose.network.address
    else none
  compile _ := true

theorem split_unique {u : UInt16} {a a' b b' : JsString} (ha : u ∉ a)
    (ha' : u ∉ a') (h : a ++ u :: b = a' ++ u :: b') : a = a' ∧ b = b' := by
  induction a generalizing a' with
  | nil =>
      cases a' with
      | nil => exact ⟨rfl, (List.cons.inj h).2⟩
      | cons y a' =>
          rw [(List.cons.inj h).1] at ha'
          exact absurd List.mem_cons_self ha'
  | cons x a ih =>
      cases a' with
      | nil =>
          rw [<- (List.cons.inj h).1] at ha
          exact absurd List.mem_cons_self ha
      | cons y a' =>
          obtain ⟨hx, htail⟩ := List.cons.inj h
          obtain ⟨heq, hb⟩ := ih (fun hu => ha (List.mem_cons_of_mem _ hu))
            (fun hu => ha' (List.mem_cons_of_mem _ hu)) htail
          exact ⟨by rw [hx, heq], hb⟩

theorem dotted_injective {n m : Nat} (h : dotted n = dotted m) : n = m := by
  have hdot := @not_mem_digits DOT (Or.inl (by decide))
  obtain ⟨h1, h⟩ := split_unique (hdot _) (hdot _) h
  obtain ⟨h2, h⟩ := split_unique (hdot _) (hdot _) h
  obtain ⟨h3, h4⟩ := split_unique (hdot _) (hdot _) h
  have h1 := decimalDigits_injective h1
  have h2 := decimalDigits_injective h2
  have h3 := decimalDigits_injective h3
  have h4 := decimalDigits_injective h4
  omega

theorem not_mem_dotted {u : UInt16} (hu : u.toNat < 48 ∨ 57 < u.toNat)
    (hdot : u ≠ DOT) (n : Nat) : u ∉ dotted n := by
  unfold dotted
  simp only [List.mem_append, List.mem_cons, not_or]
  exact ⟨not_mem_digits hu _, hdot, not_mem_digits hu _, hdot,
    not_mem_digits hu _, hdot, not_mem_digits hu _⟩

theorem sampleText_injective {a a' : Address}
    (h : sampleText a = sampleText a') : a = a' := by
  have hcolon := @not_mem_dotted 58 (Or.inr (by decide)) (by decide)
  cases a with
  | ipv4 n =>
      cases a' with
      | ipv4 m => exact congrArg Address.ipv4 (Fin.ext (dotted_injective h))
      | ipv6 m =>
          change dotted n.val = 58 :: decimalDigits m.val at h
          exact absurd (h ▸ List.mem_cons_self) (hcolon n.val)
  | ipv6 n =>
      cases a' with
      | ipv4 m =>
          change 58 :: decimalDigits n.val = dotted m.val at h
          exact absurd (h ▸ List.mem_cons_self) (hcolon m.val)
      | ipv6 m =>
          have hdigits := decimalDigits_injective (List.cons.inj h).2
          exact congrArg Address.ipv6 (Fin.ext hdigits)

theorem slash_not_mem_sampleText (a : Address) : SLASH ∉ sampleText a := by
  cases a with
  | ipv4 n => exact not_mem_dotted (Or.inl (by decide)) (by decide) n.val
  | ipv6 n =>
      intro h
      rcases List.mem_cons.mp h with h | h
      · exact absurd h (by decide)
      · exact slash_not_mem_digits n.val h

theorem sampleCidr_injective {r r' : Range}
    (h : sampleCidr r = sampleCidr r') : r = r' := by
  obtain ⟨htext, hdigits⟩ := split_unique
    (slash_not_mem_sampleText r.address) (slash_not_mem_sampleText r'.address) h
  obtain ⟨a, bits, hle⟩ := r
  obtain ⟨a', bits', hle'⟩ := r'
  have ha : a = a' := sampleText_injective htext
  have hbits : bits = bits' := decimalDigits_injective hdigits
  subst ha hbits
  rfl

open Classical in
theorem sampleIpAddr_documented : sampleIpAddr.Documented where
  parseCIDR_cidr r := by
    have hread : exists r', sampleCidr r = sampleCidr r' := ⟨r, rfl⟩
    have hchosen : hread.choose = r :=
      (sampleCidr_injective hread.choose_spec).symm
    show (if h : exists r', sampleCidr r = sampleCidr r' then some h.choose
      else none) = some r
    rw [dif_pos hread, hchosen]
  networkAddressFromCIDR s r h := by
    change (if h : exists r', s = sampleCidr r' then some h.choose
      else none) = some r at h
    show (if h : exists r', s = sampleCidr r' then
      some h.choose.network.address else none) = _
    split at h
    · rename_i hread
      rw [dif_pos hread, Option.some.inj h]
    · cases h
  toString_no_slash := slash_not_mem_sampleText

def sampleRange : Range :=
  ⟨Address.ipv4 ⟨167838211, by decide⟩, 8, by decide⟩

theorem normalizeProxyEntry_keeps_meaning_sample :
    normalizeProxyEntry sampleIpAddr (js "10.1.2.3/8") =
      some (js "10.0.0.0/8") ∧
    exists r r', readEntry sampleIpAddr (js "10.1.2.3/8") = some r ∧
      readEntry sampleIpAddr (js "10.0.0.0/8") = some r' ∧
      forall client, r'.trusts client <-> r.trusts client := by
  have hvalue : cidr sampleIpAddr sampleRange = js "10.1.2.3/8" := by
    decide +kernel
  have hentry : cidr sampleIpAddr sampleRange.normal = js "10.0.0.0/8" := by
    decide +kernel
  have hread := readEntry_cidr sampleIpAddr_documented sampleRange
  have hnormal := normalize_read sampleIpAddr_documented hread
  rw [hvalue, hentry] at hnormal
  exact ⟨hnormal, ((normalizeProxyEntry_keeps_meaning
    sampleIpAddr_documented).1 _ _ hnormal).2⟩

end Sample

end TrustedProxies
end Server
end FlanTerminal
