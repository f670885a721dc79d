import Mathlib.Data.List.Induction
import FlanTerminal.Server.RateLimiter

/-!
# What the login rate limiter lets through

Both buckets that a login needs are token buckets, so over any stretch of calls
no more logins are let through than the capacity and the refill allow.  The
bucket of an address is forgotten when the address is reset, or when it is the
one whose last call lies furthest back and room is needed.
-/

namespace FlanTerminal
namespace Server
namespace RateLimiter

open Foundation
open TokenBucket (Level Bounded Account refill spend)

def BucketConfig.perMillisecond (config : BucketConfig) :
    TokenBucket.Config ℚ :=
  ⟨config.capacity, config.refillPerSecond / 1000⟩

def Bucket.level (bucket : Bucket) : Level ℚ :=
  ⟨bucket.tokens, bucket.updatedAt⟩

theorem level_refillBucket (bucket : Bucket) (config : BucketConfig)
    (now : ℚ) : (refillBucket bucket config now).level =
      refill config.perMillisecond now bucket.level := by
  unfold refillBucket refill Bucket.level BucketConfig.perMillisecond
  dsimp only
  rw [div_mul_eq_mul_div, mul_div_assoc]

/-!
## The eviction
-/

theorem oldest_spec (entries : JsMap JsString Bucket) :
    (entries = [] ∧ oldest entries = none) ∨
      exists selected, oldest entries = some selected ∧
        selected ∈ entries ∧
        forall entry, entry ∈ entries -> selected.2.usedAt ≤ entry.2.usedAt := by
  induction entries using List.reverseRecOn with
  | nil => exact Or.inl ⟨rfl, rfl⟩
  | append_singleton entries entry ih =>
      right
      have hfirst : oldest entries = none ->
          oldest (entries ++ [entry]) = some entry := by
        intro h
        unfold oldest at h ⊢
        rw [List.foldl_append, h]
        rfl
      have hnext : forall best, oldest entries = some best ->
          oldest (entries ++ [entry]) =
            if older entry best then some entry else some best := by
        intro best h
        unfold oldest at h ⊢
        rw [List.foldl_append, h]
        rfl
      rcases ih with ⟨hnil, hnone⟩ | ⟨best, hbest, hmem, hleast⟩
      · rw [hfirst hnone, hnil]
        refine ⟨entry, rfl, List.mem_cons_self, ?_⟩
        intro other hother
        rw [List.mem_singleton.mp hother]
      · rw [hnext best hbest]
        split
        · rename_i holder
          have hle : entry.2.usedAt ≤ best.2.usedAt := by
            rcases Bool.or_eq_true_iff.mp holder with hlt | hsame
            · exact Nat.le_of_lt (of_decide_eq_true hlt)
            · exact Nat.le_of_eq
                (of_decide_eq_true (Bool.and_eq_true_iff.mp hsame).1)
          refine ⟨entry, rfl, List.mem_append_right _
            (List.mem_singleton.mpr rfl), ?_⟩
          intro other hother
          rcases List.mem_append.mp hother with hother | hother
          · exact Nat.le_trans hle (hleast other hother)
          · rw [List.mem_singleton.mp hother]
        · rename_i holder
          have hle : best.2.usedAt ≤ entry.2.usedAt := by
            rcases Nat.lt_or_ge entry.2.usedAt best.2.usedAt with hlt | hge
            · exact absurd (Bool.or_eq_true_iff.mpr
                (Or.inl (decide_eq_true hlt))) holder
            · exact hge
          refine ⟨best, rfl, List.mem_append_left _ hmem, ?_⟩
          intro other hother
          rcases List.mem_append.mp hother with hother | hother
          · exact hleast other hother
          · rw [List.mem_singleton.mp hother]
            exact hle

/-!
## What holds of every state
-/

/-- The last call for a key lies before the last call for another one. -/
def UsedBefore (log : List JsString) (key key' : JsString) : Prop :=
  exists front back, log = front ++ key' :: back ∧ key ∉ back

structure Inv (options : LoginRateLimiterOptions) (log : List JsString)
    (s : State) : Prop where
  distinct : s.addresses.Distinct
  size : (s.addresses.length : Int) ≤ options.maxAddresses
  global : Bounded options.global.perMillisecond s.global.level
  bounded : forall key bucket, s.addresses.get key = some bucket ->
    Bounded options.address.perMillisecond bucket.level
  clock : s.global.updatedAt ≤ s.lastNow
  clocks : forall key bucket, s.addresses.get key = some bucket ->
    bucket.updatedAt ≤ s.lastNow
  sequence : forall key bucket, s.addresses.get key = some bucket ->
    bucket.usedAt ≤ s.sequence
  apart : forall key bucket key' bucket', s.addresses.get key = some bucket ->
    s.addresses.get key' = some bucket' -> key ≠ key' ->
    bucket.usedAt ≠ bucket'.usedAt
  order : forall key bucket key' bucket', s.addresses.get key = some bucket ->
    s.addresses.get key' = some bucket' -> bucket.usedAt < bucket'.usedAt ->
    UsedBefore log key key'

section Calls

variable {options : LoginRateLimiterOptions}
variable {process : JsString -> Option JsString}
variable {log : List JsString} {s : State}

theorem valid_cases (h : validOptions options = true) :
    0 < options.global.capacity ∧ 0 ≤ options.global.refillPerSecond ∧
      0 < options.address.capacity ∧ 0 ≤ options.address.refillPerSecond ∧
      1 ≤ options.maxAddresses := by
  simp only [validOptions, validateBucket, Bool.and_eq_true,
    decide_eq_true_eq] at h
  exact ⟨h.1.1.1, h.1.1.2, h.1.2.1, h.1.2.2, h.2.1⟩

theorem rate_nonneg {config : BucketConfig}
    (h : 0 ≤ config.refillPerSecond) : 0 ≤ config.perMillisecond.rate :=
  div_nonneg h (by norm_num)

theorem le_clamped (lastNow : ℚ) (reading : Option ℚ) :
    lastNow ≤ clamped lastNow reading := by
  cases reading with
  | none => exact le_refl _
  | some value => exact le_max_left _ _

theorem inv_create {reading : Option ℚ}
    (h : create options reading = some s) : Inv options [] s := by
  unfold create at h
  split at h
  · rename_i hvalid
    rcases valid_cases hvalid with ⟨hglobal, _, _, _, hmax⟩
    cases h
    exact ⟨JsMap.distinct_nil, by
        show ((0 : Nat) : Int) ≤ _
        omega,
      ⟨le_of_lt hglobal, le_refl _⟩, fun _ _ h => (nomatch h), le_refl _,
      fun _ _ h => (nomatch h), fun _ _ h => (nomatch h),
      fun _ _ _ _ h => (nomatch h), fun _ _ _ _ h => (nomatch h)⟩
  · cases h

/-!
## One call
-/

/-- The entries that a call for a key does not drop. -/
def kept (options : LoginRateLimiterOptions) (key : JsString)
    (addresses : JsMap JsString Bucket) : JsMap JsString Bucket :=
  if addresses.get key = none ∧ options.maxAddresses ≤ addresses.length then
    evictOldest addresses
  else addresses

def foundLevel (options : LoginRateLimiterOptions) (now : ℚ) (key : JsString)
    (s : State) : Level ℚ :=
  match s.addresses.get key with
  | some bucket => bucket.level
  | none => ⟨options.address.capacity, now⟩

structure Called (options : LoginRateLimiterOptions) (key : JsString)
    (now : ℚ) (granted : Bool) (s s' : State) : Prop where
  lastNow : s'.lastNow = now
  global : s'.global.level =
    spend granted (refill options.global.perMillisecond now s.global.level)
  bucket : exists bucket, s'.addresses.get key = some bucket ∧
    bucket.usedAt = s'.sequence ∧ bucket.level = spend granted
      (refill options.address.perMillisecond now
        (foundLevel options now key s))
  sequence : s.sequence < s'.sequence
  others : forall other, other ≠ key ->
    s'.addresses.get other = (kept options key s.addresses).get other
  enough : granted = true ->
    1 ≤ (refill options.global.perMillisecond now s.global.level).tokens ∧
      1 ≤ (refill options.address.perMillisecond now
        (foundLevel options now key s)).tokens
  tidy : s.addresses.Distinct -> 1 ≤ options.maxAddresses ->
    (s.addresses.length : Int) ≤ options.maxAddresses ->
    s'.addresses.Distinct ∧
      (s'.addresses.length : Int) ≤ options.maxAddresses

structure Found (options : LoginRateLimiterOptions) (key : JsString)
    (now : ℚ) (s : State) (found : State × Bucket) : Prop where
  lastNow : found.1.lastNow = now
  global : found.1.global = s.global
  level : found.2.level = foundLevel options now key s
  sequence : s.sequence ≤ found.1.sequence
  others : forall other, other ≠ key ->
    found.1.addresses.get other = (kept options key s.addresses).get other
  present : found.1.addresses.get key = some found.2
  tidy : s.addresses.Distinct -> 1 ≤ options.maxAddresses ->
    (s.addresses.length : Int) ≤ options.maxAddresses ->
    found.1.addresses.Distinct ∧
      (found.1.addresses.length : Int) ≤ options.maxAddresses

theorem distinct_evictOldest {addresses : JsMap JsString Bucket}
    (h : addresses.Distinct) : (evictOldest addresses).Distinct := by
  unfold evictOldest
  split
  · exact h
  · exact JsMap.distinct_delete h _

theorem get_evictOldest (addresses : JsMap JsString Bucket)
    (key : JsString) : (evictOldest addresses).get key = addresses.get key ∨
      (evictOldest addresses).get key = none := by
  unfold evictOldest
  split
  · exact Or.inl rfl
  · rw [JsMap.get_delete]
    split
    · exact Or.inr rfl
    · exact Or.inl rfl

theorem length_evictOldest {addresses : JsMap JsString Bucket}
    (hdistinct : addresses.Distinct) (h : 1 ≤ addresses.length) :
    (evictOldest addresses).length + 1 = addresses.length := by
  unfold evictOldest
  rcases oldest_spec addresses with ⟨hnil, _⟩ | ⟨selected, hsome, hmem, _⟩
  · rw [hnil] at h
    cases h
  · rw [hsome]
    exact JsMap.length_delete_of_get hdistinct
      (JsMap.get_of_mem hdistinct hmem)

theorem tidy_new {addresses : JsMap JsString Bucket} {key : JsString}
    {bucket : Bucket} (hdistinct : addresses.Distinct)
    (hmax : 1 ≤ options.maxAddresses)
    (hsize : (addresses.length : Int) ≤ options.maxAddresses)
    (hnew : addresses.get key = none) :
    ((if options.maxAddresses ≤ addresses.length then evictOldest addresses
      else addresses).set key bucket).Distinct ∧
    (((if options.maxAddresses ≤ addresses.length then evictOldest addresses
      else addresses).set key bucket).length : Int) ≤
        options.maxAddresses := by
  split
  · rename_i hfull
    have hlength := length_evictOldest hdistinct (by omega)
    have habsent : (evictOldest addresses).get key = none := by
      rcases get_evictOldest addresses key with hsame | hnone
      · rw [hsame, hnew]
      · exact hnone
    refine ⟨JsMap.distinct_set (distinct_evictOldest hdistinct) _ _, ?_⟩
    rw [JsMap.set_new habsent, List.length_append, List.length_singleton]
    omega
  · refine ⟨JsMap.distinct_set hdistinct _ _, ?_⟩
    rw [JsMap.set_new hnew, List.length_append, List.length_singleton]
    omega

theorem found_tracked (key : JsString) (now : ℚ) :
    Found options key now s
      (tracked options key now { s with lastNow := now }) := by
  unfold tracked
  cases hget : s.addresses.get key with
  | some bucket =>
      have hkept : kept options key s.addresses = s.addresses := by
        rw [kept, hget]
        exact if_neg fun h => (nomatch h.1)
      refine ⟨rfl, rfl, ?_, le_refl _, ?_, hget, fun h _ h' => ⟨h, h'⟩⟩
      · rw [foundLevel, hget]
      · intro other _
        rw [hkept]
  | none =>
      have hkept : kept options key s.addresses =
          if options.maxAddresses ≤ s.addresses.length then
            evictOldest s.addresses
          else s.addresses := by
        rw [kept, hget]
        simp only [true_and]
      refine ⟨rfl, rfl, ?_, Nat.le_succ _, ?_, ?_, ?_⟩
      · rw [foundLevel, hget]
        rfl
      · intro other hother
        rw [hkept]
        dsimp only
        rw [JsMap.get_set, if_neg (Ne.symm hother)]
      · dsimp only
        rw [JsMap.get_set, if_pos rfl]
      · exact fun hdistinct hmax hsize =>
          tidy_new hdistinct hmax hsize hget

theorem called_take {key : JsString} {now : ℚ} {found : State × Bucket}
    (hfound : Found options key now s found) :
    Called options key now (take options key now found).2 s
      (take options key now found).1 := by
  have hglobal : (refillBucket found.1.global options.global now).level =
      refill options.global.perMillisecond now s.global.level := by
    rw [level_refillBucket, hfound.global]
  have haddress : (refillBucket found.2 options.address now).level =
      refill options.address.perMillisecond now
        (foundLevel options now key s) := by
    rw [level_refillBucket, hfound.level]
  have hothers : forall bucket other, other ≠ key ->
      (found.1.addresses.set key bucket).get other =
        (kept options key s.addresses).get other := by
    intro bucket other hother
    rw [JsMap.get_set, if_neg (Ne.symm hother)]
    exact hfound.others other hother
  have hself : forall bucket,
      (found.1.addresses.set key bucket).get key = some bucket := by
    intro bucket
    rw [JsMap.get_set, if_pos rfl]
  have htidy : forall bucket, s.addresses.Distinct ->
      1 ≤ options.maxAddresses ->
      (s.addresses.length : Int) ≤ options.maxAddresses ->
      (found.1.addresses.set key bucket).Distinct ∧
        ((found.1.addresses.set key bucket).length : Int) ≤
          options.maxAddresses := by
    intro bucket hdistinct hmax hsize
    rcases hfound.tidy hdistinct hmax hsize with ⟨hdistinct', hsize'⟩
    rw [JsMap.length_set_of_get hfound.present]
    exact ⟨JsMap.distinct_set hdistinct' _ _, hsize'⟩
  unfold take
  dsimp only
  split
  · exact ⟨hfound.lastNow, hglobal, ⟨_, hself _, rfl, haddress⟩,
      Nat.lt_succ_of_le hfound.sequence, hothers _, fun h => (nomatch h),
      htidy _⟩
  · rename_i hgranted
    have henough := not_or.mp hgranted
    refine ⟨hfound.lastNow, ?_, ⟨_, hself _, rfl, ?_⟩,
      Nat.lt_succ_of_le hfound.sequence, hothers _, ?_, htidy _⟩
    · rw [← hglobal]
      rfl
    · rw [← haddress]
      rfl
    · intro _
      rw [← hglobal, ← haddress]
      exact ⟨not_lt.mp henough.1, not_lt.mp henough.2⟩

theorem called (reading : Option ℚ) (address : Option JsString) (s : State) :
    Called options (normalizeAddress process address)
      (clamped s.lastNow reading)
      (consume options process reading address s).2 s
      (consume options process reading address s).1 :=
  called_take (found_tracked _ _)

/-- What a call drops is the entry used least recently. -/
theorem kept_cases (hdistinct : s.addresses.Distinct) (key other : JsString) :
    (kept options key s.addresses).get other = s.addresses.get other ∨
      ((kept options key s.addresses).get other = none ∧
        exists bucket, s.addresses.get other = some bucket ∧
          forall key' bucket', s.addresses.get key' = some bucket' ->
            bucket.usedAt ≤ bucket'.usedAt) := by
  unfold kept
  split
  · unfold evictOldest
    rcases oldest_spec s.addresses with ⟨_, hnone⟩ |
      ⟨selected, hsome, hmem, hleast⟩
    · rw [hnone]
      exact Or.inl rfl
    · rw [hsome]
      dsimp only
      rw [JsMap.get_delete]
      split
      · rename_i heq
        refine Or.inr ⟨rfl, selected.2, ?_, ?_⟩
        · rw [← heq]
          exact JsMap.get_of_mem hdistinct hmem
        · intro key' bucket' hget
          exact hleast (key', bucket') (JsMap.mem_of_get hget)
      · exact Or.inl rfl
  · exact Or.inl rfl

theorem kept_some {key other : JsString} {bucket : Bucket}
    (hdistinct : s.addresses.Distinct)
    (h : (kept options key s.addresses).get other = some bucket) :
    s.addresses.get other = some bucket := by
  rcases @kept_cases options s hdistinct key other with
    hsame | ⟨hnone, _⟩
  · rw [← hsame, h]
  · rw [hnone] at h
    cases h

theorem UsedBefore.snoc {key key' : JsString} (h : UsedBefore log key key')
    {last : JsString} (hne : key ≠ last) :
    UsedBefore (log ++ [last]) key key' := by
  rcases h with ⟨front, back, hlog, hback⟩
  refine ⟨front, back ++ [last], ?_, ?_⟩
  · rw [hlog, List.append_assoc]
    rfl
  · intro hmem
    rcases List.mem_append.mp hmem with hmem | hmem
    · exact hback hmem
    · exact hne (List.mem_singleton.mp hmem)

theorem bounded_found (hinv : Inv options log s)
    (hcapacity : 0 < options.address.capacity) (now : ℚ) (key : JsString) :
    0 ≤ (foundLevel options now key s).tokens ∧
      (foundLevel options now key s).tokens ≤ options.address.capacity := by
  unfold foundLevel
  split
  · rename_i bucket hget
    have hbounded := hinv.bounded key bucket hget
    exact ⟨hbounded.nonneg, hbounded.le⟩
  · exact ⟨le_of_lt hcapacity, le_refl _⟩

theorem Inv.called (hvalid : validOptions options = true)
    (hinv : Inv options log s) {key : JsString} {now : ℚ} {granted : Bool}
    {s' : State} (h : Called options key now granted s s')
    (hnow : s.lastNow ≤ now) : Inv options (log ++ [key]) s' := by
  rcases valid_cases hvalid with
    ⟨hglobal, hglobalRate, haddress, haddressRate, hmax⟩
  rcases h.tidy hinv.distinct hmax hinv.size with ⟨hdistinct, hsize⟩
  rcases h.bucket with ⟨bucket, hget, hused, hlevel⟩
  have hother : forall other found, other ≠ key ->
      s'.addresses.get other = some found ->
      s.addresses.get other = some found := by
    intro other found hne hfound
    rw [h.others other hne] at hfound
    exact kept_some hinv.distinct hfound
  have hself : forall found, s'.addresses.get key = some found ->
      found = bucket := by
    intro found hfound
    rw [hget] at hfound
    exact (Option.some.inj hfound).symm
  refine ⟨hdistinct, hsize, ?_, ?_, ?_, ?_, ?_, ?_, ?_⟩
  · rw [h.global]
    exact (Bounded.refill (rate_nonneg hglobalRate) (le_of_lt hglobal)
      hinv.global.nonneg).spend fun hg => (h.enough hg).1
  · intro other found hfound
    by_cases hne : other = key
    · rw [hne] at hfound
      rw [hself found hfound, hlevel]
      exact (Bounded.refill (rate_nonneg haddressRate) (le_of_lt haddress)
        (bounded_found hinv haddress now key).1).spend
          fun hg => (h.enough hg).2
    · exact hinv.bounded other found (hother other found hne hfound)
  · have hlevelGlobal := congrArg Level.updatedAt h.global
    rw [TokenBucket.spend_updatedAt, TokenBucket.refill_updatedAt]
      at hlevelGlobal
    rw [h.lastNow]
    exact le_of_eq hlevelGlobal
  · intro other found hfound
    rw [h.lastNow]
    by_cases hne : other = key
    · rw [hne] at hfound
      have hupdated := congrArg Level.updatedAt hlevel
      rw [TokenBucket.spend_updatedAt, TokenBucket.refill_updatedAt]
        at hupdated
      rw [hself found hfound]
      exact le_of_eq hupdated
    · exact le_trans (hinv.clocks other found
        (hother other found hne hfound)) hnow
  · intro other found hfound
    by_cases hne : other = key
    · rw [hne] at hfound
      rw [hself found hfound, hused]
    · exact Nat.le_trans (hinv.sequence other found
        (hother other found hne hfound)) (Nat.le_of_lt h.sequence)
  · -- The bucket that was used now is apart from all the others.
    have hapart : forall other found, other ≠ key ->
        s'.addresses.get other = some found ->
        found.usedAt < bucket.usedAt := by
      intro other found hne hfound
      rw [hused]
      exact Nat.lt_of_le_of_lt (hinv.sequence other found
        (hother other found hne hfound)) h.sequence
    intro left found right found' hleft hright hne
    by_cases hl : left = key
    · have hr : right ≠ key := fun heq => hne (hl.trans heq.symm)
      rw [hl] at hleft
      rw [hself found hleft]
      exact Nat.ne_of_gt (hapart right found' hr hright)
    · by_cases hr : right = key
      · rw [hr] at hright
        rw [hself found' hright]
        exact Nat.ne_of_lt (hapart left found hl hleft)
      · exact hinv.apart left found right found' (hother left found hl hleft)
          (hother right found' hr hright) hne
  · intro left found right found' hleft hright hlt
    by_cases hl : left = key
    · exfalso
      rw [hl] at hleft
      rw [hself found hleft, hused] at hlt
      by_cases hr : right = key
      · rw [hr] at hright
        rw [hself found' hright, hused] at hlt
        exact Nat.lt_irrefl _ hlt
      · have hle := hinv.sequence right found' (hother right found' hr hright)
        have hseq := h.sequence
        omega
    · by_cases hr : right = key
      · exact ⟨log, [], by rw [hr], fun h => (nomatch h)⟩
      · exact (hinv.order left found right found' (hother left found hl hleft)
          (hother right found' hr hright) hlt).snoc hl

theorem Inv.reset (hinv : Inv options log s) (address : Option JsString) :
    Inv options log (resetAddress process address s) := by
  have hother : forall other found,
      (resetAddress process address s).addresses.get other = some found ->
      s.addresses.get other = some found := by
    intro other found hfound
    unfold resetAddress at hfound
    rw [JsMap.get_delete] at hfound
    split at hfound
    · cases hfound
    · exact hfound
  have hle := JsMap.length_delete_le s.addresses
    (normalizeAddress process address)
  refine ⟨JsMap.distinct_delete hinv.distinct _, ?_, hinv.global, ?_,
    hinv.clock, ?_, ?_, ?_, ?_⟩
  · have hsize := hinv.size
    show ((s.addresses.delete _).length : Int) ≤ _
    omega
  · exact fun other found hfound =>
      hinv.bounded other found (hother other found hfound)
  · exact fun other found hfound =>
      hinv.clocks other found (hother other found hfound)
  · exact fun other found hfound =>
      hinv.sequence other found (hother other found hfound)
  · exact fun left found right found' hleft hright =>
      hinv.apart left found right found' (hother left found hleft)
        (hother right found' hright)
  · exact fun left found right found' hleft hright =>
      hinv.order left found right found' (hother left found hleft)
        (hother right found' hright)

theorem consumed_cons (e : Event) (events : List Event) :
    consumed process (e :: events) =
      consumed process [e] ++ consumed process events :=
  List.filterMap_append (l := [e])

theorem Inv.step (hvalid : validOptions options = true)
    (hinv : Inv options log s) (e : Event) :
    Inv options (log ++ consumed process [e])
      (RateLimiter.step options process s e) := by
  cases e with
  | consume reading address =>
      exact hinv.called hvalid (RateLimiter.called reading address s)
        (le_clamped _ _)
  | resetAddress address =>
      have hreset := @Inv.reset options process log s hinv address
      rw [← List.append_nil log] at hreset
      exact hreset

theorem Inv.run (hvalid : validOptions options = true)
    (hinv : Inv options log s) (events : List Event) :
    Inv options (log ++ consumed process events)
      (RateLimiter.run options process s events) := by
  induction events generalizing log s with
  | nil =>
      rw [show consumed process [] = [] from rfl, List.append_nil]
      exact hinv
  | cons e events ih =>
      rw [consumed_cons, ← List.append_assoc]
      exact ih (hinv.step hvalid e)

/-!
## Stretches of a run
-/

theorem le_lastNow_step (e : Event) :
    s.lastNow ≤ (step options process s e).lastNow := by
  cases e with
  | consume reading address =>
      show s.lastNow ≤ (consume options process reading address s).1.lastNow
      rw [(called reading address s).lastNow]
      exact le_clamped _ _
  | resetAddress address => exact le_refl _

theorem flow_eq {config : BucketConfig} (elapsed : ℚ) :
    config.perMillisecond.capacity + config.perMillisecond.rate * elapsed =
      config.capacity + config.refillPerSecond * (elapsed / 1000) := by
  show config.capacity + config.refillPerSecond / 1000 * elapsed = _
  rw [div_mul_eq_mul_div, mul_div_assoc]

/-- What a bucket has given since `start`, if it was looked at. -/
def Given (config : BucketConfig) (start : ℚ) (taken : Nat)
    (level : Level ℚ) : Prop :=
  taken = 0 ∨ Account config.perMillisecond start taken level

theorem Given.next {config : BucketConfig} {start now : ℚ} {taken : Nat}
    {level : Level ℚ} (h : Given config start taken level)
    (hrate : 0 ≤ config.refillPerSecond) (hstart : start ≤ now)
    (hnow : level.updatedAt ≤ now) (granted : Bool) :
    Given config start (taken + if granted then 1 else 0)
      (spend granted (refill config.perMillisecond now level)) := by
  right
  apply Account.spend
  rcases h with hnone | haccount
  · rw [hnone]
    exact TokenBucket.account_first (rate_nonneg hrate) hstart
  · exact haccount.refill hnow

theorem Given.bound {config : BucketConfig} {start now : ℚ} {taken : Nat}
    {level : Level ℚ} (h : Given config start taken level)
    (hcapacity : 0 ≤ config.capacity)
    (hrate : 0 ≤ config.refillPerSecond) (htokens : 0 ≤ level.tokens)
    (hstart : start ≤ now) (hnow : level.updatedAt ≤ now) :
    (taken : ℚ) ≤ config.capacity +
      config.refillPerSecond * ((now - start) / 1000) := by
  rcases h with hnone | haccount
  · rw [hnone]
    have hflow := mul_nonneg hrate
      (div_nonneg (sub_nonneg.mpr hstart) (show (0 : ℚ) ≤ 1000 by norm_num))
    rw [Nat.cast_zero]
    exact add_nonneg hcapacity hflow
  · rw [← flow_eq]
    exact haccount.bound (rate_nonneg hrate) htokens hnow

theorem granted_cons (counts : JsString -> Bool) (e : Event)
    (events : List Event) (taken : Nat) :
    taken + granted options process counts s (e :: events) =
      (taken + if grants options process s e && counts (e.key process) then 1
        else 0) + granted options process counts
          (step options process s e) events := by
  rw [granted, Nat.add_assoc]

theorem granted_global (hvalid : validOptions options = true)
    (hinv : Inv options log s) {start : ℚ} (hstart : start ≤ s.lastNow)
    {taken : Nat} (h : Given options.global start taken s.global.level)
    (events : List Event) :
    ((taken + granted options process (fun _ => true) s events : Nat) : ℚ) ≤
      options.global.capacity + options.global.refillPerSecond *
        (((run options process s events).lastNow - start) / 1000) := by
  rcases valid_cases hvalid with ⟨hcapacity, hrate, _, _, _⟩
  induction events generalizing log s taken with
  | nil =>
      exact h.bound (le_of_lt hcapacity) hrate hinv.global.nonneg hstart
        hinv.clock
  | cons e events ih =>
      rw [granted_cons, Bool.and_true]
      apply ih (hinv.step hvalid e)
        (le_trans hstart (le_lastNow_step e))
      cases e with
      | consume reading address =>
          have hcalled := @called options process reading address s
          show Given _ _ _ (consume options process reading address
            s).1.global.level
          rw [hcalled.global]
          exact h.next hrate (le_trans hstart (le_clamped _ _))
            (le_trans hinv.clock (le_clamped _ _)) _
      | resetAddress address => exact h

/-- What the bucket of a key has given since `start`. -/
def GivenFor (options : LoginRateLimiterOptions) (key : JsString)
    (start : ℚ) (taken : Nat) (s : State) : Prop :=
  taken = 0 ∨ exists bucket, s.addresses.get key = some bucket ∧
    Given options.address start taken bucket.level

theorem GivenFor.found {key : JsString} {start now : ℚ} {taken : Nat}
    (h : GivenFor options key start taken s) :
    Given options.address start taken (foundLevel options now key s) := by
  rcases h with hnone | ⟨bucket, hget, hgiven⟩
  · exact Or.inl hnone
  · unfold foundLevel
    rw [hget]
    exact hgiven

theorem GivenFor.kept {key : JsString} {start : ℚ} {taken : Nat}
    {s' : State} (h : GivenFor options key start taken s)
    (hget : s'.addresses.get key = s.addresses.get key) :
    GivenFor options key start taken s' := by
  rcases h with hnone | ⟨bucket, hbucket, hgiven⟩
  · exact Or.inl hnone
  · exact Or.inr ⟨bucket, hget.trans hbucket, hgiven⟩

/-- A key that is not forgotten keeps its bucket while others are used. -/
theorem get_of_remembered (hinv : Inv options log s) {key : JsString}
    {reading : Option ℚ} {address : Option JsString}
    (hother : key ≠ normalizeAddress process address)
    (h : ¬ Forgets options process key s (Event.consume reading address)) :
    (consume options process reading address s).1.addresses.get key =
      s.addresses.get key := by
  have hget := (@called options process reading address s).others key hother
  rcases @kept_cases options s hinv.distinct
    (normalizeAddress process address) key with hsame | ⟨hnone, bucket, hb, _⟩
  · rw [hget, hsame]
  · rw [hnone] at hget
    refine absurd ⟨?_, hget⟩ h
    rw [hb]
    exact fun h => nomatch h

theorem updatedAt_found (hinv : Inv options log s) {now : ℚ}
    (hnow : s.lastNow ≤ now) (key : JsString) :
    (foundLevel options now key s).updatedAt ≤ now := by
  unfold foundLevel
  split
  · rename_i bucket hget
    exact le_trans (hinv.clocks key bucket hget) hnow
  · exact le_refl _

theorem GivenFor.step (hvalid : validOptions options = true)
    (hinv : Inv options log s) {key : JsString} {start : ℚ}
    (hstart : start ≤ s.lastNow) {taken : Nat}
    (h : GivenFor options key start taken s) {e : Event}
    (hremembered : ¬ Forgets options process key s e) :
    GivenFor options key start
      (taken + if grants options process s e &&
        decide (e.key process = key) then 1 else 0)
      (RateLimiter.step options process s e) := by
  rcases valid_cases hvalid with ⟨_, _, _, hrate, _⟩
  cases e with
  | resetAddress address =>
      have hne : normalizeAddress process address ≠ key := hremembered
      apply h.kept
      show (s.addresses.delete _).get key = _
      rw [JsMap.get_delete, if_neg hne]
  | consume reading address =>
      by_cases hkey : normalizeAddress process address = key
      · have hcalled := @called options process reading address s
        rcases hcalled.bucket with ⟨bucket, hget, _, hlevel⟩
        rw [hkey] at hget hlevel
        have hnow := le_clamped s.lastNow reading
        right
        refine ⟨bucket, hget, ?_⟩
        rw [hlevel, show decide ((Event.consume reading address).key process =
          key) = true from decide_eq_true hkey, Bool.and_true]
        exact h.found.next hrate (le_trans hstart hnow)
          (updatedAt_found hinv hnow key) _
      · rw [show decide ((Event.consume reading address).key process = key) =
          false from decide_eq_false hkey, Bool.and_false]
        exact h.kept (get_of_remembered hinv (Ne.symm hkey) hremembered)

theorem granted_address (hvalid : validOptions options = true)
    (hinv : Inv options log s) {key : JsString} {start : ℚ}
    (hstart : start ≤ s.lastNow) {taken : Nat}
    (h : GivenFor options key start taken s) (events : List Event)
    (hremembers : Remembers options process key s events) :
    ((taken + granted options process (fun other => decide (other = key)) s
        events : Nat) : ℚ) ≤
      options.address.capacity + options.address.refillPerSecond *
        (((run options process s events).lastNow - start) / 1000) := by
  rcases valid_cases hvalid with ⟨_, _, hcapacity, hrate, _⟩
  induction events generalizing log s taken with
  | nil =>
      rcases h with hnone | ⟨bucket, hget, hgiven⟩
      · have hgiven : Given options.address start taken ⟨0, start⟩ :=
          Or.inl hnone
        exact hgiven.bound (le_of_lt hcapacity) hrate (le_refl _) hstart hstart
      · exact hgiven.bound (le_of_lt hcapacity) hrate
          (hinv.bounded key bucket hget).nonneg hstart
          (hinv.clocks key bucket hget)
  | cons e events ih =>
      rw [granted_cons]
      exact ih (hinv.step hvalid e) (le_trans hstart (le_lastNow_step e))
        (h.step hvalid hinv hstart hremembers.1) hremembers.2

end Calls

/-!
## The limiter
-/

/-- What the limiter promises in a state, when `log` has the keys of the calls
so far. -/
structure Limits (options : LoginRateLimiterOptions)
    (process : JsString -> Option JsString) (log : List JsString)
    (s : State) : Prop where
  global : 0 ≤ s.global.tokens ∧ s.global.tokens ≤ options.global.capacity
  addresses : forall key bucket, s.addresses.get key = some bucket ->
    0 ≤ bucket.tokens ∧ bucket.tokens ≤ options.address.capacity
  window : forall events,
    (granted options process (fun _ => true) s events : ℚ) ≤
      options.global.capacity + options.global.refillPerSecond *
        (((run options process s events).lastNow - s.lastNow) / 1000)
  addressWindow : forall key events, Remembers options process key s events ->
    (granted options process (fun other => decide (other = key)) s events : ℚ)
      ≤ options.address.capacity + options.address.refillPerSecond *
        (((run options process s events).lastNow - s.lastNow) / 1000)
  /-- A call that is denied leaves both buckets with what the refill gave. -/
  denied : forall reading address,
    (consume options process reading address s).2 = false ->
    (consume options process reading address s).1.global.level =
        refill options.global.perMillisecond (clamped s.lastNow reading)
          s.global.level ∧
      exists bucket, (consume options process reading address
          s).1.addresses.get (normalizeAddress process address) =
            some bucket ∧
        bucket.level = refill options.address.perMillisecond
          (clamped s.lastNow reading) (foundLevel options
            (clamped s.lastNow reading) (normalizeAddress process address) s)
  tracked : (s.addresses.length : Int) ≤ options.maxAddresses
  /-- The key that a call drops was used before all the others. -/
  evicts : forall reading address key, s.addresses.get key ≠ none ->
    (consume options process reading address s).1.addresses.get key = none ->
    forall other, s.addresses.get other ≠ none -> other ≠ key ->
      UsedBefore log key other

theorem Inv.limits {options : LoginRateLimiterOptions}
    {process : JsString -> Option JsString} {log : List JsString} {s : State}
    (hvalid : validOptions options = true) (hinv : Inv options log s) :
    Limits options process log s where
  global := ⟨hinv.global.nonneg, hinv.global.le⟩
  addresses key bucket hget := ⟨(hinv.bounded key bucket hget).nonneg,
    (hinv.bounded key bucket hget).le⟩
  window events := by
    have hbound := @granted_global options process log s hvalid hinv s.lastNow
      (le_refl _) 0 (Or.inl rfl) events
    rw [Nat.zero_add] at hbound
    exact hbound
  addressWindow key events hremembers := by
    have hbound := @granted_address options process log s hvalid hinv key
      s.lastNow (le_refl _) 0 (Or.inl rfl) events hremembers
    rw [Nat.zero_add] at hbound
    exact hbound
  denied reading address hdenied := by
    have hcalled := @RateLimiter.called options process reading address s
    rw [hdenied] at hcalled
    rcases hcalled.bucket with ⟨bucket, hget, _, hlevel⟩
    exact ⟨hcalled.global, bucket, hget, hlevel⟩
  tracked := hinv.size
  evicts reading address key hpresent habsent other hother hne := by
    have hcalled := @RateLimiter.called options process reading address s
    have hkey : key ≠ normalizeAddress process address := by
      intro heq
      rcases hcalled.bucket with ⟨bucket, hget, _⟩
      rw [← heq, habsent] at hget
      cases hget
    have hkept := hcalled.others key hkey
    rw [habsent] at hkept
    rcases @kept_cases options s hinv.distinct
      (normalizeAddress process address) key with hsame |
        ⟨_, bucket, hbucket, hleast⟩
    · exact absurd (hsame.symm.trans hkept.symm) hpresent
    · rcases Option.ne_none_iff_exists'.mp hother with ⟨bucket', hbucket'⟩
      have hle := hleast other bucket' hbucket'
      have happart := hinv.apart key bucket other bucket' hbucket hbucket'
        (Ne.symm hne)
      exact hinv.order key bucket other bucket' hbucket hbucket'
        (Nat.lt_of_le_of_ne hle happart)

theorem limiter_sound {options : LoginRateLimiterOptions}
    {process : JsString -> Option JsString} {reading : Option ℚ} {s : State}
    (h : create options reading = some s) (events : List Event) :
    Limits options process (consumed process events)
      (run options process s events) := by
  have hvalid : validOptions options = true := by
    unfold create at h
    split at h
    · rename_i hvalid
      exact hvalid
    · cases h
  have hinv := @Inv.run options process [] s hvalid (inv_create h) events
  exact hinv.limits hvalid

/-- A limiter for one address at a time, which `process` reads as it is. -/
def sampleOptions : LoginRateLimiterOptions :=
  ⟨⟨2, 1⟩, ⟨1, 1⟩, 1⟩

theorem limiter_sound_sample : exists s,
    create sampleOptions (some 0) = some s ∧
      Limits sampleOptions some [js "192.0.2.1", js "192.0.2.2"]
        (run sampleOptions some s
          [Event.consume (some 0) (some (js "192.0.2.1")),
            Event.consume none (some (js "192.0.2.2"))]) := by
  have hcreate : (create sampleOptions (some 0)).isSome = true := by
    decide +kernel
  rcases Option.isSome_iff_exists.mp hcreate with ⟨s, hs⟩
  exact ⟨s, hs, limiter_sound hs [Event.consume (some 0)
    (some (js "192.0.2.1")), Event.consume none (some (js "192.0.2.2"))]⟩

end RateLimiter
end Server
end FlanTerminal
