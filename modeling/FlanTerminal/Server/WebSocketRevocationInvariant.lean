import FlanTerminal.Server.WebSocketRevocation

/-!
# What operations owe to the sockets

An operation that closes sockets relies on the operations on top of it: they
close sockets under their own number, they take a registration away only when
its socket is not open, and they add none.  What one round of the loop has done
to a socket therefore still holds when the loop ends.
-/

namespace FlanTerminal
namespace Server
namespace WebSocketAuthIndex
namespace Revocation

open Foundation

def Event.number : Event -> Nat
  | Event.entered n _ _ _ => n
  | Event.called n _ => n
  | Event.asked n _ _ => n
  | Event.ended n _ _ _ => n

/-- An operation starts that may close the socket of the registration. -/
def Concerns (r : Registration) : Event -> Prop
  | Event.entered _ (Op.unregister socket) _ _ => r.socket = socket
  | Event.entered _ (Op.closeSession id) _ _ => r.session = id
  | Event.entered _ (Op.closeAuthenticationRequired socket) _ _ =>
      r.socket = socket
  | Event.entered _ Op.sweepExpired _ _ => True
  | Event.entered _ Op.dispose _ _ => True
  | _ => False

/-- Some operation has called both on the socket. -/
def Tried (trail : List Event) (socket : Nat) : Prop :=
  exists n, Event.called n (PortCall.close socket) ∈ trail ∧
    Event.called n (PortCall.terminate socket) ∈ trail

theorem Tried.mono {trail more : List Event} {socket : Nat}
    (h : Tried trail socket) : Tried (trail ++ more) socket := by
  rcases h with ⟨n, hclose, hterminate⟩
  exact ⟨n, List.mem_append_left _ hclose, List.mem_append_left _ hterminate⟩

theorem mem_closed {w : World} {socket : Nat} :
    socket ∈ w.closed <-> socket ∈ w.lost ∨ exists n, (socket, n) ∈ w.shut := by
  unfold World.closed
  rw [List.mem_append, List.mem_map]
  constructor
  · intro h
    rcases h with h | ⟨e, he, heq⟩
    · exact Or.inl h
    · refine Or.inr ⟨e.2, ?_⟩
      rw [← heq]
      exact he
  · intro h
    rcases h with h | ⟨n, hn⟩
    · exact Or.inl h
    · exact Or.inr ⟨_, hn, rfl⟩

/-!
## What an operation relies on
-/

structure Since (m : Nat) (w w' : World) : Prop where
  trail : w.trail <+: w'.trail
  lost : w'.lost = w.lost
  shut : forall e, e ∈ w.shut -> e ∈ w'.shut
  late : forall e, e ∈ w'.shut -> e ∈ w.shut ∨ m ≤ e.2
  fewer : forall r, Registered w'.index r -> Registered w.index r
  careful : forall r, Registered w.index r ->
    Registered w'.index r ∨ r.socket ∈ w'.closed

theorem Since.refl (m : Nat) (w : World) : Since m w w :=
  ⟨List.prefix_refl _, rfl, fun _ h => h, fun _ h => Or.inl h, fun _ h => h,
    fun _ h => Or.inl h⟩

theorem Since.closed {m : Nat} {w w' : World} (h : Since m w w')
    {socket : Nat} (hclosed : socket ∈ w.closed) : socket ∈ w'.closed := by
  rw [mem_closed] at hclosed ⊢
  rw [h.lost]
  rcases hclosed with hlost | ⟨n, hn⟩
  · exact Or.inl hlost
  · exact Or.inr ⟨n, h.shut _ hn⟩

theorem Since.trans {m : Nat} {w w' w'' : World} (h : Since m w w')
    (h' : Since m w' w'') : Since m w w'' := by
  constructor
  · exact h.trail.trans h'.trail
  · rw [h'.lost, h.lost]
  · intro e he
    exact h'.shut e (h.shut e he)
  · intro e he
    rcases h'.late e he with he | hm
    · exact h.late e he
    · exact Or.inr hm
  · intro r hr
    exact h.fewer r (h'.fewer r hr)
  · intro r hr
    rcases h.careful r hr with hr | hclosed
    · exact h'.careful r hr
    · exact Or.inr (h'.closed hclosed)

/-- What others do to the socket of a registration while operation `m` waits.
-/
def Spared (m : Nat) (r : Registration) (w w' : World) : Prop :=
  (Registered w'.index r ∧ (r.socket ∈ w'.closed -> r.socket ∈ w.closed)) ∨
    (exists e, e ∈ w'.trail ∧ m < e.number ∧ Concerns r e) ∨
    exists c, (m, some c) ∈ w'.calls ∧ Closes c r.socket

structure Inner (m : Nat) (w w' : World) : Prop extends Since m w w' where
  active : m ∈ w'.base.active
  call : forall c, (m, c) ∈ w.calls -> (m, c) ∈ w'.calls
  spared : forall r, Registered w.index r -> Spared m r w w'

theorem Inner.trans {m : Nat} {w w' w'' : World} (h : Inner m w w')
    (h' : Inner m w' w'') : Inner m w w'' := by
  refine ⟨h.toSince.trans h'.toSince, h'.active, ?_, ?_⟩
  · intro c hc
    exact h'.call c (h.call c hc)
  · intro r hr
    rcases h.spared r hr with ⟨hr', hsame⟩ | ⟨e, he, hconcerns⟩ | ⟨c, hc, hk⟩
    · rcases h'.spared r hr' with ⟨hr'', hsame'⟩ | hother
      · exact Or.inl ⟨hr'', fun hclosed => hsame (hsame' hclosed)⟩
      · exact Or.inr hother
    · exact Or.inr (Or.inl ⟨e, h'.trail.subset he, hconcerns⟩)
    · exact Or.inr (Or.inr ⟨c, h'.call _ hc, hk⟩)

def Unfinished (n : Nat) (w : World) : Prop :=
  forall o x closed, Event.ended n o x closed ∉ w.trail

structure Relies (m : Nat) (w w' : World) : Prop where
  trail : exists more, w'.trail = w.trail ++ more ∧
    (m ∈ w.base.active -> forall e, e ∈ more -> e.number ≠ m)
  closed : forall socket, socket ∈ w.closed -> socket ∈ w'.closed
  careful : forall r, Registered w.index r -> Registered w'.index r ∨
    r.socket ∈ w'.closed ∨
    exists n x closed, Unfinished n w ∧
      Event.entered n (Op.unregister r.socket) x closed ∈ w'.trail
  inner : m ∈ w.base.active -> Inner m w w'

theorem Relies.refl (m : Nat) (w : World) : Relies m w w := by
  constructor
  · exact ⟨[], (List.append_nil _).symm, nofun⟩
  · exact fun _ h => h
  · exact fun _ h => Or.inl h
  · intro hm
    exact ⟨Since.refl m w, hm, fun _ h => h, fun r hr => Or.inl ⟨hr, id⟩⟩

theorem Relies.trans {m : Nat} {w w' w'' : World} (h : Relies m w w')
    (h' : Relies m w' w'') : Relies m w w'' := by
  rcases h.trail with ⟨more, hmore, hnumber⟩
  rcases h'.trail with ⟨more', hmore', hnumber'⟩
  have hpre : w.trail <+: w'.trail := ⟨more, hmore.symm⟩
  have hpre' : w'.trail <+: w''.trail := ⟨more', hmore'.symm⟩
  constructor
  · refine ⟨more ++ more', ?_, ?_⟩
    · rw [hmore', hmore, List.append_assoc]
    · intro hm e he
      rcases List.mem_append.mp he with he | he
      · exact hnumber hm e he
      · exact hnumber' (h.inner hm).active e he
  · exact fun k hk => h'.closed k (h.closed k hk)
  · intro r hr
    rcases h.careful r hr with hr | hclosed | ⟨n, x, cl, hn, he⟩
    · rcases h'.careful r hr with hr | hclosed | ⟨n, x, cl, hn, he⟩
      · exact Or.inl hr
      · exact Or.inr (Or.inl hclosed)
      · refine Or.inr (Or.inr ⟨n, x, cl, ?_, he⟩)
        exact fun o x cl hend => hn o x cl (hpre.subset hend)
    · exact Or.inr (Or.inl (h'.closed _ hclosed))
    · exact Or.inr (Or.inr ⟨n, x, cl, hn, hpre'.subset he⟩)
  · exact fun hm => (h.inner hm).trans (h'.inner (h.inner hm).active)

/-!
## What an operation has done when it ends
-/

/-- The registrations whose sockets the operation has to close, when the index
is this at its start; a sweep closes those whose authority is never said to be
active. -/
def InScope (n : Nat) (x : Index) (between : List Event)
    (r : Registration) : Op -> Prop
  | Op.closeSession id => r.session = id
  | Op.sweepExpired => forall active,
      Event.asked n r.authority active ∈ between -> active = false
  | Op.dispose => x.disposed = false
  | _ => False

/-- The registrations of other sessions; in a sweep, those whose authority is
never said to be inactive. -/
def Apart (n : Nat) (between : List Event) (r : Registration) : Op -> Prop
  | Op.closeSession id => r.session ≠ id
  | Op.sweepExpired => forall active,
      Event.asked n r.authority active ∈ between -> active = true
  | _ => False

def closesSockets : Op -> Bool
  | Op.closeSession _ => true
  | Op.sweepExpired => true
  | Op.dispose => true
  | _ => false

/-- The socket of the registration is not in the index and not open, or it is
in the index and open although operation `n` has called both on it. -/
def Secured (n : Nat) (between : List Event) (x : Index) (closed : List Nat)
    (r : Registration) : Prop :=
  x.bySocket.get r.socket = none ∧ r.socket ∈ closed ∨
    Registered x r ∧ r.socket ∉ closed ∧
      Event.called n (PortCall.close r.socket) ∈ between ∧
      Event.called n (PortCall.terminate r.socket) ∈ between

/-- Operation `n` has ended; `x` and `closed` are the index and the sockets
that are not open, before and after. -/
structure Ending (n : Nat) (o : Op) (first between : List Event) (x : Index)
    (closed : List Nat) (x' : Index) (closed' : List Nat) : Prop where
  secured : forall r, Registered x r -> InScope n x between r o ->
    Secured n between x' closed' r
  kept : closesSockets o = true -> forall r, Registered x r ->
    r.socket ∉ closed' -> Registered x' r
  /-- Unless an operation in between is about the registration. -/
  apart : forall r, Registered x r -> Apart n between r o ->
    (forall e, e ∈ between -> ¬ Concerns r e) ->
    Registered x' r ∧ (r.socket ∈ closed' <-> r.socket ∈ closed) ∧
      Event.called n (PortCall.close r.socket) ∉ between ∧
      Event.called n (PortCall.terminate r.socket) ∉ between
  /-- To dispose once more does nothing, and every socket that is left was
  tried before. -/
  again : o = Op.dispose -> x.disposed = true ->
    x' = x ∧ closed' = closed ∧ forall r, Registered x r ->
      Tried first r.socket

def Good (before : List Event) : Event -> Prop
  | Event.ended n o x' closed' => exists first between x closed,
      before = first ++ Event.entered n o x closed :: between ∧
        Ending n o first between x closed x' closed'
  | _ => True

/-!
## The invariant
-/

/-- Operation `n` has closed the socket and is about to take it away. -/
def Broken (w : World) (e : Nat × Nat) : Prop :=
  exists c, (e.2, c) ∈ w.calls ∧ forall d, c = some d -> Closes d e.1

def Disposing (w : World) (r : Registration) : Prop :=
  Tried w.trail r.socket ∨ exists n x closed, n ∈ w.base.active ∧
    Event.entered n Op.dispose x closed ∈ w.trail

structure Fit (cs : Census) (w : World) : Prop where
  active : w.base.active = w.calls.map Prod.fst
  sorted : (w.calls.map Prod.fst).Pairwise fun a b => b < a
  numbers : forall n, n ∈ w.base.active -> n < cs.next
  live : forall n, cs.live n -> n ∈ w.base.active
  events : forall e, e ∈ w.trail -> e.number < cs.next
  shutters : forall e, e ∈ w.shut -> e.2 < cs.next
  finished : forall n o x closed, Event.ended n o x closed ∈ w.trail ->
    n ∉ w.base.active
  unique : forall n o x closed, Event.entered n o x closed ∈ w.trail ->
    forall o' x' closed', Event.entered n o' x' closed' ∈ w.trail -> o = o'
  distinct : w.index.bySocket.Distinct
  keyed : forall k r, w.index.bySocket.get k = some r -> k = r.socket
  broken : forall e, e ∈ w.shut -> w.index.bySocket.get e.1 = none ∨
    Broken w e
  meant : forall n c r, (n, some c) ∈ w.calls -> Registered w.index r ->
    Closes c r.socket -> exists e, e ∈ w.trail ∧ e.number = n ∧ Concerns r e
  disposed : w.index.disposed = true -> forall r, Registered w.index r ->
    Disposing w r
  good : EveryEntry Good w.trail

namespace Fit

variable {cs : Census} {w : World}

theorem active_of_call (h : Fit cs w) {n : Nat} {c : Option PortCall}
    (hc : (n, c) ∈ w.calls) : n ∈ w.base.active := by
  rw [h.active]
  exact List.mem_map.mpr ⟨_, hc, rfl⟩

theorem call_unique (h : Fit cs w) {n : Nat} {c d : Option PortCall}
    (hc : (n, c) ∈ w.calls) (hd : (n, d) ∈ w.calls) : c = d := by
  have hnodup : (w.calls.map Prod.fst).Nodup :=
    h.sorted.imp fun hlt => Nat.ne_of_gt hlt
  have heq := List.inj_on_of_nodup_map hnodup hc hd rfl
  exact congrArg Prod.snd heq

theorem le_head (h : Fit cs w) {n m : Nat} {c : Option PortCall}
    (hhead : w.calls.head? = some (n, c)) (hm : m ∈ w.base.active) :
    m ≤ n := by
  have hsorted := h.sorted
  rw [h.active] at hm
  cases hcalls : w.calls with
  | nil =>
      rw [hcalls] at hm
      cases hm
  | cons f rest =>
      rw [hcalls] at hhead hm hsorted
      cases hhead
      rcases List.mem_cons.mp hm with hm | hm
      · exact Nat.le_of_eq hm
      · exact Nat.le_of_lt ((List.pairwise_cons.mp hsorted).1 m hm)

theorem happens (h : Fit cs w) {w' : World} (henv : Happens w w') :
    Fit cs w' ∧ forall m, Relies m w w' := by
  cases henv with
  | lose socket hidle =>
      have hclosed : forall k, k ∈ w.closed ->
          k ∈ World.closed { w with lost := socket :: w.lost } := by
        intro k hk
        rw [mem_closed] at hk ⊢
        exact hk.imp_left (List.mem_cons_of_mem _)
      refine ⟨{ h with broken := h.broken, meant := h.meant }, ?_⟩
      intro m
      refine ⟨⟨[], (List.append_nil _).symm, nofun⟩, hclosed,
        fun r hr => Or.inl hr, ?_⟩
      intro hm
      rw [hidle] at hm
      cases hm
  | shut n socket c hhead hcloses =>
      have hmem : (n, some c) ∈ w.calls := List.mem_of_head? hhead
      have hclosed : forall k, k ∈ w.closed ->
          k ∈ World.closed { w with shut := (socket, n) :: w.shut } := by
        intro k hk
        rw [mem_closed] at hk ⊢
        rcases hk with hk | ⟨q, hq⟩
        · exact Or.inl hk
        · exact Or.inr ⟨q, List.mem_cons_of_mem _ hq⟩
      constructor
      · refine { h with shutters := ?_, broken := ?_ }
        · intro e he
          rcases List.mem_cons.mp he with he | he
          · rw [he]
            exact h.numbers n (h.active_of_call hmem)
          · exact h.shutters e he
        · intro e he
          rcases List.mem_cons.mp he with he | he
          · rw [he]
            refine Or.inr ⟨some c, hmem, ?_⟩
            intro d hd
            cases hd
            exact hcloses
          · exact h.broken e he
      · intro m
        refine ⟨⟨[], (List.append_nil _).symm, nofun⟩, hclosed,
          fun r hr => Or.inl hr, ?_⟩
        intro hm
        have hle : m ≤ n := h.le_head hhead hm
        refine ⟨⟨List.prefix_refl _, rfl, ?_, ?_, fun _ hr => hr,
          fun r hr => Or.inl hr⟩, hm, fun _ hc => hc, ?_⟩
        · exact fun e he => List.mem_cons_of_mem _ he
        · intro e he
          rcases List.mem_cons.mp he with he | he
          · rw [he]
            exact Or.inr hle
          · exact Or.inl he
        · intro r hr
          by_cases hsocket : r.socket = socket
          · rw [← hsocket] at hcloses
            rcases Nat.lt_or_eq_of_le hle with hlt | heq
            · rcases h.meant n c r hmem hr hcloses with
                ⟨e, he, hnumber, hconcerns⟩
              exact Or.inr (Or.inl ⟨e, he, hnumber.symm ▸ hlt, hconcerns⟩)
            · rw [← heq] at hmem
              exact Or.inr (Or.inr ⟨c, hmem, hcloses⟩)
          · refine Or.inl ⟨hr, ?_⟩
            intro hk
            rw [mem_closed] at hk ⊢
            rcases hk with hk | ⟨q, hq⟩
            · exact Or.inl hk
            · rcases List.mem_cons.mp hq with hq | hq
              · exact absurd (congrArg Prod.fst hq) hsocket
              · exact Or.inr ⟨q, hq⟩

end Fit

section Rules

variable {options : Options}

def Sound (w : World) : Prop :=
  exists half, Rep w.index half

def pact (options : Options) : Pact ((watched options).assuming Sound) where
  inv := Fit
  keeps := Relies
  refl := Relies.refl
  trans := Relies.trans
  env h henv := Fit.happens h henv

/-- Operation `m` runs, and every other one waits below it. -/
structure Runs (m : Nat) (w : World) : Prop where
  active : m ∈ w.base.active
  running : (m, none) ∈ w.calls
  top : forall q, q ∈ w.base.active -> q ≤ m

/-- No socket that operation `m` has closed is in the index. -/
def Settled (m : Nat) (w : World) : Prop :=
  forall e, e ∈ w.shut -> e.2 = m -> w.index.bySocket.get e.1 = none

def Plain : Event -> Prop
  | Event.called _ _ => True
  | Event.asked _ _ _ => True
  | _ => False

theorem good_plain {e : Event} (h : Plain e) (before : List Event) :
    Good before e := by
  cases e with
  | ended n o x closed => exact h.elim
  | _ => trivial

variable {m : Nat} {cs : Census} {w : World}

theorem Fit.record (h : Fit cs w) {e : Event} (hnumber : e.number < cs.next)
    (hplain : Plain e) : Fit cs (w.record e) := by
  refine { h with
    events := ?_
    finished := ?_
    unique := ?_
    meant := ?_
    disposed := ?_
    good := everyEntry_snoc.mpr ⟨h.good, good_plain hplain _⟩ }
  · intro e' he'
    rcases List.mem_append.mp he' with he' | he'
    · exact h.events e' he'
    · rw [List.mem_singleton.mp he']
      exact hnumber
  · intro n o x closed hend
    rcases List.mem_append.mp hend with hend | hend
    · exact h.finished n o x closed hend
    · rw [← List.mem_singleton.mp hend] at hplain
      exact hplain.elim
  · have hold : forall n o x closed,
        Event.entered n o x closed ∈ (w.record e).trail ->
          Event.entered n o x closed ∈ w.trail := by
      intro n o x closed he
      rcases List.mem_append.mp he with he | he
      · exact he
      · rw [← List.mem_singleton.mp he] at hplain
        exact hplain.elim
    intro n o x closed he o' x' closed' he'
    exact h.unique n o x closed (hold _ _ _ _ he) o' x' closed'
      (hold _ _ _ _ he')
  · intro n c r hc hr hcloses
    rcases h.meant n c r hc hr hcloses with ⟨e', he', hrest⟩
    exact ⟨e', List.mem_append_left _ he', hrest⟩
  · intro hdisposed r hr
    rcases h.disposed hdisposed r hr with htried | ⟨n, x, cl, hn, he'⟩
    · exact Or.inl htried.mono
    · exact Or.inr ⟨n, x, cl, hn, List.mem_append_left _ he'⟩

theorem since_record (q : Nat) (w : World) (e : Event) :
    Since q w (w.record e) :=
  { Since.refl q w with trail := List.prefix_append _ _ }

theorem relies_record {e : Event} {q : Nat} (hnumber : e.number ≠ q) :
    Relies q w (w.record e) := by
  refine { Relies.refl q w with
    trail := ⟨[e], rfl, ?_⟩
    careful := fun r hr => Or.inl hr
    inner := ?_ }
  · intro _ e' he'
    rw [List.mem_singleton.mp he']
    exact hnumber
  · intro hq
    exact ⟨since_record q w e, hq, fun _ hc => hc,
      fun r hr => Or.inl ⟨hr, id⟩⟩

theorem moves_record (h : Fit cs w) (hm : m < cs.next) {e : Event}
    (hnumber : e.number = m) (hplain : Plain e) :
    (pact options).Moves m cs w (w.record e) := by
  constructor
  · rw [← hnumber] at hm
    exact h.record hm hplain
  · intro q hq
    apply relies_record
    rw [hnumber]
    exact fun heq => hq heq.symm

/-!
## Calls that give up control
-/

theorem mem_setCall {n : Nat} {c : Option PortCall} {f : Nat × Option PortCall}
    (hf : f ∈ (w.setCall n c).calls) :
    f = (n, c) ∨ f ∈ w.calls ∧ f.1 ≠ n := by
  rcases List.mem_map.mp hf with ⟨g, hg, heq⟩
  split at heq
  · exact Or.inl heq.symm
  · rename_i hne
    rw [← heq]
    exact Or.inr ⟨hg, hne⟩

theorem setCall_mem {n : Nat} {c : Option PortCall} {f : Nat × Option PortCall}
    (hf : f ∈ w.calls) (hne : f.1 ≠ n) : f ∈ (w.setCall n c).calls :=
  List.mem_map.mpr ⟨f, hf, if_neg hne⟩

theorem setCall_self {n : Nat} {c d : Option PortCall}
    (hd : (n, d) ∈ w.calls) : (n, c) ∈ (w.setCall n c).calls :=
  List.mem_map.mpr ⟨(n, d), hd, if_pos rfl⟩

theorem setCall_fst (w : World) (n : Nat) (c : Option PortCall) :
    (w.setCall n c).calls.map Prod.fst = w.calls.map Prod.fst := by
  unfold World.setCall
  rw [List.map_map]
  apply List.map_congr_left
  intro f _
  show Prod.fst (if f.1 = n then (n, c) else f) = f.1
  split
  · rename_i hn
    exact hn.symm
  · rfl

theorem relies_setCall {q n : Nat} (c : Option PortCall) (hq : q ≠ n) :
    Relies q w (w.setCall n c) := by
  refine { Relies.refl q w with
    careful := fun r hr => Or.inl hr
    inner := ?_ }
  intro hactive
  refine ⟨⟨List.prefix_refl _, rfl, fun _ he => he, fun _ he => Or.inl he,
    fun _ hr => hr, fun _ hr => Or.inl hr⟩, hactive, ?_,
    fun r hr => Or.inl ⟨hr, id⟩⟩
  exact fun d hd => setCall_mem hd hq

theorem Fit.issue (h : Fit cs w) {c : PortCall} (hsettled : Settled m w)
    (hmeant : forall r, Registered w.index r -> Closes c r.socket ->
      exists e, e ∈ w.trail ∧ e.number = m ∧ Concerns r e) :
    Fit cs (w.setCall m (some c)) := by
  refine { h with active := ?_, sorted := ?_, broken := ?_, meant := ?_ }
  · rw [setCall_fst]
    exact h.active
  · rw [setCall_fst]
    exact h.sorted
  · intro e he
    by_cases hem : e.2 = m
    · exact Or.inl (hsettled e he hem)
    · rcases h.broken e he with hnone | ⟨d, hd, hcloses⟩
      · exact Or.inl hnone
      · exact Or.inr ⟨d, setCall_mem hd hem, hcloses⟩
  · intro n d r hd hr hcloses
    rcases mem_setCall hd with heq | ⟨hd, _⟩
    · cases heq
      exact hmeant r hr hcloses
    · exact h.meant n d r hd hr hcloses

theorem Fit.reply (h : Fit cs w) {c : Option PortCall}
    (hc : (m, c) ∈ w.calls) : Fit cs (w.setCall m none) := by
  refine { h with active := ?_, sorted := ?_, broken := ?_, meant := ?_ }
  · rw [setCall_fst]
    exact h.active
  · rw [setCall_fst]
    exact h.sorted
  · intro e he
    rcases h.broken e he with hnone | ⟨d, hd, hcloses⟩
    · exact Or.inl hnone
    · by_cases hem : e.2 = m
      · rw [← hem] at hc ⊢
        exact Or.inr ⟨none, setCall_self hc, nofun⟩
      · exact Or.inr ⟨d, setCall_mem hd hem, hcloses⟩
  · intro n d r hd hr hcloses
    rcases mem_setCall hd with heq | ⟨hd, _⟩
    · cases heq
    · exact h.meant n d r hd hr hcloses

/-!
## Changes of the index
-/

def World.withIndex (w : World) (x : Index) : World :=
  { w with base := { w.base with index := x } }

/-- The change of the index by operation `m`: what comes is the work of an
operation that runs alone, and what goes is not open or is unregistered from
the event loop. -/
structure Change (m : Nat) (w : World) (x : Index) : Prop where
  distinct : x.bySocket.Distinct
  keyed : forall k r, x.bySocket.get k = some r -> k = r.socket
  added : forall k r, x.bySocket.get k = some r ->
    w.index.bySocket.get k = some r ∨
      (forall q, q ∈ w.base.active -> q = m) ∧ k ∉ w.closed ∧
        x.disposed = false
  removed : forall r, Registered w.index r -> Registered x r ∨
    (r.socket ∈ w.closed ∨ (forall q, q ∈ w.base.active -> q = m) ∧
      exists y closed,
        Event.entered m (Op.unregister r.socket) y closed ∈ w.trail) ∧
    exists e, e ∈ w.trail ∧ e.number = m ∧ Concerns r e
  disposed : x.disposed = true -> w.index.disposed = true ∨
    exists y closed, Event.entered m Op.dispose y closed ∈ w.trail

theorem Change.same {x : Index} (h : Fit cs w)
    (hsockets : x.bySocket = w.index.bySocket)
    (hdisposed : x.disposed = w.index.disposed) : Change m w x := by
  constructor
  · rw [hsockets]
    exact h.distinct
  · rw [hsockets]
    exact h.keyed
  · intro k r hr
    rw [hsockets] at hr
    exact Or.inl hr
  · intro r hr
    unfold Registered at hr ⊢
    rw [hsockets]
    exact Or.inl hr
  · intro hx
    rw [hdisposed] at hx
    exact Or.inl hx

theorem Change.fit {x : Index} (hx : Change m w x) (h : Fit cs w)
    (hruns : Runs m w) : Fit cs (w.withIndex x) := by
  refine { h with
    distinct := hx.distinct
    keyed := hx.keyed
    broken := ?_
    meant := ?_
    disposed := ?_ }
  · intro e he
    cases hget : x.bySocket.get e.1 with
    | none => exact Or.inl hget
    | some r =>
        rcases hx.added e.1 r hget with hold | ⟨_, hopen, _⟩
        · rcases h.broken e he with hnone | hbroken
          · rw [hold] at hnone
            cases hnone
          · exact Or.inr hbroken
        · exact absurd (mem_closed.mpr (Or.inr ⟨e.2, he⟩)) hopen
  · intro n c r hc hr hcloses
    rcases hx.added r.socket r hr with hold | ⟨halone, _, _⟩
    · exact h.meant n c r hc hold hcloses
    · rw [halone n (h.active_of_call hc)] at hc
      cases h.call_unique hc hruns.running
  · intro hdisposed r hr
    rcases hx.added r.socket r hr with hold | ⟨_, _, hfresh⟩
    · rcases hx.disposed hdisposed with hwas | ⟨y, closed, hentered⟩
      · exact h.disposed hwas r hold
      · exact Or.inr ⟨m, y, closed, h.active_of_call hruns.running, hentered⟩
    · have hboth : false = true := hfresh.symm.trans hdisposed
      cases hboth

theorem moves_index {x : Index} (h : Fit cs w) (hruns : Runs m w)
    (hx : Change m w x) : (pact options).Moves m cs w (w.withIndex x) := by
  refine ⟨hx.fit h hruns, ?_⟩
  intro q hq
  refine ⟨⟨[], (List.append_nil _).symm, nofun⟩, fun _ hk => hk, ?_, ?_⟩
  · intro r hr
    rcases hx.removed r hr with hr | ⟨hclosed | ⟨_, y, cl, he⟩, _⟩
    · exact Or.inl hr
    · exact Or.inr (Or.inl hclosed)
    · refine Or.inr (Or.inr ⟨m, y, cl, ?_, he⟩)
      intro o y' cl' hend
      exact h.finished m o y' cl' hend (h.active_of_call hruns.running)
  · intro hactive
    have hlt : q < m := Nat.lt_of_le_of_ne (hruns.top q hactive) hq
    have hcrowd : ¬ forall q, q ∈ w.base.active -> q = m :=
      fun halone => hq (halone q hactive)
    refine ⟨⟨List.prefix_refl _, rfl, fun _ he => he,
      fun _ he => Or.inl he, ?_, ?_⟩, hactive, fun _ hc => hc, ?_⟩
    · intro r hr
      rcases hx.added r.socket r hr with hold | ⟨halone, _, _⟩
      · exact hold
      · exact absurd halone hcrowd
    · intro r hr
      rcases hx.removed r hr with hr | ⟨hclosed | ⟨halone, _⟩, _⟩
      · exact Or.inl hr
      · exact Or.inr hclosed
      · exact absurd halone hcrowd
    · intro r hr
      rcases hx.removed r hr with hr | ⟨_, e, he, hnumber, hconcerns⟩
      · exact Or.inl ⟨hr, id⟩
      · exact Or.inr (Or.inl ⟨e, he, hnumber.symm ▸ hlt, hconcerns⟩)

theorem bySocket_advance (x : Index) (t : JsString) :
    (x.advanceCleanupGeneration t).bySocket = x.bySocket ∧
      (x.advanceCleanupGeneration t).disposed = x.disposed := by
  rcases advance_eq x t with ⟨b, c, heq⟩
  rw [heq]
  exact ⟨rfl, rfl⟩

theorem bySocket_removeFromSession (x : Index) (r : Registration) :
    (x.removeFromSession r).bySocket = x.bySocket ∧
      (x.removeFromSession r).disposed = x.disposed := by
  unfold Index.removeFromSession
  split
  · exact ⟨rfl, rfl⟩
  · unfold Index.dropSession
    split
    · exact ⟨rfl, rfl⟩
    · exact ⟨rfl, rfl⟩

theorem bySocket_remove (x : Index) (r : Registration) :
    (x.remove r).bySocket = x.bySocket.delete r.socket ∧
      (x.remove r).disposed = x.disposed := by
  unfold Index.remove
  rcases uncount_eq (Index.removeFromSession
    { x with bySocket := x.bySocket.delete r.socket } r) r.terminalTabId with
    ⟨counts, huncount, _⟩
  have hadvance := bySocket_advance ((Index.removeFromSession
    { x with bySocket := x.bySocket.delete r.socket } r).uncount
      r.terminalTabId) r.terminalTabId
  have hremove := bySocket_removeFromSession
    { x with bySocket := x.bySocket.delete r.socket } r
  rw [hadvance.1, hadvance.2, huncount]
  exact hremove

theorem get_remove (x : Index) (r : Registration) (k : Nat) :
    (x.remove r).bySocket.get k =
      if r.socket = k then none else x.bySocket.get k := by
  rw [(bySocket_remove x r).1, JsMap.get_delete]

theorem registered_remove {x : Index} {r q : Registration}
    (hr : Registered x r) :
    Registered (x.remove r) q <-> Registered x q ∧ q ≠ r := by
  unfold Registered at hr ⊢
  rw [get_remove]
  by_cases hsocket : r.socket = q.socket
  · rw [if_pos hsocket, ← hsocket, hr]
    constructor
    · nofun
    · intro ⟨hq, hne⟩
      exact absurd (Option.some.inj hq).symm hne
  · rw [if_neg hsocket]
    constructor
    · intro hq
      exact ⟨hq, fun heq => hsocket (congrArg Registration.socket heq.symm)⟩
    · exact And.left

theorem change_remove (h : Fit cs w) {r : Registration}
    (hr : Registered w.index r)
    (hwhy : r.socket ∈ w.closed ∨ (forall q, q ∈ w.base.active -> q = m) ∧
      exists y closed,
        Event.entered m (Op.unregister r.socket) y closed ∈ w.trail)
    (hconcerns : exists e, e ∈ w.trail ∧ e.number = m ∧ Concerns r e) :
    Change m w (w.index.remove r) := by
  have hremove := bySocket_remove w.index r
  have hget : forall k q, (w.index.remove r).bySocket.get k = some q ->
      w.index.bySocket.get k = some q := by
    intro k q hq
    rw [get_remove] at hq
    split at hq
    · cases hq
    · exact hq
  constructor
  · rw [hremove.1]
    exact JsMap.distinct_delete h.distinct _
  · exact fun k q hq => h.keyed k q (hget k q hq)
  · exact fun k q hq => Or.inl (hget k q hq)
  · intro q hq
    by_cases heq : q = r
    · rw [heq]
      exact Or.inr ⟨hwhy, hconcerns⟩
    · exact Or.inl ((registered_remove hr).mpr ⟨hq, heq⟩)
  · intro hdisposed
    rw [hremove.2] at hdisposed
    exact Or.inl hdisposed

end Rules

end Revocation
end WebSocketAuthIndex
end Server
end FlanTerminal
