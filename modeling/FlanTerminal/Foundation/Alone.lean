import FlanTerminal.Foundation.Serial

/-!
# A program that runs alone

Every call is answered before anything else happens.  What a program comes to in
this way is one of the things that it can come to among others.
-/

namespace FlanTerminal
namespace Foundation

variable {state : Type} {I : Interface} {error value result : Type}

inductive Prog.Ends (allowed : state -> (c : I.Call) -> I.Reply c -> Prop)
    (reply : (c : I.Call) -> I.Reply c -> state -> state) :
    Prog state I error value -> state -> Except error value -> state ->
      Prop where
  | ret {a s} : Ends allowed reply (Prog.ret a) s (Except.ok a) s
  | raise {e s} : Ends allowed reply (Prog.raise e) s (Except.error e) s
  | act {f k s res s'} : Ends allowed reply (k s) (f s) res s' ->
      Ends allowed reply (Prog.act f k) s res s'
  | call {c k s res s'} (r : I.Reply c) : allowed s c r ->
      Ends allowed reply (k r) (reply c r s) res s' ->
      Ends allowed reply (Prog.call c k) s res s'

namespace Prog

/-- The updates of the program keep the invariant. -/
def Updates (inv : state -> Prop) : Prog state I error value -> Prop
  | ret _ => True
  | raise _ => True
  | act f k => (forall s, inv s -> inv (f s)) ∧ forall s, Updates inv (k s)
  | call _ k => forall r, Updates inv (k r)

theorem Updates.bind {inv : state -> Prop} {p : Prog state I error value}
    {g : value -> Prog state I error result} (hp : p.Updates inv)
    (hg : forall a, (g a).Updates inv) : (p >>= g).Updates inv := by
  induction p with
  | ret a => exact hg a
  | raise e => trivial
  | act f k ih => exact ⟨hp.1, fun s => ih s (hp.2 s)⟩
  | call c k ih => exact fun r => ih r (hp r)

theorem Updates.always {inv : state -> Prop} {p : Prog state I error value}
    {q : Prog state I error Unit} (hp : p.Updates inv)
    (hq : q.Updates inv) : (p.always q).Updates inv := by
  induction p with
  | ret a => exact hq.bind fun _ => trivial
  | raise e => exact hq.bind fun _ => trivial
  | act f k ih => exact ⟨hp.1, fun s => ih s (hp.2 s)⟩
  | call c k ih => exact fun r => ih r (hp r)

section Ends

variable {allowed : state -> (c : I.Call) -> I.Reply c -> Prop}
variable {reply : (c : I.Call) -> I.Reply c -> state -> state}
variable {s s' s'' : state}

theorem Ends.ask {c : I.Call} {r : I.Reply c} (h : allowed s c r) :
    Ends allowed reply (Prog.ask c : Prog state I error (I.Reply c)) s
      (Except.ok r) (reply c r s) :=
  Ends.call r h Ends.ret

theorem Ends.bind {p : Prog state I error value}
    {g : value -> Prog state I error result} {a : value}
    {res : Except error result}
    (hp : Ends allowed reply p s (Except.ok a) s')
    (hg : Ends allowed reply (g a) s' res s'') :
    Ends allowed reply (p >>= g) s res s'' := by
  induction p generalizing s with
  | ret b =>
      cases hp
      exact hg
  | raise e => cases hp
  | act f k ih =>
      cases hp with
      | act hp => exact Ends.act (ih s hp)
  | call c k ih =>
      cases hp with
      | call r hr hp => exact Ends.call r hr (ih r hp)

theorem Ends.always {p : Prog state I error value}
    {q : Prog state I error Unit} {res : Except error value}
    (hp : Ends allowed reply p s res s')
    (hq : Ends allowed reply q s' (Except.ok ()) s'') :
    Ends allowed reply (p.always q) s res s'' := by
  induction p generalizing s with
  | ret b =>
      cases hp
      exact Ends.bind hq Ends.ret
  | raise e =>
      cases hp
      exact Ends.bind hq Ends.raise
  | act f k ih =>
      cases hp with
      | act hp => exact Ends.act (ih s hp)
  | call c k ih =>
      cases hp with
      | call r hr hp => exact Ends.call r hr (ih r hp)

theorem Ends.keeps {inv : state -> Prop} {p : Prog state I error value}
    {res : Except error value} (h : Ends allowed reply p s res s')
    (hp : p.Updates inv)
    (hreply : forall {s c r}, inv s -> allowed s c r -> inv (reply c r s))
    (hs : inv s) : inv s' := by
  induction h with
  | ret => exact hs
  | raise => exact hs
  | act _ ih => exact ih (hp.2 _) (hp.1 _ hs)
  | call r hr _ ih => exact ih (hp r) (hreply hs hr)

end Ends

end Prog

/-- What the work of an operation owes among others, it owes alone. -/
theorem Serial.Rules.ends_of_owes {inner op : Type}
    {P : Serial inner I error value op} (R : Serial.Rules P) {n : Nat}
    (hissue : forall c s, P.issue n c s = s)
    {allowed : inner -> (c : I.Call) -> I.Reply c -> Prop}
    (hallowed : forall {s c r}, allowed s c r -> P.allowed s n c r)
    {Q : Except error result -> inner -> Prop}
    {p : Prog inner I error result} {s s' : inner} {res : Except error result}
    (howes : R.owes n Q p s) (h : p.Ends allowed (P.reply n) s res s') :
    Q res s' := by
  induction h with
  | ret => exact howes
  | raise => exact howes
  | act _ ih => exact ih howes
  | @call c k s res s' r hr _ ih =>
      by_cases hc : P.boundary c = Boundary.sync
      · have hnext := howes.1 hc r
        rw [hissue] at hnext
        exact ih (hnext (hallowed hr))
      · have hnext := howes.2 hc
        rw [hissue] at hnext
        exact ih (hnext.2 s r (R.refl s) hnext.1 (hallowed hr))

end Foundation
end FlanTerminal
