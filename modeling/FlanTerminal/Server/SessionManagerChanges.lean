import FlanTerminal.Server.SessionManagerHistory

/-!
# What an operation changes of the structure

The revision of the store counts the commits that change its structure.  While
one operation alone makes such commits, its own log says how far the revision
and the list of tabs go.
-/

namespace FlanTerminal
namespace Server
namespace SessionManager

open Foundation
open Shared
open TabStore (Mutation Sources Committed)

structure Shape where
  revision : Nat
  ids : List JsString

def shapeOf (document : PersistedTabsDocument) : Shape :=
  ⟨document.structureRevision, ids document⟩

/-- Activity is written without a new revision. -/
def isStructural : Mutation -> Bool
  | Mutation.flushActivity _ _ => false
  | _ => true

structure Change where
  number : Nat
  mutation : Mutation
  before : PersistedTabsDocument
  after : PersistedTabsDocument

def changeOf : Entry -> Option Change
  | Entry.committed n mutation before after =>
      if isStructural mutation then some ⟨n, mutation, before, after⟩ else none
  | _ => none

def changes (log : List Entry) : List Change :=
  log.filterMap changeOf

def Linked (first : Shape) : List Change -> Shape -> Prop
  | [], last => first = last
  | c :: rest, last => shapeOf c.before = first ∧
      Linked (shapeOf c.after) rest last

section Shapes

variable {options : TabStore.Options} {sources : Sources}
variable {mutation : Mutation} {old new : PersistedTabsDocument}

theorem linked_snoc {first last : Shape} {cs : List Change} {c : Change}
    (h : Linked first cs (shapeOf c.before)) (hlast : shapeOf c.after = last) :
    Linked first (cs ++ [c]) last := by
  induction cs generalizing first with
  | nil => exact ⟨h.symm, hlast⟩
  | cons x rest ih => exact ⟨h.1, ih h.2⟩

theorem shape_quiet (h : Committed options sources old mutation new)
    (hquiet : isStructural mutation = false) : shapeOf new = shapeOf old := by
  cases h with
  | quiet _ => rfl
  | @flushActivity given now =>
      have hids : (old.tabs.map (TabStore.withLastActivity given now)).map
          TabRecord.id = ids old := by
        rw [ids, List.map_map]
        apply List.map_congr_left
        intro tab _
        exact TabStore.withLastActivity_id given now tab
      rw [shapeOf, ids, hids]
      rfl
  | create _ _ _ _ => cases hquiet
  | present _ => cases hquiet
  | initial _ _ _ _ => cases hquiet
  | rename _ _ _ _ _ => cases hquiet
  | reorder _ => cases hquiet
  | setDesiredState _ _ _ => cases hquiet
  | remove _ _ _ => cases hquiet

/-- What the mutations of the routes and of the life cycle do to the shape. -/
def Reshapes (mutation : Mutation) (before after : Shape) : Prop :=
  after.revision = before.revision + 1 ∧
    match mutation with
    | Mutation.create _ => exists id, after.ids = before.ids ++ [id]
    | Mutation.rename _ _ => after.ids = before.ids
    | Mutation.setDesiredState _ _ => after.ids = before.ids
    | Mutation.remove id => after.ids = before.ids.filter fun x => x ≠ id
    | _ => True

theorem reshapes (h : Committed options sources old mutation new)
    (hstructural : isStructural mutation = true)
    (hinitial : mutation ≠ Mutation.ensureInitialTab) :
    Reshapes mutation (shapeOf old) (shapeOf new) := by
  cases h with
  | create title tab _ _ =>
      refine ⟨rfl, tab.id, ?_⟩
      exact List.map_append
  | present _ => exact absurd rfl hinitial
  | initial _ _ _ _ => exact absurd rfl hinitial
  | rename title tab _ _ _ =>
      refine ⟨rfl, ?_⟩
      exact TabStore.ids_mapTab (f := TabStore.withDisplayName title)
        (fun _ => rfl) _ _
  | reorder _ => exact ⟨rfl, trivial⟩
  | @setDesiredState id state tab _ _ =>
      refine ⟨rfl, ?_⟩
      exact TabStore.ids_mapTab (f := TabStore.withDesiredState state)
        (fun _ => rfl) _ _
  | @remove id tab _ _ =>
      refine ⟨rfl, ?_⟩
      show ids _ = (ids old).filter _
      rw [ids, TabStore.ids_renumber, ids, List.filter_map]
      rfl
  | quiet _ => cases hstructural
  | flushActivity => cases hstructural

end Shapes

/-!
## The log of one writer
-/

section Logs

variable {options : TabStore.Options} {n : Nat} {cs : Census} {s : State}
variable {base more log before after : List Entry}

theorem changes_append (log log' : List Entry) :
    changes (log ++ log') = changes log ++ changes log' :=
  List.filterMap_append

theorem linked_history {history : List PersistedTabsDocument}
    (hgood : EveryEntry (Good options) (base ++ more))
    (hplaced : EveryEntry (Placed history) (base ++ more))
    {old new : PersistedTabsDocument}
    (hold : history[commits base]? = some old)
    (hnew : history[commits (base ++ more)]? = some new) :
    Linked (shapeOf old) (changes more) (shapeOf new) := by
  induction more using List.reverseRecOn generalizing new with
  | nil =>
      rw [List.append_nil, hold] at hnew
      cases hnew
      rfl
  | append_singleton more e ih =>
      rw [← List.append_assoc] at hgood hplaced hnew
      rw [changes_append]
      have hgoods := everyEntry_snoc.mp hgood
      have hplaces := everyEntry_snoc.mp hplaced
      have hsame : changeOf e = none ->
          history[commits (base ++ more)]? = some new ->
          Linked (shapeOf old) (changes more ++ changes [e])
            (shapeOf new) := by
        intro hnone hcurrent
        rw [show changes [e] = [] from List.filterMap_cons_none hnone,
          List.append_nil]
        exact ih hgoods.1 hplaces.1 hcurrent
      rw [commits_append] at hnew
      cases e with
      | committed m mutation before after =>
          have hafter := hplaces.2.2.symm.trans hnew
          cases hafter
          have hlinked := ih hgoods.1 hplaces.1 hplaces.2.1
          rcases hgoods.2 with ⟨_, sources, hcommitted⟩
          cases hstructural : isStructural mutation with
          | false =>
              have hnone : changeOf (Entry.committed m mutation before
                  new) = none := by
                simp only [changeOf, hstructural]
                rfl
              rw [show changes [_] = [] from List.filterMap_cons_none hnone,
                List.append_nil, shape_quiet hcommitted hstructural]
              exact hlinked
          | true =>
              have hsome : changeOf (Entry.committed m mutation before
                  new) = some ⟨m, mutation, before, new⟩ := by
                simp only [changeOf, hstructural]
                rfl
              rw [show changes [_] = [_] from
                List.filterMap_cons_some hsome]
              exact linked_snoc hlinked rfl
      | read _ _ => exact hsame rfl hnew
      | entered _ _ => exact hsame rfl hnew
      | locked _ _ _ => exact hsame rfl hnew
      | asked _ _ => exact hsame rfl hnew
      | answered _ _ _ => exact hsame rfl hnew
      | probed _ _ _ _ => exact hsame rfl hnew
      | ended _ _ _ _ => exact hsame rfl hnew

theorem number_of_change {e : Entry} {c : Change} (h : changeOf e = some c) :
    e = Entry.committed c.number c.mutation c.before c.after ∧
      isStructural c.mutation = true := by
  cases e with
  | committed m mutation before after =>
      simp only [changeOf] at h
      split at h
      · rename_i hstructural
        cases h
        exact ⟨rfl, hstructural⟩
      · cases h
  | read _ _ => cases h
  | entered _ _ => cases h
  | locked _ _ _ => cases h
  | asked _ _ => cases h
  | answered _ _ _ => cases h
  | probed _ _ _ _ => cases h
  | ended _ _ _ _ => cases h

theorem changes_own (h : forall c, c ∈ changes log -> c.number = n) :
    changes (own n log) = changes log := by
  induction log with
  | nil => rfl
  | cons e rest ih =>
      have hrest : forall c, c ∈ changes rest -> c.number = n := by
        intro c hc
        apply h c
        rw [show e :: rest = [e] ++ rest from rfl, changes_append]
        exact List.mem_append_right _ hc
      by_cases he : e.number = n
      · have hown : own n (e :: rest) = e :: own n rest :=
          List.filter_cons_of_pos (decide_eq_true he)
        rw [hown, changes, changes, List.filterMap_cons, List.filterMap_cons]
        rw [show List.filterMap changeOf (own n rest) =
          List.filterMap changeOf rest from ih hrest]
      · have hown : own n (e :: rest) = own n rest :=
          List.filter_cons_of_neg (by simpa using he)
        have hnone : changeOf e = none := by
          cases hchange : changeOf e with
          | none => rfl
          | some c =>
              have hc : c ∈ changes (e :: rest) :=
                List.mem_filterMap.mpr ⟨e, List.mem_cons_self, hchange⟩
              rw [(number_of_change hchange).1] at he
              exact absurd (h c hc) he
        rw [hown, changes, changes, List.filterMap_cons_none hnone]
        exact ih hrest

theorem own_after (hinv : Inv options cs s) {o : Op}
    {res : Except Thrown Value} {document : PersistedTabsDocument}
    (hlog : s.log = before ++ Entry.ended n o res document :: after) :
    own n after = [] := by
  apply List.filter_eq_nil_iff.mpr
  intro e he hnumber
  rcases List.append_of_mem he with ⟨front, back, hsplit⟩
  have hsilent := hinv.silent (before ++ Entry.ended n o res document :: front)
    e back (by
      rw [hlog, hsplit]
      simp)
  apply hsilent
  rw [of_decide_eq_true hnumber]
  exact ⟨o, res, document,
    List.mem_append_right _ List.mem_cons_self⟩

theorem own_append (log log' : List Entry) :
    own n (log ++ log') = own n log ++ own n log' :=
  List.filter_append log log'

/-- A stretch of the log in which one operation alone changes the structure,
from its start to its end. -/
structure Stretch (n : Nat) (o : Op) (res : Except Thrown Value)
    (base before : List Entry) (old : PersistedTabsDocument) (s : State) :
    Prop where
  log : exists more, s.log = base ++ more ∧
    forall c, c ∈ changes more -> c.number = n
  began : own n base = []
  ended : exists document after,
    s.log = before ++ Entry.ended n o res document :: after
  first : s.history[commits base]? = some old

theorem Stretch.linked {o : Op} {res : Except Thrown Value}
    {old : PersistedTabsDocument} (h : Stretch n o res base before old s)
    (hinv : Inv options cs s) :
    Linked (shapeOf old) (changes (own n before)) (shapeOf s.document) := by
  rcases h.log with ⟨more, hmore, halone⟩
  rcases h.ended with ⟨document, after, hlog⟩
  have hown : own n more = own n before ++
      [Entry.ended n o res document] := by
    have hall : own n base ++ own n more = own n before ++
        own n (Entry.ended n o res document :: after) := by
      rw [← own_append, ← own_append, ← hmore, hlog]
    rw [h.began, List.nil_append] at hall
    rw [hall, show own n (Entry.ended n o res document :: after) =
      Entry.ended n o res document :: own n after from
        List.filter_cons_of_pos (decide_eq_true rfl), own_after hinv hlog]
  have hlinked := linked_history (hmore ▸ hinv.good) (hmore ▸ hinv.placed)
    h.first (by
      rw [← hmore]
      exact hinv.current)
  rw [← changes_own halone, hown, changes_append] at hlinked
  rw [show changes [Entry.ended n o res document] = [] from rfl,
    List.append_nil] at hlinked
  exact hlinked

theorem split_own {e : Entry} {front : List Entry}
    (h : own n log = front ++ [e]) :
    e.number = n ∧ exists before after, log = before ++ e :: after ∧
      own n after = [] := by
  rcases List.filter_eq_append_iff.mp h with ⟨left, right, hlog, _, hright⟩
  rcases List.filter_eq_cons_iff.mp hright with ⟨mid, after, hmid, _, he, hnil⟩
  refine ⟨of_decide_eq_true he, left ++ mid, after, ?_, hnil⟩
  rw [hlog, hmid, List.append_assoc]

theorem Stretch.inside {o : Op} {res : Except Thrown Value}
    {old : PersistedTabsDocument} (h : Stretch n o res base before old s)
    {e : Entry} (he : e.number = n) {left right : List Entry}
    (hsplit : s.log = left ++ e :: right) :
    forall c, c ∈ changes right -> c.number = n := by
  rcases h.log with ⟨more, hmore, halone⟩
  intro c hc
  apply halone
  rcases List.append_eq_append_iff.mp (hmore.symm.trans hsplit) with
    ⟨mid, _, hmid⟩ | ⟨mid, hmid, hright⟩
  · rw [hmid, changes_append, show e :: right = [e] ++ right from rfl,
      changes_append]
    exact List.mem_append_right _ (List.mem_append_right _ hc)
  · cases mid with
    | nil =>
        rw [List.nil_append] at hright
        rw [← hright, show e :: right = [e] ++ right from rfl, changes_append]
        exact List.mem_append_right _ hc
    | cons x mid =>
        -- The entry would stand before the operation begins.
        cases hright
        have hmem : e ∈ own n base := by
          rw [hmid]
          exact List.mem_filter.mpr ⟨List.mem_append_right _
            List.mem_cons_self, decide_eq_true he⟩
        rw [h.began] at hmem
        cases hmem

theorem Stretch.read {o : Op} {res : Except Thrown Value}
    {old : PersistedTabsDocument} (h : Stretch n o res base before old s)
    (hinv : Inv options cs s) {front : List Entry} {m : Nat}
    {document : PersistedTabsDocument}
    (hread : own n before = front ++ [Entry.read m document]) :
    shapeOf s.document = shapeOf document := by
  rcases h.ended with ⟨current, after, hlog⟩
  rcases split_own hread with ⟨hm, left, right, hbefore, hright⟩
  have hsplit : s.log = left ++ Entry.read m document ::
      (right ++ Entry.ended n o res current :: after) := by
    rw [hlog, hbefore]
    simp
  have hquiet : changes (right ++ Entry.ended n o res current :: after) =
      [] := by
    rw [← changes_own (h.inside hm hsplit), own_append, hright,
      show own n (Entry.ended n o res current :: after) =
        Entry.ended n o res current :: own n after from
          List.filter_cons_of_pos (decide_eq_true rfl), own_after hinv hlog]
    rfl
  have hlog' : s.log = (left ++ [Entry.read m document]) ++
      (right ++ Entry.ended n o res current :: after) := by
    rw [hsplit]
    simp
  have hplaced := hinv.placed left _ _ hsplit
  have hlinked := linked_history (hlog' ▸ hinv.good) (hlog' ▸ hinv.placed)
    (show s.history[commits (left ++ [Entry.read m document])]? =
        some document by
      rw [commits_append]
      exact hplaced)
    (by
      rw [← hlog']
      exact hinv.current)
  rw [hquiet] at hlinked
  exact hlinked.symm

end Logs

/-!
## The changes of an operation
-/

def Change.mark (c : Change) : Mark :=
  match c.mutation with
  | Mutation.setDesiredState _ DesiredState.stopped => Mark.stopped
  | Mutation.setDesiredState _ DesiredState.active => Mark.active
  | _ => Mark.changed

def Mark.isChange : Mark -> Bool
  | stopped => true
  | active => true
  | changed => true
  | _ => false

section Operations

variable {options : TabStore.Options} {n : Nat} {o : Op} {cs : Census}
variable {s : State} {base before after : List Entry}

theorem mark_of_change {e : Entry}
    (h : forall m mutation x y, e = Entry.committed m mutation x y ->
      isStructural mutation = true) :
    (changeOf e).map Change.mark = (markOf e).filter Mark.isChange := by
  cases e with
  | committed m mutation x y =>
      have hsome : changeOf (Entry.committed m mutation x y) =
          some ⟨m, mutation, x, y⟩ := by
        simp only [changeOf, h m mutation x y rfl]
        rfl
      rw [hsome]
      cases mutation with
      | setDesiredState id state =>
          cases state with
          | active => rfl
          | stopped => rfl
      | create _ => rfl
      | ensureInitialTab => rfl
      | rename _ _ => rfl
      | reorder _ _ => rfl
      | remove _ => rfl
      | flushActivity _ _ => rfl
  | asked m c =>
      cases c with
      | _ => rfl
  | answered m c b =>
      cases c with
      | _ => rfl
  | read _ _ => rfl
  | entered _ _ => rfl
  | locked _ _ _ => rfl
  | probed _ _ _ _ => rfl
  | ended _ _ _ _ => rfl

theorem marks_changes {events : List Entry}
    (h : forall m mutation x y, Entry.committed m mutation x y ∈ events ->
      isStructural mutation = true) :
    (changes events).map Change.mark =
      (marks events).filter Mark.isChange := by
  rw [changes, marks, List.map_filterMap, List.filter_filterMap]
  apply List.filterMap_congr
  intro e he
  apply mark_of_change
  intro m mutation x y heq
  apply h m mutation x y
  rw [← heq]
  exact he

theorem structural_of_proper {mutation : Mutation}
    (h : Proper o (PortCall.commit mutation))
    (ho : forall ids now, o ≠ Op.flushActivity ids now) :
    isStructural mutation = true := by
  cases mutation with
  | flushActivity ids now =>
      have hown : Own o (Mutation.flushActivity ids now) := by
        unfold Proper at h
        split at h
        · rcases h with ⟨state, hstate⟩ | ⟨mutation, hown, heq⟩
          · cases hstate
          · cases heq
            exact hown
        · exact h _ rfl
      cases o with
      | flushActivity ids' now' => exact absurd rfl (ho ids' now')
      | closeTab _ => cases hown
      | create _ => cases hown
      | rename _ _ => cases hown
      | reorder _ _ => cases hown
      | ensureInitialTab => cases hown
      | _ => exact hown.elim
  | create _ => rfl
  | ensureInitialTab => rfl
  | rename _ _ => rfl
  | reorder _ _ => rfl
  | setDesiredState _ _ => rfl
  | remove _ => rfl

structure Change.Made (options : TabStore.Options) (o : Op) (c : Change) :
    Prop where
  proper : Proper o (PortCall.commit c.mutation)
  committed : exists sources,
    Committed options sources c.before c.mutation c.after

theorem changes_made (hinv : Inv options cs s)
    (hlog : s.log = before ++ after) (htask : taskOf n before = some o)
    (ho : forall ids now, o ≠ Op.flushActivity ids now) :
    (forall c, c ∈ changes (own n before) -> c.Made options o) ∧
      (changes (own n before)).map Change.mark =
        (marks (own n before)).filter Mark.isChange := by
  have hmade : forall m mutation x y,
      Entry.committed m mutation x y ∈ own n before ->
      Proper o (PortCall.commit mutation) ∧
        exists sources, Committed options sources x mutation y := by
    intro m mutation x y hmem
    have hm : m = n := of_decide_eq_true (List.mem_filter.mp hmem).2
    subst hm
    exact proper_of_committed hinv hlog htask (mem_of_own hmem)
  constructor
  · intro c hc
    rcases List.mem_filterMap.mp hc with ⟨e, he, hchange⟩
    rw [(number_of_change hchange).1] at he
    rcases hmade _ _ _ _ he with ⟨hproper, hcommitted⟩
    exact ⟨hproper, hcommitted⟩
  · apply marks_changes
    intro m mutation x y hmem
    exact structural_of_proper (hmade m mutation x y hmem).1 ho

theorem linked_kept {first last : Shape} {list : List Change}
    (h : Linked first list last)
    (hlist : forall c, c ∈ list -> shapeOf c.after =
      ⟨(shapeOf c.before).revision + 1, (shapeOf c.before).ids⟩) :
    last = ⟨first.revision + list.length, first.ids⟩ := by
  induction list generalizing first with
  | nil => exact h.symm
  | cons c rest ih =>
      rcases h with ⟨hfirst, hrest⟩
      rw [ih hrest fun c hc => hlist c (List.mem_cons_of_mem _ hc),
        hlist c List.mem_cons_self, hfirst, List.length_cons]
      simp only [Shape.mk.injEq, and_true]
      omega

theorem Change.Made.kept {c : Change} (h : c.Made options o)
    (hkeeps : (exists id state,
        c.mutation = Mutation.setDesiredState id state) ∨
      exists id name, c.mutation = Mutation.rename id name) :
    shapeOf c.after =
      ⟨(shapeOf c.before).revision + 1, (shapeOf c.before).ids⟩ := by
  rcases c with ⟨number, mutation, old, new⟩
  rcases h.committed with ⟨sources, hcommitted⟩
  rcases hkeeps with ⟨id, state, hmutation⟩ | ⟨id, name, hmutation⟩
  · cases hmutation
    rcases reshapes hcommitted rfl (fun h => nomatch h) with ⟨hrevision, hids⟩
    show Shape.mk _ _ = _
    rw [← hrevision, ← hids]
    rfl
  · cases hmutation
    rcases reshapes hcommitted rfl (fun h => nomatch h) with ⟨hrevision, hids⟩
    show Shape.mk _ _ = _
    rw [← hrevision, ← hids]
    rfl

theorem Change.Made.desired {c : Change} (h : c.Made options o)
    {id : JsString} (ho : o.tab = some id)
    (hown : forall mutation, ¬ Own o mutation) :
    exists id state, c.mutation = Mutation.setDesiredState id state := by
  have hproper := h.proper
  rw [Proper, ho] at hproper
  rcases hproper with ⟨state, hstate⟩ | ⟨mutation, hmutation, _⟩
  · exact ⟨id, state, hstate⟩
  · exact absurd hmutation (hown mutation)

def Reshaped (events : List Entry) (value : Value) (first last : Shape) :
    Op -> Prop
  | Op.create _ => exists view, value = Value.view view ∧
      last = ⟨first.revision + 1, first.ids ++ [view.id]⟩
  | Op.rename _ _ => (exists view, value = Value.view view) ∧
      last = ⟨first.revision + 1, first.ids⟩
  | Op.reorder _ _ => exists collection,
      value = Value.collection collection ∧
      last = ⟨collection.structureRevision, collection.tabs.map TabView.id⟩
  | Op.collectionView => exists collection,
      value = Value.collection collection ∧
      last = ⟨collection.structureRevision, collection.tabs.map TabView.id⟩
  | Op.closeTab id => value = Value.none ∧
      last = ⟨first.revision + 2, first.ids.filter fun x => x ≠ id⟩
  | Op.terminate id => (Idle id events -> last = first) ∧
      (¬ Idle id events -> last = ⟨first.revision + 1, first.ids⟩)
  | Op.recreate _ => last = ⟨first.revision + 1, first.ids⟩
  | Op.restart _ => last = ⟨first.revision + 2, first.ids⟩
  | Op.restartBridge _ => last = first
  | _ => True

theorem Stretch.lifecycle {value : Value} {old : PersistedTabsDocument}
    (h : Stretch n o (Except.ok value) base before old s)
    (hinv : Inv options cs s) {id : JsString} (ho : o.tab = some id)
    (hown : forall mutation, ¬ Own o mutation) {done : List Mark}
    (hdone : marks (own n before) = done) :
    shapeOf s.document = ⟨(shapeOf old).revision +
      (done.filter Mark.isChange).length, (shapeOf old).ids⟩ := by
  rcases h.ended with ⟨document, after, hlog⟩
  have htask := (hinv.good before _ after hlog).1
  have hplain : forall ids now, o ≠ Op.flushActivity ids now := by
    intro ids now heq
    rw [heq] at ho
    cases ho
  rcases changes_made hinv hlog htask hplain with ⟨hmade, hmarks⟩
  have hkept := linked_kept (h.linked hinv) fun c hc =>
    (hmade c hc).kept (Or.inl ((hmade c hc).desired ho hown))
  have hlength := congrArg List.length hmarks
  rw [List.length_map, hdone] at hlength
  rw [hkept, hlength]

theorem Stretch.route {value : Value} {old : PersistedTabsDocument}
    (h : Stretch n o (Except.ok value) base before old s)
    (hinv : Inv options cs s) (mutation : Mutation) (ho : o.tab = none)
    (hown : forall mutation', Own o mutation' -> mutation' = mutation)
    (hplain : forall ids now, o ≠ Op.flushActivity ids now)
    (hdone : marks (own n before) = [Mark.changed]) :
    exists c, changes (own n before) = [c] ∧ c.mutation = mutation ∧
      c.Made options o ∧ shapeOf c.before = shapeOf old ∧
      shapeOf c.after = shapeOf s.document := by
  rcases h.ended with ⟨document, after, hlog⟩
  have htask := (hinv.good before _ after hlog).1
  rcases changes_made hinv hlog htask hplain with ⟨hmade, hmarks⟩
  have hlinked := h.linked hinv
  rw [hdone] at hmarks
  rcases List.map_eq_singleton_iff.mp hmarks with ⟨c, hchanges, _⟩
  rw [hchanges] at hlinked hmade
  have hc := hmade c (List.mem_singleton.mpr rfl)
  have hproper := hc.proper
  rw [Proper, ho] at hproper
  exact ⟨c, hchanges, hown _ (hproper c.mutation rfl), hc, hlinked.1,
    hlinked.2⟩

theorem Stretch.created {value : Value} {old : PersistedTabsDocument}
    {name : Option JsString}
    (h : Stretch n (Op.create name) (Except.ok value) base before old s)
    (hinv : Inv options cs s) {view : TabView}
    (hdone : marks (own n before) = [Mark.changed])
    (hcreated : Created n name (own n before) view.id) :
    shapeOf s.document =
      ⟨(shapeOf old).revision + 1, (shapeOf old).ids ++ [view.id]⟩ := by
  rcases h.route hinv (Mutation.create name) rfl
    (fun _ hown => hown) (fun _ _ h => nomatch h) hdone with
    ⟨c, hchanges, hmutation, hmade, hfirst, hlast⟩
  rcases hcreated with ⟨x, y, hmem, hin, hout⟩
  -- The commit that brings the tab in is the one change.
  have hc : Change.mk n (Mutation.create name) x y ∈ [c] := by
    rw [← hchanges]
    exact List.mem_filterMap.mpr ⟨_, hmem, rfl⟩
  rw [← List.mem_singleton.mp hc] at hmade hfirst hlast
  rcases hmade.committed with ⟨sources, hcommitted⟩
  rcases reshapes hcommitted rfl (fun h => nomatch h) with
    ⟨hrevision, id, hids⟩
  have hid : view.id = id := by
    have hin' : view.id ∈ (shapeOf y).ids := hin
    rw [hids] at hin'
    rcases List.mem_append.mp hin' with hin' | hin'
    · exact absurd hin' hout
    · exact List.mem_singleton.mp hin'
  rw [← hlast, ← hfirst, hid, ← hids, ← hrevision]

theorem Stretch.closed {value : Value} {old : PersistedTabsDocument}
    {id : JsString}
    (h : Stretch n (Op.closeTab id) (Except.ok value) base before old s)
    (hinv : Inv options cs s)
    (hdone : marks (own n before) = stopped true true ++ [Mark.changed]) :
    shapeOf s.document = ⟨(shapeOf old).revision + 2,
      (shapeOf old).ids.filter fun x => x ≠ id⟩ := by
  rcases h.ended with ⟨document, after, hlog⟩
  have htask := (hinv.good before _ after hlog).1
  rcases changes_made hinv hlog htask (fun _ _ h => nomatch h) with
    ⟨hmade, hmarks⟩
  have hlinked := h.linked hinv
  rw [hdone] at hmarks
  -- The tab is stopped and then removed.
  rcases List.map_eq_cons_iff.mp hmarks with ⟨c, rest, hchanges, hc, hrest⟩
  rcases List.map_eq_singleton_iff.mp hrest with ⟨c', hrest, hc'⟩
  rw [hrest] at hchanges
  rw [hchanges] at hlinked hmade
  rcases hlinked with ⟨hfirst, hsecond, hlast⟩
  have hmade' := hmade c' (by simp)
  have hremove : c'.mutation = Mutation.remove id := by
    rcases hmade'.proper with ⟨state, hstate⟩ | ⟨mutation, hown, heq⟩
    · rw [Change.mark, hstate] at hc'
      cases state with
      | active => cases hc'
      | stopped => cases hc'
    · cases heq
      exact hown
  have hstopped : exists key state,
      c.mutation = Mutation.setDesiredState key state := by
    rcases (hmade c (by simp)).proper with ⟨state, hstate⟩ |
      ⟨mutation, hown, heq⟩
    · exact ⟨id, state, hstate⟩
    · cases heq
      rw [Change.mark, show c.mutation = Mutation.remove id from hown] at hc
      cases hc
  have hkept := (hmade c (by simp)).kept (Or.inl hstopped)
  rcases c' with ⟨number, mutation, x, y⟩
  cases hremove
  rcases hmade'.committed with ⟨sources, hcommitted⟩
  rcases reshapes hcommitted rfl (fun h => nomatch h) with ⟨hrevision, hids⟩
  have hx : shapeOf x = ⟨(shapeOf old).revision + 1, (shapeOf old).ids⟩ := by
    rw [hsecond, hkept, hfirst]
  rw [hx] at hrevision hids
  rw [← hlast, ← hids]
  show Shape.mk _ _ = _
  rw [show y.structureRevision = (shapeOf old).revision + 1 + 1 from hrevision]
  rfl

theorem Stretch.collected {value : Value} {old : PersistedTabsDocument}
    (h : Stretch n o (Except.ok value) base before old s)
    (hinv : Inv options cs s) {collection : TabCollectionResponse}
    (hcollected : Collected (own n before) collection) :
    shapeOf s.document =
      ⟨collection.structureRevision, collection.tabs.map TabView.id⟩ := by
  rcases hcollected with ⟨front, m, read, hevents, hrevision, htabs⟩
  have hids : collection.tabs.map TabView.id = ids read := by
    rw [ids, ← htabs, List.map_map]
    rfl
  rw [h.read hinv hevents, hrevision, hids]
  rfl

theorem Stretch.reshaped {value : Value} {old : PersistedTabsDocument}
    (h : Stretch n o (Except.ok value) base before old s)
    (hinv : Inv options cs s) :
    Reshaped (own n before) value (shapeOf old) (shapeOf s.document) o := by
  rcases h.ended with ⟨document, after, hlog⟩
  have houtcome := (hinv.good before _ after hlog).2
  cases o with
  | create name =>
      rcases houtcome value rfl with ⟨view, hview, _, hdone, hcreated⟩
      exact ⟨view, hview, h.created hinv hdone hcreated⟩
  | rename id name =>
      rcases houtcome value rfl with ⟨view, hview, _, hdone⟩
      rcases h.route hinv (Mutation.rename id name) rfl
        (fun _ hown => hown) (fun _ _ h => nomatch h) hdone with
        ⟨c, _, hmutation, hmade, hfirst, hlast⟩
      refine ⟨⟨view, hview⟩, ?_⟩
      rw [← hlast, hmade.kept (Or.inr ⟨id, name, hmutation⟩), hfirst]
  | reorder revision order =>
      rcases houtcome value rfl with ⟨collection, hvalue, hcollected, _⟩
      exact ⟨collection, hvalue, h.collected hinv hcollected⟩
  | collectionView =>
      rcases houtcome value rfl with ⟨collection, hvalue, hcollected, _⟩
      exact ⟨collection, hvalue, h.collected hinv hcollected⟩
  | closeTab id =>
      rcases houtcome value rfl with ⟨hvalue, hdone⟩
      exact ⟨hvalue, h.closed hinv hdone⟩
  | terminate id =>
      rcases houtcome value rfl with ⟨view, _, _, hidle, hbusy⟩
      constructor
      · intro hi
        exact h.lifecycle hinv rfl (fun _ h => h) (hidle hi)
      · intro hi
        exact h.lifecycle hinv rfl (fun _ h => h) (hbusy hi)
  | recreate id =>
      exact h.lifecycle hinv rfl (fun _ h => h) (houtcome.resolved value rfl).1
  | restart id =>
      exact h.lifecycle hinv rfl (fun _ h => h) (houtcome.resolved value rfl).1
  | restartBridge id =>
      rcases houtcome value rfl with ⟨view, _, _, hdone⟩
      exact h.lifecycle hinv rfl (fun _ h => h) hdone
  | view _ => trivial
  | authorize _ => trivial
  | connect _ _ _ => trivial
  | terminateIfStale _ _ => trivial
  | ensureInitialTab => trivial
  | flushActivity _ _ => trivial

end Operations

end SessionManager
end Server
end FlanTerminal
