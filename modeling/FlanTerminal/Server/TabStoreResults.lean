import FlanTerminal.Foundation.Script
import FlanTerminal.Server.TabStoreHistory

/-!
# What the tab store guarantees

The documents that are held, the tabs in them, and the file beside them, in
every run over any number of processes.
-/

namespace FlanTerminal
namespace Server
namespace TabStore

open Foundation
open Shared

/-!
## Runs that can be played
-/

def firstId : JsString :=
  js "00000000-0000-4000-8000-000000000001"

def secondId : JsString :=
  js "00000000-0000-4000-8000-000000000002"

/-- Replies of a file system that does not fail.  The first identifier is given
out while the file has no tab. -/
def calmReply (files : Files) : (c : PortCall) -> PortReply c
  | PortCall.now => Except.ok (js "2026-01-02T03:04:05.678Z")
  | PortCall.randomUUID =>
      Except.ok (if (files.primary.getD []).length < 100 then firstId
        else secondId)
  | PortCall.run Action.openPrimary =>
      if files.primary.isSome then Except.ok ()
      else Except.error ⟨some (js "ENOENT")⟩
  | PortCall.run (Action.openTemp id) =>
      if files.temps.get id = none then Except.ok ()
      else Except.error ⟨some (js "EEXIST")⟩
  | PortCall.run (Action.rename id) =>
      if (files.temps.get id).isSome then Except.ok ()
      else Except.error ⟨some (js "ENOENT")⟩
  | PortCall.run _ => Except.ok ()
  | PortCall.stat => Except.ok ⟨true, (files.primary.getD []).length, false⟩
  | PortCall.read offset =>
      Except.ok ⟨(((files.primary.getD []).drop offset).length : Nat),
        (files.primary.getD []).drop offset⟩
  | PortCall.readdir => Except.ok []
  | PortCall.lstat _ => Except.ok ⟨true, 0, false⟩
  | PortCall.writeFile _ _ => Except.ok ()

theorem calmReply_allowed (files : Files) (c : PortCall) :
    Allowed files c (calmReply files c) := by
  cases c with
  | run a =>
      cases a with
      | openPrimary =>
          show Allowed files _ (if files.primary.isSome then _ else _)
          split
          · rename_i hsome
            exact hsome
          · rename_i hnone
            intro _
            simpa using hnone
      | openTemp id =>
          show Allowed files _ (if files.temps.get id = none then _ else _)
          split
          · rename_i hfree
            exact hfree
          · trivial
      | rename id =>
          show Allowed files _ (if (files.temps.get id).isSome then _ else _)
          split
          · rename_i hsome
            exact hsome
          · trivial
      | _ => trivial
  | stat => exact ⟨rfl, rfl⟩
  | read offset => exact Or.inr ⟨rfl, List.prefix_refl _, id⟩
  | now => trivial
  | randomUUID => trivial
  | readdir => trivial
  | lstat id => trivial
  | writeFile id data => trivial

def calm (options : Options) : Script (store options).machine where
  reply s _
    | Serial.Call.wait _ => ()
    | Serial.Call.own c => calmReply s.inner.files c
  fair s _
    | Serial.Call.wait none => true
    | Serial.Call.wait (some p) => decide (p ∈ s.settled)
    | Serial.Call.own _ => true
  admits _ _ := true
  nudge _ := none
  fair_allowed s n c h := by
    cases c with
    | wait prior =>
        cases prior with
        | none => exact fun p hp => by cases hp
        | some p =>
            intro q hq
            cases hq
            exact of_decide_eq_true h
    | own c => exact calmReply_allowed _ c
  admits_sound _ _ _ := trivial
  nudge_env _ _ h := by cases h

def sampleOptions : Options := ⟨3, id⟩

def callAndResume (o : Op) (times : Nat) : List (Move Op) :=
  Move.enter o :: List.replicate times (Move.resume 0)

def begun (files : Files) : Situation :=
  ⟨Line.initial (State.initial files), [], [], 0⟩

def played (options : Options) (files : Files) (moves : List (Move Op)) :
    Option Situation :=
  (calm options).play moves (begun files)

theorem played_run {options : Options} {files : Files}
    {moves : List (Move Op)} {cfg : Situation}
    (h : played options files moves = some cfg) : Run options files cfg :=
  ⟨_, Begins.first, Script.play_reachable h⟩

/-- A store without a file, two tabs, and a snapshot before and after they have
been swapped. -/
def sampleMoves : List (Move Op) :=
  callAndResume Op.initializeStore 12 ++
    callAndResume (Op.mutate (Mutation.create none)) 9 ++
    callAndResume (Op.mutate (Mutation.create none)) 9 ++
    [Move.enter Op.snapshot] ++
    callAndResume (Op.mutate (Mutation.reorder 2 [secondId, firstId])) 9 ++
    [Move.enter Op.snapshot, Move.enter Op.durabilityReady]

def sampleEnd : Situation :=
  (played sampleOptions ⟨none, []⟩ sampleMoves).getD (begun ⟨none, []⟩)

theorem sampleEnd_played :
    played sampleOptions ⟨none, []⟩ sampleMoves = some sampleEnd := by
  have hsome : (played sampleOptions ⟨none, []⟩ sampleMoves).isSome = true := by
    decide +kernel
  unfold sampleEnd
  obtain ⟨cfg, hcfg⟩ := Option.isSome_iff_exists.mp hsome
  rw [hcfg]
  rfl

theorem sampleEnd_run : Run sampleOptions ⟨none, []⟩ sampleEnd :=
  played_run sampleEnd_played

/-!
## Tabs from one document to the next
-/

structure TabsKept (options : Options) (document : PersistedTabsDocument) :
    Prop where
  distinct : (document.tabs.map TabRecord.id).Nodup
  ids : forall tab, tab ∈ document.tabs -> isSessionId tab.id = true
  positions : forall (i : Nat) (tab : TabRecord),
    document.tabs[i]? = some tab -> tab.position = i
  count : document.tabs.length ≤ options.sessionMaxCount
  records : forall tab, tab ∈ document.tabs ->
    parseTabRecord options.nfc tab = some tab

/-- What an operation does to the ids of the tabs and to their times of
creation. -/
structure TabsContinue (c d : PersistedTabsDocument) (o : Op) : Prop where
  created : forall tab old, tab ∈ d.tabs -> old ∈ c.tabs -> tab.id = old.id ->
    tab.createdAt = old.createdAt
  appeared : forall tab, tab ∈ d.tabs -> tab.id ∉ c.tabs.map TabRecord.id ->
    (exists name, o = Op.mutate (Mutation.create name)) ∨
      o = Op.mutate Mutation.ensureInitialTab
  vanished : forall old, old ∈ c.tabs -> old.id ∉ d.tabs.map TabRecord.id ->
    o = Op.mutate (Mutation.remove old.id)

section Tabs

variable {options : Options} {sources : Sources}
variable {current after : PersistedTabsDocument} {m : Mutation}

theorem Proper.tabsKept {document : PersistedTabsDocument}
    (h : Proper options document) : TabsKept options document := by
  refine ⟨h.1.distinct, fun tab htab => (h.1.record tab htab).id, ?_, h.2,
    fun tab htab => parseTabRecord_some.mpr (h.1.record tab htab)⟩
  intro i tab htab
  have hposition : (document.tabs.map TabRecord.position)[i]? =
      some tab.position := by
    rw [List.getElem?_map, htab]
    rfl
  rw [h.1.positions] at hposition
  obtain ⟨_, heq⟩ := List.getElem?_eq_some_iff.mp hposition
  rw [List.getElem_range] at heq
  exact heq.symm

theorem Committed.created (hvalid : Valid options.nfc current)
    (hafter : Valid options.nfc after)
    (h : Committed options sources current m after) {tab old : TabRecord}
    (htab : tab ∈ after.tabs) (hold : old ∈ current.tabs)
    (hid : tab.id = old.id) : tab.createdAt = old.createdAt := by
  have hfind := find_of_mem hvalid.distinct hold
  have hfind' := find_of_mem hafter.distinct htab
  rw [hid] at hfind'
  by_cases hother : touched m = some old.id
  · cases h with
    | create title new _ _ => cases hother
    | present _ => cases hother
    | initial new _ _ _ => cases hother
    | rename title found _ _ _ => cases hother
    | reorder _ => cases hother
    | @setDesiredState id state found _ _ =>
        rw [find_mapTab (f := withDesiredState state) (fun _ => rfl), hfind]
          at hfind'
        simp only [Option.map_some, Option.some.injEq] at hfind'
        rw [← hfind']
        split
        · rfl
        · rfl
    | @remove id found _ _ =>
        have hremoved : old.id ∉
            (current.tabs.filter fun tab => tab.id ≠ id).map TabRecord.id := by
          cases hother
          intro hmem
          obtain ⟨tab', htab', heq⟩ := List.mem_map.mp hmem
          have hne := (List.mem_filter.mp htab').2
          simp [heq] at hne
        rw [← ids_renumber, ← hid] at hremoved
        exact absurd (List.mem_map_of_mem htab) hremoved
    | quiet _ => cases hother
    | flushActivity => cases hother
  · obtain ⟨tab', htab', hcreated, _⟩ := h.untouched hvalid hfind hother
    cases hfind'.symm.trans htab'
    exact hcreated

theorem ids_reordered {revision : Nat} {ids : List JsString}
    (h : orderConflict revision ids current = false) :
    (renumber (ids.filterMap (byId current.tabs))).map TabRecord.id = ids := by
  rw [ids_renumber]
  exact ids_chosen fun id hid => (perm_of_orderConflict h).2.mem_iff.mp hid

theorem ids_flushed (ids : List JsString) (now : JsString)
    (tabs : List TabRecord) :
    (tabs.map (withLastActivity ids now)).map TabRecord.id =
      tabs.map TabRecord.id := by
  rw [List.map_map]
  exact List.map_congr_left fun tab _ => withLastActivity_id ids now tab

theorem Committed.appeared (h : Committed options sources current m after)
    {tab : TabRecord} (htab : tab ∈ after.tabs)
    (hnew : tab.id ∉ current.tabs.map TabRecord.id) :
    (exists name, m = Mutation.create name) ∨
      m = Mutation.ensureInitialTab := by
  have hid := List.mem_map_of_mem (f := TabRecord.id) htab
  cases h with
  | @create name title new _ _ => exact Or.inl ⟨name, rfl⟩
  | present _ => exact Or.inr rfl
  | initial new _ _ _ => exact Or.inr rfl
  | rename title found _ _ _ =>
      rw [ids_mapTab (f := withDisplayName title) fun _ => rfl] at hid
      exact absurd hid hnew
  | reorder hconflict =>
      rw [ids_reordered hconflict] at hid
      exact absurd ((perm_of_orderConflict hconflict).2.mem_iff.mp hid) hnew
  | @setDesiredState _ state found _ _ =>
      rw [ids_mapTab (f := withDesiredState state) fun _ => rfl] at hid
      exact absurd hid hnew
  | remove found _ _ =>
      rw [ids_renumber] at hid
      obtain ⟨tab', htab', heq⟩ := List.mem_map.mp hid
      rw [← heq] at hnew
      exact absurd (List.mem_map_of_mem (List.mem_filter.mp htab').1) hnew
  | quiet _ => exact absurd hid hnew
  | flushActivity =>
      rw [ids_flushed] at hid
      exact absurd hid hnew

theorem Committed.vanished (h : Committed options sources current m after)
    {old : TabRecord} (hold : old ∈ current.tabs)
    (hgone : old.id ∉ after.tabs.map TabRecord.id) :
    m = Mutation.remove old.id := by
  have hid := List.mem_map_of_mem (f := TabRecord.id) hold
  cases h with
  | create title new _ _ =>
      rw [List.map_append] at hgone
      exact absurd (List.mem_append_left _ hid) hgone
  | present _ => exact absurd hid hgone
  | initial new hnil _ _ =>
      rw [hnil] at hold
      cases hold
  | rename title found _ _ _ =>
      rw [ids_mapTab (f := withDisplayName title) fun _ => rfl] at hgone
      exact absurd hid hgone
  | reorder hconflict =>
      rw [ids_reordered hconflict] at hgone
      exact absurd ((perm_of_orderConflict hconflict).2.mem_iff.mpr hid) hgone
  | @setDesiredState _ state found _ _ =>
      rw [ids_mapTab (f := withDesiredState state) fun _ => rfl] at hgone
      exact absurd hid hgone
  | @remove id found _ _ =>
      by_cases heq : old.id = id
      · rw [heq]
      · rw [ids_renumber] at hgone
        refine absurd (List.mem_map_of_mem (List.mem_filter.mpr ⟨hold, ?_⟩)) hgone
        simpa using heq
  | quiet _ => exact absurd hid hgone
  | flushActivity =>
      rw [ids_flushed] at hgone
      exact absurd hid hgone

theorem Committed.continues (hvalid : Valid options.nfc current)
    (hafter : Valid options.nfc after)
    (h : Committed options sources current m after) :
    TabsContinue current after (Op.mutate m) := by
  refine ⟨fun tab old htab hold hid => h.created hvalid hafter htab hold hid,
    ?_, fun old hold hgone => congrArg Op.mutate (h.vanished hold hgone)⟩
  intro tab htab hnew
  rcases h.appeared htab hnew with ⟨name, hm⟩ | hm
  · exact Or.inl ⟨name, congrArg Op.mutate hm⟩
  · exact Or.inr (congrArg Op.mutate hm)

end Tabs

/-!
## The documents of a run
-/

section Documents

variable {options : Options} {files : Files} {cfg : Situation} {s : State}
variable {before after front more log : List Entry}

theorem Kept.current (h : Kept options s) {d : PersistedTabsDocument}
    (hd : s.document = some d) : (documents s.log).getLast? = some d := by
  rw [← summary_document]
  exact h.1.document d hd

theorem Kept.proper (h : Kept options s) {d : PersistedTabsDocument}
    (hd : s.document = some d) : Proper options d :=
  h.1.proper d (h.1.document d hd)

theorem committed_stint
    (hlogged : EveryStep View.after View.initial (Good options) log) {n : Nat}
    {d : PersistedTabsDocument}
    (hlog : log = before ++ Entry.committed n d :: after) :
    exists o found front mid, Stint n o found front mid before ∧
      Proper options d ∧ Writes options (documents before).getLast? o d := by
  obtain ⟨hproper, _, o, found, hrunning, hwrites⟩ :=
    hlogged before _ after hlog
  obtain ⟨front, mid, hstint⟩ := stint_of_running hrunning
  rw [summary_document] at hwrites
  exact ⟨o, found, front, mid, hstint, hproper, hwrites⟩

theorem documents_proper
    (hlogged : EveryStep View.after View.initial (Good options) log)
    {d : PersistedTabsDocument} (hd : d ∈ documents log) : Proper options d := by
  obtain ⟨e, he, htaken⟩ := List.mem_filterMap.mp hd
  obtain ⟨before, after, hlog⟩ := List.append_of_mem he
  have hgood := hlogged before e after hlog
  cases e with
  | loaded n document =>
      cases htaken
      exact hgood.2.2.1
  | committed n document =>
      cases htaken
      exact hgood.1
  | started n o held => cases htaken
  | failed n c f => cases htaken
  | renamed n => cases htaken
  | synced n f => cases htaken
  | settled n o res held => cases htaken
  | restarted => cases htaken

/-- The next document that is taken over, after one that has been held. -/
inductive Follows (options : Options) (c : PersistedTabsDocument) :
    PersistedTabsDocument -> Prop where
  | same : Follows options c c
  | step {d : PersistedTabsDocument} {sources : Sources} {m : Mutation} :
      decision options sources c m = Except.ok (some d) -> Follows options c d

theorem follows
    (hlogged : EveryStep View.after View.initial (Good options) log) {e : Entry}
    (hlog : log = before ++ e :: after) {c d : PersistedTabsDocument}
    (hc : (documents before).getLast? = some c) (hd : taken e = some d) :
    Follows options c d := by
  have hgood := hlogged before e after hlog
  rw [← summary_document] at hc
  cases e with
  | loaded n document =>
      cases hd
      rw [hgood.2.2.2 c hc]
      exact Follows.same
  | committed n document =>
      cases hd
      obtain ⟨_, _, o, found, _, hwrites⟩ := hgood
      rw [hc] at hwrites
      cases hwrites with
      | mutated hdecision => exact Follows.step hdecision
  | started n o held => cases hd
  | failed n c f => cases hd
  | renamed n => cases hd
  | synced n f => cases hd
  | settled n o res held => cases hd
  | restarted => cases hd

theorem tab_lasts (hnfc : NormalForm options.nfc)
    (hlogged : EveryStep View.after View.initial (Good options)
      (front ++ more))
    {c d : PersistedTabsDocument} {tab : TabRecord}
    (hc : (documents front).getLast? = some c) (htab : tab ∈ c.tabs)
    (hstays : forall d, d ∈ documents more -> tab.id ∈ d.tabs.map TabRecord.id)
    (hd : (documents (front ++ more)).getLast? = some d) :
    exists tab', tab' ∈ d.tabs ∧ tab'.id = tab.id ∧
      tab'.createdAt = tab.createdAt := by
  induction more using List.reverseRecOn generalizing d with
  | nil =>
      rw [List.append_nil] at hd
      cases hc.symm.trans hd
      exact ⟨tab, htab, rfl, rfl⟩
  | append_singleton more e ih =>
      rw [← List.append_assoc] at hlogged hd
      have hfront := (everyStep_snoc.mp hlogged).1
      cases htaken : taken e with
      | none =>
          rw [documents_snoc_none _ htaken] at hd hstays
          exact ih hfront hstays hd
      | some d' =>
          rw [documents_snoc_some _ htaken] at hd hstays
          rw [List.getLast?_append] at hd
          cases hd
          have hlast : exists c', (documents (front ++ more)).getLast? =
              some c' := by
            rw [documents_append, List.getLast?_append, hc]
            cases (documents more).getLast? with
            | none => exact ⟨c, rfl⟩
            | some c' => exact ⟨c', rfl⟩
          obtain ⟨c', hc'⟩ := hlast
          obtain ⟨old, hold, hid, hcreated⟩ := ih hfront
            (fun d hd => hstays d (List.mem_append_left _ hd)) hc'
          have hmem := hstays d' (by simp)
          obtain ⟨new, hnew, heq⟩ := List.mem_map.mp hmem
          have hproper := documents_proper hfront
            (List.mem_of_getLast? hc')
          refine ⟨new, hnew, heq, ?_⟩
          have hsplit : front ++ more ++ [e] = (front ++ more) ++ e :: [] := rfl
          cases follows hlogged hsplit hc' htaken with
          | same =>
              have hfind := find_of_mem hproper.1.distinct hold
              have hfind' := find_of_mem hproper.1.distinct hnew
              rw [heq, ← hid] at hfind'
              cases hfind.symm.trans hfind'
              exact hcreated
          | step hdecision =>
              obtain ⟨hcommitted, hvalid⟩ :=
                decision_committed hnfc hproper.1 hdecision
              exact (hcommitted.created hproper.1 hvalid hnew hold
                (heq.trans hid.symm)).trans hcreated

/-- In every run the tabs of the document are in order, and a tab keeps its id
and its time of creation for as long as it is there. -/
theorem tab_documents_kept (hnfc : NormalForm options.nfc)
    (hrun : Run options files cfg) :
    (forall d, cfg.shared.inner.document = some d -> TabsKept options d) ∧
      (forall before n c d after,
        cfg.shared.inner.log = before ++ Entry.committed n d :: after ->
        (documents before).getLast? = some c ->
          exists o found front mid, Stint n o found front mid before ∧
            TabsContinue c d o) ∧
      forall front more c d tab,
        cfg.shared.inner.log = front ++ more ->
        (documents front).getLast? = some c -> tab ∈ c.tabs ->
        (forall d, d ∈ documents more ->
          tab.id ∈ d.tabs.map TabRecord.id) ->
        cfg.shared.inner.document = some d ->
          exists tab', tab' ∈ d.tabs ∧ tab'.id = tab.id ∧
            tab'.createdAt = tab.createdAt := by
  have hkept := hrun.kept hnfc
  refine ⟨fun d hd => (hkept.proper hd).tabsKept, ?_, ?_⟩
  · intro before n c d after hlog hc
    obtain ⟨o, found, front, mid, hstint, hproper, hwrites⟩ :=
      committed_stint hkept.2 hlog
    refine ⟨o, found, front, mid, hstint, ?_⟩
    have hfront : EveryStep View.after View.initial (Good options) before := by
      have hlogged := hkept.2
      unfold Logged at hlogged
      rw [hlog] at hlogged
      exact EveryEntry.front hlogged
    have hcurrent := documents_proper hfront (List.mem_of_getLast? hc)
    rw [hc] at hwrites
    cases hwrites with
    | mutated hdecision =>
        obtain ⟨hcommitted, hvalid⟩ :=
          decision_committed hnfc hcurrent.1 hdecision
        exact hcommitted.continues hcurrent.1 hvalid
  · intro front more c d tab hlog hc htab hstays hd
    have hlogged := hkept.2
    have hlast := hkept.current hd
    unfold Logged at hlogged
    rw [hlog] at hlogged hlast
    exact tab_lasts hnfc hlogged hc htab hstays hlast

theorem tab_documents_kept_sample :
    exists d, sampleEnd.shared.inner.document = some d ∧ d.tabs.length = 2 ∧
      TabsKept sampleOptions d := by
  have hsome : (sampleEnd.shared.inner.document.any fun d =>
      d.tabs.length == 2) = true := by decide +kernel
  obtain ⟨d, hd, hlength⟩ := (Option.any_eq_true _ _).mp hsome
  exact ⟨d, hd, by simpa using hlength,
    (tab_documents_kept normalForm_id sampleEnd_run).1 d hd⟩

end Documents

/-!
## Memory and file
-/

def life (log : List Entry) : List Entry :=
  replay (fun acc e => if e = Entry.restarted then [] else acc ++ [e]) [] log

/-- Operations work one after the other, in the order of their calls. -/
def InOrder (log : List Entry) : Prop :=
  forall front n o found rest,
    log = front ++ Entry.started n o found :: rest ->
      forall m o' found', Entry.started m o' found' ∈ life front ->
        m < n ∧ exists res held, Entry.settled m o' res held ∈ life front

/-- Nothing has been synchronised, and the process is the same. -/
def Calm (log : List Entry) : Prop :=
  forall e, e ∈ log -> e.isSync = false ∧ e ≠ Entry.restarted

section Memory

variable {options : Options} {files : Files} {cfg : Situation} {s : State}
variable {before after front mid more log : List Entry}
variable {n : Nat} {o : Op} {found held : Held} {res : Except Rejection Value}

theorem life_snoc (log : List Entry) (e : Entry) :
    life (log ++ [e]) = if e = Entry.restarted then [] else life log ++ [e] :=
  replay_snoc log e

theorem Ending.rejected {v : View} {e : Rejection}
    (h : Ending options v found o (Except.error e) held) :
    held = found ∧ v.renamed = false := by
  cases o with
  | initializeStore =>
      cases h with
      | already _ hrenamed => exact ⟨rfl, hrenamed⟩
      | unreadable _ _ _ hrenamed => exact ⟨rfl, hrenamed⟩
      | failed _ hrenamed => exact ⟨rfl, hrenamed⟩
  | mutate m =>
      cases h with
      | absent _ hrenamed => exact ⟨rfl, hrenamed⟩
      | refused _ _ hrenamed => exact ⟨rfl, hrenamed⟩
      | failed _ hrenamed => exact ⟨rfl, hrenamed⟩
  | snapshot => exact h.elim
  | has id => exact h.elim
  | durabilityReady => exact h.elim

theorem Ending.resolved {v : View}
    (h : Ending options v found o res held) (hrenamed : v.renamed = true) :
    (exists value, res = Except.ok value) ∧ v.synced = true := by
  cases o with
  | initializeStore =>
      cases h with
      | already _ hnot => exact absurd hrenamed (by rw [hnot]; simp)
      | unreadable _ _ _ hnot => exact absurd hrenamed (by rw [hnot]; simp)
      | failed _ hnot => exact absurd hrenamed (by rw [hnot]; simp)
      | loaded _ _ hnot => exact absurd hrenamed (by rw [hnot]; simp)
      | created _ _ _ hsynced => exact ⟨⟨_, rfl⟩, hsynced⟩
  | mutate m =>
      cases h with
      | absent _ hnot => exact absurd hrenamed (by rw [hnot]; simp)
      | refused _ _ hnot => exact absurd hrenamed (by rw [hnot]; simp)
      | failed _ hnot => exact absurd hrenamed (by rw [hnot]; simp)
      | nothing _ _ hnot => exact absurd hrenamed (by rw [hnot]; simp)
      | written _ _ _ hsynced => exact ⟨⟨_, rfl⟩, hsynced⟩
  | snapshot => exact h.elim
  | has id => exact h.elim
  | durabilityReady => exact h.elim

theorem settled_stint
    (hlogged : EveryStep View.after View.initial (Good options) log)
    (hlog : log = before ++ Entry.settled n o res held :: after)
    (hwaits : o.waits = true) :
    exists found front mid, Stint n o found front mid before ∧
      Ending options (summary before) found o res held := by
  obtain ⟨found, hrunning, hending⟩ :=
    (hlogged before _ after hlog).2.2 hwaits
  obtain ⟨front, mid, hstint⟩ := stint_of_running hrunning
  exact ⟨found, front, mid, hstint, hending⟩

/-- What the summary knows of the turns that there have been. -/
structure Turns (log : List Entry) : Prop where
  last : forall m o found, Entry.started m o found ∈ life log ->
    exists l, (summary log).last = some l ∧ m ≤ l
  ended : forall m o found, Entry.started m o found ∈ life log ->
    (summary log).running = some (m, o, found) ∨
      exists res held, Entry.settled m o res held ∈ life log

theorem Turns.inside (h : Turns log) {e : Entry} (he : e.inside = true) :
    Turns (log ++ [e]) := by
  have hne : e ≠ Entry.restarted := by
    intro heq
    rw [heq] at he
    cases he
  have hafter := after_running (v := summary log) he
  have hlife : life (log ++ [e]) = life log ++ [e] := by
    rw [life_snoc, if_neg hne]
  have hold : forall {m o found}, Entry.started m o found ∈ life (log ++ [e]) ->
      Entry.started m o found ∈ life log := by
    intro m o found hm
    rw [hlife] at hm
    rcases List.mem_append.mp hm with hm | hm
    · exact hm
    · rw [← List.mem_singleton.mp hm] at he
      cases he
  constructor
  · intro m o found hm
    rw [summary_snoc, hafter.2]
    exact h.last m o found (hold hm)
  · intro m o found hm
    rw [summary_snoc, hafter.1]
    rcases h.ended m o found (hold hm) with hrunning | ⟨res, held, hsettled⟩
    · exact Or.inl hrunning
    · refine Or.inr ⟨res, held, ?_⟩
      rw [hlife]
      exact List.mem_append_left _ hsettled

theorem Turns.started (h : Turns log) {found : Held}
    (hgood : Good options (summary log) (Entry.started n o found)) :
    Turns (log ++ [Entry.started n o found]) := by
  obtain ⟨hrunning, hlast, _⟩ := hgood
  have hlife : life (log ++ [Entry.started n o found]) =
      life log ++ [Entry.started n o found] := by
    rw [life_snoc, if_neg fun heq => by cases heq]
  have hsummary : (summary (log ++ [Entry.started n o found])).last = some n ∧
      (summary (log ++ [Entry.started n o found])).running =
        some (n, o, found) := by
    rw [summary_snoc]
    exact ⟨rfl, rfl⟩
  constructor
  · intro m o' found' hm
    refine ⟨n, hsummary.1, ?_⟩
    rw [hlife] at hm
    rcases List.mem_append.mp hm with hm | hm
    · obtain ⟨l, hl, hle⟩ := h.last m o' found' hm
      exact Nat.le_of_lt (Nat.lt_of_le_of_lt hle (hlast l hl))
    · cases List.mem_singleton.mp hm
      exact Nat.le_refl n
  · intro m o' found' hm
    rw [hlife] at hm
    rcases List.mem_append.mp hm with hm | hm
    · rcases h.ended m o' found' hm with hold | ⟨res, held, hsettled⟩
      · rw [hrunning] at hold
        cases hold
      · refine Or.inr ⟨res, held, ?_⟩
        rw [hlife]
        exact List.mem_append_left _ hsettled
    · cases List.mem_singleton.mp hm
      exact Or.inl hsummary.2

theorem Turns.settled (h : Turns log) (hwaits : o.waits = true)
    (hgood : Good options (summary log) (Entry.settled n o res held)) :
    Turns (log ++ [Entry.settled n o res held]) := by
  obtain ⟨found, hrunning, _⟩ := hgood.2.2 hwaits
  have hlife : life (log ++ [Entry.settled n o res held]) =
      life log ++ [Entry.settled n o res held] := by
    rw [life_snoc, if_neg fun heq => by cases heq]
  have hold : forall {m o' found'},
      Entry.started m o' found' ∈ life (log ++ [Entry.settled n o res held]) ->
        Entry.started m o' found' ∈ life log := by
    intro m o' found' hm
    rw [hlife] at hm
    rcases List.mem_append.mp hm with hm | hm
    · exact hm
    · cases List.mem_singleton.mp hm
  have hlast : (summary (log ++ [Entry.settled n o res held])).last =
      (summary log).last := by
    rw [summary_snoc]
    show (if o.waits then { summary log with running := none }
      else summary log).last = _
    rw [hwaits]
    rfl
  constructor
  · intro m o' found' hm
    rw [hlast]
    exact h.last m o' found' (hold hm)
  · intro m o' found' hm
    refine Or.inr ?_
    rw [hlife]
    rcases h.ended m o' found' (hold hm) with heq | ⟨res', held', hsettled⟩
    · cases hrunning.symm.trans heq
      exact ⟨res, held, List.mem_append_right _ (List.mem_singleton_self _)⟩
    · exact ⟨res', held', List.mem_append_left _ hsettled⟩

end Memory

/-!
## Reading back
-/

section ReadingBack

variable {options : Options} {files : Files} {cfg : Situation}

theorem persistedTabsDocumentSchema_idempotent {nfc : JsString -> JsString}
    (hnfc : NormalForm nfc) {v : Json} {out : PersistedTabsDocument}
    (h : persistedTabsDocumentSchema nfc v = some out) :
    persistedTabsDocumentSchema nfc out.json = some out := by
  obtain ⟨read, _, hparse⟩ := Option.bind_eq_some_iff.mp h
  have hvalid := (parseDocument_some.mp hparse).valid hnfc
  rw [schema_json hvalid.bounded fun tab htab =>
    (hvalid.record tab htab).position]
  exact parseDocument_some.mpr hvalid

/-- A document of up to twenty tabs that the store holds fits in its file, and
is read back from it. -/
theorem document_reads_back (hnfc : NormalForm options.nfc)
    (hrun : Run options files cfg) {d : PersistedTabsDocument}
    (hd : cfg.shared.inner.document = some d) (hcount : d.tabs.length ≤ 20)
    (hiso : forall tab, tab ∈ d.tabs -> isIsoTimestamp tab.createdAt = true ∧
      isIsoTimestamp tab.lastActivityAt = true) :
    (utf8Bytes d.serialized).length ≤ MAX_DOCUMENT_BYTES ∧
      (forall temps,
        ReadsAs options ⟨some (utf8Bytes d.serialized), temps⟩ d) ∧
      forall v out,
        persistedTabsDocumentSchema options.nfc v = some out ->
          persistedTabsDocumentSchema options.nfc out.json = some out := by
  have hproper := (hrun.kept hnfc).proper hd
  have hfits := serialized_fits hproper.1 hnfc hcount hiso
  refine ⟨?_, ?_, ?_⟩
  · rw [length_utf8Bytes]
    exact hfits
  · exact fun temps => readsAs_of_stored (stored_serialized hproper hfits)
  · exact fun v out h => persistedTabsDocumentSchema_idempotent hnfc h

theorem document_reads_back_sample :
    exists d, sampleEnd.shared.inner.document = some d ∧
      forall temps,
        ReadsAs sampleOptions ⟨some (utf8Bytes d.serialized), temps⟩ d := by
  have hsome : (sampleEnd.shared.inner.document.any fun d =>
      decide (d.tabs.length ≤ 20) && d.tabs.all fun tab =>
        isIsoTimestamp tab.createdAt && isIsoTimestamp tab.lastActivityAt) =
          true := by decide +kernel
  obtain ⟨d, hd, hchecks⟩ := (Option.any_eq_true _ _).mp hsome
  simp only [Bool.and_eq_true, decide_eq_true_eq, List.all_eq_true] at hchecks
  exact ⟨d, hd, (document_reads_back normalForm_id sampleEnd_run hd hchecks.1
    hchecks.2).2.1⟩

end ReadingBack

end TabStore
end Server
end FlanTerminal
