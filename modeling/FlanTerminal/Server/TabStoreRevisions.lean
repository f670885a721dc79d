import FlanTerminal.Server.TabStoreResults

/-!
# Revisions of the tab store

The revision of a document stands for its structure: everything but the times of
last activity.  That is what `reorder` relies on, and what a client relies on
that compares two snapshots.
-/

namespace FlanTerminal
namespace Server
namespace TabStore

open Foundation
open Shared

def isFlush : Mutation -> Bool
  | Mutation.flushActivity _ _ => true
  | _ => false

def withoutActivity (tab : TabRecord) : TabRecord :=
  { tab with lastActivityAt := [] }

/-- The same tabs in the same order, equal in every field but the time of last
activity. -/
def SameTabs (c d : PersistedTabsDocument) : Prop :=
  c.tabs.map withoutActivity = d.tabs.map withoutActivity

inductive Revised :
    Option PersistedTabsDocument -> Op -> PersistedTabsDocument -> Prop where
  | created : Revised none Op.initializeStore emptyDocument
  | structural {c d : PersistedTabsDocument} {m : Mutation} :
      isFlush m = false -> d.structureRevision = c.structureRevision + 1 ->
      Revised (some c) (Op.mutate m) d
  | flushed {c d : PersistedTabsDocument} {m : Mutation} :
      isFlush m = true -> d.structureRevision = c.structureRevision ->
      SameTabs c d -> Revised (some c) (Op.mutate m) d

section Revisions

variable {options : Options} {sources : Sources}
variable {current next : PersistedTabsDocument} {m : Mutation}

theorem sameTabs_flushed (ids : List JsString) (now : JsString)
    (document : PersistedTabsDocument) :
    SameTabs document
      { document with tabs := document.tabs.map (withLastActivity ids now) } := by
  unfold SameTabs
  rw [List.map_map]
  apply List.map_congr_left
  intro tab _
  show withoutActivity tab = withoutActivity (withLastActivity ids now tab)
  unfold withLastActivity
  split
  · rfl
  · rfl

theorem decision_revised (hnfc : NormalForm options.nfc)
    (hvalid : Valid options.nfc current)
    (h : decision options sources current m = Except.ok (some next)) :
    Revised (some current) (Op.mutate m) next := by
  obtain ⟨candidate, hbuild, _⟩ := decision_written h
  cases (decision_committed hnfc hvalid h).1 with
  | create title tab _ _ => exact Revised.structural rfl rfl
  | present hne => exact absurd (build_initial hbuild) hne
  | initial tab _ _ _ => exact Revised.structural rfl rfl
  | rename title tab _ _ _ => exact Revised.structural rfl rfl
  | reorder _ => exact Revised.structural rfl rfl
  | setDesiredState tab _ _ => exact Revised.structural rfl rfl
  | remove tab _ _ => exact Revised.structural rfl rfl
  | quiet _ => exact Revised.flushed rfl rfl rfl
  | @flushActivity ids now =>
      exact Revised.flushed rfl rfl (sameTabs_flushed ids now current)

/-- A later document has a later revision, or the same one and the same tabs. -/
structure Later (c d : PersistedTabsDocument) : Prop where
  revision : c.structureRevision ≤ d.structureRevision
  same : d.structureRevision = c.structureRevision -> SameTabs c d

theorem Later.refl (c : PersistedTabsDocument) : Later c c :=
  ⟨Nat.le_refl _, fun _ => rfl⟩

theorem Later.trans {a b c : PersistedTabsDocument} (h : Later a b)
    (h' : Later b c) : Later a c := by
  refine ⟨Nat.le_trans h.revision h'.revision, fun heq => ?_⟩
  have hfirst := h.revision
  have hsecond := h'.revision
  exact (h.same (by omega)).trans (h'.same (by omega))

theorem Follows.later (hnfc : NormalForm options.nfc)
    {c d : PersistedTabsDocument} (hproper : Proper options c)
    (h : Follows options c d) : Later c d := by
  cases h with
  | same => exact Later.refl c
  | step hdecision =>
      cases decision_revised hnfc hproper.1 hdecision with
      | structural _ hrevision =>
          exact ⟨by omega, fun heq => by omega⟩
      | flushed _ hrevision hsame => exact ⟨by omega, fun _ => hsame⟩

variable {front more log : List Entry}

theorem documents_later (hnfc : NormalForm options.nfc)
    (hlogged : EveryStep View.after View.initial (Good options)
      (front ++ more))
    {c : PersistedTabsDocument} (hc : (documents front).getLast? = some c) :
    exists d, (documents (front ++ more)).getLast? = some d ∧ Later c d := by
  induction more using List.reverseRecOn with
  | nil =>
      rw [List.append_nil]
      exact ⟨c, hc, Later.refl c⟩
  | append_singleton more e ih =>
      rw [← List.append_assoc] at hlogged ⊢
      have hfront := (everyStep_snoc.mp hlogged).1
      obtain ⟨d, hd, hlater⟩ := ih hfront
      cases htaken : taken e with
      | none =>
          rw [documents_snoc_none _ htaken]
          exact ⟨d, hd, hlater⟩
      | some d' =>
          rw [documents_snoc_some _ htaken, List.getLast?_append]
          have hsplit : front ++ more ++ [e] = (front ++ more) ++ e :: [] := rfl
          have hproper := documents_proper hfront (List.mem_of_getLast? hd)
          exact ⟨d', rfl,
            hlater.trans ((follows hlogged hsplit hd htaken).later hnfc hproper)⟩

theorem documents_between (hnfc : NormalForm options.nfc)
    (hlogged : EveryStep View.after View.initial (Good options)
      (front ++ more))
    {c d b : PersistedTabsDocument}
    (hc : (documents front).getLast? = some c) (hb : b ∈ documents more)
    (hd : (documents (front ++ more)).getLast? = some d) :
    Later c b ∧ Later b d := by
  obtain ⟨e, he, htaken⟩ := List.mem_filterMap.mp hb
  obtain ⟨before, after, hmore⟩ := List.append_of_mem he
  subst hmore
  have hassoc : front ++ (before ++ e :: after) =
      (front ++ (before ++ [e])) ++ after := by simp
  rw [hassoc] at hlogged hd
  have hmid : (documents (front ++ (before ++ [e]))).getLast? = some b := by
    rw [← List.append_assoc, documents_snoc_some _ htaken, List.getLast?_append]
    rfl
  constructor
  · obtain ⟨b', hb', hlater⟩ :=
      documents_later hnfc (EveryEntry.front hlogged) hc
    cases hmid.symm.trans hb'
    exact hlater
  · obtain ⟨d', hd', hlater⟩ := documents_later hnfc hlogged hmid
    cases hd.symm.trans hd'
    exact hlater

theorem snapshot_document
    (hlogged : EveryStep View.after View.initial (Good options) log)
    {before after : List Entry} {i : Nat} {a : TabCollection} {held : Held}
    (hlog : log = before ++
      Entry.settled i Op.snapshot (Except.ok (Value.tabs a)) held :: after) :
    (documents before).getLast? = some a := by
  obtain ⟨hmatches, hlook, _⟩ := hlogged before _ after hlog
  have hanswer := hlook rfl
  cases hheld : held.document with
  | none =>
      rw [hheld] at hanswer
      cases hanswer
  | some d =>
      rw [hheld] at hanswer
      cases hanswer
      rw [← summary_document]
      exact (hmatches.2 _ hheld).1

theorem reorder_found
    (hlogged : EveryStep View.after View.initial (Good options) log)
    {before after : List Entry} {n revision : Nat} {ids : List JsString}
    {value : Value} {held found : Held} {mid : List Entry}
    (hlog : log = before ++
      Entry.started n (Op.mutate (Mutation.reorder revision ids)) found ::
        (mid ++ Entry.settled n (Op.mutate (Mutation.reorder revision ids))
          (Except.ok value) held :: after))
    (hinside : forall e, e ∈ mid -> e.inside = true) :
    exists c, (documents before).getLast? = some c ∧
      found.document = some c ∧ c.structureRevision = revision := by
  have hstart := hlogged before _ _ hlog
  have hassoc : log = (before ++ Entry.started n
      (Op.mutate (Mutation.reorder revision ids)) found :: mid) ++
        Entry.settled n (Op.mutate (Mutation.reorder revision ids))
          (Except.ok value) held :: after := by
    rw [hlog]
    simp
  obtain ⟨found', hrunning, hending⟩ := (hlogged _ _ _ hassoc).2.2 rfl
  have hstint : Stint n (Op.mutate (Mutation.reorder revision ids)) found before
      mid (before ++ Entry.started n
        (Op.mutate (Mutation.reorder revision ids)) found :: mid) :=
    ⟨rfl, hinside⟩
  cases hrunning.symm.trans hstint.told.running
  have hdecided : exists c mutation sources, found.document = some c ∧
      decision options sources c (Mutation.reorder revision ids) =
        Except.ok mutation := by
    cases hending with
    | nothing hc hdecision _ => exact ⟨_, _, _, hc, hdecision⟩
    | written hc hdecision _ _ => exact ⟨_, _, _, hc, hdecision⟩
  obtain ⟨c, mutation, sources, hc, hdecision⟩ := hdecided
  have hview := (hstart.2.2.2.2 c hc).1
  rw [summary_document] at hview
  refine ⟨c, hview, hc, ?_⟩
  by_cases hconflict : orderConflict revision ids c = true
  · have hbuild : build options sources c (Mutation.reorder revision ids) =
        Except.error Thrown.order_conflict := by
      simp only [build, reorder, hconflict, if_true]
      rfl
    rw [decision_refused hbuild] at hdecision
    cases hdecision
  · have hnone : orderConflict revision ids c = false := by
      simpa using hconflict
    exact (perm_of_orderConflict hnone).1.symm

variable {files : Files} {cfg : Situation}

/-- In every run, over any number of processes, a revision stands for one
structure: structural changes raise it by one, flushes and rejections leave it,
snapshots of one revision agree, and a reordering with the revision of a
snapshot goes through only if nothing structural has been committed since. -/
theorem revisions_identify (hnfc : NormalForm options.nfc)
    (hrun : Run options files cfg) :
    (forall before n d after,
        cfg.shared.inner.log = before ++ Entry.committed n d :: after ->
        exists o found front mid, Stint n o found front mid before ∧
          Revised (documents before).getLast? o d) ∧
      (forall before n o e held after,
        cfg.shared.inner.log =
          before ++ Entry.settled n o (Except.error e) held :: after ->
        o.waits = true ->
          exists found front mid, Stint n o found front mid before ∧
            held = found) ∧
      (forall before i a held mid j b held' after,
        cfg.shared.inner.log = before ++
          Entry.settled i Op.snapshot (Except.ok (Value.tabs a)) held ::
            (mid ++ Entry.settled j Op.snapshot (Except.ok (Value.tabs b))
              held' :: after) ->
        Later a b) ∧
      forall before i a held since n ids found mid value held' after,
        cfg.shared.inner.log = before ++
          Entry.settled i Op.snapshot (Except.ok (Value.tabs a)) held ::
            (since ++ Entry.started n
              (Op.mutate (Mutation.reorder a.structureRevision ids)) found ::
                (mid ++ Entry.settled n
                  (Op.mutate (Mutation.reorder a.structureRevision ids))
                    (Except.ok value) held' :: after)) ->
        (forall e, e ∈ mid -> e.inside = true) ->
          (forall d, d ∈ documents since ->
            d.structureRevision = a.structureRevision ∧ SameTabs a d) ∧
          exists c, found.document = some c ∧ SameTabs a c := by
  have hkept := hrun.kept hnfc
  have hlogged : EveryStep View.after View.initial (Good options)
      cfg.shared.inner.log := hkept.2
  refine ⟨?_, ?_, ?_, ?_⟩
  · intro before n d after hlog
    obtain ⟨o, found, front, mid, hstint, _, hwrites⟩ :=
      committed_stint hlogged hlog
    refine ⟨o, found, front, mid, hstint, ?_⟩
    rw [hlog] at hlogged
    cases hc : (documents before).getLast? with
    | none =>
        rw [hc] at hwrites
        cases hwrites with
        | created => exact Revised.created
    | some c =>
        have hproper := documents_proper (EveryEntry.front hlogged)
          (List.mem_of_getLast? hc)
        rw [hc] at hwrites
        cases hwrites with
        | mutated hdecision => exact decision_revised hnfc hproper.1 hdecision
  · intro before n o e held after hlog hwaits
    obtain ⟨found, front, mid, hstint, hending⟩ :=
      settled_stint hlogged hlog hwaits
    exact ⟨found, front, mid, hstint, hending.rejected.1⟩
  · intro before i a held mid j b held' after hlog
    have ha := snapshot_document hlogged hlog
    have hassoc : cfg.shared.inner.log =
        (before ++ Entry.settled i Op.snapshot (Except.ok (Value.tabs a)) held ::
          mid) ++ Entry.settled j Op.snapshot (Except.ok (Value.tabs b)) held' ::
            after := by
      rw [hlog]
      simp
    have hb := snapshot_document hlogged hassoc
    rw [hassoc] at hlogged
    obtain ⟨b', hb', hlater⟩ :=
      documents_later hnfc (EveryEntry.front hlogged) ha
    cases hb.symm.trans hb'
    exact hlater
  · intro before i a held since n ids found mid value held' after hlog hinside
    have ha := snapshot_document hlogged hlog
    have hassoc : cfg.shared.inner.log =
        (before ++ Entry.settled i Op.snapshot (Except.ok (Value.tabs a)) held ::
          since) ++ Entry.started n
            (Op.mutate (Mutation.reorder a.structureRevision ids)) found ::
              (mid ++ Entry.settled n
                (Op.mutate (Mutation.reorder a.structureRevision ids))
                  (Except.ok value) held' :: after) := by
      rw [hlog]
      simp
    obtain ⟨c, hc, hfound, hrevision⟩ :=
      reorder_found hlogged hassoc hinside
    rw [hassoc] at hlogged
    have hfront := EveryEntry.front hlogged
    have hsnap : before ++ Entry.settled i Op.snapshot
        (Except.ok (Value.tabs a)) held :: since = (before ++ [Entry.settled i
          Op.snapshot (Except.ok (Value.tabs a)) held]) ++ since := by simp
    have ha' : (documents (before ++ [Entry.settled i Op.snapshot
        (Except.ok (Value.tabs a)) held])).getLast? = some a := by
      rw [documents_snoc_none _ rfl]
      exact ha
    rw [hsnap] at hfront hc
    constructor
    · intro d hd
      obtain ⟨hbefore, hafter⟩ := documents_between hnfc hfront ha' hd hc
      have hle := hbefore.revision
      have hge := hafter.revision
      have heq : d.structureRevision = a.structureRevision := by omega
      exact ⟨heq, hbefore.same heq⟩
    · obtain ⟨c', hc', hlater⟩ := documents_later hnfc hfront ha'
      cases hc.symm.trans hc'
      exact ⟨c, hfound, hlater.same hrevision⟩

theorem revisions_identify_sample :
    (sampleEnd.shared.inner.document.any fun d =>
      d.structureRevision == 3) = true ∧
      forall before n d after,
        sampleEnd.shared.inner.log = before ++ Entry.committed n d :: after ->
        exists o found front mid, Stint n o found front mid before ∧
          Revised (documents before).getLast? o d :=
  ⟨by decide +kernel, (revisions_identify normalForm_id sampleEnd_run).1⟩

end Revisions

/-!
## Reordering
-/

def reordered (c : PersistedTabsDocument) (ids : List JsString) :
    PersistedTabsDocument :=
  ⟨c.structureRevision + 1, renumber (ids.filterMap (byId c.tabs))⟩

/-- The revision is the current one, and the ids are those of the tabs. -/
def Fitting (c : PersistedTabsDocument) (revision : Nat)
    (ids : List JsString) : Prop :=
  revision = c.structureRevision ∧ ids.Perm (c.tabs.map TabRecord.id)

/-- There is a next revision, and the new document is not too large. -/
def HasRoom (c : PersistedTabsDocument) (ids : List JsString) : Prop :=
  c.structureRevision < MAX_SAFE_INTEGER ∧
    utf8ByteLength (reordered c ids).serialized ≤ MAX_DOCUMENT_BYTES

section Reorder

variable {options : Options} {sources : Sources}
variable {current : PersistedTabsDocument} {ids : List JsString}
variable {revision : Nat}

theorem orderConflict_iff (hdistinct : (current.tabs.map TabRecord.id).Nodup) :
    orderConflict revision ids current = false <->
      Fitting current revision ids := by
  constructor
  · exact perm_of_orderConflict
  · intro h
    rw [h.1]
    exact orderConflict_of_perm hdistinct h.2

theorem mem_reordered {i : Nat} {tab : TabRecord}
    (h : (reordered current ids).tabs[i]? = some tab) :
    exists old, old ∈ current.tabs ∧ old.id = tab.id ∧
      tab = { old with position := i } := by
  obtain ⟨hi, heq⟩ := List.getElem?_eq_some_iff.mp h
  simp only [reordered, renumber, List.getElem_mapIdx] at heq
  have hmem := List.getElem_mem (l := ids.filterMap (byId current.tabs))
    (n := i) (by simpa [reordered, renumber] using hi)
  obtain ⟨id, _, hid⟩ := List.mem_filterMap.mp hmem
  refine ⟨_, (byId_mem hid).1, ?_, heq.symm⟩
  rw [← heq]

theorem reordered_valid (hvalid : Valid options.nfc current)
    (hfitting : Fitting current revision ids)
    (hroom : current.structureRevision < MAX_SAFE_INTEGER) :
    Valid options.nfc (reordered current ids) := by
  have hnone := (orderConflict_iff hvalid.distinct).mpr hfitting
  have hids : (reordered current ids).tabs.map TabRecord.id = ids :=
    ids_reordered hnone
  have hlength : (reordered current ids).tabs.length = current.tabs.length := by
    have hmapped := congrArg List.length hids
    rw [List.length_map, hfitting.2.length_eq, List.length_map] at hmapped
    exact hmapped
  refine ⟨rfl, hroom, List.forall₂_same.mpr ?_, ?_, ?_⟩
  · intro tab htab
    obtain ⟨i, hi, heq⟩ := List.getElem_of_mem htab
    have hget : (reordered current ids).tabs[i]? = some tab :=
      List.getElem?_eq_some_iff.mpr ⟨hi, heq⟩
    obtain ⟨old, hold, _, htab'⟩ := mem_reordered hget
    have haccepted := hvalid.record old hold
    have hposition : i ≤ MAX_SAFE_INTEGER := by
      rw [hlength] at hi
      have hbound := (hvalid.record _ (List.getElem_mem hi)).position
      have hproper : Proper ⟨current.tabs.length, options.nfc⟩ current :=
        ⟨hvalid, Nat.le_refl _⟩
      have hindex := hproper.tabsKept.positions i _
        (List.getElem?_eq_getElem hi)
      rw [hindex] at hbound
      exact hbound
    rw [htab']
    exact ⟨haccepted.name, haccepted.id, hposition, haccepted.createdAt,
      haccepted.lastActivityAt, rfl⟩
  · rw [hids]
    exact hfitting.2.nodup_iff.mpr hvalid.distinct
  · apply List.ext_getElem?
    intro i
    rw [List.getElem?_map]
    cases hget : (reordered current ids).tabs[i]? with
    | none =>
        have hi := List.getElem?_eq_none_iff.mp hget
        rw [List.getElem?_eq_none (by simpa using hi)]
        rfl
    | some tab =>
        obtain ⟨hi, _⟩ := List.getElem?_eq_some_iff.mp hget
        obtain ⟨old, _, _, htab⟩ := mem_reordered hget
        rw [List.getElem?_range hi, htab]
        rfl

theorem build_reorder (hvalid : Valid options.nfc current)
    (hfitting : Fitting current revision ids) :
    build options sources current (Mutation.reorder revision ids) =
      if current.structureRevision < MAX_SAFE_INTEGER then
        Except.ok (some (reordered current ids))
      else Except.error Thrown.invalid := by
  have hnone := (orderConflict_iff hvalid.distinct).mpr hfitting
  have hbuild : build options sources current
      (Mutation.reorder revision ids) =
        some <$> accept (parseDocument options.nfc (reordered current ids)) := by
    simp only [build, reorder, hnone, Bool.false_eq_true, if_false]
    rfl
  rw [hbuild]
  split
  · rename_i hroom
    rw [parseDocument_some.mpr (reordered_valid hvalid hfitting hroom)]
    rfl
  · rename_i hfull
    have hrefused : parseDocument options.nfc (reordered current ids) = none :=
      if_neg fun hle => hfull hle
    rw [hrefused]
    rfl

/-- What is decided about a reordering, its calls aside. -/
structure ReorderDecision (options : Options) (sources : Sources)
    (current : PersistedTabsDocument) (revision : Nat) (ids : List JsString) :
    Prop where
  conflict : ¬ Fitting current revision ids ->
    decision options sources current (Mutation.reorder revision ids) =
      Except.error Thrown.order_conflict
  written : Fitting current revision ids -> HasRoom current ids ->
    decision options sources current (Mutation.reorder revision ids) =
      Except.ok (some (reordered current ids))
  full : Fitting current revision ids -> ¬ HasRoom current ids ->
    exists t, t ≠ Thrown.order_conflict ∧
      decision options sources current (Mutation.reorder revision ids) =
        Except.error t

theorem ReorderDecision.something
    (h : ReorderDecision options sources current revision ids) :
    decision options sources current (Mutation.reorder revision ids) ≠
      Except.ok none := by
  intro hnone
  by_cases hfitting : Fitting current revision ids
  · by_cases hroom : HasRoom current ids
    · cases hnone.symm.trans (h.written hfitting hroom)
    · obtain ⟨t, _, heq⟩ := h.full hfitting hroom
      cases hnone.symm.trans heq
  · cases hnone.symm.trans (h.conflict hfitting)

theorem decision_reorder (hvalid : Valid options.nfc current) :
    ReorderDecision options sources current revision ids := by
  refine ⟨?_, ?_, ?_⟩
  · intro hnot
    have hconflict : orderConflict revision ids current = true := by
      have hne := mt (orderConflict_iff hvalid.distinct).mp hnot
      simpa using hne
    apply decision_refused
    simp only [build, reorder, hconflict, if_true]
    rfl
  · intro hfitting hroom
    have hbuild := @build_reorder options sources _ _ _ hvalid hfitting
    rw [if_pos hroom.1] at hbuild
    have hparse :=
      parseDocument_some.mpr (reordered_valid hvalid hfitting hroom.1)
    rw [decision_built hbuild hparse, if_neg (Nat.not_lt.mpr hroom.2)]
  · intro hfitting hnot
    have hbuild := @build_reorder options sources _ _ _ hvalid hfitting
    by_cases hrevision : current.structureRevision < MAX_SAFE_INTEGER
    · rw [if_pos hrevision] at hbuild
      have hparse :=
        parseDocument_some.mpr (reordered_valid hvalid hfitting hrevision)
      have hlarge : MAX_DOCUMENT_BYTES <
          utf8ByteLength (reordered current ids).serialized :=
        Nat.lt_of_not_le fun hle => hnot ⟨hrevision, hle⟩
      refine ⟨Thrown.failed, by decide, ?_⟩
      rw [decision_built hbuild hparse, if_pos hlarge]
    · rw [if_neg hrevision] at hbuild
      exact ⟨Thrown.invalid, by decide, decision_refused hbuild⟩

variable {files : Files} {cfg : Situation}

/-- When no call fails, a reordering goes through exactly with the current
revision and a permutation of the ids, as long as there is a next revision and
the document does not get too large. -/
def ReordersExactly (log : List Entry) : Prop :=
  forall before n revision ids res held after,
    log = before ++
      Entry.settled n (Op.mutate (Mutation.reorder revision ids)) res held ::
        after ->
    exists found front mid,
      Stint n (Op.mutate (Mutation.reorder revision ids)) found front mid
        before ∧
      ((forall e, e ∈ mid -> e.isFailed = false) ->
        forall c, found.document = some c ->
          (Fitting c revision ids -> HasRoom c ids ->
            res = Except.ok (Value.tabs (reordered c ids)) ∧
              held.document = some (reordered c ids) ∧
              (reordered c ids).structureRevision =
                c.structureRevision + 1 ∧
              (reordered c ids).tabs.map TabRecord.id = ids ∧
              forall i tab, (reordered c ids).tabs[i]? = some tab ->
                exists old, old ∈ c.tabs ∧ old.id = tab.id ∧
                  tab = { old with position := i }) ∧
          (¬ Fitting c revision ids ->
            res = Except.error (Rejection.thrown Thrown.order_conflict) ∧
              held = found) ∧
          (Fitting c revision ids -> ¬ HasRoom c ids ->
            exists t, t ≠ Thrown.order_conflict ∧
              res = Except.error (Rejection.thrown t) ∧ held = found))

theorem reorder_exact (hnfc : NormalForm options.nfc)
    (hrun : Run options files cfg) :
    ReordersExactly cfg.shared.inner.log := by
  have hkept := hrun.kept hnfc
  intro before n revision ids res held after hlog
  obtain ⟨found, front, mid, hstint, hending⟩ :=
    settled_stint hkept.2 hlog rfl
  refine ⟨found, front, mid, hstint, ?_⟩
  intro hcalm c hc
  have hunfailed : (summary before).failed = false := by
    rw [hstint.told.failed, List.any_eq_false]
    intro e he
    rw [hcalm e he]
    simp
  have hproper : Proper options c := by
    have hlogged : EveryStep View.after View.initial (Good options)
        cfg.shared.inner.log := hkept.2
    have hsplit : cfg.shared.inner.log = front ++ Entry.started n
        (Op.mutate (Mutation.reorder revision ids)) found :: (mid ++
          Entry.settled n (Op.mutate (Mutation.reorder revision ids)) res held
            :: after) := by
      rw [hlog, hstint.split]
      simp
    have hstart := hlogged front _ _ hsplit
    rw [hsplit] at hlogged
    have hview := (hstart.2.2.2.2 c hc).1
    rw [summary_document] at hview
    exact documents_proper (EveryEntry.front hlogged)
      (List.mem_of_getLast? hview)
  have hdecided : forall sources, ReorderDecision options sources c revision
      ids := fun sources => decision_reorder hproper.1
  cases hending with
  | absent hnone _ =>
      rw [hc] at hnone
      cases hnone
  | failed hfailed _ =>
      rw [hunfailed] at hfailed
      cases hfailed
  | @refused c' sources t hc' hdecision _ =>
      cases hc.symm.trans hc'
      obtain ⟨hconflict, hwritten, hfull⟩ := hdecided sources
      refine ⟨?_, ?_, ?_⟩
      · intro hfitting hroom
        cases hdecision.symm.trans (hwritten hfitting hroom)
      · intro hnot
        cases hdecision.symm.trans (hconflict hnot)
        exact ⟨rfl, rfl⟩
      · intro hfitting hnot
        obtain ⟨t', hne, heq⟩ := hfull hfitting hnot
        cases hdecision.symm.trans heq
        exact ⟨t, hne, rfl, rfl⟩
  | @nothing c' sources hc' hdecision _ =>
      cases hc.symm.trans hc'
      exact absurd hdecision (hdecided sources).something
  | @written c' next sources hc' hdecision _ _ =>
      cases hc.symm.trans hc'
      obtain ⟨hconflict, hwritten, hfull⟩ := hdecided sources
      refine ⟨?_, ?_, ?_⟩
      · intro hfitting hroom
        cases hdecision.symm.trans (hwritten hfitting hroom)
        refine ⟨rfl, rfl, rfl, ?_, fun i tab h => mem_reordered h⟩
        exact ids_reordered ((orderConflict_iff hproper.1.distinct).mpr hfitting)
      · intro hnot
        cases hdecision.symm.trans (hconflict hnot)
      · intro hfitting hnot
        obtain ⟨t', _, heq⟩ := hfull hfitting hnot
        cases hdecision.symm.trans heq

def isReordering : Entry -> Bool
  | Entry.settled _ (Op.mutate (Mutation.reorder _ _)) (Except.ok _) _ => true
  | _ => false

theorem reorder_exact_sample :
    sampleEnd.shared.inner.log.any isReordering = true ∧
      (sampleEnd.shared.inner.document.any fun d =>
        d.tabs.map TabRecord.id == [secondId, firstId]) = true ∧
      ReordersExactly sampleEnd.shared.inner.log :=
  ⟨by decide +kernel, by decide +kernel,
    reorder_exact normalForm_id sampleEnd_run⟩

def fullDocument : PersistedTabsDocument :=
  ⟨MAX_SAFE_INTEGER, []⟩

def fullFiles : Files :=
  ⟨some (utf8Bytes fullDocument.serialized), []⟩

def lastReorder : Op :=
  Op.mutate (Mutation.reorder MAX_SAFE_INTEGER [])

def fullEnd : Situation :=
  (played sampleOptions fullFiles (callAndResume Op.initializeStore 8 ++
    callAndResume lastReorder 1)).getD (begun fullFiles)

theorem fullEnd_run : Run sampleOptions fullFiles fullEnd := by
  have hsome : (played sampleOptions fullFiles
      (callAndResume Op.initializeStore 8 ++
        callAndResume lastReorder 1)).isSome = true := by decide +kernel
  obtain ⟨cfg, hcfg⟩ := Option.isSome_iff_exists.mp hsome
  unfold fullEnd
  rw [hcfg]
  exact played_run hcfg

def fullHeld : Held :=
  ⟨some fullDocument, fullFiles.primary⟩

def fullLog : List Entry :=
  [Entry.started 0 Op.initializeStore ⟨none, fullFiles.primary⟩,
    Entry.loaded 0 fullDocument,
    Entry.settled 0 Op.initializeStore (Except.ok Value.done) fullHeld,
    Entry.started 1 lastReorder fullHeld]

theorem fullEnd_log : fullEnd.shared.inner.log = fullLog ++
    [Entry.settled 1 lastReorder
      (Except.error (Rejection.thrown Thrown.invalid)) fullHeld] := by
  decide +kernel

/-- After the last revision a permutation is refused, and not as a conflict. -/
theorem reorder_refused_at_last_revision :
    ¬ forall (options : Options) (files : Files) (cfg : Situation),
      NormalForm options.nfc -> Run options files cfg ->
      forall before n revision ids res held after,
        cfg.shared.inner.log = before ++
          Entry.settled n (Op.mutate (Mutation.reorder revision ids)) res
            held :: after ->
        exists found front mid,
          Stint n (Op.mutate (Mutation.reorder revision ids)) found front mid
            before ∧
          ((forall e, e ∈ mid -> e.isFailed = false) ->
            forall c, found.document = some c ->
              (Fitting c revision ids <->
                held.document = some (reordered c ids)) ∧
              (¬ held.document = some (reordered c ids) ->
                res = Except.error
                  (Rejection.thrown Thrown.order_conflict))) := by
  intro h
  obtain ⟨found, front, mid, hstint, hclaim⟩ := h sampleOptions fullFiles
    fullEnd normalForm_id fullEnd_run fullLog 1 MAX_SAFE_INTEGER []
    (Except.error (Rejection.thrown Thrown.invalid)) fullHeld [] fullEnd_log
  have hfound : found = fullHeld := by
    have hmem : Entry.started 1 lastReorder found ∈ fullLog := by
      rw [hstint.split]
      exact List.mem_append_right _ List.mem_cons_self
    simp only [fullLog, List.mem_cons, List.not_mem_nil, or_false] at hmem
    rcases hmem with heq | heq | heq | heq
    · cases heq
    · cases heq
    · cases heq
    · cases heq
      rfl
  have hcalm : forall e, e ∈ mid -> e.isFailed = false := by
    have hall : fullLog.all (fun e => !e.isFailed) = true := by decide
    intro e he
    have hmem : e ∈ fullLog := by
      rw [hstint.split]
      exact List.mem_append_right _ (List.mem_cons_of_mem _ he)
    simpa using List.all_eq_true.mp hall e hmem
  have hfitting : Fitting fullDocument MAX_SAFE_INTEGER [] :=
    ⟨rfl, List.Perm.refl _⟩
  have hheld := (hclaim hcalm fullDocument (by rw [hfound]; rfl)).1.mp hfitting
  have hrevision : MAX_SAFE_INTEGER = MAX_SAFE_INTEGER + 1 :=
    congrArg PersistedTabsDocument.structureRevision (Option.some.inj hheld)
  exact absurd hrevision (Nat.ne_of_lt (Nat.lt_succ_self _))

end Reorder

end TabStore
end Server
end FlanTerminal
