import Rrjj.Core.Ledger
import Rrjj.Core.Retention

/-! The audit is conserved: the invariant that accounts for every observation, kept by
every action of the coordinator and of the watcher. -/

namespace Rrjj
open Std Library Library.CappedMap

def Lists (value : TouchedPaths) (touched : TouchedPath) : Prop :=
  ∃ entry ∈ value.paths, entry.path = touched.path ∧ ∀ op ∈ touched.operations, op ∈ entry.operations

structure WellListed (value : TouchedPaths) : Prop where
  nonempty : value.paths ≠ []
  bounded : value.paths.length ≤ maxAuditPaths
  sorted : value.paths.Pairwise fun a b => compare a.path b.path = .lt
  operations : ∀ entry ∈ value.paths, entry.operations.Pairwise fun a b => compare a b = .lt

structure ClosesWindow (trace : List Label) (value : TouchedPaths) : Prop where
  listed : WellListed value
  observed : ∀ entry ∈ value.paths,
    Seen InWindow trace entry.path [] ∧ ∀ op ∈ entry.operations, Seen InWindow trace entry.path [op]
  complete : ∀ touched since, Observed trace touched since → InWindow since →
    Lists value touched ∨ (value.paths.length = maxAuditPaths ∧ LimitReported trace)

def EventsCloseWindows (trace : List Label) : Prop :=
  AtEvery (fun before label => ∀ event value, label = .accepted event →
    event.body = .touchedPaths value → ClosesWindow before value) trace

def Limited (w : World) : Prop := LimitPending w.coordinator ∨ LimitReported w.trace

structure LedgerState (w : World) : Prop where
  raw : observedRaw w.trace < 2 ^ 64 →
    emittedRaw w.trace + w.coordinator.rawEvents + w.audit.rawEvents = observedRaw w.trace
  auditSize : w.audit.paths.size ≤ maxAuditPaths
  size : w.coordinator.touchedPaths.size ≤ maxAuditPaths
  auditOpen : w.audit.startedAt.isSome = true → w.audit.paths.isEmpty = false
  windowOpen : w.coordinator.auditStartedAt.isSome = true →
    w.coordinator.touchedPaths.isEmpty = false
  flag : w.coordinator.pathLimitReported = true → Limited w
  fresh : ∀ touched since, Observed w.trace touched since → Fresh since →
    Held w.audit.paths touched.path touched.operations ∨
      (maxAuditPaths ≤ w.audit.paths.size ∧ w.audit.pathLimitReported = true)
  window : ∀ touched since, Observed w.trace touched since → InWindow since →
    Held w.coordinator.touchedPaths touched.path touched.operations ∨
      (maxAuditPaths ≤ w.coordinator.touchedPaths.size ∧ Limited w)
  freshSeen : AllSeen Fresh w.trace w.audit.paths
  windowSeen : AllSeen InWindow w.trace w.coordinator.touchedPaths
  events : EventsCloseWindows w.trace

structure SameLedger (w w' : World) : Prop where
  paths : w'.audit.paths = w.audit.paths
  auditRaw : w'.audit.rawEvents = w.audit.rawEvents
  startedAt : w'.audit.startedAt = w.audit.startedAt
  auditLimit : w'.audit.pathLimitReported = w.audit.pathLimitReported
  touchedPaths : w'.coordinator.touchedPaths = w.coordinator.touchedPaths
  rawEvents : w'.coordinator.rawEvents = w.coordinator.rawEvents
  auditStartedAt : w'.coordinator.auditStartedAt = w.coordinator.auditStartedAt
  limit : w'.coordinator.pathLimitReported = w.coordinator.pathLimitReported

theorem observedRaw_snoc (trace : List Label) (label : Label) :
    observedRaw (trace ++ [label]) = observedRaw trace + observedRaw [label] := by
  rw [observedRaw, List.map_append, List.sum_append]
  rfl

theorem emittedRaw_snoc (trace : List Label) (label : Label) :
    emittedRaw (trace ++ [label]) = emittedRaw trace + emittedRaw [label] := by
  rw [emittedRaw, List.map_append, List.sum_append]
  rfl

theorem emittedRaw_untouched {label : Label} (h : label.isTouched = false) :
    emittedRaw [label] = 0 := by
  cases label with
  | accepted event =>
    rcases hbody : event.body with _ | _ | value <;>
      simp_all [emittedRaw, Label.isTouched]
  | _ => rfl

theorem LedgerState.frame {w w' : World} {label : Label} (h : LedgerState w)
    (trace : w'.trace = w.trace ++ [label]) (same : SameLedger w w')
    (silent : ∀ paths rawEvents, label = .observed paths rawEvents → paths = [])
    (undrained : label.isDrained = false) (untouched : label.isTouched = false)
    (limited : Limited w → Limited w') : LedgerState w' := by
  -- the label observes nothing
  have hback : ∀ touched since, Observed w'.trace touched since →
      ∃ rest, since = rest ++ [label] ∧ Observed w.trace touched rest := by
    intro touched since hobserved
    rw [trace] at hobserved
    refine hobserved.of_snoc.resolve_left ?_
    rintro ⟨-, paths, rawEvents, hlabel, hmem⟩
    rw [silent paths rawEvents hlabel] at hmem
    exact absurd hmem (by simp)
  have hobservedRaw : observedRaw w'.trace = observedRaw w.trace := by
    rw [trace, observedRaw_snoc]
    cases label with
    | observed paths rawEvents => simp [observedRaw, silent paths rawEvents rfl]
    | _ => rfl
  have hemittedRaw : emittedRaw w'.trace = emittedRaw w.trace := by
    rw [trace, emittedRaw_snoc, emittedRaw_untouched untouched, Nat.add_zero]
  refine ⟨?_, ?_, ?_, ?_, ?_, ?_, ?_, ?_, ?_, ?_, ?_⟩
  · rw [hobservedRaw, hemittedRaw, same.rawEvents, same.auditRaw]
    exact h.raw
  · rw [same.paths]
    exact h.auditSize
  · rw [same.touchedPaths]
    exact h.size
  · rw [same.startedAt, same.paths]
    exact h.auditOpen
  · rw [same.auditStartedAt, same.touchedPaths]
    exact h.windowOpen
  · rw [same.limit]
    exact fun hlimit => limited (h.flag hlimit)
  · intro touched since hobserved hfresh
    obtain ⟨rest, rfl, hrest⟩ := hback touched since hobserved
    rw [same.paths, same.auditLimit]
    exact h.fresh touched rest hrest (fresh_snoc.mp hfresh).1
  · intro touched since hobserved hwindow
    obtain ⟨rest, rfl, hrest⟩ := hback touched since hobserved
    rw [same.touchedPaths]
    have hin : InWindow rest := by
      rcases hwindow.of_snoc with ⟨hin, -⟩ | ⟨rfl, -⟩
      · exact hin
      · exact absurd undrained (by simp [Label.isDrained])
    exact (h.window touched rest hrest hin).imp_right fun hfull => ⟨hfull.1, limited hfull.2⟩
  · rw [trace, same.paths]
    exact h.freshSeen.snoc fun since hfresh => fresh_snoc.mpr ⟨hfresh, undrained⟩
  · rw [trace, same.touchedPaths]
    exact h.windowSeen.snoc fun since hin => hin.snoc untouched
  · rw [trace]
    refine h.events.snoc ?_
    rintro event value rfl hbody
    exact absurd untouched (by simp [Label.isTouched, hbody])

theorem Limited.snoc {w w' : World} {label : Label} (h : Limited w)
    (trace : w'.trace = w.trace ++ [label]) (untouched : label.isTouched = false)
    (pending : LimitPending w.coordinator → LimitPending w'.coordinator) : Limited w' := by
  refine h.imp pending fun hreported => ?_
  rw [trace]
  exact hreported.snoc untouched

theorem observe_merge (state : AuditState) {paths : List TouchedPath} (rawEvents instant : ℕ)
    (now : String) (h : paths ≠ []) :
    Merge maxAuditPaths state.capped (paths.map fun touched => (touched.path, touched.operations))
        (state.observe paths rawEvents instant now).capped ∧
      (state.observe paths rawEvents instant now).rawEvents =
        saturatingAdd state.rawEvents rawEvents := by
  rw [AuditState.observe, if_neg (by simpa using h)]
  set started : AuditState := { state with
    startedAt := state.startedAt.or (some now)
    first := state.first.or (some instant)
    last := some instant
    rawEvents := saturatingAdd state.rawEvents rawEvents }
  obtain ⟨touched, limit, hfold⟩ := AuditState.foldl_touch_frame paths started
  have hmerge := AuditState.foldl_touch_merge paths started
  exact ⟨hmerge, by rw [hfold]⟩

theorem LedgerState.observe {w : World} (h : LedgerState w) {paths : List TouchedPath}
    (rawEvents instant : ℕ) (now : String) (hpaths : paths ≠ []) :
    LedgerState (w.record (.observe paths rawEvents instant now)) := by
  obtain ⟨hmerge, hraw⟩ := observe_merge w.audit rawEvents instant now hpaths
  have hobservedRaw : observedRaw [Label.observed paths rawEvents] = rawEvents := by
    simp [observedRaw, hpaths]
  have hlimited : Limited w → Limited (w.record (.observe paths rawEvents instant now)) :=
    fun hlimit => hlimit.snoc (show _ = w.trace ++ [.observed paths rawEvents] from rfl) rfl
      fun hpending => hpending
  refine ⟨?_, hmerge.bounded h.auditSize, h.size, ?_, h.windowOpen,
    fun hflag => hlimited (h.flag hflag), ?_, ?_, ?_, ?_, ?_⟩
  · intro htotal
    change observedRaw (w.trace ++ [.observed paths rawEvents]) < 2 ^ 64 at htotal
    change emittedRaw (w.trace ++ [.observed paths rawEvents]) + w.coordinator.rawEvents +
      (w.audit.observe paths rawEvents instant now).rawEvents =
        observedRaw (w.trace ++ [.observed paths rawEvents])
    rw [observedRaw_snoc, hobservedRaw] at htotal ⊢
    have hsum := h.raw (by omega)
    rw [emittedRaw_snoc, emittedRaw_untouched rfl, hraw, saturatingAdd_eq (by omega)]
    omega
  · intro _
    have hactive : (WatcherCall.observe paths rawEvents instant now).isActive = true := by
      simp [WatcherCall.isActive, hpaths]
    change (w.audit.observe paths rawEvents instant now).paths.isEmpty = false
    rw [AuditState.observe, if_neg (by simpa using hpaths)]
    exact AuditState.foldl_touch_nonempty paths _ (Or.inl hpaths)
  · intro touched since hobserved hfresh
    rcases hobserved.of_snoc with ⟨-, paths', rawEvents', hlabel, hmem⟩ | ⟨rest, rfl, hrest⟩
    · obtain ⟨rfl, -⟩ := Label.observed.inj hlabel
      exact hmerge.complete (touched.path, touched.operations)
        (List.mem_map_of_mem (f := fun t : TouchedPath => (t.path, t.operations)) hmem)
    · refine (h.fresh touched rest hrest (fresh_snoc.mp hfresh).1).imp
        (fun hheld => hmerge.kept _ _ hheld) fun hfull => ?_
      exact ⟨hfull.1.trans hmerge.grown, hmerge.limited hfull.2⟩
  · intro touched since hobserved hwindow
    rcases hobserved.of_snoc with ⟨rfl, -⟩ | ⟨rest, rfl, hrest⟩
    · obtain ⟨waiting, window, hnil, -⟩ := hwindow
      exact absurd hnil (by simp)
    · rcases hwindow.of_snoc with ⟨hin, -⟩ | ⟨hlabel, -⟩
      · exact (h.window touched rest hrest hin).imp_right fun hfull => ⟨hfull.1, hlimited hfull.2⟩
      · exact absurd hlabel (by simp [WatcherCall.label])
  · intro path set hset
    obtain ⟨hpath, hops⟩ := hmerge.sound path set hset
    -- the new observation is followed by nothing yet
    have hnew : ∀ entry ∈ paths.map fun t : TouchedPath => (t.path, t.operations),
        entry.1 = path → ∀ ops : List TouchOperation, (∀ op ∈ ops, op ∈ entry.2) →
          Seen Fresh (w.trace ++ [.observed paths rawEvents]) path ops := by
      intro entry hmem hentry ops hsub
      obtain ⟨touched, htouched, rfl⟩ := List.mem_map.mp hmem
      exact ⟨touched, [], ⟨w.trace, paths, rawEvents, rfl, htouched⟩, by simp [Fresh], hentry, hsub⟩
    have hold : ∀ since, Fresh since → Fresh (since ++ [.observed paths rawEvents]) :=
      fun since hfresh => fresh_snoc.mpr ⟨hfresh, rfl⟩
    constructor
    · rcases hpath with ⟨old, hsome⟩ | ⟨entry, hmem, hentry⟩
      · exact (h.freshSeen path old hsome).1.snoc hold
      · exact hnew entry hmem hentry [] (by simp)
    · intro op hop
      rcases hops op hop with ⟨old, hsome, hmem⟩ | ⟨entry, hmem, hentry, hopentry⟩
      · exact ((h.freshSeen path old hsome).2 op hmem).snoc hold
      · exact hnew entry hmem hentry [op] (by simpa using hopentry)
  · exact h.windowSeen.snoc fun since hin => hin.snoc rfl
  · exact h.events.snoc (by simp [WatcherCall.label])

theorem LedgerState.arrival {w : World} (h : LedgerState w) (call : WatcherCall) :
    LedgerState (w.record call) := by
  cases call with
  | observe paths rawEvents instant now =>
    by_cases hpaths : paths = []
    · have hsame : w.audit.apply (.observe paths rawEvents instant now) = w.audit :=
        AuditState.apply_inactive _ (by simp [WatcherCall.isActive, hpaths])
      refine h.frame (show _ = w.trace ++ [.observed paths rawEvents] from rfl) ?_ ?_ rfl rfl fun hlimit =>
        hlimit.snoc (show _ = w.trace ++ [.observed paths rawEvents] from rfl) rfl fun hpending => hpending
      · exact ⟨by rw [World.record, hsame], by rw [World.record, hsame],
          by rw [World.record, hsame], by rw [World.record, hsame], rfl, rfl, rfl, rfl⟩
      · intro paths' rawEvents' hlabel
        rw [← (Label.observed.inj hlabel).1, hpaths]
    · exact h.observe rawEvents instant now hpaths
  | reportOverflow source rawEvents instant =>
    obtain ⟨notices, limited, hpush⟩ := AuditState.pushOverflow_frame
      { w.audit with first := w.audit.first.or (some instant), last := some instant }
      source rawEvents
    have haudit : w.audit.apply (.reportOverflow source rawEvents instant) = _ := hpush
    have htrace : (w.record (.reportOverflow source rawEvents instant)).trace =
        w.trace ++ [.overflowed source rawEvents] := rfl
    refine h.frame htrace ?_ (by simp) rfl rfl fun hlimit => hlimit.snoc htrace rfl fun hpending => hpending
    exact ⟨by rw [World.record, haudit], by rw [World.record, haudit],
      by rw [World.record, haudit], by rw [World.record, haudit], rfl, rfl, rfl, rfl⟩

theorem isEmpty_false_of_size_le {first second : AuditPaths} (h : first.isEmpty = false)
    (hsize : first.size ≤ second.size) : second.isEmpty = false := by
  rw [TreeMap.isEmpty_eq_size_eq_zero, beq_eq_false_iff_ne] at h ⊢
  omega

theorem absorb_drain_merge (c : Coordinator) (audit : AuditState) :
    Merge maxAuditPaths c.capped (audit.paths.toList.map fun entry => (entry.1, entry.2.toList))
      (c.absorb audit.drain).capped := c.absorb_merge audit.drain

theorem mem_drained {audit : AuditState} {path : String} {set : Operations}
    (h : audit.paths[path]? = some set) :
    (path, set.toList) ∈ audit.paths.toList.map fun entry => (entry.1, entry.2.toList) := by
  rw [List.mem_map]
  exact ⟨(path, set), TreeMap.mem_toList_iff_getElem?_eq_some.mpr h, rfl⟩

theorem LedgerState.drained {w : World} (h : LedgerState w) : LedgerState w.drainAudit := by
  have hmerge := absorb_drain_merge w.coordinator w.audit
  have hback : ∀ touched since, Observed w.drainAudit.trace touched since →
      ∃ rest, since = rest ++ [.drained] ∧ Observed w.trace touched rest := by
    intro touched since hobserved
    refine hobserved.of_snoc.resolve_left ?_
    rintro ⟨-, paths, rawEvents, hlabel, -⟩
    exact absurd hlabel (by simp)
  have hlimited : Limited w → Limited w.drainAudit := fun hlimit =>
    hlimit.snoc (show _ = w.trace ++ [.drained] from rfl) rfl fun hpending =>
      Coordinator.absorb_limitPending w.audit.drain hpending
  have hflag : w.drainAudit.coordinator.pathLimitReported = true → Limited w.drainAudit := by
    intro hflag
    rcases w.coordinator.absorb_limit w.audit.drain hflag with hold | hpending
    · exact hlimited (h.flag hold)
    · exact Or.inl hpending
  have hstays : ∀ since, InWindow since → InWindow (since ++ [.drained]) :=
    fun since hin => hin.snoc rfl
  refine ⟨?_, Nat.zero_le _, hmerge.bounded h.size, ?_, ?_, hflag, ?_, ?_, ?_, ?_, ?_⟩
  · intro htotal
    change observedRaw (w.trace ++ [.drained]) < 2 ^ 64 at htotal
    change emittedRaw (w.trace ++ [.drained]) + (w.coordinator.absorb w.audit.drain).rawEvents + 0 =
      observedRaw (w.trace ++ [.drained])
    rw [observedRaw_snoc, show observedRaw [Label.drained] = 0 from rfl] at htotal ⊢
    have hsum := h.raw (by omega)
    rw [emittedRaw_snoc, emittedRaw_untouched rfl, Coordinator.absorb_rawEvents,
      show w.audit.drain.rawEvents = w.audit.rawEvents from rfl, saturatingAdd_eq (by omega)]
    omega
  · intro hstarted
    exact absurd hstarted (by simp [World.drainAudit])
  · intro hstarted
    change (w.coordinator.absorb w.audit.drain).auditStartedAt.isSome = true at hstarted
    rw [Coordinator.absorb_auditStartedAt, Option.isSome_or, Bool.or_eq_true] at hstarted
    rcases hstarted with hstarted | hstarted
    · exact isEmpty_false_of_size_le (h.windowOpen hstarted) hmerge.grown
    · exact w.coordinator.absorb_nonempty w.audit (h.auditOpen hstarted)
  · intro touched since hobserved hfresh
    obtain ⟨rest, rfl, -⟩ := hback touched since hobserved
    exact absurd (fresh_snoc.mp hfresh).2 (by decide)
  · intro touched since hobserved hwindow
    obtain ⟨rest, rfl, hrest⟩ := hback touched since hobserved
    rcases hwindow.of_snoc with ⟨hin, -⟩ | ⟨-, hfresh⟩
    · refine (h.window touched rest hrest hin).imp (fun hheld => hmerge.kept _ _ hheld)
        fun hfull => ⟨hfull.1.trans hmerge.grown, hlimited hfull.2⟩
    -- drained just now: merged, or dropped at one of the two caps
    rcases h.fresh touched rest hrest hfresh with ⟨set, hset, hops⟩ | ⟨hfull, hlimit⟩
    · refine (hmerge.complete _ (mem_drained hset)).imp ?_ fun hdropped => ?_
      · rintro ⟨merged, hmerged, hsub⟩
        exact ⟨merged, hmerged, fun op hop => hsub op (TreeSet.mem_toList.mpr (hops op hop))⟩
      · exact ⟨hdropped.1, hflag hdropped.2⟩
    · refine Or.inr ⟨hmerge.full (show w.audit.paths.keys = _ from ?_) hfull, ?_⟩
      · rw [List.map_map, ← TreeMap.map_fst_toList_eq_keys]
        rfl
      · exact Or.inl (w.coordinator.absorb_drained_limit hlimit)
  · intro path set hset
    exact absurd hset (by simp [World.drainAudit])
  · intro path set hset
    obtain ⟨hpath, hops⟩ := hmerge.sound path set hset
    have hnew : ∀ entry ∈ w.audit.paths.toList.map fun e => (e.1, e.2.toList), entry.1 = path →
        Seen InWindow w.drainAudit.trace path [] ∧
          ∀ op ∈ entry.2, Seen InWindow w.drainAudit.trace path [op] := by
      intro entry hmem hentry
      obtain ⟨⟨key, held⟩, hheld, rfl⟩ := List.mem_map.mp hmem
      obtain rfl : key = path := hentry
      obtain ⟨hseen, hseenOps⟩ := h.freshSeen key held
        (TreeMap.mem_toList_iff_getElem?_eq_some.mp hheld)
      exact ⟨hseen.snoc fun since hfresh => hfresh.inWindow, fun op hop =>
        (hseenOps op (TreeSet.mem_toList.mp hop)).snoc fun since hfresh => hfresh.inWindow⟩
    constructor
    · rcases hpath with ⟨old, hsome⟩ | ⟨entry, hmem, hentry⟩
      · exact (h.windowSeen path old hsome).1.snoc hstays
      · exact (hnew entry hmem hentry).1
    · intro op hop
      rcases hops op hop with ⟨old, hsome, hmem⟩ | ⟨entry, hmem, hentry, hopentry⟩
      · exact ((h.windowSeen path old hsome).2 op hmem).snoc hstays
      · exact (hnew entry hmem hentry).2 op hopentry
  · exact h.events.snoc (by simp)

theorem LedgerState.closes {w : World} (h : LedgerState w) {startedAt ended : String}
    {value : TouchedPaths} (overflows : w.coordinator.pendingOverflows = [])
    (started : w.coordinator.auditStartedAt = some startedAt)
    (body : w.coordinator.touchedPathsBody startedAt ended = .touchedPaths value) :
    ClosesWindow w.trace value := by
  obtain rfl := EventBody.touchedPaths.inj body
  have hreported : Limited w → LimitReported w.trace := by
    rintro (⟨notice, hmem, -⟩ | hreported)
    · rw [overflows] at hmem
      exact absurd hmem (by simp)
    · exact hreported
  refine ⟨⟨?_, ?_, ?_, ?_⟩, ?_, ?_⟩
  · have hopen := h.windowOpen (by rw [started]; rfl)
    rw [← TreeMap.isEmpty_toList, List.isEmpty_eq_false_iff] at hopen
    simpa using hopen
  · rw [List.length_map, TreeMap.length_toList]
    exact h.size
  · rw [List.pairwise_map]
    exact TreeMap.ordered_keys_toList
  · intro entry hmem
    obtain ⟨⟨path, set⟩, -, rfl⟩ := List.mem_map.mp hmem
    exact TreeSet.ordered_toList
  · intro entry hmem
    obtain ⟨⟨path, set⟩, hset, rfl⟩ := List.mem_map.mp hmem
    obtain ⟨hpath, hops⟩ := h.windowSeen path set (TreeMap.mem_toList_iff_getElem?_eq_some.mp hset)
    exact ⟨hpath, fun op hop => hops op (TreeSet.mem_toList.mp hop)⟩
  · intro touched since hobserved hin
    rcases h.window touched since hobserved hin with ⟨set, hset, hops⟩ | ⟨hfull, hlimit⟩
    · refine Or.inl ⟨⟨touched.path, set.toList⟩, List.mem_map.mpr ⟨(touched.path, set), ?_, rfl⟩, rfl,
        fun op hop => TreeSet.mem_toList.mpr (hops op hop)⟩
      exact TreeMap.mem_toList_iff_getElem?_eq_some.mpr hset
    · refine Or.inr ⟨?_, hreported hlimit⟩
      rw [List.length_map, TreeMap.length_toList]
      exact Nat.le_antisymm h.size hfull

theorem LedgerState.touchedAccepted {w : World} (h : LedgerState w) {startedAt ended time : String}
    (overflows : w.coordinator.pendingOverflows = [])
    (started : w.coordinator.auditStartedAt = some startedAt) :
    LedgerState (w.accept (.new w.coordinator.config.sessionId w.coordinator.seq time
      (w.coordinator.touchedPathsBody startedAt ended)) Coordinator.auditEmitted) := by
  have hback : ∀ {event : Event} touched since,
      Observed (w.trace ++ [.accepted event]) touched since →
      ∃ rest, since = rest ++ [.accepted event] ∧ Observed w.trace touched rest := by
    intro event touched since hobserved
    refine hobserved.of_snoc.resolve_left ?_
    rintro ⟨-, paths, rawEvents, hlabel, -⟩
    exact absurd hlabel (by simp)
  refine ⟨?_, h.auditSize, Nat.zero_le _, h.auditOpen, ?_, ?_, ?_, ?_, ?_, ?_, ?_⟩
  · intro htotal
    change observedRaw (w.trace ++ [.accepted _]) < 2 ^ 64 at htotal
    change emittedRaw (w.trace ++ [.accepted _]) + 0 + w.audit.rawEvents =
      observedRaw (w.trace ++ [.accepted _])
    rw [observedRaw_snoc, show observedRaw [Label.accepted _] = 0 from rfl] at htotal ⊢
    have hsum := h.raw (by omega)
    have hemitted : emittedRaw [Label.accepted (.new w.coordinator.config.sessionId
        w.coordinator.seq time (w.coordinator.touchedPathsBody startedAt ended))] =
        w.coordinator.rawEvents := rfl
    rw [emittedRaw_snoc, hemitted]
    omega
  · intro hstarted
    exact absurd hstarted (by simp [World.accept, Coordinator.auditEmitted])
  · intro hflag
    exact absurd hflag (by simp [World.accept, Coordinator.auditEmitted])
  · intro touched since hobserved hfresh
    obtain ⟨rest, rfl, hrest⟩ := hback touched since hobserved
    exact h.fresh touched rest hrest (fresh_snoc.mp hfresh).1
  · -- the window is closed by the event itself
    intro touched since hobserved hwindow
    obtain ⟨rest, rfl, -⟩ := hback touched since hobserved
    rcases hwindow.of_snoc with ⟨-, huntouched⟩ | ⟨hlabel, -⟩
    · exact absurd huntouched (by simp [Label.isTouched, Coordinator.touchedPathsBody])
    · exact absurd hlabel (by simp)
  · exact h.freshSeen.snoc fun since hfresh => fresh_snoc.mpr ⟨hfresh, rfl⟩
  · intro path set hset
    exact absurd hset (by simp [World.accept, Coordinator.auditEmitted])
  · refine h.events.snoc ?_
    intro event value heq hbody
    rw [← Label.accepted.inj heq] at hbody
    exact h.closes overflows started hbody

theorem LedgerState.otherAccepted {w : World} (h : LedgerState w) {event : Event}
    {f : Coordinator → Coordinator} (untouched : (Label.accepted event).isTouched = false)
    (same : SameLedger w (w.accept event f))
    (overflows : ∀ c, (f c).pendingOverflows = c.pendingOverflows) :
    LedgerState (w.accept event f) := by
  refine h.frame rfl same (by simp) rfl untouched fun hlimit => ?_
  refine hlimit.snoc rfl untouched ?_
  rintro ⟨notice, hmem, hsource⟩
  refine ⟨notice, ?_, hsource⟩
  change notice ∈ (f _).pendingOverflows
  rw [overflows]
  exact hmem

theorem LedgerState.overflowAccepted {w : World} (h : LedgerState w) {notice : OverflowNotice}
    {rest : List OverflowNotice} {time : String}
    (first : w.coordinator.pendingOverflows = notice :: rest) :
    LedgerState (w.accept (.new w.coordinator.config.sessionId w.coordinator.seq time
      (overflowBody notice)) fun coordinator =>
        { coordinator with pendingOverflows := coordinator.pendingOverflows.tail }) := by
  refine h.frame rfl ⟨rfl, rfl, rfl, rfl, rfl, rfl, rfl, rfl⟩ (by simp) rfl rfl ?_
  rintro (⟨pending, hmem, hsource⟩ | hreported)
  · rw [first, List.mem_cons] at hmem
    rcases hmem with rfl | hmem
    · -- this is the event that reports the dropped paths
      refine Or.inr ⟨w.trace, _, pending.rawEvents, [], rfl, ?_, by simp⟩
      rw [← hsource]
      rfl
    · refine Or.inl ⟨pending, ?_, hsource⟩
      change pending ∈ w.coordinator.pendingOverflows.tail
      rw [first]
      exact hmem
  · exact Or.inr (hreported.snoc rfl)

theorem LedgerState.accepted {w : World} (h : LedgerState w) {event : Event}
    {f : Coordinator → Coordinator} (emission : Emission w event f) :
    LedgerState (w.accept event f) := by
  cases emission with
  | overflow time notice rest delivered first => exact h.overflowAccepted first
  | audit time startedAt ended delivered overflows started =>
    exact h.touchedAccepted overflows started
  | retained _ snapshot _ body =>
    exact h.otherAccepted (by simp [Label.isTouched, body])
      ⟨rfl, rfl, rfl, rfl, rfl, rfl, rfl, rfl⟩ fun _ => rfl
  | snapshot _ snapshot _ body =>
    exact h.otherAccepted (by simp [Label.isTouched, body])
      ⟨rfl, rfl, rfl, rfl, rfl, rfl, rfl, rfl⟩ fun _ => rfl
  | _ => exact h.otherAccepted rfl ⟨rfl, rfl, rfl, rfl, rfl, rfl, rfl, rfl⟩ fun _ => rfl

theorem Step.ledgerState {w w' : World} (h : LedgerState w) (step : Step w w') :
    LedgerState w' := by
  have hsilent : ∀ {label : Label} {u : World}, u.trace = w.trace ++ [label] →
      SameLedger w u → (∀ paths rawEvents, label ≠ .observed paths rawEvents) →
      label.isDrained = false → label.isTouched = false →
      u.coordinator.pendingOverflows = w.coordinator.pendingOverflows → LedgerState u := by
    intro label u htrace hsame hobserved hdrained htouched hoverflows
    refine h.frame htrace hsame (fun paths rawEvents heq => absurd heq (hobserved _ _)) hdrained
      htouched fun hlimit => hlimit.snoc htrace htouched ?_
    rintro ⟨notice, hmem, hsource⟩
    exact ⟨notice, hoverflows ▸ hmem, hsource⟩
  cases step with
  | arrival call => exact h.arrival call
  | drained => exact h.drained
  | accepted event f _ _ emission => exact h.accepted emission
  | tick => exact ⟨h.raw, h.auditSize, h.size, h.auditOpen, h.windowOpen, h.flag, h.fresh,
      h.window, h.freshSeen, h.windowSeen, h.events⟩
  | paused => exact ⟨h.raw, h.auditSize, h.size, h.auditOpen, h.windowOpen, h.flag, h.fresh,
      h.window, h.freshSeen, h.windowSeen, h.events⟩
  | _ => exact hsilent rfl ⟨rfl, rfl, rfl, rfl, rfl, rfl, rfl, rfl⟩ (by simp) rfl rfl rfl

theorem Steps.ledgerState {w w' : World} (steps : Steps w w') (h : LedgerState w) :
    LedgerState w' := by
  induction steps with
  | refl => exact h
  | tail _ step ih => exact step.ledgerState ih

theorem ledgerState_start (config : Config) (recorder : JjRecorder) :
    LedgerState (.start config recorder) := by
  have hnone : ∀ touched since, ¬ Observed (World.start config recorder).trace touched since := by
    rintro touched since ⟨before, paths, rawEvents, htrace, -⟩
    exact absurd htrace (by simp [World.start])
  refine ⟨fun _ => rfl, Nat.zero_le _, Nat.zero_le _, ?_, ?_, ?_, ?_, ?_, ?_, ?_, atEvery_nil⟩
  · intro hstarted
    exact absurd hstarted (by simp [World.start])
  · intro hstarted
    exact absurd hstarted (by simp [World.start])
  · intro hflag
    exact absurd hflag (by simp [World.start])
  · intro touched since hobserved
    exact absurd hobserved (hnone touched since)
  · intro touched since hobserved
    exact absurd hobserved (hnone touched since)
  · intro path set hset
    exact absurd hset (by simp [World.start])
  · intro path set hset
    exact absurd hset (by simp [World.start])

/-- Where an observed path with its operations is, or what says that it was dropped. -/
def Accounted (w : World) (touched : TouchedPath) (since : List Label) : Prop :=
  (Fresh since ∧ (Held w.audit.paths touched.path touched.operations ∨
      (maxAuditPaths ≤ w.audit.paths.size ∧ w.audit.pathLimitReported = true))) ∨
    (InWindow since ∧ (Held w.coordinator.touchedPaths touched.path touched.operations ∨
      (maxAuditPaths ≤ w.coordinator.touchedPaths.size ∧ Limited w))) ∨
    ∃ before event value after, w.trace = before ++ .accepted event :: after ∧
      event.body = .touchedPaths value ∧
      (∃ window, since = window ++ .accepted event :: after ∧ InWindow window) ∧
      (Lists value touched ∨ (value.paths.length = maxAuditPaths ∧ LimitReported before))

theorem LedgerState.accounted {w : World} (h : LedgerState w) {touched : TouchedPath}
    {since : List Label} (hobserved : Observed w.trace touched since) :
    Accounted w touched since := by
  by_cases hdrained : ∃ l ∈ since, l.isDrained = true
  · obtain ⟨waiting, label, window, hsince, hlabel, hwaiting⟩ := exists_first hdrained
    obtain rfl : label = .drained := by cases label <;> simp_all [Label.isDrained]
    by_cases htouched : ∃ l ∈ window, l.isTouched = true
    · obtain ⟨first, label, after, rfl, hlabel, hfirst⟩ := exists_first htouched
      obtain ⟨event, value, rfl, hbody⟩ : ∃ event value, label = .accepted event ∧
          event.body = .touchedPaths value := by
        cases label with
        | accepted event =>
          rcases hbody : event.body with _ | _ | value <;> simp_all [Label.isTouched]
        | _ => exact absurd hlabel (by simp [Label.isTouched])
      obtain ⟨before, paths, rawEvents, htrace, hmem⟩ := hobserved
      have hsplit : w.trace = (before ++ .observed paths rawEvents ::
          (waiting ++ .drained :: first)) ++ .accepted event :: after := by
        rw [htrace, hsince]
        simp
      have hin : InWindow (waiting ++ .drained :: first) := ⟨waiting, first, rfl, hwaiting, hfirst⟩
      have hcloses := h.events _ _ _ hsplit event value rfl hbody
      refine Or.inr (Or.inr ⟨_, event, value, after, hsplit, hbody, ?_, ?_⟩)
      · exact ⟨waiting ++ .drained :: first, by rw [hsince]; simp, hin⟩
      · exact hcloses.complete touched _ ⟨before, paths, rawEvents, rfl, hmem⟩ hin
    · have hin : InWindow since := by
        refine ⟨waiting, window, hsince, hwaiting, fun l hl => ?_⟩
        rw [Bool.eq_false_iff]
        exact fun htrue => htouched ⟨l, hl, htrue⟩
      exact Or.inr (Or.inl ⟨hin, h.window touched since hobserved hin⟩)
  · have hfresh : Fresh since := by
      intro l hl
      rw [Bool.eq_false_iff]
      exact fun htrue => hdrained ⟨l, hl, htrue⟩
    exact Or.inl ⟨hfresh, h.fresh touched since hobserved hfresh⟩

end Rrjj
