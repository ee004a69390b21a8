/-
`ice_candidates()` over several gathering cycles.

A cycle is some candidates and then the report that gathering is
complete, which puts the marker into the queue of the candidates.
Nothing takes the marker out again: an iterator that comes to it hands
it on and ends. So the candidates of a later cycle stand behind the
marker of an earlier one, and whoever reads in that cycle ends at the
old marker, with its own candidates still queued or yet to come.

`paysOut_iff` says for which reports of the native layer no iterator is
ended so: those with no candidate between two reports that gathering is
complete. Whatever the consumers do, one cycle is paid out in full;
with a second one some run is not.
-/
import AioLibDataChannel.Asyncio.Marker
import AioLibDataChannel.PeerConnection.Streams
import Mathlib.Data.List.Perm.Subperm

namespace AioLibDataChannel

open Asyncio (Relay Seen)
open Transition (exec)

namespace StreamWorld

-- ============================================================= the cycles

/-- The report that ends a cycle. -/
def gatheringComplete : Dispatch := .gatheringState .complete

/-- A candidate begins a cycle that is not under way. -/
def cycleStep (under : Bool) : Dispatch → Bool
  | .localCandidate _ => true
  | .gatheringState .complete => false
  | _ => under

/-- The last candidate came after the last report that gathering is
complete. -/
def underWay (ds : List Dispatch) : Bool := ds.foldl cycleStep false

/-- What the loop ran for the native layer. -/
def dispatches (acts : List Action) : List Dispatch := acts.filterMap Action.dispatch?

/-- What an iterator is owed that begins with these dispatchers behind it
and those to come: the candidates that nobody took yet, and the rest of
the cycle that is under way. -/
def owedCandidates (w : StreamWorld) (behind later : List Dispatch) : List Candidate :=
  if underWay behind then
    if gatheringComplete ∈ later then
      w.iceCandidates.queued
        ++ (later.takeWhile (· ≠ gatheringComplete)).filterMap Dispatch.candidate?
    else []
  else w.iceCandidates.queued

/-- What an iterator has yielded. -/
def yielded (n : Nat) (w : StreamWorld) : List Candidate :=
  (w.iceCandidates.seen.filter fun s => decide (s.1 = n)).filterMap fun s => s.2.toItem?

/-- An iterator begins, as the only consumer: the others ran to their end
or have not begun. -/
structure Begins (n : Nat) (r : Relay Candidate Nat) : Prop where
  idle : r.reader n = .idle
  unowed : r.owed n = false
  new : ∀ s, (n, s) ∉ r.seen
  others : ∀ u, u ≠ n → r.reader u = .finished ∨ r.reader u = .idle ∧ ∀ s, (u, s) ∉ r.seen

/-- What may go on while it is the only one, up to its own end. -/
def Action.leavesTo (n : Nat) : Action → Bool
  | .dispatch _ => true
  | .close _ => false
  | .consume .get (.iceCandidates u) => decide (u = n)
  | .consume .resume (.iceCandidates u) => decide (u = n)
  | .consume _ (.iceCandidates _) => false
  | .consume _ _ => true

/-- Every iterator that begins in this run as the only consumer, and
comes to its end, has yielded what it was owed. -/
def PaysOut (handle : Int) (core : Core) (acts : List Action) : Prop :=
  ∀ pre mid post n w w', acts = pre ++ (mid ++ post) →
    exec apply (init handle core) pre = some w → exec apply w mid = some w' →
    Begins n w.iceCandidates → (∀ a ∈ mid, Action.leavesTo n a = true) →
    w'.iceCandidates.reader n = .finished →
      (owedCandidates w (dispatches pre) (dispatches (mid ++ post))).Subperm (yielded n w')

/-- No candidate comes between two reports that gathering is complete. -/
def SingleCycle (ds : List Dispatch) : Prop :=
  ∀ cand, ¬ [gatheringComplete, .localCandidate cand, gatheringComplete].Sublist ds

variable {w w' : StreamWorld} {a : Action} {acts : List Action} {ds : List Dispatch}
  {cand : Candidate} {n : Nat}

/-- The last report decides. -/
theorem underWay_concat (ds : List Dispatch) (d : Dispatch) :
    underWay (ds ++ [d]) = cycleStep (underWay ds) d :=
  List.foldl_concat ..

/-- Another report neither begins nor ends a cycle. -/
theorem cycleStep_of_ne {d : Dispatch} (hcand : ∀ cand, d ≠ .localCandidate cand)
    (hcomplete : d ≠ gatheringComplete) (under : Bool) : cycleStep under d = under := by
  cases d with
  | localCandidate cand => exact absurd rfl (hcand cand)
  | gatheringState state =>
      cases state with
      | complete => exact absurd rfl hcomplete
      | _ => rfl
  | _ => rfl

/-- A cycle that is not the first is under way behind a complete one. -/
theorem sublist_of_underWay (hunder : underWay ds = true) (hmem : gatheringComplete ∈ ds) :
    ∃ cand, [gatheringComplete, .localCandidate cand].Sublist ds := by
  induction ds using List.reverseRecOn with
  | nil => cases hmem
  | append_singleton ds d ih =>
      by_cases hcand : ∃ cand, d = .localCandidate cand
      · obtain ⟨cand, rfl⟩ := hcand
        have hold : gatheringComplete ∈ ds := by
          rcases List.mem_append.mp hmem with hold | hnew
          · exact hold
          · cases List.mem_singleton.mp hnew
        exact ⟨cand, (List.singleton_sublist.mpr hold).append (List.Sublist.refl _)⟩
      · by_cases hcomplete : d = gatheringComplete
        · rw [underWay_concat, hcomplete] at hunder
          cases hunder
        · rw [underWay_concat, cycleStep_of_ne (fun c h => hcand ⟨c, h⟩) hcomplete] at hunder
          have hold : gatheringComplete ∈ ds := by
            rcases List.mem_append.mp hmem with hold | hnew
            · exact hold
            · exact absurd (List.mem_singleton.mp hnew).symm hcomplete
          obtain ⟨cand, hsub⟩ := ih hunder hold
          exact ⟨cand, hsub.trans (List.sublist_append_left ds [d])⟩

/-- With no cycle under way in the end, a report that gathering is
complete came behind every candidate. -/
theorem sublist_of_foldl {under : Bool} (hunder : ds.foldl cycleStep under = false)
    (hmem : Dispatch.localCandidate cand ∈ ds) :
    [Dispatch.localCandidate cand, gatheringComplete].Sublist ds := by
  induction ds using List.reverseRecOn with
  | nil => cases hmem
  | append_singleton ds d ih =>
      rw [List.foldl_concat] at hunder
      by_cases hcomplete : d = gatheringComplete
      · subst hcomplete
        have hold : Dispatch.localCandidate cand ∈ ds := by
          rcases List.mem_append.mp hmem with hold | hnew
          · exact hold
          · cases List.mem_singleton.mp hnew
        have hone := List.singleton_sublist.mpr hold
        exact hone.append (List.Sublist.refl [gatheringComplete])
      · have hcand : ∀ c, d ≠ .localCandidate c := by
          rintro c rfl
          cases hunder
        rw [cycleStep_of_ne hcand hcomplete] at hunder
        have hold : Dispatch.localCandidate cand ∈ ds := by
          rcases List.mem_append.mp hmem with hold | hnew
          · exact hold
          · exact absurd (List.mem_singleton.mp hnew).symm (hcand cand)
        exact (ih hunder hold).trans (List.sublist_append_left ds [d])

-- ============================================================ the entries

/-- What a dispatcher puts into the queue of the candidates. -/
def Dispatch.entry? : Dispatch → Option (Option Candidate)
  | .localCandidate cand => some (some cand)
  | .stateChange state => if state = .closed ∨ state = .failed then some none else none
  | .gatheringState state => if state = .complete then some none else none
  | _ => none

/-- Neither a close nor a failure is reported. -/
def Unfailing (ds : List Dispatch) : Prop :=
  ∀ d ∈ ds, d ≠ .stateChange .closed ∧ d ≠ .stateChange .failed

instance (ds : List Dispatch) : Decidable (Unfailing ds) :=
  inferInstanceAs (Decidable (∀ d ∈ ds, _))

/-- As long as there is neither, the marker is the end of a cycle. -/
theorem entry?_eq_none_iff {d : Dispatch}
    (h : d ≠ .stateChange .closed ∧ d ≠ .stateChange .failed) :
    d.entry? = some none ↔ d = gatheringComplete := by
  cases d with
  | stateChange state =>
      cases state with
      | closed => exact absurd rfl h.1
      | failed => exact absurd rfl h.2
      | _ => simp [Dispatch.entry?, gatheringComplete]
  | gatheringState state => cases state <;> decide
  | _ => simp [Dispatch.entry?, gatheringComplete]

/-- A candidate is what is put for its report. -/
theorem entry?_eq_some_iff {d : Dispatch} :
    d.entry? = some (some cand) ↔ d = .localCandidate cand := by
  cases d with
  | localCandidate c =>
      simp only [Dispatch.entry?, Option.some.injEq, Dispatch.localCandidate.injEq]
  | stateChange state => cases state <;> simp [Dispatch.entry?]
  | gatheringState state => cases state <;> simp [Dispatch.entry?]
  | _ => simp [Dispatch.entry?]

/-- The marker is put for the end of a cycle. -/
theorem mem_entries_iff (hds : Unfailing ds) :
    none ∈ ds.filterMap Dispatch.entry? ↔ gatheringComplete ∈ ds := by
  rw [List.mem_filterMap]
  constructor
  · rintro ⟨d, hd, hentry⟩
    exact (entry?_eq_none_iff (hds d hd)).mp hentry ▸ hd
  · intro hmem
    exact ⟨gatheringComplete, hmem, rfl⟩

/-- The candidates ahead of the first marker are those dispatched before
the first report that gathering is complete. -/
theorem ahead_entries (hds : Unfailing ds) :
    Relay.ahead (ds.filterMap Dispatch.entry?)
      = (ds.takeWhile (· ≠ gatheringComplete)).filterMap Dispatch.candidate? := by
  induction ds with
  | nil => rfl
  | cons d rest ih =>
      have hrest : Unfailing rest := fun e he => hds e (List.mem_cons_of_mem d he)
      have hd := hds d List.mem_cons_self
      by_cases hcomplete : d = gatheringComplete
      · subst hcomplete
        rfl
      · rw [List.takeWhile_cons_of_pos (by simpa using hcomplete)]
        cases hentry : d.entry? with
        | none =>
            have hcand : d.candidate? = none := by
              cases d with
              | localCandidate c => cases hentry
              | _ => rfl
            rw [List.filterMap_cons_none hentry, List.filterMap_cons_none hcand, ih hrest]
        | some e =>
            cases e with
            | none => exact absurd ((entry?_eq_none_iff hd).mp hentry) hcomplete
            | some c =>
                have hc := entry?_eq_some_iff.mp hentry
                subst hc
                rw [List.filterMap_cons_some hentry, Relay.ahead_some_cons, ih hrest]
                rfl

/-- In a single cycle that is over, no candidate is behind a marker. -/
theorem ordered_entries (hds : Unfailing ds) (hcycle : SingleCycle ds)
    (hunder : underWay ds = false) : Relay.Ordered (ds.filterMap Dispatch.entry?) := by
  refine List.pairwise_filterMap.mpr (List.pairwise_iff_forall_sublist.mpr ?_)
  intro d d' hpair e he e' he' hnone
  subst hnone
  have hd := (entry?_eq_none_iff (hds d (hpair.subset List.mem_cons_self))).mp he
  subst hd
  cases e' with
  | none => rfl
  | some c =>
      exfalso
      have hd' := entry?_eq_some_iff.mp he'
      subst hd'
      obtain ⟨r₁, r₂, rfl, hfirst, hsecond⟩ := List.cons_sublist_iff.mp hpair
      rw [underWay, List.foldl_append] at hunder
      have hlast := sublist_of_foldl hunder (List.singleton_sublist.mp hsecond)
      exact hcycle c ((List.singleton_sublist.mpr hfirst).append hlast)

-- ===================================================== the candidates' queue

/-- What an action is to the candidates' queue, `close()` apart. -/
def Action.ice? : Action → Option (Relay.Action Candidate Nat)
  | .dispatch d => d.entry?.map .put
  | .close _ => none
  | .consume s (.iceCandidates u) => some (s.on u)
  | .consume _ _ => none

/-- A dispatch puts what is due into the candidates' stream. -/
theorem ice_dispatch (d : Dispatch) (w : StreamWorld) :
    exec (Relay.step iterator) w.iceCandidates (d.entry?.map Relay.Action.put).toList
      = some (w.dispatch d).iceCandidates := by
  cases d with
  | stateChange state => cases state <;> rfl
  | gatheringState state => cases state <;> rfl
  | _ => rfl

/-- Seen from that stream, a step is one of its own. -/
theorem ice_step (hclose : ∀ owned, a ≠ .close owned) (h : apply a w = some w') :
    exec (Relay.step iterator) w.iceCandidates a.ice?.toList = some w'.iceCandidates := by
  cases a with
  | dispatch d =>
      cases h
      exact ice_dispatch d w
  | close owned => exact absurd rfl (hclose owned)
  | consume s c =>
      cases c with
      | iceCandidates u =>
          obtain ⟨r, hr, rfl⟩ := Option.map_eq_some_iff.mp h
          exact Transition.exec_cons hr
      | incoming u =>
          obtain ⟨r, -, rfl⟩ := Option.map_eq_some_iff.mp h
          rfl
      | events u =>
          obtain ⟨r, -, rfl⟩ := Option.map_eq_some_iff.mp h
          rfl

/-- A run without a `close()` is a run of the queue. -/
theorem ice_exec (hclose : ∀ owned, Action.close owned ∉ acts)
    (h : exec apply w acts = some w') :
    exec (Relay.step iterator) w.iceCandidates (acts.filterMap Action.ice?)
      = some w'.iceCandidates := by
  induction acts generalizing w with
  | nil =>
      cases h
      rfl
  | cons a rest ih =>
      obtain ⟨m, ha, hrest⟩ := Transition.exec_cons_cases h
      have hstep := ice_step (fun owned heq => hclose owned (heq ▸ List.mem_cons_self)) ha
      rw [← Transition.toList_append_filterMap, Transition.exec_append, hstep]
      exact ih (fun owned hmem => hclose owned (List.mem_cons_of_mem a hmem)) hrest

/-- Only dispatchers put anything. -/
theorem entries_eq (acts : List Action) :
    (acts.filterMap Action.ice?).filterMap Relay.Action.entry?
      = (dispatches acts).filterMap Dispatch.entry? := by
  have hone : ∀ a : Action,
      a.ice?.bind Relay.Action.entry? = a.dispatch?.bind Dispatch.entry? := by
    intro a
    cases a with
    | dispatch d =>
        show (d.entry?.map Relay.Action.put).bind Relay.Action.entry? = d.entry?
        cases d.entry? <;> rfl
    | close owned => rfl
    | consume s c =>
        cases c with
        | iceCandidates u => cases s <;> rfl
        | _ => rfl
  rw [dispatches, List.filterMap_filterMap, List.filterMap_filterMap]
  exact congrArg (List.filterMap · acts) (funext hone)

/-- A step that leaves the stream to one consumer does so there. -/
theorem feeds_ice {b : Relay.Action Candidate Nat} (ha : Action.leavesTo n a = true)
    (hb : a.ice? = some b) : Relay.Action.feeds n b = true := by
  cases a with
  | dispatch d =>
      obtain ⟨e, -, rfl⟩ := Option.map_eq_some_iff.mp hb
      rfl
  | close owned => cases ha
  | consume s c =>
      cases c with
      | iceCandidates u =>
          cases hb
          cases s with
          | get => exact ha
          | resume => exact ha
          | cancel => cases ha
          | absorb => cases ha
      | incoming u => cases hb
      | events u => cases hb

/-- An iterator that begins so is the only one. -/
theorem sole_of_begins {r : Relay Candidate Nat} (h : Begins n r) : Relay.Sole n r where
  alone := by
    intro u hu
    by_contra hne
    rcases h.others u hne with hfin | ⟨hidle, -⟩
    · cases hu.symm.trans hfin
    · cases hu.symm.trans hidle
  unowed := h.unowed
  reading := by
    rw [h.idle]
    exact Asyncio.Reader.noConfusion

/-- What a new iterator saw is what it yielded. -/
theorem yielded_of_seen {items : List Candidate} (hnew : ∀ s, (n, s) ∉ w.iceCandidates.seen)
    (hseen : w'.iceCandidates.seen
      = w.iceCandidates.seen ++ (Relay.due false items).map (Prod.mk n)) :
    yielded n w' = items := by
  have hold : w.iceCandidates.seen.filter (fun s => decide (s.1 = n)) = [] := by
    refine List.filter_eq_nil_iff.mpr fun s hs hn => ?_
    exact hnew s.2 (of_decide_eq_true hn ▸ hs)
  have hmine : ((Relay.due false items).map (Prod.mk n)).filter (fun s => decide (s.1 = n))
      = (Relay.due false items).map (Prod.mk n) := by
    refine List.filter_eq_self.mpr fun s hs => ?_
    obtain ⟨x, -, rfl⟩ := List.mem_map.mp hs
    exact decide_eq_true rfl
  have hitems : (Relay.due false items).filterMap Seen.toItem? = items := by
    show (items.map Seen.item ++ [Seen.ended]).filterMap Seen.toItem? = items
    rw [List.filterMap_append, List.filterMap_map]
    exact (List.append_nil _).trans List.filterMap_some
  rw [yielded, hseen, List.filter_append, hold, hmine, List.nil_append, List.filterMap_map]
  exact hitems

-- ========================================================== a single cycle

/-- A run dispatches what its halves do. -/
theorem dispatches_append (acts acts' : List Action) :
    dispatches (acts ++ acts') = dispatches acts ++ dispatches acts' :=
  List.filterMap_append

section Queue

variable {handle : Int} {core : Core}

/-- Without a close the candidates' stream stays sound. -/
theorem iceSound_exec (hclose : ∀ owned, Action.close owned ∉ acts)
    (h : exec apply (init handle core) acts = some w) : w.iceCandidates.Sound := by
  have hnew : (init handle core).iceCandidates.Sound := Relay.sound_new
  have hreach := Transition.reachable_of_exec (ice_exec hclose h)
  exact hreach.invariant hnew fun hm ha => Relay.sound_step hm ha

/-- The queue is marked once a cycle has been complete. -/
theorem marked_iff_complete (hds : Unfailing (dispatches acts))
    (hclose : ∀ owned, Action.close owned ∉ acts)
    (h : exec apply (init handle core) acts = some w) :
    none ∈ w.iceCandidates.queue.items ↔ gatheringComplete ∈ dispatches acts := by
  have hnew : (init handle core).iceCandidates.Sound := Relay.sound_new
  rw [Relay.mem_none_exec hnew (ice_exec hclose h), entries_eq, ← mem_entries_iff hds]
  exact Iff.rfl

/-- Behind a single cycle that is over, no candidate is behind a marker. -/
theorem ordered_of_singleCycle (hds : Unfailing (dispatches acts))
    (hclose : ∀ owned, Action.close owned ∉ acts)
    (h : exec apply (init handle core) acts = some w) (hcycle : SingleCycle (dispatches acts))
    (hunder : underWay (dispatches acts) = false) :
    Relay.Ordered w.iceCandidates.queue.items := by
  have hnew : (init handle core).iceCandidates.Sound := Relay.sound_new
  refine Relay.ordered_exec hnew (ice_exec hclose h) ?_
  rw [entries_eq]
  exact ordered_entries hds hcycle hunder

end Queue

/-- A sole iterator that comes to its end has yielded what was ahead of
the first marker, queued or dispatched meanwhile. -/
theorem yielded_of_end (hclose : ∀ owned, Action.close owned ∉ acts)
    (hsound : w.iceCandidates.Sound) (hbegins : Begins n w.iceCandidates)
    (hleaves : ∀ a ∈ acts, Action.leavesTo n a = true) (h : exec apply w acts = some w')
    (hend : w'.iceCandidates.reader n = .finished) :
    none ∈ w.iceCandidates.queue.items ++ (dispatches acts).filterMap Dispatch.entry?
      ∧ yielded n w' = Relay.ahead
        (w.iceCandidates.queue.items ++ (dispatches acts).filterMap Dispatch.entry?) := by
  have hfeeds : ∀ b ∈ acts.filterMap Action.ice?, Relay.Action.feeds n b = true := by
    intro b hb
    obtain ⟨a, ha, hab⟩ := List.mem_filterMap.mp hb
    exact feeds_ice (hleaves a ha) hab
  obtain ⟨hmark, hseen⟩ := Relay.sole_ends (t := n) rfl hsound (sole_of_begins hbegins)
    hfeeds (ice_exec hclose h) hend
  rw [entries_eq] at hmark hseen
  exact ⟨hmark, yielded_of_seen hbegins.new hseen⟩

/-- A single cycle is paid out, whatever the consumers do. -/
theorem paysOut_of_singleCycle {handle : Int} {core : Core}
    (hds : Unfailing (dispatches acts)) (hclose : ∀ owned, Action.close owned ∉ acts)
    (hcycle : SingleCycle (dispatches acts)) : PaysOut handle core acts := by
  rintro pre mid post n w w' rfl hpre hmid hbegins hleaves hend
  rw [dispatches_append] at hds hcycle
  generalize hlater : dispatches (mid ++ post) = later at hds hcycle ⊢
  have hbehind : Unfailing (dispatches pre) := fun d hd => hds d (List.mem_append_left _ hd)
  have hclose₁ : ∀ owned, Action.close owned ∉ pre := fun owned hmem =>
    hclose owned (List.mem_append_left _ hmem)
  have hclose₂ : ∀ owned, Action.close owned ∉ mid := fun owned hmem =>
    hclose owned (List.mem_append_right _ (List.mem_append_left _ hmem))
  have hmarked := marked_iff_complete hbehind hclose₁ hpre
  obtain ⟨hmark, hyield⟩ :=
    yielded_of_end hclose₂ (iceSound_exec hclose₁ hpre) hbegins hleaves hmid hend
  rw [hyield]
  refine (List.IsPrefix.sublist ?_).subperm
  unfold owedCandidates
  by_cases hfirst : gatheringComplete ∈ dispatches pre
  · -- the iterator ends at a marker that is there already
    rw [Relay.ahead_append_of_mem (hmarked.mpr hfirst)]
    cases hunder : underWay (dispatches pre) with
    | true =>
        obtain ⟨cand, hsub⟩ := sublist_of_underWay hunder hfirst
        have hlast : gatheringComplete ∉ later := fun hmem =>
          hcycle cand (hsub.append (List.singleton_sublist.mpr hmem))
        rw [if_pos rfl, if_neg hlast]
        exact List.nil_prefix
    | false =>
        have hcycle' : SingleCycle (dispatches pre) := fun cand hsub =>
          hcycle cand (hsub.trans (List.sublist_append_left _ _))
        have hordered := ordered_of_singleCycle hbehind hclose₁ hpre hcycle' hunder
        rw [if_neg Bool.false_ne_true, Relay.ahead_of_ordered hordered]
        exact List.prefix_rfl
  · -- it ends at the first marker that comes while it reads
    have hnone : none ∉ w.iceCandidates.queue.items := fun hmem => hfirst (hmarked.mp hmem)
    have hmark' := (List.mem_append.mp hmark).resolve_left hnone
    rw [Relay.ahead_append hnone]
    split
    next =>
      split
      next =>
        have hahead : Unfailing later := fun d hd => hds d (List.mem_append_right _ hd)
        rw [← ahead_entries hahead, ← hlater, dispatches_append, List.filterMap_append,
          Relay.ahead_append_of_mem hmark']
        exact List.prefix_rfl
      next => exact List.nil_prefix
    next => exact List.prefix_append _ _

-- ============================================================== two cycles

/-- Reports can always be dispatched. -/
theorem exec_dispatches (ds : List Dispatch) (w : StreamWorld) :
    ∃ w', exec apply w (ds.map Action.dispatch) = some w' := by
  induction ds generalizing w with
  | nil => exact ⟨w, rfl⟩
  | cons d rest ih => exact ih (w.dispatch d)

/-- A run of dispatches dispatches just these. -/
theorem dispatches_map (ds : List Dispatch) : dispatches (ds.map Action.dispatch) = ds := by
  rw [dispatches, List.filterMap_map]
  exact List.filterMap_some

/-- Dispatchers alone are puts alone. -/
theorem ice_map (ds : List Dispatch) :
    (ds.map Action.dispatch).filterMap Action.ice?
      = (ds.filterMap Dispatch.entry?).map Relay.Action.put := by
  rw [List.filterMap_map, List.map_filterMap]
  rfl

/-- There is no close among them. -/
theorem close_not_mem_map (ds : List Dispatch) (owned : List Consumer) :
    Action.close owned ∉ ds.map Action.dispatch := by
  intro hmem
  obtain ⟨d, -, hd⟩ := List.mem_map.mp hmem
  cases hd

/-- Reads of the queue, as steps of an iterator. -/
theorem exists_reads {as : List (Relay.Action Candidate Nat)} {r : Relay Candidate Nat}
    (has : ∀ a ∈ as, Relay.Action.reads n a = true)
    (h : exec (Relay.step iterator) w.iceCandidates as = some r) :
    ∃ mid, exec apply w mid = some { w with iceCandidates := r }
      ∧ (∀ a ∈ mid, Action.leavesTo n a = true) ∧ dispatches mid = [] := by
  induction as generalizing w with
  | nil =>
      cases h
      exact ⟨[], rfl, List.forall_mem_nil _, rfl⟩
  | cons a rest ih =>
      obtain ⟨m, ha, hrest⟩ := Transition.exec_cons_cases h
      obtain ⟨s, rfl, hs⟩ : ∃ s : ConsumerStep, a = s.on n ∧ (s = .get ∨ s = .resume) := by
        have hread := has a List.mem_cons_self
        cases a with
        | get u => exact ⟨.get, congrArg _ (of_decide_eq_true hread), Or.inl rfl⟩
        | resume u => exact ⟨.resume, congrArg _ (of_decide_eq_true hread), Or.inr rfl⟩
        | put e => cases hread
        | cancel u => cases hread
        | absorb u => cases hread
      let next : StreamWorld := { w with iceCandidates := m }
      have hstep : apply (.consume s (.iceCandidates n)) w = some next := by
        show (Relay.step iterator (s.on n) w.iceCandidates).map _ = _
        rw [ha]
        rfl
      have hreads := fun b hb => has b (List.mem_cons_of_mem _ hb)
      obtain ⟨mid, hexec, hleaves, hnone⟩ := ih (w := next) hreads hrest
      refine ⟨.consume s (.iceCandidates n) :: mid, ?_, ?_, hnone⟩
      · exact (Transition.exec_cons hstep).trans hexec
      · intro b hb
        rcases List.mem_cons.mp hb with rfl | hb
        · rcases hs with rfl | rfl <;> exact decide_eq_true rfl
        · exact hleaves b hb

/-- The reports up to the end of a second cycle. -/
theorem exists_second_cycle
    (hsub : [gatheringComplete, .localCandidate cand, gatheringComplete].Sublist ds) :
    ∃ behind later, ds = behind ++ later ∧ underWay behind = false
      ∧ [gatheringComplete, .localCandidate cand].Sublist behind := by
  have hsplit : ([gatheringComplete, .localCandidate cand]
      ++ [gatheringComplete]).Sublist ds := hsub
  obtain ⟨front, back, rfl, hfront, hback⟩ := List.append_sublist_iff.mp hsplit
  obtain ⟨between, later, rfl⟩ := List.append_of_mem (List.singleton_sublist.mp hback)
  refine ⟨front ++ between ++ [gatheringComplete], later, ?_, ?_, ?_⟩
  · rw [List.append_assoc, List.append_assoc]
    rfl
  · rw [underWay_concat]
    rfl
  · rw [List.append_assoc]
    exact hfront.trans (List.sublist_append_left _ _)

/-- After dispatchers alone, what they put is queued, and any iterator
can begin. -/
theorem queued_of_dispatches {handle : Int} {core : Core}
    (h : exec apply (init handle core) (ds.map Action.dispatch) = some w) (n : Nat) :
    w.iceCandidates.queue.items = ds.filterMap Dispatch.entry? ∧ Begins n w.iceCandidates := by
  have hice := ice_exec (close_not_mem_map ds) h
  rw [ice_map] at hice
  have hnew : (init handle core).iceCandidates.Sound := Relay.sound_new
  obtain ⟨hitems, hreader, howed, hseen⟩ := Relay.puts_exec hnew hice
  refine ⟨hitems, congrFun hreader n, congrFun howed n, ?_, ?_⟩
  · rw [hseen]
    exact fun _ => List.not_mem_nil
  · rw [hseen]
    exact fun u _ => Or.inr ⟨congrFun hreader u, fun _ => List.not_mem_nil⟩

/-- An iterator that begins when the queue is marked can read what is
ahead of the first marker, and is then at its end. -/
theorem exists_ending (hsound : w.iceCandidates.Sound) (hbegins : Begins n w.iceCandidates)
    (hmark : none ∈ w.iceCandidates.queue.items) :
    ∃ mid w', exec apply w mid = some w' ∧ (∀ a ∈ mid, Action.leavesTo n a = true)
      ∧ dispatches mid = [] ∧ w'.iceCandidates.reader n = .finished
      ∧ yielded n w' = Relay.ahead w.iceCandidates.queue.items := by
  obtain ⟨rest, hrest⟩ := Relay.exists_ahead hmark
  have hreads : ∃ as r, (∀ a ∈ as, Relay.Action.reads n a = true)
      ∧ exec (Relay.step iterator) w.iceCandidates as = some r
      ∧ r.seen = w.iceCandidates.seen
        ++ (Relay.due false (Relay.ahead w.iceCandidates.queue.items)).map (Prod.mk n)
      ∧ r.reader n = .finished := Relay.sole_reads_all hsound (sole_of_begins hbegins) hrest
  obtain ⟨as, r, has, hexec, hsaw, hend⟩ := hreads
  obtain ⟨mid, hmid, hleaves, hnone⟩ := exists_reads has hexec
  exact ⟨mid, _, hmid, hleaves, hnone, hend, yielded_of_seen hbegins.new hsaw⟩

/-- With a second cycle, an iterator that reads when it is over ends at
the first marker. -/
theorem exists_unpaid (handle : Int) (core : Core)
    (hsub : [gatheringComplete, .localCandidate cand, gatheringComplete].Sublist ds) :
    ∃ acts w, dispatches acts = ds ∧ (∀ owned, Action.close owned ∉ acts)
      ∧ exec apply (init handle core) acts = some w ∧ ¬ PaysOut handle core acts := by
  obtain ⟨behind, later, rfl, hunder, hsub⟩ := exists_second_cycle hsub
  obtain ⟨w, hw⟩ := exec_dispatches behind (init handle core)
  obtain ⟨hitems, hbegins⟩ := queued_of_dispatches hw 0
  have hpair : [none, some cand].Sublist w.iceCandidates.queue.items := by
    rw [hitems]
    exact hsub.filterMap Dispatch.entry?
  obtain ⟨mid, m, hmid, hleaves, hnone, hend, hyield⟩ :=
    exists_ending (iceSound_exec (close_not_mem_map behind) hw) hbegins
      (hpair.subset List.mem_cons_self)
  obtain ⟨w', hw'⟩ := exec_dispatches later m
  refine ⟨behind.map Action.dispatch ++ (mid ++ later.map Action.dispatch), w',
    ?_, ?_, ?_, ?_⟩
  · rw [dispatches_append, dispatches_append, dispatches_map, dispatches_map, hnone]
    rfl
  · intro owned hmem
    rcases List.mem_append.mp hmem with hmem | hmem
    · exact close_not_mem_map _ owned hmem
    · rcases List.mem_append.mp hmem with hmem | hmem
      · cases hleaves _ hmem
      · exact close_not_mem_map _ owned hmem
  · rw [Transition.exec_append, hw, Option.bind_some, Transition.exec_append, hmid]
    exact hw'
  · intro hpays
    have hall := hpays _ mid _ 0 w m rfl hw hmid hbegins hleaves hend
    rw [dispatches_map, owedCandidates, hunder, hyield] at hall
    exact absurd hall.length_le (Nat.not_le.mpr (Relay.length_ahead_lt hpair))

-- ============================================================ which reports

/-- With these reports of the native layer every iterator is paid out,
in every run without a `close()`, exactly if no candidate comes between
two reports that gathering is complete. -/
theorem paysOut_iff {handle : Int} {core : Core} (hds : Unfailing ds) :
    (∀ acts w, dispatches acts = ds → (∀ owned, Action.close owned ∉ acts) →
        exec apply (init handle core) acts = some w → PaysOut handle core acts)
      ↔ SingleCycle ds := by
  constructor
  · intro hall cand hsub
    obtain ⟨acts, w, hacts, hclose, hrun, hnot⟩ := exists_unpaid handle core hsub
    exact hnot (hall acts w hacts hclose hrun)
  · rintro hcycle acts w rfl hclose -
    exact paysOut_of_singleCycle hds hclose hcycle

/-- The first cycle, and the iterator that reads it to its end. -/
def firstCycle : List Action :=
  [.dispatch (.localCandidate ⟨"a", "0"⟩), .dispatch gatheringComplete,
    .consume .get (.iceCandidates 0), .consume .get (.iceCandidates 0)]

/-- The second, which a new iterator reads as soon as its candidate has
come. -/
def secondCycle : List Action :=
  [.dispatch (.localCandidate ⟨"b", "0"⟩), .consume .get (.iceCandidates 1),
    .dispatch gatheringComplete]

/-- The second iterator ends at once, on the marker the first one handed
on, while the candidate it is owed is queued behind it. -/
theorem secondCycle_unpaid :
    ∃ w w', exec apply (init 1 ⟨[], [], [], []⟩) (firstCycle ++ secondCycle.take 1) = some w
      ∧ exec apply w (secondCycle.drop 1) = some w'
      ∧ w'.iceCandidates.reader 1 = .finished ∧ yielded 1 w' = []
      ∧ w'.iceCandidates.queue.items = [some ⟨"b", "0"⟩, none, none]
      ∧ ¬ PaysOut 1 ⟨[], [], [], []⟩ (firstCycle ++ secondCycle) := by
  refine ⟨_, _, rfl, rfl, rfl, rfl, rfl, fun hpays => ?_⟩
  refine absurd (hpays (firstCycle ++ secondCycle.take 1) (secondCycle.drop 1) [] 1 _ _
    rfl rfl rfl ?_ (by decide) rfl).length_le (by decide)
  refine { idle := rfl, unowed := rfl, new := ?_, others := ?_ }
  · intro s hs
    have hseen : (1, s) ∈ [(0, Seen.item ⟨"a", "0"⟩), (0, Seen.ended)] := hs
    simp at hseen
  · intro u hu
    by_cases hzero : u = 0
    · subst hzero
      exact Or.inl rfl
    · refine Or.inr ⟨?_, fun s hs => ?_⟩
      · show Function.update (Function.update (fun _ => Asyncio.Reader.idle) 0 .idle) 0
          .finished u = .idle
        rw [Function.update_of_ne hzero, Function.update_of_ne hzero]
      · have hseen : (u, s) ∈ [(0, Seen.item ⟨"a", "0"⟩), (0, Seen.ended)] := hs
        simp [hzero] at hseen

/-- `paysOut_iff` for the reports of the two cycles, which break both
sides. -/
theorem paysOut_iff_twoCycles :
    (∀ acts w, dispatches acts = dispatches (firstCycle ++ secondCycle) →
        (∀ owned, Action.close owned ∉ acts) →
        exec apply (init 1 ⟨[], [], [], []⟩) acts = some w →
          PaysOut 1 ⟨[], [], [], []⟩ acts)
      ↔ SingleCycle (dispatches (firstCycle ++ secondCycle)) :=
  paysOut_iff (by decide)

end StreamWorld

end AioLibDataChannel
