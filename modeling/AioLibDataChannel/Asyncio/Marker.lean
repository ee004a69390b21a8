/-
A stream whose producer goes on after the marker.

Consumers hand a marker on, so it is never gone: it is queued exactly
if it was put (`mem_none_exec`), and what is put after it stands behind
it. A sole consumer that comes to its end saw what stood ahead of the
first marker, or came to stand there while it was reading, and nothing
else (`sole_ends`).

Nothing is left behind as long as every item was put ahead of every
marker. The queue then keeps that order (`ordered_exec`), and what is
ahead of the first marker is all there is (`ahead_of_ordered`).
-/
import AioLibDataChannel.Asyncio.Relay

namespace Asyncio

namespace Relay

open Transition (exec)

variable {α ι : Type*}

-- ======================================================= items and markers

/-- The items ahead of the first marker. -/
def ahead (l : List (Option α)) : List α := (l.takeWhile Option.isSome).reduceOption

/-- An item at the front is ahead of the marker. -/
theorem ahead_some_cons (x : α) (l : List (Option α)) :
    ahead (some x :: l) = x :: ahead l := rfl

/-- Behind a marker nothing is ahead. -/
theorem ahead_none_cons (l : List (Option α)) : ahead (none :: l) = [] := rfl

/-- With no marker in front, everything there is ahead. -/
theorem ahead_append {front : List (Option α)} (h : none ∉ front) (l : List (Option α)) :
    ahead (front ++ l) = front.reduceOption ++ ahead l := by
  induction front with
  | nil => rfl
  | cons e rest ih =>
      have hrest : none ∉ rest := fun hmem => h (List.mem_cons_of_mem e hmem)
      cases e with
      | none => exact absurd List.mem_cons_self h
      | some x =>
          rw [List.cons_append, ahead_some_cons, ih hrest]
          rfl

/-- With a marker in front, nothing else is. -/
theorem ahead_append_of_mem {front : List (Option α)} (h : none ∈ front)
    (l : List (Option α)) : ahead (front ++ l) = ahead front := by
  induction front with
  | nil => cases h
  | cons e rest ih =>
      cases e with
      | none => rfl
      | some x =>
          have hrest : none ∈ rest :=
            (List.mem_cons.mp h).resolve_left (Option.some_ne_none x).symm
          rw [List.cons_append, ahead_some_cons, ih hrest, ahead_some_cons]

/-- What is ahead of a marker that is there, and the marker. -/
theorem exists_ahead {l : List (Option α)} (h : none ∈ l) :
    ∃ rest, l = (ahead l).map some ++ none :: rest := by
  induction l with
  | nil => cases h
  | cons e rest ih =>
      cases e with
      | none => exact ⟨rest, rfl⟩
      | some x =>
          obtain ⟨tail, htail⟩ :=
            ih ((List.mem_cons.mp h).resolve_left (Option.some_ne_none x).symm)
          refine ⟨tail, ?_⟩
          rw [ahead_some_cons, List.map_cons, List.cons_append]
          exact congrArg (some x :: ·) htail

/-- No item is behind a marker. -/
def Ordered (l : List (Option α)) : Prop := l.Pairwise fun e e' => e = none → e' = none

/-- Markers alone are in order. -/
theorem ordered_of_all_none {l : List (Option α)} (h : ∀ e ∈ l, e = none) : Ordered l := by
  refine List.pairwise_iff_forall_sublist.mpr fun hpair _ => h _ (hpair.subset ?_)
  exact List.mem_cons_of_mem _ (List.mem_singleton_self _)

/-- Then what is ahead of the first marker is all there is. -/
theorem ahead_of_ordered {l : List (Option α)} (h : Ordered l) :
    ahead l = l.reduceOption := by
  induction l with
  | nil => rfl
  | cons e rest ih =>
      obtain ⟨hhead, hrest⟩ := List.pairwise_cons.mp h
      cases e with
      | none =>
          have hnone : rest.reduceOption = [] :=
            List.filterMap_eq_nil_iff.mpr fun e' he' => hhead e' he' rfl
          rw [ahead_none_cons, List.reduceOption_cons_of_none, hnone]
      | some x => rw [ahead_some_cons, List.reduceOption_cons_of_some, ih hrest]

/-- An item behind a marker is not ahead of the first. -/
theorem length_ahead_lt {l : List (Option α)} {x : α} (h : [none, some x].Sublist l) :
    (ahead l).length < l.reduceOption.length := by
  induction l with
  | nil => cases h
  | cons e rest ih =>
      cases e with
      | none =>
          have hx : x ∈ (none :: rest).reduceOption := by
            refine List.reduceOption_mem_iff.mpr (h.subset ?_)
            exact List.mem_cons_of_mem _ (List.mem_singleton_self _)
          rw [ahead_none_cons]
          exact List.length_pos_of_mem hx
      | some y =>
          rw [ahead_some_cons, List.reduceOption_cons_of_some, List.length_cons,
            List.length_cons]
          cases h with
          | cons _ hrest => exact Nat.succ_lt_succ (ih hrest)

-- ========================================================== along a run

variable [DecidableEq ι] {once : ι → Bool} {r r' : Relay α ι} {a : Action α ι}
  {as : List (Action α ι)} {t : ι}

/-- The item or marker an action puts. -/
def Action.entry? : Action α ι → Option (Option α)
  | .put e => some e
  | _ => none

/-- A marker is queued exactly if it was, or is put. -/
theorem mem_none_step (hr : r.Sound) (h : step once a r = some r') :
    none ∈ r'.queue.items ↔ none ∈ r.queue.items ∨ a.entry? = some none := by
  constructor
  · intro hmem
    by_contra hnot
    obtain ⟨hold, hput⟩ := not_or.mp hnot
    refine unmarked_step hr hold (fun ha => hput ?_) h hmem
    rw [ha]
    rfl
  · rintro (hold | hput)
    · exact marked_step hr hold h
    · cases a with
      | put e =>
          cases hput
          cases h
          rw [put_items hr.full]
          exact List.mem_append_right _ (List.mem_singleton_self _)
      | get u => cases hput
      | resume u => cases hput
      | cancel u => cases hput
      | absorb u => cases hput

/-- Over a run the marker is in the queue if it was there or was put. -/
theorem mem_none_exec (hr : r.Sound) (h : exec (step once) r as = some r') :
    none ∈ r'.queue.items ↔ none ∈ r.queue.items ++ as.filterMap Action.entry? := by
  induction as generalizing r with
  | nil =>
      cases h
      rw [List.filterMap_nil, List.append_nil]
  | cons a rest ih =>
      obtain ⟨m, ha, hrest⟩ := Transition.exec_cons_cases h
      rw [ih (sound_step hr ha) hrest, List.mem_append, mem_none_step hr ha,
        ← Transition.toList_append_filterMap, List.mem_append, List.mem_append,
        Option.mem_toList, or_assoc]

/-- The queue keeps items ahead of markers, if they are put so. -/
theorem ordered_step {later : List (Option α)} (hr : r.Sound) (h : step once a r = some r')
    (ho : Ordered (r.queue.items ++ (a.entry?.toList ++ later))) :
    Ordered (r'.queue.items ++ later) := by
  have hturn := turn_step hr h
  generalize r.queue.items = items at ho hturn
  generalize r'.queue.items = items' at hturn ⊢
  have hdrop : ∀ l : List (Option α), Ordered (l ++ (a.entry?.toList ++ later)) →
      Ordered (l ++ later) := fun l hl =>
    hl.sublist ((List.Sublist.refl l).append (List.sublist_append_right _ later))
  cases hturn with
  | put e _ ha =>
      rw [ha] at ho
      rw [List.append_assoc]
      exact ho
  | still _ => exact hdrop items ho
  | took x _ => exact hdrop items' (List.pairwise_cons.mp ho).2
  | passed rest =>
      have hall := (List.pairwise_cons.mp ho).1
      refine ordered_of_all_none fun e he => ?_
      rcases List.mem_append.mp he with he | he
      · rcases List.mem_append.mp he with he | he
        · exact hall e (List.mem_append_left _ he) rfl
        · exact List.mem_singleton.mp he
      · exact hall e (List.mem_append_right _ (List.mem_append_right _ he)) rfl

/-- What is put in order stays in order in the queue. -/
theorem ordered_exec (hr : r.Sound) (h : exec (step once) r as = some r')
    (ho : Ordered (r.queue.items ++ as.filterMap Action.entry?)) :
    Ordered r'.queue.items := by
  induction as generalizing r with
  | nil =>
      cases h
      rwa [List.filterMap_nil, List.append_nil] at ho
  | cons a rest ih =>
      obtain ⟨m, ha, hrest⟩ := Transition.exec_cons_cases h
      rw [← Transition.toList_append_filterMap] at ho
      exact ih (sound_step hr ha) hrest (ordered_step hr ha ho)

/-- Puts alone: nobody moves, and the queue grows. -/
theorem puts_exec {entries : List (Option α)} (hr : r.Sound)
    (h : exec (step once) r (entries.map Action.put) = some r') :
    r'.queue.items = r.queue.items ++ entries ∧ r'.reader = r.reader ∧ r'.owed = r.owed
      ∧ r'.seen = r.seen := by
  induction entries generalizing r with
  | nil =>
      cases h
      exact ⟨(List.append_nil _).symm, rfl, rfl, rfl⟩
  | cons e rest ih =>
      obtain ⟨hi, hreader, howed, hseen⟩ := ih (r := r.put e) (sound_put hr e) h
      rw [put_items hr.full, List.append_assoc] at hi
      exact ⟨hi, hreader, howed, hseen⟩

/-- What a sole iterator makes of the head: an item is seen, and it can go
on reading; the marker is its end. -/
theorem received_sole (honce : once t = false) (e : Option α) (q : Queue (Option α) ι)
    (hs : Sole t r) :
    (∃ x, e = some x ∧ Sole t (({ r with queue := q } : Relay α ι).received once t e)
        ∧ (({ r with queue := q } : Relay α ι).received once t e).queue = q
        ∧ (({ r with queue := q } : Relay α ι).received once t e).seen
          = r.seen ++ [(t, .item x)])
      ∨ (e = none
        ∧ (({ r with queue := q } : Relay α ι).received once t e).reader t = .finished
        ∧ (({ r with queue := q } : Relay α ι).received once t e).seen
          = r.seen ++ [(t, .ended)]) := by
  cases e with
  | none => exact Or.inr ⟨rfl, Function.update_self .., rfl⟩
  | some x =>
      refine Or.inl ⟨x, rfl, ⟨fun u hu => ?_, hs.unowed, ?_⟩, rfl, rfl⟩
      · refine hs.alone u ((update_inGet ?_ u).mp hu).2
        split <;> exact Reader.noConfusion
      · show Function.update r.reader t (if once t then .finished else .idle) t ≠ .finished
        rw [Function.update_self, honce, if_neg Bool.false_ne_true]
        exact Reader.noConfusion

/-- A sole iterator that comes to its end saw what was ahead of the first
marker, of those queued and those put meanwhile. By induction on the
run. -/
theorem sole_ends (honce : once t = false) (hr : r.Sound) (hs : Sole t r)
    (has : ∀ a ∈ as, a.feeds t = true) (h : exec (step once) r as = some r')
    (hend : r'.reader t = .finished) :
    none ∈ r.queue.items ++ as.filterMap Action.entry?
      ∧ r'.seen = r.seen
        ++ (due false (ahead (r.queue.items ++ as.filterMap Action.entry?))).map
          (Prod.mk t) := by
  induction as generalizing r with
  | nil =>
      cases h
      exact absurd hend hs.reading
  | cons a as ih =>
      obtain ⟨m, ha, hrun⟩ := Transition.exec_cons_cases h
      have hrest : ∀ b ∈ as, b.feeds t = true := fun b hb =>
        has b (List.mem_cons_of_mem _ hb)
      have hfeeds : a.feeds t = true := has a List.mem_cons_self
      have hm := sound_step hr ha
      by_cases hread : a.reads t = true
      · have hentry : a.entry? = none := by
          cases a with
          | put e => cases hread
          | _ => rfl
        rw [List.filterMap_cons_none hentry]
        rcases read_cases hs hr hread ha with
          ⟨e, rest, q, hi, hqi, hq, rfl⟩ | ⟨hi, hmi, hseen, hs'⟩
        · rw [hi, List.cons_append]
          rcases received_sole honce e q hs with
            ⟨x, rfl, hs', hqueue, hseen⟩ | ⟨rfl, hfin, hseen⟩
          · obtain ⟨hmem, hsaw⟩ := ih hm hs' hrest hrun
            rw [hqueue, hqi] at hmem hsaw
            refine ⟨List.mem_cons_of_mem _ hmem, ?_⟩
            rw [hsaw, hseen, ahead_some_cons, due_iterator, List.map_cons,
              List.append_assoc]
            rfl
          · refine ⟨List.mem_cons_self, ?_⟩
            rw [(finished_exec hfin hrest hrun).2, hseen, ahead_none_cons, due_nil]
            rfl
        · have hrec := ih hm hs' hrest hrun
          rw [hmi, hseen] at hrec
          rw [hi]
          exact hrec
      · cases a with
        | put e =>
            cases ha
            have hrec := ih hm (sole_put hs e) hrest hrun
            rw [put_items hr.full, List.append_assoc] at hrec
            exact hrec
        | get u => exact absurd hfeeds hread
        | resume u => exact absurd hfeeds hread
        | cancel u => cases hfeeds
        | absorb u => cases hfeeds

end Relay

end Asyncio
