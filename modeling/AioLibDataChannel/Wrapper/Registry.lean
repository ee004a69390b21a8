/-
A class of `_core` wrappers and the registry it keeps: `PeerConnection`
with `_pcs`, `DataChannel` with `_dcs`. The two differ in the kinds of
callback they store, which is the parameter `κ`; callables are `β`.

A wrapper is an object, known here by its number in the order of
construction; the registry maps handles to objects. So what the registry
holds is a statement about objects: it maps a handle to an object just
when that object has the handle and is not destroyed (`Exact.live`).
`destroy` is one step up to the native delete it calls last, where it
lets go of the GIL.
-/
import AioLibDataChannel.Wrapper.Core
import Mathlib.Data.List.Nodup

namespace AioLibDataChannel

open Function (update)

/-- The slots of a wrapper: `_handle`, `_callbacks`, `_destroyed`. -/
structure Wrapper (κ β : Type) where
  handle : Int
  callbacks : κ → Option β
  destroyed : Bool

/-- The wrappers constructed so far, the registry, and the handles the
native delete was called with, oldest first. -/
structure Registry (κ β : Type) where
  wrappers : List (Wrapper κ β)
  live : List (Int × Nat)
  deleted : List Int

/-- `d[h] = n` on a dict. -/
def dictSet (h : Int) (n : Nat) (d : List (Int × Nat)) : List (Int × Nat) :=
  if h ∈ d.map Prod.fst then d.map fun e => if e.1 = h then (h, n) else e
  else d ++ [(h, n)]

/-- `d.pop(h, None)`. -/
def dictPop (h : Int) (d : List (Int × Nat)) : List (Int × Nat) :=
  d.filter fun e => decide (e.1 ≠ h)

/-- `d.get(h)`. -/
def dictGet (h : Int) (d : List (Int × Nat)) : Option Nat :=
  (d.find? fun e => decide (e.1 = h)).map Prod.snd

namespace Registry

variable {κ β : Type}

/-- No wrapper yet. -/
def empty : Registry κ β where
  wrappers := []
  live := []
  deleted := []

/-- `__init__`. -/
def create (handle : Int) (r : Registry κ β) : Registry κ β :=
  { r with
    wrappers := r.wrappers
      ++ [{ handle := handle, callbacks := fun _ => none, destroyed := false }]
    live := dictSet handle r.wrappers.length r.live }

/-- `self._callbacks[kind] = callback` of a `set_on_*`. -/
def setOn [DecidableEq κ] (n : Nat) (kind : κ) (callback : β) (r : Registry κ β) :
    Registry κ β :=
  match r.wrappers[n]? with
  | none => r
  | some o =>
      { r with
        wrappers := r.wrappers.set n
          { o with callbacks := update o.callbacks kind (some callback) } }

/-- `destroy`. -/
def destroy (n : Nat) (r : Registry κ β) : Registry κ β :=
  match r.wrappers[n]? with
  | none => r
  | some o =>
      if o.destroyed then r
      else
        { wrappers := r.wrappers.set n
            { o with destroyed := true, callbacks := fun _ => none }
          live := dictPop o.handle r.live
          deleted := r.deleted ++ [o.handle] }

/-- `_lookup_pc`, `_lookup_dc`. -/
def lookup (handle : Int) (r : Registry κ β) : Option (Wrapper κ β) :=
  (dictGet handle r.live).bind fun n => r.wrappers[n]?

/-- The keys of the registry. -/
def keys (r : Registry κ β) : List Int := r.live.map Prod.fst

/-- The handles of the wrappers constructed so far. -/
def handles (r : Registry κ β) : List Int := r.wrappers.map (·.handle)

-- ============================================================= the dict

/-- Setting an entry sets its key. -/
theorem map_fst_dictSet (h : Int) (n : Nat) (d : List (Int × Nat)) :
    (dictSet h n d).map Prod.fst = insertKey h (d.map Prod.fst) := by
  unfold dictSet insertKey
  split
  next =>
    rw [List.map_map]
    refine List.map_congr_left fun e _ => ?_
    show (if e.1 = h then (h, n) else e).1 = e.1
    split
    next he => exact he.symm
    next => rfl
  next => rw [List.map_append, List.map_singleton]

/-- Popping an entry pops its key. -/
theorem map_fst_dictPop (h : Int) (d : List (Int × Nat)) :
    (dictPop h d).map Prod.fst = popKey h (d.map Prod.fst) := by
  unfold dictPop popKey
  rw [List.filter_map]
  rfl

/-- An entry under a new key goes to the end. -/
theorem dictSet_of_fresh {h : Int} {n : Nat} {d : List (Int × Nat)}
    (hfresh : h ∉ d.map Prod.fst) : dictSet h n d = d ++ [(h, n)] := by
  rw [dictSet, if_neg hfresh]

/-- What is left are the entries under other keys. -/
theorem mem_dictPop {h : Int} {d : List (Int × Nat)} {e : Int × Nat} :
    e ∈ dictPop h d ↔ e ∈ d ∧ e.1 ≠ h := by
  rw [dictPop, List.mem_filter, decide_eq_true_eq]

/-- What a dict with distinct keys answers. -/
theorem dictGet_eq_some {h : Int} {n : Nat} {d : List (Int × Nat)}
    (hd : (d.map Prod.fst).Nodup) : dictGet h d = some n ↔ (h, n) ∈ d := by
  induction d with
  | nil =>
      constructor
      · intro hn
        cases hn
      · intro hn
        cases hn
  | cons e d ih =>
      obtain ⟨k, m⟩ := e
      rw [List.map_cons, List.nodup_cons] at hd
      unfold dictGet
      rw [List.find?_cons]
      by_cases hk : k = h
      · subst hk
        simp only [decide_true, Option.map_some, Option.some.injEq, List.mem_cons,
          Prod.mk.injEq, true_and]
        refine ⟨fun hm => Or.inl hm.symm, fun hm => ?_⟩
        rcases hm with hm | hm
        · exact hm.symm
        · exact absurd (List.mem_map_of_mem (f := Prod.fst) hm) hd.1
      · simp only [hk, decide_false, List.mem_cons, Prod.mk.injEq]
        refine (ih hd.2).trans ⟨Or.inr, fun hm => hm.resolve_left fun heq => ?_⟩
        exact hk heq.1.symm

/-- A key that is not found is not there. -/
theorem not_mem_keys_of_get {r : Registry κ β} {h : Int}
    (hget : dictGet h r.live = none) : h ∉ r.keys := by
  intro hk
  obtain ⟨e, he, rfl⟩ := List.mem_map.mp hk
  rw [dictGet, Option.map_eq_none_iff, List.find?_eq_none] at hget
  exact hget e he (decide_eq_true rfl)

-- ============================================================ the account

/-- The registry is exact: handles are distinct, it maps a handle to the
wrapper that has it and is not destroyed, and the native delete was
called once for each wrapper that is. -/
structure Exact (r : Registry κ β) : Prop where
  distinct : r.handles.Nodup
  live : ∀ h n, (h, n) ∈ r.live
    ↔ ∃ o, r.wrappers[n]? = some o ∧ o.handle = h ∧ o.destroyed = false
  keys : r.keys.Nodup
  deleted : ∀ h, h ∈ r.deleted ↔ ∃ o ∈ r.wrappers, o.handle = h ∧ o.destroyed = true
  once : r.deleted.Nodup

variable {r : Registry κ β} {h : Int} {n : Nat} {o : Wrapper κ β}

/-- An empty registry is exact. -/
theorem exact_empty : (empty : Registry κ β).Exact := by
  refine ⟨List.nodup_nil, fun h n => ⟨?_, ?_⟩, List.nodup_nil, fun h => ⟨?_, ?_⟩,
    List.nodup_nil⟩
  · intro hm
    cases hm
  · rintro ⟨o, ho, -⟩
    cases ho
  · intro hm
    cases hm
  · rintro ⟨o, ho, -⟩
    cases ho

/-- One handle, one wrapper. -/
theorem Exact.unique (hr : r.Exact) {n m : Nat} {o p : Wrapper κ β}
    (ho : r.wrappers[n]? = some o) (hp : r.wrappers[m]? = some p)
    (hh : o.handle = p.handle) : n = m := by
  have hn : n < r.handles.length := by
    rw [handles, List.length_map]
    exact (List.getElem?_eq_some_iff.mp ho).1
  refine (List.getElem?_inj hn hr.distinct).mp ?_
  rw [handles, List.getElem?_map, List.getElem?_map, ho, hp]
  exact congrArg some hh

/-- Every key is the handle of a wrapper that was made. -/
theorem Exact.mem_handles_of_key (hr : r.Exact) (hk : h ∈ r.keys) : h ∈ r.handles := by
  obtain ⟨⟨k, n⟩, hm, rfl⟩ := List.mem_map.mp hk
  obtain ⟨o, ho, rfl, -⟩ := (hr.live k n).mp hm
  exact List.mem_map_of_mem (List.mem_of_getElem? ho)

/-- The lookup of a handle: the wrapper that has it, unless destroyed. -/
theorem Exact.lookup_eq_some (hr : r.Exact) :
    r.lookup h = some o ↔ o ∈ r.wrappers ∧ o.handle = h ∧ o.destroyed = false := by
  unfold lookup
  rw [Option.bind_eq_some_iff]
  constructor
  · rintro ⟨n, hn, ho⟩
    obtain ⟨p, hp, hh, hd⟩ := (hr.live h n).mp ((dictGet_eq_some hr.keys).mp hn)
    obtain rfl : p = o := Option.some.inj (hp.symm.trans ho)
    exact ⟨List.mem_of_getElem? ho, hh, hd⟩
  · rintro ⟨hmem, hh, hd⟩
    obtain ⟨n, ho⟩ := List.mem_iff_getElem?.mp hmem
    exact ⟨n, (dictGet_eq_some hr.keys).mpr ((hr.live h n).mpr ⟨o, ho, hh, hd⟩), ho⟩

/-- A destroyed wrapper is not found. -/
theorem Exact.lookup_of_destroyed (hr : r.Exact) (ho : o ∈ r.wrappers)
    (hh : o.handle = h) (hd : o.destroyed = true) : r.lookup h = none := by
  cases hl : r.lookup h with
  | none => rfl
  | some p =>
      obtain ⟨hp, hph, hlive⟩ := hr.lookup_eq_some.mp hl
      obtain ⟨n, hn⟩ := List.mem_iff_getElem?.mp ho
      obtain ⟨m, hm⟩ := List.mem_iff_getElem?.mp hp
      obtain rfl : n = m := hr.unique hn hm (hh.trans hph.symm)
      rw [Option.some.inj (hm.symm.trans hn), hd] at hlive
      cases hlive

/-- A wrapper is registered exactly while it is not destroyed. -/
theorem Exact.mem_keys_iff (hr : r.Exact) (ho : o ∈ r.wrappers) :
    o.handle ∈ r.keys ↔ o.destroyed = false := by
  obtain ⟨n, hn⟩ := List.mem_iff_getElem?.mp ho
  constructor
  · intro hk
    obtain ⟨⟨k, m⟩, hm, hkey⟩ := List.mem_map.mp hk
    obtain ⟨p, hp, hh, hd⟩ := (hr.live k m).mp hm
    obtain rfl : m = n := hr.unique hp hn (hh.trans hkey)
    rwa [Option.some.inj (hp.symm.trans hn)] at hd
  · intro hd
    exact List.mem_map_of_mem (f := Prod.fst) ((hr.live _ n).mpr ⟨o, hn, rfl, hd⟩)

/-- What was deleted was the handle of a wrapper. -/
theorem Exact.mem_handles_of_deleted (hr : r.Exact) (hd : h ∈ r.deleted) :
    h ∈ r.handles := by
  obtain ⟨o, ho, rfl, -⟩ := (hr.deleted h).mp hd
  exact List.mem_map_of_mem ho

/-- With an empty registry, each handle was deleted once. -/
theorem Exact.count_deleted (hr : r.Exact) (hl : r.live = []) (hh : h ∈ r.handles) :
    r.deleted.count h = 1 := by
  obtain ⟨o, ho, rfl⟩ := List.mem_map.mp hh
  refine List.count_eq_one_of_mem hr.once ((hr.deleted _).mpr ⟨o, ho, rfl, ?_⟩)
  cases hd : o.destroyed with
  | true => rfl
  | false =>
      obtain ⟨n, hn⟩ := List.mem_iff_getElem?.mp ho
      have hmem : (o.handle, n) ∈ r.live := (hr.live _ n).mpr ⟨o, hn, rfl, hd⟩
      rw [hl] at hmem
      cases hmem

-- ================================================================ create

/-- A new wrapper brings its handle. -/
theorem handles_create (h : Int) (r : Registry κ β) :
    (r.create h).handles = r.handles ++ [h] :=
  List.map_append ..

/-- Under a new handle a registry stays exact. -/
theorem exact_create (hr : r.Exact) (hfresh : h ∉ r.handles) : (r.create h).Exact := by
  have hkey : h ∉ r.live.map Prod.fst := fun hk => hfresh (hr.mem_handles_of_key hk)
  have hlive : (r.create h).live = r.live ++ [(h, r.wrappers.length)] :=
    dictSet_of_fresh hkey
  constructor
  · show ((r.create h).wrappers.map (·.handle)).Nodup
    rw [create, List.map_append]
    exact hr.distinct.append (List.nodup_singleton _)
      (List.disjoint_singleton.mpr hfresh)
  · intro k m
    rw [hlive, List.mem_append, List.mem_singleton, hr.live]
    show _ ↔ ∃ o, (r.wrappers ++ [_])[m]? = some o ∧ _
    constructor
    · rintro (⟨o, ho, hrest⟩ | heq)
      · have hm : m < r.wrappers.length := (List.getElem?_eq_some_iff.mp ho).1
        exact ⟨o, (List.getElem?_append_left hm).trans ho, hrest⟩
      · cases heq
        exact ⟨_, List.getElem?_concat_length, rfl, rfl⟩
    · rintro ⟨o, ho, hrest⟩
      rcases Nat.lt_trichotomy m r.wrappers.length with hm | hm | hm
      · rw [List.getElem?_append_left hm] at ho
        exact Or.inl ⟨o, ho, hrest⟩
      · subst hm
        rw [List.getElem?_concat_length] at ho
        cases ho
        exact Or.inr (Prod.ext hrest.1.symm rfl)
      · rw [List.getElem?_eq_none (by simpa using Nat.succ_le_of_lt hm)] at ho
        cases ho
  · show (dictSet h r.wrappers.length r.live).map Prod.fst |>.Nodup
    rw [dictSet_of_fresh hkey, List.map_append]
    exact List.Nodup.append hr.keys (List.nodup_singleton _)
      (List.disjoint_singleton.mpr hkey)
  · intro k
    refine (hr.deleted k).trans ?_
    show _ ↔ ∃ o ∈ r.wrappers ++ [_], _
    constructor
    · rintro ⟨o, ho, hrest⟩
      exact ⟨o, List.mem_append_left _ ho, hrest⟩
    · rintro ⟨o, ho, hh, hd⟩
      rcases List.mem_append.mp ho with ho | ho
      · exact ⟨o, ho, hh, hd⟩
      · rw [List.mem_singleton.mp ho] at hd
        cases hd
  · exact hr.once

-- ==================================================== set_on_* and destroy

/-- Handle and flag: what the registry's account is about. -/
def Wrapper.status (o : Wrapper κ β) : Int × Bool := (o.handle, o.destroyed)

/-- A wrapper is known by its handle and whether it is destroyed. -/
theorem exists_status {n : Nat} {d : Bool} :
    (∃ o, r.wrappers[n]? = some o ∧ o.handle = h ∧ o.destroyed = d)
      ↔ (r.wrappers.map Wrapper.status)[n]? = some (h, d) := by
  rw [List.getElem?_map, Option.map_eq_some_iff]
  refine exists_congr fun o => and_congr_right fun _ => ?_
  exact (Prod.mk.injEq ..).symm ▸ Iff.rfl

/-- A wrapper of the list is known by its handle and whether it is
destroyed. -/
theorem exists_mem_status {d : Bool} :
    (∃ o ∈ r.wrappers, o.handle = h ∧ o.destroyed = d)
      ↔ (h, d) ∈ r.wrappers.map Wrapper.status := by
  rw [List.mem_map]
  refine exists_congr fun o => and_congr_right fun _ => ?_
  exact (Prod.mk.injEq ..).symm ▸ Iff.rfl

/-- The handles are part of the status. -/
theorem handles_of_status {r' : Registry κ β}
    (hs : r'.wrappers.map Wrapper.status = r.wrappers.map Wrapper.status) :
    r'.handles = r.handles := by
  have hfst := congrArg (List.map Prod.fst) hs
  rwa [List.map_map, List.map_map] at hfst

/-- Changing what the wrappers store leaves the account alone. -/
theorem Exact.of_status {r' : Registry κ β} (hr : r.Exact)
    (hs : r'.wrappers.map Wrapper.status = r.wrappers.map Wrapper.status)
    (hl : r'.live = r.live) (hd : r'.deleted = r.deleted) : r'.Exact := by
  have hh : r'.handles = r.handles := handles_of_status hs
  constructor
  · rw [hh]
    exact hr.distinct
  · intro k n
    rw [hl, hr.live, exists_status, exists_status, hs]
  · show (r'.live.map Prod.fst).Nodup
    rw [hl]
    exact hr.keys
  · intro k
    rw [hd, hr.deleted, exists_mem_status, exists_mem_status, hs]
  · rw [hd]
    exact hr.once

/-- Overwriting an entry with one that looks the same. -/
theorem map_set_of_eq {α γ : Type} {f : α → γ} {l : List α} {n : Nat} {x y : α}
    (hx : l[n]? = some x) (hf : f y = f x) : (l.set n y).map f = l.map f := by
  obtain ⟨hn, rfl⟩ := List.getElem?_eq_some_iff.mp hx
  have hn' : n < (l.map f).length := by rwa [List.length_map]
  calc (l.set n y).map f = (l.map f).set n (l.map f)[n] := by
        rw [List.map_set, hf, List.getElem_map]
    _ = l.map f := List.set_getElem_self hn'

/-- A callback that is set changes no status and no registration. -/
theorem setOn_spec [DecidableEq κ] (n : Nat) (kind : κ) (callback : β)
    (r : Registry κ β) :
    (r.setOn n kind callback).wrappers.map Wrapper.status
        = r.wrappers.map Wrapper.status
      ∧ (r.setOn n kind callback).live = r.live
      ∧ (r.setOn n kind callback).deleted = r.deleted := by
  unfold setOn
  split
  next => exact ⟨rfl, rfl, rfl⟩
  next o ho => exact ⟨map_set_of_eq ho rfl, rfl, rfl⟩

/-- A registry stays exact when a callback is set. -/
theorem exact_setOn [DecidableEq κ] (hr : r.Exact) (n : Nat) (kind : κ) (callback : β) :
    (r.setOn n kind callback).Exact := by
  obtain ⟨hs, hl, hd⟩ := setOn_spec n kind callback r
  exact hr.of_status hs hl hd

/-- A callback that is set changes no handle. -/
theorem handles_setOn [DecidableEq κ] (n : Nat) (kind : κ) (callback : β)
    (r : Registry κ β) : (r.setOn n kind callback).handles = r.handles :=
  handles_of_status (setOn_spec n kind callback r).1

/-- `destroy` of a wrapper that is not destroyed. -/
theorem destroy_of_live (ho : r.wrappers[n]? = some o) (hd : o.destroyed = false) :
    r.destroy n
      = { wrappers := r.wrappers.set n
            { o with destroyed := true, callbacks := fun _ => none }
          live := dictPop o.handle r.live
          deleted := r.deleted ++ [o.handle] } := by
  unfold destroy
  simp only [ho, hd, Bool.false_eq_true, if_false]

/-- Every other `destroy` is none. -/
theorem destroy_eq_self (hd : ∀ o, r.wrappers[n]? = some o → o.destroyed = true) :
    r.destroy n = r := by
  unfold destroy
  split
  next => rfl
  next o ho => rw [if_pos (hd o ho)]

/-- The two ways a `destroy` goes. -/
theorem destroy_cases (n : Nat) (r : Registry κ β) :
    r.destroy n = r
      ∨ ∃ o, r.wrappers[n]? = some o ∧ o.destroyed = false := by
  by_cases hd : ∀ o, r.wrappers[n]? = some o → o.destroyed = true
  · exact Or.inl (destroy_eq_self hd)
  · right
    obtain ⟨o, ho⟩ := not_forall.mp hd
    obtain ⟨ho, hd⟩ := Classical.not_imp.mp ho
    exact ⟨o, ho, (Bool.not_eq_true _).mp hd⟩

/-- A destroy changes no handle. -/
theorem handles_destroy (n : Nat) (r : Registry κ β) :
    (r.destroy n).handles = r.handles := by
  rcases destroy_cases n r with heq | ⟨o, ho, hd⟩
  · rw [heq]
  · rw [destroy_of_live ho hd]
    exact map_set_of_eq (f := Wrapper.handle) ho rfl

/-- A registry stays exact when a wrapper is destroyed. -/
theorem exact_destroy (hr : r.Exact) (n : Nat) : (r.destroy n).Exact := by
  rcases destroy_cases n r with heq | ⟨o, ho, hd⟩
  · rw [heq]
    exact hr
  · have hlt : n < r.wrappers.length := (List.getElem?_eq_some_iff.mp ho).1
    have hother : ∀ {m p}, m ≠ n → r.wrappers[m]? = some p → p.handle ≠ o.handle :=
      fun hm hp hh => hm (hr.unique hp ho hh)
    have hnew : o.handle ∉ r.deleted := by
      intro hmem
      obtain ⟨p, hp, hh, hpd⟩ := (hr.deleted _).mp hmem
      obtain ⟨m, hm⟩ := List.mem_iff_getElem?.mp hp
      obtain rfl : m = n := hr.unique hm ho hh
      rw [Option.some.inj (hm.symm.trans ho), hd] at hpd
      cases hpd
    have hhandles := handles_destroy n r
    rw [destroy_of_live ho hd] at hhandles ⊢
    constructor
    · rw [hhandles]
      exact hr.distinct
    · -- the wrapper leaves under its own handle, which no other has
      intro k m
      rw [mem_dictPop, hr.live]
      show _ ↔ ∃ p, (r.wrappers.set n _)[m]? = some p ∧ _
      by_cases hm : m = n
      · subst hm
        rw [List.getElem?_set_self hlt]
        constructor
        · rintro ⟨⟨p, hp, rfl, -⟩, hk⟩
          rw [Option.some.inj (hp.symm.trans ho)] at hk
          exact absurd rfl hk
        · rintro ⟨p, hp, -, hpd⟩
          rw [← Option.some.inj hp] at hpd
          cases hpd
      · rw [List.getElem?_set_ne (Ne.symm hm)]
        constructor
        · rintro ⟨hex, -⟩
          exact hex
        · rintro ⟨p, hp, rfl, hpd⟩
          exact ⟨⟨p, hp, rfl, hpd⟩, hother hm hp⟩
    · show ((dictPop o.handle r.live).map Prod.fst).Nodup
      rw [map_fst_dictPop]
      exact hr.keys.filter _
    · intro k
      rw [List.mem_append, List.mem_singleton, hr.deleted]
      constructor
      · rintro (⟨p, hp, hh, hpd⟩ | rfl)
        · obtain ⟨m, hm⟩ := List.mem_iff_getElem?.mp hp
          have hmn : n ≠ m := by
            rintro rfl
            rw [Option.some.inj (hm.symm.trans ho), hd] at hpd
            cases hpd
          refine ⟨p, List.mem_iff_getElem?.mpr ⟨m, ?_⟩, hh, hpd⟩
          rw [List.getElem?_set_ne hmn]
          exact hm
        · exact ⟨_, List.mem_set hlt _, rfl, rfl⟩
      · rintro ⟨p, hp, hh, hpd⟩
        rcases List.mem_or_eq_of_mem_set hp with hp | rfl
        · exact Or.inl ⟨p, hp, hh, hpd⟩
        · exact Or.inr hh.symm
    · exact hr.once.append (List.nodup_singleton _) (List.disjoint_singleton.mpr hnew)

/-- `destroy` takes entries out of the registry and puts none in. -/
theorem live_destroy (n : Nat) (r : Registry κ β) :
    ∀ e ∈ (r.destroy n).live, e ∈ r.live := by
  intro e he
  rcases destroy_cases n r with heq | ⟨o, ho, hd⟩
  · rwa [heq] at he
  · rw [destroy_of_live ho hd] at he
    exact (mem_dictPop.mp he).1

/-- The handle of a destroyed wrapper is no key. -/
theorem not_mem_keys_destroy (hr : r.Exact) (ho : r.wrappers[n]? = some o) :
    o.handle ∉ (r.destroy n).keys := by
  intro hk
  obtain ⟨⟨k, m⟩, hm, rfl⟩ := List.mem_map.mp hk
  cases hd : o.destroyed with
  | false =>
      rw [destroy_of_live ho hd] at hm
      exact (mem_dictPop.mp hm).2 rfl
  | true =>
      obtain ⟨p, hp, hh, hpd⟩ := (hr.live _ m).mp (live_destroy n r _ hm)
      obtain rfl : m = n := hr.unique hp ho hh
      rw [Option.some.inj (hp.symm.trans ho), hd] at hpd
      cases hpd

end Registry

end AioLibDataChannel
