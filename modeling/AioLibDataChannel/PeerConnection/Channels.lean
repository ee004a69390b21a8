/-
What becomes of a connection's channels when it is closed.

Each channel handle is in one place: with a channel of the list, or
carried by a callback on its way (`Shutdown.handles`), so no channel
re-enters the registry under the handle of a destroyed one (`Owned`).
The walk of `_teardown` destroys every channel it finds. It is made once,
before the native destroy, and neither `create_data_channel` nor
`_handle_incoming_dc` looks at the closed flag.

`released_iff` is the exact condition: a channel the walk did not find
was destroyed by its own close before the teardown ends, and no incoming
channel is handled after that.

The last section ties `ChannelRef` to the machine of a channel: to the
connection, a step of that machine is nothing or `_destroy`
(`ref_apply`), and so a run of it is `_destroy` run any number of times
(`ref_reachable`).
-/
import AioLibDataChannel.DataChannel.Link
import AioLibDataChannel.PeerConnection.Shutdown
import Mathlib.Data.List.Nodup
import Mathlib.Data.List.Perm.Basic

namespace AioLibDataChannel

open Transition (exec)

-- ============================================================ one channel

namespace ChannelRef

variable {core core' : Core} {c : ChannelRef}

/-- The native side follows the wrapper, and a destroyed one is out of
the registry. -/
structure Sound (core : Core) (c : ChannelRef) : Prop where
  native : c.native.destroyed = c.destroyed
  gone : c.destroyed = true → c.native.handle ∉ core.dcs

/-- A registry that shrinks keeps a channel sound. -/
theorem Sound.mono (h : Sound core c) (hsub : ∀ k ∈ core'.dcs, k ∈ core.dcs) :
    Sound core' c where
  native := h.native
  gone := fun hd hk => h.gone hd (hsub _ hk)

/-- A new channel is sound. -/
theorem sound_create (handle : Int) (core : Core) :
    Sound (create handle core).1 (create handle core).2 where
  native := rfl
  gone := nofun

/-- A new channel has the handle it was made for. -/
@[simp] theorem create_handle (handle : Int) (core : Core) :
    (create handle core).2.native.handle = handle := rfl

/-- The registry has one handle more. -/
theorem mem_create {handle k : Int} :
    k ∈ (create handle core).1.dcs ↔ k = handle ∨ k ∈ core.dcs :=
  mem_insertKey

/-- `_destroy` of a channel that is not destroyed. -/
theorem destroy_of_live (hd : c.destroyed = false) (hn : c.native.destroyed = false) :
    c.destroy core
      = ({ core with
            dcs := popKey c.native.handle core.dcs
            deletedDcs := core.deletedDcs ++ [c.native.handle] },
          { native := { c.native with destroyed := true, callbacks := [] }
            destroyed := true }) := by
  rw [destroy, if_neg (Bool.eq_false_iff.mp hd), CoreDataChannel.destroy,
    if_neg (Bool.eq_false_iff.mp hn)]

/-- A second destroy does nothing. -/
theorem destroy_of_destroyed (hd : c.destroyed = true) : c.destroy core = (core, c) := by
  rw [destroy, if_pos hd]

/-- A destroyed channel knows it. -/
theorem destroy_destroyed (core : Core) (c : ChannelRef) :
    (c.destroy core).2.destroyed = true := by
  unfold destroy
  split
  next hd => exact hd
  next => rfl

/-- The destroy does not change the handle. -/
theorem destroy_handle (h : Sound core c) :
    (c.destroy core).2.native.handle = c.native.handle := by
  cases hd : c.destroyed with
  | true => rw [destroy_of_destroyed hd]
  | false => rw [destroy_of_live hd (h.native.trans hd)]

/-- The destroy adds nothing to the registry. -/
theorem destroy_subset (h : Sound core c) : ∀ k ∈ (c.destroy core).1.dcs, k ∈ core.dcs := by
  intro k hk
  cases hd : c.destroyed with
  | true =>
      rw [destroy_of_destroyed hd] at hk
      exact hk
  | false =>
      rw [destroy_of_live hd (h.native.trans hd)] at hk
      exact (mem_popKey.mp hk).1

/-- The destroy keeps the channel sound: its handle goes. -/
theorem sound_destroy (h : Sound core c) :
    Sound (c.destroy core).1 (c.destroy core).2 := by
  cases hd : c.destroyed with
  | true =>
      rw [destroy_of_destroyed hd]
      exact h
  | false =>
      rw [destroy_of_live hd (h.native.trans hd)]
      exact ⟨rfl, fun _ hk => (mem_popKey.mp hk).2 rfl⟩

end ChannelRef

-- =============================================================== the walk

namespace PcWorld

open ChannelRef (Sound)

/-- The walk destroys all it finds. -/
theorem destroyAll_destroyed (core : Core) (cs : List ChannelRef) :
    ∀ c ∈ (destroyAll core cs).2, c.destroyed = true := by
  induction cs generalizing core with
  | nil => exact List.forall_mem_nil _
  | cons c rest ih =>
      intro c' hc'
      rcases List.mem_cons.mp hc' with rfl | hc'
      · exact ChannelRef.destroy_destroyed core c
      · exact ih _ c' hc'

/-- The walk makes and forgets no channel. -/
theorem destroyAll_length (core : Core) (cs : List ChannelRef) :
    (destroyAll core cs).2.length = cs.length := by
  induction cs generalizing core with
  | nil => rfl
  | cons c rest ih => exact congrArg (· + 1) (ih _)

/-- What the walk does to the registry and to the handles. -/
structure WalkSpec (core : Core) (cs : List ChannelRef) : Prop where
  handles : (destroyAll core cs).2.map (·.native.handle) = cs.map (·.native.handle)
  subset : ∀ k ∈ (destroyAll core cs).1.dcs, k ∈ core.dcs
  sound : ∀ c ∈ (destroyAll core cs).2, Sound (destroyAll core cs).1 c

/-- The walk keeps the handles, shrinks the registry and leaves every
channel sound. -/
theorem walkSpec {core : Core} {cs : List ChannelRef} (h : ∀ c ∈ cs, Sound core c) :
    WalkSpec core cs := by
  induction cs generalizing core with
  | nil => exact ⟨rfl, fun _ hk => hk, List.forall_mem_nil _⟩
  | cons c rest ih =>
      have hc : Sound core c := h c List.mem_cons_self
      have hsub := ChannelRef.destroy_subset hc
      have htail : ∀ c' ∈ rest, Sound (c.destroy core).1 c' :=
        fun c' hc' => (h c' (List.mem_cons_of_mem c hc')).mono hsub
      obtain ⟨hhandles, hrest, hsound⟩ := ih htail
      refine ⟨?_, fun k hk => hsub k (hrest k hk), ?_⟩
      · exact congrArg₂ List.cons (ChannelRef.destroy_handle hc) hhandles
      · intro c' hc'
        rcases List.mem_cons.mp hc' with rfl | hc'
        · exact (ChannelRef.sound_destroy hc).mono hrest
        · exact hsound c' hc'

end PcWorld

-- ============================================================ the handles

/-- The channel handles a callback carries. -/
def PcEvent.handles : PcEvent → List Int
  | .dataChannel handle => [handle]
  | _ => []

def PcCallback.handles : PcCallback → List Int
  | .event e => e.handles
  | .destroyDone => []

/-- Once the destroy is submitted the walk is over. -/
def PcTeardown.submitted : PcTeardown → Bool
  | .destroying _ => true
  | .finished => true
  | _ => false

namespace Shutdown

open ChannelRef (Sound)

variable {s s' : Shutdown} {a : PcAction}

/-- Where the channel handles of a connection are. -/
def handles (s : Shutdown) : List Int :=
  s.channels.map (·.native.handle) ++ s.ready.flatMap PcCallback.handles
    ++ s.inFlight.flatMap PcEvent.handles

/-- No handle is in two places, every channel is sound, and the first
`walked` ones are destroyed. -/
structure Owned (s : Shutdown) : Prop where
  nodup : s.handles.Nodup
  issued : ∀ k ∈ s.handles, k ∈ s.issued
  sound : ∀ c ∈ s.channels, Sound s.core c
  walked_le : s.walked ≤ s.channels.length
  found : s.teardown.submitted = true → ∀ n c, n < s.walked →
    s.channels[n]? = some c → c.destroyed = true

/-- An incoming channel has the handle its callback brought. -/
theorem handles_incoming {handle : Int} {rest : List PcCallback}
    (hr : s.ready = .event (.dataChannel handle) :: rest) :
    ({ s with ready := rest }.addChannel handle).handles.Perm s.handles := by
  simp only [handles, addChannel, hr, List.map_append, List.map_cons, List.map_nil,
    ChannelRef.create_handle, List.flatMap_cons, PcCallback.handles, PcEvent.handles,
    List.append_assoc, List.cons_append, List.nil_append]
  exact .refl _

/-- Another callback brings none. -/
theorem handles_ran {e : PcEvent} {rest : List PcCallback}
    (hr : s.ready = .event e :: rest) (hk : ∀ handle, e ≠ .dataChannel handle) :
    ({ s with ready := rest } : Shutdown).handles = s.handles := by
  have hnone : e.handles = [] := by
    cases e with
    | dataChannel handle => exact absurd rfl (hk handle)
    | _ => rfl
  simp only [handles, hr, List.flatMap_cons, PcCallback.handles, hnone, List.nil_append]

/-- A callback takes its handle into the ready list. -/
theorem handles_scheduled {n : Nat} {e : PcEvent} (hn : s.inFlight[n]? = some e) :
    ({ s with
        inFlight := s.inFlight.eraseIdx n
        ready := s.ready ++ [.event e] } : Shutdown).handles.Perm s.handles := by
  obtain ⟨hlt, rfl⟩ := List.getElem?_eq_some_iff.mp hn
  have hperm : (s.inFlight[n] :: s.inFlight.eraseIdx n).Perm s.inFlight :=
    List.getElem_cons_eraseIdx_perm hlt
  have hflat := hperm.flatMap_right PcEvent.handles
  rw [List.flatMap_cons] at hflat
  simp only [handles, List.flatMap_append, List.flatMap_cons, List.flatMap_nil,
    PcCallback.handles, List.append_nil, List.append_assoc]
  exact ((hflat.append_left _).append_left _)

/-- A channel that is closed keeps its handle. -/
theorem handles_closesChannel {n : Nat} {c : ChannelRef} (hc : s.channels[n]? = some c)
    (h : Sound s.core c) : (s.destroyChannel n c).handles = s.handles := by
  have hmap : (s.channels.set n (c.destroy s.core).2).map (·.native.handle)
      = s.channels.map (·.native.handle) := by
    obtain ⟨hlt, rfl⟩ := List.getElem?_eq_some_iff.mp hc
    conv_rhs => rw [← List.set_getElem_self hlt, List.map_set]
    rw [List.map_set, ChannelRef.destroy_handle h]
  exact congrArg (· ++ _ ++ _) hmap

/-- A new channel is sound, and no older one re-enters the registry under
its handle. -/
theorem sound_addChannel {handle : Int} (h : ∀ c ∈ s.channels, Sound s.core c)
    (hnew : handle ∉ s.channels.map (·.native.handle)) :
    ∀ c ∈ (s.addChannel handle).channels, Sound (s.addChannel handle).core c := by
  intro c hc
  rcases List.mem_append.mp hc with hc | hc
  · refine ⟨(h c hc).native, ?_⟩
    intro hd hmem
    rcases ChannelRef.mem_create.mp hmem with heq | hmem
    · exact hnew (heq ▸ List.mem_map_of_mem hc)
    · exact (h c hc).gone hd hmem
  · rw [List.mem_singleton.mp hc]
    exact ChannelRef.sound_create handle s.core

/-- What is appended is behind what the walk has found. -/
theorem found_addChannel {handle : Int} (hle : s.walked ≤ s.channels.length)
    (h : ∀ n c, n < s.walked → s.channels[n]? = some c → c.destroyed = true) :
    ∀ n c, n < s.walked → (s.addChannel handle).channels[n]? = some c →
      c.destroyed = true := by
  intro n c hn hc
  rw [addChannel, List.getElem?_append_left (Nat.lt_of_lt_of_le hn hle)] at hc
  exact h n c hn hc

namespace Owned

/-- A channel that is added under a handle no other channel has. -/
theorem addChannel {handle : Int} (hi : Owned s)
    (hnodup : (s.addChannel handle).handles.Nodup)
    (hissued : ∀ k ∈ (s.addChannel handle).handles, k ∈ s.issued) :
    Owned (s.addChannel handle) where
  nodup := hnodup
  issued := hissued
  sound := by
    apply sound_addChannel hi.sound
    have hchannels := (List.nodup_append.mp (List.nodup_append.mp hnodup).1).1
    rw [Shutdown.addChannel, List.map_append] at hchannels
    intro hmem
    exact (List.nodup_append.mp hchannels).2.2 handle hmem handle
      List.mem_cons_self rfl
  walked_le := by
    rw [Shutdown.addChannel, List.length_append]
    exact Nat.le_add_right_of_le hi.walked_le
  found := fun ht => found_addChannel hi.walked_le (hi.found ht)

/-- The walk keeps the handles apart and destroys what it passes. -/
theorem walk (hi : Owned s) : Owned s.walk := by
  have hspec := PcWorld.walkSpec hi.sound
  have hhandles : s.walk.handles = s.handles := congrArg (· ++ _ ++ _) hspec.handles
  exact
    { nodup := by
        rw [hhandles]
        exact hi.nodup
      issued := by
        rw [hhandles]
        exact hi.issued
      sound := hspec.sound
      walked_le := Nat.le_of_eq (PcWorld.destroyAll_length s.core s.channels).symm
      found := fun _ n c _ hc =>
        PcWorld.destroyAll_destroyed s.core s.channels c (List.mem_of_getElem? hc) }

/-- A channel's own close does, too. -/
theorem closesChannel {n : Nat} {c : ChannelRef} (hi : Owned s)
    (hc : s.channels[n]? = some c) : Owned (s.destroyChannel n c) := by
  have hsound := hi.sound c (List.mem_of_getElem? hc)
  have hhandles := handles_closesChannel hc hsound
  exact
    { nodup := by
        rw [hhandles]
        exact hi.nodup
      issued := by
        rw [hhandles]
        exact hi.issued
      sound := by
        intro c' hc'
        rcases List.mem_or_eq_of_mem_set hc' with hc' | rfl
        · exact (hi.sound c' hc').mono (ChannelRef.destroy_subset hsound)
        · exact ChannelRef.sound_destroy hsound
      walked_le := by
        rw [destroyChannel, List.length_set]
        exact hi.walked_le
      found := by
        intro ht m c' hm hc'
        rw [destroyChannel, List.getElem?_set] at hc'
        split at hc'
        next =>
          split at hc'
          next => cases hc'; exact ChannelRef.destroy_destroyed s.core c
          next => cases hc'
        next => exact hi.found ht m c' hm hc' }

/-- A step that leaves the channels alone. -/
theorem congr (hi : Owned s) (hhandles : s'.handles.Subperm s.handles)
    (hissued : s'.issued = s.issued) (hchannels : s'.channels = s.channels)
    (hdcs : s'.core.dcs = s.core.dcs) (hwalked : s'.walked = s.walked)
    (ht : s'.teardown.submitted = true → s.teardown.submitted = true) : Owned s' where
  nodup := by
    obtain ⟨l, hperm, hsub⟩ := hhandles
    exact hperm.nodup_iff.mp (hi.nodup.sublist hsub)
  issued := by
    intro k hk
    rw [hissued]
    exact hi.issued k (hhandles.subset hk)
  sound := by
    intro c hc
    rw [hchannels] at hc
    exact (hi.sound c hc).mono fun k hk => hdcs ▸ hk
  walked_le := by
    rw [hwalked, hchannels]
    exact hi.walked_le
  found := by
    intro hs
    rw [hwalked, hchannels]
    exact hi.found (ht hs)

/-- Fresh handles do not meet the ones there are. -/
theorem nodup_append (hi : Owned s) {new : List Int} (hn : new.Nodup)
    (hnew : ∀ k ∈ new, k ∉ s.issued) : (s.handles ++ new).Nodup := by
  refine List.nodup_append.mpr ⟨hi.nodup, hn, ?_⟩
  intro k hk k' hk' heq
  exact hnew k' hk' (heq ▸ hi.issued k hk)

/-- A handle the native layer hands out is a new one. -/
theorem fired {e : PcEvent} (hi : Owned s) (hfresh : e.fresh s.issued = true) :
    Owned { s with
      issued := e.issue s.issued
      inFlight := if s.native.dispatches s.core e.kind
        then s.inFlight ++ [e] else s.inFlight } := by
  have hissue : ∀ k, k ∈ e.issue s.issued ↔ k ∈ s.issued ∨ k ∈ e.handles := by
    intro k
    cases e with
    | dataChannel handle => exact List.mem_append
    | _ => exact ⟨Or.inl, fun hk => hk.resolve_right List.not_mem_nil⟩
  split
  next =>
    have hhandles : ({ s with
        issued := e.issue s.issued, inFlight := s.inFlight ++ [e] } : Shutdown).handles
        = s.handles ++ e.handles := by
      simp only [handles, List.flatMap_append, List.flatMap_singleton, List.append_assoc]
    refine ⟨?_, ?_, hi.sound, hi.walked_le, hi.found⟩
    · rw [hhandles]
      apply hi.nodup_append
      · cases e with
        | dataChannel handle => exact List.nodup_singleton handle
        | _ => exact List.nodup_nil
      · cases e with
        | dataChannel handle =>
            intro k hk
            rw [List.mem_singleton.mp hk]
            exact of_decide_eq_true hfresh
        | _ => exact List.forall_mem_nil _
    · intro k hk
      rw [hhandles] at hk
      rw [hissue]
      rcases List.mem_append.mp hk with hk | hk
      · exact Or.inl (hi.issued k hk)
      · exact Or.inr hk
  next =>
    refine ⟨hi.nodup, ?_, hi.sound, hi.walked_le, hi.found⟩
    exact fun k hk => (hissue k).mpr (Or.inl (hi.issued k hk))

/-- An incoming channel joins the others. -/
theorem incoming {handle : Int} {rest : List PcCallback} (hi : Owned s)
    (hr : s.ready = .event (.dataChannel handle) :: rest) :
    Owned ({ s with ready := rest }.addChannel handle) := by
  have hperm := handles_incoming hr
  have htail : Owned { s with ready := rest } := by
    refine hi.congr ?_ rfl rfl rfl rfl id
    refine (List.Sublist.append_right (List.Sublist.append_left ?_ _) _).subperm
    rw [hr, List.flatMap_cons]
    exact List.sublist_append_right _ _
  exact htail.addChannel (hperm.nodup_iff.mpr hi.nodup)
    fun k hk => hi.issued k (hperm.mem_iff.mp hk)

/-- A channel that is created joins the others. -/
theorem creates {handle : Int} (hi : Owned s) (hnew : handle ∉ s.issued) :
    Owned ({ s with issued := s.issued ++ [handle] }.addChannel handle) := by
  have hperm : ({ s with issued := s.issued ++ [handle] }.addChannel handle).handles.Perm
      (s.handles ++ [handle]) := by
    simp only [handles, Shutdown.addChannel, List.map_append, List.map_cons, List.map_nil,
      ChannelRef.create_handle, List.append_assoc]
    exact List.Perm.append_left _ (List.perm_append_comm.trans
      (by rw [List.append_assoc]))
  have hmore : Owned { s with issued := s.issued ++ [handle] } :=
    ⟨hi.nodup, fun k hk => List.mem_append_left _ (hi.issued k hk), hi.sound,
      hi.walked_le, hi.found⟩
  refine hmore.addChannel ?_ ?_
  · refine hperm.nodup_iff.mpr (hi.nodup_append (List.nodup_singleton handle) ?_)
    intro k hk
    rw [List.mem_singleton.mp hk]
    exact hnew
  · intro k hk
    rcases List.mem_append.mp (hperm.mem_iff.mp hk) with hk | hk
    · exact List.mem_append_left _ (hi.issued k hk)
    · exact List.mem_append_right _ hk

/-- Every step of the shutdown keeps the handles apart. -/
theorem step (hi : Owned s) (ho : Orderly s) (h : ShutdownStep s a s') : Owned s' := by
  cases h with
  | same _ _ _ => exact hi
  | fired e hfresh => exact hi.fired hfresh
  | scheduled n e hn =>
      exact hi.congr (handles_scheduled hn).subperm rfl rfl rfl rfl id
  | begun ht => exact hi.congr (.refl _) rfl rfl rfl rfl (fun _ => by rw [ht]; rfl)
  | deleted ht =>
      refine hi.congr ?_ rfl rfl rfl rfl (fun _ => by rw [ht]; rfl)
      simp only [handles, List.flatMap_append, List.flatMap_singleton,
        PcCallback.handles, List.append_nil]
      exact .refl _
  | ran e rest hr hk =>
      refine hi.congr ?_ rfl rfl rfl rfl id
      rw [handles_ran hr hk]
  | incoming handle rest hr => exact hi.incoming hr
  | told rest hr =>
      have ht := (ho.of_told hr).1
      refine hi.congr ?_ rfl rfl rfl rfl (fun _ => by rw [ht]; rfl)
      simp only [handles, hr, List.flatMap_cons, PcCallback.handles, List.nil_append]
      exact .refl _
  | closes _ _ _ => exact hi.congr (.refl _) rfl rfl rfl rfl nofun
  | gathers _ _ => exact hi.congr (.refl _) rfl rfl rfl rfl nofun
  | walks _ _ _ => exact hi.walk
  | ends ht => exact hi.congr (.refl _) rfl rfl rfl rfl (fun _ => by rw [ht]; rfl)
  | creates t handle _ hnew => exact hi.creates hnew
  | closesChannel n c hc => exact hi.closesChannel hc

end Owned

-- ======================================================= what is released

/-- Once the closed event is set, every channel is destroyed and out of
the registry. -/
def Released (s : Shutdown) : Prop :=
  s.closedFlag = true → ∀ c ∈ s.channels,
    c.destroyed = true ∧ c.native.handle ∉ s.core.dcs

/-- The teardown ends when the channels its walk did not find are
destroyed, and no incoming channel is handled after it. -/
structure ReleasesAll (a : PcAction) (s : Shutdown) : Prop where
  late : a = .loop .endTeardown → ∀ n c, s.walked ≤ n →
    s.channels[n]? = some c → c.destroyed = true
  after : a = .loop .dispatch → s.closedFlag = true → ∀ handle rest,
    s.ready ≠ .event (.dataChannel handle) :: rest

/-- For sound channels it is enough that they are destroyed. -/
theorem released_of_destroyed (hi : Owned s)
    (h : s.closedFlag = true → ∀ c ∈ s.channels, c.destroyed = true) : s.Released :=
  fun hflag c hc => ⟨h hflag c hc, (hi.sound c hc).gone (h hflag c hc)⟩

/-- What is released afterwards was released by the step. -/
theorem releasesAll_of_released (h : ShutdownStep s a s') (hr : s'.Released) :
    ReleasesAll a s := by
  constructor
  · intro heq n c _ hc
    subst heq
    cases h with
    | same _ _ he => exact absurd rfl he
    | closes _ ha _ => rcases ha with ha | ⟨t, ha⟩ <;> cases ha
    | walks _ ha _ => rcases ha with ha | ha <;> cases ha
    | ends _ => exact (hr rfl c (List.mem_of_getElem? hc)).1
  · intro heq' hflag handle rest heq
    subst heq'
    cases h with
    | same _ hd _ => exact absurd rfl hd
    | closes _ ha _ => rcases ha with ha | ⟨t, ha⟩ <;> cases ha
    | walks _ ha _ => rcases ha with ha | ha <;> cases ha
    | ran e rest' hr' hk =>
        cases heq.symm.trans hr'
        exact hk handle rfl
    | incoming handle' rest' hr' =>
        have hnew := hr hflag (ChannelRef.create handle' s.core).2
          (List.mem_append_right _ List.mem_cons_self)
        exact absurd hnew.1 nofun
    | told rest' hr' => cases heq.symm.trans hr'

/-- A step that releases all leaves every channel destroyed. -/
theorem destroyed_step (hi : Owned s) (ho : Orderly s) (hr : s.Released)
    (hok : ReleasesAll a s) (h : ShutdownStep s a s') :
    s'.closedFlag = true → ∀ c ∈ s'.channels, c.destroyed = true := by
  have hold : s.closedFlag = true → ∀ c ∈ s.channels, c.destroyed = true :=
    fun hflag c hc => (hr hflag c hc).1
  cases h with
  | incoming handle rest hready =>
      intro hflag
      exact absurd hready (hok.after rfl hflag handle rest)
  | ends ht =>
      intro _ c hc
      obtain ⟨n, hn⟩ := List.getElem?_of_mem hc
      by_cases hlt : n < s.walked
      · exact hi.found (by rw [ht]; rfl) n c hlt hn
      · exact hok.late rfl n c (Nat.le_of_not_lt hlt) hn
  | creates t handle hlive _ =>
      intro hflag
      have ht : s.teardown = .finished := ho.flag.mp hflag
      exact absurd (ho.gone (by rw [ht]; rfl)) hlive
  | walks _ _ _ => exact fun _ => PcWorld.destroyAll_destroyed s.core s.channels
  | closesChannel n c _ =>
      intro hflag c' hc'
      rcases List.mem_or_eq_of_mem_set hc' with hc' | rfl
      · exact hold hflag c' hc'
      · exact ChannelRef.destroy_destroyed s.core c
  | _ => exact hold

/-- Exactly these steps keep the channels released. -/
theorem released_step_iff (hi : Owned s) (ho : Orderly s) (hr : s.Released)
    (h : ShutdownStep s a s') : s'.Released ↔ ReleasesAll a s := by
  constructor
  · exact releasesAll_of_released h
  · intro hok
    exact released_of_destroyed (hi.step ho h) (destroyed_step hi ho hr hok h)

end Shutdown

namespace PcWorld

variable {w w' : PcWorld} {a : PcAction}

/-- A new connection has no channels. -/
theorem owned_init (handle : Int) (core : Core) :
    (init handle core).shutdown.Owned where
  nodup := List.nodup_nil
  issued := List.forall_mem_nil _
  sound := List.forall_mem_nil _
  walked_le := Nat.le_refl 0
  found := nofun

/-- Along a run, a closed connection holds no channel exactly when each
step releases them all. -/
theorem released_iff (handle : Int) (core : Core) (as : List PcAction) {v : PcWorld}
    (hrun : exec apply (init handle core) as = some v) :
    (∀ w, Transition.Visits apply (init handle core) as w → w.shutdown.Released) ↔
      ∀ a w, Transition.Takes apply (init handle core) as a w →
        Shutdown.ReleasesAll a w.shutdown :=
  Transition.visits_iff_takes
    (I := fun w => w.shutdown.Owned ∧ Orderly w.shutdown) hrun nofun
    ⟨owned_init handle core, orderly_init handle core⟩
    (fun hi h => ⟨hi.1.step hi.2 (shutdown_step h), orderly_apply hi.2 h⟩)
    (fun hi hr h => Shutdown.released_step_iff hi.1 hi.2 hr (shutdown_step h))

-- ================================================================== runs

/-- `create_data_channel` is called while the destroy is queued, behind
the walk. -/
def lateCreateRun : List PcAction :=
  [.loop .close, .loop .startTeardown, .loop (.createDataChannel (.user 0) (.ok 7)),
    .native .beginDestroy, .native .endDestroy, .loop .dispatch, .loop .endTeardown]

/-- An incoming channel is fired before the destroy begins, and handled
while it runs. -/
def lateIncomingRun : List PcAction :=
  [.native (.fire (.dataChannel 7)), .native (.schedule 0), .loop .close,
    .loop .startTeardown, .native .beginDestroy, .loop .dispatch, .native .endDestroy,
    .loop .dispatch, .loop .endTeardown]

/-- After either run the closed event is set, and the channel is live and
in the registry. -/
theorem closed_leaves_channel :
    (∃ w, exec apply (init 1 ⟨[], [], [], []⟩) lateCreateRun = some w
        ∧ w.pc.closedEvent.value = true ∧ w.channels.map (·.destroyed) = [false]
        ∧ w.core.dcs = [7])
      ∧ ∃ w, exec apply (init 1 ⟨[], [], [], []⟩) lateIncomingRun = some w
          ∧ w.pc.closedEvent.value = true ∧ w.channels.map (·.destroyed) = [false]
          ∧ w.core.dcs = [7] :=
  ⟨⟨_, rfl, rfl, rfl, rfl⟩, ⟨_, rfl, rfl, rfl, rfl⟩⟩

/-- `released_iff` at `lateCreateRun`, which breaks both sides. -/
theorem released_iff_lateCreateRun :
    (∀ w, Transition.Visits apply (init 1 ⟨[], [], [], []⟩) lateCreateRun w →
        w.shutdown.Released) ↔
      ∀ a w, Transition.Takes apply (init 1 ⟨[], [], [], []⟩) lateCreateRun a w →
        Shutdown.ReleasesAll a w.shutdown :=
  released_iff 1 ⟨[], [], [], []⟩ lateCreateRun (v := _) rfl

end PcWorld

-- ================================================== the channel's own machine

namespace DcWorld

variable {w w' : DcWorld}

/-- What the connection holds of the channel. -/
def ref (w : DcWorld) : ChannelRef where
  native := w.dc.native
  destroyed := w.dc.destroyed

/-- The channel's machine starts as the connection makes it. -/
theorem ref_init (handle : Int) (recvBuffer : Nat) (native : NativeChannel)
    (fired : List DcEvent) (core : Core) :
    ((init handle recvBuffer native fired core).core,
        (init handle recvBuffer native fired core).ref)
      = ChannelRef.create handle core := rfl

/-- A channel's own destroy is the one its connection sees. -/
theorem ref_destroy (w : DcWorld) :
    (w.destroy.core, w.destroy.ref) = w.ref.destroy w.core := by
  unfold destroy ChannelRef.destroy
  split
  next hd => rw [if_pos (by exact hd)]
  next hd =>
    rw [if_neg (by exact hd)]
    show ((w.dc.destroy w.core).1, (_ : ChannelRef)) = _
    rw [DataChannel.destroy, if_neg hd]
    rfl

/-- A step of the channel is, to its connection, nothing or
`_destroy`. -/
theorem ref_apply {a : DcAction} (h : apply a w = some w') :
    (w'.core, w'.ref) = (w.core, w.ref)
    ∨ (w'.core, w'.ref) = w.ref.destroy w.core := by
  have hsame : ∀ {u v : DcWorld}, v.core = u.core → v.dc.native = u.dc.native →
      v.dc.destroyed = u.dc.destroyed → (v.core, v.ref) = (u.core, u.ref) := by
    intro u v hcore hnative hd
    rw [hcore, ref, hnative, hd]
    rfl
  cases a with
  | native a =>
      obtain ⟨hcore, hdc⟩ := applyNative_link h
      exact Or.inl (hsame hcore (congrArg _ hdc) (congrArg _ hdc))
  | sending a =>
      obtain ⟨hcore, hnative, hd, -⟩ := applySending_link h
      exact Or.inl (hsame hcore hnative hd)
  | loop a =>
      obtain ⟨-, hloop⟩ := apply_loop_cases h
      rcases applyLoop_link_cases hloop with hl | ⟨-, e, rest, -, rfl⟩ | ⟨hl, -⟩
        | ⟨n, -, -, rfl⟩
      · obtain ⟨hcore, hnative, hd⟩ := link_handle hl
        exact Or.inl (hsame hcore hnative hd)
      · obtain ⟨hcore, hnative, hd⟩ := runCallback_handle e { w with ready := rest }
        exact Or.inl (hsame hcore hnative hd)
      · obtain ⟨hcore, hnative, hd⟩ := link_handle hl
        exact Or.inr ((hsame hcore hnative hd).trans (ref_destroy w))
      · exact Or.inl rfl

/-- `_destroy` as a machine of its own. -/
def refStep (_ : Unit) (s : Core × ChannelRef) : Option (Core × ChannelRef) :=
  some (s.2.destroy s.1)

/-- Whatever runs on the channel, its connection sees it made and then
`_destroy` run any number of times. -/
theorem ref_reachable {handle : Int} {recvBuffer : Nat} {native : NativeChannel}
    {fired : List DcEvent} {core : Core}
    (h : Transition.Reachable apply (init handle recvBuffer native fired core) w) :
    Transition.Reachable refStep (ChannelRef.create handle core) (w.core, w.ref) := by
  rw [← ref_init handle recvBuffer native fired core]
  refine h.map (f := fun m : DcWorld => (m.core, m.ref)) ?_
  intro a m m' ha
  rcases ref_apply ha with hsame | hdestroy
  · rw [hsame]
    exact .init
  · rw [hdestroy]
    exact .step () .init rfl

end DcWorld

end AioLibDataChannel
