/-
`_core`: the wrappers over native handles and their registries.

`_pcs` and `_dcs` map a handle to its live wrapper; a native callback
finds its Python side only through them. `destroy` marks the wrapper,
drops its callbacks, leaves the registry and only then deletes the
native handle, so nothing is dispatched to a wrapper whose destroy has
begun.
-/
import AioLibDataChannel.Basic

namespace AioLibDataChannel

/-- The registries, by their keys, and the handles the native layer has
been told to delete, oldest first. -/
structure Core where
  pcs : List Int
  dcs : List Int
  deletedPcs : List Int
  deletedDcs : List Int
deriving DecidableEq, Repr

/-- `d[h] = …` on a dict's keys. -/
def insertKey (h : Int) (keys : List Int) : List Int :=
  if h ∈ keys then keys else keys ++ [h]

/-- `d.pop(h, None)` on a dict's keys. -/
def popKey (h : Int) (keys : List Int) : List Int :=
  keys.filter (· ≠ h)

/-- A dict has the key that was set and those it had. -/
@[simp] theorem mem_insertKey {h k : Int} {keys : List Int} :
    k ∈ insertKey h keys ↔ k = h ∨ k ∈ keys := by
  unfold insertKey
  split
  next hmem =>
    constructor
    · exact Or.inr
    · intro hor
      rcases hor with rfl | hk
      · exact hmem
      · exact hk
  next => simp [or_comm]

/-- A dict has the keys it had but the one that was popped. -/
@[simp] theorem mem_popKey {h k : Int} {keys : List Int} :
    k ∈ popKey h keys ↔ k ∈ keys ∧ k ≠ h := by
  simp [popKey]

-- ==================================================== peer connections

/-- The keys of `_core.PeerConnection._callbacks`. -/
inductive PcKind
  | localDescription
  | localCandidate
  | stateChange
  | iceStateChange
  | gatheringStateChange
  | signalingStateChange
  | dataChannel
deriving DecidableEq, Repr

/-- `_core.PeerConnection`. -/
structure CorePeerConnection where
  handle : Int
  callbacks : List PcKind
  destroyed : Bool
deriving DecidableEq, Repr

namespace CorePeerConnection

/-- `_core.PeerConnection.__init__`: the wrapper enters `_pcs`. -/
def create (handle : Int) (core : Core) : Core × CorePeerConnection :=
  ({ core with pcs := insertKey handle core.pcs },
    { handle := handle, callbacks := [], destroyed := false })

/-- `_core.PeerConnection.set_on_*`. -/
def setOn (kind : PcKind) (pc : CorePeerConnection) : CorePeerConnection :=
  { pc with
    callbacks := if kind ∈ pc.callbacks then pc.callbacks
      else pc.callbacks ++ [kind] }

/-- `_core.PeerConnection.destroy` up to the native delete, which
releases the GIL. -/
def beginDestroy (core : Core) (pc : CorePeerConnection) :
    Core × CorePeerConnection :=
  ({ core with pcs := popKey pc.handle core.pcs },
    { pc with destroyed := true, callbacks := [] })

/-- `_dispatch` finds the wrapper in the registry and a callback stored
for the kind. -/
def dispatches (core : Core) (pc : CorePeerConnection) (kind : PcKind) : Bool :=
  decide (pc.handle ∈ core.pcs) && decide (kind ∈ pc.callbacks)

end CorePeerConnection

-- ======================================================= data channels

/-- The keys of `_core.DataChannel._callbacks`. -/
inductive DcKind
  | open
  | closed
  | error
  | message
  | bufferedAmountLow
deriving DecidableEq, Repr

/-- `_core.DataChannel`: a handle, the callbacks stored for it, and
whether `destroy` has begun. -/
structure CoreDataChannel where
  handle : Int
  callbacks : List DcKind
  destroyed : Bool
deriving DecidableEq, Repr

namespace CoreDataChannel

/-- `_core.DataChannel.__init__`: the wrapper enters `_dcs`. -/
def create (handle : Int) (core : Core) : Core × CoreDataChannel :=
  ({ core with dcs := insertKey handle core.dcs },
    { handle := handle, callbacks := [], destroyed := false })

/-- `_core.DataChannel.set_on_*`. -/
def setOn (kind : DcKind) (dc : CoreDataChannel) : CoreDataChannel :=
  { dc with
    callbacks := if kind ∈ dc.callbacks then dc.callbacks
      else dc.callbacks ++ [kind] }

/-- `_core.DataChannel.destroy`. -/
def destroy (core : Core) (dc : CoreDataChannel) : Core × CoreDataChannel :=
  if dc.destroyed then (core, dc)
  else
    ({ core with
        dcs := popKey dc.handle core.dcs
        deletedDcs := core.deletedDcs ++ [dc.handle] },
      { dc with destroyed := true, callbacks := [] })

/-- `_dispatch` finds the wrapper in the registry and a callback stored
for the kind. -/
def dispatches (core : Core) (dc : CoreDataChannel) (kind : DcKind) : Bool :=
  decide (dc.handle ∈ core.dcs) && decide (kind ∈ dc.callbacks)

end CoreDataChannel

end AioLibDataChannel
