/-
A channel with both its ends: two `DataChannel`s, each in a process of
its own, and what libdatachannel carries between them.

Each end is the machine of one channel, and each direction a `Carrier`,
which takes what a native send accepts and hands it to the other end's
message callback. An ordered and reliable channel hands out the oldest
message and loses none; the options ask for less, and a connection may
break, so a step may hand out any message, or lose it.

# What arrives

The callback posts the message if the other end still dispatches. From
there it is scheduled, queued, and taken by a `recv()`; a full receive
queue drops its oldest. `got` reads the three off in one line, and
`peers_carried` says how it compares with what was sent: it is in order,
and it is whole if nothing was lost, dropped, or refused by a destroyed
end.
Text behind a U+0000 and bytes too long for an `int` do not come across
as they were sent, in any run.
-/
import AioLibDataChannel.Carrier.Basic
import AioLibDataChannel.DataChannel.Delivery
import AioLibDataChannel.DataChannel.RoundTrip

namespace AioLibDataChannel

open Function (update)
open Transition (exec Reachable)

-- ======================================================== one end's intake

/-- The message a callback brings. -/
def DcEvent.message? : DcEvent → Option Message
  | .message m => some m
  | _ => none

namespace DcWorld

variable {w w' : DcWorld}

/-- The messages scheduled and not yet run, in order. -/
def pending (w : DcWorld) : List Message := w.ready.filterMap DcEvent.message?

/-- The messages the callback has posted, in order. -/
def posted (w : DcWorld) : List Message := w.arrivals ++ w.pending

/-- What the application got, and behind it what is on its way there. -/
def got (w : DcWorld) : List Message :=
  w.takenItems.reduceOption ++ w.queued ++ w.pending

/-- A step that the transport takes for an end. -/
def carries : DcAction → Bool
  | .native (.fire (.message _)) => true
  | .sending (.nativeSend _) => true
  | _ => false

/-- A message is posted if its callback finds the wrapper. -/
theorem posted_post (e : DcEvent) (v : DcWorld) :
    (v.post e).posted
      = v.posted
        ++ (if v.dc.native.dispatches v.core e.kind then e.message?.toList else []) := by
  unfold post
  split
  next =>
    show v.arrivals ++ List.filterMap DcEvent.message? (v.ready ++ [e]) = _
    rw [List.filterMap_append, ← List.append_assoc]
    cases he : e.message? <;> simp [he, posted, pending]
  next => exact (List.append_nil _).symm

/-- The other callbacks post no message. -/
theorem posted_post_other {e : DcEvent} (he : e.message? = none) (v : DcWorld) :
    (v.post e).posted = v.posted := by
  rw [posted_post, he]
  exact (congrArg _ (ite_self _)).trans (List.append_nil _)

/-- A callback that runs moves its message from the loop to the
history. -/
theorem posted_runCallback {e : DcEvent} {rest : List DcEvent} (hr : w.ready = e :: rest) :
    (runCallback e { w with ready := rest }).posted = w.posted := by
  have hhist : (runCallback e { w with ready := rest }).arrivals
      = w.arrivals ++ e.message?.toList := by
    cases e with
    | message m =>
        show List.filterMap DcObs.put? (w.hist ++ _ ++ [.dispatched m]) = _
        rw [List.filterMap_append, List.filterMap_append]
        have hdrops : List.filterMap DcObs.put?
            (if w.dc.recvQueue.full then (w.dc.recvQueue.items.take 1).map DcObs.dropped
              else []) = [] := by
          split
          · rw [List.filterMap_map]
            exact List.filterMap_eq_nil_iff.mpr fun _ _ => rfl
          · rfl
        rw [hdrops, List.append_nil]
        rfl
    | bufferedLow => exact (List.append_nil _).symm
    | opened => exact List.filterMap_append.trans rfl
    | closed => exact List.filterMap_append.trans rfl
    | error m => exact List.filterMap_append.trans rfl
  have hready : (runCallback e { w with ready := rest }).ready = rest := by
    cases e <;> rfl
  unfold posted pending
  rw [hhist, hready, hr, List.append_assoc]
  cases he : e.message? <;> simp [he]

/-- Messages are put in the queue by their callbacks only. -/
theorem arrivals_loop {b : DcLoop} (hn : NoReinjecting w) (hb : b ≠ .dispatch)
    (h : apply (.loop b) w = some w') : w'.arrivals = w.arrivals := by
  show w'.mailbox.put = w.mailbox.put
  obtain ⟨-, heq⟩ | ⟨c, hc, hstep⟩ := mailbox_cases hn h
  · rw [heq]
  · rcases mailAction_cases hc with rfl | ⟨m, rest, -, hdispatch, -⟩ | ⟨rfl, -⟩
    · rw [← Option.some.inj hstep]
      rfl
    · cases hdispatch
      exact absurd rfl hb
    · obtain ⟨rest, -, heq⟩ | ⟨x, rest, -, heq⟩ := Mailbox.takeStep_cases hstep <;> rw [heq]

/-- A loop step leaves what is scheduled alone, or runs the first of
it. -/
theorem ready_loop {b : DcLoop} (hb : b ≠ .dispatch) (h : applyLoop b w = some w') :
    w'.ready = w.ready := by
  rcases applyLoop_link_cases h with hl | ⟨rfl, -⟩ | ⟨hl, -⟩ | ⟨n, -, -, rfl⟩
  · exact congrArg Link.ready hl
  · exact absurd rfl hb
  · have hready : w'.ready = w.destroy.ready := congrArg Link.ready hl
    rw [hready]
    unfold destroy
    split <;> rfl
  · rfl

/-- Only the transport posts messages. -/
theorem posted_apply {a : DcAction} (hn : NoReinjecting w) (ha : carries a = false)
    (h : apply a w = some w') : w'.posted = w.posted := by
  cases a with
  | native b =>
      cases b with
      | fire e =>
          cases e with
          | message m => cases ha
          | bufferedLow => cases h
          | opened =>
              cases h
              exact posted_post_other rfl _
          | closed =>
              cases h
              exact posted_post_other rfl _
          | error m =>
              cases h
              exact posted_post_other rfl _
      | drain k =>
          cases h
          simp only [drain]
          split
          · exact posted_post_other rfl _
          · rfl
  | sending b =>
      have harrivals : w'.arrivals = w.arrivals :=
        congrArg Mailbox.put (mailbox_applySending h)
      unfold posted pending
      rw [harrivals, (applySending_link h).2.2.2]
  | loop b =>
      obtain ⟨-, hloop⟩ := apply_loop_cases h
      by_cases hb : b = .dispatch
      · subst hb
        obtain ⟨e, rest, hr, rfl⟩ := dispatch_cases hloop
        exact posted_runCallback hr
      · unfold posted pending
        rw [arrivals_loop hn hb h, ready_loop hb hloop]

/-- A message called back is posted by a wrapper that is not
destroyed. -/
theorem posted_message (hh : HandleInv w) (m : Message) :
    (w.post (.message m)).posted
      = w.posted ++ (if w.dc.destroyed then [] else [m]) := by
  rw [posted_post]
  cases hd : w.dc.destroyed with
  | false =>
      rw [(hh.live hd).2]
      rfl
  | true =>
      have hgone : w.dc.native.dispatches w.core .message = false := by
        unfold CoreDataChannel.dispatches
        rw [(hh.gone hd).1]
        exact Bool.and_false _
      rw [DcEvent.kind, hgone]
      rfl

/-- What the application got is, in order, of what was posted; all of
it, if the queue dropped nothing. -/
theorem got_sublist {capacity : Nat} (h : Delivered capacity w) :
    w.got.Sublist w.posted :=
  h.returned.append (.refl _)

/-- A channel that drops nothing has got what was posted to it. -/
theorem got_eq_posted {capacity : Nat} (h : Delivered capacity w)
    (hd : w.hist.filterMap DcObs.dropped? = []) : w.got = w.posted := by
  have hleft : w.leftItems = w.takenItems := left_eq_took hd
  unfold got posted
  rw [← hleft, h.conserved]

end DcWorld

-- ============================================================= the channel

/-- The two ends of a channel. -/
inductive Side
  | left
  | right
deriving DecidableEq, Repr

/-- The other end. -/
def Side.other : Side → Side
  | left => right
  | right => left

/-- The other side of the other side is this one. -/
@[simp] theorem Side.other_other (s : Side) : s.other.other = s := by
  cases s <;> rfl

/-- How an end begins. What libdatachannel received before the wrapper
was there comes by the carrier. -/
structure End where
  handle : Int
  recvBuffer : Nat
  room : 1 ≤ recvBuffer
  native : NativeChannel
  fired : List DcEvent
  quiet : fired.filterMap DcEvent.message? = []
  core : Core

/-- Its wrapper, just made. -/
def End.world (e : End) : DcWorld :=
  DcWorld.init e.handle e.recvBuffer e.native e.fired e.core

/-- The message `send()` makes its native call for. -/
def Payload.message? : Payload → Option Message
  | .bytesLike data => some (.bytes data)
  | .str text => some (.str text)
  | .other _ => none

/-- Both ends, and each direction by the end it comes from: the messages
its native sends accepted, with what they put on the wire. -/
structure PeersWorld where
  channel : Side → DcWorld
  carrier : Side → Carrier (Message × Wire)

namespace PeersWorld

/-- A new channel. -/
def init (ends : Side → End) : PeersWorld where
  channel := fun s => (ends s).world
  carrier := fun _ => .new

/-- The steps: an end's own; the native call of a `send()`, which the
library answers; a message reaching the other end, or lost. -/
inductive Action
  | own (s : Side) (a : DcAction)
  | call (s : Side) (rtc : Rtc) (grow : Nat)
  | arrive (s : Side) (k : Nat)
  | lose (s : Side) (k : Nat)

def setChannel (s : Side) (v : DcWorld) (w : PeersWorld) : PeersWorld :=
  { w with channel := update w.channel s v }

def setCarrier (s : Side) (c : Carrier (Message × Wire)) (w : PeersWorld) : PeersWorld :=
  { w with carrier := update w.carrier s c }

/-- The native call answers. -/
def answered (s : Side) (answer : Except Exc Nat) (w : PeersWorld) : Option PeersWorld :=
  ((w.channel s).nativeSend answer).map fun v => w.setChannel s v

/-- `send_bytes` or `send_text`, as the loop of this end stands. -/
def call (s : Side) (rtc : Rtc) (grow : Nat) (w : PeersWorld) : Option PeersWorld :=
  match (w.channel s).position with
  | .calling _ payload =>
      match payload.message? with
      | none => none
      | some m =>
          match rtc.send m with
          | .error e => w.answered s (.error e)
          | .ok wire =>
              (w.setCarrier s ((w.carrier s).send (m, wire))).answered s (.ok grow)
  | _ => none

/-- The other end's message callback, called with what was on the wire:
`tr_dc_message` makes no message of text that is not UTF-8. -/
def arrive (s : Side) (k : Nat) (w : PeersWorld) : Option PeersWorld :=
  match (w.carrier s).flying[k]? with
  | none => none
  | some p =>
      let w' := w.setCarrier s ((w.carrier s).arrive k p)
      match p.2.delivered with
      | none => some w'
      | some m => some (w'.setChannel s.other ((w.channel s.other).post (.message m)))

/-- The transition. -/
def apply : Action → PeersWorld → Option PeersWorld
  | .own s a, w =>
      if DcWorld.carries a then none
      else (DcWorld.apply a (w.channel s)).map fun v => w.setChannel s v
  | .call s rtc grow, w => w.call s rtc grow
  | .arrive s k, w => w.arrive s k
  | .lose s k, w =>
      ((w.carrier s).flying[k]?).map fun p => w.setCarrier s ((w.carrier s).lose k p)

/-- The oldest message of this direction is the next. -/
def Action.inTurn (s : Side) : Action → Bool
  | arrive d k => d != s || k == 0
  | _ => true

variable {w w' : PeersWorld} {a : Action}

/-- What a step can be. -/
inductive Step (w : PeersWorld) : Action → PeersWorld → Prop
  | own (s : Side) (a : DcAction) (v : DcWorld) : DcWorld.carries a = false →
      DcWorld.apply a (w.channel s) = some v → Step w (.own s a) (w.setChannel s v)
  | refused (s : Side) (rtc : Rtc) (grow : Nat) (e : Exc) (v : DcWorld) :
      (w.channel s).nativeSend (.error e) = some v →
      Step w (.call s rtc grow) (w.setChannel s v)
  | accepted (s : Side) (rtc : Rtc) (grow : Nat) (m : Message) (wire : Wire)
      (v : DcWorld) : rtc.send m = .ok wire →
      (w.channel s).nativeSend (.ok grow) = some v →
      Step w (.call s rtc grow)
        ((w.setCarrier s ((w.carrier s).send (m, wire))).setChannel s v)
  | unread (s : Side) (k : Nat) (p : Message × Wire) :
      (w.carrier s).flying[k]? = some p → p.2.delivered = none →
      Step w (.arrive s k) (w.setCarrier s ((w.carrier s).arrive k p))
  | arrived (s : Side) (k : Nat) (p : Message × Wire) (m : Message) :
      (w.carrier s).flying[k]? = some p → p.2.delivered = some m →
      Step w (.arrive s k) ((w.setCarrier s ((w.carrier s).arrive k p)).setChannel s.other
        ((w.channel s.other).post (.message m)))
  | lost (s : Side) (k : Nat) (p : Message × Wire) :
      (w.carrier s).flying[k]? = some p →
      Step w (.lose s k) (w.setCarrier s ((w.carrier s).lose k p))

/-- The transition takes no other step. -/
theorem step_cases (h : apply a w = some w') : Step w a w' := by
  cases a with
  | own s b =>
      simp only [apply] at h
      split at h
      next => cases h
      next hb =>
        obtain ⟨v, hv, rfl⟩ := Option.map_eq_some_iff.mp h
        exact .own s b v ((Bool.not_eq_true _).mp hb) hv
  | call s rtc grow =>
      simp only [apply, call] at h
      split at h
      next t payload hp =>
        split at h
        next => cases h
        next m hm =>
          split at h
          next e he =>
            obtain ⟨v, hv, rfl⟩ := Option.map_eq_some_iff.mp h
            exact .refused s rtc grow e v hv
          next wire hwire =>
            obtain ⟨v, hv, rfl⟩ := Option.map_eq_some_iff.mp h
            exact .accepted s rtc grow m wire v hwire hv
      next => cases h
  | arrive s k =>
      simp only [apply, arrive] at h
      split at h
      next => cases h
      next p hp =>
        split at h
        next hd =>
          cases h
          exact .unread s k p hp hd
        next m hm =>
          cases h
          exact .arrived s k p m hp hm
  | lose s k =>
      obtain ⟨p, hp, rfl⟩ := Option.map_eq_some_iff.mp h
      exact .lost s k p hp

/-- Each end takes steps of its own machine only. -/
theorem channel_step (h : Step w a w') (s : Side) :
    Reachable DcWorld.apply (w.channel s) (w'.channel s) := by
  have hset : ∀ (d : Side) (b : DcAction) (v : DcWorld),
      DcWorld.apply b (w.channel d) = some v →
        Reachable DcWorld.apply (w.channel s) (update w.channel d v s) := by
    intro d b v hv
    by_cases hs : s = d
    · subst hs
      rw [Function.update_self]
      exact .step b .init hv
    · rw [Function.update_of_ne hs]
      exact .init
  cases h with
  | own d b v hb hv => exact hset d b v hv
  | refused d rtc grow e v hv => exact hset d (.sending (.nativeSend (.error e))) v hv
  | accepted d rtc grow m wire v hm hv =>
      exact hset d (.sending (.nativeSend (.ok grow))) v hv
  | unread d k p hp hd => exact .init
  | arrived d k p m hp hm => exact hset d.other (.native (.fire (.message m))) _ rfl
  | lost d k p hp => exact .init

/-- Each direction is a carrier. -/
theorem carrier_step (h : Step w a w') (s : Side) :
    w'.carrier s = w.carrier s
      ∨ ∃ b, Carrier.step b (w.carrier s) = some (w'.carrier s)
        ∧ (a.inTurn s = true → b.inTurn = true) := by
  have hset : ∀ (d : Side) (b : Carrier.Action (Message × Wire))
      (c : Carrier (Message × Wire)), Carrier.step b (w.carrier d) = some c →
        (a.inTurn d = true → b.inTurn = true) →
          update w.carrier d c s = w.carrier s
            ∨ ∃ b, Carrier.step b (w.carrier s) = some (update w.carrier d c s)
              ∧ (a.inTurn s = true → b.inTurn = true) := by
    intro d b c hc hturn
    by_cases hs : s = d
    · subst hs
      rw [Function.update_self]
      exact Or.inr ⟨b, hc, hturn⟩
    · rw [Function.update_of_ne hs]
      exact Or.inl rfl
  have hkind : ∀ {d : Side} {k : Nat}, (Action.arrive d k).inTurn d = true →
      (Carrier.Action.arrive k : Carrier.Action (Message × Wire)).inTurn = true := by
    intro d k hturn
    have hor : (d != d || k == 0) = true := hturn
    rw [bne_self_eq_false, Bool.false_or] at hor
    exact hor
  cases h with
  | own d b v hb hv => exact Or.inl rfl
  | refused d rtc grow e v hv => exact Or.inl rfl
  | accepted d rtc grow m wire v hm hv => exact hset d (.send (m, wire)) _ rfl fun _ => rfl
  | unread d k p hp hd =>
      exact hset d (.arrive k) _ (Option.map_eq_some_iff.mpr ⟨p, hp, rfl⟩) hkind
  | arrived d k p m hp hm =>
      exact hset d (.arrive k) _ (Option.map_eq_some_iff.mpr ⟨p, hp, rfl⟩) hkind
  | lost d k p hp =>
      exact hset d (.lose k) _ (Option.map_eq_some_iff.mpr ⟨p, hp, rfl⟩) fun _ => rfl

/-- What is on its way was put there by a native send that accepted
it. -/
theorem sent_step (hw : ∀ s, ∀ p ∈ (w.carrier s).sent, ∃ rtc : Rtc, rtc.send p.1 = .ok p.2)
    (h : Step w a w') (s : Side) :
    ∀ p ∈ (w'.carrier s).sent, ∃ rtc : Rtc, rtc.send p.1 = .ok p.2 := by
  have hset : ∀ (d : Side) (c : Carrier (Message × Wire)),
      (∀ p ∈ c.sent, ∃ rtc : Rtc, rtc.send p.1 = .ok p.2) →
        ∀ p ∈ (update w.carrier d c s).sent, ∃ rtc : Rtc, rtc.send p.1 = .ok p.2 := by
    intro d c hc
    by_cases hs : s = d
    · subst hs
      rw [Function.update_self]
      exact hc
    · rw [Function.update_of_ne hs]
      exact hw s
  cases h with
  | own d b v hb hv => exact hw s
  | refused d rtc grow e v hv => exact hw s
  | accepted d rtc grow m wire v hm hv =>
      refine hset d _ fun p hp => ?_
      rcases List.mem_append.mp hp with hp | hp
      · exact hw d p hp
      · rw [List.mem_singleton.mp hp]
        exact ⟨rtc, hm⟩
  | unread d k p hp hd => exact hset d _ (hw d)
  | arrived d k p m hp hm => exact hset d _ (hw d)
  | lost d k p hp => exact hset d _ (hw d)

/-- What an end is called with: the messages of the other end that
arrived, as they come off the wire. -/
def offered (s : Side) (w : PeersWorld) : List Message :=
  (w.carrier s.other).arrived.filterMap fun p => p.2.delivered

/-- What a carrier brings is offered to the side it goes to. -/
theorem offered_setCarrier {d : Side} {c : Carrier (Message × Wire)}
    {l : List (Message × Wire)} (hc : c.arrived = (w.carrier d).arrived ++ l)
    (s : Side) :
    (w.setCarrier d c).offered s
      = w.offered s ++ (if s = d.other then l.filterMap fun p => p.2.delivered else []) := by
  show (update w.carrier d c s.other).arrived.filterMap _ = _
  by_cases hs : s = d.other
  · subst hs
    rw [Side.other_other, Function.update_self, hc, List.filterMap_append, if_pos rfl,
      offered, Side.other_other]
  · have hne : s.other ≠ d := by
      rintro rfl
      exact hs (Side.other_other s).symm
    rw [Function.update_of_ne hne, if_neg hs, List.append_nil]
    rfl

/-- What a callback is offered, an end posts as long as it is not
destroyed; and nothing else. -/
structure Intake (s : Side) (w w' : PeersWorld) (more : List Message) : Prop where
  offered : w'.offered s = w.offered s ++ more
  posted : (w'.channel s).posted
    = (w.channel s).posted ++ (if (w.channel s).dc.destroyed then [] else more)
  destroyed : (w.channel s).dc.destroyed = true → (w'.channel s).dc.destroyed = true

/-- What a step offers to a side is posted there, unless it is destroyed. -/
theorem intake_step (hn : ∀ s, DcWorld.NoReinjecting (w.channel s))
    (hh : ∀ s, DcWorld.HandleInv (w.channel s)) (h : Step w a w') (s : Side) :
    ∃ more, Intake s w w' more := by
  have hnone : (w.channel s).posted = (w.channel s).posted
      ++ (if (w.channel s).dc.destroyed then [] else []) := by
    rw [ite_self, List.append_nil]
  have hown : ∀ {d : Side} {b : DcAction} {v : DcWorld},
      DcWorld.apply b (w.channel d) = some v → v.posted = (w.channel d).posted →
        (update w.channel d v s).posted = (w.channel s).posted
            ++ (if (w.channel s).dc.destroyed then [] else [])
          ∧ ((w.channel s).dc.destroyed = true →
            (update w.channel d v s).dc.destroyed = true) := by
    intro d b v hv hposted
    by_cases hs : s = d
    · subst hs
      rw [Function.update_self, hposted]
      exact ⟨hnone, DcWorld.destroyed_apply hv⟩
    · rw [Function.update_of_ne hs]
      exact ⟨hnone, id⟩
  have hcall : ∀ {d : Side} {answer : Except Exc Nat} {v : DcWorld},
      (w.channel d).nativeSend answer = some v → v.posted = (w.channel d).posted := by
    intro d answer v hv
    have hput : v.arrivals = (w.channel d).arrivals := congrArg Mailbox.put
      (DcWorld.mailbox_applySending (a := .nativeSend answer) hv)
    unfold DcWorld.posted DcWorld.pending
    rw [hput, (DcWorld.applySending_link (a := .nativeSend answer) hv).2.2.2]
  have hsame : ∀ {d : Side} {c : Carrier (Message × Wire)},
      c.arrived = (w.carrier d).arrived → (w.setCarrier d c).offered s = w.offered s ++ [] := by
    intro d c hc
    rw [offered_setCarrier (hc.trans (List.append_nil _).symm)]
    exact congrArg _ (ite_self _)
  cases h with
  | own d b v hb hv =>
      obtain ⟨hposted, hd⟩ := hown hv (DcWorld.posted_apply (hn d) hb hv)
      exact ⟨[], (List.append_nil _).symm, hposted, hd⟩
  | refused d rtc grow e v hv =>
      obtain ⟨hposted, hd⟩ := hown (b := .sending (.nativeSend (.error e))) hv (hcall hv)
      exact ⟨[], (List.append_nil _).symm, hposted, hd⟩
  | accepted d rtc grow m wire v hm hv =>
      obtain ⟨hposted, hd⟩ := hown (b := .sending (.nativeSend (.ok grow))) hv (hcall hv)
      exact ⟨[], hsame rfl, hposted, hd⟩
  | unread d k p hp hd =>
      refine ⟨[], ?_, hnone, id⟩
      have hone : [p].filterMap (fun p => p.2.delivered) = [] := List.filterMap_cons_none hd
      rw [offered_setCarrier (l := [p]) rfl, hone, ite_self]
  | arrived d k p m hp hm =>
      have hone : [p].filterMap (fun p => p.2.delivered) = [m] :=
        List.filterMap_cons_some hm
      have hoffered := offered_setCarrier (w := w)
        (c := (w.carrier d).arrive k p) (l := [p]) rfl s
      rw [hone] at hoffered
      by_cases hs : s = d.other
      · subst hs
        rw [if_pos rfl] at hoffered
        refine ⟨[m], hoffered, ?_, ?_⟩
        · show (update w.channel d.other _ d.other).posted = _
          rw [Function.update_self]
          exact DcWorld.posted_message (hh d.other) m
        · show _ → (update w.channel d.other _ d.other).dc.destroyed = true
          rw [Function.update_self]
          exact DcWorld.destroyed_apply (a := .native (.fire (.message m))) rfl
      · rw [if_neg hs] at hoffered
        refine ⟨[], hoffered, ?_, ?_⟩
        · show (update w.channel d.other _ s).posted = _
          rw [Function.update_of_ne hs]
          exact hnone
        · show _ → (update w.channel d.other _ s).dc.destroyed = true
          rw [Function.update_of_ne hs]
          exact id
  | lost d k p hp => exact ⟨[], hsame rfl, hnone, id⟩

-- =============================================================== the runs

/-- What holds along a run. -/
structure Along (ends : Side → End) (acts : List Action) (w : PeersWorld) : Prop where
  reached : ∀ s, Reachable DcWorld.apply (ends s).world (w.channel s)
  kept : ∀ s, (w.carrier s).Kept
  ordered : ∀ s, (∀ a ∈ acts, a.inTurn s = true) → (w.carrier s).Ordered
  sent : ∀ s, ∀ p ∈ (w.carrier s).sent, ∃ rtc : Rtc, rtc.send p.1 = .ok p.2
  posted : ∀ s, ((w.channel s).posted).Sublist (w.offered s)
  whole : ∀ s, (w.channel s).dc.destroyed = false → (w.channel s).posted = w.offered s

/-- Nothing was posted to a channel that is new. -/
theorem End.posted (e : End) : e.world.posted = [] := by
  have hquiet := (DcWorld.quiet_init e.handle e.recvBuffer e.native e.fired e.core).1
  have hfired : e.world.pending = [] := e.quiet
  unfold DcWorld.posted
  rw [hfired, List.append_nil]
  exact hquiet

/-- A run of no steps has carried nothing. -/
theorem along_init (ends : Side → End) : Along ends [] (init ends) where
  reached := fun _ => .init
  kept := fun _ => Carrier.kept_new
  ordered := fun _ _ => Carrier.ordered_new
  sent := fun _ _ hp => nomatch hp
  posted := fun s => by
    show ((ends s).world.posted).Sublist _
    rw [End.posted]
    exact List.nil_sublist _
  whole := fun s _ => End.posted (ends s)

/-- A step carries what its action says. -/
theorem along_step {ends : Side → End} {acts : List Action} (hw : Along ends acts w)
    (h : apply a w = some w') : Along ends (acts ++ [a]) w' := by
  have hstep := step_cases h
  have hdelivery : ∀ s, DcWorld.DeliveryInv (ends s).recvBuffer (w.channel s) := fun s =>
    (hw.reached s).invariant
      (DcWorld.deliveryInv_init _ (ends s).recvBuffer _ _ _) DcWorld.deliveryInv_apply
  have hhandle : ∀ s, DcWorld.HandleInv (w.channel s) := fun s =>
    (hw.reached s).invariant (DcWorld.handleInv_init ..) DcWorld.handleInv_apply
  have hintake := intake_step (fun s => (hdelivery s).reinjecting) hhandle hstep
  refine ⟨fun s => (hw.reached s).trans (channel_step hstep s), fun s => ?_, fun s hturn => ?_,
    sent_step hw.sent hstep, fun s => ?_, fun s hd => ?_⟩
  · rcases carrier_step hstep s with heq | ⟨b, hb, -⟩
    · rw [heq]
      exact hw.kept s
    · exact Carrier.kept_step (hw.kept s) hb
  · have hbefore := hw.ordered s fun b hb => hturn b (List.mem_append_left _ hb)
    rcases carrier_step hstep s with heq | ⟨b, hb, hin⟩
    · rw [heq]
      exact hbefore
    · have ha := hturn a (List.mem_append_right _ (List.mem_singleton_self a))
      exact Carrier.ordered_step hbefore (hin ha) hb
  · obtain ⟨more, hoffered, hposted, -⟩ := hintake s
    rw [hoffered, hposted]
    refine (hw.posted s).append ?_
    split
    · exact List.nil_sublist _
    · exact .refl _
  · obtain ⟨more, hoffered, hposted, hdes⟩ := hintake s
    have hlive : (w.channel s).dc.destroyed = false :=
      Bool.eq_false_iff.mpr fun ht => Bool.false_ne_true (hd.symm.trans (hdes ht))
    rw [hoffered, hposted, hlive, hw.whole s hlive]
    rfl

/-- All that was sent in this direction comes across as it is. -/
def Fitting (s : Side) (w : PeersWorld) : Prop :=
  ∀ p ∈ (w.carrier s).sent, p.1.Fits

/-- What fits is called back with what was sent. -/
theorem delivered_eq {l : List (Message × Wire)}
    (hs : ∀ p ∈ l, ∃ rtc : Rtc, rtc.send p.1 = .ok p.2) (hf : ∀ p ∈ l, p.1.Fits) :
    l.filterMap (fun p => p.2.delivered) = l.map Prod.fst := by
  rw [← List.filterMap_eq_map]
  refine List.filterMap_congr fun p hp => ?_
  obtain ⟨rtc, hrtc⟩ := hs p hp
  exact (delivered_send hrtc).mpr (hf p hp)

/-- How what one end got compares with what the other sent. -/
structure Carried (acts : List Action) (s : Side) (w : PeersWorld) : Prop where
  /-- Each message a native send accepted was handed to the other end, is
  on its way, or was lost. -/
  account : (w.carrier s).sent.Perm
    ((w.carrier s).arrived ++ (w.carrier s).flying ++ (w.carrier s).lost)
  /-- The other end got nothing but what came off the wire. -/
  honest : ((w.channel s.other).got).Sublist
    ((w.carrier s).arrived.filterMap fun p => p.2.delivered)
  /-- Over an ordered channel it got, in order, of what was sent. -/
  inOrder : (∀ a ∈ acts, a.inTurn s = true) → Fitting s w →
    ((w.channel s.other).got).Sublist ((w.carrier s).sent.map Prod.fst)
  /-- And all of it but what is on its way, if nothing was lost, it
  dropped nothing, and it is not destroyed. -/
  whole : (∀ a ∈ acts, a.inTurn s = true) → Fitting s w → (w.carrier s).lost = [] →
    (w.channel s.other).hist.filterMap DcObs.dropped? = [] →
      (w.channel s.other).dc.destroyed = false →
        (w.channel s.other).got ++ (w.carrier s).flying.map Prod.fst
          = (w.carrier s).sent.map Prod.fst

/-- In every state of every run, in both directions. -/
theorem peers_carried {ends : Side → End} {acts : List Action}
    (h : exec apply (init ends) acts = some w) (s : Side) : Carried acts s w := by
  have hw : Along ends acts w := Transition.exec_invariant (P := Along ends)
    (along_init ends) (fun _ hm ha => along_step hm ha) h
  have hdelivered : DcWorld.Delivered (ends s.other).recvBuffer (w.channel s.other) :=
    DcWorld.delivered_of_reachable _ _ _ _ _ (ends s.other).room (hw.reached s.other)
  have hoffered : w.offered s.other
      = (w.carrier s).arrived.filterMap fun p => p.2.delivered := by
    rw [offered, Side.other_other]
  have hgot : ((w.channel s.other).got).Sublist
      ((w.carrier s).arrived.filterMap fun p => p.2.delivered) := by
    rw [← hoffered]
    exact (DcWorld.got_sublist hdelivered).trans (hw.posted s.other)
  have hsent : ∀ {l : List (Message × Wire)}, l.Sublist (w.carrier s).sent →
      Fitting s w → l.filterMap (fun p => p.2.delivered) = l.map Prod.fst :=
    fun hl hf => delivered_eq (fun p hp => hw.sent s p (hl.subset hp))
      fun p hp => hf p (hl.subset hp)
  refine ⟨hw.kept s, hgot, fun hturn hf => ?_, fun hturn hf hlost hdrop hd => ?_⟩
  · have harrived := (List.sublist_append_left _ _).trans (hw.ordered s hturn)
    rw [hsent harrived hf] at hgot
    exact hgot.trans (harrived.map _)
  · have hordered := hw.ordered s hturn
    have harrived := (List.sublist_append_left _ _).trans hordered
    rw [DcWorld.got_eq_posted hdelivered hdrop, hw.whole s.other hd, hoffered,
      hsent harrived hf, ← List.map_append, Carrier.eq_of_ordered (hw.kept s) hordered hlost]

/-- An end of a channel that is open, with room for two messages. -/
def openEnd : End where
  handle := 1
  recvBuffer := 2
  room := by decide
  native := DcWorld.openNative
  fired := []
  quiet := rfl
  core := DcWorld.emptyCore

/-- Two messages one way, one of them received, and one the other
way. -/
def bothWaysRun : List Action :=
  [.own .left (.loop (.send (.user 0) (.bytesLike [1]) false)),
    .call .left DcWorld.acceptAll 0, .own .left (.sending .readAmount),
    .own .left (.loop (.send (.user 0) (.str (PyStr.ofChars ['h', 'i'])) false)),
    .call .left DcWorld.acceptAll 0,
    .own .right (.loop (.send (.user 0) (.bytesLike []) false)),
    .call .right DcWorld.acceptAll 0, .arrive .left 0, .own .right (.sending .readAmount),
    .own .right (.loop .dispatch), .own .right (.loop (.recv (.user 1))),
    .arrive .left 0, .arrive .right 0]

theorem peers_carried_bothWaysRun :
    ∃ w, exec apply (init fun _ => openEnd) bothWaysRun = some w
      ∧ (w.channel .right).got = [.bytes [1], .str (PyStr.ofChars ['h', 'i'])]
      ∧ (w.channel .left).got = [.bytes []] ∧ Carried bothWaysRun .left w :=
  ⟨_, rfl, rfl, rfl, @peers_carried _ (fun _ => openEnd) bothWaysRun rfl .left⟩

end PeersWorld

end AioLibDataChannel
