/-
The flag `_remote_description_set` as the gate between the two paths of
a candidate.

While it is down nothing has been handed over and the buffer is all that
arrived; once it is up the buffer stays empty, because
`add_remote_candidate` never appends behind it. It goes up only where a
native `set_remote_description` succeeded before, so no candidate is
handed over ahead of one (`OpenedFirst`), and a success that has not
raised it yet is still on its way to a call (`Accounted`). None of this
needs that nobody is cancelled.
-/
import AioLibDataChannel.PeerConnection.RemoteLedger

namespace AioLibDataChannel

open Asyncio (Job Outcome)

/-- Its description was applied, and nothing was done about it yet. -/
def SetRemote.DescriptionApplied (call : SetRemote) : Prop :=
  call.stage = .applying ∧ call.job = .done (.ok ())

namespace RemoteWorld

/-- Some native `set_remote_description` has succeeded. -/
def Applied (log : List (NativeCall × Except Exc Unit)) : Prop :=
  ∃ sdp type, (NativeCall.setRemoteDescription sdp type, Except.ok ()) ∈ log

/-- Before the flag: every candidate is in the buffer. -/
structure Shut (w : RemoteWorld) : Prop where
  stages : ∀ call ∈ w.setRemotes, call.stage = .applying
  adds : w.addCandidates = []
  buffer : w.bufferedRemoteCandidates = w.arrived
  log : ∀ entry ∈ w.log, entry.1.candidate? = none

/-- What the flag means, and that a description's outcome is logged. -/
structure GateInv (w : RemoteWorld) : Prop where
  shut : w.remoteDescriptionSet = false → w.Shut
  opened : w.remoteDescriptionSet = true →
    w.bufferedRemoteCandidates = [] ∧ Applied w.log
  logged : ∀ call ∈ w.setRemotes, call.stage = .applying → ∀ o, call.job = .done o →
    (NativeCall.setRemoteDescription call.sdp call.type, o) ∈ w.log

/-- The gate is shut, and nothing has come. -/
theorem gateInv_init : GateInv init where
  shut := fun _ =>
    { stages := List.forall_mem_nil _
      adds := rfl
      buffer := rfl
      log := List.forall_mem_nil _ }
  opened := nofun
  logged := List.forall_mem_nil _

/-- The flag never goes down again. -/
theorem set_mono {w w' : RemoteWorld} {a : RemoteAction} (h : Step w a w')
    (hset : w.remoteDescriptionSet = true) : w'.remoteDescriptionSet = true := by
  cases h with
  | opened n call _ _ _ _ => rw [drain_remoteDescriptionSet]
  | drained n call _ _ _ _ _ _ _ => rw [drain_remoteDescriptionSet]; exact hset
  | _ => exact hset

/-- A job that was done stays done when started or cancelled. -/
theorem done_of_start {j : Job Exc} {o : Except Exc Unit} (h : j.start = .done o) :
    j = .done o := by
  cases j <;> first | exact h | cases h

/-- A job that is done cannot be cancelled. -/
theorem done_of_cancel {j : Job Exc} {o : Except Exc Unit} (h : j.cancel = .done o) :
    j = .done o := by
  cases j <;> first | exact h | cases h

/-- One record changes: what holds of all the others still does. -/
theorem forall_set {calls : List SetRemote} {n : Nat} {call' : SetRemote}
    {P : SetRemote → Prop} (hall : ∀ call ∈ calls, P call) (h : P call') :
    ∀ call ∈ calls.set n call', P call := by
  intro call hmem
  rcases List.mem_or_eq_of_mem_set hmem with hmem | rfl
  · exact hall call hmem
  · exact h

/-- A record changes while the gate stays as it is. -/
theorem GateInv.set {w w' : RemoteWorld} {n : Nat} {call : SetRemote}
    (call' : SetRemote) (hi : GateInv w) (hcall : w.setRemotes[n]? = some call)
    (hsets : w'.setRemotes = w.setRemotes.set n call')
    (hflag : w'.remoteDescriptionSet = w.remoteDescriptionSet)
    (hbuf : w'.bufferedRemoteCandidates = w.bufferedRemoteCandidates)
    (hadds : w'.addCandidates = w.addCandidates) (harr : w'.arrived = w.arrived)
    (hlog : w'.log = w.log)
    (hstage : w.remoteDescriptionSet = false → call'.stage = .applying)
    (hjob : call'.stage = .applying → ∀ o, call'.job = .done o →
      call.stage = .applying ∧ call.job = .done o
        ∧ call'.sdp = call.sdp ∧ call'.type = call.type) :
    GateInv w' where
  shut := by
    intro h
    rw [hflag] at h
    have hs := hi.shut h
    exact
      { stages := by rw [hsets]; exact forall_set hs.stages (hstage h)
        adds := hadds.trans hs.adds
        buffer := by rw [hbuf, harr]; exact hs.buffer
        log := by rw [hlog]; exact hs.log }
  opened := by
    rw [hflag, hbuf, hlog]
    exact hi.opened
  logged := by
    rw [hsets, hlog]
    refine forall_set hi.logged ?_
    intro hst o ho
    obtain ⟨hst₀, ho₀, hsdp, htype⟩ := hjob hst o ho
    rw [hsdp, htype]
    exact hi.logged call (List.mem_of_getElem? hcall) hst₀ o ho₀

/-- The log grows by a call made while the gate allows it. -/
theorem GateInv.nativeSet {w : RemoteWorld} {n : Nat} {call : SetRemote}
    (outcome : Except Exc Unit) (hi : GateInv w)
    (hcall : w.setRemotes[n]? = some call) :
    GateInv { w with
      setRemotes := w.setRemotes.set n { call with job := .done outcome }
      log := w.log ++ [(call.nativeCall, outcome)] } where
  shut := by
    intro h
    have hs := hi.shut h
    have hstage := hs.stages call (List.mem_of_getElem? hcall)
    exact
      { stages := forall_set hs.stages hstage
        adds := hs.adds
        buffer := hs.buffer
        log := by
          intro entry hentry
          rcases List.mem_append.mp hentry with hentry | hentry
          · exact hs.log entry hentry
          · rw [List.mem_singleton.mp hentry, SetRemote.nativeCall, hstage]
            rfl }
  opened := by
    intro h
    obtain ⟨hbuf, sdp, type, hmem⟩ := hi.opened h
    exact ⟨hbuf, sdp, type, List.mem_append_left _ hmem⟩
  logged := by
    refine forall_set ?_ ?_
    · intro c hc hst o ho
      exact List.mem_append_left _ (hi.logged c hc hst o ho)
    · intro hst o ho
      have hst' : call.stage = .applying := hst
      cases ho
      refine List.mem_append_right _ (List.mem_singleton.mpr ?_)
      rw [SetRemote.nativeCall, hst']

/-- Every step keeps the gate. -/
theorem gateInv_step {w w' : RemoteWorld} {a : RemoteAction} (hi : GateInv w)
    (h : Step w a w') : GateInv w' := by
  cases h with
  | called sdp type =>
      refine ⟨fun hset => ?_, hi.opened, ?_⟩
      · have hs := hi.shut hset
        refine ⟨?_, hs.adds, hs.buffer, hs.log⟩
        intro call hmem
        rcases List.mem_append.mp hmem with hmem | hmem
        · exact hs.stages call hmem
        · rw [List.mem_singleton.mp hmem]
      · intro call hmem
        rcases List.mem_append.mp hmem with hmem | hmem
        · exact hi.logged call hmem
        · rw [List.mem_singleton.mp hmem]
          exact nofun
  | buffered c hset =>
      refine ⟨fun h => ?_, fun h => ?_, hi.logged⟩
      · have hs := hi.shut h
        refine ⟨hs.stages, hs.adds, ?_, hs.log⟩
        show w.bufferedRemoteCandidates ++ [c] = w.arrived ++ [c]
        rw [hs.buffer]
      · have h' : w.remoteDescriptionSet = true := h
        rw [hset] at h'
        cases h'
  | sent c hset =>
      refine ⟨fun h => ?_, hi.opened, hi.logged⟩
      have h' : w.remoteDescriptionSet = false := h
      rw [hset] at h'
      cases h'
  | startNone rest =>
      exact ⟨fun h => ⟨(hi.shut h).stages, (hi.shut h).adds, (hi.shut h).buffer,
        (hi.shut h).log⟩, hi.opened, hi.logged⟩
  | startSet n call rest hcall =>
      refine hi.set { call with job := call.job.start } hcall rfl rfl rfl rfl rfl rfl
        ?_ ?_
      · exact fun h => (hi.shut h).stages call (List.mem_of_getElem? hcall)
      · exact fun hst o ho => ⟨hst, done_of_start ho, rfl, rfl⟩
  | startAdd n call rest hcall =>
      refine ⟨fun h => ?_, hi.opened, hi.logged⟩
      have hs := hi.shut h
      rw [hs.adds] at hcall
      cases hcall
  | nativeSet n call outcome hcall _ => exact hi.nativeSet outcome hcall
  | nativeAdd n call outcome hcall _ =>
      refine ⟨fun h => ?_, fun h => ?_, ?_⟩
      · have hs := hi.shut h
        rw [hs.adds] at hcall
        cases hcall
      · obtain ⟨hbuf, sdp, type, hmem⟩ := hi.opened h
        exact ⟨hbuf, sdp, type, List.mem_append_left _ hmem⟩
      · intro call hmem hst o ho
        exact List.mem_append_left _ (hi.logged call hmem hst o ho)
  | delivered n call hcall _ =>
      refine hi.set (cancelledCall call) hcall rfl rfl rfl rfl rfl rfl ?_ ?_
      · exact fun h => (hi.shut h).stages call (List.mem_of_getElem? hcall)
      · exact fun hst o ho => ⟨hst, done_of_cancel ho, rfl, rfl⟩
  | failed n call e hcall _ hstage _ =>
      exact hi.set { call with state := .ended (.raised e) } hcall rfl rfl rfl rfl rfl
        rfl (fun _ => hstage) (fun hst o ho => ⟨hst, ho, rfl, rfl⟩)
  | opened n call hcall _ hstage hjob =>
      have hmem := List.mem_of_getElem? hcall
      refine ⟨?_, ?_, ?_⟩
      · rw [drain_remoteDescriptionSet]
        exact nofun
      · rw [drain_buffered, drain_log]
        exact fun _ => ⟨rfl, _, _, hi.logged call hmem hstage _ hjob⟩
      · rw [drain_setRemotes, drain_log]
        refine forall_set hi.logged ?_
        cases w.bufferedRemoteCandidates with
        | nil => exact hi.logged call hmem
        | cons c rest => exact nofun
  | drained n call outcome current rest hcall _ hstage _ =>
      refine hi.set (drainCall call rest) hcall (drain_setRemotes ..)
        (drain_remoteDescriptionSet ..) (drain_buffered ..) (drain_addCandidates ..)
        (drain_arrived ..) (drain_log ..) ?_ ?_
      · intro h
        have hst := (hi.shut h).stages call (List.mem_of_getElem? hcall)
        rw [hstage] at hst
        cases hst
      · cases rest with
        | nil => exact fun hst o ho => ⟨hst, ho, rfl, rfl⟩
        | cons c rest => exact nofun
  | addReturned n call outcome hcall _ _ =>
      refine ⟨fun h => ?_, hi.opened, hi.logged⟩
      have hs := hi.shut h
      rw [hs.adds] at hcall
      cases hcall
  | asked n call hcall _ =>
      refine hi.set { call with state := .cancelling } hcall rfl rfl rfl rfl rfl rfl ?_ ?_
      · exact fun h => (hi.shut h).stages call (List.mem_of_getElem? hcall)
      · exact fun hst o ho => ⟨hst, ho, rfl, rfl⟩
  | ignored n => exact hi

-- ===================================================== no call too early

/-- No candidate is handed over before a description was applied. -/
def OpenedFirst (log : List (NativeCall × Except Exc Unit)) : Prop :=
  ∀ pre c o, pre ++ [(NativeCall.addRemoteCandidate c, o)] <+: log → Applied pre

/-- A candidate may be handed over once a description is applied. -/
theorem openedFirst_snoc {log : List (NativeCall × Except Exc Unit)}
    {entry : NativeCall × Except Exc Unit} (h : OpenedFirst log)
    (hentry : ∀ c, entry.1 = .addRemoteCandidate c → Applied log) :
    OpenedFirst (log ++ [entry]) := by
  intro pre c o hpre
  rcases List.prefix_concat_iff.mp hpre with hpre | hpre
  · obtain ⟨rfl, hlast⟩ := List.append_inj' hpre rfl
    cases hlast
    exact hentry c rfl
  · exact h pre c o hpre

/-- No candidate is handed over before one is. -/
theorem openedFirst_step {w w' : RemoteWorld} {a : RemoteAction} (hi : GateInv w)
    (hopened : OpenedFirst w.log) (h : Step w a w') : OpenedFirst w'.log := by
  cases h with
  | nativeSet n call outcome hcall _ =>
      refine openedFirst_snoc hopened ?_
      intro c hc
      cases hset : w.remoteDescriptionSet with
      | true => exact (hi.opened hset).2
      | false =>
          have hstage := (hi.shut hset).stages call (List.mem_of_getElem? hcall)
          simp only [SetRemote.nativeCall, hstage] at hc
          cases hc
  | nativeAdd n call outcome hcall _ =>
      refine openedFirst_snoc hopened ?_
      intro c hc
      cases hset : w.remoteDescriptionSet with
      | true => exact (hi.opened hset).2
      | false =>
          rw [(hi.shut hset).adds] at hcall
          cases hcall
  | opened n call _ _ _ _ => rw [drain_log]; exact hopened
  | drained n call _ _ _ _ _ _ _ => rw [drain_log]; exact hopened
  | _ => exact hopened

-- ==================================================== no success too many

/-- A description that was applied raised the flag, or its call has
still to see it. -/
def Accounted (w : RemoteWorld) : Prop :=
  Applied w.log → w.remoteDescriptionSet = true
    ∨ ∃ (n : Nat) (call : SetRemote),
        w.setRemotes[n]? = some call ∧ call.DescriptionApplied

/-- The record of an applied description is kept by a change of any
record that keeps its own. -/
theorem exists_applied_set {calls : List SetRemote} {n : Nat}
    {call call' : SetRemote} (hcall : calls[n]? = some call)
    (hkeep : call.DescriptionApplied → call'.DescriptionApplied)
    (h : ∃ (m : Nat) (c : SetRemote), calls[m]? = some c ∧ c.DescriptionApplied) :
    ∃ (m : Nat) (c : SetRemote),
      (calls.set n call')[m]? = some c ∧ c.DescriptionApplied := by
  obtain ⟨m, c, hm, hc⟩ := h
  by_cases hmn : n = m
  · subst hmn
    have hcc : call = c := Option.some.inj (hcall.symm.trans hm)
    have hlt := (List.getElem?_eq_some_iff.mp hcall).1
    exact ⟨n, call', List.getElem?_set_self hlt, hkeep (hcc ▸ hc)⟩
  · exact ⟨m, c, by rw [List.getElem?_set_ne hmn]; exact hm, hc⟩

/-- A step that updates one call keeps the description on record. -/
theorem Accounted.set {w w' : RemoteWorld} {n : Nat} {call : SetRemote}
    (call' : SetRemote) (hi : Accounted w) (hcall : w.setRemotes[n]? = some call)
    (hsets : w'.setRemotes = w.setRemotes.set n call')
    (hflag : w'.remoteDescriptionSet = w.remoteDescriptionSet)
    (hlog : w'.log = w.log)
    (hkeep : call.DescriptionApplied → call'.DescriptionApplied) : Accounted w' := by
  intro happlied
  rw [hlog] at happlied
  rw [hflag, hsets]
  exact (hi happlied).imp_right (exists_applied_set hcall hkeep)

/-- An applied description is on the flag, or with the call that is about
to raise it. -/
theorem accounted_step {w w' : RemoteWorld} {a : RemoteAction} (hi : Accounted w)
    (h : Step w a w') : Accounted w' := by
  cases h with
  | called sdp type =>
      intro happlied
      refine (hi happlied).imp_right ?_
      intro hex
      obtain ⟨m, c, hm, hc⟩ := hex
      exact ⟨m, c, (List.getElem?_append_left (List.getElem?_eq_some_iff.mp hm).1).trans
        hm, hc⟩
  | startSet n call rest hcall =>
      refine hi.set { call with job := call.job.start } hcall rfl rfl rfl ?_
      intro hboth
      obtain ⟨hst, hjob⟩ := hboth
      exact ⟨hst, by rw [hjob]; rfl⟩
  | nativeSet n call outcome hcall hjob =>
      intro hex
      obtain ⟨sdp, type, hmem⟩ := hex
      rcases List.mem_append.mp hmem with hmem | hmem
      · refine (hi ⟨sdp, type, hmem⟩).imp_right (exists_applied_set hcall ?_)
        intro hboth
        obtain ⟨-, hdone⟩ := hboth
        rw [hjob] at hdone
        cases hdone
      · right
        have hentry := List.mem_singleton.mp hmem
        have hlt := (List.getElem?_eq_some_iff.mp hcall).1
        refine ⟨n, _, List.getElem?_set_self hlt, ?_⟩
        unfold SetRemote.nativeCall at hentry
        split at hentry
        next hstage =>
          cases hentry
          exact ⟨hstage, rfl⟩
        next => cases hentry
  | nativeAdd n call outcome hcall hjob =>
      intro hex
      obtain ⟨sdp, type, hmem⟩ := hex
      rcases List.mem_append.mp hmem with hmem | hmem
      · exact hi ⟨sdp, type, hmem⟩
      · cases List.mem_singleton.mp hmem
  | delivered n call hcall _ =>
      refine hi.set (cancelledCall call) hcall rfl rfl rfl ?_
      intro hboth
      obtain ⟨hst, hjob⟩ := hboth
      exact ⟨hst, by rw [cancelledCall, hjob]; rfl⟩
  | failed n call e hcall _ _ hjob =>
      refine hi.set { call with state := .ended (.raised e) } hcall rfl rfl rfl ?_
      intro hboth
      obtain ⟨hst, hdone⟩ := hboth
      exact ⟨hst, hdone⟩
  | opened n call _ _ _ _ =>
      intro _
      rw [drain_remoteDescriptionSet]
      exact Or.inl rfl
  | drained n call outcome current rest hcall _ hstage _ =>
      refine hi.set (drainCall call rest) hcall (drain_setRemotes ..)
        (drain_remoteDescriptionSet ..) (drain_log ..) ?_
      intro hboth
      obtain ⟨hst, -⟩ := hboth
      rw [hstage] at hst
      cases hst
  | asked n call hcall _ =>
      exact hi.set { call with state := .cancelling } hcall rfl rfl rfl
        (fun h => h)
  | _ => exact hi

-- ================================================== the direct calls

/-- A direct call that is over has made its native call. -/
def AddsDone (w : RemoteWorld) : Prop :=
  ∀ call ∈ w.addCandidates, call.ended ≠ none → call.job.pending = false

/-- A direct call that has ended has its job behind it. -/
theorem addsDone_set {calls : List AddCandidate} {n : Nat} {call' : AddCandidate}
    (hall : ∀ call ∈ calls, call.ended ≠ none → call.job.pending = false)
    (h : call'.ended ≠ none → call'.job.pending = false) :
    ∀ call ∈ calls.set n call', call.ended ≠ none → call.job.pending = false := by
  intro call hmem
  rcases List.mem_or_eq_of_mem_set hmem with hmem | rfl
  · exact hall call hmem
  · exact h

/-- Every step keeps it so. -/
theorem addsDone_step {w w' : RemoteWorld} {a : RemoteAction} (hi : AddsDone w)
    (h : Step w a w') : AddsDone w' := by
  cases h with
  | sent c _ =>
      intro call hmem
      rcases List.mem_append.mp hmem with hmem | hmem
      · exact hi call hmem
      · rw [List.mem_singleton.mp hmem]
        exact fun hended => absurd rfl hended
  | startAdd n call rest hcall =>
      refine addsDone_set hi ?_
      rw [Job.pending_start]
      exact hi call (List.mem_of_getElem? hcall)
  | nativeAdd n call outcome _ _ => exact addsDone_set hi fun _ => rfl
  | addReturned n call outcome _ _ hjob =>
      refine addsDone_set hi fun _ => ?_
      show call.job.pending = false
      rw [hjob]
      rfl
  | opened n call _ _ _ _ =>
      rw [AddsDone, drain_addCandidates]
      exact hi
  | drained n call _ _ _ _ _ _ _ =>
      rw [AddsDone, drain_addCandidates]
      exact hi
  | _ => exact hi

end RemoteWorld

end AioLibDataChannel
