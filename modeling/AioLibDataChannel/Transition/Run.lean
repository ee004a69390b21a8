/-
Runs of a partial step function: the vocabulary every machine of this
development is stated in.

A machine is a step `α → σ → Option σ` — an action either is disabled
in a state or has exactly one successor there. Nondeterminism lives in
the choice of the action list, so a run is data: `exec` replays it.

# Conditions along a run

`Visits` and `Takes` name the states a run passes through and the
(action, state) pairs it steps from. They are what a conditional result
speaks about: "as long as every step meets `ok`, every state satisfies
`P`" is `visits_of_takes`, and `visits_iff_takes` is its exact form,
available when `ok` decides step by step whether `P` survives. `Last` and
`Since` place a step in its run: nothing of its kind comes after it, or
something has held ever since.

# Projections

`Reachable.map` carries reachability along a state map under which
each step is a run, possibly empty, of another machine. `exec_simulation`
is the same for a relation, with the other machine's run in hand.
-/
import Mathlib.Data.List.Induction

namespace Transition

variable {σ τ α β : Type*} {step : α → σ → Option σ} {s₀ s s' : σ}

-- ================================================================= runs

/-- Run a list of actions, failing on the first disabled one. -/
def exec (step : α → σ → Option σ) (s : σ) : List α → Option σ
  | [] => some s
  | a :: rest =>
      match step a s with
      | some s' => exec step s' rest
      | none => none

/-- One successful step peels off the head of a run. -/
theorem exec_cons {a : α} {rest : List α} (h : step a s = some s') :
    exec step s (a :: rest) = exec step s' rest := by
  rw [exec, h]

/-- A run that goes through does so from its first step on. -/
theorem exec_cons_cases {a : α} {rest : List α} (h : exec step s (a :: rest) = some s') :
    ∃ m, step a s = some m ∧ exec step m rest = some s' := by
  rw [exec] at h
  split at h
  next m ha => exact ⟨m, ha, h⟩
  next => cases h

/-- A run over a concatenation is a run over its halves. -/
theorem exec_append (as bs : List α) :
    exec step s (as ++ bs) = (exec step s as).bind fun m => exec step m bs := by
  induction as generalizing s with
  | nil => rfl
  | cons a rest ih =>
      simp only [List.cons_append, exec]
      cases step a s with
      | none => rfl
      | some m => exact ih

/-- A run ending in `a` is a run, then one step. -/
theorem exec_snoc (as : List α) (a : α) :
    exec step s (as ++ [a]) = (exec step s as).bind (step a) := by
  rw [exec_append]
  congr 1
  funext m
  rw [exec]
  cases step a m <;> rfl

-- ========================================================= reachability

/-- The states some run from `s₀` ends in. -/
inductive Reachable (step : α → σ → Option σ) (s₀ : σ) : σ → Prop
  | init : Reachable step s₀ s₀
  | step {s s' : σ} (a : α) :
      Reachable step s₀ s → step a s = some s' → Reachable step s₀ s'

/-- A successful run reaches its end. -/
theorem reachable_of_exec {as : List α} (h : exec step s₀ as = some s) :
    Reachable step s₀ s := by
  induction as using List.reverseRecOn generalizing s with
  | nil =>
      cases h
      exact .init
  | append_singleton as a ih =>
      rw [exec_snoc] at h
      obtain ⟨m, hm, ha⟩ := Option.bind_eq_some_iff.mp h
      exact .step a (ih hm) ha

/-- The invariant rule: what holds at the start and survives every step
holds in every reachable state. -/
theorem Reachable.invariant {P : σ → Prop} (h : Reachable step s₀ s)
    (hinit : P s₀)
    (hstep : ∀ {a m m'}, P m → step a m = some m' → P m') : P s := by
  induction h with
  | init => exact hinit
  | step a _ ha ih => exact hstep ih ha

/-- Reachability composes. -/
theorem Reachable.trans {s₁ : σ} (h₁ : Reachable step s₀ s₁)
    (h₂ : Reachable step s₁ s) : Reachable step s₀ s := by
  induction h₂ with
  | init => exact h₁
  | step a _ ha ih => exact .step a ih ha

/-- A state map under which every step is a run of a second machine
sends reachable states to reachable states. -/
theorem Reachable.map {step' : β → τ → Option τ} {f : σ → τ}
    (h : Reachable step s₀ s)
    (hstep : ∀ {a m m'}, step a m = some m' → Reachable step' (f m) (f m')) :
    Reachable step' (f s₀) (f s) := by
  induction h with
  | init => exact .init
  | step a _ ha ih => exact ih.trans (hstep ha)

/-- A simulation: each step of the first machine is matched by a run of the
second that keeps the relation. -/
theorem exec_simulation {step' : β → τ → Option τ} {R : σ → τ → Prop} {f : α → List β}
    (hstep : ∀ {a m m' t}, R m t → step a m = some m' →
      ∃ t', exec step' t (f a) = some t' ∧ R m' t')
    {as : List α} {t : τ} (hR : R s t) (h : exec step s as = some s') :
    ∃ t', exec step' t (as.flatMap f) = some t' ∧ R s' t' := by
  induction as generalizing s t with
  | nil =>
      cases h
      exact ⟨t, rfl, hR⟩
  | cons a rest ih =>
      obtain ⟨m, ha, hrest⟩ := exec_cons_cases h
      obtain ⟨u, hu, hRm⟩ := hstep hR ha
      obtain ⟨t', ht', hR'⟩ := ih hRm hrest
      refine ⟨t', ?_, hR'⟩
      rw [List.flatMap_cons, exec_append, hu]
      exact ht'

/-- Two machines on one schedule. -/
theorem exec_lockstep {step' : α → τ → Option τ} {R : σ → τ → Prop}
    (hstep : ∀ {a m m' t}, R m t → step a m = some m' →
      ∃ t', step' a t = some t' ∧ R m' t')
    {as : List α} {t : τ} (hR : R s t) (h : exec step s as = some s') :
    ∃ t', exec step' t as = some t' ∧ R s' t' := by
  have hone : as.flatMap (fun a => [a]) = as := List.flatMap_singleton' as
  rw [← hone]
  refine exec_simulation (fun hm ha => ?_) hR h
  obtain ⟨t', ht', hR'⟩ := hstep hm ha
  exact ⟨t', exec_cons ht', hR'⟩

/-- The projection of a run, action by action: each step is at most one
step of a second machine. -/
theorem exec_filterMap {step' : β → τ → Option τ} {f : σ → τ} {g : α → Option β}
    (hstep : ∀ {a m m'}, step a m = some m' →
      exec step' (f m) (g a).toList = some (f m'))
    {as : List α} (h : exec step s as = some s') :
    exec step' (f s) (as.filterMap g) = some (f s') := by
  induction as generalizing s with
  | nil =>
      cases h
      rfl
  | cons a rest ih =>
      obtain ⟨m, ha, hrest⟩ := exec_cons_cases h
      have hrun := hstep ha
      cases hg : g a with
      | none =>
          rw [hg] at hrun
          rw [List.filterMap_cons_none hg, Option.some.inj hrun]
          exact ih hrest
      | some b =>
          rw [hg] at hrun
          obtain ⟨t, hb, ht⟩ := exec_cons_cases hrun
          cases ht
          rw [List.filterMap_cons_some hg, exec_cons hb]
          exact ih hrest

-- ============================================== conditions along a run

/-- `s` is one of the states the run passes through, its ends
included. -/
def Visits (step : α → σ → Option σ) (s₀ : σ) (as : List α) (s : σ) : Prop :=
  ∃ pre, pre <+: as ∧ exec step s₀ pre = some s

/-- The run takes action `a` from state `s`. -/
def Takes (step : α → σ → Option σ) (s₀ : σ) (as : List α) (a : α) (s : σ) :
    Prop :=
  ∃ pre, pre ++ [a] <+: as ∧ exec step s₀ pre = some s

/-- A visited state is reachable. -/
theorem Visits.reachable {as : List α} (h : Visits step s₀ as s) :
    Reachable step s₀ s := by
  obtain ⟨_, -, hexec⟩ := h
  exact reachable_of_exec hexec

/-- Every run visits its start. -/
theorem visits_start (as : List α) : Visits step s₀ as s₀ :=
  ⟨[], List.nil_prefix, rfl⟩

/-- A run that completes visits its end. -/
theorem visits_end {as : List α} (h : exec step s₀ as = some s) :
    Visits step s₀ as s :=
  ⟨as, List.prefix_rfl, h⟩

/-- What the rest of a run visits, the whole run visits. -/
theorem Visits.append {as bs : List α} (hs : exec step s₀ as = some s)
    (h : Visits step s bs s') : Visits step s₀ (as ++ bs) s' := by
  obtain ⟨pre, hpre, hexec⟩ := h
  refine ⟨as ++ pre, (List.prefix_append_right_inj as).mpr hpre, ?_⟩
  rw [exec_append, hs]
  exact hexec

/-- A taken step leaves from a visited state. -/
theorem Takes.visits {as : List α} {a : α} (h : Takes step s₀ as a s) :
    Visits step s₀ as s := by
  obtain ⟨pre, hpre, hexec⟩ := h
  exact ⟨pre, (List.prefix_append pre [a]).trans hpre, hexec⟩

/-- A taken step that succeeds lands in a visited state. -/
theorem Takes.visits_next {as : List α} {a : α} (h : Takes step s₀ as a s)
    (ha : step a s = some s') : Visits step s₀ as s' := by
  obtain ⟨pre, hpre, hexec⟩ := h
  refine ⟨pre ++ [a], hpre, ?_⟩
  rw [exec_snoc, hexec]
  exact ha

/-- In a run that completes, every taken step succeeds. -/
theorem Takes.enabled {as : List α} {a : α} {t : σ}
    (hrun : exec step s₀ as = some t) (h : Takes step s₀ as a s) :
    ∃ s', step a s = some s' := by
  obtain ⟨pre, ⟨post, rfl⟩, hexec⟩ := h
  rw [exec_append, exec_snoc, hexec] at hrun
  obtain ⟨s', hs', -⟩ := Option.bind_eq_some_iff.mp hrun
  exact ⟨s', hs'⟩

/-- What a run takes, read off its action list. -/
theorem forall_takes_cons {P : α → σ → Prop} {a : α} {rest : List α}
    (h : step a s₀ = some s) :
    (∀ b m, Takes step s₀ (a :: rest) b m → P b m) ↔
      P a s₀ ∧ ∀ b m, Takes step s rest b m → P b m := by
  constructor
  · intro hall
    refine ⟨hall a s₀ ⟨[], by simp, rfl⟩, ?_⟩
    intro b m hex
    obtain ⟨pre, hpre, hexec⟩ := hex
    refine hall b m ⟨a :: pre, List.cons_prefix_cons.mpr ⟨rfl, hpre⟩, ?_⟩
    rw [exec_cons h]
    exact hexec
  · intro hboth b m hex
    obtain ⟨ha, hrest⟩ := hboth
    obtain ⟨pre, hpre, hexec⟩ := hex
    cases pre with
    | nil =>
        obtain ⟨rfl, -⟩ := List.cons_prefix_cons.mp hpre
        cases hexec
        exact ha
    | cons c pre =>
        obtain ⟨rfl, htail⟩ := List.cons_prefix_cons.mp hpre
        rw [exec_cons h] at hexec
        exact hrest b m ⟨pre, htail, hexec⟩

/-- A run of no actions takes no step. -/
theorem forall_takes_nil {P : α → σ → Prop} :
    ∀ b m, Takes step s₀ [] b m → P b m := by
  intro b m hex
  obtain ⟨pre, hpre, -⟩ := hex
  exact absurd (List.prefix_nil.mp hpre) (List.append_ne_nil_of_right_ne_nil _ nofun)

/-- The conditional invariant rule: along a run whose steps all meet
`ok`, what holds at the start and survives every `ok` step holds in
every visited state. -/
theorem visits_of_takes {P : σ → Prop} {ok : α → σ → Prop} {as : List α}
    (hinit : P s₀)
    (hstep : ∀ {a m m'}, P m → ok a m → step a m = some m' → P m')
    (hok : ∀ a m, Takes step s₀ as a m → ok a m) :
    ∀ s, Visits step s₀ as s → P s := by
  intro s hex
  obtain ⟨pre, hpre, hexec⟩ := hex
  induction pre using List.reverseRecOn generalizing s with
  | nil =>
      cases hexec
      exact hinit
  | append_singleton pre a ih =>
      rw [exec_snoc] at hexec
      obtain ⟨m, hm, ha⟩ := Option.bind_eq_some_iff.mp hexec
      have hm' : P m := ih m ((List.prefix_append pre [a]).trans hpre) hm
      exact hstep hm' (hok a m ⟨pre, hpre, hm⟩) ha

/-- The test passes at every step of the run, up to its first disabled
one. -/
def checks (step : α → σ → Option σ) (p : α → σ → Bool) (s : σ) : List α → Bool
  | [] => true
  | a :: rest =>
      p a s && match step a s with
        | some s' => checks step p s' rest
        | none => true

/-- A condition on what a run takes can be tested along it. -/
theorem takes_of_checks {p : α → σ → Bool} {as : List α}
    (h : checks step p s₀ as = true) : ∀ a s, Takes step s₀ as a s → p a s = true := by
  induction as generalizing s₀ with
  | nil => exact forall_takes_nil
  | cons b rest ih =>
      intro a s htakes
      obtain ⟨hb, hrest⟩ := Bool.and_eq_true_iff.mp h
      cases hstep : step b s₀ with
      | some m =>
          rw [hstep] at hrest
          exact (forall_takes_cons (P := fun a s => p a s = true) hstep).mpr
            ⟨hb, ih hrest⟩ a s htakes
      | none =>
          -- only the disabled step itself is taken
          obtain ⟨pre, hpre, hexec⟩ := htakes
          cases pre with
          | nil =>
              obtain ⟨rfl, -⟩ := List.cons_prefix_cons.mp hpre
              cases hexec
              exact hb
          | cons c pre =>
              obtain ⟨rfl, -⟩ := List.cons_prefix_cons.mp hpre
              rw [exec, hstep] at hexec
              cases hexec

/-- A condition that is at issue in one step of the run only, its `n`th. -/
theorem takes_of_only {P : α → σ → Prop} {as : List α} {a : α} (n : Nat)
    (hn : as[n]? = some a) (hs : exec step s₀ (as.take n) = some s) (ha : P a s)
    (hothers : ∀ b ∈ as.eraseIdx n, ∀ m, P b m) :
    ∀ b m, Takes step s₀ as b m → P b m := by
  induction n generalizing as s₀ with
  | zero =>
      rintro b m ⟨pre, hpre, hexec⟩
      cases as with
      | nil => cases hn
      | cons c rest =>
          cases hn
          cases hs
          cases pre with
          | nil =>
              obtain ⟨rfl, -⟩ := List.cons_prefix_cons.mp hpre
              cases hexec
              exact ha
          | cons d pre =>
              obtain ⟨-, hpre⟩ := List.cons_prefix_cons.mp hpre
              exact hothers b (hpre.subset (List.mem_append_right _ List.mem_cons_self)) m
  | succ n ih =>
      cases as with
      | nil => cases hn
      | cons c rest =>
          obtain ⟨s', hstep, hrest⟩ := exec_cons_cases hs
          exact (forall_takes_cons hstep).mpr ⟨hothers c List.mem_cons_self s₀,
            ih hn hrest fun b hb => hothers b (List.mem_cons_of_mem _ hb)⟩

/-- What a run takes is on its action list. -/
theorem Takes.mem {as : List α} {a : α} (h : Takes step s₀ as a s) : a ∈ as := by
  obtain ⟨pre, hpre, -⟩ := h
  exact hpre.subset (List.mem_append_right _ (List.mem_singleton_self a))

/-- A longer run takes what a shorter one takes. -/
theorem Takes.mono {as bs : List α} {a : α} (h : Takes step s₀ as a s)
    (hle : as <+: bs) : Takes step s₀ bs a s := by
  obtain ⟨pre, hpre, hexec⟩ := h
  exact ⟨pre, hpre.trans hle, hexec⟩

/-- One more step is one more thing taken. -/
theorem takes_snoc_iff {as : List α} {a b : α} {m : σ} :
    Takes step s₀ (as ++ [a]) b m ↔
      Takes step s₀ as b m ∨ (b = a ∧ exec step s₀ as = some m) := by
  constructor
  · intro h
    obtain ⟨pre, hpre, hexec⟩ := h
    rcases List.prefix_concat_iff.mp hpre with heq | hpre
    · obtain ⟨rfl, hb⟩ := List.append_inj' heq rfl
      exact Or.inr ⟨(List.cons.inj hb).1, hexec⟩
    · exact Or.inl ⟨pre, hpre, hexec⟩
  · intro h
    rcases h with ⟨pre, hpre, hexec⟩ | ⟨rfl, hexec⟩
    · exact ⟨pre, hpre.trans (List.prefix_append as [a]), hexec⟩
    · exact ⟨as, List.prefix_rfl, hexec⟩

/-- The invariant rule for what is said of a run and its end together:
each step may use how the run got to where it leaves from. -/
theorem exec_invariant {P : List α → σ → Prop} (hinit : P [] s₀)
    (hstep : ∀ {as a m m'}, exec step s₀ as = some m → P as m →
      step a m = some m' → P (as ++ [a]) m')
    {as : List α} (hrun : exec step s₀ as = some s) : P as s := by
  induction as using List.reverseRecOn generalizing s with
  | nil =>
      cases hrun
      exact hinit
  | append_singleton as a ih =>
      rw [exec_snoc] at hrun
      obtain ⟨m, hm, ha⟩ := Option.bind_eq_some_iff.mp hrun
      exact hstep hm (ih hm) ha

/-- Its conditional form. -/
theorem exec_of_takes {P : List α → σ → Prop} {ok : α → σ → Prop} (hinit : P [] s₀)
    (hstep : ∀ {as a m m'}, exec step s₀ as = some m → P as m → ok a m →
      step a m = some m' → P (as ++ [a]) m')
    {as : List α} (hok : ∀ a m, Takes step s₀ as a m → ok a m)
    (hrun : exec step s₀ as = some s) : P as s := by
  refine exec_invariant (P := fun as s => (∀ a m, Takes step s₀ as a m → ok a m) → P as s)
    (fun _ => hinit) ?_ hrun hok
  intro as a m m' hm hi ha hall
  refine hstep hm (hi fun b n htake => hall b n ?_) (hall a m ?_) ha
  · exact takes_snoc_iff.mpr (Or.inl htake)
  · exact takes_snoc_iff.mpr (Or.inr ⟨rfl, hm⟩)

/-- The exact form, for runs over the actions `D` admits: when, under an
unconditional invariant `I`, `ok` decides step by step whether `P`
survives, a completed run keeps `P` throughout iff every step it takes
meets `ok`. -/
theorem visits_iff_takes_of {P I : σ → Prop} {ok : α → σ → Prop} {D : α → Prop}
    {as : List α} {t : σ} (hrun : exec step s₀ as = some t) (hD : ∀ a ∈ as, D a)
    (hinit : P s₀) (hI₀ : I s₀)
    (hI : ∀ {a m m'}, I m → step a m = some m' → I m')
    (hstep : ∀ {a m m'}, D a → I m → P m → step a m = some m' → (P m' ↔ ok a m)) :
    (∀ s, Visits step s₀ as s → P s) ↔
      ∀ a m, Takes step s₀ as a m → ok a m := by
  constructor
  · intro hP a m htake
    obtain ⟨m', hm'⟩ := htake.enabled hrun
    have hIm : I m := htake.visits.reachable.invariant hI₀ hI
    exact (hstep (hD a htake.mem) hIm (hP m htake.visits) hm').mp
      (hP m' (htake.visits_next hm'))
  · intro hok s hs
    have hkeep : ∀ {a m m'}, I m ∧ P m → D a ∧ ok a m → step a m = some m' →
        I m' ∧ P m' := fun hm hoka ha =>
      ⟨hI hm.1 ha, (hstep hoka.1 hm.1 hm.2 ha).mpr hoka.2⟩
    have hboth := visits_of_takes ⟨hI₀, hinit⟩ hkeep
      (fun a m htake => ⟨hD a htake.mem, hok a m htake⟩) s hs
    exact hboth.2

/-- The exact form for all runs. -/
theorem visits_iff_takes {P I : σ → Prop} {ok : α → σ → Prop} {as : List α}
    {t : σ} (hrun : exec step s₀ as = some t) (hinit : P s₀) (hI₀ : I s₀)
    (hI : ∀ {a m m'}, I m → step a m = some m' → I m')
    (hstep : ∀ {a m m'}, I m → P m → step a m = some m' → (P m' ↔ ok a m)) :
    (∀ s, Visits step s₀ as s → P s) ↔
      ∀ a m, Takes step s₀ as a m → ok a m :=
  visits_iff_takes_of (D := fun _ => True) hrun (fun _ _ => trivial) hinit hI₀ hI
    fun _ => hstep

-- ============================================ what has happened since

/-- The last step of the run that `p` picks is `a`, taken from `s` once
`pre` was run. -/
def Last (step : α → σ → Option σ) (p : α → σ → Prop) (s₀ : σ) (as pre : List α) (a : α)
    (s : σ) : Prop :=
  ∃ post s', as = pre ++ a :: post ∧ exec step s₀ pre = some s ∧ step a s = some s'
    ∧ p a s ∧ ∀ b m, Takes step s' post b m → ¬ p b m

/-- The run takes `a` from `s`, and in every state after that `P` holds. -/
def Since (step : α → σ → Option σ) (P : σ → Prop) (s₀ : σ) (as : List α) (a : α) (s : σ) :
    Prop :=
  ∃ pre post s', as = pre ++ a :: post ∧ exec step s₀ pre = some s ∧ step a s = some s'
    ∧ ∀ m, Visits step s' post m → P m

/-- The last step picked is a step of the run. -/
theorem Last.takes {p : α → σ → Prop} {as pre : List α} {a : α}
    (h : Last step p s₀ as pre a s) : Takes step s₀ as a s := by
  obtain ⟨post, -, rfl, hpre, -⟩ := h
  exact ⟨pre, ⟨post, List.append_assoc pre [a] post⟩, hpre⟩

/-- The step something has held since is a step of the run. -/
theorem Since.takes {P : σ → Prop} {as : List α} {a : α} (h : Since step P s₀ as a s) :
    Takes step s₀ as a s := by
  obtain ⟨pre, post, -, rfl, hpre, -⟩ := h
  exact ⟨pre, ⟨post, List.append_assoc pre [a] post⟩, hpre⟩

/-- A step that is picked is the last one so far. -/
theorem last_snoc {p : α → σ → Prop} {as : List α} {a : α}
    (hs : exec step s₀ as = some s) (ha : step a s = some s') (hp : p a s) :
    Last step p s₀ (as ++ [a]) as a s :=
  ⟨[], s', rfl, hs, ha, hp, forall_takes_nil⟩

/-- A step that is not picked leaves the last one the last. -/
theorem Last.snoc {p : α → σ → Prop} {as pre : List α} {a b : α} {m : σ}
    (h : Last step p s₀ as pre b m) (hs : exec step s₀ as = some s) (hp : ¬ p a s) :
    Last step p s₀ (as ++ [a]) pre b m := by
  obtain ⟨post, m', rfl, hpre, hb, hpb, hrest⟩ := h
  refine ⟨post ++ [a], m', by simp, hpre, hb, hpb, fun c n hc => ?_⟩
  rcases takes_snoc_iff.mp hc with hc | ⟨rfl, hn⟩
  · exact hrest c n hc
  · rw [exec_append, hpre, Option.bind_some, exec_cons hb, hn] at hs
    cases hs
    exact hp

/-- What holds after a step holds since that step. -/
theorem since_snoc {P : σ → Prop} {as : List α} {a : α}
    (hs : exec step s₀ as = some s) (ha : step a s = some s') (hP : P s') :
    Since step P s₀ (as ++ [a]) a s := by
  refine ⟨as, [], s', rfl, hs, ha, fun m hm => ?_⟩
  obtain ⟨pre, hpre, hexec⟩ := hm
  cases List.prefix_nil.mp hpre
  cases hexec
  exact hP

/-- A step that keeps `P` adds a state to those where it holds. -/
theorem Since.snoc {P : σ → Prop} {as : List α} {a b : α} {m : σ}
    (h : Since step P s₀ as b m) (hs : exec step s₀ as = some s) (ha : step a s = some s')
    (hP : P s') : Since step P s₀ (as ++ [a]) b m := by
  obtain ⟨pre, post, m', rfl, hpre, hb, hrest⟩ := h
  refine ⟨pre, post ++ [a], m', by simp, hpre, hb, fun n hn => ?_⟩
  obtain ⟨mid, hmid, hexec⟩ := hn
  rcases List.prefix_concat_iff.mp hmid with rfl | hmid
  · rw [exec_append, hpre, Option.bind_some, exec_cons hb] at hs
    rw [exec_snoc, hs, Option.bind_some, ha] at hexec
    cases hexec
    exact hP
  · exact hrest n ⟨mid, hmid, hexec⟩

-- ============================================================= counting

/-- What the actions of a run carry, one action at a time. -/
theorem toList_append_filterMap (f : α → Option β) (a : α) (rest : List α) :
    (f a).toList ++ rest.filterMap f = (a :: rest).filterMap f := by
  cases ha : f a with
  | none => rw [List.filterMap_cons_none ha]; rfl
  | some b => rw [List.filterMap_cons_some ha]; rfl

/-- How many steps the run takes that `p` picks. -/
def tally (step : α → σ → Option σ) (p : α → σ → Bool) (s : σ) : List α → Nat
  | [] => 0
  | a :: rest =>
      match step a s with
      | some s' => (p a s).toNat + tally step p s' rest
      | none => 0

/-- The tally counts step by step. -/
theorem tally_cons {p : α → σ → Bool} {a : α} {rest : List α}
    (h : step a s = some s') :
    tally step p s (a :: rest) = (p a s).toNat + tally step p s' rest := by
  rw [tally, h]

/-- A flag that never drops and rises exactly in the steps `p` picks
rises at most once: the run takes one such step if the flag is up at the
end and was not at the start, and none otherwise. -/
theorem tally_flag {p : α → σ → Bool} (flag : σ → Bool)
    (hstep : ∀ {a m m'}, step a m = some m' →
      (p a m = (!flag m && flag m')) ∧ (flag m = true → flag m' = true))
    {as : List α} (hrun : exec step s₀ as = some s) :
    tally step p s₀ as = (!flag s₀ && flag s).toNat
      ∧ (flag s₀ = true → flag s = true) := by
  induction as generalizing s₀ with
  | nil =>
      cases hrun
      refine ⟨?_, id⟩
      cases flag s <;> rfl
  | cons a rest ih =>
      obtain ⟨m, hm, hrun⟩ := exec_cons_cases hrun
      obtain ⟨hpick, hup⟩ := hstep hm
      obtain ⟨hrest, hlast⟩ := ih hrun
      refine ⟨?_, hlast ∘ hup⟩
      rw [tally_cons hm, hrest, hpick]
      cases h₀ : flag s₀ with
      | true =>
          rw [hup h₀]
          rfl
      | false =>
          cases h₁ : flag m with
          | true =>
              rw [hlast h₁]
              rfl
          | false => exact Nat.zero_add _

end Transition
