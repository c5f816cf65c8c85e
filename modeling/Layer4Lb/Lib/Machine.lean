import Mathlib.Data.Option.Basic

/-!
# State machines with partial steps

A machine is a predicate of initial states and a partial step function indexed
by labels: `step s a = none` means that `a` cannot be taken from `s` (the
action is not enabled, or the process stops there).  A run is a list of
labels, and the reachable states are those some run reaches from an initial
state.  Safety properties are proved once, by `Reachable.rec_inv`, from a
predicate that holds initially and that every enabled step preserves.
-/

universe u v

/-- A state machine over states `σ` and labels `α`. -/
structure Machine (σ : Type u) (α : Type v) where
  /-- The states a run may start from. -/
  init : σ → Prop
  /-- One step; `none` when the label is not enabled. -/
  step : σ → α → Option σ

namespace Machine

variable {σ : Type u} {α : Type v}

/-- Take the steps of a list of labels in order, failing at the first one that
is not enabled. -/
def exec (step : σ → α → Option σ) : σ → List α → Option σ
  | s, [] => some s
  | s, a :: as => (step s a).bind fun s' => exec step s' as

@[simp] theorem exec_nil (step : σ → α → Option σ) (s : σ) : exec step s [] = some s := rfl

@[simp] theorem exec_cons (step : σ → α → Option σ) (s : σ) (a : α) (as : List α) :
    exec step s (a :: as) = (step s a).bind fun s' => exec step s' as := rfl

theorem exec_append (step : σ → α → Option σ) (s : σ) (as bs : List α) :
    exec step s (as ++ bs) = (exec step s as).bind fun s' => exec step s' bs := by
  induction as generalizing s with
  | nil => rfl
  | cons a as ih =>
    simp only [List.cons_append, exec_cons, ih]
    cases step s a <;> rfl

/-- The inversion of a run that starts with a step. -/
theorem exec_cons_eq_some {step : σ → α → Option σ} {s s' : σ} {a : α} {as : List α}
    (he : exec step s (a :: as) = some s') : ∃ s₁, step s a = some s₁ ∧ exec step s₁ as = some s' :=
  Option.bind_eq_some_iff.1 he

/-- A run that is enabled ends in the state it gives, whatever the default. -/
theorem exec_eq_some_getD {step : σ → α → Option σ} {s : σ} {as : List α} (d : σ)
    (h : (exec step s as).isSome) : exec step s as = some ((exec step s as).getD d) := by
  obtain ⟨s', hs'⟩ := Option.isSome_iff_exists.1 h
  rw [hs']
  rfl

/-- A predicate that every enabled step preserves holds at the end of a run
from a state where it holds. -/
theorem exec_preserves {step : σ → α → Option σ} {P : σ → Prop}
    (hstep : ∀ s a s', P s → step s a = some s' → P s') :
    ∀ {s s' : σ} {as : List α}, P s → exec step s as = some s' → P s' := by
  intro s s' as hs he
  induction as generalizing s with
  | nil =>
    rw [exec_nil, Option.some.injEq] at he
    exact he ▸ hs
  | cons a as ih =>
    rw [exec_cons] at he
    cases h : step s a with
    | none => rw [h] at he; cases he
    | some s₁ =>
      rw [h, Option.bind_some] at he
      exact ih (hstep s a s₁ hs h) he

/-- A log that each enabled step extends by what its label writes, while a
predicate that the steps preserve holds: a run extends it by what its labels
write, in order. -/
theorem exec_log {β : Type*} {step : σ → α → Option σ} (P : σ → Prop) (log : σ → List β)
    (write : α → List β) (hstep : ∀ s a s', P s → step s a = some s' → P s' ∧ log s' = log s ++ write a) :
    ∀ {s s' : σ} {as : List α}, P s → exec step s as = some s' → log s' = log s ++ as.flatMap write := by
  intro s s' as hs he
  induction as generalizing s with
  | nil =>
    rw [exec_nil, Option.some.injEq] at he
    rw [he, List.flatMap_nil, List.append_nil]
  | cons a as ih =>
    rw [exec_cons] at he
    cases h : step s a with
    | none => rw [h] at he; cases he
    | some s₁ =>
      rw [h, Option.bind_some] at he
      obtain ⟨hs₁, hlog⟩ := hstep s a s₁ hs h
      rw [ih hs₁ he, hlog, List.flatMap_cons, List.append_assoc]

/-- What the steps of a run show, in order: `obs s a s'` for the step from `s` by
`a` to `s'`.  The trace ends at the first label that is not enabled. -/
def trace {β : Type*} (step : σ → α → Option σ) (obs : σ → α → σ → List β) : σ → List α → List β
  | _, [] => []
  | s, a :: as =>
    match step s a with
    | none => []
    | some s' => obs s a s' ++ trace step obs s' as

theorem trace_cons_of_step {β : Type*} {step : σ → α → Option σ} (obs : σ → α → σ → List β)
    {s s' : σ} {a : α} (h : step s a = some s') (as : List α) :
    trace step obs s (a :: as) = obs s a s' ++ trace step obs s' as := by
  rw [trace, h]

/-- The states a run passes through, one after each of its steps. -/
def states (step : σ → α → Option σ) : σ → List α → List σ :=
  trace step fun _ _ s' => [s']

/-- A predicate that every step preserves into a state meeting a side condition
holds at the end of a run all of whose states meet it. -/
theorem exec_preserves_along {step : σ → α → Option σ} {P B : σ → Prop}
    (hstep : ∀ s a s', P s → step s a = some s' → B s' → P s') :
    ∀ {s s' : σ} {as : List α}, P s → (∀ x ∈ states step s as, B x) → exec step s as = some s' →
      P s' := by
  intro s s' as hs hB he
  induction as generalizing s with
  | nil =>
    rw [exec_nil, Option.some.injEq] at he
    exact he ▸ hs
  | cons a as ih =>
    obtain ⟨s₁, h, he⟩ := exec_cons_eq_some he
    rw [states, trace_cons_of_step _ h] at hB
    have hB₁ : B s₁ := hB s₁ (List.mem_append_left _ (List.mem_singleton_self s₁))
    exact ih (hstep s a s₁ hs h hB₁) (fun x hx => hB x (List.mem_append_right _ hx)) he

/-- The trace of two runs one after the other. -/
theorem trace_append {β : Type*} {step : σ → α → Option σ} (obs : σ → α → σ → List β) :
    ∀ {s s₁ : σ} {as : List α}, exec step s as = some s₁ → ∀ bs,
      trace step obs s (as ++ bs) = trace step obs s as ++ trace step obs s₁ bs := by
  intro s s₁ as he bs
  induction as generalizing s with
  | nil =>
    rw [exec_nil, Option.some.injEq] at he
    rw [he]
    rfl
  | cons a as ih =>
    obtain ⟨s₂, h, he⟩ := exec_cons_eq_some he
    rw [List.cons_append, trace_cons_of_step obs h, trace_cons_of_step obs h, ih he, List.append_assoc]

/-- A run of labels that show nothing shows nothing. -/
theorem trace_eq_nil {β : Type*} {step : σ → α → Option σ} {obs : σ → α → σ → List β}
    {as : List α} (h : ∀ s a s', a ∈ as → obs s a s' = []) (s : σ) : trace step obs s as = [] := by
  induction as generalizing s with
  | nil => rfl
  | cons a as ih =>
    cases hs : step s a with
    | none => rw [trace, hs]
    | some s₁ =>
      rw [trace_cons_of_step obs hs, h s a s₁ List.mem_cons_self,
        ih (fun s b s' hb => h s b s' (List.mem_cons_of_mem a hb)) s₁]
      rfl

/-- The labels a run takes, as a trace, are the run itself. -/
theorem trace_eq_filterMap {γ : Type*} {step : σ → α → Option σ} (g : α → Option γ) :
    ∀ {s s' : σ} {as : List α}, exec step s as = some s' →
      trace step (fun _ a _ => (g a).toList) s as = as.filterMap g := by
  intro s s' as he
  induction as generalizing s with
  | nil => rfl
  | cons a as ih =>
    obtain ⟨s₁, h, he⟩ := exec_cons_eq_some he
    rw [trace_cons_of_step _ h, ih he]
    cases hg : g a with
    | none => rw [List.filterMap_cons_none hg, Option.toList_none, List.nil_append]
    | some c => rw [List.filterMap_cons_some hg, Option.toList_some, List.singleton_append]

/-- What a run shows, filtered by `f`, is a sublist of what `h` reads of its
labels, when each step shows, so filtered, at most what `h` reads of its own. -/
theorem filterMap_trace_sublist {β δ : Type*} {step : σ → α → Option σ}
    {obs : σ → α → σ → List β} (f : β → Option δ) (h : α → Option δ)
    (hobs : ∀ s a s', step s a = some s' → List.Sublist ((obs s a s').filterMap f) (h a).toList) :
    ∀ (s : σ) (as : List α), List.Sublist ((trace step obs s as).filterMap f) (as.filterMap h) := by
  intro s as
  induction as generalizing s with
  | nil => exact List.Sublist.slnil
  | cons a as ih =>
    cases hs : step s a with
    | none =>
      rw [trace, hs]
      exact List.nil_sublist _
    | some s₁ =>
      rw [trace_cons_of_step _ hs, List.filterMap_append]
      have hcons : (a :: as).filterMap h = (h a).toList ++ as.filterMap h := by
        cases hh : h a with
        | none => rw [List.filterMap_cons_none hh]; rfl
        | some d => rw [List.filterMap_cons_some hh]; rfl
      rw [hcons]
      exact (hobs s a s₁ hs).append (ih s₁)

/-- Inputs read off the steps of a run that each come with a label `h` reads
too: what they show of themselves is a sublist of what `h` reads of the run. -/
theorem map_trace_sublist {γ δ : Type*} {step : σ → α → Option σ} (g : σ → α → Option γ)
    (k : γ → δ) (h : α → Option δ) (hg : ∀ s a c, g s a = some c → h a = some (k c)) :
    ∀ (s : σ) (as : List α),
      List.Sublist ((trace step (fun s a _ => (g s a).toList) s as).map k) (as.filterMap h) := by
  intro s as
  rw [← List.filterMap_eq_map]
  refine filterMap_trace_sublist _ h (fun s a _ _ => ?_) s as
  cases hc : g s a with
  | none => exact List.nil_sublist _
  | some c =>
    rw [hg s a c hc]
    exact List.Sublist.refl _

/-- A trace read off a Mealy machine.  While an invariant `P` holds, each step
hands the Mealy machine `out` at most one input, `g s a`; when it hands one, the
part `f` of the state moves as `out` consumes it, with the step's observations as
the output, and when it hands none, the step shows nothing and leaves that part
alone.  Then the trace of a whole run is the output of `out` on the inputs the
run hands it. -/
theorem trace_eq_of_project {β γ ρ : Type*} {step : σ → α → Option σ} {obs : σ → α → σ → List β}
    (P : σ → Prop) (hP : ∀ s a s', P s → step s a = some s' → P s')
    (f : σ → ρ) (g : σ → α → Option γ) (out : ρ → List γ → List β) (hnil : ∀ r, out r [] = [])
    (hnone : ∀ s a s', P s → step s a = some s' → g s a = none → obs s a s' = [] ∧ f s' = f s)
    (hsome : ∀ s a s' c, P s → step s a = some s' → g s a = some c →
      ∀ cs, obs s a s' ++ out (f s') cs = out (f s) (c :: cs)) :
    ∀ {s s' : σ} {as : List α}, P s → exec step s as = some s' →
      trace step obs s as = out (f s) (trace step (fun s a _ => (g s a).toList) s as) := by
  intro s s' as hs he
  induction as generalizing s with
  | nil => exact (hnil _).symm
  | cons a as ih =>
    obtain ⟨s₁, h, he⟩ := exec_cons_eq_some he
    rw [trace_cons_of_step obs h, trace_cons_of_step _ h, ih (hP s a s₁ hs h) he]
    cases hg : g s a with
    | none =>
      obtain ⟨ho, hf⟩ := hnone s a s₁ hs h hg
      rw [ho, hf, Option.toList_none, List.nil_append, List.nil_append]
    | some c => rw [Option.toList_some, List.singleton_append, hsome s a s₁ c hs h hg]

/-- Simulation under a projection: when every step from a state related to
another is matched by a run of the labels `proj` gives it (none for a step the
other machine does not see), to related states, every run is matched by the
run of the labels its steps give, in order. -/
theorem exec_project {τ β : Type*} {step : σ → α → Option σ} {step' : τ → β → Option τ}
    (R : σ → τ → Prop) (proj : σ → α → List β)
    (hR : ∀ s t a s', R s t → step s a = some s' → ∃ t', exec step' t (proj s a) = some t' ∧ R s' t') :
    ∀ {s : σ} {t : τ} {s' : σ} {as : List α}, R s t → exec step s as = some s' →
      ∃ t', exec step' t (trace step (fun s a _ => proj s a) s as) = some t' ∧ R s' t' := by
  intro s t s' as hst he
  induction as generalizing s t with
  | nil =>
    rw [exec_nil, Option.some.injEq] at he
    exact ⟨t, rfl, he ▸ hst⟩
  | cons a as ih =>
    obtain ⟨s₁, h, he⟩ := exec_cons_eq_some he
    obtain ⟨t₁, ht₁, hst₁⟩ := hR s t a s₁ hst h
    obtain ⟨t', ht', hst'⟩ := ih hst₁ he
    exact ⟨t', by rw [trace_cons_of_step _ h, exec_append, ht₁, Option.bind_some, ht'], hst'⟩

/-- What a run shows under a projection: when each step shows what the run of
its labels shows, a whole run shows what the run of all its labels shows. -/
theorem trace_project {τ β γ : Type*} {step : σ → α → Option σ} {step' : τ → β → Option τ}
    (R : σ → τ → Prop) (proj : σ → α → List β) (obs : σ → α → σ → List γ)
    (obs' : τ → β → τ → List γ)
    (hR : ∀ s t a s', R s t → step s a = some s' → ∃ t', exec step' t (proj s a) = some t' ∧
      R s' t' ∧ obs s a s' = trace step' obs' t (proj s a)) :
    ∀ {s : σ} {t : τ} {s' : σ} {as : List α}, R s t → exec step s as = some s' →
      trace step obs s as = trace step' obs' t (trace step (fun s a _ => proj s a) s as) := by
  intro s t s' as hst he
  induction as generalizing s t with
  | nil => rfl
  | cons a as ih =>
    obtain ⟨s₁, h, he⟩ := exec_cons_eq_some he
    obtain ⟨t₁, ht₁, hst₁, hobs⟩ := hR s t a s₁ hst h
    rw [trace_cons_of_step obs h, trace_cons_of_step _ h, trace_append obs' ht₁, hobs, ih hst₁ he]

/-- Lockstep simulation: when every step from a state related to another is
matched by the same step from it, to related states, so is every run. -/
theorem exec_lockstep {τ : Type*} {step : σ → α → Option σ} {step' : τ → α → Option τ}
    (R : σ → τ → Prop) (hR : ∀ s t a s', R s t → step s a = some s' → ∃ t', step' t a = some t' ∧ R s' t') :
    ∀ {s : σ} {t : τ} {s' : σ} {as : List α}, R s t → exec step s as = some s' →
      ∃ t', exec step' t as = some t' ∧ R s' t' := by
  intro s t s' as hst he
  have hR' : ∀ s t a s', R s t → step s a = some s' → ∃ t', exec step' t [a] = some t' ∧ R s' t' := by
    intro s t a s' hst h
    obtain ⟨t', ht', hst'⟩ := hR s t a s' hst h
    exact ⟨t', by rw [exec_cons, ht', Option.bind_some, exec_nil], hst'⟩
  -- each step is its own label
  have hlabels : trace step (fun _ a _ => [a]) s as = as :=
    (trace_eq_filterMap some he).trans List.filterMap_some
  obtain ⟨t', ht', hst'⟩ := exec_project R (fun _ a => [a]) hR' hst he
  exact ⟨t', hlabels ▸ ht', hst'⟩

/-- Progress by a measure: when, from every state where `P` holds and the measure
is positive, some run of labels satisfying `A` reaches a state where `P` still
holds and the measure is smaller, some such run reaches from every state where
`P` holds one where the measure is zero. -/
theorem exists_exec_of_descent {step : σ → α → Option σ} (A : α → Prop) (P : σ → Prop) (μ : σ → Nat)
    (hdesc : ∀ s, P s → 0 < μ s →
      ∃ as s', (∀ a ∈ as, A a) ∧ exec step s as = some s' ∧ P s' ∧ μ s' < μ s) :
    ∀ s, P s → ∃ as s', (∀ a ∈ as, A a) ∧ exec step s as = some s' ∧ P s' ∧ μ s' = 0 := by
  intro s
  induction h : μ s using Nat.strongRecOn generalizing s with
  | _ n ih =>
    intro hs
    rcases Nat.eq_zero_or_pos n with h0 | hpos
    · exact ⟨[], s, (fun _ ha => by cases ha), rfl, hs, h.trans h0⟩
    · -- one descent, then the rest from the smaller measure
      obtain ⟨as, s', hA, he, hs', hlt⟩ := hdesc s hs (h ▸ hpos)
      obtain ⟨bs, s'', hB, he', hs'', h0⟩ := ih (μ s') (h ▸ hlt) s' rfl hs'
      refine ⟨as ++ bs, s'', fun a ha => ?_, by rw [exec_append, he, Option.bind_some, he'], hs'', h0⟩
      rcases List.mem_append.1 ha with ha | ha
      · exact hA a ha
      · exact hB a ha

/-- The states some run reaches from an initial state. -/
inductive Reachable (M : Machine σ α) : σ → Prop
  | init {s : σ} : M.init s → Reachable M s
  | step {s s' : σ} (a : α) : Reachable M s → M.step s a = some s' → Reachable M s'

namespace Reachable

variable {M : Machine σ α}

/-- The induction rule for safety: a predicate that holds of every initial
state and that every enabled step preserves holds of every reachable state. -/
theorem rec_inv {P : σ → Prop} (hinit : ∀ s, M.init s → P s)
    (hstep : ∀ s a s', P s → M.step s a = some s' → P s') {s : σ} (h : Reachable M s) : P s := by
  induction h with
  | init hs => exact hinit _ hs
  | step a _ hs ih => exact hstep _ a _ ih hs

/-- A run from a reachable state ends in a reachable state. -/
theorem exec {s s' : σ} {as : List α} (h : Reachable M s) (he : Machine.exec M.step s as = some s') :
    Reachable M s' := by
  induction as generalizing s with
  | nil =>
    simp only [exec_nil, Option.some.injEq] at he
    exact he ▸ h
  | cons a as ih =>
    simp only [exec_cons] at he
    cases hs : M.step s a with
    | none => simp [hs] at he
    | some s₁ =>
      rw [hs, Option.bind_some] at he
      exact ih (h.step a hs) he

/-- A state reached by a run from an initial state is reachable. -/
theorem of_exec {s s' : σ} {as : List α} (hs : M.init s)
    (he : Machine.exec M.step s as = some s') : Reachable M s' :=
  (init hs).exec he

end Reachable

end Machine
