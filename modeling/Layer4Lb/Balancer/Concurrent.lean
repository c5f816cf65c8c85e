import Layer4Lb.Balancer.Basic

/-!
# Concurrent calls of `next_backend`

`main` spawns a task for every accepted connection, and each task calls
`next_backend`; the calls run concurrently with each other and with the drops of
the guards of finished connections.  A call is not one atomic step: it takes its
start index with one `fetch_add`, then for each slot of its walk loads the
entry's flags and counter, and only later, in another atomic operation,
increments the counter of the entry it chose.  Here each call in flight has a
phase, and a step of the system is one atomic part of one call, or a drop.  The
snapshot is the one of the load balancer: no reload runs.
-/

namespace Layer4Lb

/-- Where a call of `next_backend` in flight is: about to examine slot `i` of
its walk from `start`, or about to increment the counter of the entry `o` it
found eligible. -/
inductive Phase
  | scan (start i : Nat)
  | claim (o : Nat)
  deriving DecidableEq, Repr

/-- The balancer with the calls of `next_backend` in flight. -/
structure ConcurrentWorld where
  world : World
  calls : List Phase

/-- One atomic step of the concurrent system. -/
inductive ConcurrentAction
  /-- A task calls `next_backend`. -/
  | call
  /-- Call `t` loads the flags and the counter of the next slot of its walk. -/
  | examine (t : Nat)
  /-- Call `t` increments the counter of the entry it found below the limit. -/
  | increment (t : Nat)
  /-- The guard `i` is dropped. -/
  | dropGuard (i : Nat)
  deriving DecidableEq, Repr

namespace ConcurrentWorld

variable (w : Nat)

/-- A task calls `next_backend`: on an empty snapshot it returns `None` at once,
else it takes its start index with `fetch_add` and starts its walk. -/
def call (s : ConcurrentWorld) : ConcurrentWorld :=
  if s.world.lb.backends.isEmpty then s
  else ⟨s.world.fetchAddCurrent w, s.calls ++ [.scan s.world.lb.current 0]⟩

/-- Call `t` examines the next slot of its walk.  Past the end of the walk it
returns `None`; an entry that is not draining, is healthy and, with a limit, has
its counter below it, is claimed; any other is skipped. -/
def examine (s : ConcurrentWorld) (t : Nat) : Option ConcurrentWorld :=
  match s.calls[t]? with
  | some (.scan start i) =>
    let len := s.world.lb.backends.length
    if i < len then
      let o := s.world.lb.backends.getD (World.slot w start i len) 0
      if eligible s.world.lb.connectionLimit (s.world.objects o) then
        some { s with calls := s.calls.set t (.claim o) }
      else some { s with calls := s.calls.set t (.scan start (i + 1)) }
    else some { s with calls := s.calls.eraseIdx t }
  | _ => none

/-- Call `t` increments the counter of the entry it claimed, whatever the
counter is now, and returns its guard; the process aborts (`none`) where
`Arc::clone` would. -/
def increment (s : ConcurrentWorld) (t : Nat) : Option ConcurrentWorld :=
  match s.calls[t]? with
  | some (.claim o) => (s.world.connect w o).map fun r => ⟨r.2, s.calls.eraseIdx t⟩
  | _ => none

/-- One step of the concurrent system. -/
def step (s : ConcurrentWorld) : ConcurrentAction → Option ConcurrentWorld
  | .call => some (s.call w)
  | .examine t => s.examine w t
  | .increment t => s.increment w t
  | .dropGuard i => (s.world.dropGuard w i).map fun world' => { s with world := world' }

end ConcurrentWorld

/-- The concurrent system of one rule: a load balancer built by `new` with no
call in flight, then any interleaving of the steps of calls and drops. -/
def concurrentBalancer (w : Nat) (ruleName : String) (limit : Option Nat) :
    Machine ConcurrentWorld ConcurrentAction where
  init s := ∃ configs m, s = ⟨LoadBalancer.new ruleName configs limit m, []⟩
  step := ConcurrentWorld.step w

/-! ## A call alone -/

section Solo

variable {w : Nat}

/-- An `examine` step of a call alone, inside its walk: it claims the entry of
the slot when that is eligible, and moves on to the next slot else. -/
theorem step_examine_solo {W : World} {start i : Nat} (hlt : i < W.lb.backends.length) :
    ConcurrentWorld.step w ⟨W, [.scan start i]⟩ (.examine 0) =
      some (if eligible W.lb.connectionLimit
          (W.objects (W.lb.backends.getD (World.slot w start i W.lb.backends.length) 0))
        then ⟨W, [.claim (W.lb.backends.getD (World.slot w start i W.lb.backends.length) 0)]⟩
        else ⟨W, [.scan start (i + 1)]⟩) := by
  simp only [ConcurrentWorld.step, ConcurrentWorld.examine, List.getElem?_cons_zero, hlt, if_true]
  split <;> rfl

/-- What the `examine` steps of a call that walks alone from slot `i` reach: the
entry of the first eligible slot of the rest of its walk, claimed, or else the
end of the call.  By induction on the slots left. -/
theorem exec_examine_walk (W : World) (start : Nat) (n : Nat) :
    ∀ i, W.lb.backends.length - i = n → ∃ k,
      Machine.exec (ConcurrentWorld.step w) ⟨W, [.scan start i]⟩ (List.replicate k (.examine 0)) =
        some (match (((List.range W.lb.backends.length).drop i).map fun j =>
              World.slot w start j W.lb.backends.length).find?
            (fun idx => eligible W.lb.connectionLimit (W.objects (W.lb.backends.getD idx 0))) with
          | some idx => ⟨W, [.claim (W.lb.backends.getD idx 0)]⟩
          | none => ⟨W, []⟩) := by
  induction n with
  | zero =>
    -- the walk is over: one more `examine` ends the call
    intro i hi
    have hle : W.lb.backends.length ≤ i := by omega
    refine ⟨1, ?_⟩
    rw [List.drop_eq_nil_of_le (by simpa using hle), List.map_nil, List.find?_nil]
    simp [ConcurrentWorld.step, ConcurrentWorld.examine, Nat.not_lt.2 hle]
  | succ n ih =>
    intro i hi
    have hlt : i < W.lb.backends.length := by omega
    have hdrop : (List.range W.lb.backends.length).drop i =
        i :: (List.range W.lb.backends.length).drop (i + 1) := by
      rw [List.drop_eq_getElem_cons (by simpa using hlt), List.getElem_range]
    rw [hdrop, List.map_cons]
    cases hel : eligible W.lb.connectionLimit
        (W.objects (W.lb.backends.getD (World.slot w start i W.lb.backends.length) 0)) with
    | true =>
      -- the slot is eligible: the call claims its entry
      refine ⟨1, ?_⟩
      simp only [List.find?_cons, hel, List.replicate_one, Machine.exec_cons, Machine.exec_nil,
        step_examine_solo hlt, if_true, Option.bind_some]
    | false =>
      -- the slot is skipped, and the walk goes on from the next one
      obtain ⟨k, hk⟩ := ih (i + 1) (by omega)
      refine ⟨k + 1, ?_⟩
      simp only [List.find?_cons, hel, List.replicate_succ, Machine.exec_cons, step_examine_solo hlt,
        Bool.false_eq_true, if_false, Option.bind_some]
      exact hk

/-- A call of `next_backend` that runs alone, from no call in flight, ends where
the atomic `next_backend` of the sequential model does: its `examine` steps
walk the slots `World.pick` looks at, and its `increment` is `World.connect`. -/
theorem exec_solo_call (s : World) : ∃ k,
    Machine.exec (ConcurrentWorld.step w) ⟨s, []⟩
        (.call :: List.replicate k (.examine 0) ++
          (if (s.selected w).isSome then [.increment 0] else [])) =
      (s.nextBackend w).map fun r => ⟨r.2, []⟩ := by
  by_cases hne : s.lb.backends.isEmpty
  · -- an empty snapshot: the call returns at once
    refine ⟨0, ?_⟩
    simp [World.selected, World.nextBackend, hne, ConcurrentWorld.step, ConcurrentWorld.call]
  · obtain ⟨k, hk⟩ := exec_examine_walk (w := w) (s.fetchAddCurrent w) s.lb.current
      (s.fetchAddCurrent w).lb.backends.length 0 (Nat.sub_zero _)
    refine ⟨k, ?_⟩
    have hcall : ConcurrentWorld.step w ⟨s, []⟩ .call =
        some ⟨s.fetchAddCurrent w, [.scan s.lb.current 0]⟩ := by
      simp [ConcurrentWorld.step, ConcurrentWorld.call, hne]
    -- the walk of the call is the one `pick` looks at
    have hpick : s.pick w s.lb.current =
        (((List.range (s.fetchAddCurrent w).lb.backends.length).drop 0).map fun j =>
            World.slot w s.lb.current j (s.fetchAddCurrent w).lb.backends.length).find?
          (fun idx => eligible (s.fetchAddCurrent w).lb.connectionLimit
            ((s.fetchAddCurrent w).objects ((s.fetchAddCurrent w).lb.backends.getD idx 0))) := rfl
    rw [List.cons_append, Machine.exec_cons, hcall, Option.bind_some, Machine.exec_append, hk,
      Option.bind_some]
    simp only [World.selected, World.nextBackend, hne, if_false, Bool.false_eq_true]
    rw [← hpick]
    cases hp : s.pick w s.lb.current with
    | none => rfl
    | some idx =>
      simp only [Option.isSome_some, if_true, Machine.exec_cons, Machine.exec_nil]
      -- `fetch_add` moves only `current`: the claimed entry is the one `pick` found
      simp [ConcurrentWorld.step, ConcurrentWorld.increment, World.fetchAddCurrent]

end Solo

/-- A rule of the one backend `a` under a limit of one, with no call in flight. -/
def oneSlot : ConcurrentWorld := ⟨LoadBalancer.new "r" [.simple "a"] (some 1) .zero, []⟩

/-- Two calls of `next_backend`: both take their start index, both load the
counter, then both increment it. -/
def racingCalls : List ConcurrentAction :=
  [.call, .call, .examine 0, .examine 1, .increment 0, .increment 0]

/-- Two calls on a single backend with `connection_limit = Some(1)`: both load
its counter, at 0, before either increments it, and it ends at 2 in a
reachable state. -/
theorem activeConnections_exceeds_limit_concurrently :
    ∃ s, (concurrentBalancer 64 "r" (some 1)).Reachable s ∧ s.world.lb.backends = [0] ∧
      s.world.lb.connectionLimit = some 1 ∧ (s.world.objects 0).activeConnections = 2 := by
  have hrun : (Machine.exec (ConcurrentWorld.step 64) oneSlot racingCalls).map
        (fun s => (s.world.lb.backends, s.world.lb.connectionLimit,
          (s.world.objects 0).activeConnections)) = some ([0], some 1, 2) := by
    decide
  obtain ⟨s, hs, hval⟩ := Option.map_eq_some_iff.1 hrun
  simp only [Prod.mk.injEq] at hval
  obtain ⟨hb, hl, ha⟩ := hval
  exact ⟨s, Machine.Reachable.of_exec ⟨[.simple "a"], .zero, rfl⟩ hs, hb, hl, ha⟩

end Layer4Lb
