import Layer4Lb.Server.Conservation
import Layer4Lb.Traffic.Retry

/-!
# Every bandwidth limiter keeps its bucket, whoever shares it

The bandwidth manager of a rule hands one limiter to every connection whose key
is the same: the client limiters to all connections of a client IP, the backend
limiters to all connections whose client IP prints the same.  The streams of
these connections then call the shared limiter in whatever order their polls
come, between the accepts, setups, handshakes and ends of other connections.

Nothing but a setup and a call touches the limiters: a setup only appends new
ones, made at its clock reading (`limiters_step`), and a call moves only the
limiter it is made on.  So what a limiter grants over a run is what it grants
to the calls made on it, in order (`grantsOn_eq`), and from its creation on it
conforms to its bucket: in any window `[s, t]`, at most its burst of 65536
plus its rate times `t - s`, summed over every connection that shares it.
-/

open scoped List
open TokenBucket

namespace Layer4Lb

/-- The clock reading a step takes: an accept, the setup of a connection, and a
call on a limiter. -/
def ServerAction.clock : ServerAction → Option ℚ
  | .accept _ now => some now
  | .select _ now => some now
  | .pace _ _ a => some a.now
  | _ => none

/-- A call grants what its limiter grants the first call of a run, and the rest
of the run is made on the limiter the call leaves. -/
theorem SimpleLimiter.grants_cons_eq (l : SimpleLimiter) (a : SimpleLimiter.Attempt)
    (as : List SimpleLimiter.Attempt) :
    l.grants (a :: as) = l.grants [a] ++ (l.perform a).2.grants as := by
  rw [SimpleLimiter.grants, SimpleLimiter.grants, SimpleLimiter.grants, List.append_nil,
    SimpleLimiter.perform_snd, SimpleLimiter.attempt_eq_tryTake]

/-- A connection's setup only creates limiters, at its clock reading. -/
theorem Listener.grows_connectionLimiters (L : Listener) (m : BandwidthManager IpAddr) (ip : IpAddr)
    (now : ℚ) : BandwidthManager.Grows now m.limiters (L.connectionLimiters m ip now).2.limiters :=
  @BandwidthManager.grows_connectionLimiters IpAddr m now _ ip ⟨L.display⟩

namespace RuleServer

/-- The limiter the polls of side `side` of task `t` call: the one of its
`ProxyConfig`, while the task is inside `proxy_connection`. -/
def limiterOf (s : RuleServer) (t : Nat) (side : StreamSide) : Option Nat :=
  match s.tasks[t]? with
  | some ⟨_, .proxying _ ls⟩ => ls.get side
  | _ => none

/-- The call a step makes on the limiter at address `i`. -/
def callOn (i : Nat) (s : RuleServer) : ServerAction → Option SimpleLimiter.Attempt
  | .pace t side a => if s.limiterOf t side = some i then some a else none
  | _ => none

/-- What a step shows of the limiter at address `i`: what it grants the call
made on it. -/
def paced (i : Nat) (s : RuleServer) (a : ServerAction) (_ : RuleServer) : List (ℚ × ℚ) :=
  match callOn i s a with
  | some c => ((s.bandwidth.limiters[i]?).map fun l => l.grants [c]).getD []
  | none => []

/-- What the limiter at address `i` grants over a run, in order. -/
def grantsOn (w : Nat) (L : Listener) (i : Nat) : RuleServer → List ServerAction → List (ℚ × ℚ) :=
  Machine.trace (step w L) (paced i)

variable {w : Nat} {L : Listener} {s s' : RuleServer}

theorem pace_eq (s : RuleServer) (t : Nat) (side : StreamSide) (a : SimpleLimiter.Attempt) :
    s.pace t side a = (s.limiterOf t side).map fun i => { s with bandwidth := s.bandwidth.call i a } := by
  unfold pace limiterOf
  rcases s.tasks[t]? with _ | ⟨ip, _ | ⟨g, ls⟩ | ⟨g, ls⟩ | g⟩ <;> rfl

/-- Only a poll of a task inside `proxy_connection` calls a limiter, the one of
its side. -/
theorem callOn_eq_some {i : Nat} {a : ServerAction} {c : SimpleLimiter.Attempt}
    (hc : callOn i s a = some c) : ∃ t side, a = .pace t side c ∧ s.limiterOf t side = some i := by
  cases a with
  | pace t side c' =>
    have h : s.limiterOf t side = some i ∧ c' = c := by
      simpa [callOn] using hc
    obtain ⟨hi, rfl⟩ := h
    exact ⟨t, side, rfl, hi⟩
  | _ => cases hc

/-- What a step does to the limiters of the bandwidth manager: nothing, the
creation of new ones at the clock reading of a connection's setup, or one call
on the limiter a poll of a task calls. -/
theorem limiters_step {a : ServerAction} (h : s.step w L a = some s') :
    s'.bandwidth.limiters = s.bandwidth.limiters ∨
      (∃ t now, a = .select t now ∧
        BandwidthManager.Grows now s.bandwidth.limiters s'.bandwidth.limiters) ∨
      ∃ t side c j, a = .pace t side c ∧ s.limiterOf t side = some j ∧
        s'.bandwidth.limiters = s.bandwidth.limiters.modify j fun l => (l.perform c).2 := by
  cases a with
  | accept ip now =>
    cases h
    rw [(accept_spec s ip now).2.1]
    exact .inl rfl
  | select t now =>
    obtain ⟨ip, -, r, -, -, hcase⟩ := select_spec h
    rcases hcase with ⟨-, hb, -, -⟩ | ⟨a, g, -, hb, -⟩
    · exact .inl (by rw [hb])
    · exact .inr (.inl ⟨t, now, rfl, hb ▸ L.grows_connectionLimiters _ _ _⟩)
  | handshake t ok =>
    obtain ⟨-, -, -, -, -, hb, -⟩ := handshake_spec h
    exact .inl (by rw [hb])
  | pace t side c =>
    rw [step, pace_eq] at h
    obtain ⟨j, hj, rfl⟩ := Option.map_eq_some_iff.1 h
    exact .inr (.inr ⟨t, side, c, j, rfl, hj, rfl⟩)
  | finish t o =>
    obtain ⟨-, -, -, -, rfl⟩ := finish_spec h
    exact .inl rfl
  | close t =>
    obtain ⟨-, -, -, rfl⟩ := close_spec h
    exact .inl rfl
  | report addr healthy =>
    cases h
    exact .inl rfl
  | reload configs =>
    cases h
    exact .inl rfl

theorem length_limiters_le {a : ServerAction} (h : s.step w L a = some s') :
    s.bandwidth.limiters.length ≤ s'.bandwidth.limiters.length := by
  rcases limiters_step h with he | ⟨_, _, _, hg⟩ | ⟨_, _, _, _, _, _, he⟩
  · rw [he]
  · exact hg.length_le
  · rw [he, List.length_modify]

/-- A step that makes no call on an existing limiter leaves it as it is. -/
theorem limiter_step_of_callOn_none {a : ServerAction} (h : s.step w L a = some s') {i : Nat}
    (hi : i < s.bandwidth.limiters.length) (hc : callOn i s a = none) :
    s'.bandwidth.limiters[i]? = s.bandwidth.limiters[i]? := by
  rcases limiters_step h with he | ⟨_, _, _, hg⟩ | ⟨t, side, c, j, rfl, hj, he⟩
  · rw [he]
  · exact hg.getElem?_eq hi
  · have hji : j ≠ i := by
      rintro rfl
      simp [callOn, hj] at hc
    rw [he, List.getElem?_modify]
    simp [hji]

/-- A call on limiter `i` moves it as the call does. -/
theorem limiter_step_of_callOn_some {a : ServerAction} (h : s.step w L a = some s') {i : Nat}
    {c : SimpleLimiter.Attempt} (hc : callOn i s a = some c) :
    s'.bandwidth.limiters[i]? = (s.bandwidth.limiters[i]?).map fun l => (l.perform c).2 := by
  obtain ⟨t, side, rfl, hi⟩ := callOn_eq_some hc
  rw [step, pace_eq, hi, Option.map_some, Option.some.injEq] at h
  subst h
  rw [BandwidthManager.call, List.getElem?_modify]
  simp

/-- Over a run from a state where limiter `i` exists, what it grants is what it
grants the calls made on it, in order. -/
theorem grantsOn_eq {i : Nat} {l : SimpleLimiter} (hl : s.bandwidth.limiters[i]? = some l)
    {as : List ServerAction} (he : Machine.exec (step w L) s as = some s') :
    grantsOn w L i s as = l.grants (Machine.trace (step w L) (fun s a _ => (callOn i s a).toList) s as) := by
  have hi : i < s.bandwidth.limiters.length := (List.getElem?_eq_some_iff.1 hl).1
  have h := @Machine.trace_eq_of_project _ _ _ _ _ (step w L) (paced i)
    (fun s => i < s.bandwidth.limiters.length)
    (fun _ _ _ hi h => Nat.lt_of_lt_of_le hi (length_limiters_le h))
    (fun s => s.bandwidth.limiters[i]?) (callOn i)
    (fun o cs => (o.map fun l => l.grants cs).getD []) (fun o => by cases o <;> rfl)
    (fun s a s' hi h hc => ⟨by simp [paced, hc], limiter_step_of_callOn_none h hi hc⟩)
    (fun s a s' c _ h hc cs => ?_) _ _ _ hi he
  · rw [grantsOn, h, hl]
    rfl
  · rw [limiter_step_of_callOn_some h hc]
    simp only [paced, hc]
    cases s.bandwidth.limiters[i]? with
    | none => rfl
    | some l =>
      simp only [Option.map_some, Option.getD_some]
      exact (SimpleLimiter.grants_cons_eq l c cs).symm

/-- The clock readings of the calls on a limiter are among those of the run. -/
theorem callOn_now_sublist (i : Nat) (s : RuleServer) (as : List ServerAction) :
    (Machine.trace (step w L) (fun s a _ => (callOn i s a).toList) s as).map
        SimpleLimiter.Attempt.now <+ as.filterMap ServerAction.clock :=
  Machine.map_trace_sublist _ _ _ (fun s a c hc => by
    obtain ⟨t, side, rfl, -⟩ := callOn_eq_some hc
    rfl) s as

/-- A limiter's rate and burst stay what they were at its creation. -/
theorem limiter_params_exec {i : Nat} {l : SimpleLimiter} (hl : s.bandwidth.limiters[i]? = some l)
    {as : List ServerAction} (he : Machine.exec (step w L) s as = some s') :
    ∃ l', s'.bandwidth.limiters[i]? = some l' ∧ l'.ratePerSec = l.ratePerSec ∧
      l'.burstSize = l.burstSize := by
  refine Machine.exec_preserves (P := fun s => ∃ l', s.bandwidth.limiters[i]? = some l' ∧
      l'.ratePerSec = l.ratePerSec ∧ l'.burstSize = l.burstSize) ?_ ⟨l, hl, rfl, rfl⟩ he
  rintro s a s₁ ⟨l', hl', hr, hb⟩ h
  have hi : i < s.bandwidth.limiters.length := (List.getElem?_eq_some_iff.1 hl').1
  cases hc : callOn i s a with
  | none => exact ⟨l', (limiter_step_of_callOn_none h hi hc).trans hl', hr, hb⟩
  | some c =>
    rw [limiter_step_of_callOn_some h hc, hl', Option.map_some]
    exact ⟨_, rfl, by simp [hr], by simp [hb]⟩

/-- From its creation at `τ`, a limiter conforms to its bucket over the rest of
any run whose clock does not go back. -/
theorem grantsOn_conform_new {i : Nat} {r : UInt32} {τ : ℚ}
    (hl : s.bandwidth.limiters[i]? = some (SimpleLimiter.new r 65536 τ)) {as : List ServerAction}
    (he : Machine.exec (step w L) s as = some s')
    (hclock : (τ :: as.filterMap ServerAction.clock).Pairwise (· ≤ ·)) :
    Conforms (65536 : ℚ) r.toNat (grantsOn w L i s as) := by
  rw [grantsOn_eq hl he]
  exact SimpleLimiter.new_grants_conform r 65536 τ
    (hclock.sublist ((callOn_now_sublist i s as).cons_cons τ))

/-- Over a run from a state that has no limiter at address `i` yet, the limiter
there at the end conforms to its bucket.  By induction on the run: until the
setup that creates it, the address shows nothing. -/
theorem grantsOn_conform {i : Nat} (hi : s.bandwidth.limiters.length ≤ i) {as : List ServerAction}
    (he : Machine.exec (step w L) s as = some s')
    (hclock : (as.filterMap ServerAction.clock).Pairwise (· ≤ ·)) {l : SimpleLimiter}
    (hl : s'.bandwidth.limiters[i]? = some l) :
    Conforms (65536 : ℚ) l.ratePerSec.toNat (grantsOn w L i s as) := by
  induction as generalizing s with
  | nil =>
    rw [Machine.exec_nil, Option.some.injEq] at he
    subst he
    rw [List.getElem?_eq_none hi] at hl
    cases hl
  | cons a as ih =>
    obtain ⟨s₁, h, hrest⟩ := Machine.exec_cons_eq_some he
    have hpaced : paced i s a s₁ = [] := by
      unfold paced
      split <;> simp [List.getElem?_eq_none hi]
    rw [grantsOn, Machine.trace_cons_of_step _ h, hpaced, List.nil_append]
    by_cases hi₁ : s₁.bandwidth.limiters.length ≤ i
    · exact ih hi₁ hrest (hclock.sublist ((List.sublist_cons_self a as).filterMap _))
    · -- only a setup creates limiters, and this one created the limiter at `i`
      have hlt : i < s₁.bandwidth.limiters.length := Nat.lt_of_not_le hi₁
      rcases limiters_step h with he₁ | ⟨t, now, rfl, hg⟩ | ⟨_, _, _, _, _, _, he₁⟩
      · exact absurd (he₁ ▸ hi) hi₁
      · obtain ⟨r, hr⟩ := hg.getElem?_new hi (List.getElem?_eq_getElem hlt)
        have hl₁ : s₁.bandwidth.limiters[i]? = some (SimpleLimiter.new r 65536 now) := by
          rw [List.getElem?_eq_getElem hlt, hr]
        obtain ⟨l', hl', hrate, -⟩ := limiter_params_exec hl₁ hrest
        rw [hl, Option.some.injEq] at hl'
        subst hl'
        rw [hrate]
        exact grantsOn_conform_new hl₁ hrest hclock
      · exact absurd (by rw [he₁, List.length_modify]; exact hi) hi₁

end RuleServer

/-- Every bandwidth limiter of a rule keeps its bucket over every run of the
rule's server.  Over any interleaving of the rule's acceptors with the setups,
handshakes, polls and ends of its connections, health reports and reloads, from
the state `main` starts it in and with a clock that does not go back: each
limiter the bandwidth manager holds at the end granted, summed over all the
connections that share it, at most `65536 + rate * (t - s)` in every window
`[s, t]`, where `rate` is its `rate_per_sec`. -/
theorem ruleServer_limiters_conform {w : Nat} {P : IpParsers} {display : IpAddr → String}
    {r : RuleConfig} (m : Metrics) {as : List ServerAction} {s' : RuleServer}
    (he : Machine.exec (ruleServer w P display r).step (RuleServer.start r m) as = some s')
    (hclock : (as.filterMap ServerAction.clock).Pairwise (· ≤ ·)) (i : Nat) {l : SimpleLimiter}
    (hl : s'.bandwidth.limiters[i]? = some l) :
    Conforms (65536 : ℚ) l.ratePerSec.toNat
      (RuleServer.grantsOn w (Listener.ofRule P display r) i (RuleServer.start r m) as) :=
  RuleServer.grantsOn_conform (Nat.zero_le i) he hclock hl

/-- `ruleA` with client limits of 1024 bytes a second each way. -/
def pacedRule : RuleConfig := { ruleA with bandwidthLimit := some ⟨true, some ⟨1024, 1024⟩, none⟩ }

/-- Two connections from `1.2.3.4` at once, each handed to `proxy_connection`,
and a read of 40000 bytes on each. -/
def twoReads : List ServerAction :=
  [.accept (.v4 ⟨1, 2, 3, 4⟩) 0, .select 0 0, .accept (.v4 ⟨1, 2, 3, 4⟩) 0, .select 1 0,
    .pace 0 .clientRead ⟨.checkN, 0, 40000⟩, .pace 1 .clientRead ⟨.checkN, 0, 40000⟩]

/-- Two connections of one client share its upload limiter: of two reads of
40000 bytes at once, the second is refused. -/
theorem ruleServer_limiters_conform_shared :
    ∃ s', Machine.exec (ruleServer 64 .rejectAll (fun _ => "") pacedRule).step
        (RuleServer.start pacedRule .zero) twoReads = some s' ∧
      RuleServer.grantsOn 64 (Listener.ofRule .rejectAll (fun _ => "") pacedRule) 0
          (RuleServer.start pacedRule .zero) twoReads = [(0, 40000)] ∧
      ∀ l, s'.bandwidth.limiters[0]? = some l →
        Conforms (65536 : ℚ) l.ratePerSec.toNat
          (RuleServer.grantsOn 64 (Listener.ofRule .rejectAll (fun _ => "") pacedRule) 0
            (RuleServer.start pacedRule .zero) twoReads) := by
  obtain ⟨s', he⟩ := Option.isSome_iff_exists.1 (show (Machine.exec
      (ruleServer 64 .rejectAll (fun _ => "") pacedRule).step
      (RuleServer.start pacedRule .zero) twoReads).isSome by decide +kernel)
  have hclock : (twoReads.filterMap ServerAction.clock).Pairwise (· ≤ ·) := by
    decide
  exact ⟨s', he, by decide +kernel, fun l hl => ruleServer_limiters_conform .zero he hclock 0 hl⟩

end Layer4Lb
