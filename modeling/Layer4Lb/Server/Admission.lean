import Layer4Lb.Server.Conservation

/-!
# What the acceptors of a rule hand to tasks

Each acceptor of a rule asks the access control list first and the rate limiter
second, and spawns a task only when both let the connection through.  No other
step of the rule's server touches the rate limiter: the connection tasks, the
health reports and the reloads leave it as it is.  So over any interleaving of
the rule's acceptors with everything else, the connections handed to tasks are
exactly those the rate limiter accepts when it is fed only the connections the
access control list admits (`spawns_eq_accepted`), and an enabled rate limiter
bounds them, for each client IP, by its bucket over every window of time.
-/

open scoped List
open TokenBucket

namespace Layer4Lb

/-- The clock reading of an accepted connection. -/
def ServerAction.acceptTime : ServerAction → Option ℚ
  | .accept _ now => some now
  | _ => none

/-- The connections an acceptor puts to the rate limiter: those the access
control list admits. -/
def Listener.admitted (L : Listener) : ServerAction → Option (IpAddr × ℚ)
  | .accept ip now => if L.acl.isAllowed L.contains ip then some (ip, now) else none
  | _ => none

theorem Listener.admitted_sublist (L : Listener) (as : List ServerAction) :
    (as.filterMap L.admitted).map Prod.snd <+ as.filterMap ServerAction.acceptTime := by
  induction as with
  | nil => exact List.Sublist.slnil
  | cons a as ih =>
    cases a with
    | accept ip now =>
      by_cases hip : L.acl.isAllowed L.contains ip = true
      · simpa [Listener.admitted, ServerAction.acceptTime, hip] using ih
      · simpa [Listener.admitted, ServerAction.acceptTime, hip] using ih.cons now
    | _ => exact ih

namespace RuleServer

/-- What a step shows: the client and the clock reading of a connection an
acceptor hands to a new task. -/
def spawned (s : RuleServer) : ServerAction → RuleServer → List (IpAddr × ℚ)
  | .accept ip now, s' => if s'.tasks = s.tasks then [] else [(ip, now)]
  | _, _ => []

/-- The connections the acceptors of a run hand to tasks, in order. -/
def spawns (w : Nat) (L : Listener) : RuleServer → List ServerAction → List (IpAddr × ℚ) :=
  Machine.trace (step w L) spawned

variable {w : Nat} {L : Listener} {s s' : RuleServer}

/-- Only an acceptor calls the rate limiter. -/
theorem rateLimiter_step {a : ServerAction} (ha : a.acceptTime = none) (h : s.step w L a = some s') :
    s'.rateLimiter = s.rateLimiter := by
  cases a with
  | accept ip now => cases ha
  | select t now =>
    change s.select w L t now = some s' at h
    unfold select at h
    split at h
    · obtain ⟨r, -, rfl⟩ := Option.map_eq_some_iff.1 h
      dsimp only
      split
      · rfl
      · split <;> rfl
    · cases h
  | handshake t ok =>
    change s.handshake L t ok = some s' at h
    unfold handshake at h
    split at h
    · cases h
      split <;> rfl
    · cases h
  | pace t side a =>
    obtain ⟨-, -, -, -, -, -, rfl⟩ := pace_spec h
    rfl
  | finish t o =>
    obtain ⟨-, -, -, -, rfl⟩ := finish_spec h
    rfl
  | close t =>
    obtain ⟨-, -, -, rfl⟩ := close_spec h
    rfl
  | report addr healthy =>
    cases h
    rfl
  | reload configs =>
    cases h
    rfl

/-- An acceptor refused by the access control list leaves everything alone. -/
theorem accept_of_not_allowed {ip : IpAddr} (hip : L.acl.isAllowed L.contains ip = false) (now : ℚ) :
    s.accept L ip now = s := by
  simp [accept, hip]

/-- An admitted connection goes to the rate limiter, and to a new task when the
rate limiter accepts it. -/
theorem accept_of_allowed {ip : IpAddr} (hip : L.acl.isAllowed L.contains ip = true) (now : ℚ) :
    s.accept L ip now =
      if (s.rateLimiter.check ip now).1 then
        { s with rateLimiter := (s.rateLimiter.check ip now).2, tasks := s.tasks ++ [⟨ip, .spawned⟩] }
      else { s with rateLimiter := (s.rateLimiter.check ip now).2 } := by
  unfold accept
  cases hr : (s.rateLimiter.check ip now).1 <;> simp [hip, hr]

/-- Over any run, the connections handed to tasks are those the rate limiter
accepts among the connections the access control list admits. -/
theorem spawns_eq_accepted {as : List ServerAction} (he : Machine.exec (step w L) s as = some s') :
    spawns w L s as = s.rateLimiter.accepted (as.filterMap L.admitted) := by
  rw [spawns, ← Machine.trace_eq_filterMap L.admitted he]
  refine Machine.trace_eq_of_project (fun _ => True) (fun _ _ _ _ _ => trivial) rateLimiter
    (fun _ => L.admitted) (fun rl cs => rl.accepted cs) (fun _ => rfl)
    (fun s a s' _ h hg => ?_) (fun s a s' c _ h hg cs => ?_) trivial he
  · cases a with
    | accept ip now =>
      have hip : L.acl.isAllowed L.contains ip = false := by
        simpa [Listener.admitted] using hg
      cases h
      rw [accept_of_not_allowed hip]
      exact ⟨if_pos rfl, rfl⟩
    | _ => exact ⟨rfl, rateLimiter_step rfl h⟩
  · cases a with
    | accept ip now =>
      have hip : L.acl.isAllowed L.contains ip = true ∧ (ip, now) = c := by
        simpa [Listener.admitted] using hg
      obtain ⟨hip, rfl⟩ := hip
      cases h
      rw [accept_of_allowed hip]
      cases hr : (s.rateLimiter.check ip now).1 <;> simp [spawned, RateLimiter.accepted, hr]
    | _ => cases hg

end RuleServer

/-- The rate limit of a rule holds over every run of its server.  With an enabled
`rate_limit` section, over any interleaving of the rule's acceptors with its
connection tasks, health reports and reloads, whose accepts read a clock that
does not go back, the connections handed to tasks from any one client IP in any
window `[s, t]` number at most `max(burst, 1) + max(requests_per_second, 1) *
(t - s)`. -/
theorem ruleServer_spawns_conform {w : Nat} {P : IpParsers} {display : IpAddr → String}
    {r : RuleConfig} {cfg : RateLimitConfig} (hcfg : r.rateLimit = some cfg) (hen : cfg.enabled = true)
    (m : Metrics) {as : List ServerAction} {s' : RuleServer}
    (he : Machine.exec (ruleServer w P display r).step (RuleServer.start r m) as = some s')
    (hclock : (as.filterMap ServerAction.acceptTime).Pairwise (· ≤ ·)) (ip : IpAddr) :
    Conforms ((max cfg.burst 1).toNat : ℚ) (max cfg.requestsPerSecond 1).toNat
      (((RuleServer.spawns w (Listener.ofRule P display r) (RuleServer.start r m) as).filter
        fun c => c.1 = ip).map fun c => (c.2, 1)) := by
  have hrl : (RuleServer.start r m).rateLimiter = RateLimiter.new cfg := by
    simp [RuleServer.start, hcfg]
  have h := RateLimiter.acceptedTimes_conform cfg hen
    (hclock.sublist ((Listener.ofRule P display r).admitted_sublist as)) ip
  rw [RateLimiter.acceptedTimes, List.map_map] at h
  rw [RuleServer.spawns_eq_accepted he, hrl]
  exact h

/-- `ruleA` limited to one connection a second, with a burst of one. -/
def rateLimitedRule : RuleConfig := { ruleA with rateLimit := some ⟨true, 1, 1⟩ }

/-- Two connections from `1.2.3.4` at once. -/
def twoAccepts : List ServerAction := [.accept (.v4 ⟨1, 2, 3, 4⟩) 0, .accept (.v4 ⟨1, 2, 3, 4⟩) 0]

theorem ruleServer_spawns_conform_burst :
    ∃ s', Machine.exec (ruleServer 64 .rejectAll (fun _ => "") rateLimitedRule).step
        (RuleServer.start rateLimitedRule .zero) twoAccepts = some s' ∧
      RuleServer.spawns 64 (Listener.ofRule .rejectAll (fun _ => "") rateLimitedRule)
          (RuleServer.start rateLimitedRule .zero) twoAccepts = [(.v4 ⟨1, 2, 3, 4⟩, 0)] ∧
      Conforms ((max (1 : UInt32) 1).toNat : ℚ) (max (1 : UInt32) 1).toNat
        (((RuleServer.spawns 64 (Listener.ofRule .rejectAll (fun _ => "") rateLimitedRule)
          (RuleServer.start rateLimitedRule .zero) twoAccepts).filter
            fun c => c.1 = .v4 ⟨1, 2, 3, 4⟩).map fun c => (c.2, 1)) := by
  obtain ⟨s', he⟩ := Option.isSome_iff_exists.1 (show (Machine.exec
      (ruleServer 64 .rejectAll (fun _ => "") rateLimitedRule).step
      (RuleServer.start rateLimitedRule .zero) twoAccepts).isSome by decide)
  have hclock : (twoAccepts.filterMap ServerAction.acceptTime).Pairwise (· ≤ ·) := by
    decide
  exact ⟨s', he, by decide +kernel,
    @ruleServer_spawns_conform 64 _ _ _ ⟨true, 1, 1⟩ rfl rfl .zero _ _ he hclock _⟩

end Layer4Lb
