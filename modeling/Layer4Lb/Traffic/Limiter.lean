import Layer4Lb.Config
import Layer4Lb.Lib.TokenBucket
import Mathlib.Algebra.Order.Field.Rat
import Mathlib.Logic.Function.Basic

/-!
# The token-bucket limiter

`SimpleLimiter` of `traffic/limiter.rs`: a token bucket behind a mutex, refilled
lazily.  Time is a clock reading in seconds, a rational that does not go back,
and the `f64` token count is an exact rational.  `check_n` and each pass of the
loop of `until_n_ready` run the same body under the lock, `tryTake`: refill,
then take `n` tokens if there are that many.  A run of the limiter is the list
of those calls in lock order, each with the clock reading it took.

The limiter conforms to the bucket `(burst_size, rate_per_sec)` of
`TokenBucket`: a refill stores exactly the level that bucket shows, and a grant
takes from that level exactly what it grants.  `RateLimiter::check` keeps one
limiter per client IP, created at the IP's first check, and a check touches only
its IP's limiter, so each IP's accepted checks conform on their own.
-/

namespace Layer4Lb

open TokenBucket

/-- `SimpleLimiterState`: the tokens, and the clock reading of the last refill
that added any (`last_update`). -/
structure SimpleLimiterState where
  tokens : ℚ
  lastUpdate : ℚ
  deriving DecidableEq, Repr

/-- `SimpleLimiter`.  Its mutex is left out: every call runs whole under it. -/
structure SimpleLimiter where
  ratePerSec : UInt32
  burstSize : UInt32
  state : SimpleLimiterState
  deriving DecidableEq, Repr

namespace SimpleLimiter

/-- `SimpleLimiter::new`, at clock reading `now`: a full bucket. -/
def new (ratePerSec burstSize : UInt32) (now : ℚ) : SimpleLimiter :=
  ⟨ratePerSec, burstSize, ⟨burstSize.toNat, now⟩⟩

/-- `refill` at clock reading `now`.  `duration_since` saturates at zero, and
`last_update` moves only when some tokens were earned. -/
def refill (l : SimpleLimiter) (now : ℚ) : SimpleLimiter :=
  let elapsed := max (now - l.state.lastUpdate) 0
  let newTokens := elapsed * l.ratePerSec.toNat
  if 0 < newTokens then
    { l with state := ⟨min (l.state.tokens + newTokens) l.burstSize.toNat, now⟩ }
  else l

/-- The body `check_n` and the loop of `until_n_ready` run under the lock:
refill, then take `n` tokens if there are that many.  Whether it took them, and
the limiter after. -/
def tryTake (l : SimpleLimiter) (now : ℚ) (n : UInt32) : Bool × SimpleLimiter :=
  let l := l.refill now
  if (n.toNat : ℚ) ≤ l.state.tokens then
    (true, { l with state := { l.state with tokens := l.state.tokens - n.toNat } })
  else (false, l)

/-- `check_n` at clock reading `now`. -/
def checkN (l : SimpleLimiter) (now : ℚ) (n : UInt32) : Except Unit Unit × SimpleLimiter :=
  let r := l.tryTake now n
  (if r.1 then .ok () else .error (), r.2)

/-- One pass of the loop of `until_n_ready` at clock reading `now`: `none` when
it took the tokens and returns, else the seconds it sleeps before the next pass,
`(n - tokens) / rate_per_sec`. -/
def untilNReadyStep (l : SimpleLimiter) (now : ℚ) (n : UInt32) : Option ℚ × SimpleLimiter :=
  let r := l.tryTake now n
  (if r.1 then none else some ((n.toNat - r.2.state.tokens) / r.2.ratePerSec.toNat), r.2)

/-- A call into the limiter: `check_n`, or one pass of the loop of
`until_n_ready`. -/
inductive Call
  | checkN
  | untilNReady
  deriving DecidableEq, Repr

/-- A call for `n` tokens that read the clock at `now`. -/
structure Attempt where
  call : Call
  now : ℚ
  n : UInt32
  deriving DecidableEq, Repr

/-- Whether a call took its tokens, and the limiter after it. -/
def attempt (l : SimpleLimiter) (a : Attempt) : Bool × SimpleLimiter :=
  match a.call with
  | .checkN => let r := l.checkN a.now a.n; (r.1.isOk, r.2)
  | .untilNReady => let r := l.untilNReadyStep a.now a.n; (r.1.isNone, r.2)

/-- The grants `(clock reading, n)` of a run of calls. -/
def grants (l : SimpleLimiter) : List Attempt → List (ℚ × ℚ)
  | [] => []
  | a :: as =>
    let r := l.attempt a
    (if r.1 then [(a.now, (a.n.toNat : ℚ))] else []) ++ grants r.2 as

@[simp] theorem checkN_isOk (l : SimpleLimiter) (now : ℚ) (n : UInt32) :
    (l.checkN now n).1.isOk = (l.tryTake now n).1 := by
  dsimp only [checkN]
  cases (l.tryTake now n).1 <;> rfl

@[simp] theorem checkN_snd (l : SimpleLimiter) (now : ℚ) (n : UInt32) :
    (l.checkN now n).2 = (l.tryTake now n).2 := rfl

@[simp] theorem untilNReadyStep_isNone (l : SimpleLimiter) (now : ℚ) (n : UInt32) :
    (l.untilNReadyStep now n).1.isNone = (l.tryTake now n).1 := by
  dsimp only [untilNReadyStep]
  cases (l.tryTake now n).1 <;> rfl

@[simp] theorem untilNReadyStep_snd (l : SimpleLimiter) (now : ℚ) (n : UInt32) :
    (l.untilNReadyStep now n).2 = (l.tryTake now n).2 := rfl

/-- Both kinds of call run `tryTake` and differ only in what they return. -/
theorem attempt_eq_tryTake (l : SimpleLimiter) (a : Attempt) :
    l.attempt a = l.tryTake a.now a.n := by
  obtain ⟨call, now, n⟩ := a
  cases call <;> simp [attempt]

@[simp] theorem refill_ratePerSec (l : SimpleLimiter) (now : ℚ) :
    (l.refill now).ratePerSec = l.ratePerSec := by
  dsimp only [refill]; split <;> rfl

@[simp] theorem refill_burstSize (l : SimpleLimiter) (now : ℚ) :
    (l.refill now).burstSize = l.burstSize := by
  dsimp only [refill]; split <;> rfl

@[simp] theorem tryTake_ratePerSec (l : SimpleLimiter) (now : ℚ) (n : UInt32) :
    (l.tryTake now n).2.ratePerSec = l.ratePerSec := by
  dsimp only [tryTake]; split <;> simp

@[simp] theorem tryTake_burstSize (l : SimpleLimiter) (now : ℚ) (n : UInt32) :
    (l.tryTake now n).2.burstSize = l.burstSize := by
  dsimp only [tryTake]; split <;> simp

/-! ## The bucket behind the limiter -/

/-- What every limiter keeps: between no tokens and a full bucket. -/
structure Inv (l : SimpleLimiter) : Prop where
  tokens_nonneg : 0 ≤ l.state.tokens
  tokens_le : l.state.tokens ≤ l.burstSize.toNat

/-- The level the limiter's bucket shows at clock reading `t`. -/
def level (l : SimpleLimiter) (t : ℚ) : ℚ :=
  TokenBucket.level l.burstSize.toNat l.ratePerSec.toNat l.state.tokens l.state.lastUpdate t

theorem inv_new (ratePerSec burstSize : UInt32) (now : ℚ) :
    (new ratePerSec burstSize now).Inv :=
  ⟨Nat.cast_nonneg _, le_rfl⟩

theorem level_new (ratePerSec burstSize : UInt32) (now : ℚ) :
    (new ratePerSec burstSize now).level now = burstSize.toNat := by
  simp [level, TokenBucket.level, new]

section Refill

variable {l : SimpleLimiter} {now : ℚ}

theorem refill_lastUpdate_le (h : l.state.lastUpdate ≤ now) :
    (l.refill now).state.lastUpdate ≤ now := by
  dsimp only [refill]; split
  · exact le_rfl
  · exact h

/-- Right after a refill at `now` nothing more has been earned at `now`: either
the refill moved `last_update` to `now`, or nothing had been earned. -/
theorem refill_earned_zero (h : l.state.lastUpdate ≤ now) :
    (now - (l.refill now).state.lastUpdate) * l.ratePerSec.toNat = 0 := by
  dsimp only [refill]
  split
  · rename_i hpos
    simp
  · rename_i hpos
    rw [max_eq_left (sub_nonneg.2 h)] at hpos
    exact le_antisymm (not_lt.1 hpos) (mul_nonneg (sub_nonneg.2 h) (Nat.cast_nonneg _))

/-- A refill stores exactly the level the bucket shows. -/
theorem refill_tokens (hl : l.Inv) (h : l.state.lastUpdate ≤ now) :
    (l.refill now).state.tokens = l.level now := by
  have hz := refill_earned_zero h
  dsimp only [refill] at hz ⊢
  split
  · rw [max_eq_left (sub_nonneg.2 h)]
    exact min_comm _ _
  · rename_i hpos
    exact (level_of_earned_zero hl.tokens_le (by simpa [if_neg hpos] using hz)).symm

theorem Inv.refill (hl : l.Inv) : (l.refill now).Inv := by
  dsimp only [SimpleLimiter.refill]
  split
  · rename_i hpos
    exact ⟨le_min (add_nonneg hl.tokens_nonneg hpos.le) (Nat.cast_nonneg _), min_le_right _ _⟩
  · exact hl

end Refill

section TryTake

variable {l : SimpleLimiter} {now : ℚ} {n : UInt32}

theorem tryTake_lastUpdate_le (h : l.state.lastUpdate ≤ now) :
    (l.tryTake now n).2.state.lastUpdate ≤ now := by
  dsimp only [tryTake]; split
  · exact refill_lastUpdate_le h
  · exact refill_lastUpdate_le h

theorem Inv.tryTake (hl : l.Inv) : (l.tryTake now n).2.Inv := by
  have hr : (l.refill now).Inv := hl.refill
  dsimp only [SimpleLimiter.tryTake]
  split
  · rename_i hn
    refine ⟨sub_nonneg.2 hn, ?_⟩
    have := hr.tokens_le
    simp only [refill_burstSize] at this ⊢
    have hn0 : (0 : ℚ) ≤ n.toNat := Nat.cast_nonneg _
    linarith
  · exact hr

/-- The accounting of one call: the level it leaves at `now`, plus what it
granted, is the level before. -/
theorem tryTake_level (hl : l.Inv) (h : l.state.lastUpdate ≤ now) :
    (l.tryTake now n).2.level now + (if (l.tryTake now n).1 then (n.toNat : ℚ) else 0) =
      l.level now := by
  have hz := refill_earned_zero (l := l) h
  have hr : (l.refill now).Inv := hl.refill
  rw [← refill_tokens hl h]
  dsimp only [tryTake, level]
  split
  · rename_i hn
    have hle : (l.refill now).state.tokens - n.toNat ≤ (l.refill now).burstSize.toNat := by
      have hn0 : (0 : ℚ) ≤ n.toNat := Nat.cast_nonneg _
      linarith [hr.tokens_le]
    simp only [if_true]
    rw [level_of_earned_zero hle (by simpa using hz)]
    ring
  · simp only [Bool.false_eq_true, if_false, add_zero]
    exact level_of_earned_zero hr.tokens_le (by simpa using hz)

/-- One call as a step of `TokenBucket.Within`: from the invariant at the call's
clock reading `now` to the invariant at any earlier `T` after the last refill. -/
theorem within_tryTake {T : ℚ} {gs : List (ℚ × ℚ)} (hl : l.Inv) (hT : l.state.lastUpdate ≤ T)
    (hτ : T ≤ now) (hlater : ∀ g ∈ gs, now ≤ g.1)
    (h : Within (l.burstSize.toNat : ℚ) l.ratePerSec.toNat now ((l.tryTake now n).2.level now) gs) :
    Within (l.burstSize.toNat : ℚ) l.ratePerSec.toNat T (l.level T)
      ((if (l.tryTake now n).1 then [(now, (n.toNat : ℚ))] else []) ++ gs) := by
  have hacc := tryTake_level (n := n) hl (le_trans hT hτ)
  have hgrow : l.level now ≤ l.level T + l.ratePerSec.toNat * (now - T) :=
    level_le_add (Nat.cast_nonneg _) hτ
  have hcap : l.level now ≤ l.burstSize.toNat := level_le_cap
  have hv : 0 ≤ l.level T := level_nonneg (Nat.cast_nonneg _) hl.tokens_nonneg (Nat.cast_nonneg _) hT
  split
  · rename_i hg
    rw [if_pos hg] at hacc
    exact Within.grant (Nat.cast_nonneg _) (Nat.cast_nonneg _) hv hτ hlater (by linarith)
      (by linarith) h
  · rename_i hg
    rw [if_neg hg, add_zero] at hacc
    exact Within.idle (Nat.cast_nonneg _) (Nat.cast_nonneg _) hv hτ hlater (by linarith)
      (by linarith) h

end TryTake

/-- Every grant of a run is made at the clock reading of one of its calls. -/
theorem mem_grants {l : SimpleLimiter} {as : List Attempt} {g : ℚ × ℚ} (hg : g ∈ l.grants as) :
    g.1 ∈ as.map Attempt.now := by
  induction as generalizing l with
  | nil => cases hg
  | cons a as ih =>
    rw [grants, List.mem_append] at hg
    rcases hg with hg | hg
    · split at hg
      · rw [List.mem_singleton.1 hg]
        exact List.mem_cons_self
      · cases hg
    · exact List.mem_cons_of_mem _ (ih hg)

/-- The run invariant: for calls in lock order with clock readings from `T` on,
after the last refill, the grants stay within what the bucket allows from its
level at `T`.  By induction on the run, each call a `within_tryTake` step. -/
theorem grants_within {l : SimpleLimiter} {T : ℚ} {as : List Attempt} (hl : l.Inv)
    (hT : l.state.lastUpdate ≤ T) (hs : (T :: as.map Attempt.now).Pairwise (· ≤ ·)) :
    Within (l.burstSize.toNat : ℚ) l.ratePerSec.toNat T (l.level T) (l.grants as) := by
  induction as generalizing l T with
  | nil =>
    exact within_nil (Nat.cast_nonneg _) (Nat.cast_nonneg _)
      (level_nonneg (Nat.cast_nonneg _) hl.tokens_nonneg (Nat.cast_nonneg _) hT)
  | cons a as ih =>
    obtain ⟨hTa, hs'⟩ := List.pairwise_cons.1 hs
    have hτ : T ≤ a.now := hTa a.now List.mem_cons_self
    have hrest := List.pairwise_cons.1 hs'
    have hlater : ∀ g ∈ (l.tryTake a.now a.n).2.grants as, a.now ≤ g.1 :=
      fun g hg => hrest.1 g.1 (mem_grants hg)
    have ih' := ih (l := (l.tryTake a.now a.n).2) hl.tryTake
      (tryTake_lastUpdate_le (le_trans hT hτ)) hs'
    rw [tryTake_burstSize, tryTake_ratePerSec] at ih'
    rw [grants, attempt_eq_tryTake]
    exact within_tryTake hl hT hτ hlater ih'

/-- Every grant of a run from `t0` on is made at `t0` or later. -/
theorem grants_later {l : SimpleLimiter} {t0 : ℚ} {as : List Attempt}
    (hs : (t0 :: as.map Attempt.now).Pairwise (· ≤ ·)) : ∀ g ∈ l.grants as, t0 ≤ g.1 :=
  fun _ hg => (List.pairwise_cons.1 hs).1 _ (mem_grants hg)

/-- A limiter created at `t0` conforms to its bucket `(burst_size, rate_per_sec)`
over any run of calls in lock order from `t0` on. -/
theorem new_grants_conform (ratePerSec burstSize : UInt32) (t0 : ℚ) {as : List Attempt}
    (hs : (t0 :: as.map Attempt.now).Pairwise (· ≤ ·)) :
    Conforms (burstSize.toNat : ℚ) ratePerSec.toNat ((new ratePerSec burstSize t0).grants as) := by
  have h := grants_within (T := t0) (inv_new ratePerSec burstSize t0) le_rfl hs
  rw [level_new] at h
  exact h.conforms (Nat.cast_nonneg _) (Nat.cast_nonneg _) le_rfl (grants_later hs)

end SimpleLimiter

/-! ## Per-IP limiters -/

/-- `RateLimiter`: the limiter of each client IP, which the source keeps in a
`DashMap<IpAddr, Arc<SimpleLimiter>>`, and the rule's `RateLimitConfig`. -/
structure RateLimiter (Ip : Type) where
  limiters : Ip → Option SimpleLimiter
  config : RateLimitConfig

namespace RateLimiter

variable {Ip : Type}

/-- `RateLimiter::new`: no limiters yet. -/
def new (config : RateLimitConfig) : RateLimiter Ip := ⟨fun _ => none, config⟩

/-- The limiter `check` uses for `ip` at clock reading `now`: the one in the map,
or the one `or_insert_with` creates. -/
def limiterFor (rl : RateLimiter Ip) (ip : Ip) (now : ℚ) : SimpleLimiter :=
  (rl.limiters ip).getD
    (SimpleLimiter.new (max rl.config.requestsPerSecond 1) (max rl.config.burst 1) now)

section Run

variable [DecidableEq Ip]

/-- `RateLimiter::check` for `ip` at clock reading `now`: whether it accepts,
and the map after. -/
def check (rl : RateLimiter Ip) (ip : Ip) (now : ℚ) : Bool × RateLimiter Ip :=
  if !rl.config.enabled then (true, rl)
  else
    let r := (rl.limiterFor ip now).checkN now 1
    (r.1.isOk, { rl with limiters := Function.update rl.limiters ip (some r.2) })

/-- The checks `(ip, clock reading)` of a run that `check` accepts. -/
def accepted (rl : RateLimiter Ip) : List (Ip × ℚ) → List (Ip × ℚ)
  | [] => []
  | c :: cs =>
    let r := rl.check c.1 c.2
    (if r.1 then [c] else []) ++ accepted r.2 cs

/-- The clock readings of the checks of `ip` that a run accepts. -/
def acceptedTimes (rl : RateLimiter Ip) (cs : List (Ip × ℚ)) (ip : Ip) : List ℚ :=
  ((rl.accepted cs).filter fun c => c.1 = ip).map Prod.snd

/-- A run accepts only checks it made. -/
theorem mem_accepted {rl : RateLimiter Ip} {cs : List (Ip × ℚ)} {c : Ip × ℚ}
    (h : c ∈ rl.accepted cs) : c ∈ cs := by
  induction cs generalizing rl with
  | nil => cases h
  | cons c' cs ih =>
    rw [accepted, List.mem_append] at h
    rcases h with h | h
    · split at h
      · rw [List.mem_singleton.1 h]
        exact List.mem_cons_self
      · cases h
    · exact List.mem_cons_of_mem _ (ih h)

/-- A run accepts a check of `ip` only at the clock reading of one of its
checks. -/
theorem mem_acceptedTimes {rl : RateLimiter Ip} {cs : List (Ip × ℚ)} {ip : Ip} {τ : ℚ}
    (h : τ ∈ rl.acceptedTimes cs ip) : τ ∈ cs.map Prod.snd := by
  obtain ⟨c, hc, rfl⟩ := List.mem_map.1 h
  exact List.mem_map_of_mem (mem_accepted (List.mem_of_mem_filter hc))

@[simp] theorem acceptedTimes_nil (rl : RateLimiter Ip) (ip : Ip) : rl.acceptedTimes [] ip = [] :=
  rfl

theorem acceptedTimes_cons (rl : RateLimiter Ip) (c : Ip × ℚ) (cs : List (Ip × ℚ)) (ip : Ip) :
    rl.acceptedTimes (c :: cs) ip =
      (if (rl.check c.1 c.2).1 ∧ c.1 = ip then [c.2] else []) ++
        (rl.check c.1 c.2).2.acceptedTimes cs ip := by
  unfold acceptedTimes
  rw [accepted, List.filter_append, List.map_append]
  congr 1
  by_cases h : (rl.check c.1 c.2).1 ∧ c.1 = ip
  · rw [if_pos h.1, if_pos h, List.filter_singleton, decide_eq_true h.2]
    rfl
  · rw [if_neg h]
    split
    · rename_i hc
      rw [List.filter_singleton, decide_eq_false fun hip => h ⟨hc, hip⟩]
      rfl
    · rfl

@[simp] theorem check_config (rl : RateLimiter Ip) (ip : Ip) (now : ℚ) :
    (rl.check ip now).2.config = rl.config := by
  unfold check; split <;> rfl

/-- An enabled check runs `tryTake` for one token on the IP's limiter and stores
the limiter it leaves. -/
theorem check_of_enabled {rl : RateLimiter Ip} (hen : rl.config.enabled = true) (ip : Ip)
    (now : ℚ) :
    rl.check ip now =
      (((rl.limiterFor ip now).tryTake now 1).1,
        { rl with limiters :=
            Function.update rl.limiters ip (some ((rl.limiterFor ip now).tryTake now 1).2) }) := by
  simp [check, hen]

/-- A check of one IP leaves the limiters of the others alone. -/
theorem check_limiters_of_ne (rl : RateLimiter Ip) {ip ip' : Ip} (h : ip' ≠ ip) (now : ℚ) :
    (rl.check ip' now).2.limiters ip = rl.limiters ip := by
  unfold check
  split
  · rfl
  · exact Function.update_of_ne h.symm _ _

end Run

/-- What `check` keeps of the limiter it stores for an IP, up to clock reading
`T`: the bucket invariant, no refill after `T`, and the rate and burst the IP's
first check created it with. -/
structure Fits (config : RateLimitConfig) (T : ℚ) (l : SimpleLimiter) : Prop where
  inv : l.Inv
  lastUpdate_le : l.state.lastUpdate ≤ T
  ratePerSec_eq : l.ratePerSec = max config.requestsPerSecond 1
  burstSize_eq : l.burstSize = max config.burst 1

theorem Fits.mono {config : RateLimitConfig} {T τ : ℚ} {l : SimpleLimiter} (h : Fits config T l)
    (hT : T ≤ τ) : Fits config τ l :=
  ⟨h.inv, le_trans h.lastUpdate_le hT, h.ratePerSec_eq, h.burstSize_eq⟩

/-- One call keeps what `check` keeps of a limiter. -/
theorem Fits.tryTake {config : RateLimitConfig} {τ : ℚ} {l : SimpleLimiter} (h : Fits config τ l)
    (n : UInt32) : Fits config τ (l.tryTake τ n).2 :=
  ⟨h.inv.tryTake, SimpleLimiter.tryTake_lastUpdate_le h.lastUpdate_le,
    by rw [SimpleLimiter.tryTake_ratePerSec, h.ratePerSec_eq],
    by rw [SimpleLimiter.tryTake_burstSize, h.burstSize_eq]⟩

/-- The level the bucket of `ip` shows at `T`: a full bucket before its first
check. -/
def levelOf (rl : RateLimiter Ip) (ip : Ip) (T : ℚ) : ℚ :=
  match rl.limiters ip with
  | none => (max rl.config.burst 1).toNat
  | some l => l.level T

section PerIp

variable {rl : RateLimiter Ip} {ip : Ip} {T τ : ℚ}

theorem fits_limiterFor (hfit : ∀ l, rl.limiters ip = some l → Fits rl.config T l) (hT : T ≤ τ) :
    Fits rl.config τ (rl.limiterFor ip τ) := by
  unfold limiterFor
  cases h : rl.limiters ip with
  | none => exact ⟨SimpleLimiter.inv_new _ _ _, le_rfl, rfl, rfl⟩
  | some l => exact (hfit l h).mono hT

theorem level_limiterFor : (rl.limiterFor ip τ).level τ = rl.levelOf ip τ := by
  unfold limiterFor levelOf
  cases rl.limiters ip with
  | none => exact SimpleLimiter.level_new _ _ _
  | some l => rfl

/-- The bucket of an IP earns at most its rate while time passes. -/
theorem levelOf_le_add (hfit : ∀ l, rl.limiters ip = some l → Fits rl.config T l) (hT : T ≤ τ) :
    rl.levelOf ip τ ≤ rl.levelOf ip T + (max rl.config.requestsPerSecond 1).toNat * (τ - T) := by
  unfold levelOf
  cases h : rl.limiters ip with
  | none =>
    have : (0 : ℚ) ≤ (max rl.config.requestsPerSecond 1).toNat * (τ - T) :=
      mul_nonneg (Nat.cast_nonneg _) (sub_nonneg.2 hT)
    dsimp only
    linarith
  | some l =>
    rw [← (hfit l h).ratePerSec_eq]
    exact level_le_add (Nat.cast_nonneg _) hT

theorem levelOf_nonneg (hfit : ∀ l, rl.limiters ip = some l → Fits rl.config T l) :
    0 ≤ rl.levelOf ip T := by
  unfold levelOf
  cases h : rl.limiters ip with
  | none => exact Nat.cast_nonneg _
  | some l =>
    exact level_nonneg (Nat.cast_nonneg _) (hfit l h).inv.tokens_nonneg (Nat.cast_nonneg _)
      (hfit l h).lastUpdate_le

theorem levelOf_le_cap (hfit : ∀ l, rl.limiters ip = some l → Fits rl.config T l) :
    rl.levelOf ip T ≤ (max rl.config.burst 1).toNat := by
  unfold levelOf
  cases h : rl.limiters ip with
  | none => exact le_rfl
  | some l => rw [← (hfit l h).burstSize_eq]; exact level_le_cap

variable [DecidableEq Ip] {gs : List (ℚ × ℚ)}

/-- A check of another IP at `τ` is an idle step of the bucket of `ip`. -/
theorem within_check_of_ne {ip' : Ip} (hne : ip' ≠ ip)
    (hfit : ∀ l, rl.limiters ip = some l → Fits rl.config T l) (hτ : T ≤ τ)
    (hlater : ∀ g ∈ gs, τ ≤ g.1)
    (h : Within ((max rl.config.burst 1).toNat : ℚ) (max rl.config.requestsPerSecond 1).toNat τ
      ((rl.check ip' τ).2.levelOf ip τ) gs) :
    Within ((max rl.config.burst 1).toNat : ℚ) (max rl.config.requestsPerSecond 1).toNat T
      (rl.levelOf ip T) gs := by
  have hsame : (rl.check ip' τ).2.levelOf ip τ = rl.levelOf ip τ := by
    unfold levelOf
    rw [check_limiters_of_ne rl hne, check_config]
  rw [hsame] at h
  have hfit' : ∀ l, rl.limiters ip = some l → Fits rl.config τ l := fun l hl => (hfit l hl).mono hτ
  exact Within.idle (Nat.cast_nonneg _) (Nat.cast_nonneg _) (levelOf_nonneg hfit) hτ hlater
    (levelOf_le_add hfit hτ) (levelOf_le_cap hfit') h

/-- A check of `ip` at `τ` is one call of its limiter, created at `τ` if it is
the first. -/
theorem within_check_self (hen : rl.config.enabled = true)
    (hfit : ∀ l, rl.limiters ip = some l → Fits rl.config T l) (hτ : T ≤ τ)
    (hlater : ∀ g ∈ gs, τ ≤ g.1)
    (h : Within ((max rl.config.burst 1).toNat : ℚ) (max rl.config.requestsPerSecond 1).toNat τ
      ((rl.check ip τ).2.levelOf ip τ) gs) :
    Within ((max rl.config.burst 1).toNat : ℚ) (max rl.config.requestsPerSecond 1).toNat T
      (rl.levelOf ip T) ((if (rl.check ip τ).1 then [(τ, 1)] else []) ++ gs) := by
  have hl := fits_limiterFor hfit hτ
  have hchk := check_of_enabled hen ip τ
  have hlev : (rl.check ip τ).2.levelOf ip τ = ((rl.limiterFor ip τ).tryTake τ 1).2.level τ := by
    rw [hchk]
    simp [levelOf]
  rw [hlev, ← hl.burstSize_eq, ← hl.ratePerSec_eq] at h
  -- the call, from the limiter's last refill to `τ`
  have hcall := SimpleLimiter.within_tryTake hl.inv hl.lastUpdate_le le_rfl hlater h
  have hb : (rl.check ip τ).1 = ((rl.limiterFor ip τ).tryTake τ 1).1 := by rw [hchk]
  rw [UInt32.toNat_one, Nat.cast_one, ← hb] at hcall
  rw [hl.burstSize_eq, hl.ratePerSec_eq, level_limiterFor] at hcall
  -- then back from `τ` to `T`, which no grant lies before
  have hlater' : ∀ g ∈ (if (rl.check ip τ).1 then [(τ, (1 : ℚ))] else []) ++ gs, τ ≤ g.1 := by
    intro g hg
    rcases List.mem_append.1 hg with hg | hg
    · split at hg
      · rw [List.mem_singleton.1 hg]
      · cases hg
    · exact hlater g hg
  have hfit' : ∀ l, rl.limiters ip = some l → Fits rl.config τ l := fun l hl => (hfit l hl).mono hτ
  exact Within.idle (Nat.cast_nonneg _) (Nat.cast_nonneg _) (levelOf_nonneg hfit) hτ hlater'
    (levelOf_le_add hfit hτ) (levelOf_le_cap hfit') hcall

/-- After a check at `τ`, the limiter of `ip` still fits, now up to `τ`. -/
theorem fits_check (hen : rl.config.enabled = true)
    (hfit : ∀ l, rl.limiters ip = some l → Fits rl.config T l) (hτ : T ≤ τ) (ip' : Ip) :
    ∀ l, (rl.check ip' τ).2.limiters ip = some l → Fits (rl.check ip' τ).2.config τ l := by
  intro l hl
  rw [check_config]
  by_cases hip : ip' = ip
  · -- the checked limiter, after one call
    subst hip
    rw [check_of_enabled hen] at hl
    simp only [Function.update_self, Option.some.injEq] at hl
    rw [← hl]
    exact (fits_limiterFor hfit hτ).tryTake 1
  · rw [check_limiters_of_ne rl hip] at hl
    exact (hfit l hl).mono hτ

/-- The run invariant of one IP's bucket over a run of checks of any IPs in
clock order from `T` on, by induction on the run: each check is a
`within_check_self` or a `within_check_of_ne` step. -/
theorem acceptedTimes_within {cs : List (Ip × ℚ)} (hen : rl.config.enabled = true)
    (hfit : ∀ l, rl.limiters ip = some l → Fits rl.config T l)
    (hs : (T :: cs.map Prod.snd).Pairwise (· ≤ ·)) :
    Within ((max rl.config.burst 1).toNat : ℚ) (max rl.config.requestsPerSecond 1).toNat T
      (rl.levelOf ip T) ((rl.acceptedTimes cs ip).map fun τ => (τ, 1)) := by
  induction cs generalizing rl T with
  | nil =>
    exact within_nil (Nat.cast_nonneg _) (Nat.cast_nonneg _) (levelOf_nonneg hfit)
  | cons c cs ih =>
    obtain ⟨ip', τ⟩ := c
    obtain ⟨hTc, hs'⟩ := List.pairwise_cons.1 hs
    have hτ : T ≤ τ := hTc τ List.mem_cons_self
    have hlater : ∀ g ∈ ((rl.check ip' τ).2.acceptedTimes cs ip).map (fun τ => (τ, (1 : ℚ))),
        τ ≤ g.1 := by
      intro g hg
      obtain ⟨x, hx, rfl⟩ := List.mem_map.1 hg
      exact (List.pairwise_cons.1 hs').1 _ (mem_acceptedTimes hx)
    have hen' : (rl.check ip' τ).2.config.enabled = true := by rw [check_config]; exact hen
    have ih' := ih hen' (fits_check hen hfit hτ ip') hs'
    rw [check_config] at ih'
    rw [acceptedTimes_cons]
    by_cases hip : ip' = ip
    · subst hip
      have hstep := within_check_self hen hfit hτ hlater ih'
      simp only [and_true]
      rw [List.map_append, apply_ite (List.map fun τ => (τ, (1 : ℚ)))]
      exact hstep
    · rw [if_neg fun h => hip h.2, List.nil_append]
      exact within_check_of_ne hip hfit hτ hlater ih'

end PerIp

/-- An enabled `RateLimiter` conforms, for each IP, to the bucket
`(max(burst, 1), max(requests_per_second, 1))`, over any run of checks of any
IPs in clock order. -/
theorem acceptedTimes_conform [DecidableEq Ip] (config : RateLimitConfig)
    (hen : config.enabled = true) {cs : List (Ip × ℚ)} (hs : (cs.map Prod.snd).Pairwise (· ≤ ·))
    (ip : Ip) :
    Conforms ((max config.burst 1).toNat : ℚ) (max config.requestsPerSecond 1).toNat
      (((new config : RateLimiter Ip).acceptedTimes cs ip).map fun τ => (τ, 1)) := by
  cases cs with
  | nil =>
    intro s t hst
    rw [acceptedTimes_nil, List.map_nil, windowSum_nil]
    exact add_nonneg (Nat.cast_nonneg _) (mul_nonneg (Nat.cast_nonneg _) (sub_nonneg.2 hst))
  | cons c cs =>
    -- start the invariant at the first check, when no limiter exists yet
    have hs' : (c.2 :: (c :: cs).map Prod.snd).Pairwise (· ≤ ·) := by
      refine List.pairwise_cons.2 ⟨fun b hb => ?_, hs⟩
      rcases List.mem_cons.1 hb with rfl | hb
      · exact le_rfl
      · exact (List.pairwise_cons.1 hs).1 b hb
    have h : Within ((max config.burst 1).toNat : ℚ) (max config.requestsPerSecond 1).toNat c.2
        ((new config : RateLimiter Ip).levelOf ip c.2)
        (((new config : RateLimiter Ip).acceptedTimes (c :: cs) ip).map fun τ => (τ, 1)) :=
      acceptedTimes_within hen (fun _ hl => by cases hl) hs'
    refine h.conforms (Nat.cast_nonneg _) (Nat.cast_nonneg _) le_rfl fun g hg => ?_
    obtain ⟨x, hx, rfl⟩ := List.mem_map.1 hg
    exact (List.pairwise_cons.1 hs').1 _ (mem_acceptedTimes hx)

end RateLimiter

/-- Token-bucket conformance.  A `SimpleLimiter` created at `t0` with any rate
and burst, over any run of `check_n` calls and passes of `until_n_ready` in lock
order with a clock that does not go back, grants at most
`burst_size + rate_per_sec * (t - s)` in total at times in any window `[s, t]`.
An enabled `RateLimiter`, over any run of checks, accepts at most
`max(burst, 1) + max(requests_per_second, 1) * (t - s)` checks of one IP at
times in `[s, t]`, whatever checks of other IPs come between. -/
theorem limiter_conformance :
    (∀ (ratePerSec burstSize : UInt32) (t0 : ℚ) (as : List SimpleLimiter.Attempt),
      (t0 :: as.map SimpleLimiter.Attempt.now).Pairwise (· ≤ ·) →
        Conforms (burstSize.toNat : ℚ) ratePerSec.toNat
          ((SimpleLimiter.new ratePerSec burstSize t0).grants as)) ∧
    ∀ {Ip : Type} [DecidableEq Ip] (config : RateLimitConfig) (cs : List (Ip × ℚ)) (ip : Ip)
      (s t : ℚ), config.enabled = true → (cs.map Prod.snd).Pairwise (· ≤ ·) → s ≤ t →
        ((((RateLimiter.new config).acceptedTimes cs ip).filter fun τ => s ≤ τ ∧ τ ≤ t).length : ℚ) ≤
          (max config.burst 1).toNat + (max config.requestsPerSecond 1).toNat * (t - s) := by
  refine ⟨fun ratePerSec burstSize t0 _ hs => SimpleLimiter.new_grants_conform ratePerSec burstSize t0 hs, ?_⟩
  intro Ip _ config cs ip s t hen hs hst
  rw [← windowSum_unit]
  exact RateLimiter.acceptedTimes_conform config hen hs ip s t hst

theorem limiter_conformance_two_checks :
    ((0 : ℚ) :: [SimpleLimiter.Attempt.mk .checkN 1 1].map SimpleLimiter.Attempt.now).Pairwise
        (· ≤ ·) ∧
      Conforms ((2 : UInt32).toNat : ℚ) (1 : UInt32).toNat
        ((SimpleLimiter.new 1 2 0).grants [⟨.checkN, 1, 1⟩]) ∧
      (RateLimitConfig.mk true 1 1).enabled = true ∧
      ([((7 : ℕ), (0 : ℚ)), (7, 1)].map Prod.snd).Pairwise (· ≤ ·) ∧ (0 : ℚ) ≤ 1 ∧
      ((((RateLimiter.new ⟨true, 1, 1⟩ : RateLimiter ℕ).acceptedTimes [(7, 0), (7, 1)] 7).filter
          fun τ => (0 : ℚ) ≤ τ ∧ τ ≤ 1).length : ℚ) ≤
        (max (1 : UInt32) 1).toNat + (max (1 : UInt32) 1).toNat * (1 - 0) :=
  ⟨by decide, limiter_conformance.1 1 2 0 _ (by decide), rfl, by decide, by decide,
    limiter_conformance.2 _ _ 7 0 1 rfl (by decide) (by decide)⟩

end Layer4Lb
