import Layer4Lb.Traffic.Limiter
import Layer4Lb.Traffic.Bandwidth
import Layer4Lb.Traffic.Manager

/-!
# Check, then wait

`RateLimitedStream` asks its limiter with `check_n` first and, when refused,
waits in `until_n_ready` for the same number of tokens.  Two facts make that
sound.

A refused `check_n` leaves no trace: it only makes the lazy refill happen at its
clock reading, and a refill at `t₁` followed by one at `t₂ ≥ t₁` is the refill at
`t₂`, whether the cap was met or not.  Every later call returns what it would have
returned without the refused one.

The wait is finite and long enough.  A pass of `until_n_ready` that does not
grant sleeps `(n - tokens) / rate_per_sec`, which is positive and at most
`n / rate_per_sec` while the bucket holds between no tokens and a full one.
After that sleep, with no other caller taking tokens in between, the bucket
holds `n` tokens again, provided `n` is at most the burst size.  The stream asks
for a chunk of 1 to 16384 tokens, and the limiters the manager creates hold up
to 65536 tokens and earn at least 1024 a second.
-/

namespace Layer4Lb

open TokenBucket

namespace SimpleLimiter

/-! ## Refills compose -/

/-- A refill earns tokens exactly when the clock has moved past `last_update`
and the rate is not zero. -/
theorem earns_iff {last now r : ℚ} : 0 < max (now - last) 0 * r ↔ last < now ∧ 0 < r := by
  by_cases hl : last < now
  · rw [max_eq_left (sub_nonneg.2 hl.le), mul_pos_iff_of_pos_left (sub_pos.2 hl)]
    exact ⟨fun h => ⟨hl, h⟩, fun h => h.2⟩
  · rw [max_eq_right (sub_nonpos.2 (not_lt.1 hl)), zero_mul]
    exact ⟨fun h => absurd h (lt_irrefl 0), fun h => absurd h.1 hl⟩

section Refill

variable (l : SimpleLimiter) {now : ℚ}

/-- A refill that earns nothing leaves the limiter as it was. -/
theorem refill_of_not_earned (h : ¬ (l.state.lastUpdate < now ∧ 0 < (l.ratePerSec.toNat : ℚ))) :
    l.refill now = l := by
  dsimp only [refill]
  rw [if_neg (earns_iff.not.2 h)]

/-- A refill that earns adds what was earned since `last_update`, capped at the
burst size, and moves `last_update` to `now`. -/
theorem refill_of_earned (h : l.state.lastUpdate < now ∧ 0 < (l.ratePerSec.toNat : ℚ)) :
    l.refill now =
      { l with state := ⟨min (l.state.tokens + (now - l.state.lastUpdate) * l.ratePerSec.toNat)
          l.burstSize.toNat, now⟩ } := by
  dsimp only [refill]
  rw [if_pos (earns_iff.2 h), max_eq_left (sub_nonneg.2 h.1.le)]

/-- A refill at `t₁` followed by one at `t₂ ≥ t₁` is the refill at `t₂`. -/
theorem refill_refill {t₁ t₂ : ℚ} (h : t₁ ≤ t₂) : (l.refill t₁).refill t₂ = l.refill t₂ := by
  by_cases h₁ : l.state.lastUpdate < t₁ ∧ 0 < (l.ratePerSec.toNat : ℚ)
  · -- the first refill earned, and moved `last_update` to `t₁`
    have e₁ := l.refill_of_earned h₁
    rcases h.lt_or_eq with h₂ | rfl
    · -- the second earns from `t₁` on: capping twice is capping once
      have h₂' : (l.refill t₁).state.lastUpdate < t₂ ∧ 0 < ((l.refill t₁).ratePerSec.toNat : ℚ) := by
        rw [e₁]; exact ⟨h₂, h₁.2⟩
      have hb : 0 ≤ (t₂ - t₁) * (l.ratePerSec.toNat : ℚ) :=
        mul_nonneg (sub_nonneg.2 h) h₁.2.le
      have hsplit : (t₁ - l.state.lastUpdate) * l.ratePerSec.toNat + (t₂ - t₁) * l.ratePerSec.toNat =
          (t₂ - l.state.lastUpdate) * l.ratePerSec.toNat := by ring
      rw [refill_of_earned _ h₂', l.refill_of_earned ⟨h₁.1.trans h₂, h₁.2⟩, e₁]
      simp only [min_add_min_cap _ _ _ _ hb, hsplit]
    · -- at `t₁` again nothing more is earned
      have h₂' : ¬ ((l.refill t₁).state.lastUpdate < t₁ ∧ 0 < ((l.refill t₁).ratePerSec.toNat : ℚ)) := by
        rw [e₁]; exact fun h => lt_irrefl _ h.1
      exact refill_of_not_earned _ h₂'
  · rw [l.refill_of_not_earned h₁]

/-- A call at `t₂` after a refill at `t₁ ≤ t₂` does what it does without it. -/
theorem tryTake_refill {t₁ t₂ : ℚ} (h : t₁ ≤ t₂) (n : UInt32) :
    (l.refill t₁).tryTake t₂ n = l.tryTake t₂ n := by
  dsimp only [tryTake]
  rw [refill_refill l h]

end Refill

/-! ## One call under the lock -/

section Call

variable {l : SimpleLimiter} {now : ℚ} {n : UInt32}

/-- `tryTake` grants exactly when the refilled bucket holds `n` tokens. -/
theorem tryTake_fst (l : SimpleLimiter) (now : ℚ) (n : UInt32) :
    (l.tryTake now n).1 = decide ((n.toNat : ℚ) ≤ (l.refill now).state.tokens) := by
  dsimp only [tryTake]
  split
  · rename_i hn
    rw [decide_eq_true hn]
  · rename_i hn
    rw [decide_eq_false hn]

/-- `tryTake` refuses exactly when the refilled bucket holds fewer than `n`
tokens. -/
theorem tryTake_fst_eq_false_iff :
    (l.tryTake now n).1 = false ↔ (l.refill now).state.tokens < n.toNat := by
  rw [tryTake_fst, decide_eq_false_iff_not, not_le]

/-- A call that finds fewer than `n` tokens after its refill takes none and
leaves the refilled limiter. -/
theorem tryTake_of_lt (h : (l.refill now).state.tokens < n.toNat) :
    l.tryTake now n = (false, l.refill now) := by
  dsimp only [tryTake]
  rw [if_neg (not_le.2 h)]

/-- What `check_n` leaves when it refuses: the refilled limiter, no token taken. -/
theorem checkN_snd_of_error (h : (l.checkN now n).1 = .error ()) :
    (l.checkN now n).2 = l.refill now := by
  -- a refusal found fewer than `n` tokens
  have hlt : (l.refill now).state.tokens < n.toNat := by
    rw [← tryTake_fst_eq_false_iff, ← checkN_isOk, h]
    rfl
  rw [checkN_snd, tryTake_of_lt hlt]

end Call

/-! ## Runs of calls -/

/-- A call at its clock reading: what it returns (`check_n`'s `Result`, or the
sleep a pass of `until_n_ready` computes, `none` when it returns), and the
limiter after it. -/
def perform (l : SimpleLimiter) (a : Attempt) : (Except Unit Unit ⊕ Option ℚ) × SimpleLimiter :=
  match a.call with
  | .checkN => let r := l.checkN a.now a.n; (.inl r.1, r.2)
  | .untilNReady => let r := l.untilNReadyStep a.now a.n; (.inr r.1, r.2)

/-- A run of calls in lock order: what each returns, and the limiter after. -/
def runCalls (l : SimpleLimiter) : List Attempt → List (Except Unit Unit ⊕ Option ℚ) × SimpleLimiter
  | [] => ([], l)
  | a :: as =>
    let r := l.perform a
    let rest := runCalls r.2 as
    (r.1 :: rest.1, rest.2)

/-- Both kinds of call leave what `tryTake` leaves. -/
@[simp] theorem perform_snd (l : SimpleLimiter) (a : Attempt) :
    (l.perform a).2 = (l.tryTake a.now a.n).2 := by
  obtain ⟨call, now, n⟩ := a
  cases call <;> rfl

@[simp] theorem runCalls_ratePerSec (l : SimpleLimiter) (as : List Attempt) :
    (l.runCalls as).2.ratePerSec = l.ratePerSec := by
  induction as generalizing l with
  | nil => rfl
  | cons a as ih => rw [runCalls, ih, perform_snd, tryTake_ratePerSec]

@[simp] theorem runCalls_burstSize (l : SimpleLimiter) (as : List Attempt) :
    (l.runCalls as).2.burstSize = l.burstSize := by
  induction as generalizing l with
  | nil => rfl
  | cons a as ih => rw [runCalls, ih, perform_snd, tryTake_burstSize]

/-- Both kinds of call are functions of `tryTake`. -/
theorem perform_refill (l : SimpleLimiter) {t₁ : ℚ} {a : Attempt} (h : t₁ ≤ a.now) :
    (l.refill t₁).perform a = l.perform a := by
  obtain ⟨call, now, n⟩ := a
  cases call <;> simp only [perform, checkN, untilNReadyStep, tryTake_refill l h]

/-- A run at clock readings from `t₁` on, after a refill at `t₁`, is the run
without it. -/
theorem runCalls_refill (l : SimpleLimiter) {t₁ : ℚ} {as : List Attempt}
    (h : ∀ a ∈ as, t₁ ≤ a.now) (hne : as ≠ []) : (l.refill t₁).runCalls as = l.runCalls as := by
  cases as with
  | nil => exact absurd rfl hne
  | cons a as => rw [runCalls, runCalls, perform_refill l (h a List.mem_cons_self)]

/-- What the calls of such a run return is the same, the empty run included. -/
theorem runCalls_fst_refill (l : SimpleLimiter) {t₁ : ℚ} {as : List Attempt}
    (h : ∀ a ∈ as, t₁ ≤ a.now) : ((l.refill t₁).runCalls as).1 = (l.runCalls as).1 := by
  cases as with
  | nil => rfl
  | cons a as => rw [runCalls_refill l h (List.cons_ne_nil a as)]

/-! ## Waiting in `until_n_ready` -/

section Wait

variable {l : SimpleLimiter} {now w : ℚ} {n : UInt32}

/-- A pass of `until_n_ready` returns exactly when the refilled bucket holds `n`
tokens. -/
theorem untilNReadyStep_fst_eq_none_iff :
    (l.untilNReadyStep now n).1 = none ↔ (n.toNat : ℚ) ≤ (l.refill now).state.tokens := by
  rw [← Option.isNone_iff_eq_none, untilNReadyStep_isNone, tryTake_fst, decide_eq_true_iff]

/-- A pass that does not return found fewer than `n` tokens after its refill,
sleeps for the tokens missing at the rate, and leaves the refilled limiter. -/
theorem untilNReadyStep_eq_some (h : (l.untilNReadyStep now n).1 = some w) :
    (l.refill now).state.tokens < n.toNat ∧
      w = (n.toNat - (l.refill now).state.tokens) / l.ratePerSec.toNat ∧
      (l.untilNReadyStep now n).2 = l.refill now := by
  have hlt : (l.refill now).state.tokens < n.toNat := by
    rw [← tryTake_fst_eq_false_iff, ← untilNReadyStep_isNone, h]
    rfl
  have ht := tryTake_of_lt hlt
  -- the sleep it computes from the refilled limiter
  have hw : w = (n.toNat - (l.refill now).state.tokens) / (l.refill now).ratePerSec.toNat := by
    dsimp only [untilNReadyStep] at h
    rw [ht] at h
    exact (Option.some.inj h).symm
  rw [refill_ratePerSec] at hw
  exact ⟨hlt, hw, by rw [untilNReadyStep_snd, ht]⟩

/-- The sleep is positive, and at most `n / rate_per_sec` while the bucket holds
no fewer than no tokens: `Duration::from_secs_f64` gets a finite, positive
number. -/
theorem wait_pos_le (hl : l.Inv) (hr : 1 ≤ l.ratePerSec.toNat)
    (h : (l.untilNReadyStep now n).1 = some w) :
    0 < w ∧ w ≤ (n.toNat : ℚ) / l.ratePerSec.toNat := by
  obtain ⟨hlt, rfl, -⟩ := untilNReadyStep_eq_some h
  have hr' : (0 : ℚ) < l.ratePerSec.toNat := by exact_mod_cast hr
  have h0 : 0 ≤ (l.refill now).state.tokens := hl.refill.tokens_nonneg
  exact ⟨div_pos (sub_pos.2 hlt) hr', div_le_div_of_nonneg_right (by linarith) hr'.le⟩

/-- After the sleep, with no call in between, the next pass returns: the bucket
has earned what was missing, and holds `n` under its cap since `n` is at most
the burst size. -/
theorem untilNReadyStep_after_wait (hl : l.Inv) (hr : 1 ≤ l.ratePerSec.toNat)
    (hnB : n.toNat ≤ l.burstSize.toNat) (hL : l.state.lastUpdate ≤ now)
    (h : (l.untilNReadyStep now n).1 = some w) {t : ℚ} (ht : now + w ≤ t) :
    ((l.untilNReadyStep now n).2.untilNReadyStep t n).1 = none := by
  have hw := (wait_pos_le hl hr h).1
  obtain ⟨hlt, hweq, hst⟩ := untilNReadyStep_eq_some h
  rw [hst, untilNReadyStep_fst_eq_none_iff]
  -- the pass at `t` earns: the bucket was last refilled no later than `now`
  have hr' : (0 : ℚ) < l.ratePerSec.toNat := by exact_mod_cast hr
  have hL' : (l.refill now).state.lastUpdate ≤ now := refill_lastUpdate_le hL
  have hearn : (l.refill now).state.lastUpdate < t ∧ 0 < ((l.refill now).ratePerSec.toNat : ℚ) := by
    rw [refill_ratePerSec]
    exact ⟨by linarith, hr'⟩
  rw [refill_of_earned _ hearn, refill_ratePerSec, refill_burstSize]
  -- and earns at least the `w * rate_per_sec` tokens that were missing
  have hmiss : w * l.ratePerSec.toNat = n.toNat - (l.refill now).state.tokens := by
    rw [hweq, div_mul_cancel₀ _ hr'.ne']
  have hgain : w * l.ratePerSec.toNat ≤ (t - (l.refill now).state.lastUpdate) * l.ratePerSec.toNat :=
    mul_le_mul_of_nonneg_right (by linarith) hr'.le
  refine le_min ?_ (by exact_mod_cast hnB)
  linarith

end Wait

end SimpleLimiter

/-- Any run of calls keeps what the manager gives a limiter, by induction on the
run from `Fits.tryTake`. -/
theorem BandwidthManager.Fits.runCalls {l : SimpleLimiter} (h : BandwidthManager.Fits l)
    (as : List SimpleLimiter.Attempt) : BandwidthManager.Fits (l.runCalls as).2 := by
  induction as generalizing l with
  | nil => exact h
  | cons a as ih =>
    rw [SimpleLimiter.runCalls]
    apply ih
    rw [SimpleLimiter.perform_snd]
    exact h.tryTake a.now a.n

/-- A refused `check_n` does not change the limiter's future.  Refills compose:
one at `t₁` and then one at `t₂ ≥ t₁` is the one at `t₂`.  A `check_n` for `n`
at `t₁` that returns `Err` takes no tokens and leaves the limiter refilled at
`t₁`; every later run of `check_n` calls and passes of `until_n_ready` at clock
readings from `t₁` on returns what it returns without the refused call, and
leaves the same limiter once it has made a call. -/
theorem refused_check_leaves_no_trace :
    (∀ (l : SimpleLimiter) (t₁ t₂ : ℚ), t₁ ≤ t₂ → (l.refill t₁).refill t₂ = l.refill t₂) ∧
    ∀ (l : SimpleLimiter) (t₁ : ℚ) (n : UInt32) (as : List SimpleLimiter.Attempt),
      (l.checkN t₁ n).1 = .error () → (∀ a ∈ as, t₁ ≤ a.now) →
        (l.checkN t₁ n).2 = l.refill t₁ ∧
        ((l.checkN t₁ n).2.runCalls as).1 = (l.runCalls as).1 ∧
        (as ≠ [] → ((l.checkN t₁ n).2.runCalls as).2 = (l.runCalls as).2) := by
  refine ⟨fun l t₁ t₂ h => l.refill_refill h, ?_⟩
  intro l t₁ n as herr hlater
  have hst := SimpleLimiter.checkN_snd_of_error herr
  refine ⟨hst, ?_, fun hne => ?_⟩
  · rw [hst]
    exact l.runCalls_fst_refill hlater
  · rw [hst, l.runCalls_refill hlater hne]

theorem refused_check_leaves_no_trace_retry :
    ((SimpleLimiter.new 1 2 0).checkN 0 5).1 = .error () ∧
      (∀ a ∈ [SimpleLimiter.Attempt.mk .untilNReady 4 5], (0 : ℚ) ≤ a.now) ∧
      (((SimpleLimiter.new 1 2 0).checkN 0 5).2.runCalls [⟨.untilNReady, 4, 5⟩]).1 =
        ((SimpleLimiter.new 1 2 0).runCalls [⟨.untilNReady, 4, 5⟩]).1 := by
  have herr : ((SimpleLimiter.new 1 2 0).checkN 0 5).1 = .error () := by
    norm_num [SimpleLimiter.checkN, SimpleLimiter.tryTake, SimpleLimiter.refill, SimpleLimiter.new,
      UInt32.toNat_ofNat]
  have hlater : ∀ a ∈ [SimpleLimiter.Attempt.mk .untilNReady 4 5], (0 : ℚ) ≤ a.now := by
    simp
  exact ⟨herr, hlater, (refused_check_leaves_no_trace.2 _ 0 5 _ herr hlater).2.1⟩

/-- `until_n_ready` waits a sound, finite time.  A pass that does not grant, on
a limiter between no tokens and a full bucket with a rate of at least 1 and a
request of at most the burst size, sleeps a positive time of at most
`n / rate_per_sec`, and the pass after that sleep grants if no call came in
between.  The requests a side of a `RateLimitedStream` makes, from its creation
and over any run of polls, are for 1 to 16384 tokens, so `NonZeroU32::new`
never fails.  Over any run of connection setups, every limiter address a
`ProxyConfig` gets names a limiter `get_or_create_limiter` made for its side: the
bucket invariant, a burst of 65536 and a rate of `max(rate, 1024)` of the
section and direction of that side.  Every limiter of the manager keeps, over
any run of calls, the bucket invariant, its burst of 65536 and its rate of at
least 1024: every request of a stream meets the bound. -/
theorem until_n_ready_waits_enough :
    (∀ (l : SimpleLimiter) (now w : ℚ) (n : UInt32), l.Inv → 1 ≤ l.ratePerSec.toNat →
        n.toNat ≤ l.burstSize.toNat → l.state.lastUpdate ≤ now →
        (l.untilNReadyStep now n).1 = some w →
          0 < w ∧ w ≤ (n.toNat : ℚ) / l.ratePerSec.toNat ∧
            ∀ t, now + w ≤ t → ((l.untilNReadyStep now n).2.untilNReadyStep t n).1 = none) ∧
    (∀ es : List PollEnv, ∀ n ∈ limitedRequests none es, 1 ≤ n.toNat ∧ n.toNat ≤ chunkSize) ∧
    ∀ {Ip : Type} [DecidableEq Ip] [ToString Ip] (config : BandwidthLimitConfig)
      (cs : List (Ip × ℚ)),
      (∀ pl ∈ ((BandwidthManager.new config : BandwidthManager Ip).runSetups cs).1,
        pl.MadeIn config ((BandwidthManager.new config : BandwidthManager Ip).runSetups cs).2.limiters) ∧
      ∀ l ∈ ((BandwidthManager.new config : BandwidthManager Ip).runSetups cs).2.limiters,
      ∀ as : List SimpleLimiter.Attempt,
        (l.runCalls as).2.Inv ∧ (l.runCalls as).2.burstSize = l.burstSize ∧
          (l.runCalls as).2.ratePerSec = l.ratePerSec ∧ l.burstSize.toNat = 65536 ∧
          1024 ≤ l.ratePerSec.toNat := by
  refine ⟨?pass, ?requests, ?manager⟩
  case pass =>
    intro l now w n hl hr hnB hL h
    obtain ⟨hpos, hle⟩ := SimpleLimiter.wait_pos_le hl hr h
    exact ⟨hpos, hle, fun t ht => SimpleLimiter.untilNReadyStep_after_wait hl hr hnB hL h ht⟩
  case requests =>
    exact limitedRequests_sized fun _ h => by cases h
  case manager =>
    intro Ip _ _ config cs
    refine ⟨((BandwidthManager.addressed_new config).runSetups cs).2, fun l hl as => ?_⟩
    have hfit := (BandwidthManager.allFit_new config).runSetups cs l hl
    exact ⟨(hfit.runCalls as).inv, l.runCalls_burstSize as, l.runCalls_ratePerSec as,
      hfit.burstSize_eq, hfit.ratePerSec_ge⟩

/-- Bandwidth limiting with both sections: clients upload at 2000 bytes a second
and download at 512, backends upload at 100 and download at 4096. -/
def bothSections : BandwidthLimitConfig := ⟨true, some ⟨2000, 512⟩, some ⟨100, 4096⟩⟩

theorem until_n_ready_waits_enough_one_client :
    (⟨1, 2, ⟨0, 0⟩⟩ : SimpleLimiter).Inv ∧ 1 ≤ (⟨1, 2, ⟨0, 0⟩⟩ : SimpleLimiter).ratePerSec.toNat ∧
      (2 : UInt32).toNat ≤ (⟨1, 2, ⟨0, 0⟩⟩ : SimpleLimiter).burstSize.toNat ∧
      (⟨1, 2, ⟨0, 0⟩⟩ : SimpleLimiter).state.lastUpdate ≤ 0 ∧
      ((⟨1, 2, ⟨0, 0⟩⟩ : SimpleLimiter).untilNReadyStep 0 2).1 = some 2 ∧
      (((⟨1, 2, ⟨0, 0⟩⟩ : SimpleLimiter).untilNReadyStep 0 2).2.untilNReadyStep 2 2).1 = none ∧
      ((BandwidthManager.new bothSections : BandwidthManager ℕ).runSetups [(7, 0)]).1 =
        [⟨some 0, some 1, some 2, some 3⟩] ∧
      BandwidthManager.MadeAt
        ((BandwidthManager.new bothSections : BandwidthManager ℕ).runSetups [(7, 0)]).2.limiters 512 1 ∧
      BandwidthManager.MadeAt
        ((BandwidthManager.new bothSections : BandwidthManager ℕ).runSetups [(7, 0)]).2.limiters 100 3 := by
  have hl : (⟨1, 2, ⟨0, 0⟩⟩ : SimpleLimiter).Inv := ⟨le_rfl, by norm_num⟩
  have hr : 1 ≤ (⟨1, 2, ⟨0, 0⟩⟩ : SimpleLimiter).ratePerSec.toNat := by decide
  have hnB : (2 : UInt32).toNat ≤ (⟨1, 2, ⟨0, 0⟩⟩ : SimpleLimiter).burstSize.toNat := by decide
  have hL : (⟨1, 2, ⟨0, 0⟩⟩ : SimpleLimiter).state.lastUpdate ≤ 0 := le_rfl
  -- an empty bucket at a rate of 1: two seconds for two tokens
  have hw : ((⟨1, 2, ⟨0, 0⟩⟩ : SimpleLimiter).untilNReadyStep 0 2).1 = some 2 := by
    norm_num [SimpleLimiter.untilNReadyStep, SimpleLimiter.tryTake, SimpleLimiter.refill,
      UInt32.toNat_ofNat]
  -- one connection from client `7`: its client writes and backend writes go to
  -- limiters `1` and `3`, made at the client download and backend upload rates
  have hpl : ((BandwidthManager.new bothSections : BandwidthManager ℕ).runSetups [(7, 0)]).1 =
      [⟨some 0, some 1, some 2, some 3⟩] := by decide
  have hmem : (⟨some 0, some 1, some 2, some 3⟩ : BandwidthManager.ProxyLimiters) ∈
      ((BandwidthManager.new bothSections : BandwidthManager ℕ).runSetups [(7, 0)]).1 := by
    rw [hpl]
    exact List.mem_singleton_self _
  have hmade := (until_n_ready_waits_enough.2.2 bothSections [((7 : ℕ), (0 : ℚ))]).1 _ hmem
  obtain ⟨c, hc, hwrite⟩ := hmade.clientWrite 1 rfl
  obtain ⟨b, hb, hbackend⟩ := hmade.backendWrite 3 rfl
  cases hc
  cases hb
  exact ⟨hl, hr, hnB, hL, hw,
    (until_n_ready_waits_enough.1 _ 0 2 2 hl hr hnB hL hw).2.2 2 (by norm_num), hpl, hwrite,
    hbackend⟩

end Layer4Lb
