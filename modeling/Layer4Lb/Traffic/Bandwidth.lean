import Mathlib

/-!
# Rate-limited streams

`RateLimitedStream` of `traffic/bandwidth.rs`.  `poll_read` and `poll_write`
run the same loop when their side has a limiter: pay for a chunk of at most
`chunk_size` bytes, sized from the room the caller's buffer offers, with
`check_n` or else with a permit future that runs `until_n_ready`; then offer the
inner stream a chunk sized from the room the buffer offers *now*.  The permit
future is kept across polls, so the poll that completes it may see a different
buffer from the poll that sized it.

The world a poll meets (the room the buffer offers, the answers of `check_n` and
of the permit future, what the inner stream does) is an input of the poll, and
a run of polls is a list of such inputs.  The accounting of a run then follows
from the accounting of one poll: each poll pays at most once and moves bytes at
most once, and moves them only after paying.
-/

namespace Layer4Lb

/-- What a `poll_read` or `poll_write` returns: `Ready(Ok)` having moved `n`
bytes, `Ready(Err)`, or `Pending`.  Both the inner stream's polls and the
limited stream's are of this shape. -/
inductive IoPoll
  | ready (n : Nat)
  | err
  | pending
  deriving DecidableEq, Repr

/-- The bytes a poll moved: those of a `Ready(Ok)`. -/
def IoPoll.bytes : IoPoll → Nat
  | .ready n => n
  | .err => 0
  | .pending => 0

/-- What one call of `poll_read` or `poll_write` meets: the room the caller's
buffer offers (`buf.remaining()`, or `buf.len()` for a write), whether
`check_n` grants, whether the permit future it polls completes (having taken its
tokens in `until_n_ready`), and what the inner stream's poll does. -/
structure PollEnv where
  room : Nat
  checkOk : Bool
  permitReady : Bool
  inner : IoPoll
  deriving DecidableEq, Repr

/-- One poll of a limited side: what it returns and the tokens it took from the
limiter. -/
structure PollStep where
  result : IoPoll
  paid : Nat
  deriving DecidableEq, Repr

/-- The bytes a poll moved. -/
def PollStep.moved (st : PollStep) : Nat := st.result.bytes

/-- `chunk_size`. -/
def chunkSize : Nat := 16384

/-- The inner stream's poll on a buffer of `room` bytes: a `ReadBuf` of that
capacity holds at most `room` bytes, and a `poll_write` accepts at most the
slice it is given. -/
def innerPoll (room : Nat) : IoPoll → IoPoll
  | .ready k => .ready (min k room)
  | .err => .err
  | .pending => .pending

/-- Step 3 of the loop, once the tokens are paid: nothing to do on a full buffer,
else offer the inner stream at most `chunk_size` of the room there is now. -/
def transfer (room : Nat) (inner : IoPoll) : IoPoll :=
  if room = 0 then .ready 0
  else innerPoll (min room chunkSize) inner

/-- Step 3 after paying `paid` tokens. -/
def afterPaying (paid : Nat) (e : PollEnv) : PollStep := ⟨transfer e.room e.inner, paid⟩

/-- The loop `poll_read` and `poll_write` run on a side with a limiter, from the
permit future pending on that side (`some n` for one that waits for `n`
tokens): the poll, and the permit future it leaves. -/
def pollLimited (permit : Option UInt32) (e : PollEnv) : PollStep × Option UInt32 :=
  match permit with
  | some n =>
    -- 1. poll the pending permit future; on `Ready` it has paid for `n`
    if e.permitReady then (afterPaying n.toNat e, none)
    else (⟨.pending, 0⟩, some n)
  | none =>
    -- 2. size a request from the room there is now, `NonZeroU32` as it is not `0`
    if e.room = 0 then (⟨.ready 0, 0⟩, none)
    else
      let nReq := (min e.room chunkSize).toUInt32
      if e.checkOk then (afterPaying nReq.toNat e, none)
      -- `Err`: a permit future for `n_req`, polled at once by the loop
      else if e.permitReady then (afterPaying nReq.toNat e, none)
      else (⟨.pending, 0⟩, some nReq)

/-- The tokens a run of polls took. -/
def paidTotal (steps : List PollStep) : Nat := (steps.map PollStep.paid).sum

/-- The bytes a run of polls moved. -/
def movedTotal (steps : List PollStep) : Nat := (steps.map PollStep.moved).sum

/-- The polls of a run of a limited side from the permit future `permit`. -/
def limitedSteps : Option UInt32 → List PollEnv → List PollStep
  | _, [] => []
  | permit, e :: es => (pollLimited permit e).1 :: limitedSteps (pollLimited permit e).2 es

/-! ## One poll -/

theorem bytes_innerPoll_le (room : Nat) (inner : IoPoll) : (innerPoll room inner).bytes ≤ room := by
  cases inner with
  | ready k => exact Nat.min_le_right k room
  | err => exact Nat.zero_le _
  | pending => exact Nat.zero_le _

theorem bytes_transfer_le (room : Nat) (inner : IoPoll) :
    (transfer room inner).bytes ≤ min room chunkSize := by
  unfold transfer
  split
  · exact Nat.zero_le _
  · exact bytes_innerPoll_le _ _

/-- `to_read as u32` is exact: a chunk is far below `2 ^ 32`. -/
theorem toNat_toUInt32_chunk (room : Nat) :
    (min room chunkSize).toUInt32.toNat = min room chunkSize := by
  have h : min room chunkSize < 2 ^ 32 :=
    Nat.lt_of_le_of_lt (Nat.min_le_right _ _) (by decide)
  rw [UInt32.toNat_ofNat', Nat.mod_eq_of_lt h]

/-- What a poll may move beyond what it pays: a poll that completes a permit
future sized for `n` tokens by an earlier poll moves up to a chunk of the room
there is now, which may be more than `n`. -/
def overdraw (permit : Option UInt32) (e : PollEnv) : Nat :=
  match permit with
  | some n => if e.permitReady then min e.room chunkSize - n.toNat else 0
  | none => 0

/-- The overdraws along a run of a limited side. -/
def limitedOverdraw : Option UInt32 → List PollEnv → Nat
  | _, [] => 0
  | permit, e :: es => overdraw permit e + limitedOverdraw (pollLimited permit e).2 es

/-- What one poll of a limited side can do: complete a permit future an earlier
poll sized, and transfer; pay for a chunk of the room there is now, with
`check_n` or a fresh permit future, and transfer; leave a permit future pending,
the one there was or a fresh one sized from a chunk; or find no room. -/
theorem pollLimited_cases (permit : Option UInt32) (e : PollEnv) :
    (∃ n, permit = some n ∧ e.permitReady = true ∧
        pollLimited permit e = (afterPaying n.toNat e, none)) ∨
      (permit = none ∧ pollLimited permit e = (afterPaying (min e.room chunkSize) e, none)) ∨
      (∃ n, pollLimited permit e = (⟨.pending, 0⟩, some n) ∧
        (permit = some n ∨ n.toNat = min e.room chunkSize)) ∨
      pollLimited permit e = (⟨.ready 0, 0⟩, none) := by
  have hreq := toNat_toUInt32_chunk e.room
  cases permit with
  | some n =>
    by_cases hr : e.permitReady
    · exact .inl ⟨n, rfl, hr, by simp [pollLimited, hr]⟩
    · exact .inr (.inr (.inl ⟨n, by simp [pollLimited, hr], .inl rfl⟩))
  | none =>
    by_cases h0 : e.room = 0
    · exact .inr (.inr (.inr (by simp [pollLimited, h0])))
    · by_cases hc : e.checkOk
      · exact .inr (.inl ⟨rfl, by simp [pollLimited, h0, hc, hreq]⟩)
      · by_cases hr : e.permitReady
        · exact .inr (.inl ⟨rfl, by simp [pollLimited, h0, hc, hr, hreq]⟩)
        · exact .inr (.inr (.inl ⟨_, by simp [pollLimited, h0, hc, hr], .inr hreq⟩))

/-- A poll moves no more than it pays for, except what it overdraws. -/
theorem moved_le_paid_add_overdraw (permit : Option UInt32) (e : PollEnv) :
    (pollLimited permit e).1.moved ≤ (pollLimited permit e).1.paid + overdraw permit e := by
  have htr := bytes_transfer_le e.room e.inner
  rcases pollLimited_cases permit e with ⟨n, rfl, hr, h⟩ | ⟨rfl, h⟩ | ⟨n, h, -⟩ | h <;> rw [h]
  · -- a permit sized earlier: the chunk moved now may exceed it by the overdraw
    simp only [afterPaying, PollStep.moved, overdraw, hr, if_true]
    omega
  · exact htr
  · exact Nat.zero_le _
  · exact Nat.zero_le _

/-- The permit futures a stream creates wait for at most a chunk. -/
def PermitBounded (permit : Option UInt32) : Prop := ∀ n, permit = some n → n.toNat ≤ chunkSize

theorem permitBounded_pollLimited {permit : Option UInt32} (hp : PermitBounded permit)
    (e : PollEnv) : PermitBounded (pollLimited permit e).2 := by
  intro n hn
  rcases pollLimited_cases permit e with ⟨m, -, -, h⟩ | ⟨-, h⟩ | ⟨m, h, hm⟩ | h <;>
    rw [h] at hn <;> cases hn
  -- a pending permit: the one there was, or a fresh one sized from a chunk
  rcases hm with rfl | hm
  · exact hp n rfl
  · rw [hm]
    exact Nat.min_le_right _ _

/-- A poll pays for at most a chunk. -/
theorem paid_le_chunkSize {permit : Option UInt32} (hp : PermitBounded permit) (e : PollEnv) :
    (pollLimited permit e).1.paid ≤ chunkSize := by
  rcases pollLimited_cases permit e with ⟨n, rfl, -, h⟩ | ⟨-, h⟩ | ⟨n, h, -⟩ | h <;> rw [h]
  · exact hp n rfl
  · exact Nat.min_le_right _ _
  · exact Nat.zero_le _
  · exact Nat.zero_le _

/-! ## What a poll asks the limiter for -/

/-- The number of tokens a poll asks its limiter for, with `check_n` or in the
passes of `until_n_ready`: the size of the pending permit future, or else the
`n_req` sized from a chunk of the room there is now; nothing on a full buffer. -/
def pollRequest (permit : Option UInt32) (e : PollEnv) : Option UInt32 :=
  match permit with
  | some n => some n
  | none => if e.room = 0 then none else some (min e.room chunkSize).toUInt32

/-- The requests of a run of a limited side, in order. -/
def limitedRequests : Option UInt32 → List PollEnv → List UInt32
  | _, [] => []
  | permit, e :: es => (pollRequest permit e).toList ++ limitedRequests (pollLimited permit e).2 es

/-- The permit future a poll leaves pending waits for what the poll asked for. -/
theorem pollRequest_of_pending {permit : Option UInt32} {e : PollEnv} {n : UInt32}
    (h : (pollLimited permit e).2 = some n) : pollRequest permit e = some n := by
  cases permit with
  | some m =>
    -- the permit future there was: `Ready` clears it
    simp only [pollLimited] at h
    split at h
    · cases h
    · exact h
  | none =>
    -- a fresh permit future, for the `n_req` of this poll
    simp only [pollLimited] at h
    split at h
    · cases h
    · rename_i h0
      simp only [pollRequest, if_neg h0]
      split at h
      · cases h
      · split at h
        · cases h
        · exact h

/-- A poll pays what it asked for, or nothing. -/
theorem paid_eq_request (permit : Option UInt32) (e : PollEnv) :
    (pollLimited permit e).1.paid = 0 ∨
      ∃ n, pollRequest permit e = some n ∧ (pollLimited permit e).1.paid = n.toNat := by
  rcases pollLimited_cases permit e with ⟨n, rfl, -, h⟩ | ⟨rfl, h⟩ | ⟨n, h, -⟩ | h <;> rw [h]
  · exact .inr ⟨n, rfl, rfl⟩
  · -- paid with `check_n` or a fresh permit future: the `n_req` of a buffer with room
    by_cases h0 : e.room = 0
    · left
      simp [afterPaying, h0]
    · exact .inr ⟨_, if_neg h0, (toNat_toUInt32_chunk e.room).symm⟩
  · exact .inl rfl
  · exact .inl rfl

/-- A permit future waits for between one token and a chunk:
`NonZeroU32::new(to_read as u32)` did not fail. -/
def PermitSized (permit : Option UInt32) : Prop :=
  ∀ n, permit = some n → 1 ≤ n.toNat ∧ n.toNat ≤ chunkSize

theorem permitSized_pollRequest {permit : Option UInt32} (hp : PermitSized permit) (e : PollEnv) :
    PermitSized (pollRequest permit e) := by
  intro n hn
  cases permit with
  | some m => exact hp n hn
  | none =>
    simp only [pollRequest] at hn
    split at hn
    · cases hn
    · -- `to_read` is a chunk of a buffer with room
      rename_i h0
      cases hn
      rw [toNat_toUInt32_chunk]
      have hc : 0 < chunkSize := by decide
      exact ⟨Nat.le_min.2 ⟨Nat.pos_of_ne_zero h0, hc⟩, Nat.min_le_right _ _⟩

theorem permitSized_pollLimited {permit : Option UInt32} (hp : PermitSized permit)
    (e : PollEnv) : PermitSized (pollLimited permit e).2 :=
  fun n hn => permitSized_pollRequest hp e n (pollRequest_of_pending hn)

/-- Every request of a run is for between one token and a chunk.  By induction
on the run, with `PermitSized` as the invariant. -/
theorem limitedRequests_sized {permit : Option UInt32} (hp : PermitSized permit)
    (es : List PollEnv) : ∀ n ∈ limitedRequests permit es, 1 ≤ n.toNat ∧ n.toNat ≤ chunkSize := by
  induction es generalizing permit with
  | nil => intro n hn; cases hn
  | cons e es ih =>
    intro n hn
    rcases List.mem_append.1 hn with hn | hn
    · exact permitSized_pollRequest hp e n (Option.mem_toList.1 hn)
    · exact ih (permitSized_pollLimited hp e) n hn

/-! ## Runs -/

/-- The accounting of bytes over a run: what a run moves is at most what it
pays plus what it overdraws.  By induction on the run, from
`moved_le_paid_add_overdraw`. -/
theorem movedTotal_le_paidTotal_add (permit : Option UInt32) (es : List PollEnv) :
    movedTotal (limitedSteps permit es) ≤
      paidTotal (limitedSteps permit es) + limitedOverdraw permit es := by
  induction es generalizing permit with
  | nil => exact Nat.le_refl 0
  | cons e es ih =>
    have hstep := moved_le_paid_add_overdraw permit e
    have hrest := ih (pollLimited permit e).2
    simp only [limitedSteps, limitedOverdraw, movedTotal, paidTotal, List.map_cons,
      List.sum_cons] at hrest ⊢
    omega

/-- The accounting of tokens over a run: what a run pays is at most what it
moves plus a chunk for each poll that moves less than it paid.  By induction on
the run, with `PermitBounded` as the invariant. -/
theorem paidTotal_le_movedTotal_add {permit : Option UInt32} (hp : PermitBounded permit)
    (es : List PollEnv) :
    paidTotal (limitedSteps permit es) ≤
      movedTotal (limitedSteps permit es) +
        chunkSize * (limitedSteps permit es).countP fun st => st.moved < st.paid := by
  induction es generalizing permit with
  | nil => exact Nat.le_refl 0
  | cons e es ih =>
    have hpaid := paid_le_chunkSize hp e
    have hrest := ih (permitBounded_pollLimited hp e)
    simp only [limitedSteps, movedTotal, paidTotal, List.map_cons, List.sum_cons,
      List.countP_cons] at hrest ⊢
    split <;> rename_i hshort <;> simp only [decide_eq_true_eq] at hshort
    · rw [Nat.mul_add, Nat.mul_one]
      omega
    · rw [Nat.add_zero]
      omega

/-- `RateLimitedStream`, over the type `L` of limiter handles: the limiter of
each side, and the permit future pending on each side, as the number of tokens
it waits for.  The inner stream is what each poll meets. -/
structure RateLimitedStream (L : Type) where
  readLimiter : Option L
  writeLimiter : Option L
  readPermitFut : Option UInt32
  writePermitFut : Option UInt32

namespace RateLimitedStream

variable {L : Type}

/-- `RateLimitedStream::new`: no permit futures pending. -/
def new (readLimiter writeLimiter : Option L) : RateLimitedStream L :=
  ⟨readLimiter, writeLimiter, none, none⟩

/-- `poll_read`.  Without a read limiter the inner stream gets the whole buffer. -/
def pollRead (s : RateLimitedStream L) (e : PollEnv) : PollStep × RateLimitedStream L :=
  match s.readLimiter with
  | some _ =>
    let r := pollLimited s.readPermitFut e
    (r.1, { s with readPermitFut := r.2 })
  | none => (⟨innerPoll e.room e.inner, 0⟩, s)

/-- `poll_write`.  Without a write limiter the inner stream gets the whole buffer. -/
def pollWrite (s : RateLimitedStream L) (e : PollEnv) : PollStep × RateLimitedStream L :=
  match s.writeLimiter with
  | some _ =>
    let r := pollLimited s.writePermitFut e
    (r.1, { s with writePermitFut := r.2 })
  | none => (⟨innerPoll e.room e.inner, 0⟩, s)

/-- The polls of a run of `poll_read` calls. -/
def readSteps (s : RateLimitedStream L) : List PollEnv → List PollStep
  | [] => []
  | e :: es => (s.pollRead e).1 :: readSteps (s.pollRead e).2 es

/-- The polls of a run of `poll_write` calls. -/
def writeSteps (s : RateLimitedStream L) : List PollEnv → List PollStep
  | [] => []
  | e :: es => (s.pollWrite e).1 :: writeSteps (s.pollWrite e).2 es

/-- With a read limiter, a run of `poll_read` calls is a run of the limited loop
from the pending read permit. -/
theorem readSteps_eq {s : RateLimitedStream L} {l : L} (h : s.readLimiter = some l)
    (es : List PollEnv) : s.readSteps es = limitedSteps s.readPermitFut es := by
  induction es generalizing s with
  | nil => rfl
  | cons e es ih =>
    have hpoll : s.pollRead e = ((pollLimited s.readPermitFut e).1,
        { s with readPermitFut := (pollLimited s.readPermitFut e).2 }) := by
      rw [pollRead, h]
    rw [readSteps, limitedSteps, hpoll]
    exact congrArg _ (ih h)

/-- With a write limiter, a run of `poll_write` calls is a run of the limited
loop from the pending write permit. -/
theorem writeSteps_eq {s : RateLimitedStream L} {l : L} (h : s.writeLimiter = some l)
    (es : List PollEnv) : s.writeSteps es = limitedSteps s.writePermitFut es := by
  induction es generalizing s with
  | nil => rfl
  | cons e es ih =>
    have hpoll : s.pollWrite e = ((pollLimited s.writePermitFut e).1,
        { s with writePermitFut := (pollLimited s.writePermitFut e).2 }) := by
      rw [pollWrite, h]
    rw [writeSteps, limitedSteps, hpoll]
    exact congrArg _ (ih h)

end RateLimitedStream

/-! ## What a limited stream pays for -/

open RateLimitedStream

/-- A limited stream moves no more bytes than it has paid for, except where a
poll that completes a permit future finds more room than the poll that sized it.
From creation, over any run of `poll_read` calls with a read limiter (any room,
any answers of `check_n` and of the permit futures, any inner outcomes), the
bytes advanced into the callers' buffers are at most the tokens taken plus the
overdraws of the run; likewise for `poll_write` and the bytes the inner stream
accepted. -/
theorem bytes_le_tokens_add_overdraw :
    (∀ {L : Type} (l : L) (writeLimiter : Option L) (es : List PollEnv),
      movedTotal ((RateLimitedStream.new (some l) writeLimiter).readSteps es) ≤
        paidTotal ((RateLimitedStream.new (some l) writeLimiter).readSteps es) +
          limitedOverdraw none es) ∧
    ∀ {L : Type} (l : L) (readLimiter : Option L) (es : List PollEnv),
      movedTotal ((RateLimitedStream.new readLimiter (some l)).writeSteps es) ≤
        paidTotal ((RateLimitedStream.new readLimiter (some l)).writeSteps es) +
          limitedOverdraw none es := by
  constructor
  · intro L l writeLimiter es
    rw [readSteps_eq rfl]
    exact movedTotal_le_paidTotal_add none es
  · intro L l readLimiter es
    rw [writeSteps_eq rfl]
    exact movedTotal_le_paidTotal_add none es

/-- A permit sized for 10 bytes, completed on a poll that offers 16384: the
stream pays 10 tokens and moves 16384 bytes, on either side. -/
theorem bytes_exceed_tokens_when_room_grows :
    paidTotal ((RateLimitedStream.new (some ()) none).readSteps
        [⟨10, false, false, .pending⟩, ⟨16384, false, true, .ready 16384⟩]) = 10 ∧
      movedTotal ((RateLimitedStream.new (some ()) none).readSteps
        [⟨10, false, false, .pending⟩, ⟨16384, false, true, .ready 16384⟩]) = 16384 ∧
      paidTotal ((RateLimitedStream.new none (some ())).writeSteps
        [⟨10, false, false, .pending⟩, ⟨16384, false, true, .ready 16384⟩]) = 10 ∧
      movedTotal ((RateLimitedStream.new none (some ())).writeSteps
        [⟨10, false, false, .pending⟩, ⟨16384, false, true, .ready 16384⟩]) = 16384 := by
  decide

/-- A limited stream pays ahead of what it moves by at most a chunk for each
poll that moves less than it paid for (the inner stream is `Pending`, fails, or
moves fewer bytes, or the buffer has less room than the permit was sized for).
From creation, over any run of `poll_read` calls with a read limiter, the tokens
taken are at most the bytes advanced plus `16384` times the number of such
polls; likewise for `poll_write`. -/
theorem tokens_le_bytes_add_short_polls :
    (∀ {L : Type} (l : L) (writeLimiter : Option L) (es : List PollEnv),
      paidTotal ((RateLimitedStream.new (some l) writeLimiter).readSteps es) ≤
        movedTotal ((RateLimitedStream.new (some l) writeLimiter).readSteps es) +
          chunkSize * ((RateLimitedStream.new (some l) writeLimiter).readSteps es).countP
            fun st => st.moved < st.paid) ∧
    ∀ {L : Type} (l : L) (readLimiter : Option L) (es : List PollEnv),
      paidTotal ((RateLimitedStream.new readLimiter (some l)).writeSteps es) ≤
        movedTotal ((RateLimitedStream.new readLimiter (some l)).writeSteps es) +
          chunkSize * ((RateLimitedStream.new readLimiter (some l)).writeSteps es).countP
            fun st => st.moved < st.paid := by
  have hnone : PermitBounded none := fun _ h => by cases h
  constructor
  · intro L l writeLimiter es
    rw [readSteps_eq rfl]
    exact paidTotal_le_movedTotal_add hnone es
  · intro L l readLimiter es
    rw [writeSteps_eq rfl]
    exact paidTotal_le_movedTotal_add hnone es

/-- Two polls that each pay for a full chunk with `check_n` and find the inner
stream `Pending`: the stream pays 32768 tokens and moves nothing, on either
side. -/
theorem tokens_run_ahead_on_pending :
    paidTotal ((RateLimitedStream.new (some ()) none).readSteps
        [⟨16384, true, false, .pending⟩, ⟨16384, true, false, .pending⟩]) = 32768 ∧
      movedTotal ((RateLimitedStream.new (some ()) none).readSteps
        [⟨16384, true, false, .pending⟩, ⟨16384, true, false, .pending⟩]) = 0 ∧
      paidTotal ((RateLimitedStream.new none (some ())).writeSteps
        [⟨16384, true, false, .pending⟩, ⟨16384, true, false, .pending⟩]) = 32768 ∧
      movedTotal ((RateLimitedStream.new none (some ())).writeSteps
        [⟨16384, true, false, .pending⟩, ⟨16384, true, false, .pending⟩]) = 0 := by
  decide

end Layer4Lb
