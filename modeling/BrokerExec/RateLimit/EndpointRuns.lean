import BrokerExec.RateLimit.EndpointLimiter

/-!
# Runs of the endpoint limiter (`ratelimit/endpoint_limiter.cpp`)

What a run of acquires and of broker answers is for one class: a run of its own bucket, between
calls that do not look at it.

* **`metered_ofClass`** — the bucket of every class is metered, over every run.
* **`breakerFor_run`** — the breaker of a class sees the answers of its class and nothing else.
-/

namespace BrokerExec.RateLimit

/-! ## Runs of the limiter -/

inductive EndpointCall where
  | acquire (asked now : Int) (ep : EndpointClass) (isExit : Bool)
  | record429 (now : Int) (ep : EndpointClass)
  | recordSuccess (now : Int) (ep : EndpointClass)

def EndpointCall.now : EndpointCall → Int
  | .acquire _ now _ _ => now
  | .record429 now _ => now
  | .recordSuccess now _ => now

/-- The limiter in use: the clock's last reading and the calls it granted so far. -/
structure EndpointUse where
  limiter : EndpointRateLimiter
  clock : Int
  granted : List (EndpointClass × Grant)

namespace EndpointUse

def create (start : Int) (limits : EndpointLimits) (breaker : BreakerConfig) : EndpointUse :=
  ⟨.create start limits breaker, start, []⟩

def step (u : EndpointUse) : EndpointCall → EndpointUse
  | .acquire asked now ep isExit =>
    let answer := u.limiter.acquire asked now ep isExit
    ⟨answer.2, now, if answer.1.isOk then (ep, ⟨now, isExit⟩) :: u.granted else u.granted⟩
  | .record429 now ep => ⟨u.limiter.record429 now ep, now, u.granted⟩
  | .recordSuccess now ep => ⟨u.limiter.recordSuccess now ep, now, u.granted⟩

/-- The clock does not run backwards, within a call either. -/
def Forward (u : EndpointUse) : EndpointCall → Prop
  | .acquire asked now _ _ => u.clock ≤ asked ∧ asked ≤ now
  | .record429 now _ | .recordSuccess now _ => u.clock ≤ now

/-- One class: its bucket and its grants. -/
def ofClass (u : EndpointUse) (ep : EndpointClass) : Usage :=
  ⟨u.limiter.bucketFor ep, u.clock, (u.granted.filter fun g => g.1 = ep).map (·.2)⟩

/-- The grants of a class at readings from `t₁` to `t₂`. -/
def grantsIn (u : EndpointUse) (ep : EndpointClass) (t₁ t₂ : Int) : Nat :=
  (u.ofClass ep).grantsIn t₁ t₂

end EndpointUse

/-- Time passes, and the bucket is not looked at. -/
def Usage.waited (u : Usage) (now : Int) : Usage := { u with clock := now }

section

variable {u : EndpointUse} {ep : EndpointClass}

theorem EndpointUse.clock_le (call : EndpointCall) (h : u.Forward call) : u.clock ≤ call.now := by
  cases call with
  | acquire asked now ep isExit => exact h.1.trans h.2
  | record429 now ep => exact h
  | recordSuccess now ep => exact h

theorem acquire_through {asked now : Int} {isExit : Bool}
    (hopen : (!isExit && (u.limiter.breakerFor ep).isOpen asked) = false) :
    u.limiter.acquire asked now ep isExit
      = (((u.limiter.bucketFor ep).acquire now isExit).1,
        u.limiter.withBucket ((u.limiter.bucketFor ep).acquire now isExit).2 ep) := by
  unfold EndpointRateLimiter.acquire
  rw [hopen, if_neg Bool.false_ne_true]

theorem acquire_refused {asked now : Int} {isExit : Bool}
    (hopen : (!isExit && (u.limiter.breakerFor ep).isOpen asked) = true) :
    ∃ e, u.limiter.acquire asked now ep isExit = (.error e, u.limiter) := by
  unfold EndpointRateLimiter.acquire
  rw [if_pos hopen]
  exact ⟨_, rfl⟩

/-- An acquire that meets no open breaker is one of its class's bucket. -/
theorem ofClass_acquire {asked now : Int} {isExit : Bool}
    (hopen : (!isExit && (u.limiter.breakerFor ep).isOpen asked) = false) :
    (u.step (.acquire asked now ep isExit)).ofClass ep
      = (u.ofClass ep).step (.tryAcquire now isExit) := by
  unfold EndpointUse.step EndpointUse.ofClass Usage.step
  dsimp only
  rw [acquire_through hopen, ← acquire_eq_tryAcquire]
  dsimp only
  rw [bucketFor_withBucket, if_pos rfl]
  split_ifs with hgranted
  · rw [List.filter_cons_of_pos (by simp), List.map_cons]
  · rfl

/-- For the other classes no bucket is touched. -/
theorem ofClass_acquire_of_ne {asked now : Int} {isExit : Bool} {ep' : EndpointClass}
    (hopen : (!isExit && (u.limiter.breakerFor ep').isOpen asked) = false) (hne : ep ≠ ep') :
    (u.step (.acquire asked now ep' isExit)).ofClass ep = (u.ofClass ep).waited now := by
  unfold EndpointUse.step EndpointUse.ofClass Usage.waited
  dsimp only
  rw [acquire_through hopen]
  dsimp only
  rw [bucketFor_withBucket, if_neg hne]
  split_ifs with hgranted
  · rw [List.filter_cons_of_neg (by simpa using hne.symm)]
  · rfl

/-- **What a call is for one class**: a call of its bucket, or none. -/
theorem ofClass_step (u : EndpointUse) (call : EndpointCall) (ep : EndpointClass) :
    (u.step call).ofClass ep = (u.ofClass ep).waited call.now
      ∨ ∃ isExit, (u.step call).ofClass ep = (u.ofClass ep).step (.tryAcquire call.now isExit) := by
  cases call with
  | acquire asked now ep' isExit =>
    by_cases hopen : (!isExit && (u.limiter.breakerFor ep').isOpen asked) = true
    · -- refused by the breaker
      obtain ⟨e, hrefused⟩ := acquire_refused hopen
      left
      unfold EndpointUse.step EndpointUse.ofClass
      dsimp only
      rw [hrefused]
      rfl
    · rw [Bool.not_eq_true] at hopen
      by_cases hep : ep = ep'
      · subst hep
        exact .inr ⟨isExit, ofClass_acquire hopen⟩
      · exact .inl (ofClass_acquire_of_ne hopen hep)
  | record429 now ep' =>
    left
    unfold EndpointUse.step EndpointUse.ofClass EndpointRateLimiter.record429
    dsimp only
    rw [bucketFor_withBreaker]
    rfl
  | recordSuccess now ep' =>
    left
    unfold EndpointUse.step EndpointUse.ofClass EndpointRateLimiter.recordSuccess
    dsimp only
    rw [bucketFor_withBreaker]
    rfl

end

/-! ## Each class is metered -/

/-- The rate a bucket is built from. -/
def capacityFor (limits : EndpointLimits) : EndpointClass → Int32
  | .order => orderCapacity limits
  | .quote => limits.quotePerSec
  | .historical => limits.historicalPerSec
  | .other => limits.otherPerSec

def reservedFor (limits : EndpointLimits) : EndpointClass → Int32
  | .order => limits.reservedExitOrder
  | _ => 0

/-- The bucket's clamped settings. -/
def configFor (limits : EndpointLimits) (ep : EndpointClass) : Config :=
  .clamp (capacityFor limits ep).toInt (refillPeriodFor (capacityFor limits ep))
    (reservedFor limits ep).toInt

theorem ofClass_create (start : Int) (limits : EndpointLimits) (breaker : BreakerConfig)
    (ep : EndpointClass) : (EndpointUse.create start limits breaker).ofClass ep
      = .start start (capacityFor limits ep).toInt (refillPeriodFor (capacityFor limits ep))
          (reservedFor limits ep).toInt := by
  cases ep <;> rfl

theorem metered_waited {c : Config} {t₁ t₂ now : Int} {u : Usage} (h : Metered c t₁ t₂ u)
    (hforward : u.clock ≤ now) : Metered c t₁ t₂ (u.waited now) where
  config := h.config
  bounds := h.bounds
  stamp := h.stamp.trans hforward
  lane := h.lane
  budget := h.budget
  paid := h.paid
  bounded := h.bounded

/-- **Every class of every run.** -/
theorem metered_ofClass {limits : EndpointLimits} {breaker : BreakerConfig} {start : Int}
    {calls : List EndpointCall}
    (hforward : Along EndpointUse.step EndpointUse.Forward (.create start limits breaker) calls)
    (ep : EndpointClass) (t₁ t₂ : Int) : Metered (configFor limits ep) t₁ t₂
      ((run EndpointUse.step (.create start limits breaker) calls).ofClass ep) := by
  refine run_keeps (I := fun u => Metered (configFor limits ep) t₁ t₂ (u.ofClass ep))
    (fun u call h hcall => ?_) ?_ hforward
  · have hclock : (u.ofClass ep).clock ≤ call.now := EndpointUse.clock_le call hcall
    rcases ofClass_step u call ep with hstep | ⟨isExit, hstep⟩ <;> rw [hstep]
    · exact metered_waited h hclock
    · exact metered_step h (.tryAcquire call.now isExit) hclock
  · rw [ofClass_create]
    exact metered_start start _ _ _ t₁ t₂

/-! ## Each breaker is its own -/

/-- A broker's answer for the class. -/
def EndpointCall.answers (ep : EndpointClass) : EndpointCall → Bool
  | .acquire _ _ _ _ => false
  | .record429 _ ep' | .recordSuccess _ ep' => ep' = ep

def CircuitBreaker.stepCall (b : CircuitBreaker) : EndpointCall → CircuitBreaker
  | .acquire _ _ _ _ => b
  | .record429 now _ => b.record429 now
  | .recordSuccess now _ => b.recordSuccess now

/-- **The breaker of a class** runs on the answers for its class. -/
theorem breakerFor_run (u : EndpointUse) (calls : List EndpointCall) (ep : EndpointClass) :
    (run EndpointUse.step u calls).limiter.breakerFor ep
      = run CircuitBreaker.stepCall (u.limiter.breakerFor ep)
          (calls.filter (EndpointCall.answers ep)) := by
  refine view_run (fun u => u.limiter.breakerFor ep) CircuitBreaker.stepCall
    (fun u call hown => ?_) (fun u call hother => ?_) u calls
  · cases call with
    | acquire asked now ep' isExit => cases hown
    | record429 now ep' =>
      cases of_decide_eq_true hown
      exact (breakerFor_withBreaker _ ep ep).trans (if_pos rfl)
    | recordSuccess now ep' =>
      cases of_decide_eq_true hown
      exact (breakerFor_withBreaker _ ep ep).trans (if_pos rfl)
  · cases call with
    | acquire asked now ep' isExit =>
      exact congrFun (breakerFor_acquire asked now ep' isExit) ep
    | record429 now ep' =>
      exact (breakerFor_withBreaker _ ep' ep).trans (if_neg (Ne.symm (of_decide_eq_false hother)))
    | recordSuccess now ep' =>
      exact (breakerFor_withBreaker _ ep' ep).trans (if_neg (Ne.symm (of_decide_eq_false hother)))

end BrokerExec.RateLimit
