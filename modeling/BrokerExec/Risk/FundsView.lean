import BrokerExec.Domain.Instrument

/-!
# The funds view (`risk/funds_view.cpp`)

A cached funds snapshot and the steady-clock reading of its fetch. A read refetches a stale
snapshot once and hands nothing out that is still stale.

* **`ensureFresh_ok`** — what is handed out was fetched within the cadence.
-/

namespace BrokerExec.Risk

open BrokerExec.Domain (Money)
open BrokerExec.Errors (Error makeError)

structure FundsSnapshot where
  availableMargin : Money
  usedMargin : Money
  deriving DecidableEq

/-- Clock readings and the cadence are in the steady clock's ticks. -/
structure FundsView where
  cadence : Int
  snapshot : FundsSnapshot
  fetchedAt : Int
  hasSnapshot : Bool

/-- What one read of the view meets: the clock before, the fetch if there is one, the clock when
its snapshot is stamped, and the clock behind it. -/
structure FundsIo where
  before : Int
  fetched : Result FundsSnapshot
  stamped : Int
  after : Int

namespace FundsView

variable (view : FundsView)

def refresh (io : FundsIo) : Result Unit × FundsView :=
  match io.fetched with
  | .error e => (.error e, view)
  | .ok snapshot =>
    (.ok (), { view with snapshot := snapshot, fetchedAt := io.stamped, hasSnapshot := true })

def isFresh (now : Int) : Bool := view.hasSnapshot && now - view.fetchedAt ≤ view.cadence

/-- The message of a failed refresh and its broker code. -/
def rootCause : Result Unit → Bytes
  | .ok () => []
  | .error inner =>
    if inner.brokerCode = [] then inner.message
    else inner.message ++ ascii " [" ++ inner.brokerCode ++ ascii "]"

def staleError (rootCause : Bytes) : Error :=
  makeError .dataStale (ascii "funds view is stale and could not be refreshed"
    ++ if rootCause = [] then [] else ascii ": " ++ rootCause)

/-- The one refetch that a stale view tries. -/
def refreshIfStale (io : FundsIo) : Result Unit × FundsView :=
  if view.isFresh io.before then (.ok (), view) else view.refresh io

def ensureFresh (io : FundsIo) : Result FundsSnapshot × FundsView :=
  let (refreshed, read) := view.refreshIfStale io
  if read.isFresh io.after then (.ok read.snapshot, read)
  else (.error (staleError (rootCause refreshed)), read)

def checkMargin (requiredMarginPaise : Int64) (io : FundsIo) : Result Unit × FundsView :=
  match view.ensureFresh io with
  | (.error e, read) => (.error e, read)
  | (.ok funds, read) =>
    let available := funds.availableMargin
    if available ≥ requiredMarginPaise then (.ok (), read)
    else
      (.error
        { makeError .insufficientFunds (ascii "insufficient margin: available "
            ++ decimal available.toInt ++ ascii " paise < required "
            ++ decimal requiredMarginPaise.toInt ++ ascii " paise") with
          action := .doNotRetry },
        read)

/-- **What is handed out is fresh.** -/
theorem ensureFresh_ok {io : FundsIo} {funds : FundsSnapshot}
    (h : (view.ensureFresh io).1 = .ok funds) :
    (view.ensureFresh io).2.isFresh io.after = true
      ∧ funds = (view.ensureFresh io).2.snapshot := by
  unfold ensureFresh at h ⊢
  dsimp only at h ⊢
  by_cases hfresh : (view.refreshIfStale io).2.isFresh io.after = true
  · rw [if_pos hfresh] at h ⊢
    exact ⟨hfresh, (Except.ok.inj h).symm⟩
  · rw [if_neg hfresh] at h
    cases h

end FundsView

end BrokerExec.Risk
