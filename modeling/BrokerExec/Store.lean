import BrokerExec.Domain.Types
import BrokerExec.Lib.Table

/-!
# The order projection (`store/store.cpp`)

The `orders` table with its `UNIQUE(client_ref)` column. Each call takes the SQLite error it
meets, if any; a failed statement has no effect.
-/

namespace BrokerExec

open BrokerExec.Domain (Order)
open BrokerExec.Errors (Error makeError)

/-- The `orders` table. -/
abbrev Store := Table Bytes Order fun order => order.intent.clientRef

namespace Store

def insertOrder (store : Store) (failure : Option Error) (order : Order) : Result Unit × Store :=
  match failure with
  | some error => (.error error, store)
  | none =>
    match store.find order.intent.clientRef with
    | some _ =>
      (.error (makeError .duplicateOrder
        (ascii "store: order with this client_ref already exists")), store)
    | none => (.ok (), store.upsert order)

def upsertOrder (store : Store) (failure : Option Error) (order : Order) : Result Unit × Store :=
  match failure with
  | some error => (.error error, store)
  | none => (.ok (), store.upsert order)

def findOrder (store : Store) (failure : Option Error) (clientRef : Bytes) :
    Result (Option Order) :=
  match failure with
  | some error => .error error
  | none => .ok (store.find clientRef)

/-- `all_orders`: ordered by `client_ref`. -/
def allOrders (store : Store) (failure : Option Error) : Result (List Order) :=
  match failure with
  | some error => .error error
  | none => .ok store.rows

theorem find_of_findOrder {store : Store} {failure : Option Error} {clientRef : Bytes}
    {row : Option Order} (h : store.findOrder failure clientRef = .ok row) :
    store.find clientRef = row := by
  cases failure with
  | some error => cases h
  | none => exact Except.ok.inj h

end Store

end BrokerExec
