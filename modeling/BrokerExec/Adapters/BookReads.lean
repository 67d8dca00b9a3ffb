import BrokerExec.Adapters.SquareOffExit

/-!
# Reading a broker's books (`adapters/*/…_broker_adapter.cpp`)

What the orders, the trades and the positions of both adapters share: a container of rows, of
which the elements that are no objects are passed over.

* **`readsBook_iff`** — a read that publishes the objects of its container publishes one entry
  for each row exactly when the container has nothing else.
-/

namespace BrokerExec.Adapters

/-- The container of a book that is a plain array. -/
def arrayOf : Json.Value → Option (List Json.Value)
  | .array elements => some elements
  | _ => none

def AllObjects (elements : List Json.Value) : Prop :=
  ∀ element ∈ elements, ∃ members, element = .object members

/-- **No unreadable book is a fact**: what is answered to this payload is an error, or one entry
for each row of the container. -/
def ReadsBook {α : Type} (container : Json.Value → Option (List Json.Value))
    (payload : Json.Value) (answered : Result (List α)) : Prop :=
  ∀ out, answered = .ok out →
    ∃ elements, container payload = some elements ∧ out.length = elements.length

theorem length_objectRows_le (elements : List Json.Value) :
    (objectRows elements).length ≤ elements.length := List.length_filterMap_le _ _

theorem length_objectRows_iff (elements : List Json.Value) :
    (objectRows elements).length = elements.length ↔ AllObjects elements := by
  induction elements with
  | nil => simp [objectRows, AllObjects]
  | cons element elements ih =>
    have hle := length_objectRows_le elements
    cases element with
    | object members =>
      have hrows : objectRows (.object members :: elements) = members :: objectRows elements := rfl
      rw [hrows, List.length_cons, List.length_cons]
      simp only [AllObjects, List.forall_mem_cons] at ih ⊢
      rw [← ih]
      simp
    | _ =>
      -- any other element is passed over, and the others cannot make up for it
      constructor
      · intro h
        have hlength : (objectRows elements).length = elements.length + 1 := h
        omega
      · intro h
        obtain ⟨members, hmembers⟩ := h _ (List.mem_cons_self ..)
        cases hmembers

theorem readsBook_iff {α : Type} {container : Json.Value → Option (List Json.Value)}
    {payload : Json.Value} {elements : List Json.Value}
    (hcontainer : container payload = some elements)
    (publish : List (Bytes × Json.Value) → α) :
    ReadsBook container payload (.ok ((objectRows elements).map publish))
      ↔ AllObjects elements := by
  rw [← length_objectRows_iff]
  constructor
  · intro h
    obtain ⟨elements', hcontainer', hlength⟩ := h _ rfl
    obtain rfl := Option.some.inj (hcontainer.symm.trans hcontainer')
    rwa [List.length_map] at hlength
  · rintro hlength out hout
    obtain rfl := Except.ok.inj hout
    exact ⟨elements, hcontainer, by rw [List.length_map, hlength]⟩

/-- The array of a read that publishes its objects. -/
theorem readsArray_iff {α : Type} (elements : List Json.Value)
    (publish : List (Bytes × Json.Value) → α) :
    ReadsBook arrayOf (.array elements) (.ok ((objectRows elements).map publish))
      ↔ ∀ elements', Json.Value.array elements = .array elements' → AllObjects elements' := by
  rw [readsBook_iff (rfl : arrayOf (.array elements) = some elements)]
  constructor
  · rintro hall elements' h
    obtain rfl := Json.Value.array.inj h
    exact hall
  · exact fun h => h elements rfl

/-- The rows beside what is published of them. -/
theorem mem_zip_map {α β : Type} {xs : List α} {f : α → β} {x : α} {y : β} :
    (x, y) ∈ xs.zip (xs.map f) ↔ x ∈ xs ∧ y = f x := by
  rw [← List.map_prod_left_eq_zip, List.mem_map]
  constructor
  · rintro ⟨x', hx, hpair⟩
    obtain ⟨rfl, rfl⟩ := Prod.mk.inj hpair
    exact ⟨hx, rfl⟩
  · rintro ⟨hx, rfl⟩
    exact ⟨x, hx, rfl⟩

theorem readsBook_error {α : Type} (container : Json.Value → Option (List Json.Value))
    (payload : Json.Value) (error : Errors.Error) :
    ReadsBook container payload (.error error : Result (List α)) := by
  intro out h
  cases h

/-- An empty answer is no reading of a payload without the container. -/
theorem not_readsBook_empty {α : Type} {container : Json.Value → Option (List Json.Value)}
    {payload : Json.Value} (hcontainer : container payload = none) :
    ¬ ReadsBook container payload (.ok [] : Result (List α)) := by
  intro h
  obtain ⟨elements, helements, -⟩ := h [] rfl
  rw [hcontainer] at helements
  cases helements

end BrokerExec.Adapters
