import BrokerExec.Idempotency.ClientRefs
import BrokerExec.Lib.Run
import BrokerExec.Lib.Table
import BrokerExec.Lifecycle

/-!
# The state of a sliced parent (`lifecycle/lifecycle.cpp`)

`apply_child` files a report under the parent of its ref, and the parent's state is the fold of
the children reported so far: of the slices `#1 … #N` it has heard of, and of the exit `#X`,
which is filed with them.

* **`parentState_eq_iff`** — the parent is `Filled` or `Cancelled` when every child reported so
  far is;
* **`keeps_verdict_iff`** — such a verdict outlives a report exactly when the report repeats it;
* **`parent_verdict`** — over whole runs: the verdict is that of the children heard of, and only
  a child heard of for the first time, or the exit, can undo it.
-/

namespace BrokerExec.Lifecycle

open BrokerExec.Domain (OrderState)
open BrokerExec.Idempotency (childRef isChildRef parentOf kChildSep)
open BrokerExec.Adapters (exitClientRef)

/-! ## The fold -/

/-- `fold_parent_state`. -/
def foldParentState (children : List OrderState) : OrderState :=
  if children = [] then .created
  else if children.any (· = .unknown) then .partiallyPlaced
  else if children.any (· = .rejected) then .manualInterventionRequired
  else if children.all (· = .filled) then .filled
  else if children.all (· = .cancelled) then .cancelled
  else if children.all isTerminal then .partiallyFilled
  else .partiallyPlaced

/-- The two states in which nothing of the parent is left to happen. -/
def IsVerdict (state : OrderState) : Prop := state = .filled ∨ state = .cancelled

instance (state : OrderState) : Decidable (IsVerdict state) := inferInstanceAs (Decidable (_ ∨ _))

/-- **The fold is a verdict when every child is.** -/
theorem foldParentState_eq_iff {verdict : OrderState} (hverdict : IsVerdict verdict)
    (children : List OrderState) :
    foldParentState children = verdict ↔ children ≠ [] ∧ ∀ child ∈ children, child = verdict := by
  constructor
  · intro h
    rw [foldParentState] at h
    split_ifs at h with hempty hunknown hrejected hfilled hcancelled hterminal
    · rcases hverdict with rfl | rfl <;> cases h
    · rcases hverdict with rfl | rfl <;> cases h
    · rcases hverdict with rfl | rfl <;> cases h
    · rw [← h]
      exact ⟨hempty, by simpa using hfilled⟩
    · rw [← h]
      exact ⟨hempty, by simpa using hcancelled⟩
    · rcases hverdict with rfl | rfl <;> cases h
    · rcases hverdict with rfl | rfl <;> cases h
  · rintro ⟨hempty, hall⟩
    have hnone : ∀ other, other ≠ verdict → children.any (· = other) = false := by
      intro other hother
      rw [List.any_eq_false]
      intro child hchild
      rw [hall child hchild]
      simpa using hother.symm
    have hevery : children.all (· = verdict) = true := by simpa using hall
    rw [foldParentState, if_neg hempty]
    rcases hverdict with rfl | rfl
    · simp [hnone .unknown (by decide), hnone .rejected (by decide), hevery]
    · -- a child that is there is not `Filled`
      have hsome : children.all (· = .filled) = false := by
        cases children with
        | nil => exact absurd rfl hempty
        | cons child rest =>
          rw [List.all_cons, hall child (by simp)]
          rfl
      simp [hnone .unknown (by decide), hnone .rejected (by decide), hsome, hevery]

/-! ## The children of a parent -/

structure Child where
  clientRef : Bytes
  state : OrderState
  deriving DecidableEq

/-- The last state of each child; the fold does not depend on the order they are kept in. -/
abbrev Children := Table Bytes Child (·.clientRef)

/-- `children_by_parent_`, the part of the engine that `apply` does not touch. -/
structure ParentBook where
  childrenByParent : Bytes → Option Children

def ParentBook.init : ParentBook := ⟨fun _ => none⟩

/-- `fold_children_map`. -/
def foldChildrenMap (children : Children) : OrderState :=
  foldParentState (children.rows.map (·.state))

/-- The bucket of a child: its own parent, or the one the caller named. -/
def parentKey (parentClientRef childClientRef : Bytes) : Bytes :=
  let key := if isChildRef childClientRef then parentOf childClientRef else []
  if key = [] then parentClientRef else key

/-- `apply_child`. -/
def ParentBook.applyChild (book : ParentBook) (parentClientRef childClientRef : Bytes)
    (childState : OrderState) : OrderState × ParentBook :=
  let key := parentKey parentClientRef childClientRef
  let children :=
    ((book.childrenByParent key).getD Table.empty).upsert ⟨childClientRef, childState⟩
  (foldChildrenMap children,
    { book with childrenByParent := Function.update book.childrenByParent key (some children) })

/-- `parent_state`. -/
def ParentBook.parentState (book : ParentBook) (parentClientRef : Bytes) : Option OrderState :=
  (book.childrenByParent parentClientRef).map foldChildrenMap

/-! ## A run of reports -/

structure Report where
  parentClientRef : Bytes
  clientRef : Bytes
  state : OrderState
  deriving DecidableEq

def ParentBook.step (book : ParentBook) (report : Report) : ParentBook :=
  (book.applyChild report.parentClientRef report.clientRef report.state).2

/-- A slice `#k` of the parent, `k` from 1 to `n`. -/
def IsSlice (parent : Bytes) (n : Int32) (ref : Bytes) : Prop :=
  ∃ k : Int32, 1 ≤ k ∧ k ≤ n ∧ ref = childRef parent k

/-- A report on a slice of the parent or on its exit, filed under the parent; a ref that leads
to its parent may be filed under any name. -/
structure OfParent (parent : Bytes) (n : Int32) (report : Report) : Prop where
  child : IsSlice parent n report.clientRef ∨ report.clientRef = exitClientRef parent
  filed : report.parentClientRef = parent ∨ parent ≠ []

/-- The last state reported of a ref. -/
def lastReported (reports : List Report) (ref : Bytes) : Option OrderState :=
  ((reports.filter (·.clientRef = ref)).getLast?).map (·.state)

/-- The states of each slice follow the transition table, which has no way out of a terminal
state; the exit may report anything. -/
def SlicesFollow (parent : Bytes) (n : Int32) (reports : List Report) : Prop :=
  ∀ front report back, reports = front ++ report :: back → IsSlice parent n report.clientRef →
    ∀ state, lastReported front report.clientRef = some state →
      isValidTransition state report.state = true

/-- **The verdict is final**: `Filled` comes after every slice was reported `Filled`, and
neither `Filled` nor `Cancelled` changes again. -/
def VerdictFinal (book : ParentBook) (parent : Bytes) (n : Int32) (reports : List Report) :
    Prop :=
  ∀ front back verdict, reports = front ++ back → IsVerdict verdict →
    (run ParentBook.step book front).parentState parent = some verdict →
    (verdict = .filled → ∀ ref, IsSlice parent n ref →
        ∃ report ∈ front, report.clientRef = ref ∧ report.state = .filled)
      ∧ (run ParentBook.step book reports).parentState parent = some verdict

/-! ## Where a report is filed -/

theorem parentKey_append {parentClientRef parent suffix : Bytes} (hsuffix : suffix ≠ [])
    (hsep : kChildSep ∉ suffix) (hfiled : parentClientRef = parent ∨ parent ≠ []) :
    parentKey parentClientRef (parent ++ kChildSep :: suffix) = parent := by
  have hparent := Idempotency.parentOf_append parent hsuffix hsep
  rw [parentKey]
  by_cases hempty : parent = []
  · -- what stands in front of `#` is nothing, so the caller's name decides
    have hnot : isChildRef (parent ++ kChildSep :: suffix) = false := by
      rw [isChildRef, Idempotency.lastChildSep_append hsep, hempty]
      rfl
    rw [hnot]
    rcases hfiled with rfl | hne
    · rfl
    · exact absurd hempty hne
  · have hchild : isChildRef (parent ++ kChildSep :: suffix) = true := by
      have hpos := List.length_pos_iff.mpr hempty
      rw [isChildRef, Idempotency.lastChildSep_append hsep]
      have hbehind := List.length_pos_iff.mpr hsuffix
      simp [hpos, hbehind]
    rw [hchild, hparent]
    exact if_neg hempty

theorem OfParent.key {parent : Bytes} {n : Int32} {report : Report}
    (h : OfParent parent n report) :
    parentKey report.parentClientRef report.clientRef = parent := by
  rcases h.child with ⟨k, -, -, hslice⟩ | hexit
  · rw [hslice]
    exact parentKey_append (Idempotency.decimal_ne_nil _)
      (Idempotency.not_mem_decimal_childSep _) h.filed
  · rw [hexit, exitClientRef]
    split_ifs with hempty
    · rcases h.filed with hfiled | hne
      · rw [hfiled, hempty]
        rfl
      · exact absurd hempty hne
    · have hX : ascii "X" ≠ [] := by decide
      exact parentKey_append hX (by decide) h.filed

/-! ## What the bucket holds -/

theorem lastReported_concat (front : List Report) (report : Report) (ref : Bytes) :
    lastReported (front ++ [report]) ref
      = if ref = report.clientRef then some report.state else lastReported front ref := by
  unfold lastReported
  split_ifs with href
  · simp [List.filter_append, href]
  · simp [List.filter_append, Ne.symm href]

theorem lastReported_of_mem {reports : List Report} {ref : Bytes}
    (h : ref ∈ reports.map (·.clientRef)) : ∃ state, lastReported reports ref = some state := by
  obtain ⟨report, hmem, rfl⟩ := List.mem_map.mp h
  have hfilter : report ∈ reports.filter (·.clientRef = report.clientRef) :=
    List.mem_filter.mpr ⟨hmem, by simp⟩
  unfold lastReported
  cases hlast : (reports.filter (·.clientRef = report.clientRef)).getLast? with
  | none =>
    rw [List.getLast?_eq_none_iff.mp hlast] at hfilter
    simp at hfilter
  | some last => exact ⟨last.state, rfl⟩

/-- Somebody reported what was last reported. -/
theorem exists_of_lastReported {reports : List Report} {ref : Bytes} {state : OrderState}
    (h : lastReported reports ref = some state) :
    ∃ report ∈ reports, report.clientRef = ref ∧ report.state = state := by
  obtain ⟨report, hlast, rfl⟩ := Option.map_eq_some_iff.mp h
  obtain ⟨hmem, href⟩ := List.mem_filter.mp (List.mem_of_getLast? hlast)
  exact ⟨report, hmem, by simpa using href, rfl⟩

/-- The bucket of the parent holds the last report of each child, and is there once there is
one. -/
structure Tracks (parent : Bytes) (reports : List Report) (book : ParentBook) : Prop where
  bucket : (book.childrenByParent parent).isSome = true ↔ reports ≠ []
  find : ∀ ref, (book.childrenByParent parent).bind (·.find ref)
    = (lastReported reports ref).map (Child.mk ref)

theorem tracks_nil {parent : Bytes} {book : ParentBook}
    (h : book.childrenByParent parent = none) : Tracks parent [] book where
  bucket := by simp [h]
  find := by simp [h, lastReported]

theorem Tracks.step {parent : Bytes} {n : Int32} {front : List Report} {book : ParentBook}
    (h : Tracks parent front book) {report : Report} (hof : OfParent parent n report) :
    Tracks parent (front ++ [report]) (book.step report) := by
  have hbucket : (book.step report).childrenByParent parent
      = some (((book.childrenByParent parent).getD Table.empty).upsert
          ⟨report.clientRef, report.state⟩) := by
    simp [ParentBook.step, ParentBook.applyChild, hof.key]
  refine ⟨by simp [hbucket], fun ref => ?_⟩
  have hfind := h.find ref
  rw [hbucket, lastReported_concat]
  show (Table.upsert _ _).find ref = _
  rw [Table.find_upsert]
  split_ifs with href
  · rw [href]
    rfl
  · rw [← hfind]
    cases book.childrenByParent parent with
    | none => rfl
    | some children => rfl

/-- **The bucket over a run.** -/
theorem tracks_run {parent : Bytes} {n : Int32} {book : ParentBook}
    (hfresh : book.childrenByParent parent = none) {reports : List Report}
    (hof : ∀ report ∈ reports, OfParent parent n report) :
    Tracks parent reports (run ParentBook.step book reports) := by
  induction reports using List.reverseRecOn with
  | nil => exact tracks_nil hfresh
  | append_singleton front report ih =>
    rw [run_concat]
    exact (ih fun r hr => hof r (List.mem_append_left _ hr)).step (hof report (by simp))

/-! ## The verdict -/

section

variable {parent : Bytes} {reports : List Report} {book : ParentBook} {verdict : OrderState}

/-- **The parent has a verdict when every child reported so far has it.** -/
theorem parentState_eq_iff (h : Tracks parent reports book) (hverdict : IsVerdict verdict) :
    book.parentState parent = some verdict
      ↔ reports ≠ [] ∧ ∀ ref state, lastReported reports ref = some state → state = verdict := by
  rw [ParentBook.parentState]
  cases hbucket : book.childrenByParent parent with
  | none =>
    have hempty : ¬ reports ≠ [] := fun hne => by simpa [hbucket] using h.bucket.mpr hne
    simp [hempty]
  | some children =>
    have hne : reports ≠ [] := h.bucket.mp (by simp [hbucket])
    have hfind : ∀ ref, children.find ref = (lastReported reports ref).map (Child.mk ref) := by
      intro ref
      rw [← h.find ref, hbucket]
      rfl
    show some (foldChildrenMap children) = some verdict ↔ _
    rw [Option.some.injEq, foldChildrenMap, foldParentState_eq_iff hverdict]
    constructor
    · rintro ⟨-, hall⟩
      refine ⟨hne, fun ref state hlast => ?_⟩
      have hrow := hfind ref
      rw [hlast] at hrow
      exact hall state (List.mem_map.mpr ⟨_, (Table.mem_of_find hrow).1, rfl⟩)
    · rintro ⟨-, hall⟩
      constructor
      · -- the last report is in the bucket
        obtain ⟨report, hreport⟩ := List.exists_mem_of_ne_nil reports hne
        obtain ⟨state, hlast⟩ := lastReported_of_mem (List.mem_map_of_mem hreport)
        have hrow := hfind report.clientRef
        rw [hlast] at hrow
        exact List.ne_nil_of_mem (List.mem_map_of_mem (Table.mem_of_find hrow).1)
      · intro state hstate
        obtain ⟨child, hchild, rfl⟩ := List.mem_map.mp hstate
        have hrow := hfind child.clientRef
        rw [Table.find_eq_some_iff.mpr ⟨hchild, rfl⟩] at hrow
        obtain ⟨state, hlast, hsame⟩ := Option.map_eq_some_iff.mp hrow.symm
        rw [← hsame]
        exact hall _ _ hlast

end

section

variable {parent : Bytes} {n : Int32} {book : ParentBook} {front : List Report}
  {verdict : OrderState}

/-- **A verdict outlives a report exactly when the report repeats it.** -/
theorem keeps_verdict_iff (hfresh : book.childrenByParent parent = none) {report : Report}
    (hof : ∀ r ∈ front ++ [report], OfParent parent n r) (hverdict : IsVerdict verdict)
    (h : (run ParentBook.step book front).parentState parent = some verdict) :
    (run ParentBook.step book (front ++ [report])).parentState parent = some verdict
      ↔ report.state = verdict := by
  have hfront := tracks_run hfresh fun r hr => hof r (List.mem_append_left _ hr)
  obtain ⟨-, hall⟩ := (parentState_eq_iff hfront hverdict).mp h
  rw [parentState_eq_iff (tracks_run hfresh hof) hverdict]
  constructor
  · rintro ⟨-, hall'⟩
    exact hall' report.clientRef report.state (by rw [lastReported_concat, if_pos rfl])
  · intro hsame
    refine ⟨by simp, fun ref state hlast => ?_⟩
    rw [lastReported_concat] at hlast
    split_ifs at hlast with href
    · rw [← Option.some.inj hlast, hsame]
    · exact hall ref state hlast

/-- A slice heard of before can only repeat the verdict. -/
theorem state_of_reported (hfresh : book.childrenByParent parent = none) {report : Report}
    {back : List Report} (hof : ∀ r ∈ front, OfParent parent n r)
    (hfollow : SlicesFollow parent n (front ++ report :: back)) (hverdict : IsVerdict verdict)
    (h : (run ParentBook.step book front).parentState parent = some verdict)
    (hslice : IsSlice parent n report.clientRef)
    (hreported : report.clientRef ∈ front.map (·.clientRef)) : report.state = verdict := by
  obtain ⟨-, hall⟩ := (parentState_eq_iff (tracks_run hfresh hof) hverdict).mp h
  obtain ⟨state, hlast⟩ := lastReported_of_mem hreported
  have hlegal := hfollow front report back rfl hslice state hlast
  rw [hall _ _ hlast] at hlegal
  -- the table has no way out of a verdict
  rcases hverdict with rfl | rfl <;> simpa [isValidTransition, tableAllows, eq_comm] using hlegal

/-- **A verdict outlives a run** that brings no child it has not heard of, and from the exit
nothing but the verdict. -/
theorem keeps_verdict_run (hfresh : book.childrenByParent parent = none) {back : List Report}
    (hof : ∀ r ∈ front ++ back, OfParent parent n r) (hfollow : SlicesFollow parent n (front ++ back))
    (hverdict : IsVerdict verdict)
    (h : (run ParentBook.step book front).parentState parent = some verdict)
    (hknown : ∀ r ∈ back, r.state = verdict
      ∨ (IsSlice parent n r.clientRef ∧ r.clientRef ∈ front.map (·.clientRef))) :
    (run ParentBook.step book (front ++ back)).parentState parent = some verdict := by
  induction back generalizing front with
  | nil => rwa [List.append_nil]
  | cons report back ih =>
    have hsplit : front ++ report :: back = (front ++ [report]) ++ back := by simp
    have hreport : report.state = verdict := by
      rcases hknown report (by simp) with hsame | ⟨hslice, hreported⟩
      · exact hsame
      · exact state_of_reported hfresh (fun r hr => hof r (List.mem_append_left _ hr)) hfollow
          hverdict h hslice hreported
    rw [hsplit] at hof hfollow ⊢
    have hnext := (keeps_verdict_iff hfresh (fun r hr => hof r (List.mem_append_left _ hr))
      hverdict h).mpr hreport
    refine ih hof hfollow hnext fun r hr => ?_
    rcases hknown r (List.mem_cons_of_mem _ hr) with hsame | ⟨hslice, hreported⟩
    · exact .inl hsame
    · exact .inr ⟨hslice, by simp [hreported]⟩

end

/-- **The verdict of a sliced parent.** It is `Filled` or `Cancelled` exactly when every child
heard of is, so over all the slices once all of them are; the next report undoes it exactly by
saying something else, which no slice heard of before can do. -/
theorem parent_verdict {book : ParentBook} {parent : Bytes} {n : Int32} {front back : List Report}
    {verdict : OrderState} (hfresh : book.childrenByParent parent = none)
    (hof : ∀ report ∈ front ++ back, OfParent parent n report)
    (hfollow : SlicesFollow parent n (front ++ back)) (hverdict : IsVerdict verdict) :
    ((run ParentBook.step book front).parentState parent = some verdict
        ↔ front ≠ [] ∧ ∀ ref state, lastReported front ref = some state → state = verdict)
      ∧ ((run ParentBook.step book front).parentState parent = some verdict →
        ((∀ ref, IsSlice parent n ref → ref ∈ front.map (·.clientRef)) →
          ∀ ref, IsSlice parent n ref → lastReported front ref = some verdict)
        ∧ (∀ report rest, back = report :: rest →
          ((run ParentBook.step book (front ++ [report])).parentState parent = some verdict
            ↔ report.state = verdict))
        ∧ ((∀ report ∈ back, report.state = verdict
            ∨ (IsSlice parent n report.clientRef
              ∧ report.clientRef ∈ front.map (·.clientRef))) →
          (run ParentBook.step book (front ++ back)).parentState parent = some verdict)) := by
  have hfront : ∀ report ∈ front, OfParent parent n report := fun r hr =>
    hof r (List.mem_append_left _ hr)
  have hiff := parentState_eq_iff (tracks_run hfresh hfront) hverdict
  refine ⟨hiff, fun h => ⟨fun hslices ref hslice => ?_, ?_, fun hknown => ?_⟩⟩
  · obtain ⟨state, hlast⟩ := lastReported_of_mem (hslices ref hslice)
    rw [hlast, (hiff.mp h).2 ref state hlast]
  · rintro report rest rfl
    have hnext : ∀ r ∈ front ++ [report], OfParent parent n r := by
      intro r hr
      refine hof r ?_
      rcases List.mem_append.mp hr with hr | hr
      · exact List.mem_append_left _ hr
      · rw [List.mem_singleton.mp hr]
        simp
    exact keeps_verdict_iff hfresh hnext hverdict h
  · exact keeps_verdict_run hfresh hof hfollow hverdict h hknown

/-! ### Two slices -/

/-- Refs that are reported once each follow any table. -/
theorem slicesFollow_of_nodup {reports : List Report} (h : (reports.map (·.clientRef)).Nodup)
    (parent : Bytes) (n : Int32) : SlicesFollow parent n reports := by
  rintro front report back rfl - state hlast
  obtain ⟨earlier, hmem, hsame, -⟩ := exists_of_lastReported hlast
  rw [List.map_append, List.map_cons] at h
  exact absurd (List.disjoint_of_nodup_append h (List.mem_map_of_mem hmem) (by simp [hsame]))
    not_false

def sampleRef : Bytes := ascii "alpha-1234abcd-uuid"

def onSlice (k : Int32) (state : OrderState) : Report := ⟨sampleRef, childRef sampleRef k, state⟩

def onExit (state : OrderState) : Report := ⟨sampleRef, exitClientRef sampleRef, state⟩

theorem ofParent_onSlice {k n : Int32} (hk : 1 ≤ k) (hn : k ≤ n) (state : OrderState) :
    OfParent sampleRef n (onSlice k state) :=
  ⟨.inl ⟨k, hk, hn, rfl⟩, .inl rfl⟩

theorem parent_verdict_two_slices :
    (run ParentBook.step .init [onSlice 1 .filled, onSlice 2 .filled, onExit .filled]).parentState
      sampleRef = some .filled := by
  have hof : ∀ report ∈ [onSlice 1 .filled, onSlice 2 .filled] ++ [onExit .filled],
      OfParent sampleRef 2 report := by
    simp only [List.cons_append, List.nil_append, List.forall_mem_cons, List.not_mem_nil,
      false_imp_iff, implies_true, and_true]
    exact ⟨ofParent_onSlice (by decide) (by decide) _, ofParent_onSlice (by decide) (by decide) _,
      ⟨.inr rfl, .inl rfl⟩⟩
  have hfresh : ParentBook.init.childrenByParent sampleRef = none := rfl
  have hverdict := parent_verdict hfresh hof (slicesFollow_of_nodup (by decide) _ _)
    (.inl rfl : IsVerdict .filled)
  have hfilled : (run ParentBook.step .init [onSlice 1 .filled, onSlice 2 .filled]).parentState
      sampleRef = some .filled := by decide
  exact (hverdict.2 hfilled).2.2 (by simp [onExit])

/-- **A parent of two slices is `Filled` after the first, and then not**: the fold knows of no
slice before it is reported. -/
theorem filled_too_early :
    SlicesFollow sampleRef 2 [onSlice 1 .filled, onSlice 2 .acknowledged]
      ∧ (∀ report ∈ [onSlice 1 .filled, onSlice 2 .acknowledged], OfParent sampleRef 2 report)
      ∧ (run ParentBook.step .init [onSlice 1 .filled]).parentState sampleRef = some .filled
      ∧ (run ParentBook.step .init [onSlice 1 .filled, onSlice 2 .acknowledged]).parentState
        sampleRef = some .partiallyPlaced
      ∧ ¬ VerdictFinal .init sampleRef 2 [onSlice 1 .filled, onSlice 2 .acknowledged] := by
  have hbefore : (run ParentBook.step .init [onSlice 1 .filled]).parentState sampleRef
      = some .filled := by decide
  have hafter : (run ParentBook.step .init
      [onSlice 1 .filled, onSlice 2 .acknowledged]).parentState sampleRef
      = some .partiallyPlaced := by decide
  refine ⟨slicesFollow_of_nodup (by decide) _ _, ?_, hbefore, hafter, fun hfinal => ?_⟩
  · simp only [List.forall_mem_cons, List.not_mem_nil, false_imp_iff, implies_true, and_true]
    exact ⟨ofParent_onSlice (by decide) (by decide) _, ofParent_onSlice (by decide) (by decide) _⟩
  · obtain ⟨-, hstays⟩ := hfinal [onSlice 1 .filled] [onSlice 2 .acknowledged] .filled rfl
      (.inl rfl) hbefore
    rw [hafter] at hstays
    cases hstays

end BrokerExec.Lifecycle
