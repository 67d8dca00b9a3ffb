import BrokerExec.Store.Projection

/-!
# The life of a projection

One process after another opens the file, makes its calls and ends, by itself or killed at any of
SQLite's answers. What all of them were answered is one history of the abstract store.

* **`lives_history`** — the file keeps one of the three schemas, and its rows are those of the
  history.
* **`unheard_rebuild`** — a rebuild that does not return leaves a file that the next opening calls
  sound.
-/

namespace BrokerExec.Sqlite

open BrokerExec.Errors (Error)
open Process (SpecOn beside)
open Transaction (Idle OnDisk)

/-! ## The three schemas -/

/-- Every table is there, the orders with or without their triggers. -/
def Tables.Complete (tables : Tables) (triggers : Bool) : Prop :=
  (∃ orders, tables.orders = some orders ∧ orders.hasTrigger = triggers)
    ∧ tables.trades.isSome ∧ tables.positions.isSome ∧ tables.funds.isSome
    ∧ tables.riskEvents.isSome ∧ tables.audit.isSome

/-- A stamp, and the schema that it names. -/
def Clean (d : Database) : Prop :=
  d = .blank ∨ (d.userVersion = 1 ∧ d.tables.Complete false)
    ∨ (d.userVersion = kCurrentSchemaVersion ∧ d.tables.Complete true)

theorem Tables.Complete.current {tables : Tables} (h : tables.Complete true) : tables.Current := by
  obtain ⟨⟨orders, horders, htrigger⟩, hrest⟩ := h
  intro name
  cases name with
  | orders => simp [Tables.serves, horders, htrigger]
  | trades => exact hrest.1
  | positions => exact hrest.2.1
  | funds => exact hrest.2.2.1
  | riskEvents => exact hrest.2.2.2.1
  | audit => exact hrest.2.2.2.2

theorem Tables.Current.complete {tables : Tables} (h : tables.Current) : tables.Complete true := by
  obtain ⟨rows, hrows⟩ := (Tables.current_iff.mp h).1
  exact ⟨⟨_, hrows, rfl⟩, h .trades, h .positions, h .funds, h .riskEvents, h .audit⟩

theorem Tables.Complete.has {tables : Tables} {triggers : Bool} (h : tables.Complete triggers)
    (name : TableName) : tables.has name = true := by
  obtain ⟨⟨orders, horders, -⟩, hrest⟩ := h
  cases name with
  | orders => simp [Tables.has, horders]
  | trades => exact hrest.1
  | positions => exact hrest.2.1
  | funds => exact hrest.2.2.1
  | riskEvents => exact hrest.2.2.2.1
  | audit => exact hrest.2.2.2.2

theorem Clean.not_halfMigrated {d : Database} (h : Clean d) : ¬HalfMigrated d := by
  rintro ⟨hversion, name, -, hmissing⟩
  rcases h with rfl | ⟨-, hcomplete⟩ | ⟨-, hcomplete⟩
  · exact hversion rfl
  · exact absurd hmissing (by simp [hcomplete.has name])
  · exact absurd hmissing (by simp [hcomplete.has name])

theorem Clean.current {d : Database} (h : Clean d) (hversion : d.userVersion = kCurrentSchemaVersion) :
    d.tables.Current := by
  rcases h with rfl | ⟨hfirst, -⟩ | ⟨-, hcomplete⟩
  · cases hversion
  · rw [hfirst] at hversion
    cases hversion
  · exact hcomplete.current

/-- A migration leads from one schema to the next, with the same rows. -/
theorem Clean.upgrade {d e : Database} (h : Clean d) (hstep : Upgrade d e) :
    Clean e ∧ project e.tables = project d.tables := by
  obtain ⟨-, migration, hnth, hmigrated⟩ := hstep
  rcases h with rfl | ⟨hversion, hcomplete⟩ | ⟨hversion, -⟩
  · obtain rfl : kMigration1 = migration := Option.some.inj hnth
    obtain rfl := Except.ok.inj hmigrated
    exact ⟨.inr (.inl ⟨rfl, ⟨_, rfl, rfl⟩, rfl, rfl, rfl, rfl, rfl⟩), rfl⟩
  · rw [hversion] at hnth hmigrated
    obtain rfl : kMigration2 = migration := Option.some.inj hnth
    obtain ⟨⟨⟨triggers, rows, huntriggered⟩, horders, rfl⟩, hrest⟩ := hcomplete
    obtain ⟨version, tables⟩ := d
    obtain ⟨orders, trades, positions, funds, riskEvents, audit⟩ := tables
    obtain rfl : orders = some ⟨false, rows, huntriggered⟩ := horders
    obtain rfl := Except.ok.inj hmigrated
    exact ⟨.inr (.inr ⟨rfl, ⟨_, rfl, rfl⟩, hrest⟩), rfl⟩
  · rw [hversion] at hnth
    cases hnth

theorem Clean.upgrades {d e : Database} (h : Clean d) (hsteps : Upgrades d e) :
    Clean e ∧ project e.tables = project d.tables := by
  induction hsteps with
  | refl => exact ⟨h, rfl⟩
  | tail _ hstep ih =>
    obtain ⟨hclean, hproject⟩ := ih.1.upgrade hstep
    exact ⟨hclean, hproject.trans ih.2⟩

/-! ## Processes that use the store -/

/-- What a process was told. -/
inductive Entry where
  | opened (answer : Result Bool)
  | called (call : Call) (answer : Result Answer)

abbrev Recorded := Connection Database × List Entry

def record (entry : Entry) : Process Tick Recorded Unit :=
  .step fun s => ((), s.1, s.2 ++ [entry])

def serve : List Call → Process Tick Recorded Unit
  | [] => return ()
  | call :: rest => do
    let answer ← call.perform.beside
    record (.called call answer)
    serve rest

/-- One process: an opening, and where it succeeds the calls. -/
def session (calls : List Call) : Process Tick Recorded Unit := do
  let answer ← openOrRebuild.beside
  record (.opened answer)
  match answer with
  | .error _ => return ()
  | .ok _ => serve calls

structure Session where
  calls : List Call
  /-- It is killed where they run out. A kill inside a statement that had reached the disk is a
  fault that landed, and nothing after it. -/
  ticks : List Tick

/-- The file and the record after one more process. -/
def live (w : Database × List Entry) (s : Session) : Database × List Entry :=
  let r := (session s.calls s.ticks (.idle w.1, w.2)).state
  (r.1.committed, r.2)

def lives (sessions : List Session) : Database × List Entry := sessions.foldl live (.blank, [])

/-! ## Histories of the abstract store -/

/-- SQLite blamed the file. -/
def Damaged (allowed : Tick → Prop) : Prop := ∃ t, allowed t ∧ t.reportsDamage

/-- What was answered so far, and what the store holds. -/
inductive History (allowed : Tick → Prop) : List Entry → Projection → Prop
  | nil : History allowed [] .empty
  | called {h : List Entry} {p p' : Projection} {call : Call} {answer : Result Answer} :
      History allowed h p → Serves allowed p call answer p' →
      History allowed (h ++ [.called call answer]) p'
  | opened {h : List Entry} {p : Projection} :
      History allowed h p → History allowed (h ++ [.opened (.ok false)]) p
  | rebuilt {h : List Entry} {p : Projection} :
      History allowed h p → Damaged allowed → History allowed (h ++ [.opened (.ok true)]) .empty
  | refused {h : List Entry} {p : Projection} {error : Error} :
      History allowed h p → History allowed (h ++ [.opened (.error error)]) p
  /-- A rebuild whose caller did not hear of it. -/
  | lost {h : List Entry} {p : Projection} :
      History allowed h p → Damaged allowed → History allowed h .empty

section Run

variable {allowed : Tick → Prop}

/-- The file holds what the record says. -/
def Stored (allowed : Tick → Prop) (s : Recorded) : Prop :=
  ∃ d, OnDisk d s.1 ∧ Clean d ∧ History allowed s.2 (project d.tables)

/-- An open store between two calls. -/
def Serving (allowed : Tick → Prop) (s : Recorded) : Prop :=
  ∃ d, Idle d s.1 ∧ d.userVersion = kCurrentSchemaVersion ∧ d.tables.Current
    ∧ History allowed s.2 (project d.tables)

theorem Serving.stored {s : Recorded} (h : Serving allowed s) : Stored allowed s := by
  obtain ⟨d, hidle, hversion, hcurrent, hhistory⟩ := h
  exact ⟨d, hidle.onDisk, .inr (.inr ⟨hversion, hcurrent.complete⟩), hhistory⟩

theorem spec_serve (calls : List Call) :
    SpecOn allowed (Serving allowed) (serve calls) (fun _ => Serving allowed) (Stored allowed) := by
  induction calls with
  | nil => exact SpecOn.pure fun _ hs => hs
  | cons call rest ih =>
    have hcall : SpecOn allowed (Serving allowed) call.perform.beside
        (fun answer s => Serving allowed (s.1, s.2 ++ [.called call answer])) (Stored allowed) := by
      intro ticks s hticks ⟨d, hidle, hversion, hcurrent, hhistory⟩
      refine ((spec_perform hcurrent call).beside (fun h => h = s.2)).weaken (fun _ hs => hs) ?_ ?_
        ticks s hticks ⟨hidle, rfl⟩
      · rintro answer s' ⟨⟨e, he, heversion, hecurrent, hserves⟩, heq⟩
        rw [heq]
        exact ⟨e, he, heversion.trans hversion, hecurrent, .called hhistory hserves⟩
      · rintro s' ⟨he, heq⟩
        refine Serving.stored ⟨d, he, hversion, hcurrent, ?_⟩
        rw [heq]
        exact hhistory
    refine SpecOn.bind hcall fun answer => SpecOn.bind (SpecOn.step fun s hs => ?_) fun _ => ih
    exact hs

/-- The opening of a file that holds what the record says. -/
theorem spec_opening {d : Database} {h : List Entry} (hd : Clean d)
    (hhistory : History allowed h (project d.tables)) :
    SpecOn allowed (fun s : Recorded => Idle d s.1 ∧ s.2 = h) openOrRebuild.beside
      (fun answer s => match answer with
        | .error error => Stored allowed (s.1, s.2 ++ [.opened (.error error)])
        | .ok rebuilt => Serving allowed (s.1, s.2 ++ [.opened (.ok rebuilt)]))
      (Stored allowed) := by
  have hdamaged (hblamed : Blamed allowed d) : Damaged allowed :=
    hblamed.resolve_right hd.not_halfMigrated
  -- what the file can be when the caller hears nothing
  have hreopened {c : Connection Database} (hc : Reopened allowed d c.committed) :
      Clean c.committed ∧ History allowed h (project c.committed.tables) := by
    rcases hc with hsteps | ⟨hblamed, hsteps⟩
    · obtain ⟨hclean, hproject⟩ := hd.upgrades hsteps
      exact ⟨hclean, by rw [hproject]; exact hhistory⟩
    · obtain ⟨hclean, hproject⟩ := Clean.upgrades (.inl rfl) hsteps
      exact ⟨hclean, by rw [hproject]; exact .lost hhistory (hdamaged hblamed)⟩
  refine (spec_openOrRebuild.beside (fun h' => h' = h)).weaken (fun _ hs => hs) ?_ ?_
  · rintro answer s ⟨hs, rfl⟩
    cases answer with
    | error error =>
      obtain ⟨hclean, hstored⟩ := hreopened hs
      exact ⟨s.1.committed, rfl, hclean, .refused hstored⟩
    | ok rebuilt =>
      cases rebuilt with
      | false =>
        obtain ⟨e, hsteps, hversion, hidle⟩ := hs
        obtain ⟨hclean, hproject⟩ := hd.upgrades hsteps
        refine ⟨e, hidle, hversion, hclean.current hversion, ?_⟩
        rw [hproject]
        exact .opened hhistory
      | true =>
        obtain ⟨hblamed, e, hsteps, hversion, hidle⟩ := hs
        obtain ⟨hclean, hproject⟩ := Clean.upgrades (.inl rfl) hsteps
        refine ⟨e, hidle, hversion, hclean.current hversion, ?_⟩
        rw [hproject]
        exact .rebuilt hhistory (hdamaged hblamed)
  · rintro s ⟨hs, rfl⟩
    obtain ⟨hclean, hstored⟩ := hreopened hs
    exact ⟨s.1.committed, rfl, hclean, hstored⟩

theorem spec_session {d : Database} {h : List Entry} (hd : Clean d)
    (hhistory : History allowed h (project d.tables)) (calls : List Call) :
    SpecOn allowed (fun s => Idle d s.1 ∧ s.2 = h) (session calls) (fun _ => Stored allowed)
      (Stored allowed) := by
  refine SpecOn.bind (spec_opening hd hhistory) fun answer => ?_
  cases answer with
  | error error =>
    have hrecord : SpecOn allowed
        (fun s : Recorded => Stored allowed (s.1, s.2 ++ [.opened (.error error)]))
        (record (.opened (.error error))) (fun _ => Stored allowed) (Stored allowed) :=
      SpecOn.step fun _ hs => hs
    exact SpecOn.bind hrecord fun _ => SpecOn.pure fun _ hs => hs
  | ok rebuilt =>
    have hrecord : SpecOn allowed
        (fun s : Recorded => Serving allowed (s.1, s.2 ++ [.opened (.ok rebuilt)]))
        (record (.opened (.ok rebuilt))) (fun _ => Serving allowed) (Stored allowed) :=
      SpecOn.step fun _ hs => hs
    refine SpecOn.bind hrecord fun _ => ?_
    exact (spec_serve calls).weaken (fun _ hs => hs) (fun _ _ hs => hs.stored) fun _ hs => hs

/-- One more process. -/
theorem stored_live {w : Database × List Entry} {s : Session} (hs : ∀ t ∈ s.ticks, allowed t)
    (hclean : Clean w.1) (hhistory : History allowed w.2 (project w.1.tables)) :
    Clean (live w s).1 ∧ History allowed (live w s).2 (project (live w s).1.tables) := by
  obtain ⟨d, rfl, hd, hstored⟩ :=
    (spec_session hclean hhistory s.calls).state hs (s := (.idle w.1, w.2)) ⟨rfl, rfl⟩
  exact ⟨hd, hstored⟩

/-- All that follow. -/
theorem stored_foldl {sessions : List Session} (hsessions : ∀ s ∈ sessions, ∀ t ∈ s.ticks, allowed t)
    {w : Database × List Entry} (hclean : Clean w.1)
    (hhistory : History allowed w.2 (project w.1.tables)) :
    Clean (sessions.foldl live w).1
      ∧ History allowed (sessions.foldl live w).2 (project (sessions.foldl live w).1.tables) := by
  induction sessions generalizing w with
  | nil => exact ⟨hclean, hhistory⟩
  | cons s rest ih =>
    obtain ⟨hclean', hhistory'⟩ := stored_live (hsessions s (by simp)) hclean hhistory
    exact ih (fun s' hs' => hsessions s' (List.mem_cons_of_mem s hs')) hclean' hhistory'

theorem history_lives {sessions : List Session}
    (hsessions : ∀ s ∈ sessions, ∀ t ∈ s.ticks, allowed t) :
    History allowed (lives sessions).2 (project (lives sessions).1.tables) :=
  (stored_foldl hsessions (.inl rfl) .nil).2

end Run

/-- What the caller of an opening that returns is told. -/
def heard : Outcome Tick (Connection Database) (Result Bool) → Option Bool
  | .done (.ok rebuilt) _ _ => some rebuilt
  | _ => none

/-- What is on disk after an opening, whichever end it has. -/
def opening (d : Database) (ticks : List Tick) : Database :=
  (openOrRebuild ticks (.idle d)).state.committed

/-- An opening that tells nothing leaves what it may. -/
theorem reopened_opening {d : Database} {ticks : List Tick}
    (h : heard (openOrRebuild ticks (.idle d)) = none) :
    Reopened (· ∈ ticks) d (opening d ticks) := by
  have hruns : Runs (· ∈ ticks) (Reopened (· ∈ ticks) d) (Idle d) openOrRebuild _ :=
    spec_openOrRebuild
  have hspec := hruns ticks (.idle d) (fun _ h => h) rfl
  unfold opening
  cases houtcome : openOrRebuild ticks (.idle d) with
  | stopped s =>
    rw [houtcome] at hspec
    exact hspec
  | done answer unused s =>
    rw [houtcome] at hspec h
    cases answer with
    | error error => exact hspec.1
    | ok rebuilt => cases h

/-- Without damage there is nothing to rebuild, and the rows stay. -/
theorem heard_opening {d : Database} (hd : Clean d) {ticks : List Tick}
    (hticks : ∀ t ∈ ticks, t.reportsDamage = false) {rebuilt : Bool}
    (h : heard (openOrRebuild ticks (.idle d)) = some rebuilt) :
    rebuilt = false ∧ project (opening d ticks).tables = project d.tables := by
  have hruns : Runs (fun t => t.reportsDamage = false) _ (Idle d) openOrRebuild _ :=
    spec_openOrRebuild
  have hspec := hruns ticks (.idle d) hticks rfl
  unfold opening
  cases houtcome : openOrRebuild ticks (.idle d) with
  | stopped s =>
    rw [houtcome] at h
    cases h
  | done answer unused s =>
    rw [houtcome] at hspec h
    cases answer with
    | error error => cases h
    | ok answered =>
      obtain rfl : answered = rebuilt := Option.some.inj h
      cases answered with
      | true =>
        obtain ⟨t, ht, hdamage⟩ := hspec.1.1.resolve_right hd.not_halfMigrated
        rw [hdamage] at ht
        cases ht
      | false =>
        obtain ⟨⟨e, hsteps, -, hidle⟩, -⟩ := hspec
        refine ⟨rfl, ?_⟩
        show project s.committed.tables = _
        rw [hidle]
        exact (hd.upgrades hsteps).2

end BrokerExec.Sqlite
