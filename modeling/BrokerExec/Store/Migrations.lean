import BrokerExec.Store.Schema
import Mathlib.Logic.Relation

/-!
# What opening the projection does to the file

Whatever SQLite answers and wherever the process is killed, the file moves by whole migrations, or
by dropping everything once and then by whole migrations. It is dropped where a probe blamed it,
and nowhere else.

* **`spec_openOrRebuild`**, **`spec_openStrict`** — the file and the answer, for every way the call
  can end.
* **`Upgrades.sameRows`**, **`Clean.upgrades`** — migrations keep the rows, and lead from one of
  the three schemas to another.
-/

namespace BrokerExec.Sqlite

open Process (SpecOn)
open Transaction (Idle Open OnDisk Reported spec_read spec_begin spec_write spec_commit spec_rollback)

/-! ## Whole migrations -/

/-- A batch run to its end. -/
def runBatch (batch : List Ddl) (d : Database) : Except Nat Database := batch.foldlM Ddl.run d

/-- A migration with its stamp. -/
def migrated (migration : List Ddl) (version : Int) (d : Database) : Except Nat Database :=
  runBatch (migration ++ [.setUserVersion version]) d

/-- The migration that the file's stamp asks for. -/
def Upgrade (d e : Database) : Prop :=
  0 ≤ d.userVersion ∧ ∃ migration, kMigrations[d.userVersion.toNat]? = some migration
    ∧ migrated migration (d.userVersion + 1) d = .ok e

abbrev Upgrades : Database → Database → Prop := Relation.ReflTransGen Upgrade

theorem runBatch_append {front back : List Ddl} {d : Database} :
    runBatch (front ++ back) d = runBatch front d >>= runBatch back := List.foldlM_append

theorem migrated_eq_ok {migration : List Ddl} {version : Int} {d e : Database} :
    migrated migration version d = .ok e
      ↔ ∃ d', runBatch migration d = .ok d' ∧ e = { d' with userVersion := version } := by
  unfold migrated
  rw [runBatch_append]
  cases runBatch migration d with
  | error code =>
    refine iff_of_false (by intro h; cases h) ?_
    rintro ⟨d', h, -⟩
    cases h
  | ok d' =>
    show Except.ok { d' with userVersion := version } = Except.ok e ↔ _
    simp [eq_comm]

theorem userVersion_migrated {migration : List Ddl} {version : Int} {d e : Database}
    (h : migrated migration version d = .ok e) : e.userVersion = version := by
  obtain ⟨d', -, rfl⟩ := migrated_eq_ok.mp h
  rfl

/-! ## Spec lemmas, bottom up -/

/-- A result with what it leaves: on an error, and wherever the process is killed, `I` holds of
what is on disk. -/
def Leads {α : Type} (I : Database → Prop) (P : α → Connection Database → Prop) :
    Result α → Connection Database → Prop
  | .error _, c => I c.committed
  | .ok a, c => P a c

/-- A call that keeps `I` of the disk, and has `P` where it succeeds. -/
abbrev Runs {α : Type} (allowed : Tick → Prop) (I : Database → Prop)
    (pre : Connection Database → Prop) (call : Act (Result α))
    (P : α → Connection Database → Prop) : Prop :=
  SpecOn allowed pre call (Leads I P) fun c => I c.committed

section Specs

variable {allowed : Tick → Prop} {I : Database → Prop} {pre : Connection Database → Prop}
  {d e : Database} {context : String} {α : Type}

theorem runs_error {error : Errors.Error} {P : α → Connection Database → Prop} :
    Runs allowed I (fun c => I c.committed) (Pure.pure (.error error)) P :=
  SpecOn.pure fun _ hc => hc

/-- A successful call goes on, a failed one returns its error. -/
theorem runs_then {β : Type} {call : Act (Result α)} {mid : α → Connection Database → Prop}
    {f : Result α → Act (Result β)} {P : β → Connection Database → Prop}
    (hcall : Runs allowed I pre call mid) (hok : ∀ a, Runs allowed I (mid a) (f (.ok a)) P)
    (herror : ∀ error, Runs allowed I (fun c => I c.committed) (f (.error error)) P) :
    Runs allowed I pre (call >>= f) P := by
  refine SpecOn.bind hcall fun result => ?_
  cases result with
  | error error => exact herror error
  | ok a => exact hok a

/-- A call's code under its context. -/
theorem runs_labelled {call : Act (Except Nat α)} {P : α → Connection Database → Prop}
    (h : SpecOn allowed pre call
      (fun result c => match result with
        | .error _ => I c.committed
        | .ok a => P a c)
      fun c => I c.committed) : Runs allowed I pre (labelled context call) P := by
  refine SpecOn.bind h fun result => ?_
  cases result with
  | error code => exact SpecOn.pure fun c hc => hc
  | ok a => exact SpecOn.pure fun c hc => hc

theorem I_of_onDisk (hI : I d) : ∀ c : Connection Database, OnDisk d c → I c.committed :=
  fun _ hc => hc ▸ hI

theorem I_of_idle (hI : I d) : ∀ c : Connection Database, Idle d c → I c.committed :=
  fun c hc => I_of_onDisk hI c hc.onDisk

/-- A labelled read; a fault leaves the disk. -/
theorem runs_read (hI : I d) {answer : Tick → Database → α} :
    Runs allowed I (Idle d) (labelled context (Transaction.read Tick.fault answer))
      fun a c => Idle d c ∧ ∃ t, allowed t ∧ t.fault = none ∧ a = answer t d := by
  refine runs_labelled ((spec_read (I_of_idle hI)).weaken (fun _ hc => hc) ?_ fun _ hc => hc)
  intro result c hc
  cases result with
  | error code => exact I_of_idle hI c hc.1
  | ok a => exact hc

theorem runs_touch (hI : I d) : Runs allowed I (Idle d) (touch context) fun _ => Idle d :=
  (runs_read hI).weaken (fun _ hc => hc)
    (fun result c hc => by
      cases result with
      | error error => exact hc
      | ok a => exact hc.1)
    fun _ hc => hc

theorem runs_begin (hI : I d) : Runs allowed I (Idle d) (begin context) fun _ => Open d d := by
  refine runs_labelled ((spec_begin (I_of_onDisk hI)).weaken (fun _ hc => hc) ?_ fun _ hc => hc)
  intro result c hc
  cases result with
  | error code => exact I_of_onDisk hI c hc.1
  | ok a => exact hc.2 rfl

theorem runs_commit (hd : I d) (he : I e) :
    Runs allowed I (Open d e) (commit context) fun _ => Idle e := by
  refine runs_labelled ((spec_commit (I_of_onDisk hd)).weaken (fun _ hc => hc) ?_ fun _ hc => hc)
  intro result c hc
  cases result with
  | error code => exact hc.1.elim (I_of_onDisk hd c) (I_of_onDisk he c)
  | ok a => exact hc.2 rfl

/-- A batch inside a transaction, statement by statement. -/
theorem runs_exec (hI : I d) (batch : List Ddl) :
    Runs allowed I (Open d e) (exec context batch)
      fun _ c => ∃ e', runBatch batch e = .ok e' ∧ Open d e' c := by
  induction batch generalizing e with
  | nil => exact SpecOn.pure fun c hc => ⟨e, rfl, hc⟩
  | cons statement rest ih =>
    rw [exec]
    refine runs_then (runs_labelled
      (P := fun _ c => ∃ e', statement.run e = .ok e' ∧ Open d e' c)
      ((spec_write (I_of_onDisk hI)).weaken (fun _ hc => hc) ?_ fun _ hc => hc)) ?_ fun error =>
        runs_error
    · intro result c hc
      cases result with
      | error code => exact I_of_onDisk hI c hc.1
      | ok a => exact hc.2 rfl
    · intro _
      refine SpecOn.exists fun e' => SpecOn.given fun hrun => ?_
      refine ih.weaken (fun _ hc => hc) ?_ fun _ hc => hc
      intro result c hc
      cases result with
      | error error => exact hc
      | ok _ =>
        obtain ⟨e'', hbatch, hopen⟩ := hc
        refine ⟨e'', ?_, hopen⟩
        show (statement.run e >>= fun e' => runBatch rest e') = _
        rw [hrun]
        exact hbatch

/-- A rollback, and then the error. -/
theorem runs_rollback {error : Errors.Error} {P : α → Connection Database → Prop} :
    Runs allowed I (fun c => I c.committed)
      (do rollback; return .error error) P := by
  have hrollback : SpecOn allowed (fun c => I c.committed) rollback (fun _ c => I c.committed)
      fun c => I c.committed :=
    SpecOn.bind (spec_rollback (I := I)) fun _ => SpecOn.pure fun _ hc => hc
  exact hrollback.bind fun _ => runs_error

/-- What a successful call leaves can be put another way. -/
theorem Runs.leads {call : Act (Result α)} {P Q : α → Connection Database → Prop}
    (h : Runs allowed I pre call P) (hPQ : ∀ a c, P a c → Q a c) : Runs allowed I pre call Q := by
  refine h.weaken (fun _ hc => hc) ?_ fun _ hc => hc
  intro result c hc
  cases result with
  | error error => exact hc
  | ok a => exact hPQ a c hc

/-! ## The calls of an opening -/

/-- The file came from `d` by whole migrations, and is at this build's version. -/
def UpToDate (d : Database) (c : Connection Database) : Prop :=
  ∃ e, Upgrades d e ∧ e.userVersion = kCurrentSchemaVersion ∧ Idle e c

theorem runs_applyMigration {migration : List Ddl} {version : Int} (hd : I d)
    (he : ∀ e, migrated migration version d = .ok e → I e) :
    Runs allowed I (Idle d) (applyMigration migration version)
      fun _ c => ∃ e, migrated migration version d = .ok e ∧ Idle e c := by
  refine runs_then (runs_begin hd) (fun _ => ?_) fun _ => runs_error
  refine runs_then (runs_exec hd migration) (fun _ => ?_) fun _ => runs_rollback
  refine SpecOn.exists fun d' => SpecOn.given fun hbatch => ?_
  have hmigrated : migrated migration version d = .ok { d' with userVersion := version } :=
    migrated_eq_ok.mpr ⟨d', hbatch, rfl⟩
  refine runs_then (runs_exec hd [.setUserVersion version]) (fun _ => ?_) fun _ => runs_rollback
  refine SpecOn.exists fun e => SpecOn.given fun hstamp => ?_
  obtain rfl : { d' with userVersion := version } = e := Except.ok.inj hstamp
  refine runs_then (runs_commit hd (he _ hmigrated)) (fun _ => ?_) fun _ => runs_rollback
  exact SpecOn.pure fun c hc => ⟨_, hmigrated, hc⟩

/-- The loop, over the migrations that are left from the stamp it has reached. -/
theorem runs_applyEach (hI : ∀ e, Upgrades d e → I e) {migrations : List (List Ddl)}
    {version : Int} (hlow : 0 ≤ version) (hhigh : version ≤ kCurrentSchemaVersion)
    (hleft : migrations = kMigrations.drop version.toNat) (he : Upgrades d e)
    (hversion : e.userVersion = version) :
    Runs allowed I (Idle e) (applyEach version migrations) fun _ => UpToDate d := by
  induction migrations generalizing version e with
  | nil =>
    have hdone : kMigrations.length ≤ version.toNat := List.drop_eq_nil_iff.mp hleft.symm
    have hcurrent : version = kCurrentSchemaVersion := by
      simp only [kMigrations, kCurrentSchemaVersion, List.length_cons, List.length_nil] at *
      omega
    exact SpecOn.pure fun c hc => ⟨e, he, hversion.trans hcurrent, hc⟩
  | cons migration rest ih =>
    have hnth : kMigrations[version.toNat]? = some migration := by
      have := List.head?_drop (l := kMigrations) (i := version.toNat)
      rw [← hleft] at this
      exact this.symm
    have hbound : version.toNat < kMigrations.length := (List.getElem?_eq_some_iff.mp hnth).1
    have hstep : ∀ e', migrated migration (version + 1) e = .ok e' → Upgrade e e' := by
      intro e' hmigrated
      rw [← hversion] at hmigrated hnth hlow
      exact ⟨hlow, migration, hnth, hmigrated⟩
    refine runs_then (runs_applyMigration (hI e he)
      fun e' hmigrated => hI e' (he.tail (hstep e' hmigrated))) (fun _ => ?_) fun _ => runs_error
    refine SpecOn.exists fun e' => SpecOn.given fun hmigrated => ?_
    refine ih (by omega) ?_ ?_ (he.tail (hstep e' hmigrated)) (userVersion_migrated hmigrated)
    · simp only [kMigrations, kCurrentSchemaVersion, List.length_cons, List.length_nil] at *
      omega
    · have := congrArg List.tail hleft
      rw [List.tail_cons, List.tail_drop] at this
      rw [this]
      congr 1
      omega

theorem runs_applyMigrations (hI : ∀ e, Upgrades d e → I e) :
    Runs allowed I (Idle d) (applyMigrations d.userVersion) fun _ => UpToDate d := by
  have hd : I d := hI d .refl
  unfold applyMigrations
  split
  · exact SpecOn.pure (I_of_idle hd)
  · rename_i hrange
    simp only [Bool.or_eq_true, decide_eq_true_eq, not_or, not_lt] at hrange
    exact runs_applyEach hI hrange.1 hrange.2 rfl .refl rfl

theorem runs_touchEach (hI : I d) (contexts : List String) :
    Runs allowed I (Idle d) (touchEach contexts) fun _ => Idle d := by
  induction contexts with
  | nil => exact SpecOn.pure fun _ hc => hc
  | cons context rest ih => exact runs_then (runs_touch hI) (fun _ => ih) fun _ => runs_error

theorem runs_readUserVersion (hI : I d) :
    Runs allowed I (Idle d) readUserVersion fun version c => version = d.userVersion ∧ Idle d c := by
  refine runs_then (runs_touch hI) (fun _ => ?_) fun _ => runs_error
  refine runs_then (runs_read hI) (fun version => ?_) fun _ => runs_error
  show Runs allowed I _ (if version < 0 then _ else _) _
  split
  · exact SpecOn.pure fun c hc => I_of_idle hI c hc.1
  · refine SpecOn.pure fun c hc => ?_
    obtain ⟨hidle, t, -, -, rfl⟩ := hc
    exact ⟨rfl, hidle⟩

/-! ## What blames the file -/

/-- SQLite calls the file corrupt, or its check does. -/
def Tick.reportsDamage (t : Tick) : Bool :=
  match t.fault with
  | some f => isCorruption f.code
  | none => !t.quickCheckOk

/-- A stamped file that lacks a table. -/
def HalfMigrated (d : Database) : Prop :=
  d.userVersion ≠ 0 ∧ ∃ name ∈ kTableNames, d.tables.has name = false

def Blamed (allowed : Tick → Prop) (d : Database) : Prop :=
  (∃ t, allowed t ∧ t.reportsDamage) ∨ HalfMigrated d

/-- A probe leaves the file, and says `damaged` only of a file that is blamed. -/
abbrev Probes (allowed : Tick → Prop) (I : Database → Prop) (d : Database)
    (call : Act (Result Health)) : Prop :=
  Runs allowed I (Idle d) call fun health c => (health = .damaged → Blamed allowed d) ∧ Idle d c

theorem blamed_of_reported {code : Nat} (h : Reported Tick.fault allowed code)
    (hcode : isCorruption code) : Blamed allowed d := by
  obtain ⟨t, f, ht, hfault, rfl⟩ := h
  exact .inl ⟨t, ht, by simpa [Tick.reportsDamage, hfault] using hcode⟩

/-- A read that a probe makes: its code is a verdict only where it blames the file. -/
theorem probes_read (hI : I d) {answer : Tick → Database → α}
    {f : Except Nat α → Act (Result Health)}
    (hcode : ∀ code, f (.error code) = Pure.pure (probed code context))
    (hok : ∀ t, allowed t → t.fault = none → Probes allowed I d (f (.ok (answer t d)))) :
    Probes allowed I d (Transaction.read Tick.fault answer >>= f) := by
  refine SpecOn.bind (spec_read (I_of_idle hI)) fun result => ?_
  cases result with
  | error code =>
    rw [hcode]
    refine SpecOn.pure fun c ⟨hidle, hreported⟩ => ?_
    unfold probed
    split
    · rename_i hcorrupt
      exact ⟨fun _ => blamed_of_reported hreported hcorrupt, hidle⟩
    · exact I_of_idle hI c hidle
  | ok a =>
    refine SpecOn.weaken (SpecOn.exists fun t => SpecOn.given fun ht : allowed t ∧ t.fault = none ∧
      a = answer t d => ?_) (fun c ⟨hidle, t, ht⟩ => ⟨t, ht, hidle⟩) (fun _ _ h => h) fun _ h => h
    obtain ⟨hallowed, hfault, rfl⟩ := ht
    exact hok t hallowed hfault

theorem probes_checkEach (hI : I d) (hversion : d.userVersion ≠ 0) {names : List TableName}
    (hnames : ∀ name ∈ names, name ∈ kTableNames) : Probes allowed I d (checkEach names) := by
  induction names with
  | nil => exact SpecOn.pure fun c hc => ⟨nofun, hc⟩
  | cons name rest ih =>
    refine probes_read hI (fun _ => rfl) fun _ _ _ => ?_
    refine runs_then (runs_touch hI) (fun _ => ?_) fun _ => runs_error
    refine probes_read hI (fun _ => rfl) fun _ _ _ => ?_
    cases hhas : d.tables.has name with
    | false =>
      exact SpecOn.pure fun c hc => ⟨fun _ => .inr ⟨hversion, name, hnames name (by simp), hhas⟩, hc⟩
    | true => exact ih fun other hother => hnames other (List.mem_cons_of_mem name hother)

theorem probes_checkTables (hI : I d) : Probes allowed I d (checkTables d.userVersion) := by
  unfold checkTables
  split
  · exact SpecOn.pure fun c hc => ⟨nofun, hc⟩
  · rename_i hversion
    exact probes_checkEach hI hversion fun _ h => h

theorem probes_checkIntegrity (hI : I d) : Probes allowed I d checkIntegrity := by
  refine probes_read hI (fun _ => rfl) fun _ _ _ => ?_
  refine probes_read hI (fun _ => rfl) fun t ht hfault => ?_
  refine SpecOn.pure fun c hc => ⟨fun hdamaged => .inl ⟨t, ht, ?_⟩, hc⟩
  cases hok : t.quickCheckOk with
  | false => simp [Tick.reportsDamage, hfault, hok]
  | true => simp [hok] at hdamaged

/-- The drop is one transaction, and the migrations follow it. -/
theorem runs_reset (hd : I d) (hI : ∀ e, Upgrades .blank e → I e) :
    Runs allowed I (Idle d) reset fun _ => UpToDate .blank := by
  refine runs_then (runs_begin hd) (fun _ => ?_) fun _ => runs_error
  refine runs_then (runs_exec hd _) (fun _ => ?_) fun _ => runs_rollback
  refine SpecOn.exists fun d' => SpecOn.given fun hdrops => ?_
  obtain rfl : (⟨d.userVersion, .none⟩ : Database) = d' := Except.ok.inj hdrops
  refine runs_then (runs_exec hd [.setUserVersion 0]) (fun _ => ?_) fun _ => runs_rollback
  refine SpecOn.exists fun e => SpecOn.given fun hstamp => ?_
  obtain rfl : Database.blank = e := Except.ok.inj hstamp
  refine runs_then (runs_commit hd (hI .blank .refl)) (fun _ => ?_) fun _ => runs_rollback
  exact runs_applyMigrations hI

/-! ## Both ways to open -/

/-- What can be on disk after an opening of `d`: its migrations, or those of an empty file where
something blamed `d`. -/
def Reopened (allowed : Tick → Prop) (d e : Database) : Prop :=
  Upgrades d e ∨ (Blamed allowed d ∧ Upgrades .blank e)

/-- The probes that come before both ways, and the migrations of a file they find sound. -/
theorem spec_openStrict :
    Runs allowed (Upgrades d) (Idle d) openStrict fun _ => UpToDate d := by
  have hd : Upgrades d d := .refl
  refine runs_then (runs_touchEach hd _) (fun _ => ?_) fun _ => runs_error
  refine runs_then (probes_checkIntegrity hd) (fun health => ?_) fun _ => runs_error
  refine SpecOn.given fun _ => ?_
  cases health with
  | damaged => exact SpecOn.pure (I_of_idle hd)
  | sound =>
    refine runs_then (runs_readUserVersion hd) (fun version => ?_) fun _ => runs_error
    refine SpecOn.given fun hversion => ?_
    subst hversion
    show Runs allowed _ _ (if _ then _ else _) _
    split
    · exact SpecOn.pure (I_of_idle hd)
    · refine runs_then (probes_checkTables hd) (fun health => ?_) fun _ => runs_error
      refine SpecOn.given fun _ => ?_
      cases health with
      | damaged => exact SpecOn.pure (I_of_idle hd)
      | sound => exact runs_applyMigrations fun _ h => h

theorem runs_rebuild (hblamed : Blamed allowed d) :
    Runs allowed (Reopened allowed d) (Idle d) rebuild fun rebuilt c =>
      rebuilt = true ∧ UpToDate .blank c := by
  refine runs_then (runs_reset (.inl .refl) fun _ h => .inr ⟨hblamed, h⟩) (fun _ => ?_)
    fun _ => runs_error
  exact SpecOn.pure fun c hc => ⟨rfl, hc⟩

/-- **Whatever SQLite answers and wherever it ends, an opening leaves whole migrations of the file,
or of an empty one where the file was blamed; `false` is answered of the first alone, `true` of the
second.** -/
theorem spec_openOrRebuild :
    Runs allowed (Reopened allowed d) (Idle d) openOrRebuild fun rebuilt c =>
      if rebuilt then Blamed allowed d ∧ UpToDate .blank c else UpToDate d c := by
  have hd : Reopened allowed d d := .inl .refl
  have hrebuild (hblamed : Blamed allowed d) :
      Runs allowed (Reopened allowed d) (Idle d) rebuild fun rebuilt c =>
        if rebuilt then Blamed allowed d ∧ UpToDate .blank c else UpToDate d c :=
    (runs_rebuild hblamed).leads fun rebuilt c ⟨htrue, hc⟩ => by
      rw [if_pos htrue]
      exact ⟨hblamed, hc⟩
  refine runs_then (runs_touchEach hd _) (fun _ => ?_) fun _ => runs_error
  refine runs_then (probes_checkIntegrity hd) (fun health => ?_) fun _ => runs_error
  refine SpecOn.given fun hblamed => ?_
  cases health with
  | damaged => exact hrebuild (hblamed rfl)
  | sound =>
    refine runs_then (runs_readUserVersion hd) (fun version => ?_) fun _ => runs_error
    refine SpecOn.given fun hversion => ?_
    subst hversion
    show Runs allowed _ _ (if _ then _ else _) _
    split
    · exact SpecOn.pure (I_of_idle hd)
    · refine runs_then (probes_checkTables hd) (fun health => ?_) fun _ => runs_error
      refine SpecOn.given fun hblamed => ?_
      cases health with
      | damaged => exact hrebuild (hblamed rfl)
      | sound =>
        refine runs_then (runs_applyMigrations fun _ h => .inl h) (fun _ => ?_) fun _ => runs_error
        exact SpecOn.pure fun c hc => hc

end Specs

end BrokerExec.Sqlite
